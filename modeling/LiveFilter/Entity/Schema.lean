import LiveFilter.Error

/-! # Entity types and their attributes

The closed set of entity types, the links that lead from one type to another, and the plain
properties that each type carries.
-/

namespace LiveFilter

inductive EntityType where
  | thing
  | location
  | historicalLocation
  | datastream
  | multiDatastream
  | sensor
  | observedProperty
  | observation
  | featureOfInterest
deriving DecidableEq

inductive NavigationProperty where
  | thing
  | things
  | locations
  | historicalLocations
  | datastream
  | datastreams
  | multiDatastream
  | multiDatastreams
  | sensor
  | observedProperty
  | observedProperties
  | observations
  | featureOfInterest
deriving DecidableEq

inductive EntityProperty where
  | id
  | selfLink
  | name
  | description
  | definition
  | encodingType
  | location
  | feature
  | metadata
  | properties
  | time
  | unitOfMeasurement
  | unitOfMeasurements
  | observationType
  | multiObservationDataTypes
  | observedArea
  | phenomenonTime
  | resultTime
  | validTime
  | result
  | resultQuality
  | parameters
deriving DecidableEq

inductive Property where
  | entity (property : EntityProperty)
  | navigation (link : NavigationProperty)
deriving DecidableEq

namespace NavigationProperty

def all : List NavigationProperty :=
  [thing, things, locations, historicalLocations, datastream, datastreams, multiDatastream,
    multiDatastreams, sensor, observedProperty, observedProperties, observations,
    featureOfInterest]

theorem mem_all (n : NavigationProperty) : n ∈ all := by cases n <;> decide

def name : NavigationProperty → String
  | thing => "Thing"
  | things => "Things"
  | locations => "Locations"
  | historicalLocations => "HistoricalLocations"
  | datastream => "Datastream"
  | datastreams => "Datastreams"
  | multiDatastream => "MultiDatastream"
  | multiDatastreams => "MultiDatastreams"
  | sensor => "Sensor"
  | observedProperty => "ObservedProperty"
  | observedProperties => "ObservedProperties"
  | observations => "Observations"
  | featureOfInterest => "FeatureOfInterest"

def target : NavigationProperty → EntityType
  | thing | things => .thing
  | locations => .location
  | historicalLocations => .historicalLocation
  | datastream | datastreams => .datastream
  | multiDatastream | multiDatastreams => .multiDatastream
  | sensor => .sensor
  | observedProperty | observedProperties => .observedProperty
  | observations => .observation
  | featureOfInterest => .featureOfInterest

def isSet : NavigationProperty → Bool
  | things | locations | historicalLocations | datastreams | multiDatastreams
  | observedProperties | observations => true
  | thing | datastream | multiDatastream | sensor | observedProperty | featureOfInterest => false

def ofName? (name : String) : Option NavigationProperty :=
  all.find? (·.name = name)

end NavigationProperty

namespace EntityProperty

def all : List EntityProperty :=
  [id, selfLink, name, description, definition, encodingType, location, feature, metadata,
    properties, time, unitOfMeasurement, unitOfMeasurements, observationType,
    multiObservationDataTypes, observedArea, phenomenonTime, resultTime, validTime, result,
    resultQuality, parameters]

theorem mem_all (p : EntityProperty) : p ∈ all := by cases p <;> decide

/-- The name in payloads and filters. -/
def wireName : EntityProperty → String
  | id => "@iot.id"
  | selfLink => "@iot.selfLink"
  | name => "name"
  | description => "description"
  | definition => "definition"
  | encodingType => "encodingType"
  | location => "location"
  | feature => "feature"
  | metadata => "metadata"
  | properties => "properties"
  | time => "time"
  | unitOfMeasurement => "unitOfMeasurement"
  | unitOfMeasurements => "unitOfMeasurements"
  | observationType => "observationType"
  | multiObservationDataTypes => "multiObservationDataTypes"
  | observedArea => "observedArea"
  | phenomenonTime => "phenomenonTime"
  | resultTime => "resultTime"
  | validTime => "validTime"
  | result => "result"
  | resultQuality => "resultQuality"
  | parameters => "parameters"

def valueKind : EntityProperty → ValueKind
  | phenomenonTime | validTime => .interval
  | resultTime | time => .instant
  | _ => .scalar

/-- Reads the wire name; `id` and `selfLink` may also stand without their marker. -/
def parse (text : String) : Except ParseError EntityProperty :=
  if text = "id" then .ok id
  else if text = "selfLink" then .ok selfLink
  else
    match all.find? (·.wireName = text) with
    | some p => .ok p
    | none => .error (.unknownProperty text)

end EntityProperty

def Property.wireName : Property → String
  | entity p => p.wireName
  | navigation n => n.name

namespace EntityType

def all : List EntityType :=
  [thing, location, historicalLocation, datastream, multiDatastream, sensor, observedProperty,
    observation, featureOfInterest]

theorem mem_all (t : EntityType) : t ∈ all := by cases t <;> decide

def name : EntityType → String
  | thing => "Thing"
  | location => "Location"
  | historicalLocation => "HistoricalLocation"
  | datastream => "Datastream"
  | multiDatastream => "MultiDatastream"
  | sensor => "Sensor"
  | observedProperty => "ObservedProperty"
  | observation => "Observation"
  | featureOfInterest => "FeatureOfInterest"

def plural : EntityType → String
  | thing => "Things"
  | location => "Locations"
  | historicalLocation => "HistoricalLocations"
  | datastream => "Datastreams"
  | multiDatastream => "MultiDatastreams"
  | sensor => "Sensors"
  | observedProperty => "ObservedProperties"
  | observation => "Observations"
  | featureOfInterest => "FeaturesOfInterest"

/-- The links of the type, in the order in which they are listed. -/
def navigation : EntityType → List NavigationProperty
  | thing => [.locations, .historicalLocations, .datastreams, .multiDatastreams]
  | location => [.things, .historicalLocations]
  | historicalLocation => [.thing, .locations]
  | datastream => [.thing, .sensor, .observedProperty, .observations]
  | multiDatastream => [.thing, .sensor, .observedProperties, .observations]
  | sensor => [.datastreams, .multiDatastreams]
  | observedProperty => [.datastreams, .multiDatastreams]
  | observation => [.datastream, .multiDatastream, .featureOfInterest]
  | featureOfInterest => [.observations]

def navigationTo? (source target : EntityType) : Option NavigationProperty :=
  source.navigation.find? (·.target = target)

def hasProperty (type : EntityType) : EntityProperty → Bool
  | .id | .selfLink => true
  | .name | .description => type ≠ historicalLocation ∧ type ≠ observation
  | .properties =>
      type ∈ [thing, location, datastream, multiDatastream, sensor, observedProperty,
        featureOfInterest]
  | .encodingType => type ∈ [location, sensor, featureOfInterest]
  | .location => type = location
  | .feature => type = featureOfInterest
  | .metadata => type = sensor
  | .definition => type = observedProperty
  | .time => type = historicalLocation
  | .unitOfMeasurement => type = datastream
  | .unitOfMeasurements | .multiObservationDataTypes => type = multiDatastream
  | .observationType | .observedArea => type ∈ [datastream, multiDatastream]
  | .phenomenonTime | .resultTime => type ∈ [datastream, multiDatastream, observation]
  | .validTime | .result | .resultQuality | .parameters => type = observation

def parse (text : String) : Except ParseError EntityType :=
  match all.find? fun t => t.name = text ∨ t.plural = text with
  | some t => .ok t
  | none => .error (.unknownEntityType text)

end EntityType

end LiveFilter
