import LiveFilter.Kind

/-! # Errors

Each error says what went wrong; the wording is in one function per type.
-/

namespace LiveFilter

inductive InstantFault where
  | short
  | invalid
  | range
  | trailing
deriving DecidableEq

def InstantFault.message : InstantFault → String
  | short => "premature end of input"
  | invalid => "input contains invalid characters"
  | range => "input is out of range"
  | trailing => "trailing input"

inductive ParseError where
  | invalidInstant (text : String) (fault : InstantFault)
  | invalidDuration (text : String)
  | invalidInterval (text : String)
  | invertedInterval (start stop : String)
  | unknownEntityType (name : String)
  | unknownProperty (name : String)
deriving DecidableEq

def ParseError.message : ParseError → String
  | invalidInstant text fault => "invalid instant: " ++ text ++ ": " ++ fault.message
  | invalidDuration text => "invalid duration: " ++ text
  | invalidInterval text => "invalid interval: " ++ text
  | invertedInterval start stop => "interval start " ++ start ++ " is after its end " ++ stop
  | unknownEntityType name => "unknown entity type: " ++ name
  | unknownProperty name => "unknown property: " ++ name

inductive FilterError where
  | invalidTopic (topic reason : String)
  | unsupported (op : String) (left right : ValueKind) (detail : String)
  | unknownOperator (token : String)
  | invalidArithmetic (op : String) (left right : ValueKind)
  | unmappedProperty (path : String)
  | requiresStore (path : String)
  | serialization (cause : String)
  | store (cause : String)
  | invalidConfig (cause : String)
  | parse (cause : ParseError)
deriving DecidableEq

def FilterError.message : FilterError → String
  | invalidTopic topic reason => "invalid subscription to '" ++ topic ++ "': " ++ reason
  | unsupported op left right detail =>
      "cannot apply '" ++ op ++ "' to " ++ left.name ++ " and " ++ right.name ++ ": " ++ detail
  | unknownOperator token => "unknown boolean operation: " ++ token
  | invalidArithmetic op left right =>
      "cannot compute " ++ left.name ++ " " ++ op ++ " " ++ right.name
  | unmappedProperty path => "no column mapping for property path '" ++ path ++ "'"
  | requiresStore path =>
      "property path '" ++ path ++ "' crosses a navigation link and needs the store"
  | serialization cause => "serialization failed: " ++ cause
  | store cause => "store query failed: " ++ cause
  | invalidConfig cause => "invalid configuration: " ++ cause
  | parse cause => cause.message

/-- A call that its caller promised not to make. -/
inductive Misuse where
  | emptyPropertyPath
  | zeroBuffer
  | durationOutOfBounds (unit : String)
deriving DecidableEq

def Misuse.message : Misuse → String
  | emptyPropertyPath => "property path must not be empty"
  | zeroBuffer => "Notification buffer must be greater than zero"
  | durationOutOfBounds unit => "TimeDelta::" ++ unit ++ " out of bounds"

end LiveFilter
