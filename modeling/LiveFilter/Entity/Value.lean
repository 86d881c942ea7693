import LiveFilter.Json.Printer
import LiveFilter.Text.Quoted
import LiveFilter.Time.Interval

/-! # Property values and identifiers -/

namespace LiveFilter

attribute [local instance (high)] instPowNat

/-- The integer of 64 bits nearest to `n`. -/
def saturate (n : Int) : Int64 :=
  Int64.ofInt (max (-2 ^ (63 : Nat)) (min n (2 ^ (63 : Nat) - 1)))

theorem toInt_saturate (n : Int) :
    (saturate n).toInt = max (-2 ^ (63 : Nat)) (min n (2 ^ (63 : Nat) - 1)) :=
  Int64.toInt_ofInt_of_le (by omega) (by omega)

inductive Id where
  | long (value : Int64)
  | text (value : String)
deriving DecidableEq

namespace Id

def display : Id → String
  | long n => Json.intText n.toInt
  | text s => Quoted.wrap '\'' s

def compare : Id → Id → Ordering
  | long a, long b => Ord.compare a.toInt b.toInt
  | long _, text _ => .lt
  | text _, long _ => .gt
  | text a, text b => Ord.compare a b

def toJson : Id → Json
  | long n => .number (.ofInt64 n)
  | text s => .string s

end Id

inductive Value where
  | null
  | bool (value : Bool)
  | integer (value : Int64)
  | number (value : Binary64)
  | text (value : String)
  | instant (value : Instant)
  | duration (value : Duration)
  | interval (value : Interval)
  | json (value : Json)

namespace Value

def kind : Value → ValueKind
  | null => .null
  | bool _ => .boolean
  | integer _ | number _ | text _ | json _ => .scalar
  | instant _ => .instant
  | duration _ => .duration
  | interval _ => .interval

def isNull : Value → Bool
  | null => true
  | _ => false

/-- Equality of values of one shape: numbers numerically, instants as points of time. -/
def beq : Value → Value → Bool
  | null, null => true
  | bool a, bool b => a == b
  | integer a, integer b => a == b
  | number a, number b => a.numEq b
  | text a, text b => a == b
  | instant a, instant b => a.sameTime b
  | duration a, duration b => a == b
  | interval a, interval b => a.sameTime b
  | json a, json b => a == b
  | _, _ => false

instance : BEq Value := ⟨beq⟩

def ofId : Id → Value
  | .long n => integer n
  | .text s => text s

/-- The identifier that a value stands for. A whole number is one, cut off at 64 bits. -/
def toId? : Value → Option Id
  | integer n => some (.long n)
  | number (.finite x) => if x.isWhole then some (.long (saturate x.truncate)) else none
  | text s => some (.text s)
  | _ => none

/-- The value in a payload. Numbers that JSON does not have are null. -/
def toJson : Value → Json
  | null => .null
  | bool b => .bool b
  | integer n => .number (.ofInt64 n)
  | number (.finite x) => .number (.real x)
  | number _ => .null
  | text s => .string s
  | instant i => .string i.format
  | duration d => .string d.format
  | interval i => .string i.format
  | json j => j

end Value

end LiveFilter
