/-! # Kinds of values -/

namespace LiveFilter

/-- What an operator sees of a value. Numbers, texts and free-form JSON are all scalars. -/
inductive ValueKind where
  | null
  | boolean
  | scalar
  | instant
  | duration
  | interval
deriving DecidableEq

namespace ValueKind

def all : List ValueKind := [null, boolean, scalar, instant, duration, interval]

def name : ValueKind → String
  | null => "null"
  | boolean => "boolean"
  | scalar => "scalar"
  | instant => "instant"
  | duration => "duration"
  | interval => "interval"

end ValueKind

end LiveFilter
