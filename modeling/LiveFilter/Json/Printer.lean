import LiveFilter.Json.Basic

/-! # JSON texts of values

The compact form has no blanks. The indented form starts every item and field on a line of its
own, two columns further in than what holds it.
-/

namespace LiveFilter.Json

def controlEscape (c : Char) : List Char :=
  ['\\', 'u', '0', '0', Nat.digitChar (c.toNat / 16), Nat.digitChar (c.toNat % 16)]

def escapeChar (c : Char) : List Char :=
  if c = '"' then ['\\', '"']
  else if c = '\\' then ['\\', '\\']
  else if c = '\x08' then ['\\', 'b']
  else if c = '\x0c' then ['\\', 'f']
  else if c = '\n' then ['\\', 'n']
  else if c = '\r' then ['\\', 'r']
  else if c = '\t' then ['\\', 't']
  else if c.toNat < 0x20 then controlEscape c
  else [c]

/-- A string literal: quotes, backslashes and control characters are escaped, and nothing else. -/
def stringText (text : String) : String :=
  String.ofList ('"' :: (text.toList.flatMap escapeChar ++ ['"']))

def intText (n : Int) : String :=
  if n < 0 then "-" ++ Nat.repr n.natAbs else Nat.repr n.natAbs

/-- A real always shows a point or a power of ten. The power is written out while it lies between
`10 ^ -5` and `10 ^ 15`; otherwise one digit stands before the point. -/
def realChars (x : Binary64.Finite) : List Char :=
  let d := Decimal.shortest .even x
  let power := if d.digits = 0 then 0 else d.point - 1
  let body :=
    if -5 ≤ power ∧ power < 16 then
      let cs := d.positional
      if cs.contains '.' then cs else cs ++ ['.', '0']
    else
      let exponent :=
        (if power < 0 then ['e', '-'] else ['e', '+']) ++ Nat.toDigits 10 power.natAbs
      match d.digitChars with
      | [] => exponent
      | [c] => c :: exponent
      | c :: cs => c :: '.' :: (cs ++ exponent)
  d.signChars ++ body

def Number.text : Number → String
  | integer n _ => intText n
  | real x => String.ofList (realChars x)

def openBrace : String := String.singleton '{'

def closeBrace : String := String.singleton '}'

def boolText (b : Bool) : String := if b then "true" else "false"

mutual

def compact : Json → String
  | null => "null"
  | bool b => boolText b
  | number n => n.text
  | string s => stringText s
  | array [] => "[]"
  | array (item :: items) => "[" ++ compact item ++ compactItems items ++ "]"
  | object [] => "{}"
  | object ((key, value) :: fields) =>
      openBrace ++ stringText key ++ ":" ++ compact value ++ compactFields fields ++ closeBrace

def compactItems : List Json → String
  | [] => ""
  | item :: items => "," ++ compact item ++ compactItems items

def compactFields : List (String × Json) → String
  | [] => ""
  | (key, value) :: fields =>
      "," ++ stringText key ++ ":" ++ compact value ++ compactFields fields

end

def newline (depth : Nat) : String :=
  String.ofList ('\n' :: List.replicate (2 * depth) ' ')

mutual

def indented (depth : Nat) : Json → String
  | null => "null"
  | bool b => boolText b
  | number n => n.text
  | string s => stringText s
  | array [] => "[]"
  | array (item :: items) =>
      "[" ++ newline (depth + 1) ++ indented (depth + 1) item ++
        indentedItems (depth + 1) items ++ newline depth ++ "]"
  | object [] => "{}"
  | object ((key, value) :: fields) =>
      openBrace ++ newline (depth + 1) ++ stringText key ++ ": " ++ indented (depth + 1) value ++
        indentedFields (depth + 1) fields ++ newline depth ++ closeBrace

def indentedItems (depth : Nat) : List Json → String
  | [] => ""
  | item :: items => "," ++ newline depth ++ indented depth item ++ indentedItems depth items

def indentedFields (depth : Nat) : List (String × Json) → String
  | [] => ""
  | (key, value) :: fields =>
      "," ++ newline depth ++ stringText key ++ ": " ++ indented depth value ++
        indentedFields depth fields

end

def pretty (value : Json) : String := indented 0 value

end LiveFilter.Json
