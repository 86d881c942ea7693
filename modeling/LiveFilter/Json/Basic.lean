import LiveFilter.Json.Tree
import LiveFilter.Numeric.Decimal

/-! # JSON values

What a JSON tree denotes. Integers of 64 bits, signed or not, stay exact and are distinct from
reals; the fields of an object are sorted by key, and a repeated key keeps its last value.
-/

namespace LiveFilter

attribute [local instance (high)] instPowNat

inductive Json.Number where
  | integer (value : Int) (fits : -2 ^ (63 : Nat) ≤ value ∧ value < 2 ^ (64 : Nat))
  | real (value : Binary64.Finite)
deriving DecidableEq

inductive Json where
  | null
  | bool (value : Bool)
  | number (value : Json.Number)
  | string (value : String)
  | array (items : List Json)
  | object (fields : List (String × Json))

namespace Json

def NumberText.toDecimal (text : NumberText) : Decimal :=
  let power : Int :=
    match text.exponent with
    | none => 0
    | some (negative, digits) =>
        let power : Int := Nat.ofDigitChars 10 digits 0
        if negative then -power else power
  { negative := text.negative
    digits := Nat.ofDigitChars 10 (text.whole ++ text.fraction) 0
    exponent := power - text.fraction.length }

namespace Number

/-- Numbers are equal within their kind; reals are compared numerically. -/
def beq : Number → Number → Bool
  | integer a _, integer b _ => a == b
  | real a, real b => a.compare b == .eq
  | _, _ => false

/-- The integer, if it has a sign bit to spare. -/
def toInt64? : Number → Option Int64
  | integer n _ => if n < 2 ^ (63 : Nat) then some (.ofInt n) else none
  | real _ => none

def toBinary64 : Number → Binary64
  | integer n _ => .ofInt n
  | real x => .finite x

def ofInt64 (n : Int64) : Number :=
  .integer n.toInt ⟨by have := n.le_toInt; omega, by have := n.toInt_lt; omega⟩

def ofUInt64 (n : UInt64) : Number :=
  .integer n.toNat ⟨by omega, by have := n.toNat_lt; omega⟩

/-- The real nearest to a literal; `none` if that is an infinity. -/
def realOf? (text : NumberText) : Option Number :=
  match text.toDecimal.toBinary64 with
  | .finite x => some (.real x)
  | _ => none

/-- The number a literal denotes. A literal without point and power of ten is an integer if it
fits, except that negative zero is a real. -/
def ofText? (text : NumberText) : Option Number :=
  if text.fraction = [] ∧ text.exponent = none then
    let magnitude : Int := Nat.ofDigitChars 10 text.whole 0
    let value := if text.negative then -magnitude else magnitude
    if h : (-2 ^ (63 : Nat) ≤ value ∧ value < 2 ^ (64 : Nat)) ∧
        (text.negative = true → value ≠ 0) then
      some (.integer value h.1)
    else realOf? text
  else realOf? text

end Number

mutual

def beq : Json → Json → Bool
  | null, null => true
  | bool a, bool b => a == b
  | number a, number b => a.beq b
  | string a, string b => a == b
  | array xs, array ys => beqItems xs ys
  | object xs, object ys => beqFields xs ys
  | _, _ => false

def beqItems : List Json → List Json → Bool
  | [], [] => true
  | x :: xs, y :: ys => beq x y && beqItems xs ys
  | _, _ => false

def beqFields : List (String × Json) → List (String × Json) → Bool
  | [], [] => true
  | (j, x) :: xs, (k, y) :: ys => j == k && beq x y && beqFields xs ys
  | _, _ => false

end

instance : BEq Json := ⟨beq⟩

/-- Puts a field into its place among fields sorted by key, over an older one of that key. -/
def insertField (key : String) (value : Json) : List (String × Json) → List (String × Json)
  | [] => [(key, value)]
  | (k, v) :: rest =>
      if key < k then (key, value) :: (k, v) :: rest
      else if k < key then (k, v) :: insertField key value rest
      else (key, value) :: rest

def ofFields (fields : List (String × Json)) : Json :=
  object (fields.foldl (fun sorted field => insertField field.1 field.2 sorted) [])

/-- The text of a string literal. Halves of a surrogate pair only count together. -/
def decodePieces? : List Piece → Option (List Char)
  | [] => some []
  | .char c :: rest => (decodePieces? rest).map (c :: ·)
  | .unit high :: .unit low :: rest =>
      if 0xD800 ≤ high ∧ high < 0xDC00 then
        if 0xDC00 ≤ low ∧ low < 0xE000 then
          (decodePieces? rest).map
            (Char.ofNat (0x10000 + (high - 0xD800) * 0x400 + (low - 0xDC00)) :: ·)
        else none
      else if 0xDC00 ≤ high ∧ high < 0xE000 then none
      else (decodePieces? (.unit low :: rest)).map (Char.ofNat high :: ·)
  | .unit code :: rest =>
      if 0xD800 ≤ code ∧ code < 0xE000 then none
      else (decodePieces? rest).map (Char.ofNat code :: ·)

def decodeString? (pieces : List Piece) : Option String :=
  (decodePieces? pieces).map String.ofList

mutual

/-- The value a tree denotes, if all of its literals are in range. -/
def ofTree? : Tree → Option Json
  | .null => some null
  | .bool b => some (bool b)
  | .number text => (Number.ofText? text).map number
  | .string pieces => (decodeString? pieces).map string
  | .array items => (ofItems? items).map array
  | .object fields => (ofTreeFields? fields).map ofFields

def ofItems? : List Tree → Option (List Json)
  | [] => some []
  | item :: items =>
      match ofTree? item, ofItems? items with
      | some item, some items => some (item :: items)
      | _, _ => none

def ofTreeFields? : List (List Piece × Tree) → Option (List (String × Json))
  | [] => some []
  | (key, value) :: fields =>
      match decodeString? key, ofTree? value, ofTreeFields? fields with
      | some key, some value, some fields => some ((key, value) :: fields)
      | _, _, _ => none

end

def ofText? (text : String) : Option Json :=
  (Tree.ofText? text).bind ofTree?

end Json

end LiveFilter
