import LiveFilter.Json.Printer

/-! # Reading typed values from JSON trees

Records are read from objects or, field by field, from arrays. Alternatives are read from the
name of the alternative or from an object whose only key it is.
-/

namespace LiveFilter.Json.Tree

def string? : Tree → Option String
  | string pieces => decodeString? pieces
  | _ => none

def bool? : Tree → Option Bool
  | bool b => some b
  | _ => none

def integer? : Tree → Option Int
  | number text =>
      match Number.ofText? text with
      | some (.integer n _) => some n
      | _ => none
  | _ => none

def isNull : Tree → Bool
  | null => true
  | _ => false

def keyed? : List (List Piece × Tree) → Option (List (String × Tree))
  | [] => some []
  | (key, value) :: rest =>
      match decodeString? key, keyed? rest with
      | some key, some rest => some ((key, value) :: rest)
      | _, _ => none

/-- The name and the content of an alternative that has content. -/
def alternative? : Tree → Option (String × Tree)
  | object [(key, content)] => (decodeString? key).map (·, content)
  | _ => none

/-- One of a list of named values, by its name or as the key of a null. -/
def choice? {α : Type} (named : List (String × α)) : Tree → Option α
  | string pieces => (decodeString? pieces).bind (List.lookup · named)
  | object [(key, null)] => (decodeString? key).bind (List.lookup · named)
  | _ => none

/-- The only value under a key: nothing if the key does not occur, failure if it is repeated. -/
def unique? (key : String) (fields : List (String × Tree)) : Option (Option Tree) :=
  match fields.filter (·.1 = key) with
  | [] => some none
  | [(_, value)] => some (some value)
  | _ => none

/-- The fields of a record. In an array they follow each other, at least as many as are
required; an object may have other keys if `lenient`. -/
def record? (keys : List String) (required : Nat) (lenient : Bool) :
    Tree → Option (List (Option Tree))
  | array items =>
      if required ≤ items.length ∧ items.length ≤ keys.length then
        some (items.map some ++ List.replicate (keys.length - items.length) none)
      else none
  | object fields =>
      match keyed? fields with
      | some fields =>
          if lenient ∨ fields.all (fun field => keys.contains field.1) then
            keys.mapM (unique? · fields)
          else none
      | none => none
  | _ => none

end LiveFilter.Json.Tree
