import LiveFilter.Error
import LiveFilter.Json.Decode
import LiveFilter.Sql.Condition

/-! # Configuration -/

namespace LiveFilter

structure Config where
  /-- How many notifications a topic holds for its slowest receiver. -/
  notificationBuffer : UInt64
  timestampType : TimestampType
  /-- Whether the store is asked about filters that leave the changed entity. -/
  storeFallback : Bool
deriving DecidableEq

inductive ConfigFault where
  | malformed
  | zeroBuffer
deriving DecidableEq

def TimestampType.named : List (String × TimestampType) :=
  [("with_time_zone", .withTimeZone), ("without_time_zone", .withoutTimeZone)]

def TimestampType.name : TimestampType → String
  | withTimeZone => "with_time_zone"
  | withoutTimeZone => "without_time_zone"

namespace Config

def default : Config := ⟨256, .withTimeZone, true⟩

def zeroBufferMessage : String := Misuse.zeroBuffer.message

def fault? (c : Config) : Option String :=
  if c.notificationBuffer = 0 then some zeroBufferMessage else none

def withBuffer (c : Config) (capacity : UInt64) : Except Misuse Config :=
  if capacity = 0 then .error .zeroBuffer else .ok { c with notificationBuffer := capacity }

def keys : List String := ["notification_buffer", "timestamp_type", "store_fallback"]

def readBuffer? (t : Json.Tree) : Option UInt64 :=
  match t.integer? with
  | some n => if 0 ≤ n then some (.ofNat n.toNat) else none
  | none => none

def readField? {α : Type} (read? : Json.Tree → Option α) (fallback : α) :
    Option Json.Tree → Option α
  | some t => read? t
  | none => some fallback

def ofTree? (t : Json.Tree) : Option Config :=
  match t.record? keys 0 false with
  | some [buffer, timestamps, fallback] =>
      match readField? readBuffer? default.notificationBuffer buffer,
        readField? (Json.Tree.choice? TimestampType.named) default.timestampType timestamps,
        readField? Json.Tree.bool? default.storeFallback fallback with
      | some buffer, some timestamps, some fallback => some ⟨buffer, timestamps, fallback⟩
      | _, _, _ => none
  | _ => none

/-- Reads a configuration. Fields may be left out, and no others are allowed. -/
def parse (text : String) : Except ConfigFault Config :=
  match (Json.Tree.ofText? text).bind ofTree? with
  | some c => if c.notificationBuffer = 0 then .error .zeroBuffer else .ok c
  | none => .error .malformed

def toText (c : Config) : String :=
  Json.pretty (.object
    [("notification_buffer", .number (.ofUInt64 c.notificationBuffer)),
      ("timestamp_type", .string c.timestampType.name),
      ("store_fallback", .bool c.storeFallback)])

end Config

end LiveFilter
