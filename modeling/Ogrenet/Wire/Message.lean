import Mathlib.Algebra.Order.Ring.Int
import Mathlib.Tactic.Common

/-!
# Messages

`message.go`: an application message with its payload type, and the check that a text payload is
valid UTF-8.
-/

namespace Ogrenet

abbrev Bytes := List UInt8

/-- `PayloadType` is a `uint8`; `invalid` are the values that are neither of its constants. -/
inductive PayloadType where
  | binary
  | text
  | invalid (v : UInt8)
  deriving DecidableEq, Repr

structure Message where
  type : PayloadType
  data : Bytes
  deriving DecidableEq, Repr

inductive MessageError where
  | invalidPayloadType
  | invalidUTF8
  deriving DecidableEq, Repr

/-- The ranges of the bytes that a leading byte asks to follow it, as in the tables `first` and
`acceptRanges` of package `unicode/utf8`; `none` for a byte that starts no character. -/
def utf8Lead (b : UInt8) : Option (List (UInt8 × UInt8)) :=
  if b < 0x80 then some []
  else if b < 0xC2 then none
  else if b ≤ 0xDF then some [(0x80, 0xBF)]
  else if b = 0xE0 then some [(0xA0, 0xBF), (0x80, 0xBF)]
  else if b = 0xED then some [(0x80, 0x9F), (0x80, 0xBF)]
  else if b ≤ 0xEF then some [(0x80, 0xBF), (0x80, 0xBF)]
  else if b = 0xF0 then some [(0x90, 0xBF), (0x80, 0xBF), (0x80, 0xBF)]
  else if b ≤ 0xF3 then some [(0x80, 0xBF), (0x80, 0xBF), (0x80, 0xBF)]
  else if b = 0xF4 then some [(0x80, 0x8F), (0x80, 0xBF), (0x80, 0xBF)]
  else none

/-- The scan of `utf8.Valid` when the bytes in the ranges `owed` are still to come. -/
def utf8From : List (UInt8 × UInt8) → Bytes → Bool
  | [], [] => true
  | _ :: _, [] => false
  | [], b :: bs =>
    match utf8Lead b with
    | none => false
    | some owed => utf8From owed bs
  | (lo, hi) :: owed, b :: bs => lo ≤ b && b ≤ hi && utf8From owed bs

def utf8Valid (data : Bytes) : Bool := utf8From [] data

def Message.validate (m : Message) : Except MessageError Unit :=
  match m.type with
  | .binary => .ok ()
  | .text => if utf8Valid m.data then .ok () else .error .invalidUTF8
  | .invalid _ => .error .invalidPayloadType

end Ogrenet
