import ReplyFlow.Text.Surrogate

/-! The encodings of JSON text.

JSON text begins with ASCII characters, so the zeros among its first octets tell how many octets
there are to a code unit, and which of them comes first.
-/

set_option autoImplicit false

namespace ReplyFlow.Json

inductive OctetOrder where
  | highFirst
  | lowFirst
  deriving Repr, DecidableEq

/-- The number of bits of a code unit, with the order of its octets. -/
inductive Encoding where
  | utf8
  | utf16 (order : OctetOrder)
  | utf32 (order : OctetOrder)
  deriving Repr, DecidableEq

def Encoding.ofOctets : List Nat → Encoding
  | 0 :: 0 :: _ :: _ :: _ => .utf32 .highFirst
  | 0 :: _ :: _ :: _ :: _ => .utf16 .highFirst
  | _ :: 0 :: 0 :: 0 :: _ => .utf32 .lowFirst
  | _ :: 0 :: _ :: _ :: _ => .utf16 .lowFirst
  | [0, _] => .utf16 .highFirst
  | [_, 0] => .utf16 .lowFirst
  | _ => .utf8

/-- The value of the octets of one code unit. -/
def OctetOrder.value : OctetOrder → List Nat → Nat
  | .highFirst, octets => octets.foldl (fun value octet => 256 * value + octet) 0
  | .lowFirst, octets => octets.foldr (fun octet value => octet + 256 * value) 0

/-- Code units of two octets, if there is an even number of octets. -/
def units16? (order : OctetOrder) : List Nat → Option (List Nat)
  | a :: b :: rest => (units16? order rest).map (order.value [a, b] :: ·)
  | [] => some []
  | _ => none

/-- Code points of four octets each. -/
def points32? (order : OctetOrder) : List Nat → Option (List Nat)
  | a :: b :: c :: d :: rest =>
    let point := order.value [a, b, c, d]
    if point ≤ 0x10FFFF then (points32? order rest).map (point :: ·) else none
  | [] => some []
  | _ => none

/-- A mark of the octet order at the start is not part of a text. -/
def withoutMark : List Char → List Char
  | '\uFEFF' :: rest => rest
  | s => s

/-- The text that some octets stand for. -/
def decode? (octets : ByteArray) : Option String :=
  let values := octets.data.toList.map UInt8.toNat
  match Encoding.ofOctets values with
  | .utf8 => (String.fromUTF8? octets).map fun text => String.ofList (withoutMark text.toList)
  | .utf16 order => (units16? order values).map fun units => String.ofList (Text.ofUnits units)
  | .utf32 order =>
    (points32? order values).map fun points => String.ofList (points.map Text.unitChar)

end ReplyFlow.Json
