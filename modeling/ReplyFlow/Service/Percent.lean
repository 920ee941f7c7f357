import ReplyFlow.Text.Digits

/-! Paths of requests: characters written as octets behind a percent sign. -/

set_option autoImplicit false

namespace ReplyFlow.Percent

def encoded (c : Char) : List UInt8 :=
  (String.singleton c).toUTF8.data.toList

/-- The octets of a path. A percent sign without two hexadecimal digits stands for itself. -/
def octets : List Char → List UInt8
  | [] => []
  | '%' :: a :: b :: rest =>
    match Text.hexValue? a, Text.hexValue? b with
    | some high, some low => UInt8.ofNat (16 * high + low) :: octets rest
    | _, _ => encoded '%' ++ octets (a :: b :: rest)
  | c :: rest => encoded c ++ octets rest

/-- The character at the head of some octets, and how many they are. -/
def leading? (s : List UInt8) : Option (Char × Nat) :=
  [1, 2, 3, 4].findSome? fun length =>
    match String.fromUTF8? ⟨(s.take length).toArray⟩ with
    | some text =>
      match text.toList with
      | [c] => some (c, length)
      | _ => none
    | none => none

/-- The octets can be completed to one character. -/
def isBeginning (s : List UInt8) : Bool :=
  [1, 2, 3].any fun missing => [0x80, 0x90, 0xA0].any fun octet =>
    (leading? (s ++ List.replicate missing octet)).any (·.2 == s.length + missing)

/-- How many octets at the head, where no character is, are replaced together. -/
def brokenLength (s : List UInt8) : Nat :=
  ([3, 2].find? fun length => isBeginning (s.take length)).getD 1

/-- Characters from octets, with a replacement character wherever there is none. -/
def characters : Nat → List UInt8 → List Char
  | 0, _ => []
  | _, [] => []
  | steps + 1, octet :: rest =>
    match leading? (octet :: rest) with
    | some (c, length) => c :: characters steps (rest.drop (length - 1))
    | none => '\uFFFD' :: characters steps (rest.drop (brokenLength (octet :: rest) - 1))

/-- The text that a path stands for. -/
def decode (path : String) : String :=
  let all := octets path.toList
  String.ofList (characters all.length all)

end ReplyFlow.Percent
