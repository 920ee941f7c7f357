import ReplyFlow.Decimal.Reading
import ReplyFlow.Json.Value
import ReplyFlow.Text.Digits
import ReplyFlow.Text.Surrogate

/-! Reading JSON text.

Besides standard JSON the words `NaN`, `Infinity` and `-Infinity` are numbers. A text that is not
JSON is refused with the first fault and its place. Of two members of one object with the same
name the later value counts, in the place of the earlier. Lists and objects may stand inside each
other up to a limit.
-/

set_option autoImplicit false

namespace ReplyFlow.Json

/-- What has other values inside. -/
inductive Container where
  | list
  | object
  deriving Repr, DecidableEq

def Container.name : Container → String
  | .list => "array"
  | .object => "object"

inductive Reason where
  | expectedValue
  | expectedName
  | expectedColon
  | expectedComma
  | openText
  | controlCharacter
  | unknownEscape
  | badCodeEscape
  | extraData
  | byteOrderMark
  | tooManyDigits (count : Nat)
  | tooDeep (container : Container)
  deriving Repr, DecidableEq

def Reason.message : Reason → String
  | .expectedValue => "Expecting value"
  | .expectedName => "Expecting property name enclosed in double quotes"
  | .expectedColon => "Expecting ':' delimiter"
  | .expectedComma => "Expecting ',' delimiter"
  | .openText => "Unterminated string starting at"
  | .controlCharacter => "Invalid control character at"
  | .unknownEscape => "Invalid \\escape"
  | .badCodeEscape => "Invalid \\uXXXX escape"
  | .extraData => "Extra data"
  | .byteOrderMark => "Unexpected UTF-8 BOM (decode using utf-8-sig)"
  | .tooManyDigits count =>
    s!"Exceeds the limit (4300 digits) for integer string conversion: value has {count} digits; "
      ++ "use sys.set_int_max_str_digits() to increase the limit"
  | .tooDeep container =>
    "maximum recursion depth exceeded while decoding a JSON " ++ container.name
      ++ " from a unicode string"

/-- Whether the reason alone says why a text is refused, without a place. -/
def Reason.isLimit : Reason → Bool
  | .tooManyDigits _ | .tooDeep _ => true
  | _ => false

/-- A reason and the number of characters from the fault to the end of the text. -/
structure Fault where
  reason : Reason
  left : Nat

abbrev Step (α : Type) := Except Fault (α × List Char)

def fail {α : Type} (reason : Reason) (place : List Char) : Except Fault α :=
  .error ⟨reason, place.length⟩

def isSpace (c : Char) : Bool :=
  c == ' ' || c == '\t' || c == '\n' || c == '\r'

def skip (s : List Char) : List Char :=
  s.dropWhile isSpace

def codeUnit? (a b c d : Char) : Option Nat := do
  let a ← Text.hexValue? a
  let b ← Text.hexValue? b
  let c ← Text.hexValue? c
  let d ← Text.hexValue? d
  some (((a * 16 + b) * 16 + c) * 16 + d)

def shortEscape? (c : Char) : Option Char :=
  [('"', '"'), ('\\', '\\'), ('/', '/'), ('b', Char.ofNat 8), ('f', Char.ofNat 12), ('n', '\n'),
    ('r', '\r'), ('t', '\t')].lookup c

/-- Reads the four digits after the `u` with which `place` starts, and a second escape if both
together make one character. The closing quote still has to follow. -/
def readCodeEscape (place : List Char) : Step Char :=
  match place with
  | _ :: a :: b :: c :: d :: next :: rest =>
    match codeUnit? a b c d with
    | none => fail .badCodeEscape place
    | some unit =>
      match next :: rest with
      | '\\' :: 'u' :: e :: f :: g :: h :: last :: more =>
        if Text.isHighHalf unit then
          match codeUnit? e f g h with
          | none => fail .badCodeEscape ('u' :: e :: f :: g :: h :: last :: more)
          | some low =>
            if Text.isLowHalf low then .ok (Text.pairChar unit low, last :: more)
            else .ok (Text.unitChar unit, next :: rest)
        else .ok (Text.unitChar unit, next :: rest)
      | others => .ok (Text.unitChar unit, others)
  | _ => fail .badCodeEscape place

/-- One character of a text, or `none` at its closing quote. -/
def readCharacter (opening : List Char) : List Char → Step (Option Char)
  | [] => fail .openText opening
  | '"' :: rest => .ok (none, rest)
  | '\\' :: [] => fail .openText opening
  | '\\' :: 'u' :: rest => (readCodeEscape ('u' :: rest)).map fun (c, rest) => (some c, rest)
  | '\\' :: c :: rest =>
    match shortEscape? c with
    | some c => .ok (some c, rest)
    | none => fail .unknownEscape ('\\' :: c :: rest)
  | c :: rest => if c.toNat ≤ 0x1F then fail .controlCharacter (c :: rest) else .ok (some c, rest)

def readCharacters (opening : List Char) : Nat → List Char → List Char → Step String
  | 0, _, _ => fail .openText opening
  | fuel + 1, done, s =>
    match readCharacter opening s with
    | .error fault => .error fault
    | .ok (none, rest) => .ok (String.ofList done.reverse, rest)
    | .ok (some c, rest) => readCharacters opening fuel (c :: done) rest

/-- The text that begins with the quote in front of `rest`. -/
def readText (rest : List Char) : Step String :=
  readCharacters ('"' :: rest) (rest.length + 1) [] rest

/-- Digits after a point, if there is a digit. -/
def readDecimals : List Char → List Char × List Char
  | '.' :: c :: rest =>
    if c.isDigit then
      let (more, rest) := Decimal.splitDigits rest
      (c :: more, rest)
    else ([], '.' :: c :: rest)
  | s => ([], s)

/-- The power of ten after an `e`, if it has a digit. -/
def readPower (s : List Char) : Option Int × List Char :=
  match s with
  | mark :: rest =>
    if mark == 'e' || mark == 'E' then
      let (negative, body) := Decimal.splitSign rest
      let (digits, tail) := Decimal.splitDigits body
      if digits.isEmpty then (none, s)
      else
        let size : Int := Decimal.digitsValue digits
        (some (if negative then -size else size), tail)
    else (none, s)
  | [] => (none, s)

def readNumeral (s : List Char) : Step Json :=
  let (negative, body) := match s with
    | '-' :: rest => (true, rest)
    | _ => (false, s)
  let (digits, rest) := match body with
    | '0' :: rest => (['0'], rest)
    | _ => Decimal.splitDigits body
  if digits.isEmpty then fail .expectedValue s
  else
    let (decimals, rest) := readDecimals rest
    let (power, rest) := readPower rest
    if decimals.isEmpty && power.isNone then
      if Decimal.digitLimit < digits.length then fail (.tooManyDigits digits.length) s
      else
        let size : Int := Decimal.digitsValue digits
        .ok (.whole (if negative then -size else size), rest)
    else .ok (.number (Decimal.assemble negative digits decimals (power.getD 0)), rest)

def readScalar (s : List Char) : Step Json :=
  match s with
  | 'n' :: 'u' :: 'l' :: 'l' :: rest => .ok (.null, rest)
  | 't' :: 'r' :: 'u' :: 'e' :: rest => .ok (.bool true, rest)
  | 'f' :: 'a' :: 'l' :: 's' :: 'e' :: rest => .ok (.bool false, rest)
  | 'N' :: 'a' :: 'N' :: rest => .ok (.number (0 / 0), rest)
  | 'I' :: 'n' :: 'f' :: 'i' :: 'n' :: 'i' :: 't' :: 'y' :: rest => .ok (.number (1 / 0), rest)
  | '-' :: 'I' :: 'n' :: 'f' :: 'i' :: 'n' :: 'i' :: 't' :: 'y' :: rest =>
    .ok (.number (-1 / 0), rest)
  | _ => readNumeral s

/-- Lists and objects may stand inside each other this many levels deep. -/
def nestingLimit : Nat := 970

mutual

/-- One value at the start of the text. `levels` is the depth that is left, and `fuel` bounds the
number of values and items. -/
def readValue (levels : Nat) : Nat → List Char → Step Json
  | 0, s => fail .expectedValue s
  | fuel + 1, s =>
    match s with
    | '"' :: rest => (readText rest).map fun (content, rest) => (.text content, rest)
    | '\x7b' :: rest =>
      if levels = 0 then fail (.tooDeep .object) s
      else
        match skip rest with
        | '\x7d' :: rest => .ok (.object [], rest)
        | inside => readMembers (levels - 1) fuel [] inside
    | '[' :: rest =>
      if levels = 0 then fail (.tooDeep .list) s
      else
        match skip rest with
        | ']' :: rest => .ok (.list [], rest)
        | inside => readItems (levels - 1) fuel [] inside
    | _ => readScalar s

def readItems (levels : Nat) : Nat → List Json → List Char → Step Json
  | 0, _, s => fail .expectedValue s
  | fuel + 1, done, s =>
    match readValue levels fuel s with
    | .error fault => .error fault
    | .ok (item, rest) =>
      match skip rest with
      | ']' :: rest => .ok (.list (item :: done).reverse, rest)
      | ',' :: rest => readItems levels fuel (item :: done) (skip rest)
      | place => fail .expectedComma place

def readMembers (levels : Nat) : Nat → Members → List Char → Step Json
  | 0, _, s => fail .expectedName s
  | fuel + 1, done, s =>
    match s with
    | '"' :: rest =>
      match readText rest with
      | .error fault => .error fault
      | .ok (name, rest) =>
        match skip rest with
        | ':' :: rest =>
          match readValue levels fuel (skip rest) with
          | .error fault => .error fault
          | .ok (value, rest) =>
            match skip rest with
            | '\x7d' :: rest => .ok (.object (done.set name value), rest)
            | ',' :: rest => readMembers levels fuel (done.set name value) (skip rest)
            | place => fail .expectedComma place
        | place => fail .expectedColon place
    | _ => fail .expectedName s

end

/-- Why a text is not JSON, and where: `position` counts characters from zero, lines and columns
count from one. -/
structure ParseError where
  reason : Reason
  position : Nat
  line : Nat
  column : Nat
  deriving Repr, DecidableEq

def ParseError.locate (s : List Char) (fault : Fault) : ParseError :=
  let position := s.length - fault.left
  let before := s.take position
  { reason := fault.reason
    position
    line := before.count '\n' + 1
    column := (before.reverse.takeWhile (· != '\n')).length + 1 }

def ParseError.message (error : ParseError) : String :=
  if error.reason.isLimit then error.reason.message
  else
    error.reason.message
      ++ s!": line {error.line} column {error.column} (char {error.position})"

def parseList (s : List Char) : Except Fault Json :=
  match s with
  | c :: _ =>
    if c.toNat = 0xFEFF then fail .byteOrderMark s
    else
      match readValue nestingLimit (2 * s.length + 2) (skip s) with
      | .error fault => .error fault
      | .ok (value, rest) =>
        match skip rest with
        | [] => .ok value
        | extra => fail .extraData extra
  | [] => fail .expectedValue s

/-- The value of a whole text. -/
def parse (text : String) : Except ParseError Json :=
  (parseList text.toList).mapError (ParseError.locate text.toList)

end ReplyFlow.Json
