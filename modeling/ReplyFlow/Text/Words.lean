import ReplyFlow.Text.Blank

/-! Trimming, cutting and rejoining text.

`shorten` writes a text on one line and cuts it to a number of characters; `upTo` is the cut
itself, where a negative count leaves that many characters off the end.
-/

set_option autoImplicit false

namespace ReplyFlow.Text

def trimLeft (keep : Char → Bool) (s : List Char) : List Char :=
  s.dropWhile keep

def trimRight (drop : Char → Bool) (s : List Char) : List Char :=
  (s.reverse.dropWhile drop).reverse

def trim (drop : Char → Bool) (s : List Char) : List Char :=
  trimRight drop (trimLeft drop s)

/-- The runs of characters between blanks; a run is empty where two blanks meet. -/
def pieces : List Char → List (List Char)
  | [] => [[]]
  | c :: rest =>
    if isBlank c then [] :: pieces rest
    else
      match pieces rest with
      | [] => [[c]]
      | piece :: more => (c :: piece) :: more

def words (s : List Char) : List (List Char) :=
  (pieces s).filter (!·.isEmpty)

/-- The words of a text with one space between neighbours. -/
def oneLine (s : List Char) : List Char :=
  [' '].intercalate (words s)

/-- The first `count` items, or all but the last `-count` when `count` is negative. -/
def upTo {α : Type} (count : Int) (items : List α) : List α :=
  if 0 ≤ count then items.take count.toNat else items.take (items.length - (-count).toNat)

/-- One line of at most `length` characters, with an ellipsis where something was cut off. -/
def shorten (s : List Char) (length : Int) : List Char :=
  let line := oneLine s
  if (line.length : Int) ≤ length then line
  else trimRight isBlank (upTo length line) ++ ['.', '.', '.']

/-- A text without any visible character. -/
def isBlankText (s : String) : Bool :=
  s.toList.all isBlank

end ReplyFlow.Text
