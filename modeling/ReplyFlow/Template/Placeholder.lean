import ReplyFlow.Template.Basic

/-! Placeholders in a message: a name between double braces, with blanks around it.

The text is scanned from left to right, and the scan goes on behind each placeholder it finds.
-/

set_option autoImplicit false

namespace ReplyFlow.Placeholder

def opening : Char := '\x7b'

def closing : Char := '\x7d'

def startsName (c : Char) : Bool :=
  c.isAlpha || c == '_'

def continuesName (c : Char) : Bool :=
  c.isAlphanum || c == '_'

theorem length_dropWhile_le {α : Type} (p : α → Bool) (items : List α) :
    (items.dropWhile p).length ≤ items.length :=
  (List.dropWhile_suffix p).length_le

/-- The name of the placeholder that starts the text, and what follows the placeholder. -/
def starting? (s : List Char) : Option (List Char × List Char) :=
  match s with
  | a :: b :: rest =>
    let inside := rest.dropWhile Text.isBlank
    let name := inside.takeWhile continuesName
    if a == opening && b == opening && name.head?.any startsName then
      match (inside.dropWhile continuesName).dropWhile Text.isBlank with
      | c :: d :: tail => if c == closing && d == closing then some (name, tail) else none
      | _ => none
    else none
  | _ => none

theorem length_lt_of_starting? {s name tail : List Char} (found : starting? s = some (name, tail)) :
    tail.length < s.length := by
  match s with
  | [] => simp [starting?] at found
  | [_] => simp [starting?] at found
  | a :: b :: rest =>
    simp only [starting?] at found
    split at found
    · split at found
      · next c d rest' left =>
        split at found
        · have outer := length_dropWhile_le Text.isBlank
            ((rest.dropWhile Text.isBlank).dropWhile continuesName)
          have middle := length_dropWhile_le continuesName (rest.dropWhile Text.isBlank)
          have within := length_dropWhile_le Text.isBlank rest
          simp only [Option.some.injEq, Prod.mk.injEq] at found
          rw [left, found.2] at outer
          simp only [List.length_cons] at outer ⊢
          omega
        · simp at found
      · simp at found
    · simp at found

/-- The names of all placeholders of a text, in order. -/
def scan (s : List Char) : List (List Char) :=
  match found : starting? s with
  | some (name, tail) =>
    have _ : tail.length < s.length := length_lt_of_starting? found
    name :: scan tail
  | none =>
    match s with
    | [] => []
    | _ :: rest => scan rest
termination_by s.length
decreasing_by
  · assumption
  · simp

end ReplyFlow.Placeholder

namespace ReplyFlow

/-- The placeholder names of the message, each once, in the order of first appearance. -/
def Template.placeholders (template : Template) : List String :=
  ((Placeholder.scan template.message.toList).map String.ofList).eraseDups

end ReplyFlow
