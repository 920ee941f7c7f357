import Mathlib.Data.List.Basic
import ReplyFlow.Compile.Compiler

/-! Compiling within limits.

How many calls a conversation takes and which numbers are written out for it can be read off its
tree. If this is within the limits, it is compiled as it is without them. If it is not, the drawing
is broken off at the first place at which a limit is met.
-/

set_option autoImplicit false

namespace ReplyFlow

/-! ### What a conversation takes -/

/-- The greatest number of calls inside one another when branches are drawn inside `level` calls, or
zero if none of them enters a template. -/
def Branches.nesting : Nat → Branches → Nat
  | _, .done => 0
  | level, .stop _ _ rest => rest.nesting level
  | level, .into _ _ inside rest =>
    max (level + 1) (max (inside.nesting (level + 1)) (rest.nesting level))

/-- The numbers that are written out when branches are drawn. -/
def Branches.written (pause : Int) : Branches → List Int
  | .done => []
  | .stop _ _ rest => pause :: rest.written pause
  | .into _ child inside rest => pause :: child.id :: (inside.written pause ++ rest.written pause)

namespace Rules

/-- The conversation that templates make, if any template takes part. -/
def conversation? (rules : Rules) (templates : List Template) : Option Expansion :=
  match (rules.select templates).templates with
  | [] => none
  | first :: others => some (rules.expand (first :: others) first)

/-- How many calls are inside one another at most when templates are compiled. -/
def nesting (rules : Rules) (templates : List Template) : Nat :=
  match rules.conversation? templates with
  | none => 0
  | some expansion => max 1 (expansion.branches.nesting 1)

/-- The ids and durations that are written out when templates are compiled. -/
def written (rules : Rules) (templates : List Template) : List Int :=
  match rules.conversation? templates with
  | none => []
  | some expansion => expansion.first.id :: expansion.branches.written rules.delayDuration

/-- What breaks off the compilation of templates. -/
def excess? (rules : Rules) (limits : Limits) (templates : List Template) :
    Option Limits.Excess :=
  (rules.conversation? templates).bind (·.excess? limits rules.delayDuration)

end Rules

/-! ### What is too much -/

namespace Limits

/-- Work with so many calls inside one another and with these numbers to be written out is broken off
exactly if this is too much. -/
inductive Judge (limits : Limits) (nesting : Nat) (numbers : List Int) : Option Excess → Prop where
  | pass : nesting ≤ limits.calls → (∀ number ∈ numbers, limits.allows number) →
    Judge limits nesting numbers none
  | deep : limits.calls < nesting → Judge limits nesting numbers (some .calls)
  | long {number : Int} : number ∈ numbers → ¬ limits.allows number →
    Judge limits nesting numbers (some (.digits limits.digits))

variable {limits : Limits} {nesting other : Nat} {numbers more : List Int}
  {excess next : Option Excess}

theorem judge_none (limits : Limits) : limits.Judge 0 [] none :=
  .pass (Nat.zero_le _) (List.forall_mem_nil _)

theorem judge_writing? (limits : Limits) (number : Int) :
    limits.Judge 0 [number] (limits.writing? number) := by
  rw [writing?]
  split
  · next allowed => exact .pass (Nat.zero_le _) (List.forall_mem_singleton.mpr allowed)
  · next long => exact .long (List.mem_singleton_self _) long

theorem judge_calling? (limits : Limits) (level : Nat) :
    limits.Judge (level + 1) [] (limits.calling? level) := by
  rw [calling?]
  split
  · next room => exact .pass room (List.forall_mem_nil _)
  · next full => exact .deep (Nat.lt_succ_of_le (Nat.le_of_not_lt full))

/-- Of two pieces of work the second one is done unless the first one is broken off. -/
theorem Judge.or (first : limits.Judge nesting numbers excess)
    (second : limits.Judge other more next) :
    limits.Judge (max nesting other) (numbers ++ more) (excess <|> next) := by
  cases first with
  | deep beyond => exact .deep (Nat.lt_of_lt_of_le beyond (Nat.le_max_left _ _))
  | long member beyond => exact .long (List.mem_append_left _ member) beyond
  | pass room allowed =>
    cases second with
    | pass enough others =>
      exact .pass (Nat.max_le.mpr ⟨room, enough⟩) (List.forall_mem_append.mpr ⟨allowed, others⟩)
    | deep beyond => exact .deep (Nat.lt_of_lt_of_le beyond (Nat.le_max_right _ _))
    | long member beyond => exact .long (List.mem_append_right _ member) beyond

theorem Judge.of_mem_iff (judged : limits.Judge nesting numbers excess)
    (same : ∀ number, number ∈ numbers ↔ number ∈ more) : limits.Judge nesting more excess := by
  cases judged with
  | pass room allowed =>
    exact .pass room fun number member => allowed number ((same number).mpr member)
  | deep beyond => exact .deep beyond
  | long member beyond => exact .long ((same _).mp member) beyond

end Limits

theorem Branches.judge_excess? (limits : Limits) (pause : Int) (level : Nat) (tree : Branches) :
    limits.Judge (tree.nesting level) (tree.written pause) (tree.excess? limits pause level) := by
  induction tree generalizing level with
  | done => exact limits.judge_none
  | stop response ending rest ih =>
    simpa [nesting, written, excess?] using (limits.judge_writing? pause).or (ih level)
  | into response child inside rest insideIH restIH =>
    have entry := (limits.judge_calling? level).or (limits.judge_writing? child.id)
    simpa [nesting, written, excess?] using
      (limits.judge_writing? pause).or (entry.or ((insideIH (level + 1)).or (restIH level)))

theorem Rules.judge_excess? (rules : Rules) (limits : Limits) (templates : List Template) :
    limits.Judge (rules.nesting templates) (rules.written templates)
      (rules.excess? limits templates) := by
  rw [nesting, written, excess?]
  cases rules.conversation? templates with
  | none => exact limits.judge_none
  | some expansion =>
    have named := limits.judge_writing? expansion.first.id
    have entry := (limits.judge_calling? 0).or named
    have below := expansion.branches.judge_excess? limits rules.delayDuration 1
    have judged := named.or (entry.or below)
    rw [Nat.zero_add, Nat.max_zero, Nat.zero_max, List.nil_append] at judged
    -- the id of the first template is written out twice
    exact judged.of_mem_iff fun number => by simp

/-! ### Drawing within limits -/

namespace Compiler

variable {β γ : Type}

/-- Work within limits comes to the same as the `whole` work, unless something breaks it off. -/
inductive Bounded (excess : Option Limits.Excess) (whole : Except Fault β) :
    Except Failure β → Prop where
  | failed {fault : Fault} : whole = .error fault → Bounded excess whole (.error (.fault fault))
  | broken {limit : Limits.Excess} : excess = some limit →
    Bounded excess whole (.error (.excess limit))
  | done {value : β} : excess = none → whole = .ok value → Bounded excess whole (.ok value)

variable {excess other : Option Limits.Excess} {whole : Except Fault β}
  {within : Except Failure β}

theorem bounded_mapError (whole : Except Fault β) : Bounded none whole (whole.mapError .fault) := by
  cases whole with
  | ok => exact .done rfl rfl
  | error => exact .failed rfl

theorem writing_of_allowed {limits : Limits} {number : Int}
    (allowed : limits.writing? number = none) (whole : Except Fault β) :
    writing limits number whole = whole.mapError .fault := by
  unfold writing
  rw [allowed]
  cases whole with
  | ok => rfl
  | error fault => cases fault <;> rfl

theorem bounded_writing (limits : Limits) (number : Int) (whole : Except Fault β) :
    Bounded (limits.writing? number) whole (writing limits number whole) := by
  cases judged : limits.writing? number with
  | none =>
    rw [writing_of_allowed judged]
    exact bounded_mapError whole
  | some limit =>
    unfold writing
    rw [judged]
    cases whole with
    | ok => exact .broken rfl
    | error fault =>
      -- The search for a row comes before the number is written out; all else comes after.
      cases fault with
      | noFreeRow => exact .failed rfl
      | negativeDelay | refused => exact .broken rfl

theorem Bounded.bind (start : Bounded excess whole within) {next : β → Except Fault γ}
    {nextWithin : β → Except Failure γ}
    (follow : ∀ value, Bounded other (next value) (nextWithin value)) :
    Bounded (excess <|> other) (whole >>= next) (within >>= nextWithin) := by
  cases start with
  | failed fault => exact .failed (by rw [fault]; rfl)
  | broken found => exact .broken (by rw [found]; rfl)
  | @done value none result =>
    subst none result
    exact follow value

/-- What follows cannot be broken off. -/
theorem Bounded.last (start : Bounded excess whole within) {next : β → Except Fault γ}
    {nextWithin : β → Except Failure γ}
    (follow : ∀ value, Bounded none (next value) (nextWithin value)) :
    Bounded excess (whole >>= next) (within >>= nextWithin) := by
  have both := start.bind follow
  cases excess <;> exact both

/-- A number is written out within work that cannot fail. -/
theorem Bounded.write {limits : Limits} {number : Int} {drawn : β} {whole : Except Fault γ}
    {nextWithin : β → Except Failure γ} (follow : Bounded other whole (nextWithin drawn)) :
    Bounded (limits.writing? number <|> other) whole
      (writing limits number (.ok drawn) >>= nextWithin) := by
  cases judged : limits.writing? number with
  | none =>
    rw [writing_of_allowed judged]
    exact follow
  | some limit =>
    unfold writing
    rw [judged]
    exact .broken rfl

variable {α : Type} [Coordinate α] {compiler : Compiler α} {limits : Limits}

theorem bounded_drawMessage (level : Nat) (template : Template) (wanted : Position α)
    (draft : Draft α) :
    Bounded (limits.calling? level <|> limits.writing? template.id)
      (compiler.drawMessage template wanted draft)
      (compiler.drawMessageWithin limits level template wanted draft) := by
  rw [drawMessageWithin]
  cases limits.calling? level with
  | none => exact bounded_writing limits template.id _
  | some limit => exact .broken rfl

theorem bounded_drawBranches (owner : Template) (parent : Position α) (count level index : Nat)
    (tree : Branches) (draft : Draft α) :
    Bounded (tree.excess? limits compiler.rules.delayDuration level)
      (compiler.drawBranches owner parent count index tree draft)
      (compiler.drawBranchesWithin limits owner parent count level index tree draft) := by
  induction tree generalizing owner parent count level index draft with
  | done => exact .done rfl rfl
  | stop response ending rest ih =>
    refine (bounded_writing limits _ _).bind fun branched => ?_
    exact (bounded_mapError _).bind fun ended => ih owner parent count level (index + 1) ended
  | into response child inside rest insideIH restIH =>
    refine (bounded_writing limits _ _).bind fun branched => ?_
    refine (bounded_drawMessage level child _ branched.1).bind fun messaged => ?_
    refine (insideIH child messaged.2 inside.length (level + 1) 0 messaged.1).bind fun drawn => ?_
    exact (bounded_mapError _).bind fun closed => restIH owner parent count level (index + 1) _

theorem bounded_draw (expansion : Expansion) :
    Bounded (expansion.excess? limits compiler.rules.delayDuration) (compiler.draw expansion)
      (compiler.drawWithin limits expansion) := by
  simp only [draw, drawOpen, bind_assoc]
  refine (bounded_mapError compiler.drawStart).bind fun started => ?_
  refine Bounded.write ?_
  refine (bounded_drawMessage 0 expansion.first _ _).bind fun messaged => ?_
  refine (bounded_drawBranches expansion.first _ _ 1 0 expansion.branches _).last fun drawn => ?_
  exact (bounded_mapError _).bind fun closed => bounded_mapError _

/-- Compiling within limits comes to the same as without them, unless it is broken off. -/
theorem bounded_compile (compiler : Compiler α) (limits : Limits) (templates : List Template) :
    Bounded (compiler.rules.excess? limits templates) (compiler.compile templates)
      (compiler.compileWithin limits templates) := by
  rw [compile, compileWithin, compileSelection, compileSelectionWithin, Rules.excess?,
    Rules.conversation?]
  generalize compiler.rules.select templates = selection
  cases selected : selection.templates with
  | nil => exact (bounded_mapError _).bind fun drawn => .done rfl rfl
  | cons first others =>
    exact (bounded_draw (compiler.rules.expand _ first)).last fun drawn => .done rfl rfl

/-- What comes of a compilation within limits, whatever comes of it without them. -/
theorem compileWithin_cases (compiler : Compiler α) (limits : Limits) (templates : List Template) :
    (∃ fault, compiler.compileWithin limits templates = .error (.fault fault) ∧
        compiler.compile templates = .error fault) ∨
      (∃ compilation, compiler.compileWithin limits templates = .ok compilation ∧
        compiler.compile templates = .ok compilation ∧
        compiler.rules.nesting templates ≤ limits.calls ∧
        ∀ number ∈ compiler.rules.written templates, limits.allows number) ∨
      (limits.calls < compiler.rules.nesting templates ∧
        compiler.compileWithin limits templates = .error (.excess .calls)) ∨
      (∃ number ∈ compiler.rules.written templates, ¬ limits.allows number) ∧
        compiler.compileWithin limits templates = .error (.excess (.digits limits.digits)) := by
  have bounded := bounded_compile compiler limits templates
  have judged := compiler.rules.judge_excess? limits templates
  generalize compiler.compileWithin limits templates = within at bounded ⊢
  cases bounded with
  | failed fault => exact .inl ⟨_, rfl, fault⟩
  | done passed result =>
    rw [passed] at judged
    cases judged with
    | pass room allowed => exact .inr (.inl ⟨_, rfl, result, room, allowed⟩)
  | broken found =>
    rw [found] at judged
    cases judged with
    | deep beyond => exact .inr (.inr (.inl ⟨beyond, rfl⟩))
    | long member beyond => exact .inr (.inr (.inr ⟨⟨_, member, beyond⟩, rfl⟩))

variable {templates : List Template} {compilation : Compilation α}

theorem compile_of_compileWithin
    (compiled : compiler.compileWithin limits templates = .ok compilation) :
    compiler.compile templates = .ok compilation := by
  have bounded := bounded_compile compiler limits templates
  rw [compiled] at bounded
  cases bounded with
  | done _ result => exact result

theorem nesting_le_calls (compiled : compiler.compileWithin limits templates = .ok compilation) :
    compiler.rules.nesting templates ≤ limits.calls := by
  rcases compiler.compileWithin_cases limits templates with
    ⟨_, same, _⟩ | ⟨_, _, _, room, _⟩ | ⟨_, same⟩ | ⟨_, same⟩
  · cases same.symm.trans compiled
  · exact room
  · cases same.symm.trans compiled
  · cases same.symm.trans compiled

end Compiler

end ReplyFlow
