import ReplyFlow.Proofs.Compile.Apart
import ReplyFlow.Proofs.Compile.Bounded
import ReplyFlow.Proofs.Compile.Coverage
import ReplyFlow.Proofs.Compile.Locality
import ReplyFlow.Proofs.Compile.Placement

/-! Which compilations are broken off.

A call enters a template that was not visited before, one level deeper, so the calls are bounded by
the depth and by the number of templates. Neither bounds them by what the machine allows: a long
chain of templates is broken off although nothing is wrong with it.
-/

set_option autoImplicit false

namespace ReplyFlow

/-! ### How much a conversation takes at most -/

namespace Follows

variable {rules : Rules} {index : List Template} {depth : Nat} {branches : List Branch}
  {visited after : Visited} {tree : Branches}

/-- Every further call enters a template one level deeper. -/
theorem nesting_le (follows : Follows rules index depth branches visited tree after) (level : Nat) :
    tree.nesting level ≤ level + depth ∧ tree.nesting level ≤ level + tree.entered.length := by
  induction follows generalizing level with
  | done => simp [Branches.nesting]
  | finish _ ih | back _ _ ih | cut _ _ ih => exact ih level
  | into _ _ _ insideIH restIH =>
    have below := insideIH (level + 1)
    have beside := restIH level
    simp only [Branches.nesting, Branches.entered, List.length_cons, List.length_append,
      List.cons_append]
    omega

end Follows

theorem Branches.mem_written {tree : Branches} {pause number : Int}
    (member : number ∈ tree.written pause) :
    number = pause ∨ number ∈ tree.entered.map Template.id := by
  induction tree with
  | done => cases member
  | stop response ending rest ih =>
    rcases List.mem_cons.mp member with same | later
    · exact .inl same
    · exact ih later
  | into response child inside rest insideIH restIH =>
    simp only [written, List.mem_cons, List.mem_append] at member
    simp only [entered, List.cons_append, List.map_cons, List.map_append, List.mem_cons,
      List.mem_append]
    rcases member with same | entry | below | beside
    · exact .inl same
    · exact .inr (.inl entry)
    · exact (insideIH below).imp_right fun known => .inr (.inl known)
    · exact (restIH beside).imp_right fun known => .inr (.inr known)

namespace Rules

theorem sublist_select (rules : Rules) (templates : List Template) :
    (rules.select templates).templates.Sublist templates := by
  rw [templates_select]
  exact (firsts_sublist _).trans List.filter_sublist

/-- Templates are visited once, and only those that take part. -/
theorem exists_follows (rules : Rules) (first : Template) (others : List Template) :
    ∃ after, Follows rules (first :: others) rules.maxDepth
        (rules.branches (first :: others) first) [first.id]
        (rules.expand (first :: others) first).branches after ∧
      after.Nodup ∧ after ⊆ (first :: others).map Template.id := by
  obtain ⟨after, follows⟩ := follows_expand rules (first :: others) first
  refine ⟨after, follows, follows.nodup_after (List.nodup_singleton _), ?_⟩
  refine follows.after_subset known_branches fun id member => ?_
  rw [List.mem_singleton.mp member]
  exact List.mem_cons_self

/-- The calls are bounded by the depth and by the number of templates. -/
theorem nesting_le (rules : Rules) (templates : List Template) :
    rules.nesting templates ≤ rules.maxDepth + 1 ∧
      rules.nesting templates ≤ templates.length := by
  have size := (rules.sublist_select templates).length_le
  rw [nesting, conversation?]
  cases selected : (rules.select templates).templates with
  | nil => exact ⟨Nat.zero_le _, Nat.zero_le _⟩
  | cons first others =>
    obtain ⟨after, follows, distinct, subset⟩ := rules.exists_follows first others
    obtain ⟨shallow, few⟩ := follows.nesting_le 1
    -- The first template and those that are entered are visited once each.
    have fits := (List.subperm_of_subset distinct subset).length_le
    rw [follows.after_eq] at fits
    simp only [List.length_append, List.length_reverse, List.length_map, List.length_singleton]
      at fits
    rw [selected] at size
    dsimp only
    omega

/-- Only the duration of the pauses and ids of templates are written out. -/
theorem mem_written {rules : Rules} {templates : List Template} {number : Int}
    (member : number ∈ rules.written templates) :
    number = rules.delayDuration ∨ number ∈ templates.map Template.id := by
  have known := ((rules.sublist_select templates).map Template.id).subset
  rw [written, conversation?] at member
  cases selected : (rules.select templates).templates with
  | nil =>
    rw [selected] at member
    cases member
  | cons first others =>
    rw [selected] at member known
    rcases List.mem_cons.mp member with rfl | below
    · exact .inr (known List.mem_cons_self)
    · obtain ⟨after, follows, _, subset⟩ := rules.exists_follows first others
      exact (Branches.mem_written below).imp_right fun entered =>
        known (subset (follows.mem_after.mpr (.inl entered)))

end Rules

namespace Compiler

variable {α : Type} [Coordinate α]

/-- Whatever templates are compiled within limits, the calls never exceed the depth and the number of
templates, and no other numbers are written out than ids and the duration of the pauses. As long as
this is within the limits and every row search comes to an end, there is a sound graph, the same as
without limits. Otherwise the compilation is broken off. -/
theorem compileWithin_sound (compiler : Compiler α) (limits : Limits) (templates : List Template)
    (waits : 0 ≤ compiler.rules.delayDuration)
    (placed : compiler.compileWithin limits templates ≠ .error (.fault .noFreeRow)) :
    compiler.rules.nesting templates ≤ min (compiler.rules.maxDepth + 1) templates.length ∧
      (∀ number ∈ compiler.rules.written templates,
        number = compiler.rules.delayDuration ∨ number ∈ templates.map Template.id) ∧
      ((∃ compilation, compiler.compileWithin limits templates = .ok compilation ∧
          compilation.graph.problems = [] ∧ compilation.graph.Sound ∧
          compiler.compile templates = .ok compilation ∧
          compiler.rules.nesting templates ≤ limits.calls ∧
          ∀ number ∈ compiler.rules.written templates, limits.allows number) ∨
        (limits.calls < compiler.rules.nesting templates ∧
          compiler.compileWithin limits templates = .error (.excess .calls)) ∨
        (∃ number ∈ compiler.rules.written templates, ¬ limits.allows number) ∧
          compiler.compileWithin limits templates = .error (.excess (.digits limits.digits))) := by
  refine ⟨Nat.le_min.mpr (compiler.rules.nesting_le templates), fun _ => Rules.mem_written, ?_⟩
  rcases compiler.compileWithin_cases limits templates with
    ⟨fault, same, failed⟩ | ⟨compilation, same, compiled, fits⟩ | broken
  · -- without limits nothing but a search without end could have failed
    by_cases crowded : fault = .noFreeRow
    · rw [same, crowded] at placed
      exact absurd rfl placed
    · have other : compiler.compile templates ≠ .error .noFreeRow := by
        rw [failed]
        exact fun same => crowded (Except.error.inj same)
      obtain ⟨_, compiled, _⟩ := compiler.compile_sound templates waits other
      cases failed.symm.trans compiled
  · have sound := sound_of_compile compiled
    exact .inl ⟨compilation, same, Graph.problems_eq_nil.mpr sound, sound, compiled, fits⟩
  · exact .inr broken

end Compiler

theorem Samples.exists_compileWithin_detour :
    ∃ compilation, Samples.shallow.compileWithin .usual Samples.detour = .ok compilation :=
  exists_ok_of_isSome (by decide +kernel)

theorem Compiler.compileWithin_sound_detour :
    0 ≤ Samples.shallow.rules.delayDuration ∧
      Samples.shallow.compileWithin .usual Samples.detour ≠ .error (.fault .noFreeRow) ∧
      ∃ compilation, Samples.shallow.compileWithin .usual Samples.detour = .ok compilation ∧
        compilation.graph.problems = [] := by
  obtain ⟨compilation, compiled⟩ := Samples.exists_compileWithin_detour
  have placed : Samples.shallow.compileWithin .usual Samples.detour ≠ .error (.fault .noFreeRow) := by
    rw [compiled]
    exact nofun
  refine ⟨by decide, placed, ?_⟩
  rcases (compileWithin_sound Samples.shallow .usual Samples.detour (by decide) placed).2.2 with
    ⟨result, same, sound, _⟩ | ⟨_, broken⟩ | ⟨_, broken⟩
  · exact ⟨result, same, sound⟩
  · cases compiled.symm.trans broken
  · cases compiled.symm.trans broken

namespace Samples

/-- A template whose only reply leads to the one with the next id. -/
def step (id : Nat) : Template :=
  brief id [⟨"Next", "", some (id + 1), by decide +kernel⟩]

/-- So many templates, each of which leads to the next one. -/
def chain (length : Nat) : List Template :=
  (List.range length).map step

/-- Rules with a depth that is no limit to a chain of this length. -/
def deepRules : Rules :=
  Settings.default.rules 1200 .drop

def deep : Compiler Float :=
  { shallow with rules := deepRules }

/-- The same in exact arithmetic. -/
def exactDeep : Compiler ℚ :=
  { rational with rules := deepRules }

theorem map_id_chain (length : Nat) :
    (chain length).map Template.id = (List.range length).map Nat.cast := by
  rw [chain, List.map_map]
  rfl

theorem nodup_chain (length : Nat) : ((chain length).map Template.id).Nodup := by
  rw [map_id_chain]
  exact List.nodup_range.map Nat.cast_injective

theorem select_chain (rules : Rules) (length : Nat) :
    rules.select (chain length) = ⟨chain length, []⟩ := by
  have admitted : ∀ template ∈ chain length, rules.admits template := by
    intro template member
    obtain ⟨id, _, rfl⟩ := List.mem_map.mp member
    rfl
  rw [Rules.select, List.filter_eq_self.mpr admitted,
    Selection.foldl_add_of_nodup (by simpa using nodup_chain length)]
  rfl

theorem branches_step (rules : Rules) {length id : Nat} (before : id + 1 < length) :
    ∃ response, rules.branches (chain length) (step id) = [⟨response, some (step (id + 1))⟩] := by
  have present : step (id + 1) ∈ chain length :=
    List.mem_map_of_mem (List.mem_range.mpr before)
  have found : Selection.find? (chain length) (id + 1) = some (step (id + 1)) :=
    (Selection.find?_eq_some_iff (nodup_chain length)).mpr ⟨present, rfl⟩
  refine ⟨⟨"Next", "", some (id + 1), by decide +kernel⟩, ?_⟩
  simp [Rules.branches, step, brief, Rules.branch?, Response.lead, found]

/-- Each template of a chain is entered inside the one before it. -/
theorem le_nesting_chain {rules : Rules} {length depth id more : Nat} {visited after : Visited}
    {tree : Branches} (level : Nat) (follows : Follows rules (chain length) depth
      (rules.branches (chain length) (step id)) visited tree after)
    (behind : ∀ other ∈ visited, other ≤ (id : Int)) (shallow : more ≤ depth)
    (short : id + more < length) : level + more ≤ max level (tree.nesting level) := by
  -- All that was visited has a smaller id, so what comes next is never a way back.
  induction more generalizing depth id level visited after tree with
  | zero => exact Nat.le_max_left _ _
  | succ more ih =>
    have before : id + 1 < length := by omega
    obtain ⟨response, branches⟩ := branches_step rules before
    rw [branches] at follows
    cases follows with
    | back known =>
      have := behind _ known
      simp [step, brief] at this
    | cut => omega
    | into new inside =>
      have below := ih (level + 1) inside ?_ (by omega) (by omega)
      · rw [Branches.nesting]
        omega
      · intro other member
        rcases List.mem_cons.mp member with rfl | old
        · simp [step, brief]
        · have := behind other old
          omega

theorem le_nesting (rules : Rules) {length more : Nat} (shallow : more ≤ rules.maxDepth)
    (short : more < length) : more + 1 ≤ rules.nesting (chain length) := by
  have begins : (chain length).head? = some (step 0) := by
    simp [chain, List.head?_range, Nat.ne_of_gt (Nat.zero_lt_of_lt short)]
  rw [Rules.nesting, Rules.conversation?, select_chain]
  cases whole : chain length with
  | nil =>
    rw [whole] at begins
    cases begins
  | cons first others =>
    rw [whole] at begins
    cases begins
    obtain ⟨after, follows⟩ := follows_expand rules (chain length) (step 0)
    have deep := le_nesting_chain 1 follows ?_ shallow (by omega)
    · rw [whole] at deep
      dsimp only
      omega
    · intro other member
      rw [List.mem_singleton.mp member]
      rfl

theorem usual_calls_lt_nesting : Limits.usual.calls < deepRules.nesting (chain 1200) :=
  le_nesting deepRules (by decide) (by decide)

/-- The numbers of a chain are short. -/
theorem allows_written_chain :
    ∀ number ∈ deepRules.written (chain 1200), Limits.usual.allows number := by
  have short : ∀ id ∈ List.range 1200, Limits.usual.allows (id : Nat) := by decide +kernel
  intro number member
  rcases Rules.mem_written member with rfl | named
  · decide
  · rw [map_id_chain] at named
    obtain ⟨id, inside, rfl⟩ := List.mem_map.mp named
    exact short id inside

end Samples

/-- A conversation in which each template leads to the next one takes more calls than there are. -/
theorem Compiler.compileWithin_chain :
    (∀ compilation, Samples.deep.compileWithin .usual (Samples.chain 1200) ≠ .ok compilation) ∧
      Samples.exactDeep.compileWithin .usual (Samples.chain 1200) = .error (.excess .calls) := by
  have beyond := Samples.usual_calls_lt_nesting
  refine ⟨fun compilation compiled => ?_, ?_⟩
  -- Over binary64 a search without end is not ruled out, but there is no graph either way.
  · have room := nesting_le_calls compiled
    exact absurd room (Nat.not_le_of_lt beyond)
  rcases Samples.exactDeep.compileWithin_cases .usual (Samples.chain 1200) with
    ⟨fault, _, failed⟩ | ⟨_, _, _, room, _⟩ | ⟨_, broken⟩ | ⟨⟨number, member, long⟩, _⟩
  · have waits : 0 ≤ Samples.exactDeep.rules.delayDuration := by decide
    obtain ⟨_, compiled⟩ : ∃ compilation,
        Samples.exactDeep.compile (Samples.chain 1200) = .ok compilation := exists_compile waits
    cases failed.symm.trans compiled
  · exact absurd room (Nat.not_le_of_lt beyond)
  · exact broken
  · exact absurd (Samples.allows_written_chain number member) long

end ReplyFlow
