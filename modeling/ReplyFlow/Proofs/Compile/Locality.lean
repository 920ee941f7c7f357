import ReplyFlow.Proofs.Compile.Integrity
import ReplyFlow.Proofs.Compile.Normalising

/-! A conversation depends on nothing that its first template does not lead to.

A region of ids is closed if the replies of its templates stay inside it. Two selections that agree
on a closed region tell the same conversation from any template of the region on, whatever else they
hold and in whatever order.
-/

set_option autoImplicit false

namespace ReplyFlow

namespace Selection

/-- The replies of templates that take part lead from the first id to the second. The second one
need not belong to any template. -/
inductive Mentions (index : List Template) (root : Int) : Int → Prop where
  | root : Mentions index root root
  | reply {template : Template} {target : Int} : Mentions index root template.id →
    find? index template.id = some template → target ∈ template.linkedIds →
    Mentions index root target

/-- The replies of the templates of a region lead to ids of the region. -/
def Closed (index : List Template) (region : Int → Prop) : Prop :=
  ∀ template, find? index template.id = some template → region template.id →
    ∀ target ∈ template.linkedIds, region target

/-- For every id of a region the same template takes part, or none. -/
def AgreeOn (region : Int → Prop) (index other : List Template) : Prop :=
  ∀ id, region id → find? index id = find? other id

theorem closed_mentions (index : List Template) (root : Int) :
    Closed index (Mentions index root) :=
  fun _ found mentioned _ member => .reply mentioned found member

/-- What is mentioned lies in every closed region that holds the root. -/
theorem Mentions.within {index : List Template} {region : Int → Prop} {root id : Int}
    (mentioned : Mentions index root id) (closed : Closed index region) (entry : region root) :
    region id := by
  induction mentioned with
  | root => exact entry
  | reply _ found member ih => exact closed _ found ih _ member

end Selection

open Selection (Mentions Closed AgreeOn)

section

variable {rules : Rules} {index other : List Template} {region : Int → Prop}

theorem Response.lead_congr {response : Response}
    (same : ∀ target, response.next = some target →
      Selection.find? index target = Selection.find? other target) :
    response.lead index = response.lead other := by
  unfold Response.lead
  cases next : response.next with
  | none => rfl
  | some target => simp only [same target next]

theorem Template.mem_linkedIds {template : Template} {target : Int} :
    target ∈ template.linkedIds ↔ ∃ response ∈ template.responses, response.next = some target :=
  List.mem_filterMap

/-- The replies of a template of the region lead to the same templates. -/
theorem Response.lead_of_agree (closed : Closed index region) (agree : AgreeOn region index other)
    {template : Template} (found : Selection.find? index template.id = some template)
    (inside : region template.id) {response : Response} (member : response ∈ template.responses) :
    response.lead index = response.lead other := by
  apply Response.lead_congr
  intro target next
  exact agree target (closed template found inside target
    (Template.mem_linkedIds.mpr ⟨response, member, next⟩))

theorem Rules.branches_of_agree (closed : Closed index region)
    (agree : AgreeOn region index other) {template : Template}
    (found : Selection.find? index template.id = some template) (inside : region template.id) :
    rules.branches index template = rules.branches other template := by
  apply List.filterMap_congr
  intro response member
  rw [branch?, branch?, Response.lead_of_agree closed agree found inside member]

theorem Template.danglingReplies_of_agree (closed : Closed index region)
    (agree : AgreeOn region index other) {template : Template}
    (found : Selection.find? index template.id = some template) (inside : region template.id) :
    template.danglingReplies index = template.danglingReplies other := by
  apply List.filterMap_congr
  intro response member
  rw [Response.lead_of_agree closed agree found inside member]

/-- A branch of a template leads to a template that one of its replies names. -/
theorem Rules.id_mem_linkedIds {template child : Template} {branch : Branch}
    (member : branch ∈ rules.branches index template) (next : branch.next = some child) :
    child.id ∈ template.linkedIds := by
  rw [branches_eq] at member
  obtain ⟨response, kept, rfl⟩ := List.mem_map.mp member
  obtain ⟨target, named, found⟩ := Option.bind_eq_some_iff.mp next
  obtain ⟨_, same⟩ := Selection.mem_of_find? found
  exact Template.mem_linkedIds.mpr ⟨response, List.mem_of_mem_filter kept, same ▸ named⟩

/-- The templates that a branch leads to take part and belong to the region. -/
def Branch.Within (branch : Branch) (index : List Template) (region : Int → Prop) : Prop :=
  ∀ child, branch.next = some child →
    Selection.find? index child.id = some child ∧ region child.id

theorem Rules.within_branches (closed : Closed index region) {template : Template}
    (found : Selection.find? index template.id = some template) (inside : region template.id) :
    ∀ branch ∈ rules.branches index template, branch.Within index region := by
  intro branch member child next
  exact ⟨Rules.known_branches branch member child next,
    closed template found inside child.id (id_mem_linkedIds member next)⟩

namespace Follows

variable {depth : Nat} {branches : List Branch} {visited after : Visited} {tree : Branches}

/-- A conversation does not leave a closed region. -/
theorem within (closed : Closed index region)
    (follows : Follows rules index depth branches visited tree after)
    (inside : ∀ branch ∈ branches, branch.Within index region) :
    ∀ template ∈ tree.entered,
      Selection.find? index template.id = some template ∧ region template.id := by
  induction follows with
  | done =>
    intro template member
    cases member
  | finish _ ih => exact ih (List.forall_mem_of_forall_mem_cons inside)
  | back _ _ ih => exact ih (List.forall_mem_of_forall_mem_cons inside)
  | cut _ _ ih => exact ih (List.forall_mem_of_forall_mem_cons inside)
  | into _ _ _ insideIH restIH =>
    obtain ⟨found, entered⟩ := inside _ List.mem_cons_self _ rfl
    intro template member
    rw [Branches.entered, List.cons_append, List.mem_cons, List.mem_append] at member
    rcases member with rfl | below | beside
    · exact ⟨found, entered⟩
    · exact insideIH (Rules.within_branches closed found entered) template below
    · exact restIH (List.forall_mem_of_forall_mem_cons inside) template beside

/-- Selections that agree on a closed region make the same tree of branches that lead into it. -/
theorem of_agree (closed : Closed index region) (agree : AgreeOn region index other)
    (follows : Follows rules index depth branches visited tree after)
    (inside : ∀ branch ∈ branches, branch.Within index region) :
    Follows rules other depth branches visited tree after := by
  induction follows with
  | done => exact .done
  | finish _ ih => exact .finish (ih (List.forall_mem_of_forall_mem_cons inside))
  | back known _ ih => exact .back known (ih (List.forall_mem_of_forall_mem_cons inside))
  | cut new _ ih => exact .cut new (ih (List.forall_mem_of_forall_mem_cons inside))
  | into new _ _ insideIH restIH =>
    -- the branches of the child are looked up again, and found to be the same
    obtain ⟨found, entered⟩ := inside _ List.mem_cons_self _ rfl
    have below := insideIH (Rules.within_branches closed found entered)
    rw [Rules.branches_of_agree closed agree found entered] at below
    exact .into new below (restIH (List.forall_mem_of_forall_mem_cons inside))

end Follows

namespace Rules

variable {first : Template}

theorem within_expand (closed : Closed index region)
    (found : Selection.find? index first.id = some first) (entry : region first.id) :
    ∀ template ∈ (rules.expand index first).entered,
      Selection.find? index template.id = some template ∧ region template.id := by
  obtain ⟨_, follows⟩ := follows_expand rules index first
  exact List.forall_mem_cons.mpr
    ⟨⟨found, entry⟩, follows.within closed (within_branches closed found entry)⟩

theorem expand_of_agree (closed : Closed index region) (agree : AgreeOn region index other)
    (found : Selection.find? index first.id = some first) (entry : region first.id) :
    rules.expand other first = rules.expand index first := by
  obtain ⟨_, follows⟩ := follows_expand rules index first
  obtain ⟨_, again⟩ := follows_expand rules other first
  rw [← branches_of_agree closed agree found entry] at again
  have same := follows.of_agree closed agree (within_branches closed found entry)
  exact congrArg (Expansion.mk first) (again.unique same).1

end Rules

end

/-! ## Compiling -/

/-- The compilation, with the templates counted of another selection. -/
def Compilation.recount {α : Type} (selection : Selection) (compilation : Compilation α) :
    Compilation α :=
  { compilation with
    report := { compilation.report with
      templateCount := selection.templates.length
      duplicates := selection.duplicates.map (·.ignored.id) } }

section

variable {α : Type} {rules : Rules} {selection others : Selection} {first : Template}
  {rest tail : List Template}

/-- Apart from the templates that are counted, the same is said of a drawing. -/
theorem Rules.account_of_agree (selected : selection.templates = first :: rest)
    (again : others.templates = first :: tail)
    (agree : AgreeOn (Mentions (first :: rest) first.id) (first :: rest) (first :: tail))
    (draft : Draft α) :
    (⟨draft.graph, rules.account others draft⟩ : Compilation α) =
      Compilation.recount others ⟨draft.graph, rules.account selection draft⟩ := by
  have closed := Selection.closed_mentions (first :: rest) first.id
  have found := Selection.find?_first first rest
  have expansion : rules.expand (first :: tail) first = rules.expand (first :: rest) first :=
    Rules.expand_of_agree closed agree found .root
  have dangling : (rules.expand (first :: rest) first).entered.flatMap
        (·.danglingReplies (first :: tail)) =
      (rules.expand (first :: rest) first).entered.flatMap (·.danglingReplies (first :: rest)) := by
    apply List.flatMap_congr
    intro template entered
    obtain ⟨known, mentioned⟩ := Rules.within_expand closed found .root template entered
    exact (template.danglingReplies_of_agree closed agree known mentioned).symm
  simp only [account, selected, again, Selection.report, expansion, dangling,
    Compilation.recount]

end

/-! ## Which lists agree -/

namespace Selection

theorem closed_of_forall {index : List Template} {region : Int → Prop}
    (inside : ∀ template ∈ index, ∀ target ∈ template.linkedIds, region target) :
    Closed index region :=
  fun template found _ => inside template (mem_of_find? found).1

theorem find?_firsts (templates : List Template) (id : Int) :
    find? (firsts templates) id = find? templates id := by
  induction templates with
  | nil => rfl
  | cons template rest ih =>
    unfold find? at ih ⊢
    rw [firsts]
    by_cases same : template.id = id
    · rw [List.find?_cons_of_pos (by simpa using same), List.find?_cons_of_pos (by simpa using same)]
    · rw [List.find?_cons_of_neg (by simpa using same), List.find?_cons_of_neg (by simpa using same),
        List.find?_filter, ← ih]
      -- a template of another id is not among those passed over
      congr 1
      funext other
      by_cases matched : other.id = id
      · simp [matched, Ne.symm same]
      · simp [matched]

theorem find?_eq_some_iff {templates : List Template} (distinct : (templates.map Template.id).Nodup)
    {id : Int} {template : Template} :
    find? templates id = some template ↔ template ∈ templates ∧ template.id = id := by
  constructor
  · exact mem_of_find?
  · rintro ⟨member, rfl⟩
    cases found : find? templates template.id with
    | none => exact absurd (List.mem_map_of_mem member) (find?_eq_none_iff.mp found)
    | some other =>
      obtain ⟨present, same⟩ := mem_of_find? found
      exact congrArg some (List.inj_on_of_nodup_map distinct present member same)

/-- Where ids are distinct, the order of the templates has no part in what is found. -/
theorem find?_perm {templates others : List Template} (same : templates.Perm others)
    (distinct : (templates.map Template.id).Nodup) (id : Int) :
    find? templates id = find? others id := by
  have apart : (others.map Template.id).Nodup := (same.map Template.id).nodup_iff.mp distinct
  apply Option.ext
  intro template
  rw [find?_eq_some_iff distinct, find?_eq_some_iff apart, same.mem_iff]

/-- A template is found where others of another id have been taken away. -/
theorem find?_filter {templates : List Template} {keep : Template → Bool} {id : Int}
    (kept : ∀ template ∈ templates, template.id = id → keep template) :
    find? (templates.filter keep) id = find? templates id := by
  induction templates with
  | nil => rfl
  | cons template rest ih =>
    obtain ⟨here, later⟩ := List.forall_mem_cons.mp kept
    have tail := ih later
    unfold find? at tail ⊢
    by_cases same : template.id = id
    · rw [List.filter_cons_of_pos (here same), List.find?_cons_of_pos (by simpa using same),
        List.find?_cons_of_pos (by simpa using same)]
    · rw [List.find?_cons_of_neg (by simpa using same), ← tail, List.filter_cons]
      split
      · exact List.find?_cons_of_neg (by simpa using same)
      · rfl

end Selection

namespace Rules

variable {rules : Rules} {templates others : List Template}

theorem find?_select (rules : Rules) (templates : List Template) (id : Int) :
    Selection.find? (rules.select templates).templates id =
      Selection.find? (templates.filter rules.admits) id := by
  rw [templates_select, Selection.find?_firsts]

theorem head?_select (rules : Rules) (templates : List Template) :
    (rules.select templates).templates.head? = templates.find? rules.admits := by
  rw [templates_select, ← List.head?_filter]
  cases templates.filter rules.admits <;> rfl

theorem agree_of_perm (rules : Rules) (same : templates.Perm others)
    (distinct : (templates.map Template.id).Nodup) (region : Int → Prop) :
    AgreeOn region (rules.select templates).templates (rules.select others).templates := by
  intro id _
  rw [find?_select, find?_select]
  exact Selection.find?_perm (same.filter _) ((List.filter_sublist.map Template.id).nodup distinct) id

theorem agree_of_filter (rules : Rules) {keep : Template → Bool} {region : Int → Prop}
    (kept : ∀ template ∈ templates, region template.id → keep template) :
    AgreeOn region (rules.select templates).templates
      (rules.select (templates.filter keep)).templates := by
  intro id inside
  rw [find?_select, find?_select, List.filter_comm]
  refine (Selection.find?_filter fun template member same => ?_).symm
  exact kept template (List.mem_of_mem_filter member) (same ▸ inside)

/-- The first template stays the first one if it is kept. -/
theorem head?_filter {keep : Template → Bool} {first : Template} {rest : List Template}
    (selected : (rules.select templates).templates = first :: rest) (kept : keep first) :
    ∃ tail, (rules.select (templates.filter keep)).templates = first :: tail := by
  have head := rules.head?_select templates
  rw [selected, List.head?_cons, ← List.head?_filter] at head
  have again := rules.head?_select (templates.filter keep)
  rw [← List.head?_filter, List.filter_comm] at again
  cases admitted : templates.filter rules.admits with
  | nil =>
    rw [admitted] at head
    cases head
  | cons other others =>
    rw [admitted, List.head?_cons, Option.some.injEq] at head
    rw [admitted, ← head, List.filter_cons_of_pos kept, List.head?_cons] at again
    exact List.head?_eq_some_iff.mp again

end Rules

namespace Compiler

variable {α : Type} [Coordinate α] {compiler : Compiler α} {templates others : List Template}
  {first other : Template} {rest tail : List Template}

theorem compile_of_agree (selected : (compiler.rules.select templates).templates = first :: rest)
    (again : (compiler.rules.select others).templates = other :: tail) (same : other.id = first.id)
    (agree : AgreeOn (Mentions (first :: rest) first.id) (first :: rest) (other :: tail)) :
    compiler.compile others =
      (compiler.compile templates).map (Compilation.recount (compiler.rules.select others)) := by
  have found := Selection.find?_first first rest
  -- the first ids are equal, so the first templates are
  have both := agree first.id .root
  rw [found, ← same, Selection.find?_first, Option.some.injEq] at both
  subst both
  have drawing : compiler.drawTemplates (first :: tail) = compiler.drawTemplates (first :: rest) := by
    rw [drawTemplates, drawTemplates, Rules.expand_of_agree
      (Selection.closed_mentions (first :: rest) first.id) agree found .root]
  rw [compile_eq, compile_eq, again, selected, drawing]
  cases compiler.drawTemplates (first :: rest) with
  | error fault => rfl
  | ok draft => exact congrArg Except.ok (Rules.account_of_agree selected again agree draft)

/-- Two lists are compiled alike if they begin with the same template and agree on what it leads
to; so neither the order of the others counts nor what it does not lead to. -/
theorem compile_local (selected : (compiler.rules.select templates).templates = first :: rest) :
    (∀ others other tail, (compiler.rules.select others).templates = other :: tail →
      other.id = first.id →
      AgreeOn (Mentions (first :: rest) first.id) (first :: rest) (other :: tail) →
      compiler.compile others =
        (compiler.compile templates).map (.recount (compiler.rules.select others))) ∧
    (∀ others tail, (compiler.rules.select others).templates = first :: tail →
      templates.Perm others → (templates.map Template.id).Nodup →
      compiler.compile others =
        (compiler.compile templates).map (.recount (compiler.rules.select others))) ∧
    (∀ keep : Template → Bool,
      (∀ template ∈ templates, Mentions (first :: rest) first.id template.id → keep template) →
      compiler.compile (templates.filter keep) = (compiler.compile templates).map
        (.recount (compiler.rules.select (templates.filter keep)))) ∧
    (∀ others tail, (compiler.rules.select others).templates = first :: tail →
      ∀ keep : Template → Bool, templates = others.filter keep →
      (∀ template ∈ others, Mentions (first :: rest) first.id template.id → keep template) →
      compiler.compile others =
        (compiler.compile templates).map (.recount (compiler.rules.select others))) := by
  refine ⟨fun others other tail again same agree => compile_of_agree selected again same agree,
    ?_, ?_, ?_⟩
  · intro others tail again order distinct
    have agree := compiler.rules.agree_of_perm order distinct
      (Mentions (first :: rest) first.id)
    rw [selected, again] at agree
    exact compile_of_agree selected again rfl agree
  · intro keep kept
    have present : first ∈ templates := by
      have head := compiler.rules.head?_select templates
      rw [selected] at head
      exact List.mem_of_find?_eq_some head.symm
    obtain ⟨tail, again⟩ := Rules.head?_filter selected (kept first present .root)
    have agree := compiler.rules.agree_of_filter kept
    rw [selected, again] at agree
    exact compile_of_agree selected again rfl agree
  · intro others tail again keep part kept
    have agree := compiler.rules.agree_of_filter kept
    rw [← part, selected, again] at agree
    exact compile_of_agree selected again rfl fun id mentioned => (agree id mentioned).symm

end Compiler

namespace Samples

/-- The detour with its last templates in another order, and one between them that no reply leads
to. -/
def reordered : List Template :=
  detour.take 1 ++ brief 4 [] :: (detour.drop 1).reverse

theorem agree_reordered : AgreeOn (Mentions detour 1) detour reordered := by
  have inside : ∀ id ∈ [1, 2, 3], Selection.find? detour id = Selection.find? reordered id := by
    decide
  have closed : Closed detour (· ∈ [1, 2, 3]) := Selection.closed_of_forall (by decide)
  intro id mentioned
  exact inside id (mentioned.within closed (by decide))

end Samples

theorem Compiler.compile_local_reordered :
    AgreeOn (Mentions Samples.detour 1) Samples.detour Samples.reordered ∧
      ∃ compilation, Samples.shallow.compile Samples.detour = .ok compilation ∧
        Samples.shallow.compile Samples.reordered = .ok (compilation.recount
          (Samples.shallow.rules.select Samples.reordered)) := by
  obtain ⟨compilation, compiled⟩ := Samples.exists_compile_detour
  have selected : (Samples.shallow.rules.select Samples.detour).templates = Samples.detour := rfl
  have alike := (compile_local selected).1 Samples.reordered _ _ rfl rfl Samples.agree_reordered
  rw [compiled] at alike
  exact ⟨Samples.agree_reordered, compilation, compiled, alike⟩

end ReplyFlow
