import ReplyFlow.Proofs.Compile.Realisation
import ReplyFlow.Proofs.Compile.Replies

/-! Normal forms of template lists.

In its normal form a list holds only the templates that take part, and these only the replies that
are kept. A list is compiled to the same graph as its normal form; what was left out on the way is
all that is said of the one and not of the other.
-/

set_option autoImplicit false

namespace ReplyFlow

/-- The templates whose id does not occur before. -/
def firsts : List Template → List Template
  | [] => []
  | template :: rest => template :: (firsts rest).filter (·.id ≠ template.id)

/-- A template without the replies that are not kept. -/
def Template.prune (keeps : Response → Bool) (template : Template) : Template :=
  { template with responses := template.responses.filter keeps }

/-- The first templates of their ids, with the replies that lead to one of them or, where the rules
keep such replies, nowhere. Inactive templates are left out first, unless they are included. -/
def Rules.normalise (rules : Rules) (templates : List Template) : List Template :=
  let remaining := firsts (templates.filter rules.admits)
  remaining.map (Template.prune (rules.keeps remaining))

/-! ## Selecting templates in normal form -/

theorem firsts_sublist (templates : List Template) : (firsts templates).Sublist templates := by
  induction templates with
  | nil => exact .slnil
  | cons template rest ih => exact (List.filter_sublist.trans ih).cons_cons template

theorem nodup_firsts (templates : List Template) : ((firsts templates).map Template.id).Nodup := by
  induction templates with
  | nil => exact List.nodup_nil
  | cons template rest ih =>
    rw [firsts, List.map_cons, List.nodup_cons]
    refine ⟨fun member => ?_, (List.filter_sublist.map Template.id).nodup ih⟩
    obtain ⟨other, kept, same⟩ := List.mem_map.mp member
    simpa [same] using (List.mem_filter.mp kept).2

namespace Selection

theorem find?_eq_none_iff {templates : List Template} {id : Int} :
    find? templates id = none ↔ id ∉ templates.map Template.id := by
  simp [find?, List.find?_eq_none]

theorem find?_map_prune (keeps : Response → Bool) (templates : List Template) (id : Int) :
    find? (templates.map (Template.prune keeps)) id =
      (find? templates id).map (Template.prune keeps) :=
  List.find?_map ..

theorem add_of_new {selection : Selection} {template : Template}
    (new : template.id ∉ selection.templates.map Template.id) :
    selection.add template = { selection with templates := selection.templates ++ [template] } := by
  rw [add, find?_eq_none_iff.mpr new]

theorem templates_add_of_known {selection : Selection} {template : Template}
    (known : template.id ∈ selection.templates.map Template.id) :
    (selection.add template).templates = selection.templates := by
  rw [add]
  cases found : find? selection.templates template.id with
  | some kept => rfl
  | none => exact absurd known (find?_eq_none_iff.mp found)

theorem templates_foldl_add (templates : List Template) (selection : Selection) :
    (templates.foldl add selection).templates = selection.templates
      ++ (firsts templates).filter fun template =>
        template.id ∉ selection.templates.map Template.id := by
  induction templates generalizing selection with
  | nil => simp [firsts]
  | cons template rest ih =>
    rw [List.foldl_cons, ih, firsts, List.filter_cons, List.filter_filter]
    by_cases known : template.id ∈ selection.templates.map Template.id
    · rw [templates_add_of_known known, if_neg (by simpa using known)]
      congr 1
      apply List.filter_congr
      -- what is not known yet has another id than the template that is
      intro other _
      by_cases same : other.id = template.id <;> simp [same, known]
    · rw [add_of_new known, if_pos (by simpa using known), List.append_assoc]
      refine congrArg (selection.templates ++ template :: ·) (List.filter_congr fun other _ => ?_)
      simp [not_or]

/-- Templates of distinct ids are all taken. -/
theorem foldl_add_of_nodup {templates : List Template} {selection : Selection}
    (distinct : ((selection.templates ++ templates).map Template.id).Nodup) :
    templates.foldl add selection =
      { selection with templates := selection.templates ++ templates } := by
  induction templates generalizing selection with
  | nil => simp
  | cons template rest ih =>
    have new : template.id ∉ selection.templates.map Template.id := by
      rw [List.map_append, List.nodup_append] at distinct
      exact fun member => distinct.2.2 _ member _ List.mem_cons_self rfl
    rw [List.append_cons] at distinct
    rw [List.foldl_cons, add_of_new new, ih distinct]
    simp

end Selection

namespace Rules

variable {rules : Rules} {index : List Template}

theorem templates_select (rules : Rules) (templates : List Template) :
    (rules.select templates).templates = firsts (templates.filter rules.admits) := by
  rw [select, Selection.templates_foldl_add]
  simp

/-- A template takes part in the normal form if it takes part, and none is passed over. -/
theorem select_normalise (rules : Rules) (templates : List Template) :
    rules.select (rules.normalise templates) =
      ⟨(rules.select templates).templates.map
        (Template.prune (rules.keeps (rules.select templates).templates)), []⟩ := by
  rw [templates_select, normalise]
  generalize remaining : firsts (templates.filter rules.admits) = index
  have distinct : (index.map Template.id).Nodup := remaining ▸ nodup_firsts _
  have admitted : ∀ template ∈ index.map (Template.prune (rules.keeps index)),
      rules.admits template := by
    intro template member
    obtain ⟨whole, present, rfl⟩ := List.mem_map.mp member
    rw [← remaining] at present
    exact (List.mem_filter.mp ((firsts_sublist _).subset present)).2
  rw [select, List.filter_eq_self.mpr admitted, Selection.foldl_add_of_nodup]
  · rfl
  · simpa [Function.comp_def, Template.prune] using distinct

theorem keeps_map_prune (keeps : Response → Bool) :
    rules.keeps (index.map (Template.prune keeps)) = rules.keeps index := by
  funext response
  unfold Rules.keeps
  cases response.next with
  | none => rfl
  | some target => simp [Function.comp_def, Template.prune]

theorem kept_map_prune (template : Template) :
    rules.kept (index.map (Template.prune (rules.keeps index)))
        (template.prune (rules.keeps index)) = rules.kept index template := by
  rw [kept, keeps_map_prune, Template.prune, List.filter_filter]
  simp only [Bool.and_self]
  rfl

/-- The branches of a template in normal form lead to templates in normal form. -/
theorem branches_map_prune (template : Template) :
    rules.branches (index.map (Template.prune (rules.keeps index)))
        (template.prune (rules.keeps index)) =
      (rules.branches index template).map fun branch =>
        ⟨branch.response, branch.next.map (Template.prune (rules.keeps index))⟩ := by
  rw [branches_eq, branches_eq, kept_map_prune, List.map_map]
  apply List.map_congr_left
  intro response _
  cases next : response.next with
  | none => simp [next]
  | some target => simp [next, Selection.find?_map_prune]

end Rules

/-! ## Following templates in normal form -/

/-- The same tree with its templates replaced. -/
def Branches.map (replace : Template → Template) : Branches → Branches
  | done => done
  | stop response ending rest => stop response ending (rest.map replace)
  | into response child inside rest =>
    into response (replace child) (inside.map replace) (rest.map replace)

def Expansion.map (replace : Template → Template) (expansion : Expansion) : Expansion :=
  ⟨replace expansion.first, expansion.branches.map replace⟩

section

variable {rules : Rules} {index : List Template} {keeps : Response → Bool}

theorem Branches.length_map (replace : Template → Template) (tree : Branches) :
    (tree.map replace).length = tree.length := by
  induction tree with
  | done => rfl
  | stop _ _ _ ih => exact congrArg (· + 1) ih
  | into _ _ _ _ _ ih => exact congrArg (· + 1) ih

theorem Branches.entered_map (replace : Template → Template) (tree : Branches) :
    (tree.map replace).entered = tree.entered.map replace := by
  induction tree with
  | done => rfl
  | stop _ _ _ ih => exact ih
  | into _ _ _ _ insideIH restIH => simp [map, entered, insideIH, restIH]

theorem Branches.cuts_map_prune (owner : Template) (tree : Branches) :
    (tree.map (Template.prune keeps)).cuts (owner.prune keeps) = tree.cuts owner := by
  induction tree generalizing owner with
  | done => rfl
  | stop response ending rest ih =>
    cases ending with
    | cut => exact congrArg (response.ref owner :: ·) (ih owner)
    | finish | back => exact ih owner
  | into _ _ _ _ insideIH restIH => simp [map, cuts, insideIH, restIH]

theorem Branches.backEdges_map_prune (owner : Template) (place : Nat) (tree : Branches) :
    (tree.map (Template.prune keeps)).backEdges (owner.prune keeps) place =
      tree.backEdges owner place := by
  induction tree generalizing owner place with
  | done => rfl
  | stop response ending rest ih =>
    cases ending with
    | back => exact congrArg (List.cons _) (ih owner (place + 1))
    | finish | cut => exact ih owner (place + 1)
  | into _ _ _ _ insideIH restIH => simp [map, backEdges, insideIH, restIH]

/-- The conversation is the same, told by templates in normal form. -/
theorem Follows.prune {depth : Nat} {branches : List Branch} {visited after : Visited}
    {tree : Branches} (follows : Follows rules index depth branches visited tree after) :
    Follows rules (index.map (Template.prune (rules.keeps index))) depth
      (branches.map fun branch =>
        ⟨branch.response, branch.next.map (Template.prune (rules.keeps index))⟩)
      visited (tree.map (Template.prune (rules.keeps index))) after := by
  induction follows with
  | done => exact .done
  | finish _ ih => exact .finish ih
  | back known _ ih => exact .back known ih
  | cut new _ ih => exact .cut new ih
  | into new _ _ insideIH restIH =>
    rw [← Rules.branches_map_prune] at insideIH
    exact .into new insideIH restIH

theorem Rules.expand_prune (rules : Rules) (index : List Template) (first : Template) :
    rules.expand (index.map (Template.prune (rules.keeps index)))
        (first.prune (rules.keeps index)) =
      (rules.expand index first).map (Template.prune (rules.keeps index)) := by
  obtain ⟨after, follows⟩ := follows_expand rules index first
  obtain ⟨later, again⟩ := follows_expand rules (index.map (Template.prune (rules.keeps index)))
    (first.prune (rules.keeps index))
  rw [branches_map_prune] at again
  exact congrArg (Expansion.mk _) (again.unique follows.prune).1

end

/-! ## Drawing templates in normal form -/

namespace Compiler

variable {α : Type} [Coordinate α] {compiler : Compiler α} {keeps : Response → Bool}

theorem closeMessage_map (compiler : Compiler α) (template : Template) (position : Position α)
    (tree : Branches) (draft : Draft α) :
    compiler.closeMessage (template.prune keeps) position (tree.map (Template.prune keeps)) draft =
      compiler.closeMessage template position tree draft := by
  cases tree <;> rfl

/-- No reply of a template has a part in drawing it, apart from its branches. -/
theorem drawBranches_map (compiler : Compiler α) (owner : Template) (parent : Position α)
    (count index : Nat) (tree : Branches) (draft : Draft α) :
    compiler.drawBranches (owner.prune keeps) parent count index (tree.map (Template.prune keeps))
        draft = compiler.drawBranches owner parent count index tree draft := by
  induction tree generalizing owner parent count index draft with
  | done => rfl
  | stop response ending rest ih =>
    simp only [Branches.map, drawBranches, ih]
    rfl
  | into response child inside rest insideIH restIH =>
    simp only [Branches.map, drawBranches, insideIH, restIH, closeMessage_map, Branches.length_map]
    rfl

theorem draw_map (compiler : Compiler α) (expansion : Expansion) :
    compiler.draw (expansion.map (Template.prune keeps)) = compiler.draw expansion := by
  simp only [draw, drawOpen, Expansion.map, drawBranches_map, closeMessage_map,
    Branches.length_map]
  rfl

theorem drawTemplates_prune (compiler : Compiler α) (index : List Template) :
    compiler.drawTemplates (index.map (Template.prune (compiler.rules.keeps index))) =
      compiler.drawTemplates index := by
  cases index with
  | nil => rfl
  | cons first others =>
    have expansion := compiler.rules.expand_prune (first :: others) first
    rw [List.map_cons] at expansion ⊢
    rw [drawTemplates, drawTemplates, expansion, draw_map]

end Compiler

/-! ## What is said of templates in normal form -/

section

variable {rules : Rules} {index : List Template}

theorem Expansion.entered_map (replace : Template → Template) (expansion : Expansion) :
    (expansion.map replace).entered = expansion.entered.map replace := by
  simp [entered, map, Branches.entered_map]

/-- In a template in normal form every reply leads to a template, or nowhere. -/
theorem danglingReplies_prune (template : Template) :
    (template.prune (rules.keeps index)).danglingReplies
      (index.map (Template.prune (rules.keeps index))) = [] := by
  rw [Template.danglingReplies, List.filterMap_eq_nil_iff]
  intro response member
  have kept := (List.mem_filter.mp member).2
  unfold Rules.keeps at kept
  cases next : response.next with
  | none => simp [Response.lead, next]
  | some target =>
    have known : target ∈ index.map Template.id := by simpa [next] using kept
    cases found : Selection.find? index target with
    | none => exact absurd known (Selection.find?_eq_none_iff.mp found)
    | some child => simp [Response.lead, next, Selection.find?_map_prune, found]

theorem terminalReplies_prune (template : Template) :
    (template.prune (rules.keeps index)).terminalReplies =
      if rules.policy = .finish then template.terminalReplies else [] := by
  have kept (response : Response) : (response.next.isNone && rules.keeps index response) =
      (decide (rules.policy = .finish) && response.next.isNone) := by
    unfold Rules.keeps
    cases response.next <;> simp
  simp only [Template.terminalReplies, Template.prune, List.filter_filter, kept]
  by_cases policy : rules.policy = .finish
  · simp only [policy, decide_true, Bool.true_and, if_true]
    rfl
  · simp [policy]

end

/-- A report in which nothing was left out. -/
def Report.normalised (policy : TerminalPolicy) (report : Report) : Report :=
  { report with
    duplicates := []
    dangling := []
    terminal := if policy = .finish then report.terminal else [] }

theorem Selection.report_map_prune {α : Type} (rules : Rules) (index : List Template)
    (duplicates : List Duplicate) (expansion : Expansion) (draft : Draft α) :
    Selection.report ⟨index.map (Template.prune (rules.keeps index)), []⟩
        (expansion.map (Template.prune (rules.keeps index))) draft =
      (Selection.report ⟨index, duplicates⟩ expansion draft).normalised rules.policy := by
  have terminal : (expansion.entered.flatMap fun template =>
      (template.prune (rules.keeps index)).terminalReplies) =
        if rules.policy = .finish then expansion.entered.flatMap Template.terminalReplies
        else [] := by
    by_cases policy : rules.policy = .finish <;> simp [terminalReplies_prune, policy]
  simp only [report, Report.normalised, Expansion.entered_map, List.flatMap_map, terminal,
    danglingReplies_prune]
  simp [Expansion.map, Branches.cuts_map_prune, Branches.backEdges_map_prune]

theorem Rules.account_normalise {α : Type} (rules : Rules) (templates : List Template)
    (draft : Draft α) :
    rules.account (rules.select (rules.normalise templates)) draft =
      (rules.account (rules.select templates) draft).normalised rules.policy := by
  rw [select_normalise]
  generalize rules.select templates = selection
  obtain ⟨index, duplicates⟩ := selection
  cases index with
  | nil => simp [account, Selection.emptyReport, Report.normalised, Draft.report, Report.empty]
  | cons first others =>
    have same := Selection.report_map_prune rules (first :: others) duplicates
      (rules.expand (first :: others) first) draft
    rw [← expand_prune] at same
    exact same

/-- A list is compiled to the graph of its normal form, and what is said of the two differs only in
the replies and templates that were left out. -/
theorem Compiler.compile_normalise {α : Type} [Coordinate α] (compiler : Compiler α)
    (templates : List Template) :
    compiler.compile (compiler.rules.normalise templates) =
      (compiler.compile templates).map fun compilation =>
        { compilation with report := compilation.report.normalised compiler.rules.policy } := by
  have drawing : compiler.drawTemplates
      (compiler.rules.select (compiler.rules.normalise templates)).templates =
        compiler.drawTemplates (compiler.rules.select templates).templates := by
    rw [compiler.rules.select_normalise, drawTemplates_prune]
  rw [compile_eq, compile_eq, drawing]
  cases compiler.drawTemplates (compiler.rules.select templates).templates with
  | error fault => rfl
  | ok draft =>
    simp only [Except.map]
    rw [compiler.rules.account_normalise]

end ReplyFlow
