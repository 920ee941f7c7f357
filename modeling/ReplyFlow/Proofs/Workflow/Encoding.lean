import ReplyFlow.Outline.Printer
import ReplyFlow.Proofs.Schema.Accepted
import ReplyFlow.Proofs.Template.Encoding
import ReplyFlow.Proofs.Time.Accepted
import ReplyFlow.Workflow.Codec

/-! A workflow is read back from its JSON. -/

set_option autoImplicit false

namespace ReplyFlow

open Schema

/-! ## What is read back -/

theorem Schema.moment_text {moment : Time.Timestamp} (inRange : moment.InRange) :
    Schema.moment (.text moment.text) = .ok moment := by
  change momentOfText moment.text = .ok moment
  rw [momentOfText, Time.read_text inRange]
  exact if_pos inRange.inCalendar

theorem Status.member_name (status : Status) :
    member Status.choices (.text status.name) = .ok status := by
  cases status <;> rfl

/-- The moments of a workflow can be shown by the calendar and by clocks. -/
structure Workflow.InRange (workflow : Workflow) : Prop where
  createdAt : workflow.createdAt.InRange
  updatedAt : workflow.updatedAt.InRange
  lastRun : ∀ moment ∈ workflow.lastRun, moment.InRange

theorem Workflow.check_json (setting : Setting) {workflow : Workflow} (inRange : workflow.InRange) :
    Workflow.check setting workflow.json = .ok workflow := by
  have run : nullable moment (.ofOption (fun moment => .text moment.text) workflow.lastRun) =
      .ok workflow.lastRun :=
    nullable_ofOption workflow.lastRun nofun fun moment known =>
      moment_text (inRange.lastRun moment known)
  rw [Workflow.check, Workflow.json, record,
    optional_eq_ok ["nodes"] rfl
      (list_ofList workflow.graph.nodes fun node _ => Node.check_json setting node),
    optional_eq_ok ["edges"] rfl
      (list_ofList workflow.graph.edges fun edge _ => Edge.check_json setting edge),
    optional_eq_ok ["status"] rfl (Status.member_name workflow.status),
    required_eq_ok ["createdAt", "created_at"] rfl (moment_text inRange.createdAt),
    required_eq_ok ["updatedAt", "updated_at"] rfl (moment_text inRange.updatedAt),
    optional_eq_ok ["lastRun", "last_run"] rfl run]
  rfl

theorem Workflow.finite_json {workflow : Workflow} (finite : workflow.graph.Finite) :
    workflow.json.finite = workflow.json := by
  have run : (Json.ofOption (fun moment => .text moment.text) workflow.lastRun).finite =
      .ofOption (fun moment : Time.Timestamp => .text moment.text) workflow.lastRun := by
    cases workflow.lastRun <;> rfl
  simp [Workflow.json, Json.finite, Json.finiteMembers, finite.finite_nodes,
    Edge.finite_ofList, run]

/-- No other moments are accepted in a workflow. -/
theorem Workflow.inRange_of_check {setting : Setting} {value : Json} {workflow : Workflow}
    (accepted : Workflow.check setting value = .ok workflow) : workflow.InRange := by
  obtain ⟨members, -, fields⟩ := exists_of_record accepted
  obtain ⟨_, run, nine, runKnown, rfl⟩ := Checked.exists_of_seq fields
  obtain ⟨_, creator, eight, -, rfl⟩ := Checked.exists_of_seq nine
  obtain ⟨_, updatedAt, seven, updatedKnown, rfl⟩ := Checked.exists_of_seq eight
  obtain ⟨_, createdAt, six, createdKnown, rfl⟩ := Checked.exists_of_seq seven
  obtain ⟨_, status, five, -, rfl⟩ := Checked.exists_of_seq six
  obtain ⟨_, edges, four, -, rfl⟩ := Checked.exists_of_seq five
  obtain ⟨_, nodes, three, -, rfl⟩ := Checked.exists_of_seq four
  obtain ⟨_, description, two, -, rfl⟩ := Checked.exists_of_seq three
  obtain ⟨_, name, one, -, rfl⟩ := Checked.exists_of_seq two
  obtain ⟨id, -, rfl⟩ := Checked.exists_of_map one
  obtain ⟨_, _, -, created⟩ := exists_of_required createdKnown
  obtain ⟨_, _, -, updated⟩ := exists_of_required updatedKnown
  refine ⟨inRange_of_moment created, inRange_of_moment updated, ?_⟩
  rintro moment ⟨⟩
  obtain ⟨_, read⟩ := exists_of_optional_nullable runKnown
  exact inRange_of_moment read

/-! ## All encodings -/

/-- What is sent of a graph with finite coordinates is read as this graph, and has the same outline;
a workflow whose moments can be shown, as they are in every workflow that is accepted, is read from
what is sent of it; and a template is read from what is sent of it, and from the same with all
fields under their own names. -/
theorem reads_encoded (setting : Setting) :
    (∀ graph : Graph Float, graph.Finite →
      Graph.check setting graph.json.finite = .ok graph ∧
        ∀ calls name withPayload, Graph.outlineJson graph.json.finite calls name withPayload =
          .ok (graph.outline calls name withPayload)) ∧
    (∀ workflow : Workflow, workflow.graph.Finite → workflow.InRange →
      Workflow.check setting workflow.json.finite = .ok workflow) ∧
    (∀ value workflow, Workflow.check setting value = .ok workflow → workflow.InRange) ∧
    ∀ template : Template,
      Template.check setting template.json = .ok template ∧
        Template.check setting (template.jsonAs .own) = .ok template := by
  refine ⟨fun graph finite => ⟨?_, fun calls name withPayload => ?_⟩, fun workflow finite inRange => ?_,
    fun _ _ => Workflow.inRange_of_check, fun template => ⟨?_, ?_⟩⟩
  · rw [finite.finite_json, Graph.check_json]
  · rw [Graph.outlineJson, finite.finite_json, Graph.check_json, Checked.map_ok]
  · rw [Workflow.finite_json finite, Workflow.check_json setting inRange]
  · rw [← template.jsonAs_outside, template.check_jsonAs]
  · rw [template.check_jsonAs]

namespace Samples

/-- A cut branch, left at the ends of the calendar. -/
def ancient : Workflow where
  id := "1"
  name := "Ancient"
  description := ""
  graph := ⟨[⟨"continue-1-0", .finish, ⟨100, -2.5⟩, .marker "Continue" true (some 2), rfl⟩],
    [⟨"conn", "delay-1-0", "continue-1-0", none⟩]⟩
  status := .inactive
  createdAt := ⟨-62135596800000000, some 0⟩
  updatedAt := ⟨253402300799999999, some (-1439)⟩
  createdBy := "HR"
  lastRun := some ⟨0, none⟩

example : (ancient.createdAt.text, ancient.updatedAt.text) =
    ("0001-01-01T00:00:00Z", "9999-12-31T23:59:59.999999-23:59") := by
  decide +kernel

theorem inRange_ancient : ancient.InRange where
  createdAt := ⟨⟨by decide, by rintro _ ⟨⟩; decide⟩, by decide⟩
  updatedAt := ⟨⟨by decide, by rintro _ ⟨⟩; decide⟩, by decide⟩
  lastRun := by
    rintro _ ⟨⟩
    exact ⟨⟨by decide, nofun⟩, by decide⟩

end Samples

theorem reads_encoded_ancient :
    Samples.ancient.graph.Finite ∧ Samples.ancient.InRange ∧
      Graph.check .direct Samples.ancient.graph.json.finite = .ok Samples.ancient.graph ∧
      Workflow.check .direct Samples.ancient.json.finite = .ok Samples.ancient := by
  have finite : Samples.ancient.graph.Finite := by decide +kernel
  have inRange := Samples.inRange_ancient
  obtain ⟨graphs, workflows, accepted, _⟩ := reads_encoded .direct
  have read := workflows _ finite inRange
  -- what has been read is accepted, so its moments are in range once more
  exact ⟨finite, accepted _ _ read, (graphs _ finite).1, read⟩

end ReplyFlow
