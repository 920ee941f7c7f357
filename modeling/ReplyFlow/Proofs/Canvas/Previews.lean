import ReplyFlow.Canvas.Plan
import ReplyFlow.Proofs.Graph.Soundness
import ReplyFlow.Proofs.Text.Words

/-! What the boxes of a plan show of the messages. -/

set_option autoImplicit false

namespace ReplyFlow

theorem BoxSize.toList_preview {α : Type} [Coordinate α] (size : BoxSize α) (node : Node α)
    {label body recipient : String} {templateId : Int}
    (payload : node.payload = .message label templateId body recipient) :
    (size.box node).preview.toList = Text.shorten body.toList size.previewLength := by
  simp [box, payload, Payload.preview]

/-- Every text is shortened to the line of its words, or to the longest front of that line and an
ellipsis. The box of a message shows its body in this way. -/
theorem Graph.plan_previews {length : Int} (positive : 1 ≤ length) :
    (∀ s, Text.ShownAs s length (Text.shorten s length)) ∧
      ∀ {α : Type} [Coordinate α] (graph : Graph α) (width height : α),
        ∀ box ∈ (graph.plan ⟨width, height, length⟩).boxes, box.node.kind = .message →
          ∃ label templateId body recipient,
            box.node.payload = .message label templateId body recipient ∧
              Text.ShownAs body.toList length box.preview.toList := by
  refine ⟨Text.shownAs_shorten positive, fun graph width height box member message => ?_⟩
  obtain ⟨label, templateId, body, recipient, payload⟩ := Node.exists_message message
  refine ⟨label, templateId, body, recipient, payload, ?_⟩
  obtain ⟨node, _, rfl⟩ := List.mem_map.mp member
  rw [BoxSize.toList_preview _ node payload]
  exact Text.shownAs_shorten positive body.toList

namespace Samples

/-- A message over two lines. -/
def notice : Graph Float :=
  ⟨[⟨"message-1", .message, ⟨0, 0⟩,
      .message "Notice" 1 " Dear\u2028all,\n\twelcome" defaultRecipient, rfl⟩], []⟩

end Samples

theorem Graph.plan_previews_notice :
    (1 : Int) ≤ 10 ∧ ∃ box ∈ (Samples.notice.plan ⟨200, 60, 10⟩).boxes,
      box.node.kind = .message ∧ box.preview = "Dear all,..." ∧
        ∃ label templateId body recipient,
          box.node.payload = .message label templateId body recipient ∧
            Text.ShownAs body.toList 10 box.preview.toList := by
  have positive : (1 : Int) ≤ 10 := by decide
  have shown : ∃ box ∈ (Samples.notice.plan ⟨200, 60, 10⟩).boxes,
      box.node.kind = .message ∧ box.preview = "Dear all,..." := by
    decide +kernel
  obtain ⟨box, member, message, preview⟩ := shown
  exact ⟨positive, box, member, message, preview,
    (Graph.plan_previews positive).2 Samples.notice 200 60 box member message⟩

end ReplyFlow
