import ReplyFlow.Canvas.Plan
import ReplyFlow.Decimal.Numeral
import ReplyFlow.Graph.Codec

/-! Plans as JSON, with the curves as path text. -/

set_option autoImplicit false

namespace ReplyFlow

/-- Drawn numbers have six digits at most; powers of ten from the sixth on are written with an
exponent. -/
def drawnNumber (x : Float) : String :=
  Decimal.NumeralStyle.roundedText ⟨6, false⟩ 6 x

def drawnPoint (point : Position Float) : String :=
  drawnNumber point.x ++ " " ++ drawnNumber point.y

/-- A move to the start, and a cubic curve to the end. -/
def Curve.path (curve : Curve Float) : String :=
  "M " ++ drawnPoint curve.start ++ " C " ++ drawnPoint curve.firstControl ++ ", "
    ++ drawnPoint curve.secondControl ++ ", " ++ drawnPoint curve.finish

def Arrowhead.points {α : Type} (arrowhead : Arrowhead α) : List (Position α) :=
  [arrowhead.left, arrowhead.tip, arrowhead.right]

def Box.json (box : Box Float) : Json :=
  let style := box.node.kind.style
  .object [("node_id", .text box.node.id), ("type", .text box.node.kind.name),
    ("x", .number box.node.position.x), ("y", .number box.node.position.y),
    ("width", .number box.width), ("height", .number box.height), ("fill", .text style.fill),
    ("border", .text style.border), ("text_color", .text style.text), ("icon", .text style.icon),
    ("title", .text box.node.label), ("preview", .text box.preview)]

def Connector.json (connector : Connector Float) : Json :=
  let curve := connector.curve
  .object [("edge_id", .text connector.edge.id), ("start", curve.start.json),
    ("control_1", curve.firstControl.json), ("control_2", curve.secondControl.json),
    ("end", curve.finish.json), ("path", .text curve.path),
    ("arrowhead", .ofList Position.json curve.arrowhead.points),
    ("label", .ofOption .text connector.edge.label),
    ("label_position", .ofOption Position.json connector.labelPosition?)]

def Plan.json (plan : Plan Float) : Json :=
  .object [("width", .number plan.width), ("height", .number plan.height),
    ("boxes", .ofList Box.json plan.boxes),
    ("connectors", .ofList Connector.json plan.connectors)]

end ReplyFlow
