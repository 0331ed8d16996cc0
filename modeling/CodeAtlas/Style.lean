import CodeAtlas.Color
import CodeAtlas.Interaction

/-!
# Styles

The colours of each kind of node and edge, and how hover and selection change
them.  Hover and selection never touch stored colours: the paint of a part
follows from its base paint and the state of the interaction.
-/

namespace CodeAtlas

/-- How a kind of node looks. -/
structure NodeStyle where
  fill : Color
  border : Color
  text : Color
  /-- A short tag before the labels of standalone boxes. -/
  icon : String

/-- How a kind of edge looks. -/
structure EdgeStyle (R : Type) where
  color : Color
  width : R
  dashed : Bool
  arrowHead : Bool

namespace NodeKind

/-- Fill, border and tag of a kind. -/
def colors : NodeKind → Color × Color × String
  | classType => (.classHeader, .classBorder, "C")
  | method => (.methodRow, .classBorder, "m")
  | package => (.rgb 241 236 224, .rgb 161 136 96, "pkg")
  | moduleType => (.rgb 236 232 245, .rgb 126 104 170, "mod")
  | repository => (.rgb 232 232 232, .rgb 110 110 110, "repo")
  | microservice => (.rgb 219 234 254, .rgb 37 99 235, "MS")
  | restInterface => (.rgb 220 252 231, .rgb 22 163 74, "API")
  | restEndpoint => (.rgb 236 253 245, .rgb 5 150 105, "EP")
  | feignClient => (.rgb 254 243 199, .rgb 217 119 6, "FC")
  | feignEndpoint => (.rgb 255 251 235, .rgb 180 83 9, "FE")
  | jmsDestination => (.rgb 252 231 243, .rgb 219 39 119, "Q")
  | jmsListener => (.rgb 253 242 248, .rgb 190 24 93, "L")
  | jmsProducer => (.rgb 250 232 255, .rgb 162 28 175, "P")
  | scheduledTask => (.rgb 237 233 254, .rgb 109 40 217, "T")
  | httpClient => (.rgb 224 242 254, .rgb 2 132 199, "H")
  | dataRepository => (.rgb 241 245 249, .rgb 71 85 105, "DB")
  | unknown => (.rgb 245 245 245, .rgb 150 150 150, "?")

def style (kind : NodeKind) : NodeStyle :=
  let (fill, border, icon) := kind.colors
  ⟨fill, border, .text, icon⟩

/-- The name of a kind in headers. -/
def title : NodeKind → String
  | classType => "class"
  | method => "method"
  | package => "package"
  | moduleType => "module"
  | repository => "repository"
  | microservice => "microservice"
  | restInterface => "REST interface"
  | restEndpoint => "REST endpoint"
  | feignClient => "Feign client"
  | feignEndpoint => "Feign endpoint"
  | jmsDestination => "JMS destination"
  | jmsListener => "JMS listener"
  | jmsProducer => "JMS producer"
  | scheduledTask => "scheduled task"
  | httpClient => "HTTP client"
  | dataRepository => "data repository"
  | unknown => "node"

end NodeKind

variable {R : Type} [Scalar R]

namespace EdgeKind

def style (kind : EdgeKind) : EdgeStyle R :=
  let (color, width) : Color × R := match kind with
    | calls => (.callEdge, 1.5)
    | imports => (.importEdge, 1.0)
    | hasEndpoint | listensOn | sendsTo | implementedBy => (.architectureEdge, 1.5)
    | containsModule | containsPackage | containsClass => (.structureEdge, 1.0)
    | hasMethod | unknown => (.unknownEdge, 1.0)
  ⟨color, width, kind.isDashed, kind.isRendered⟩

end EdgeKind

namespace Paint

/-- The paint of a part that is hovered over. -/
def tinted (paint : Paint R) : Paint R :=
  { paint with fill := paint.fill.map fun color => color.darken (0.06 : R) }

/-- The paint of a selected box. -/
def outlined (paint : Paint R) : Paint R :=
  { paint with stroke := some ⟨.selection, 2.5⟩ }

/-- The paint of a box under hover and selection. -/
def box (paint : Paint R) (hovered selected : Bool) : Paint R :=
  let paint := if hovered then paint.tinted else paint
  if selected then paint.outlined else paint

/-- The paint of an arrow in a colour that calls for attention. -/
def highlighted (paint : Paint R) (color : Color) : Paint R :=
  ⟨paint.fill.map fun _ => color, paint.stroke.map fun stroke => ⟨color, stroke.width * 1.5⟩⟩

/-- The paint of a part under the state of the interaction.  On rows and arrows
selection hides hover. -/
def resolve (role : Role) (base : Paint R) (state : Interaction) : Paint R :=
  let hovered := state.hovered == some role
  match role with
  | .methodRow _ methodId =>
    if state.selectedMethod = some methodId then { base with fill := some .selectedMethod }
    else if hovered then { base with fill := some .hoveredRow }
    else base
  | .classBackground classId => base.box hovered (state.selectedClass == some classId)
  | .classHeader _ => base.box hovered false
  | .standalone nodeId => base.box hovered (state.selectedNode == some nodeId)
  | .laneHeader _ classId => base.box hovered (state.selectedClass == some classId)
  | .callArrow index =>
    if state.selectedCall = some index then base.highlighted .selection
    else if hovered then base.highlighted .hoveredArrow
    else base
  | .edge _ | .lifeline _ => base

end Paint

end CodeAtlas
