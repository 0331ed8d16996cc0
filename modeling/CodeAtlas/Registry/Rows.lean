import CodeAtlas.Geometry.Curve
import CodeAtlas.Registry.Basic

/-!
# Rows of a class

Which rows a class shows, their labels, and the size and outline of its box.
All of these follow from the class, its methods and its toggles, and are
brought up to date together by `refreshClass`.
-/

namespace CodeAtlas

variable {R : Type} [Scalar R]

namespace NodeMetrics

/-- How labels on boxes look. -/
def labelStyle (metrics : NodeMetrics R) : LabelStyle R :=
  ⟨.text, .transparent, metrics.paddingX⟩

/-- The outline of a box of the given size, with its upper left corner at the
origin. -/
def outline (metrics : NodeMetrics R) (size : Vec R) : List (Vec R) :=
  Outline.rounded (.ofPosSize .zero size) metrics.cornerRadius metrics.cornerSegments

/-- The width that a text takes on a box. -/
def textWidth (metrics : NodeMetrics R) (text : TextMetrics R) (shown : String) : R :=
  text.measure shown + metrics.paddingX * 2.0

/-- The height of a class with so many rows. -/
def classHeight (metrics : NodeMetrics R) (rows : Nat) : R :=
  metrics.headerHeight + Scalar.ofNat rows * metrics.rowHeight + metrics.bottomPadding

end NodeMetrics

/-- The rows of a class while they are refreshed. -/
structure RowState (R : Type) where
  methods : Store Method
  pool : Pool R
  width : R
  visibleRows : Nat

namespace Registry

/-- Gives a shown method a label with the text of its row, unless it has it. -/
def labelRow (registry : Registry R) (node : ClassNode R) (pool : Pool R) (method : Method) :
    Method × Pool R :=
  let row := method.rowText node.name node.toggles.showArguments
  if method.label.isNone || method.labelText != row then
    let (label, pool) := (pool.releaseSlot method.label).allocateLabel
      (registry.text.rasterize row registry.metrics.labelStyle)
    ({ method with label := some label, labelText := row }, pool)
  else (method, pool)

/-- Refreshes the row of one method. -/
def refreshRow (registry : Registry R) (node : ClassNode R) (state : RowState R) (id : NodeId) :
    RowState R :=
  match state.methods.get? id with
  | none => state
  | some method =>
    let method := { method with visible := method.isShown node.toggles node.focusedMethod }
    if method.visible then
      let (method, pool) := registry.labelRow node state.pool method
      { methods := state.methods.modify id fun _ => method
        pool
        width := Scalar.max state.width (registry.metrics.textWidth registry.text method.labelText)
        visibleRows := state.visibleRows + 1 }
    else
      { state with methods := state.methods.modify id fun _ => method }

/-- Gives a class a header label, unless it has one. -/
def labelHeader (registry : Registry R) (node : ClassNode R) : Option ResourceId × Pool R :=
  match node.headerLabel with
  | some label => (some label, registry.pool)
  | none =>
    let (label, pool) := registry.pool.allocateLabel
      (registry.text.rasterize node.headerText registry.metrics.labelStyle)
    (some label, pool)

/-- Brings the rows, labels, size and outline of a class up to date. -/
def refreshClass (registry : Registry R) (classId : NodeId) : Registry R :=
  match registry.classes.get? classId with
  | none => registry
  | some node =>
    let metrics := registry.metrics
    let (headerLabel, pool) := registry.labelHeader node
    let width := Scalar.max (metrics.textWidth registry.text node.headerText) metrics.minWidth
    let rows := node.methods.foldl (registry.refreshRow node) ⟨registry.methods, pool, width, 0⟩
    let size : Vec R := ⟨Scalar.ceil rows.width, metrics.classHeight rows.visibleRows⟩
    let (outline, pool) := rows.pool.upsertShape node.outline (metrics.outline size)
    { registry with
      methods := rows.methods
      pool
      classes := registry.classes.modify classId fun node =>
        { node with headerLabel, size, outline := some outline } }

/-- Sets a toggle of a class, and tells whether that is a change. -/
def setToggle (registry : Registry R) (classId : NodeId) (toggle : Toggle) (enabled : Bool) :
    Bool × Registry R :=
  match registry.classes.get? classId with
  | none => (false, registry)
  | some node =>
    if node.toggles.get toggle = enabled then (false, registry)
    else
      let classes := registry.classes.modify classId fun node =>
        { node with toggles := node.toggles.set toggle enabled }
      (true, { registry with classes }.refreshClass classId)

/-- Flips a toggle of a class. -/
def flipToggle (registry : Registry R) (classId : NodeId) (toggle : Toggle) : Bool × Registry R :=
  match registry.classes.get? classId with
  | none => (false, registry)
  | some node => registry.setToggle classId toggle (!node.toggles.get toggle)

/-- Shows a method and hides its siblings; tells whether that is a change. -/
def focusMethod (registry : Registry R) (methodId : NodeId) : Bool × Registry R :=
  match registry.methods.get? methodId with
  | none => (false, registry)
  | some method =>
    match registry.classes.get? method.classId with
    | none => (false, registry)
    | some node =>
      if node.focusedMethod = some methodId then (false, registry)
      else
        let classes := registry.classes.modify method.classId fun node =>
          { node with focusedMethod := some methodId }
        (true, { registry with classes }.refreshClass method.classId)

/-- Undoes the focus on a method of a class. -/
def restoreMethods (registry : Registry R) (classId : NodeId) : Bool × Registry R :=
  match registry.classes.get? classId with
  | none => (false, registry)
  | some node =>
    if node.focusedMethod.isNone then (false, registry)
    else
      let classes := registry.classes.modify classId fun node =>
        { node with focusedMethod := none }
      (true, { registry with classes }.refreshClass classId)

end Registry

end CodeAtlas
