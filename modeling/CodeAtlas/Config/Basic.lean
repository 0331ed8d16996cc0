import CodeAtlas.Config.Toggles
import CodeAtlas.Text.PathName

/-!
# Settings of the diagram

Sizes in world units unless said otherwise.
-/

namespace CodeAtlas

variable {R : Type} [Scalar R]

/-- Distances between boxes. -/
structure LayoutSettings (R : Type) where
  horizontalGap : R
  verticalGap : R

def LayoutSettings.standard : LayoutSettings R :=
  ⟨80.0, 40.0⟩

/-- Sizes of boxes. -/
structure NodeMetrics (R : Type) where
  headerHeight : R
  rowHeight : R
  paddingX : R
  bottomPadding : R
  minWidth : R
  cornerRadius : R
  cornerSegments : Nat
  standaloneHeight : R
  iconWidth : R

def NodeMetrics.standard : NodeMetrics R :=
  ⟨32.0, 22.0, 12.0, 8.0, 160.0, 8.0, 4, 40.0, 24.0⟩

/-- Label text. -/
structure TextSettings (R : Type) where
  fontSize : R
  fontPath : Option PathName

def TextSettings.standard : TextSettings R :=
  ⟨13.0, none⟩

structure CameraSettings (R : Type) where
  /-- Zoom factor of one wheel notch. -/
  zoomStep : R
  /-- Limits of the visible height. -/
  minExtent : R
  maxExtent : R
  fitMargin : R
  /-- Visible height before the first fit. -/
  initialExtent : R

def CameraSettings.standard : CameraSettings R :=
  ⟨1.1, 40.0, 100000.0, 40.0, 1000.0⟩

structure InteractionSettings (R : Type) where
  /-- Pointer travel in pixels that turns a press into a drag. -/
  dragThreshold : R
  /-- Half the width of the band around call arrows that can be picked. -/
  hitHalfWidth : R

def InteractionSettings.standard : InteractionSettings R :=
  ⟨4.0, 8.0⟩

structure SequenceSettings (R : Type) where
  laneWidth : R
  laneGap : R
  headerHeight : R
  rowHeight : R
  selfLoopWidth : R
  selfLoopHeight : R
  arrowLength : R
  arrowWidth : R

def SequenceSettings.standard : SequenceSettings R :=
  ⟨180.0, 60.0, 36.0, 44.0, 36.0, 18.0, 10.0, 8.0⟩

/-- All settings of the diagram. -/
structure EngineConfig (R : Type) where
  layout : LayoutSettings R
  node : NodeMetrics R
  text : TextSettings R
  camera : CameraSettings R
  interaction : InteractionSettings R
  sequence : SequenceSettings R
  /-- The toggles that every new class starts with. -/
  members : Toggles

def EngineConfig.standard : EngineConfig R :=
  ⟨.standard, .standard, .standard, .standard, .standard, .standard, {}⟩

instance : Inhabited (EngineConfig R) :=
  ⟨.standard⟩

end CodeAtlas
