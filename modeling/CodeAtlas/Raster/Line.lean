import CodeAtlas.Raster.Canvas

/-!
# Straight lines on the pixel grid

A pen walks from one pixel to another.  Each step moves by at most one pixel in
each direction; the running error decides in which.
-/

namespace CodeAtlas

/-- A pen on its way to a pixel. -/
structure Pen where
  x : Int
  y : Int
  error : Int
deriving DecidableEq, Repr

/-- A line between two pixels. -/
structure PixelLine where
  x0 : Int
  y0 : Int
  x1 : Int
  y1 : Int
deriving DecidableEq, Repr

namespace PixelLine

/-- The way to go from left to right, without sign. -/
def across (line : PixelLine) : Int :=
  (line.x1 - line.x0).natAbs

/-- The way to go from top to bottom, without sign. -/
def along (line : PixelLine) : Int :=
  (line.y1 - line.y0).natAbs

/-- The pen before the first step. -/
def start (line : PixelLine) : Pen :=
  ⟨line.x0, line.y0, line.across - line.along⟩

/-- The step from left to right. -/
def stepX (line : PixelLine) : Int :=
  if line.x0 < line.x1 then 1 else -1

/-- The step from top to bottom. -/
def stepY (line : PixelLine) : Int :=
  if line.y0 < line.y1 then 1 else -1

/-- One step of the pen. -/
def next (line : PixelLine) (pen : Pen) : Pen :=
  let doubled := 2 * pen.error
  let horizontal := -line.along ≤ doubled
  let vertical := doubled ≤ line.across
  { x := if horizontal then pen.x + line.stepX else pen.x
    y := if vertical then pen.y + line.stepY else pen.y
    error := pen.error - (if horizontal then line.along else 0) +
      (if vertical then line.across else 0) }

/-- Whether the pen has arrived. -/
def isDone (line : PixelLine) (pen : Pen) : Bool :=
  pen.x = line.x1 && pen.y = line.y1

/-- Folds over the pen's positions until it arrives, in at most `steps`
steps. -/
@[specialize]
def walk {σ : Type} (line : PixelLine) (visit : σ → Int × Int → σ) : Nat → Pen → σ → σ
  | 0, pen, state => visit state (pen.x, pen.y)
  | steps + 1, pen, state =>
    let state := visit state (pen.x, pen.y)
    if line.isDone pen then state else walk line visit steps (line.next pen) state

/-- Folds over all positions of the pen.  No line needs more steps than its two
extents together. -/
@[specialize]
def fold {σ : Type} (line : PixelLine) (visit : σ → Int × Int → σ) (state : σ) : σ :=
  line.walk visit (line.across + line.along).toNat line.start state

/-- The positions of the pen, in order. -/
def trace (line : PixelLine) : List (Int × Int) :=
  (line.fold (fun cells cell => cell :: cells) []).reverse

end PixelLine

namespace Canvas

/-- The columns or rows that a square pen around a position covers. -/
def penReach (thickness : Int) : Int :=
  (max thickness 1 - 1) / 2

/-- Presses a square pen onto the canvas. -/
@[specialize]
def stamp (R : Type) [Scalar R] (thickness : Int) (color : Color) (canvas : Canvas)
    (cell : Int × Int) : Canvas :=
  let reach := penReach thickness
  (canvas.rows (cell.2 - reach) (cell.2 + reach + 1)).foldl (fun canvas y =>
    canvas.paint R color
      ((canvas.columns (cell.1 - reach) (cell.1 + reach + 1)).map fun x => (x, y))) canvas

/-- Draws a line with a square pen. -/
@[specialize]
def drawLine (R : Type) [Scalar R] (canvas : Canvas) (line : PixelLine) (color : Color)
    (thickness : Int) : Canvas :=
  line.fold (stamp R thickness color) canvas

end Canvas

end CodeAtlas
