import CodeAtlas.Number.Scalar

/-!
# Colours and paint

A colour has four channels of eight bits, the last one its opacity.  A paint
says how a shape is filled and outlined.
-/

namespace CodeAtlas

structure Color where
  r : UInt8
  g : UInt8
  b : UInt8
  a : UInt8
deriving DecidableEq, Repr, Inhabited

namespace Color

/-- An opaque colour. -/
def rgb (r g b : UInt8) : Color :=
  ⟨r, g, b, 255⟩

def transparent : Color := ⟨0, 0, 0, 0⟩
def background : Color := rgb 248 249 251
def text : Color := rgb 33 37 41

def classBody : Color := rgb 255 255 255
def classHeader : Color := rgb 222 235 255
def classBorder : Color := rgb 120 144 180
def methodRow : Color := rgb 255 255 255

def selection : Color := rgb 255 140 0
def selectedMethod : Color := rgb 255 229 180
def hoveredRow : Color := rgb 236 242 252
def hoveredArrow : Color := rgb 25 118 210

def callEdge : Color := rgb 74 85 104
def importEdge : Color := rgb 140 150 165
def architectureEdge : Color := rgb 46 125 50
def structureEdge : Color := rgb 170 170 170
def unknownEdge : Color := rgb 160 160 160

def laneHeader : Color := rgb 232 240 254
def lifeline : Color := rgb 150 160 175
def callArrow : Color := rgb 55 65 81

variable {R : Type} [Scalar R]

/-- A channel as a scalar. -/
@[inline]
def channel (value : UInt8) : R :=
  Scalar.ofNat value.toNat

/-- The colour moved towards black by a share. -/
def darken (color : Color) (factor : R) : Color :=
  let dim := fun (value : UInt8) => Scalar.toByte ((channel value : R) * (1.0 - factor))
  ⟨dim color.r, dim color.g, dim color.b, color.a⟩

/-- The colour moved towards white by a share. -/
def lighten (color : Color) (factor : R) : Color :=
  let lift := fun (value : UInt8) =>
    Scalar.toByte ((channel value : R) + (255.0 - channel value) * factor)
  ⟨lift color.r, lift color.g, lift color.b, color.a⟩

end Color

/-- An outline. -/
structure Stroke (R : Type) where
  color : Color
  width : R
deriving DecidableEq, Repr

/-- How a shape is filled and outlined. -/
structure Paint (R : Type) where
  fill : Option Color := none
  stroke : Option (Stroke R) := none
deriving DecidableEq, Repr, Inhabited

namespace Paint

variable {R : Type}

def filled (fill : Color) (stroke : Stroke R) : Paint R :=
  ⟨some fill, some stroke⟩

def fillOnly (fill : Color) : Paint R :=
  ⟨some fill, none⟩

def strokeOnly (stroke : Stroke R) : Paint R :=
  ⟨none, some stroke⟩

/-- Draws nothing. -/
def invisible : Paint R :=
  ⟨none, none⟩

def isVisible (paint : Paint R) : Bool :=
  paint.fill.isSome || paint.stroke.isSome

end Paint

end CodeAtlas
