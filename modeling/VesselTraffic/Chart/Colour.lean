import VesselTraffic.Number.Double
import VesselTraffic.Text.Basic

/-!
# Chart colours

A colour is a share of red, green and blue each. To make it darker or lighter it is taken apart into hue, lightness and
saturation, its lightness is scaled but kept at most one, and it is put together again. Tracks are drawn in the colours of a
wheel, marks in the same colours made darker.
-/

namespace VesselTraffic

/-- Shares of red, green and blue. -/
structure Colour where
  red : Float
  green : Float
  blue : Float

namespace Colour

/-- The greater of two doubles, the first unless the second is strictly greater. -/
def greater (a b : Float) : Float := if a < b then b else a

/-- The smaller of two doubles, the first unless the second is strictly smaller. -/
def smaller (a b : Float) : Float := if b < a then b else a

/-- Hue, lightness and saturation. -/
structure Shade where
  hue : Float
  lightness : Float
  saturation : Float

/-- The quotient of two doubles, of which the second is not zero. -/
def quotient (x y : Float) : Except NumberFault Float := if y == 0 then .error .divisionByZero else .ok (x / y)

/-- A colour taken apart. Shares beyond the range from nothing to all may leave nothing to relate the saturation to. -/
def toShade (c : Colour) : Except NumberFault Shade :=
  let most := greater (greater c.red c.green) c.blue
  let least := smaller (smaller c.red c.green) c.blue
  let sum := most + least
  let range := most - least
  let lightness := sum / 2
  if least == most then .ok ⟨0, lightness, 0⟩
  else
    let red := (most - c.red) / range
    let green := (most - c.green) / range
    let blue := (most - c.blue) / range
    let sixths := if c.red == most then blue - green
      else if c.green == most then 2 + red - blue
      else 4 + green - red
    (quotient range (if lightness ≤ 0.5 then sum else 2 - most - least)).map fun saturation =>
      ⟨Double.modulo (sixths / 6) 1, lightness, saturation⟩

/-- One share of a colour, between the least and the greatest, at its place on the circle of hues. -/
def share (least most hue : Float) : Float :=
  let h := Double.modulo hue 1
  if h < 1 / 6 then least + (most - least) * h * 6
  else if h < 0.5 then most
  else if h < 2 / 3 then least + (most - least) * (2 / 3 - h) * 6
  else least

/-- A colour put together. -/
def ofShade (s : Shade) : Colour :=
  if s.saturation == 0 then ⟨s.lightness, s.lightness, s.lightness⟩
  else
    let most := if s.lightness ≤ 0.5 then s.lightness * (1 + s.saturation)
      else s.lightness + s.saturation - s.lightness * s.saturation
    let least := 2 * s.lightness - most
    ⟨share least most (s.hue + 1 / 3), share least most s.hue, share least most (s.hue - 1 / 3)⟩

/-- A colour with its lightness scaled. -/
def scaleLightness (c : Colour) (scale : Float) : Except NumberFault Colour :=
  c.toShade.map fun s =>
    let scaled := s.lightness * scale
    ofShade { s with lightness := if scaled < 1 then scaled else 1 }

/-- The share that two hexadecimal digits stand for. -/
def byteShare? (high low : Char) : Option Float :=
  match Text.hexValue? high, Text.hexValue? low with
  | some h, some l => some (Float.ofNat (16 * h + l) / 255)
  | _, _ => none

/-- The colour that a number sign and six hexadecimal digits stand for. -/
def ofHex? : Text → Option Colour
  | ['#', r, r', g, g', b, b'] =>
    match byteShare? r r', byteShare? g g', byteShare? b b' with
    | some red, some green, some blue => some ⟨red, green, blue⟩
    | _, _, _ => none
  | _ => none

/-- The colours of the wheel. -/
def wheel : List String := ["#264653", "#2a9d8f", "#e9c46a", "#f4a261", "#e76f51", "#E45C3A", "#732626"]

/-- How much darker marks are than tracks. -/
def markScale : Float := 0.6

/-- The colour of the track at a place. -/
def track (i : Nat) : String := wheel.getD (i % wheel.length) ""

/-- Neither red nor green nor blue. -/
def black : Colour := ⟨0, 0, 0⟩

/-- The colour of the mark at a place. -/
def mark (i : Nat) : Colour :=
  match ((ofHex? (track i).toList).getD black).scaleLightness markScale with
  | .ok c => c
  | .error _ => black

end Colour
end VesselTraffic
