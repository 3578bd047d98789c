import InterPred.Error
import InterPred.Taps.Tables

/-!
# Choosing a tap set
-/

namespace InterPred.Taps

def row (t : List (List Int)) (frac : Nat) : List Int := t.getD frac []

/-- The tap set for a variant, component and fractional position. -/
def select (v : FilterVariant) (c : Component) (frac : Nat) : Except PredError (List Int) :=
  let positions := c.fracPositions
  if positions ≤ frac then .error (.fracOutOfRange frac positions)
  else if c.isLuma then
    match v with
    | .standard => .ok (row luma frac)
    | .refine => .ok (row bilinear frac)
    | .affine => .ok (row lumaAffine frac)
    | .resampleHalf => .ok (row lumaResampleHalf frac)
    | .resampleDouble => .ok (row lumaResampleDouble frac)
    | .affineResampleHalf => .ok (row lumaAffineResampleHalf frac)
    | .affineResampleDouble => .ok (row lumaAffineResampleDouble frac)
    | .halfPelAlternate => .ok (if frac = 8 then lumaHalfPelAlternate else row luma frac)
  else
    match v with
    | .refine => .error (.unsupportedVariant v c)
    | .resampleHalf | .affineResampleHalf => .ok (row chromaResampleHalf frac)
    | .resampleDouble | .affineResampleDouble => .ok (row chromaResampleDouble frac)
    | .standard | .affine | .halfPelAlternate => .ok (row chroma frac)

/-- The unit impulse of `n` taps: 64 at the centre `n / 2 - 1` and 0 elsewhere. -/
def impulse (n : Nat) : List Int := (List.range n).map fun i => if i = n / 2 - 1 then 64 else 0

/-- The tap set reproduces its input: it is the unit impulse. -/
def isIdentity (taps : List Int) : Bool := taps == impulse taps.length

theorem length_impulse (n : Nat) : (impulse n).length = n := by simp [impulse]

end InterPred.Taps
