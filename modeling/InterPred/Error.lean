import InterPred.Params
import InterPred.Word

/-!
# Why a prediction call fails

A call refuses its arguments (`PredError`) or stops on an overflow; `Fault` holds both.
-/

namespace InterPred

inductive Mismatch where
  | missingSource
  | missingDestination
  | biPlanes
  | uniPlanes
  | geoPlanes
  deriving DecidableEq, Repr

def Mismatch.text : Mismatch → String
  | missingSource => "missing source plane"
  | missingDestination => "missing destination plane"
  | biPlanes => "weighted bi-prediction planes"
  | uniPlanes => "weighted uni-prediction planes"
  | geoPlanes => "geometric blend planes"

/-- A request that the library refuses. -/
inductive PredError where
  | noReference
  | negativeRefIdx (idx : Int)
  | weightedBiPredDisabled
  | missingWeights (idx : Nat)
  | missingComponentWeights (comp : Component)
  | conflictingComponentSelect
  | unsupportedBitDepth (depth : Nat)
  | invalidClipBounds (min max : Int) (depth : Nat)
  | fracOutOfRange (frac positions : Nat)
  | unsupportedVariant (variant : FilterVariant) (comp : Component)
  | supportOutOfBounds
  | bufferTooSmall (needed available : Nat)
  | strideTooSmall (stride width : Nat)
  | dimensionMismatch (what : Mismatch)
  | invalidGeoPartition (angle distance : Nat)
  | invalidGeoMode (mode : Nat)
  | unsupportedGeoSize (width height : Nat)
  deriving DecidableEq, Repr

namespace PredError

def message : PredError → String
  | noReference => "Both reference picture list indices are negative"
  | negativeRefIdx idx => s!"Negative reference picture list index: {idx}"
  | weightedBiPredDisabled => "Weighted bi-prediction requested but disabled for this picture"
  | missingWeights idx => s!"No weighting parameters signaled for reference index {idx}"
  | missingComponentWeights comp =>
    let c := comp.name
    s!"No derived weighting parameters for component {c}"
  | conflictingComponentSelect => "Luma-only and chroma-only cannot both be selected"
  | unsupportedBitDepth depth => s!"Bit depth {depth} outside supported range 8..=12"
  | invalidClipBounds min max depth =>
    s!"Invalid clip bounds: min = {min}, max = {max}, bit depth = {depth}"
  | fracOutOfRange frac positions =>
    s!"Fractional position {frac} out of range for a {positions}-position table"
  | unsupportedVariant variant comp =>
    let v := variant.name
    let c := comp.name
    s!"Filter variant {v} has no tap set for component {c}"
  | supportOutOfBounds => "Filter support region is outside the reference plane"
  | bufferTooSmall needed available =>
    s!"Buffer too small: need {needed} samples, have {available}"
  | strideTooSmall stride width => s!"Stride {stride} is smaller than width {width}"
  | dimensionMismatch what =>
    let t := what.text
    s!"Block dimensions do not match: {t}"
  | invalidGeoPartition angle distance =>
    s!"Invalid geometric partition: angle = {angle}, distance = {distance}"
  | invalidGeoMode mode => s!"Invalid geometric partition mode: {mode}"
  | unsupportedGeoSize width height => s!"Unsupported geometric block size {width}x{height}"

end PredError

/-- How a computation of the library ends when it does not succeed. -/
inductive Fault where
  | reject (e : PredError)
  | overflow (o : Overflow)
  deriving DecidableEq, Repr

instance : MonadLift (Except Overflow) (Except Fault) where
  monadLift x := x.mapError .overflow

instance : MonadLift (Except PredError) (Except Fault) where
  monadLift x := x.mapError .reject

def reject {α : Type} (e : PredError) : Except Fault α := .error (.reject e)

end InterPred
