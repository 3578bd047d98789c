import InterPred.Clip
import InterPred.Block

/-!
# Filter and copy kernels

The arithmetic of one pass, sample by sample, on integers.
-/

namespace InterPred.Interp

/-- Turns a weighted sum into a sample: add `offset`, then shift right by `shift`,
rounding toward negative infinity. -/
structure Rounding where
  shift : Nat
  offset : Int
  deriving DecidableEq, Repr

def Rounding.apply (r : Rounding) (v : Int) : Int := (v + r.offset) / (pow2 r.shift : Int)

/-- Rounding of a filter pass at a bit depth: to nearest for output samples, a removed bias
for intermediates. -/
def filterRounding (bitDepth : Nat) (first last : Bool) : Rounding :=
  let headRoom := internalFracBits bitDepth
  if last then
    let shift := filterPrecision + (if first then 0 else headRoom)
    ⟨shift, (pow2 (shift - 1) : Int) +
      (if first then 0 else internalOffset * (pow2 filterPrecision : Int))⟩
  else
    let shift := filterPrecision - (if first then headRoom else 0)
    ⟨shift, if first then -internalOffset * (pow2 shift : Int) else 0⟩

/-- Rounding of a refinement pass. Both passes round to nearest; the first converts native
samples to the refinement precision. -/
def refineRounding (bitDepth : Nat) (first : Bool) : Rounding :=
  let shift := if first then refineFilterPrecision + bitDepth - refinePrecision else 4
  ⟨shift, (pow2 (shift - 1) : Int)⟩

def refineCoeffs (taps : List Int) : List Int := taps.map (· / 4)

def toStored (v : Int) : Int := Word.int16.wrap v

def tapSum (src : Array Int) (pos step : Nat) : List Int → Int
  | [] => 0
  | c :: cs => c * src.getD pos 0 + tapSum src (pos + step) step cs

/-- A filter pass over the block of `dst`: output `(x, y)` weighs the buffer samples from
`start + y * srcStride + x` on, one every `step`, then rounds and stores the sum. -/
def convolve (src : Array Int) (start srcStride step : Nat) (coeffs : List Int)
    (round : Rounding) (store : Int → Int) (dst : Plane) : Plane :=
  dst.fill fun x y => store (round.apply (tapSum src (start + y * srcStride + x) step coeffs))

/-- How a pass stores a rounded value: clipped when it produces output samples, else cut to
16 bits. -/
def storeFor (clip : ClipRange) (last : Bool) (v : Int) : Int :=
  if last then clip.clip v else toStored v

def filterPass (family : TapFamily) (dir : Direction) (first last : Bool) (clip : ClipRange)
    (src : Array Int) (start srcStride : Nat) (dst : Plane) (taps : List Int) : Plane :=
  let step := match dir with
    | .horizontal => 1
    | .vertical => srcStride
  match family with
  | .twoRefine =>
    convolve src start srcStride step (refineCoeffs taps) (refineRounding clip.bitDepth first)
      toStored dst
  | _ =>
    convolve src start srcStride step taps (filterRounding clip.bitDepth first last)
      (storeFor clip last) dst

/-- An integer-position sample: unchanged between equal precisions, raised to an
intermediate by a first pass, or brought back to an output sample by a last pass. -/
def copySample (clip : ClipRange) (first last : Bool) (s : Int) : Int :=
  if first = last then s
  else if first then toStored (s * (pow2 clip.fracBits : Int) - internalOffset)
  else clip.clip ((s + internalOffset + (pow2 (clip.fracBits - 1) : Int)) / (pow2 clip.fracBits : Int))

def refineCopySample (bitDepth : Nat) (s : Int) : Int :=
  toStored <|
    if refinePrecision < bitDepth then
      (s + (pow2 (bitDepth - 11) : Int)) / (pow2 (bitDepth - refinePrecision) : Int)
    else s * (pow2 (refinePrecision - bitDepth) : Int)

def copyPass (first last refine : Bool) (clip : ClipRange) (src : Array Int)
    (start srcStride : Nat) (dst : Plane) : Plane :=
  let f := if refine && first && !last then refineCopySample clip.bitDepth
    else copySample clip first last
  dst.fill fun x y => f (src.getD (start + y * srcStride + x) 0)

end InterPred.Interp
