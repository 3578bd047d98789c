import InterPred.Weighted.Derive
import InterPred.Clip
import InterPred.Block

/-!
# Combining intermediates into output samples

Bi- and uni-directional weighting kernels, on checked 32-bit words in row order.
-/

namespace InterPred.Weighted

open Word

/-- `(1 << shift) >> 1` on 32-bit words. -/
def halfUnit (shift : Int) : Except Overflow Int := do
  let unit ← int32.shl 1 shift
  int32.shr unit 1

def weightBi (clip : ClipRange) (src0 src1 dst : Plane) (wp0 wp1 : Weighting) :
    Except Overflow Plane := do
  let shift ← int32.add wp0.shift clip.fracBits
  let round ← halfUnit shift
  let below ← int32.sub shift 1
  let unit ← int32.shl 1 below
  let lift ← int32.mul wp0.offset unit
  let bias ← int32.add round lift
  dst.fillM fun x y => do
    let a := src0.get x y + internalOffset
    let b := src1.get x y + internalOffset
    let t0 ← int32.mul wp0.weight a
    let t1 ← int32.mul wp1.weight b
    let t ← int32.add t0 t1
    let t ← int32.add t bias
    let v ← int32.shr t shift
    pure (clip.clip v)

/-- Uni-directional weighting with a general weight:
`clip(((w * (s + bias) + round) >> (shift + fracBits)) + offset)`. -/
def scaledUni (clip : ClipRange) (src dst : Plane) (wp : Weighting) : Except Overflow Plane := do
  let shift ← int32.add wp.shift clip.fracBits
  let round ← halfUnit shift
  dst.fillM fun x y => do
    let s := src.get x y + internalOffset
    let t ← int32.mul wp.weight s
    let t ← int32.add t round
    let t ← int32.shr t shift
    let t ← int32.add t wp.offset
    pure (clip.clip t)

/-- Uni-directional weighting with a unit weight: the precision conversion, then the
offset when `withOffset`. -/
def unitUni (withOffset : Bool) (clip : ClipRange) (src dst : Plane) (wp : Weighting) :
    Except Overflow Plane :=
  let shift := clip.fracBits
  let round : Int := (pow2 shift : Int) / 2
  dst.fillM fun x y => do
    let v := (src.get x y + internalOffset + round) / (pow2 shift : Int)
    if withOffset then
      let v ← int32.add v wp.offset
      pure (clip.clip v)
    else pure (clip.clip v)

/-- Uni-directional weighting: a unit weight skips the multiplication. -/
def weightUni (clip : ClipRange) (src dst : Plane) (wp : Weighting) : Except Overflow Plane := do
  let unit ← int32.shl 1 wp.shift
  if wp.weight ≠ unit then scaledUni clip src dst wp
  else unitUni (wp.offset ≠ 0) clip src dst wp

end InterPred.Weighted
