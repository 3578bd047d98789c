import InterPred.Geo.Mask
import InterPred.Clip
import InterPred.Block

/-!
# Blending the two predictions of a geometric partition

`clip((m * a + (8 - m) * b + offset) >> (fracBits + 3))` at the mask weight `m` of the
co-sited luma sample.
-/

namespace InterPred.Geo

/-- One output sample blended from intermediates `a` and `b` at mask weight `m`. -/
def blendSample (clip : ClipRange) (m a b : Int) : Int :=
  let shift := clip.fracBits + 3
  clip.clip ((m * a + (8 - m) * b + ((pow2 (shift - 1) : Int) + internalOffset * 8)) /
    (pow2 shift : Int))

/-- Blends the blocks of `src0` and `src1` into the block of `dst` through the mask of the
luma block. -/
def blend (p : Partition) (comp : Component) (fmt : ChromaFormat) (clip : ClipRange)
    (src0 src1 dst : Plane) : Except Fault Plane := do
  unless src0.sameSize dst && src1.sameSize dst do reject (.dimensionMismatch .geoPlanes)
  let sx := fmt.scaleX comp
  let sy := fmt.scaleY comp
  let lumaWidth := dst.width * pow2 sx
  let lumaHeight := dst.height * pow2 sy
  let m ← mask p lumaWidth lumaHeight
  let maskStep := pow2 sx
  let maskStride := lumaWidth * pow2 sy
  pure (dst.fill fun x y =>
    blendSample clip (m.getD (y * maskStride + x * maskStep) 0) (src0.get x y) (src1.get x y))

/-- `blend` through the mask cache: the mask comes from `geoMask`, which builds it on first use
and keeps it for later calls, and the call returns the cache it leaves. -/
def blendCached (cache : MaskCache) (p : Partition) (comp : Component) (fmt : ChromaFormat)
    (clip : ClipRange) (src0 src1 dst : Plane) : Except Fault Plane × MaskCache :=
  if src0.sameSize dst && src1.sameSize dst then
    let sx := fmt.scaleX comp
    let sy := fmt.scaleY comp
    let lumaWidth := dst.width * pow2 sx
    let lumaHeight := dst.height * pow2 sy
    let (m, cache) := geoMask cache p lumaWidth lumaHeight
    let out : Except Fault Plane := do
      let m ← m
      let maskStep := pow2 sx
      let maskStride := lumaWidth * pow2 sy
      pure (dst.fill fun x y =>
        blendSample clip (m.getD (y * maskStride + x * maskStep) 0) (src0.get x y) (src1.get x y))
    (out, cache)
  else (reject (.dimensionMismatch .geoPlanes), cache)

end InterPred.Geo
