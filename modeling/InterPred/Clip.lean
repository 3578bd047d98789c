import InterPred.Error

/-!
# Output ranges

A `ClipRange` is the interval output samples of one component are clamped to, and carries
its own well-formedness.
-/

namespace InterPred

/-- The bounds output samples of one component are clamped to. -/
structure ClipRange where
  min : Int
  max : Int
  bitDepth : Nat
  depth_ok : BitDepthOk bitDepth
  min_nonneg : 0 ≤ min
  min_le_max : min ≤ max
  max_lt : max < (pow2 bitDepth : Int)

namespace ClipRange

/-- The range `[min, max]` at bit depth `bitDepth`, if the depth is supported and the
bounds lie inside it. The depth is checked first. -/
def withBounds (min max : Int) (bitDepth : Nat) : Except PredError ClipRange :=
  if hd : BitDepthOk bitDepth then
    if hb : 0 ≤ min ∧ min ≤ max ∧ max < (pow2 bitDepth : Int) then
      .ok ⟨min, max, bitDepth, hd, hb.1, hb.2.1, hb.2.2⟩
    else .error (.invalidClipBounds min max bitDepth)
  else .error (.unsupportedBitDepth bitDepth)

def full (bitDepth : Nat) : Except PredError ClipRange :=
  if BitDepthOk bitDepth then withBounds 0 ((pow2 bitDepth : Int) - 1) bitDepth
  else .error (.unsupportedBitDepth bitDepth)

def widen (r : ClipRange) : ClipRange where
  min := 0
  max := (pow2 r.bitDepth : Int) - 1
  bitDepth := r.bitDepth
  depth_ok := r.depth_ok
  min_nonneg := by omega
  min_le_max := by have : 0 < pow2 r.bitDepth := Nat.two_pow_pos r.bitDepth; omega
  max_lt := by omega

def clip (r : ClipRange) (v : Int) : Int := Max.max r.min (Min.min v r.max)

def fracBits (r : ClipRange) : Nat := internalFracBits r.bitDepth

theorem clip_mem (r : ClipRange) (v : Int) : r.min ≤ r.clip v ∧ r.clip v ≤ r.max := by
  have := r.min_le_max
  unfold clip
  omega

theorem clip_of_mem {r : ClipRange} {v : Int} (h1 : r.min ≤ v) (h2 : v ≤ r.max) :
    r.clip v = v := by
  unfold clip
  omega

theorem fracBits_eq (r : ClipRange) : r.fracBits = 14 - r.bitDepth :=
  internalFracBits_of_ok r.depth_ok

end ClipRange

/-- The clip ranges of one prediction: one per component, with the switches that say
whether they apply. -/
structure ClipSet where
  ranges : Component → ClipRange
  used : Bool
  chroma : Bool

namespace ClipSet

def full (lumaBitDepth chromaBitDepth : Nat) : Except PredError ClipSet := do
  let luma ← ClipRange.full lumaBitDepth
  let chroma ← ClipRange.full chromaBitDepth
  pure { ranges := fun c => if c.isLuma then luma else chroma, used := false, chroma := false }

def ofRanges (y cb cr : ClipRange) (chroma : Bool) : ClipSet where
  ranges
    | .y => y
    | .cb => cb
    | .cr => cr
  used := true
  chroma := chroma

def component (s : ClipSet) (c : Component) : ClipRange :=
  if s.used && (c.isLuma || s.chroma) then s.ranges c else (s.ranges c).widen

end ClipSet

end InterPred
