import Mathlib
import InterPred.Interp

/-!
# How the roundings of two passes compose

A first pass into intermediates followed by a second equals one pass to the same precision
(`filterRounding_lift`).
-/

namespace InterPred

theorem BitDepthOk.cases {d : Nat} (h : BitDepthOk d) :
    d = 8 ∨ d = 9 ∨ d = 10 ∨ d = 11 ∨ d = 12 := by
  unfold BitDepthOk at h
  omega

namespace Interp

/-- The conversion of an intermediate to an output sample, before clipping:
`(v + 8192 + 2 ^ (fb - 1)) >> fb`. -/
def outputRound (d : Nat) (v : Int) : Int :=
  (v + internalOffset + (pow2 (internalFracBits d - 1) : Int)) / (pow2 (internalFracBits d) : Int)

/-! ## Stored intermediates -/

theorem toStored_of_mem {v : Int} (h1 : -32768 ≤ v) (h2 : v ≤ 32767) : toStored v = v :=
  Word.wrap_int16_of_holds ⟨by simpa [Word.least, Word.int16, pow2] using h1,
    by simpa [Word.greatest, Word.int16, pow2] using h2⟩

@[simp] theorem toStored_toStored (v : Int) : toStored (toStored v) = toStored v := by
  simp [toStored, Word.wrap, Word.int16]

/-! ## Passes over the unit impulse -/

section Depth

variable {d : Nat}

theorem filterRounding_first_last_unit (s : Int) :
    (filterRounding d true true).apply (64 * s) = s := by
  simp [filterRounding, Rounding.apply, filterPrecision, pow2]
  omega

theorem filterRounding_mid_unit (v : Int) : (filterRounding d false false).apply (64 * v) = v := by
  simp [filterRounding, Rounding.apply, filterPrecision, pow2]

theorem filterRounding_first_unit (hd : BitDepthOk d) (s : Int) :
    (filterRounding d true false).apply (64 * s) =
      s * (pow2 (internalFracBits d) : Int) - internalOffset := by
  rcases hd.cases with rfl | rfl | rfl | rfl | rfl <;>
    simp [filterRounding, Rounding.apply, internalFracBits, internalPrecision, filterPrecision,
      internalOffset, pow2] <;> omega

/-- Filtering raised samples is filtering the native ones, for a tap set of gain 64. -/
theorem filterRounding_lift (hd : BitDepthOk d) (last : Bool) (T : Int) :
    (filterRounding d false last).apply
      ((pow2 (internalFracBits d) : Int) * T - internalOffset * 64) =
      (filterRounding d true last).apply T := by
  rcases hd.cases with rfl | rfl | rfl | rfl | rfl <;> cases last <;>
    simp [filterRounding, Rounding.apply, internalFracBits, internalPrecision, filterPrecision,
      internalOffset, pow2] <;> omega

theorem outputRound_mid (hd : BitDepthOk d) (T : Int) :
    outputRound d ((filterRounding d false false).apply T) =
      (filterRounding d false true).apply T := by
  rcases hd.cases with rfl | rfl | rfl | rfl | rfl <;>
    simp [outputRound, filterRounding, Rounding.apply, internalFracBits, internalPrecision,
      filterPrecision, internalOffset, pow2] <;> omega

theorem outputRound_first (hd : BitDepthOk d) (S : Int) :
    outputRound d ((filterRounding d true false).apply S) =
      (filterRounding d true true).apply S := by
  rcases hd.cases with rfl | rfl | rfl | rfl | rfl <;>
    simp [outputRound, filterRounding, Rounding.apply, internalFracBits, internalPrecision,
      filterPrecision, internalOffset, pow2] <;> omega

theorem filterRounding_last_of_first (hd : BitDepthOk d) (S : Int) :
    (filterRounding d false true).apply (64 * (filterRounding d true false).apply S) =
      (filterRounding d true true).apply S := by
  rw [← outputRound_mid hd, filterRounding_mid_unit, outputRound_first hd]

/-! ## Intermediates stay inside 16 bits -/

theorem raise_mem (hd : BitDepthOk d) {s : Int} (h0 : 0 ≤ s) (h1 : s < (pow2 d : Int)) :
    -8192 ≤ s * (pow2 (internalFracBits d) : Int) - internalOffset ∧
      s * (pow2 (internalFracBits d) : Int) - internalOffset ≤ 8191 := by
  rcases hd.cases with rfl | rfl | rfl | rfl | rfl <;>
    simp [internalFracBits, internalPrecision, internalOffset, pow2] at h1 ⊢ <;> omega

theorem filterRounding_first_mem (hd : BitDepthOk d) {S : Int}
    (h0 : -(24 * ((pow2 d : Int) - 1)) ≤ S) (h1 : S ≤ 88 * ((pow2 d : Int) - 1)) :
    -14336 ≤ (filterRounding d true false).apply S ∧
      (filterRounding d true false).apply S ≤ 14336 := by
  rcases hd.cases with rfl | rfl | rfl | rfl | rfl <;>
    simp [filterRounding, Rounding.apply, internalFracBits, internalPrecision, filterPrecision,
      internalOffset, pow2] at h0 h1 ⊢ <;> omega

theorem filterRounding_mid_mem {T : Int} (h0 : -(112 * 14336) ≤ T) (h1 : T ≤ 112 * 14336) :
    -32768 ≤ (filterRounding d false false).apply T ∧
      (filterRounding d false false).apply T ≤ 32767 := by
  simp [filterRounding, Rounding.apply, filterPrecision, pow2]
  omega

/-! ## The refinement path -/

theorem refineRounding_mid_unit (v : Int) : (refineRounding d false).apply (16 * v) = v := by
  simp [refineRounding, Rounding.apply, pow2]
  omega

theorem refineRounding_first_unit (hd : BitDepthOk d) (s : Int) :
    toStored ((refineRounding d true).apply (16 * s)) = refineCopySample d s := by
  unfold refineCopySample
  congr 1
  rcases hd.cases with rfl | rfl | rfl | rfl | rfl <;>
    simp [refineRounding, Rounding.apply, refineFilterPrecision, refinePrecision, pow2] <;> omega

theorem refineRounding_first_unit_exact (hd : BitDepthOk d) (h10 : d ≤ 10) (s : Int) :
    (refineRounding d true).apply (16 * s) = (pow2 (10 - d) : Int) * s := by
  rcases hd.cases with rfl | rfl | rfl | rfl | rfl <;>
    simp [refineRounding, Rounding.apply, refineFilterPrecision, refinePrecision, pow2] <;> omega

theorem refine_raise_mem (hd : BitDepthOk d) (h10 : d ≤ 10) {s : Int} (h0 : 0 ≤ s)
    (h1 : s < (pow2 d : Int)) : 0 ≤ (pow2 (10 - d) : Int) * s ∧
      (pow2 (10 - d) : Int) * s ≤ 32767 := by
  rcases hd.cases with rfl | rfl | rfl | rfl | rfl <;> simp [pow2] at h1 h10 ⊢ <;> omega

theorem refineRounding_lift (hd : BitDepthOk d) (h10 : d ≤ 10) (X : Int) :
    (refineRounding d false).apply ((pow2 (10 - d) : Int) * X) =
      (refineRounding d true).apply X := by
  rcases hd.cases with rfl | rfl | rfl | rfl | rfl <;>
    simp [refineRounding, Rounding.apply, refineFilterPrecision, refinePrecision, pow2] <;> omega

end Depth

end Interp

/-- An intermediate converted to an output sample of the range. -/
def ClipRange.toOutput (r : ClipRange) (v : Int) : Int :=
  r.clip (Interp.outputRound r.bitDepth v)

end InterPred
