import Mathlib
import InterPred.Proofs.Separable

/-!
# Passes over the unit impulse

A pass over the unit impulse is a copy of what it reads, and in the general 2D path gives back
what the other pass computed.
-/

namespace InterPred.Interp

open Taps

def unitGain : TapFamily → Int
  | .twoRefine => 16
  | _ => 64

/-- The samples a pass reads: native samples of the range for a first pass, 16-bit
intermediates after it. -/
def Readable (clip : ClipRange) (first : Bool) (s : Int) : Prop :=
  if first then clip.min ≤ s ∧ s ≤ clip.max else -32768 ≤ s ∧ s ≤ 32767

theorem native_of_mem {clip : ClipRange} {s : Int} (h : clip.min ≤ s ∧ s ≤ clip.max) :
    0 ≤ s ∧ s < (pow2 clip.bitDepth : Int) :=
  ⟨le_trans clip.min_nonneg h.1, lt_of_le_of_lt h.2 clip.max_lt⟩

theorem getD_native {src : Array Int} {d : Nat} (h : ∀ s ∈ src, 0 ≤ s ∧ s < (pow2 d : Int))
    (i : Nat) : 0 ≤ src.getD i 0 ∧ src.getD i 0 < (pow2 d : Int) := by
  rw [Array.getD_eq_getD_getElem?]
  by_cases hi : i < src.size
  · rw [Array.getElem?_eq_getElem hi, Option.getD_some]
    exact h _ (Array.getElem_mem hi)
  · rw [Array.getElem?_eq_none (by omega), Option.getD_none]
    exact ⟨le_rfl, by exact_mod_cast Nat.two_pow_pos d⟩

/-! ## The families outside the refinement path -/

section Family

variable {family : TapFamily} {first last : Bool} {clip : ClipRange}

theorem finish_of_ne (hF : family ≠ .twoRefine) (v : Int) :
    finish family first last clip v =
      storeFor clip last ((filterRounding clip.bitDepth first last).apply v) := by
  cases family <;> simp_all [finish]

theorem coeffs_of_ne (hF : family ≠ .twoRefine) (taps : List Int) :
    coeffs family taps = taps := by
  cases family <;> simp_all [coeffs]

theorem unitGain_of_ne (hF : family ≠ .twoRefine) : unitGain family = 64 := by
  cases family <;> simp_all [unitGain]

end Family

/-! ## One pass -/

theorem weigh_coeffs_impulse (family : TapFamily) (f : Nat → Int) :
    weigh f (coeffs family (impulse family.taps)) = unitGain family * f (family.taps / 2 - 1) := by
  cases family
  case twoRefine => exact weigh_refineCoeffs_impulse f
  all_goals exact weigh_impulse f _

theorem passValue_impulse (family : TapFamily) (first last : Bool) (clip : ClipRange)
    (f : Nat → Int) :
    passValue family first last clip (impulse family.taps) f =
      finish family first last clip (unitGain family * f (family.taps / 2 - 1)) := by
  rw [passValue, weigh_coeffs_impulse]

theorem weigh_native_mem {n : Nat} {taps : List Int} (ht : Admissible n taps) {d : Nat}
    {f : Nat → Int} (hf : ∀ i < n, 0 ≤ f i ∧ f i < (pow2 d : Int)) :
    -(24 * ((pow2 d : Int) - 1)) ≤ weigh f taps ∧
      weigh f taps ≤ 88 * ((pow2 d : Int) - 1) := by
  have hd : (0 : Int) ≤ (pow2 d : Int) - 1 := by
    have : 1 ≤ pow2 d := Nat.one_le_two_pow
    omega
  have hb : ∀ i < taps.length, 0 ≤ f i ∧ f i ≤ (pow2 d : Int) - 1 := fun i hi =>
    ⟨(hf i (ht.length_eq ▸ hi)).1, by have := (hf i (ht.length_eq ▸ hi)).2; omega⟩
  obtain ⟨lo, hi⟩ := weigh_mem taps hb
  have hg : gain taps * ((pow2 d : Int) - 1) ≤ 88 * ((pow2 d : Int) - 1) :=
    mul_le_mul_of_nonneg_right ht.gain_le hd
  have hl : loss taps * ((pow2 d : Int) - 1) ≤ 24 * ((pow2 d : Int) - 1) :=
    mul_le_mul_of_nonneg_right ht.loss_le hd
  constructor <;> linarith

/-- A copy converts a sample as a pass over the impulse does. Both read native samples of the
range when first, and 16-bit intermediates otherwise. -/
theorem copyValue_eq_passValue {family : TapFamily} {first last : Bool} {clip : ClipRange}
    {s : Int} (hlast : family = .twoRefine → last = false) (hs : Readable clip first s) :
    copyValue first last (family == .twoRefine) clip s =
      passValue family first last clip (impulse family.taps) fun _ => s := by
  have hd := clip.depth_ok
  rw [passValue_impulse]
  rcases eq_or_ne family .twoRefine with rfl | hF
  · -- The refinement path: only intermediates, at its own precision when first.
    rw [hlast rfl]
    cases first
    · simp only [Readable, if_false, Bool.false_eq_true] at hs
      simp [copyValue, copySample, finish, unitGain, refineRounding_mid_unit,
        toStored_of_mem hs.1 hs.2]
    · simp [copyValue, finish, unitGain, refineRounding_first_unit hd]
  · have hb : (family == .twoRefine) = false := by simp [hF]
    simp only [finish_of_ne hF, unitGain_of_ne hF, copyValue, hb, Bool.false_and, if_false,
      Bool.false_eq_true, copySample]
    cases first <;> cases last <;> simp only [Readable, if_true, if_false, Bool.false_eq_true] at hs
    · -- Intermediates to intermediates.
      simp [storeFor, filterRounding_mid_unit, toStored_of_mem hs.1 hs.2]
    · -- Intermediates to output samples.
      simp [storeFor, ← outputRound_mid hd, filterRounding_mid_unit, outputRound,
        ClipRange.fracBits]
    · -- Native samples to intermediates.
      simp [storeFor, filterRounding_first_unit hd, ClipRange.fracBits]
    · -- Native samples to output samples: the copy does not clip.
      simp [storeFor, filterRounding_first_last_unit, ClipRange.clip_of_mem hs.1 hs.2]

/-! ## Two passes, one of them over the impulse -/

theorem finish_impulse_after_first {family : TapFamily} {last : Bool} {clip : ClipRange}
    (hlast : family = .twoRefine → last = false) {S : Int}
    (hS : last = true → -(24 * ((pow2 clip.bitDepth : Int) - 1)) ≤ S ∧
      S ≤ 88 * ((pow2 clip.bitDepth : Int) - 1)) :
    finish family false last clip (unitGain family * finish family true false clip S) =
      finish family true last clip S := by
  have hd := clip.depth_ok
  rcases eq_or_ne family .twoRefine with rfl | hF
  · rw [hlast rfl]
    simp [finish, unitGain, refineRounding_mid_unit]
  · simp only [finish_of_ne hF, unitGain_of_ne hF]
    cases last
    · simp [storeFor, filterRounding_mid_unit]
    · obtain ⟨h0, h1⟩ := filterRounding_first_mem hd (hS rfl).1 (hS rfl).2
      have hstore : toStored ((filterRounding clip.bitDepth true false).apply S) =
          (filterRounding clip.bitDepth true false).apply S := toStored_of_mem (by omega) (by omega)
      simp [storeFor, hstore, filterRounding_last_of_first hd]

theorem separableValue_impulse_right {family : TapFamily} {clip : ClipRange} {tapsX : List Int}
    {last : Bool} {ref : Nat → Nat → Int} {x y : Nat} (hlast : family = .twoRefine → last = false)
    (hX : Admissible family.taps tapsX)
    (hs : ∀ i < family.taps, 0 ≤ ref (x + i) (y + (family.taps / 2 - 1)) ∧
      ref (x + i) (y + (family.taps / 2 - 1)) < (pow2 clip.bitDepth : Int)) :
    separableValue family clip tapsX (impulse family.taps) last ref x y =
      passValue family true last clip tapsX fun i => ref (x + i) (y + (family.taps / 2 - 1)) := by
  rw [separableValue, passValue_impulse]
  refine finish_impulse_after_first hlast fun hl => ?_
  have hF : family ≠ .twoRefine := fun h => by simp [hlast h] at hl
  rw [coeffs_of_ne hF]
  exact weigh_native_mem hX hs

theorem separableValue_impulse_left {family : TapFamily} {clip : ClipRange} {tapsY : List Int}
    {last : Bool} {ref : Nat → Nat → Int} {x y : Nat}
    (h10 : family = .twoRefine → clip.bitDepth ≤ 10) (hY : Admissible family.taps tapsY)
    (hs : ∀ k < family.taps, 0 ≤ ref (x + (family.taps / 2 - 1)) (y + k) ∧
      ref (x + (family.taps / 2 - 1)) (y + k) < (pow2 clip.bitDepth : Int)) :
    separableValue family clip (impulse family.taps) tapsY last ref x y =
      passValue family true last clip tapsY fun k => ref (x + (family.taps / 2 - 1)) (y + k) := by
  have hd := clip.depth_ok
  have hlen : ∀ k < tapsY.length, k < family.taps := fun k hk => hY.length_eq ▸ hk
  rw [separableValue]
  simp only [passValue_impulse]
  rcases eq_or_ne family .twoRefine with rfl | hF
  · -- The refinement path scales by `2 ^ (10 - d)`, exactly up to ten bits.
    have hraise : ∀ k < tapsY.length,
        finish .twoRefine true false clip
            (unitGain .twoRefine * ref (x + (TapFamily.twoRefine.taps / 2 - 1)) (y + k)) =
          (pow2 (10 - clip.bitDepth) : Int) *
            ref (x + (TapFamily.twoRefine.taps / 2 - 1)) (y + k) := by
      intro k hk
      obtain ⟨h0, h1⟩ := refine_raise_mem hd (h10 rfl) (hs k (hlen k hk)).1 (hs k (hlen k hk)).2
      simp only [finish, unitGain, refineRounding_first_unit_exact hd (h10 rfl)]
      exact toStored_of_mem (by omega) h1
    rw [passValue_congr (length_coeffs _ _) hraise]
    simp only [passValue, finish, coeffs, weigh_mul, refineRounding_lift hd (h10 rfl)]
  · -- Elsewhere the raise is `s * 2 ^ fb - 8192`, exact for every depth.
    have hraise : ∀ k < tapsY.length,
        finish family true false clip (unitGain family * ref (x + (family.taps / 2 - 1)) (y + k)) =
          (pow2 (internalFracBits clip.bitDepth) : Int) * ref (x + (family.taps / 2 - 1)) (y + k) +
            -internalOffset := by
      intro k hk
      obtain ⟨h0, h1⟩ := raise_mem hd (hs k (hlen k hk)).1 (hs k (hlen k hk)).2
      rw [finish_of_ne hF, unitGain_of_ne hF, filterRounding_first_unit hd]
      simp only [storeFor, Bool.false_eq_true, if_false]
      rw [toStored_of_mem (by omega) (by omega)]
      ring
    rw [passValue_congr (length_coeffs _ _) hraise]
    simp only [passValue, finish_of_ne hF, coeffs_of_ne hF, weigh_affine, hY.total_eq]
    rw [← filterRounding_lift hd, sub_eq_add_neg, ← neg_mul]

theorem separableValue_impulse_impulse {family : TapFamily} {clip : ClipRange} {last : Bool}
    {ref : Nat → Nat → Int} {x y : Nat} (hlast : family = .twoRefine → last = false)
    (hs : clip.min ≤ ref (x + (family.taps / 2 - 1)) (y + (family.taps / 2 - 1)) ∧
      ref (x + (family.taps / 2 - 1)) (y + (family.taps / 2 - 1)) ≤ clip.max) :
    separableValue family clip (impulse family.taps) (impulse family.taps) last ref x y =
      copyValue true last (family == .twoRefine) clip
        (ref (x + (family.taps / 2 - 1)) (y + (family.taps / 2 - 1))) := by
  rw [copyValue_eq_passValue hlast (by simpa [Readable] using hs), separableValue]
  simp only [passValue_impulse]
  refine finish_impulse_after_first hlast fun hl => ?_
  have hF : family ≠ .twoRefine := fun h => by simp [hlast h] at hl
  obtain ⟨h0, h1⟩ := native_of_mem hs
  rw [unitGain_of_ne hF]
  omega

end InterPred.Interp
