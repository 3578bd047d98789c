import Mathlib
import InterPred.Proofs.Shortcuts
import InterPred.Geo.Blend

/-!
# The 32-bit values of the kernels

Over 16-bit samples no kernel gets near the end of a 32-bit word.
-/

namespace InterPred

@[simp] theorem Word.int32_holds_iff {x : Int} :
    Word.int32.Holds x ↔ -2147483648 ≤ x ∧ x ≤ 2147483647 := by
  simp [Word.Holds, Word.least, Word.greatest, Word.int32, pow2]

@[simp] theorem Word.int16_holds_iff {x : Int} :
    Word.int16.Holds x ↔ -32768 ≤ x ∧ x ≤ 32767 := by
  simp [Word.Holds, Word.least, Word.greatest, Word.int16, pow2]

/-! ## How much a tap set weighs -/

namespace Taps

theorem gain_nonneg (cs : List Int) : 0 ≤ gain cs := by
  induction cs with
  | nil => simp [gain]
  | cons c cs ih =>
    simp only [gain]
    omega

theorem loss_nonneg (cs : List Int) : 0 ≤ loss cs := by
  induction cs with
  | nil => simp [loss]
  | cons c cs ih =>
    simp only [loss]
    omega

theorem gain_take_le (cs : List Int) (j : Nat) : gain (cs.take j) ≤ gain cs := by
  induction cs generalizing j with
  | nil => simp
  | cons c cs ih =>
    cases j with
    | zero =>
      have := gain_nonneg cs
      simp [gain]
      omega
    | succ j =>
      have := ih j
      simp only [List.take_succ_cons, gain]
      omega

theorem loss_take_le (cs : List Int) (j : Nat) : loss (cs.take j) ≤ loss cs := by
  induction cs generalizing j with
  | nil => simp
  | cons c cs ih =>
    cases j with
    | zero =>
      have := loss_nonneg cs
      simp [loss]
      omega
    | succ j =>
      have := ih j
      simp only [List.take_succ_cons, loss]
      omega

theorem mem_bounds {cs : List Int} {c : Int} (hc : c ∈ cs) : c ≤ gain cs ∧ -c ≤ loss cs := by
  induction cs with
  | nil => simp at hc
  | cons d cs ih =>
    have := gain_nonneg cs
    have := loss_nonneg cs
    simp only [gain, loss]
    rcases List.mem_cons.mp hc with rfl | hc
    · omega
    · have := ih hc
      omega

theorem gain_loss_refineCoeffs (cs : List Int) :
    gain (Interp.refineCoeffs cs) ≤ gain cs ∧ loss (Interp.refineCoeffs cs) ≤ loss cs := by
  induction cs with
  | nil => simp [Interp.refineCoeffs, gain, loss]
  | cons c cs ih =>
    simp only [Interp.refineCoeffs, List.map_cons, gain, loss] at ih ⊢
    omega

end Taps

/-! ## Filter passes -/

namespace Interp

open Taps Word

theorem coeffs_bounds {v : FilterVariant} {c : Component} {frac : Nat} {taps : List Int}
    (h : select v c frac = .ok taps) :
    gain (coeffs (v.family c.isLuma) taps) ≤ 88 ∧ loss (coeffs (v.family c.isLuma) taps) ≤ 24 := by
  have ha := select_admissible h
  have hr := gain_loss_refineCoeffs taps
  cases v.family c.isLuma <;> simp only [coeffs] <;>
    exact ⟨by linarith [ha.gain_le], by linarith [ha.loss_le]⟩

/-- The products, running sums and rounded sum a kernel forms for one output are 32-bit
values. -/
structure Words32 (cs : List Int) (f : Nat → Int) (r : Rounding) : Prop where
  products : ∀ c ∈ cs, ∀ k, int32.Holds (c * f k)
  sums : ∀ j, int32.Holds (weigh f (cs.take j))
  rounded : int32.Holds (weigh f cs + r.offset)
  shift_lt : r.shift < 32

theorem words32_of_bounds {cs : List Int} (hg : gain cs ≤ 88) (hl : loss cs ≤ 24) {f : Nat → Int}
    (hf : ∀ k, int16.Holds (f k)) {r : Rounding} (hs : r.shift < 32) (ho : |r.offset| ≤ 2 ^ 20) :
    Words32 cs f r := by
  have hmem : ∀ k < cs.length, -32768 ≤ f k ∧ f k ≤ 32767 := fun k _ => int16_holds_iff.mp (hf k)
  refine ⟨fun c hc k => ?_, fun j => ?_, ?_, hs⟩
  · obtain ⟨h1, h2⟩ := mem_bounds hc
    obtain ⟨h3, h4⟩ := int16_holds_iff.mp (hf k)
    rw [int32_holds_iff]
    constructor <;> nlinarith
  · -- A running sum weighs with a prefix of the taps, no heavier than all of them.
    have := weigh_mem (cs.take j) fun k hk => hmem k (by simp at hk; omega)
    have := gain_take_le cs j
    have := loss_take_le cs j
    have := gain_nonneg (cs.take j)
    have := loss_nonneg (cs.take j)
    rw [int32_holds_iff]
    omega
  · have := weigh_mem cs hmem
    have := gain_nonneg cs
    have := loss_nonneg cs
    rw [abs_le] at ho
    rw [int32_holds_iff]
    omega

theorem filterRounding_fits {d : Nat} (hd : BitDepthOk d) (first last : Bool) :
    (filterRounding d first last).shift < 32 ∧ |(filterRounding d first last).offset| ≤ 2 ^ 20 := by
  rcases hd.cases with rfl | rfl | rfl | rfl | rfl <;> cases first <;> cases last <;> decide

theorem refineRounding_fits {d : Nat} (hd : BitDepthOk d) (first : Bool) :
    (refineRounding d first).shift < 32 ∧ |(refineRounding d first).offset| ≤ 2 ^ 20 := by
  rcases hd.cases with rfl | rfl | rfl | rfl | rfl <;> cases first <;> decide

theorem select_words32 {v : FilterVariant} {c : Component} {frac : Nat} {taps : List Int}
    (h : select v c frac = .ok taps) (clip : ClipRange) {f : Nat → Int}
    (hf : ∀ k, int16.Holds (f k)) (first last : Bool) :
    Words32 (coeffs (v.family c.isLuma) taps) f (filterRounding clip.bitDepth first last) ∧
      Words32 (coeffs (v.family c.isLuma) taps) f (refineRounding clip.bitDepth first) := by
  obtain ⟨hg, hl⟩ := coeffs_bounds h
  obtain ⟨hs, ho⟩ := filterRounding_fits clip.depth_ok first last
  obtain ⟨hs', ho'⟩ := refineRounding_fits clip.depth_ok first
  exact ⟨words32_of_bounds hg hl hf hs ho, words32_of_bounds hg hl hf hs' ho'⟩

/-! ## Copies -/

theorem copy_int32 (clip : ClipRange) {s : Int} (hs : int16.Holds s) :
    int32.Holds (s * pow2 clip.fracBits) ∧ int32.Holds (s * pow2 clip.fracBits - internalOffset) ∧
      int32.Holds (s + internalOffset) ∧
      int32.Holds (s + internalOffset + pow2 (clip.fracBits - 1)) ∧
      int32.Holds (s + pow2 (clip.bitDepth - 11)) ∧
      int32.Holds (s * pow2 (refinePrecision - clip.bitDepth)) := by
  rw [int16_holds_iff] at hs
  rw [clip.fracBits_eq]
  rcases clip.depth_ok.cases with h | h | h | h | h <;>
    simp only [h, pow2, refinePrecision, internalOffset, int32_holds_iff] <;> norm_num <;> omega

end Interp

/-! ## The geometric blend -/

namespace Geo

open Word

theorem maskWeight_mem (p : Partition) (width height x y : Int) :
    0 ≤ maskWeight p width height x y ∧ maskWeight p width height x y ≤ 8 := by
  unfold maskWeight
  dsimp only
  exact ⟨le_max_left _ _, max_le (by norm_num) (min_le_right _ _)⟩

theorem mask_getD_mem {p : Partition} {w h : Nat} {m : Array Int} (hm : mask p w h = .ok m)
    (i : Nat) : 0 ≤ m.getD i 0 ∧ m.getD i 0 ≤ 8 := by
  unfold mask at hm
  split at hm
  · simp only [Except.ok.injEq] at hm
    subst hm
    rw [Array.getD_eq_getD_getElem?]
    cases hv : (List.toArray _)[i]? with
    | none => simp
    | some v =>
      have hmem := Array.mem_of_getElem? hv
      simp only [List.mem_toArray, List.mem_flatMap, List.mem_map, List.mem_range] at hmem
      obtain ⟨y, -, x, -, rfl⟩ := hmem
      exact maskWeight_mem p w h x y
  · cases hm

theorem blendSample_int32 (clip : ClipRange) {m a b : Int} (hm : 0 ≤ m ∧ m ≤ 8)
    (ha : int16.Holds a) (hb : int16.Holds b) :
    int32.Holds (m * a) ∧ int32.Holds ((8 - m) * b) ∧
      int32.Holds (m * a + (8 - m) * b + ((pow2 (clip.fracBits + 3 - 1) : Int) + internalOffset * 8)) ∧
      clip.fracBits + 3 < 32 := by
  rw [int16_holds_iff] at ha hb
  have e1 : -(8 * 32768) ≤ m * a ∧ m * a ≤ 8 * 32767 := by constructor <;> nlinarith
  have e2 : -(8 * 32768) ≤ (8 - m) * b ∧ (8 - m) * b ≤ 8 * 32767 := by constructor <;> nlinarith
  rw [clip.fracBits_eq]
  rcases clip.depth_ok.cases with h | h | h | h | h <;>
    simp only [h, pow2, internalOffset, int32_holds_iff] <;> norm_num <;> omega

end Geo

end InterPred
