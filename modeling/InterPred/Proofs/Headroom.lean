import Mathlib
import InterPred.Proofs.Precision
import InterPred.Proofs.Words

/-!
# Intermediates keep their head room

Over native samples every rounded sum a pass stores already lies in 16 bits
(`IntermediateRange`), so the store never cuts it.
-/

namespace InterPred

namespace Taps

theorem row_mem {t : List (List Int)} {frac : Nat} (h : frac < t.length) : row t frac ∈ t := by
  rw [row, List.getD_eq_getElem?_getD, List.getElem?_eq_getElem h, Option.getD_some]
  exact List.getElem_mem h

theorem bilinear_refine_weight :
    ∀ taps ∈ bilinear,
      gain (Interp.refineCoeffs taps) = 16 ∧ loss (Interp.refineCoeffs taps) = 0 := by
  decide

theorem select_refine_weight {v : FilterVariant} {c : Component} {frac : Nat} {taps : List Int}
    (h : select v c frac = .ok taps) (hF : v.family c.isLuma = .twoRefine) :
    gain (Interp.refineCoeffs taps) = 16 ∧ loss (Interp.refineCoeffs taps) = 0 := by
  have hf := lt_fracPositions_of_select h
  -- Only the luma refinement variant filters with the refinement family.
  obtain ⟨rfl, rfl⟩ : c = .y ∧ v = .refine := by
    cases c <;> cases v <;> simp_all [FilterVariant.family, Component.isLuma]
  have hrow : taps = row bilinear frac := by
    simpa [select, Nat.not_le.mpr hf, Component.isLuma] using h.symm
  rw [hrow]
  exact bilinear_refine_weight _
    (row_mem (by simpa [bilinear, Component.fracPositions, Component.isLuma] using hf))

end Taps

namespace Interp

open Taps

/-! ## Passes before the store -/

/-- Where intermediates lie: within 16 bits, and within `[0, 1024]` at the refinement
precision. -/
def IntermediateRange (refine : Bool) (v : Int) : Prop :=
  if refine then 0 ≤ v ∧ v ≤ 1024 else Word.int16.Holds v

def passRounding (family : TapFamily) (bitDepth : Nat) (first : Bool) : Rounding :=
  match family with
  | .twoRefine => refineRounding bitDepth first
  | _ => filterRounding bitDepth first false

def intermediate (family : TapFamily) (bitDepth : Nat) (first : Bool) (taps : List Int)
    (f : Nat → Int) : Int :=
  (passRounding family bitDepth first).apply (weigh f (coeffs family taps))

/-- The general 2D path to intermediates in exact arithmetic: the vertical pass weighs the
horizontal rounded sums as they are computed. -/
def separableIntermediate (family : TapFamily) (bitDepth : Nat) (tapsX tapsY : List Int)
    (ref : Nat → Nat → Int) (x y : Nat) : Int :=
  intermediate family bitDepth false tapsY fun k =>
    intermediate family bitDepth true tapsX fun i => ref (x + i) (y + k)

def refineRaise (bitDepth : Nat) (s : Int) : Int :=
  if refinePrecision < bitDepth then
    (s + (pow2 (bitDepth - 11) : Int)) / (pow2 (bitDepth - refinePrecision) : Int)
  else s * (pow2 (refinePrecision - bitDepth) : Int)

def copyIntermediate (refine : Bool) (clip : ClipRange) (s : Int) : Int :=
  if refine then refineRaise clip.bitDepth s
  else s * (pow2 clip.fracBits : Int) - internalOffset

theorem IntermediateRange.toStored_eq {refine : Bool} {v : Int}
    (h : IntermediateRange refine v) : toStored v = v := by
  cases refine <;> simp only [IntermediateRange, Word.int16_holds_iff, Bool.false_eq_true,
    if_true, if_false] at h <;>
    exact toStored_of_mem (by omega) (by omega)

theorem intermediateRange_of_ne {family : TapFamily} (hF : family ≠ .twoRefine) {v : Int} :
    IntermediateRange (family == .twoRefine) v ↔ Word.int16.Holds v := by
  rw [beq_false_of_ne hF]
  rfl

theorem intermediate_refine (d : Nat) (first : Bool) (taps : List Int) (f : Nat → Int) :
    intermediate .twoRefine d first taps f =
      (refineRounding d first).apply (weigh f (refineCoeffs taps)) :=
  rfl

theorem passRounding_of_ne {family : TapFamily} (hF : family ≠ .twoRefine) (d : Nat)
    (first : Bool) : passRounding family d first = filterRounding d first false := by
  cases family <;> simp_all [passRounding]

theorem passValue_eq_toStored (family : TapFamily) (first : Bool) (clip : ClipRange)
    (taps : List Int) (f : Nat → Int) :
    passValue family first false clip taps f =
      toStored (intermediate family clip.bitDepth first taps f) := by
  cases family <;> rfl

theorem copyValue_eq_toStored (refine : Bool) (clip : ClipRange) (s : Int) :
    copyValue true false refine clip s = toStored (copyIntermediate refine clip s) := by
  cases refine <;> rfl

/-! ## Rounding at the refinement precision -/

section Depth

variable {d : Nat}

theorem refineRounding_first_mem (hd : BitDepthOk d) {S : Int} (h0 : 0 ≤ S)
    (h1 : S ≤ 16 * ((pow2 d : Int) - 1)) :
    0 ≤ (refineRounding d true).apply S ∧ (refineRounding d true).apply S ≤ 1024 := by
  rcases hd.cases with rfl | rfl | rfl | rfl | rfl <;>
    simp [refineRounding, Rounding.apply, refineFilterPrecision, refinePrecision, pow2] at h1 ⊢ <;>
    omega

theorem refineRounding_mid_mem {T : Int} (h0 : 0 ≤ T) (h1 : T ≤ 16 * 1024) :
    0 ≤ (refineRounding d false).apply T ∧ (refineRounding d false).apply T ≤ 1024 := by
  simp [refineRounding, Rounding.apply, pow2]
  omega

theorem refineRaise_mem (hd : BitDepthOk d) {s : Int} (h0 : 0 ≤ s) (h1 : s < (pow2 d : Int)) :
    0 ≤ refineRaise d s ∧ refineRaise d s ≤ 1024 := by
  rcases hd.cases with rfl | rfl | rfl | rfl | rfl <;>
    simp [refineRaise, refinePrecision, pow2] at h1 ⊢ <;> omega

end Depth

/-! ## The bounds of each pass -/

section Family

variable {v : FilterVariant} {c : Component} {clip : ClipRange}

theorem weigh_refine_mem {frac : Nat} {taps : List Int} (h : select v c frac = .ok taps)
    (hF : v.family c.isLuma = .twoRefine) {g : Nat → Int} {lo hi : Int}
    (hg : ∀ k < (refineCoeffs taps).length, lo ≤ g k ∧ g k ≤ hi) :
    16 * lo ≤ weigh g (refineCoeffs taps) ∧ weigh g (refineCoeffs taps) ≤ 16 * hi := by
  obtain ⟨hgain, hloss⟩ := select_refine_weight h hF
  have hw := weigh_mem (refineCoeffs taps) hg
  rw [hgain, hloss] at hw
  constructor <;> linarith [hw.1, hw.2]

theorem intermediate_first_mem_of_ne {family : TapFamily} (hF : family ≠ .twoRefine)
    {taps : List Int} (ht : Admissible family.taps taps) {f : Nat → Int}
    (hf : ∀ i < family.taps, 0 ≤ f i ∧ f i < (pow2 clip.bitDepth : Int)) :
    -14336 ≤ intermediate family clip.bitDepth true taps f ∧
      intermediate family clip.bitDepth true taps f ≤ 14336 := by
  have hw := weigh_native_mem ht hf
  rw [intermediate, passRounding_of_ne hF, coeffs_of_ne hF]
  exact filterRounding_first_mem clip.depth_ok hw.1 hw.2

theorem intermediate_first_mem_refine {frac : Nat} {taps : List Int}
    (h : select v c frac = .ok taps) (hF : v.family c.isLuma = .twoRefine) {f : Nat → Int}
    (hf : ∀ i, 0 ≤ f i ∧ f i < (pow2 clip.bitDepth : Int)) :
    0 ≤ intermediate .twoRefine clip.bitDepth true taps f ∧
      intermediate .twoRefine clip.bitDepth true taps f ≤ 1024 := by
  have hf' : ∀ k < (refineCoeffs taps).length, 0 ≤ f k ∧ f k ≤ (pow2 clip.bitDepth : Int) - 1 :=
    fun k _ => ⟨(hf k).1, by linarith [(hf k).2]⟩
  have hw := weigh_refine_mem h hF hf'
  rw [intermediate_refine]
  exact refineRounding_first_mem clip.depth_ok (by linarith [hw.1]) hw.2

theorem intermediate_mid_mem_of_ne {family : TapFamily} (hF : family ≠ .twoRefine)
    {taps : List Int} (ht : Admissible family.taps taps) {g : Nat → Int}
    (hg : ∀ k < taps.length, -14336 ≤ g k ∧ g k ≤ 14336) :
    Word.int16.Holds (intermediate family clip.bitDepth false taps g) := by
  have hw := weigh_first_mem ht hg
  rw [intermediate, passRounding_of_ne hF, coeffs_of_ne hF, Word.int16_holds_iff]
  exact filterRounding_mid_mem hw.1 hw.2

theorem intermediate_mid_mem_refine {frac : Nat} {taps : List Int}
    (h : select v c frac = .ok taps) (hF : v.family c.isLuma = .twoRefine) {g : Nat → Int}
    (hg : ∀ k < (refineCoeffs taps).length, 0 ≤ g k ∧ g k ≤ 1024) :
    0 ≤ intermediate .twoRefine clip.bitDepth false taps g ∧
      intermediate .twoRefine clip.bitDepth false taps g ≤ 1024 := by
  have hw := weigh_refine_mem h hF hg
  rw [intermediate_refine]
  exact refineRounding_mid_mem (by linarith [hw.1]) hw.2

theorem intermediate_first_range {frac : Nat} {taps : List Int} (h : select v c frac = .ok taps)
    {f : Nat → Int} (hf : ∀ i, 0 ≤ f i ∧ f i < (pow2 clip.bitDepth : Int)) :
    IntermediateRange (v.family c.isLuma == .twoRefine)
      (intermediate (v.family c.isLuma) clip.bitDepth true taps f) := by
  by_cases hF : v.family c.isLuma = .twoRefine
  · rw [hF]
    exact intermediate_first_mem_refine h hF hf
  · rw [intermediateRange_of_ne hF, Word.int16_holds_iff]
    have hm := intermediate_first_mem_of_ne hF (select_admissible h) fun i _ => hf i
    constructor <;> linarith [hm.1, hm.2]

theorem separableIntermediate_range {fracX fracY : Nat} {tapsX tapsY : List Int}
    (hX : select v c fracX = .ok tapsX) (hY : select v c fracY = .ok tapsY)
    {ref : Nat → Nat → Int} (hs : ∀ i k, 0 ≤ ref i k ∧ ref i k < (pow2 clip.bitDepth : Int))
    (x y : Nat) :
    IntermediateRange (v.family c.isLuma == .twoRefine)
      (separableIntermediate (v.family c.isLuma) clip.bitDepth tapsX tapsY ref x y) := by
  unfold separableIntermediate
  by_cases hF : v.family c.isLuma = .twoRefine
  · rw [hF]
    -- The rows the vertical pass weighs are first-pass intermediates of `[0, 1024]`.
    refine intermediate_mid_mem_refine hY hF fun k _ => ?_
    exact intermediate_first_mem_refine hX hF fun i => hs (x + i) (y + k)
  · rw [intermediateRange_of_ne hF]
    refine intermediate_mid_mem_of_ne hF (select_admissible hY) fun k _ => ?_
    exact intermediate_first_mem_of_ne hF (select_admissible hX) fun i _ => hs (x + i) (y + k)

theorem copyIntermediate_range (refine : Bool) {s : Int} (h0 : 0 ≤ s)
    (h1 : s < (pow2 clip.bitDepth : Int)) :
    IntermediateRange refine (copyIntermediate refine clip s) := by
  cases refine
  · have hraise : -8192 ≤ s * (pow2 clip.fracBits : Int) - internalOffset ∧
        s * (pow2 clip.fracBits : Int) - internalOffset ≤ 8191 := raise_mem clip.depth_ok h0 h1
    simp only [IntermediateRange, copyIntermediate, Bool.false_eq_true, if_false,
      Word.int16_holds_iff]
    omega
  · exact refineRaise_mem clip.depth_ok h0 h1

end Family

/-! ## The kernels store exact sums -/

section Kernels

variable {v : FilterVariant} {c : Component} {clip : ClipRange}

theorem passValue_first_exact {frac : Nat} {taps : List Int} (h : select v c frac = .ok taps)
    {f : Nat → Int} (hf : ∀ i, 0 ≤ f i ∧ f i < (pow2 clip.bitDepth : Int)) :
    passValue (v.family c.isLuma) true false clip taps f =
      intermediate (v.family c.isLuma) clip.bitDepth true taps f := by
  rw [passValue_eq_toStored]
  exact (intermediate_first_range h hf).toStored_eq

theorem filterPass_first_exact {frac : Nat} {taps : List Int} (h : select v c frac = .ok taps)
    (dir : Direction) {src : Array Int} (hsrc : ∀ s ∈ src, 0 ≤ s ∧ s < (pow2 clip.bitDepth : Int))
    (start stride : Nat) (dst : Plane) :
    filterPass (v.family c.isLuma) dir true false clip src start stride dst taps =
      dst.fill fun x y => intermediate (v.family c.isLuma) clip.bitDepth true taps fun k =>
        src.getD (start + y * stride + x + k * tapStep dir stride) 0 := by
  rw [filterPass_eq_fill]
  congr 1
  funext x y
  exact passValue_first_exact h fun k => getD_native hsrc _

theorem copyPass_first_exact (refine : Bool) {src : Array Int}
    (hsrc : ∀ s ∈ src, 0 ≤ s ∧ s < (pow2 clip.bitDepth : Int)) (start stride : Nat)
    (dst : Plane) :
    copyPass true false refine clip src start stride dst =
      dst.fill fun x y => copyIntermediate refine clip (src.getD (start + y * stride + x) 0) := by
  rw [copyPass_eq_fill]
  congr 1
  funext x y
  have hs := getD_native hsrc (start + y * stride + x)
  rw [copyValue_eq_toStored]
  exact (copyIntermediate_range refine hs.1 hs.2).toStored_eq

theorem separableValue_eq_intermediate {fracX fracY : Nat} {tapsX tapsY : List Int}
    (hX : select v c fracX = .ok tapsX) (hY : select v c fracY = .ok tapsY)
    {ref : Nat → Nat → Int} (hs : ∀ i k, 0 ≤ ref i k ∧ ref i k < (pow2 clip.bitDepth : Int))
    (x y : Nat) :
    separableValue (v.family c.isLuma) clip tapsX tapsY false ref x y =
      separableIntermediate (v.family c.isLuma) clip.bitDepth tapsX tapsY ref x y := by
  have hrows : ∀ k, passValue (v.family c.isLuma) true false clip tapsX
      (fun i => ref (x + i) (y + k)) =
        intermediate (v.family c.isLuma) clip.bitDepth true tapsX fun i => ref (x + i) (y + k) :=
    fun k => passValue_first_exact hX fun i => hs (x + i) (y + k)
  rw [separableValue, passValue_eq_toStored, funext hrows]
  exact (separableIntermediate_range hX hY hs x y).toStored_eq

theorem separable_exact {fracX fracY : Nat} {tapsX tapsY : List Int}
    (hX : select v c fracX = .ok tapsX) (hY : select v c fracY = .ok tapsY) {src : Window}
    {dst : Plane} {tmp : Array Int} {o : Outcome}
    (h : separable (v.family c.isLuma) clip src dst tapsX tapsY false tmp = .ok o)
    (hsrc : ∀ s ∈ src.data, 0 ≤ s ∧ s < (pow2 clip.bitDepth : Int)) :
    ∃ start, o.dst = dst.fill (separableIntermediate (v.family c.isLuma) clip.bitDepth tapsX
      tapsY (src.sample start)) := by
  have hlenX := (select_admissible hX).length_eq
  have hlenY := (select_admissible hY).length_eq
  obtain ⟨start, -, hdst⟩ := separable_eq_ok_fill h (by omega) (hlenY ▸ two_le_taps _)
  refine ⟨start, hdst.trans ?_⟩
  congr 1
  funext x y
  exact separableValue_eq_intermediate hX hY (fun i k => getD_native hsrc _) x y

end Kernels

/-! ## No intermediate is cut -/

/-- Every intermediate a pass computes over native samples lies in 16 bits before it is
stored, and in `[0, 1024]` on the refinement path. -/
theorem intermediates_fit_sixteen_bits :
    (∀ (v : FilterVariant) (c : Component) (frac : Nat) (taps : List Int) (clip : ClipRange),
      select v c frac = .ok taps →
      (∀ f : Nat → Int, (∀ i, 0 ≤ f i ∧ f i < (pow2 clip.bitDepth : Int)) →
        IntermediateRange (v.family c.isLuma == .twoRefine)
          (intermediate (v.family c.isLuma) clip.bitDepth true taps f)) ∧
      ∀ (dir : Direction) (src : Array Int) (start stride : Nat) (dst : Plane),
        (∀ s ∈ src, 0 ≤ s ∧ s < (pow2 clip.bitDepth : Int)) →
        filterPass (v.family c.isLuma) dir true false clip src start stride dst taps =
          dst.fill fun x y => intermediate (v.family c.isLuma) clip.bitDepth true taps fun k =>
            src.getD (start + y * stride + x + k * tapStep dir stride) 0) ∧
    (∀ (v : FilterVariant) (c : Component) (fracX fracY : Nat) (tapsX tapsY : List Int)
        (clip : ClipRange), select v c fracX = .ok tapsX → select v c fracY = .ok tapsY →
      (∀ ref : Nat → Nat → Int, (∀ i k, 0 ≤ ref i k ∧ ref i k < (pow2 clip.bitDepth : Int)) →
        ∀ x y, IntermediateRange (v.family c.isLuma == .twoRefine)
          (separableIntermediate (v.family c.isLuma) clip.bitDepth tapsX tapsY ref x y)) ∧
      ∀ (src : Window) (dst : Plane) (tmp : Array Int) (o : Outcome),
        separable (v.family c.isLuma) clip src dst tapsX tapsY false tmp = .ok o →
        (∀ s ∈ src.data, 0 ≤ s ∧ s < (pow2 clip.bitDepth : Int)) →
        ∃ start, o.dst = dst.fill (separableIntermediate (v.family c.isLuma) clip.bitDepth tapsX
          tapsY (src.sample start))) ∧
    ∀ (refine : Bool) (clip : ClipRange),
      (∀ s : Int, 0 ≤ s → s < (pow2 clip.bitDepth : Int) →
        IntermediateRange refine (copyIntermediate refine clip s)) ∧
      ∀ (src : Array Int) (start stride : Nat) (dst : Plane),
        (∀ s ∈ src, 0 ≤ s ∧ s < (pow2 clip.bitDepth : Int)) →
        copyPass true false refine clip src start stride dst =
          dst.fill fun x y => copyIntermediate refine clip (src.getD (start + y * stride + x) 0) :=
  ⟨fun _ _ _ _ _ h => ⟨fun _ hf => intermediate_first_range h hf,
      fun dir _ start stride dst hsrc => filterPass_first_exact h dir hsrc start stride dst⟩,
    fun _ _ _ _ _ _ _ hX hY => ⟨fun _ hs x y => separableIntermediate_range hX hY hs x y,
      fun _ _ _ _ h hsrc => separable_exact hX hY h hsrc⟩,
    fun refine _ => ⟨fun _ h0 h1 => copyIntermediate_range refine h0 h1,
      fun _ start stride dst hsrc => copyPass_first_exact refine hsrc start stride dst⟩⟩

theorem intermediates_fit_sixteen_bits_at_eleven_bits :
    copyIntermediate true ⟨0, 2047, 11, by decide, by decide, by decide, by decide⟩ 2047 = 1024 ∧
      IntermediateRange true
        (copyIntermediate true ⟨0, 2047, 11, by decide, by decide, by decide, by decide⟩ 2047) ∧
      IntermediateRange (FilterVariant.refine.family Component.y.isLuma == .twoRefine)
        (intermediate (FilterVariant.refine.family Component.y.isLuma) 11 true (row bilinear 8)
          fun _ => 2047) :=
  ⟨by decide,
    (intermediates_fit_sixteen_bits.2.2 true ⟨0, 2047, 11, by decide, by decide, by decide,
      by decide⟩).1 2047 (by decide) (by decide),
    (intermediates_fit_sixteen_bits.1 .refine .y 8 (row bilinear 8)
      ⟨0, 2047, 11, by decide, by decide, by decide, by decide⟩ rfl).1 (fun _ => 2047)
      fun _ => by decide⟩

end Interp

end InterPred
