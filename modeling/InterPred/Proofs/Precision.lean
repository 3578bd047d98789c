import Mathlib
import InterPred.Proofs.Shortcuts
import InterPred.Weighted
import InterPred.Geo.Blend

/-!
# Output samples are converted intermediates

The last pass rounds once where the two steps round twice; the floor divisions agree because
no intermediate is cut on the way (`finish_first_last`, `finish_mid_last`).
-/

namespace InterPred.Interp

open Taps

/-! ## One pass -/

section Family

variable {family : TapFamily} {clip : ClipRange}

theorem finish_first_last (hF : family ≠ .twoRefine) {S : Int}
    (hS : -(24 * ((pow2 clip.bitDepth : Int) - 1)) ≤ S ∧ S ≤
      88 * ((pow2 clip.bitDepth : Int) - 1)) :
    finish family true true clip S = clip.toOutput (finish family true false clip S) := by
  have hd := clip.depth_ok
  obtain ⟨h0, h1⟩ := filterRounding_first_mem hd hS.1 hS.2
  simp only [finish_of_ne hF, storeFor, if_true, Bool.false_eq_true, if_false]
  rw [toStored_of_mem (by omega) (by omega), ClipRange.toOutput, outputRound_first hd]

theorem finish_mid_last (hF : family ≠ .twoRefine) {T : Int}
    (hT : -(112 * 14336) ≤ T ∧ T ≤ 112 * 14336) :
    finish family false true clip T = clip.toOutput (finish family false false clip T) := by
  have hd := clip.depth_ok
  obtain ⟨h0, h1⟩ := filterRounding_mid_mem (d := clip.bitDepth) hT.1 hT.2
  simp only [finish_of_ne hF, storeFor, if_true, Bool.false_eq_true, if_false]
  rw [toStored_of_mem h0 h1, ClipRange.toOutput, outputRound_mid hd]

theorem passValue_first_mem (hF : family ≠ .twoRefine) {taps : List Int}
    (ht : Admissible family.taps taps) {f : Nat → Int}
    (hf : ∀ i < family.taps, 0 ≤ f i ∧ f i < (pow2 clip.bitDepth : Int)) :
    -14336 ≤ passValue family true false clip taps f ∧
      passValue family true false clip taps f ≤ 14336 := by
  have h := weigh_native_mem ht hf
  rw [passValue, coeffs_of_ne hF, finish_of_ne hF]
  simp only [storeFor, Bool.false_eq_true, if_false]
  obtain ⟨h0, h1⟩ := filterRounding_first_mem clip.depth_ok h.1 h.2
  rw [toStored_of_mem (by omega) (by omega)]
  exact ⟨h0, h1⟩

theorem passValue_first_last (hF : family ≠ .twoRefine) {taps : List Int}
    (ht : Admissible family.taps taps) {f : Nat → Int}
    (hf : ∀ i < family.taps, 0 ≤ f i ∧ f i < (pow2 clip.bitDepth : Int)) :
    passValue family true true clip taps f =
      clip.toOutput (passValue family true false clip taps f) := by
  rw [passValue, passValue, coeffs_of_ne hF]
  exact finish_first_last hF (weigh_native_mem ht hf)

theorem weigh_first_mem {n : Nat} {taps : List Int} (ht : Admissible n taps) {g : Nat → Int}
    (hg : ∀ k < taps.length, -14336 ≤ g k ∧ g k ≤ 14336) :
    -(112 * 14336) ≤ weigh g taps ∧ weigh g taps ≤ 112 * 14336 := by
  obtain ⟨lo, hi⟩ := weigh_mem taps hg
  have hgain := ht.gain_le
  have hloss := ht.loss_le
  constructor <;> linarith

theorem separableValue_last (hF : family ≠ .twoRefine) {tapsX tapsY : List Int}
    (hX : Admissible family.taps tapsX) (hY : Admissible family.taps tapsY)
    {ref : Nat → Nat → Int} {x y : Nat}
    (hs : ∀ i < family.taps, ∀ k < family.taps,
      0 ≤ ref (x + i) (y + k) ∧ ref (x + i) (y + k) < (pow2 clip.bitDepth : Int)) :
    separableValue family clip tapsX tapsY true ref x y =
      clip.toOutput (separableValue family clip tapsX tapsY false ref x y) := by
  rw [separableValue, separableValue, passValue, passValue, coeffs_of_ne hF]
  refine finish_mid_last hF (weigh_first_mem hY fun k hk => ?_)
  exact passValue_first_mem hF hX fun i hi => hs i hi k (hY.length_eq ▸ hk)

theorem copyValue_first_last {s : Int} (hs : clip.min ≤ s ∧ s ≤ clip.max) :
    copyValue true true false clip s = clip.toOutput (copyValue true false false clip s) := by
  -- Both copies are passes over the impulse of any family outside the refinement path.
  have hs' : Readable clip true s := by simpa [Readable] using hs
  have e1 : copyValue true true false clip s =
      passValue .eight true true clip (impulse TapFamily.eight.taps) fun _ => s :=
    copyValue_eq_passValue (fun h : TapFamily.eight = .twoRefine => absurd h (by decide)) hs'
  have e2 : copyValue true false false clip s =
      passValue .eight true false clip (impulse TapFamily.eight.taps) fun _ => s :=
    copyValue_eq_passValue (fun h : TapFamily.eight = .twoRefine => absurd h (by decide)) hs'
  rw [e1, e2, passValue_impulse, passValue_impulse]
  obtain ⟨h0, h1⟩ := native_of_mem hs
  exact finish_first_last (by decide) (by simp only [unitGain]; constructor <;> omega)

end Family

/-! ## Whole calls -/

section Calls

variable {clip : ClipRange} {src : Window} {dst : Plane}

theorem copy_last_eq_toOutput (hdst : dst.Valid)
    (hsrc : ∀ s ∈ src.data, clip.min ≤ s ∧ s ≤ clip.max) {r : Plane × List ReadRegion}
    (h : copy clip src dst true true false = .ok r) :
    ∃ r', copy clip src dst true false false = .ok r' ∧
      r.1 = dst.fill fun x y => clip.toOutput (r'.1.get x y) := by
  obtain ⟨start, hs, rfl⟩ := copy_eq_ok_iff.mp h
  refine ⟨_, copy_eq_ok_iff.mpr ⟨start, hs, rfl⟩, Plane.fill_congr _ fun x hx y hy => ?_⟩
  rw [Plane.get_fill_of_valid hdst _ hx hy]
  exact copyValue_first_last (hsrc _ (Window.sample_mem hs hx hy))

theorem pass_last_eq_toOutput {dir : Direction} {family : TapFamily} (hF : family ≠ .twoRefine)
    {taps : List Int} (hta : Admissible family.taps taps) (hdst : dst.Valid)
    (hsrc : ∀ s ∈ src.data, clip.min ≤ s ∧ s ≤ clip.max) {r : Plane × List ReadRegion}
    (h : pass dir family true true clip src dst taps = .ok r) :
    ∃ r', pass dir family true false clip src dst taps = .ok r' ∧
      r.1 = dst.fill fun x y => clip.toOutput (r'.1.get x y) := by
  have hlen := hta.length_eq
  cases dir
  · obtain ⟨hw, start, hs, rfl⟩ := pass_horizontal_eq_ok_iff.mp h
    refine ⟨_, pass_horizontal_eq_ok_iff.mpr ⟨hw, start, hs, rfl⟩,
      Plane.fill_congr _ fun x hx y hy => ?_⟩
    rw [Plane.get_fill_of_valid hdst _ hx hy]
    exact passValue_first_last hF hta fun i hi =>
      native_of_mem (hsrc _ (Window.sample_mem hs (by omega) hy))
  · obtain ⟨hh, start, hs, rfl⟩ := pass_vertical_eq_ok_iff.mp h
    refine ⟨_, pass_vertical_eq_ok_iff.mpr ⟨hh, start, hs, rfl⟩,
      Plane.fill_congr _ fun x hx y hy => ?_⟩
    rw [Plane.get_fill_of_valid hdst _ hx hy]
    exact passValue_first_last hF hta fun k hk =>
      native_of_mem (hsrc _ (Window.sample_mem hs hx (by omega)))

theorem separable_last_eq_toOutput {family : TapFamily} (hF : family ≠ .twoRefine)
    {tapsX tapsY : List Int} (hX : Admissible family.taps tapsX)
    (hY : Admissible family.taps tapsY) (hdst : dst.Valid)
    (hsrc : ∀ s ∈ src.data, clip.min ≤ s ∧ s ≤ clip.max) {tmp : Array Int} {o : Outcome}
    (h : separable family clip src dst tapsX tapsY true tmp = .ok o) :
    ∃ o', separable family clip src dst tapsX tapsY false tmp = .ok o' ∧
      o.dst = dst.fill fun x y => clip.toOutput (o'.dst.get x y) := by
  obtain ⟨o', h', hreads⟩ := separable_ok_of_ok_last h false
  have hlen : tapsX.length = tapsY.length := hX.length_eq.trans hY.length_eq.symm
  have hN : 2 ≤ tapsY.length := hY.length_eq ▸ two_le_taps family
  obtain ⟨start, hr, hd⟩ := separable_eq_ok_fill h hlen hN
  obtain ⟨start', hr', hd'⟩ := separable_eq_ok_fill h' hlen hN
  -- Both calls report the one support they read, so they read it from the same sample.
  obtain rfl : start' = start := by
    rw [hreads, hr] at hr'
    simpa using hr'.symm
  refine ⟨o', h', ?_⟩
  rw [hd, hd']
  refine Plane.fill_congr _ fun x hx y hy => ?_
  rw [Plane.get_fill_of_valid hdst _ hx hy]
  exact separableValue_last hF hX hY fun _ _ _ _ =>
    getD_native (fun s hs => native_of_mem (hsrc s hs)) _

/-- A path of `filter2d` that runs one pass or copy keeps the scratch buffer, so the conversion
its pass writes carries over to the call. -/
theorem onePass_last_eq_toOutput {run run' : Except Fault (Plane × List ReadRegion)}
    {k : Plane × List ReadRegion → Except Fault Outcome} {tmp : Array Int} {o : Outcome}
    (hk : ∀ d reads, k (d, reads) = pure ⟨d, tmp, reads⟩)
    (hrun : ∀ r, run = .ok r →
      ∃ r', run' = .ok r' ∧ r.1 = dst.fill fun x y => clip.toOutput (r'.1.get x y))
    (h : run >>= k = .ok o) :
    ∃ o', run' >>= k = .ok o' ∧ o.dst = dst.fill fun x y => clip.toOutput (o'.dst.get x y) := by
  obtain ⟨⟨d, reads⟩, hr, h⟩ := bind_eq_ok.mp h
  rw [hk] at h
  cases h
  obtain ⟨⟨d', reads'⟩, hr', hd⟩ := hrun _ hr
  exact ⟨⟨d', tmp, reads'⟩, by rw [hr', ok_bind, hk]; rfl, hd⟩

theorem filter2d_last_eq_toOutput {c : Component} {v : FilterVariant} {fracX fracY : Nat}
    {tmp : Array Int} {o : Outcome} (hv : v ≠ .refine) (hdst : dst.Valid)
    (hsrc : ∀ s ∈ src.data, clip.min ≤ s ∧ s ≤ clip.max)
    (h : filter2d c v clip src dst fracX fracY true tmp = .ok o) :
    ∃ o', filter2d c v clip src dst fracX fracY false tmp = .ok o' ∧
      o.dst = dst.fill fun x y => clip.toOutput (o'.dst.get x y) := by
  have hF := family_ne_twoRefine hv c.isLuma
  unfold filter2d at h ⊢
  rw [checkLast_ok fun h => absurd h hF, ok_bind] at h
  rw [checkLast_ok fun _ => rfl, ok_bind]
  obtain ⟨tapsX, hX, h⟩ := bind_eq_ok.mp h
  obtain ⟨tapsY, hY, h⟩ := bind_eq_ok.mp h
  rw [liftM_reject_eq_ok] at hX hY
  rw [hX, liftM_ok, ok_bind, hY, liftM_ok, ok_bind]
  have hb : (v.family c.isLuma == .twoRefine) = false := by simp [hF]
  cases hidX : isIdentity tapsX <;> cases hidY : isIdentity tapsY <;>
    simp only [hidX, hidY, hb] at h ⊢
  case false.false =>
    exact separable_last_eq_toOutput hF (select_admissible hX) (select_admissible hY) hdst hsrc h
  case false.true =>
    exact onePass_last_eq_toOutput (fun _ _ => rfl)
      (fun _ => pass_last_eq_toOutput hF (select_admissible hX) hdst hsrc) h
  case true.false =>
    exact onePass_last_eq_toOutput (fun _ _ => rfl)
      (fun _ => pass_last_eq_toOutput hF (select_admissible hY) hdst hsrc) h
  case true.true =>
    exact onePass_last_eq_toOutput (fun _ _ => rfl) (fun _ => copy_last_eq_toOutput hdst hsrc) h

theorem filterAxis_last_eq_toOutput {dir : Direction} {c : Component} {v : FilterVariant}
    {frac : Nat} {p : Plane × List ReadRegion} (hv : v ≠ .refine) (hdst : dst.Valid)
    (hsrc : ∀ s ∈ src.data, clip.min ≤ s ∧ s ≤ clip.max)
    (h : filterAxis dir c v clip src dst frac true true = .ok p) :
    ∃ p', filterAxis dir c v clip src dst frac true false = .ok p' ∧
      p.1 = dst.fill fun x y => clip.toOutput (p'.1.get x y) := by
  have hF := family_ne_twoRefine hv c.isLuma
  unfold filterAxis at h ⊢
  rw [checkLast_ok fun h => absurd h hF, ok_bind] at h
  rw [checkLast_ok fun _ => rfl, ok_bind]
  obtain ⟨taps, hsel, h⟩ := bind_eq_ok.mp h
  rw [liftM_reject_eq_ok] at hsel
  rw [hsel, liftM_ok, ok_bind]
  have hb : (v.family c.isLuma == .twoRefine) = false := by simp [hF]
  by_cases hid : isIdentity taps = true
  · simp only [hid, if_true, hb] at h ⊢
    exact copy_last_eq_toOutput hdst hsrc h
  · simp only [hid, if_false, Bool.false_eq_true] at h ⊢
    exact pass_last_eq_toOutput hF (select_admissible hsel) hdst hsrc h

end Calls

/-! ## The conversion elsewhere -/

theorem copySample_eq_toOutput (clip : ClipRange) (s : Int) :
    copySample clip false true s = clip.toOutput s := rfl

theorem pow2_div_two {n : Nat} (h : 1 ≤ n) : (pow2 n : Int) / 2 = pow2 (n - 1) := by
  obtain ⟨m, rfl⟩ : ∃ m, n = m + 1 := ⟨n - 1, by omega⟩
  simp [pow2, pow_succ]

theorem weightUni_unit {clip : ClipRange} {src dst : Plane} {wp : Weighted.Weighting}
    (hunit : Word.int32.shl 1 wp.shift = .ok wp.weight) (hoff : wp.offset = 0) :
    Weighted.weightUni clip src dst wp = .ok (dst.fill fun x y => clip.toOutput (src.get x y)) := by
  have hfb : 1 ≤ clip.fracBits := by
    rw [ClipRange.fracBits, internalFracBits]
    omega
  unfold Weighted.weightUni Weighted.unitUni
  rw [hunit, ok_bind]
  simp only [ne_eq, not_true_eq_false, if_false, hoff, pow2_div_two hfb]
  exact Plane.fillM_pure _ _

theorem blendSample_eight (clip : ClipRange) (a b : Int) :
    Geo.blendSample clip 8 a b = clip.toOutput a := by
  have hd := clip.depth_ok
  unfold Geo.blendSample ClipRange.toOutput outputRound
  dsimp only
  congr 1
  rcases hd.cases with h | h | h | h | h <;>
    simp [h, ClipRange.fracBits, internalFracBits, internalPrecision, internalOffset,
      pow2] <;> omega

/-! ## Direct and intermediate prediction agree -/

/-- Over native samples of the range, an interpolation to output samples writes the conversion
of what the same call writes as intermediates. -/
theorem output_is_converted_intermediate :
    (∀ (c : Component) (v : FilterVariant) (clip : ClipRange) (src : Window) (dst : Plane)
        (fracX fracY : Nat) (tmp : Array Int) (o : Outcome),
        v ≠ .refine → dst.Valid → (∀ s ∈ src.data, clip.min ≤ s ∧ s ≤ clip.max) →
        filter2d c v clip src dst fracX fracY true tmp = .ok o →
        ∃ o', filter2d c v clip src dst fracX fracY false tmp = .ok o' ∧
          o.dst = dst.fill fun x y => clip.toOutput (o'.dst.get x y)) ∧
    (∀ (c : Component) (v : FilterVariant) (clip : ClipRange) (src : Window) (dst : Plane)
        (frac : Nat) (p : Plane × List ReadRegion),
        v ≠ .refine → dst.Valid → (∀ s ∈ src.data, clip.min ≤ s ∧ s ≤ clip.max) →
        filterHor c v clip src dst frac true = .ok p →
        ∃ p', filterHor c v clip src dst frac false = .ok p' ∧
          p.1 = dst.fill fun x y => clip.toOutput (p'.1.get x y)) ∧
    (∀ (c : Component) (v : FilterVariant) (clip : ClipRange) (src : Window) (dst : Plane)
        (frac : Nat) (p : Plane × List ReadRegion),
        v ≠ .refine → dst.Valid → (∀ s ∈ src.data, clip.min ≤ s ∧ s ≤ clip.max) →
        filterVer c v clip src dst frac true true = .ok p →
        ∃ p', filterVer c v clip src dst frac true false = .ok p' ∧
          p.1 = dst.fill fun x y => clip.toOutput (p'.1.get x y)) ∧
    (∀ (clip : ClipRange) (s : Int), copySample clip false true s = clip.toOutput s) ∧
    (∀ (clip : ClipRange) (src dst : Plane) (wp : Weighted.Weighting),
        Word.int32.shl 1 wp.shift = .ok wp.weight → wp.offset = 0 →
        Weighted.weightUni clip src dst wp =
          .ok (dst.fill fun x y => clip.toOutput (src.get x y))) ∧
    (∀ (clip : ClipRange) (a b : Int), Geo.blendSample clip 8 a b = clip.toOutput a) := by
  refine ⟨fun _ _ _ _ _ _ _ _ _ hv hdst hsrc h => filter2d_last_eq_toOutput hv hdst hsrc h,
    fun _ _ _ _ _ _ _ hv hdst hsrc h => filterAxis_last_eq_toOutput hv hdst hsrc h,
    fun _ _ _ _ _ _ _ hv hdst hsrc h => filterAxis_last_eq_toOutput hv hdst hsrc h,
    copySample_eq_toOutput, fun _ _ _ _ hunit hoff => weightUni_unit hunit hoff,
    blendSample_eight⟩

theorem output_is_converted_intermediate_on_flat :
    (∃ o, filter2d .cb .standard ClipRange.eightBit ⟨Array.replicate 16 0, 4, 5⟩
        ⟨#[0], 1, 1, 1⟩ 0 0 true (Array.replicate 4 0) = .ok o ∧
      ∃ o', filter2d .cb .standard ClipRange.eightBit ⟨Array.replicate 16 0, 4, 5⟩
          ⟨#[0], 1, 1, 1⟩ 0 0 false (Array.replicate 4 0) = .ok o' ∧
        o.dst = (⟨#[0], 1, 1, 1⟩ : Plane).fill fun x y =>
          ClipRange.eightBit.toOutput (o'.dst.get x y)) ∧
    (∃ p, filterHor .cb .standard ClipRange.eightBit ⟨Array.replicate 16 0, 4, 5⟩ ⟨#[0], 1, 1, 1⟩
        0 true = .ok p ∧
      ∃ p', filterHor .cb .standard ClipRange.eightBit ⟨Array.replicate 16 0, 4, 5⟩
          ⟨#[0], 1, 1, 1⟩ 0 false = .ok p' ∧
        p.1 = (⟨#[0], 1, 1, 1⟩ : Plane).fill fun x y =>
          ClipRange.eightBit.toOutput (p'.1.get x y)) ∧
    (∃ p, filterVer .cb .standard ClipRange.eightBit ⟨Array.replicate 16 0, 4, 5⟩ ⟨#[0], 1, 1, 1⟩
        0 true true = .ok p ∧
      ∃ p', filterVer .cb .standard ClipRange.eightBit ⟨Array.replicate 16 0, 4, 5⟩
          ⟨#[0], 1, 1, 1⟩ 0 true false = .ok p' ∧
        p.1 = (⟨#[0], 1, 1, 1⟩ : Plane).fill fun x y =>
          ClipRange.eightBit.toOutput (p'.1.get x y)) ∧
    Weighted.weightUni ClipRange.eightBit ⟨#[0], 1, 1, 1⟩ ⟨#[0], 1, 1, 1⟩ ⟨64, 0, 0, 6, 32⟩ =
      .ok ((⟨#[0], 1, 1, 1⟩ : Plane).fill fun x y =>
        ClipRange.eightBit.toOutput ((⟨#[0], 1, 1, 1⟩ : Plane).get x y)) := by
  have hvalid : (⟨#[0], 1, 1, 1⟩ : Plane).Valid := ⟨le_rfl, Nat.one_pos, le_rfl⟩
  have hsrc : ∀ s ∈ Array.replicate 16 (0 : Int),
      ClipRange.eightBit.min ≤ s ∧ s ≤ ClipRange.eightBit.max := by
    simp [ClipRange.eightBit]
  refine ⟨⟨_, rfl, output_is_converted_intermediate.1 .cb .standard ClipRange.eightBit _ _ 0 0 _ _
      (by decide) hvalid hsrc rfl⟩,
    ⟨_, rfl, output_is_converted_intermediate.2.1 .cb .standard ClipRange.eightBit _ _ 0 _
      (by decide) hvalid hsrc rfl⟩,
    ⟨_, rfl, output_is_converted_intermediate.2.2.1 .cb .standard ClipRange.eightBit _ _ 0 _
      (by decide) hvalid hsrc rfl⟩,
    output_is_converted_intermediate.2.2.2.2.1 ClipRange.eightBit _ _ _ rfl rfl⟩

end InterPred.Interp
