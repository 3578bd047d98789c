import Mathlib
import InterPred.Proofs.Impulse

/-!
# The identity shortcuts are exact
-/

namespace InterPred

def ClipRange.eightBit : ClipRange := ⟨0, 255, 8, by decide, le_rfl, by decide, by decide⟩

namespace Interp

open Taps

theorem last_eq_false_of_checkLast {v : FilterVariant} {c : Component} {last : Bool}
    (h : checkLast v c last = .ok ()) (hF : v.family c.isLuma = .twoRefine) : last = false := by
  unfold checkLast at h
  rw [hF] at h
  cases last <;> simp_all [TapFamily.supportsLast, reject]

theorem family_eq_twoRefine {v : FilterVariant} {luma : Bool} :
    v.family luma = .twoRefine ↔ luma = true ∧ v = .refine := by
  cases luma <;> cases v <;> simp [FilterVariant.family]

theorem family_ne_twoRefine {v : FilterVariant} (hv : v ≠ .refine) (luma : Bool) :
    v.family luma ≠ .twoRefine := fun h => hv (family_eq_twoRefine.mp h).2

theorem checkLast_ok {v : FilterVariant} {c : Component} {last : Bool}
    (h : v.family c.isLuma = .twoRefine → last = false) : checkLast v c last = .ok () := by
  unfold checkLast
  cases hF : v.family c.isLuma <;> cases last <;> simp_all [TapFamily.supportsLast] <;> rfl

theorem select_ok {v : FilterVariant} {c : Component} {frac : Nat} (hf : frac < c.fracPositions)
    (hv : v = .refine → c.isLuma = true) : ∃ taps, select v c frac = .ok taps := by
  unfold select
  simp only [Nat.not_le.mpr hf, if_false]
  cases c <;> cases v <;> simp_all [Component.isLuma]

theorem two_le_taps (family : TapFamily) : 2 ≤ family.taps := by
  cases family <;> decide

theorem eq_impulse_of_isIdentity {n : Nat} {taps : List Int} (ht : Admissible n taps)
    (hid : isIdentity taps = true) : taps = impulse n := by
  rw [isIdentity_iff.mp hid, ht.length_eq]

/-! ## Two dimensions -/

/-- On every branch `filter2d` succeeds and writes what the general path writes, when the
support lies in the plane. -/
theorem filter2d_ok_of_support {c : Component} {v : FilterVariant} {clip : ClipRange}
    {src : Window} {dst : Plane} {fracX fracY : Nat} {last : Bool} {tmp : Array Int}
    {tapsX tapsY : List Int} {start : Nat}
    (hlast : checkLast v c last = .ok ()) (hX : select v c fracX = .ok tapsX)
    (hY : select v c fracY = .ok tapsY) (h10 : v.family c.isLuma = .twoRefine → clip.bitDepth ≤ 10)
    (hw : 0 < dst.width) (hh : 0 < dst.height)
    (htmp : dst.width * (dst.height + (v.family c.isLuma).taps - 1) ≤ tmp.size)
    (hs : src.support ((v.family c.isLuma).taps / 2 - 1) ((v.family c.isLuma).taps / 2 - 1)
      (dst.width + (v.family c.isLuma).taps - 1) (dst.height + (v.family c.isLuma).taps - 1) =
        .ok start)
    (hsrc : ∀ s ∈ src.data, clip.min ≤ s ∧ s ≤ clip.max) :
    ∃ o, filter2d c v clip src dst fracX fracY last tmp = .ok o ∧
      o.dst = dst.fill
        (separableValue (v.family c.isLuma) clip tapsX tapsY last (src.sample start)) := by
  have hlastF := last_eq_false_of_checkLast hlast
  have hXa := select_admissible hX
  have hYa := select_admissible hY
  unfold filter2d
  simp only [hlast, hX, hY, liftM_ok, ok_bind]
  generalize v.family c.isLuma = family at *
  have hN := two_le_taps family
  have hlenX := hXa.length_eq
  have hlenY := hYa.length_eq
  obtain ⟨-, -, hfit, -⟩ := Window.support_eq_ok_iff.mp hs
  obtain ⟨hsum, -⟩ := Window.Fits.add_lt hfit (by omega) (by omega)
  -- Every sample of the support is a native sample of the range.
  have hmem : ∀ X < dst.width + family.taps - 1, ∀ Y < dst.height + family.taps - 1,
      clip.min ≤ src.sample start X Y ∧ src.sample start X Y ≤ clip.max :=
    fun X hX Y hY => hsrc _ (Window.sample_mem hs hX hY)
  have hnat := fun X hX Y hY => native_of_mem (hmem X hX Y hY)
  cases hidX : isIdentity tapsX <;> cases hidY : isIdentity tapsY <;> dsimp only
  · -- Neither tap set is the impulse: the general path itself.
    rw [← hlenY] at htmp hs hN
    exact separable_ok_of_support (hlenX.trans hlenY.symm) hN hw hh htmp hs
  · -- Vertical impulse: the horizontal pass alone, on the rows the general path keeps.
    have hp : pass .horizontal family true last clip src dst tapsX = .ok _ :=
      pass_horizontal_eq_ok_iff.mpr ⟨by omega, _, by
        rw [hlenX]
        exact Window.support_inner hs le_rfl (Nat.zero_le _) (by omega) (by omega) hh, rfl⟩
    rw [hp, ok_bind]
    refine ⟨_, rfl, Plane.fill_congr _ fun x hx y hy => ?_⟩
    rw [eq_impulse_of_isIdentity hYa hidY,
      separableValue_impulse_right hlastF hXa fun i hi => hnat _ (by omega) _ (by omega)]
    refine passValue_congr (length_coeffs _ _) fun i _ => ?_
    rw [Window.sample_shift]
    simp
  · -- Horizontal impulse: the vertical pass alone, on the columns the general path keeps.
    have hp : pass .vertical family true last clip src dst tapsY = .ok _ :=
      pass_vertical_eq_ok_iff.mpr ⟨by omega, _, by
        rw [hlenY]
        exact Window.support_inner hs (Nat.zero_le _) le_rfl (by omega) (by omega) (by omega), rfl⟩
    rw [hp, ok_bind]
    refine ⟨_, rfl, Plane.fill_congr _ fun x hx y hy => ?_⟩
    rw [eq_impulse_of_isIdentity hXa hidX,
      separableValue_impulse_left h10 hYa fun k hk => hnat _ (by omega) _ (by omega)]
    refine passValue_congr (length_coeffs _ _) fun k _ => ?_
    rw [Window.sample_shift]
    simp
  · -- Both impulses: the copy of the sample under the centre taps.
    have hp : copy clip src dst true last (family == .twoRefine) = .ok _ := copy_eq_ok_iff.mpr
      ⟨_, Window.support_inner hs (Nat.zero_le _) (Nat.zero_le _) (by omega) (by omega) hh, rfl⟩
    rw [hp, ok_bind]
    refine ⟨_, rfl, Plane.fill_congr _ fun x hx y hy => ?_⟩
    rw [eq_impulse_of_isIdentity hXa hidX, eq_impulse_of_isIdentity hYa hidY,
      separableValue_impulse_impulse hlastF (hmem _ (by omega) _ (by omega)), Window.sample_shift]
    simp

/-! ## One dimension -/

theorem filterAxis_eq_pass {dir : Direction} {c : Component} {v : FilterVariant}
    {clip : ClipRange} {src : Window} {dst : Plane} {frac : Nat} {first last : Bool}
    {taps : List Int} {p : Plane × List ReadRegion}
    (hlast : v.family c.isLuma = .twoRefine → last = false) (hsel : select v c frac = .ok taps)
    (hid : isIdentity taps = true) (hh : 0 < dst.height)
    (hsrc : ∀ s ∈ src.data, Readable clip first s)
    (hp : pass dir (v.family c.isLuma) first last clip src dst taps = .ok p) :
    ∃ q, filterAxis dir c v clip src dst frac first last = .ok q ∧ q.1 = p.1 := by
  have hta := select_admissible hsel
  unfold filterAxis
  simp only [checkLast_ok hlast, hsel, liftM_ok, ok_bind, hid, if_true]
  generalize v.family c.isLuma = family at *
  have hN := two_le_taps family
  have hlen := hta.length_eq
  cases dir
  · -- The copy reads the block under the centre tap of the horizontal support.
    obtain ⟨-, start, hs, rfl⟩ := pass_horizontal_eq_ok_iff.mp hp
    have hcs : src.support 0 0 dst.width dst.height = .ok _ :=
      Window.support_inner hs (Nat.zero_le _) le_rfl (by omega) (by omega) hh
    have hc : copy clip src dst first last (family == .twoRefine) = .ok _ :=
      copy_eq_ok_iff.mpr ⟨_, hcs, rfl⟩
    refine ⟨_, hc, Plane.fill_congr _ fun x hx y hy => ?_⟩
    rw [copyValue_eq_passValue hlast (hsrc _ (Window.sample_mem hcs hx hy)),
      eq_impulse_of_isIdentity hta hid, passValue_impulse, passValue_impulse, Window.sample_shift]
    simp [length_impulse]
  · -- The copy reads the block under the centre tap of the vertical support.
    obtain ⟨-, start, hs, rfl⟩ := pass_vertical_eq_ok_iff.mp hp
    have hcs : src.support 0 0 dst.width dst.height = .ok _ :=
      Window.support_inner hs le_rfl (Nat.zero_le _) (by omega) (by omega) hh
    have hc : copy clip src dst first last (family == .twoRefine) = .ok _ :=
      copy_eq_ok_iff.mpr ⟨_, hcs, rfl⟩
    refine ⟨_, hc, Plane.fill_congr _ fun x hx y hy => ?_⟩
    rw [copyValue_eq_passValue hlast (hsrc _ (Window.sample_mem hcs hx hy)),
      eq_impulse_of_isIdentity hta hid, passValue_impulse, passValue_impulse, Window.sample_shift]
    simp [length_impulse]

/-! ## The shortcuts and the general path agree -/

/-- `filter2d` writes what the general path writes, on every branch. -/
theorem filter2d_shortcuts_agree :
    (∀ (c : Component) (v : FilterVariant) (clip : ClipRange) (src : Window) (dst : Plane)
        (fracX fracY : Nat) (last : Bool) (tmp : Array Int) (start : Nat),
        (v = .refine → c = .y ∧ last = false ∧ clip.bitDepth ≤ 10) →
        fracX < c.fracPositions → fracY < c.fracPositions → 0 < dst.width → 0 < dst.height →
        dst.width * (dst.height + (v.family c.isLuma).taps - 1) ≤ tmp.size →
        src.support ((v.family c.isLuma).taps / 2 - 1) ((v.family c.isLuma).taps / 2 - 1)
          (dst.width + (v.family c.isLuma).taps - 1) (dst.height + (v.family c.isLuma).taps - 1) =
            .ok start →
        (∀ s ∈ src.data, clip.min ≤ s ∧ s ≤ clip.max) →
        ∃ tapsX tapsY o o', select v c fracX = .ok tapsX ∧ select v c fracY = .ok tapsY ∧
          filter2d c v clip src dst fracX fracY last tmp = .ok o ∧
          separable (v.family c.isLuma) clip src dst tapsX tapsY last tmp = .ok o' ∧
          o.dst = o'.dst) ∧
    (∀ (dir : Direction) (c : Component) (v : FilterVariant) (clip : ClipRange) (src : Window)
        (dst : Plane) (frac : Nat) (first last : Bool) (taps : List Int)
        (p : Plane × List ReadRegion),
        (v.family c.isLuma = .twoRefine → last = false) → select v c frac = .ok taps →
        isIdentity taps = true → 0 < dst.height → (∀ s ∈ src.data, Readable clip first s) →
        pass dir (v.family c.isLuma) first last clip src dst taps = .ok p →
        ∃ q, filterAxis dir c v clip src dst frac first last = .ok q ∧ q.1 = p.1) := by
  refine ⟨fun c v clip src dst fracX fracY last tmp start hv hfx hfy hw hh htmp hs hsrc => ?_,
    fun _ _ _ _ _ _ _ _ _ _ _ hlast hsel hid hh hsrc hp =>
      filterAxis_eq_pass hlast hsel hid hh hsrc hp⟩
  -- Only the refinement variant on luma filters with the refinement family.
  have hF : v.family c.isLuma = .twoRefine → v = .refine := fun h => (family_eq_twoRefine.mp h).2
  have hluma : v = .refine → c.isLuma = true := fun h => by rw [(hv h).1]; rfl
  obtain ⟨tapsX, hX⟩ := select_ok hfx hluma
  obtain ⟨tapsY, hY⟩ := select_ok hfy hluma
  obtain ⟨o, ho, hod⟩ := filter2d_ok_of_support (checkLast_ok fun h => (hv (hF h)).2.1) hX hY
    (fun h => (hv (hF h)).2.2) hw hh htmp hs hsrc
  have hlenX := (select_admissible hX).length_eq
  have hlenY := (select_admissible hY).length_eq
  rw [← hlenY] at htmp hs
  obtain ⟨o', ho', hod'⟩ := separable_ok_of_support (hlenX.trans hlenY.symm)
    (hlenY ▸ two_le_taps _) hw hh htmp hs
  exact ⟨tapsX, tapsY, o, o', hX, hY, ho, ho', hod.trans hod'.symm⟩

theorem filter2d_shortcuts_agree_on_flat :
    (∃ tapsX tapsY o o', select .standard .cb 0 = .ok tapsX ∧ select .standard .cb 0 = .ok tapsY ∧
      filter2d .cb .standard ClipRange.eightBit ⟨Array.replicate 16 0, 4, 5⟩ ⟨#[0], 1, 1, 1⟩
        0 0 true (Array.replicate 4 0) = .ok o ∧
      separable .four ClipRange.eightBit ⟨Array.replicate 16 0, 4, 5⟩ ⟨#[0], 1, 1, 1⟩
        tapsX tapsY true (Array.replicate 4 0) = .ok o' ∧ o.dst = o'.dst) ∧
    (∃ p, pass .horizontal .four true true ClipRange.eightBit ⟨Array.replicate 16 0, 4, 5⟩
        ⟨#[0], 1, 1, 1⟩ (Taps.row chroma 0) = .ok p ∧
      ∃ q, filterAxis .horizontal .cb .standard ClipRange.eightBit ⟨Array.replicate 16 0, 4, 5⟩
        ⟨#[0], 1, 1, 1⟩ 0 true true = .ok q ∧ q.1 = p.1) := by
  refine ⟨filter2d_shortcuts_agree.1 .cb .standard ClipRange.eightBit _ _ 0 0 true _ 0
      (fun h => nomatch h) (by decide) (by decide) (by decide) (by decide) (by decide) rfl
      (by simp [ClipRange.eightBit]), ?_⟩
  refine ⟨_, rfl, filter2d_shortcuts_agree.2 .horizontal .cb .standard ClipRange.eightBit _
    ⟨#[0], 1, 1, 1⟩ 0 true true _ _ (fun h => nomatch h) rfl rfl (by decide)
    (by simp [Readable, ClipRange.eightBit]) rfl⟩

end Interp

end InterPred
