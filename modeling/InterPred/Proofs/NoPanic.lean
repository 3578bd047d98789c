import Mathlib
import InterPred.Proofs.Shortcuts
import InterPred.Geo.Blend

/-!
# Calls that never overflow

`NoPanic` passes through `bind`, so a call is shown free of overflows one checked step at a
time.
-/

namespace InterPred

/-- The computation succeeds or refuses; it never stops on an overflow. -/
def NoPanic {α : Type} (x : Except Fault α) : Prop := ∀ o, x ≠ .error (.overflow o)

section Steps

variable {α β : Type}

theorem noPanic_ok (a : α) : NoPanic (.ok a : Except Fault α) := by
  intro o h
  cases h

theorem noPanic_reject (e : PredError) : NoPanic (reject e : Except Fault α) := by
  intro o h
  cases h

theorem noPanic_of_eq_ok {x : Except Fault α} {a : α} (h : x = .ok a) : NoPanic x := by
  rw [h]
  exact noPanic_ok a

theorem NoPanic.bind {x : Except Fault α} {f : α → Except Fault β} (hx : NoPanic x)
    (hf : ∀ a, x = .ok a → NoPanic (f a)) : NoPanic (x >>= f) := by
  cases x with
  | error e =>
    intro o h
    injection h with h
    exact hx o (by rw [h])
  | ok a => exact hf a rfl

theorem noPanic_ite_reject {c : Prop} [Decidable c] {e : PredError} {y : Except Fault α}
    (hy : NoPanic y) : NoPanic (if c then reject e else y) := by
  split
  · exact noPanic_reject e
  · exact hy

theorem noPanic_liftM_reject (x : Except PredError α) : NoPanic (liftM x : Except Fault α) := by
  cases x with
  | error e => exact noPanic_reject e
  | ok a => exact noPanic_ok a

theorem liftM_overflow_ok (a : α) :
    (liftM (Except.ok a : Except Overflow α) : Except Fault α) = .ok a := rfl

end Steps

/-! ## Layouts -/

theorem support_noPanic {w : Window} {left above W H : Nat} (hH : 0 < H)
    (h : w.origin + ((H - 1) * w.stride + W) < Size.bound) :
    NoPanic (w.support left above W H) := by
  have hcol : w.col ≤ w.origin := Nat.mod_le _ _
  have horigin := Window.origin_eq w
  have hstart : (w.row - above) * w.stride + w.col - left ≤ w.origin := by
    have := Nat.mul_le_mul_right w.stride (Nat.sub_le w.row above)
    omega
  have hright : Size.add (w.col - left) W = .ok (w.col - left + W) :=
    Size.add_ok_iff.mpr ⟨by omega, rfl⟩
  have hext : planeExtent w.stride W H = .ok ((H - 1) * w.stride + W) :=
    planeExtent_eq_ok.mpr ⟨hH, by omega, rfl⟩
  have hlast : Size.add ((w.row - above) * w.stride + w.col - left) ((H - 1) * w.stride + W) =
      .ok _ := Size.add_ok_iff.mpr ⟨by omega, rfl⟩
  unfold Window.support
  simp only [hright, hext, hlast, liftM_overflow_ok, ok_bind, reject_bind]
  exact noPanic_ite_reject (noPanic_ite_reject (noPanic_ite_reject (noPanic_ok _)))

theorem shiftedUp_noPanic {w : Window} {rows : Nat} (h : rows * w.stride < Size.bound) :
    NoPanic (w.shiftedUp rows) := by
  have hback : Size.mul rows w.stride = .ok _ := Size.mul_ok_iff.mpr ⟨h, rfl⟩
  unfold Window.shiftedUp
  simp only [hback, liftM_overflow_ok, ok_bind, reject_bind]
  exact noPanic_ite_reject (noPanic_ok _)

theorem Plane.new?_noPanic {data : Array Int} {stride width height : Nat} (hH : 0 < height)
    (h : (height - 1) * stride + width < Size.bound) :
    NoPanic (Plane.new? data stride width height) := by
  have hext : planeExtent stride width height = .ok _ := planeExtent_eq_ok.mpr ⟨hH, h, rfl⟩
  unfold Plane.new?
  simp only [hext, liftM_overflow_ok, ok_bind, reject_bind]
  exact noPanic_ite_reject (noPanic_ite_reject (noPanic_ok _))

theorem Window.new?_noPanic (data : Array Int) (stride origin : Nat) :
    NoPanic (Window.new? data stride origin) := by
  unfold Window.new?
  exact noPanic_ite_reject (noPanic_ite_reject (noPanic_ok _))

/-! ## Interpolation -/

namespace Interp

/-- The last sample of the whole support, from the window's origin, and the scratch block of
an `n`-tap call stay below `2 ^ 64`. -/
structure SizesFit (src : Window) (dst : Plane) (n : Nat) : Prop where
  support : src.origin + ((dst.height + n - 2) * src.stride + (dst.width + n - 1)) < Size.bound
  scratch : dst.width * (dst.height + n - 1) < Size.bound

namespace SizesFit

variable {src : Window} {dst : Plane} {n : Nat} (hh : 0 < dst.height) (hN : 2 ≤ n)
include hh hN

theorem add_lt (hS : 0 < src.stride) (hw : 0 < dst.width) (h : SizesFit src dst n) :
    dst.width + n < Size.bound ∧ dst.height + n < Size.bound := by
  have e : dst.height + n - 2 ≤ (dst.height + n - 2) * src.stride := Nat.le_mul_of_pos_right _ hS
  have := h.support
  omega

theorem rects_lt (h : SizesFit src dst n) :
    src.origin + ((dst.height - 1) * src.stride + dst.width) < Size.bound ∧
      src.origin + ((dst.height - 1) * src.stride + (dst.width + n - 1)) < Size.bound ∧
      src.origin + ((dst.height + n - 2) * src.stride + dst.width) < Size.bound := by
  have e : (dst.height - 1) * src.stride ≤ (dst.height + n - 2) * src.stride :=
    Nat.mul_le_mul_right _ (by omega)
  have := h.support
  omega

end SizesFit

variable {family : TapFamily} {first last : Bool} {clip : ClipRange} {src : Window} {dst : Plane}
  {taps : List Int}

theorem pass_horizontal_noPanic (hH : 0 < dst.height) (hadd : dst.width + taps.length < Size.bound)
    (hsupp : src.origin + ((dst.height - 1) * src.stride + (dst.width + taps.length - 1)) <
      Size.bound) :
    NoPanic (pass .horizontal family first last clip src dst taps) := by
  have hw : Size.add dst.width taps.length = .ok _ := Size.add_ok_iff.mpr ⟨hadd, rfl⟩
  unfold pass
  simp only [hw, liftM_overflow_ok, ok_bind, pure_bind]
  exact NoPanic.bind (support_noPanic hH hsupp) fun _ _ => noPanic_ok _

theorem pass_vertical_noPanic (hadd : dst.height + taps.length < Size.bound)
    (hN : 2 ≤ taps.length)
    (hsupp : src.origin + ((dst.height + taps.length - 2) * src.stride + dst.width) < Size.bound) :
    NoPanic (pass .vertical family first last clip src dst taps) := by
  have hh : Size.add dst.height taps.length = .ok _ := Size.add_ok_iff.mpr ⟨hadd, rfl⟩
  unfold pass
  simp only [hh, liftM_overflow_ok, ok_bind, pure_bind]
  exact NoPanic.bind (support_noPanic (by omega) (by rwa [Nat.sub_sub])) fun _ _ => noPanic_ok _

theorem copy_noPanic {refine : Bool} (hH : 0 < dst.height)
    (hsupp : src.origin + ((dst.height - 1) * src.stride + dst.width) < Size.bound) :
    NoPanic (copy clip src dst first last refine) :=
  NoPanic.bind (support_noPanic hH hsupp) fun _ _ => noPanic_ok _

theorem checkLast_noPanic (v : FilterVariant) (c : Component) (last : Bool) :
    NoPanic (checkLast v c last) := by
  unfold checkLast
  exact noPanic_ite_reject (noPanic_ok _)

theorem filterAxis_noPanic {dir : Direction} {c : Component} {v : FilterVariant} {frac : Nat}
    (hS : 0 < src.stride) (hw : 0 < dst.width) (hh : 0 < dst.height)
    (hfit : SizesFit src dst (v.family c.isLuma).taps) :
    NoPanic (filterAxis dir c v clip src dst frac first last) := by
  unfold filterAxis
  refine NoPanic.bind (checkLast_noPanic v c last) fun _ _ =>
    NoPanic.bind (noPanic_liftM_reject _) fun taps htaps => ?_
  have hN : taps.length = (v.family c.isLuma).taps :=
    (Taps.select_admissible (liftM_reject_eq_ok.mp htaps)).length_eq
  have h2 := two_le_taps (v.family c.isLuma)
  obtain ⟨hwN, hhN⟩ := hfit.add_lt hh h2 hS hw
  obtain ⟨hcopy, hhor, hver⟩ := hfit.rects_lt hh h2
  rw [← hN] at hwN hhN hhor hver h2
  split
  · exact copy_noPanic hh hcopy
  · cases dir
    · exact pass_horizontal_noPanic hh hwN hhor
    · exact pass_vertical_noPanic hhN h2 hver

section General

variable {tapsX tapsY : List Int} {tmp : Array Int} (hS : 0 < src.stride) (hw : 0 < dst.width)
  (hh : 0 < dst.height) (hN : 2 ≤ tapsY.length) (hX : tapsX.length = tapsY.length)
  (hfit : SizesFit src dst tapsY.length)
include hS hw hh hN hX hfit

theorem separableFront_noPanic :
    NoPanic (separableFront family clip src dst tapsX tapsY tmp) := by
  obtain ⟨hwN, hhN⟩ := hfit.add_lt hh hN hS hw
  have hrows : Size.addSaturating dst.height (tapsY.length - 1) = dst.height + tapsY.length - 1 := by
    unfold Size.addSaturating
    omega
  have hmul : Size.mul dst.width (Size.addSaturating dst.height (tapsY.length - 1)) = .ok _ :=
    Size.mul_ok_iff.mpr ⟨by rw [hrows]; exact hfit.scratch, rfl⟩
  have hback : (tapsY.length / 2 - 1) * src.stride ≤ (dst.height + tapsY.length - 2) * src.stride :=
    Nat.mul_le_mul_right _ (by omega)
  have hsupp := hfit.support
  unfold separableFront
  simp only [hmul, liftM_overflow_ok, ok_bind, reject_bind]
  refine noPanic_ite_reject (NoPanic.bind (shiftedUp_noPanic (by omega)) fun above hup => ?_)
  obtain ⟨-, -, rfl⟩ := Window.shiftedUp_eq_ok.mp hup
  have e := pred_mul_add (w := dst.width) (by omega : 0 < dst.height + tapsY.length - 1)
  refine NoPanic.bind (Plane.new?_noPanic (by omega) (by rw [hrows, e]; exact hfit.scratch))
    fun mid0 hmid0 => ?_
  obtain ⟨-, -, -, -, rfl⟩ := Plane.new?_eq_ok.mp hmid0
  refine NoPanic.bind (pass_horizontal_noPanic ?_ ?_ ?_)
    fun ⟨mid, reads⟩ _ => NoPanic.bind (Window.new?_noPanic _ _ _) fun _ _ => noPanic_ok _
  all_goals simp only [hrows, hX]
  · omega
  · omega
  · -- The horizontal pass reads the rows above the block and the block's own rows.
    have : dst.height + tapsY.length - 1 - 1 = dst.height + tapsY.length - 2 := by omega
    rw [this]
    omega

theorem separable_noPanic : NoPanic (separable family clip src dst tapsX tapsY last tmp) := by
  obtain ⟨-, hhN⟩ := hfit.add_lt hh hN hS hw
  have hrows : scratchRows dst tapsY.length = dst.height + tapsY.length - 1 := by
    rw [scratchRows_eq hhN]
    omega
  rw [separable_eq]
  refine NoPanic.bind (separableFront_noPanic hS hw hh hN hX hfit)
    fun ⟨mid, reads, window, needed⟩ hfront => ?_
  obtain ⟨rfl, hlt, hroom, -, -, -, -, above, start, -, -, rfl, -, rfl⟩ :=
    separableFront_eq_ok_iff.mp hfront
  rw [hrows] at hlt hroom ⊢
  dsimp only
  -- The vertical pass reads the scratch rows back from their first sample.
  refine NoPanic.bind (noPanic_of_eq_ok (pass_vertical_eq_ok_iff.mpr
    ⟨hhN, 0, support_scratch hw (by omega) ?_ hlt, rfl⟩)) fun _ _ => noPanic_ok _
  simp only [Plane.size_fill, Array.size_extract]
  omega

end General

theorem filter2d_noPanic {c : Component} {v : FilterVariant} {fracX fracY : Nat} {tmp : Array Int}
    (hS : 0 < src.stride) (hw : 0 < dst.width) (hh : 0 < dst.height)
    (hfit : SizesFit src dst (v.family c.isLuma).taps) :
    NoPanic (filter2d c v clip src dst fracX fracY last tmp) := by
  unfold filter2d
  refine NoPanic.bind (checkLast_noPanic v c last) fun _ _ =>
    NoPanic.bind (noPanic_liftM_reject _) fun tapsX hX =>
    NoPanic.bind (noPanic_liftM_reject _) fun tapsY hY => ?_
  have hNX : tapsX.length = (v.family c.isLuma).taps :=
    (Taps.select_admissible (liftM_reject_eq_ok.mp hX)).length_eq
  have hNY : tapsY.length = (v.family c.isLuma).taps :=
    (Taps.select_admissible (liftM_reject_eq_ok.mp hY)).length_eq
  have h2 := two_le_taps (v.family c.isLuma)
  obtain ⟨hwN, hhN⟩ := hfit.add_lt hh h2 hS hw
  obtain ⟨hcopy, hhor, hver⟩ := hfit.rects_lt hh h2
  split
  · exact NoPanic.bind (copy_noPanic hh hcopy) fun _ _ => noPanic_ok _
  · rw [← hNX] at hwN hhor
    exact NoPanic.bind (pass_horizontal_noPanic hh hwN hhor) fun _ _ => noPanic_ok _
  · rw [← hNY] at hhN hver h2
    exact NoPanic.bind (pass_vertical_noPanic hhN h2 hver) fun _ _ => noPanic_ok _
  · rw [← hNY] at hfit h2
    exact separable_noPanic hS hw hh h2 (hNX.trans hNY.symm) hfit

end Interp

/-! ## The geometric blend -/

theorem Geo.blend_noPanic (p : Geo.Partition) (comp : Component) (fmt : ChromaFormat)
    (clip : ClipRange) (src0 src1 dst : Plane) : NoPanic (Geo.blend p comp fmt clip src0 src1 dst) := by
  unfold Geo.blend
  simp only [reject_bind]
  split
  · exact NoPanic.bind (noPanic_liftM_reject _) fun _ _ => noPanic_ok _
  · exact noPanic_reject _

end InterPred
