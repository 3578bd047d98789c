import Mathlib
import InterPred.Proofs.LayoutChecks

/-!
# The order in which a 2D interpolation refuses
-/

namespace InterPred

/-! ## Guarded computations -/

/-- `x` succeeds exactly when `P` holds, and otherwise refuses with `e`. -/
structure Guarded {α : Type} (x : Except Fault α) (P : Prop) (e : PredError) : Prop where
  ok_iff : (∃ a, x = .ok a) ↔ P
  reject_iff : x = reject e ↔ ¬P

section Guarded

variable {α β : Type} {x : Except Fault α} {P Q : Prop} {e : PredError}

theorem Guarded.of_refuses (hok : (∃ a, x = .ok a) ↔ P)
    (hx : RaisesOnly (Fault.Refuses (· = e)) x) : Guarded x P e := by
  refine ⟨hok, fun h hP => ?_, fun hP => ?_⟩
  · obtain ⟨a, ha⟩ := hok.mpr hP
    rw [h] at ha
    cases ha
  · cases hx' : x with
    | ok a => exact absurd (hok.mp ⟨a, hx'⟩) hP
    | error f =>
      obtain ⟨r, rfl, rfl⟩ := hx f hx'
      rfl

theorem Guarded.congr (h : Guarded x P e) (hPQ : P ↔ Q) : Guarded x Q e :=
  ⟨h.ok_iff.trans hPQ, h.reject_iff.trans (not_congr hPQ)⟩

theorem guarded_ok {a : α} (hP : P) : Guarded (.ok a) P e :=
  ⟨⟨fun _ => hP, fun _ => ⟨a, rfl⟩⟩, ⟨fun h => (by cases h), fun h => absurd hP h⟩⟩

theorem guarded_reject (hP : ¬P) : Guarded (reject e : Except Fault α) P e :=
  ⟨⟨fun ⟨_, hb⟩ => (by cases hb), fun h => absurd h hP⟩, ⟨fun _ => hP, fun _ => rfl⟩⟩

theorem Guarded.bind_ok {f : α → Except Fault β} (h : Guarded x P e)
    (hf : ∀ a, x = .ok a → ∃ b, f a = .ok b) : Guarded (x >>= f) P e := by
  by_cases hP : P
  · obtain ⟨a, ha⟩ := h.ok_iff.mpr hP
    obtain ⟨b, hb⟩ := hf a ha
    rw [ha, ok_bind, hb]
    exact guarded_ok hP
  · rw [h.reject_iff.mpr hP, reject_bind]
    exact guarded_reject hP

theorem Guarded.bind_of_imp {f : α → Except Fault β} (h : Guarded x P e)
    (hf : ∀ a, x = .ok a → Guarded (f a) Q e) (hQP : Q → P) : Guarded (x >>= f) Q e := by
  by_cases hP : P
  · obtain ⟨a, ha⟩ := h.ok_iff.mpr hP
    rw [ha, ok_bind]
    exact hf a ha
  · rw [h.reject_iff.mpr hP, reject_bind]
    exact guarded_reject fun hQ => hP (hQP hQ)

end Guarded

/-! ## Rectangles of a plane -/

namespace Window

def InPlane (w : Window) (left above W H : Nat) : Prop :=
  left ≤ w.col ∧ above ≤ w.row ∧ w.col - left + W ≤ w.stride ∧
    (w.row - above + (H - 1)) * w.stride + (w.col - left) + W ≤ w.data.size

instance (w : Window) (left above W H : Nat) : Decidable (w.InPlane left above W H) :=
  inferInstanceAs (Decidable (_ ∧ _))

theorem support_within_outOfBounds (w : Window) (left above W H : Nat) :
    RaisesOnly (Fault.Within (· = .supportOutOfBounds)) (w.support left above W H) := by
  unfold Window.support
  simp only [reject_bind]
  refine raisesOnly_ite_reject rfl
    (RaisesOnly.bind (raisesOnly_within_liftM _) fun right _ => ?_)
  refine raisesOnly_ite_reject rfl
    (RaisesOnly.bind (raisesOnly_within_liftM _) fun extent _ => ?_)
  exact RaisesOnly.bind (raisesOnly_within_liftM _) fun last _ =>
    raisesOnly_ite_reject rfl (raisesOnly_ok _)

theorem support_guarded {w : Window} {left above W H : Nat} (hH : 0 < H)
    (h : w.origin + ((H - 1) * w.stride + W) < Size.bound) :
    Guarded (w.support left above W H) (w.InPlane left above W H) .supportOutOfBounds := by
  have horigin := origin_eq w
  have hcol : w.col - left ≤ w.col := Nat.sub_le _ _
  have hrow : (w.row - above) * w.stride ≤ w.row * w.stride :=
    Nat.mul_le_mul_right _ (Nat.sub_le _ _)
  have hsplit : (w.row - above + (H - 1)) * w.stride =
      (w.row - above) * w.stride + (H - 1) * w.stride := Nat.add_mul _ _ _
  refine Guarded.of_refuses ⟨fun ⟨start, hs⟩ => ?_, fun hin => ?_⟩
    ((support_within_outOfBounds w left above W H).refuses (support_noPanic hH h))
  · obtain ⟨hl, ha, ⟨-, h1, -, h2⟩, -⟩ := support_eq_ok_iff.mp hs
    exact ⟨hl, ha, h1, by omega⟩
  · obtain ⟨hl, ha, h1, h2⟩ := hin
    exact ⟨_, support_eq_ok_iff.mpr ⟨hl, ha, ⟨hH, h1, by omega, by omega⟩, rfl⟩⟩

theorem shiftedUp_within_outOfBounds (w : Window) (rows : Nat) :
    RaisesOnly (Fault.Within (· = .supportOutOfBounds)) (w.shiftedUp rows) := by
  unfold Window.shiftedUp
  simp only [reject_bind]
  exact RaisesOnly.bind (raisesOnly_within_liftM _) fun back _ =>
    raisesOnly_ite_reject rfl (raisesOnly_ok _)

theorem shiftedUp_guarded {w : Window} {rows : Nat} (hS : 0 < w.stride)
    (h : rows * w.stride < Size.bound) :
    Guarded (w.shiftedUp rows) (rows ≤ w.row) .supportOutOfBounds := by
  have hrow : rows * w.stride ≤ w.origin ↔ rows ≤ w.row := (Nat.le_div_iff_mul_le hS).symm
  refine Guarded.of_refuses ⟨fun ⟨w', hw'⟩ => ?_, fun hr => ?_⟩
    ((shiftedUp_within_outOfBounds w rows).refuses (shiftedUp_noPanic h))
  · exact hrow.mp (shiftedUp_eq_ok.mp hw').2.1
  · exact ⟨_, shiftedUp_eq_ok.mpr ⟨h, hrow.mpr hr, rfl⟩⟩

theorem inPlane_shiftedUp {w w' : Window} {k left W H : Nat} (hS : 0 < w.stride)
    (h : w.shiftedUp k = .ok w') :
    w'.InPlane left 0 W H ↔ w.InPlane left k W H := by
  have hk : k ≤ w.row := (shiftedUp_guarded hS (shiftedUp_eq_ok.mp h).1).ok_iff.mp ⟨w', h⟩
  obtain ⟨hcol, hrow, hdata, hstride⟩ := col_row_shiftedUp h hS hk
  simp only [InPlane, hcol, hrow, hdata, hstride, Nat.sub_zero, Nat.zero_le, true_and]
  exact ⟨fun ⟨h1, h2, h3⟩ => ⟨h1, hk, h2, h3⟩, fun ⟨h1, _, h2, h3⟩ => ⟨h1, h2, h3⟩⟩

end Window

/-! ## Selecting the tap sets -/

namespace Taps

theorem select_of_le {v : FilterVariant} {c : Component} {frac : Nat}
    (h : c.fracPositions ≤ frac) :
    select v c frac = .error (.fracOutOfRange frac c.fracPositions) := by
  simp [select, h]

theorem select_refine_chroma {c : Component} {frac : Nat} (h : frac < c.fracPositions)
    (hc : c.isLuma = false) : select .refine c frac = .error (.unsupportedVariant .refine c) := by
  simp [select, Nat.not_le.mpr h, hc]

theorem select_ok {v : FilterVariant} {c : Component} {frac : Nat} (h : frac < c.fracPositions)
    (hv : ¬(v = .refine ∧ c.isLuma = false)) : ∃ taps, select v c frac = .ok taps := by
  simp only [select, Nat.not_le.mpr h, if_false]
  cases c
  case y => cases v <;> exact ⟨_, rfl⟩
  all_goals
    cases v
    case refine => exact absurd ⟨rfl, rfl⟩ hv
    all_goals exact ⟨_, rfl⟩

end Taps

/-! ## The paths of a 2D call -/

namespace Interp

theorem checkLast_eq_ok {v : FilterVariant} {c : Component} {last : Bool}
    (h : ¬(last = true ∧ v.family c.isLuma = .twoRefine)) : checkLast v c last = .ok () := by
  have hcond : (last && !(v.family c.isLuma).supportsLast) = false := by
    cases last
    · rfl
    · cases hf : v.family c.isLuma <;> simp_all [TapFamily.supportsLast]
  unfold checkLast
  rw [if_neg (by rw [hcond]; decide)]
  rfl

theorem checkLast_eq_reject {v : FilterVariant} {c : Component}
    (h : v.family c.isLuma = .twoRefine) :
    checkLast v c true = reject (.unsupportedVariant v c) := by
  simp [checkLast, h, TapFamily.supportsLast]

section Paths

variable {family : TapFamily} {first last : Bool} {clip : ClipRange} {src : Window} {dst : Plane}
  {taps : List Int}

theorem pass_horizontal_guarded (hH : 0 < dst.height)
    (hadd : dst.width + taps.length < Size.bound)
    (hsupp : src.origin + ((dst.height - 1) * src.stride + (dst.width + taps.length - 1)) <
      Size.bound) :
    Guarded (pass .horizontal family first last clip src dst taps)
      (src.InPlane (taps.length / 2 - 1) 0 (dst.width + taps.length - 1) dst.height)
      .supportOutOfBounds := by
  have hw : Size.add dst.width taps.length = .ok _ := Size.add_ok_iff.mpr ⟨hadd, rfl⟩
  unfold pass
  simp only [hw, liftM_overflow_ok, ok_bind, pure_bind]
  exact (Window.support_guarded hH hsupp).bind_ok fun _ _ => ⟨_, rfl⟩

theorem pass_vertical_guarded (hadd : dst.height + taps.length < Size.bound)
    (hN : 2 ≤ taps.length)
    (hsupp : src.origin + ((dst.height + taps.length - 2) * src.stride + dst.width) <
      Size.bound) :
    Guarded (pass .vertical family first last clip src dst taps)
      (src.InPlane 0 (taps.length / 2 - 1) dst.width (dst.height + taps.length - 1))
      .supportOutOfBounds := by
  have hh : Size.add dst.height taps.length = .ok _ := Size.add_ok_iff.mpr ⟨hadd, rfl⟩
  unfold pass
  simp only [hh, liftM_overflow_ok, ok_bind, pure_bind]
  exact (Window.support_guarded (by omega) (by rwa [Nat.sub_sub])).bind_ok fun _ _ => ⟨_, rfl⟩

theorem copy_guarded {refine : Bool} (hH : 0 < dst.height)
    (hsupp : src.origin + ((dst.height - 1) * src.stride + dst.width) < Size.bound) :
    Guarded (copy clip src dst first last refine) (src.InPlane 0 0 dst.width dst.height)
      .supportOutOfBounds :=
  (Window.support_guarded hH hsupp).bind_ok fun _ _ => ⟨_, rfl⟩

section General

variable {tapsX tapsY : List Int} {tmp : Array Int} (hS : 0 < src.stride) (hw : 0 < dst.width)
  (hh : 0 < dst.height) (hN : 2 ≤ tapsY.length) (hX : tapsX.length = tapsY.length)
  (hfit : SizesFit src dst tapsY.length)
include hS hw hh hN hX hfit

theorem separable_needed :
    Size.mul dst.width (Size.addSaturating dst.height (tapsY.length - 1)) =
      .ok (dst.width * (dst.height + tapsY.length - 1)) := by
  obtain ⟨-, hhN⟩ := hfit.add_lt hh hN hS hw
  have hrows : Size.addSaturating dst.height (tapsY.length - 1) =
      dst.height + tapsY.length - 1 := by
    unfold Size.addSaturating
    omega
  rw [hrows]
  exact Size.mul_ok_iff.mpr ⟨hfit.scratch, rfl⟩

theorem separableFront_guarded (htmp : dst.width * (dst.height + tapsY.length - 1) ≤ tmp.size) :
    Guarded (separableFront family clip src dst tapsX tapsY tmp)
      (src.InPlane (tapsY.length / 2 - 1) (tapsY.length / 2 - 1) (dst.width + tapsY.length - 1)
        (dst.height + tapsY.length - 1)) .supportOutOfBounds := by
  obtain ⟨hwN, hhN⟩ := hfit.add_lt hh hN hS hw
  have hrows : Size.addSaturating dst.height (tapsY.length - 1) =
      dst.height + tapsY.length - 1 := by
    unfold Size.addSaturating
    omega
  have hback : (tapsY.length / 2 - 1) * src.stride ≤ (dst.height + tapsY.length - 2) * src.stride :=
    Nat.mul_le_mul_right _ (by omega)
  have hsupp := hfit.support
  have hlen : dst.height + tapsY.length - 1 - 1 = dst.height + tapsY.length - 2 := by omega
  have hle : src.origin - (tapsY.length / 2 - 1) * src.stride ≤ src.origin := Nat.sub_le _ _
  have hmid : Plane.new? (tmp.extract 0 (dst.width * (dst.height + tapsY.length - 1))) dst.width
      dst.width (dst.height + tapsY.length - 1) =
      .ok ⟨tmp.extract 0 (dst.width * (dst.height + tapsY.length - 1)), dst.width, dst.width,
        dst.height + tapsY.length - 1⟩ := by
    have e := pred_mul_add (w := dst.width) (by omega : 0 < dst.height + tapsY.length - 1)
    refine Plane.new?_eq_ok.mpr ⟨le_refl _, by omega, by rw [e]; exact hfit.scratch, ?_, rfl⟩
    simp only [Array.size_extract]
    omega
  unfold separableFront
  simp only [separable_needed hS hw hh hN hX hfit, liftM_overflow_ok, ok_bind, reject_bind]
  rw [if_neg (by omega), hrows]
  refine Guarded.bind_of_imp (Window.shiftedUp_guarded hS (by omega)) (fun above habove => ?_)
    fun hin => hin.2.1
  obtain ⟨-, -, rfl⟩ := Window.shiftedUp_eq_ok.mp habove
  rw [hmid, ok_bind]
  -- The horizontal pass reads the rows above the block and the block's own rows.
  have hpass : Guarded (pass .horizontal family true false clip
      { src with origin := src.origin - (tapsY.length / 2 - 1) * src.stride }
      ⟨tmp.extract 0 (dst.width * (dst.height + tapsY.length - 1)), dst.width, dst.width,
        dst.height + tapsY.length - 1⟩ tapsX) _ _ :=
    pass_horizontal_guarded (by simp only; omega) (by simp only; omega)
      (by simp only; rw [hlen, hX]; omega)
  rw [hX] at hpass
  refine (hpass.congr (Window.inPlane_shiftedUp hS habove)).bind_ok fun r hr => ?_
  obtain ⟨-, start, -, rfl⟩ := pass_horizontal_eq_ok_iff.mp hr
  refine ⟨_, bind_eq_ok.mpr ⟨_, Window.new?_eq_ok.mpr ⟨hw, ?_, rfl⟩, rfl⟩⟩
  -- The window over the intermediates starts inside the scratch block.
  have hhalf :
      (tapsY.length / 2 - 1) * dst.width < dst.width * (dst.height + tapsY.length - 1) := by
    rw [Nat.mul_comm]
    exact Nat.mul_lt_mul_of_pos_left (by omega) hw
  simp only [Plane.size_fill, Array.size_extract]
  omega

theorem separable_guarded (htmp : dst.width * (dst.height + tapsY.length - 1) ≤ tmp.size) :
    Guarded (separable family clip src dst tapsX tapsY last tmp)
      (src.InPlane (tapsY.length / 2 - 1) (tapsY.length / 2 - 1) (dst.width + tapsY.length - 1)
        (dst.height + tapsY.length - 1)) .supportOutOfBounds := by
  obtain ⟨-, hhN⟩ := hfit.add_lt hh hN hS hw
  have hrows : scratchRows dst tapsY.length = dst.height + tapsY.length - 1 := by
    rw [scratchRows_eq hhN]
    omega
  rw [separable_eq]
  refine (separableFront_guarded hS hw hh hN hX hfit htmp).bind_ok
    fun ⟨mid, reads, window, needed⟩ hfront => ?_
  obtain ⟨rfl, hlt, hroom, -, -, -, -, above, start, -, -, rfl, -, rfl⟩ :=
    separableFront_eq_ok_iff.mp hfront
  rw [hrows] at hlt hroom ⊢
  refine ⟨_, bind_eq_ok.mpr ⟨_, pass_vertical_eq_ok_iff.mpr ⟨hhN, 0, ?_, rfl⟩, rfl⟩⟩
  exact support_scratch hw (by omega)
    (by simp only [Plane.size_fill, Array.size_extract]; omega) hlt

theorem separable_bufferTooSmall_iff :
    separable family clip src dst tapsX tapsY last tmp =
        reject (.bufferTooSmall (dst.width * (dst.height + tapsY.length - 1)) tmp.size) ↔
      tmp.size < dst.width * (dst.height + tapsY.length - 1) := by
  constructor
  · intro h
    by_contra hle
    have hg : Guarded (separable family clip src dst tapsX tapsY last tmp) _ _ :=
      separable_guarded hS hw hh hN hX hfit (Nat.le_of_not_lt hle)
    by_cases hin : src.InPlane (tapsY.length / 2 - 1) (tapsY.length / 2 - 1)
      (dst.width + tapsY.length - 1) (dst.height + tapsY.length - 1)
    · obtain ⟨o, ho⟩ := hg.ok_iff.mpr hin
      rw [h] at ho
      cases ho
    · have := hg.reject_iff.mpr hin
      rw [h] at this
      cases this
  · intro hlt
    rw [separable_eq]
    unfold separableFront
    simp only [separable_needed hS hw hh hN hX hfit, liftM_overflow_ok, ok_bind, reject_bind]
    rw [if_pos hlt]
    rfl

end General

end Paths

/-! ## The answers of a 2D call -/

/-- Once the tap sets are chosen, the path reads one rectangle and the call succeeds exactly
when it lies in the plane. -/
structure PathAnswers (call : Except Fault Outcome) (src : Window) (dst : Plane) (n : Nat)
    (tx ty : List Int) (needed available : Nat) : Prop where
  copy : Taps.isIdentity tx = true → Taps.isIdentity ty = true →
    Guarded call (src.InPlane 0 0 dst.width dst.height) .supportOutOfBounds
  horizontal : Taps.isIdentity tx = false → Taps.isIdentity ty = true →
    Guarded call (src.InPlane (n / 2 - 1) 0 (dst.width + n - 1) dst.height) .supportOutOfBounds
  vertical : Taps.isIdentity tx = true → Taps.isIdentity ty = false →
    Guarded call (src.InPlane 0 (n / 2 - 1) dst.width (dst.height + n - 1)) .supportOutOfBounds
  scratch : Taps.isIdentity tx = false → Taps.isIdentity ty = false →
    (call = reject (.bufferTooSmall needed available) ↔ available < needed)
  general : Taps.isIdentity tx = false → Taps.isIdentity ty = false → needed ≤ available →
    Guarded call (src.InPlane (n / 2 - 1) (n / 2 - 1) (dst.width + n - 1) (dst.height + n - 1))
      .supportOutOfBounds

section Call

variable {c : Component} {v : FilterVariant} {clip : ClipRange} {src : Window} {dst : Plane}
  {fracX fracY : Nat} {last : Bool} {tmp : Array Int}

theorem scratchLen_eq (hS : 0 < src.stride) (hw : 0 < dst.width) (hh : 0 < dst.height)
    (hfit : SizesFit src dst (v.family c.isLuma).taps) :
    scratchLen v c dst.width dst.height =
      .ok (dst.width * (dst.height + (v.family c.isLuma).taps - 1)) := by
  obtain ⟨-, hhN⟩ := hfit.add_lt hh (two_le_taps _) hS hw
  unfold scratchLen
  dsimp only
  rw [(Size.add_ok_iff.mpr ⟨hhN, rfl⟩ : Size.add dst.height _ = _), ok_bind]
  exact Size.mul_ok_iff.mpr ⟨hfit.scratch, rfl⟩

theorem filter2d_pathAnswers {tx ty : List Int}
    (hlast : ¬(last = true ∧ v.family c.isLuma = .twoRefine))
    (hx : Taps.select v c fracX = .ok tx) (hy : Taps.select v c fracY = .ok ty)
    (hS : 0 < src.stride) (hw : 0 < dst.width) (hh : 0 < dst.height)
    (hfit : SizesFit src dst (v.family c.isLuma).taps) :
    PathAnswers (filter2d c v clip src dst fracX fracY last tmp) src dst (v.family c.isLuma).taps
      tx ty (dst.width * (dst.height + (v.family c.isLuma).taps - 1)) tmp.size := by
  have hNX : tx.length = (v.family c.isLuma).taps := (Taps.select_admissible hx).length_eq
  have hNY : ty.length = (v.family c.isLuma).taps := (Taps.select_admissible hy).length_eq
  have h2 := two_le_taps (v.family c.isLuma)
  obtain ⟨hwN, hhN⟩ := hfit.add_lt hh h2 hS hw
  obtain ⟨hcopy, hhor, hver⟩ := hfit.rects_lt hh h2
  have hfitY : SizesFit src dst ty.length := hNY ▸ hfit
  unfold filter2d
  dsimp only
  rw [checkLast_eq_ok hlast, ok_bind, liftM_reject_eq_ok.mpr hx, ok_bind,
    liftM_reject_eq_ok.mpr hy, ok_bind]
  refine ⟨fun hix hiy => ?_, fun hix hiy => ?_, fun hix hiy => ?_, fun hix hiy => ?_,
    fun hix hiy hle => ?_⟩
  · -- Both sets are the impulse: a copy of the block.
    rw [hix, hiy]
    exact (copy_guarded hh hcopy).bind_ok fun _ _ => ⟨_, rfl⟩
  · -- Only the horizontal set filters.
    rw [hix, hiy]
    have hg : Guarded (pass .horizontal (v.family c.isLuma) true last clip src dst tx) _ _ :=
      pass_horizontal_guarded hh (hNX ▸ hwN) (hNX ▸ hhor)
    rw [hNX] at hg
    exact hg.bind_ok fun _ _ => ⟨_, rfl⟩
  · -- Only the vertical set filters.
    rw [hix, hiy]
    have hg : Guarded (pass .vertical (v.family c.isLuma) true last clip src dst ty) _ _ :=
      pass_vertical_guarded (hNY ▸ hhN) (hNY ▸ h2) (hNY ▸ hver)
    rw [hNY] at hg
    exact hg.bind_ok fun _ _ => ⟨_, rfl⟩
  · -- Both filter: the scratch buffer is checked first.
    rw [hix, hiy]
    have hb : separable (v.family c.isLuma) clip src dst tx ty last tmp = _ ↔ _ :=
      separable_bufferTooSmall_iff hS hw hh (hNY ▸ h2) (hNX.trans hNY.symm) hfitY
    rwa [hNY] at hb
  · rw [hix, hiy]
    have hg : Guarded (separable (v.family c.isLuma) clip src dst tx ty last tmp) _ _ :=
      separable_guarded hS hw hh (hNY ▸ h2) (hNX.trans hNY.symm) hfitY (by rwa [hNY])
    rwa [hNY] at hg

end Call

/-- A 2D interpolation answers the first of its checks that fails: the family, the two
positions, then the one rectangle its path reads. -/
theorem filter2d_refuses_in_order (c : Component) (v : FilterVariant) (clip : ClipRange)
    (src : Window) (dst : Plane) (fracX fracY : Nat) (last : Bool) (tmp : Array Int)
    (hS : 0 < src.stride) (hw : 0 < dst.width) (hh : 0 < dst.height) :
    (last = true → v.family c.isLuma = .twoRefine →
      filter2d c v clip src dst fracX fracY last tmp = reject (.unsupportedVariant v c)) ∧
    (¬(last = true ∧ v.family c.isLuma = .twoRefine) →
      (c.fracPositions ≤ fracX → filter2d c v clip src dst fracX fracY last tmp =
        reject (.fracOutOfRange fracX c.fracPositions)) ∧
      (fracX < c.fracPositions → v = .refine → c.isLuma = false →
        filter2d c v clip src dst fracX fracY last tmp = reject (.unsupportedVariant v c)) ∧
      (fracX < c.fracPositions → ¬(v = .refine ∧ c.isLuma = false) →
        c.fracPositions ≤ fracY → filter2d c v clip src dst fracX fracY last tmp =
          reject (.fracOutOfRange fracY c.fracPositions)) ∧
      (fracX < c.fracPositions → ¬(v = .refine ∧ c.isLuma = false) →
        fracY < c.fracPositions → SizesFit src dst (v.family c.isLuma).taps →
        ∃ tx ty needed, Taps.select v c fracX = .ok tx ∧ Taps.select v c fracY = .ok ty ∧
          scratchLen v c dst.width dst.height = .ok needed ∧
          PathAnswers (filter2d c v clip src dst fracX fracY last tmp) src dst
            (v.family c.isLuma).taps tx ty needed tmp.size)) := by
  refine ⟨fun hl hf => ?_, fun hlast => ⟨fun hx => ?_, fun hx hv hc => ?_, fun hx hv hy => ?_,
    fun hx hv hy hfit => ?_⟩⟩
  · -- The refinement family has no output samples.
    subst hl
    unfold filter2d
    rw [checkLast_eq_reject hf, reject_bind]
  · unfold filter2d
    rw [checkLast_eq_ok hlast, ok_bind]
    dsimp only
    rw [Taps.select_of_le hx]
    rfl
  · subst hv
    unfold filter2d
    rw [checkLast_eq_ok hlast, ok_bind]
    dsimp only
    rw [Taps.select_refine_chroma hx hc]
    rfl
  · obtain ⟨tx, htx⟩ := Taps.select_ok hx hv
    unfold filter2d
    rw [checkLast_eq_ok hlast, ok_bind]
    dsimp only
    rw [liftM_reject_eq_ok.mpr htx, ok_bind, Taps.select_of_le hy]
    rfl
  · obtain ⟨tx, htx⟩ := Taps.select_ok hx hv
    obtain ⟨ty, hty⟩ := Taps.select_ok hy hv
    exact ⟨tx, ty, _, htx, hty, scratchLen_eq hS hw hh hfit,
      filter2d_pathAnswers hlast htx hty hS hw hh hfit⟩

theorem filter2d_refuses_in_order_on_plane :
    0 < 8 ∧ 0 < 1 ∧ 0 < 1 ∧ ∃ tx ty needed, Taps.select .standard .y 3 = .ok tx ∧
      Taps.select .standard .y 5 = .ok ty ∧ scratchLen .standard .y 1 1 = .ok needed ∧
      PathAnswers (filter2d .y .standard ClipRange.eightBit ⟨Array.replicate 64 0, 8, 27⟩
        ⟨#[0], 1, 1, 1⟩ 3 5 true (Array.replicate 8 0)) ⟨Array.replicate 64 0, 8, 27⟩
        ⟨#[0], 1, 1, 1⟩ 8 tx ty needed 8 := by
  have hfit : SizesFit ⟨Array.replicate 64 0, 8, 27⟩ ⟨#[0], 1, 1, 1⟩
      (FilterVariant.standard.family Component.y.isLuma).taps := ⟨by decide, by decide⟩
  exact ⟨by decide, by decide, by decide,
    (filter2d_refuses_in_order .y .standard ClipRange.eightBit _ _ 3 5 true (Array.replicate 8 0)
      (by decide) (by decide) (by decide)).2 (by decide) |>.2.2.2 (by decide) (by decide)
      (by decide) hfit⟩

/-- A copy from a one-sample plane at stride `2 ^ 62` overflows on the extent of its support
instead of refusing it. -/
theorem filter2d_copy_huge_stride_overflows :
    ¬(⟨#[0], 4611686018427387904, 0⟩ : Window).InPlane 0 0 1 5 ∧
      filter2d .y .standard ClipRange.eightBit ⟨#[0], 4611686018427387904, 0⟩
        ⟨#[0, 0, 0, 0, 0], 1, 1, 5⟩ 0 0 true #[] = .error (.overflow .mul) :=
  ⟨by decide, rfl⟩


end Interp

end InterPred
