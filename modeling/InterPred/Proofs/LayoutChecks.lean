import Mathlib
import InterPred.Proofs.NoPanic
import InterPred.Proofs.Dispatch

/-!
# Layout checks decide their layouts
-/

namespace InterPred

/-! ## What a check can refuse -/

def PredError.OfLayout : PredError → Prop
  | .strideTooSmall _ _ => True
  | .bufferTooSmall _ _ => True
  | .supportOutOfBounds => True
  | _ => False

def PredError.OfSelection : PredError → Prop
  | .fracOutOfRange _ _ => True
  | .unsupportedVariant _ _ => True
  | _ => False

def PredError.OfRequest (r : PredError) : Prop := r.OfLayout ∨ r.OfSelection

def Fault.Within (E : PredError → Prop) : Fault → Prop
  | .overflow _ => True
  | .reject r => E r

def Fault.Refuses (E : PredError → Prop) (e : Fault) : Prop := ∃ r, e = .reject r ∧ E r

/-- `x` decides the layout `fits`: it succeeds exactly when the layout fits, and it otherwise
refuses the layout, never overflowing. -/
structure Decides {α : Type} (x : Except Fault α) (fits : Prop) : Prop where
  ok_iff : (∃ a, x = .ok a) ↔ fits
  refuses : RaisesOnly (Fault.Refuses PredError.OfLayout) x

section Raises

variable {α : Type} {E : PredError → Prop}

theorem raisesOnly_ite_reject {P : Fault → Prop} {c : Prop} [Decidable c] {e : PredError}
    {y : Except Fault α} (he : P (.reject e)) (hy : RaisesOnly P y) :
    RaisesOnly P (if c then reject e else y) := by
  split
  · exact raisesOnly_reject he
  · exact hy

theorem raisesOnly_within_liftM (x : Except Overflow α) :
    RaisesOnly (Fault.Within E) (liftM x : Except Fault α) :=
  raisesOnly_liftM (fun _ => trivial) x

theorem RaisesOnly.refuses {x : Except Fault α} (h : RaisesOnly (Fault.Within E) x)
    (hn : NoPanic x) : RaisesOnly (Fault.Refuses E) x := by
  intro e he
  cases e with
  | overflow o => exact absurd he (hn o)
  | reject r => exact ⟨r, rfl, h _ he⟩

theorem Fault.within_mono {E E' : PredError → Prop} (hE : ∀ r, E r → E' r) :
    ∀ e, Fault.Within E e → Fault.Within E' e
  | .overflow _, _ => trivial
  | .reject r, h => hE r h

theorem raisesOnly_request_of_layout {x : Except Fault α}
    (h : RaisesOnly (Fault.Within PredError.OfLayout) x) :
    RaisesOnly (Fault.Within PredError.OfRequest) x :=
  h.mono (Fault.within_mono fun _ hr => Or.inl hr)

theorem raisesOnly_within_liftM_reject {x : Except PredError α} (hx : ∀ r, x = .error r → E r) :
    RaisesOnly (Fault.Within E) (liftM x : Except Fault α) := by
  cases x with
  | error r => exact fun e he => (Except.error.inj he) ▸ hx r rfl
  | ok a => exact raisesOnly_ok a

end Raises

/-! ## Planes and windows -/

theorem Plane.new?_within (data : Array Int) (stride width height : Nat) :
    RaisesOnly (Fault.Within PredError.OfLayout) (Plane.new? data stride width height) := by
  unfold Plane.new?
  simp only [reject_bind]
  refine raisesOnly_ite_reject trivial
    (RaisesOnly.bind (raisesOnly_within_liftM _) fun needed _ => ?_)
  exact raisesOnly_ite_reject trivial (raisesOnly_ok _)

theorem Window.new?_within (data : Array Int) (stride origin : Nat) :
    RaisesOnly (Fault.Within PredError.OfLayout) (Window.new? data stride origin) := by
  unfold Window.new?
  exact raisesOnly_ite_reject trivial (raisesOnly_ite_reject trivial (raisesOnly_ok _))

theorem Window.at?_eq_ok {data : Array Int} {stride x y : Nat} {w : Window} :
    Window.at? data stride x y = .ok w ↔
      x < stride ∧ y * stride + x < Size.bound ∧ y * stride + x < data.size ∧
        w = ⟨data, stride, y * stride + x⟩ := by
  simp only [Window.at?, reject_bind, ite_reject_eq_ok, bind_eq_ok, liftM_eq_ok, Size.mul_ok_iff,
    Size.add_ok_iff, Window.new?_eq_ok]
  constructor
  · rintro ⟨hx, skip, ⟨-, rfl⟩, origin, ⟨hadd, rfl⟩, -, hlt, rfl⟩
    exact ⟨by omega, hadd, hlt, rfl⟩
  · rintro ⟨hx, hadd, hlt, rfl⟩
    exact ⟨by omega, _, ⟨by omega, rfl⟩, _, ⟨hadd, rfl⟩, by omega, hlt, rfl⟩

theorem Window.at?_within (data : Array Int) (stride x y : Nat) :
    RaisesOnly (Fault.Within PredError.OfLayout) (Window.at? data stride x y) := by
  unfold Window.at?
  simp only [reject_bind]
  refine raisesOnly_ite_reject trivial
    (RaisesOnly.bind (raisesOnly_within_liftM _) fun skip _ =>
      RaisesOnly.bind (raisesOnly_within_liftM _) fun origin _ => ?_)
  exact Window.new?_within data stride origin

theorem Window.at?_noPanic (data : Array Int) {stride x y : Nat}
    (h : y * stride + x < Size.bound) : NoPanic (Window.at? data stride x y) := by
  have hskip : Size.mul y stride = .ok (y * stride) := Size.mul_ok_iff.mpr ⟨by omega, rfl⟩
  have horigin : Size.add (y * stride) x = .ok (y * stride + x) := Size.add_ok_iff.mpr ⟨h, rfl⟩
  unfold Window.at?
  simp only [reject_bind, hskip, horigin, liftM_overflow_ok, ok_bind]
  exact noPanic_ite_reject (Window.new?_noPanic data stride _)

theorem Plane.new?_decides (data : Array Int) {stride width height : Nat} (hh : 0 < height)
    (h : (height - 1) * stride + width < Size.bound) :
    Decides (Plane.new? data stride width height)
      (width ≤ stride ∧ (height - 1) * stride + width ≤ data.size) := by
  refine ⟨⟨fun ⟨p, hp⟩ => ?_, fun ⟨hw, hfit⟩ => ⟨_, Plane.new?_eq_ok.mpr ⟨hw, hh, h, hfit, rfl⟩⟩⟩,
    (Plane.new?_within data stride width height).refuses (Plane.new?_noPanic hh h)⟩
  obtain ⟨hw, -, -, hfit, -⟩ := Plane.new?_eq_ok.mp hp
  exact ⟨hw, hfit⟩

theorem Window.new?_decides (data : Array Int) (stride origin : Nat) :
    Decides (Window.new? data stride origin) (0 < stride ∧ origin < data.size) := by
  refine ⟨⟨fun ⟨w, hw⟩ => ?_, fun ⟨hs, ho⟩ => ⟨_, Window.new?_eq_ok.mpr ⟨hs, ho, rfl⟩⟩⟩,
    (Window.new?_within data stride origin).refuses (Window.new?_noPanic data stride origin)⟩
  obtain ⟨hs, ho, -⟩ := Window.new?_eq_ok.mp hw
  exact ⟨hs, ho⟩

theorem Window.at?_decides (data : Array Int) {stride x y : Nat}
    (h : y * stride + x < Size.bound) :
    Decides (Window.at? data stride x y)
      (0 < stride ∧ x < stride ∧ y * stride + x < data.size) := by
  refine ⟨⟨fun ⟨w, hw⟩ => ?_, fun ⟨_, hx, hlt⟩ => ⟨_, Window.at?_eq_ok.mpr ⟨hx, h, hlt, rfl⟩⟩⟩,
    (Window.at?_within data stride x y).refuses (Window.at?_noPanic data h)⟩
  obtain ⟨hx, -, hlt, -⟩ := Window.at?_eq_ok.mp hw
  exact ⟨by omega, hx, hlt⟩

/-! ## Interpolation calls -/

theorem Window.support_within (w : Window) (left above W H : Nat) :
    RaisesOnly (Fault.Within PredError.OfLayout) (w.support left above W H) := by
  unfold Window.support
  simp only [reject_bind]
  refine raisesOnly_ite_reject trivial
    (RaisesOnly.bind (raisesOnly_within_liftM _) fun right _ => ?_)
  refine raisesOnly_ite_reject trivial
    (RaisesOnly.bind (raisesOnly_within_liftM _) fun extent _ => ?_)
  exact RaisesOnly.bind (raisesOnly_within_liftM _) fun last _ =>
    raisesOnly_ite_reject trivial (raisesOnly_ok _)

theorem Window.shiftedUp_within (w : Window) (rows : Nat) :
    RaisesOnly (Fault.Within PredError.OfLayout) (w.shiftedUp rows) := by
  unfold Window.shiftedUp
  simp only [reject_bind]
  exact RaisesOnly.bind (raisesOnly_within_liftM _) fun back _ =>
    raisesOnly_ite_reject trivial (raisesOnly_ok _)

theorem Taps.select_error {v : FilterVariant} {c : Component} {frac : Nat} {r : PredError}
    (h : Taps.select v c frac = .error r) : r.OfSelection := by
  by_cases hf : c.fracPositions ≤ frac
  · simp only [Taps.select, hf, if_true, Except.error.injEq] at h
    subst h
    trivial
  · -- Inside the table only the refinement variant on chroma is refused.
    simp only [Taps.select, hf, if_false] at h
    cases c <;> cases v <;> simp only [Component.isLuma, if_true, Bool.false_eq_true, if_false,
      reduceCtorEq, Except.error.injEq] at h <;> (subst h; trivial)

namespace Interp

variable {family : TapFamily} {first last : Bool} {clip : ClipRange} {src : Window} {dst : Plane}
  {taps : List Int}

theorem pass_within (dir : Direction) :
    RaisesOnly (Fault.Within PredError.OfLayout)
      (pass dir family first last clip src dst taps) := by
  cases dir <;> simp only [pass, pure_bind] <;>
    exact RaisesOnly.bind (raisesOnly_within_liftM _) fun _ _ =>
      RaisesOnly.bind (Window.support_within _ _ _ _ _) fun _ _ => raisesOnly_ok _

theorem copy_within {refine : Bool} :
    RaisesOnly (Fault.Within PredError.OfLayout) (copy clip src dst first last refine) :=
  RaisesOnly.bind (Window.support_within _ _ _ _ _) fun _ _ => raisesOnly_ok _

theorem checkLast_within (v : FilterVariant) (c : Component) (last : Bool) :
    RaisesOnly (Fault.Within PredError.OfRequest) (checkLast v c last) := by
  unfold checkLast
  exact raisesOnly_ite_reject (Or.inr trivial) (raisesOnly_ok _)

theorem select_within (v : FilterVariant) (c : Component) (frac : Nat) :
    RaisesOnly (Fault.Within PredError.OfRequest)
      (liftM (Taps.select v c frac) : Except Fault (List Int)) :=
  raisesOnly_within_liftM_reject fun _ h => Or.inr (Taps.select_error h)

theorem filterAxis_within (dir : Direction) (c : Component) (v : FilterVariant) (frac : Nat) :
    RaisesOnly (Fault.Within PredError.OfRequest)
      (filterAxis dir c v clip src dst frac first last) := by
  unfold filterAxis
  refine RaisesOnly.bind (checkLast_within v c last) fun _ _ =>
    RaisesOnly.bind (select_within v c frac) fun taps _ => ?_
  split
  · exact raisesOnly_request_of_layout copy_within
  · exact raisesOnly_request_of_layout (pass_within dir)

theorem separable_within {tapsX tapsY : List Int} {tmp : Array Int} :
    RaisesOnly (Fault.Within PredError.OfLayout)
      (separable family clip src dst tapsX tapsY last tmp) := by
  unfold separable
  simp only [reject_bind]
  refine RaisesOnly.bind (raisesOnly_within_liftM _) fun needed _ => raisesOnly_ite_reject trivial
    (RaisesOnly.bind (Window.shiftedUp_within _ _) fun above _ =>
      RaisesOnly.bind (Plane.new?_within _ _ _ _) fun mid0 _ =>
        RaisesOnly.bind (pass_within .horizontal) fun ⟨mid, reads⟩ _ => ?_)
  exact RaisesOnly.bind (Window.new?_within _ _ _) fun window _ =>
    RaisesOnly.bind (pass_within .vertical) fun _ _ => raisesOnly_ok _

theorem filter2d_within (c : Component) (v : FilterVariant) (fracX fracY : Nat)
    (tmp : Array Int) :
    RaisesOnly (Fault.Within PredError.OfRequest)
      (filter2d c v clip src dst fracX fracY last tmp) := by
  unfold filter2d
  refine RaisesOnly.bind (checkLast_within v c last) fun _ _ =>
    RaisesOnly.bind (select_within v c fracX) fun tapsX _ =>
      RaisesOnly.bind (select_within v c fracY) fun tapsY _ => ?_
  split
  all_goals refine raisesOnly_request_of_layout ?_
  · exact RaisesOnly.bind copy_within fun _ _ => raisesOnly_ok _
  · exact RaisesOnly.bind (pass_within .horizontal) fun _ _ => raisesOnly_ok _
  · exact RaisesOnly.bind (pass_within .vertical) fun _ _ => raisesOnly_ok _
  · exact separable_within

section Fit

variable (hS : 0 < src.stride) (hw : 0 < dst.width) (hh : 0 < dst.height)
include hS hw hh

theorem filterAxis_refuses {dir : Direction} {c : Component} {v : FilterVariant} {frac : Nat}
    (hfit : SizesFit src dst (v.family c.isLuma).taps) :
    RaisesOnly (Fault.Refuses PredError.OfRequest)
      (filterAxis dir c v clip src dst frac first last) :=
  RaisesOnly.refuses (filterAxis_within dir c v frac) (filterAxis_noPanic hS hw hh hfit)

theorem filter2d_refuses {c : Component} {v : FilterVariant} {fracX fracY : Nat}
    {tmp : Array Int} (hfit : SizesFit src dst (v.family c.isLuma).taps) :
    RaisesOnly (Fault.Refuses PredError.OfRequest)
      (filter2d c v clip src dst fracX fracY last tmp) :=
  RaisesOnly.refuses (filter2d_within c v fracX fracY tmp) (filter2d_noPanic hS hw hh hfit)

end Fit

end Interp

/-! ## Layouts and calls within 64 bits -/

/-- Where their extents are sizes, the layout checks decide their layouts over the integers,
and an interpolation call whose sizes fit never overflows. -/
theorem layout_checks_decide_within_sizes (data : Array Int) (stride width height origin x y : Nat)
    (hh : 0 < height) (hplane : (height - 1) * stride + width < Size.bound)
    (hat : y * stride + x < Size.bound) :
    Decides (Plane.new? data stride width height)
        (width ≤ stride ∧ (height - 1) * stride + width ≤ data.size) ∧
      Decides (Window.new? data stride origin) (0 < stride ∧ origin < data.size) ∧
      Decides (Window.at? data stride x y) (0 < stride ∧ x < stride ∧ y * stride + x < data.size) ∧
      (∀ (c : Component) (v : FilterVariant) (clip : ClipRange) (src : Window) (dst : Plane)
        (frac fracX fracY : Nat) (first last : Bool) (tmp : Array Int),
        0 < src.stride → 0 < dst.width → 0 < dst.height →
        Interp.SizesFit src dst (v.family c.isLuma).taps →
        RaisesOnly (Fault.Refuses PredError.OfRequest)
            (Interp.filterHor c v clip src dst frac last) ∧
          RaisesOnly (Fault.Refuses PredError.OfRequest)
            (Interp.filterVer c v clip src dst frac first last) ∧
          RaisesOnly (Fault.Refuses PredError.OfRequest)
            (Interp.filter2d c v clip src dst fracX fracY last tmp)) ∧
      ∀ (clip : ClipRange) (src : Window) (dst : Plane) (fracX fracY : Nat) (tmp : Array Int),
        0 < src.stride → 0 < dst.width → 0 < dst.height →
        Interp.SizesFit src dst TapFamily.twoRefine.taps →
        RaisesOnly (Fault.Refuses PredError.OfRequest)
          (Interp.filterRefine clip src dst fracX fracY tmp) := by
  refine ⟨Plane.new?_decides data hh hplane, Window.new?_decides data stride origin,
    Window.at?_decides data hat, fun _ _ _ _ _ _ _ _ _ _ _ hS hw hdh hfit => ⟨?_, ?_, ?_⟩,
    fun _ _ _ _ _ _ hS hw hdh hfit => ?_⟩
  -- `filterHor` and `filterVer` are `filterAxis`; `filterRefine` is `filter2d` on luma.
  · exact Interp.filterAxis_refuses hS hw hdh hfit
  · exact Interp.filterAxis_refuses hS hw hdh hfit
  · exact Interp.filter2d_refuses hS hw hdh hfit
  · exact Interp.filter2d_refuses hS hw hdh hfit

theorem layout_checks_decide_within_sizes_on_unit :
    0 < 1 ∧ (1 - 1) * 1 + 1 < Size.bound ∧ 0 * 1 + 0 < Size.bound ∧
      Decides (Plane.new? #[0] 1 1 1) (1 ≤ 1 ∧ (1 - 1) * 1 + 1 ≤ (#[0] : Array Int).size) ∧
      Decides (Window.new? #[0] 1 0) (0 < 1 ∧ 0 < (#[0] : Array Int).size) ∧
      Decides (Window.at? #[0] 1 0 0) (0 < 1 ∧ 0 < 1 ∧ 0 * 1 + 0 < (#[0] : Array Int).size) ∧
      Interp.SizesFit ⟨Array.replicate 64 0, 8, 27⟩ ⟨#[0], 1, 1, 1⟩
        (FilterVariant.standard.family Component.y.isLuma).taps ∧
      RaisesOnly (Fault.Refuses PredError.OfRequest)
        (Interp.filter2d .y .standard ClipRange.eightBit ⟨Array.replicate 64 0, 8, 27⟩
          ⟨#[0], 1, 1, 1⟩ 3 5 true (Array.replicate 8 0)) := by
  have hfit : Interp.SizesFit ⟨Array.replicate 64 0, 8, 27⟩ ⟨#[0], 1, 1, 1⟩
      (FilterVariant.standard.family Component.y.isLuma).taps := ⟨by decide, by decide⟩
  have h := layout_checks_decide_within_sizes #[0] 1 1 1 0 0 0 (by decide) (by decide) (by decide)
  exact ⟨by decide, by decide, by decide, h.1, h.2.1, h.2.2.1, hfit,
    (h.2.2.2.1 .y .standard ClipRange.eightBit _ _ 0 3 5 true true _ (by decide) (by decide)
      (by decide) hfit).2.2⟩

/-- A plane of five rows at stride `2 ^ 62` over a one-sample buffer overflows on its extent
instead of being refused. -/
theorem planeNew_huge_stride_overflows :
    ¬((5 - 1) * 4611686018427387904 + 1 ≤ (#[0] : Array Int).size) ∧
      Plane.new? #[0] 4611686018427387904 1 5 = .error (.overflow .mul) :=
  ⟨by decide, rfl⟩

end InterPred
