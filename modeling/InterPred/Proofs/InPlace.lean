import Mathlib
import InterPred.Interp.Run
import InterPred.Proofs.Shortcuts

/-!
# Calls in place

A call made on the caller's frame `settle`s when it does its checks before its effects; only the
general 2D path writes before its last checks (`separableRun_cases`).
-/

namespace InterPred.Interp

/-! ## Steps on a frame -/

@[simp] theorem require_bind_ok {α β : Type} (a : α) (f : α → Run β) (fr : Frame) :
    (require (.ok a) >>= f) fr = f a fr := rfl

@[simp] theorem require_bind_error {α β : Type} (e : Fault) (f : α → Run β) (fr : Frame) :
    (require (.error e) >>= f) fr = .error e fr := rfl

@[simp] theorem get_bind {β : Type} (f : Frame → Run β) (fr : Frame) :
    (get >>= f) fr = f fr fr := rfl

@[simp] theorem set_bind {β : Type} (s : Frame) (f : PUnit → Run β) (fr : Frame) :
    (set s >>= f) fr = f () s := rfl

def Frame.commit (fr : Frame) (o : Outcome) : Frame := ⟨o.dst, o.tmp, fr.seen ++ o.reads⟩

/-- How a call that checks everything before its effects ends on a frame. -/
def settle (x : Except Fault Outcome) (fr : Frame) : EStateM.Result Fault Frame Unit :=
  match x with
  | .ok o => .ok () (fr.commit o)
  | .error e => .error e fr

theorem settle_eq_ok_iff {x : Except Fault Outcome} {fr fr' : Frame} :
    settle x fr = .ok () fr' ↔ ∃ o, x = .ok o ∧ fr' = fr.commit o := by
  cases x <;> simp [settle, eq_comm]

theorem settle_eq_error_iff {x : Except Fault Outcome} {fr fr' : Frame} {e : Fault} :
    settle x fr = .error e fr' ↔ x = .error e ∧ fr' = fr := by
  cases x <;> simp [settle, eq_comm]

theorem emit_eq_settle (x : Except Fault (Plane × List ReadRegion)) (fr : Frame) :
    emit x fr = settle (x >>= fun r => pure ⟨r.1, fr.tmp, r.2⟩) fr := by
  cases x <;> rfl

theorem filterAxisRun_eq (dir : Direction) (c : Component) (v : FilterVariant) (clip : ClipRange)
    (src : Window) (frac : Nat) (first last : Bool) (fr : Frame) :
    filterAxisRun dir c v clip src frac first last fr =
      settle (filterAxis dir c v clip src fr.dst frac first last >>= fun r =>
        pure ⟨r.1, fr.tmp, r.2⟩) fr :=
  emit_eq_settle _ fr

/-! ## The general path -/

/-- The general path settles, or it stops after its horizontal pass has filled the scratch rows
and reported its read. -/
theorem separableRun_cases (family : TapFamily) (clip : ClipRange) (src : Window)
    (tapsX tapsY : List Int) (last : Bool) (fr : Frame) :
    separableRun family clip src tapsX tapsY last fr =
        settle (separable family clip src fr.dst tapsX tapsY last fr.tmp) fr ∨
      ∃ e needed above mid0 mid reads,
        Size.mul fr.dst.width (scratchRows fr.dst tapsY.length) = .ok needed ∧
        needed ≤ fr.tmp.size ∧ src.shiftedUp (tapsY.length / 2 - 1) = .ok above ∧
        Plane.new? (fr.tmp.extract 0 needed) fr.dst.width fr.dst.width
          (scratchRows fr.dst tapsY.length) = .ok mid0 ∧
        pass .horizontal family true false clip above mid0 tapsX = .ok (mid, reads) ∧
        (Window.new? mid.data fr.dst.width ((tapsY.length / 2 - 1) * fr.dst.width) >>=
          fun window => pass .vertical family false last clip window fr.dst tapsY) = .error e ∧
        separable family clip src fr.dst tapsX tapsY last fr.tmp = .error e ∧
        separableRun family clip src tapsX tapsY last fr =
          .error e ⟨fr.dst, mid.data ++ fr.tmp.extract needed fr.tmp.size, fr.seen ++ reads⟩ := by
  unfold separableRun separable
  simp only [scratchRows, get_bind]
  generalize hA : (liftM (Size.mul fr.dst.width (Size.addSaturating fr.dst.height
    (tapsY.length - 1))) : Except Fault Nat) = A
  cases A with
  | error e => left; rfl
  | ok needed =>
  simp only [require_bind_ok, ok_bind]
  by_cases hroom : fr.tmp.size < needed
  · left
    simp only [hroom, if_true, reject, require_bind_error]
    rfl
  simp only [hroom, if_false]
  generalize hC : src.shiftedUp (tapsY.length / 2 - 1) = C
  cases C with
  | error e => left; rfl
  | ok above =>
  simp only [require_bind_ok, ok_bind]
  generalize hD : Plane.new? (fr.tmp.extract 0 needed) fr.dst.width fr.dst.width
    (Size.addSaturating fr.dst.height (tapsY.length - 1)) = D
  cases D with
  | error e => left; rfl
  | ok mid0 =>
  simp only [require_bind_ok, ok_bind]
  generalize hE : pass .horizontal family true false clip above mid0 tapsX = E
  cases E with
  | error e => left; rfl
  | ok r =>
  obtain ⟨mid, reads⟩ := r
  simp only [require_bind_ok, ok_bind]
  -- From here on the scratch rows are written and the read is reported.
  generalize hG : Window.new? mid.data fr.dst.width ((tapsY.length / 2 - 1) * fr.dst.width) = G
  cases G with
  | error e =>
    right
    exact ⟨e, needed, above, mid0, mid, reads, liftM_eq_ok.mp hA, by omega, rfl, hD, hE,
      by rw [hG]; rfl, rfl, rfl⟩
  | ok window =>
  simp only [ok_bind, set_bind, require_bind_ok]
  generalize hH : pass .vertical family false last clip window fr.dst tapsY = H
  cases H with
  | error e =>
    right
    exact ⟨e, needed, above, mid0, mid, reads, liftM_eq_ok.mp hA, by omega, rfl, hD, hE,
      by rw [hG, ok_bind, hH], rfl, rfl⟩
  | ok r =>
  left
  -- A pass that is not first reports nothing.
  obtain ⟨-, start, -, rfl⟩ := pass_vertical_eq_ok_iff.mp hH
  simp [emit_eq_settle, settle, Frame.commit]

/-! ## Two dimensions -/

theorem filter2dRun_cases (c : Component) (v : FilterVariant) (clip : ClipRange) (src : Window)
    (fracX fracY : Nat) (last : Bool) (fr : Frame) :
    filter2dRun c v clip src fracX fracY last fr =
        settle (filter2d c v clip src fr.dst fracX fracY last fr.tmp) fr ∨
      ∃ tapsX tapsY, Taps.select v c fracX = .ok tapsX ∧ Taps.select v c fracY = .ok tapsY ∧
        filter2dRun c v clip src fracX fracY last fr =
          separableRun (v.family c.isLuma) clip src tapsX tapsY last fr ∧
        filter2d c v clip src fr.dst fracX fracY last fr.tmp =
          separable (v.family c.isLuma) clip src fr.dst tapsX tapsY last fr.tmp := by
  unfold filter2dRun filter2d
  cases hL : checkLast v c last with
  | error e => left; rfl
  | ok u =>
  simp only [require_bind_ok, ok_bind]
  cases hX : (liftM (Taps.select v c fracX) : Except Fault (List Int)) with
  | error e => left; rfl
  | ok tapsX =>
  simp only [require_bind_ok, ok_bind]
  cases hY : (liftM (Taps.select v c fracY) : Except Fault (List Int)) with
  | error e => left; rfl
  | ok tapsY =>
  simp only [require_bind_ok, ok_bind, get_bind]
  cases hidX : Taps.isIdentity tapsX <;> cases hidY : Taps.isIdentity tapsY
  · exact .inr ⟨tapsX, tapsY, liftM_reject_eq_ok.mp hX, liftM_reject_eq_ok.mp hY, rfl, rfl⟩
  -- The shortcuts are a single pass or copy.
  all_goals
    left
    simp only [emit_eq_settle]

end InterPred.Interp
