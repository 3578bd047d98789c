import Mathlib
import InterPred.Proofs.Passes

/-!
# The general 2D path

The vertical pass reads back exactly what the horizontal pass wrote, so the general path
writes `separableValue`.
-/

namespace InterPred.Interp

open Taps

/-- The sample the general 2D path writes at `(x, y)`, reading the reference through
`ref X Y`, column `X` and row `Y` of its support. -/
def separableValue (family : TapFamily) (clip : ClipRange) (tapsX tapsY : List Int)
    (last : Bool) (ref : Nat → Nat → Int) (x y : Nat) : Int :=
  passValue family false last clip tapsY fun k =>
    passValue family true false clip tapsX fun i => ref (x + i) (y + k)

def scratchRows (dst : Plane) (taps : Nat) : Nat := Size.addSaturating dst.height (taps - 1)

/-- The general 2D path up to its vertical pass: the filled scratch block, the region the
horizontal pass read, the window over the intermediates, and the scratch length used. -/
def separableFront (family : TapFamily) (clip : ClipRange) (src : Window) (dst : Plane)
    (tapsX tapsY : List Int) (tmp : Array Int) :
    Except Fault (Plane × List ReadRegion × Window × Nat) := do
  let n := tapsY.length
  let half := n / 2 - 1
  let rows := Size.addSaturating dst.height (n - 1)
  let needed ← Size.mul dst.width rows
  if tmp.size < needed then reject (.bufferTooSmall needed tmp.size)
  let above ← src.shiftedUp half
  let mid ← Plane.new? (tmp.extract 0 needed) dst.width dst.width rows
  let (mid, reads) ← pass .horizontal family true false clip above mid tapsX
  let window ← Window.new? mid.data dst.width (half * dst.width)
  pure (mid, reads, window, needed)

theorem separable_eq (family : TapFamily) (clip : ClipRange) (src : Window) (dst : Plane)
    (tapsX tapsY : List Int) (last : Bool) (tmp : Array Int) :
    separable family clip src dst tapsX tapsY last tmp =
      separableFront family clip src dst tapsX tapsY tmp >>= fun (mid, reads, window, needed) =>
        (do
          let (dst, _) ← pass .vertical family false last clip window dst tapsY
          pure ⟨dst, mid.data ++ tmp.extract needed tmp.size, reads⟩) := by
  simp only [separable, separableFront]
  generalize (liftM (Size.mul dst.width (Size.addSaturating dst.height (tapsY.length - 1))) :
    Except Fault Nat) = x
  cases x with
  | error e => rfl
  | ok needed =>
    by_cases h : tmp.size < needed
    · simp [h, reject, bind, Except.bind]
    · simp only [h, if_false, bind_assoc, pure_bind, ok_bind]

theorem pred_mul_add {r w : Nat} (h : 0 < r) : (r - 1) * w + w = w * r := by
  obtain ⟨r, rfl⟩ := Nat.exists_eq_add_of_lt h
  simp only [Nat.zero_add, Nat.add_sub_cancel]
  ring

theorem separableFront_eq_ok_iff {family : TapFamily} {clip : ClipRange} {src : Window}
    {dst : Plane} {tapsX tapsY : List Int} {tmp : Array Int} {mid : Plane}
    {reads : List ReadRegion} {window : Window} {needed : Nat} :
    separableFront family clip src dst tapsX tapsY tmp = .ok (mid, reads, window, needed) ↔
      needed = dst.width * scratchRows dst tapsY.length ∧ needed < Size.bound ∧
      needed ≤ tmp.size ∧ 0 < scratchRows dst tapsY.length ∧
      dst.width + tapsX.length < Size.bound ∧ 0 < dst.width ∧
      (tapsY.length / 2 - 1) * dst.width < needed ∧
      ∃ above start, src.shiftedUp (tapsY.length / 2 - 1) = .ok above ∧
        above.support (tapsX.length / 2 - 1) 0 (dst.width + tapsX.length - 1)
          (scratchRows dst tapsY.length) = .ok start ∧
        mid = Plane.fill ⟨tmp.extract 0 needed, dst.width, dst.width, scratchRows dst tapsY.length⟩
          (fun x j => passValue family true false clip tapsX fun i =>
            above.sample start (x + i) j) ∧
        reads =
          [⟨start, above.stride, dst.width + tapsX.length - 1, scratchRows dst tapsY.length⟩] ∧
        window = ⟨mid.data, dst.width, (tapsY.length / 2 - 1) * dst.width⟩ := by
  simp only [separableFront, bind_eq_ok, liftM_eq_ok, Size.mul_ok_iff, reject_bind,
    ite_reject_eq_ok, Plane.new?_eq_ok, pass_horizontal_eq_ok_iff, Window.new?_eq_ok, pure,
    Except.pure, Except.ok.injEq, Prod.mk.injEq, Array.size_extract, if_true,
    scratchRows]
  constructor
  · rintro ⟨needed, ⟨hn, rfl⟩, htmp, above, habove, mid0, ⟨-, hrows, -, -, rfl⟩,
      _, ⟨hw, start, hs, rfl⟩, window, ⟨hw0, hhalf, rfl⟩, rfl, rfl, rfl, rfl⟩
    simp only [Plane.size_fill, Array.size_extract] at hhalf
    exact ⟨rfl, hn, by omega, hrows, hw, hw0, by omega, above, start, habove, hs, rfl, rfl, rfl⟩
  · rintro ⟨rfl, hn, htmp, hrows, hw, hw0, hhalf, above, start, habove, hs, rfl, rfl, rfl⟩
    have hext := pred_mul_add (w := dst.width) hrows
    refine ⟨_, ⟨hn, rfl⟩, by omega, above, habove, _,
      ⟨le_refl _, hrows, by omega, by omega, rfl⟩, _, ⟨hw, start, hs, rfl⟩, _, ⟨hw0, ?_, rfl⟩,
      rfl, rfl, rfl, rfl⟩
    simp only [Plane.size_fill, Array.size_extract]
    omega

/-! ## Success and value on a fitting support -/

theorem scratchRows_eq {dst : Plane} {n : Nat} (h : dst.height + n < Size.bound) :
    scratchRows dst n = dst.height + (n - 1) := by
  unfold scratchRows Size.addSaturating
  omega

theorem Window.Fits.add_lt {w : Window} {X Y W H : Nat} (h : w.Fits X Y W H) (hW : 2 ≤ W)
    (hH : 2 ≤ H) : W + H < Size.bound ∧ W * H < Size.bound := by
  obtain ⟨-, h1, h2, -⟩ := h
  have e1 : (H - 1) * W ≤ (H - 1) * w.stride := Nat.mul_le_mul_left _ (by omega)
  have e2 : (H - 1) * 2 ≤ (H - 1) * W := Nat.mul_le_mul_left _ hW
  have e3 := pred_mul_add (w := W) (by omega : 0 < H)
  omega

theorem Plane.sample_zero (p : Plane) (origin x y : Nat) :
    (⟨p.data, p.stride, origin⟩ : Window).sample 0 x y = p.get x y := by
  simp [Window.sample, Plane.get, Plane.index]

theorem support_scratch {data : Array Int} {w half H : Nat} (hw : 0 < w) (hH : half < H)
    (hsize : w * H ≤ data.size) (hbound : w * H < Size.bound) :
    (⟨data, w, half * w⟩ : Window).support 0 half w H = .ok 0 := by
  obtain ⟨hcol, hrow⟩ : (⟨data, w, half * w⟩ : Window).col = 0 ∧
      (⟨data, w, half * w⟩ : Window).row = half :=
    Window.mod_div_of_eq hw (Nat.add_zero _).symm
  have e := pred_mul_add (w := w) (by omega : 0 < H)
  rw [Window.support_eq_ok_iff, hcol, hrow]
  simp only [Window.Fits, Nat.sub_self, Nat.zero_mul, Nat.zero_add, Nat.add_zero, le_refl,
    true_and, and_true]
  omega

theorem sample_scratch {tmp : Array Int} {w rows : Nat} (hsize : w * rows ≤ tmp.size)
    (g : Nat → Nat → Int) (origin : Nat) {x j : Nat} (hx : x < w) (hj : j < rows) :
    (⟨(Plane.fill ⟨tmp.extract 0 (w * rows), w, w, rows⟩ g).data, w, origin⟩ : Window).sample
      0 x j = g x j := by
  have e := pred_mul_add (w := w) (by omega : 0 < rows)
  have hvalid : (⟨tmp.extract 0 (w * rows), w, w, rows⟩ : Plane).Valid := by
    refine ⟨le_refl _, ?_, ?_⟩ <;> simp only [Array.size_extract] <;> omega
  refine (Plane.sample_zero (Plane.fill ⟨tmp.extract 0 (w * rows), w, w, rows⟩ g) _ x j).trans ?_
  exact Plane.get_fill_of_valid hvalid g hx hj

/-- When the support lies in the plane and the scratch buffer is long enough, the general
path succeeds and writes `separableValue`. -/
theorem separable_ok_of_support {family : TapFamily} {clip : ClipRange} {src : Window}
    {dst : Plane} {tapsX tapsY : List Int} {last : Bool} {tmp : Array Int} {start : Nat}
    (hX : tapsX.length = tapsY.length) (hN : 2 ≤ tapsY.length) (hw : 0 < dst.width)
    (hh : 0 < dst.height) (htmp : dst.width * (dst.height + tapsY.length - 1) ≤ tmp.size)
    (hs : src.support (tapsY.length / 2 - 1) (tapsY.length / 2 - 1)
      (dst.width + tapsY.length - 1) (dst.height + tapsY.length - 1) = .ok start) :
    ∃ o, separable family clip src dst tapsX tapsY last tmp = .ok o ∧
      o.dst = dst.fill (separableValue family clip tapsX tapsY last (src.sample start)) := by
  obtain ⟨-, -, hfit, -⟩ := Window.support_eq_ok_iff.mp hs
  obtain ⟨hsum, harea⟩ := Window.Fits.add_lt hfit (by omega) (by omega)
  have hneeded : dst.width * (dst.height + tapsY.length - 1) < Size.bound :=
    lt_of_le_of_lt (Nat.mul_le_mul_right _ (by omega)) harea
  have hrows : scratchRows dst tapsY.length = dst.height + tapsY.length - 1 := by
    rw [scratchRows_eq (by omega)]
    omega
  have hhalf : (tapsY.length / 2 - 1) * dst.width < dst.width * scratchRows dst tapsY.length := by
    rw [hrows, Nat.mul_comm]
    exact Nat.mul_lt_mul_of_pos_left (by omega) hw
  obtain ⟨above, habove, hsa, hdata, hstride⟩ :=
    Window.support_shiftedUp hs (by omega) (by omega)
  replace hsa : above.support (tapsX.length / 2 - 1) 0 (dst.width + tapsX.length - 1)
      (scratchRows dst tapsY.length) = .ok start := by
    rw [hX, hrows]
    exact hsa
  have hfront : separableFront family clip src dst tapsX tapsY tmp = .ok _ :=
    separableFront_eq_ok_iff.mpr
      ⟨rfl, hrows ▸ hneeded, hrows ▸ htmp, by omega, by omega, hw, hhalf, above, start, habove,
        hsa, rfl, rfl, rfl⟩
  rw [hrows] at hfront
  -- The scratch block the horizontal pass fills, and what the vertical pass reads back.
  set g : Nat → Nat → Int := fun x j =>
    passValue family true false clip tapsX fun i => above.sample start (x + i) j with hg
  have hread : (⟨(Plane.fill ⟨tmp.extract 0 (dst.width * (dst.height + tapsY.length - 1)),
      dst.width, dst.width, dst.height + tapsY.length - 1⟩ g).data, dst.width,
      (tapsY.length / 2 - 1) * dst.width⟩ : Window).support
      0 (tapsY.length / 2 - 1) dst.width (dst.height + tapsY.length - 1) = .ok 0 :=
    support_scratch hw (by omega) (by simp; omega) hneeded
  have hv : pass .vertical family false last clip _ dst tapsY = .ok _ :=
    pass_vertical_eq_ok_iff.mpr ⟨by omega, 0, hread, rfl⟩
  rw [separable_eq, hfront, ok_bind]
  dsimp only
  rw [hv]
  refine ⟨_, rfl, Plane.fill_congr _ fun x hx y hy => ?_⟩
  refine passValue_congr (length_coeffs _ _) fun k hk => ?_
  rw [sample_scratch htmp g _ hx (by omega)]
  refine passValue_congr (length_coeffs _ _) fun i _ => ?_
  simp only [Window.sample, hdata, hstride]

/-- A general 2D call that succeeds has read the whole `(w + n - 1) × (h + n - 1)` support of its
taps, from the sample it reports, and written `separableValue` of it. -/
theorem separable_eq_ok_fill {family : TapFamily} {clip : ClipRange} {src : Window}
    {dst : Plane} {tapsX tapsY : List Int} {last : Bool} {tmp : Array Int} {o : Outcome}
    (h : separable family clip src dst tapsX tapsY last tmp = .ok o)
    (hX : tapsX.length = tapsY.length) (hN : 2 ≤ tapsY.length) :
    ∃ start, o.reads = [⟨start, src.stride, dst.width + tapsY.length - 1,
        dst.height + tapsY.length - 1⟩] ∧
      o.dst = dst.fill (separableValue family clip tapsX tapsY last (src.sample start)) := by
  rw [separable_eq] at h
  obtain ⟨⟨mid, reads, window, needed⟩, hfront, h⟩ := bind_eq_ok.mp h
  obtain ⟨⟨d, r⟩, hv, h⟩ := bind_eq_ok.mp h
  cases h
  obtain ⟨rfl, hn, htmp, -, -, hw, -, above, start, habove, -, rfl, rfl, rfl⟩ :=
    separableFront_eq_ok_iff.mp hfront
  obtain ⟨hbound, start', hs', hr⟩ := pass_vertical_eq_ok_iff.mp hv
  obtain ⟨-, -, rfl⟩ := Window.shiftedUp_eq_ok.mp habove
  simp only [Prod.mk.injEq] at hr
  obtain ⟨rfl, -⟩ := hr
  have hrows : scratchRows dst tapsY.length = dst.height + tapsY.length - 1 := by
    rw [scratchRows_eq (by omega)]
    omega
  rw [hrows] at hn htmp hs' ⊢
  -- The vertical pass reads the scratch block from its first sample.
  obtain rfl : start' = 0 := Except.ok.inj (hs'.symm.trans
    (support_scratch hw (by omega) (by simp; omega) hn))
  refine ⟨start, by rw [hX], Plane.fill_congr _ fun x hx y hy => ?_⟩
  refine passValue_congr (length_coeffs _ _) fun k hk => ?_
  rw [sample_scratch htmp _ _ hx (by omega)]
  rfl

theorem separable_ok_of_ok_last {family : TapFamily} {clip : ClipRange} {src : Window}
    {dst : Plane} {tapsX tapsY : List Int} {last : Bool} {tmp : Array Int} {o : Outcome}
    (h : separable family clip src dst tapsX tapsY last tmp = .ok o) (last' : Bool) :
    ∃ o', separable family clip src dst tapsX tapsY last' tmp = .ok o' ∧ o'.reads = o.reads := by
  rw [separable_eq] at h ⊢
  obtain ⟨⟨mid, reads, window, needed⟩, hfront, h⟩ := bind_eq_ok.mp h
  obtain ⟨⟨d, r⟩, hv, h⟩ := bind_eq_ok.mp h
  cases h
  obtain ⟨hbound, start, hs, -⟩ := pass_vertical_eq_ok_iff.mp hv
  have hv' : pass .vertical family false last' clip window dst tapsY = .ok _ :=
    pass_vertical_eq_ok_iff.mpr ⟨hbound, start, hs, rfl⟩
  rw [hfront, ok_bind]
  dsimp only
  rw [hv', ok_bind]
  exact ⟨_, rfl, rfl⟩

end InterPred.Interp
