import Mathlib
import InterPred.Proofs.InPlace

/-!
# What the observer hears
-/

namespace InterPred

/-! ## Regions of a reference plane -/

/-- The region a first pass reads for a `width × height` block at the origin of `src`, with
`nx` taps across and `ny` down. -/
def Window.supportRegion (src : Window) (width height nx ny : Nat) : ReadRegion :=
  ⟨src.origin - (ny / 2 - 1) * src.stride - (nx / 2 - 1), src.stride, width + nx - 1,
    height + ny - 1⟩

def ReadRegion.InPlane (r : ReadRegion) (size : Nat) : Prop :=
  0 < r.height ∧ r.start % r.stride + r.width ≤ r.stride ∧
    r.start + ((r.height - 1) * r.stride + r.width) ≤ size

structure Window.AgreeOn (w w' : Window) (r : ReadRegion) : Prop where
  stride_eq : w'.stride = w.stride
  origin_eq : w'.origin = w.origin
  sample_eq : ∀ x < r.width, ∀ y < r.height,
    w'.data[r.start + y * r.stride + x]? = w.data[r.start + y * r.stride + x]?

namespace Window

theorem support_start {w : Window} {left above W H start : Nat}
    (h : w.support left above W H = .ok start) : start = w.origin - above * w.stride - left := by
  obtain ⟨hl, ha, -, rfl⟩ := support_eq_ok_iff.mp h
  have horigin := origin_eq w
  have hmul : above * w.stride ≤ w.row * w.stride := Nat.mul_le_mul_right _ ha
  rw [Nat.sub_mul]
  omega

theorem support_inPlane {w : Window} {left above W H start : Nat}
    (h : w.support left above W H = .ok start) :
    (⟨start, w.stride, W, H⟩ : ReadRegion).InPlane w.data.size := by
  obtain ⟨-, -, ⟨hH, hXW, -, hlast⟩, rfl⟩ := support_eq_ok_iff.mp h
  refine ⟨hH, ?_, hlast⟩
  rcases Nat.eq_zero_or_pos w.stride with hS | hS
  · simp only [hS] at hXW ⊢
    simp only [Nat.mul_zero, Nat.zero_add, Nat.mod_zero]
    exact hXW
  · rw [(mod_div_of_eq (lt_of_le_of_lt (Nat.sub_le _ _) (col_lt hS)) rfl).1]
    exact hXW

theorem support_extent_lt {w : Window} {left above W H start : Nat}
    (h : w.support left above W H = .ok start) :
    start + ((H - 1) * w.stride + W) < Size.bound := by
  obtain ⟨-, -, ⟨-, -, hbound, -⟩, rfl⟩ := support_eq_ok_iff.mp h
  exact hbound

theorem support_of_agreeOn {w w' : Window} {left above W H start : Nat}
    (h : w.support left above W H = .ok start) (hW : 0 < W)
    (ha : w.AgreeOn w' ⟨start, w.stride, W, H⟩) : w'.support left above W H = .ok start := by
  obtain ⟨hl, hab, ⟨hH, hXW, hbound, hlast⟩, hstart⟩ := support_eq_ok_iff.mp h
  have hcol : w'.col = w.col := by simp only [col, ha.stride_eq, ha.origin_eq]
  have hrow : w'.row = w.row := by simp only [row, ha.stride_eq, ha.origin_eq]
  have hsame := ha.sample_eq (W - 1) (show W - 1 < W by omega) (H - 1) (show H - 1 < H by omega)
  simp only at hsame
  have hin : start + (H - 1) * w.stride + (W - 1) < w'.data.size := by
    by_contra hout
    rw [Array.getElem?_eq_none (by omega), Array.getElem?_eq_getElem (by omega)] at hsame
    cases hsame
  refine support_eq_ok_iff.mpr ⟨hcol ▸ hl, hrow ▸ hab, ?_, ?_⟩
  · unfold Fits
    rw [hcol, hrow, ha.stride_eq]
    exact ⟨hH, hXW, hbound, by omega⟩
  · rw [hcol, hrow, ha.stride_eq, hstart]

theorem AgreeOn.sample {w w' : Window} {start W H : Nat}
    (ha : w.AgreeOn w' ⟨start, w.stride, W, H⟩) {x y : Nat} (hx : x < W) (hy : y < H) :
    w'.sample start x y = w.sample start x y := by
  have hsame := ha.sample_eq x hx y hy
  simp only at hsame
  unfold Window.sample
  rw [ha.stride_eq, Array.getD_eq_getD_getElem?, Array.getD_eq_getD_getElem?, hsame]

end Window

theorem ReadRegion.area_lt {r : ReadRegion} {size : Nat} (hin : r.InPlane size)
    (hext : r.start + ((r.height - 1) * r.stride + r.width) < Size.bound) :
    r.width * r.height < Size.bound := by
  obtain ⟨hH, hW, -⟩ := hin
  have hmul : (r.height - 1) * r.width ≤ (r.height - 1) * r.stride :=
    Nat.mul_le_mul_left _ (by omega)
  have e := Interp.pred_mul_add (w := r.width) hH
  omega

namespace ReadCounter

theorem recordAll_eq_ok (c : ReadCounter) (hr : c.reads < Size.bound)
    (hs : c.samples < Size.bound) (rs : List ReadRegion)
    (h : ∀ r ∈ rs, r.width * r.height < Size.bound) :
    c.recordAll rs = .ok ⟨(c.reads + rs.length) % Size.bound,
      (c.samples + (rs.map fun r => r.width * r.height).sum) % Size.bound⟩ := by
  induction rs generalizing c with
  | nil => simp [recordAll, Nat.mod_eq_of_lt hr, Nat.mod_eq_of_lt hs]
  | cons r rs ih =>
    have hsamples : r.samples = .ok (r.width * r.height) :=
      Size.mul_ok_iff.mpr ⟨h r List.mem_cons_self, rfl⟩
    simp only [recordAll, record, hsamples]
    have hpos : 0 < Size.bound := by decide
    rw [ih _ (Nat.mod_lt _ hpos) (Nat.mod_lt _ hpos)
      fun r' hr' => h r' (List.mem_cons_of_mem _ hr')]
    simp only [Nat.mod_add_mod, List.length_cons, List.map_cons, List.sum_cons, Except.ok.injEq,
      mk.injEq]
    constructor <;> congr 1 <;> omega

end ReadCounter

namespace Interp

/-! ## Observers do not interfere -/

def heard (s : List ReadRegion) : EStateM.Result Fault Frame Unit → EStateM.Result Fault Frame Unit
  | .ok a fr => .ok a { fr with seen := s ++ fr.seen }
  | .error e fr => .error e { fr with seen := s ++ fr.seen }

theorem settle_heard (x : Except Fault Outcome) (d : Plane) (t : Array Int)
    (s r : List ReadRegion) : settle x ⟨d, t, s ++ r⟩ = heard s (settle x ⟨d, t, r⟩) := by
  cases x <;> simp [settle, heard, Frame.commit]

section Oblivious

variable {family : TapFamily} {clip : ClipRange} {src : Window} {tapsX tapsY : List Int}
  {last : Bool}

theorem separableRun_heard (d : Plane) (t : Array Int) (s : List ReadRegion) :
    separableRun family clip src tapsX tapsY last ⟨d, t, s⟩ =
      heard s (separableRun family clip src tapsX tapsY last ⟨d, t, []⟩) := by
  unfold separableRun
  simp only [get_bind]
  cases (liftM (Size.mul d.width (Size.addSaturating d.height (tapsY.length - 1))) :
    Except Fault Nat) with
  | error e => simp [heard]
  | ok needed =>
  simp only [require_bind_ok]
  by_cases hroom : t.size < needed
  · simp [hroom, reject, heard]
  simp only [hroom, if_false]
  cases src.shiftedUp (tapsY.length / 2 - 1) with
  | error e => simp [heard]
  | ok above =>
  simp only [require_bind_ok]
  cases Plane.new? (t.extract 0 needed) d.width d.width
    (Size.addSaturating d.height (tapsY.length - 1)) with
  | error e => simp [heard]
  | ok mid0 =>
  simp only [require_bind_ok]
  cases pass .horizontal family true false clip above mid0 tapsX with
  | error e => simp [heard]
  | ok r =>
  obtain ⟨mid, reads⟩ := r
  simp only [require_bind_ok, set_bind]
  cases Window.new? mid.data d.width ((tapsY.length / 2 - 1) * d.width) with
  | error e => simp [heard]
  | ok window =>
  simp only [require_bind_ok, emit_eq_settle, List.nil_append]
  exact settle_heard _ _ _ s reads

theorem filterAxisRun_heard (dir : Direction) (c : Component) (v : FilterVariant)
    (clip : ClipRange) (src : Window) (frac : Nat) (first last : Bool) (d : Plane) (t : Array Int)
    (s : List ReadRegion) :
    filterAxisRun dir c v clip src frac first last ⟨d, t, s⟩ =
      heard s (filterAxisRun dir c v clip src frac first last ⟨d, t, []⟩) := by
  rw [filterAxisRun_eq, filterAxisRun_eq]
  simpa using settle_heard _ d t s []

theorem filter2dRun_heard (c : Component) (v : FilterVariant) (clip : ClipRange) (src : Window)
    (fracX fracY : Nat) (last : Bool) (d : Plane) (t : Array Int) (s : List ReadRegion) :
    filter2dRun c v clip src fracX fracY last ⟨d, t, s⟩ =
      heard s (filter2dRun c v clip src fracX fracY last ⟨d, t, []⟩) := by
  unfold filter2dRun
  cases checkLast v c last with
  | error e => simp [heard]
  | ok u =>
  simp only [require_bind_ok]
  cases (liftM (Taps.select v c fracX) : Except Fault (List Int)) with
  | error e => simp [heard]
  | ok tapsX =>
  simp only [require_bind_ok]
  cases (liftM (Taps.select v c fracY) : Except Fault (List Int)) with
  | error e => simp [heard]
  | ok tapsY =>
  simp only [require_bind_ok, get_bind]
  -- Each shortcut is one pass or copy; the general path keeps its own history.
  cases Taps.isIdentity tapsX <;> cases Taps.isIdentity tapsY
  · exact separableRun_heard d t s
  all_goals
    simp only [emit_eq_settle]
    simpa using settle_heard _ d t s []

end Oblivious

/-! ## A call that stops has reported nothing -/

theorem scratchRows_of_fits {w : Window} {dst : Plane} {n X Y W : Nat}
    (h : w.Fits X Y W (scratchRows dst n)) (hW : 2 ≤ W) (hn : 0 < n) :
    dst.height + n < Size.bound ∧ scratchRows dst n = dst.height + n - 1 := by
  obtain ⟨hH, hXW, hbound, -⟩ := h
  have hS : (scratchRows dst n - 1) * 2 ≤ (scratchRows dst n - 1) * w.stride :=
    Nat.mul_le_mul_left _ (by omega)
  unfold scratchRows Size.addSaturating at *
  omega

theorem vertical_after_horizontal_ok {family : TapFamily} {clip : ClipRange}
    {above : Window} {dst mid0 mid : Plane} {tapsX tapsY : List Int} {reads : List ReadRegion}
    {tmp : Array Int} {needed : Nat} (last : Bool) (hw : 0 < dst.width) (hX : 2 ≤ tapsX.length)
    (hN : tapsY.length = family.taps)
    (hn : Size.mul dst.width (scratchRows dst tapsY.length) = .ok needed)
    (hroom : needed ≤ tmp.size)
    (hmid0 : Plane.new? (tmp.extract 0 needed) dst.width dst.width (scratchRows dst tapsY.length) =
      .ok mid0)
    (hE : pass .horizontal family true false clip above mid0 tapsX = .ok (mid, reads)) :
    ∃ r, (Window.new? mid.data dst.width ((tapsY.length / 2 - 1) * dst.width) >>= fun window =>
      pass .vertical family false last clip window dst tapsY) = .ok r := by
  have h2 := two_le_taps family
  obtain ⟨hlt, rfl⟩ := Size.mul_ok_iff.mp hn
  obtain ⟨-, -, -, -, rfl⟩ := Plane.new?_eq_ok.mp hmid0
  obtain ⟨-, start, hs, hr⟩ := pass_horizontal_eq_ok_iff.mp hE
  obtain ⟨rfl, -⟩ := Prod.mk.inj hr
  obtain ⟨hfit, hrows⟩ :=
    scratchRows_of_fits (Window.support_eq_ok_iff.mp hs).2.2.1 (by simp only; omega) (by omega)
  -- The scratch block holds exactly `width × rows` samples, more than `half` rows of them.
  have hsize : (Plane.fill ⟨tmp.extract 0 (dst.width * scratchRows dst tapsY.length), dst.width,
      dst.width, scratchRows dst tapsY.length⟩ fun x j => passValue family true false clip tapsX
        fun i => above.sample start (x + i) j).data.size =
      dst.width * (dst.height + tapsY.length - 1) := by
    rw [hrows] at hroom
    simp only [Plane.size_fill, Array.size_extract, hrows]
    omega
  have horigin : (tapsY.length / 2 - 1) * dst.width <
      dst.width * (dst.height + tapsY.length - 1) := by
    rw [Nat.mul_comm]
    exact Nat.mul_lt_mul_of_pos_left (by omega) hw
  rw [Window.new?_eq_ok.mpr ⟨hw, by rw [hsize]; exact horigin, rfl⟩, ok_bind]
  exact ⟨_, pass_vertical_eq_ok_iff.mpr ⟨hfit, 0,
    support_scratch hw (by omega) hsize.ge (hrows ▸ hlt), rfl⟩⟩

section Settles

variable {family : TapFamily} {clip : ClipRange} {src : Window} {tapsX tapsY : List Int}
  {last : Bool} {fr : Frame}

theorem separableRun_eq_settle (hw : 0 < fr.dst.width) (hX : 2 ≤ tapsX.length)
    (hN : tapsY.length = family.taps) :
    separableRun family clip src tapsX tapsY last fr =
      settle (separable family clip src fr.dst tapsX tapsY last fr.tmp) fr := by
  rcases separableRun_cases family clip src tapsX tapsY last fr with
    h | ⟨e, needed, above, mid0, mid, reads, hn, hroom, -, hmid0, hE, htail, -, -⟩
  · exact h
  · obtain ⟨r, hr⟩ := vertical_after_horizontal_ok last hw hX hN hn hroom hmid0 hE
    rw [hr] at htail
    cases htail

theorem filter2dRun_eq_settle {c : Component} {v : FilterVariant} {fracX fracY : Nat}
    (hw : 0 < fr.dst.width) :
    filter2dRun c v clip src fracX fracY last fr =
      settle (filter2d c v clip src fr.dst fracX fracY last fr.tmp) fr := by
  rcases filter2dRun_cases c v clip src fracX fracY last fr with h | ⟨_, _, hX, hY, hr, hp⟩
  · exact h
  · have hXa := (Taps.select_admissible hX).length_eq
    rw [hr, hp, separableRun_eq_settle hw (by rw [hXa]; exact two_le_taps _)
      (Taps.select_admissible hY).length_eq]

end Settles

/-! ## The region a call reads -/

def reach (taps : List Int) : Nat := if Taps.isIdentity taps then 1 else taps.length

def axisRegion (dir : Direction) (src : Window) (dst : Plane) (n : Nat) : ReadRegion :=
  match dir with
  | .horizontal => src.supportRegion dst.width dst.height n 1
  | .vertical => src.supportRegion dst.width dst.height 1 n

/-- `call` reads from `src` only the region `reg`, which lies inside the plane and ends at an
index that is a size: on every window that agrees with `src` there it gives `res` again. -/
structure ReadsOnly {α : Type} (call : Window → Except Fault α) (src : Window) (reg : ReadRegion)
    (res : α) : Prop where
  inPlane : reg.InPlane src.data.size
  extent_lt : reg.start + ((reg.height - 1) * reg.stride + reg.width) < Size.bound
  agree : ∀ src', src.AgreeOn src' reg → call src' = .ok res

namespace ReadsOnly

variable {α β : Type} {call : Window → Except Fault α} {src : Window} {reg : ReadRegion}
  {res : α}

theorem of_support {left above W H start : Nat} (hs : src.support left above W H = .ok start)
    (hagree : ∀ src', src.AgreeOn src' ⟨start, src.stride, W, H⟩ → call src' = .ok res) :
    ReadsOnly call src ⟨start, src.stride, W, H⟩ res :=
  ⟨Window.support_inPlane hs, Window.support_extent_lt hs, hagree⟩

theorem bind (h : ReadsOnly call src reg res) {f : α → Except Fault β} {res' : β}
    (hf : f res = .ok res') : ReadsOnly (fun s => call s >>= f) src reg res' := by
  refine ⟨h.inPlane, h.extent_lt, fun src' ha => ?_⟩
  rw [h.agree src' ha, ok_bind]
  exact hf

theorem shortcut {call : Window → Except Fault (Plane × List ReadRegion)}
    {f : Plane × List ReadRegion → Except Fault Outcome} {tmp : Array Int} {o : Outcome}
    (hcall : ∀ r, call src = .ok r → ReadsOnly call src reg r ∧ r.2 = [reg])
    (hf : ∀ d rs, f (d, rs) = .ok ⟨d, tmp, rs⟩) (h : call src >>= f = .ok o) :
    ReadsOnly (fun s => call s >>= f) src reg o ∧ o.reads = [reg] := by
  obtain ⟨⟨d, rs⟩, hr, ho⟩ := bind_eq_ok.mp h
  rw [hf] at ho
  cases ho
  obtain ⟨hro, hreads⟩ := hcall _ hr
  exact ⟨hro.bind (hf d rs), hreads⟩

end ReadsOnly

section Passes

variable {family : TapFamily} {first last : Bool} {clip : ClipRange} {src : Window}
  {dst : Plane} {taps : List Int} {r : Plane × List ReadRegion}

theorem pass_readsOnly (dir : Direction) (h : pass dir family first last clip src dst taps = .ok r)
    (hw : 0 < dst.width) (hn : 0 < taps.length) :
    ReadsOnly (fun s => pass dir family first last clip s dst taps) src
        (axisRegion dir src dst taps.length) r ∧
      r.2 = if first then [axisRegion dir src dst taps.length] else [] := by
  cases dir with
  | horizontal =>
    obtain ⟨hsz, start, hs, rfl⟩ := pass_horizontal_eq_ok_iff.mp h
    have hreg : axisRegion .horizontal src dst taps.length =
        ⟨start, src.stride, dst.width + taps.length - 1, dst.height⟩ := by
      simp [axisRegion, Window.supportRegion, Window.support_start hs]
    rw [hreg]
    refine ⟨.of_support hs fun src' ha => ?_, rfl⟩
    refine pass_horizontal_eq_ok_iff.mpr
      ⟨hsz, start, Window.support_of_agreeOn hs (by omega) ha, ?_⟩
    rw [ha.stride_eq]
    refine Prod.ext (Plane.fill_congr _ fun x hx y hy => ?_) rfl
    exact passValue_congr (length_coeffs _ _) fun i hi => (ha.sample (by omega) hy).symm
  | vertical =>
    obtain ⟨hsz, start, hs, rfl⟩ := pass_vertical_eq_ok_iff.mp h
    have hreg : axisRegion .vertical src dst taps.length =
        ⟨start, src.stride, dst.width, dst.height + taps.length - 1⟩ := by
      simp [axisRegion, Window.supportRegion, Window.support_start hs]
    rw [hreg]
    refine ⟨.of_support hs fun src' ha => ?_, rfl⟩
    refine pass_vertical_eq_ok_iff.mpr ⟨hsz, start, Window.support_of_agreeOn hs hw ha, ?_⟩
    rw [ha.stride_eq]
    refine Prod.ext (Plane.fill_congr _ fun x hx y hy => ?_) rfl
    exact passValue_congr (length_coeffs _ _) fun k hk => (ha.sample hx (by omega)).symm

theorem copy_readsOnly {refine : Bool} (h : copy clip src dst first last refine = .ok r)
    (hw : 0 < dst.width) :
    ReadsOnly (fun s => copy clip s dst first last refine) src
        (src.supportRegion dst.width dst.height 1 1) r ∧
      r.2 = if first then [src.supportRegion dst.width dst.height 1 1] else [] := by
  obtain ⟨start, hs, rfl⟩ := copy_eq_ok_iff.mp h
  have hreg : src.supportRegion dst.width dst.height 1 1 =
      ⟨start, src.stride, dst.width, dst.height⟩ := by
    simp [Window.supportRegion, Window.support_start hs]
  rw [hreg]
  refine ⟨.of_support hs fun src' ha => ?_, rfl⟩
  refine copy_eq_ok_iff.mpr ⟨start, Window.support_of_agreeOn hs hw ha, ?_⟩
  rw [ha.stride_eq]
  exact Prod.ext (Plane.fill_congr _ fun x hx y hy => by rw [ha.sample hx hy]) rfl

end Passes

theorem filterAxis_readsOnly {dir : Direction} {comp : Component} {variant : FilterVariant}
    {clip : ClipRange} {src : Window} {dst : Plane} {frac : Nat} {first last : Bool}
    {r : Plane × List ReadRegion}
    (h : filterAxis dir comp variant clip src dst frac first last = .ok r) (hw : 0 < dst.width) :
    ∃ taps, Taps.select variant comp frac = .ok taps ∧
      ReadsOnly (fun s => filterAxis dir comp variant clip s dst frac first last) src
        (axisRegion dir src dst (reach taps)) r ∧
      r.2 = if first then [axisRegion dir src dst (reach taps)] else [] := by
  unfold filterAxis at h
  obtain ⟨u, hc, h⟩ := bind_eq_ok.mp h
  obtain ⟨taps, ht, h⟩ := bind_eq_ok.mp h
  refine ⟨taps, liftM_reject_eq_ok.mp ht, ?_⟩
  -- On any window the call makes the same checks and takes the same path.
  have hcall : ∀ s, filterAxis dir comp variant clip s dst frac first last =
      if Taps.isIdentity taps then
        copy clip s dst first last (variant.family comp.isLuma == .twoRefine)
      else pass dir (variant.family comp.isLuma) first last clip s dst taps := by
    intro s
    simp only [filterAxis, hc, ht, ok_bind]
  simp only [hcall]
  by_cases hid : Taps.isIdentity taps
  · have hreg :
        axisRegion dir src dst (reach taps) = src.supportRegion dst.width dst.height 1 1 := by
      cases dir <;> simp [axisRegion, reach, hid]
    rw [if_pos hid] at h
    simp only [hid, if_true, hreg]
    exact copy_readsOnly h hw
  · have hlen := (Taps.select_admissible (liftM_reject_eq_ok.mp ht)).length_eq
    have h2 := two_le_taps (variant.family comp.isLuma)
    rw [if_neg hid] at h
    simp only [hid, reach, if_false, Bool.false_eq_true]
    exact pass_readsOnly dir h hw (by omega)

section General

variable {family : TapFamily} {clip : ClipRange} {src : Window} {dst : Plane}
  {tapsX tapsY : List Int} {last : Bool} {tmp : Array Int}

theorem separableFront_readsOnly {f : Plane × List ReadRegion × Window × Nat}
    (h : separableFront family clip src dst tapsX tapsY tmp = .ok f) (hX : 2 ≤ tapsX.length)
    (hY : 0 < tapsY.length) :
    ReadsOnly (fun s => separableFront family clip s dst tapsX tapsY tmp) src
        (src.supportRegion dst.width dst.height tapsX.length tapsY.length) f ∧
      f.2.1 = [src.supportRegion dst.width dst.height tapsX.length tapsY.length] := by
  obtain ⟨mid, reads, window, needed⟩ := f
  obtain ⟨hneeded, hn, htmp, hrows0, hwX, hw, hhalf, above, start, habove, hs, hmid, rfl, hwin⟩ :=
    separableFront_eq_ok_iff.mp h
  obtain ⟨hback, hle, rfl⟩ := Window.shiftedUp_eq_ok.mp habove
  have hrows := (scratchRows_of_fits (Window.support_eq_ok_iff.mp hs).2.2.1 (by omega) hY).2
  have hreg : src.supportRegion dst.width dst.height tapsX.length tapsY.length =
      ⟨start, src.stride, dst.width + tapsX.length - 1, scratchRows dst tapsY.length⟩ := by
    have hstart := Window.support_start hs
    simp only [Nat.zero_mul, Nat.sub_zero] at hstart
    simp only [Window.supportRegion, hstart, hrows]
  rw [hreg]
  -- The rectangle is supported by the window moved up, over the same buffer at the same stride.
  have hin := Window.support_inPlane hs
  have hext := Window.support_extent_lt hs
  refine ⟨⟨hin, hext, fun src' ha => ?_⟩, rfl⟩
  -- The window over `src'` moved up agrees with the one over `src` on the rectangle.
  have ha' :
      ({ src with origin := src.origin - (tapsY.length / 2 - 1) * src.stride } : Window).AgreeOn
        { src' with origin := src'.origin - (tapsY.length / 2 - 1) * src'.stride }
        ⟨start, src.stride, dst.width + tapsX.length - 1, scratchRows dst tapsY.length⟩ :=
    ⟨ha.stride_eq, by simp only [ha.origin_eq, ha.stride_eq], ha.sample_eq⟩
  refine separableFront_eq_ok_iff.mpr ⟨hneeded, hn, htmp, hrows0, hwX, hw, hhalf, _, start,
    Window.shiftedUp_eq_ok.mpr ⟨by rw [ha.stride_eq]; exact hback,
      by rw [ha.stride_eq, ha.origin_eq]; exact hle, rfl⟩,
    Window.support_of_agreeOn hs (by omega) ha', ?_, by rw [ha.stride_eq], hwin⟩
  rw [hmid]
  refine Plane.fill_congr _ fun x hx y hy => ?_
  simp only at hx hy
  exact passValue_congr (length_coeffs _ _) fun i hi => (ha'.sample (by omega) hy).symm

theorem separable_readsOnly {o : Outcome}
    (h : separable family clip src dst tapsX tapsY last tmp = .ok o) (hX : 2 ≤ tapsX.length)
    (hY : 0 < tapsY.length) :
    ReadsOnly (fun s => separable family clip s dst tapsX tapsY last tmp) src
        (src.supportRegion dst.width dst.height tapsX.length tapsY.length) o ∧
      o.reads = [src.supportRegion dst.width dst.height tapsX.length tapsY.length] := by
  rw [separable_eq] at h
  obtain ⟨⟨mid, reads, window, needed⟩, hf, hv⟩ := bind_eq_ok.mp h
  obtain ⟨hro, hreads⟩ := separableFront_readsOnly hf hX hY
  simp only [separable_eq]
  refine ⟨hro.bind hv, ?_⟩
  obtain ⟨⟨d, rs⟩, -, hv⟩ := bind_eq_ok.mp hv
  simp only [pure, Except.pure, Except.ok.injEq] at hv
  rw [← hv]
  exact hreads

end General

theorem filter2d_readsOnly {c : Component} {v : FilterVariant} {clip : ClipRange} {src : Window}
    {dst : Plane} {fracX fracY : Nat} {last : Bool} {tmp : Array Int} {o : Outcome}
    (h : filter2d c v clip src dst fracX fracY last tmp = .ok o) (hw : 0 < dst.width) :
    ∃ tapsX tapsY, Taps.select v c fracX = .ok tapsX ∧ Taps.select v c fracY = .ok tapsY ∧
      ReadsOnly (fun s => filter2d c v clip s dst fracX fracY last tmp) src
        (src.supportRegion dst.width dst.height (reach tapsX) (reach tapsY)) o ∧
      o.reads = [src.supportRegion dst.width dst.height (reach tapsX) (reach tapsY)] := by
  unfold filter2d at h
  obtain ⟨u, hc, h⟩ := bind_eq_ok.mp h
  obtain ⟨tapsX, hX, h⟩ := bind_eq_ok.mp h
  obtain ⟨tapsY, hY, h⟩ := bind_eq_ok.mp h
  refine ⟨tapsX, tapsY, liftM_reject_eq_ok.mp hX, liftM_reject_eq_ok.mp hY, ?_⟩
  have hXa := (Taps.select_admissible (liftM_reject_eq_ok.mp hX)).length_eq
  have hYa := (Taps.select_admissible (liftM_reject_eq_ok.mp hY)).length_eq
  have h2 := two_le_taps (v.family c.isLuma)
  simp only [filter2d, hc, hX, hY, ok_bind]
  -- The path is picked by the taps alone, so the call on any window takes the same one.
  cases hidX : Taps.isIdentity tapsX <;> cases hidY : Taps.isIdentity tapsY <;>
    simp only [hidX, hidY] at h ⊢ <;>
    simp only [reach, hidX, hidY, if_true, if_false, Bool.false_eq_true]
  case false.false => exact separable_readsOnly h (by omega) (by omega)
  case false.true =>
    refine ReadsOnly.shortcut (fun r hr => ?_) (fun _ _ => rfl) h
    simpa [axisRegion] using pass_readsOnly .horizontal hr hw (by omega)
  case true.false =>
    refine ReadsOnly.shortcut (fun r hr => ?_) (fun _ _ => rfl) h
    simpa [axisRegion] using pass_readsOnly .vertical hr hw (by omega)
  case true.true =>
    refine ReadsOnly.shortcut (fun r hr => ?_) (fun _ _ => rfl) h
    simpa using copy_readsOnly hr hw

/-! ## What an observer hears -/

/-- An observer does not change what `run` does on `d` and `t`, after any history of
reports. -/
structure Unobserved (run : Run Unit) (d : Plane) (t : Array Int) : Prop where
  heard_eq : ∀ s, run ⟨d, t, s⟩ = heard s (run ⟨d, t, []⟩)
  error : ∀ e fr', run ⟨d, t, []⟩ = .error e fr' → fr' = ⟨d, t, []⟩

/-- The observer of a call that succeeded is told of `reg` if `told` and of nothing else; the
region is in the plane and decides the call. -/
structure Hears (run : Window → Run Unit) (src : Window) (d : Plane) (t : Array Int) (fr' : Frame)
    (reg : ReadRegion) (told : Bool) : Prop where
  seen_eq : fr'.seen = if told then [reg] else []
  inPlane : reg.InPlane src.data.size
  agree : ∀ src', src.AgreeOn src' reg → run src' ⟨d, t, []⟩ = .ok () fr'
  counted : ReadCounter.recordAll {} fr'.seen =
    .ok ⟨fr'.seen.length, (fr'.seen.map fun r => r.width * r.height).sum⟩

theorem Hears.of_settle {run : Window → Run Unit} {call : Window → Except Fault Outcome}
    {src : Window} {d : Plane} {t : Array Int} {reg : ReadRegion} {told : Bool} {o : Outcome}
    (hrun : ∀ s, run s ⟨d, t, []⟩ = settle (call s) ⟨d, t, []⟩) (h : ReadsOnly call src reg o)
    (hreads : o.reads = if told then [reg] else []) :
    Hears run src d t (Frame.commit ⟨d, t, []⟩ o) reg told := by
  have hseen : (Frame.commit ⟨d, t, []⟩ o).seen = if told then [reg] else [] := by
    simp only [Frame.commit, List.nil_append, hreads]
  refine ⟨hseen, h.inPlane, fun src' ha => ?_, ?_⟩
  · rw [hrun, h.agree src' ha]
    rfl
  · have hpos : (1 : Nat) < Size.bound := by decide
    have harea := ReadRegion.area_lt h.inPlane h.extent_lt
    rw [hseen]
    cases told
    · rfl
    · rw [if_pos rfl, ReadCounter.recordAll_eq_ok {} (by decide) (by decide) [reg]
        fun r hr => (List.mem_singleton.mp hr) ▸ harea]
      simp [Nat.mod_eq_of_lt hpos, Nat.mod_eq_of_lt harea]

section Observer

variable {c : Component} {v : FilterVariant} {clip : ClipRange} {src : Window} {d : Plane}
  {t : Array Int} {fr' : Frame}

theorem filterAxisRun_unobserved (dir : Direction) (frac : Nat) (first last : Bool) :
    Unobserved (filterAxisRun dir c v clip src frac first last) d t := by
  refine ⟨filterAxisRun_heard dir c v clip src frac first last d t, fun e fr' h => ?_⟩
  rw [filterAxisRun_eq] at h
  exact (settle_eq_error_iff.mp h).2

theorem filter2dRun_unobserved (fracX fracY : Nat) (last : Bool) (hw : 0 < d.width) :
    Unobserved (filter2dRun c v clip src fracX fracY last) d t := by
  refine ⟨filter2dRun_heard c v clip src fracX fracY last d t, fun e fr' h => ?_⟩
  rw [filter2dRun_eq_settle hw] at h
  exact (settle_eq_error_iff.mp h).2

theorem filterAxisRun_hears {dir : Direction} {frac : Nat} {first last : Bool}
    (hw : 0 < d.width)
    (h : filterAxisRun dir c v clip src frac first last ⟨d, t, []⟩ = .ok () fr') :
    ∃ taps, Taps.select v c frac = .ok taps ∧
      Hears (fun s => filterAxisRun dir c v clip s frac first last) src d t fr'
        (axisRegion dir src d (reach taps)) first := by
  rw [filterAxisRun_eq, settle_eq_ok_iff] at h
  obtain ⟨o, ho, rfl⟩ := h
  obtain ⟨r, hr, ho⟩ := bind_eq_ok.mp ho
  obtain ⟨taps, ht, hro, hreads⟩ := filterAxis_readsOnly hr hw
  simp only [pure, Except.pure, Except.ok.injEq] at ho
  refine ⟨taps, ht, .of_settle (fun s => filterAxisRun_eq _ _ _ _ s _ _ _ _) (hro.bind ?_) ?_⟩
  · simp only [pure, Except.pure, ho]
  · rw [← ho]
    exact hreads

theorem filter2dRun_hears {fracX fracY : Nat} {last : Bool} (hw : 0 < d.width)
    (h : filter2dRun c v clip src fracX fracY last ⟨d, t, []⟩ = .ok () fr') :
    ∃ tapsX tapsY, Taps.select v c fracX = .ok tapsX ∧ Taps.select v c fracY = .ok tapsY ∧
      Hears (fun s => filter2dRun c v clip s fracX fracY last) src d t fr'
        (src.supportRegion d.width d.height (reach tapsX) (reach tapsY)) true := by
  rw [filter2dRun_eq_settle hw, settle_eq_ok_iff] at h
  obtain ⟨o, ho, rfl⟩ := h
  obtain ⟨tapsX, tapsY, hX, hY, hro, hreads⟩ := filter2d_readsOnly ho hw
  exact ⟨tapsX, tapsY, hX, hY, .of_settle (fun s => filter2dRun_eq_settle hw) hro hreads⟩

/-- An observer changes nothing a call does, and hears exactly the supports of its first
passes. -/
theorem observer_hears_first_pass_support (d : Plane) (hw : 0 < d.width) :
    (∀ (dir : Direction) (c : Component) (v : FilterVariant) (clip : ClipRange) (src : Window)
        (frac : Nat) (first last : Bool) (t : Array Int),
      Unobserved (filterAxisRun dir c v clip src frac first last) d t ∧
      ∀ fr', filterAxisRun dir c v clip src frac first last ⟨d, t, []⟩ = .ok () fr' →
        ∃ taps, Taps.select v c frac = .ok taps ∧
          Hears (fun s => filterAxisRun dir c v clip s frac first last) src d t fr'
            (axisRegion dir src d (reach taps)) first) ∧
    ∀ (c : Component) (v : FilterVariant) (clip : ClipRange) (src : Window) (fracX fracY : Nat)
        (last : Bool) (t : Array Int),
      Unobserved (filter2dRun c v clip src fracX fracY last) d t ∧
      ∀ fr', filter2dRun c v clip src fracX fracY last ⟨d, t, []⟩ = .ok () fr' →
        ∃ tapsX tapsY, Taps.select v c fracX = .ok tapsX ∧ Taps.select v c fracY = .ok tapsY ∧
          Hears (fun s => filter2dRun c v clip s fracX fracY last) src d t fr'
            (src.supportRegion d.width d.height (reach tapsX) (reach tapsY)) true :=
  ⟨fun dir _ _ _ _ frac first last _ =>
      ⟨filterAxisRun_unobserved dir frac first last, fun _ h => filterAxisRun_hears hw h⟩,
    fun _ _ _ _ fracX fracY last _ =>
      ⟨filter2dRun_unobserved fracX fracY last hw, fun _ h => filter2dRun_hears hw h⟩⟩

theorem observer_hears_first_pass_support_on_unit :
    0 < (⟨#[0], 1, 1, 1⟩ : Plane).width ∧
    (∀ (dir : Direction) (c : Component) (v : FilterVariant) (clip : ClipRange) (src : Window)
        (frac : Nat) (first last : Bool) (t : Array Int),
      Unobserved (filterAxisRun dir c v clip src frac first last) ⟨#[0], 1, 1, 1⟩ t ∧
      ∀ fr', filterAxisRun dir c v clip src frac first last ⟨⟨#[0], 1, 1, 1⟩, t, []⟩ = .ok () fr' →
        ∃ taps, Taps.select v c frac = .ok taps ∧
          Hears (fun s => filterAxisRun dir c v clip s frac first last) src ⟨#[0], 1, 1, 1⟩ t fr'
            (axisRegion dir src ⟨#[0], 1, 1, 1⟩ (reach taps)) first) ∧
    ∀ (c : Component) (v : FilterVariant) (clip : ClipRange) (src : Window) (fracX fracY : Nat)
        (last : Bool) (t : Array Int),
      Unobserved (filter2dRun c v clip src fracX fracY last) ⟨#[0], 1, 1, 1⟩ t ∧
      ∀ fr', filter2dRun c v clip src fracX fracY last ⟨⟨#[0], 1, 1, 1⟩, t, []⟩ = .ok () fr' →
        ∃ tapsX tapsY, Taps.select v c fracX = .ok tapsX ∧ Taps.select v c fracY = .ok tapsY ∧
          Hears (fun s => filter2dRun c v clip s fracX fracY last) src ⟨#[0], 1, 1, 1⟩ t fr'
            (src.supportRegion 1 1 (reach tapsX) (reach tapsY)) true :=
  ⟨by decide, observer_hears_first_pass_support _ (by decide)⟩

end Observer

end Interp

end InterPred
