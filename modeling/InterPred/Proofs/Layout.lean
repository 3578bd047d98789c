import Mathlib
import InterPred.Interp

/-!
# Rectangles inside planes

`support_eq_ok_iff` says in one formula when `Window.support` succeeds, and `fill` writes
exactly the block of a `Valid` plane.
-/

namespace InterPred

/-! ## Taking checked computations apart -/

section Checks

variable {ε α β : Type}

theorem bind_eq_ok {x : Except ε α} {f : α → Except ε β} {b : β} :
    x >>= f = .ok b ↔ ∃ a, x = .ok a ∧ f a = .ok b := by
  cases x <;> simp [bind, Except.bind]

theorem ok_bind (a : α) (f : α → Except ε β) : (Except.ok a >>= f) = f a := rfl

theorem mapError_eq_ok {ε' : Type} {f : ε → ε'} {x : Except ε α} {a : α} :
    x.mapError f = .ok a ↔ x = .ok a := by
  cases x <;> simp [Except.mapError]

theorem liftM_eq_ok {x : Except Overflow α} {a : α} :
    (liftM x : Except Fault α) = .ok a ↔ x = .ok a := mapError_eq_ok

theorem liftM_reject_eq_ok {x : Except PredError α} {a : α} :
    (liftM x : Except Fault α) = .ok a ↔ x = .ok a := mapError_eq_ok

theorem liftM_ok (a : α) : (liftM (Except.ok a : Except PredError α) : Except Fault α) = .ok a :=
  rfl

theorem reject_bind (e : PredError) (f : α → Except Fault β) : reject e >>= f = reject e := rfl

theorem ite_reject_eq_ok {c : Prop} [Decidable c] {e : PredError} {y : Except Fault α} {b : α} :
    (if c then reject e else y) = .ok b ↔ ¬c ∧ y = .ok b := by
  by_cases h : c <;> simp [h, reject]

theorem Size.sub_ok_iff {a b c : Nat} : Size.sub a b = .ok c ↔ b ≤ a ∧ a - b = c := by
  unfold Size.sub
  by_cases h : b ≤ a <;> simp [h]

theorem planeExtent_eq_ok {stride width height e : Nat} :
    planeExtent stride width height = .ok e ↔
      0 < height ∧ (height - 1) * stride + width < Size.bound ∧
        (height - 1) * stride + width = e := by
  simp only [planeExtent, bind_eq_ok, Size.sub_ok_iff, Size.mul_ok_iff, Size.add_ok_iff]
  constructor
  · rintro ⟨r, ⟨h1, rfl⟩, k, ⟨h2, rfl⟩, h3, rfl⟩
    exact ⟨by omega, h3, rfl⟩
  · rintro ⟨h1, h2, rfl⟩
    exact ⟨height - 1, ⟨by omega, rfl⟩, _, ⟨by omega, rfl⟩, h2, rfl⟩

end Checks

/-! ## Rectangles of a reference plane -/

namespace Window

/-- The `W × H` rectangle at column `X` and row `Y` lies inside the plane without wrapping a
row. -/
def Fits (w : Window) (X Y W H : Nat) : Prop :=
  0 < H ∧ X + W ≤ w.stride ∧ Y * w.stride + X + ((H - 1) * w.stride + W) < Size.bound ∧
    Y * w.stride + X + ((H - 1) * w.stride + W) ≤ w.data.size

/-- `support` succeeds exactly on a fitting rectangle, and returns its first sample. -/
theorem support_eq_ok_iff {w : Window} {left above W H start : Nat} :
    w.support left above W H = .ok start ↔
      left ≤ w.col ∧ above ≤ w.row ∧ w.Fits (w.col - left) (w.row - above) W H ∧
        start = (w.row - above) * w.stride + (w.col - left) := by
  simp only [support, reject_bind, ite_reject_eq_ok, bind_eq_ok, liftM_eq_ok, Size.add_ok_iff,
    planeExtent_eq_ok, pure, Except.pure, Except.ok.injEq, Fits]
  constructor
  · rintro ⟨h1, right, ⟨h2, rfl⟩, h3, extent, ⟨h4, h5, rfl⟩, last, ⟨h6, rfl⟩, h7, rfl⟩
    omega
  · rintro ⟨h1, h2, ⟨h3, h4, h5, h6⟩, rfl⟩
    refine ⟨by omega, _, ⟨by omega, rfl⟩, by omega, _, ⟨h3, by omega, rfl⟩, _, ⟨by omega, rfl⟩,
      by omega, by omega⟩

theorem Fits.mono {w : Window} {X Y W H X' Y' W' H' : Nat} (h : w.Fits X Y W H)
    (hW : X' + W' ≤ X + W) (hH : Y' + H' ≤ Y + H) (hH' : 0 < H') :
    w.Fits X' Y' W' H' := by
  obtain ⟨h0, h1, h2, h3⟩ := h
  -- The last row of the inner rectangle is at most the last row of the outer one.
  have hrows : Y' * w.stride + (H' - 1) * w.stride ≤ Y * w.stride + (H - 1) * w.stride := by
    rw [← Nat.add_mul, ← Nat.add_mul]
    exact Nat.mul_le_mul_right _ (by omega)
  exact ⟨hH', by omega, by omega, by omega⟩

theorem support_inner {w : Window} {left above W H start left' above' W' H' : Nat}
    (h : w.support left above W H = .ok start) (hl : left' ≤ left) (ha : above' ≤ above)
    (hW : left - left' + W' ≤ W) (hH : above - above' + H' ≤ H) (hH' : 0 < H') :
    w.support left' above' W' H' = .ok (start + (above - above') * w.stride + (left - left')) := by
  obtain ⟨hl0, ha0, hfit, rfl⟩ := support_eq_ok_iff.mp h
  have hrow : (w.row - above') * w.stride =
    (w.row - above) * w.stride + (above - above') * w.stride := by
    rw [← Nat.add_mul]
    congr 1
    omega
  refine support_eq_ok_iff.mpr ⟨by omega, by omega, hfit.mono (by omega) (by omega) hH', ?_⟩
  omega

theorem Fits.index_lt {w : Window} {X Y W H : Nat} (h : w.Fits X Y W H) {x y : Nat}
    (hx : x < W) (hy : y < H) : (Y + y) * w.stride + (X + x) < w.data.size := by
  obtain ⟨h0, h1, h2, h3⟩ := h
  have hrow : (Y + y) * w.stride ≤ Y * w.stride + (H - 1) * w.stride := by
    rw [← Nat.add_mul]
    exact Nat.mul_le_mul_right _ (by omega)
  omega

theorem origin_eq (w : Window) : w.origin = w.row * w.stride + w.col := by
  rw [row, col, Nat.mul_comm]
  exact (Nat.div_add_mod w.origin w.stride).symm

theorem col_lt {w : Window} (h : 0 < w.stride) : w.col < w.stride := Nat.mod_lt _ h

theorem mod_div_of_eq {o S X Y : Nat} (hX : X < S) (h : o = Y * S + X) : o % S = X ∧ o / S = Y := by
  have hs : 0 < S := by omega
  subst h
  rw [Nat.mul_comm Y, Nat.mul_add_mod, Nat.mod_eq_of_lt hX, Nat.mul_add_div hs, Nat.div_eq_of_lt hX,
    Nat.add_zero]
  exact ⟨rfl, rfl⟩

theorem shiftedUp_eq_ok {w w' : Window} {rows : Nat} :
    w.shiftedUp rows = .ok w' ↔
      rows * w.stride < Size.bound ∧ rows * w.stride ≤ w.origin ∧
        w' = { w with origin := w.origin - rows * w.stride } := by
  simp only [shiftedUp, bind_eq_ok, liftM_eq_ok, Size.mul_ok_iff, reject_bind, ite_reject_eq_ok,
    pure, Except.pure, Except.ok.injEq]
  constructor
  · rintro ⟨back, ⟨h1, rfl⟩, h2, rfl⟩
    exact ⟨h1, by omega, rfl⟩
  · rintro ⟨h1, h2, rfl⟩
    exact ⟨_, ⟨h1, rfl⟩, by omega, rfl⟩

theorem col_row_shiftedUp {w w' : Window} {rows : Nat} (h : w.shiftedUp rows = .ok w')
    (hs : 0 < w.stride) (hr : rows ≤ w.row) : w'.col = w.col ∧ w'.row = w.row - rows ∧
      w'.data = w.data ∧ w'.stride = w.stride := by
  obtain ⟨-, -, rfl⟩ := shiftedUp_eq_ok.mp h
  have horigin : w.origin - rows * w.stride = (w.row - rows) * w.stride + w.col := by
    rw [origin_eq w, Nat.sub_mul]
    have : rows * w.stride ≤ w.row * w.stride := Nat.mul_le_mul_right _ hr
    omega
  obtain ⟨hcol, hrow⟩ := mod_div_of_eq (col_lt hs) horigin
  exact ⟨hcol, hrow, rfl, rfl⟩

theorem support_shiftedUp {w : Window} {left rows W H start : Nat}
    (h : w.support left rows W H = .ok start) (hW : 0 < W) (hH : rows < H) :
    ∃ w', w.shiftedUp rows = .ok w' ∧ w'.support left 0 W H = .ok start ∧
      w'.data = w.data ∧ w'.stride = w.stride := by
  obtain ⟨hl, hr, hfit, rfl⟩ := support_eq_ok_iff.mp h
  have hS : 0 < w.stride := by have := hfit.2.1; omega
  have hback : rows * w.stride < Size.bound := by
    have : rows * w.stride ≤ (H - 1) * w.stride := Nat.mul_le_mul_right _ (by omega)
    have := hfit.2.2.1
    omega
  have hle : rows * w.stride ≤ w.origin := by
    have : rows * w.stride ≤ w.row * w.stride := Nat.mul_le_mul_right _ hr
    have := origin_eq w
    omega
  have hshift := shiftedUp_eq_ok.mpr ⟨hback, hle, rfl⟩
  obtain ⟨hcol, hrow, -, -⟩ := col_row_shiftedUp hshift hS hr
  refine ⟨_, hshift, support_eq_ok_iff.mpr ⟨hcol ▸ hl, Nat.zero_le _, ?_, ?_⟩, rfl, rfl⟩
  · rw [hcol, hrow, Nat.sub_zero]
    exact hfit
  · rw [hcol, hrow, Nat.sub_zero]

theorem new?_eq_ok {data : Array Int} {stride origin : Nat} {w : Window} :
    Window.new? data stride origin = .ok w ↔
      0 < stride ∧ origin < data.size ∧ w = ⟨data, stride, origin⟩ := by
  unfold Window.new?
  by_cases h1 : stride = 0
  · simp [h1, reject]
  · by_cases h2 : data.size ≤ origin
    · simp [h1, h2, reject]
    · simp only [h1, h2, if_false, pure, Except.pure, Except.ok.injEq]
      constructor
      · rintro rfl
        exact ⟨by omega, by omega, rfl⟩
      · rintro ⟨-, -, rfl⟩
        rfl

end Window

/-! ## Planes -/

namespace Plane

/-- The layout `Plane.new?` accepts: rows fit their stride and the buffer holds every row. -/
def Valid (p : Plane) : Prop :=
  p.width ≤ p.stride ∧ 0 < p.height ∧ (p.height - 1) * p.stride + p.width ≤ p.data.size

theorem new?_eq_ok {data : Array Int} {stride width height : Nat} {p : Plane} :
    Plane.new? data stride width height = .ok p ↔
      width ≤ stride ∧ 0 < height ∧ (height - 1) * stride + width < Size.bound ∧
        (height - 1) * stride + width ≤ data.size ∧ p = ⟨data, stride, width, height⟩ := by
  simp only [Plane.new?, reject_bind, ite_reject_eq_ok, bind_eq_ok, liftM_eq_ok, planeExtent_eq_ok,
    pure, Except.pure, Except.ok.injEq]
  constructor
  · rintro ⟨h1, e, ⟨h2, h3, rfl⟩, h4, rfl⟩
    exact ⟨by omega, h2, h3, by omega, rfl⟩
  · rintro ⟨h1, h2, h3, h4, rfl⟩
    exact ⟨by omega, _, ⟨h2, h3, rfl⟩, by omega, rfl⟩

theorem valid_of_new? {data : Array Int} {stride width height : Nat} {p : Plane}
    (h : Plane.new? data stride width height = .ok p) : p.Valid := by
  obtain ⟨h1, h2, -, h4, rfl⟩ := new?_eq_ok.mp h
  exact ⟨h1, h2, h4⟩

theorem Valid.index_lt {p : Plane} (hp : p.Valid) {x y : Nat} (hx : x < p.width)
    (hy : y < p.height) : p.index x y < p.data.size := by
  obtain ⟨h1, h2, h3⟩ := hp
  have : y * p.stride ≤ (p.height - 1) * p.stride := Nat.mul_le_mul_right _ (by omega)
  unfold index
  omega

@[simp] theorem valid_fill {p : Plane} {f : Nat → Nat → Int} : (p.fill f).Valid ↔ p.Valid := by
  simp [Valid]

theorem get_fill_of_valid {p : Plane} (hp : p.Valid) (f : Nat → Nat → Int) {x y : Nat}
    (hx : x < p.width) (hy : y < p.height) : (p.fill f).get x y = f x y :=
  get_fill p f hp.1 hx hy (hp.index_lt hx hy)

theorem foldl_congr_mem {γ δ : Type} {f g : δ → γ → δ} :
    ∀ (l : List γ) (b : δ), (∀ a ∈ l, ∀ b, f b a = g b a) → l.foldl f b = l.foldl g b := by
  intro l
  induction l with
  | nil => intro b _; rfl
  | cons a l ih =>
    intro b h
    rw [List.foldl_cons, List.foldl_cons, h a List.mem_cons_self b]
    exact ih _ fun a' ha' b' => h a' (List.mem_cons_of_mem a ha') b'

theorem fill_congr (p : Plane) {f g : Nat → Nat → Int}
    (h : ∀ x < p.width, ∀ y < p.height, f x y = g x y) : p.fill f = p.fill g := by
  unfold fill
  congr 1
  refine foldl_congr_mem _ _ fun y hy d => foldl_congr_mem _ _ fun x hx d => ?_
  rw [h x (List.mem_range.mp hx) y (List.mem_range.mp hy)]

theorem fill_fill {p : Plane} (hp : p.Valid) (f g : Nat → Nat → Int) :
    (p.fill f).fill g = p.fill g := by
  have hp' : (p.fill f).Valid := valid_fill.mpr hp
  suffices hdata : ((p.fill f).fill g).data = (p.fill g).data by
    calc (p.fill f).fill g = { p with data := ((p.fill f).fill g).data } := rfl
      _ = { p with data := (p.fill g).data } := by rw [hdata]
      _ = p.fill g := rfl
  apply Array.ext_getElem?
  intro k
  by_cases hk : ∃ x < p.width, ∃ y < p.height, p.index x y = k
  · obtain ⟨x, hx, y, hy, rfl⟩ := hk
    exact (getElem?_fill_index _ g hp'.1 hx hy (hp'.index_lt hx hy)).trans
      (getElem?_fill_index _ g hp.1 hx hy (hp.index_lt hx hy)).symm
  · push Not at hk
    have hk' : ∀ x < (p.fill f).width, ∀ y < (p.fill f).height, (p.fill f).index x y ≠ k := hk
    exact (getElem?_fill_of_forall_ne _ g hk').trans
      ((getElem?_fill_of_forall_ne p f hk).trans (getElem?_fill_of_forall_ne p g hk).symm)

end Plane

end InterPred
