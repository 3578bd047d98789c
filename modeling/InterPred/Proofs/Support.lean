import Mathlib
import InterPred.Proofs.Refusals

/-!
# The support rectangle of a window
-/

namespace InterPred.Window

variable {w : Window}

/-! ## Positions inside a fitting rectangle -/

theorem Fits.position {X Y W H i j : Nat} (h : w.Fits X Y W H) (hi : i < W) (hj : j < H) :
    (Y * w.stride + X + j * w.stride + i) % w.stride = X + i ∧
      (Y * w.stride + X + j * w.stride + i) / w.stride = Y + j ∧
      Y * w.stride + X + j * w.stride + i < w.data.size := by
  have hpos : Y * w.stride + X + j * w.stride + i = (Y + j) * w.stride + (X + i) := by ring
  have hcol : X + i < w.stride := by
    have := h.2.1
    omega
  obtain ⟨hmod, hdiv⟩ := mod_div_of_eq hcol hpos
  exact ⟨hmod, hdiv, hpos ▸ h.index_lt hi hj⟩

/-! ## `support` over a buffer of a size -/

theorem fits_iff_of_size (hsize : w.data.size < Size.bound) {X Y W H : Nat} (hH : 0 < H) :
    w.Fits X Y W H ↔
      X + W ≤ w.stride ∧ Y * w.stride + X + ((H - 1) * w.stride + W) ≤ w.data.size := by
  unfold Fits
  constructor
  · rintro ⟨-, h1, -, h2⟩
    exact ⟨h1, h2⟩
  · rintro ⟨h1, h2⟩
    exact ⟨hH, h1, by omega, h2⟩

theorem support_eq_ok_iff_inPlane (hsize : w.data.size < Size.bound) {left above W H start : Nat}
    (hH : 0 < H) :
    w.support left above W H = .ok start ↔
      w.InPlane left above W H ∧ start = (w.row - above) * w.stride + w.col - left := by
  have hsplit : (w.row - above + (H - 1)) * w.stride =
      (w.row - above) * w.stride + (H - 1) * w.stride := Nat.add_mul _ _ _
  rw [support_eq_ok_iff, fits_iff_of_size hsize hH]
  constructor
  · rintro ⟨hl, ha, ⟨h1, h2⟩, rfl⟩
    exact ⟨⟨hl, ha, h1, by omega⟩, by omega⟩
  · rintro ⟨⟨hl, ha, h1, h2⟩, rfl⟩
    exact ⟨hl, ha, ⟨h1, by omega⟩, by omega⟩

/-! ## Moving a window up -/

theorem shiftedUp_ok_iff (hs : 0 < w.stride) (ho : w.origin < Size.bound) {k : Nat} :
    (∃ w', w.shiftedUp k = .ok w') ↔ k ≤ w.row := by
  have hrow : k * w.stride ≤ w.origin ↔ k ≤ w.row := (Nat.le_div_iff_mul_le hs).symm
  constructor
  · rintro ⟨w', hw'⟩
    exact hrow.mp (shiftedUp_eq_ok.mp hw').2.1
  · intro hk
    have hle := hrow.mpr hk
    exact ⟨_, shiftedUp_eq_ok.mpr ⟨by omega, hle, rfl⟩⟩

theorem shiftedUp_moves (hs : 0 < w.stride) {k : Nat} {w' : Window} (h : w.shiftedUp k = .ok w') :
    w'.origin = w.origin - k * w.stride ∧ w'.col = w.col ∧ w'.row = w.row - k ∧
      w'.data = w.data ∧ w'.stride = w.stride := by
  obtain ⟨-, hle, rfl⟩ := shiftedUp_eq_ok.mp h
  have hk : k ≤ w.row := (Nat.le_div_iff_mul_le hs).mpr hle
  obtain ⟨hcol, hrow, -, -⟩ := col_row_shiftedUp h hs hk
  exact ⟨rfl, hcol, hrow, rfl, rfl⟩

/-! ## The rectangle a window supports -/

/-- `support` succeeds exactly on a rectangle in the plane, and `shiftedUp k` exactly when
the origin has `k` rows above it. -/
structure SupportExact (w : Window) : Prop where
  support_ok_iff : ∀ left above W H start, 0 < H →
    (w.support left above W H = .ok start ↔
      left ≤ w.col ∧ above ≤ w.row ∧ w.col - left + W ≤ w.stride ∧
        (w.row - above) * w.stride + (w.col - left) + (H - 1) * w.stride + W ≤ w.data.size ∧
        start = (w.row - above) * w.stride + w.col - left)
  position : ∀ left above W H start, w.support left above W H = .ok start →
    ∀ i < W, ∀ j < H,
      (start + j * w.stride + i) % w.stride = w.col - left + i ∧
        (start + j * w.stride + i) / w.stride = w.row - above + j ∧
        start + j * w.stride + i < w.data.size
  shiftedUp_ok_iff : ∀ k, (∃ w', w.shiftedUp k = .ok w') ↔ k ≤ w.row
  shiftedUp_moves : ∀ k w', w.shiftedUp k = .ok w' →
    w'.origin = w.origin - k * w.stride ∧ w'.col = w.col ∧ w'.row = w.row - k ∧
      w'.data = w.data ∧ w'.stride = w.stride

/-- `support` computes exactly the rectangle in the plane, and `shiftedUp` moves the origin
up its column. -/
theorem support_is_the_plane_rectangle (w : Window) (hs : 0 < w.stride)
    (ho : w.origin < w.data.size) (hsize : w.data.size < Size.bound) : w.SupportExact where
  support_ok_iff left above W H start hH := by
    have hsplit : (w.row - above + (H - 1)) * w.stride =
        (w.row - above) * w.stride + (H - 1) * w.stride := Nat.add_mul _ _ _
    rw [support_eq_ok_iff_inPlane hsize hH, InPlane]
    constructor
    · rintro ⟨⟨hl, ha, h1, h2⟩, rfl⟩
      exact ⟨hl, ha, h1, by omega, rfl⟩
    · rintro ⟨hl, ha, h1, h2, rfl⟩
      exact ⟨⟨hl, ha, h1, by omega⟩, rfl⟩
  position left above W H start h i hi j hj := by
    obtain ⟨-, -, hfit, rfl⟩ := support_eq_ok_iff.mp h
    exact hfit.position hi hj
  shiftedUp_ok_iff _ := shiftedUp_ok_iff hs (by omega)
  shiftedUp_moves _ _ h := shiftedUp_moves hs h

theorem support_is_the_plane_rectangle_on_two_rows :
    0 < (⟨#[0, 1, 2, 3, 4, 5], 3, 4⟩ : Window).stride ∧
      (⟨#[0, 1, 2, 3, 4, 5], 3, 4⟩ : Window).origin < (#[0, 1, 2, 3, 4, 5] : Array Int).size ∧
      (#[0, 1, 2, 3, 4, 5] : Array Int).size < Size.bound ∧
      (⟨#[0, 1, 2, 3, 4, 5], 3, 4⟩ : Window).SupportExact :=
  ⟨by decide, by decide, by decide,
    support_is_the_plane_rectangle ⟨#[0, 1, 2, 3, 4, 5], 3, 4⟩ (by decide) (by decide) (by decide)⟩

end InterPred.Window
