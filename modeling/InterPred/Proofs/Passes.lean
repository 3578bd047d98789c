import Mathlib
import InterPred.Proofs.Taps
import InterPred.Proofs.Rounding
import InterPred.Proofs.Layout

/-!
# What a pass writes

A filter pass writes `passValue` at every sample of its block, a copy `copyValue`.
-/

namespace InterPred

/-- The reference sample `X` columns right of and `Y` rows below buffer index `start`. -/
def Window.sample (w : Window) (start X Y : Nat) : Int := w.data.getD (start + Y * w.stride + X) 0

theorem Window.sample_shift (w : Window) (start dx dy X Y : Nat) :
    w.sample (start + dy * w.stride + dx) X Y = w.sample start (X + dx) (Y + dy) := by
  unfold sample
  congr 1
  rw [Nat.add_mul]
  omega

theorem Window.sample_mem {w : Window} {left above W H start X Y : Nat}
    (h : w.support left above W H = .ok start) (hX : X < W) (hY : Y < H) :
    w.sample start X Y ∈ w.data := by
  obtain ⟨-, -, hfit, rfl⟩ := Window.support_eq_ok_iff.mp h
  have hi := Window.Fits.index_lt hfit hX hY
  have hindex : (w.row - above) * w.stride + (w.col - left) + Y * w.stride + X =
      (w.row - above + Y) * w.stride + (w.col - left + X) := by
    rw [Nat.add_mul]
    omega
  rw [sample, hindex, Array.getD_eq_getD_getElem?, Array.getElem?_eq_getElem hi, Option.getD_some]
  exact Array.getElem_mem hi

namespace Interp

open Taps

/-! ## The value of one output sample -/

def coeffs (family : TapFamily) (taps : List Int) : List Int :=
  match family with
  | .twoRefine => refineCoeffs taps
  | _ => taps

def finish (family : TapFamily) (first last : Bool) (clip : ClipRange) (v : Int) : Int :=
  match family with
  | .twoRefine => toStored ((refineRounding clip.bitDepth first).apply v)
  | _ => storeFor clip last ((filterRounding clip.bitDepth first last).apply v)

/-- The sample a pass stores for an output whose taps read `f 0, f 1, …`. -/
def passValue (family : TapFamily) (first last : Bool) (clip : ClipRange) (taps : List Int)
    (f : Nat → Int) : Int :=
  finish family first last clip (weigh f (coeffs family taps))

def copyValue (first last refine : Bool) (clip : ClipRange) (s : Int) : Int :=
  if refine && first && !last then refineCopySample clip.bitDepth s else copySample clip first last s

def tapStep (dir : Direction) (stride : Nat) : Nat :=
  match dir with
  | .horizontal => 1
  | .vertical => stride

theorem passValue_congr {family : TapFamily} {first last : Bool} {clip : ClipRange}
    {taps : List Int} {f g : Nat → Int} (hlen : (coeffs family taps).length = taps.length)
    (h : ∀ k < taps.length, f k = g k) :
    passValue family first last clip taps f = passValue family first last clip taps g := by
  unfold passValue
  rw [weigh_congr _ fun k hk => h k (hlen ▸ hk)]

theorem length_coeffs (family : TapFamily) (taps : List Int) :
    (coeffs family taps).length = taps.length := by
  cases family <;> simp [coeffs, refineCoeffs]

theorem filterPass_eq_fill (family : TapFamily) (dir : Direction) (first last : Bool)
    (clip : ClipRange) (src : Array Int) (start srcStride : Nat) (dst : Plane) (taps : List Int) :
    filterPass family dir first last clip src start srcStride dst taps =
      dst.fill fun x y => passValue family first last clip taps fun k =>
        src.getD (start + y * srcStride + x + k * tapStep dir srcStride) 0 := by
  cases family <;> cases dir <;>
    simp [filterPass, convolve, passValue, finish, coeffs, tapStep, tapSum_eq_weigh]

theorem copyPass_eq_fill (first last refine : Bool) (clip : ClipRange) (src : Array Int)
    (start srcStride : Nat) (dst : Plane) :
    copyPass first last refine clip src start srcStride dst =
      dst.fill fun x y => copyValue first last refine clip
        (src.getD (start + y * srcStride + x) 0) := by
  unfold copyPass copyValue
  split <;> rfl

/-! ## When a pass succeeds -/

theorem pass_horizontal_eq_ok_iff {family : TapFamily} {first last : Bool} {clip : ClipRange}
    {src : Window} {dst : Plane} {taps : List Int} {r : Plane × List ReadRegion} :
    pass .horizontal family first last clip src dst taps = .ok r ↔
      dst.width + taps.length < Size.bound ∧ ∃ start,
        src.support (taps.length / 2 - 1) 0 (dst.width + taps.length - 1) dst.height = .ok start ∧
        r = (dst.fill (fun x y => passValue family first last clip taps fun i =>
          src.sample start (x + i) y),
          if first then [⟨start, src.stride, dst.width + taps.length - 1, dst.height⟩]
            else []) := by
  simp only [pass, bind_eq_ok, liftM_eq_ok, Size.add_ok_iff, pure, Except.pure, Except.ok.injEq,
    filterPass_eq_fill, tapStep, Window.sample]
  constructor
  · rintro ⟨w, ⟨hw, rfl⟩, _, rfl, start, hs, rfl⟩
    refine ⟨hw, start, hs, Prod.ext (Plane.fill_congr _ fun x _ y _ => ?_) rfl⟩
    exact passValue_congr (length_coeffs _ _) fun k _ => congrArg (src.data.getD · 0) (by omega)
  · rintro ⟨hw, start, hs, rfl⟩
    refine ⟨_, ⟨hw, rfl⟩, _, rfl, start, hs,
      Prod.ext (Plane.fill_congr _ fun x _ y _ => ?_) rfl⟩
    exact passValue_congr (length_coeffs _ _) fun k _ => congrArg (src.data.getD · 0) (by omega)

theorem pass_vertical_eq_ok_iff {family : TapFamily} {first last : Bool} {clip : ClipRange}
    {src : Window} {dst : Plane} {taps : List Int} {r : Plane × List ReadRegion} :
    pass .vertical family first last clip src dst taps = .ok r ↔
      dst.height + taps.length < Size.bound ∧ ∃ start,
        src.support 0 (taps.length / 2 - 1) dst.width (dst.height + taps.length - 1) = .ok start ∧
        r = (dst.fill (fun x y => passValue family first last clip taps fun k =>
          src.sample start x (y + k)),
          if first then [⟨start, src.stride, dst.width, dst.height + taps.length - 1⟩]
            else []) := by
  simp only [pass, bind_eq_ok, liftM_eq_ok, Size.add_ok_iff, pure, Except.pure, Except.ok.injEq,
    filterPass_eq_fill, tapStep, Window.sample]
  constructor
  · rintro ⟨h, ⟨hh, rfl⟩, _, rfl, start, hs, rfl⟩
    refine ⟨hh, start, hs, Prod.ext (Plane.fill_congr _ fun x _ y _ => ?_) rfl⟩
    exact passValue_congr (length_coeffs _ _) fun k _ =>
      congrArg (src.data.getD · 0) (by rw [Nat.add_mul]; omega)
  · rintro ⟨hh, start, hs, rfl⟩
    refine ⟨_, ⟨hh, rfl⟩, _, rfl, start, hs,
      Prod.ext (Plane.fill_congr _ fun x _ y _ => ?_) rfl⟩
    exact passValue_congr (length_coeffs _ _) fun k _ =>
      congrArg (src.data.getD · 0) (by rw [Nat.add_mul]; omega)

theorem copy_eq_ok_iff {clip : ClipRange} {src : Window} {dst : Plane} {first last refine : Bool}
    {r : Plane × List ReadRegion} :
    copy clip src dst first last refine = .ok r ↔ ∃ start,
      src.support 0 0 dst.width dst.height = .ok start ∧
      r = (dst.fill (fun x y => copyValue first last refine clip (src.sample start x y)),
        if first then [⟨start, src.stride, dst.width, dst.height⟩] else []) := by
  simp only [copy, bind_eq_ok, pure, Except.pure, Except.ok.injEq, copyPass_eq_fill,
    Window.sample]
  constructor <;> rintro ⟨start, hs, h⟩ <;> exact ⟨start, hs, h.symm⟩

end Interp

end InterPred
