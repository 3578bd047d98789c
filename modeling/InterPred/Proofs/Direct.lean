import Mathlib
import InterPred.Proofs.Precision

/-!
# At eight bits the 2D path is the direct 2D convolution

At `fb = 6` the first pass keeps every bit of its sum, so the second rounds the full 2D sum
once.
-/

namespace InterPred.Interp

open Taps

/-- The direct 2D convolution with the outer product of two tap sets at `(x, y)`:
`Σ_j Σ_i tapsX[i] * tapsY[j] * ref (x + i) (y + j)`. -/
def outerSum (tapsX tapsY : List Int) (ref : Nat → Nat → Int) (x y : Nat) : Int :=
  ∑ j : Fin tapsY.length, ∑ i : Fin tapsX.length, tapsX[i] * tapsY[j] * ref (x + i) (y + j)

theorem weigh_eq_sum (f : Nat → Int) (cs : List Int) :
    weigh f cs = ∑ k : Fin cs.length, cs[k] * f k := by
  induction cs generalizing f with
  | nil => simp [weigh]
  | cons c cs ih =>
    rw [weigh, ih]
    simp [Fin.sum_univ_succ]

theorem outerSum_eq_weigh (tapsX tapsY : List Int) (ref : Nat → Nat → Int) (x y : Nat) :
    outerSum tapsX tapsY ref x y =
      weigh (fun j => weigh (fun i => ref (x + i) (y + j)) tapsX) tapsY := by
  simp only [outerSum, weigh_eq_sum, Finset.mul_sum]
  refine Finset.sum_congr rfl fun j _ => Finset.sum_congr rfl fun i _ => ?_
  ring

theorem ClipRange.full_ok {d : Nat} {r : ClipRange} (h : ClipRange.full d = .ok r) :
    r.min = 0 ∧ r.max = (pow2 d : Int) - 1 ∧ r.bitDepth = d := by
  unfold ClipRange.full ClipRange.withBounds at h
  split_ifs at h
  cases h
  exact ⟨rfl, rfl, rfl⟩

theorem separableValue_eight {family : TapFamily} {clip : ClipRange} (h8 : clip.bitDepth = 8)
    (hF : family ≠ .twoRefine) {tapsX tapsY : List Int}
    (hX : Admissible family.taps tapsX) (hY : Admissible family.taps tapsY)
    {ref : Nat → Nat → Int} {x y : Nat}
    (hs : ∀ i < family.taps, ∀ k < family.taps, 0 ≤ ref (x + i) (y + k) ∧
      ref (x + i) (y + k) < 256) :
    separableValue family clip tapsX tapsY true ref x y =
      clip.clip ((outerSum tapsX tapsY ref x y + 2048) / 4096) := by
  -- The first pass only removes the bias: its sums are kept whole.
  have hmid : ∀ k < tapsY.length,
      passValue family true false clip tapsX (fun i => ref (x + i) (y + k)) =
        1 * weigh (fun i => ref (x + i) (y + k)) tapsX + -8192 := by
    intro k hk
    have hw := weigh_native_mem (d := 8) hX fun i hi => hs i hi k (hY.length_eq ▸ hk)
    rw [passValue, coeffs_of_ne hF, finish_of_ne hF]
    simp [pow2] at hw
    simp [storeFor, filterRounding, h8, Rounding.apply, internalFracBits, internalPrecision,
      filterPrecision, internalOffset, pow2]
    rw [toStored_of_mem] <;> omega
  rw [separableValue, passValue_congr (length_coeffs _ _) hmid, passValue, coeffs_of_ne hF,
    finish_of_ne hF, weigh_affine, hY.total_eq, outerSum_eq_weigh]
  simp [storeFor, filterRounding, h8, Rounding.apply, internalFracBits, internalPrecision,
    filterPrecision, internalOffset, pow2]
  congr 1
  omega

/-- At eight bits a 2D interpolation to output samples writes the direct convolution with the
outer product of its tap sets, rounded by `2 ^ 12` and clamped to `[0, 255]`. -/
theorem filter2d_eight_bit_direct {c : Component} {v : FilterVariant} {clip : ClipRange}
    {src : Window} {dst : Plane} {fracX fracY : Nat} {tmp : Array Int} {start : Nat}
    (hclip : ClipRange.full 8 = .ok clip) (hv : v ≠ .refine) (hfx : fracX < c.fracPositions)
    (hfy : fracY < c.fracPositions) (hw : 0 < dst.width) (hh : 0 < dst.height)
    (htmp : dst.width * (dst.height + (v.family c.isLuma).taps - 1) ≤ tmp.size)
    (hs : src.support ((v.family c.isLuma).taps / 2 - 1) ((v.family c.isLuma).taps / 2 - 1)
      (dst.width + (v.family c.isLuma).taps - 1) (dst.height + (v.family c.isLuma).taps - 1) =
        .ok start)
    (hsrc : ∀ s ∈ src.data, 0 ≤ s ∧ s ≤ 255) :
    ∃ tapsX tapsY o, select v c fracX = .ok tapsX ∧ select v c fracY = .ok tapsY ∧
      filter2d c v clip src dst fracX fracY true tmp = .ok o ∧
      o.dst = dst.fill fun x y =>
        max 0 (min ((outerSum tapsX tapsY (src.sample start) x y + 2 ^ 11) / 2 ^ 12) 255) := by
  obtain ⟨hmin, hmax, h8⟩ := ClipRange.full_ok hclip
  have hmax' : clip.max = 255 := by rw [hmax]; rfl
  have hrange : ∀ s ∈ src.data, clip.min ≤ s ∧ s ≤ clip.max := by
    rw [hmin, hmax']
    exact hsrc
  have hF := family_ne_twoRefine hv c.isLuma
  obtain ⟨tapsX, hX⟩ := select_ok hfx fun h => absurd h hv
  obtain ⟨tapsY, hY⟩ := select_ok hfy fun h => absurd h hv
  obtain ⟨o, ho, hod⟩ := filter2d_ok_of_support (checkLast_ok fun h => absurd h hF) hX hY
    (fun h => absurd h hF) hw hh htmp hs hrange
  refine ⟨tapsX, tapsY, o, hX, hY, ho, ?_⟩
  rw [hod]
  refine Plane.fill_congr _ fun x hx y hy => ?_
  have hsample := fun i (hi : i < (v.family c.isLuma).taps) k (hk : k < (v.family c.isLuma).taps) =>
    hsrc _ (Window.sample_mem (X := x + i) (Y := y + k) hs (by omega) (by omega))
  rw [separableValue_eight h8 hF (select_admissible hX) (select_admissible hY)
    fun i hi k hk => ⟨(hsample i hi k hk).1, by have := (hsample i hi k hk).2; omega⟩,
    ClipRange.clip, hmin, hmax']
  rfl

theorem filter2d_eight_bit_direct_on_flat :
    ∃ tapsX tapsY o, select .standard .cb 0 = .ok tapsX ∧ select .standard .cb 0 = .ok tapsY ∧
      filter2d .cb .standard ClipRange.eightBit ⟨Array.replicate 16 0, 4, 5⟩ ⟨#[0], 1, 1, 1⟩ 0 0
        true (Array.replicate 4 0) = .ok o ∧
      o.dst = (⟨#[0], 1, 1, 1⟩ : Plane).fill fun x y => max 0
        (min ((outerSum tapsX tapsY ((⟨Array.replicate 16 0, 4, 5⟩ : Window).sample 0) x y +
          2 ^ 11) / 2 ^ 12) 255) :=
  filter2d_eight_bit_direct rfl (by decide) (by decide) (by decide) (by decide) (by decide)
    (by decide) rfl (by simp)

end InterPred.Interp
