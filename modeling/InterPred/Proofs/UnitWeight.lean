import Mathlib
import InterPred.Proofs.WeightKernels

/-!
# Unit weights in uni-directional weighting
-/

namespace InterPred

open Word

theorem Plane.eq_fill_of_fillM {p q : Plane} {f : Nat → Nat → Except Overflow Int}
    {g : Nat → Nat → Int} (h : p.fillM f = .ok q)
    (hg : ∀ x < p.width, ∀ y < p.height, ∀ v, f x y = .ok v → v = g x y) : q = p.fill g := by
  have hf := Plane.fillM_ok_sample h
  rw [p.fillM_eq_pure f g fun x hx y hy => ?_] at h
  · exact (Except.ok.inj h).symm
  · obtain ⟨v, hv⟩ := hf x hx y hy
    rw [hv, hg x hx y hy v hv]
    rfl

namespace Weighted

/-- The sample the scaled uni kernel is meant to write for the intermediate `s` at shift `d`:
`clip(((w * (s + 8192) + 2 ^ (d + fb - 1)) >> (d + fb)) + offset)`. -/
def scaledSample (clip : ClipRange) (wp : Weighting) (d : Nat) (s : Int) : Int :=
  clip.clip ((wp.weight * (s + internalOffset) + 2 ^ (d + clip.fracBits - 1)) /
    2 ^ (d + clip.fracBits) + wp.offset)

/-- One sample of the scaled uni kernel, `clip(((w * a + round) >> S) + offset)` on checked
words. -/
def uniSample (clip : ClipRange) (w round offset : Int) (S : Nat) (a : Int) :
    Except Overflow Int := do
  let t ← int32.mul w a
  let t ← int32.add t round
  let t ← int32.shr t (S : Int)
  let t ← int32.add t offset
  pure (clip.clip t)

theorem uniSample_ok {clip : ClipRange} {w round offset a v : Int} {S : Nat} (hS : S < 32)
    (h : uniSample clip w round offset S a = .ok v) :
    int32.Holds (w * a) ∧ int32.Holds ((w * a + round) / 2 ^ S + offset) ∧
      v = clip.clip ((w * a + round) / 2 ^ S + offset) := by
  unfold uniSample at h
  obtain ⟨t0, ht0, h1⟩ := bind_eq_ok.mp h
  obtain ⟨t1, ht1, h2⟩ := bind_eq_ok.mp h1
  obtain ⟨t2, ht2, h3⟩ := bind_eq_ok.mp h2
  obtain ⟨t3, ht3, hpure⟩ := bind_eq_ok.mp h3
  obtain ⟨hprod, rfl⟩ := mul_ok_iff.mp ht0
  obtain ⟨-, rfl⟩ := add_ok_iff.mp ht1
  rw [int32_shr_ok hS, Except.ok.injEq] at ht2
  subst ht2
  obtain ⟨hsum, rfl⟩ := add_ok_iff.mp ht3
  exact ⟨hprod, hsum, (Except.ok.inj hpure).symm⟩

theorem scaledUni_room {clip : ClipRange} {src dst q : Plane} {wp : Weighting} {d : Nat}
    (hd : wp.shift = d) (hwrap : d + clip.fracBits ≠ 31) (h : scaledUni clip src dst wp = .ok q) :
    d + clip.fracBits < 31 := by
  unfold scaledUni at h
  obtain ⟨shift, hshift, h⟩ := bind_eq_ok.mp h
  obtain ⟨round, hround, -⟩ := bind_eq_ok.mp h
  obtain ⟨-, rfl⟩ := add_ok_iff.mp hshift
  unfold halfUnit at hround
  obtain ⟨unit, hunit, -⟩ := bind_eq_ok.mp hround
  unfold shl at hunit
  split at hunit
  · rename_i hok
    rw [hd] at hok
    obtain ⟨-, hlt⟩ := hok
    simp only [int32] at hlt
    omega
  · cases hunit

theorem scaledUni_eq {clip : ClipRange} {src dst : Plane} {wp : Weighting} {d : Nat}
    (hd : wp.shift = d) (hroom : d + clip.fracBits < 31) :
    scaledUni clip src dst wp = dst.fillM fun x y =>
      uniSample clip wp.weight (2 ^ (d + clip.fracBits - 1)) wp.offset (d + clip.fracBits)
        (src.get x y + internalOffset) := by
  have hfb := fracBits_ge_two clip
  have hadd : int32.add (d : Int) (clip.fracBits : Int) = .ok ((d + clip.fracBits : Nat) : Int) :=
    add_ok_iff.mpr ⟨by rw [int32_holds_iff]; omega, by push_cast; ring⟩
  unfold scaledUni
  rw [hd, hadd, ok_bind, halfUnit_of_lt (by omega) hroom, ok_bind]
  rfl

theorem scaledUni_eq_fill {clip : ClipRange} {src dst q : Plane} {wp : Weighting} {d : Nat}
    (hd : wp.shift = d) (hwrap : d + clip.fracBits ≠ 31) (h : scaledUni clip src dst wp = .ok q) :
    q = dst.fill fun x y => scaledSample clip wp d (src.get x y) := by
  have hroom := scaledUni_room hd hwrap h
  rw [scaledUni_eq hd hroom] at h
  exact Plane.eq_fill_of_fillM h fun x _ y _ v hv => (uniSample_ok (by omega) hv).2.2

theorem weightUni_of_unit {clip : ClipRange} {src dst : Plane} {wp : Weighting}
    (hunit : int32.shl 1 wp.shift = .ok wp.weight) :
    weightUni clip src dst wp = unitUni (wp.offset ≠ 0) clip src dst wp := by
  unfold weightUni
  rw [hunit, ok_bind, if_neg (not_not.mpr rfl)]

theorem unitUni_of_scaled {clip : ClipRange} {src dst q : Plane} {wp : Weighting} {d : Nat}
    (hd : wp.shift = d) (hunit : wp.weight = 2 ^ d) (hroom : d + clip.fracBits < 31)
    (h : scaledUni clip src dst wp = .ok q) : unitUni (wp.offset ≠ 0) clip src dst wp = .ok q := by
  have hfb := fracBits_ge_two clip
  rw [scaledUni_eq hd hroom] at h
  unfold unitUni
  refine Plane.fillM_of_imp (fun x y v hv => ?_) h
  obtain ⟨-, hsum, rfl⟩ := uniSample_ok (by omega) hv
  -- The factor `2 ^ d` cancels from the scaled rounding: what is left is the conversion.
  have hconv : (wp.weight * (src.get x y + internalOffset) + 2 ^ (d + clip.fracBits - 1)) /
      2 ^ (d + clip.fracBits) =
      (src.get x y + internalOffset + (pow2 clip.fracBits : Int) / 2) / pow2 clip.fracBits := by
    rw [hunit, ediv_raised_round _ d (by omega), Interp.pow2_div_two (by omega), pow2_cast,
      pow2_cast]
  rw [hconv] at hsum ⊢
  dsimp only
  by_cases ho : wp.offset = 0
  · simp only [ho, ne_eq, not_true_eq_false, decide_false, add_zero]
    rfl
  · simp only [ne_eq, ho, not_false_eq_true, decide_true, if_true]
    rw [(add_ok_iff.mpr ⟨hsum, rfl⟩ : int32.add _ _ = _)]
    rfl

/-- With a unit weight, uni-directional weighting writes what the scaled kernel writes,
wherever that does not overflow or wrap its rounding unit. -/
theorem weightUni_unit_matches_scaled (clip : ClipRange) (src dst : Plane) :
    (∀ (wp : Weighting) (q : Plane) (d : Nat), wp.shift = d → d + clip.fracBits ≠ 31 →
      scaledUni clip src dst wp = .ok q →
      q = dst.fill fun x y => scaledSample clip wp d (src.get x y)) ∧
    (∀ wp : Weighting, int32.shl 1 wp.shift = .ok wp.weight →
      weightUni clip src dst wp = unitUni (wp.offset ≠ 0) clip src dst wp) ∧
    (∀ (wp : Weighting) (q : Plane) (d : Nat), wp.shift = d → int32.shl 1 d = .ok wp.weight →
      d + clip.fracBits ≠ 31 → scaledUni clip src dst wp = .ok q →
      weightUni clip src dst wp = .ok q) := by
  refine ⟨fun wp q d hd hwrap h => scaledUni_eq_fill hd hwrap h,
    fun wp hunit => weightUni_of_unit hunit, fun wp q d hd hunit hwrap h => ?_⟩
  have hroom := scaledUni_room hd hwrap h
  have hw : wp.weight = 2 ^ d := by
    rw [int32_shl_one (by have := fracBits_ge_two clip; omega)] at hunit
    exact (Except.ok.inj hunit).symm
  rw [weightUni_of_unit (hd ▸ hunit)]
  exact unitUni_of_scaled hd hw hroom h

theorem weightUni_unit_matches_scaled_on_sample :
    (⟨64, 100, 100, 6, 32⟩ : Weighting).shift = 6 ∧
      int32.shl 1 6 = .ok (⟨64, 100, 100, 6, 32⟩ : Weighting).weight ∧
      6 + ClipRange.eightBit.fracBits ≠ 31 ∧
      scaledUni ClipRange.eightBit ⟨#[100], 1, 1, 1⟩ ⟨#[0], 1, 1, 1⟩ ⟨64, 100, 100, 6, 32⟩ =
        .ok ⟨#[230], 1, 1, 1⟩ ∧
      weightUni ClipRange.eightBit ⟨#[100], 1, 1, 1⟩ ⟨#[0], 1, 1, 1⟩ ⟨64, 100, 100, 6, 32⟩ =
        .ok ⟨#[230], 1, 1, 1⟩ :=
  ⟨rfl, rfl, by decide, rfl,
    (weightUni_unit_matches_scaled ClipRange.eightBit _ _).2.2 _ _ 6 rfl rfl (by decide) rfl⟩

/-- At `shift + fb = 31` the scaled kernel's rounding term wraps, and the unit and scaled
branches disagree. -/
theorem scaledUni_wrapped_round :
    scaledUni ClipRange.eightBit ⟨#[-8192], 1, 1, 1⟩ ⟨#[0], 1, 1, 1⟩
        ⟨33554432, 100, 100, 25, 16777216⟩ = .ok ⟨#[99], 1, 1, 1⟩ ∧
      weightUni ClipRange.eightBit ⟨#[-8192], 1, 1, 1⟩ ⟨#[0], 1, 1, 1⟩
        ⟨33554432, 100, 100, 25, 16777216⟩ = .ok ⟨#[100], 1, 1, 1⟩ ∧
      weightUni ClipRange.eightBit ⟨#[-8192], 1, 1, 1⟩ ⟨#[0], 1, 1, 1⟩
        ⟨33554433, 100, 100, 25, 16777216⟩ = .ok ⟨#[99], 1, 1, 1⟩ ∧
      scaledSample ClipRange.eightBit ⟨33554433, 100, 100, 25, 16777216⟩ 25 (-8192) = 100 :=
  ⟨rfl, rfl, rfl, by decide⟩

end Weighted

end InterPred
