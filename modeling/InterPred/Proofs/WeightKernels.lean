import Mathlib
import InterPred.Proofs.Footprint
import InterPred.Proofs.Precision
import InterPred.Proofs.Words

/-!
# What the weighting kernels compute
-/

namespace InterPred

open Word

/-- The default bi-prediction of two intermediates: their sum with both biases put back,
rounded to output precision and clipped, `clip((a + b + 2 * 8192 + 2 ^ fb) >> (fb + 1))`. -/
def ClipRange.toOutputMean (r : ClipRange) (a b : Int) : Int :=
  r.clip ((a + b + 2 * internalOffset + pow2 r.fracBits) / pow2 (r.fracBits + 1))

/-! ## Shifts on 32-bit words -/

@[simp] theorem pow2_cast (n : Nat) : (pow2 n : Int) = 2 ^ n := by
  simp [pow2, Nat.pow_eq]

theorem int32_shl_one {n : Nat} (h : n < 31) : int32.shl 1 n = .ok (2 ^ n) := by
  have hlt : (2 : Int) ^ n < 2 ^ 31 := pow_lt_pow_right₀ (by norm_num) h
  have hpos : (0 : Int) < 2 ^ n := by positivity
  have h32 : (pow2 32 : Int) = 4294967296 := by simp
  simp only [shl, ShiftOk, int32, Int.toNat_natCast, pow2_cast, one_mul]
  rw [if_pos ⟨by omega, by omega⟩]
  simp only [wrap, if_true, Except.ok.injEq, h32]
  exact Int.bmod_eq_of_le (by omega) (by omega)

theorem int32_wrap_natCast {n : Nat} (h : n < 2147483648) : int32.wrap (n : Int) = n := by
  have h32 : (pow2 32 : Int) = 4294967296 := by simp
  simp only [wrap, int32, if_true, h32]
  exact Int.bmod_eq_of_le (by omega) (by omega)

theorem int32_shr_ok {a : Int} {n : Nat} (h : n < 32) : int32.shr a n = .ok (a / 2 ^ n) := by
  simp [shr, ShiftOk, int32, h]

theorem int32_shr_one (a : Int) : int32.shr a 1 = .ok (a / 2) := by
  simpa using int32_shr_ok (a := a) (n := 1) (by omega)

theorem int32_holds_ediv {a b : Int} (ha : int32.Holds a) (hb : 0 < b) : int32.Holds (a / b) := by
  rw [int32_holds_iff] at ha ⊢
  constructor
  · rw [Int.le_ediv_iff_mul_le hb]
    nlinarith
  · have hdiv := Int.mul_ediv_add_emod a b
    have hmod := Int.emod_nonneg a hb.ne'
    by_contra hq
    nlinarith

namespace Weighted

theorem halfUnit_of_lt {n : Nat} (h1 : 1 ≤ n) (h : n < 31) : halfUnit n = .ok (2 ^ (n - 1)) := by
  unfold halfUnit
  rw [int32_shl_one h, ok_bind, int32_shr_one]
  obtain ⟨m, rfl⟩ : ∃ m, n = m + 1 := ⟨n - 1, by omega⟩
  simp [pow_succ]

theorem fracBits_ge_two (clip : ClipRange) : 2 ≤ clip.fracBits := by
  rw [clip.fracBits_eq]
  have := clip.depth_ok
  unfold BitDepthOk at this
  omega

theorem fracBits_le_six (clip : ClipRange) : clip.fracBits ≤ 6 := by
  rw [clip.fracBits_eq]
  have := clip.depth_ok
  unfold BitDepthOk at this
  omega

end Weighted

/-! ## Filling with samples that agree -/

theorem Plane.fillM_of_imp {p q : Plane} {f g : Nat → Nat → Except Overflow Int}
    (hfg : ∀ x y v, f x y = .ok v → g x y = .ok v) (h : p.fillM f = .ok q) :
    p.fillM g = .ok q := by
  have hf := Plane.fillM_ok_sample h
  let G : Nat → Nat → Int := fun x y => (f x y).toOption.getD 0
  have hG : ∀ x < p.width, ∀ y < p.height, f x y = .ok (G x y) := fun x hx y hy =>
    eq_ok_toOption_getD 0 (hf x hx y hy)
  rw [p.fillM_eq_pure f G hG] at h
  rw [p.fillM_eq_pure g G fun x hx y hy => hfg x y _ (hG x hx y hy)]
  exact h

/-! ## Roundings -/

theorem ediv_double_round (X o : Int) {T : Nat} (hT : 1 ≤ T) :
    (2 * X + 2 ^ T + 2 * o * 2 ^ T) / 2 ^ (T + 1) = (X + 2 ^ (T - 1)) / 2 ^ T + o := by
  obtain ⟨m, rfl⟩ : ∃ m, T = m + 1 := ⟨T - 1, by omega⟩
  have hsplit : 2 * X + 2 ^ (m + 1) + 2 * o * 2 ^ (m + 1) =
      2 * (X + 2 ^ m) + o * 2 ^ (m + 1 + 1) := by ring
  rw [hsplit, Int.add_mul_ediv_right _ _ (by positivity), pow_succ _ (m + 1), mul_comm _ 2,
    Int.mul_ediv_mul_of_pos _ _ (by norm_num)]
  simp

theorem ediv_raised_round (A : Int) (d : Nat) {f : Nat} (hf : 1 ≤ f) :
    (2 ^ d * A + 2 ^ (d + f - 1)) / 2 ^ (d + f) = (A + 2 ^ (f - 1)) / 2 ^ f := by
  have hsplit : (2 : Int) ^ d * A + 2 ^ (d + f - 1) = 2 ^ d * (A + 2 ^ (f - 1)) := by
    rw [show d + f - 1 = d + (f - 1) by omega, pow_add]
    ring
  rw [hsplit, pow_add, Int.mul_ediv_mul_of_pos _ _ (by positivity)]

namespace Weighted

/-! ## The bi kernel -/

/-- One sample of the bi kernel: `clip((w0 * a + w1 * b + bias) >> S)` on checked words. -/
def biSample (clip : ClipRange) (w0 w1 bias : Int) (S : Nat) (a b : Int) :
    Except Overflow Int := do
  let t0 ← int32.mul w0 a
  let t1 ← int32.mul w1 b
  let t ← int32.add t0 t1
  let t ← int32.add t bias
  let v ← int32.shr t (S : Int)
  pure (clip.clip v)

theorem weightBi_eq_of_shift {clip : ClipRange} {src0 src1 dst : Plane} {b0 b1 : Weighting}
    {e : Nat} (hsh : b0.shift = e) (hroom : e + clip.fracBits < 31) :
    weightBi clip src0 src1 dst b0 b1 = (do
      let lift ← int32.mul b0.offset (2 ^ (e + clip.fracBits - 1))
      let bias ← int32.add (2 ^ (e + clip.fracBits - 1)) lift
      dst.fillM fun x y => biSample clip b0.weight b1.weight bias (e + clip.fracBits)
        (src0.get x y + internalOffset) (src1.get x y + internalOffset)) := by
  have hfb := fracBits_ge_two clip
  have hshift : int32.add b0.shift clip.fracBits = .ok ((e + clip.fracBits : Nat) : Int) :=
    add_ok_iff.mpr ⟨by rw [hsh, int32_holds_iff]; omega, by rw [hsh]; push_cast; ring⟩
  have hbelow : int32.sub ((e + clip.fracBits : Nat) : Int) 1 =
      .ok ((e + clip.fracBits - 1 : Nat) : Int) :=
    sub_ok_iff.mpr ⟨by rw [int32_holds_iff]; omega, by omega⟩
  unfold weightBi
  rw [hshift, ok_bind, halfUnit_of_lt (by omega) hroom, ok_bind, hbelow, ok_bind,
    int32_shl_one (by omega), ok_bind]
  rfl

theorem weightBi_eq {clip : ClipRange} {src0 src1 dst : Plane} {b0 b1 : Weighting} {d : Nat}
    (hsh : b0.shift = d + 1) (hroom : d + 1 + clip.fracBits < 31) :
    weightBi clip src0 src1 dst b0 b1 = (do
      let lift ← int32.mul b0.offset (2 ^ (d + clip.fracBits))
      let bias ← int32.add (2 ^ (d + clip.fracBits)) lift
      dst.fillM fun x y => biSample clip b0.weight b1.weight bias (d + clip.fracBits + 1)
        (src0.get x y + internalOffset) (src1.get x y + internalOffset)) := by
  rw [weightBi_eq_of_shift (e := d + 1) (by omega) hroom,
    show d + 1 + clip.fracBits - 1 = d + clip.fracBits by omega,
    show d + 1 + clip.fracBits = d + clip.fracBits + 1 by omega]

theorem mul_zero_ok (a : Int) : int32.mul 0 a = .ok 0 := mul_ok_iff.mpr ⟨by simp, by simp⟩

/-! ## One block taken twice -/

theorem biSample_same {clip : ClipRange} {w0 w1 bias a v : Int} {S : Nat} (hS : S < 32)
    (h : biSample clip w0 w1 bias S a a = .ok v) :
    int32.Holds (w0 * a) ∧ int32.Holds (w0 * a + w1 * a) ∧ int32.Holds (w0 * a + w1 * a + bias) ∧
      v = clip.clip ((w0 * a + w1 * a + bias) / 2 ^ S) := by
  unfold biSample at h
  obtain ⟨t0, ht0, h1⟩ := bind_eq_ok.mp h
  obtain ⟨t1, ht1, h2⟩ := bind_eq_ok.mp h1
  obtain ⟨t, ht, h3⟩ := bind_eq_ok.mp h2
  obtain ⟨t', ht', h4⟩ := bind_eq_ok.mp h3
  obtain ⟨v', hv', hpure⟩ := bind_eq_ok.mp h4
  obtain ⟨hprod, rfl⟩ := mul_ok_iff.mp ht0
  obtain ⟨-, rfl⟩ := mul_ok_iff.mp ht1
  obtain ⟨hsum, rfl⟩ := add_ok_iff.mp ht
  obtain ⟨hsum', rfl⟩ := add_ok_iff.mp ht'
  rw [int32_shr_ok hS, Except.ok.injEq] at hv'
  subst hv'
  exact ⟨hprod, hsum, hsum', (Except.ok.inj hpure).symm⟩

section Same

variable {clip : ClipRange} {src dst q : Plane} {u : Weighting} {d : Nat} {bias : Int}

theorem scaledUni_of_bi (hd : u.shift = d) (hroom : d + 1 + clip.fracBits < 31)
    (hbias : bias = 2 ^ (d + clip.fracBits) + 2 * u.offset * 2 ^ (d + clip.fracBits))
    (h : dst.fillM (fun x y => biSample clip u.weight u.weight bias (d + clip.fracBits + 1)
      (src.get x y + internalOffset) (src.get x y + internalOffset)) = .ok q) :
    scaledUni clip src dst u = .ok q := by
  have hfb := fracBits_ge_two clip
  have hadd : int32.add (d : Int) (clip.fracBits : Int) = .ok ((d + clip.fracBits : Nat) : Int) :=
    add_ok_iff.mpr ⟨by rw [int32_holds_iff]; omega, by push_cast; ring⟩
  unfold scaledUni
  rw [hd, hadd, ok_bind, halfUnit_of_lt (by omega) (by omega), ok_bind]
  refine Plane.fillM_of_imp (fun x y v hv => ?_) h
  obtain ⟨hprod, hsum, hsum', rfl⟩ := biSample_same (by omega) hv
  subst hbias
  -- The uni kernel's sum is half the bi kernel's before the bias, so it fits too.
  have hhalf : (2 : Int) ^ (d + clip.fracBits - 1) ≤ 2 ^ 28 :=
    pow_le_pow_right₀ (by norm_num) (by omega)
  have hpos : (0 : Int) < 2 ^ (d + clip.fracBits - 1) := by positivity
  have hX := int32_holds_iff.mp hsum
  have hnum : u.weight * (src.get x y + internalOffset) + u.weight * (src.get x y + internalOffset) +
      (2 ^ (d + clip.fracBits) + 2 * u.offset * 2 ^ (d + clip.fracBits)) =
      2 * (u.weight * (src.get x y + internalOffset)) + 2 ^ (d + clip.fracBits) +
        2 * u.offset * 2 ^ (d + clip.fracBits) := by ring
  rw [hnum] at hsum' ⊢
  have hv := ediv_double_round (u.weight * (src.get x y + internalOffset)) u.offset
    (T := d + clip.fracBits) (by omega)
  dsimp only
  rw [(mul_ok_iff.mpr ⟨hprod, rfl⟩ : int32.mul u.weight _ = _), ok_bind,
    (add_ok_iff.mpr ⟨by rw [int32_holds_iff]; omega, rfl⟩ : int32.add _ _ = _), ok_bind,
    int32_shr_ok (by omega), ok_bind,
    (add_ok_iff.mpr ⟨by rw [← hv]; exact int32_holds_ediv hsum' (by positivity), hv.symm⟩ :
      int32.add _ _ = _)]
  rfl

theorem unitUni_of_bi (hunit : u.weight = 2 ^ d) (hroom : d + 1 + clip.fracBits < 31)
    (hbias : bias = 2 ^ (d + clip.fracBits) + 2 * u.offset * 2 ^ (d + clip.fracBits))
    (h : dst.fillM (fun x y => biSample clip u.weight u.weight bias (d + clip.fracBits + 1)
      (src.get x y + internalOffset) (src.get x y + internalOffset)) = .ok q) :
    unitUni (u.offset ≠ 0) clip src dst u = .ok q := by
  have hfb := fracBits_ge_two clip
  unfold unitUni
  refine Plane.fillM_of_imp (fun x y v hv => ?_) h
  obtain ⟨-, -, hsum', rfl⟩ := biSample_same (by omega) hv
  subst hbias
  rw [hunit] at hsum' ⊢
  -- With weight `2 ^ d` the bi kernel's rounding is the conversion plus the offset.
  have hconv : (2 ^ d * (src.get x y + internalOffset) + 2 ^ d * (src.get x y + internalOffset) +
      (2 ^ (d + clip.fracBits) + 2 * u.offset * 2 ^ (d + clip.fracBits))) /
        2 ^ (d + clip.fracBits + 1) =
      (src.get x y + internalOffset + (pow2 clip.fracBits : Int) / 2) / pow2 clip.fracBits +
        u.offset := by
    rw [Interp.pow2_div_two (by omega), pow2_cast, pow2_cast, ← ediv_raised_round _ d (by omega),
      ← ediv_double_round _ _ (T := d + clip.fracBits) (by omega)]
    congr 1
    ring
  have hfit := int32_holds_ediv hsum' (b := 2 ^ (d + clip.fracBits + 1)) (by positivity)
  rw [hconv] at hfit ⊢
  dsimp only
  by_cases ho0 : u.offset = 0
  · simp [ho0]
    rfl
  · simp only [ne_eq, ho0, not_false_eq_true, decide_true, if_true]
    rw [(add_ok_iff.mpr ⟨hfit, rfl⟩ : int32.add _ _ = _)]
    rfl

end Same

theorem weightBi_same {clip : ClipRange} {src dst q : Plane} {b0 b1 u : Weighting} {d : Nat}
    (hd : u.shift = d) (hsh : b0.shift = d + 1) (hw0 : b0.weight = u.weight)
    (hw1 : b1.weight = u.weight) (ho : b0.offset = 2 * u.offset)
    (hroom : d + 1 + clip.fracBits < 31)
    (h : weightBi clip src src dst b0 b1 = .ok q) : weightUni clip src dst u = .ok q := by
  rw [weightBi_eq hsh hroom, hw0, hw1, ho] at h
  obtain ⟨lift, hlift, hrest⟩ := bind_eq_ok.mp h
  obtain ⟨bias, hbias, hfill⟩ := bind_eq_ok.mp hrest
  obtain ⟨-, rfl⟩ := mul_ok_iff.mp hlift
  obtain ⟨-, hb⟩ := add_ok_iff.mp hbias
  unfold weightUni
  rw [hd, int32_shl_one (by omega), ok_bind]
  split
  · exact scaledUni_of_bi hd hroom hb.symm hfill
  · rename_i hunit
    rw [ne_eq, not_not] at hunit
    exact unitUni_of_bi hunit hroom hb.symm hfill

/-! ## Neutral weights -/

theorem biased_mem {s : Int} (hs : int16.Holds s) :
    -24576 ≤ s + internalOffset ∧ s + internalOffset ≤ 40959 := by
  rw [int16_holds_iff] at hs
  unfold internalOffset
  omega

theorem raised_mem {e : Nat} (he : e ≤ 7) {s : Int} (hs : int16.Holds s) :
    -(128 * 24576) ≤ 2 ^ e * (s + internalOffset) ∧ 2 ^ e * (s + internalOffset) ≤ 128 * 40959 := by
  obtain ⟨ha0, ha1⟩ := biased_mem hs
  have hP : (1 : Int) ≤ 2 ^ e ∧ (2 : Int) ^ e ≤ 128 :=
    ⟨one_le_pow₀ (by norm_num), by
      calc (2 : Int) ^ e ≤ 2 ^ 7 := pow_le_pow_right₀ (by norm_num) he
        _ = 128 := by norm_num⟩
  constructor <;> nlinarith

theorem weightBi_neutral {clip : ClipRange} {src0 src1 dst : Plane} {b0 b1 : Weighting} {e : Nat}
    (he : e ≤ 7) (hw0 : b0.weight = 2 ^ e) (hw1 : b1.weight = 2 ^ e) (ho : b0.offset = 0)
    (hsh : b0.shift = e + 1)
    (h16 : ∀ x y, int16.Holds (src0.get x y) ∧ int16.Holds (src1.get x y)) :
    weightBi clip src0 src1 dst b0 b1 =
      .ok (dst.fill fun x y => clip.toOutputMean (src0.get x y) (src1.get x y)) := by
  have hfb6 := fracBits_le_six clip
  have hT : (2 : Int) ^ (e + clip.fracBits) ≤ 2 ^ 13 := pow_le_pow_right₀ (by norm_num) (by omega)
  have hTpos : (0 : Int) < 2 ^ (e + clip.fracBits) := by positivity
  rw [weightBi_eq hsh (by omega), ho, mul_zero_ok, ok_bind,
    (add_ok_iff.mpr ⟨by rw [int32_holds_iff]; omega, add_zero _⟩ :
      int32.add (2 ^ (e + clip.fracBits)) 0 = .ok (2 ^ (e + clip.fracBits))), ok_bind]
  refine dst.fillM_eq_pure _ _ fun x _ y _ => ?_
  obtain ⟨h0, h1⟩ := h16 x y
  obtain ⟨ha0, ha1⟩ := raised_mem he h0
  obtain ⟨hb0, hb1⟩ := raised_mem he h1
  unfold biSample
  rw [hw0, hw1, (mul_ok_iff.mpr ⟨by rw [int32_holds_iff]; omega, rfl⟩ : int32.mul _ _ = _), ok_bind,
    (mul_ok_iff.mpr ⟨by rw [int32_holds_iff]; omega, rfl⟩ : int32.mul _ (src1.get x y + _) = _),
    ok_bind, (add_ok_iff.mpr ⟨by rw [int32_holds_iff]; omega, rfl⟩ : int32.add _ _ = _), ok_bind,
    (add_ok_iff.mpr ⟨by rw [int32_holds_iff]; omega, rfl⟩ : int32.add _ _ = _), ok_bind,
    int32_shr_ok (by omega)]
  -- The weight `2 ^ e` divides the sum and the rounding unit alike.
  have hmean : (2 ^ e * (src0.get x y + internalOffset) + 2 ^ e * (src1.get x y + internalOffset) +
      2 ^ (e + clip.fracBits)) / 2 ^ (e + clip.fracBits + 1) =
      (src0.get x y + src1.get x y + 2 * internalOffset + pow2 clip.fracBits) /
        pow2 (clip.fracBits + 1) := by
    have hnum : (2 : Int) ^ e * (src0.get x y + internalOffset) +
        2 ^ e * (src1.get x y + internalOffset) + 2 ^ (e + clip.fracBits) =
        2 ^ e * (src0.get x y + src1.get x y + 2 * internalOffset + 2 ^ clip.fracBits) := by
      rw [pow_add]
      ring
    rw [pow2_cast, pow2_cast, hnum, show e + clip.fracBits + 1 = e + (clip.fracBits + 1) by omega,
      pow_add, Int.mul_ediv_mul_of_pos _ _ (by positivity)]
  rw [hmean]
  rfl

end Weighted

end InterPred
