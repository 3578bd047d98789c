import Mathlib
import InterPred.Proofs.Derivation
import InterPred.Proofs.Neutral
import InterPred.Proofs.SliceStore
import InterPred.Proofs.UnitWeight

/-!
# Conformant weights never overflow

Conformant parameters derive bounded weightings (`Weighting.Bounded`), and the kernels never
overflow on those.
-/

namespace InterPred

open Word

section Steps

variable {α β : Type}

theorem NoPanic.raisesOnly {x : Except Fault α} (h : NoPanic x) :
    RaisesOnly (fun e => ∀ o, e ≠ .overflow o) x := by
  rintro e rfl o rfl
  exact h o rfl

theorem NoPanic.of_raisesOnly {x : Except Fault α}
    (h : RaisesOnly (fun e => ∀ o, e ≠ .overflow o) x) : NoPanic x :=
  fun o hx => h _ hx o rfl

theorem noPanic_foldlM {f : β → α → Except Fault β} (l : List α) (b : β)
    (h : ∀ b, ∀ a ∈ l, NoPanic (f b a)) : NoPanic (l.foldlM f b) :=
  .of_raisesOnly (raisesOnly_foldlM l b fun b a ha => (h b a ha).raisesOnly)

theorem noPanic_liftM_of_ok {x : Except Overflow α} (h : ∃ a, x = .ok a) :
    NoPanic (liftM x : Except Fault α) := by
  obtain ⟨a, rfl⟩ := h
  exact noPanic_ok a

theorem noPanic_ensures_liftM_bind {x : Except PredError α} {f : α → Except Fault β}
    {P : β → Prop} (hf : ∀ a, x = .ok a → NoPanic (f a) ∧ Ensures P (f a)) :
    NoPanic (liftM x >>= f) ∧ Ensures P (liftM x >>= f) :=
  ⟨(noPanic_liftM_reject x).bind fun a ha => (hf a (liftM_reject_eq_ok.mp ha)).1,
    ensures_bind fun a ha => (hf a (liftM_reject_eq_ok.mp ha)).2⟩

end Steps

namespace Weighted

/-! ## Conformant parameters -/

def SliceWeights.DepthsOk (s : SliceWeights) : Prop :=
  BitDepthOk s.lumaBitDepth ∧ BitDepthOk s.chromaBitDepth

theorem SliceWeights.DepthsOk.bitDepth {s : SliceWeights} (h : s.DepthsOk) (c : Component) :
    BitDepthOk (s.bitDepth c) := by
  unfold SliceWeights.bitDepth
  split
  · exact h.1
  · exact h.2

theorem SliceWeights.depthsOk_of_new? {cf : ChromaFormat} {dl dc : Nat} {s : SliceWeights}
    (h : SliceWeights.new? cf dl dc = .ok s) : s.DepthsOk := by
  unfold SliceWeights.new? at h
  split at h
  · cases h
  rename_i hl
  split at h
  · cases h
  rename_i hc
  obtain rfl := (Except.ok.inj h).symm
  exact ⟨not_not.mp hl, not_not.mp hc⟩

theorem SliceWeights.DepthsOk.step {s s' : SliceWeights} {c : SliceCall} (hs : s.DepthsOk)
    (h : c.apply s = .ok s') : s'.DepthsOk := by
  cases c with
  | flags a b =>
    obtain rfl := (Except.ok.inj h).symm
    exact hs
  | set l idx w =>
    unfold SliceCall.apply SliceWeights.set at h
    dsimp only at h
    split at h
    · obtain rfl := (Except.ok.inj h).symm
      cases l <;> exact hs
    · obtain ⟨_, -, h⟩ := bind_eq_ok.mp h
      obtain rfl := (Except.ok.inj h).symm
      cases l <;> exact hs

theorem SliceWeights.depthsOk_runCalls :
    ∀ (calls : List SliceCall) (s s' : SliceWeights), s.DepthsOk → runCalls s calls = .ok s' →
      s'.DepthsOk := by
  intro calls
  induction calls with
  | nil =>
    intro s s' hs h
    obtain rfl := (Except.ok.inj h).symm
    exact hs
  | cons c calls ih =>
    intro s s' hs h
    unfold runCalls at h
    rw [List.foldlM_cons] at h
    obtain ⟨s1, h1, h⟩ := bind_eq_ok.mp h
    exact ih s1 s' (hs.step h1) h

/-- The bound of the offsets a conformant stream signals for a component: 8-bit offsets, or
offsets of the component's bit depth with high-precision offsets. -/
def offsetLimit (s : SliceWeights) (c : Component) : Int :=
  if s.highPrecisionOffsets then 2 ^ (s.bitDepth c - 1) else 128

/-- The parameters a conformant stream signals for component `c`. -/
structure ScalingParam.Conformant (s : SliceWeights) (c : Component) (p : ScalingParam) :
    Prop where
  log2Denom_le : p.log2Denom ≤ 7
  weight_ge : -128 ≤ p.weight
  weight_le : p.weight ≤ 255
  offset_ge : -offsetLimit s c ≤ p.offset
  offset_lt : p.offset < offsetLimit s c

instance (s : SliceWeights) (c : Component) (p : ScalingParam) : Decidable (p.Conformant s c) :=
  decidable_of_iff (p.log2Denom ≤ 7 ∧ -128 ≤ p.weight ∧ p.weight ≤ 255 ∧
      -offsetLimit s c ≤ p.offset ∧ p.offset < offsetLimit s c)
    ⟨fun ⟨h1, h2, h3, h4, h5⟩ => ⟨h1, h2, h3, h4, h5⟩,
      fun ⟨h1, h2, h3, h4, h5⟩ => ⟨h1, h2, h3, h4, h5⟩⟩

/-- The entry that a used reference index names, if the list has one, is conformant for every
component up to `m`. -/
def RefConformant (s : SliceWeights) (l : RefList) (i : Int) (m : Component) : Prop :=
  ∀ w, 0 ≤ i → s.get? l i.toNat = some w → ∀ c ∈ s.components m, (w.get c).Conformant s c

/-- A weighting whose words the kernels can always form. -/
structure Weighting.Bounded (w : Weighting) : Prop where
  weight_ge : -128 ≤ w.weight
  weight_le : w.weight ≤ 255
  shift_nonneg : 0 ≤ w.shift
  shift_le : w.shift ≤ 8
  offset_ge : -4096 ≤ w.offset
  offset_le : w.offset ≤ 4096

theorem Weighting.Bounded.shift_eq {w : Weighting} (h : w.Bounded) :
    ∃ e : Nat, w.shift = e ∧ e ≤ 8 :=
  ⟨w.shift.toNat, by have := h.shift_nonneg; omega, by have := h.shift_le; omega⟩

def AllBounded : Option (List Weighting) → Prop
  | some ws => ∀ w ∈ ws, w.Bounded
  | none => True

/-! ## The derivation of conformant parameters -/

section Derivation

variable {s : SliceWeights} {c : Component} {p p0 p1 : ScalingParam}

theorem scaledOffset_mem (hd : s.DepthsOk) (hp : p.Conformant s c) :
    -2048 ≤ scaledOffset s c p ∧ scaledOffset s c p ≤ 2048 := by
  have hge := hp.offset_ge
  have hlt := hp.offset_lt
  unfold offsetLimit at hge hlt
  unfold scaledOffset
  rcases (hd.bitDepth c).cases with h | h | h | h | h <;>
    cases hhp : s.highPrecisionOffsets <;> simp only [h, hhp, if_true] at hge hlt ⊢ <;>
    norm_num at hge hlt ⊢ <;> omega

theorem ScalingParam.Conformant.paramFits (hd : s.DepthsOk) (hp : p.Conformant s c) :
    ParamFits s c p := by
  have := scaledOffset_mem hd hp
  exact ⟨by have := hp.log2Denom_le; omega, by rw [int32_holds_iff]; omega⟩

theorem ScalingParam.Conformant.pairFits (hd : s.DepthsOk) (hp0 : p0.Conformant s c)
    (hp1 : p1.Conformant s c) : PairFits s c p0 p1 := by
  have h0 := scaledOffset_mem hd hp0
  have h1 := scaledOffset_mem hd hp1
  exact ⟨by have := hp0.log2Denom_le; omega, by rw [int32_holds_iff]; omega,
    by rw [int32_holds_iff]; omega, by rw [int32_holds_iff]; omega⟩

theorem uniSpec_bounded (hd : s.DepthsOk) (hp : p.Conformant s c) : (uniSpec s c p).Bounded := by
  have ho := scaledOffset_mem hd hp
  have hden := hp.log2Denom_le
  exact ⟨hp.weight_ge, hp.weight_le, by simp [uniSpec], by simp only [uniSpec]; omega,
    by simp only [uniSpec]; omega, by simp only [uniSpec]; omega⟩

theorem biSpec_bounded (hd : s.DepthsOk) (hp0 : p0.Conformant s c) (hp1 : p1.Conformant s c) :
    (biSpec s c p0 p1).1.Bounded ∧ (biSpec s c p0 p1).2.Bounded := by
  have h0 := scaledOffset_mem hd hp0
  have h1 := scaledOffset_mem hd hp1
  have hden := hp0.log2Denom_le
  exact ⟨⟨hp0.weight_ge, hp0.weight_le, by simp only [biSpec]; omega,
      by simp only [biSpec]; omega, by simp only [biSpec]; omega, by simp only [biSpec]; omega⟩,
    ⟨hp1.weight_ge, hp1.weight_le, by simp only [biSpec]; omega,
      by simp only [biSpec]; omega, by simp only [biSpec]; omega, by simp only [biSpec]; omega⟩⟩

variable {m : Component}

theorem firstComponents_eq_components (s : SliceWeights) (m : Component) :
    firstComponents s m = s.components m :=
  (components_eq s m).symm

theorem uniWeightings_bounded (hd : s.DepthsOk) {w : RefWeights}
    (hw : ∀ c ∈ s.components m, (w.get c).Conformant s c) :
    ∃ ws, uniWeightings s w m = .ok ws ∧ ∀ x ∈ ws, x.Bounded := by
  rw [← firstComponents_eq_components] at hw
  refine ⟨_, uniWeightings_eq fun c hc => (hw c hc).paramFits hd, fun x hx => ?_⟩
  obtain ⟨c, hc, rfl⟩ := List.mem_map.mp hx
  exact uniSpec_bounded hd (hw c hc)

theorem biWeightings_bounded (hd : s.DepthsOk) {w0 w1 : RefWeights}
    (hw0 : ∀ c ∈ s.components m, (w0.get c).Conformant s c)
    (hw1 : ∀ c ∈ s.components m, (w1.get c).Conformant s c) :
    ∃ pairs, biWeightings s w0 w1 m = .ok pairs ∧
      (∀ x ∈ pairs.map Prod.fst, x.Bounded) ∧ ∀ x ∈ pairs.map Prod.snd, x.Bounded := by
  rw [← firstComponents_eq_components] at hw0 hw1
  have hb : ∀ c ∈ firstComponents s m, (biSpec s c (w0.get c) (w1.get c)).1.Bounded ∧
      (biSpec s c (w0.get c) (w1.get c)).2.Bounded := fun c hc =>
    biSpec_bounded hd (hw0 c hc) (hw1 c hc)
  refine ⟨_, biWeightings_eq fun c hc => (hw0 c hc).pairFits hd (hw1 c hc), fun x hx => ?_,
    fun x hx => ?_⟩
  · obtain ⟨_, hpair, rfl⟩ := List.mem_map.mp hx
    obtain ⟨c, hc, rfl⟩ := List.mem_map.mp hpair
    exact (hb c hc).1
  · obtain ⟨_, hpair, rfl⟩ := List.mem_map.mp hx
    obtain ⟨c, hc, rfl⟩ := List.mem_map.mp hpair
    exact (hb c hc).2

end Derivation

/-! ## The words of the kernels -/

theorem int32_mul_ok {a b : Int} (h : -2147483648 ≤ a * b ∧ a * b ≤ 2147483647) :
    int32.mul a b = .ok (a * b) :=
  mul_ok_iff.mpr ⟨int32_holds_iff.mpr h, rfl⟩

theorem int32_add_ok {a b : Int} (h : -2147483648 ≤ a + b ∧ a + b ≤ 2147483647) :
    int32.add a b = .ok (a + b) :=
  add_ok_iff.mpr ⟨int32_holds_iff.mpr h, rfl⟩

theorem weight_mul_mem {w a : Int} (hw : -128 ≤ w ∧ w ≤ 255) (ha : -24576 ≤ a ∧ a ≤ 40959) :
    -6266880 ≤ w * a ∧ w * a ≤ 10444545 := by
  obtain ⟨hw0, hw1⟩ := hw
  obtain ⟨ha0, ha1⟩ := ha
  constructor <;> nlinarith [mul_nonneg (sub_nonneg.2 hw0) (sub_nonneg.2 ha0),
    mul_nonneg (sub_nonneg.2 hw1) (sub_nonneg.2 ha1),
    mul_nonneg (sub_nonneg.2 hw0) (sub_nonneg.2 ha1),
    mul_nonneg (sub_nonneg.2 hw1) (sub_nonneg.2 ha0)]

theorem ediv_mem {x lo hi D : Int} (hlo : lo ≤ 0) (hhi : 0 ≤ hi) (hx : lo ≤ x ∧ x ≤ hi)
    (hD : 0 < D) : lo ≤ x / D ∧ x / D ≤ hi := by
  constructor
  · calc lo ≤ lo / D := (Int.le_ediv_iff_mul_le hD).mpr (by nlinarith)
      _ ≤ x / D := Int.ediv_le_ediv hD hx.1
  · calc x / D ≤ hi / D := Int.ediv_le_ediv hD hx.2
      _ ≤ hi := Int.ediv_le_self D hhi

theorem two_pow_pred_le {S : Nat} (hS : S ≤ 14) : (2 : Int) ^ (S - 1) ≤ 8192 :=
  calc (2 : Int) ^ (S - 1) ≤ 2 ^ 13 := pow_le_pow_right₀ (by norm_num) (by omega)
    _ = 8192 := by norm_num

theorem biSample_succeeds (clip : ClipRange) {w0 w1 bias a b : Int} {S : Nat} (hS : S < 32)
    (h0 : -128 ≤ w0 ∧ w0 ≤ 255) (h1 : -128 ≤ w1 ∧ w1 ≤ 255) (ha : -24576 ≤ a ∧ a ≤ 40959)
    (hb : -24576 ≤ b ∧ b ≤ 40959) (hbias : -67108864 ≤ bias ∧ bias ≤ 67108864) :
    ∃ v, biSample clip w0 w1 bias S a b = .ok v := by
  obtain ⟨t0a, t0b⟩ := weight_mul_mem h0 ha
  obtain ⟨t1a, t1b⟩ := weight_mul_mem h1 hb
  have ht0 : int32.mul w0 a = .ok (w0 * a) := int32_mul_ok (by omega)
  have ht1 : int32.mul w1 b = .ok (w1 * b) := int32_mul_ok (by omega)
  have hsum : int32.add (w0 * a) (w1 * b) = .ok (w0 * a + w1 * b) := int32_add_ok (by omega)
  have hbiased : int32.add (w0 * a + w1 * b) bias = .ok (w0 * a + w1 * b + bias) :=
    int32_add_ok (by omega)
  unfold biSample
  rw [ht0, ok_bind, ht1, ok_bind, hsum, ok_bind, hbiased, ok_bind, int32_shr_ok hS, ok_bind]
  exact ⟨_, rfl⟩

theorem weightBi_succeeds {clip : ClipRange} {src0 src1 dst : Plane} {b0 b1 : Weighting}
    (h0 : b0.Bounded) (h1 : b1.Bounded) (hs0 : ∀ x y, int16.Holds (src0.get x y))
    (hs1 : ∀ x y, int16.Holds (src1.get x y)) :
    ∃ q, weightBi clip src0 src1 dst b0 b1 = .ok q := by
  obtain ⟨e, he, he8⟩ := h0.shift_eq
  have hfb := fracBits_ge_two clip
  have hfb6 := fracBits_le_six clip
  have hunit := two_pow_pred_le (show e + clip.fracBits ≤ 14 by omega)
  have hpos : (0 : Int) < 2 ^ (e + clip.fracBits - 1) := by positivity
  -- The offset raised to the rounding unit stays within `2 ^ 25`.
  have hlift : -33554432 ≤ b0.offset * 2 ^ (e + clip.fracBits - 1) ∧
      b0.offset * 2 ^ (e + clip.fracBits - 1) ≤ 33554432 := by
    have := h0.offset_ge
    have := h0.offset_le
    constructor <;> nlinarith
  have hmul : int32.mul b0.offset (2 ^ (e + clip.fracBits - 1)) =
      .ok (b0.offset * 2 ^ (e + clip.fracBits - 1)) := int32_mul_ok (by omega)
  have hbias : int32.add (2 ^ (e + clip.fracBits - 1)) (b0.offset * 2 ^ (e + clip.fracBits - 1)) =
      .ok (2 ^ (e + clip.fracBits - 1) + b0.offset * 2 ^ (e + clip.fracBits - 1)) :=
    int32_add_ok (by omega)
  rw [weightBi_eq_of_shift he (by omega), hmul, ok_bind, hbias, ok_bind]
  exact Plane.fillM_ok_of_samples fun x _ y _ => biSample_succeeds clip (by omega)
    ⟨h0.weight_ge, h0.weight_le⟩ ⟨h1.weight_ge, h1.weight_le⟩ (biased_mem (hs0 x y))
    (biased_mem (hs1 x y)) ⟨by omega, by omega⟩

theorem uniSample_succeeds (clip : ClipRange) {w offset a : Int} {S : Nat} (hS : S ≤ 14)
    (hw : -128 ≤ w ∧ w ≤ 255) (ha : -24576 ≤ a ∧ a ≤ 40959) (ho : -4096 ≤ offset ∧ offset ≤ 4096) :
    ∃ v, uniSample clip w (2 ^ (S - 1)) offset S a = .ok v := by
  obtain ⟨t0, t1⟩ := weight_mul_mem hw ha
  have hunit := two_pow_pred_le hS
  have hpos : (0 : Int) < 2 ^ (S - 1) := by positivity
  -- The rounded product, shifted down, stays within the product's own bounds.
  obtain ⟨q0, q1⟩ := ediv_mem (by norm_num) (by norm_num)
    (show -6266880 ≤ w * a + 2 ^ (S - 1) ∧ w * a + 2 ^ (S - 1) ≤ 10452737 by omega)
    (show (0 : Int) < 2 ^ S by positivity)
  have ht : int32.mul w a = .ok (w * a) := int32_mul_ok (by omega)
  have hround : int32.add (w * a) (2 ^ (S - 1)) = .ok (w * a + 2 ^ (S - 1)) :=
    int32_add_ok (by omega)
  have hoff : int32.add ((w * a + 2 ^ (S - 1)) / 2 ^ S) offset =
      .ok ((w * a + 2 ^ (S - 1)) / 2 ^ S + offset) := int32_add_ok (by omega)
  unfold uniSample
  rw [ht, ok_bind, hround, ok_bind, int32_shr_ok (by omega), ok_bind, hoff, ok_bind]
  exact ⟨_, rfl⟩

theorem scaledUni_succeeds {clip : ClipRange} {src dst : Plane} {wp : Weighting} (h : wp.Bounded)
    (hs : ∀ x y, int16.Holds (src.get x y)) : ∃ q, scaledUni clip src dst wp = .ok q := by
  obtain ⟨e, he, he8⟩ := h.shift_eq
  have hfb6 := fracBits_le_six clip
  rw [scaledUni_eq he (by omega)]
  exact Plane.fillM_ok_of_samples fun x _ y _ => uniSample_succeeds clip (by omega)
    ⟨h.weight_ge, h.weight_le⟩ (biased_mem (hs x y)) ⟨h.offset_ge, h.offset_le⟩

theorem unitUni_succeeds (withOffset : Bool) {clip : ClipRange} {src dst : Plane} {wp : Weighting}
    (h : wp.Bounded) (hs : ∀ x y, int16.Holds (src.get x y)) :
    ∃ q, unitUni withOffset clip src dst wp = .ok q := by
  have hfb := fracBits_ge_two clip
  have hfb6 := fracBits_le_six clip
  have hround : (pow2 clip.fracBits : Int) / 2 = 2 ^ (clip.fracBits - 1) := by
    rw [Interp.pow2_div_two (by omega), pow2_cast]
  have hunit := two_pow_pred_le (show clip.fracBits ≤ 14 by omega)
  have hpos : (0 : Int) < 2 ^ (clip.fracBits - 1) := by positivity
  have hD : (0 : Int) < pow2 clip.fracBits := by
    rw [pow2_cast]
    positivity
  unfold unitUni
  refine Plane.fillM_ok_of_samples fun x _ y _ => ?_
  obtain ⟨a0, a1⟩ := biased_mem (hs x y)
  -- The converted sample stays within the biased intermediate's bounds, with the round added.
  obtain ⟨v0, v1⟩ := ediv_mem (by norm_num) (by norm_num)
    (show -24576 ≤ src.get x y + internalOffset + (pow2 clip.fracBits : Int) / 2 ∧
      src.get x y + internalOffset + (pow2 clip.fracBits : Int) / 2 ≤ 40959 + 8192 by omega) hD
  dsimp only
  split
  · have := h.offset_ge
    have := h.offset_le
    rw [int32_add_ok (by omega), ok_bind]
    exact ⟨_, rfl⟩
  · exact ⟨_, rfl⟩

theorem weightUni_succeeds {clip : ClipRange} {src dst : Plane} {wp : Weighting} (h : wp.Bounded)
    (hs : ∀ x y, int16.Holds (src.get x y)) : ∃ q, weightUni clip src dst wp = .ok q := by
  obtain ⟨e, he, he8⟩ := h.shift_eq
  unfold weightUni
  rw [he, int32_shl_one (by omega), ok_bind]
  split
  · exact scaledUni_succeeds h hs
  · exact unitUni_succeeds _ h hs

/-! ## The calls -/

theorem weightPair_noPanic (wp0 wp1 : List Weighting) (k : Nat) :
    NoPanic (weightPair wp0 wp1 k) := by
  unfold weightPair
  split
  · exact noPanic_ok _
  · exact noPanic_reject _

theorem mem_of_weightPair {wp0 wp1 : List Weighting} {k : Nat} {b0 b1 : Weighting}
    (h : weightPair wp0 wp1 k = .ok (b0, b1)) : b0 ∈ wp0 ∧ b1 ∈ wp1 := by
  unfold weightPair at h
  split at h
  · rename_i h0 h1
    obtain ⟨rfl, rfl⟩ := Prod.mk.inj (Except.ok.inj h)
    exact ⟨List.mem_of_getElem? h0, List.mem_of_getElem? h1⟩
  · cases h

theorem planeOf_noPanic (u : Planes) (c : Component) (mm : Mismatch) :
    NoPanic (planeOf u c mm) := by
  unfold planeOf
  split
  · exact noPanic_ok _
  · exact noPanic_reject _

theorem SliceWeights.lookup_eq_ok {s : SliceWeights} {l : RefList} {i : Int} {w : RefWeights}
    (h : s.lookup l i = .ok w) : 0 ≤ i ∧ s.get? l i.toNat = some w := by
  unfold SliceWeights.lookup at h
  split at h
  · cases h
  · rename_i hi
    split at h
    · rename_i hget
      obtain rfl := Except.ok.inj h
      exact ⟨by omega, hget⟩
    · cases h

theorem components_lastComponent (s : SliceWeights) (m : Component) :
    s.components (s.lastComponent m) = s.components m := by
  unfold SliceWeights.components SliceWeights.lastComponent
  cases s.chromaFormat <;> cases m <;> rfl

section Calls

variable {s : SliceWeights} {l : RefList} {i j : Int} {m : Component}

theorem RefConformant.of_lookup {w : RefWeights} (h : RefConformant s l i m)
    (hw : s.lookup l i = .ok w) : ∀ c ∈ s.components m, (w.get c).Conformant s c :=
  h w (SliceWeights.lookup_eq_ok hw).1 (SliceWeights.lookup_eq_ok hw).2

theorem RefConformant.lastComponent (h : RefConformant s l i m) :
    RefConformant s l i (s.lastComponent m) := by
  unfold RefConformant
  rw [components_lastComponent]
  exact h

theorem deriveWeighting_bounded (hd : s.DepthsOk) (h0 : RefConformant s .l0 i m)
    (h1 : RefConformant s .l1 j m) :
    NoPanic (deriveWeighting i j s m) ∧
      Ensures (fun r => AllBounded r.1 ∧ AllBounded r.2) (deriveWeighting i j s m) := by
  rcases lt_or_ge i 0 with hi | hi <;> rcases lt_or_ge j 0 with hj | hj
  · -- No list is used.
    rw [deriveWeighting_of_unused hi hj]
    exact ⟨noPanic_reject _, ensures_reject _⟩
  · -- List 1 alone.
    rw [deriveWeighting_of_l1 hi hj]
    refine noPanic_ensures_liftM_bind fun w hw => ?_
    obtain ⟨ws, hws, hb⟩ := uniWeightings_bounded hd (h1.of_lookup hw)
    rw [hws, ok_bind]
    exact ⟨noPanic_ok _, ensures_pure ⟨trivial, hb⟩⟩
  · -- List 0 alone.
    rw [deriveWeighting_of_l0 hi hj]
    refine noPanic_ensures_liftM_bind fun w hw => ?_
    obtain ⟨ws, hws, hb⟩ := uniWeightings_bounded hd (h0.of_lookup hw)
    rw [hws, ok_bind]
    exact ⟨noPanic_ok _, ensures_pure ⟨hb, trivial⟩⟩
  · -- Both lists, with explicit bi-directional weights or refused.
    cases hbi : s.wpBiPred
    · rw [deriveWeighting_of_disabled hbi hi hj]
      exact ⟨noPanic_reject _, ensures_reject _⟩
    rw [deriveWeighting_of_both hbi hi hj]
    refine noPanic_ensures_liftM_bind fun w0 hw0 => noPanic_ensures_liftM_bind fun w1 hw1 => ?_
    obtain ⟨pairs, hpairs, hb0, hb1⟩ :=
      biWeightings_bounded hd (h0.of_lookup hw0) (h1.of_lookup hw1)
    rw [hpairs, ok_bind]
    exact ⟨noPanic_ok _, ensures_pure ⟨hb0, hb1⟩⟩

variable {clip : ClipSet} {dst : Planes} {sel : ComponentSelect}

theorem addWeightBi_noPanic {src0 src1 : Planes} {wp0 wp1 : List Weighting}
    (hs0 : src0.Intermediate) (hs1 : src1.Intermediate) (hw0 : ∀ w ∈ wp0, w.Bounded)
    (hw1 : ∀ w ∈ wp1, w.Bounded) : NoPanic (addWeightBi src0 src1 clip wp0 wp1 dst m sel) := by
  unfold addWeightBi
  refine (noPanic_liftM_reject _).bind fun range _ => noPanic_foldlM _ _ fun u k _ => ?_
  dsimp only
  refine (weightPair_noPanic wp0 wp1 k).bind fun pair hpair => ?_
  obtain ⟨b0, b1⟩ := pair
  obtain ⟨hb0, hb1⟩ := mem_of_weightPair hpair
  refine (planeOf_noPanic _ _ _).bind fun p0 hp0 => (planeOf_noPanic _ _ _).bind fun p1 hp1 =>
    (planeOf_noPanic _ _ _).bind fun d _ => ?_
  split
  · -- The kernel succeeds on the two planes of intermediates.
    refine (noPanic_liftM_of_ok (weightBi_succeeds (hw0 b0 hb0) (hw1 b1 hb1)
      (hs0.get (planeOf_eq_ok.mp hp0)) (hs1.get (planeOf_eq_ok.mp hp1)))).bind fun _ _ => ?_
    exact noPanic_ok _
  · rw [reject_bind]
    exact noPanic_reject _

theorem addWeightUni_noPanic {src : Planes} {wp : List Weighting} (hs : src.Intermediate)
    (hw : ∀ w ∈ wp, w.Bounded) : NoPanic (addWeightUni src clip wp dst m sel) := by
  unfold addWeightUni
  refine (noPanic_liftM_reject _).bind fun range _ => noPanic_foldlM _ _ fun u k _ => ?_
  dsimp only
  split
  · rename_i b hb
    rw [pure_bind]
    refine (planeOf_noPanic _ _ _).bind fun p hp => (planeOf_noPanic _ _ _).bind fun d _ => ?_
    split
    · -- The kernel succeeds on the plane of intermediates.
      refine (noPanic_liftM_of_ok (weightUni_succeeds (hw b (List.mem_of_getElem? hb))
        (hs.get (planeOf_eq_ok.mp hp)))).bind fun _ _ => ?_
      exact noPanic_ok _
    · rw [reject_bind]
      exact noPanic_reject _
  · rw [reject_bind]
    exact noPanic_reject _

variable {src src0 src1 : Planes}

theorem predictUni_noPanic (hd : s.DepthsOk) (hc : RefConformant s l i m)
    (hs : src.Intermediate) : NoPanic (predictUni s l i src clip dst m sel) := by
  rcases lt_or_ge i 0 with hi | hi
  · rw [predictUni_of_neg hi]
    exact noPanic_reject _
  rw [predictUni_of_nonneg hi]
  refine (noPanic_liftM_reject _).bind fun w hw => ?_
  obtain ⟨ws, hws, hb⟩ :=
    uniWeightings_bounded hd (hc.lastComponent.of_lookup (liftM_reject_eq_ok.mp hw))
  rw [hws, ok_bind]
  exact addWeightUni_noPanic hs hb

theorem predictBi_noPanic (hd : s.DepthsOk) (h0 : RefConformant s .l0 i m)
    (h1 : RefConformant s .l1 j m) (hs0 : src0.Intermediate) (hs1 : src1.Intermediate) :
    NoPanic (predictBi s i j src0 src1 clip dst m sel) := by
  cases hbi : s.wpBiPred
  · rw [predictBi_of_disabled hbi]
    exact noPanic_reject _
  rcases lt_or_ge i 0 with hi | hi <;> rcases lt_or_ge j 0 with hj | hj
  · rw [predictBi_of_unused hbi hi hj]
    exact noPanic_ok _
  · rw [predictBi_of_l1 hbi hi hj]
    exact predictUni_noPanic hd h1 hs1
  · rw [predictBi_of_l0 hbi hi hj]
    exact predictUni_noPanic hd h0 hs0
  · rw [predictBi_of_both hbi hi hj]
    refine (noPanic_liftM_reject _).bind fun w0 hw0 =>
      (noPanic_liftM_reject _).bind fun w1 hw1 => ?_
    obtain ⟨pairs, hpairs, hb0, hb1⟩ := biWeightings_bounded hd
      (h0.lastComponent.of_lookup (liftM_reject_eq_ok.mp hw0))
      (h1.lastComponent.of_lookup (liftM_reject_eq_ok.mp hw1))
    rw [hpairs, ok_bind]
    exact addWeightBi_noPanic hs0 hs1 hb0 hb1

end Calls

/-! ## Conformant weighting -/

/-- Conformant weights never overflow: the derivation refuses or returns bounded weightings,
and neither it, the combiners with bounded weightings, nor the entry points over conformant
entries stop on an overflow or a shift out of range. -/
theorem conformant_weighting_never_overflows :
    (∀ (cf : ChromaFormat) (dl dc : Nat) (s0 s : SliceWeights) (calls : List SliceCall),
      SliceWeights.new? cf dl dc = .ok s0 → runCalls s0 calls = .ok s → s.DepthsOk) ∧
    (∀ (clip : ClipRange) (src0 src1 dst : Plane) (b0 b1 : Weighting), b0.Bounded → b1.Bounded →
      (∀ x y, int16.Holds (src0.get x y)) → (∀ x y, int16.Holds (src1.get x y)) →
      ∃ q, weightBi clip src0 src1 dst b0 b1 = .ok q) ∧
    (∀ (clip : ClipRange) (src dst : Plane) (wp : Weighting), wp.Bounded →
      (∀ x y, int16.Holds (src.get x y)) → ∃ q, weightUni clip src dst wp = .ok q) ∧
    (∀ (s : SliceWeights) (i j : Int) (m : Component), s.DepthsOk →
      RefConformant s .l0 i m → RefConformant s .l1 j m →
      NoPanic (deriveWeighting i j s m) ∧
        Ensures (fun r => AllBounded r.1 ∧ AllBounded r.2) (deriveWeighting i j s m)) ∧
    (∀ (src0 src1 : Planes) (clip : ClipSet) (wp0 wp1 : List Weighting) (dst : Planes)
        (m : Component) (sel : ComponentSelect),
      src0.Intermediate → src1.Intermediate → (∀ w ∈ wp0, w.Bounded) → (∀ w ∈ wp1, w.Bounded) →
      NoPanic (addWeightBi src0 src1 clip wp0 wp1 dst m sel)) ∧
    (∀ (src : Planes) (clip : ClipSet) (wp : List Weighting) (dst : Planes) (m : Component)
        (sel : ComponentSelect),
      src.Intermediate → (∀ w ∈ wp, w.Bounded) → NoPanic (addWeightUni src clip wp dst m sel)) ∧
    (∀ (s : SliceWeights) (i j : Int) (src0 src1 : Planes) (clip : ClipSet) (dst : Planes)
        (m : Component) (sel : ComponentSelect),
      s.DepthsOk → RefConformant s .l0 i m → RefConformant s .l1 j m →
      src0.Intermediate → src1.Intermediate →
      NoPanic (predictBi s i j src0 src1 clip dst m sel)) ∧
    (∀ (s : SliceWeights) (l : RefList) (i : Int) (src : Planes) (clip : ClipSet) (dst : Planes)
        (m : Component) (sel : ComponentSelect),
      s.DepthsOk → RefConformant s l i m → src.Intermediate →
      NoPanic (predictUni s l i src clip dst m sel)) :=
  ⟨fun _ _ _ _ _ calls h0 hrun =>
      SliceWeights.depthsOk_runCalls calls _ _ (SliceWeights.depthsOk_of_new? h0) hrun,
    fun _ _ _ _ _ _ h0 h1 hs0 hs1 => weightBi_succeeds h0 h1 hs0 hs1,
    fun _ _ _ _ h hs => weightUni_succeeds h hs,
    fun _ _ _ _ hd h0 h1 => deriveWeighting_bounded hd h0 h1,
    fun _ _ _ _ _ _ _ _ hs0 hs1 hw0 hw1 => addWeightBi_noPanic hs0 hs1 hw0 hw1,
    fun _ _ _ _ _ _ hs hw => addWeightUni_noPanic hs hw,
    fun _ _ _ _ _ _ _ _ _ hd h0 h1 hs0 hs1 => predictBi_noPanic hd h0 h1 hs0 hs1,
    fun _ _ _ _ _ _ _ _ hd hc hs => predictUni_noPanic hd hc hs⟩

theorem conformant_weighting_never_overflows_on_extremes :
    SliceWeights.DepthsOk
        ⟨[.uniform ⟨255, 127, 7, true⟩], [.uniform ⟨-128, -128, 0, true⟩], .monochrome, 12, 12,
          true, false⟩ ∧
      RefConformant ⟨[.uniform ⟨255, 127, 7, true⟩], [.uniform ⟨-128, -128, 0, true⟩],
        .monochrome, 12, 12, true, false⟩ .l0 0 .y ∧
      RefConformant ⟨[.uniform ⟨255, 127, 7, true⟩], [.uniform ⟨-128, -128, 0, true⟩],
        .monochrome, 12, 12, true, false⟩ .l1 0 .y ∧
      (⟨[⟨#[32767], 1, 1, 1⟩]⟩ : Planes).Intermediate ∧
      (⟨[⟨#[-32768], 1, 1, 1⟩]⟩ : Planes).Intermediate ∧
      NoPanic (predictBi ⟨[.uniform ⟨255, 127, 7, true⟩], [.uniform ⟨-128, -128, 0, true⟩],
          .monochrome, 12, 12, true, false⟩ 0 0 ⟨[⟨#[32767], 1, 1, 1⟩]⟩ ⟨[⟨#[-32768], 1, 1, 1⟩]⟩
        ⟨fun _ => ClipRange.eightBit, false, false⟩ ⟨[⟨#[0], 1, 1, 1⟩]⟩ .y ⟨false, false⟩) := by
  have hd : SliceWeights.DepthsOk ⟨[.uniform ⟨255, 127, 7, true⟩],
      [.uniform ⟨-128, -128, 0, true⟩], .monochrome, 12, 12, true, false⟩ :=
    ⟨by decide, by decide⟩
  have h0 : RefConformant ⟨[.uniform ⟨255, 127, 7, true⟩], [.uniform ⟨-128, -128, 0, true⟩],
      .monochrome, 12, 12, true, false⟩ .l0 0 .y := fun w _ hw => by
    obtain rfl := Option.some.inj hw
    decide
  have h1 : RefConformant ⟨[.uniform ⟨255, 127, 7, true⟩], [.uniform ⟨-128, -128, 0, true⟩],
      .monochrome, 12, 12, true, false⟩ .l1 0 .y := fun w _ hw => by
    obtain rfl := Option.some.inj hw
    decide
  exact ⟨hd, h0, h1, by decide, by decide,
    conformant_weighting_never_overflows.2.2.2.2.2.2.1 _ 0 0 _ _ _ _ .y _ hd h0 h1
      (by decide) (by decide)⟩

end Weighted

end InterPred
