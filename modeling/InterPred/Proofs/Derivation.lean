import Mathlib
import InterPred.Proofs.Dispatch
import InterPred.Proofs.WeightKernels

/-!
# What the derivation of weightings computes

`uniSpec` and `biSpec` say the weightings without checked words.
-/

namespace InterPred.Weighted

open Word

/-! ## The specification -/

def firstComponents (s : SliceWeights) (m : Component) : List Component :=
  Component.all.take (min s.chromaFormat.numComponents (m.index + 1))

/-- A signalled offset at the component's bit depth: as signalled with high-precision offsets,
else scaled from 8 bits. -/
def scaledOffset (s : SliceWeights) (c : Component) (p : ScalingParam) : Int :=
  p.offset * if s.highPrecisionOffsets then 1 else 2 ^ (s.bitDepth c - 8)

/-- The uni-directional weighting the parameters `p` specify for component `c`. -/
def uniSpec (s : SliceWeights) (c : Component) (p : ScalingParam) : Weighting :=
  ⟨p.weight, scaledOffset s c p, scaledOffset s c p, p.log2Denom, 2 ^ p.log2Denom / 2⟩

/-- The bi-directional weightings the parameters `p0` (list 0) and `p1` (list 1) specify for
component `c`: offset, shift and round are shared, from the sum and list 0's denominator. -/
def biSpec (s : SliceWeights) (c : Component) (p0 p1 : ScalingParam) : Weighting × Weighting :=
  (⟨p0.weight, scaledOffset s c p0, scaledOffset s c p0 + scaledOffset s c p1, p0.log2Denom + 1,
      2 ^ p0.log2Denom⟩,
    ⟨p1.weight, scaledOffset s c p1, scaledOffset s c p0 + scaledOffset s c p1, p0.log2Denom + 1,
      2 ^ p0.log2Denom⟩)

structure ParamFits (s : SliceWeights) (c : Component) (p : ScalingParam) : Prop where
  log2Denom_lt : p.log2Denom < 31
  offset : int32.Holds (scaledOffset s c p)

structure PairFits (s : SliceWeights) (c : Component) (p0 p1 : ScalingParam) : Prop where
  log2Denom_lt : p0.log2Denom < 31
  offset0 : int32.Holds (scaledOffset s c p0)
  offset1 : int32.Holds (scaledOffset s c p1)
  sum : int32.Holds (scaledOffset s c p0 + scaledOffset s c p1)

instance (s : SliceWeights) (c : Component) (p : ScalingParam) : Decidable (ParamFits s c p) :=
  decidable_of_iff (p.log2Denom < 31 ∧ int32.Holds (scaledOffset s c p))
    ⟨fun ⟨h1, h2⟩ => ⟨h1, h2⟩, fun ⟨h1, h2⟩ => ⟨h1, h2⟩⟩

instance (s : SliceWeights) (c : Component) (p0 p1 : ScalingParam) :
    Decidable (PairFits s c p0 p1) :=
  decidable_of_iff (p0.log2Denom < 31 ∧ int32.Holds (scaledOffset s c p0) ∧
      int32.Holds (scaledOffset s c p1) ∧ int32.Holds (scaledOffset s c p0 + scaledOffset s c p1))
    ⟨fun ⟨h1, h2, h3, h4⟩ => ⟨h1, h2, h3, h4⟩, fun ⟨h1, h2, h3, h4⟩ => ⟨h1, h2, h3, h4⟩⟩

/-! ## One component -/

theorem mul_offsetScale (s : SliceWeights) (c : Component) (p : ScalingParam) :
    p.offset * s.offsetScale c = scaledOffset s c p := by
  unfold scaledOffset SliceWeights.offsetScale
  cases s.highPrecisionOffsets <;> simp

theorem mul_offsetScale_ok {s : SliceWeights} {c : Component} {p : ScalingParam}
    (h : int32.Holds (scaledOffset s c p)) :
    int32.mul p.offset (s.offsetScale c) = .ok (scaledOffset s c p) :=
  mul_ok_iff.mpr ⟨by rw [mul_offsetScale]; exact h, mul_offsetScale s c p⟩

theorem uniWeighting_eq {s : SliceWeights} {c : Component} {p : ScalingParam}
    (h : ParamFits s c p) : uniWeighting s c p = .ok (uniSpec s c p) := by
  have hd := h.log2Denom_lt
  unfold uniWeighting
  rw [mul_offsetScale_ok h.offset, ok_bind, int32_shl_one hd, ok_bind, int32_shr_one, ok_bind,
    int32_wrap_natCast (by omega)]
  rfl

theorem biPair_eq {s : SliceWeights} {c : Component} {p0 p1 : ScalingParam}
    (h : PairFits s c p0 p1) : biPair s c p0 p1 = .ok (biSpec s c p0 p1) := by
  have hd := h.log2Denom_lt
  have hshift : int32.add (p0.log2Denom : Int) 1 = .ok ((p0.log2Denom : Int) + 1) :=
    add_ok_iff.mpr ⟨by rw [int32_holds_iff]; omega, rfl⟩
  unfold biPair
  dsimp only
  rw [mul_offsetScale_ok h.offset0, ok_bind, mul_offsetScale_ok h.offset1, ok_bind,
    (add_ok_iff.mpr ⟨h.sum, rfl⟩ : int32.add _ _ = _), ok_bind, int32_wrap_natCast (by omega),
    hshift, ok_bind, int32_shl_one hd, ok_bind]
  rfl

/-! ## Every component -/

section Components

variable {s : SliceWeights} {m : Component}

theorem uniWeightings_eq {w : RefWeights}
    (hfit : ∀ c ∈ firstComponents s m, ParamFits s c (w.get c)) :
    uniWeightings s w m = .ok ((firstComponents s m).map fun c => uniSpec s c (w.get c)) := by
  unfold uniWeightings
  rw [components_eq, mapM_congr_of_mem (g := fun c => pure (uniSpec s c (w.get c))) fun c hc => by
    rw [uniWeighting_eq (hfit c hc)]; rfl, List.mapM_pure]
  rfl

theorem biWeightings_eq {w0 w1 : RefWeights}
    (hfit : ∀ c ∈ firstComponents s m, PairFits s c (w0.get c) (w1.get c)) :
    biWeightings s w0 w1 m =
      .ok ((firstComponents s m).map fun c => biSpec s c (w0.get c) (w1.get c)) := by
  unfold biWeightings
  rw [components_eq, mapM_congr_of_mem (g := fun c => pure (biSpec s c (w0.get c) (w1.get c)))
    fun c hc => by rw [biPair_eq (hfit c hc)]; rfl, List.mapM_pure]
  rfl

end Components

/-! ## The order of the refusals -/

theorem lookup_of_none {s : SliceWeights} {l : RefList} {i : Int} (hi : 0 ≤ i)
    (h : s.get? l i.toNat = none) : s.lookup l i = .error (.missingWeights i.toNat) := by
  unfold SliceWeights.lookup
  rw [if_neg (by omega), h]

def EntryFault (e : Fault) : Prop := (∃ k, e = .reject (.missingWeights k)) ∨ ∃ o, e = .overflow o

theorem EntryFault.not_reject {e : PredError} (he : ∀ k, e ≠ .missingWeights k) :
    ¬EntryFault (.reject e) := by
  rintro (⟨k, hk⟩ | ⟨o, ho⟩)
  · exact he k (Fault.reject.inj hk)
  · cases ho

theorem raisesOnly_lookup_nonneg (s : SliceWeights) (l : RefList) {i : Int} (hi : 0 ≤ i) :
    RaisesOnly EntryFault (liftM (s.lookup l i) : Except Fault RefWeights) := by
  unfold SliceWeights.lookup
  rw [if_neg (by omega)]
  split
  · exact raisesOnly_ok _
  · exact raisesOnly_reject (.inl ⟨_, rfl⟩)

section Paths

variable {s : SliceWeights} {i j : Int} {m : Component}

theorem deriveWeighting_of_unused (hi : i < 0) (hj : j < 0) :
    deriveWeighting i j s m = reject .noReference := by
  simp [deriveWeighting, hi, hj, reject_bind]

theorem deriveWeighting_of_disabled (hbi : s.wpBiPred = false) (hi : 0 ≤ i) (hj : 0 ≤ j) :
    deriveWeighting i j s m = reject .weightedBiPredDisabled := by
  have h1 : ¬(i < 0 ∧ j < 0) := by omega
  simp [deriveWeighting, h1, hi, hj, hbi, reject_bind]

theorem deriveWeighting_entryFault
    (h : (0 ≤ i ∧ 0 ≤ j ∧ s.wpBiPred = true) ∨ (0 ≤ i ∧ j < 0) ∨ (i < 0 ∧ 0 ≤ j)) :
    RaisesOnly EntryFault (deriveWeighting i j s m) := by
  have hover : ∀ o, EntryFault (.overflow o) := fun o => .inr ⟨o, rfl⟩
  rcases h with ⟨hi, hj, hbi⟩ | ⟨hi, hj⟩ | ⟨hi, hj⟩
  · rw [deriveWeighting_of_both hbi hi hj]
    exact (raisesOnly_lookup_nonneg s .l0 hi).bind fun _ _ =>
      (raisesOnly_lookup_nonneg s .l1 hj).bind fun _ _ =>
        (raisesOnly_biWeightings hover s _ _ m).bind fun _ _ => raisesOnly_ok _
  · rw [deriveWeighting_of_l0 hi hj]
    exact (raisesOnly_lookup_nonneg s .l0 hi).bind fun _ _ =>
      (raisesOnly_uniWeightings hover s _ m).bind fun _ _ => raisesOnly_ok _
  · rw [deriveWeighting_of_l1 hi hj]
    exact (raisesOnly_lookup_nonneg s .l1 hj).bind fun _ _ =>
      (raisesOnly_uniWeightings hover s _ m).bind fun _ _ => raisesOnly_ok _

theorem deriveWeighting_eq_noReference_iff :
    deriveWeighting i j s m = reject .noReference ↔ i < 0 ∧ j < 0 := by
  refine ⟨fun h => ?_, fun ⟨hi, hj⟩ => deriveWeighting_of_unused hi hj⟩
  by_contra hused
  have hne := EntryFault.not_reject (e := .noReference) fun k hk => by cases hk
  by_cases hi : 0 ≤ i <;> by_cases hj : 0 ≤ j
  · cases hbi : s.wpBiPred
    · rw [deriveWeighting_of_disabled hbi hi hj] at h
      cases h
    · exact hne (deriveWeighting_entryFault (.inl ⟨hi, hj, hbi⟩) _ h)
  · exact hne (deriveWeighting_entryFault (.inr (.inl ⟨hi, by omega⟩)) _ h)
  · exact hne (deriveWeighting_entryFault (.inr (.inr ⟨by omega, hj⟩)) _ h)
  · exact hused ⟨by omega, by omega⟩

theorem deriveWeighting_eq_disabled_iff (hi : 0 ≤ i) (hj : 0 ≤ j) :
    deriveWeighting i j s m = reject .weightedBiPredDisabled ↔ s.wpBiPred = false := by
  refine ⟨fun h => ?_, fun hbi => deriveWeighting_of_disabled hbi hi hj⟩
  cases hbi : s.wpBiPred
  · rfl
  · exact absurd (deriveWeighting_entryFault (.inl ⟨hi, hj, hbi⟩) _ h)
      (EntryFault.not_reject fun k hk => by cases hk)

/-! ## The answers of each path -/

theorem deriveWeighting_both_missing0 (hbi : s.wpBiPred = true) (hi : 0 ≤ i) (hj : 0 ≤ j)
    (h0 : s.get? .l0 i.toNat = none) :
    deriveWeighting i j s m = reject (.missingWeights i.toNat) := by
  rw [deriveWeighting_of_both hbi hi hj, lookup_of_none hi h0]
  rfl

theorem deriveWeighting_both_missing1 (hbi : s.wpBiPred = true) (hi : 0 ≤ i) (hj : 0 ≤ j)
    {w0 : RefWeights} (h0 : s.get? .l0 i.toNat = some w0) (h1 : s.get? .l1 j.toNat = none) :
    deriveWeighting i j s m = reject (.missingWeights j.toNat) := by
  rw [deriveWeighting_of_both hbi hi hj, lookup_of_get? hi h0, liftM_ok, ok_bind,
    lookup_of_none hj h1]
  rfl

theorem deriveWeighting_both_ok (hbi : s.wpBiPred = true) (hi : 0 ≤ i) (hj : 0 ≤ j)
    {w0 w1 : RefWeights} (h0 : s.get? .l0 i.toNat = some w0) (h1 : s.get? .l1 j.toNat = some w1)
    (hfit : ∀ c ∈ firstComponents s m, PairFits s c (w0.get c) (w1.get c)) :
    deriveWeighting i j s m = .ok
      (some ((firstComponents s m).map fun c => (biSpec s c (w0.get c) (w1.get c)).1),
        some ((firstComponents s m).map fun c => (biSpec s c (w0.get c) (w1.get c)).2)) := by
  rw [deriveWeighting_of_both hbi hi hj, lookup_of_get? hi h0, liftM_ok, ok_bind,
    lookup_of_get? hj h1, liftM_ok, ok_bind, biWeightings_eq hfit, ok_bind, List.map_map,
    List.map_map]
  rfl

theorem deriveWeighting_l0_missing (hi : 0 ≤ i) (hj : j < 0) (h0 : s.get? .l0 i.toNat = none) :
    deriveWeighting i j s m = reject (.missingWeights i.toNat) := by
  rw [deriveWeighting_of_l0 hi hj, lookup_of_none hi h0]
  rfl

theorem deriveWeighting_l0_ok (hi : 0 ≤ i) (hj : j < 0) {w : RefWeights}
    (h0 : s.get? .l0 i.toNat = some w) (hfit : ∀ c ∈ firstComponents s m, ParamFits s c (w.get c)) :
    deriveWeighting i j s m =
      .ok (some ((firstComponents s m).map fun c => uniSpec s c (w.get c)), none) := by
  rw [deriveWeighting_of_l0 hi hj, lookup_of_get? hi h0, liftM_ok, ok_bind, uniWeightings_eq hfit,
    ok_bind]
  rfl

theorem deriveWeighting_l1_missing (hi : i < 0) (hj : 0 ≤ j) (h1 : s.get? .l1 j.toNat = none) :
    deriveWeighting i j s m = reject (.missingWeights j.toNat) := by
  rw [deriveWeighting_of_l1 hi hj, lookup_of_none hj h1]
  rfl

theorem deriveWeighting_l1_ok (hi : i < 0) (hj : 0 ≤ j) {w : RefWeights}
    (h1 : s.get? .l1 j.toNat = some w) (hfit : ∀ c ∈ firstComponents s m, ParamFits s c (w.get c)) :
    deriveWeighting i j s m =
      .ok (none, some ((firstComponents s m).map fun c => uniSpec s c (w.get c))) := by
  rw [deriveWeighting_of_l1 hi hj, lookup_of_get? hj h1, liftM_ok, ok_bind, uniWeightings_eq hfit,
    ok_bind]
  rfl

end Paths

/-! ## The derivation -/

/-- The derivation of weightings, check by check: the refusal of each failed check, in order,
and otherwise `biSpec` or `uniSpec` of the covered components in the slots of the lists
in use. -/
theorem deriveWeighting_eq_spec (s : SliceWeights) (i j : Int) (m : Component) :
    (deriveWeighting i j s m = reject .noReference ↔ i < 0 ∧ j < 0) ∧
    (0 ≤ i → 0 ≤ j →
      (deriveWeighting i j s m = reject .weightedBiPredDisabled ↔ s.wpBiPred = false) ∧
      (s.wpBiPred = true → s.get? .l0 i.toNat = none →
        deriveWeighting i j s m = reject (.missingWeights i.toNat)) ∧
      (s.wpBiPred = true → ∀ w0, s.get? .l0 i.toNat = some w0 → s.get? .l1 j.toNat = none →
        deriveWeighting i j s m = reject (.missingWeights j.toNat)) ∧
      (s.wpBiPred = true → ∀ w0 w1, s.get? .l0 i.toNat = some w0 → s.get? .l1 j.toNat = some w1 →
        (∀ c ∈ firstComponents s m, PairFits s c (w0.get c) (w1.get c)) →
        deriveWeighting i j s m = .ok
          (some ((firstComponents s m).map fun c => (biSpec s c (w0.get c) (w1.get c)).1),
            some ((firstComponents s m).map fun c => (biSpec s c (w0.get c) (w1.get c)).2)))) ∧
    (0 ≤ i → j < 0 →
      (s.get? .l0 i.toNat = none → deriveWeighting i j s m = reject (.missingWeights i.toNat)) ∧
      (∀ w, s.get? .l0 i.toNat = some w → (∀ c ∈ firstComponents s m, ParamFits s c (w.get c)) →
        deriveWeighting i j s m =
          .ok (some ((firstComponents s m).map fun c => uniSpec s c (w.get c)), none))) ∧
    (i < 0 → 0 ≤ j →
      (s.get? .l1 j.toNat = none → deriveWeighting i j s m = reject (.missingWeights j.toNat)) ∧
      (∀ w, s.get? .l1 j.toNat = some w → (∀ c ∈ firstComponents s m, ParamFits s c (w.get c)) →
        deriveWeighting i j s m =
          .ok (none, some ((firstComponents s m).map fun c => uniSpec s c (w.get c))))) :=
  ⟨deriveWeighting_eq_noReference_iff,
    fun hi hj => ⟨deriveWeighting_eq_disabled_iff hi hj,
      fun hbi h0 => deriveWeighting_both_missing0 hbi hi hj h0,
      fun hbi _ h0 h1 => deriveWeighting_both_missing1 hbi hi hj h0 h1,
      fun hbi _ _ h0 h1 hfit => deriveWeighting_both_ok hbi hi hj h0 h1 hfit⟩,
    fun hi hj => ⟨deriveWeighting_l0_missing hi hj,
      fun _ h0 hfit => deriveWeighting_l0_ok hi hj h0 hfit⟩,
    fun hi hj => ⟨deriveWeighting_l1_missing hi hj,
      fun _ h1 hfit => deriveWeighting_l1_ok hi hj h1 hfit⟩⟩

theorem deriveWeighting_eq_spec_on_bi :
    (∀ c ∈ firstComponents
        ⟨[.uniform (.coded 3 5 2)], [.uniform (.coded 4 (-2) 2)], .yuv420, 10, 10, true, false⟩ .cr,
      PairFits
        ⟨[.uniform (.coded 3 5 2)], [.uniform (.coded 4 (-2) 2)], .yuv420, 10, 10, true, false⟩ c
        ((RefWeights.uniform (.coded 3 5 2)).get c)
        ((RefWeights.uniform (.coded 4 (-2) 2)).get c)) ∧
    deriveWeighting 0 0
        ⟨[.uniform (.coded 3 5 2)], [.uniform (.coded 4 (-2) 2)], .yuv420, 10, 10, true, false⟩ .cr =
      .ok (some [⟨3, 20, 12, 3, 4⟩, ⟨3, 20, 12, 3, 4⟩, ⟨3, 20, 12, 3, 4⟩],
        some [⟨4, -8, 12, 3, 4⟩, ⟨4, -8, 12, 3, 4⟩, ⟨4, -8, 12, 3, 4⟩]) := by
  have hfit : ∀ c ∈ firstComponents
        ⟨[.uniform (.coded 3 5 2)], [.uniform (.coded 4 (-2) 2)], .yuv420, 10, 10, true, false⟩ .cr,
      PairFits
        ⟨[.uniform (.coded 3 5 2)], [.uniform (.coded 4 (-2) 2)], .yuv420, 10, 10, true, false⟩ c
        ((RefWeights.uniform (.coded 3 5 2)).get c)
        ((RefWeights.uniform (.coded 4 (-2) 2)).get c) := by
    decide
  refine ⟨hfit, ?_⟩
  rw [((deriveWeighting_eq_spec _ 0 0 .cr).2.1 le_rfl le_rfl).2.2.2 rfl _ _ rfl rfl hfit]
  rfl

end InterPred.Weighted
