import Mathlib
import InterPred.Proofs.Dispatch
import InterPred.Proofs.NoPanic
import InterPred.Proofs.WeightKernels

/-!
# Bi-prediction of one block with itself
-/

namespace InterPred

open Word

def Fault.asUni : Fault → Fault
  | .reject (.dimensionMismatch .biPlanes) => .reject (.dimensionMismatch .uniPlanes)
  | f => f

namespace Weighted

/-! ## Computations that end alike -/

/-- `y` ends as `x` does wherever `x` does not overflow, a refusal relabelled by
`Fault.asUni`. -/
structure Mirrors {α : Type} (x y : Except Fault α) : Prop where
  ok : ∀ a, x = .ok a → y = .ok a
  reject : ∀ e, x = .error (.reject e) → y = .error (Fault.asUni (.reject e))

section Mirrors

variable {α β : Type}

theorem mirrors_pure (a : α) : Mirrors (pure a : Except Fault α) (pure a) :=
  ⟨fun _ h => h, fun _ h => (by cases h)⟩

theorem mirrors_reject {e e' : PredError} (h : Fault.asUni (.reject e) = .reject e') :
    Mirrors (reject e : Except Fault α) (reject e') := by
  refine ⟨fun _ h => (by cases h), fun e'' he => ?_⟩
  cases he
  rw [h]
  rfl

theorem Mirrors.bind {x y : Except Fault α} {f g : α → Except Fault β} (hxy : Mirrors x y)
    (hfg : ∀ a, x = .ok a → Mirrors (f a) (g a)) : Mirrors (x >>= f) (y >>= g) := by
  cases x with
  | ok a =>
    rw [hxy.ok a rfl]
    exact hfg a rfl
  | error e =>
    refine ⟨fun _ h => (by cases h), fun e' h => ?_⟩
    have he : e = .reject e' := Except.error.inj h
    subst he
    rw [hxy.reject e' rfl]
    rfl

theorem mirrors_foldlM {f g : β → α → Except Fault β} :
    ∀ (l : List α) (b : β), (∀ b, ∀ a ∈ l, Mirrors (f b a) (g b a)) →
      Mirrors (l.foldlM f b) (l.foldlM g b) := by
  intro l
  induction l with
  | nil => exact fun b _ => mirrors_pure b
  | cons a l ih =>
    intro b h
    rw [List.foldlM_cons, List.foldlM_cons]
    exact (h b a List.mem_cons_self).bind fun b' _ =>
      ih b' fun b'' a' ha' => h b'' a' (List.mem_cons_of_mem a ha')

theorem Mirrors.eq_of_noPanic {x y : Except Fault α} (hxy : Mirrors x y) (hx : NoPanic x) :
    x.mapError Fault.asUni = y := by
  cases x with
  | ok a => exact (hxy.ok a rfl).symm
  | error e =>
    cases e with
    | reject e => exact (hxy.reject e rfl).symm
    | overflow o => exact absurd rfl (hx o)

theorem ok_of_noPanic_bind {x : Except Fault α} {f : α → Except Fault β}
    (hx : RaisesOnly (fun e => ∃ o, e = .overflow o) x) (h : NoPanic (x >>= f)) :
    ∃ a, x = .ok a := by
  cases x with
  | ok a => exact ⟨a, rfl⟩
  | error e =>
    obtain ⟨o, rfl⟩ := hx e rfl
    exact absurd rfl (h o)

end Mirrors

/-! ## Derivations from one parameter set -/

/-- The bi weightings of component `c` double its uni weighting `u`. -/
structure Doubles (clip : ClipSet) (c : Component) (b0 b1 u : Weighting) : Prop where
  weight0 : b0.weight = u.weight
  weight1 : b1.weight = u.weight
  offset : b0.offset = 2 * u.offset
  shift : ∃ d : Nat, u.shift = d ∧ b0.shift = d + 1 ∧ d + 1 + (clip.component c).fracBits < 31

theorem biPair_same {s : SliceWeights} {clip : ClipSet} {c : Component} {p : ScalingParam}
    {b0 b1 : Weighting} (hroom : p.log2Denom + 1 + (clip.component c).fracBits < 31)
    (h : biPair s c p p = .ok (b0, b1)) :
    ∃ u, uniWeighting s c p = .ok u ∧ Doubles clip c b0 b1 u := by
  unfold biPair at h
  obtain ⟨o0, h1, h⟩ := bind_eq_ok.mp h
  obtain ⟨o1, h2, h⟩ := bind_eq_ok.mp h
  obtain ⟨offset, h3, h⟩ := bind_eq_ok.mp h
  obtain ⟨shift, h4, h⟩ := bind_eq_ok.mp h
  obtain ⟨round, -, h⟩ := bind_eq_ok.mp h
  -- Both lists scale the one offset, and the denominator is small enough not to wrap.
  obtain rfl : o0 = o1 := Except.ok.inj (h1.symm.trans h2)
  have hwrap : int32.wrap (p.log2Denom : Int) = p.log2Denom := int32_wrap_natCast (by omega)
  obtain ⟨-, rfl⟩ := add_ok_iff.mp h3
  rw [hwrap] at h4
  obtain ⟨-, rfl⟩ := add_ok_iff.mp h4
  obtain ⟨rfl, rfl⟩ := Prod.mk.inj (Except.ok.inj h).symm
  refine ⟨⟨p.weight, o0, o0, p.log2Denom, 2 ^ p.log2Denom / 2⟩, ?_,
    ⟨rfl, rfl, by ring, p.log2Denom, rfl, rfl, hroom⟩⟩
  unfold uniWeighting
  rw [h1, ok_bind, int32_shl_one (by omega), ok_bind, int32_shr_one, ok_bind, hwrap]
  rfl

theorem uniWeightings_of_biWeightings {s : SliceWeights} {clip : ClipSet} {w : RefWeights}
    {maxComp : Component} {pairs : List (Weighting × Weighting)}
    (hroom : ∀ c : Component, c.index < s.chromaFormat.numComponents →
      (w.get c).log2Denom + 1 + (clip.component c).fracBits < 31)
    (h : biWeightings s w w (s.lastComponent maxComp) = .ok pairs) :
    ∃ ws, uniWeightings s w (s.lastComponent maxComp) = .ok ws ∧
      ∀ k ≤ (s.lastComponent maxComp).index, ∃ b0 b1 u, (pairs.map Prod.fst)[k]? = some b0 ∧
        (pairs.map Prod.snd)[k]? = some b1 ∧ ws[k]? = some u ∧
        Doubles clip (Component.ofIndexD k) b0 b1 u := by
  obtain ⟨ws, hws, hrel⟩ := mapM_ok_of_imp (R := fun c pr u => Doubles clip c pr.1 pr.2 u) _ _
    (fun c hc pr hpr => by
      obtain ⟨u, hu, hd⟩ := biPair_same (hroom c (index_lt_of_mem_components hc))
        (liftM_eq_ok.mp hpr)
      exact ⟨u, liftM_eq_ok.mpr hu, hd⟩) h
  refine ⟨ws, hws, fun k hk => ?_⟩
  -- Position `k` holds the component of index `k`, its pair and its uni weighting.
  obtain ⟨hck, -⟩ := getElem?_components_lastComponent s maxComp hk
  have hlen := length_biWeightings h
  have hlenw := length_uniWeightings hws
  rw [length_components_lastComponent] at hlen hlenw
  obtain ⟨pr, hpr⟩ : ∃ pr, pairs[k]? = some pr := ⟨pairs[k], List.getElem?_eq_getElem (by omega)⟩
  obtain ⟨u, hu⟩ : ∃ u, ws[k]? = some u := ⟨ws[k], List.getElem?_eq_getElem (by omega)⟩
  exact ⟨pr.1, pr.2, u, by simp [hpr], by simp [hpr], hu, hrel k _ pr u hck hpr hu⟩

/-! ## Kernels and the fold over components -/

theorem mirrors_weight {clip : ClipSet} {c : Component} {src dst : Plane} {b0 b1 u : Weighting}
    (hd : Doubles clip c b0 b1 u) :
    Mirrors (liftM (weightBi (clip.component c) src src dst b0 b1) : Except Fault Plane)
      (liftM (weightUni (clip.component c) src dst u)) := by
  obtain ⟨d, hu, hb, hroom⟩ := hd.shift
  refine ⟨fun q h => liftM_eq_ok.mpr ?_, fun e h => ?_⟩
  · exact weightBi_same hu hb hd.weight0 hd.weight1 hd.offset hroom (liftM_eq_ok.mp h)
  · -- A kernel can only overflow.
    cases hw : weightBi (clip.component c) src src dst b0 b1 <;> rw [hw] at h <;> cases h

theorem addWeightBi_mirrors {src : Planes} {clip : ClipSet} {wp0 wp1 ws : List Weighting}
    {dst : Planes} {m : Component} {sel : ComponentSelect}
    (hrel : ∀ k ≤ m.index, ∃ b0 b1 u, wp0[k]? = some b0 ∧ wp1[k]? = some b1 ∧ ws[k]? = some u ∧
      Doubles clip (Component.ofIndexD k) b0 b1 u) :
    Mirrors (addWeightBi src src clip wp0 wp1 dst m sel) (addWeightUni src clip ws dst m sel) := by
  unfold addWeightBi addWeightUni
  cases hr : componentRange sel m with
  | error e =>
    -- The only refusal of `componentRange` keeps its label.
    rw [componentRange_eq_error hr]
    exact Mirrors.bind (mirrors_reject rfl) fun _ h => by cases h
  | ok range =>
    rw [liftM_ok, ok_bind, ok_bind]
    refine mirrors_foldlM _ _ fun u k hk => ?_
    obtain ⟨b0, b1, w, h0, h1, hw, hd⟩ :=
      hrel k (le_of_mem_componentRange hr (List.takeWhile_subset _ hk))
    dsimp only
    rw [weightPair_of_getElem? h0 h1, ok_bind, hw]
    dsimp only
    rw [pure_bind]
    -- Both calls read one source plane and one destination plane, and check one size.
    cases hs : src.get? (Component.ofIndexD k) with
    | none =>
      simp only [planeOf, hs, reject_bind]
      exact mirrors_reject rfl
    | some s0 =>
      cases hu : u.get? (Component.ofIndexD k) with
      | none =>
        simp only [planeOf, hs, hu, pure_bind, reject_bind]
        exact mirrors_reject rfl
      | some d =>
        simp only [planeOf, hs, hu, pure_bind, Bool.and_self]
        cases hsz : s0.sameSize d
        · -- The sizes differ: each call names its own mismatch.
          simp only [Bool.false_eq_true, if_false, reject_bind]
          exact mirrors_reject rfl
        · simp only [if_true]
          exact (mirrors_weight hd).bind fun q _ => mirrors_pure _

/-! ## The entry points -/

/-- Bi-prediction of one block with itself from two references of the same parameters is
uni-prediction, where it does not overflow and its rounding units are 32-bit values. -/
theorem predictBi_self_eq_predictUni (s : SliceWeights) (i j : Int) (w0 w1 : RefWeights)
    (src : Planes) (clip : ClipSet) (dst : Planes) (maxComp : Component) (sel : ComponentSelect)
    (hbi : s.wpBiPred = true) (hi : 0 ≤ i) (hj : 0 ≤ j)
    (h0 : s.get? .l0 i.toNat = some w0) (h1 : s.get? .l1 j.toNat = some w1)
    (hsame : ∀ c : Component, c.index < s.chromaFormat.numComponents → w1.get c = w0.get c)
    (hroom : ∀ c : Component, c.index < s.chromaFormat.numComponents →
      (w0.get c).log2Denom + 1 + (clip.component c).fracBits < 31)
    (hno : NoPanic (predictBi s i j src src clip dst maxComp sel)) :
    (predictBi s i j src src clip dst maxComp sel).mapError Fault.asUni =
        predictUni s .l0 i src clip dst maxComp sel ∧
      predictUni s .l1 j src clip dst maxComp sel = predictUni s .l0 i src clip dst maxComp sel := by
  have hcarried : ∀ c ∈ s.components (s.lastComponent maxComp),
      c.index < s.chromaFormat.numComponents := fun c hc => index_lt_of_mem_components hc
  -- On the components a derivation visits, the two references carry the same parameters.
  have hbw : biWeightings s w0 w1 (s.lastComponent maxComp) =
      biWeightings s w0 w0 (s.lastComponent maxComp) :=
    mapM_congr_of_mem fun c hc => by rw [hsame c (hcarried c hc)]
  have huw : uniWeightings s w1 (s.lastComponent maxComp) =
      uniWeightings s w0 (s.lastComponent maxComp) :=
    mapM_congr_of_mem fun c hc => by rw [hsame c (hcarried c hc)]
  have hbiEq : predictBi s i j src src clip dst maxComp sel =
      (biWeightings s w0 w0 (s.lastComponent maxComp) >>= fun pairs =>
        addWeightBi src src clip (pairs.map Prod.fst) (pairs.map Prod.snd) dst
          (s.lastComponent maxComp) sel) := by
    rw [predictBi_of_get? hbi hi hj h0 h1, hbw]
  refine ⟨?_, by rw [predictUni_of_get? hj h1, predictUni_of_get? hi h0, huw]⟩
  -- The derivation can only overflow, and the call does not, so it succeeds.
  rw [hbiEq] at hno ⊢
  obtain ⟨pairs, hpairs⟩ :=
    ok_of_noPanic_bind (raisesOnly_biWeightings (fun o => ⟨o, rfl⟩) s w0 w0 _) hno
  obtain ⟨ws, hws, hrel⟩ := uniWeightings_of_biWeightings hroom hpairs
  rw [hpairs, ok_bind] at hno ⊢
  rw [predictUni_of_get? hi h0, hws, ok_bind]
  exact (addWeightBi_mirrors hrel).eq_of_noPanic hno

theorem predictBi_self_eq_predictUni_on_flat :
    (predictBi ⟨[.uniform (.coded 1 0 0)], [.uniform (.coded 1 0 0)], .yuv420, 8, 8, true, false⟩
        0 0 ⟨[⟨#[0], 1, 1, 1⟩]⟩ ⟨[⟨#[0], 1, 1, 1⟩]⟩ ⟨fun _ => ClipRange.eightBit, false, false⟩
        ⟨[⟨#[0], 1, 1, 1⟩]⟩ .y ⟨false, false⟩).mapError Fault.asUni =
      predictUni ⟨[.uniform (.coded 1 0 0)], [.uniform (.coded 1 0 0)], .yuv420, 8, 8, true, false⟩
        .l0 0 ⟨[⟨#[0], 1, 1, 1⟩]⟩ ⟨fun _ => ClipRange.eightBit, false, false⟩
        ⟨[⟨#[0], 1, 1, 1⟩]⟩ .y ⟨false, false⟩ ∧
    predictUni ⟨[.uniform (.coded 1 0 0)], [.uniform (.coded 1 0 0)], .yuv420, 8, 8, true, false⟩
        .l1 0 ⟨[⟨#[0], 1, 1, 1⟩]⟩ ⟨fun _ => ClipRange.eightBit, false, false⟩
        ⟨[⟨#[0], 1, 1, 1⟩]⟩ .y ⟨false, false⟩ =
      predictUni ⟨[.uniform (.coded 1 0 0)], [.uniform (.coded 1 0 0)], .yuv420, 8, 8, true, false⟩
        .l0 0 ⟨[⟨#[0], 1, 1, 1⟩]⟩ ⟨fun _ => ClipRange.eightBit, false, false⟩
        ⟨[⟨#[0], 1, 1, 1⟩]⟩ .y ⟨false, false⟩ :=
  predictBi_self_eq_predictUni _ 0 0 _ _ _ _ _ .y ⟨false, false⟩ rfl (by decide) (by decide) rfl rfl
    (fun _ _ => rfl) (fun c _ => by cases c <;> decide)
    (noPanic_of_eq_ok (a := ⟨[⟨#[128], 1, 1, 1⟩]⟩) rfl)

/-- Where the statement above stops: a mismatch names another direction, and at
`d + 1 + fb = 31` the bi rounding unit wraps. -/
theorem predictBi_self_differs_from_predictUni :
    (predictBi ⟨[.uniform (.coded 1 0 0)], [.uniform (.coded 1 0 0)], .yuv420, 8, 8, true, false⟩
        0 0 ⟨[⟨#[0], 1, 1, 1⟩]⟩ ⟨[⟨#[0], 1, 1, 1⟩]⟩ ⟨fun _ => ClipRange.eightBit, false, false⟩
        ⟨[⟨#[0, 0], 2, 2, 1⟩]⟩ .y ⟨false, false⟩ =
        .error (.reject (.dimensionMismatch .biPlanes)) ∧
      predictUni ⟨[.uniform (.coded 1 0 0)], [.uniform (.coded 1 0 0)], .yuv420, 8, 8, true, false⟩
        .l0 0 ⟨[⟨#[0], 1, 1, 1⟩]⟩ ⟨fun _ => ClipRange.eightBit, false, false⟩
        ⟨[⟨#[0, 0], 2, 2, 1⟩]⟩ .y ⟨false, false⟩ =
        .error (.reject (.dimensionMismatch .uniPlanes))) ∧
    (predictBi ⟨[.uniform (.coded 16384 0 24)], [.uniform (.coded 16384 0 24)], .yuv420, 8, 8, true,
        false⟩ 0 0 ⟨[⟨#[24576], 1, 1, 1⟩]⟩ ⟨[⟨#[24576], 1, 1, 1⟩]⟩
        ⟨fun _ => ClipRange.eightBit, false, false⟩ ⟨[⟨#[0], 1, 1, 1⟩]⟩ .y ⟨false, false⟩ =
        .ok ⟨[⟨#[0], 1, 1, 1⟩]⟩ ∧
      predictUni ⟨[.uniform (.coded 16384 0 24)], [.uniform (.coded 16384 0 24)], .yuv420, 8, 8,
        true, false⟩ .l0 0 ⟨[⟨#[24576], 1, 1, 1⟩]⟩ ⟨fun _ => ClipRange.eightBit, false, false⟩
        ⟨[⟨#[0], 1, 1, 1⟩]⟩ .y ⟨false, false⟩ = .ok ⟨[⟨#[1], 1, 1, 1⟩]⟩) :=
  ⟨⟨rfl, rfl⟩, rfl, rfl⟩

end Weighted

end InterPred
