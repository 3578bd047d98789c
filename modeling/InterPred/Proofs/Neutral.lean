import Mathlib
import InterPred.Proofs.Dispatch
import InterPred.Proofs.NoPanic
import InterPred.Proofs.WeightKernels

/-!
# Default weights are neutral
-/

namespace InterPred

open Word

def Planes.Intermediate (u : Planes) : Prop := ∀ p ∈ u.planes, ∀ v ∈ p.data, int16.Holds v

instance (u : Planes) : Decidable u.Intermediate :=
  inferInstanceAs (Decidable (∀ p ∈ u.planes, ∀ v ∈ p.data, int16.Holds v))

def Planes.sample (u : Planes) (c : Component) (x y : Nat) : Int :=
  match u.get? c with
  | some p => p.get x y
  | none => 0

theorem Planes.sample_of_get? {u : Planes} {c : Component} {p : Plane} (h : u.get? c = some p)
    (x y : Nat) : u.sample c x y = p.get x y := by
  simp [Planes.sample, h]

theorem Planes.Intermediate.get {u : Planes} (hu : u.Intermediate) {c : Component} {p : Plane}
    (h : u.get? c = some p) (x y : Nat) : int16.Holds (p.get x y) := by
  have hp : p ∈ u.planes := List.mem_of_getElem? h
  unfold Plane.get Array.getD
  split
  · exact hu p hp _ (Array.getElem_mem _)
  · simp

namespace Weighted

/-! ## Neutral parameters and their weightings -/

/-- Parameters that weigh nothing: weight `2 ^ d` at a denominator `d ≤ 7`, offset `0`. -/
structure ScalingParam.Neutral (p : ScalingParam) : Prop where
  weight : p.weight = 2 ^ p.log2Denom
  offset : p.offset = 0
  small : p.log2Denom ≤ 7

theorem absent_neutral {d : Nat} {p : ScalingParam} (hd : d ≤ 7)
    (h : ScalingParam.absent d = .ok p) : p.Neutral := by
  unfold ScalingParam.absent at h
  rw [int32_shl_one (by omega), ok_bind] at h
  obtain rfl := (Except.ok.inj h).symm
  exact ⟨rfl, rfl, hd⟩

def neutralUni (d : Nat) : Weighting := ⟨2 ^ d, 0, 0, d, 2 ^ d / 2⟩

def neutralBi (d : Nat) : Weighting := ⟨2 ^ d, 0, 0, d + 1, 2 ^ d⟩

theorem uniWeighting_neutral (s : SliceWeights) (c : Component) {p : ScalingParam}
    (hp : p.Neutral) : uniWeighting s c p = .ok (neutralUni p.log2Denom) := by
  have hd := hp.small
  unfold uniWeighting
  rw [hp.offset, mul_zero_ok, ok_bind, int32_shl_one (by omega), ok_bind, int32_shr_one, ok_bind,
    int32_wrap_natCast (by omega), hp.weight]
  rfl

theorem biPair_neutral (s : SliceWeights) (c : Component) {p0 p1 : ScalingParam}
    (h0 : p0.Neutral) (h1 : p1.Neutral) (hd : p1.log2Denom = p0.log2Denom) :
    biPair s c p0 p1 = .ok (neutralBi p0.log2Denom, neutralBi p0.log2Denom) := by
  have hsmall := h0.small
  have hshift : int32.add (p0.log2Denom : Int) 1 = .ok ((p0.log2Denom + 1 : Nat) : Int) :=
    add_ok_iff.mpr ⟨by rw [int32_holds_iff]; omega, by push_cast; rfl⟩
  unfold biPair
  dsimp only
  rw [h0.offset, h1.offset, mul_zero_ok, ok_bind, ok_bind,
    (add_ok_iff.mpr ⟨by simp, rfl⟩ : int32.add 0 0 = .ok 0), ok_bind,
    int32_wrap_natCast (by omega), hshift, ok_bind, int32_shl_one (by omega), ok_bind, h0.weight,
    h1.weight, hd]
  rfl

theorem uniWeightings_neutral {s : SliceWeights} {w : RefWeights} {m : Component}
    (hw : ∀ c ∈ s.components m, (w.get c).Neutral) :
    uniWeightings s w m = .ok ((s.components m).map fun c => neutralUni (w.get c).log2Denom) := by
  unfold uniWeightings
  rw [mapM_congr_of_mem (g := fun c => pure (neutralUni (w.get c).log2Denom)) fun c hc => by
    rw [uniWeighting_neutral s c (hw c hc)]; rfl, List.mapM_pure]
  rfl

theorem biWeightings_neutral {s : SliceWeights} {w0 w1 : RefWeights} {m : Component}
    (hw : ∀ c ∈ s.components m,
      (w0.get c).Neutral ∧ (w1.get c).Neutral ∧ (w1.get c).log2Denom = (w0.get c).log2Denom) :
    biWeightings s w0 w1 m = .ok ((s.components m).map fun c =>
      (neutralBi (w0.get c).log2Denom, neutralBi (w0.get c).log2Denom)) := by
  unfold biWeightings
  rw [mapM_congr_of_mem (g := fun c => pure (neutralBi (w0.get c).log2Denom,
    neutralBi (w0.get c).log2Denom)) fun c hc => by
      obtain ⟨h0, h1, hd⟩ := hw c hc
      rw [biPair_neutral s c h0 h1 hd]; rfl, List.mapM_pure]
  rfl

/-! ## Calls that refuse or fill -/

/-- `x` refuses, or succeeds with `v`; it never overflows. -/
def YieldsOrRefuses {α : Type} (x : Except Fault α) (v : α) : Prop :=
  x = .ok v ∨ ∃ e, x = reject e

section Yields

variable {α β : Type}

theorem yieldsOrRefuses_reject (e : PredError) (v : α) : YieldsOrRefuses (reject e) v :=
  .inr ⟨e, rfl⟩

theorem YieldsOrRefuses.noPanic {x : Except Fault α} {v : α} (h : YieldsOrRefuses x v) :
    NoPanic x := by
  rcases h with rfl | ⟨e, rfl⟩
  · exact noPanic_ok v
  · exact noPanic_reject e

theorem YieldsOrRefuses.eq_of_ok {x : Except Fault α} {v a : α} (h : YieldsOrRefuses x v)
    (hx : x = .ok a) : a = v := by
  rcases h with rfl | ⟨e, rfl⟩
  · exact (Except.ok.inj hx).symm
  · cases hx

theorem YieldsOrRefuses.bind {x : Except Fault α} {f : α → Except Fault β} {a : α} {b : β}
    (hx : YieldsOrRefuses x a) (hf : YieldsOrRefuses (f a) b) : YieldsOrRefuses (x >>= f) b := by
  rcases hx with rfl | ⟨e, rfl⟩
  · exact hf
  · exact yieldsOrRefuses_reject e b

theorem yieldsOrRefuses_foldlM {f : β → α → Except Fault β} {g : β → α → β} :
    ∀ (l : List α) (b : β), (∀ b, ∀ a ∈ l, YieldsOrRefuses (f b a) (g b a)) →
      YieldsOrRefuses (l.foldlM f b) (l.foldl g b) := by
  intro l
  induction l with
  | nil => exact fun b _ => .inl rfl
  | cons a l ih =>
    intro b h
    rw [List.foldlM_cons, List.foldl_cons]
    exact (h b a List.mem_cons_self).bind
      (ih _ fun b' a' ha' => h b' a' (List.mem_cons_of_mem a ha'))

end Yields

theorem foldl_fillAt (u : Planes) (l : List Nat) (g : Nat → Nat → Nat → Int) :
    l.foldl (fun u k => u.fillAt (Component.ofIndexD k) (g k)) u =
      u.fillAll (l.map fun k => (Component.ofIndexD k, g k)) := by
  rw [Planes.fillAll, List.foldl_map]

/-! ## Kernels and the fold over components -/

section Fold

variable {clip : ClipSet} {dst : Planes} {m : Component} {sel : ComponentSelect}

theorem addWeightUni_neutral {src : Planes} {ws : List Weighting}
    (hws : ∀ k ≤ m.index, ∃ d ≤ 7, ws[k]? = some (neutralUni d)) {range : List Nat}
    (hr : componentRange sel m = .ok range) :
    YieldsOrRefuses (addWeightUni src clip ws dst m sel)
      (dst.fillAll ((range.filter (· < src.length)).map fun k => (Component.ofIndexD k,
        fun x y => (clip.component (.ofIndexD k)).toOutput (src.sample (.ofIndexD k) x y)))) := by
  unfold addWeightUni
  rw [hr, liftM_ok, ok_bind, ← takeWhile_eq_filter_of_componentRange hr, ← foldl_fillAt]
  refine yieldsOrRefuses_foldlM _ _ fun u k hk => ?_
  obtain ⟨d, hd, hw⟩ := hws k (le_of_mem_componentRange hr (List.takeWhile_subset _ hk))
  dsimp only
  rw [hw]
  dsimp only
  rw [pure_bind]
  -- The call reads the source plane and the destination plane, and checks their sizes.
  cases hs : src.get? (Component.ofIndexD k) with
  | none =>
    simp only [planeOf, hs, reject_bind]
    exact yieldsOrRefuses_reject _ _
  | some s0 =>
    cases hu : u.get? (Component.ofIndexD k) with
    | none =>
      simp only [planeOf, hs, hu, pure_bind, reject_bind]
      exact yieldsOrRefuses_reject _ _
    | some p =>
      simp only [planeOf, hs, hu, pure_bind]
      cases hsz : s0.sameSize p
      · simp only [Bool.false_eq_true, if_false, reject_bind]
        exact yieldsOrRefuses_reject _ _
      · simp only [if_true]
        rw [Interp.weightUni_unit (int32_shl_one (by omega)) rfl]
        refine .inl ?_
        rw [liftM_overflow_ok, ok_bind, Planes.set_fill_eq_fillAt hu]
        simp only [Planes.sample_of_get? hs]
        rfl

theorem addWeightBi_neutral {src0 src1 : Planes} {wp : List Weighting}
    (h0 : src0.Intermediate) (h1 : src1.Intermediate)
    (hwp : ∀ k ≤ m.index, ∃ d ≤ 7, wp[k]? = some (neutralBi d)) {range : List Nat}
    (hr : componentRange sel m = .ok range) :
    YieldsOrRefuses (addWeightBi src0 src1 clip wp wp dst m sel)
      (dst.fillAll ((range.filter (· < src0.length)).map fun k => (Component.ofIndexD k,
        fun x y => (clip.component (.ofIndexD k)).toOutputMean (src0.sample (.ofIndexD k) x y)
          (src1.sample (.ofIndexD k) x y)))) := by
  unfold addWeightBi
  rw [hr, liftM_ok, ok_bind, ← takeWhile_eq_filter_of_componentRange hr, ← foldl_fillAt]
  refine yieldsOrRefuses_foldlM _ _ fun u k hk => ?_
  obtain ⟨d, hd, hw⟩ := hwp k (le_of_mem_componentRange hr (List.takeWhile_subset _ hk))
  dsimp only
  rw [weightPair_of_getElem? hw hw, ok_bind]
  -- The call reads both source planes and the destination plane, and checks their sizes.
  cases hs0 : src0.get? (Component.ofIndexD k) with
  | none =>
    simp only [planeOf, hs0, reject_bind]
    exact yieldsOrRefuses_reject _ _
  | some s0 =>
    cases hs1 : src1.get? (Component.ofIndexD k) with
    | none =>
      simp only [planeOf, hs0, hs1, pure_bind, reject_bind]
      exact yieldsOrRefuses_reject _ _
    | some s1 =>
      cases hu : u.get? (Component.ofIndexD k) with
      | none =>
        simp only [planeOf, hs0, hs1, hu, pure_bind, reject_bind]
        exact yieldsOrRefuses_reject _ _
      | some p =>
        simp only [planeOf, hs0, hs1, hu, pure_bind]
        cases hsz : (s0.sameSize p && s1.sameSize p)
        · simp only [Bool.false_eq_true, if_false, reject_bind]
          exact yieldsOrRefuses_reject _ _
        · simp only [if_true]
          rw [weightBi_neutral hd rfl rfl rfl rfl fun x y => ⟨h0.get hs0 x y, h1.get hs1 x y⟩]
          refine .inl ?_
          rw [liftM_overflow_ok, ok_bind, Planes.set_fill_eq_fillAt hu]
          simp only [Planes.sample_of_get? hs0, Planes.sample_of_get? hs1]
          rfl

end Fold

/-! ## The entry points -/

theorem fills_of_componentRange {x : Except Fault Planes} {sel : ComponentSelect} {m : Component}
    {v : List Nat → Planes} (herr : ∀ e, componentRange sel m = .error e → x = reject e)
    (hok : ∀ range, componentRange sel m = .ok range → YieldsOrRefuses x (v range)) :
    NoPanic x ∧ ∀ out, x = .ok out → ∃ range, componentRange sel m = .ok range ∧ out = v range := by
  cases hr : componentRange sel m with
  | error e =>
    rw [herr e hr]
    exact ⟨noPanic_reject e, fun out h => by cases h⟩
  | ok range =>
    have hy := hok range hr
    exact ⟨hy.noPanic, fun out h => ⟨range, rfl, hy.eq_of_ok h⟩⟩

section Calls

variable {s : SliceWeights} {clip : ClipSet} {dst : Planes} {maxComp : Component}
  {sel : ComponentSelect}

theorem index_lt_of_le_lastComponent {k : Nat} (hk : k ≤ (s.lastComponent maxComp).index) :
    (Component.ofIndexD k).index < s.chromaFormat.numComponents :=
  index_lt_of_mem_components (List.mem_of_getElem? (getElem?_components_lastComponent s maxComp hk).1)

theorem getElem?_map_components {β : Type} (f : Component → β) {k : Nat}
    (hk : k ≤ (s.lastComponent maxComp).index) :
    ((s.components (s.lastComponent maxComp)).map f)[k]? = some (f (Component.ofIndexD k)) := by
  rw [List.getElem?_map, (getElem?_components_lastComponent s maxComp hk).1]
  rfl

theorem predictUni_neutral {l : RefList} {i : Int} {w : RefWeights} {src : Planes} (hi : 0 ≤ i)
    (hl : s.get? l i.toNat = some w)
    (hw : ∀ c : Component, c.index < s.chromaFormat.numComponents → (w.get c).Neutral) :
    NoPanic (predictUni s l i src clip dst maxComp sel) ∧
      ∀ out, predictUni s l i src clip dst maxComp sel = .ok out →
        ∃ range, componentRange sel (s.lastComponent maxComp) = .ok range ∧
          out = dst.fillAll ((range.filter (· < src.length)).map fun k => (Component.ofIndexD k,
            fun x y => (clip.component (.ofIndexD k)).toOutput (src.sample (.ofIndexD k) x y))) := by
  rw [predictUni_of_get? hi hl,
    uniWeightings_neutral fun c hc => hw c (index_lt_of_mem_components hc), ok_bind]
  refine fills_of_componentRange (fun e hr => by unfold addWeightUni; rw [hr]; rfl)
    fun range hr => addWeightUni_neutral (fun k hk => ?_) hr
  exact ⟨_, (hw _ (index_lt_of_le_lastComponent hk)).small, getElem?_map_components _ hk⟩

theorem predictBi_neutral {i j : Int} {w0 w1 : RefWeights} {src0 src1 : Planes} (hi : 0 ≤ i)
    (hj : 0 ≤ j) (hl0 : s.get? .l0 i.toNat = some w0) (hl1 : s.get? .l1 j.toNat = some w1)
    (hw : ∀ c : Component, c.index < s.chromaFormat.numComponents →
      (w0.get c).Neutral ∧ (w1.get c).Neutral ∧ (w1.get c).log2Denom = (w0.get c).log2Denom)
    (h0 : src0.Intermediate) (h1 : src1.Intermediate) :
    NoPanic (predictBi s i j src0 src1 clip dst maxComp sel) ∧
      ∀ out, predictBi s i j src0 src1 clip dst maxComp sel = .ok out →
        ∃ range, componentRange sel (s.lastComponent maxComp) = .ok range ∧
          out = dst.fillAll ((range.filter (· < src0.length)).map fun k => (Component.ofIndexD k,
            fun x y => (clip.component (.ofIndexD k)).toOutputMean
              (src0.sample (.ofIndexD k) x y) (src1.sample (.ofIndexD k) x y))) := by
  cases hbi : s.wpBiPred
  · rw [predictBi_of_disabled hbi]
    exact ⟨noPanic_reject _, fun out h => by cases h⟩
  -- Both lists derive the same bi weighting for each component.
  have hpairs := biWeightings_neutral (s := s) (m := s.lastComponent maxComp)
    fun c hc => hw c (index_lt_of_mem_components hc)
  rw [predictBi_of_get? hbi hi hj hl0 hl1, hpairs, ok_bind, List.map_map, List.map_map]
  refine fills_of_componentRange (fun e hr => by unfold addWeightBi; rw [hr]; rfl)
    fun range hr => addWeightBi_neutral h0 h1 (fun k hk => ?_) hr
  exact ⟨_, (hw _ (index_lt_of_le_lastComponent hk)).1.small, getElem?_map_components _ hk⟩

end Calls

/-- Neutral parameters weigh nothing: uni-prediction converts each intermediate and
bi-prediction averages two, whatever the denominator. -/
theorem neutral_weights_convert :
    (∀ (s : SliceWeights) (l : RefList) (i : Int) (w : RefWeights) (src : Planes) (clip : ClipSet)
        (dst : Planes) (maxComp : Component) (sel : ComponentSelect),
      0 ≤ i → s.get? l i.toNat = some w →
      (∀ c : Component, c.index < s.chromaFormat.numComponents → (w.get c).Neutral) →
      NoPanic (predictUni s l i src clip dst maxComp sel) ∧
        ∀ out, predictUni s l i src clip dst maxComp sel = .ok out →
          ∃ range, componentRange sel (s.lastComponent maxComp) = .ok range ∧
            out = dst.fillAll ((range.filter (· < src.length)).map fun k =>
              (Component.ofIndexD k, fun x y =>
                (clip.component (.ofIndexD k)).toOutput (src.sample (.ofIndexD k) x y)))) ∧
    (∀ (s : SliceWeights) (i j : Int) (w0 w1 : RefWeights) (src0 src1 : Planes) (clip : ClipSet)
        (dst : Planes) (maxComp : Component) (sel : ComponentSelect),
      0 ≤ i → 0 ≤ j → s.get? .l0 i.toNat = some w0 → s.get? .l1 j.toNat = some w1 →
      (∀ c : Component, c.index < s.chromaFormat.numComponents →
        (w0.get c).Neutral ∧ (w1.get c).Neutral ∧ (w1.get c).log2Denom = (w0.get c).log2Denom) →
      src0.Intermediate → src1.Intermediate →
      NoPanic (predictBi s i j src0 src1 clip dst maxComp sel) ∧
        ∀ out, predictBi s i j src0 src1 clip dst maxComp sel = .ok out →
          ∃ range, componentRange sel (s.lastComponent maxComp) = .ok range ∧
            out = dst.fillAll ((range.filter (· < src0.length)).map fun k =>
              (Component.ofIndexD k, fun x y => (clip.component (.ofIndexD k)).toOutputMean
                (src0.sample (.ofIndexD k) x y) (src1.sample (.ofIndexD k) x y)))) :=
  ⟨fun _ _ _ _ _ _ _ _ _ hi hl hw => predictUni_neutral hi hl hw,
    fun _ _ _ _ _ _ _ _ _ _ _ hi hj hl0 hl1 hw h0 h1 => predictBi_neutral hi hj hl0 hl1 hw h0 h1⟩

theorem neutral_weights_convert_on_absent :
    (NoPanic (predictUni ⟨[.uniform ⟨64, 0, 6, false⟩], [.uniform ⟨64, 0, 6, false⟩], .yuv420, 8, 8, true, false⟩ .l0 0 ⟨[⟨#[100], 1, 1, 1⟩]⟩ ⟨fun _ => ClipRange.eightBit, false, false⟩ ⟨[⟨#[0], 1, 1, 1⟩]⟩ .y ⟨false, false⟩) ∧
      ∀ out, predictUni ⟨[.uniform ⟨64, 0, 6, false⟩], [.uniform ⟨64, 0, 6, false⟩], .yuv420, 8, 8, true, false⟩ .l0 0 ⟨[⟨#[100], 1, 1, 1⟩]⟩ ⟨fun _ => ClipRange.eightBit, false, false⟩ ⟨[⟨#[0], 1, 1, 1⟩]⟩ .y ⟨false, false⟩ = .ok out →
        ∃ range, componentRange ⟨false, false⟩ .y = .ok range ∧
          out = (⟨[⟨#[0], 1, 1, 1⟩]⟩ : Planes).fillAll ((range.filter (· < 1)).map fun k =>
            (Component.ofIndexD k, fun x y => ClipRange.eightBit.toOutput
              ((⟨[⟨#[100], 1, 1, 1⟩]⟩ : Planes).sample (.ofIndexD k) x y)))) ∧
    (NoPanic (predictBi ⟨[.uniform ⟨64, 0, 6, false⟩], [.uniform ⟨64, 0, 6, false⟩], .yuv420, 8, 8, true, false⟩ 0 0 ⟨[⟨#[100], 1, 1, 1⟩]⟩ ⟨[⟨#[100], 1, 1, 1⟩]⟩ ⟨fun _ => ClipRange.eightBit, false, false⟩ ⟨[⟨#[0], 1, 1, 1⟩]⟩ .y ⟨false, false⟩) ∧
      ∀ out, predictBi ⟨[.uniform ⟨64, 0, 6, false⟩], [.uniform ⟨64, 0, 6, false⟩], .yuv420, 8, 8, true, false⟩ 0 0 ⟨[⟨#[100], 1, 1, 1⟩]⟩ ⟨[⟨#[100], 1, 1, 1⟩]⟩ ⟨fun _ => ClipRange.eightBit, false, false⟩ ⟨[⟨#[0], 1, 1, 1⟩]⟩ .y ⟨false, false⟩ = .ok out →
        ∃ range, componentRange ⟨false, false⟩ .y = .ok range ∧
          out = (⟨[⟨#[0], 1, 1, 1⟩]⟩ : Planes).fillAll ((range.filter (· < 1)).map fun k =>
            (Component.ofIndexD k, fun x y => ClipRange.eightBit.toOutputMean
              ((⟨[⟨#[100], 1, 1, 1⟩]⟩ : Planes).sample (.ofIndexD k) x y)
              ((⟨[⟨#[100], 1, 1, 1⟩]⟩ : Planes).sample (.ofIndexD k) x y)))) :=
  ⟨neutral_weights_convert.1 _ .l0 0 _ _ _ _ .y _ (by decide) rfl
      (fun c _ => by cases c <;> exact absent_neutral (d := 6) (by decide) rfl),
    neutral_weights_convert.2 _ 0 0 _ _ _ _ _ _ .y _ (by decide) (by decide) rfl rfl
      (fun c _ => by cases c <;> exact ⟨absent_neutral (d := 6) (by decide) rfl, absent_neutral (d := 6) (by decide) rfl, rfl⟩)
      (by decide) (by decide)⟩

end Weighted

end InterPred
