import Mathlib
import InterPred.Proofs.Footprint

/-!
# How the weighted entry points dispatch
-/

namespace InterPred

/-! ## Errors a computation can end with -/

/-- Every error `x` can end with satisfies `P`. -/
def RaisesOnly {α : Type} (P : Fault → Prop) (x : Except Fault α) : Prop :=
  ∀ e, x = .error e → P e

section Raises

variable {α β : Type} {P : Fault → Prop}

theorem raisesOnly_ok (a : α) : RaisesOnly P (.ok a) := fun _ h => nomatch h

theorem raisesOnly_reject {e : PredError} (h : P (.reject e)) : RaisesOnly P (reject e : Except Fault α) :=
  fun _ he => (Except.error.inj he) ▸ h

theorem RaisesOnly.bind {x : Except Fault α} {f : α → Except Fault β} (hx : RaisesOnly P x)
    (hf : ∀ a, x = .ok a → RaisesOnly P (f a)) : RaisesOnly P (x >>= f) := by
  cases x with
  | error e => exact fun e' h => (Except.error.inj h) ▸ hx e rfl
  | ok a => exact hf a rfl

theorem raisesOnly_liftM (hP : ∀ o, P (.overflow o)) (x : Except Overflow α) :
    RaisesOnly P (liftM x : Except Fault α) := by
  cases x with
  | error o => exact fun e h => (Except.error.inj h) ▸ hP o
  | ok a => exact raisesOnly_ok a

theorem raisesOnly_foldlM {f : β → α → Except Fault β} :
    ∀ (l : List α) (b : β), (∀ b, ∀ a ∈ l, RaisesOnly P (f b a)) → RaisesOnly P (l.foldlM f b) := by
  intro l
  induction l with
  | nil => exact fun b _ => raisesOnly_ok b
  | cons a l ih =>
    intro b h
    rw [List.foldlM_cons]
    exact (h b a List.mem_cons_self).bind fun b' _ =>
      ih b' fun b'' a' ha' => h b'' a' (List.mem_cons_of_mem a ha')

theorem RaisesOnly.mono {Q : Fault → Prop} {x : Except Fault α} (h : RaisesOnly P x)
    (hPQ : ∀ e, P e → Q e) : RaisesOnly Q x :=
  fun e he => hPQ e (h e he)

end Raises

namespace Weighted

/-! ## What the derivation covers -/

def uniWeightings (s : SliceWeights) (w : RefWeights) (m : Component) :
    Except Fault (List Weighting) :=
  (s.components m).mapM fun c => liftM (uniWeighting s c (w.get c))

def biWeightings (s : SliceWeights) (w0 w1 : RefWeights) (m : Component) :
    Except Fault (List (Weighting × Weighting)) :=
  (s.components m).mapM fun c => liftM (biPair s c (w0.get c) (w1.get c))

theorem mapM_eq_ok_iff {α β ε : Type} {f : α → Except ε β} :
    ∀ {l : List α} {r : List β}, l.mapM f = .ok r ↔ List.Forall₂ (fun a b => f a = .ok b) l r := by
  intro l
  induction l with
  | nil =>
    intro r
    rw [List.mapM_nil, List.forall₂_nil_left_iff]
    exact ⟨fun h => (Except.ok.inj h).symm, fun h => h ▸ rfl⟩
  | cons a l ih =>
    intro r
    rw [List.mapM_cons, List.forall₂_cons_left_iff]
    simp only [bind_eq_ok, ih]
    constructor
    · rintro ⟨b, hb, bs, hbs, h⟩
      exact ⟨b, bs, hb, hbs, (Except.ok.inj h).symm⟩
    · rintro ⟨b, bs, hb, hbs, rfl⟩
      exact ⟨b, hb, bs, hbs, rfl⟩

theorem components_eq (s : SliceWeights) (m : Component) :
    s.components m = Component.all.take (min s.chromaFormat.numComponents (m.index + 1)) := by
  unfold SliceWeights.components
  cases s.chromaFormat <;> cases m <;> rfl

theorem length_components_lastComponent (s : SliceWeights) (m : Component) :
    (s.components (s.lastComponent m)).length = (s.lastComponent m).index + 1 := by
  rw [components_eq]
  unfold SliceWeights.lastComponent
  cases s.chromaFormat <;> cases m <;> rfl

theorem length_uniWeightings {s : SliceWeights} {w : RefWeights} {m : Component}
    {ws : List Weighting} (h : uniWeightings s w m = .ok ws) :
    ws.length = (s.components m).length :=
  (mapM_eq_ok_iff.mp h).length_eq.symm

theorem length_biWeightings {s : SliceWeights} {w0 w1 : RefWeights} {m : Component}
    {pairs : List (Weighting × Weighting)} (h : biWeightings s w0 w1 m = .ok pairs) :
    pairs.length = (s.components m).length :=
  (mapM_eq_ok_iff.mp h).length_eq.symm

theorem mapM_ok_of_imp {α β γ ε : Type} {f : α → Except ε β} {g : α → Except ε γ}
    {R : α → β → γ → Prop} :
    ∀ (l : List α) (bs : List β), (∀ a ∈ l, ∀ b, f a = .ok b → ∃ c, g a = .ok c ∧ R a b c) →
      l.mapM f = .ok bs → ∃ cs : List γ, l.mapM g = .ok cs ∧
        ∀ (k : Nat) a b c, l[k]? = some a → bs[k]? = some b → cs[k]? = some c → R a b c := by
  intro l
  induction l with
  | nil =>
    intro bs _ _
    exact ⟨[], rfl, fun k a _ _ ha => by simp at ha⟩
  | cons a l ih =>
    intro bs hfg h
    rw [List.mapM_cons] at h
    obtain ⟨b, hb, h⟩ := bind_eq_ok.mp h
    obtain ⟨bs', hbs, h⟩ := bind_eq_ok.mp h
    obtain rfl : b :: bs' = bs := Except.ok.inj h
    obtain ⟨c, hc, hR⟩ := hfg a List.mem_cons_self b hb
    obtain ⟨cs, hcs, hR'⟩ := ih bs' (fun a' ha' => hfg a' (List.mem_cons_of_mem a ha')) hbs
    refine ⟨c :: cs, by rw [List.mapM_cons, hc, ok_bind, hcs]; rfl, ?_⟩
    intro k a' b' c' ha hb' hc'
    cases k with
    | zero =>
      simp only [List.getElem?_cons_zero, Option.some.injEq] at ha hb' hc'
      subst ha hb' hc'
      exact hR
    | succ k => exact hR' k a' b' c' ha hb' hc'

theorem mapM_congr_of_mem {α β ε : Type} {f g : α → Except ε β} :
    ∀ {l : List α}, (∀ a ∈ l, f a = g a) → l.mapM f = l.mapM g
  | [], _ => rfl
  | a :: l, h => by
    rw [List.mapM_cons, List.mapM_cons, h a List.mem_cons_self,
      mapM_congr_of_mem fun a' ha' => h a' (List.mem_cons_of_mem a ha')]

theorem getElem?_components_lastComponent (s : SliceWeights) (m : Component) {k : Nat}
    (hk : k ≤ (s.lastComponent m).index) :
    (s.components (s.lastComponent m))[k]? = some (Component.ofIndexD k) ∧
      k < s.chromaFormat.numComponents := by
  rw [components_eq]
  unfold SliceWeights.lastComponent at hk ⊢
  revert k
  cases s.chromaFormat <;> cases m <;> decide

theorem index_lt_of_mem_components {s : SliceWeights} {m c : Component}
    (h : c ∈ s.components m) : c.index < s.chromaFormat.numComponents := by
  unfold SliceWeights.components at h
  revert h
  cases s.chromaFormat <;> cases m <;> cases c <;> decide

theorem lookup_of_get? {s : SliceWeights} {l : RefList} {i : Int} {w : RefWeights} (hi : 0 ≤ i)
    (h : s.get? l i.toNat = some w) : s.lookup l i = .ok w := by
  unfold SliceWeights.lookup
  rw [if_neg (by omega), h]

theorem le_of_mem_componentRange {sel : ComponentSelect} {m : Component} {range : List Nat}
    (h : componentRange sel m = .ok range) {k : Nat} (hk : k ∈ range) : k ≤ m.index := by
  unfold componentRange at h
  split at h
  · cases h
  · cases h
    rw [List.mem_range'_1] at hk
    split at hk <;> split at hk <;> omega

theorem componentRange_eq_error {sel : ComponentSelect} {m : Component} {e : PredError}
    (h : componentRange sel m = .error e) : e = .conflictingComponentSelect := by
  unfold componentRange at h
  split at h
  · exact (Except.error.inj h).symm
  · cases h

theorem takeWhile_range'_eq_filter (n : Nat) :
    ∀ a k, (List.range' a k).takeWhile (· < n) = (List.range' a k).filter (· < n) := by
  intro a k
  induction k generalizing a with
  | zero => rfl
  | succ k ih =>
    rw [List.range'_succ, List.takeWhile_cons, List.filter_cons]
    by_cases ha : a < n
    · simp [ha, ih]
    · -- Every later index is past `n` too.
      have hnone : (List.range' (a + 1) k).filter (· < n) = [] :=
        List.filter_eq_nil_iff.mpr fun b hb => by
          rw [List.mem_range'_1] at hb
          simp only [decide_eq_true_eq]
          omega
      simp [ha, hnone]

theorem takeWhile_eq_filter_of_componentRange {sel : ComponentSelect} {m : Component}
    {range : List Nat} (h : componentRange sel m = .ok range) (n : Nat) :
    range.takeWhile (· < n) = range.filter (· < n) := by
  unfold componentRange at h
  split at h
  · cases h
  · cases h
    exact takeWhile_range'_eq_filter n _ _

/-! ## The path of each call -/

section Paths

variable {s : SliceWeights} {i j : Int} {m : Component}

theorem deriveWeighting_of_both (hbi : s.wpBiPred = true) (hi : 0 ≤ i) (hj : 0 ≤ j) :
    deriveWeighting i j s m = (do
      let w0 ← liftM (s.lookup .l0 i)
      let w1 ← liftM (s.lookup .l1 j)
      let pairs ← biWeightings s w0 w1 m
      pure (some (pairs.map Prod.fst), some (pairs.map Prod.snd))) := by
  have h1 : ¬(i < 0 ∧ j < 0) := by omega
  simp [deriveWeighting, h1, hi, hj, hbi, biWeightings]

theorem deriveWeighting_of_l0 (hi : 0 ≤ i) (hj : j < 0) :
    deriveWeighting i j s m = (do
      let w ← liftM (s.lookup .l0 i)
      let ws ← uniWeightings s w m
      pure (some ws, none)) := by
  have h1 : ¬(i < 0 ∧ j < 0) := by omega
  have h2 : ¬0 ≤ j := by omega
  simp [deriveWeighting, h1, h2, hi, uniWeightings]

theorem deriveWeighting_of_l1 (hi : i < 0) (hj : 0 ≤ j) :
    deriveWeighting i j s m = (do
      let w ← liftM (s.lookup .l1 j)
      let ws ← uniWeightings s w m
      pure (none, some ws)) := by
  have h1 : ¬(i < 0 ∧ j < 0) := by omega
  have h2 : ¬0 ≤ i := by omega
  simp [deriveWeighting, h1, h2, hj, uniWeightings]

variable {src src0 src1 : Planes} {clip : ClipSet} {dst : Planes} {maxComp : Component}
  {sel : ComponentSelect}

theorem predictBi_of_disabled (hbi : s.wpBiPred = false) :
    predictBi s i j src0 src1 clip dst maxComp sel = reject .weightedBiPredDisabled := by
  simp [predictBi, hbi]
  rfl

theorem predictBi_of_unused (hbi : s.wpBiPred = true) (hi : i < 0) (hj : j < 0) :
    predictBi s i j src0 src1 clip dst maxComp sel = .ok dst := by
  simp [predictBi, hbi, hi, hj]
  rfl

theorem predictUni_of_neg {l : RefList} (hi : i < 0) :
    predictUni s l i src clip dst maxComp sel = reject (.negativeRefIdx i) := by
  simp [predictUni, hi]
  rfl

theorem predictUni_of_nonneg {l : RefList} (hi : 0 ≤ i) :
    predictUni s l i src clip dst maxComp sel = (do
      let w ← liftM (s.lookup l i)
      let ws ← uniWeightings s w (s.lastComponent maxComp)
      addWeightUni src clip ws dst (s.lastComponent maxComp) sel) := by
  have h : ¬i < 0 := by omega
  cases l
  · simp [predictUni, h, deriveWeighting_of_l0 hi (show (-1 : Int) < 0 by omega)]
  · simp [predictUni, h, deriveWeighting_of_l1 (show (-1 : Int) < 0 by omega) hi]

theorem predictBi_of_both (hbi : s.wpBiPred = true) (hi : 0 ≤ i) (hj : 0 ≤ j) :
    predictBi s i j src0 src1 clip dst maxComp sel = (do
      let w0 ← liftM (s.lookup .l0 i)
      let w1 ← liftM (s.lookup .l1 j)
      let pairs ← biWeightings s w0 w1 (s.lastComponent maxComp)
      addWeightBi src0 src1 clip (pairs.map Prod.fst) (pairs.map Prod.snd) dst
        (s.lastComponent maxComp) sel) := by
  have h : ¬(i < 0 ∧ j < 0) := by omega
  simp [predictBi, hbi, h, deriveWeighting_of_both hbi hi hj]

theorem predictUni_of_get? {l : RefList} {w : RefWeights} (hi : 0 ≤ i)
    (h : s.get? l i.toNat = some w) :
    predictUni s l i src clip dst maxComp sel =
      (uniWeightings s w (s.lastComponent maxComp) >>= fun ws =>
        addWeightUni src clip ws dst (s.lastComponent maxComp) sel) := by
  rw [predictUni_of_nonneg hi, lookup_of_get? hi h, liftM_ok, ok_bind]

theorem predictBi_of_get? {w0 w1 : RefWeights} (hbi : s.wpBiPred = true) (hi : 0 ≤ i)
    (hj : 0 ≤ j) (h0 : s.get? .l0 i.toNat = some w0) (h1 : s.get? .l1 j.toNat = some w1) :
    predictBi s i j src0 src1 clip dst maxComp sel =
      (biWeightings s w0 w1 (s.lastComponent maxComp) >>= fun pairs =>
        addWeightBi src0 src1 clip (pairs.map Prod.fst) (pairs.map Prod.snd) dst
          (s.lastComponent maxComp) sel) := by
  rw [predictBi_of_both hbi hi hj, lookup_of_get? hi h0, liftM_ok, ok_bind, lookup_of_get? hj h1,
    liftM_ok, ok_bind]

theorem predictBi_of_l0 (hbi : s.wpBiPred = true) (hi : 0 ≤ i) (hj : j < 0) :
    predictBi s i j src0 src1 clip dst maxComp sel =
      predictUni s .l0 i src0 clip dst maxComp sel := by
  have h : ¬(i < 0 ∧ j < 0) := by omega
  simp [predictBi, hbi, h, deriveWeighting_of_l0 hi hj, predictUni_of_nonneg hi]

theorem predictBi_of_l1 (hbi : s.wpBiPred = true) (hi : i < 0) (hj : 0 ≤ j) :
    predictBi s i j src0 src1 clip dst maxComp sel =
      predictUni s .l1 j src1 clip dst maxComp sel := by
  have h : ¬(i < 0 ∧ j < 0) := by omega
  simp [predictBi, hbi, h, deriveWeighting_of_l1 hi hj, predictUni_of_nonneg hj]

end Paths

/-! ## No visited component lacks a weighting -/

def HasWeighting (e : Fault) : Prop := ∀ c, e ≠ .reject (.missingComponentWeights c)

theorem hasWeighting_overflow (o : Overflow) : HasWeighting (.overflow o) := by
  simp [HasWeighting]

theorem hasWeighting_mismatch (mm : Mismatch) : HasWeighting (.reject (.dimensionMismatch mm)) := by
  simp [HasWeighting]

theorem raisesOnly_mapM {α β : Type} {P : Fault → Prop} {f : α → Except Fault β} :
    ∀ l : List α, (∀ a ∈ l, RaisesOnly P (f a)) → RaisesOnly P (l.mapM f) := by
  intro l
  induction l with
  | nil => exact fun _ => raisesOnly_ok []
  | cons a l ih =>
    intro h
    rw [List.mapM_cons]
    exact (h a List.mem_cons_self).bind fun b _ =>
      (ih fun a' ha' => h a' (List.mem_cons_of_mem a ha')).bind fun bs _ => raisesOnly_ok _

theorem raisesOnly_uniWeightings {P : Fault → Prop} (hP : ∀ o, P (.overflow o)) (s : SliceWeights)
    (w : RefWeights) (m : Component) : RaisesOnly P (uniWeightings s w m) :=
  raisesOnly_mapM _ fun _ _ => raisesOnly_liftM hP _

theorem raisesOnly_biWeightings {P : Fault → Prop} (hP : ∀ o, P (.overflow o)) (s : SliceWeights)
    (w0 w1 : RefWeights) (m : Component) : RaisesOnly P (biWeightings s w0 w1 m) :=
  raisesOnly_mapM _ fun _ _ => raisesOnly_liftM hP _

theorem raisesOnly_lookup (s : SliceWeights) (l : RefList) (i : Int) :
    RaisesOnly HasWeighting (liftM (s.lookup l i) : Except Fault RefWeights) := by
  unfold SliceWeights.lookup
  split
  · exact raisesOnly_reject (by simp [HasWeighting])
  · split
    · exact raisesOnly_ok _
    · exact raisesOnly_reject (by simp [HasWeighting])

theorem raisesOnly_componentRange (sel : ComponentSelect) (m : Component) :
    RaisesOnly HasWeighting (liftM (componentRange sel m) : Except Fault (List Nat)) := by
  cases h : componentRange sel m with
  | error e => exact raisesOnly_reject (by simp [componentRange_eq_error h, HasWeighting])
  | ok r => exact raisesOnly_ok r

theorem raisesOnly_planeOf (u : Planes) (c : Component) (mm : Mismatch) :
    RaisesOnly HasWeighting (planeOf u c mm) := by
  unfold planeOf
  split
  · exact raisesOnly_ok _
  · exact raisesOnly_reject (hasWeighting_mismatch mm)

theorem weightPair_of_lt {wp0 wp1 : List Weighting} {k : Nat} (h0 : k < wp0.length)
    (h1 : k < wp1.length) : weightPair wp0 wp1 k = .ok (wp0[k], wp1[k]) := by
  simp [weightPair, List.getElem?_eq_getElem h0, List.getElem?_eq_getElem h1]
  rfl

theorem weightPair_of_getElem? {wp0 wp1 : List Weighting} {k : Nat} {b0 b1 : Weighting}
    (h0 : wp0[k]? = some b0) (h1 : wp1[k]? = some b1) : weightPair wp0 wp1 k = .ok (b0, b1) := by
  simp [weightPair, h0, h1]
  rfl

section Visits

variable {clip : ClipSet} {dst : Planes} {m : Component} {sel : ComponentSelect}

theorem addWeightBi_raisesOnly {src0 src1 : Planes} {wp0 wp1 : List Weighting}
    (h0 : m.index < wp0.length) (h1 : m.index < wp1.length) :
    RaisesOnly HasWeighting (addWeightBi src0 src1 clip wp0 wp1 dst m sel) := by
  unfold addWeightBi
  refine (raisesOnly_componentRange sel m).bind fun range hr =>
    raisesOnly_foldlM _ _ fun u k hk => ?_
  -- A visited index is at most `m.index`, so both lists have its weighting.
  have hle := le_of_mem_componentRange (liftM_reject_eq_ok.mp hr) (List.takeWhile_subset _ hk)
  dsimp only
  rw [weightPair_of_lt (by omega) (by omega), ok_bind]
  refine (raisesOnly_planeOf _ _ _).bind fun _ _ => (raisesOnly_planeOf _ _ _).bind fun _ _ =>
    (raisesOnly_planeOf _ _ _).bind fun _ _ => ?_
  split
  · exact (raisesOnly_liftM hasWeighting_overflow _).bind fun _ _ => raisesOnly_ok _
  · rw [reject_bind]
    exact raisesOnly_reject (hasWeighting_mismatch _)

theorem addWeightUni_raisesOnly {src : Planes} {wp : List Weighting} (h : m.index < wp.length) :
    RaisesOnly HasWeighting (addWeightUni src clip wp dst m sel) := by
  unfold addWeightUni
  refine (raisesOnly_componentRange sel m).bind fun range hr =>
    raisesOnly_foldlM _ _ fun u k hk => ?_
  have hle := le_of_mem_componentRange (liftM_reject_eq_ok.mp hr) (List.takeWhile_subset _ hk)
  dsimp only
  rw [List.getElem?_eq_getElem (show k < wp.length by omega)]
  dsimp only
  rw [pure_bind]
  refine (raisesOnly_planeOf _ _ _).bind fun _ _ => (raisesOnly_planeOf _ _ _).bind fun _ _ => ?_
  split
  · exact (raisesOnly_liftM hasWeighting_overflow _).bind fun _ _ => raisesOnly_ok _
  · rw [reject_bind]
    exact raisesOnly_reject (hasWeighting_mismatch _)

end Visits

section Calls

variable {s : SliceWeights} {i j : Int} {src src0 src1 : Planes} {clip : ClipSet} {dst : Planes}
  {maxComp : Component} {sel : ComponentSelect}

theorem predictUni_raisesOnly {l : RefList} :
    RaisesOnly HasWeighting (predictUni s l i src clip dst maxComp sel) := by
  by_cases hi : 0 ≤ i
  · rw [predictUni_of_nonneg hi]
    refine (raisesOnly_lookup s l i).bind fun w _ =>
      (raisesOnly_uniWeightings hasWeighting_overflow s w _).bind fun ws hws => addWeightUni_raisesOnly ?_
    rw [length_uniWeightings hws, length_components_lastComponent]
    omega
  · rw [predictUni_of_neg (by omega)]
    exact raisesOnly_reject (by simp [HasWeighting])

theorem predictBi_raisesOnly :
    RaisesOnly HasWeighting (predictBi s i j src0 src1 clip dst maxComp sel) := by
  cases hbi : s.wpBiPred
  · rw [predictBi_of_disabled hbi]
    exact raisesOnly_reject (by simp [HasWeighting])
  by_cases hi : 0 ≤ i <;> by_cases hj : 0 ≤ j
  · -- Both lists: the pairs cover every component up to the lowered `maxComp`.
    rw [predictBi_of_both hbi hi hj]
    refine (raisesOnly_lookup s _ i).bind fun w0 _ => (raisesOnly_lookup s _ j).bind fun w1 _ =>
      (raisesOnly_biWeightings hasWeighting_overflow s w0 w1 _).bind fun pairs hp => addWeightBi_raisesOnly ?_ ?_ <;>
    · rw [List.length_map, length_biWeightings hp, length_components_lastComponent]
      omega
  · rw [predictBi_of_l0 hbi hi (by omega)]
    exact predictUni_raisesOnly
  · rw [predictBi_of_l1 hbi (by omega) hj]
    exact predictUni_raisesOnly
  · rw [predictBi_of_unused hbi (by omega) (by omega)]
    exact raisesOnly_ok dst

end Calls

/-! ## What a call that succeeds fills -/

/-- `out` is `dst` with the blocks of the components at `idx` filled, in that order, and
nothing else changed. -/
def FilledAt (dst out : Planes) (idx : List Nat) : Prop :=
  ∃ ws : List (Component × (Nat → Nat → Int)), ws.map (fun w => w.1.index) = idx ∧
    out = dst.fillAll ws

section Covers

variable {clip : ClipSet} {dst out : Planes} {m : Component} {sel : ComponentSelect}

theorem addWeightBi_covers {src0 src1 : Planes} {wp0 wp1 : List Weighting}
    (h : addWeightBi src0 src1 clip wp0 wp1 dst m sel = .ok out) :
    ∃ range, componentRange sel m = .ok range ∧
      FilledAt dst out (range.filter (· < src0.length)) := by
  obtain ⟨range, ws, hr, hmap, hws⟩ := addWeightBi_writes h
  refine ⟨range, hr, ws, ?_, Except.ok.inj (h.symm.trans (hws dst (Planes.SameShape.refl dst)))⟩
  rw [map_index_writes hr hmap, takeWhile_eq_filter_of_componentRange hr]

theorem addWeightUni_covers {src : Planes} {wp : List Weighting}
    (h : addWeightUni src clip wp dst m sel = .ok out) :
    ∃ range, componentRange sel m = .ok range ∧
      FilledAt dst out (range.filter (· < src.length)) := by
  obtain ⟨range, ws, hr, hmap, hws⟩ := addWeightUni_writes h
  refine ⟨range, hr, ws, ?_, Except.ok.inj (h.symm.trans (hws dst (Planes.SameShape.refl dst)))⟩
  rw [map_index_writes hr hmap, takeWhile_eq_filter_of_componentRange hr]

variable {s : SliceWeights} {i j : Int} {src src0 src1 : Planes} {maxComp : Component}

theorem predictUni_covers {l : RefList} (h : predictUni s l i src clip dst maxComp sel = .ok out) :
    ∃ range, componentRange sel (s.lastComponent maxComp) = .ok range ∧
      FilledAt dst out (range.filter (· < src.length)) := by
  by_cases hi : 0 ≤ i
  · rw [predictUni_of_nonneg hi] at h
    obtain ⟨w, -, h⟩ := bind_eq_ok.mp h
    obtain ⟨ws, -, h⟩ := bind_eq_ok.mp h
    exact addWeightUni_covers h
  · rw [predictUni_of_neg (by omega)] at h
    cases h

theorem predictBi_covers_l0 (hi : 0 ≤ i)
    (h : predictBi s i j src0 src1 clip dst maxComp sel = .ok out) :
    ∃ range, componentRange sel (s.lastComponent maxComp) = .ok range ∧
      FilledAt dst out (range.filter (· < src0.length)) := by
  cases hbi : s.wpBiPred
  · rw [predictBi_of_disabled hbi] at h
    cases h
  by_cases hj : 0 ≤ j
  · rw [predictBi_of_both hbi hi hj] at h
    obtain ⟨w0, -, h⟩ := bind_eq_ok.mp h
    obtain ⟨w1, -, h⟩ := bind_eq_ok.mp h
    obtain ⟨pairs, -, h⟩ := bind_eq_ok.mp h
    exact addWeightBi_covers h
  · rw [predictBi_of_l0 hbi hi (by omega)] at h
    exact predictUni_covers h

theorem predictBi_covers_l1 (hi : i < 0) (hj : 0 ≤ j)
    (h : predictBi s i j src0 src1 clip dst maxComp sel = .ok out) :
    ∃ range, componentRange sel (s.lastComponent maxComp) = .ok range ∧
      FilledAt dst out (range.filter (· < src1.length)) := by
  cases hbi : s.wpBiPred
  · rw [predictBi_of_disabled hbi] at h
    cases h
  rw [predictBi_of_l1 hbi hi hj] at h
  exact predictUni_covers h

end Covers

/-! ## The entry points -/

/-- Weighted prediction dispatches on its reference indices and fills exactly the components
of its range that the source it combines has. -/
theorem weighted_dispatch_and_coverage :
    (∀ (s : SliceWeights) (i j : Int) (src0 src1 : Planes) (clip : ClipSet) (dst : Planes)
        (maxComp : Component) (sel : ComponentSelect) (c : Component),
      predictBi s i j src0 src1 clip dst maxComp sel ≠
        .error (.reject (.missingComponentWeights c))) ∧
    (∀ (s : SliceWeights) (l : RefList) (i : Int) (src : Planes) (clip : ClipSet) (dst : Planes)
        (maxComp : Component) (sel : ComponentSelect) (c : Component),
      predictUni s l i src clip dst maxComp sel ≠ .error (.reject (.missingComponentWeights c))) ∧
    (∀ (s : SliceWeights) (i j : Int) (src0 src1 : Planes) (clip : ClipSet) (dst : Planes)
        (maxComp : Component) (sel : ComponentSelect), s.wpBiPred = true →
      (0 ≤ i → j < 0 → predictBi s i j src0 src1 clip dst maxComp sel =
          predictUni s .l0 i src0 clip dst maxComp sel) ∧
        (i < 0 → 0 ≤ j → predictBi s i j src0 src1 clip dst maxComp sel =
          predictUni s .l1 j src1 clip dst maxComp sel) ∧
        (i < 0 → j < 0 → predictBi s i j src0 src1 clip dst maxComp sel = .ok dst)) ∧
    (∀ (s : SliceWeights) (i j : Int) (src0 src1 : Planes) (clip : ClipSet) (dst : Planes)
        (maxComp : Component) (sel : ComponentSelect), s.wpBiPred = false →
      predictBi s i j src0 src1 clip dst maxComp sel = .error (.reject .weightedBiPredDisabled)) ∧
    (∀ (s : SliceWeights) (i j : Int) (src0 src1 : Planes) (clip : ClipSet) (dst out : Planes)
        (maxComp : Component) (sel : ComponentSelect),
      predictBi s i j src0 src1 clip dst maxComp sel = .ok out →
        (0 ≤ i → ∃ range, componentRange sel (s.lastComponent maxComp) = .ok range ∧
          FilledAt dst out (range.filter (· < src0.length))) ∧
        (i < 0 → 0 ≤ j → ∃ range, componentRange sel (s.lastComponent maxComp) = .ok range ∧
          FilledAt dst out (range.filter (· < src1.length)))) ∧
    (∀ (s : SliceWeights) (l : RefList) (i : Int) (src : Planes) (clip : ClipSet)
        (dst out : Planes) (maxComp : Component) (sel : ComponentSelect),
      predictUni s l i src clip dst maxComp sel = .ok out →
        ∃ range, componentRange sel (s.lastComponent maxComp) = .ok range ∧
          FilledAt dst out (range.filter (· < src.length))) :=
  ⟨fun _ _ _ _ _ _ _ _ _ c h => predictBi_raisesOnly _ h c rfl,
    fun _ _ _ _ _ _ _ _ c h => predictUni_raisesOnly _ h c rfl,
    fun _ _ _ _ _ _ _ _ _ hbi => ⟨predictBi_of_l0 hbi, predictBi_of_l1 hbi, predictBi_of_unused hbi⟩,
    fun _ _ _ _ _ _ _ _ _ hbi => predictBi_of_disabled hbi,
    fun _ _ _ _ _ _ _ _ _ _ h => ⟨fun hi => predictBi_covers_l0 hi h,
      fun hi hj => predictBi_covers_l1 hi hj h⟩,
    fun _ _ _ _ _ _ _ _ _ h => predictUni_covers h⟩

theorem weighted_dispatch_and_coverage_on_flat :
    predictBi ⟨[.uniform (.coded 1 0 0)], [], .yuv420, 8, 8, true, false⟩ 0 (-1) ⟨[⟨#[0], 1, 1, 1⟩]⟩ ⟨[⟨#[0], 1, 1, 1⟩]⟩ ⟨fun _ => ClipRange.eightBit, false, false⟩ ⟨[⟨#[0], 1, 1, 1⟩]⟩ .y ⟨false, false⟩ =
      predictUni ⟨[.uniform (.coded 1 0 0)], [], .yuv420, 8, 8, true, false⟩ .l0 0 ⟨[⟨#[0], 1, 1, 1⟩]⟩ ⟨fun _ => ClipRange.eightBit, false, false⟩ ⟨[⟨#[0], 1, 1, 1⟩]⟩ .y ⟨false, false⟩ ∧
    predictBi ⟨[.uniform (.coded 1 0 0)], [], .yuv420, 8, 8, false, false⟩ 0 0 ⟨[⟨#[0], 1, 1, 1⟩]⟩ ⟨[⟨#[0], 1, 1, 1⟩]⟩ ⟨fun _ => ClipRange.eightBit, false, false⟩ ⟨[⟨#[0], 1, 1, 1⟩]⟩ .y ⟨false, false⟩ =
      .error (.reject .weightedBiPredDisabled) :=
  ⟨(weighted_dispatch_and_coverage.2.2.1 _ 0 (-1) _ _ _ _ _ _ rfl).1 (by decide) (by decide),
    weighted_dispatch_and_coverage.2.2.2.1 _ 0 0 _ _ _ _ _ _ rfl⟩

end Weighted

end InterPred
