import Mathlib
import InterPred.Proofs.Dispatch

/-!
# The parameters of a slice as a sparse store
-/

namespace InterPred.Weighted

open Word

/-! ## One store -/

namespace SliceWeights

theorem entries_withEntries (s : SliceWeights) (l : RefList) (e : List RefWeights) :
    (s.withEntries l e).entries l = e := by
  cases l <;> rfl

theorem entries_withEntries_of_ne (s : SliceWeights) {l l' : RefList} (e : List RefWeights)
    (h : l' ≠ l) : (s.withEntries l e).entries l' = s.entries l' := by
  cases l <;> cases l'
  · exact absurd rfl h
  · rfl
  · rfl
  · exact absurd rfl h

theorem getElem?_putAt (e : List RefWeights) (idx : Nat) (fill w : RefWeights) (i : Nat) :
    (putAt e idx fill w)[i]? =
      if i = idx then some w
      else if i < e.length then e[i]?
      else if i < idx then some fill
      else none := by
  unfold putAt
  split
  · rw [List.getElem?_set]
    by_cases hi : i = idx
    · simp [*]
    · have : idx ≠ i := fun h => hi h.symm
      by_cases hlt : i < e.length
      · simp [hi, hlt, this]
      · simp [hi, hlt, this]
        omega
  · rename_i hlen
    by_cases hlt : i < e.length
    · have : i ≠ idx := by omega
      simp [List.getElem?_append_left, hlt, this]
    · -- Past the old entries: padding up to `idx`, then the new entry, then nothing.
      rw [List.append_assoc, List.getElem?_append_right (by omega), List.getElem?_append,
        List.length_replicate, if_neg hlt]
      rcases Nat.lt_trichotomy i idx with hi | rfl | hi
      · rw [if_pos (by omega), List.getElem?_replicate, if_pos (by omega), if_neg (by omega),
          if_pos hi]
      · simp
      · rw [if_neg (by omega), if_neg (by omega), if_neg (by omega),
          List.getElem?_eq_none (by simp; omega)]

theorem set_eq_ok {s s' : SliceWeights} {l : RefList} {idx : Nat} {w : RefWeights}
    (h : s.set l idx w = .ok s') :
    ∃ fill, ((s.entries l).length ≤ idx → ScalingParam.absent w.y.log2Denom = .ok fill) ∧
      s'.entries l = putAt (s.entries l) idx (.uniform fill) w ∧
      ∀ l', l' ≠ l → s'.entries l' = s.entries l' := by
  unfold set at h
  dsimp only at h
  split at h
  · rename_i hlt
    obtain rfl := (Except.ok.inj h).symm
    refine ⟨(w.get .y), fun hle => absurd hlt (by omega), ?_, fun l' hl' =>
      entries_withEntries_of_ne s _ hl'⟩
    rw [entries_withEntries, putAt, if_pos hlt]
  · obtain ⟨fill, hfill, h⟩ := bind_eq_ok.mp h
    obtain rfl := (Except.ok.inj h).symm
    exact ⟨fill, fun _ => hfill, entries_withEntries s _ _, fun l' hl' =>
      entries_withEntries_of_ne s _ hl'⟩

variable {s s' : SliceWeights} {l : RefList} {idx : Nat} {w : RefWeights}

theorem get?_set_self (h : s.set l idx w = .ok s') : s'.get? l idx = some w := by
  obtain ⟨fill, -, he, -⟩ := set_eq_ok h
  rw [get?, he, getElem?_putAt, if_pos rfl]

theorem get?_set_of_present (h : s.set l idx w = .ok s') {l' : RefList} {i : Nat}
    {v : RefWeights} (hne : l' ≠ l ∨ i ≠ idx) (hv : s.get? l' i = some v) :
    s'.get? l' i = some v := by
  obtain ⟨fill, -, he, hother⟩ := set_eq_ok h
  by_cases hl : l' = l
  · subst hl
    have hi : i ≠ idx := hne.resolve_left (not_not.mpr rfl)
    have hlt : i < (s.entries l').length := (List.getElem?_eq_some_iff.mp hv).1
    rw [get?, he, getElem?_putAt, if_neg hi, if_pos hlt]
    exact hv
  · rw [get?, hother l' hl]
    exact hv

theorem get?_set_of_absent (h : s.set l idx w = .ok s') {l' : RefList} {i : Nat}
    (hne : l' ≠ l ∨ idx < i) (hv : s.get? l' i = none) : s'.get? l' i = none := by
  obtain ⟨fill, -, he, hother⟩ := set_eq_ok h
  by_cases hl : l' = l
  · subst hl
    have hi : idx < i := hne.resolve_left (not_not.mpr rfl)
    have hle : (s.entries l').length ≤ i := List.getElem?_eq_none_iff.mp hv
    rw [get?, he, getElem?_putAt, if_neg (by omega), if_neg (by omega), if_neg (by omega)]
  · rw [get?, hother l' hl]
    exact hv

theorem get?_set_gap (h : s.set l idx w = .ok s') {i : Nat} (hv : s.get? l i = none)
    (hi : i < idx) :
    ∃ p, ScalingParam.absent w.y.log2Denom = .ok p ∧ s'.get? l i = some (.uniform p) := by
  obtain ⟨fill, hfill, he, -⟩ := set_eq_ok h
  have hle : (s.entries l).length ≤ i := List.getElem?_eq_none_iff.mp hv
  refine ⟨fill, hfill (by omega), ?_⟩
  rw [get?, he, getElem?_putAt, if_neg (by omega), if_neg (by omega), if_pos hi]

theorem get?_set_of_ne (h : s.set l idx w = .ok s') {l' : RefList} (hl : l' ≠ l) (i : Nat) :
    s'.get? l' i = s.get? l' i := by
  obtain ⟨fill, -, -, hother⟩ := set_eq_ok h
  rw [get?, get?, hother l' hl]

theorem set_ok (s : SliceWeights) (l : RefList) (idx : Nat) {w : RefWeights}
    (hd : w.y.log2Denom < 32) : ∃ s', s.set l idx w = .ok s' := by
  unfold set
  dsimp only
  split
  · exact ⟨_, rfl⟩
  · have hshift : int32.ShiftOk (w.y.log2Denom : Int) := ⟨by omega, by simp [int32]; omega⟩
    simp only [ScalingParam.absent, shl, if_pos hshift, ok_bind]
    exact ⟨_, rfl⟩

end SliceWeights

/-! ## Runs of calls -/

inductive SliceCall where
  | set (l : RefList) (idx : Nat) (w : RefWeights)
  | flags (wpBiPred highPrecisionOffsets : Bool)

namespace SliceCall

def apply (s : SliceWeights) : SliceCall → Except Overflow SliceWeights
  | .set l idx w => s.set l idx w
  | .flags a b => pure { s with wpBiPred := a, highPrecisionOffsets := b }

def storedAt (l : RefList) (i : Nat) : SliceCall → Option RefWeights
  | .set l' idx w => if l' = l ∧ idx = i then some w else none
  | .flags _ _ => none

def storedPast (l : RefList) (i : Nat) : SliceCall → Option RefWeights
  | .set l' idx w => if l' = l ∧ i < idx then some w else none
  | .flags _ _ => none

end SliceCall

/-- The calls, in order, from `s`; the first overflow stops the run. -/
def runCalls (s : SliceWeights) (calls : List SliceCall) : Except Overflow SliceWeights :=
  calls.foldlM (fun s c => c.apply s) s

/-- The parameters of the last call that stored at index `i` of list `l`. -/
def lastStored (calls : List SliceCall) (l : RefList) (i : Nat) : Option RefWeights :=
  (calls.filterMap (SliceCall.storedAt l i)).getLast?

def firstPast (calls : List SliceCall) (l : RefList) (i : Nat) : Option RefWeights :=
  (calls.filterMap (SliceCall.storedPast l i)).head?

section History

variable {calls : List SliceCall} {l : RefList} {i : Nat}

@[simp] theorem lastStored_nil : lastStored [] l i = none := rfl

@[simp] theorem firstPast_nil : firstPast [] l i = none := rfl

theorem lastStored_append_set (l' : RefList) (idx : Nat) (w : RefWeights) :
    lastStored (calls ++ [.set l' idx w]) l i =
      if l' = l ∧ idx = i then some w else lastStored calls l i := by
  unfold lastStored
  rw [List.filterMap_append]
  by_cases h : l' = l ∧ idx = i <;> simp [SliceCall.storedAt, h]

theorem lastStored_append_flags (a b : Bool) :
    lastStored (calls ++ [.flags a b]) l i = lastStored calls l i := by
  simp [lastStored, SliceCall.storedAt]

theorem firstPast_append_set (l' : RefList) (idx : Nat) (w : RefWeights) :
    firstPast (calls ++ [.set l' idx w]) l i =
      (firstPast calls l i).or (if l' = l ∧ i < idx then some w else none) := by
  unfold firstPast
  rw [List.filterMap_append, List.head?_append]
  by_cases h : l' = l ∧ i < idx <;> simp [SliceCall.storedPast, h]

theorem firstPast_append_flags (a b : Bool) :
    firstPast (calls ++ [.flags a b]) l i = firstPast calls l i := by
  simp [firstPast, SliceCall.storedPast]

theorem lastStored_eq_none_iff :
    lastStored calls l i = none ↔ ∀ w, SliceCall.set l i w ∉ calls := by
  simp only [lastStored, List.getLast?_eq_none_iff, List.filterMap_eq_nil_iff]
  constructor
  · intro h w hw
    simpa [SliceCall.storedAt] using h _ hw
  · intro h c hc
    cases c with
    | set l' idx w =>
      simp only [SliceCall.storedAt]
      rw [if_neg]
      rintro ⟨rfl, rfl⟩
      exact h w hc
    | flags => rfl

theorem firstPast_eq_none_iff :
    firstPast calls l i = none ↔ ∀ j w, SliceCall.set l j w ∈ calls → j ≤ i := by
  simp only [firstPast, List.head?_eq_none_iff, List.filterMap_eq_nil_iff]
  constructor
  · intro h j w hw
    have hj := h _ hw
    simp only [SliceCall.storedPast, true_and, ite_eq_right_iff, reduceCtorEq, imp_false] at hj
    omega
  · intro h c hc
    cases c with
    | set l' idx w =>
      simp only [SliceCall.storedPast]
      rw [if_neg]
      rintro ⟨rfl, hlt⟩
      exact absurd (h idx w hc) (by omega)
    | flags => rfl

end History

/-! ## What a run stores -/

/-- `s` holds, at each index of each list, what the last call stored there, else the padding
of the first call past it. -/
structure Stores (calls : List SliceCall) (s : SliceWeights) : Prop where
  last : ∀ l i w, lastStored calls l i = some w → s.get? l i = some w
  padded : ∀ l i q, lastStored calls l i = none → firstPast calls l i = some q →
    ∃ p, ScalingParam.absent q.y.log2Denom = .ok p ∧ s.get? l i = some (.uniform p)
  empty : ∀ l i, lastStored calls l i = none → firstPast calls l i = none → s.get? l i = none

theorem stores_new {cf : ChromaFormat} {lumaBitDepth chromaBitDepth : Nat} {s : SliceWeights}
    (h : SliceWeights.new? cf lumaBitDepth chromaBitDepth = .ok s) : Stores [] s := by
  unfold SliceWeights.new? at h
  split at h
  · cases h
  split at h
  · cases h
  obtain rfl := (Except.ok.inj h).symm
  refine ⟨fun _ _ _ h => (by cases h), fun _ _ _ _ h => (by cases h), fun l i _ _ => ?_⟩
  cases l <;> rfl

theorem get?_flags (s : SliceWeights) (a b : Bool) (l : RefList) (i : Nat) :
    ({ s with wpBiPred := a, highPrecisionOffsets := b } : SliceWeights).get? l i = s.get? l i := by
  cases l <;> rfl

theorem Stores.flags {calls : List SliceCall} {s : SliceWeights} (hs : Stores calls s)
    (a b : Bool) :
    Stores (calls ++ [.flags a b]) { s with wpBiPred := a, highPrecisionOffsets := b } := by
  refine ⟨fun l i w hw => ?_, fun l i q h1 h2 => ?_, fun l i h1 h2 => ?_⟩ <;>
    simp only [lastStored_append_flags, firstPast_append_flags, get?_flags] at *
  · exact hs.last l i w hw
  · exact hs.padded l i q h1 h2
  · exact hs.empty l i h1 h2

theorem Stores.set {calls : List SliceCall} {s s' : SliceWeights} {l' : RefList} {idx : Nat}
    {w : RefWeights} (hs : Stores calls s) (hset : s.set l' idx w = .ok s') :
    Stores (calls ++ [.set l' idx w]) s' := by
  refine ⟨fun l i v hv => ?_, fun l i q h1 h2 => ?_, fun l i h1 h2 => ?_⟩ <;>
    rw [lastStored_append_set] at * <;> by_cases hc : l' = l ∧ idx = i
  -- The call stores at `(l, i)` itself.
  · obtain ⟨rfl, rfl⟩ := hc
    rw [if_pos ⟨rfl, rfl⟩, Option.some.injEq] at hv
    rw [← hv]
    exact SliceWeights.get?_set_self hset
  · rw [if_neg hc] at hv
    exact SliceWeights.get?_set_of_present hset ((not_and_or.mp hc).imp Ne.symm Ne.symm)
      (hs.last l i v hv)
  · rw [if_pos hc] at h1
    cases h1
  · -- Padding: from an earlier call past `i`, or from this one.
    rw [if_neg hc] at h1
    rw [firstPast_append_set] at h2
    cases hp : firstPast calls l i with
    | some q' =>
      rw [hp, Option.some_or, Option.some.injEq] at h2
      subst h2
      obtain ⟨p, hp', hget⟩ := hs.padded l i q' h1 hp
      exact ⟨p, hp', SliceWeights.get?_set_of_present hset
        ((not_and_or.mp hc).imp Ne.symm Ne.symm) hget⟩
    | none =>
      rw [hp, Option.none_or] at h2
      split at h2
      · rename_i hpast
        obtain ⟨rfl, hlt⟩ := hpast
        cases h2
        exact SliceWeights.get?_set_gap hset (hs.empty l' i h1 hp) hlt
      · cases h2
  · rw [if_pos hc] at h1
    cases h1
  · -- Nothing stored at or past `i` in `l`, this call included.
    rw [if_neg hc] at h1
    rw [firstPast_append_set, Option.or_eq_none_iff] at h2
    obtain ⟨hp, hnot⟩ := h2
    have hpast : ¬(l' = l ∧ i < idx) := fun hpast => by rw [if_pos hpast] at hnot; cases hnot
    have hne : l ≠ l' ∨ idx < i := by
      by_cases hl : l' = l
      · subst hl
        have h1 : idx ≠ i := fun h => hc ⟨rfl, h⟩
        have h2 : ¬i < idx := fun h => hpast ⟨rfl, h⟩
        exact .inr (by omega)
      · exact .inl (Ne.symm hl)
    exact SliceWeights.get?_set_of_absent hset hne (hs.empty l i h1 hp)

theorem Stores.step {calls : List SliceCall} {s s' : SliceWeights} {c : SliceCall}
    (hs : Stores calls s) (h : c.apply s = .ok s') : Stores (calls ++ [c]) s' := by
  cases c with
  | flags a b =>
    obtain rfl := (Except.ok.inj h).symm
    exact hs.flags a b
  | set l' idx w => exact hs.set h

/-- A run keeps what the calls before it stored, with its own stores added. -/
theorem stores_runCalls :
    ∀ (calls pre : List SliceCall) (s s' : SliceWeights), Stores pre s →
      runCalls s calls = .ok s' → Stores (pre ++ calls) s' := by
  intro calls
  induction calls with
  | nil =>
    intro pre s s' hs h
    obtain rfl := (Except.ok.inj h).symm
    simpa using hs
  | cons c calls ih =>
    intro pre s s' hs h
    unfold runCalls at h
    rw [List.foldlM_cons] at h
    obtain ⟨s1, h1, h⟩ := bind_eq_ok.mp h
    simpa using ih (pre ++ [c]) s1 s' (hs.step h1) h

theorem runCalls_ok :
    ∀ (calls : List SliceCall) (s : SliceWeights),
      (∀ l j w, SliceCall.set l j w ∈ calls → w.y.log2Denom < 32) →
        ∃ s', runCalls s calls = .ok s' := by
  intro calls
  induction calls with
  | nil => exact fun s _ => ⟨s, rfl⟩
  | cons c calls ih =>
    intro s hd
    have hrest := fun l j w (h : SliceCall.set l j w ∈ calls) => hd l j w (List.mem_cons_of_mem c h)
    obtain ⟨s1, h1⟩ : ∃ s1, c.apply s = .ok s1 := by
      cases c with
      | set l idx w => exact SliceWeights.set_ok s l idx (hd l idx w List.mem_cons_self)
      | flags a b => exact ⟨_, rfl⟩
    obtain ⟨s', h'⟩ := ih s1 hrest
    refine ⟨s', ?_⟩
    unfold runCalls at h' ⊢
    rw [List.foldlM_cons, h1, ok_bind, h']

theorem Stores.get?_eq_none_iff {calls : List SliceCall} {s : SliceWeights}
    (hs : Stores calls s) (l : RefList) (i : Nat) :
    s.get? l i = none ↔ ∀ j w, SliceCall.set l j w ∈ calls → j < i := by
  constructor
  · intro hnone j w hw
    -- A store at `i` or past it leaves an entry at `i`.
    have hlast : lastStored calls l i = none := by
      cases hl : lastStored calls l i with
      | none => rfl
      | some v => rw [hs.last l i v hl] at hnone; cases hnone
    have hfirst : firstPast calls l i = none := by
      cases hf : firstPast calls l i with
      | none => rfl
      | some q =>
        obtain ⟨p, -, hp⟩ := hs.padded l i q hlast hf
        rw [hp] at hnone
        cases hnone
    have hne : j ≠ i := fun hji => lastStored_eq_none_iff.mp hlast w (hji ▸ hw)
    have hle := firstPast_eq_none_iff.mp hfirst j w hw
    omega
  · intro h
    refine hs.empty l i (lastStored_eq_none_iff.mpr fun w hw => ?_)
      (firstPast_eq_none_iff.mpr fun j w hw => (h j w hw).le)
    exact absurd (h i w hw) (Nat.lt_irrefl i)

theorem lookup_bind_missing {α : Type} (s : SliceWeights) (l : RefList) (i : Nat) (m : Component)
    (f : List Weighting → α) :
    (liftM (s.lookup l i) >>= fun w => uniWeightings s w m >>= fun ws => pure (f ws)) =
        (.error (.reject (.missingWeights i)) : Except Fault α) ↔ s.get? l i = none := by
  unfold SliceWeights.lookup
  rw [if_neg (by omega), Int.toNat_natCast]
  cases hg : s.get? l i with
  | none => simp only [iff_true]; rfl
  | some w =>
    simp only [reduceCtorEq, iff_false]
    rw [liftM_ok, ok_bind]
    cases hu : uniWeightings s w m with
    | ok ws => exact fun h => by cases h
    | error e =>
      obtain ⟨o, rfl⟩ := raisesOnly_uniWeightings (P := fun e => ∃ o, e = .overflow o)
        (fun o => ⟨o, rfl⟩) s w m e hu
      exact fun h => by cases h

theorem deriveWeighting_missing_l0 (s : SliceWeights) (i : Nat) (m : Component) :
    deriveWeighting i (-1) s m = .error (.reject (.missingWeights i)) ↔ s.get? .l0 i = none := by
  rw [deriveWeighting_of_l0 (by omega) (by omega)]
  exact lookup_bind_missing s .l0 i m _

theorem deriveWeighting_missing_l1 (s : SliceWeights) (i : Nat) (m : Component) :
    deriveWeighting (-1) i s m = .error (.reject (.missingWeights i)) ↔ s.get? .l1 i = none := by
  rw [deriveWeighting_of_l1 (by omega) (by omega)]
  exact lookup_bind_missing s .l1 i m _

/-! ## The store -/

/-- The parameters of a slice form a sparse store, list by list. -/
theorem slice_weights_store (cf : ChromaFormat) (lumaBitDepth chromaBitDepth : Nat)
    (s₀ : SliceWeights) (hnew : SliceWeights.new? cf lumaBitDepth chromaBitDepth = .ok s₀)
    (calls : List SliceCall) :
    ((∀ l j w, SliceCall.set l j w ∈ calls → w.y.log2Denom < 32) →
        ∃ s, runCalls s₀ calls = .ok s) ∧
    (∀ s, runCalls s₀ calls = .ok s → Stores calls s ∧
      ∀ (i : Nat) (m : Component),
        (deriveWeighting i (-1) s m = .error (.reject (.missingWeights i)) ↔
          ∀ j w, SliceCall.set .l0 j w ∈ calls → j < i) ∧
        (deriveWeighting (-1) i s m = .error (.reject (.missingWeights i)) ↔
          ∀ j w, SliceCall.set .l1 j w ∈ calls → j < i)) ∧
    (∀ (s s' : SliceWeights) (l : RefList) (idx : Nat) (w : RefWeights),
      s.set l idx w = .ok s' → s'.get? l idx = some w ∧
        (∀ l', l' ≠ l → ∀ i, s'.get? l' i = s.get? l' i) ∧
        ∀ i v, i ≠ idx → s.get? l i = some v → s'.get? l i = some v) := by
  refine ⟨fun hd => runCalls_ok calls s₀ hd, fun s hs => ?_, fun s s' l idx w h =>
    ⟨SliceWeights.get?_set_self h, fun l' hl i => SliceWeights.get?_set_of_ne h hl i,
      fun i v hi hv => SliceWeights.get?_set_of_present h (.inr hi) hv⟩⟩
  have hst : Stores calls s := by
    simpa using stores_runCalls calls [] s₀ s (stores_new hnew) hs
  exact ⟨hst, fun i m => ⟨(deriveWeighting_missing_l0 s i m).trans (hst.get?_eq_none_iff .l0 i),
    (deriveWeighting_missing_l1 s i m).trans (hst.get?_eq_none_iff .l1 i)⟩⟩

theorem slice_weights_store_on_gap :
    ∃ s, runCalls ⟨[], [], .yuv420, 8, 8, false, false⟩
        [.set .l0 2 (.uniform (.coded 3 1 3)), .flags true false] = .ok s ∧
      s.get? .l0 2 = some (.uniform (.coded 3 1 3)) ∧
      s.get? .l0 0 = some (.uniform ⟨8, 0, 3, false⟩) ∧ s.get? .l1 0 = none := by
  obtain ⟨htotal, hrun, -⟩ := slice_weights_store .yuv420 8 8 _ rfl
    [.set .l0 2 (.uniform (.coded 3 1 3)), .flags true false]
  obtain ⟨s, hs⟩ := htotal fun l j w hw => by
    simp only [List.mem_cons, reduceCtorEq, List.not_mem_nil, or_false, SliceCall.set.injEq] at hw
    obtain ⟨-, -, rfl⟩ := hw
    decide
  obtain ⟨hst, -⟩ := hrun s hs
  obtain ⟨p, hp, h0⟩ := hst.padded .l0 0 _ rfl rfl
  obtain rfl : (⟨8, 0, 3, false⟩ : ScalingParam) = p := Except.ok.inj hp
  exact ⟨s, hs, hst.last .l0 2 _ rfl, h0, hst.empty .l1 0 rfl rfl⟩

end InterPred.Weighted
