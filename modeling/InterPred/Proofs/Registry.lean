import Mathlib
import InterPred.Kernels
import InterPred.Proofs.Layout

/-!
# The kernel registry refines a map from slots to kernels

The index conversions are injective on the slots of a set (`Slot.Real`), so the arrays behave
as a map from slots to kernels.
-/

namespace InterPred

theorem Direction.exists_index {i : Nat} (hi : i < 2) : ∃ d : Direction, d.index = i := by
  rcases (by omega : i = 0 ∨ i = 1) with rfl | rfl
  exacts [⟨.horizontal, rfl⟩, ⟨.vertical, rfl⟩]

theorem TapFamily.exists_index {i : Nat} (hi : i < 3) :
    ∃ f : TapFamily, f ≠ .twoRefine ∧ f.index = i := by
  rcases (by omega : i = 0 ∨ i = 1 ∨ i = 2) with rfl | rfl | rfl
  exacts [⟨.eight, by decide, rfl⟩, ⟨.six, by decide, rfl⟩, ⟨.four, by decide, rfl⟩]

/-! ## Reading a nested array after writing one cell -/

section NestedVector

variable {α : Type} {n m p q : Nat}

theorem getElem_set_getElem_set (v : Vector (Vector α m) n) (x : α) {i j i' j' : Nat}
    (hi : i < n) (hj : j < m) (hi' : i' < n) (hj' : j' < m) :
    (v.set i (v[i].set j x))[i'][j'] = if i = i' ∧ j = j' then x else v[i'][j'] := by
  by_cases h : i = i'
  · subst h
    simp [Vector.getElem_set]
  · simp [Vector.getElem_set_ne hi hi' h, h]

theorem getElem_set_getElem_set₃ (v : Vector (Vector (Vector α p) m) n) (x : α)
    {i j l i' j' l' : Nat} (hi : i < n) (hj : j < m) (hl : l < p) (hi' : i' < n) (hj' : j' < m)
    (hl' : l' < p) :
    (v.set i (v[i].set j (v[i][j].set l x)))[i'][j'][l'] =
      if i = i' ∧ j = j' ∧ l = l' then x else v[i'][j'][l'] := by
  by_cases h : i = i'
  · subst h
    simp [getElem_set_getElem_set]
  · simp [Vector.getElem_set_ne hi hi' h, h]

theorem getElem_set_getElem_set₄ (v : Vector (Vector (Vector (Vector α q) p) m) n) (x : α)
    {i j l r i' j' l' r' : Nat} (hi : i < n) (hj : j < m) (hl : l < p) (hr : r < q)
    (hi' : i' < n) (hj' : j' < m) (hl' : l' < p) (hr' : r' < q) :
    (v.set i (v[i].set j (v[i][j].set l (v[i][j][l].set r x))))[i'][j'][l'][r'] =
      if i = i' ∧ j = j' ∧ l = l' ∧ r = r' then x else v[i'][j'][l'][r'] := by
  by_cases h : i = i'
  · subst h
    simp [getElem_set_getElem_set₃]
  · simp [Vector.getElem_set_ne hi hi' h, h]

end NestedVector

namespace Kernels

@[simp] theorem toNat_eq_toNat_iff {a b : Bool} : a.toNat = b.toNat ↔ a = b := by
  cases a <;> cases b <;> decide

theorem exists_toNat {i : Nat} (hi : i < 2) : ∃ b : Bool, b.toNat = i := by
  rcases (by omega : i = 0 ∨ i = 1) with rfl | rfl
  exacts [⟨false, rfl⟩, ⟨true, rfl⟩]

attribute [ext] FilterTable

variable {κ : Type}

/-! ## The slots of a kernel set -/

namespace Slot

/-- A slot of a kernel set: every filter pass but an output pass of the refinement family. -/
def Real : Slot → Prop
  | filter _ family _ last => family = .twoRefine → last = false
  | _ => True

instance : DecidablePred Real := fun s =>
  match s with
  | filter _ family _ last => inferInstanceAs (Decidable (family = .twoRefine → last = false))
  | copy _ _ | refineCopy | weightBi | weightUni | geoBlend => isTrue trivial

/-- Position of a slot in the order `build` walks them. -/
def rank : Slot → Nat
  | filter dir family first last =>
    ((dir.index * 4 + family.index) * 2 + first.toNat) * 2 + last.toNat
  | copy first last => 32 + first.toNat * 2 + last.toNat
  | refineCopy => 36
  | weightBi => 37
  | weightUni => 38
  | geoBlend => 39

theorem mem_order_iff {s : Slot} : s ∈ order ↔ s.Real := by
  cases s with
  | filter dir family first last =>
    cases dir <;> cases family <;> cases first <;> cases last <;> decide
  | copy first last => cases first <;> cases last <;> decide
  | refineCopy | weightBi | weightUni | geoBlend => decide

theorem order_sorted : order.Pairwise fun s t => s.rank < t.rank := by decide

theorem order_nodup : order.Nodup := by decide

end Slot

theorem find?_eq_some_iff_of_sorted {α : Type} {l : List α} {key : α → Nat}
    (hl : l.Pairwise fun a b => key a < key b) {p : α → Bool} {s : α} :
    l.find? p = some s ↔ s ∈ l ∧ p s ∧ ∀ t ∈ l, key t < key s → p t = false := by
  constructor
  · intro h
    obtain ⟨hs, as, bs, rfl, has⟩ := List.find?_eq_some_iff_append.mp h
    have hsb := (List.pairwise_append.mp hl).2.1
    refine ⟨by simp, hs, fun t ht hlt => ?_⟩
    rcases List.mem_append.mp ht with ht | ht
    · simpa using has t ht
    · -- Everything from `s` on has a key at least that of `s`.
      rcases List.mem_cons.mp ht with rfl | ht
      · omega
      · exact absurd (List.rel_of_pairwise_cons hsb ht) (by omega)
  · rintro ⟨hs, hp, hmin⟩
    obtain ⟨s', h'⟩ : ∃ s', l.find? p = some s' :=
      Option.isSome_iff_exists.mp (List.find?_isSome.mpr ⟨s, hs, hp⟩)
    obtain ⟨hp', as, bs, rfl, has⟩ := List.find?_eq_some_iff_append.mp h'
    rcases List.mem_append.mp hs with hs | hs
    · have hnot := has s hs
      simp [hp] at hnot
    · rcases List.mem_cons.mp hs with rfl | hs
      · exact h'
      · -- `s` after `s'` would have a larger key, so `s'` would lack the property.
        have hlt := List.rel_of_pairwise_cons (List.pairwise_append.mp hl).2.1 hs
        simp [hmin s' (by simp) hlt] at hp'

/-! ## Reading a kernel set by slot -/

namespace KernelSet

/-- The kernel a set holds for a slot, read through its lookups. -/
def get (set : KernelSet κ) : Slot → κ
  | .filter dir family first last => set.filter dir family first last
  | .copy first last => set.copy first last false
  | .refineCopy => set.refineCopy
  | .weightBi => set.weightBi
  | .weightUni => set.weightUni
  | .geoBlend => set.geoBlend

@[simp] theorem level_store (set : KernelSet κ) (k : κ) (s : Slot) :
    (set.store k s).level = set.level := by
  cases s
  case filter dir family first last => by_cases hf : family = .twoRefine <;> simp [store, hf]
  all_goals rfl

/-- Storing into a slot of a set changes what that slot reads and nothing else: the index
conversions tell the slots of a set apart. -/
theorem get_store (set : KernelSet κ) (k : κ) {s t : Slot} (hs : s.Real) (ht : t.Real) :
    (set.store k s).get t = if s = t then k else set.get t := by
  cases s <;> cases t <;> simp only [Slot.Real] at hs ht <;>
    simp only [store, get, filter, copy, reduceCtorEq, if_false, Bool.false_and,
      Bool.false_eq_true]
  case filter.filter dir family first last dir' family' first' last' =>
    by_cases hd : dir = dir'
    swap
    · -- Another direction's table is untouched.
      have hidx : dir.index ≠ dir'.index := Direction.index_inj.not.mpr hd
      by_cases hf : family = .twoRefine <;> by_cases hf' : family' = .twoRefine <;>
        simp [hf, hf', Vector.getElem_set_ne _ _ hidx, hd]
    subst hd
    by_cases hf : family = .twoRefine <;> by_cases hf' : family' = .twoRefine
    · subst hf hf'
      simp [Vector.getElem_set, hs rfl, ht rfl]
    · simp [hf, hf', Ne.symm hf']
    · simp [hf, hf']
    · simp [hf, hf', getElem_set_getElem_set₃]
  case copy.copy first last first' last' =>
    simp [getElem_set_getElem_set]
  all_goals (try split) <;> simp

theorem ext_get {x y : KernelSet κ} (hl : x.level = y.level)
    (h : ∀ s, s.Real → x.get s = y.get s) : x = y := by
  obtain ⟨lx, tx, cx, rx, bx, ux, gx⟩ := x
  obtain ⟨ly, ty, cy, ry, by', uy, gy⟩ := y
  have ht : tx = ty := by
    refine Vector.ext fun i hi => ?_
    obtain ⟨d, rfl⟩ := Direction.exists_index hi
    refine FilterTable.ext ?_ ?_
    · refine Vector.ext fun j hj => Vector.ext fun a ha => Vector.ext fun l hl => ?_
      obtain ⟨f, hf, rfl⟩ := TapFamily.exists_index hj
      obtain ⟨first, rfl⟩ := exists_toNat ha
      obtain ⟨last, rfl⟩ := exists_toNat hl
      simpa [get, filter, hf] using h (.filter d f first last) fun h' => absurd h' hf
    · refine Vector.ext fun a ha => ?_
      obtain ⟨first, rfl⟩ := exists_toNat ha
      simpa [get, filter] using h (.filter d .twoRefine first false) fun _ => rfl
  have hc : cx = cy := by
    refine Vector.ext fun a ha => Vector.ext fun l hl => ?_
    obtain ⟨first, rfl⟩ := exists_toNat ha
    obtain ⟨last, rfl⟩ := exists_toNat hl
    simpa [get, copy] using h (.copy first last) trivial
  have hr : rx = ry := h .refineCopy trivial
  have hb : bx = by' := h .weightBi trivial
  have hu : ux = uy := h .weightUni trivial
  have hg : gx = gy := h .geoBlend trivial
  simp only at hl
  subst hl ht hc hr hb hu hg
  rfl

/-- The set answers every lookup with the kernel `view` gives the slot the lookup reads. -/
structure Answers (set : KernelSet κ) (view : Slot → Option κ) : Prop where
  filter : ∀ dir family first last, (family = .twoRefine → last = false) →
    view (.filter dir family first last) = some (set.filter dir family first last)
  copy : ∀ first last refine,
    view (if refine && first && !last then .refineCopy else .copy first last) =
      some (set.copy first last refine)
  weightBi : view .weightBi = some set.weightBi
  weightUni : view .weightUni = some set.weightUni
  geoBlend : view .geoBlend = some set.geoBlend

theorem answers_of_get (set : KernelSet κ) {view : Slot → Option κ}
    (h : ∀ s, s.Real → view s = some (set.get s)) : set.Answers view where
  filter dir family first last hlast := h (.filter dir family first last) hlast
  copy first last refine := by
    by_cases hr : (refine && first && !last) = true
    · rw [if_pos hr, h .refineCopy trivial]
      simp [get, copy, hr]
    · rw [if_neg hr, h (.copy first last) trivial]
      simp [get, copy, hr]
  weightBi := h .weightBi trivial
  weightUni := h .weightUni trivial
  geoBlend := h .geoBlend trivial

end KernelSet

/-! ## Building a set -/

namespace Builder

@[simp] theorem entry_empty (level : Level) (s : Slot) :
    (empty level : Builder κ).entry s = none := by
  cases s
  case filter dir family first last => by_cases hf : family = .twoRefine <;> simp [empty, entry, hf]
  all_goals simp [empty, entry]

theorem entry_ofSet (S : KernelSet κ) (s : Slot) : (ofSet S).entry s = some (S.get s) := by
  cases s
  case filter dir family first last =>
    by_cases hf : family = .twoRefine <;> simp [ofSet, entry, KernelSet.get, KernelSet.filter, hf]
  all_goals simp [ofSet, entry, KernelSet.get, KernelSet.copy]

variable {b b' : Builder κ}

theorem level_filter {dir : Direction} {family : TapFamily} {first last : Bool} {k : κ}
    (h : b.filter dir family first last k = .ok b') : b'.level = b.level := by
  unfold filter at h
  split at h
  · split at h <;> cases h
    rfl
  · cases h
    rfl

theorem entry_filter {dir : Direction} {family : TapFamily} {first last : Bool} {k : κ}
    (h : b.filter dir family first last k = .ok b') {t : Slot} (ht : t.Real) :
    b'.entry t = if .filter dir family first last = t then some k else b.entry t := by
  unfold filter at h
  by_cases hf : family = .twoRefine
  · -- Only `last = false` is accepted, and it lands in the refinement array.
    subst hf
    cases last <;> simp only [dite_true, Bool.false_eq_true, if_false, if_true,
      Except.ok.injEq, reduceCtorEq] at h
    subst h
    cases t <;> simp only [Slot.Real] at ht <;> simp only [entry, reduceCtorEq, if_false]
    case filter dir' family' first' last' =>
      by_cases hf' : family' = .twoRefine
      · subst hf'
        simp [getElem_set_getElem_set, ht rfl]
      · simp [hf', Ne.symm hf']
  · simp only [hf, dite_false, Except.ok.injEq] at h
    subst h
    cases t <;> simp only [Slot.Real] at ht <;> simp only [entry, reduceCtorEq, if_false]
    case filter dir' family' first' last' =>
      by_cases hf' : family' = .twoRefine
      · simp [hf, hf']
      · simp [hf', getElem_set_getElem_set₄]

theorem entry_copy (first last : Bool) (k : κ) (t : Slot) :
    (b.copy first last k).entry t = if .copy first last = t then some k else b.entry t := by
  cases t <;> simp only [copy, entry, reduceCtorEq, if_false]
  case copy first' last' => simp [getElem_set_getElem_set]

theorem foldlM_fill_eq_error_iff {l : List Slot} {set : KernelSet κ} {e : RegistryError} :
    l.foldlM b.fill set = .error e ↔
      ∃ s, e = .missing s ∧ l.find? (fun s => (b.entry s).isNone) = some s := by
  induction l generalizing set with
  | nil => simp [pure, Except.pure]
  | cons s l ih =>
    rw [List.foldlM_cons]
    cases hs : b.entry s with
    | none => simp [fill, hs, bind, Except.bind, eq_comm]
    | some k =>
      simp only [fill, hs, ok_bind, ih, List.find?_cons, Option.isNone_some]

theorem foldlM_fill_eq_ok {l : List Slot} (hnd : l.Nodup) (hreal : ∀ s ∈ l, s.Real)
    {set set' : KernelSet κ} (h : l.foldlM b.fill set = .ok set') :
    set'.level = set.level ∧ ∀ t, t.Real →
      (t ∈ l → b.entry t = some (set'.get t)) ∧ (t ∉ l → set'.get t = set.get t) := by
  induction l generalizing set with
  | nil =>
    cases h
    simp
  | cons s l ih =>
    rw [List.foldlM_cons] at h
    obtain ⟨hsl, hnd⟩ := List.nodup_cons.mp hnd
    have hs := hreal s List.mem_cons_self
    cases hk : b.entry s with
    | none => simp [fill, hk, bind, Except.bind] at h
    | some k =>
      simp only [fill, hk, ok_bind] at h
      obtain ⟨hlevel, hrest⟩ := ih hnd (fun t ht => hreal t (List.mem_cons_of_mem s ht)) h
      refine ⟨by simp [hlevel], fun t ht => ⟨fun hmem => ?_, fun hmem => ?_⟩⟩
      · rcases List.mem_cons.mp hmem with rfl | hmem
        · -- The slot itself is visited once, so nothing later overwrites it.
          rw [(hrest t ht).2 hsl, KernelSet.get_store _ _ hs ht, if_pos rfl, hk]
        · exact (hrest t ht).1 hmem
      · have hne : s ≠ t := fun hst => hmem (hst ▸ List.mem_cons_self)
        rw [(hrest t ht).2 (fun h => hmem (List.mem_cons_of_mem s h)),
          KernelSet.get_store _ _ hs ht, if_neg hne]

variable [Inhabited κ]

theorem build_eq_error_iff {e : RegistryError} :
    b.build = .error e ↔ ∃ s, e = .missing s ∧ s.Real ∧ b.entry s = none ∧
      ∀ t, t.Real → t.rank < s.rank → (b.entry t).isSome := by
  unfold build
  rw [foldlM_fill_eq_error_iff]
  refine exists_congr fun s => and_congr_right fun _ => ?_
  rw [find?_eq_some_iff_of_sorted Slot.order_sorted, Slot.mem_order_iff]
  simp only [Option.isNone_iff_eq_none, Bool.eq_false_iff, ne_eq, Option.isNone_iff_eq_none,
    Option.isSome_iff_ne_none, Slot.mem_order_iff]

theorem build_eq_ok_iff : (∃ set, b.build = .ok set) ↔ ∀ t, t.Real → (b.entry t).isSome := by
  constructor
  · rintro ⟨set, hset⟩ t ht
    by_contra hempty
    -- An empty slot makes some first empty slot, and `build` names it.
    obtain ⟨s, hs⟩ : ∃ s, Slot.order.find? (fun s => (b.entry s).isNone) = some s :=
      Option.isSome_iff_exists.mp (List.find?_isSome.mpr
        ⟨t, Slot.mem_order_iff.mpr ht, by simpa using hempty⟩)
    have herr : b.build = .error (.missing s) := foldlM_fill_eq_error_iff.mpr ⟨s, rfl, hs⟩
    rw [hset] at herr
    cases herr
  · intro hall
    cases hb : b.build with
    | ok set => exact ⟨set, rfl⟩
    | error e =>
      obtain ⟨s, -, hreal, hempty, -⟩ := build_eq_error_iff.mp hb
      simpa [hempty] using hall s hreal

/-- The set `build` returns has the builder's level and holds the builder's kernel in every
slot. -/
theorem build_eq_ok {set : KernelSet κ} (h : b.build = .ok set) :
    set.level = b.level ∧ ∀ s, s.Real → b.entry s = some (set.get s) := by
  obtain ⟨hlevel, hslots⟩ := foldlM_fill_eq_ok Slot.order_nodup
    (fun s hs => Slot.mem_order_iff.mp hs) h
  exact ⟨hlevel, fun s hs => (hslots s hs).1 (Slot.mem_order_iff.mpr hs)⟩

theorem build_answers {set : KernelSet κ} {view : Slot → Option κ}
    (hview : ∀ s, s.Real → b.entry s = view s) (h : b.build = .ok set) :
    set.level = b.level ∧ set.Answers view := by
  obtain ⟨hl, hs⟩ := build_eq_ok h
  exact ⟨hl, set.answers_of_get fun s hreal => by rw [← hview s hreal, hs s hreal]⟩

omit [Inhabited κ] in
/-- The set `build` returns does not depend on the kernels it starts from: it overwrites every
cell, and it finds an empty slot before it reads any. -/
theorem build_default_irrelevant (k k' : κ) (b : Builder κ) :
    @build κ ⟨k⟩ b = @build κ ⟨k'⟩ b := by
  cases h : @build κ ⟨k⟩ b with
  | error e =>
    obtain ⟨s, rfl, hs⟩ := foldlM_fill_eq_error_iff.mp h
    exact (foldlM_fill_eq_error_iff.mpr ⟨s, rfl, hs⟩).symm
  | ok set =>
    have hfull := (@build_eq_ok_iff κ b ⟨k⟩).mp ⟨set, h⟩
    obtain ⟨set', h'⟩ := (@build_eq_ok_iff κ b ⟨k'⟩).mpr hfull
    obtain ⟨hl, hs⟩ := @build_eq_ok κ b ⟨k⟩ set h
    obtain ⟨hl', hs'⟩ := @build_eq_ok κ b ⟨k'⟩ set' h'
    rw [h']
    congr 1
    exact KernelSet.ext_get (hl.trans hl'.symm) fun s hr =>
      Option.some.inj ((hs s hr).symm.trans (hs' s hr))

end Builder

/-! ## Registrations -/

inductive Registration (κ : Type) where
  | filter (dir : Direction) (family : TapFamily) (first last : Bool) (k : κ)
  | copy (first last : Bool) (k : κ)
  | refineCopy (k : κ)
  | weightBi (k : κ)
  | weightUni (k : κ)
  | geoBlend (k : κ)

namespace Registration

def slot : Registration κ → Slot
  | filter dir family first last _ => .filter dir family first last
  | copy first last _ => .copy first last
  | refineCopy _ => .refineCopy
  | weightBi _ => .weightBi
  | weightUni _ => .weightUni
  | geoBlend _ => .geoBlend

def kernel : Registration κ → κ
  | filter _ _ _ _ k | copy _ _ k | refineCopy k | weightBi k | weightUni k | geoBlend k => k

def apply (b : Builder κ) : Registration κ → Except RegistryError (Builder κ)
  | filter dir family first last k => b.filter dir family first last k
  | copy first last k => .ok (b.copy first last k)
  | refineCopy k => .ok (b.refineCopy k)
  | weightBi k => .ok (b.weightBi k)
  | weightUni k => .ok (b.weightUni k)
  | geoBlend k => .ok (b.geoBlend k)

def kernelAt (s : Slot) (r : Registration κ) : Option κ :=
  if r.slot = s then some r.kernel else none

theorem apply_isOk_iff {b : Builder κ} {r : Registration κ} :
    (∃ b', r.apply b = .ok b') ↔ r.slot.Real := by
  cases r with
  | filter dir family first last k =>
    simp only [apply, Builder.filter, slot, Slot.Real]
    by_cases hf : family = .twoRefine
    · cases last <;> simp [hf]
    · simp [hf]
  | copy | refineCopy | weightBi | weightUni | geoBlend => simp [apply, slot, Slot.Real]

theorem kernelAt_or (r : Registration κ) (s : Slot) (x : Option κ) :
    (r.kernelAt s).or x = if r.slot = s then some r.kernel else x := by
  unfold kernelAt
  split <;> rfl

theorem entry_apply {b b' : Builder κ} {r : Registration κ} (h : r.apply b = .ok b') :
    b'.level = b.level ∧ ∀ t, t.Real → b'.entry t = (r.kernelAt t).or (b.entry t) := by
  cases r with
  | filter dir family first last k =>
    exact ⟨Builder.level_filter h, fun t ht => by rw [kernelAt_or]; exact Builder.entry_filter h ht⟩
  | copy first last k =>
    cases h
    exact ⟨rfl, fun t _ => by rw [kernelAt_or]; exact Builder.entry_copy first last k t⟩
  | refineCopy k | weightBi k | weightUni k | geoBlend k =>
    cases h
    refine ⟨rfl, fun t _ => ?_⟩
    rw [kernelAt_or]
    cases t <;> simp [slot, kernel, Builder.entry, Builder.refineCopy, Builder.weightBi,
      Builder.weightUni, Builder.geoBlend]

end Registration

def registerAll (b : Builder κ) (regs : List (Registration κ)) :
    Except RegistryError (Builder κ) :=
  regs.foldlM Registration.apply b

/-- The kernel registered last for slot `s`. -/
def lastRegistered (regs : List (Registration κ)) (s : Slot) : Option κ :=
  (regs.filterMap (Registration.kernelAt s)).getLast?

theorem lastRegistered_cons (r : Registration κ) (regs : List (Registration κ)) (s : Slot) :
    lastRegistered (r :: regs) s = (lastRegistered regs s).or (r.kernelAt s) := by
  unfold lastRegistered
  rw [List.filterMap_cons]
  cases r.kernelAt s with
  | none => simp
  | some k =>
    dsimp only
    rw [List.getLast?_cons]
    cases (regs.filterMap (Registration.kernelAt s)).getLast? <;> rfl

/-- The builder refines the slot map: after a run of registrations, each slot of a set holds the
kernel registered last for it, or what it held before. -/
theorem registerAll_entry {b b' : Builder κ} {regs : List (Registration κ)}
    (h : registerAll b regs = .ok b') :
    b'.level = b.level ∧ ∀ s, s.Real → b'.entry s = (lastRegistered regs s).or (b.entry s) := by
  induction regs generalizing b with
  | nil =>
    cases h
    simp [lastRegistered]
  | cons r regs ih =>
    simp only [registerAll, List.foldlM_cons] at h ih
    obtain ⟨b1, h1, hrest⟩ := bind_eq_ok.mp h
    obtain ⟨hl1, hs1⟩ := Registration.entry_apply h1
    obtain ⟨hl, hs⟩ := ih hrest
    refine ⟨hl.trans hl1, fun s hs' => ?_⟩
    rw [hs s hs', hs1 s hs', lastRegistered_cons, Option.or_assoc]

theorem registerAll_isOk_iff {b : Builder κ} {regs : List (Registration κ)} :
    (∃ b', registerAll b regs = .ok b') ↔ ∀ r ∈ regs, r.slot.Real := by
  induction regs generalizing b with
  | nil => simp [registerAll, pure, Except.pure]
  | cons r regs ih =>
    simp only [registerAll, List.foldlM_cons] at ih ⊢
    constructor
    · rintro ⟨b', h⟩
      obtain ⟨b1, h1, hrest⟩ := bind_eq_ok.mp h
      simpa [Registration.apply_isOk_iff.mp ⟨b1, h1⟩] using ih.mp ⟨b', hrest⟩
    · intro hall
      obtain ⟨b1, h1⟩ := Registration.apply_isOk_iff.mpr (hall r List.mem_cons_self)
      rw [h1, ok_bind]
      exact ih.mpr fun r' hr' => hall r' (List.mem_cons_of_mem r hr')

/-! ## The builder is a slot registry -/

variable [Inhabited κ]

/-- Registrations update one slot of a map, and `build` copies the map into a set or names
its first empty slot. -/
theorem kernel_builder_is_slot_registry :
    (∀ (b : Builder κ) (r : Registration κ), (∃ b', r.apply b = .ok b') ↔ r.slot.Real) ∧
    (∀ (level : Level) (regs : List (Registration κ)) (b : Builder κ),
      registerAll (.empty level) regs = .ok b →
      ((∃ set, b.build = .ok set) ↔ ∀ s, s.Real → (lastRegistered regs s).isSome) ∧
      (∀ e, b.build = .error e ↔ ∃ s, e = .missing s ∧ s.Real ∧ lastRegistered regs s = none ∧
        ∀ t, t.Real → t.rank < s.rank → (lastRegistered regs t).isSome) ∧
      ∀ set, b.build = .ok set → set.level = level ∧ set.Answers (lastRegistered regs)) ∧
    ∀ (S : KernelSet κ) (regs : List (Registration κ)) (b : Builder κ),
      registerAll (.ofSet S) regs = .ok b →
      ∃ set, b.build = .ok set ∧ set.level = S.level ∧
        set.Answers fun s => (lastRegistered regs s).or (some (S.get s)) := by
  refine ⟨fun b r => Registration.apply_isOk_iff, ?_, ?_⟩
  · -- From an empty builder a slot of a set holds exactly what was registered last for it.
    intro level regs b h
    obtain ⟨hlevel, hslots⟩ := registerAll_entry h
    have hview : ∀ s, s.Real → b.entry s = lastRegistered regs s := fun s hs => by
      rw [hslots s hs, Builder.entry_empty, Option.or_none]
    refine ⟨?_, fun e => ?_, fun set hset => ?_⟩
    · rw [Builder.build_eq_ok_iff]
      exact forall_congr' fun s => imp_congr_right fun hs => by rw [hview s hs]
    · rw [Builder.build_eq_error_iff]
      refine exists_congr fun s => and_congr_right fun _ => and_congr_right fun hs => ?_
      rw [hview s hs]
      exact and_congr_right fun _ => forall_congr' fun t => imp_congr_right fun ht => by
        rw [hview t ht]
    · obtain ⟨hl, hanswers⟩ := Builder.build_answers hview hset
      exact ⟨hl.trans hlevel, hanswers⟩
  · -- From a set every slot of a set is filled, by `S` if by nothing later.
    intro S regs b h
    obtain ⟨hlevel, hslots⟩ := registerAll_entry h
    have hview : ∀ s, s.Real → b.entry s = (lastRegistered regs s).or (some (S.get s)) :=
      fun s hs => by rw [hslots s hs, Builder.entry_ofSet S s]
    obtain ⟨set, hset⟩ := Builder.build_eq_ok_iff.mpr fun t ht => by
      rw [hview t ht]
      cases lastRegistered regs t <;> rfl
    obtain ⟨hl, hanswers⟩ := Builder.build_answers hview hset
    exact ⟨set, hset, hl.trans hlevel, hanswers⟩

theorem kernel_builder_is_slot_registry_on_override :
    registerAll (.ofSet (KernelSet.uniform .scalar 0)) [.weightUni 7] =
        .ok ((Builder.ofSet (KernelSet.uniform .scalar 0)).weightUni 7) ∧
      (∃ set, ((Builder.ofSet (KernelSet.uniform .scalar 0)).weightUni 7).build = .ok set ∧
        set.level = Level.scalar ∧
        set.Answers fun s => (lastRegistered [.weightUni 7] s).or
          (some ((KernelSet.uniform .scalar 0).get s))) ∧
      registerAll (.empty .avx2) [.copy true false (1 : Nat)] =
        .ok ((Builder.empty .avx2).copy true false 1) ∧
      (((Builder.empty .avx2).copy true false (1 : Nat)).build = .error (.missing
          (.filter .horizontal .eight false false)) ↔
        ∃ s, Kernels.RegistryError.missing (.filter .horizontal .eight false false) = .missing s ∧
          s.Real ∧ lastRegistered [.copy true false (1 : Nat)] s = none ∧
          ∀ t, t.Real → t.rank < s.rank → (lastRegistered [.copy true false 1] t).isSome) := by
  have hS := kernel_builder_is_slot_registry.2.2 (KernelSet.uniform .scalar (0 : Nat))
    [.weightUni 7] _ rfl
  have hnew := kernel_builder_is_slot_registry.2.1 .avx2 [.copy true false (1 : Nat)] _ rfl
  exact ⟨rfl, hS, rfl, hnew.2.1 _⟩

end Kernels

end InterPred
