import InterPred.Params

/-!
# The kernel registry

A kernel set holds one kernel per slot in arrays indexed by direction, tap family, first and
last flag; a `Builder` fills its own arrays and `build` copies them into a set.
-/

namespace InterPred

def Direction.index : Direction → Nat
  | horizontal => 0
  | vertical => 1

theorem Direction.index_lt (dir : Direction) : dir.index < 2 := by
  cases dir <;> decide

@[simp] theorem Direction.index_inj {d d' : Direction} : d.index = d'.index ↔ d = d' := by
  cases d <;> cases d' <;> decide

def TapFamily.index : TapFamily → Nat
  | eight => 0
  | six => 1
  | four => 2
  | twoRefine => 3

theorem TapFamily.index_lt_three {family : TapFamily} (h : family ≠ .twoRefine) :
    family.index < 3 := by
  cases family
  all_goals first | decide | exact absurd rfl h

@[simp] theorem TapFamily.index_inj {f f' : TapFamily} : f.index = f'.index ↔ f = f' := by
  cases f <;> cases f' <;> decide

namespace Kernels

inductive Level where
  | scalar
  | avx2
  deriving DecidableEq, Repr

def Level.name : Level → String
  | scalar => "Scalar"
  | avx2 => "Avx2"

/-- The shapes of kernel, as `build` names them. -/
inductive Slot where
  | filter (dir : Direction) (family : TapFamily) (first last : Bool)
  | copy (first last : Bool)
  | refineCopy
  | weightBi
  | weightUni
  | geoBlend
  deriving DecidableEq, Repr

namespace Slot

def filtersOf (dir : Direction) : List Slot :=
  TapFamily.all.flatMap fun family =>
    [false, true].flatMap fun first =>
      ([false, true].filter fun last => family.supportsLast || !last).map fun last =>
        filter dir family first last

/-- Every slot, in the order `build` walks them. -/
def order : List Slot :=
  filtersOf .horizontal ++ filtersOf .vertical ++
    ([false, true].flatMap fun first => [false, true].map fun last => copy first last) ++
    [refineCopy, weightBi, weightUni, geoBlend]

def missingMessage : Slot → String
  | filter dir family first last =>
    let d := dir.name
    let f := family.name
    s!"No filter kernel registered for {d} {f} first={first} last={last}."
  | copy first last => s!"No copy kernel registered for first={first} last={last}."
  | refineCopy => "No refinement copy kernel registered."
  | weightBi => "No bi-directional weighting kernel registered."
  | weightUni => "No uni-directional weighting kernel registered."
  | geoBlend => "No geometric blend kernel registered."

end Slot

inductive RegistryError where
  | noOutputPass (first : Bool)
  | missing (slot : Slot)
  deriving DecidableEq, Repr

def RegistryError.message : RegistryError → String
  | noOutputPass first =>
    s!"The TwoDmvr family has no output pass; cannot register first={first} last=true."
  | missing slot => slot.missingMessage

/-- The filters of one direction: `families[family][first][last]` for the three families with
an output pass, and `dmvr[first]` for the refinement family. -/
structure FilterTable (κ : Type) where
  families : Vector (Vector (Vector κ 2) 2) 3
  dmvr : Vector κ 2

/-- A complete set of kernels; `tables` is indexed by direction, `copies` by first and last. -/
structure KernelSet (κ : Type) where
  level : Level
  tables : Vector (FilterTable κ) 2
  copies : Vector (Vector κ 2) 2
  refineCopy : κ
  weightBi : κ
  weightUni : κ
  geoBlend : κ

namespace KernelSet

variable {κ : Type}

def filter (set : KernelSet κ) (dir : Direction) (family : TapFamily) (first last : Bool) : κ :=
  have := dir.index_lt
  have := first.toNat_lt
  have := last.toNat_lt
  let table := set.tables[dir.index]
  if h : family = .twoRefine then table.dmvr[first.toNat]
  else
    have := TapFamily.index_lt_three h
    table.families[family.index][first.toNat][last.toNat]

def copy (set : KernelSet κ) (first last refine : Bool) : κ :=
  have := first.toNat_lt
  have := last.toNat_lt
  if refine && first && !last then set.refineCopy
  else set.copies[first.toNat][last.toNat]

def uniform (level : Level) (k : κ) : KernelSet κ :=
  ⟨level, Vector.replicate 2 ⟨Vector.replicate 3 (Vector.replicate 2 (Vector.replicate 2 k)),
      Vector.replicate 2 k⟩,
    Vector.replicate 2 (Vector.replicate 2 k), k, k, k, k⟩

def store (set : KernelSet κ) (k : κ) : Slot → KernelSet κ
  | .filter dir family first last =>
    have := dir.index_lt
    have := first.toNat_lt
    have := last.toNat_lt
    let table := set.tables[dir.index]
    if h : family = .twoRefine then
      let table' := { table with dmvr := table.dmvr.set first.toNat k }
      { set with tables := set.tables.set dir.index table' }
    else
      have := TapFamily.index_lt_three h
      let byFirst := table.families[family.index]
      let byFirst' := byFirst.set first.toNat (byFirst[first.toNat].set last.toNat k)
      let table' := { table with families := table.families.set family.index byFirst' }
      { set with tables := set.tables.set dir.index table' }
  | .copy first last =>
    have := first.toNat_lt
    have := last.toNat_lt
    let byLast := set.copies[first.toNat].set last.toNat k
    { set with copies := set.copies.set first.toNat byLast }
  | .refineCopy => { set with refineCopy := k }
  | .weightBi => { set with weightBi := k }
  | .weightUni => { set with weightUni := k }
  | .geoBlend => { set with geoBlend := k }

end KernelSet

/-- A kernel set under construction: `filterSlots[dir][family][first][last]` for the families
with an output pass, `refineSlots[dir][first]`, and `copySlots[first][last]`. -/
structure Builder (κ : Type) where
  level : Level
  filterSlots : Vector (Vector (Vector (Vector (Option κ) 2) 2) 3) 2
  refineSlots : Vector (Vector (Option κ) 2) 2
  copySlots : Vector (Vector (Option κ) 2) 2
  refineCopySlot : Option κ
  weightBiSlot : Option κ
  weightUniSlot : Option κ
  geoBlendSlot : Option κ

namespace Builder

variable {κ : Type}

def empty (level : Level) : Builder κ :=
  ⟨level, Vector.replicate 2 (Vector.replicate 3 (Vector.replicate 2 (Vector.replicate 2 none))),
    Vector.replicate 2 (Vector.replicate 2 none), Vector.replicate 2 (Vector.replicate 2 none),
    none, none, none, none⟩

def ofSet (set : KernelSet κ) : Builder κ :=
  ⟨set.level, set.tables.map fun table => table.families.map fun byFirst => byFirst.map
      fun byLast => byLast.map some,
    set.tables.map fun table => table.dmvr.map some, set.copies.map fun byLast => byLast.map some,
    some set.refineCopy, some set.weightBi, some set.weightUni, some set.geoBlend⟩

/-- Registers a filter pass. A refinement filter cannot produce output samples. -/
def filter (b : Builder κ) (dir : Direction) (family : TapFamily) (first last : Bool) (k : κ) :
    Except RegistryError (Builder κ) :=
  have := dir.index_lt
  have := first.toNat_lt
  have := last.toNat_lt
  if h : family = .twoRefine then
    if last then .error (.noOutputPass first)
    else
      let byFirst := b.refineSlots[dir.index].set first.toNat (some k)
      .ok { b with refineSlots := b.refineSlots.set dir.index byFirst }
  else
    have := TapFamily.index_lt_three h
    let byFamily := b.filterSlots[dir.index]
    let byFirst := byFamily[family.index]
    let byFirst' := byFirst.set first.toNat (byFirst[first.toNat].set last.toNat (some k))
    .ok { b with filterSlots := b.filterSlots.set dir.index (byFamily.set family.index byFirst') }

def copy (b : Builder κ) (first last : Bool) (k : κ) : Builder κ :=
  have := first.toNat_lt
  have := last.toNat_lt
  let byLast := b.copySlots[first.toNat].set last.toNat (some k)
  { b with copySlots := b.copySlots.set first.toNat byLast }

def refineCopy (b : Builder κ) (k : κ) : Builder κ := { b with refineCopySlot := some k }

def weightBi (b : Builder κ) (k : κ) : Builder κ := { b with weightBiSlot := some k }

def weightUni (b : Builder κ) (k : κ) : Builder κ := { b with weightUniSlot := some k }

def geoBlend (b : Builder κ) (k : κ) : Builder κ := { b with geoBlendSlot := some k }

def entry (b : Builder κ) : Slot → Option κ
  | .filter dir family first last =>
    have := dir.index_lt
    have := first.toNat_lt
    have := last.toNat_lt
    if h : family = .twoRefine then b.refineSlots[dir.index][first.toNat]
    else
      have := TapFamily.index_lt_three h
      b.filterSlots[dir.index][family.index][first.toNat][last.toNat]
  | .copy first last =>
    have := first.toNat_lt
    have := last.toNat_lt
    b.copySlots[first.toNat][last.toNat]
  | .refineCopy => b.refineCopySlot
  | .weightBi => b.weightBiSlot
  | .weightUni => b.weightUniSlot
  | .geoBlend => b.geoBlendSlot

def fill (b : Builder κ) (set : KernelSet κ) (s : Slot) : Except RegistryError (KernelSet κ) :=
  match b.entry s with
  | some k => .ok (set.store k s)
  | none => .error (.missing s)

/-- The set, if every slot is filled; else the first empty slot. It starts from a set of default
kernels at the builder's level and overwrites every slot. -/
def build [Inhabited κ] (b : Builder κ) : Except RegistryError (KernelSet κ) :=
  Slot.order.foldlM b.fill (KernelSet.uniform b.level default)

end Builder

def describeEngine (level : Level) (observer : Bool) : String :=
  let l := level.name
  s!"InterpolationFilter \x7b kernels: {l}, observer: {observer} \x7d"

end Kernels

end InterPred
