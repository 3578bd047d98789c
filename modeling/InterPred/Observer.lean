import InterPred.Word

/-!
# Counting reference reads

A `ReadCounter` adds up the regions a first pass reports and the samples they cover.
-/

namespace InterPred

/-- A rectangle of reference samples read by a first filter pass. -/
structure ReadRegion where
  start : Nat
  stride : Nat
  width : Nat
  height : Nat
  deriving DecidableEq, Repr

def ReadRegion.samples (r : ReadRegion) : Except Overflow Nat := Size.mul r.width r.height

/-- Running totals of reported reads; both wrap at `2 ^ 64`. -/
structure ReadCounter where
  reads : Nat := 0
  samples : Nat := 0
  deriving DecidableEq, Repr

namespace ReadCounter

/-- Counts one read, then adds its samples. The counter after the step is returned even
when the size of the region overflows. -/
def record (c : ReadCounter) (r : ReadRegion) : ReadCounter × Except Overflow Unit :=
  let c := { c with reads := (c.reads + 1) % Size.bound }
  match r.samples with
  | .ok n => ({ c with samples := (c.samples + n) % Size.bound }, .ok ())
  | .error e => (c, .error e)

def recordAll (c : ReadCounter) : List ReadRegion → Except Overflow ReadCounter
  | [] => .ok c
  | r :: rs =>
    match c.record r with
    | (c, .ok ()) => c.recordAll rs
    | (_, .error e) => .error e

theorem record_reads (c : ReadCounter) (r : ReadRegion) :
    (c.record r).1.reads = (c.reads + 1) % Size.bound := by
  unfold record
  split <;> rfl

end ReadCounter

end InterPred
