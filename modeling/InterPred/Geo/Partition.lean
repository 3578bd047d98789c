import InterPred.Error

/-!
# Geometric partitions

A split line given by an angle and a distance; the 64 used pairs are the split modes.
-/

namespace InterPred.Geo

def displacement : List Int :=
  [8, 8, 8, 8, 4, 4, 2, 1, 0, -1, -2, -4, -4, -8, -8, -8,
    -8, -8, -8, -8, -4, -4, -2, -1, 0, 1, 2, 4, 4, 8, 8, 8]

def angleUsed : List Bool :=
  [true, false, true, true, true, true, false, false,
    true, false, false, true, true, true, true, false,
    true, false, true, true, true, true, false, false,
    true, false, false, true, true, true, true, false]

/-- The pair is a partition: a used angle, no repeated line, no even distance through the
centre along an axis. -/
def partitionValid (angle distance : Nat) : Bool :=
  angle < 32 && distance < 4 && angleUsed.getD angle false && !(distance == 0 && 16 ≤ angle) &&
    !(angle % 8 == 0 && distance % 2 == 0)

/-- A geometric split of a block. -/
structure Partition where
  angle : Nat
  distance : Nat
  valid : partitionValid angle distance = true

namespace Partition

def new? (angle distance : Nat) : Except PredError Partition :=
  if h : partitionValid angle distance = true then .ok ⟨angle, distance, h⟩
  else .error (.invalidGeoPartition angle distance)

def splitModes : List Partition :=
  (List.range 32).flatMap fun angle =>
    (List.range 4).filterMap fun distance =>
      if h : partitionValid angle distance = true then some ⟨angle, distance, h⟩ else none

theorem splitModes_length : splitModes.length = 64 := by decide

def ofSplitDir? (mode : Nat) : Except PredError Partition :=
  match splitModes[mode]? with
  | some p => .ok p
  | none => .error (.invalidGeoMode mode)

/-- The split mode of a partition: its position among `splitModes`. -/
def splitDir (p : Partition) : Nat :=
  splitModes.findIdx fun q => q.angle == p.angle && q.distance == p.distance

end Partition

end InterPred.Geo
