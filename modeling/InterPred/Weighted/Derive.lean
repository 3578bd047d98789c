import InterPred.Weighted.Slice

/-!
# Deriving the weights of a prediction
-/

namespace InterPred.Weighted

open Word

/-- The weighting one reference applies to one component. -/
structure Weighting where
  weight : Int
  scaledOffset : Int
  offset : Int
  shift : Int
  round : Int
  deriving DecidableEq, Repr

def biPair (s : SliceWeights) (c : Component) (p0 p1 : ScalingParam) :
    Except Overflow (Weighting × Weighting) := do
  let scale := s.offsetScale c
  let o0 ← int32.mul p0.offset scale
  let o1 ← int32.mul p1.offset scale
  let offset ← int32.add o0 o1
  let shift ← int32.add (int32.wrap p0.log2Denom) 1
  let round ← int32.shl 1 p0.log2Denom
  pure (⟨p0.weight, o0, offset, shift, round⟩, ⟨p1.weight, o1, offset, shift, round⟩)

def uniWeighting (s : SliceWeights) (c : Component) (p : ScalingParam) :
    Except Overflow Weighting := do
  let offset ← int32.mul p.offset (s.offsetScale c)
  let unit ← int32.shl 1 p.log2Denom
  let round ← int32.shr unit 1
  pure ⟨p.weight, offset, offset, int32.wrap p.log2Denom, round⟩

/-- The weightings of lists 0 and 1 for reference indices `refIdx0` and `refIdx1`, one per
component up to `maxComp`; a list that is not used has none. -/
def deriveWeighting (refIdx0 refIdx1 : Int) (s : SliceWeights) (maxComp : Component) :
    Except Fault (Option (List Weighting) × Option (List Weighting)) := do
  if refIdx0 < 0 ∧ refIdx1 < 0 then reject .noReference
  let bi := decide (0 ≤ refIdx0 ∧ 0 ≤ refIdx1)
  if bi && !s.wpBiPred then reject .weightedBiPredDisabled
  if bi then
    let w0 ← s.lookup .l0 refIdx0
    let w1 ← s.lookup .l1 refIdx1
    let pairs ← (s.components maxComp).mapM fun c => biPair s c (w0.get c) (w1.get c)
    pure (some (pairs.map (·.1)), some (pairs.map (·.2)))
  else
    let (l, refIdx) := if 0 ≤ refIdx0 then (RefList.l0, refIdx0) else (.l1, refIdx1)
    let w ← s.lookup l refIdx
    let derived ← (s.components maxComp).mapM fun c => uniWeighting s c (w.get c)
    match l with
    | .l0 => pure (some derived, none)
    | .l1 => pure (none, some derived)

end InterPred.Weighted
