import InterPred.Weighted.Combine

/-!
# Weighted prediction

The entry points that weigh the planes of a prediction unit, component by component.
-/

namespace InterPred.Weighted

/-- Restricts a call to luma or to chroma; both at once is refused. -/
structure ComponentSelect where
  lumaOnly : Bool
  chromaOnly : Bool
  deriving DecidableEq, Repr

def ComponentSelect.ofBits (b : Nat) : ComponentSelect := ⟨b % 2 = 1, b / 2 % 2 = 1⟩

/-- Indices of the components a call may write, in order. -/
def componentRange (sel : ComponentSelect) (maxComp : Component) : Except PredError (List Nat) :=
  if sel.lumaOnly && sel.chromaOnly then .error .conflictingComponentSelect
  else
    let first := if sel.chromaOnly then 1 else 0
    let last := if sel.lumaOnly then 0 else maxComp.index
    .ok (List.range' first (last + 1 - first))

def weightPair (wp0 wp1 : List Weighting) (i : Nat) : Except Fault (Weighting × Weighting) :=
  match wp0[i]?, wp1[i]? with
  | some a, some b => pure (a, b)
  | _, _ => reject (.missingComponentWeights (Component.ofIndexD i))

def planeOf (u : Planes) (c : Component) (m : Mismatch) : Except Fault Plane :=
  match u.get? c with
  | some p => pure p
  | none => reject (.dimensionMismatch m)

def addWeightBi (src0 src1 : Planes) (clip : ClipSet) (wp0 wp1 : List Weighting) (dst : Planes)
    (maxComp : Component) (sel : ComponentSelect) : Except Fault Planes := do
  let range ← componentRange sel maxComp
  List.foldlM (fun dst i => do
    let c := Component.ofIndexD i
    let (p0, p1) ← weightPair wp0 wp1 i
    let s0 ← planeOf src0 c .missingSource
    let s1 ← planeOf src1 c .missingSource
    let d ← planeOf dst c .missingDestination
    unless s0.sameSize d && s1.sameSize d do reject (.dimensionMismatch .biPlanes)
    let d ← weightBi (clip.component c) s0 s1 d p0 p1
    pure (dst.set c d)) dst (range.takeWhile (· < src0.length))

def addWeightUni (src : Planes) (clip : ClipSet) (wp : List Weighting) (dst : Planes)
    (maxComp : Component) (sel : ComponentSelect) : Except Fault Planes := do
  let range ← componentRange sel maxComp
  List.foldlM (fun dst i => do
    let c := Component.ofIndexD i
    let p ← match wp[i]? with
      | some p => pure p
      | none => reject (.missingComponentWeights c)
    let s ← planeOf src c .missingSource
    let d ← planeOf dst c .missingDestination
    unless s.sameSize d do reject (.dimensionMismatch .uniPlanes)
    let d ← weightUni (clip.component c) s d p
    pure (dst.set c d)) dst (range.takeWhile (· < src.length))

/-- Weighted bi-prediction with reference indices `refIdx0` and `refIdx1`. -/
def predictBi (s : SliceWeights) (refIdx0 refIdx1 : Int) (src0 src1 : Planes) (clip : ClipSet)
    (dst : Planes) (maxComp : Component) (sel : ComponentSelect) : Except Fault Planes := do
  if !s.wpBiPred then reject .weightedBiPredDisabled
  if refIdx0 < 0 ∧ refIdx1 < 0 then return dst
  let maxComp := s.lastComponent maxComp
  match ← deriveWeighting refIdx0 refIdx1 s maxComp with
  | (some wp0, some wp1) => addWeightBi src0 src1 clip wp0 wp1 dst maxComp sel
  | (some wp0, none) => addWeightUni src0 clip wp0 dst maxComp sel
  | (none, some wp1) => addWeightUni src1 clip wp1 dst maxComp sel
  | (none, none) => pure dst

/-- Weighted uni-prediction from one list. -/
def predictUni (s : SliceWeights) (l : RefList) (refIdx : Int) (src : Planes) (clip : ClipSet)
    (dst : Planes) (maxComp : Component) (sel : ComponentSelect) : Except Fault Planes := do
  if refIdx < 0 then reject (.negativeRefIdx refIdx)
  let maxComp := s.lastComponent maxComp
  let derived ← match l with
    | .l0 => do pure (← deriveWeighting refIdx (-1) s maxComp).1
    | .l1 => do pure (← deriveWeighting (-1) refIdx s maxComp).2
  match derived with
  | some wp => addWeightUni src clip wp dst maxComp sel
  | none => pure dst

end InterPred.Weighted
