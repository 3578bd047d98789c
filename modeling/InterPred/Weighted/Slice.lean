import InterPred.Error

/-!
# Weighting parameters of a slice

Setting an index past the end of a list pads it with neutral entries first.
-/

namespace InterPred.Weighted

/-- The weighting of one component of one reference picture, as signalled. -/
structure ScalingParam where
  weight : Int
  offset : Int
  log2Denom : Nat
  present : Bool
  deriving DecidableEq, Repr

namespace ScalingParam

def coded (weight offset : Int) (log2Denom : Nat) : ScalingParam :=
  ⟨weight, offset, log2Denom, true⟩

/-- The neutral parameters at a denominator: weight `2 ^ log2Denom`, offset 0. The weight
is a 32-bit word, so a denominator of 32 or more overflows. -/
def absent (log2Denom : Nat) : Except Overflow ScalingParam := do
  let weight ← Word.int32.shl 1 log2Denom
  pure ⟨weight, 0, log2Denom, false⟩

end ScalingParam

structure RefWeights where
  y : ScalingParam
  cb : ScalingParam
  cr : ScalingParam
  deriving DecidableEq, Repr

namespace RefWeights

def get (w : RefWeights) : Component → ScalingParam
  | .y => w.y
  | .cb => w.cb
  | .cr => w.cr

def uniform (p : ScalingParam) : RefWeights := ⟨p, p, p⟩

end RefWeights

def putAt (entries : List RefWeights) (idx : Nat) (fill w : RefWeights) : List RefWeights :=
  if idx < entries.length then entries.set idx w
  else entries ++ List.replicate (idx - entries.length) fill ++ [w]

/-- The weighting parameters of a slice. -/
structure SliceWeights where
  list0 : List RefWeights
  list1 : List RefWeights
  chromaFormat : ChromaFormat
  lumaBitDepth : Nat
  chromaBitDepth : Nat
  wpBiPred : Bool
  highPrecisionOffsets : Bool
  deriving DecidableEq, Repr

namespace SliceWeights

def new? (chromaFormat : ChromaFormat) (lumaBitDepth chromaBitDepth : Nat) :
    Except PredError SliceWeights :=
  if ¬BitDepthOk lumaBitDepth then .error (.unsupportedBitDepth lumaBitDepth)
  else if ¬BitDepthOk chromaBitDepth then .error (.unsupportedBitDepth chromaBitDepth)
  else .ok ⟨[], [], chromaFormat, lumaBitDepth, chromaBitDepth, false, false⟩

def entries (s : SliceWeights) : RefList → List RefWeights
  | .l0 => s.list0
  | .l1 => s.list1

def withEntries (s : SliceWeights) (l : RefList) (e : List RefWeights) : SliceWeights :=
  match l with
  | .l0 => { s with list0 := e }
  | .l1 => { s with list1 := e }

def get? (s : SliceWeights) (l : RefList) (idx : Nat) : Option RefWeights := (s.entries l)[idx]?

/-- Stores the parameters of a reference index. Padding entries are neutral at the luma
denominator of `w`; they are built only when the list is too short. -/
def set (s : SliceWeights) (l : RefList) (idx : Nat) (w : RefWeights) :
    Except Overflow SliceWeights := do
  let e := s.entries l
  if idx < e.length then pure (s.withEntries l (e.set idx w))
  else
    let fill ← ScalingParam.absent w.y.log2Denom
    pure (s.withEntries l (putAt e idx (.uniform fill) w))

def bitDepth (s : SliceWeights) (c : Component) : Nat :=
  if c.isLuma then s.lumaBitDepth else s.chromaBitDepth

/-- What a signalled offset is multiplied by: 1 with high-precision offsets, else
`2 ^ (bitDepth - 8)`. -/
def offsetScale (s : SliceWeights) (c : Component) : Int :=
  if s.highPrecisionOffsets then 1 else (pow2 (s.bitDepth c - 8) : Int)

/-- The parameters a reference index names; it must be non-negative and have an entry. -/
def lookup (s : SliceWeights) (l : RefList) (refIdx : Int) : Except PredError RefWeights :=
  if refIdx < 0 then .error (.negativeRefIdx refIdx)
  else
    match s.get? l refIdx.toNat with
    | some w => .ok w
    | none => .error (.missingWeights refIdx.toNat)

def components (s : SliceWeights) (maxComp : Component) : List Component :=
  (Component.all.take s.chromaFormat.numComponents).filter (·.index ≤ maxComp.index)

/-- `maxComp`, lowered to the last component the chroma format has. -/
def lastComponent (s : SliceWeights) (maxComp : Component) : Component :=
  Component.ofIndexD (min (s.chromaFormat.numComponents - 1) maxComp.index)

end SliceWeights

end InterPred.Weighted
