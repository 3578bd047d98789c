/-!
# Components, chroma formats and filter variants
-/

namespace InterPred

/-! ## Precisions -/

def internalPrecision : Nat := 14

def filterPrecision : Nat := 6

/-- The bias taken off intermediates so that they are centred on zero. -/
def internalOffset : Int := 8192

def refinePrecision : Nat := 10

def refineFilterPrecision : Nat := 4

def BitDepthOk (d : Nat) : Prop := 8 ≤ d ∧ d ≤ 12

instance (d : Nat) : Decidable (BitDepthOk d) := inferInstanceAs (Decidable (_ ∧ _))

/-- Bits between a native sample and an intermediate; never below 2. -/
def internalFracBits (bitDepth : Nat) : Nat := max 2 (internalPrecision - bitDepth)

theorem internalFracBits_of_ok {d : Nat} (h : BitDepthOk d) : internalFracBits d = 14 - d := by
  unfold internalFracBits internalPrecision BitDepthOk at *
  omega

/-! ## Codes that name nothing -/

inductive CodeError where
  | variant (code : Int)
  | chromaFormat (code : Int)
  | component (code : Nat)
  deriving DecidableEq, Repr

namespace CodeError

def message : CodeError → String
  | variant code => s!"Invalid value for filter variant, must be 0-7, got {code}."
  | chromaFormat code => s!"Invalid value for chroma format, must be 0-3, got {code}."
  | component code => s!"Invalid component index, must be 0-2, got {code}."

end CodeError

/-! ## Components -/

inductive Component where
  | y
  | cb
  | cr
  deriving DecidableEq, Repr

namespace Component

def all : List Component := [y, cb, cr]

def index : Component → Nat
  | y => 0
  | cb => 1
  | cr => 2

def isLuma : Component → Bool
  | y => true
  | _ => false

def name : Component → String
  | y => "Y"
  | cb => "Cb"
  | cr => "Cr"

def ofIndex? : Nat → Except CodeError Component
  | 0 => .ok y
  | 1 => .ok cb
  | 2 => .ok cr
  | n => .error (.component n)

def ofIndexD (n : Nat) : Component := all.getD n cr

theorem index_lt_three (c : Component) : c.index < 3 := by cases c <;> decide

theorem ofIndexD_index (c : Component) : ofIndexD c.index = c := by cases c <;> rfl

theorem index_injective {c c' : Component} (h : c.index = c'.index) : c = c' := by
  cases c <;> cases c' <;> first | rfl | cases h

def fracPositions (c : Component) : Nat := if c.isLuma then 16 else 32

end Component

/-! ## Chroma formats -/

inductive ChromaFormat where
  | monochrome
  | yuv420
  | yuv422
  | yuv444
  deriving DecidableEq, Repr

namespace ChromaFormat

def ofCode? : Int → Except CodeError ChromaFormat
  | 0 => .ok monochrome
  | 1 => .ok yuv420
  | 2 => .ok yuv422
  | 3 => .ok yuv444
  | n => .error (.chromaFormat n)

def name : ChromaFormat → String
  | monochrome => "Monochrome"
  | yuv420 => "Yuv420"
  | yuv422 => "Yuv422"
  | yuv444 => "Yuv444"

def numComponents : ChromaFormat → Nat
  | monochrome => 1
  | _ => 3

def scaleX (f : ChromaFormat) (c : Component) : Nat :=
  match f, c with
  | _, .y => 0
  | yuv420, _ => 1
  | yuv422, _ => 1
  | _, _ => 0

def scaleY (f : ChromaFormat) (c : Component) : Nat :=
  match f, c with
  | _, .y => 0
  | yuv420, _ => 1
  | _, _ => 0

end ChromaFormat

/-! ## Tap families and filter variants -/

/-- The shapes of filter kernel: the number of taps, and whether the pass can produce
output samples. -/
inductive TapFamily where
  | eight
  | six
  | four
  | twoRefine
  deriving DecidableEq, Repr

namespace TapFamily

def all : List TapFamily := [eight, six, four, twoRefine]

def taps : TapFamily → Nat
  | eight => 8
  | six => 6
  | four => 4
  | twoRefine => 2

def supportsLast : TapFamily → Bool
  | twoRefine => false
  | _ => true

def name : TapFamily → String
  | eight => "Eight"
  | six => "Six"
  | four => "Four"
  | twoRefine => "TwoDmvr"

def ofCode? : Nat → Option TapFamily
  | 0 => some eight
  | 1 => some six
  | 2 => some four
  | 3 => some twoRefine
  | _ => none

end TapFamily

/-- Which coefficient table and rounding rule an interpolation call uses. -/
inductive FilterVariant where
  | standard
  | refine
  | affine
  | resampleHalf
  | resampleDouble
  | affineResampleHalf
  | affineResampleDouble
  | halfPelAlternate
  deriving DecidableEq, Repr

namespace FilterVariant

def ofCode? : Int → Except CodeError FilterVariant
  | 0 => .ok standard
  | 1 => .ok refine
  | 2 => .ok affine
  | 3 => .ok resampleHalf
  | 4 => .ok resampleDouble
  | 5 => .ok affineResampleHalf
  | 6 => .ok affineResampleDouble
  | 7 => .ok halfPelAlternate
  | n => .error (.variant n)

def name : FilterVariant → String
  | standard => "Default"
  | refine => "Dmvr"
  | affine => "Affine"
  | resampleHalf => "ResampleHalf"
  | resampleDouble => "ResampleDouble"
  | affineResampleHalf => "AffineResampleHalf"
  | affineResampleDouble => "AffineResampleDouble"
  | halfPelAlternate => "HalfPelAlternate"

def family (v : FilterVariant) (luma : Bool) : TapFamily :=
  if !luma then .four
  else
    match v with
    | refine => .twoRefine
    | affine | affineResampleHalf | affineResampleDouble => .six
    | _ => .eight

end FilterVariant

inductive Direction where
  | horizontal
  | vertical
  deriving DecidableEq, Repr

namespace Direction

def name : Direction → String
  | horizontal => "Horizontal"
  | vertical => "Vertical"

end Direction

inductive RefList where
  | l0
  | l1
  deriving DecidableEq, Repr

end InterPred
