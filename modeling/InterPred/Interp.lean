import InterPred.Interp.Kernel
import InterPred.Observer
import InterPred.Taps

/-!
# Fractional-sample interpolation

Each call resolves its tap sets, checks its support, reports what a first pass reads and
runs the kernels; a unit-impulse tap set takes the copy path.
-/

namespace InterPred.Interp

/-- What an interpolation call produced. -/
structure Outcome where
  dst : Plane
  tmp : Array Int
  reads : List ReadRegion

/-- A filter pass along `dir` over the block of `dst`, reading the support of `taps`
around the window's origin. A first pass reports the support it reads. -/
def pass (dir : Direction) (family : TapFamily) (first last : Bool) (clip : ClipRange)
    (src : Window) (dst : Plane) (taps : List Int) : Except Fault (Plane × List ReadRegion) := do
  let n := taps.length
  let half := n / 2 - 1
  let (left, above, spanW, spanH) ← match dir with
    | .horizontal => do
      let w ← Size.add dst.width n
      pure (half, 0, w - 1, dst.height)
    | .vertical => do
      let h ← Size.add dst.height n
      pure (0, half, dst.width, h - 1)
  let start ← src.support left above spanW spanH
  let reads := if first then [⟨start, src.stride, spanW, spanH⟩] else []
  pure (filterPass family dir first last clip src.data start src.stride dst taps, reads)

def copy (clip : ClipRange) (src : Window) (dst : Plane) (first last refine : Bool) :
    Except Fault (Plane × List ReadRegion) := do
  let start ← src.support 0 0 dst.width dst.height
  let reads := if first then [⟨start, src.stride, dst.width, dst.height⟩] else []
  pure (copyPass first last refine clip src.data start src.stride dst, reads)

/-- Refuses a pass that would need output samples from a family that has none. -/
def checkLast (variant : FilterVariant) (comp : Component) (last : Bool) : Except Fault Unit :=
  if last && !(variant.family comp.isLuma).supportsLast then
    reject (.unsupportedVariant variant comp)
  else pure ()

def filterAxis (dir : Direction) (comp : Component) (variant : FilterVariant) (clip : ClipRange)
    (src : Window) (dst : Plane) (frac : Nat) (first last : Bool) :
    Except Fault (Plane × List ReadRegion) := do
  checkLast variant comp last
  let family := variant.family comp.isLuma
  let taps ← Taps.select variant comp frac
  if Taps.isIdentity taps then copy clip src dst first last (family == .twoRefine)
  else pass dir family first last clip src dst taps

def filterHor (comp : Component) (variant : FilterVariant) (clip : ClipRange) (src : Window)
    (dst : Plane) (frac : Nat) (last : Bool) : Except Fault (Plane × List ReadRegion) :=
  filterAxis .horizontal comp variant clip src dst frac true last

def filterVer (comp : Component) (variant : FilterVariant) (clip : ClipRange) (src : Window)
    (dst : Plane) (frac : Nat) (first last : Bool) : Except Fault (Plane × List ReadRegion) :=
  filterAxis .vertical comp variant clip src dst frac first last

/-- The general 2D path: a horizontal first pass into `height + taps - 1` rows of
intermediates at the front of `tmp`, then a vertical pass over them. -/
def separable (family : TapFamily) (clip : ClipRange) (src : Window) (dst : Plane)
    (tapsX tapsY : List Int) (last : Bool) (tmp : Array Int) : Except Fault Outcome := do
  let n := tapsY.length
  let half := n / 2 - 1
  let rows := Size.addSaturating dst.height (n - 1)
  let needed ← Size.mul dst.width rows
  if tmp.size < needed then reject (.bufferTooSmall needed tmp.size)
  let above ← src.shiftedUp half
  let mid ← Plane.new? (tmp.extract 0 needed) dst.width dst.width rows
  let (mid, reads) ← pass .horizontal family true false clip above mid tapsX
  let window ← Window.new? mid.data dst.width (half * dst.width)
  let (dst, _) ← pass .vertical family false last clip window dst tapsY
  pure ⟨dst, mid.data ++ tmp.extract needed tmp.size, reads⟩

/-- Interpolation of a block at fractional position `(fracX, fracY)`. -/
def filter2d (comp : Component) (variant : FilterVariant) (clip : ClipRange) (src : Window)
    (dst : Plane) (fracX fracY : Nat) (last : Bool) (tmp : Array Int) : Except Fault Outcome := do
  checkLast variant comp last
  let family := variant.family comp.isLuma
  let tapsX ← Taps.select variant comp fracX
  let tapsY ← Taps.select variant comp fracY
  let refine := family == .twoRefine
  match Taps.isIdentity tapsX, Taps.isIdentity tapsY with
  | true, true =>
    let (dst, reads) ← copy clip src dst true last refine
    pure ⟨dst, tmp, reads⟩
  | false, true =>
    let (dst, reads) ← pass .horizontal family true last clip src dst tapsX
    pure ⟨dst, tmp, reads⟩
  | true, false =>
    let (dst, reads) ← pass .vertical family true last clip src dst tapsY
    pure ⟨dst, tmp, reads⟩
  | false, false => separable family clip src dst tapsX tapsY last tmp

/-- Bilinear interpolation for decoder-side refinement: luma, refinement precision, never
output samples. -/
def filterRefine (clip : ClipRange) (src : Window) (dst : Plane) (fracX fracY : Nat)
    (tmp : Array Int) : Except Fault Outcome :=
  filter2d .y .refine clip src dst fracX fracY false tmp

def scratchLen (variant : FilterVariant) (comp : Component) (width height : Nat) :
    Except Overflow Nat := do
  let taps := (variant.family comp.isLuma).taps
  let rows ← Size.add height taps
  Size.mul width (rows - 1)

end InterPred.Interp
