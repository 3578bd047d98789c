import InterPred.Interp

/-!
# Calls as their caller sees them

A `Run` works in place on a `Frame` (destination, scratch buffer, observer reports) and
keeps what it wrote when it stops.
-/

namespace InterPred.Interp

/-- What an interpolation call can change: the destination, the scratch buffer, and the
regions the observer has been told of, oldest first. -/
structure Frame where
  dst : Plane
  tmp : Array Int
  seen : List ReadRegion

/-- A step of a call on the caller's frame. A step that stops leaves the frame it stopped in. -/
abbrev Run := EStateM Fault Frame

def require {α : Type} (x : Except Fault α) : Run α := fun fr =>
  match x with
  | .ok a => .ok a fr
  | .error e => .error e fr

/-- A pass or a copy into the destination: the observer hears of the regions it read, and its
block is written. -/
def emit (x : Except Fault (Plane × List ReadRegion)) : Run Unit := do
  let (d, reads) ← require x
  modify fun fr => { fr with dst := d, seen := fr.seen ++ reads }

def filterAxisRun (dir : Direction) (comp : Component) (variant : FilterVariant)
    (clip : ClipRange) (src : Window) (frac : Nat) (first last : Bool) : Run Unit := do
  let fr ← get
  emit (filterAxis dir comp variant clip src fr.dst frac first last)

/-- The general 2D path, step by step: the horizontal pass fills the front of the scratch
buffer and reports its read before the window over the scratch rows is made. -/
def separableRun (family : TapFamily) (clip : ClipRange) (src : Window)
    (tapsX tapsY : List Int) (last : Bool) : Run Unit := do
  let fr ← get
  let n := tapsY.length
  let half := n / 2 - 1
  let rows := Size.addSaturating fr.dst.height (n - 1)
  let needed ← require (liftM (Size.mul fr.dst.width rows))
  if fr.tmp.size < needed then require (reject (.bufferTooSmall needed fr.tmp.size))
  let above ← require (src.shiftedUp half)
  let mid ← require (Plane.new? (fr.tmp.extract 0 needed) fr.dst.width fr.dst.width rows)
  let (mid, reads) ← require (pass .horizontal family true false clip above mid tapsX)
  set { fr with tmp := mid.data ++ fr.tmp.extract needed fr.tmp.size, seen := fr.seen ++ reads }
  let window ← require (Window.new? mid.data fr.dst.width (half * fr.dst.width))
  emit (pass .vertical family false last clip window fr.dst tapsY)

def filter2dRun (comp : Component) (variant : FilterVariant) (clip : ClipRange) (src : Window)
    (fracX fracY : Nat) (last : Bool) : Run Unit := do
  require (checkLast variant comp last)
  let family := variant.family comp.isLuma
  let tapsX ← require (liftM (Taps.select variant comp fracX))
  let tapsY ← require (liftM (Taps.select variant comp fracY))
  let refine := family == .twoRefine
  let fr ← get
  match Taps.isIdentity tapsX, Taps.isIdentity tapsY with
  | true, true => emit (copy clip src fr.dst true last refine)
  | false, true => emit (pass .horizontal family true last clip src fr.dst tapsX)
  | true, false => emit (pass .vertical family true last clip src fr.dst tapsY)
  | false, false => separableRun family clip src tapsX tapsY last

def filterRefineRun (clip : ClipRange) (src : Window) (fracX fracY : Nat) : Run Unit :=
  filter2dRun .y .refine clip src fracX fracY false

end InterPred.Interp
