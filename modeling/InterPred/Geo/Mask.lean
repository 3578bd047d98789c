import InterPred.Geo.Partition

/-!
# The blending mask of a partition

Each sample gets a weight from 0 to 8, the clamped distance from the split line. Masks are
built on first use and kept in `MaskCache`, one slot per partition and pair of sides.
-/

namespace InterPred.Geo

def sizeIndex? (size : Nat) : Option Nat := [8, 16, 32, 64].idxOf? size

/-- The weight of the first prediction at sample `(x, y)` of a `width × height` block. -/
def maskWeight (p : Partition) (width height x y : Int) : Int :=
  let angle : Int := p.angle
  let distance : Int := p.distance
  let disX := displacement.getD p.angle 0
  let disY := displacement.getD ((p.angle + 8) % 32) 0
  let flip := !(13 ≤ angle && angle ≤ 27)
  let shiftHor := !(angle % 16 == 8 || (angle % 16 != 0 && width ≤ height))
  let step (size : Int) : Int :=
    let d := distance * size / 8
    if angle < 16 then d else -d
  let offX := if shiftHor then -width / 2 + step width else -width / 2
  let offY := if shiftHor then -height / 2 else -height / 2 + step height
  let idx := ((x + offX) * 2 + 1) * disX + ((y + offY) * 2 + 1) * disY
  let idx := if flip then 32 + idx else 32 - idx
  max 0 (min ((idx + 4) / 8) 8)

def mask (p : Partition) (width height : Nat) : Except PredError (Array Int) :=
  match sizeIndex? width, sizeIndex? height with
  | some _, some _ =>
    .ok ((List.range height).flatMap (fun (y : Nat) => (List.range width).map fun (x : Nat) =>
      maskWeight p width height x y)).toArray
  | _, _ => .error (.unsupportedGeoSize width height)

def buildMask (p : Partition) (width height : Nat) : Array Int :=
  ((List.range height).flatMap (fun (y : Nat) => (List.range width).map fun (x : Nat) =>
    maskWeight p width height x y)).toArray

/-- Where the mask of `p` for luma sides of size indices `wi` and `hi` is kept among the masks
built so far: one slot per angle, distance and pair of sides. -/
def maskSlot (p : Partition) (wi hi : Nat) : Nat := ((p.angle * 4 + p.distance) * 4 + wi) * 4 + hi

/-- The masks built so far, by slot. -/
structure MaskCache where
  slots : Array (Option (Array Int))

def MaskCache.empty : MaskCache := ⟨Array.replicate 2048 none⟩

/-- The mask of a `width × height` block, from the cache or built and stored; with the cache
the call leaves. -/
def geoMask (cache : MaskCache) (p : Partition) (width height : Nat) :
    Except PredError (Array Int) × MaskCache :=
  match sizeIndex? width, sizeIndex? height with
  | some wi, some hi =>
    let slot := maskSlot p wi hi
    match cache.slots.getD slot none with
    | some m => (.ok m, cache)
    | none =>
      let m := buildMask p width height
      (.ok m, ⟨cache.slots.setIfInBounds slot (some m)⟩)
  | _, _ => (.error (.unsupportedGeoSize width height), cache)

end InterPred.Geo
