import InterPred.Word

/-!
# Shifts that round

Signed-amount shifts on checked 32-bit words.
-/

namespace InterPred.Shift

open Word

/-- `value` shifted left by `shift` when `shift ≥ 0`; otherwise shifted right by `-shift`,
rounding half up. -/
def leftRound (value shift : Int) : Except Overflow Int :=
  if 0 ≤ shift then int32.shl value shift
  else do
    let amount ← int32.neg shift
    let below ← int32.sub amount 1
    let half ← int32.shl 1 below
    let sum ← int32.add value half
    let amount ← int32.neg shift
    int32.shr sum amount

/-- `value` shifted right by `shift` with rounding half up when `shift > 0`; otherwise
shifted left by `-shift` with no rounding. -/
def rightRound (value shift : Int) : Except Overflow Int :=
  if 0 < shift then do
    let below ← int32.sub shift 1
    let half ← int32.shl 1 below
    let sum ← int32.add value half
    int32.shr sum shift
  else do
    let amount ← int32.neg shift
    int32.shl value amount

end InterPred.Shift
