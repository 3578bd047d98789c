/-!
# Machine words that stop on overflow

32-bit signed sample words and 64-bit unsigned sizes; every operation checks its result.
-/

namespace InterPred

inductive Overflow where
  | add
  | sub
  | mul
  | neg
  | shl
  | shr
  deriving DecidableEq, Repr

namespace Overflow

def message : Overflow → String
  | add => "attempt to add with overflow"
  | sub => "attempt to subtract with overflow"
  | mul => "attempt to multiply with overflow"
  | neg => "attempt to negate with overflow"
  | shl => "attempt to shift left with overflow"
  | shr => "attempt to shift right with overflow"

end Overflow

def pow2 (n : Nat) : Nat := Nat.pow 2 n

structure Word where
  bits : Nat
  signed : Bool
  deriving DecidableEq, Repr

namespace Word

def int32 : Word := ⟨32, true⟩

def int16 : Word := ⟨16, true⟩

def least (w : Word) : Int := if w.signed then -(pow2 (w.bits - 1) : Int) else 0

def greatest (w : Word) : Int :=
  if w.signed then (pow2 (w.bits - 1) : Int) - 1 else (pow2 w.bits : Int) - 1

def Holds (w : Word) (x : Int) : Prop := w.least ≤ x ∧ x ≤ w.greatest

instance (w : Word) (x : Int) : Decidable (w.Holds x) :=
  inferInstanceAs (Decidable (_ ∧ _))

/-- `x` itself when the word holds it, else the overflow `o`. -/
def check (w : Word) (o : Overflow) (x : Int) : Except Overflow Int :=
  if w.Holds x then .ok x else .error o

def add (w : Word) (a b : Int) : Except Overflow Int := w.check .add (a + b)

def sub (w : Word) (a b : Int) : Except Overflow Int := w.check .sub (a - b)

def mul (w : Word) (a b : Int) : Except Overflow Int := w.check .mul (a * b)

def neg (w : Word) (a : Int) : Except Overflow Int := w.check .neg (-a)

/-- The value of the word that has the same low `bits` bits as `x`. -/
def wrap (w : Word) (x : Int) : Int :=
  if w.signed then Int.bmod x (pow2 w.bits) else x % (pow2 w.bits : Int)

def ShiftOk (w : Word) (s : Int) : Prop := 0 ≤ s ∧ s < w.bits

instance (w : Word) (s : Int) : Decidable (w.ShiftOk s) :=
  inferInstanceAs (Decidable (_ ∧ _))

/-- Left shift: the amount must be in range, and the bits shifted out are lost. -/
def shl (w : Word) (a s : Int) : Except Overflow Int :=
  if w.ShiftOk s then .ok (w.wrap (a * (pow2 s.toNat : Int))) else .error .shl

/-- Arithmetic right shift, rounding toward negative infinity; the amount must be in range. -/
def shr (w : Word) (a s : Int) : Except Overflow Int :=
  if w.ShiftOk s then .ok (a / (pow2 s.toNat : Int)) else .error .shr

theorem check_ok_iff {w : Word} {o : Overflow} {x y : Int} :
    w.check o x = .ok y ↔ w.Holds x ∧ x = y := by
  unfold check
  by_cases h : w.Holds x <;> simp [h]

theorem add_ok_iff {w : Word} {a b y : Int} : w.add a b = .ok y ↔ w.Holds (a + b) ∧ a + b = y :=
  check_ok_iff

theorem sub_ok_iff {w : Word} {a b y : Int} : w.sub a b = .ok y ↔ w.Holds (a - b) ∧ a - b = y :=
  check_ok_iff

theorem mul_ok_iff {w : Word} {a b y : Int} : w.mul a b = .ok y ↔ w.Holds (a * b) ∧ a * b = y :=
  check_ok_iff

theorem wrap_int16_of_holds {x : Int} (h : int16.Holds x) : int16.wrap x = x := by
  have h15 : (pow2 15 : Int) = 32768 := rfl
  have h16 : pow2 16 = 65536 := rfl
  simp only [Holds, least, greatest, int16, if_true, Nat.reduceSub, h15] at h
  simp only [wrap, int16, if_true, h16]
  exact Int.bmod_eq_of_le (by omega) (by omega)

end Word

/-! ## Sizes: natural numbers below `2 ^ 64` -/

namespace Size

def bound : Nat := pow2 64

def add (a b : Nat) : Except Overflow Nat := if a + b < bound then .ok (a + b) else .error .add

def sub (a b : Nat) : Except Overflow Nat := if b ≤ a then .ok (a - b) else .error .sub

def mul (a b : Nat) : Except Overflow Nat := if a * b < bound then .ok (a * b) else .error .mul

/-- Addition that stops at the greatest size instead of failing. -/
def addSaturating (a b : Nat) : Nat := min (a + b) (bound - 1)

theorem add_ok_iff {a b c : Nat} : add a b = .ok c ↔ a + b < bound ∧ a + b = c := by
  unfold add
  by_cases h : a + b < bound <;> simp [h]

theorem mul_ok_iff {a b c : Nat} : mul a b = .ok c ↔ a * b < bound ∧ a * b = c := by
  unfold mul
  by_cases h : a * b < bound <;> simp [h]

end Size

end InterPred
