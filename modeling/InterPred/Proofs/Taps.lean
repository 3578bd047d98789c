import Mathlib
import InterPred.Interp

/-!
# Tap sets as weights

Every tap set of the tables is `Admissible`: of its family's length, summing to 64, with small
positive and negative parts.
-/

namespace InterPred.Taps

/-- `taps[0] * f 0 + taps[1] * f 1 + ⋯`. -/
def weigh (f : Nat → Int) : List Int → Int
  | [] => 0
  | c :: cs => c * f 0 + weigh (fun k => f (k + 1)) cs

def gain : List Int → Int
  | [] => 0
  | c :: cs => max c 0 + gain cs

def loss : List Int → Int
  | [] => 0
  | c :: cs => max (-c) 0 + loss cs

/-! ## Weighted sums -/

theorem weigh_congr {f g : Nat → Int} (cs : List Int) (h : ∀ k < cs.length, f k = g k) :
    weigh f cs = weigh g cs := by
  induction cs generalizing f g with
  | nil => rfl
  | cons c cs ih =>
    simp only [weigh, List.length_cons] at h ⊢
    rw [h 0 (by omega), ih fun k hk => h (k + 1) (by omega)]

theorem foldl_add_eq (cs : List Int) (a : Int) : cs.foldl (· + ·) a = a + cs.foldl (· + ·) 0 := by
  induction cs generalizing a with
  | nil => simp
  | cons c cs ih =>
    rw [List.foldl_cons, List.foldl_cons, ih (a + c), ih (0 + c)]
    omega

theorem weigh_affine (f : Nat → Int) (a b : Int) (cs : List Int) :
    weigh (fun k => a * f k + b) cs = a * weigh f cs + b * cs.foldl (· + ·) 0 := by
  induction cs generalizing f with
  | nil => simp [weigh]
  | cons c cs ih =>
    simp only [weigh, List.foldl_cons]
    rw [ih (fun k => f (k + 1)), foldl_add_eq cs (0 + c)]
    ring

theorem weigh_mul (f : Nat → Int) (a : Int) (cs : List Int) :
    weigh (fun k => a * f k) cs = a * weigh f cs := by
  simpa using weigh_affine f a 0 cs

theorem weigh_mem {f : Nat → Int} {lo hi : Int} (cs : List Int)
    (h : ∀ k < cs.length, lo ≤ f k ∧ f k ≤ hi) :
    gain cs * lo - loss cs * hi ≤ weigh f cs ∧ weigh f cs ≤ gain cs * hi - loss cs * lo := by
  induction cs generalizing f with
  | nil => simp [weigh, gain, loss]
  | cons c cs ih =>
    simp only [List.length_cons] at h
    obtain ⟨h0lo, h0hi⟩ := h 0 (by omega)
    obtain ⟨ihlo, ihhi⟩ := ih fun k hk => h (k + 1) (by omega)
    simp only [weigh, gain, loss]
    -- One tap: its sign decides which end of the range bounds its product.
    rcases le_total 0 c with hc | hc
    · have h1 : c * lo ≤ c * f 0 := mul_le_mul_of_nonneg_left h0lo hc
      have h2 : c * f 0 ≤ c * hi := mul_le_mul_of_nonneg_left h0hi hc
      rw [max_eq_left hc, max_eq_right (by omega)]
      constructor <;> nlinarith
    · have h1 : c * hi ≤ c * f 0 := mul_le_mul_of_nonpos_left h0hi hc
      have h2 : c * f 0 ≤ c * lo := mul_le_mul_of_nonpos_left h0lo hc
      rw [max_eq_right hc, max_eq_left (by omega)]
      constructor <;> nlinarith

theorem tapSum_eq_weigh (src : Array Int) (pos step : Nat) (cs : List Int) :
    Interp.tapSum src pos step cs = weigh (fun k => src.getD (pos + k * step) 0) cs := by
  induction cs generalizing pos with
  | nil => rfl
  | cons c cs ih =>
    simp only [Interp.tapSum, weigh, ih]
    congr 2
    · simp
    · funext k
      congr 1
      rw [Nat.add_mul, Nat.one_mul]
      omega

/-! ## The unit impulse -/

theorem isIdentity_iff {taps : List Int} : isIdentity taps = true ↔ taps = impulse taps.length := by
  simp [isIdentity]

theorem weigh_impulse (f : Nat → Int) (family : TapFamily) :
    weigh f (impulse family.taps) = 64 * f (family.taps / 2 - 1) := by
  cases family <;> simp [impulse, weigh, TapFamily.taps, List.range_succ]

theorem weigh_refineCoeffs_impulse (f : Nat → Int) :
    weigh f (Interp.refineCoeffs (impulse 2)) = 16 * f 0 := by
  simp [impulse, weigh, Interp.refineCoeffs, List.range_succ]

/-! ## The tables -/

/-- What every tap set of the tables satisfies, for a family of `n` taps. -/
structure Admissible (n : Nat) (taps : List Int) : Prop where
  length_eq : taps.length = n
  total_eq : taps.foldl (· + ·) 0 = 64
  gain_le : gain taps ≤ 88
  loss_le : loss taps ≤ 24

instance (n : Nat) (taps : List Int) : Decidable (Admissible n taps) :=
  decidable_of_iff (taps.length = n ∧ taps.foldl (· + ·) 0 = 64 ∧ gain taps ≤ 88 ∧ loss taps ≤ 24)
    ⟨fun ⟨a, b, c, d⟩ => ⟨a, b, c, d⟩, fun ⟨a, b, c, d⟩ => ⟨a, b, c, d⟩⟩

def TableOk (n positions : Nat) (t : List (List Int)) : Prop :=
  t.length = positions ∧ ∀ taps ∈ t, Admissible n taps

instance (n positions : Nat) (t : List (List Int)) : Decidable (TableOk n positions t) :=
  inferInstanceAs (Decidable (_ ∧ _))

theorem TableOk.admissible {n positions : Nat} {t : List (List Int)} (ht : TableOk n positions t)
    {frac : Nat} (hf : frac < positions) : Admissible n (row t frac) := by
  have hlt : frac < t.length := ht.1 ▸ hf
  rw [Taps.row, List.getD_eq_getElem?_getD, List.getElem?_eq_getElem hlt, Option.getD_some]
  exact ht.2 _ (List.getElem_mem hlt)

theorem luma_ok : TableOk 8 16 luma := by decide
theorem lumaAffine_ok : TableOk 6 16 lumaAffine := by decide
theorem chroma_ok : TableOk 4 32 chroma := by decide
theorem lumaResampleHalf_ok : TableOk 8 16 lumaResampleHalf := by decide
theorem lumaResampleDouble_ok : TableOk 8 16 lumaResampleDouble := by decide
theorem chromaResampleHalf_ok : TableOk 4 32 chromaResampleHalf := by decide
theorem chromaResampleDouble_ok : TableOk 4 32 chromaResampleDouble := by decide
theorem lumaAffineResampleHalf_ok : TableOk 6 16 lumaAffineResampleHalf := by decide
theorem lumaAffineResampleDouble_ok : TableOk 6 16 lumaAffineResampleDouble := by decide
theorem bilinear_ok : TableOk 2 16 bilinear := by decide
theorem lumaHalfPelAlternate_ok : Admissible 8 lumaHalfPelAlternate := by decide

theorem lt_fracPositions_of_select {v : FilterVariant} {c : Component} {frac : Nat}
    {taps : List Int} (h : select v c frac = .ok taps) : frac < c.fracPositions := by
  by_contra hc
  simp [select, Nat.le_of_not_lt hc] at h

theorem select_admissible {v : FilterVariant} {c : Component} {frac : Nat} {taps : List Int}
    (h : select v c frac = .ok taps) : Admissible (v.family c.isLuma).taps taps := by
  have hf := lt_fracPositions_of_select h
  simp only [select, Nat.not_le.mpr hf, if_false] at h
  cases c with
  | y =>
    simp only [Component.isLuma, Component.fracPositions, if_true] at h hf
    cases v <;> simp only [Except.ok.injEq] at h <;> subst h
    case standard => exact luma_ok.admissible hf
    case refine => exact bilinear_ok.admissible hf
    case affine => exact lumaAffine_ok.admissible hf
    case resampleHalf => exact lumaResampleHalf_ok.admissible hf
    case resampleDouble => exact lumaResampleDouble_ok.admissible hf
    case affineResampleHalf => exact lumaAffineResampleHalf_ok.admissible hf
    case affineResampleDouble => exact lumaAffineResampleDouble_ok.admissible hf
    case halfPelAlternate =>
      -- The alternative half-sample set replaces one row of the luma table.
      split
      · exact lumaHalfPelAlternate_ok
      · exact luma_ok.admissible hf
  | cb | cr =>
    simp only [Component.isLuma, Component.fracPositions, Bool.false_eq_true, if_false] at h hf
    cases v <;> simp only [Except.ok.injEq, reduceCtorEq] at h <;> subst h
    case standard | affine | halfPelAlternate => exact chroma_ok.admissible hf
    case resampleHalf | affineResampleHalf => exact chromaResampleHalf_ok.admissible hf
    case resampleDouble | affineResampleDouble => exact chromaResampleDouble_ok.admissible hf

end InterPred.Taps
