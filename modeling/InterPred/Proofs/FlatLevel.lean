import Mathlib
import InterPred.Proofs.Headroom

/-!
# A flat reference keeps its level

Every selectable tap set sums to its family's unit gain, so a pass over a flat reference writes
what a copy of that level writes (`flatLevel`).
-/

namespace InterPred

def Window.ConstantOn (src : Window) (r : ReadRegion) (dc : Int) : Prop :=
  ∀ x < r.width, ∀ y < r.height, src.data[r.start + y * r.stride + x]? = some dc

instance (src : Window) (r : ReadRegion) (dc : Int) : Decidable (src.ConstantOn r dc) :=
  inferInstanceAs (Decidable (∀ x < r.width, ∀ y < r.height, _))

theorem Window.ConstantOn.sample {src : Window} {start W H : Nat} {dc : Int}
    (h : src.ConstantOn ⟨start, src.stride, W, H⟩ dc) {x y : Nat} (hx : x < W) (hy : y < H) :
    src.sample start x y = dc := by
  have hs : src.data[start + y * src.stride + x]? = some dc := h x hx y hy
  rw [Window.sample, Array.getD_eq_getD_getElem?, hs, Option.getD_some]

namespace Taps

theorem total_eq_gain_sub_loss (cs : List Int) : cs.foldl (· + ·) 0 = gain cs - loss cs := by
  induction cs with
  | nil => simp [gain, loss]
  | cons c cs ih =>
    rw [List.foldl_cons, foldl_add_eq, ih]
    simp only [gain, loss]
    omega

theorem weigh_const (dc : Int) (cs : List Int) :
    weigh (fun _ => dc) cs = dc * cs.foldl (· + ·) 0 := by
  simpa using weigh_affine (fun _ => 0) 0 dc cs

end Taps

namespace Interp

open Taps

/-- What a pass of unit gain makes of a flat reference at `dc`: `dc` itself as output samples,
and as intermediates what a first copy makes of it. -/
def flatLevel (refine last : Bool) (clip : ClipRange) (dc : Int) : Int :=
  if last then dc else copyIntermediate refine clip dc

theorem weigh_select_const {v : FilterVariant} {c : Component} {frac : Nat} {taps : List Int}
    (h : select v c frac = .ok taps) (dc : Int) :
    weigh (fun _ => dc) (coeffs (v.family c.isLuma) taps) =
      unitGain (v.family c.isLuma) * dc := by
  rw [weigh_const]
  by_cases hF : v.family c.isLuma = .twoRefine
  · -- At four bits the refinement taps have gain 16 and no loss.
    obtain ⟨hgain, hloss⟩ := select_refine_weight h hF
    simp only [hF, coeffs, unitGain, total_eq_gain_sub_loss, hgain, hloss]
    ring
  · rw [coeffs_of_ne hF, unitGain_of_ne hF, (select_admissible h).total_eq, mul_comm]

section Flat

variable {clip : ClipRange} {dc : Int}

theorem copyValue_first_flat (hdc : clip.min ≤ dc ∧ dc ≤ clip.max) (last refine : Bool) :
    copyValue true last refine clip dc = flatLevel refine last clip dc := by
  cases last
  · obtain ⟨h0, h1⟩ := native_of_mem hdc
    rw [copyValue_eq_toStored]
    exact (copyIntermediate_range refine h0 h1).toStored_eq
  · simp [copyValue, copySample, flatLevel]

theorem finish_first_flat {family : TapFamily} {last : Bool}
    (hlast : family = .twoRefine → last = false) (hdc : clip.min ≤ dc ∧ dc ≤ clip.max) :
    finish family true last clip (unitGain family * dc) =
      flatLevel (family == .twoRefine) last clip dc := by
  -- The pass over the unit impulse is the copy.
  have hcopy := copyValue_eq_passValue hlast (show Readable clip true dc by simpa [Readable])
  rw [passValue_impulse] at hcopy
  rw [← hcopy, copyValue_first_flat hdc]

theorem passValue_flat {v : FilterVariant} {c : Component} {frac : Nat} {taps : List Int}
    (h : select v c frac = .ok taps) (first last : Bool) :
    passValue (v.family c.isLuma) first last clip taps (fun _ => dc) =
      finish (v.family c.isLuma) first last clip (unitGain (v.family c.isLuma) * dc) := by
  rw [passValue, weigh_select_const h]

theorem separableValue_flat {v : FilterVariant} {c : Component} {fracX fracY : Nat}
    {tapsX tapsY : List Int} (hX : select v c fracX = .ok tapsX)
    (hY : select v c fracY = .ok tapsY) {last : Bool}
    (hlast : v.family c.isLuma = .twoRefine → last = false)
    (hdc : clip.min ≤ dc ∧ dc ≤ clip.max) (x y : Nat) :
    separableValue (v.family c.isLuma) clip tapsX tapsY last (fun _ _ => dc) x y =
      flatLevel (v.family c.isLuma == .twoRefine) last clip dc := by
  obtain ⟨h0, h1⟩ := native_of_mem hdc
  -- For output samples the first-pass intermediate must be one a filtering can produce.
  have hS : last = true → -(24 * ((pow2 clip.bitDepth : Int) - 1)) ≤
      unitGain (v.family c.isLuma) * dc ∧
      unitGain (v.family c.isLuma) * dc ≤ 88 * ((pow2 clip.bitDepth : Int) - 1) := by
    intro hl
    have hF : v.family c.isLuma ≠ .twoRefine := fun hF => by simp [hlast hF] at hl
    rw [unitGain_of_ne hF]
    constructor <;> omega
  simp only [separableValue]
  rw [passValue_flat hX, passValue_flat hY, finish_impulse_after_first hlast hS,
    finish_first_flat hlast hdc]

end Flat

/-! ## Calls over a flat reference -/

section Calls

variable {clip : ClipRange} {src : Window} {dst : Plane} {dc : Int}

theorem pass_flat {dir : Direction} {family : TapFamily} {last : Bool} {taps : List Int}
    {r : Plane × List ReadRegion} (h : pass dir family true last clip src dst taps = .ok r)
    (hflat : ∀ reg ∈ r.2, src.ConstantOn reg dc) :
    r.1 = dst.fill fun _ _ => passValue family true last clip taps fun _ => dc := by
  cases dir
  · obtain ⟨-, start, -, rfl⟩ := pass_horizontal_eq_ok_iff.mp h
    have hreg := hflat _ (List.mem_singleton_self _)
    refine Plane.fill_congr _ fun x hx y hy => passValue_congr (length_coeffs _ _) fun i hi => ?_
    exact hreg.sample (by omega) hy
  · obtain ⟨-, start, -, rfl⟩ := pass_vertical_eq_ok_iff.mp h
    have hreg := hflat _ (List.mem_singleton_self _)
    refine Plane.fill_congr _ fun x hx y hy => passValue_congr (length_coeffs _ _) fun k hk => ?_
    exact hreg.sample hx (by omega)

theorem copy_flat {last refine : Bool} {r : Plane × List ReadRegion}
    (h : copy clip src dst true last refine = .ok r)
    (hflat : ∀ reg ∈ r.2, src.ConstantOn reg dc) :
    r.1 = dst.fill fun _ _ => copyValue true last refine clip dc := by
  obtain ⟨start, -, rfl⟩ := copy_eq_ok_iff.mp h
  have hreg := hflat _ (List.mem_singleton_self _)
  refine Plane.fill_congr _ fun x hx y hy => ?_
  rw [hreg.sample hx hy]

theorem separable_flat {family : TapFamily} {tapsX tapsY : List Int} {last : Bool}
    {tmp : Array Int} {o : Outcome} (h : separable family clip src dst tapsX tapsY last tmp = .ok o)
    (hX : tapsX.length = tapsY.length) (hN : 2 ≤ tapsY.length)
    (hflat : ∀ reg ∈ o.reads, src.ConstantOn reg dc) :
    o.dst = dst.fill (separableValue family clip tapsX tapsY last fun _ _ => dc) := by
  obtain ⟨start, hreads, hdst⟩ := separable_eq_ok_fill h hX hN
  have hreg := hflat _ (hreads ▸ List.mem_singleton_self _)
  rw [hdst]
  refine Plane.fill_congr _ fun x hx y hy => ?_
  unfold separableValue
  refine passValue_congr (length_coeffs _ _) fun k hk =>
    passValue_congr (length_coeffs _ _) fun i hi => ?_
  exact hreg.sample (by omega) (by omega)

variable {c : Component} {v : FilterVariant}

theorem filterAxis_first_flat {dir : Direction} {frac : Nat} {last : Bool}
    {p : Plane × List ReadRegion} (h : filterAxis dir c v clip src dst frac true last = .ok p)
    (hflat : ∀ reg ∈ p.2, src.ConstantOn reg dc) (hdc : clip.min ≤ dc ∧ dc ≤ clip.max) :
    p.1 = dst.fill fun _ _ => flatLevel (v.family c.isLuma == .twoRefine) last clip dc := by
  unfold filterAxis at h
  obtain ⟨_, hcheck, h⟩ := bind_eq_ok.mp h
  obtain ⟨taps, hsel, h⟩ := bind_eq_ok.mp h
  rw [liftM_reject_eq_ok] at hsel
  by_cases hid : isIdentity taps = true
  · simp only [hid, if_true] at h
    rw [copy_flat h hflat, copyValue_first_flat hdc]
  · simp only [hid, if_false, Bool.false_eq_true] at h
    rw [pass_flat h hflat, passValue_flat hsel,
      finish_first_flat (last_eq_false_of_checkLast hcheck) hdc]

theorem filter2d_flat {fracX fracY : Nat} {last : Bool} {tmp : Array Int} {o : Outcome}
    (h : filter2d c v clip src dst fracX fracY last tmp = .ok o)
    (hflat : ∀ reg ∈ o.reads, src.ConstantOn reg dc) (hdc : clip.min ≤ dc ∧ dc ≤ clip.max) :
    o.dst = dst.fill fun _ _ => flatLevel (v.family c.isLuma == .twoRefine) last clip dc := by
  unfold filter2d at h
  obtain ⟨_, hcheck, h⟩ := bind_eq_ok.mp h
  have hlast := last_eq_false_of_checkLast hcheck
  obtain ⟨tapsX, hX, h⟩ := bind_eq_ok.mp h
  obtain ⟨tapsY, hY, h⟩ := bind_eq_ok.mp h
  rw [liftM_reject_eq_ok] at hX hY
  cases hidX : isIdentity tapsX <;> cases hidY : isIdentity tapsY <;>
    simp only [hidX, hidY] at h
  · -- The general path.
    have hlenX := (select_admissible hX).length_eq
    have hlenY := (select_admissible hY).length_eq
    rw [separable_flat h (by omega) (hlenY ▸ two_le_taps _) hflat]
    exact congrArg dst.fill
      (funext fun x => funext fun y => separableValue_flat hX hY hlast hdc x y)
  all_goals
    obtain ⟨r, hr, h⟩ := bind_eq_ok.mp h
    cases h
  · -- Horizontal only.
    rw [pass_flat hr hflat, passValue_flat hX, finish_first_flat hlast hdc]
  · -- Vertical only.
    rw [pass_flat hr hflat, passValue_flat hY, finish_first_flat hlast hdc]
  · -- Both positions integer: the copy.
    rw [copy_flat hr hflat, copyValue_first_flat hdc]

end Calls

/-! ## Unit gain -/

/-- Over a reference that holds one sample of the range everywhere it reads, every
interpolation that succeeds writes that sample's level at every block sample. -/
theorem flat_reference_keeps_its_level (clip : ClipRange) (dc : Int) (h0 : clip.min ≤ dc)
    (h1 : dc ≤ clip.max) :
    (∀ (c : Component) (v : FilterVariant) (src : Window) (dst : Plane) (fracX fracY : Nat)
        (last : Bool) (tmp : Array Int) (o : Outcome),
        filter2d c v clip src dst fracX fracY last tmp = .ok o →
        (∀ r ∈ o.reads, src.ConstantOn r dc) →
        o.dst = dst.fill fun _ _ => flatLevel (v.family c.isLuma == .twoRefine) last clip dc) ∧
    (∀ (c : Component) (v : FilterVariant) (src : Window) (dst : Plane) (frac : Nat)
        (last : Bool) (p : Plane × List ReadRegion),
        filterHor c v clip src dst frac last = .ok p → (∀ r ∈ p.2, src.ConstantOn r dc) →
        p.1 = dst.fill fun _ _ => flatLevel (v.family c.isLuma == .twoRefine) last clip dc) ∧
    (∀ (c : Component) (v : FilterVariant) (src : Window) (dst : Plane) (frac : Nat)
        (last : Bool) (p : Plane × List ReadRegion),
        filterVer c v clip src dst frac true last = .ok p → (∀ r ∈ p.2, src.ConstantOn r dc) →
        p.1 = dst.fill fun _ _ => flatLevel (v.family c.isLuma == .twoRefine) last clip dc) ∧
    ∀ (src : Window) (dst : Plane) (fracX fracY : Nat) (tmp : Array Int) (o : Outcome),
      filterRefine clip src dst fracX fracY tmp = .ok o → (∀ r ∈ o.reads, src.ConstantOn r dc) →
      o.dst = dst.fill fun _ _ => refineRaise clip.bitDepth dc :=
  ⟨fun _ _ _ _ _ _ _ _ _ h hflat => filter2d_flat h hflat ⟨h0, h1⟩,
    fun _ _ _ _ _ _ _ h hflat => filterAxis_first_flat h hflat ⟨h0, h1⟩,
    fun _ _ _ _ _ _ _ h hflat => filterAxis_first_flat h hflat ⟨h0, h1⟩,
    fun _ _ _ _ _ _ h hflat => filter2d_flat h hflat ⟨h0, h1⟩⟩

theorem flat_reference_keeps_its_level_on_chroma :
    ClipRange.eightBit.min ≤ 100 ∧ 100 ≤ ClipRange.eightBit.max ∧
      ∃ o, filter2d .cb .standard ClipRange.eightBit ⟨Array.replicate 16 100, 4, 5⟩
          ⟨#[0], 1, 1, 1⟩ 3 5 false (Array.replicate 4 0) = .ok o ∧
        (∀ r ∈ o.reads, (⟨Array.replicate 16 100, 4, 5⟩ : Window).ConstantOn r 100) ∧
        o.dst = (⟨#[0], 1, 1, 1⟩ : Plane).fill fun _ _ =>
          flatLevel false false ClipRange.eightBit 100 := by
  have hmin : ClipRange.eightBit.min ≤ 100 := by decide
  have hmax : (100 : Int) ≤ ClipRange.eightBit.max := by decide
  refine ⟨hmin, hmax, _, rfl, by decide, ?_⟩
  exact (flat_reference_keeps_its_level ClipRange.eightBit 100 hmin hmax).1 .cb .standard
    ⟨Array.replicate 16 100, 4, 5⟩ ⟨#[0], 1, 1, 1⟩ 3 5 false (Array.replicate 4 0) _ rfl (by decide)

end Interp

end InterPred
