import Mathlib
import InterPred.Proofs.Precision

/-!
# Which output samples lie in the output range
-/

namespace InterPred

def ClipRange.Contains (r : ClipRange) (v : Int) : Prop := r.min ≤ v ∧ v ≤ r.max

theorem ClipRange.contains_clip (r : ClipRange) (v : Int) : r.Contains (r.clip v) := r.clip_mem v

theorem ClipRange.contains_min (r : ClipRange) : r.Contains r.min := ⟨le_rfl, r.min_le_max⟩

def Plane.FilledIn (p : Plane) (r : ClipRange) (q : Plane) : Prop :=
  ∃ g, q = p.fill g ∧ ∀ x y, r.Contains (g x y)

/-! ## Computations that succeed -/

section Runs

variable {ε α β : Type}

/-- Every value the computation can succeed with satisfies `P`. -/
def Ensures (P : α → Prop) (e : Except ε α) : Prop := ∀ a, e = .ok a → P a

theorem ensures_bind {P : β → Prop} {e : Except ε α} {f : α → Except ε β}
    (h : ∀ a, e = .ok a → Ensures P (f a)) : Ensures P (e >>= f) := by
  intro b hb
  obtain ⟨a, ha, hb⟩ := bind_eq_ok.mp hb
  exact h a ha b hb

theorem ensures_pure {P : α → Prop} {a : α} (h : P a) : Ensures P (pure a : Except ε α) := by
  intro b hb
  cases hb
  exact h

theorem ensures_reject {P : α → Prop} (e : PredError) : Ensures P (reject e : Except Fault α) := by
  intro a h
  cases h

theorem ensures_reject_bind {P : β → Prop} (e : PredError) (f : α → Except Fault β) :
    Ensures P (reject e >>= f) := by
  rw [reject_bind]
  exact ensures_reject e

theorem foldlM_ensures {f : β → α → Except ε β} {I : β → Prop}
    (hstep : ∀ b a, I b → Ensures I (f b a)) (l : List α) {b : β} (hb : I b) :
    Ensures I (l.foldlM f b) := by
  induction l generalizing b with
  | nil =>
    intro b' h
    cases h
    exact hb
  | cons a l ih =>
    rw [List.foldlM_cons]
    exact ensures_bind fun c hc => ih (hstep b a hb c hc)

theorem foldlM_eq_foldl {f : β → α → Except ε β} {g : β → α → β}
    (hfg : ∀ b a c, f b a = .ok c → c = g b a) :
    ∀ (l : List α) (b b' : β), l.foldlM f b = .ok b' → b' = l.foldl g b := by
  intro l
  induction l with
  | nil =>
    intro b b' h
    cases h
    rfl
  | cons a l ih =>
    intro b b' h
    rw [List.foldlM_cons] at h
    obtain ⟨c, hc, h⟩ := bind_eq_ok.mp h
    rw [List.foldl_cons, ← hfg b a c hc]
    exact ih c b' h

end Runs

theorem Plane.fillM_eq_ok {p q : Plane} {f : Nat → Nat → Except Overflow Int} (d : Int)
    (h : p.fillM f = .ok q) :
    q = p.fill fun x y => match f x y with
      | .ok v => v
      | .error _ => d := by
  unfold Plane.fillM at h
  obtain ⟨data, hdata, hq⟩ := bind_eq_ok.mp h
  cases hq
  unfold Plane.fill
  congr 1
  refine foldlM_eq_foldl (fun e y c hc => ?_) _ _ _ hdata
  refine foldlM_eq_foldl (fun e x c hc => ?_) _ _ _ hc
  cases hv : f x y <;> simp only [hv, bind, Except.bind, pure, Except.pure, reduceCtorEq,
    Except.ok.injEq] at hc ⊢
  exact hc.symm

theorem Plane.fillM_ensures {p : Plane} {f : Nat → Nat → Except Overflow Int} {P : Int → Prop}
    {d : Int} (hd : P d) (hf : ∀ x y, Ensures P (f x y)) :
    Ensures (fun q => ∃ g, q = p.fill g ∧ ∀ x y, P (g x y)) (p.fillM f) := by
  intro q h
  refine ⟨_, Plane.fillM_eq_ok d h, fun x y => ?_⟩
  cases hv : f x y with
  | error e => exact hd
  | ok v => exact hf x y v hv

namespace Interp

open Taps

/-! ## Interpolation -/

theorem passValue_last_mem {family : TapFamily} (hF : family ≠ .twoRefine) (first : Bool)
    (clip : ClipRange) (taps : List Int) (f : Nat → Int) :
    clip.Contains (passValue family first true clip taps f) := by
  rw [passValue, finish_of_ne hF]
  exact clip.contains_clip _

theorem copyValue_mid_last_mem (refine : Bool) (clip : ClipRange) (s : Int) :
    clip.Contains (copyValue false true refine clip s) := by
  simp only [copyValue, Bool.and_false, Bool.false_and, Bool.false_eq_true, if_false, copySample]
  exact clip.contains_clip _

theorem copyValue_first_last_self (refine : Bool) (clip : ClipRange) (s : Int) :
    copyValue true true refine clip s = s := by
  simp [copyValue, copySample]

theorem pass_last_mem {dir : Direction} {family : TapFamily} (hF : family ≠ .twoRefine)
    {first : Bool} {clip : ClipRange} {src : Window} {dst : Plane} {taps : List Int}
    {r : Plane × List ReadRegion} (h : pass dir family first true clip src dst taps = .ok r) :
    dst.FilledIn clip r.1 := by
  cases dir
  · obtain ⟨-, start, -, rfl⟩ := pass_horizontal_eq_ok_iff.mp h
    exact ⟨_, rfl, fun x y => passValue_last_mem hF _ _ _ _⟩
  · obtain ⟨-, start, -, rfl⟩ := pass_vertical_eq_ok_iff.mp h
    exact ⟨_, rfl, fun x y => passValue_last_mem hF _ _ _ _⟩

theorem family_ne_of_checkLast {v : FilterVariant} {c : Component}
    (h : checkLast v c true = .ok ()) : v.family c.isLuma ≠ .twoRefine := fun hF =>
  absurd (last_eq_false_of_checkLast h hF) (by decide)

theorem filterAxis_last_mem {dir : Direction} {c : Component} {v : FilterVariant}
    {clip : ClipRange} {src : Window} {dst : Plane} {frac : Nat} {first : Bool}
    {p : Plane × List ReadRegion} (h : filterAxis dir c v clip src dst frac first true = .ok p) :
    dst.FilledIn clip p.1 ∨
      (first = true ∧ ∃ taps start, select v c frac = .ok taps ∧ isIdentity taps = true ∧
        p.1 = dst.fill (src.sample start)) := by
  unfold filterAxis at h
  obtain ⟨_, hcheck, h⟩ := bind_eq_ok.mp h
  obtain ⟨taps, hsel, h⟩ := bind_eq_ok.mp h
  rw [liftM_reject_eq_ok] at hsel
  by_cases hid : isIdentity taps = true
  · -- The copy: clipped from intermediates, verbatim from the reference.
    simp only [hid, if_true] at h
    obtain ⟨start, -, rfl⟩ := copy_eq_ok_iff.mp h
    cases first
    · exact .inl ⟨_, rfl, fun x y => copyValue_mid_last_mem _ _ _⟩
    · refine .inr ⟨rfl, taps, start, hsel, hid, ?_⟩
      simp only [copyValue_first_last_self]
  · simp only [hid, if_false, Bool.false_eq_true] at h
    exact .inl (pass_last_mem (family_ne_of_checkLast hcheck) h)

theorem separable_last_mem {family : TapFamily} (hF : family ≠ .twoRefine) {clip : ClipRange}
    {src : Window} {dst : Plane} {tapsX tapsY : List Int} {tmp : Array Int} {o : Outcome}
    (h : separable family clip src dst tapsX tapsY true tmp = .ok o) :
    dst.FilledIn clip o.dst := by
  rw [separable_eq] at h
  obtain ⟨⟨mid, reads, window, needed⟩, -, h⟩ := bind_eq_ok.mp h
  obtain ⟨r, hr, h⟩ := bind_eq_ok.mp h
  cases h
  exact pass_last_mem hF hr

theorem filter2d_last_mem {c : Component} {v : FilterVariant} {clip : ClipRange} {src : Window}
    {dst : Plane} {fracX fracY : Nat} {tmp : Array Int} {o : Outcome}
    (h : filter2d c v clip src dst fracX fracY true tmp = .ok o) :
    dst.FilledIn clip o.dst ∨
      (∃ tapsX tapsY start, select v c fracX = .ok tapsX ∧ select v c fracY = .ok tapsY ∧
        isIdentity tapsX = true ∧ isIdentity tapsY = true ∧ o.dst =
          dst.fill (src.sample start)) := by
  unfold filter2d at h
  obtain ⟨_, hcheck, h⟩ := bind_eq_ok.mp h
  have hF := family_ne_of_checkLast hcheck
  obtain ⟨tapsX, hX, h⟩ := bind_eq_ok.mp h
  obtain ⟨tapsY, hY, h⟩ := bind_eq_ok.mp h
  rw [liftM_reject_eq_ok] at hX hY
  cases hidX : isIdentity tapsX <;> cases hidY : isIdentity tapsY <;>
    simp only [hidX, hidY] at h
  · exact .inl (separable_last_mem hF h)
  · obtain ⟨r, hr, h⟩ := bind_eq_ok.mp h
    cases h
    exact .inl (pass_last_mem hF hr)
  · obtain ⟨r, hr, h⟩ := bind_eq_ok.mp h
    cases h
    exact .inl (pass_last_mem hF hr)
  · -- Both impulses: the copy that is first and last.
    obtain ⟨r, hr, h⟩ := bind_eq_ok.mp h
    obtain ⟨start, -, rfl⟩ := copy_eq_ok_iff.mp hr
    cases h
    refine .inr ⟨tapsX, tapsY, start, hX, hY, hidX, hidY, ?_⟩
    simp only [copyValue_first_last_self]

end Interp

/-! ## Weighted prediction -/

def Planes.FilledIn (dst : Planes) (clip : ClipSet) (out : Planes) : Prop :=
  ∀ c, out.get? c = dst.get? c ∨
    ∃ d q, dst.get? c = some d ∧ out.get? c = some q ∧ d.FilledIn (clip.component c) q

theorem Planes.filledIn_refl (dst : Planes) (clip : ClipSet) : dst.FilledIn clip dst :=
  fun _ => .inl rfl

theorem Planes.filledIn_set {dst cur : Planes} {clip : ClipSet}
    (hvalid : ∀ c d, dst.get? c = some d → d.Valid) (hcur : dst.FilledIn clip cur)
    {c : Component} {d q : Plane} (hd : cur.get? c = some d)
      (hq : d.FilledIn (clip.component c) q) :
    dst.FilledIn clip (cur.set c q) := by
  intro c'
  by_cases hc : c = c'
  · subst hc
    have hlt : c.index < cur.length := (List.getElem?_eq_some_iff.mp hd).1
    rw [Planes.get?_set_self _ _ _ hlt]
    rcases hcur c with h | ⟨d0, q0, hd0, hq0, ⟨g0, rfl, -⟩⟩
    · exact .inr ⟨d, q, h ▸ hd, rfl, hq⟩
    · rw [hq0, Option.some_inj] at hd
      subst hd
      obtain ⟨g, rfl, hg⟩ := hq
      exact .inr ⟨d0, _, hd0, rfl, g, Plane.fill_fill (hvalid c d0 hd0) g0 g, hg⟩
  · rw [Planes.get?_set_of_ne _ _ hc]
    exact hcur c'

namespace Weighted

theorem planeOf_eq_ok {u : Planes} {c : Component} {m : Mismatch} {p : Plane} :
    planeOf u c m = .ok p ↔ u.get? c = some p := by
  unfold planeOf
  cases u.get? c <;> simp [reject, pure, Except.pure]

theorem weightBi_ensures (clip : ClipRange) (src0 src1 dst : Plane) (wp0 wp1 : Weighting) :
    Ensures (dst.FilledIn clip) (weightBi clip src0 src1 dst wp0 wp1) := by
  unfold weightBi
  iterate 6 refine ensures_bind fun _ _ => ?_
  refine Plane.fillM_ensures clip.contains_min fun x y => ?_
  iterate 5 refine ensures_bind fun _ _ => ?_
  exact ensures_pure (clip.contains_clip _)

theorem weightUni_ensures (clip : ClipRange) (src dst : Plane) (wp : Weighting) :
    Ensures (dst.FilledIn clip) (weightUni clip src dst wp) := by
  unfold weightUni
  refine ensures_bind fun _ _ => ?_
  split
  · -- A general weight.
    unfold scaledUni
    iterate 2 refine ensures_bind fun _ _ => ?_
    refine Plane.fillM_ensures clip.contains_min fun x y => ?_
    iterate 4 refine ensures_bind fun _ _ => ?_
    exact ensures_pure (clip.contains_clip _)
  · -- A unit weight, with or without offset.
    unfold unitUni
    refine Plane.fillM_ensures clip.contains_min fun x y => ?_
    dsimp only
    split
    · exact ensures_bind fun _ _ => ensures_pure (clip.contains_clip _)
    · exact ensures_pure (clip.contains_clip _)

section Calls

variable {clip : ClipSet} {dst : Planes} (hvalid : ∀ c d, dst.get? c = some d → d.Valid)
include hvalid

theorem addWeightBi_ensures (src0 src1 : Planes) (wp0 wp1 : List Weighting) (maxComp : Component)
    (sel : ComponentSelect) :
    Ensures (dst.FilledIn clip) (addWeightBi src0 src1 clip wp0 wp1 dst maxComp sel) := by
  unfold addWeightBi
  refine ensures_bind fun _ _ => foldlM_ensures (fun cur i hcur => ?_) _ (Planes.filledIn_refl _ _)
  -- One component: read its planes, check their sizes, weigh, and put the result in place.
  refine ensures_bind fun _ _ => ensures_bind fun _ _ => ensures_bind fun _ _ =>
    ensures_bind fun d hd => ?_
  dsimp only
  split
  · refine ensures_bind fun q hq => ensures_pure ?_
    exact Planes.filledIn_set hvalid hcur (planeOf_eq_ok.mp hd)
      (weightBi_ensures _ _ _ _ _ _ q (liftM_eq_ok.mp hq))
  · exact ensures_reject_bind _ _

theorem addWeightUni_ensures (src : Planes) (wp : List Weighting) (maxComp : Component)
    (sel : ComponentSelect) :
    Ensures (dst.FilledIn clip) (addWeightUni src clip wp dst maxComp sel) := by
  unfold addWeightUni
  refine ensures_bind fun _ _ => foldlM_ensures (fun cur i hcur => ?_) _ (Planes.filledIn_refl _ _)
  dsimp only
  split
  · refine ensures_bind fun _ _ => ensures_bind fun _ _ => ensures_bind fun d hd => ?_
    split
    · refine ensures_bind fun q hq => ensures_pure ?_
      exact Planes.filledIn_set hvalid hcur (planeOf_eq_ok.mp hd)
        (weightUni_ensures _ _ _ _ q (liftM_eq_ok.mp hq))
    · exact ensures_reject_bind _ _
  · exact ensures_reject_bind _ _

theorem predictBi_ensures (s : SliceWeights) (refIdx0 refIdx1 : Int) (src0 src1 : Planes)
    (maxComp : Component) (sel : ComponentSelect) :
    Ensures (dst.FilledIn clip) (predictBi s refIdx0 refIdx1 src0 src1 clip dst maxComp sel) := by
  unfold predictBi
  dsimp only
  split
  · exact ensures_reject_bind _ _
  split
  · exact ensures_pure (Planes.filledIn_refl _ _)
  · refine ensures_bind fun r _ => ?_
    rcases r with ⟨_ | wp0, _ | wp1⟩
    · exact ensures_pure (Planes.filledIn_refl _ _)
    · exact addWeightUni_ensures hvalid _ _ _ _
    · exact addWeightUni_ensures hvalid _ _ _ _
    · exact addWeightBi_ensures hvalid _ _ _ _ _ _

theorem predictUni_ensures (s : SliceWeights) (l : RefList) (refIdx : Int) (src : Planes)
    (maxComp : Component) (sel : ComponentSelect) :
    Ensures (dst.FilledIn clip) (predictUni s l refIdx src clip dst maxComp sel) := by
  unfold predictUni
  dsimp only
  split
  · exact ensures_reject_bind _ _
  -- Either list: derive, take that list's weightings, weigh with them if there are any.
  cases l <;>
  · refine ensures_bind fun _ _ => ensures_bind fun w _ => ?_
    rcases w with _ | wp
    · exact ensures_pure (Planes.filledIn_refl _ _)
    · exact addWeightUni_ensures hvalid _ _ _ _

end Calls

end Weighted

/-! ## Geometric blend -/

theorem Geo.blend_ensures (p : Geo.Partition) (comp : Component) (fmt : ChromaFormat)
    (clip : ClipRange) (src0 src1 dst : Plane) :
    Ensures (dst.FilledIn clip) (Geo.blend p comp fmt clip src0 src1 dst) := by
  unfold Geo.blend
  dsimp only
  split
  · exact ensures_bind fun _ _ => ensures_pure ⟨_, rfl, fun x y => clip.contains_clip _⟩
  · exact ensures_reject_bind _ _

/-! ## Every call to output samples -/

open Interp Taps Weighted in
/-- Calls that produce output samples write samples of their range, except the copy at an
integer position whose pass is both first and last. -/
theorem output_in_range_except_copy (dir : Direction) (c : Component) (v : FilterVariant)
    (clip : ClipRange) (src : Window) (dst : Plane) (frac fracX fracY : Nat) (first : Bool)
    (tmp : Array Int) (part : Geo.Partition) (fmt : ChromaFormat) (pred0 pred1 blk : Plane)
    (s : SliceWeights) (l : RefList) (refIdx refIdx0 refIdx1 : Int) (srcs srcs0 srcs1 : Planes)
    (clips : ClipSet) (wp wp0 wp1 : List Weighting) (dsts : Planes) (maxComp : Component)
    (sel : ComponentSelect) (hvalid : ∀ c d, dsts.get? c = some d → d.Valid) :
    (∀ p, filterAxis dir c v clip src dst frac first true = .ok p →
      dst.FilledIn clip p.1 ∨
        (first = true ∧ ∃ taps start, select v c frac = .ok taps ∧ isIdentity taps = true ∧
          p.1 = dst.fill (src.sample start))) ∧
    (∀ o, filter2d c v clip src dst fracX fracY true tmp = .ok o →
      dst.FilledIn clip o.dst ∨
        (∃ tapsX tapsY start, select v c fracX = .ok tapsX ∧ select v c fracY = .ok tapsY ∧
          isIdentity tapsX = true ∧ isIdentity tapsY = true ∧ o.dst =
            dst.fill (src.sample start))) ∧
    (∀ out, addWeightBi srcs0 srcs1 clips wp0 wp1 dsts maxComp sel = .ok out →
      dsts.FilledIn clips out) ∧
    (∀ out, addWeightUni srcs clips wp dsts maxComp sel = .ok out → dsts.FilledIn clips out) ∧
    (∀ out, predictBi s refIdx0 refIdx1 srcs0 srcs1 clips dsts maxComp sel = .ok out →
      dsts.FilledIn clips out) ∧
    (∀ out, predictUni s l refIdx srcs clips dsts maxComp sel = .ok out →
      dsts.FilledIn clips out) ∧
    (∀ q, Geo.blend part c fmt clip pred0 pred1 blk = .ok q → blk.FilledIn clip q) :=
  ⟨fun _ h => filterAxis_last_mem h, fun _ h => filter2d_last_mem h,
    addWeightBi_ensures hvalid _ _ _ _ _ _, addWeightUni_ensures hvalid _ _ _ _,
    predictBi_ensures hvalid _ _ _ _ _ _ _, predictUni_ensures hvalid _ _ _ _ _ _,
    Geo.blend_ensures _ _ _ _ _ _ _⟩

open Interp Weighted in
theorem output_in_range_except_copy_on_small :
    (∀ c d, (⟨[⟨#[0], 1, 1, 1⟩]⟩ : Planes).get? c = some d → d.Valid) ∧
    (∃ p, filterAxis .horizontal .y .standard ClipRange.eightBit ⟨Array.replicate 64 300, 8, 27⟩
        ⟨#[0], 1, 1, 1⟩ 0 true true = .ok p ∧
      ((⟨#[0], 1, 1, 1⟩ : Plane).FilledIn ClipRange.eightBit p.1 ∨
        (true = true ∧ ∃ taps start, Taps.select .standard .y 0 = .ok taps ∧
          Taps.isIdentity taps = true ∧
          p.1 = (⟨#[0], 1, 1, 1⟩ : Plane).fill
            ((⟨Array.replicate 64 300, 8, 27⟩ : Window).sample start)))) ∧
    (∃ o, filter2d .y .standard ClipRange.eightBit ⟨Array.replicate 64 300, 8, 27⟩ ⟨#[0], 1, 1, 1⟩
        0 0 true (Array.replicate 8 0) = .ok o ∧
      ((⟨#[0], 1, 1, 1⟩ : Plane).FilledIn ClipRange.eightBit o.dst ∨
        (∃ tapsX tapsY start, Taps.select .standard .y 0 = .ok tapsX ∧
          Taps.select .standard .y 0 = .ok tapsY ∧ Taps.isIdentity tapsX = true ∧
          Taps.isIdentity tapsY = true ∧
          o.dst = (⟨#[0], 1, 1, 1⟩ : Plane).fill
            ((⟨Array.replicate 64 300, 8, 27⟩ : Window).sample start)))) ∧
    (∃ out, addWeightBi ⟨[⟨#[0], 1, 1, 1⟩]⟩ ⟨[⟨#[0], 1, 1, 1⟩]⟩
      ⟨fun _ => ClipRange.eightBit, true, true⟩
        [⟨1, 0, 0, 0, 0⟩] [⟨1, 0, 0, 0, 0⟩] ⟨[⟨#[0], 1, 1, 1⟩]⟩ .y ⟨false, false⟩ = .ok out ∧
      Planes.FilledIn ⟨[⟨#[0], 1, 1, 1⟩]⟩ ⟨fun _ => ClipRange.eightBit, true, true⟩ out) ∧
    (∃ out, addWeightUni ⟨[⟨#[0], 1, 1, 1⟩]⟩ ⟨fun _ => ClipRange.eightBit, true, true⟩
        [⟨64, 0, 0, 6, 32⟩] ⟨[⟨#[0], 1, 1, 1⟩]⟩ .y ⟨false, false⟩ = .ok out ∧
      Planes.FilledIn ⟨[⟨#[0], 1, 1, 1⟩]⟩ ⟨fun _ => ClipRange.eightBit, true, true⟩ out) ∧
    (∃ out, predictBi ⟨[RefWeights.uniform ⟨64, 0, 6, true⟩], [], .yuv420, 8, 8, true, false⟩ 0 (-1)
        ⟨[⟨#[0], 1, 1, 1⟩]⟩ ⟨[⟨#[0], 1, 1, 1⟩]⟩ ⟨fun _ => ClipRange.eightBit, true, true⟩
        ⟨[⟨#[0], 1, 1, 1⟩]⟩ .y ⟨false, false⟩ = .ok out ∧
      Planes.FilledIn ⟨[⟨#[0], 1, 1, 1⟩]⟩ ⟨fun _ => ClipRange.eightBit, true, true⟩ out) ∧
    (∃ out, predictUni ⟨[RefWeights.uniform ⟨64, 0, 6, true⟩], [], .yuv420, 8, 8, true, false⟩ .l0 0
        ⟨[⟨#[0], 1, 1, 1⟩]⟩ ⟨fun _ => ClipRange.eightBit, true, true⟩ ⟨[⟨#[0], 1, 1, 1⟩]⟩ .y
        ⟨false, false⟩ = .ok out ∧
      Planes.FilledIn ⟨[⟨#[0], 1, 1, 1⟩]⟩ ⟨fun _ => ClipRange.eightBit, true, true⟩ out) ∧
    (∃ q, Geo.blend ⟨0, 1, by decide⟩ .y .yuv420 ClipRange.eightBit ⟨Array.replicate 64 0, 8, 8, 8⟩
        ⟨Array.replicate 64 0, 8, 8, 8⟩ ⟨Array.replicate 64 0, 8, 8, 8⟩ = .ok q ∧
      (⟨Array.replicate 64 0, 8, 8, 8⟩ : Plane).FilledIn ClipRange.eightBit q) := by
  -- Every plane of the one-plane list is valid.
  have hvalid : ∀ c d, (⟨[⟨#[0], 1, 1, 1⟩]⟩ : Planes).get? c = some d → d.Valid := by
    intro c d h
    cases c <;> simp [Planes.get?, Component.index] at h
    subst h
    exact ⟨le_rfl, Nat.one_pos, le_rfl⟩
  obtain ⟨hor, twoD, bi, uni, pbi, puni, geo⟩ := output_in_range_except_copy .horizontal .y
    .standard ClipRange.eightBit ⟨Array.replicate 64 300, 8, 27⟩ ⟨#[0], 1, 1, 1⟩ 0 0 0 true
    (Array.replicate 8 0) ⟨0, 1, by decide⟩ .yuv420 ⟨Array.replicate 64 0, 8, 8, 8⟩
    ⟨Array.replicate 64 0, 8, 8, 8⟩ ⟨Array.replicate 64 0, 8, 8, 8⟩
    ⟨[RefWeights.uniform ⟨64, 0, 6, true⟩], [], .yuv420, 8, 8, true, false⟩ .l0 0 0 (-1)
    ⟨[⟨#[0], 1, 1, 1⟩]⟩ ⟨[⟨#[0], 1, 1, 1⟩]⟩ ⟨[⟨#[0], 1, 1, 1⟩]⟩
    ⟨fun _ => ClipRange.eightBit, true, true⟩ [⟨64, 0, 0, 6, 32⟩] [⟨1, 0, 0, 0, 0⟩]
    [⟨1, 0, 0, 0, 0⟩] ⟨[⟨#[0], 1, 1, 1⟩]⟩ .y ⟨false, false⟩ hvalid
  exact ⟨hvalid, ⟨_, rfl, hor _ rfl⟩, ⟨_, rfl, twoD _ rfl⟩, ⟨_, rfl, bi _ rfl⟩,
    ⟨_, rfl, uni _ rfl⟩, ⟨_, rfl, pbi _ rfl⟩, ⟨_, rfl, puni _ rfl⟩, ⟨_, rfl, geo _ rfl⟩⟩

open Interp in
/-- The copy at an integer position writes a reference sample of 300 into an 8-bit output. -/
theorem filterHor_copy_leaves_range :
    ∃ p, filterHor .y .standard ClipRange.eightBit ⟨#[300], 1, 0⟩ ⟨#[0], 1, 1, 1⟩ 0 true = .ok p ∧
      ClipRange.eightBit.max < p.1.get 0 0 :=
  ⟨_, rfl, by decide⟩

end InterPred
