import Mathlib
import InterPred.Proofs.OutputRange
import InterPred.Proofs.Separable

/-!
# What a call writes
-/

namespace InterPred

namespace Plane

/-- `q` is `p` with at most the samples of `p`'s block changed: the same layout and buffer
length, and every other sample of the buffer, stride gaps and trailing samples included, kept. -/
structure SameOutside (p q : Plane) : Prop where
  stride_eq : q.stride = p.stride
  width_eq : q.width = p.width
  height_eq : q.height = p.height
  size_eq : q.data.size = p.data.size
  outside : ∀ k, (∀ x < p.width, ∀ y < p.height, p.index x y ≠ k) → q.data[k]? = p.data[k]?

theorem SameOutside.refl (p : Plane) : p.SameOutside p := ⟨rfl, rfl, rfl, rfl, fun _ _ => rfl⟩

theorem SameOutside.trans {p q r : Plane} (hpq : p.SameOutside q) (hqr : q.SameOutside r) :
    p.SameOutside r := by
  refine ⟨hqr.stride_eq.trans hpq.stride_eq, hqr.width_eq.trans hpq.width_eq,
    hqr.height_eq.trans hpq.height_eq, hqr.size_eq.trans hpq.size_eq, fun k hk => ?_⟩
  -- `q` has the layout of `p`, so a position outside one block is outside the other.
  have hk' : ∀ x < q.width, ∀ y < q.height, q.index x y ≠ k := by
    simpa only [index, hpq.width_eq, hpq.height_eq, hpq.stride_eq] using hk
  rw [hqr.outside k hk', hpq.outside k hk]

theorem sameOutside_fill (p : Plane) (g : Nat → Nat → Int) : p.SameOutside (p.fill g) :=
  ⟨rfl, rfl, rfl, size_fill p g, fun _ hk => getElem?_fill_of_forall_ne p g hk⟩

theorem fill_of_packed {p : Plane} (d : Array Int) (g : Nat → Nat → Int)
    (hs : p.stride = p.width) (hp : p.data.size = p.width * p.height)
    (hd : d.size = p.data.size) :
    ({ p with data := d } : Plane).fill g = p.fill g := by
  have hdata : (({ p with data := d } : Plane).fill g).data = (p.fill g).data := by
    apply Array.ext_getElem?
    intro k
    by_cases hk : k < p.data.size
    · -- Position `k` is sample `(k % width, k / width)` of the block.
      have hw : 0 < p.width := Nat.pos_of_ne_zero fun h0 => by
        rw [h0, Nat.zero_mul] at hp
        omega
      have hx : k % p.width < p.width := Nat.mod_lt _ hw
      have hy : k / p.width < p.height := by
        rw [Nat.div_lt_iff_lt_mul hw, Nat.mul_comm, ← hp]
        exact hk
      have hidx : p.index (k % p.width) (k / p.width) = k := by
        rw [index, hs]
        exact Nat.div_add_mod' k p.width
      rw [← hidx, getElem?_fill_index p g hs.ge hx hy (by omega)]
      exact getElem?_fill_index ({ p with data := d } : Plane) g hs.ge hx hy
        (show p.index _ _ < d.size by omega)
    · rw [Array.getElem?_eq_none (by simp only [size_fill]; omega),
        Array.getElem?_eq_none (by simp only [size_fill]; omega)]
  calc ({ p with data := d } : Plane).fill g
      = { p with data := (({ p with data := d } : Plane).fill g).data } := rfl
    _ = { p with data := (p.fill g).data } := by rw [hdata]
    _ = p.fill g := rfl

end Plane

/-! ## A prefix written over a buffer -/

section Prefix

variable {pre t : Array Int}

theorem size_append_extract (h : pre.size ≤ t.size) :
    (pre ++ t.extract pre.size t.size).size = t.size := by
  simp only [Array.size_append, Array.size_extract]
  omega

theorem getElem?_append_extract {k : Nat} (hk : pre.size ≤ k) :
    (pre ++ t.extract pre.size t.size)[k]? = t[k]? := by
  rw [Array.getElem?_append_right hk, Array.getElem?_extract]
  split
  · congr 1
    omega
  · rw [Array.getElem?_eq_none (by omega)]

end Prefix

namespace Planes

def fillAt (u : Planes) (c : Component) (g : Nat → Nat → Int) : Planes :=
  ⟨u.planes.modify c.index fun p => p.fill g⟩

def fillAll (u : Planes) (ws : List (Component × (Nat → Nat → Int))) : Planes :=
  ws.foldl (fun u w => u.fillAt w.1 w.2) u

@[simp] theorem planes_fillAt (u : Planes) (c : Component) (g : Nat → Nat → Int) :
    (u.fillAt c g).planes = u.planes.modify c.index fun p => p.fill g := rfl

@[simp] theorem fillAll_nil (u : Planes) : u.fillAll [] = u := rfl

@[simp] theorem fillAll_cons (u : Planes) (c : Component) (g : Nat → Nat → Int)
    (ws : List (Component × (Nat → Nat → Int))) :
    u.fillAll ((c, g) :: ws) = (u.fillAt c g).fillAll ws := rfl

theorem set_fill_eq_fillAt {u : Planes} {c : Component} {p : Plane} (h : u.get? c = some p)
    (g : Nat → Nat → Int) : u.set c (p.fill g) = u.fillAt c g := by
  simp only [set, fillAt, get?] at h ⊢
  congr 1
  apply List.ext_getElem?
  intro i
  rw [List.getElem?_set, List.getElem?_modify]
  by_cases hi : c.index = i
  · subst hi
    obtain ⟨hlt, hget⟩ := List.getElem?_eq_some_iff.mp h
    simp [hlt, hget]
  · simp [hi]

/-- Two sets of planes whose blocks have the same sizes, position by position, whatever their
buffers and strides. -/
structure SameShape (u u' : Planes) : Prop where
  length_eq : u'.length = u.length
  shape : ∀ (i : Nat) (p p' : Plane), u.planes[i]? = some p → u'.planes[i]? = some p' →
    p'.width = p.width ∧ p'.height = p.height

theorem SameShape.refl (u : Planes) : u.SameShape u :=
  ⟨rfl, fun _ p p' h h' => by rw [h, Option.some_inj] at h'; rw [h']; exact ⟨rfl, rfl⟩⟩

theorem SameShape.get? {u u' : Planes} (hs : u.SameShape u') {c : Component} {p : Plane}
    (h : u.get? c = some p) :
    ∃ p', u'.get? c = some p' ∧ p'.width = p.width ∧ p'.height = p.height := by
  have hlt : c.index < u'.planes.length := by
    have := (List.getElem?_eq_some_iff.mp h).1
    have := hs.length_eq
    simp only [length] at this
    omega
  exact ⟨_, List.getElem?_eq_getElem hlt, hs.shape c.index p _ h (List.getElem?_eq_getElem hlt)⟩

theorem SameShape.fillAt {u u' : Planes} (hs : u.SameShape u') (c : Component)
    (g : Nat → Nat → Int) : (u.fillAt c g).SameShape (u'.fillAt c g) := by
  refine ⟨by simpa [length] using hs.length_eq, fun i p p' h h' => ?_⟩
  simp only [planes_fillAt, List.getElem?_modify] at h h'
  by_cases hi : c.index = i
  · simp only [hi, if_true, Option.map_eq_map, Option.map_eq_some_iff] at h h'
    obtain ⟨q, hq, rfl⟩ := h
    obtain ⟨q', hq', rfl⟩ := h'
    exact hs.shape i q q' hq hq'
  · simp only [hi, if_false, Option.map_eq_map, Option.map_id'] at h h'
    exact hs.shape i p p' h h'

/-- `v` is `u` with at most the blocks of the planes at positions `idx` changed: the other
planes as they were, and every plane the same outside its block. -/
structure SameOutside (u v : Planes) (idx : List Nat) : Prop where
  length_eq : v.length = u.length
  keep : ∀ i, i ∉ idx → v.planes[i]? = u.planes[i]?
  block : ∀ (i : Nat) (p : Plane), u.planes[i]? = some p →
    ∃ q, v.planes[i]? = some q ∧ p.SameOutside q

theorem SameOutside.trans {u v w : Planes} {idx idx' : List Nat} (huv : u.SameOutside v idx)
    (hvw : v.SameOutside w idx') : u.SameOutside w (idx ++ idx') := by
  refine ⟨hvw.length_eq.trans huv.length_eq, fun i hi => ?_, fun i p hp => ?_⟩
  · rw [List.mem_append, not_or] at hi
    rw [hvw.keep i hi.2, huv.keep i hi.1]
  · obtain ⟨q, hq, hpq⟩ := huv.block i p hp
    obtain ⟨r, hr, hqr⟩ := hvw.block i q hq
    exact ⟨r, hr, hpq.trans hqr⟩

theorem sameOutside_fillAt (u : Planes) (c : Component) (g : Nat → Nat → Int) :
    u.SameOutside (u.fillAt c g) [c.index] := by
  refine ⟨by simp [length], fun i hi => ?_, fun i p hp => ?_⟩
  · exact List.getElem?_modify_ne _ _ fun h => hi (h ▸ List.mem_singleton_self _)
  · simp only [planes_fillAt, List.getElem?_modify, hp]
    by_cases hi : c.index = i
    · exact ⟨p.fill g, by simp [hi], Plane.sameOutside_fill p g⟩
    · exact ⟨p, by simp [hi], Plane.SameOutside.refl p⟩

theorem sameOutside_fillAll (ws : List (Component × (Nat → Nat → Int))) :
    ∀ u : Planes, u.SameOutside (u.fillAll ws) (ws.map fun w => w.1.index) := by
  induction ws with
  | nil => exact fun u => ⟨rfl, fun _ _ => rfl, fun _ p hp => ⟨p, hp, .refl p⟩⟩
  | cons w ws ih =>
    intro u
    exact (sameOutside_fillAt u w.1 w.2).trans (ih _)

end Planes

/-! ## Sample functions that succeed -/

section Folds

variable {ε α β : Type}

theorem foldlM_ok_mem {f : β → α → Except ε β} :
    ∀ (l : List α) (b b' : β), l.foldlM f b = .ok b' → ∀ a ∈ l, ∃ c c', f c a = .ok c' := by
  intro l
  induction l with
  | nil => intro _ _ _ a ha; simp at ha
  | cons a l ih =>
    intro b b' h a' ha'
    rw [List.foldlM_cons] at h
    obtain ⟨c, hc, h⟩ := bind_eq_ok.mp h
    rcases List.mem_cons.mp ha' with rfl | ha'
    · exact ⟨b, c, hc⟩
    · exact ih c b' h a' ha'

end Folds

theorem Plane.fillM_ok_sample {p q : Plane} {f : Nat → Nat → Except Overflow Int}
    (h : p.fillM f = .ok q) : ∀ x < p.width, ∀ y < p.height, ∃ v, f x y = .ok v := by
  intro x hx y hy
  unfold Plane.fillM at h
  obtain ⟨data, hdata, -⟩ := bind_eq_ok.mp h
  -- The row `y` succeeded, and in it the sample `x`.
  obtain ⟨d, d', hrow⟩ := foldlM_ok_mem _ _ _ hdata y (List.mem_range.mpr hy)
  obtain ⟨e, e', hx'⟩ := foldlM_ok_mem _ _ _ hrow x (List.mem_range.mpr hx)
  obtain ⟨v, hv, -⟩ := bind_eq_ok.mp hx'
  exact ⟨v, hv⟩

theorem eq_ok_toOption_getD {ε α : Type} {x : Except ε α} (d : α) (h : ∃ a, x = .ok a) :
    x = .ok (x.toOption.getD d) := by
  obtain ⟨a, rfl⟩ := h
  rfl

theorem Plane.fillM_ok_of_samples {p : Plane} {f : Nat → Nat → Except Overflow Int}
    (h : ∀ x < p.width, ∀ y < p.height, ∃ v, f x y = .ok v) : ∃ q, p.fillM f = .ok q :=
  ⟨_, p.fillM_eq_pure f _ fun x hx y hy => eq_ok_toOption_getD 0 (h x hx y hy)⟩

theorem Plane.fillM_writes {p q : Plane} {f : Nat → Nat → Except Overflow Int}
    (h : p.fillM f = .ok q) :
    ∃ g, ∀ p' : Plane, p'.width = p.width → p'.height = p.height → p'.fillM f = .ok (p'.fill g) := by
  have hf := Plane.fillM_ok_sample h
  exact ⟨fun x y => (f x y).toOption.getD 0, fun p' hw hh => p'.fillM_eq_pure f _
    fun x hx y hy => eq_ok_toOption_getD 0 (hf x (hw ▸ hx) y (hh ▸ hy))⟩

/-! ## Weighted prediction -/

namespace Planes

variable {ε α : Type}

theorem foldlM_writes {step : Planes → α → Except ε Planes} (comp : α → Component)
    (l : List α)
    (hstep : ∀ a ∈ l, ∀ u v, step u a = .ok v →
      ∃ g, ∀ u', u.SameShape u' → step u' a = .ok (u'.fillAt (comp a) g)) :
    ∀ u v, l.foldlM step u = .ok v → ∃ ws : List (Component × (Nat → Nat → Int)),
      ws.map Prod.fst = l.map comp ∧ ∀ u', u.SameShape u' → l.foldlM step u' = .ok (u'.fillAll ws) := by
  induction l with
  | nil => exact fun _ _ _ => ⟨[], rfl, fun _ _ => rfl⟩
  | cons a l ih =>
    intro u v h
    rw [List.foldlM_cons] at h
    obtain ⟨w, hw, h⟩ := bind_eq_ok.mp h
    obtain ⟨g, hg⟩ := hstep a List.mem_cons_self u w hw
    -- On `u` itself the first step fills its block into `u`.
    have hw' : w = u.fillAt (comp a) g := by
      have := hg u (SameShape.refl u)
      rw [hw] at this
      exact Except.ok.inj this
    obtain ⟨ws, hmap, hws⟩ :=
      ih (fun b hb => hstep b (List.mem_cons_of_mem a hb)) w v h
    refine ⟨(comp a, g) :: ws, by simp [hmap], fun u' hu' => ?_⟩
    rw [List.foldlM_cons, hg u' hu', ok_bind, fillAll_cons]
    exact hws _ (hw' ▸ hu'.fillAt (comp a) g)

theorem sameOutside_of_writes {ε : Type} {call : Planes → Except ε Planes} {dst out : Planes}
    {ws : List (Component × (Nat → Nat → Int))} (h : call dst = .ok out)
    (hws : ∀ dst', dst.SameShape dst' → call dst' = .ok (dst'.fillAll ws)) :
    dst.SameOutside out (ws.map fun w => w.1.index) := by
  have hout : out = dst.fillAll ws := Except.ok.inj (h.symm.trans (hws dst (SameShape.refl dst)))
  rw [hout]
  exact sameOutside_fillAll ws dst

end Planes

namespace Weighted

theorem weightBi_writes {clip : ClipRange} {src0 src1 dst q : Plane} {wp0 wp1 : Weighting}
    (h : weightBi clip src0 src1 dst wp0 wp1 = .ok q) :
    ∃ g, ∀ dst' : Plane, dst'.width = dst.width → dst'.height = dst.height →
      weightBi clip src0 src1 dst' wp0 wp1 = .ok (dst'.fill g) := by
  unfold weightBi at h ⊢
  obtain ⟨shift, h1, h⟩ := bind_eq_ok.mp h
  obtain ⟨round, h2, h⟩ := bind_eq_ok.mp h
  obtain ⟨below, h3, h⟩ := bind_eq_ok.mp h
  obtain ⟨unit, h4, h⟩ := bind_eq_ok.mp h
  obtain ⟨lift, h5, h⟩ := bind_eq_ok.mp h
  obtain ⟨bias, h6, h⟩ := bind_eq_ok.mp h
  obtain ⟨g, hg⟩ := Plane.fillM_writes h
  refine ⟨g, fun dst' hw hh => ?_⟩
  rw [h1, ok_bind, h2, ok_bind, h3, ok_bind, h4, ok_bind, h5, ok_bind, h6, ok_bind]
  exact hg dst' hw hh

theorem weightUni_writes {clip : ClipRange} {src dst q : Plane} {wp : Weighting}
    (h : weightUni clip src dst wp = .ok q) :
    ∃ g, ∀ dst' : Plane, dst'.width = dst.width → dst'.height = dst.height →
      weightUni clip src dst' wp = .ok (dst'.fill g) := by
  unfold weightUni at h ⊢
  obtain ⟨unit, hu, h⟩ := bind_eq_ok.mp h
  simp only [hu, ok_bind]
  split at h
  · -- A general weight.
    unfold scaledUni at h ⊢
    obtain ⟨shift, h1, h⟩ := bind_eq_ok.mp h
    obtain ⟨round, h2, h⟩ := bind_eq_ok.mp h
    obtain ⟨g, hg⟩ := Plane.fillM_writes h
    refine ⟨g, fun dst' hw hh => ?_⟩
    rw [if_pos ‹_›, h1, ok_bind, h2, ok_bind]
    exact hg dst' hw hh
  · -- A unit weight.
    unfold unitUni at h ⊢
    obtain ⟨g, hg⟩ := Plane.fillM_writes h
    refine ⟨g, fun dst' hw hh => ?_⟩
    rw [if_neg ‹_›]
    exact hg dst' hw hh

theorem addWeightBi_writes {src0 src1 : Planes} {clip : ClipSet} {wp0 wp1 : List Weighting}
    {dst out : Planes} {maxComp : Component} {sel : ComponentSelect}
    (h : addWeightBi src0 src1 clip wp0 wp1 dst maxComp sel = .ok out) :
    ∃ range ws, componentRange sel maxComp = .ok range ∧
      ws.map Prod.fst = (range.takeWhile (· < src0.length)).map Component.ofIndexD ∧
      ∀ dst', dst.SameShape dst' →
        addWeightBi src0 src1 clip wp0 wp1 dst' maxComp sel = .ok (dst'.fillAll ws) := by
  unfold addWeightBi at h
  obtain ⟨range, hr, h⟩ := bind_eq_ok.mp h
  have hfold := Planes.foldlM_writes Component.ofIndexD _ ?step dst out h
  · obtain ⟨ws, hmap, hws⟩ := hfold
    refine ⟨range, ws, liftM_reject_eq_ok.mp hr, hmap, fun dst' hd' => ?_⟩
    unfold addWeightBi
    rw [hr, ok_bind]
    exact hws dst' hd'
  -- One component: its weights and source planes do not depend on the destination, and its
  -- destination plane only through its size.
  intro i _ u v hv
  obtain ⟨⟨p0, p1⟩, hp, hv⟩ := bind_eq_ok.mp hv
  obtain ⟨s0, hs0, hv⟩ := bind_eq_ok.mp hv
  obtain ⟨s1, hs1, hv⟩ := bind_eq_ok.mp hv
  obtain ⟨d, hd, hv⟩ := bind_eq_ok.mp hv
  dsimp only at hv
  split at hv
  case isFalse => exact absurd hv (by rw [reject_bind]; exact fun h => nomatch h)
  rename_i hsz
  obtain ⟨d2, hd2, -⟩ := bind_eq_ok.mp hv
  obtain ⟨g, hg⟩ := weightBi_writes (liftM_eq_ok.mp hd2)
  refine ⟨g, fun u' hu' => ?_⟩
  obtain ⟨d', hd', hw, hh⟩ := hu'.get? (planeOf_eq_ok.mp hd)
  have hsz' : (s0.sameSize d' && s1.sameSize d') = true := by
    simpa only [Plane.sameSize, hw, hh] using hsz
  dsimp only
  rw [hp, ok_bind]
  dsimp only
  rw [hs0, ok_bind, hs1, ok_bind, planeOf_eq_ok.mpr hd', ok_bind, if_pos hsz', hg d' hw hh,
    ← Planes.set_fill_eq_fillAt hd']
  rfl

theorem addWeightUni_writes {src : Planes} {clip : ClipSet} {wp : List Weighting}
    {dst out : Planes} {maxComp : Component} {sel : ComponentSelect}
    (h : addWeightUni src clip wp dst maxComp sel = .ok out) :
    ∃ range ws, componentRange sel maxComp = .ok range ∧
      ws.map Prod.fst = (range.takeWhile (· < src.length)).map Component.ofIndexD ∧
      ∀ dst', dst.SameShape dst' →
        addWeightUni src clip wp dst' maxComp sel = .ok (dst'.fillAll ws) := by
  unfold addWeightUni at h
  obtain ⟨range, hr, h⟩ := bind_eq_ok.mp h
  have hfold := Planes.foldlM_writes Component.ofIndexD _ ?step dst out h
  · obtain ⟨ws, hmap, hws⟩ := hfold
    refine ⟨range, ws, liftM_reject_eq_ok.mp hr, hmap, fun dst' hd' => ?_⟩
    unfold addWeightUni
    rw [hr, ok_bind]
    exact hws dst' hd'
  -- One component, as for two sources.
  intro i _ u v hv
  dsimp only at hv
  split at hv
  case h_2 => exact absurd hv (by rw [reject_bind]; exact fun h => nomatch h)
  rename_i p _
  rw [pure_bind] at hv
  obtain ⟨s, hs, hv⟩ := bind_eq_ok.mp hv
  obtain ⟨d, hd, hv⟩ := bind_eq_ok.mp hv
  split at hv
  case isFalse => exact absurd hv (by rw [reject_bind]; exact fun h => nomatch h)
  rename_i hsz
  obtain ⟨d2, hd2, -⟩ := bind_eq_ok.mp hv
  obtain ⟨g, hg⟩ := weightUni_writes (liftM_eq_ok.mp hd2)
  refine ⟨g, fun u' hu' => ?_⟩
  obtain ⟨d', hd', hw, hh⟩ := hu'.get? (planeOf_eq_ok.mp hd)
  have hsz' : s.sameSize d' = true := by
    simpa only [Plane.sameSize, hw, hh] using hsz
  dsimp only
  rw [pure_bind, hs, ok_bind, planeOf_eq_ok.mpr hd', ok_bind, if_pos hsz', hg d' hw hh,
    ← Planes.set_fill_eq_fillAt hd']
  rfl

theorem predictBi_writes {s : SliceWeights} {refIdx0 refIdx1 : Int} {src0 src1 : Planes}
    {clip : ClipSet} {dst out : Planes} {maxComp : Component} {sel : ComponentSelect}
    (h : predictBi s refIdx0 refIdx1 src0 src1 clip dst maxComp sel = .ok out) :
    ∃ ws : List (Component × (Nat → Nat → Int)),
      (ws = [] ∨ ∃ src range, (src = src0 ∨ src = src1) ∧
        componentRange sel (s.lastComponent maxComp) = .ok range ∧
        ws.map Prod.fst = (range.takeWhile (· < src.length)).map Component.ofIndexD) ∧
      ∀ dst', dst.SameShape dst' →
        predictBi s refIdx0 refIdx1 src0 src1 clip dst' maxComp sel = .ok (dst'.fillAll ws) := by
  unfold predictBi at h ⊢
  dsimp only at h ⊢
  split at h
  case isTrue => exact absurd h (by rw [reject_bind]; exact fun h => nomatch h)
  rename_i henabled
  split at h
  case isTrue hneg =>
    -- Neither list is used: the destination as it was.
    exact ⟨[], .inl rfl, fun dst' _ => by rw [if_neg henabled, if_pos hneg]; rfl⟩
  rename_i hneg
  obtain ⟨r, hr, h⟩ := bind_eq_ok.mp h
  -- The weightings derived do not depend on the destination either.
  rcases r with ⟨_ | wp0, _ | wp1⟩
  · exact ⟨[], .inl rfl, fun dst' _ => by rw [if_neg henabled, if_neg hneg, hr, ok_bind]; rfl⟩
  · obtain ⟨range, ws, hrange, hmap, hws⟩ := addWeightUni_writes h
    refine ⟨ws, .inr ⟨src1, range, .inr rfl, hrange, hmap⟩, fun dst' hd' => ?_⟩
    rw [if_neg henabled, if_neg hneg, hr, ok_bind]
    exact hws dst' hd'
  · obtain ⟨range, ws, hrange, hmap, hws⟩ := addWeightUni_writes h
    refine ⟨ws, .inr ⟨src0, range, .inl rfl, hrange, hmap⟩, fun dst' hd' => ?_⟩
    rw [if_neg henabled, if_neg hneg, hr, ok_bind]
    exact hws dst' hd'
  · obtain ⟨range, ws, hrange, hmap, hws⟩ := addWeightBi_writes h
    refine ⟨ws, .inr ⟨src0, range, .inl rfl, hrange, hmap⟩, fun dst' hd' => ?_⟩
    rw [if_neg henabled, if_neg hneg, hr, ok_bind]
    exact hws dst' hd'

theorem predictUni_writes {s : SliceWeights} {l : RefList} {refIdx : Int} {src : Planes}
    {clip : ClipSet} {dst out : Planes} {maxComp : Component} {sel : ComponentSelect}
    (h : predictUni s l refIdx src clip dst maxComp sel = .ok out) :
    ∃ ws : List (Component × (Nat → Nat → Int)),
      (ws = [] ∨ ∃ range, componentRange sel (s.lastComponent maxComp) = .ok range ∧
        ws.map Prod.fst = (range.takeWhile (· < src.length)).map Component.ofIndexD) ∧
      ∀ dst', dst.SameShape dst' →
        predictUni s l refIdx src clip dst' maxComp sel = .ok (dst'.fillAll ws) := by
  unfold predictUni at h ⊢
  dsimp only at h ⊢
  split at h
  case isTrue => exact absurd h (by rw [reject_bind]; exact fun h => nomatch h)
  rename_i hpos
  -- Either list: derive, take that list's weightings, weigh with them if there are any.
  cases l <;>
  · obtain ⟨r, hr, h⟩ := bind_eq_ok.mp h
    rw [pure_bind] at h
    split at h
    · rename_i wp hwp
      obtain ⟨range, ws, hrange, hmap, hws⟩ := addWeightUni_writes h
      refine ⟨ws, .inr ⟨range, hrange, hmap⟩, fun dst' hd' => ?_⟩
      rw [if_neg hpos, hr, ok_bind, pure_bind, hwp]
      exact hws dst' hd'
    · rename_i hnone
      exact ⟨[], .inl rfl, fun dst' _ => by rw [if_neg hpos, hr, ok_bind, pure_bind, hnone]; rfl⟩

theorem index_ofIndexD {n : Nat} (h : n < 3) : (Component.ofIndexD n).index = n := by
  interval_cases n <;> rfl

theorem lt_three_of_mem_componentRange {sel : ComponentSelect} {maxComp : Component}
    {range : List Nat} (h : componentRange sel maxComp = .ok range) {i : Nat} (hi : i ∈ range) :
    i < 3 := by
  unfold componentRange at h
  split at h
  · cases h
  · cases h
    have := maxComp.index_lt_three
    rw [List.mem_range'_1] at hi
    split at hi <;> split at hi <;> omega

theorem map_index_writes {sel : ComponentSelect} {maxComp : Component} {range : List Nat}
    (hr : componentRange sel maxComp = .ok range) {n : Nat}
    {ws : List (Component × (Nat → Nat → Int))}
    (hmap : ws.map Prod.fst = (range.takeWhile (· < n)).map Component.ofIndexD) :
    ws.map (fun w => w.1.index) = range.takeWhile (· < n) := by
  have hcomp : ws.map (fun w => w.1.index) = (ws.map Prod.fst).map Component.index := by
    rw [List.map_map]
    rfl
  rw [hcomp, hmap, List.map_map]
  refine (List.map_congr_left fun i hi => ?_).trans (List.map_id _)
  exact index_ofIndexD (lt_three_of_mem_componentRange hr (List.takeWhile_subset _ hi))

end Weighted

/-! ## Interpolation -/

namespace Interp

open Taps

variable {family : TapFamily} {first last : Bool} {clip : ClipRange} {src : Window}
  {dst : Plane}

theorem pass_writes {dir : Direction} {taps : List Int} {r : Plane × List ReadRegion}
    (h : pass dir family first last clip src dst taps = .ok r) :
    ∃ g, ∀ dst' : Plane, dst'.width = dst.width → dst'.height = dst.height →
      pass dir family first last clip src dst' taps = .ok (dst'.fill g, r.2) := by
  cases dir with
  | horizontal =>
    obtain ⟨hn, start, hs, rfl⟩ := pass_horizontal_eq_ok_iff.mp h
    refine ⟨fun x y => passValue family first last clip taps fun i => src.sample start (x + i) y,
      fun dst' hw hh => pass_horizontal_eq_ok_iff.mpr ⟨hw ▸ hn, start, ?_, ?_⟩⟩
    · rw [hw, hh]
      exact hs
    · rw [hw, hh]
  | vertical =>
    obtain ⟨hn, start, hs, rfl⟩ := pass_vertical_eq_ok_iff.mp h
    refine ⟨fun x y => passValue family first last clip taps fun k => src.sample start x (y + k),
      fun dst' hw hh => pass_vertical_eq_ok_iff.mpr ⟨hh ▸ hn, start, ?_, ?_⟩⟩
    · rw [hw, hh]
      exact hs
    · rw [hw, hh]

theorem copy_writes {refine : Bool} {r : Plane × List ReadRegion}
    (h : copy clip src dst first last refine = .ok r) :
    ∃ g, ∀ dst' : Plane, dst'.width = dst.width → dst'.height = dst.height →
      copy clip src dst' first last refine = .ok (dst'.fill g, r.2) := by
  obtain ⟨start, hs, rfl⟩ := copy_eq_ok_iff.mp h
  refine ⟨fun x y => copyValue first last refine clip (src.sample start x y), fun dst' hw hh => copy_eq_ok_iff.mpr ⟨start, ?_, ?_⟩⟩
  · rw [hw, hh]
    exact hs
  · rw [hw, hh]

theorem filterAxis_writes {dir : Direction} {c : Component} {v : FilterVariant} {frac : Nat}
    {r : Plane × List ReadRegion} (h : filterAxis dir c v clip src dst frac first last = .ok r) :
    ∃ g, ∀ dst' : Plane, dst'.width = dst.width → dst'.height = dst.height →
      filterAxis dir c v clip src dst' frac first last = .ok (dst'.fill g, r.2) := by
  unfold filterAxis at h ⊢
  obtain ⟨_, hc, h⟩ := bind_eq_ok.mp h
  obtain ⟨taps, ht, h⟩ := bind_eq_ok.mp h
  simp only [hc, ht, ok_bind]
  -- The tap set and so the path taken do not depend on the destination.
  split at h
  · obtain ⟨g, hg⟩ := copy_writes h
    exact ⟨g, fun dst' hw hh => by rw [if_pos ‹_›]; exact hg dst' hw hh⟩
  · obtain ⟨g, hg⟩ := pass_writes h
    exact ⟨g, fun dst' hw hh => by rw [if_neg ‹_›]; exact hg dst' hw hh⟩

theorem scratchRows_le (dst : Plane) (n : Nat) : scratchRows dst n ≤ dst.height + (n - 1) := by
  unfold scratchRows Size.addSaturating
  omega

theorem separable_writes {tapsX tapsY : List Int} {tmp : Array Int} {o : Outcome}
    (h : separable family clip src dst tapsX tapsY last tmp = .ok o) :
    ∃ g pre, pre.size = dst.width * scratchRows dst tapsY.length ∧ pre.size ≤ tmp.size ∧
      ∀ (dst' : Plane) (tmp' : Array Int), dst'.width = dst.width → dst'.height = dst.height →
        tmp'.size = tmp.size → separable family clip src dst' tapsX tapsY last tmp' =
          .ok ⟨dst'.fill g, pre ++ tmp'.extract pre.size tmp'.size, o.reads⟩ := by
  rw [separable_eq] at h
  obtain ⟨⟨mid, reads, window, needed⟩, hfront, h⟩ := bind_eq_ok.mp h
  obtain ⟨⟨d, r⟩, hv, h⟩ := bind_eq_ok.mp h
  cases h
  obtain ⟨g, hg⟩ := pass_writes hv
  obtain ⟨hneeded, hn, htmp, hrows, hwX, hw0, hhalf, above, start, habove, hs, hmid, rfl, rfl⟩ :=
    separableFront_eq_ok_iff.mp hfront
  -- The scratch rows are packed and fill the front of the buffer, so the horizontal pass
  -- writes every one of their samples.
  have hsize : mid.data.size = needed := by
    rw [hmid, Plane.size_fill, Array.size_extract]
    omega
  refine ⟨g, mid.data, hsize.trans hneeded, hsize ▸ htmp, fun dst' tmp' hw hh ht => ?_⟩
  have hrows' : scratchRows dst' tapsY.length = scratchRows dst tapsY.length := by
    unfold scratchRows
    rw [hh]
  have hmid' : mid = Plane.fill ⟨tmp'.extract 0 needed, dst'.width, dst'.width,
      scratchRows dst' tapsY.length⟩ (fun x j => passValue family true false clip tapsX fun i =>
        above.sample start (x + i) j) := by
    rw [hmid, hw, hrows']
    refine (Plane.fill_of_packed _ _ rfl ?_ ?_).symm
    · simp only [Array.size_extract]
      omega
    · simp only [Array.size_extract]
      omega
  have hfront' : separableFront family clip src dst' tapsX tapsY tmp' =
      .ok (mid, _, ⟨mid.data, dst.width, (tapsY.length / 2 - 1) * dst.width⟩, needed) :=
    separableFront_eq_ok_iff.mpr ⟨by rw [hneeded, hw, hrows'], hn, by omega,
      by simpa only [hrows'] using hrows, by simpa only [hw] using hwX,
      by simpa only [hw] using hw0, by simpa only [hw] using hhalf, above, start, habove,
      by simpa only [hw, hrows'] using hs, hmid', rfl, by rw [hw]⟩
  rw [separable_eq, hfront', ok_bind]
  dsimp only
  rw [hg dst' hw hh, ok_bind, hsize, hw, hrows']
  rfl

theorem filter2d_writes {c : Component} {v : FilterVariant} {fracX fracY : Nat}
    {tmp : Array Int} {o : Outcome} (h : filter2d c v clip src dst fracX fracY last tmp = .ok o) :
    ∃ g pre, pre.size ≤ tmp.size ∧
      (pre = #[] ∨ ∃ tapsX tapsY, select v c fracX = .ok tapsX ∧ select v c fracY = .ok tapsY ∧
        isIdentity tapsX = false ∧ isIdentity tapsY = false ∧
        pre.size ≤ dst.width * (dst.height + (v.family c.isLuma).taps - 1)) ∧
      ∀ (dst' : Plane) (tmp' : Array Int), dst'.width = dst.width → dst'.height = dst.height →
        tmp'.size = tmp.size → filter2d c v clip src dst' fracX fracY last tmp' =
          .ok ⟨dst'.fill g, pre ++ tmp'.extract pre.size tmp'.size, o.reads⟩ := by
  unfold filter2d at h ⊢
  obtain ⟨_, hc, h⟩ := bind_eq_ok.mp h
  obtain ⟨tapsX, hX, h⟩ := bind_eq_ok.mp h
  obtain ⟨tapsY, hY, h⟩ := bind_eq_ok.mp h
  simp only [hc, hX, hY, ok_bind]
  -- A shortcut leaves the scratch buffer as it was: it writes the empty prefix.
  have hkeep : ∀ t : Array Int, (#[] : Array Int) ++ t.extract (#[] : Array Int).size t.size = t :=
    fun t => by simp
  cases hidX : isIdentity tapsX <;> cases hidY : isIdentity tapsY <;>
    simp only [hidX, hidY] at h ⊢
  · -- Both axes filter: the general path.
    obtain ⟨g, pre, hpre, hle, hsep⟩ := separable_writes h
    refine ⟨g, pre, hle, .inr ⟨tapsX, tapsY, liftM_reject_eq_ok.mp hX, liftM_reject_eq_ok.mp hY,
      hidX, hidY, ?_⟩, hsep⟩
    have hlen := (select_admissible (liftM_reject_eq_ok.mp hY)).length_eq
    have hrows := scratchRows_le dst tapsY.length
    have hN := two_le_taps (v.family c.isLuma)
    rw [hpre]
    exact Nat.mul_le_mul_left _ (by omega)
  -- The shortcuts: one pass or copy, which writes its block the same way into any destination.
  all_goals
    obtain ⟨⟨d, r⟩, hp, h⟩ := bind_eq_ok.mp h
    cases h
    first
      | refine (pass_writes hp).elim fun g hg => ?_
      | refine (copy_writes hp).elim fun g hg => ?_
    refine ⟨g, #[], Nat.zero_le _, .inl rfl, fun dst' tmp' hw hh _ => ?_⟩
    rw [hg dst' hw hh, ok_bind, hkeep]
    rfl

end Interp

/-! ## The geometric blend -/

theorem Geo.blend_writes {p : Geo.Partition} {comp : Component} {fmt : ChromaFormat}
    {clip : ClipRange} {src0 src1 dst q : Plane}
    (h : Geo.blend p comp fmt clip src0 src1 dst = .ok q) :
    ∃ g, ∀ dst' : Plane, dst'.width = dst.width → dst'.height = dst.height →
      Geo.blend p comp fmt clip src0 src1 dst' = .ok (dst'.fill g) := by
  unfold Geo.blend at h ⊢
  dsimp only at h ⊢
  split at h
  case isFalse => exact absurd h (by rw [reject_bind]; exact fun h => nomatch h)
  rename_i hsz
  obtain ⟨m, hm, -⟩ := bind_eq_ok.mp h
  -- The sizes checked, and so the mask, are the destination's size only.
  refine ⟨fun x y => blendSample clip (m.getD (y * (dst.width * pow2 (fmt.scaleX comp) *
    pow2 (fmt.scaleY comp)) + x * pow2 (fmt.scaleX comp)) 0) (src0.get x y) (src1.get x y),
    fun dst' hw hh => ?_⟩
  have hsz' : (src0.sameSize dst' && src1.sameSize dst') = true := by
    simpa only [Plane.sameSize, hw, hh] using hsz
  rw [if_pos hsz', hw, hh, hm, ok_bind]
  rfl

/-! ## Every call -/

open Interp Taps Weighted in
/-- A call that succeeds writes only the blocks it covers, and writes there what its sources
and parameters decide, whatever the destination and the scratch buffer held. -/
theorem calls_write_only_their_blocks :
    (∀ (dir : Direction) (c : Component) (v : FilterVariant) (clip : ClipRange) (src : Window)
        (dst : Plane) (frac : Nat) (first last : Bool) (r : Plane × List ReadRegion),
      filterAxis dir c v clip src dst frac first last = .ok r →
        dst.SameOutside r.1 ∧ ∃ g, ∀ dst' : Plane, dst'.width = dst.width →
          dst'.height = dst.height →
            filterAxis dir c v clip src dst' frac first last = .ok (dst'.fill g, r.2)) ∧
    (∀ (c : Component) (v : FilterVariant) (clip : ClipRange) (src : Window) (dst : Plane)
        (fracX fracY : Nat) (last : Bool) (tmp : Array Int) (o : Outcome),
      filter2d c v clip src dst fracX fracY last tmp = .ok o →
        dst.SameOutside o.dst ∧ o.tmp.size = tmp.size ∧
        ∃ g pre, (∀ k, pre.size ≤ k → o.tmp[k]? = tmp[k]?) ∧
          (pre = #[] ∨ ∃ tapsX tapsY, select v c fracX = .ok tapsX ∧
            select v c fracY = .ok tapsY ∧ isIdentity tapsX = false ∧
            isIdentity tapsY = false ∧
            pre.size ≤ dst.width * (dst.height + (v.family c.isLuma).taps - 1)) ∧
          ∀ (dst' : Plane) (tmp' : Array Int), dst'.width = dst.width →
            dst'.height = dst.height → tmp'.size = tmp.size →
              filter2d c v clip src dst' fracX fracY last tmp' =
                .ok ⟨dst'.fill g, pre ++ tmp'.extract pre.size tmp'.size, o.reads⟩) ∧
    (∀ (src0 src1 : Planes) (clip : ClipSet) (wp0 wp1 : List Weighting) (dst : Planes)
        (maxComp : Component) (sel : ComponentSelect) (out : Planes),
      addWeightBi src0 src1 clip wp0 wp1 dst maxComp sel = .ok out →
        ∃ range, componentRange sel maxComp = .ok range ∧
          dst.SameOutside out (range.takeWhile (· < src0.length)) ∧
          ∃ ws : List (Component × (Nat → Nat → Int)),
            ws.map (fun w => w.1.index) = range.takeWhile (· < src0.length) ∧
            ∀ dst', dst.SameShape dst' →
              addWeightBi src0 src1 clip wp0 wp1 dst' maxComp sel = .ok (dst'.fillAll ws)) ∧
    (∀ (src : Planes) (clip : ClipSet) (wp : List Weighting) (dst : Planes)
        (maxComp : Component) (sel : ComponentSelect) (out : Planes),
      addWeightUni src clip wp dst maxComp sel = .ok out →
        ∃ range, componentRange sel maxComp = .ok range ∧
          dst.SameOutside out (range.takeWhile (· < src.length)) ∧
          ∃ ws : List (Component × (Nat → Nat → Int)),
            ws.map (fun w => w.1.index) = range.takeWhile (· < src.length) ∧
            ∀ dst', dst.SameShape dst' →
              addWeightUni src clip wp dst' maxComp sel = .ok (dst'.fillAll ws)) ∧
    (∀ (s : SliceWeights) (refIdx0 refIdx1 : Int) (src0 src1 : Planes) (clip : ClipSet)
        (dst : Planes) (maxComp : Component) (sel : ComponentSelect) (out : Planes),
      predictBi s refIdx0 refIdx1 src0 src1 clip dst maxComp sel = .ok out →
        ∃ idx, (idx = [] ∨ ∃ src range, (src = src0 ∨ src = src1) ∧
            componentRange sel (s.lastComponent maxComp) = .ok range ∧
            idx = range.takeWhile (· < src.length)) ∧
          dst.SameOutside out idx ∧
          ∃ ws : List (Component × (Nat → Nat → Int)), ws.map (fun w => w.1.index) = idx ∧
            ∀ dst', dst.SameShape dst' →
              predictBi s refIdx0 refIdx1 src0 src1 clip dst' maxComp sel =
                .ok (dst'.fillAll ws)) ∧
    (∀ (s : SliceWeights) (l : RefList) (refIdx : Int) (src : Planes) (clip : ClipSet)
        (dst : Planes) (maxComp : Component) (sel : ComponentSelect) (out : Planes),
      predictUni s l refIdx src clip dst maxComp sel = .ok out →
        ∃ idx, (idx = [] ∨ ∃ range, componentRange sel (s.lastComponent maxComp) = .ok range ∧
            idx = range.takeWhile (· < src.length)) ∧
          dst.SameOutside out idx ∧
          ∃ ws : List (Component × (Nat → Nat → Int)), ws.map (fun w => w.1.index) = idx ∧
            ∀ dst', dst.SameShape dst' →
              predictUni s l refIdx src clip dst' maxComp sel = .ok (dst'.fillAll ws)) ∧
    (∀ (p : Geo.Partition) (comp : Component) (fmt : ChromaFormat) (clip : ClipRange)
        (src0 src1 dst q : Plane),
      Geo.blend p comp fmt clip src0 src1 dst = .ok q →
        dst.SameOutside q ∧ ∃ g, ∀ dst' : Plane, dst'.width = dst.width →
          dst'.height = dst.height → Geo.blend p comp fmt clip src0 src1 dst' = .ok (dst'.fill g)) := by
  refine ⟨fun dir c v clip src dst frac first last r h => ?_,
    fun c v clip src dst fracX fracY last tmp o h => ?_,
    fun src0 src1 clip wp0 wp1 dst maxComp sel out h => ?_,
    fun src clip wp dst maxComp sel out h => ?_,
    fun s refIdx0 refIdx1 src0 src1 clip dst maxComp sel out h => ?_,
    fun s l refIdx src clip dst maxComp sel out h => ?_,
    fun p comp fmt clip src0 src1 dst q h => ?_⟩
  · -- Along one axis.
    obtain ⟨g, hg⟩ := filterAxis_writes h
    have hr : r.1 = dst.fill g := congrArg Prod.fst (Except.ok.inj (h.symm.trans (hg dst rfl rfl)))
    exact ⟨hr ▸ Plane.sameOutside_fill dst g, g, hg⟩
  · -- In 2D, with the scratch buffer.
    obtain ⟨g, pre, hle, hpre, hg⟩ := filter2d_writes h
    have ho : o = ⟨dst.fill g, pre ++ tmp.extract pre.size tmp.size, o.reads⟩ :=
      Except.ok.inj (h.symm.trans (hg dst tmp rfl rfl rfl))
    rw [ho]
    exact ⟨Plane.sameOutside_fill dst g, size_append_extract hle, g, pre,
      fun k hk => getElem?_append_extract hk, hpre, hg⟩
  · obtain ⟨range, ws, hr, hmap, hws⟩ := addWeightBi_writes h
    have hidx := map_index_writes hr hmap
    exact ⟨range, hr, hidx ▸ Planes.sameOutside_of_writes h hws, ws, hidx, hws⟩
  · obtain ⟨range, ws, hr, hmap, hws⟩ := addWeightUni_writes h
    have hidx := map_index_writes hr hmap
    exact ⟨range, hr, hidx ▸ Planes.sameOutside_of_writes h hws, ws, hidx, hws⟩
  · obtain ⟨ws, hcases, hws⟩ := predictBi_writes h
    refine ⟨ws.map fun w => w.1.index, ?_, Planes.sameOutside_of_writes h hws, ws, rfl, hws⟩
    rcases hcases with rfl | ⟨src, range, hsrc, hr, hmap⟩
    · exact .inl rfl
    · exact .inr ⟨src, range, hsrc, hr, map_index_writes hr hmap⟩
  · obtain ⟨ws, hcases, hws⟩ := predictUni_writes h
    refine ⟨ws.map fun w => w.1.index, ?_, Planes.sameOutside_of_writes h hws, ws, rfl, hws⟩
    rcases hcases with rfl | ⟨range, hr, hmap⟩
    · exact .inl rfl
    · exact .inr ⟨range, hr, map_index_writes hr hmap⟩
  · -- The blend.
    obtain ⟨g, hg⟩ := Geo.blend_writes h
    have hq : q = dst.fill g := Except.ok.inj (h.symm.trans (hg dst rfl rfl))
    exact ⟨hq ▸ Plane.sameOutside_fill dst g, g, hg⟩

open Interp Taps in
theorem calls_write_only_their_blocks_on_flat :
    (∃ r, filterAxis .horizontal .cb .standard ClipRange.eightBit ⟨Array.replicate 16 0, 4, 5⟩
        ⟨#[0], 1, 1, 1⟩ 16 true true = .ok r ∧
      (⟨#[0], 1, 1, 1⟩ : Plane).SameOutside r.1 ∧ ∃ g, ∀ dst' : Plane, dst'.width = 1 →
        dst'.height = 1 → filterAxis .horizontal .cb .standard ClipRange.eightBit
          ⟨Array.replicate 16 0, 4, 5⟩ dst' 16 true true = .ok (dst'.fill g, r.2)) ∧
    (∃ o, filter2d .cb .standard ClipRange.eightBit ⟨Array.replicate 16 0, 4, 5⟩ ⟨#[0], 1, 1, 1⟩
        16 16 true (Array.replicate 4 0) = .ok o ∧
      (⟨#[0], 1, 1, 1⟩ : Plane).SameOutside o.dst ∧ o.tmp.size = 4 ∧
      ∃ g pre, (∀ k, pre.size ≤ k → o.tmp[k]? = (Array.replicate 4 (0 : Int))[k]?) ∧
        (pre = #[] ∨ ∃ tapsX tapsY, select .standard .cb 16 = .ok tapsX ∧
          select .standard .cb 16 = .ok tapsY ∧ isIdentity tapsX = false ∧
          isIdentity tapsY = false ∧
          pre.size ≤ 1 * (1 + (FilterVariant.standard.family Component.cb.isLuma).taps - 1)) ∧
        ∀ (dst' : Plane) (tmp' : Array Int), dst'.width = 1 → dst'.height = 1 →
          tmp'.size = 4 →
            filter2d .cb .standard ClipRange.eightBit ⟨Array.replicate 16 0, 4, 5⟩ dst' 16 16 true
              tmp' = .ok ⟨dst'.fill g, pre ++ tmp'.extract pre.size tmp'.size, o.reads⟩) := by
  obtain ⟨r, hr⟩ : ∃ r, filterAxis .horizontal .cb .standard ClipRange.eightBit
      ⟨Array.replicate 16 0, 4, 5⟩ ⟨#[0], 1, 1, 1⟩ 16 true true = .ok r := ⟨_, rfl⟩
  obtain ⟨o, ho⟩ : ∃ o, filter2d .cb .standard ClipRange.eightBit ⟨Array.replicate 16 0, 4, 5⟩
      ⟨#[0], 1, 1, 1⟩ 16 16 true (Array.replicate 4 0) = .ok o := ⟨_, rfl⟩
  exact ⟨⟨r, hr, calls_write_only_their_blocks.1 .horizontal .cb .standard ClipRange.eightBit _ _
      16 true true r hr⟩,
    ⟨o, ho, calls_write_only_their_blocks.2.1 .cb .standard ClipRange.eightBit _ _ 16 16 true _ o
      ho⟩⟩

end InterPred
