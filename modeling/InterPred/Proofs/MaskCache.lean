import Mathlib
import InterPred.Proofs.Bounds

/-!
# The mask cache answers what building the mask answers

A coherent cache answers what `mask` builds (`geoMask_coherent`), and every run of calls from
the empty cache keeps it coherent (`runMasks_coherent`).
-/

namespace InterPred.Geo

/-! ## What a mask holds -/

theorem getElem?_flatMap_rows (f : Nat → Nat → Int) (width : Nat) :
    ∀ height x y, x < width → y < height →
      ((List.range height).flatMap fun y => (List.range width).map fun x => f x y)[y * width + x]? =
        some (f x y) := by
  intro height
  induction height with
  | zero => intro x y _ hy; exact absurd hy (Nat.not_lt_zero y)
  | succ n ih =>
    intro x y hx hy
    have hlen : ((List.range n).flatMap fun y => (List.range width).map fun x => f x y).length =
        n * width := by
      simp [List.length_flatMap, Nat.mul_comm]
    rw [List.range_succ, List.flatMap_append]
    rcases Nat.lt_succ_iff_lt_or_eq.mp hy with hy | rfl
    · -- An earlier row: the sample is among the first `n` rows.
      have hrow : (y + 1) * width ≤ n * width := Nat.mul_le_mul_right _ hy
      rw [List.getElem?_append_left (by rw [hlen, Nat.add_mul] at *; omega)]
      exact ih x y hx hy
    · -- The last row: past the first `n` rows by `x`.
      rw [List.getElem?_append_right (by omega), hlen, Nat.add_sub_cancel_left]
      simp [hx]

@[simp] theorem size_buildMask (p : Partition) (w h : Nat) : (buildMask p w h).size = w * h := by
  simp [buildMask, List.length_flatMap, Nat.mul_comm]

theorem buildMask_getElem? (p : Partition) {w h x y : Nat} (hx : x < w) (hy : y < h) :
    (buildMask p w h)[y * w + x]? = some (maskWeight p w h x y) := by
  rw [buildMask, List.getElem?_toArray]
  exact getElem?_flatMap_rows (fun x y => maskWeight p w h x y) w h x y hx hy

/-! ## The sides masks exist for -/

theorem sizeIndex?_isSome_iff {s : Nat} : (sizeIndex? s).isSome ↔ s ∈ [8, 16, 32, 64] :=
  List.isSome_idxOf?

theorem exists_sizeIndex? {s : Nat} (h : s ∈ [8, 16, 32, 64]) : ∃ i, sizeIndex? s = some i :=
  Option.isSome_iff_exists.mp (sizeIndex?_isSome_iff.mpr h)

theorem sizeIndex?_eq_none {s : Nat} (h : s ∉ [8, 16, 32, 64]) : sizeIndex? s = none :=
  Option.not_isSome_iff_eq_none.mp (mt sizeIndex?_isSome_iff.mp h)

theorem sizeIndex?_inj {s s' i : Nat} (h : sizeIndex? s = some i) (h' : sizeIndex? s' = some i) :
    s = s' := by
  obtain ⟨hi, hs, -⟩ := List.idxOf?_eq_some_iff.mp h
  obtain ⟨_, hs', -⟩ := List.idxOf?_eq_some_iff.mp h'
  exact hs.symm.trans hs'

theorem mask_eq_buildMask {p : Partition} {w h wi hi : Nat} (hw : sizeIndex? w = some wi)
    (hh : sizeIndex? h = some hi) : mask p w h = .ok (buildMask p w h) := by
  simp [mask, hw, hh, buildMask]

theorem mask_eq_error {p : Partition} {w h : Nat} (hs : sizeIndex? w = none ∨ sizeIndex? h = none) :
    mask p w h = .error (.unsupportedGeoSize w h) := by
  unfold mask
  rcases hs with hs | hs <;> simp [hs]

/-! ## Slots -/

theorem Partition.eq_of_angle_distance {p q : Partition} (ha : p.angle = q.angle)
    (hd : p.distance = q.distance) : p = q := by
  cases p
  cases q
  cases ha
  cases hd
  rfl

theorem maskSlot_inj {p p' : Partition} {wi hi wi' hi' : Nat} (hw : wi < 4) (hh : hi < 4)
    (hw' : wi' < 4) (hh' : hi' < 4) (h : maskSlot p wi hi = maskSlot p' wi' hi') :
    p = p' ∧ wi = wi' ∧ hi = hi' := by
  have hp := p.bounds
  have hp' := p'.bounds
  unfold maskSlot at h
  have hdigits : p.angle = p'.angle ∧ p.distance = p'.distance ∧ wi = wi' ∧ hi = hi' := by omega
  obtain ⟨ha, hd, rfl, rfl⟩ := hdigits
  exact ⟨Partition.eq_of_angle_distance ha hd, rfl, rfl⟩

theorem eq_of_maskSlot_eq {p p' : Partition} {w h w' h' wi hi wi' hi' : Nat}
    (hw : sizeIndex? w = some wi) (hh : sizeIndex? h = some hi) (hw' : sizeIndex? w' = some wi')
    (hh' : sizeIndex? h' = some hi') (hslot : maskSlot p wi hi = maskSlot p' wi' hi') :
    p = p' ∧ w = w' ∧ h = h' := by
  obtain ⟨rfl, rfl, rfl⟩ :=
    maskSlot_inj (sizeIndex?_lt hw) (sizeIndex?_lt hh) (sizeIndex?_lt hw') (sizeIndex?_lt hh') hslot
  exact ⟨rfl, sizeIndex?_inj hw hw', sizeIndex?_inj hh hh'⟩

/-! ## Coherent caches -/

/-- Every mask the cache holds is the mask of the partition and sides its slot stands for. -/
def MaskCache.Coherent (c : MaskCache) : Prop :=
  ∀ p w h wi hi m, sizeIndex? w = some wi → sizeIndex? h = some hi →
    c.slots.getD (maskSlot p wi hi) none = some m → m = buildMask p w h

theorem MaskCache.coherent_empty : MaskCache.empty.Coherent := by
  intro p w h wi hi m _ _ hm
  simp only [MaskCache.empty, Array.getD_eq_getD_getElem?, Array.getElem?_replicate] at hm
  split at hm <;> simp at hm

theorem MaskCache.Coherent.store {c : MaskCache} (hc : c.Coherent) {p : Partition}
    {w h wi hi : Nat} (hw : sizeIndex? w = some wi) (hh : sizeIndex? h = some hi) :
    MaskCache.Coherent ⟨c.slots.setIfInBounds (maskSlot p wi hi) (some (buildMask p w h))⟩ := by
  intro p' w' h' wi' hi' m hw' hh' hm
  rw [Array.getD_eq_getD_getElem?, Array.getElem?_setIfInBounds] at hm
  by_cases hslot : maskSlot p wi hi = maskSlot p' wi' hi'
  · -- The same slot: by `maskSlot_inj` the same request, so the stored mask.
    obtain ⟨rfl, rfl, rfl⟩ := eq_of_maskSlot_eq hw hh hw' hh' hslot
    rw [if_pos hslot] at hm
    split at hm
    · rw [Option.getD_some] at hm
      exact (Option.some.inj hm).symm
    · cases hm
  · rw [if_neg hslot, ← Array.getD_eq_getD_getElem?] at hm
    exact hc p' w' h' wi' hi' m hw' hh' hm

/-- A call on a coherent cache answers what `mask` builds, and leaves the cache coherent. -/
theorem geoMask_coherent {c : MaskCache} (hc : c.Coherent) (p : Partition) (w h : Nat) :
    (geoMask c p w h).1 = mask p w h ∧ (geoMask c p w h).2.Coherent := by
  cases hw : sizeIndex? w with
  | none => simp [geoMask, mask, hw, hc]
  | some wi =>
    cases hh : sizeIndex? h with
    | none => simp [geoMask, mask, hw, hh, hc]
    | some hi =>
      rw [mask_eq_buildMask hw hh]
      cases hs : c.slots.getD (maskSlot p wi hi) none with
      | some m =>
        -- A hit: the slot holds the mask of this request.
        simp only [geoMask, hw, hh, hs]
        exact ⟨by rw [hc p w h wi hi m hw hh hs], hc⟩
      | none =>
        simp only [geoMask, hw, hh, hs]
        exact ⟨trivial, hc.store hw hh⟩

theorem geoMask_of_unsupported (c : MaskCache) (p : Partition) {w h : Nat}
    (hs : sizeIndex? w = none ∨ sizeIndex? h = none) :
    geoMask c p w h = (.error (.unsupportedGeoSize w h), c) := by
  unfold geoMask
  rcases hs with hs | hs <;> simp [hs]

/-! ## Runs of calls -/

structure MaskRequest where
  partition : Partition
  width : Nat
  height : Nat

/-- The answers of calls of `geoMask` one after another, each on the cache the call before left,
and the cache the last call leaves. -/
def runMasks (c : MaskCache) : List MaskRequest → List (Except PredError (Array Int)) × MaskCache
  | [] => ([], c)
  | r :: rs =>
    let step := geoMask c r.partition r.width r.height
    let rest := runMasks step.2 rs
    (step.1 :: rest.1, rest.2)

/-- From a coherent cache, every call of a run answers what `mask` builds, and the run leaves
the cache coherent. -/
theorem runMasks_coherent :
    ∀ (rs : List MaskRequest) (c : MaskCache), c.Coherent →
      (runMasks c rs).1 = rs.map (fun r => mask r.partition r.width r.height) ∧
        (runMasks c rs).2.Coherent := by
  intro rs
  induction rs with
  | nil => exact fun c hc => ⟨rfl, hc⟩
  | cons r rs ih =>
    intro c hc
    obtain ⟨hstep, hc'⟩ := geoMask_coherent hc r.partition r.width r.height
    obtain ⟨hrest, hfinal⟩ := ih _ hc'
    exact ⟨by simp only [runMasks, List.map_cons, hstep, hrest], hfinal⟩

theorem runMasks_append (c : MaskCache) (rs qs : List MaskRequest) :
    (runMasks c (rs ++ qs)).2 = (runMasks (runMasks c rs).2 qs).2 := by
  induction rs generalizing c with
  | nil => rfl
  | cons r rs ih => exact ih _

/-! ## Blending through the cache -/

def blendRequest (p : Partition) (comp : Component) (fmt : ChromaFormat) (src0 src1 dst : Plane) :
    List MaskRequest :=
  if src0.sameSize dst && src1.sameSize dst then
    [⟨p, dst.width * pow2 (fmt.scaleX comp), dst.height * pow2 (fmt.scaleY comp)⟩]
  else []

section Blend

variable (p : Partition) (comp : Component) (fmt : ChromaFormat) (clip : ClipRange)
  (src0 src1 dst : Plane)

theorem blendCached_cache (c : MaskCache) :
    (blendCached c p comp fmt clip src0 src1 dst).2 =
      (runMasks c (blendRequest p comp fmt src0 src1 dst)).2 := by
  unfold blendCached blendRequest
  split <;> rfl

theorem blendCached_eq_blend {c : MaskCache} (hc : c.Coherent) :
    (blendCached c p comp fmt clip src0 src1 dst).1 = blend p comp fmt clip src0 src1 dst := by
  have hm := (geoMask_coherent hc p (dst.width * pow2 (fmt.scaleX comp))
    (dst.height * pow2 (fmt.scaleY comp))).1
  unfold blendCached blend
  by_cases hs : (src0.sameSize dst && src1.sameSize dst) = true
  · simp [hs, hm]
  · rw [if_neg hs, if_neg hs]
    rfl

/-- After any run of mask calls from the empty cache, a cached blend answers what `blend`
answers and leaves the cache the run and the blend's own mask call leave. -/
theorem blendCached_after_runMasks (rs : List MaskRequest) :
    (blendCached (runMasks .empty rs).2 p comp fmt clip src0 src1 dst).1 =
        blend p comp fmt clip src0 src1 dst ∧
      (blendCached (runMasks .empty rs).2 p comp fmt clip src0 src1 dst).2 =
        (runMasks .empty (rs ++ blendRequest p comp fmt src0 src1 dst)).2 :=
  ⟨blendCached_eq_blend p comp fmt clip src0 src1 dst
      (runMasks_coherent rs .empty MaskCache.coherent_empty).2,
    by rw [blendCached_cache, runMasks_append]⟩

end Blend

/-! ## The cache is coherent -/

/-- After any run of calls from the empty cache the next call answers the mask built for it,
or refuses its sides and keeps the cache; distinct requests use distinct slots. -/
theorem mask_cache_is_coherent :
    (∀ (rs : List MaskRequest) (p : Partition) (w h : Nat),
      w ∈ [8, 16, 32, 64] → h ∈ [8, 16, 32, 64] →
        (geoMask (runMasks .empty rs).2 p w h).1 = .ok (buildMask p w h) ∧
          (buildMask p w h).size = w * h ∧
          ∀ x < w, ∀ y < h, (buildMask p w h)[y * w + x]? = some (maskWeight p w h x y) ∧
            0 ≤ maskWeight p w h x y ∧ maskWeight p w h x y ≤ 8) ∧
    (∀ (c : MaskCache) (p : Partition) (w h : Nat), w ∉ [8, 16, 32, 64] ∨ h ∉ [8, 16, 32, 64] →
      geoMask c p w h = (.error (.unsupportedGeoSize w h), c)) ∧
    (∀ (p : Partition) (w h wi hi : Nat), sizeIndex? w = some wi → sizeIndex? h = some hi →
      maskSlot p wi hi < 2048) ∧
    (∀ (p p' : Partition) (w h w' h' wi hi wi' hi' : Nat), sizeIndex? w = some wi →
      sizeIndex? h = some hi → sizeIndex? w' = some wi' → sizeIndex? h' = some hi' →
      maskSlot p wi hi = maskSlot p' wi' hi' → p = p' ∧ w = w' ∧ h = h') := by
  refine ⟨fun rs p w h hw hh => ?_, fun c p w h hs => ?_,
    fun p _ _ _ _ hw hh => maskSlot_lt p hw hh,
    fun _ _ _ _ _ _ _ _ _ _ hw hh hw' hh' hslot => eq_of_maskSlot_eq hw hh hw' hh' hslot⟩
  · obtain ⟨wi, hwi⟩ := exists_sizeIndex? hw
    obtain ⟨hi, hhi⟩ := exists_sizeIndex? hh
    have hc := (runMasks_coherent rs .empty MaskCache.coherent_empty).2
    refine ⟨(geoMask_coherent hc p w h).1.trans (mask_eq_buildMask hwi hhi), size_buildMask p w h,
      fun x hx y hy => ⟨buildMask_getElem? p hx hy, maskWeight_mem p w h x y⟩⟩
  · exact geoMask_of_unsupported c p (hs.imp sizeIndex?_eq_none sizeIndex?_eq_none)

theorem mask_cache_is_coherent_on_repeat :
    8 ∈ [8, 16, 32, 64] ∧
      (geoMask (runMasks .empty [⟨⟨0, 1, by decide⟩, 8, 8⟩]).2 ⟨0, 1, by decide⟩ 8 8).1 =
        .ok (buildMask ⟨0, 1, by decide⟩ 8 8) ∧
      4 ∉ [8, 16, 32, 64] ∧
      geoMask MaskCache.empty ⟨0, 1, by decide⟩ 4 8 =
        (.error (.unsupportedGeoSize 4 8), MaskCache.empty) :=
  ⟨by decide, (mask_cache_is_coherent.1 _ _ 8 8 (by decide) (by decide)).1, by decide,
    mask_cache_is_coherent.2.1 _ _ 4 8 (.inl (by decide))⟩

end InterPred.Geo
