import Mathlib
import InterPred.Proofs.Derivation

/-!
# Bi-prediction is symmetric in its two references
-/

namespace InterPred

open Word

/-! ## Steps that commute -/

theorem Word.check_bind_comm {β : Type} (w : Word) (o : Overflow) (x y : Int)
    (f : Int → Int → Except Overflow β) :
    (w.check o x >>= fun u => w.check o y >>= fun v => f u v) =
      (w.check o y >>= fun v => w.check o x >>= fun u => f u v) := by
  unfold check
  by_cases hx : w.Holds x <;> by_cases hy : w.Holds y <;>
    simp only [hx, hy, if_true, if_false] <;> rfl

theorem Word.add_comm_operands (w : Word) (a b : Int) : w.add a b = w.add b a := by
  unfold Word.add
  rw [add_comm]

theorem bind_congr_of_ok {ε α β : Type} {x : Except ε α} {f g : α → Except ε β}
    (h : ∀ a, x = .ok a → f a = g a) : x >>= f = x >>= g := by
  cases x with
  | error e => rfl
  | ok a => exact h a rfl

theorem mapM_eq_map_mapM {α β γ ε : Type} {f : α → Except ε γ} {f' : α → Except ε β}
    {g : β → γ} :
    ∀ {l : List α}, (∀ a ∈ l, f a = g <$> f' a) → l.mapM f = List.map g <$> l.mapM f'
  | [], _ => rfl
  | a :: l, h => by
    rw [List.mapM_cons, List.mapM_cons, h a List.mem_cons_self,
      mapM_eq_map_mapM fun a' ha' => h a' (List.mem_cons_of_mem a ha')]
    cases f' a <;> cases l.mapM f' <;> rfl

namespace Weighted

/-! ## Exchanging two entries -/

/-- `s'` is `s` with list 0's entry `i` and list 1's entry `j` exchanged between the
lists. -/
structure SliceWeights.Exchanged (s s' : SliceWeights) (i j : Nat) : Prop where
  chromaFormat : s'.chromaFormat = s.chromaFormat
  lumaBitDepth : s'.lumaBitDepth = s.lumaBitDepth
  chromaBitDepth : s'.chromaBitDepth = s.chromaBitDepth
  wpBiPred : s'.wpBiPred = s.wpBiPred
  highPrecisionOffsets : s'.highPrecisionOffsets = s.highPrecisionOffsets
  entry0 : s'.get? .l0 j = s.get? .l1 j
  entry1 : s'.get? .l1 i = s.get? .l0 i

section Exchange

variable {s s' : SliceWeights} {i j : Nat}

theorem SliceWeights.Exchanged.offsetScale (hx : s.Exchanged s' i j) (c : Component) :
    s'.offsetScale c = s.offsetScale c := by
  unfold SliceWeights.offsetScale SliceWeights.bitDepth
  rw [hx.highPrecisionOffsets, hx.lumaBitDepth, hx.chromaBitDepth]

theorem SliceWeights.Exchanged.components (hx : s.Exchanged s' i j) (m : Component) :
    s'.components m = s.components m := by
  unfold SliceWeights.components
  rw [hx.chromaFormat]

end Exchange

theorem biPair_exchange {s s' : SliceWeights} {c : Component} {p q : ScalingParam}
    (hs : s'.offsetScale c = s.offsetScale c) (hd : q.log2Denom = p.log2Denom) :
    biPair s' c q p = Prod.swap <$> biPair s c p q := by
  unfold biPair
  dsimp only
  rw [hs, hd]
  unfold Word.mul
  rw [Word.check_bind_comm]
  simp only [map_bind, map_pure, Prod.swap_prod_mk]
  refine bind_congr fun u => bind_congr fun v => ?_
  rw [Word.add_comm_operands]

theorem biWeightings_exchange {s s' : SliceWeights} {i j : Nat} (hx : s.Exchanged s' i j)
    {p q : RefWeights} (hden : ∀ c, (q.get c).log2Denom = (p.get c).log2Denom) (m : Component) :
    biWeightings s' q p m = List.map Prod.swap <$> biWeightings s p q m := by
  unfold biWeightings
  rw [hx.components]
  refine mapM_eq_map_mapM fun c _ => ?_
  rw [biPair_exchange (hx.offsetScale c) (hden c)]
  cases biPair s c (p.get c) (q.get c) <;> rfl

/-- Deriving `(j, i)` from the exchanged slice gives the lists of `(i, j)` in the other order,
or the same failure. -/
theorem deriveWeighting_exchange {s s' : SliceWeights} {i j : Nat} (hx : s.Exchanged s' i j)
    {p q : RefWeights} (hp : s.get? .l0 i = some p) (hq : s.get? .l1 j = some q)
    (hden : ∀ c, (q.get c).log2Denom = (p.get c).log2Denom) (m : Component) :
    deriveWeighting j i s' m = Prod.swap <$> deriveWeighting i j s m := by
  have hi : (0 : Int) ≤ i := Int.natCast_nonneg i
  have hj : (0 : Int) ≤ j := Int.natCast_nonneg j
  cases hbi : s.wpBiPred with
  | false =>
    rw [deriveWeighting_of_disabled hbi hi hj,
      deriveWeighting_of_disabled (hx.wpBiPred.trans hbi) hj hi]
    rfl
  | true =>
    have hp0 : s.get? .l0 (i : Int).toNat = some p := by rwa [Int.toNat_natCast]
    have hq1 : s.get? .l1 (j : Int).toNat = some q := by rwa [Int.toNat_natCast]
    have hq' : s'.get? .l0 (j : Int).toNat = some q := by rw [Int.toNat_natCast, hx.entry0, hq]
    have hp' : s'.get? .l1 (i : Int).toNat = some p := by rw [Int.toNat_natCast, hx.entry1, hp]
    rw [deriveWeighting_of_both hbi hi hj, deriveWeighting_of_both (hx.wpBiPred.trans hbi) hj hi,
      lookup_of_get? hi hp0, lookup_of_get? hj hq1, lookup_of_get? hj hq', lookup_of_get? hi hp']
    simp only [liftM_ok, ok_bind]
    rw [biWeightings_exchange hx hden]
    cases biWeightings s p q m with
    | error e => rfl
    | ok pairs =>
      change Except.ok _ = Except.ok _
      simp [List.map_map, Function.comp_def]

/-! ## Weighting with the sources exchanged -/

theorem planeOf_bind_comm {β : Type} (u v : Planes) (c : Component) (mm : Mismatch)
    (f : Plane → Plane → Except Fault β) :
    (planeOf u c mm >>= fun a => planeOf v c mm >>= fun b => f a b) =
      (planeOf v c mm >>= fun b => planeOf u c mm >>= fun a => f a b) := by
  unfold planeOf
  cases u.get? c <;> cases v.get? c <;> rfl

theorem weightPair_swap (wp0 wp1 : List Weighting) (k : Nat) :
    weightPair wp1 wp0 k = Prod.swap <$> weightPair wp0 wp1 k := by
  unfold weightPair
  cases wp0[k]? <;> cases wp1[k]? <;> rfl

theorem weightBi_swap (clip : ClipRange) (s0 s1 d : Plane) {b0 b1 : Weighting}
    (hsh : b1.shift = b0.shift) (hoff : b1.offset = b0.offset) :
    weightBi clip s1 s0 d b1 b0 = weightBi clip s0 s1 d b0 b1 := by
  unfold weightBi
  rw [hsh, hoff]
  refine bind_congr fun shift => bind_congr fun round => bind_congr fun below =>
    bind_congr fun unit => bind_congr fun lift => bind_congr fun bias => ?_
  congr 1
  funext x y
  dsimp only
  unfold Word.mul
  rw [Word.check_bind_comm]
  refine bind_congr fun t0 => bind_congr fun t1 => ?_
  rw [Word.add_comm_operands]

def SharesShift (wp0 wp1 : List Weighting) : Prop :=
  ∀ (k : Nat) (b0 b1 : Weighting), wp0[k]? = some b0 → wp1[k]? = some b1 →
    b1.shift = b0.shift ∧ b1.offset = b0.offset

theorem sharesShift_nil_left (wp : List Weighting) : SharesShift [] wp :=
  fun _ _ _ h => by cases h

theorem sharesShift_nil_right (wp : List Weighting) : SharesShift wp [] :=
  fun _ _ _ _ h => by cases h

theorem addWeightBi_swap {src0 src1 : Planes} {clip : ClipSet} {wp0 wp1 : List Weighting}
    {dst : Planes} {m : Component} {sel : ComponentSelect} (hlen : src1.length = src0.length)
    (hshared : SharesShift wp0 wp1) :
    addWeightBi src1 src0 clip wp1 wp0 dst m sel =
      addWeightBi src0 src1 clip wp0 wp1 dst m sel := by
  unfold addWeightBi
  rw [hlen]
  refine bind_congr fun range => ?_
  congr 1
  -- One component: the same weighting pair, the same planes, the same block.
  funext out k
  dsimp only
  rw [weightPair_swap, bind_map_left]
  refine bind_congr_of_ok fun ⟨b0, b1⟩ hpair => ?_
  obtain ⟨hsh, hoff⟩ : b1.shift = b0.shift ∧ b1.offset = b0.offset := by
    unfold weightPair at hpair
    split at hpair
    · cases hpair
      exact hshared k _ _ ‹_› ‹_›
    · cases hpair
  dsimp only
  rw [planeOf_bind_comm]
  refine bind_congr fun a => bind_congr fun b => bind_congr fun d => ?_
  rw [Bool.and_comm, Prod.swap_prod_mk, weightBi_swap _ _ _ _ hsh hoff]

/-! ## What a derivation pairs -/

theorem exists_of_mem_mapM {α β ε : Type} {f : α → Except ε β} {l : List α} {r : List β}
    (h : l.mapM f = .ok r) {b : β} (hb : b ∈ r) : ∃ a ∈ l, f a = .ok b := by
  have hall := mapM_eq_ok_iff.mp h
  clear h
  induction hall with
  | nil => cases hb
  | @cons a b' l r hab _ ih =>
    rcases List.mem_cons.mp hb with rfl | hb
    · exact ⟨a, List.mem_cons_self, hab⟩
    · obtain ⟨a', ha', hf⟩ := ih hb
      exact ⟨a', List.mem_cons_of_mem a ha', hf⟩

theorem biPair_shares {s : SliceWeights} {c : Component} {p0 p1 : ScalingParam}
    {pr : Weighting × Weighting} (h : biPair s c p0 p1 = .ok pr) :
    pr.2.shift = pr.1.shift ∧ pr.2.offset = pr.1.offset := by
  unfold biPair at h
  obtain ⟨o0, -, h⟩ := bind_eq_ok.mp h
  obtain ⟨o1, -, h⟩ := bind_eq_ok.mp h
  obtain ⟨offset, -, h⟩ := bind_eq_ok.mp h
  obtain ⟨shift, -, h⟩ := bind_eq_ok.mp h
  obtain ⟨round, -, h⟩ := bind_eq_ok.mp h
  obtain rfl := (Except.ok.inj h).symm
  exact ⟨rfl, rfl⟩

theorem biWeightings_shares {s : SliceWeights} {w0 w1 : RefWeights} {m : Component}
    {pairs : List (Weighting × Weighting)} (h : biWeightings s w0 w1 m = .ok pairs) :
    SharesShift (pairs.map Prod.fst) (pairs.map Prod.snd) := by
  intro k b0 b1 h0 h1
  rw [List.getElem?_map] at h0 h1
  obtain ⟨pr, hk, rfl⟩ := Option.map_eq_some_iff.mp h0
  rw [hk, Option.map_some, Option.some.injEq] at h1
  subst h1
  obtain ⟨c, -, hc⟩ := exists_of_mem_mapM h (List.mem_of_getElem? hk)
  exact biPair_shares (liftM_eq_ok.mp hc)

theorem deriveWeighting_shares {s : SliceWeights} {i j : Int} {m : Component}
    {r : Option (List Weighting) × Option (List Weighting)} (h : deriveWeighting i j s m = .ok r) :
    SharesShift (r.1.getD []) (r.2.getD []) := by
  by_cases hi : 0 ≤ i <;> by_cases hj : 0 ≤ j
  · cases hbi : s.wpBiPred
    · rw [deriveWeighting_of_disabled hbi hi hj] at h
      cases h
    · rw [deriveWeighting_of_both hbi hi hj] at h
      obtain ⟨w0, -, h⟩ := bind_eq_ok.mp h
      obtain ⟨w1, -, h⟩ := bind_eq_ok.mp h
      obtain ⟨pairs, hpairs, h⟩ := bind_eq_ok.mp h
      obtain rfl := (Except.ok.inj h).symm
      exact biWeightings_shares hpairs
  · rw [deriveWeighting_of_l0 hi (by omega)] at h
    obtain ⟨w, -, h⟩ := bind_eq_ok.mp h
    obtain ⟨ws, -, h⟩ := bind_eq_ok.mp h
    obtain rfl := (Except.ok.inj h).symm
    exact sharesShift_nil_right _
  · rw [deriveWeighting_of_l1 (by omega) hj] at h
    obtain ⟨w, -, h⟩ := bind_eq_ok.mp h
    obtain ⟨ws, -, h⟩ := bind_eq_ok.mp h
    obtain rfl := (Except.ok.inj h).symm
    exact sharesShift_nil_left _
  · rw [deriveWeighting_of_unused (by omega) (by omega)] at h
    cases h

/-! ## Symmetry -/

/-- Bi-prediction is symmetric in its references: exchanging them, and the two sources of
one plane count, gives the same planes, refusal or overflow. -/
theorem bi_weighting_is_symmetric (s s' : SliceWeights) (i j : Nat) (hx : s.Exchanged s' i j)
    (p q : RefWeights) (hp : s.get? .l0 i = some p) (hq : s.get? .l1 j = some q)
    (hden : ∀ c, (q.get c).log2Denom = (p.get c).log2Denom) (A B : Planes)
    (hAB : B.length = A.length) (clip : ClipSet) (dst : Planes) (dm m : Component)
    (sel : ComponentSelect) :
    deriveWeighting j i s' dm = Prod.swap <$> deriveWeighting i j s dm ∧
    (deriveWeighting i j s dm >>= fun r =>
        addWeightBi A B clip (r.1.getD []) (r.2.getD []) dst m sel) =
      (deriveWeighting j i s' dm >>= fun r =>
        addWeightBi B A clip (r.1.getD []) (r.2.getD []) dst m sel) := by
  have hswap := deriveWeighting_exchange hx hp hq hden dm
  refine ⟨hswap, ?_⟩
  rw [hswap, bind_map_left]
  exact bind_congr_of_ok fun r hr => (addWeightBi_swap hAB (deriveWeighting_shares hr)).symm

theorem bi_weighting_is_symmetric_on_exchanged :
    SliceWeights.Exchanged
      ⟨[.uniform (.coded 3 5 2)], [.uniform (.coded 4 (-2) 2)], .yuv420, 8, 8, true, false⟩
      ⟨[.uniform (.coded 4 (-2) 2)], [.uniform (.coded 3 5 2)], .yuv420, 8, 8, true, false⟩
      0 0 ∧
    deriveWeighting 0 0
        ⟨[.uniform (.coded 4 (-2) 2)], [.uniform (.coded 3 5 2)], .yuv420, 8, 8, true, false⟩ .cr =
      Prod.swap <$> deriveWeighting 0 0
        ⟨[.uniform (.coded 3 5 2)], [.uniform (.coded 4 (-2) 2)], .yuv420, 8, 8, true, false⟩ .cr ∧
    (deriveWeighting 0 0
        ⟨[.uniform (.coded 3 5 2)], [.uniform (.coded 4 (-2) 2)], .yuv420, 8, 8, true, false⟩ .cr
        >>= fun r => addWeightBi ⟨[⟨#[100], 1, 1, 1⟩]⟩ ⟨[⟨#[-300], 1, 1, 1⟩]⟩
          ⟨fun _ => ClipRange.eightBit, false, false⟩ (r.1.getD []) (r.2.getD [])
          ⟨[⟨#[0], 1, 1, 1⟩]⟩ .cr ⟨false, false⟩) =
      (deriveWeighting 0 0
        ⟨[.uniform (.coded 4 (-2) 2)], [.uniform (.coded 3 5 2)], .yuv420, 8, 8, true, false⟩ .cr
        >>= fun r => addWeightBi ⟨[⟨#[-300], 1, 1, 1⟩]⟩ ⟨[⟨#[100], 1, 1, 1⟩]⟩
          ⟨fun _ => ClipRange.eightBit, false, false⟩ (r.1.getD []) (r.2.getD [])
          ⟨[⟨#[0], 1, 1, 1⟩]⟩ .cr ⟨false, false⟩) := by
  have hx : SliceWeights.Exchanged
      ⟨[.uniform (.coded 3 5 2)], [.uniform (.coded 4 (-2) 2)], .yuv420, 8, 8, true, false⟩
      ⟨[.uniform (.coded 4 (-2) 2)], [.uniform (.coded 3 5 2)], .yuv420, 8, 8, true, false⟩
      0 0 := ⟨rfl, rfl, rfl, rfl, rfl, rfl, rfl⟩
  exact ⟨hx, bi_weighting_is_symmetric _ _ 0 0 hx _ _ rfl rfl (fun c => by cases c <;> rfl)
    ⟨[⟨#[100], 1, 1, 1⟩]⟩ ⟨[⟨#[-300], 1, 1, 1⟩]⟩ rfl _ _ .cr .cr ⟨false, false⟩⟩

/-- With sources of two planes and of one the exchange is not symmetric: the call visits the
planes of its first source. -/
theorem bi_weighting_asymmetric_in_plane_count :
    SliceWeights.Exchanged
      ⟨[.uniform (.coded 1 0 0)], [.uniform (.coded 1 0 0)], .yuv420, 8, 8, true, false⟩
      ⟨[.uniform (.coded 1 0 0)], [.uniform (.coded 1 0 0)], .yuv420, 8, 8, true, false⟩ 0 0 ∧
    (deriveWeighting 0 0
        ⟨[.uniform (.coded 1 0 0)], [.uniform (.coded 1 0 0)], .yuv420, 8, 8, true, false⟩ .cr
        >>= fun r => addWeightBi ⟨[⟨#[0], 1, 1, 1⟩, ⟨#[0], 1, 1, 1⟩]⟩ ⟨[⟨#[0], 1, 1, 1⟩]⟩
          ⟨fun _ => ClipRange.eightBit, false, false⟩ (r.1.getD []) (r.2.getD [])
          ⟨[⟨#[0], 1, 1, 1⟩, ⟨#[0], 1, 1, 1⟩]⟩ .cr ⟨false, false⟩) =
      reject (.dimensionMismatch .missingSource) ∧
    (deriveWeighting 0 0
        ⟨[.uniform (.coded 1 0 0)], [.uniform (.coded 1 0 0)], .yuv420, 8, 8, true, false⟩ .cr
        >>= fun r => addWeightBi ⟨[⟨#[0], 1, 1, 1⟩]⟩ ⟨[⟨#[0], 1, 1, 1⟩, ⟨#[0], 1, 1, 1⟩]⟩
          ⟨fun _ => ClipRange.eightBit, false, false⟩ (r.1.getD []) (r.2.getD [])
          ⟨[⟨#[0], 1, 1, 1⟩, ⟨#[0], 1, 1, 1⟩]⟩ .cr ⟨false, false⟩) =
      .ok ⟨[⟨#[128], 1, 1, 1⟩, ⟨#[0], 1, 1, 1⟩]⟩ :=
  ⟨⟨rfl, rfl, rfl, rfl, rfl, rfl, rfl⟩, rfl, rfl⟩

end Weighted

end InterPred
