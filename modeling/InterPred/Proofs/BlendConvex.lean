import Mathlib
import InterPred.Proofs.MaskCache
import InterPred.Proofs.Precision
import InterPred.Proofs.WeightKernels

/-!
# The geometric blend is a clipped convex combination

Before its shift a blend lies between the conversion sums of its two intermediates
(`blendSum_between`); the shift and the clip keep that order.
-/

namespace InterPred

theorem ClipRange.clip_mono (r : ClipRange) : Monotone r.clip := by
  intro a b h
  unfold ClipRange.clip
  omega

namespace Geo

/-! ## One sample -/

theorem toOutput_eq_ediv (clip : ClipRange) (v : Int) :
    clip.toOutput v =
      clip.clip ((8 * (v + internalOffset) + 2 ^ (clip.fracBits + 2)) /
        2 ^ (clip.fracBits + 3)) := by
  have hfb := Weighted.fracBits_ge_two clip
  obtain ⟨k, hk⟩ : ∃ k, clip.fracBits = k + 1 := ⟨clip.fracBits - 1, by omega⟩
  have hsum : 8 * (v + internalOffset) + (2 : Int) ^ (clip.fracBits + 2) =
      8 * (v + internalOffset + 2 ^ (clip.fracBits - 1)) := by
    rw [hk, Nat.add_sub_cancel]
    ring
  have hunit : (2 : Int) ^ (clip.fracBits + 3) = 8 * 2 ^ clip.fracBits := by ring
  rw [hsum, hunit, Int.mul_ediv_mul_of_pos _ _ (by norm_num)]
  unfold ClipRange.toOutput Interp.outputRound
  rw [pow2_cast, pow2_cast]
  rfl

theorem blendSample_eq (clip : ClipRange) (m a b : Int) :
    blendSample clip m a b = clip.clip ((m * a + (8 - m) * b + 2 ^ (clip.fracBits + 2) +
      8 * internalOffset) / 2 ^ (clip.fracBits + 3)) := by
  unfold blendSample
  dsimp only
  rw [pow2_cast, pow2_cast, show clip.fracBits + 3 - 1 = clip.fracBits + 2 by omega]
  congr 2
  ring

/-- Before its shift, a blend at a weight from 0 to 8 lies between the conversion sums of its two
intermediates: it is `m / 8` of the way from the one of `b` to the one of `a`. -/
theorem blendSum_between {m : Int} (hm0 : 0 ≤ m) (hm8 : m ≤ 8) (a b c : Int) :
    min (8 * (a + internalOffset) + c) (8 * (b + internalOffset) + c) ≤
        m * a + (8 - m) * b + c + 8 * internalOffset ∧
      m * a + (8 - m) * b + c + 8 * internalOffset ≤
        max (8 * (a + internalOffset) + c) (8 * (b + internalOffset) + c) := by
  have hb : m * a + (8 - m) * b + c + 8 * internalOffset =
      8 * (b + internalOffset) + c + m * (a - b) := by
    ring
  have ha : m * a + (8 - m) * b + c + 8 * internalOffset =
      8 * (a + internalOffset) + c + (8 - m) * (b - a) := by
    ring
  rcases le_total a b with hab | hab
  · have h1 : m * (a - b) ≤ 0 := mul_nonpos_of_nonneg_of_nonpos hm0 (by omega)
    have h2 : 0 ≤ (8 - m) * (b - a) := mul_nonneg (by omega) (by omega)
    constructor <;> omega
  · have h1 : 0 ≤ m * (a - b) := mul_nonneg hm0 (by omega)
    have h2 : (8 - m) * (b - a) ≤ 0 := mul_nonpos_of_nonneg_of_nonpos (by omega) (by omega)
    constructor <;> omega

theorem blendSample_between (clip : ClipRange) {m : Int} (hm0 : 0 ≤ m) (hm8 : m ≤ 8) (a b : Int) :
    min (clip.toOutput a) (clip.toOutput b) ≤ blendSample clip m a b ∧
      blendSample clip m a b ≤ max (clip.toOutput a) (clip.toOutput b) := by
  -- Shifting by a positive power and clipping keep order.
  have hmono : Monotone fun v : Int => clip.clip (v / 2 ^ (clip.fracBits + 3)) :=
    clip.clip_mono.comp fun _ _ h => Int.ediv_le_ediv (by positivity) h
  obtain ⟨hlo, hhi⟩ := blendSum_between hm0 hm8 a b (2 ^ (clip.fracBits + 2))
  rw [blendSample_eq, toOutput_eq_ediv, toOutput_eq_ediv, ← hmono.map_min, ← hmono.map_max]
  exact ⟨hmono hlo, hmono hhi⟩

theorem blendSample_zero (clip : ClipRange) (a b : Int) :
    blendSample clip 0 a b = clip.toOutput b := by
  rw [blendSample_eq, toOutput_eq_ediv]
  congr 2
  ring

theorem blendSample_self (clip : ClipRange) (m a : Int) :
    blendSample clip m a a = clip.toOutput a := by
  rw [blendSample_eq, toOutput_eq_ediv]
  congr 2
  ring

/-! ## The blend of a block -/

def coSitedWeight (p : Partition) (fmt : ChromaFormat) (comp : Component) (w h x y : Nat) : Int :=
  maskWeight p (w * pow2 (fmt.scaleX comp)) (h * pow2 (fmt.scaleY comp))
    (x * pow2 (fmt.scaleX comp)) (y * pow2 (fmt.scaleY comp))

theorem buildMask_getD_coSited (p : Partition) {w h sx sy x y : Nat} (hx : x < w) (hy : y < h) :
    (buildMask p (w * pow2 sx) (h * pow2 sy)).getD (y * (w * pow2 sx * pow2 sy) + x * pow2 sx) 0 =
      maskWeight p (w * pow2 sx) (h * pow2 sy) (x * pow2 sx) (y * pow2 sy) := by
  have hX : 0 < pow2 sx := Nat.two_pow_pos sx
  have hY : 0 < pow2 sy := Nat.two_pow_pos sy
  have hidx : y * (w * pow2 sx * pow2 sy) + x * pow2 sx =
      y * pow2 sy * (w * pow2 sx) + x * pow2 sx := by
    ring
  rw [Array.getD_eq_getD_getElem?, hidx,
    buildMask_getElem? p (Nat.mul_lt_mul_of_pos_right hx hX) (Nat.mul_lt_mul_of_pos_right hy hY)]
  rfl

theorem blend_eq_fill {p : Partition} {comp : Component} {fmt : ChromaFormat} {clip : ClipRange}
    {src0 src1 dst : Plane} (h0 : src0.width = dst.width ∧ src0.height = dst.height)
    (h1 : src1.width = dst.width ∧ src1.height = dst.height)
    (hw : dst.width * pow2 (fmt.scaleX comp) ∈ [8, 16, 32, 64])
    (hh : dst.height * pow2 (fmt.scaleY comp) ∈ [8, 16, 32, 64]) :
    blend p comp fmt clip src0 src1 dst = .ok (dst.fill fun x y =>
      blendSample clip ((buildMask p (dst.width * pow2 (fmt.scaleX comp))
          (dst.height * pow2 (fmt.scaleY comp))).getD
        (y * (dst.width * pow2 (fmt.scaleX comp) * pow2 (fmt.scaleY comp)) +
          x * pow2 (fmt.scaleX comp)) 0) (src0.get x y) (src1.get x y)) := by
  obtain ⟨wi, hwi⟩ := exists_sizeIndex? hw
  obtain ⟨hi, hhi⟩ := exists_sizeIndex? hh
  have hsize : (src0.sameSize dst && src1.sameSize dst) = true := by
    simp [Plane.sameSize, h0.1, h0.2, h1.1, h1.2]
  unfold blend
  dsimp only
  rw [if_pos hsize, mask_eq_buildMask hwi hhi]
  rfl

/-- At `(x, y)` the blend `q` holds the clipped mix of `src0` and `src1` at the co-sited mask
weight `m ≤ 8`, between the conversions of the two. -/
structure ConvexAt (p : Partition) (comp : Component) (fmt : ChromaFormat) (clip : ClipRange)
    (src0 src1 dst q : Plane) (x y : Nat) : Prop where
  mask_entry :
    (buildMask p (dst.width * pow2 (fmt.scaleX comp)) (dst.height * pow2 (fmt.scaleY comp)))[
        y * pow2 (fmt.scaleY comp) * (dst.width * pow2 (fmt.scaleX comp)) +
          x * pow2 (fmt.scaleX comp)]? =
      some (coSitedWeight p fmt comp dst.width dst.height x y)
  weight_nonneg : 0 ≤ coSitedWeight p fmt comp dst.width dst.height x y
  weight_le : coSitedWeight p fmt comp dst.width dst.height x y ≤ 8
  value : q.get x y = clip.clip ((coSitedWeight p fmt comp dst.width dst.height x y * src0.get x y +
    (8 - coSitedWeight p fmt comp dst.width dst.height x y) * src1.get x y +
    2 ^ (clip.fracBits + 2) + 8 * internalOffset) / 2 ^ (clip.fracBits + 3))
  above : min (clip.toOutput (src0.get x y)) (clip.toOutput (src1.get x y)) ≤ q.get x y
  below : q.get x y ≤ max (clip.toOutput (src0.get x y)) (clip.toOutput (src1.get x y))
  at_eight : coSitedWeight p fmt comp dst.width dst.height x y = 8 →
    q.get x y = clip.toOutput (src0.get x y)
  at_zero : coSitedWeight p fmt comp dst.width dst.height x y = 0 →
    q.get x y = clip.toOutput (src1.get x y)

/-- A blend over a luma block with mask sides succeeds and writes at every sample the clipped
convex combination at the co-sited weight, between the conversions of its two intermediates;
a block blended with itself is converted. -/
theorem blend_is_clipped_convex (p : Partition) (comp : Component) (fmt : ChromaFormat)
    (clip : ClipRange) (src0 src1 dst : Plane) (hd : dst.Valid)
    (h0 : src0.width = dst.width ∧ src0.height = dst.height)
    (h1 : src1.width = dst.width ∧ src1.height = dst.height)
    (hw : dst.width * pow2 (fmt.scaleX comp) ∈ [8, 16, 32, 64])
    (hh : dst.height * pow2 (fmt.scaleY comp) ∈ [8, 16, 32, 64]) :
    (∃ q, blend p comp fmt clip src0 src1 dst = .ok q ∧
      ∀ x < dst.width, ∀ y < dst.height, ConvexAt p comp fmt clip src0 src1 dst q x y) ∧
    blend p comp fmt clip src0 src0 dst =
      .ok (dst.fill fun x y => clip.toOutput (src0.get x y)) := by
  refine ⟨⟨_, blend_eq_fill h0 h1 hw hh, fun x hx y hy => ?_⟩, ?_⟩
  · have hX : 0 < pow2 (fmt.scaleX comp) := Nat.two_pow_pos _
    have hY : 0 < pow2 (fmt.scaleY comp) := Nat.two_pow_pos _
    obtain ⟨hm0, hm8⟩ := maskWeight_mem p (dst.width * pow2 (fmt.scaleX comp))
      (dst.height * pow2 (fmt.scaleY comp)) (x * pow2 (fmt.scaleX comp))
      (y * pow2 (fmt.scaleY comp))
    refine ⟨buildMask_getElem? p (Nat.mul_lt_mul_of_pos_right hx hX)
      (Nat.mul_lt_mul_of_pos_right hy hY), hm0, hm8, ?_, ?_, ?_, fun h8 => ?_, fun h0' => ?_⟩
    -- Each remaining field reads the filled sample: the blend at the co-sited weight.
    all_goals rw [Plane.get_fill_of_valid hd _ hx hy, buildMask_getD_coSited p hx hy]
    · exact blendSample_eq _ _ _ _
    · exact (blendSample_between clip hm0 hm8 _ _).1
    · exact (blendSample_between clip hm0 hm8 _ _).2
    · rw [coSitedWeight] at h8
      rw [h8, Interp.blendSample_eight]
    · rw [coSitedWeight] at h0'
      rw [h0', blendSample_zero]
  · rw [blend_eq_fill h0 h0 hw hh]
    congr 1
    exact Plane.fill_congr dst fun x _ y _ => blendSample_self clip _ _

theorem blend_is_clipped_convex_on_chroma :
    (⟨Array.replicate 16 0, 4, 4, 4⟩ : Plane).Valid ∧
      ((⟨Array.replicate 16 100, 4, 4, 4⟩ : Plane).width = 4 ∧
        (⟨Array.replicate 16 100, 4, 4, 4⟩ : Plane).height = 4) ∧
      ((⟨Array.replicate 16 (-100), 4, 4, 4⟩ : Plane).width = 4 ∧
        (⟨Array.replicate 16 (-100), 4, 4, 4⟩ : Plane).height = 4) ∧
      4 * pow2 (ChromaFormat.yuv420.scaleX .cb) ∈ [8, 16, 32, 64] ∧
      4 * pow2 (ChromaFormat.yuv420.scaleY .cb) ∈ [8, 16, 32, 64] ∧
      (∃ q, blend ⟨0, 1, by decide⟩ .cb .yuv420 ClipRange.eightBit ⟨Array.replicate 16 100, 4, 4, 4⟩
          ⟨Array.replicate 16 (-100), 4, 4, 4⟩ ⟨Array.replicate 16 0, 4, 4, 4⟩ = .ok q ∧
        ∀ x < 4, ∀ y < 4, ConvexAt ⟨0, 1, by decide⟩ .cb .yuv420 ClipRange.eightBit
          ⟨Array.replicate 16 100, 4, 4, 4⟩ ⟨Array.replicate 16 (-100), 4, 4, 4⟩
          ⟨Array.replicate 16 0, 4, 4, 4⟩ q x y) ∧
      blend ⟨0, 1, by decide⟩ .cb .yuv420 ClipRange.eightBit ⟨Array.replicate 16 100, 4, 4, 4⟩
          ⟨Array.replicate 16 100, 4, 4, 4⟩ ⟨Array.replicate 16 0, 4, 4, 4⟩ =
        .ok ((⟨Array.replicate 16 0, 4, 4, 4⟩ : Plane).fill fun x y =>
          ClipRange.eightBit.toOutput ((⟨Array.replicate 16 100, 4, 4, 4⟩ : Plane).get x y)) :=
  have hd : (⟨Array.replicate 16 0, 4, 4, 4⟩ : Plane).Valid := ⟨by decide, by decide, by decide⟩
  ⟨hd, ⟨rfl, rfl⟩, ⟨rfl, rfl⟩, by decide, by decide,
    blend_is_clipped_convex ⟨0, 1, by decide⟩ .cb .yuv420 ClipRange.eightBit
      ⟨Array.replicate 16 100, 4, 4, 4⟩ ⟨Array.replicate 16 (-100), 4, 4, 4⟩
      ⟨Array.replicate 16 0, 4, 4, 4⟩ hd ⟨rfl, rfl⟩ ⟨rfl, rfl⟩ (by decide) (by decide)⟩

end Geo

end InterPred
