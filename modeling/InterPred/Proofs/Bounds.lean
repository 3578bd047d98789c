import Mathlib
import InterPred.Proofs.NoPanic
import InterPred.Proofs.Words

/-!
# Kernels stay inside their buffers

Every pass and copy that succeeds runs a kernel that fits (`KernelFits`), and the blend reads
its mask inside the mask.
-/

namespace InterPred

namespace Interp

/-- The length checks a kernel asserts before it reads `n` samples `step` apart per output
from `start` of `src` and writes the block of `dst`. -/
structure KernelFits (src : Array Int) (start stride step n : Nat) (dst : Plane) : Prop where
  src_len : start + ((dst.height - 1) * stride + dst.width + (n - 1) * step) ≤ src.size
  dst_len : (dst.height - 1) * dst.stride + dst.width ≤ dst.data.size

namespace KernelFits

variable {src : Array Int} {start stride step n : Nat} {dst : Plane}
  (h : KernelFits src start stride step n dst)
include h

theorem read_lt {x y k : Nat} (hx : x < dst.width) (hy : y < dst.height) (hk : k < n) :
    start + y * stride + x + k * step < src.size := by
  have e1 : y * stride ≤ (dst.height - 1) * stride := Nat.mul_le_mul_right _ (by omega)
  have e2 : k * step ≤ (n - 1) * step := Nat.mul_le_mul_right _ (by omega)
  have := h.src_len
  omega

theorem write_lt {x y : Nat} (hx : x < dst.width) (hy : y < dst.height) :
    dst.index x y < dst.data.size := by
  have e : y * dst.stride ≤ (dst.height - 1) * dst.stride := Nat.mul_le_mul_right _ (by omega)
  have := h.dst_len
  unfold Plane.index
  omega

end KernelFits

/-! ## Passes and copies -/

variable {family : TapFamily} {first last : Bool} {clip : ClipRange} {src : Window} {dst : Plane}
  {taps : List Int} {r : Plane × List ReadRegion}

theorem pass_kernelFits {dir : Direction} (hd : dst.Valid) (hN : 0 < taps.length)
    (h : pass dir family first last clip src dst taps = .ok r) :
    ∃ start, r.1 = filterPass family dir first last clip src.data start src.stride dst taps ∧
      KernelFits src.data start src.stride (tapStep dir src.stride) taps.length dst := by
  unfold pass at h
  cases dir with
  | horizontal =>
    simp only [bind_eq_ok, liftM_eq_ok, Size.add_ok_iff, pure, Except.pure, Except.ok.injEq] at h
    obtain ⟨_, ⟨-, rfl⟩, _, rfl, start, hs, rfl⟩ := h
    dsimp only at hs
    obtain ⟨-, -, ⟨-, -, -, hlen⟩, rfl⟩ := Window.support_eq_ok_iff.mp hs
    refine ⟨_, rfl, ?_, hd.2.2⟩
    simp only [tapStep]
    omega
  | vertical =>
    simp only [bind_eq_ok, liftM_eq_ok, Size.add_ok_iff, pure, Except.pure, Except.ok.injEq] at h
    obtain ⟨_, ⟨-, rfl⟩, _, rfl, start, hs, rfl⟩ := h
    dsimp only at hs
    obtain ⟨-, -, ⟨-, -, -, hlen⟩, rfl⟩ := Window.support_eq_ok_iff.mp hs
    refine ⟨_, rfl, ?_, hd.2.2⟩
    -- The taps run `n - 1` rows past the block's last row.
    have : (dst.height + taps.length - 1 - 1) * src.stride =
        (dst.height - 1) * src.stride + (taps.length - 1) * src.stride := by
      rw [← Nat.add_mul]
      congr 1
      have := hd.2.1
      omega
    simp only [tapStep]
    omega

theorem copy_kernelFits {refine : Bool} (hd : dst.Valid)
    (h : copy clip src dst first last refine = .ok r) :
    ∃ start, r.1 = copyPass first last refine clip src.data start src.stride dst ∧
      KernelFits src.data start src.stride 0 1 dst := by
  unfold copy at h
  simp only [bind_eq_ok, pure, Except.pure, Except.ok.injEq] at h
  obtain ⟨start, hs, rfl⟩ := h
  obtain ⟨-, -, ⟨-, -, -, hlen⟩, rfl⟩ := Window.support_eq_ok_iff.mp hs
  refine ⟨_, rfl, ?_, hd.2.2⟩
  omega

theorem separable_kernelsFit {tapsX tapsY : List Int} {tmp : Array Int} {o : Outcome}
    (hd : dst.Valid) (hN : 0 < tapsY.length) (hX : tapsX.length = tapsY.length)
    (h : separable family clip src dst tapsX tapsY last tmp = .ok o) :
    ∃ needed above, needed = dst.width * (dst.height + tapsY.length - 1) ∧
      needed ≤ tmp.size ∧ src.shiftedUp (tapsY.length / 2 - 1) = .ok above ∧
      (∃ start, KernelFits above.data start above.stride 1 tapsX.length
        ⟨tmp.extract 0 needed, dst.width, dst.width, dst.height + tapsY.length - 1⟩) ∧
      ∃ start, KernelFits (o.tmp.extract 0 needed) start dst.width dst.width tapsY.length dst := by
  rw [separable_eq, bind_eq_ok] at h
  obtain ⟨⟨mid, reads, window, needed⟩, hfront, hv⟩ := h
  obtain ⟨rfl, -, hroom, -, hwN, -, -, above, start, hup, hs, rfl, rfl, rfl⟩ :=
    separableFront_eq_ok_iff.mp hfront
  simp only [bind_eq_ok, pure, Except.pure, Except.ok.injEq] at hv
  obtain ⟨r, hp, rfl⟩ := hv
  obtain ⟨hsum, -, -, -⟩ := pass_vertical_eq_ok_iff.mp hp
  have hrows : scratchRows dst tapsY.length = dst.height + tapsY.length - 1 := by
    rw [scratchRows_eq hsum]
    omega
  rw [hrows] at hroom hs hp ⊢
  have hh := hd.2.1
  -- The scratch block is a valid plane of `height + n - 1` rows of `width` samples.
  have e := pred_mul_add (w := dst.width) (by omega : 0 < dst.height + tapsY.length - 1)
  have hmid : (⟨tmp.extract 0 (dst.width * (dst.height + tapsY.length - 1)), dst.width, dst.width,
      dst.height + tapsY.length - 1⟩ : Plane).Valid := by
    refine ⟨le_refl _, show 0 < dst.height + tapsY.length - 1 by omega, ?_⟩
    show (dst.height + tapsY.length - 1 - 1) * dst.width + dst.width ≤
      (tmp.extract 0 (dst.width * (dst.height + tapsY.length - 1))).size
    rw [Array.size_extract]
    omega
  have hpX : pass .horizontal family true false clip above ⟨tmp.extract 0
      (dst.width * (dst.height + tapsY.length - 1)), dst.width, dst.width,
      dst.height + tapsY.length - 1⟩ tapsX = .ok _ :=
    pass_horizontal_eq_ok_iff.mpr ⟨hwN, start, hs, rfl⟩
  obtain ⟨startX, -, hfitX⟩ := pass_kernelFits hmid (by omega) hpX
  obtain ⟨startY, -, hfitY⟩ := pass_kernelFits hd hN hp
  refine ⟨_, above, rfl, hroom, hup, ⟨startX, hfitX⟩, startY, ?_⟩
  -- The vertical pass reads back the scratch samples the horizontal pass wrote.
  generalize hm : (Plane.fill _ _).data = m at hfitY ⊢
  have hsize : m.size = dst.width * (dst.height + tapsY.length - 1) := by
    rw [← hm, Plane.size_fill, Array.size_extract]
    omega
  rw [← hsize, Array.extract_append_left, Array.extract_size]
  exact hfitY

/-! ## What the engine asserts -/

theorem filterAxis_refine_not_last {dir : Direction} {c : Component} {v : FilterVariant}
    {frac : Nat} (h : filterAxis dir c v clip src dst frac first last = .ok r)
    (hF : v.family c.isLuma = .twoRefine) : last = false := by
  unfold filterAxis at h
  obtain ⟨_, hc, -⟩ := bind_eq_ok.mp h
  exact last_eq_false_of_checkLast hc hF

theorem filter2d_refine_not_last {c : Component} {v : FilterVariant} {fracX fracY : Nat}
    {tmp : Array Int} {o : Outcome} (h : filter2d c v clip src dst fracX fracY last tmp = .ok o)
    (hF : v.family c.isLuma = .twoRefine) : last = false := by
  unfold filter2d at h
  obtain ⟨_, hc, -⟩ := bind_eq_ok.mp h
  exact last_eq_false_of_checkLast hc hF

end Interp

/-! ## The geometric blend -/

namespace Geo

theorem sizeIndex?_lt {s i : Nat} (h : sizeIndex? s = some i) : i < 4 := by
  unfold sizeIndex? at h
  obtain ⟨hi, -⟩ := List.idxOf?_eq_some_iff.mp h
  simpa using hi

theorem mask_eq_ok {p : Partition} {w h : Nat} {m : Array Int} (hm : mask p w h = .ok m) :
    (∃ wi hi, sizeIndex? w = some wi ∧ sizeIndex? h = some hi) ∧ m.size = w * h := by
  unfold mask at hm
  split at hm
  · simp only [Except.ok.injEq] at hm
    subst hm
    refine ⟨⟨_, _, ‹_›, ‹_›⟩, ?_⟩
    simp [List.length_flatMap, Nat.mul_comm]
  · cases hm

theorem Partition.bounds (p : Partition) : p.angle < 32 ∧ p.distance < 4 := by
  have h := p.valid
  unfold partitionValid at h
  simp only [Bool.and_eq_true, decide_eq_true_eq] at h
  exact ⟨h.1.1.1.1, h.1.1.1.2⟩

theorem maskSlot_lt (p : Partition) {w h wi hi : Nat} (hw : sizeIndex? w = some wi)
    (hh : sizeIndex? h = some hi) : maskSlot p wi hi < 2048 := by
  have := p.bounds
  have := sizeIndex?_lt hw
  have := sizeIndex?_lt hh
  unfold maskSlot
  omega

theorem mask_index_lt {w h sx sy x y : Nat} (hx : x < w) (hy : y < h) :
    y * (w * pow2 sx * pow2 sy) + x * pow2 sx < w * pow2 sx * (h * pow2 sy) := by
  have hX : 0 < pow2 sx := Nat.two_pow_pos sx
  have hY : 0 < pow2 sy := Nat.two_pow_pos sy
  have e1 : x * pow2 sx < w * pow2 sx := Nat.mul_lt_mul_of_pos_right hx hX
  have e2 : w * pow2 sx ≤ w * pow2 sx * pow2 sy := Nat.le_mul_of_pos_right _ hY
  have e3 : (y + 1) * (w * pow2 sx * pow2 sy) ≤ h * (w * pow2 sx * pow2 sy) :=
    Nat.mul_le_mul_right _ hy
  have e4 : w * pow2 sx * (h * pow2 sy) = h * (w * pow2 sx * pow2 sy) := by ring
  rw [e4]
  rw [Nat.add_mul, Nat.one_mul] at e3
  omega

theorem blend_reads_lt {p : Partition} {comp : Component} {fmt : ChromaFormat} {clip : ClipRange}
    {src0 src1 dst q : Plane} (h0 : src0.Valid) (h1 : src1.Valid)
    (h : blend p comp fmt clip src0 src1 dst = .ok q) :
    ∃ m wi hi, mask p (dst.width * pow2 (fmt.scaleX comp)) (dst.height * pow2 (fmt.scaleY comp)) =
        .ok m ∧ sizeIndex? (dst.width * pow2 (fmt.scaleX comp)) = some wi ∧
      sizeIndex? (dst.height * pow2 (fmt.scaleY comp)) = some hi ∧ maskSlot p wi hi < 2048 ∧
      ∀ x < dst.width, ∀ y < dst.height,
        y * (dst.width * pow2 (fmt.scaleX comp) * pow2 (fmt.scaleY comp)) +
            x * pow2 (fmt.scaleX comp) < m.size ∧
          src0.index x y < src0.data.size ∧ src1.index x y < src1.data.size := by
  unfold blend at h
  simp only [reject_bind] at h
  split at h
  · rename_i hsame
    simp only [Bool.and_eq_true, Plane.sameSize, beq_iff_eq] at hsame
    obtain ⟨⟨hw0, hh0⟩, hw1, hh1⟩ := hsame
    obtain ⟨m, hm, -⟩ := bind_eq_ok.mp h
    obtain ⟨⟨wi, hi, hwi, hhi⟩, hsize⟩ := mask_eq_ok (liftM_reject_eq_ok.mp hm)
    refine ⟨m, wi, hi, liftM_reject_eq_ok.mp hm, hwi, hhi, maskSlot_lt p hwi hhi,
      fun x hx y hy => ⟨?_, h0.index_lt (hw0 ▸ hx) (hh0 ▸ hy), h1.index_lt (hw1 ▸ hx) (hh1 ▸ hy)⟩⟩
    rw [hsize]
    exact mask_index_lt hx hy
  · cases h

end Geo

/-! ## Interpolation and blending are safe -/

open Word

/-- Interpolation never overflows, every kernel it runs fits its buffers, the engine's
assertions hold, and every value a kernel forms is a 32-bit value. -/
structure Interp.Safe (c : Component) (v : FilterVariant) (clip : ClipRange) (src : Window)
    (dst : Plane) (tmp : Array Int) : Prop where
  axis_noPanic : ∀ dir frac first last, NoPanic (Interp.filterAxis dir c v clip src dst frac first last)
  twoD_noPanic : ∀ fracX fracY last, NoPanic (Interp.filter2d c v clip src dst fracX fracY last tmp)
  pass_fits : ∀ dir family first last taps r, 0 < taps.length →
    Interp.pass dir family first last clip src dst taps = .ok r →
    ∃ start, r.1 = Interp.filterPass family dir first last clip src.data start src.stride dst taps ∧
      Interp.KernelFits src.data start src.stride (Interp.tapStep dir src.stride) taps.length dst
  copy_fits : ∀ first last refine r, Interp.copy clip src dst first last refine = .ok r →
    ∃ start, r.1 = Interp.copyPass first last refine clip src.data start src.stride dst ∧
      Interp.KernelFits src.data start src.stride 0 1 dst
  scratch_fits : ∀ family tapsX tapsY last o, 0 < tapsY.length → tapsX.length = tapsY.length →
    Interp.separable family clip src dst tapsX tapsY last tmp = .ok o →
    ∃ needed above, needed = dst.width * (dst.height + tapsY.length - 1) ∧ needed ≤ tmp.size ∧
      src.shiftedUp (tapsY.length / 2 - 1) = .ok above ∧
      (∃ start, Interp.KernelFits above.data start above.stride 1 tapsX.length
        ⟨tmp.extract 0 needed, dst.width, dst.width, dst.height + tapsY.length - 1⟩) ∧
      ∃ start, Interp.KernelFits (o.tmp.extract 0 needed) start dst.width dst.width tapsY.length dst
  taps_length : ∀ frac taps, Taps.select v c frac = .ok taps →
    taps.length = (v.family c.isLuma).taps
  axis_refine_not_last : ∀ dir frac first last r,
    Interp.filterAxis dir c v clip src dst frac first last = .ok r →
    v.family c.isLuma = .twoRefine → last = false
  twoD_refine_not_last : ∀ fracX fracY last o,
    Interp.filter2d c v clip src dst fracX fracY last tmp = .ok o →
    v.family c.isLuma = .twoRefine → last = false
  filter_words : ∀ frac taps (f : Nat → Int) first last, Taps.select v c frac = .ok taps →
    (∀ k, int16.Holds (f k)) →
    Interp.Words32 (Interp.coeffs (v.family c.isLuma) taps) f
        (Interp.filterRounding clip.bitDepth first last) ∧
      Interp.Words32 (Interp.coeffs (v.family c.isLuma) taps) f
        (Interp.refineRounding clip.bitDepth first)
  copy_words : ∀ s, int16.Holds s →
    int32.Holds (s * pow2 clip.fracBits) ∧ int32.Holds (s * pow2 clip.fracBits - internalOffset) ∧
      int32.Holds (s + internalOffset) ∧
      int32.Holds (s + internalOffset + pow2 (clip.fracBits - 1)) ∧
      int32.Holds (s + pow2 (clip.bitDepth - 11)) ∧
      int32.Holds (s * pow2 (refinePrecision - clip.bitDepth))

/-- The blend never overflows, reads its weights inside one of `2048` mask slots, stays inside
its buffers and forms 32-bit values. -/
structure Geo.BlendSafe (p : Geo.Partition) (comp : Component) (fmt : ChromaFormat)
    (clip : ClipRange) (src0 src1 dst : Plane) : Prop where
  noPanic : NoPanic (Geo.blend p comp fmt clip src0 src1 dst)
  reads : ∀ q, Geo.blend p comp fmt clip src0 src1 dst = .ok q →
    ∃ m wi hi, Geo.mask p (dst.width * pow2 (fmt.scaleX comp))
        (dst.height * pow2 (fmt.scaleY comp)) = .ok m ∧
      Geo.sizeIndex? (dst.width * pow2 (fmt.scaleX comp)) = some wi ∧
      Geo.sizeIndex? (dst.height * pow2 (fmt.scaleY comp)) = some hi ∧
      Geo.maskSlot p wi hi < 2048 ∧ (∀ i, 0 ≤ m.getD i 0 ∧ m.getD i 0 ≤ 8) ∧
      ∀ x < dst.width, ∀ y < dst.height,
        y * (dst.width * pow2 (fmt.scaleX comp) * pow2 (fmt.scaleY comp)) +
            x * pow2 (fmt.scaleX comp) < m.size ∧
          src0.index x y < src0.data.size ∧ src1.index x y < src1.data.size
  writes : ∀ x < dst.width, ∀ y < dst.height, dst.index x y < dst.data.size
  words : ∀ m a b : Int, 0 ≤ m ∧ m ≤ 8 → int16.Holds a → int16.Holds b →
    int32.Holds (m * a) ∧ int32.Holds ((8 - m) * b) ∧
      int32.Holds (m * a + (8 - m) * b + ((pow2 (clip.fracBits + 3 - 1) : Int) + internalOffset * 8)) ∧
      clip.fracBits + 3 < 32

/-- Interpolation and the geometric blend never overflow and stay inside their buffers and
words, for sizes that fit in 64 bits counted from the window's origin. -/
theorem interpolation_and_blend_are_safe (c : Component) (v : FilterVariant) (clip : ClipRange)
    (src : Window) (dst : Plane) (tmp : Array Int) (part : Geo.Partition) (fmt : ChromaFormat)
    (src0 src1 : Plane) (hS : 0 < src.stride) (hw : 0 < dst.width) (hd : dst.Valid)
    (hfit : Interp.SizesFit src dst (v.family c.isLuma).taps) (h0 : src0.Valid)
    (h1 : src1.Valid) :
    Interp.Safe c v clip src dst tmp ∧ Geo.BlendSafe part c fmt clip src0 src1 dst := by
  refine ⟨⟨fun _ _ _ _ => Interp.filterAxis_noPanic hS hw hd.2.1 hfit,
    fun _ _ _ => Interp.filter2d_noPanic hS hw hd.2.1 hfit,
    fun _ _ _ _ _ _ hN h => Interp.pass_kernelFits hd hN h,
    fun _ _ _ _ h => Interp.copy_kernelFits hd h,
    fun _ _ _ _ _ hN hX h => Interp.separable_kernelsFit hd hN hX h,
    fun _ _ h => (Taps.select_admissible h).length_eq,
    fun _ _ _ _ _ h => Interp.filterAxis_refine_not_last h,
    fun _ _ _ _ h => Interp.filter2d_refine_not_last h,
    fun _ _ _ _ _ h hf => Interp.select_words32 h clip hf _ _,
    fun _ hs => Interp.copy_int32 clip hs⟩,
    ⟨Geo.blend_noPanic part c fmt clip src0 src1 dst, fun q hq => ?_,
    fun _ hx _ hy => hd.index_lt hx hy, fun _ _ _ hm ha hb => Geo.blendSample_int32 clip hm ha hb⟩⟩
  -- The weights come from the mask the blend found.
  obtain ⟨m, wi, hi, hm, hwi, hhi, hslot, hidx⟩ := Geo.blend_reads_lt h0 h1 hq
  exact ⟨m, wi, hi, hm, hwi, hhi, hslot, Geo.mask_getD_mem hm, hidx⟩

theorem interpolation_and_blend_are_safe_on_small :
    0 < (⟨Array.replicate 64 0, 8, 27⟩ : Window).stride ∧ 0 < (⟨#[0], 1, 1, 1⟩ : Plane).width ∧
      (⟨#[0], 1, 1, 1⟩ : Plane).Valid ∧
      Interp.SizesFit ⟨Array.replicate 64 0, 8, 27⟩ ⟨#[0], 1, 1, 1⟩
        (FilterVariant.standard.family Component.y.isLuma).taps ∧
      Interp.Safe .y .standard ClipRange.eightBit ⟨Array.replicate 64 0, 8, 27⟩ ⟨#[0], 1, 1, 1⟩
        (Array.replicate 8 0) ∧
      Geo.BlendSafe ⟨0, 1, by decide⟩ .y .yuv420 ClipRange.eightBit ⟨#[0], 1, 1, 1⟩
        ⟨#[0], 1, 1, 1⟩ ⟨#[0], 1, 1, 1⟩ := by
  have hv : (⟨#[0], 1, 1, 1⟩ : Plane).Valid := ⟨le_refl _, by decide, by decide⟩
  have hfit : Interp.SizesFit ⟨Array.replicate 64 0, 8, 27⟩ ⟨#[0], 1, 1, 1⟩
      (FilterVariant.standard.family Component.y.isLuma).taps := ⟨by decide, by decide⟩
  exact ⟨by decide, by decide, hv, hfit, interpolation_and_blend_are_safe .y .standard
    ClipRange.eightBit _ _ _ ⟨0, 1, by decide⟩ .yuv420 _ _ (by decide) (by decide) hv hfit hv hv⟩

/-- Counting the support from its first row and column is not enough: near stride `2 ^ 63`
the last sample of a refinement call's support is at `2 ^ 64`, and the call overflows. -/
theorem filterRefine_support_end_overflows :
    Window.new? #[0, 0, 0, 0] 9223372036854775806 3 =
        .ok ⟨#[0, 0, 0, 0], 9223372036854775806, 3⟩ ∧
      Plane.new? #[0, 0] 1 1 2 = .ok ⟨#[0, 0], 1, 1, 2⟩ ∧
      (2 + 2 - 2) * 9223372036854775806 + (1 + 2 - 1) < Size.bound ∧
      1 * (2 + 2 - 1) < Size.bound ∧
      Interp.filterRefine ClipRange.eightBit ⟨#[0, 0, 0, 0], 9223372036854775806, 3⟩
        ⟨#[0, 0], 1, 1, 2⟩ 0 8 (Array.replicate 3 0) = .error (.overflow .add) :=
  ⟨rfl, rfl, by decide, by decide, rfl⟩

end InterPred
