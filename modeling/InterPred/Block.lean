import InterPred.Error

/-!
# Planes and reference windows

A `Plane` is a block inside a buffer of samples, and `fill` is the only way samples are
written. A `Window` places a block in a reference plane; `support` finds the rectangle a filter
reads around it.
-/

namespace InterPred

/-- Samples a `width × height` block spans at row pitch `stride`:
`(height - 1) * stride + width`. -/
def planeExtent (stride width height : Nat) : Except Overflow Nat := do
  let rows ← Size.sub height 1
  let skip ← Size.mul rows stride
  Size.add skip width

/-! ## Writing into a buffer -/

section Writes

variable {α : Type} (step : Array Int → α → Array Int)

theorem foldl_size_eq :
    ∀ (l : List α) (d : Array Int), (∀ e, ∀ a ∈ l, (step e a).size = e.size) →
      (l.foldl step d).size = d.size := by
  intro l
  induction l with
  | nil => intro d _; rfl
  | cons a l ih =>
    intro d h
    rw [List.foldl_cons, ih _ (fun e b hb => h e b (List.mem_cons_of_mem a hb)),
      h d a List.mem_cons_self]

theorem foldl_getElem?_eq (k : Nat) :
    ∀ (l : List α) (d : Array Int), (∀ e, ∀ a ∈ l, (step e a)[k]? = e[k]?) →
      (l.foldl step d)[k]? = d[k]? := by
  intro l
  induction l with
  | nil => intro d _; rfl
  | cons a l ih =>
    intro d h
    rw [List.foldl_cons, ih _ (fun e b hb => h e b (List.mem_cons_of_mem a hb)),
      h d a List.mem_cons_self]

theorem foldl_getElem?_of_exists (touches : α → Prop) (k : Nat) (v : Int) :
    ∀ (l : List α) (d : Array Int),
      (∀ e, ∀ a ∈ l, (step e a).size = e.size) →
      (∀ e, ∀ a ∈ l, ¬touches a → (step e a)[k]? = e[k]?) →
      (∀ e, ∀ a ∈ l, touches a → k < e.size → (step e a)[k]? = some v) →
      (∃ a ∈ l, touches a) → k < d.size → (l.foldl step d)[k]? = some v := by
  intro l
  induction l with
  | nil => intro d _ _ _ h; simp at h
  | cons a l ih =>
    intro d hsize hkeep hwrite h hk
    have hsize' := fun e b hb => hsize e b (List.mem_cons_of_mem a hb)
    rw [List.foldl_cons]
    by_cases hl : ∃ b ∈ l, touches b
    · -- A later write touches `k` and decides it.
      refine ih _ hsize' (fun e b hb => hkeep e b (List.mem_cons_of_mem a hb))
        (fun e b hb => hwrite e b (List.mem_cons_of_mem a hb)) hl ?_
      rw [hsize d a List.mem_cons_self]
      exact hk
    · -- Only the first write touches `k`; the rest keep it.
      have ha : touches a := by
        obtain ⟨b, hb, hbt⟩ := h
        rcases List.mem_cons.mp hb with rfl | hb
        · exact hbt
        · exact absurd ⟨b, hb, hbt⟩ hl
      rw [foldl_getElem?_eq step k l _
        (fun e b hb => hkeep e b (List.mem_cons_of_mem a hb) (fun hbt => hl ⟨b, hb, hbt⟩))]
      exact hwrite d a List.mem_cons_self ha hk

theorem foldlM_eq_pure {ε β : Type} (f : β → α → Except ε β) (g : β → α → β) :
    ∀ (l : List α) (b : β), (∀ a ∈ l, ∀ b, f b a = pure (g b a)) →
      l.foldlM f b = pure (l.foldl g b) := by
  intro l
  induction l with
  | nil => intro b _; rfl
  | cons a l ih =>
    intro b h
    rw [List.foldlM_cons, List.foldl_cons, h a List.mem_cons_self b, pure_bind]
    exact ih _ fun a' ha' b' => h a' (List.mem_cons_of_mem a ha') b'

end Writes

/-! ## Planes -/

/-- A block of samples inside a buffer. -/
structure Plane where
  data : Array Int
  stride : Nat
  width : Nat
  height : Nat

namespace Plane

def new? (data : Array Int) (stride width height : Nat) : Except Fault Plane := do
  if stride < width then reject (.strideTooSmall stride width)
  let needed ← planeExtent stride width height
  if data.size < needed then reject (.bufferTooSmall needed data.size)
  pure ⟨data, stride, width, height⟩

def index (p : Plane) (x y : Nat) : Nat := y * p.stride + x

def get (p : Plane) (x y : Nat) : Int := p.data.getD (p.index x y) 0

def row (p : Plane) (y : Nat) : List Int := (List.range p.width).map fun x => p.get x y

def fill (p : Plane) (f : Nat → Nat → Int) : Plane :=
  { p with
    data := (List.range p.height).foldl
      (fun d y => (List.range p.width).foldl (fun d x => d.setIfInBounds (p.index x y) (f x y)) d)
      p.data }

/-- `fill` with a sample function that can stop; samples are computed row by row, left to
right, and the first failure is the result. -/
def fillM (p : Plane) (f : Nat → Nat → Except Overflow Int) : Except Overflow Plane := do
  let data ← (List.range p.height).foldlM
    (fun d y => (List.range p.width).foldlM
      (fun d x => do
        let v ← f x y
        pure (d.setIfInBounds (p.index x y) v)) d)
    p.data
  pure { p with data }

def sameSize (p q : Plane) : Bool := p.width == q.width && p.height == q.height

/-! ### What `fill` writes -/

theorem index_inj (p : Plane) {x y x' y' : Nat} (hx : x < p.stride) (hx' : x' < p.stride)
    (h : p.index x' y' = p.index x y) : x' = x ∧ y' = y := by
  have hs : 0 < p.stride := by omega
  have h1 := congrArg (· % p.stride) h
  have h2 := congrArg (· / p.stride) h
  simp only [index, Nat.mul_comm _ p.stride, Nat.mul_add_mod, Nat.mod_eq_of_lt hx,
    Nat.mod_eq_of_lt hx'] at h1
  simp only [index, Nat.mul_comm _ p.stride, Nat.mul_add_div hs, Nat.div_eq_of_lt hx,
    Nat.div_eq_of_lt hx'] at h2
  omega

@[simp] theorem stride_fill (p : Plane) (f : Nat → Nat → Int) : (p.fill f).stride = p.stride := rfl

@[simp] theorem width_fill (p : Plane) (f : Nat → Nat → Int) : (p.fill f).width = p.width := rfl

@[simp] theorem height_fill (p : Plane) (f : Nat → Nat → Int) : (p.fill f).height = p.height := rfl

theorem size_fillRow (p : Plane) (f : Nat → Nat → Int) (y : Nat) (d : Array Int) :
    ((List.range p.width).foldl (fun d x => d.setIfInBounds (p.index x y) (f x y)) d).size =
      d.size :=
  foldl_size_eq _ _ d fun _ _ _ => Array.size_setIfInBounds

theorem getElem?_fillRow (p : Plane) (f : Nat → Nat → Int) (y k : Nat) (d : Array Int)
    (hk : ∀ x < p.width, p.index x y ≠ k) :
    ((List.range p.width).foldl (fun d x => d.setIfInBounds (p.index x y) (f x y)) d)[k]? =
      d[k]? := by
  refine foldl_getElem?_eq _ k _ d fun e x hx => ?_
  simp [hk x (List.mem_range.mp hx)]

@[simp] theorem size_fill (p : Plane) (f : Nat → Nat → Int) :
    (p.fill f).data.size = p.data.size :=
  foldl_size_eq _ _ p.data fun e y _ => size_fillRow p f y e

theorem getElem?_fill_of_forall_ne (p : Plane) (f : Nat → Nat → Int) {k : Nat}
    (hk : ∀ x < p.width, ∀ y < p.height, p.index x y ≠ k) :
    (p.fill f).data[k]? = p.data[k]? :=
  foldl_getElem?_eq _ k _ p.data fun e y hy =>
    getElem?_fillRow p f y k e fun x hx => hk x hx y (List.mem_range.mp hy)

theorem getElem?_fill_index (p : Plane) (f : Nat → Nat → Int) (hs : p.width ≤ p.stride)
    {x y : Nat} (hx : x < p.width) (hy : y < p.height) (hin : p.index x y < p.data.size) :
    (p.fill f).data[p.index x y]? = some (f x y) := by
  refine foldl_getElem?_of_exists _ (fun y' => ∃ x' < p.width, p.index x' y' = p.index x y)
    (p.index x y) (f x y) _ p.data (fun e y' _ => size_fillRow p f y' e) ?_ ?_
    ⟨y, List.mem_range.mpr hy, x, hx, rfl⟩ hin
  · -- A row that misses the sample keeps it.
    intro e y' _ hno
    exact getElem?_fillRow p f y' _ e fun x' hx' heq => hno ⟨x', hx', heq⟩
  · -- The row that holds the sample writes it once.
    intro e y' _ ⟨x', hx', heq⟩ he
    refine foldl_getElem?_of_exists _ (fun x'' => p.index x'' y' = p.index x y) (p.index x y)
      (f x y) _ e (fun _ _ _ => Array.size_setIfInBounds) ?_ ?_
      ⟨x', List.mem_range.mpr hx', heq⟩ he
    · intro e' x'' _ hne
      simp [hne]
    · intro e' x'' hx'' heq' he'
      obtain ⟨rfl, rfl⟩ := p.index_inj (Nat.lt_of_lt_of_le hx hs)
        (Nat.lt_of_lt_of_le (List.mem_range.mp hx'') hs) heq'
      simp [he']

theorem get_fill (p : Plane) (f : Nat → Nat → Int) (hs : p.width ≤ p.stride)
    {x y : Nat} (hx : x < p.width) (hy : y < p.height) (hin : p.index x y < p.data.size) :
    (p.fill f).get x y = f x y := by
  show (p.fill f).data.getD (p.index x y) 0 = f x y
  rw [Array.getD_eq_getD_getElem?, getElem?_fill_index p f hs hx hy hin]
  rfl

theorem fillM_eq_pure (p : Plane) (f : Nat → Nat → Except Overflow Int) (g : Nat → Nat → Int)
    (h : ∀ x < p.width, ∀ y < p.height, f x y = pure (g x y)) :
    p.fillM f = pure (p.fill g) := by
  unfold fillM fill
  rw [foldlM_eq_pure _ _ _ _ fun y hy d => foldlM_eq_pure _ _ _ _ fun x hx d => by
    rw [h x (List.mem_range.mp hx) y (List.mem_range.mp hy), pure_bind]]
  rfl

theorem fillM_pure (p : Plane) (g : Nat → Nat → Int) :
    p.fillM (fun x y => pure (g x y)) = pure (p.fill g) :=
  p.fillM_eq_pure _ g fun _ _ _ _ => rfl

end Plane

/-! ## Reference windows -/

/-- A reference plane with a block anchored at `origin`. -/
structure Window where
  data : Array Int
  stride : Nat
  origin : Nat

namespace Window

def new? (data : Array Int) (stride origin : Nat) : Except Fault Window :=
  if stride = 0 then reject (.strideTooSmall 0 1)
  else if data.size ≤ origin then reject .supportOutOfBounds
  else pure ⟨data, stride, origin⟩

def at? (data : Array Int) (stride x y : Nat) : Except Fault Window := do
  if stride ≤ x then reject .supportOutOfBounds
  let skip ← Size.mul y stride
  let origin ← Size.add skip x
  new? data stride origin

def col (w : Window) : Nat := w.origin % w.stride

def row (w : Window) : Nat := w.origin / w.stride

def shiftedUp (w : Window) (rows : Nat) : Except Fault Window := do
  let back ← Size.mul rows w.stride
  if w.origin < back then reject .supportOutOfBounds
  pure { w with origin := w.origin - back }

/-- Index of the first sample of the `width × height` rectangle that starts `left` columns
and `above` rows before the origin, if the rectangle lies inside the plane. -/
def support (w : Window) (left above width height : Nat) : Except Fault Nat := do
  if w.col < left ∨ w.row < above then reject .supportOutOfBounds
  let right ← Size.add (w.col - left) width
  if w.stride < right then reject .supportOutOfBounds
  let start := (w.row - above) * w.stride + w.col - left
  let extent ← planeExtent w.stride width height
  let last ← Size.add start extent
  if w.data.size < last then reject .supportOutOfBounds
  pure start

def get (w : Window) (i : Nat) : Int := w.data.getD i 0

end Window

/-! ## The planes of a prediction unit -/

/-- Up to three planes, indexed by component. -/
structure Planes where
  planes : List Plane

namespace Planes

def ofList (l : List Plane) : Planes := ⟨l.take 3⟩

def length (u : Planes) : Nat := u.planes.length

def get? (u : Planes) (c : Component) : Option Plane := u.planes[c.index]?

def set (u : Planes) (c : Component) (p : Plane) : Planes := ⟨u.planes.set c.index p⟩

@[simp] theorem length_set (u : Planes) (c : Component) (p : Plane) :
    (u.set c p).length = u.length := by
  simp [set, length]

theorem get?_set_self (u : Planes) (c : Component) (p : Plane) (h : c.index < u.length) :
    (u.set c p).get? c = some p := by
  simp only [set, get?, length] at h ⊢
  exact List.getElem?_set_self h

theorem get?_set_of_ne (u : Planes) {c c' : Component} (p : Plane) (h : c ≠ c') :
    (u.set c p).get? c' = u.get? c' := by
  simp only [set, get?]
  rw [List.getElem?_set_ne fun he => h (Component.index_injective he)]

end Planes

end InterPred
