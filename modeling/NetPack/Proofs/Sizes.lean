import Mathlib.Algebra.Order.Ring.Nat
import Mathlib.Tactic.Ring
import NetPack.Proofs.Outcomes
import NetPack.Tensor.Basic

/-!
# Numbers of elements

The number of elements of a shape is a product of extents. `Shape.numElements?` multiplies from the
left and gives up at the first product that is no word; for a shape without a zero extent this only
looks at the whole product (`Shape.numElements?_eq_some_iff`). What the plain operators compute is
the same in a checked build (`Shape.numElements_checked`) and the whole product modulo `2 ^ 64` in a
release build (`Shape.numElements_release`).

Two conditions on tensors compare the elements that are there with the elements that the shape asks
for. `Tensor.WellFormed` asks for the exact product of the extents. `Tensor.Sized` asks for the
number that the build computes, which is what every way of building a tensor guarantees. In a
checked build both are the same.
-/

namespace NetPack

namespace Word

@[simp] theorem product_nil : product [] = 1 := rfl

@[simp] theorem product_cons (n : Nat) (ns : List Nat) : product (n :: ns) = n * product ns := rfl

theorem product_append (ns ms : List Nat) : product (ns ++ ms) = product ns * product ms := by
  induction ns with
  | nil => simp
  | cons n ns ih => rw [List.cons_append, product_cons, product_cons, ih, Nat.mul_assoc]

theorem product_pos {ns : List Nat} (h : ∀ n ∈ ns, 0 < n) : 0 < product ns := by
  induction ns with
  | nil => simp
  | cons n ns ih =>
    rw [product_cons]
    exact Nat.mul_pos (h n List.mem_cons_self) (ih fun m hm => h m (List.mem_cons_of_mem _ hm))

theorem forall_pos_of_product_pos {ns : List Nat} (h : 0 < product ns) : ∀ n ∈ ns, 0 < n := by
  induction ns with
  | nil => simp
  | cons n ns ih =>
    rw [product_cons] at h
    intro m hm
    rcases List.mem_cons.1 hm with rfl | hm
    · exact Nat.pos_of_mul_pos_right h
    · exact ih (Nat.pos_of_mul_pos_left h) m hm

theorem le_product {ns : List Nat} (h : ∀ n ∈ ns, 0 < n) {n : Nat} (hn : n ∈ ns) :
    n ≤ product ns := by
  induction ns with
  | nil => simp at hn
  | cons m ns ih =>
    rw [List.forall_mem_cons] at h
    rw [product_cons]
    rcases List.mem_cons.1 hn with rfl | hn
    · exact Nat.le_mul_of_pos_right n (product_pos h.2)
    · exact (ih h.2 hn).trans (Nat.le_mul_of_pos_left _ h.1)

end Word

namespace Shape

variable {s : Shape}

/-- No extent is zero. -/
def Positive (s : Shape) : Prop := ∀ d ∈ s.dims, 0 < d

instance : DecidablePred Positive := fun s => inferInstanceAs (Decidable (∀ d ∈ s.dims, 0 < d))

theorem positive_mk {dims : List Nat} : Positive ⟨dims⟩ ↔ ∀ d ∈ dims, 0 < d := Iff.rfl

theorem Positive.product_pos (h : s.Positive) : 0 < Word.product s.dims := Word.product_pos h

theorem product_of_numElements? {n : Nat} (h : s.numElements? = some n) :
    Word.product s.dims = n := by
  have := foldlM_mul?_eq_some h
  omega

theorem lt_of_foldlM_mul? {dims : List Nat} {start n : Nat} (hs : start < Word.modulus)
    (h : dims.foldlM Word.mul? start = some n) : n < Word.modulus := by
  induction dims generalizing start with
  | nil => simpa using (Option.some.inj h) ▸ hs
  | cons d ds ih =>
    rw [List.foldlM_cons, Option.bind_eq_bind, Option.bind_eq_some_iff] at h
    obtain ⟨m, hm, h⟩ := h
    exact ih (Word.mul?_eq_some_iff.1 hm).2 h

theorem lt_of_numElements? {n : Nat} (h : s.numElements? = some n) : n < Word.modulus :=
  lt_of_foldlM_mul? (by decide) h

/-- Without zeros no product from the left is larger than the whole one. -/
theorem foldlM_mul?_of_pos {dims : List Nat} (hd : ∀ d ∈ dims, 0 < d) (start : Nat)
    (h : start * Word.product dims < Word.modulus) :
    dims.foldlM Word.mul? start = some (start * Word.product dims) := by
  induction dims generalizing start with
  | nil => simp
  | cons d ds ih =>
    have hds : ∀ d' ∈ ds, 0 < d' := fun d' hd' => hd d' (List.mem_cons_of_mem _ hd')
    rw [Word.product_cons, ← Nat.mul_assoc] at h ⊢
    have hm : start * d < Word.modulus :=
      lt_of_le_of_lt (Nat.le_mul_of_pos_right _ (Word.product_pos hds)) h
    rw [List.foldlM_cons, Word.mul?_eq_some_iff.2 ⟨rfl, hm⟩]
    exact ih hds (start * d) h

theorem numElements?_eq_some_iff (hs : s.Positive) {n : Nat} :
    s.numElements? = some n ↔ Word.product s.dims = n ∧ n < Word.modulus := by
  constructor
  · intro h
    exact ⟨product_of_numElements? h, lt_of_numElements? h⟩
  · rintro ⟨rfl, h⟩
    have := foldlM_mul?_of_pos hs 1 (by simpa using h)
    rwa [Nat.one_mul] at this

theorem product_lt_of_numBytes? (h : (s.numBytes? .f32).isSome) :
    Word.product s.dims * 4 < Word.modulus := by
  obtain ⟨b, h⟩ := Option.isSome_iff_exists.1 h
  obtain ⟨n, hn, h⟩ := Option.bind_eq_some_iff.1 h
  obtain ⟨rfl, h⟩ := Word.mul?_eq_some_iff.1 h
  rw [product_of_numElements? hn]
  exact h

theorem numBytes?_isSome_iff (hs : s.Positive) :
    (s.numBytes? .f32).isSome ↔ Word.product s.dims * 4 < Word.modulus := by
  refine ⟨product_lt_of_numBytes?, fun h => ?_⟩
  have hn : s.numElements? = some (Word.product s.dims) :=
    (numElements?_eq_some_iff hs).2 ⟨rfl, by omega⟩
  rw [numBytes?, hn]
  exact Option.isSome_iff_exists.2 ⟨_, Word.mul?_eq_some_iff.2 ⟨rfl, h⟩⟩

theorem numElements?_isSome_of_numBytes? {t : DType} (h : (s.numBytes? t).isSome) :
    s.numElements?.isSome := by
  obtain ⟨b, h⟩ := Option.isSome_iff_exists.1 h
  obtain ⟨n, hn, -⟩ := Option.bind_eq_some_iff.1 h
  exact hn ▸ rfl

/-! ### What the build computes -/

/-- The products from the left are the exact ones modulo `2 ^ 64`. -/
theorem eq_wrap_of_foldlM_settle [Build] {dims : List Nat} {start n : Nat}
    (hs : start < Word.modulus)
    (h : dims.foldlM (fun acc d => Word.settle (acc * d)) start = some n) :
    n = Word.wrap (start * Word.product dims) := by
  induction dims generalizing start with
  | nil =>
    rw [Word.product_nil, Nat.mul_one, Word.wrap_of_lt hs]
    exact (Option.some.inj h).symm
  | cons d ds ih =>
    rw [List.foldlM_cons, Option.bind_eq_bind, Option.bind_eq_some_iff] at h
    obtain ⟨m, hm, h⟩ := h
    obtain rfl := Word.eq_wrap_of_settle hm
    rw [ih (Word.wrap_lt _) h, Word.product_cons, ← Nat.mul_assoc, Word.wrap, Word.wrap, Word.wrap,
      Nat.mod_mul_mod]

theorem eq_wrap_of_product [Build] {dims : List Nat} {n : Nat} (h : product dims = some n) :
    n = Word.wrap (Word.product dims) := by
  have := eq_wrap_of_foldlM_settle (by decide) h
  rwa [Nat.one_mul] at this

theorem lt_of_numElements [Build] {n : Nat} (h : s.numElements = some n) : n < Word.modulus :=
  eq_wrap_of_product h ▸ Word.wrap_lt _

theorem numElements_checked [Build] (h : Build.checks = true) (s : Shape) :
    s.numElements = s.numElements? := by
  have hsettle : ∀ acc d : Nat, Word.settle (acc * d) = Word.mul? acc d := fun acc d => by
    simp [Word.settle, Word.mul?, h]
  simp only [numElements, product, numElements?, hsettle]

theorem numElements_release [Build] (h : Build.checks = false) (s : Shape) :
    s.numElements = some (Word.wrap (Word.product s.dims)) := by
  -- No product breaks off, so there is a result, and it can only be this one.
  have hsome : ∀ (dims : List Nat) (start : Nat),
      (dims.foldlM (fun acc d => Word.settle (acc * d)) start).isSome := by
    intro dims
    induction dims with
    | nil => exact fun _ => rfl
    | cons d ds ih =>
      intro start
      rw [List.foldlM_cons, Word.settle_release h]
      exact ih _
  obtain ⟨n, hn⟩ := Option.isSome_iff_exists.1 (hsome s.dims 1)
  rw [← eq_wrap_of_product hn]
  exact hn

/-- A count below `2 ^ 64` from exact products is what every build computes. -/
theorem product_of_pos [Build] {dims : List Nat} (hd : ∀ d ∈ dims, 0 < d)
    (h : Word.product dims < Word.modulus) : product dims = some (Word.product dims) :=
  numElements_of_numElements? (s := ⟨dims⟩) ((numElements?_eq_some_iff hd).2 ⟨rfl, h⟩)

/-- The size of a block of axes without zero extents, as kernels use it. -/
theorem max_of_product [Build] {dims : List Nat} {n : Nat} (h : product dims = some n)
    (hpos : 0 < Word.product dims) (hlt : Word.product dims < Word.modulus) :
    Nat.max n 1 = Word.product dims := by
  rw [eq_wrap_of_product h, Word.wrap_of_lt hlt]
  exact Nat.max_eq_left hpos

theorem numElements_vector [Build] {n : Nat} (h : n < Word.modulus) :
    (vector n).numElements = some n :=
  numElements_of_numElements? (by simp [vector, numElements?, Word.mul?, h])

/-- A shape fits if its number of elements is the given one. -/
theorem firstMisfit_eq_none [Build] {ε : Type} {count : Nat} {shapes : List Shape} :
    (firstMisfit count shapes : Outcome ε _) = .ok none ↔
      ∀ s ∈ shapes, s.numElements = some count := by
  induction shapes with
  | nil => simp [firstMisfit]
  | cons s rest ih =>
    rw [firstMisfit, List.forall_mem_cons]
    cases s.numElements with
    | none => simp
    | some n =>
      by_cases hn : n = count
      · simp [hn, ih]
      · simp [hn]

/-- Shapes that the build can count are compared without breaking off. -/
theorem exists_firstMisfit [Build] {ε : Type} {count : Nat} {shapes : List Shape}
    (h : ∀ s ∈ shapes, s.numElements.isSome) :
    ∃ misfit, (firstMisfit count shapes : Outcome ε _) = .ok misfit := by
  induction shapes with
  | nil => exact ⟨none, rfl⟩
  | cons s rest ih =>
    rw [List.forall_mem_cons] at h
    obtain ⟨n, hn⟩ := Option.isSome_iff_exists.1 h.1
    rw [firstMisfit, hn, Outcome.orCrash_some, Outcome.ok_bind]
    by_cases hcount : n = count
    · simpa [hcount] using ih h.2
    · exact ⟨some s, if_pos hcount⟩

theorem nchw?_eq_some {n c h w : Nat} : s.nchw? = some (n, c, h, w) ↔ s = ⟨[n, c, h, w]⟩ := by
  obtain ⟨dims⟩ := s
  unfold nchw?
  split <;> simp_all

end Shape

namespace Tensor

variable {α : Type} {t : Tensor α}

/-- The tensor holds as many elements as the build computes for its shape. -/
def Sized [Build] (t : Tensor α) : Prop := t.shape.numElements = some t.data.size

instance [Build] : DecidablePred (Sized : Tensor α → Prop) := fun t =>
  inferInstanceAs (Decidable (t.shape.numElements = some t.data.size))

/-- In a checked build tensors hold exactly what their shapes say. -/
theorem sized_checked_iff [Build] (h : Build.checks = true) : t.Sized ↔ t.WellFormed := by
  rw [Sized, WellFormed, Shape.numElements_checked h]

theorem Sized.size_eq_of_count [Build] {n : Nat} (h : t.Sized) (hn : t.shape.numElements = some n) :
    t.data.size = n := Option.some.inj (h.symm.trans hn)

/-- Tensors of one shape hold equally many elements. -/
theorem Sized.size_eq [Build] {u : Tensor α} (h : t.Sized) (hu : u.Sized)
    (hshape : u.shape = t.shape) : u.data.size = t.data.size :=
  hu.size_eq_of_count (hshape ▸ h)

theorem zeros_eq_some_iff [Build] [Zero α] {s : Shape} :
    zeros s = some t ↔ t.shape = s ∧ t.Sized ∧ t.data = Array.replicate t.data.size 0 := by
  unfold zeros Sized
  cases hs : s.numElements with
  | none =>
    simp only [Option.bind_eq_bind, Option.bind_none, reduceCtorEq, false_iff]
    rintro ⟨rfl, hsized, -⟩
    rw [hs] at hsized
    cases hsized
  | some n =>
    simp only [Option.bind_eq_bind, Option.bind_some, Option.pure_def, Option.some.injEq]
    constructor
    · rintro rfl
      exact ⟨rfl, by simp [hs], by simp⟩
    · rintro ⟨rfl, hsized, hdata⟩
      obtain rfl := Option.some.inj (hs.symm.trans hsized)
      rw [← hdata]

theorem drawn_eq_some [Build] {shape : Shape} {draw : Nat → α} {x : Tensor α}
    (h : Tensor.drawn shape draw = some x) : x.shape = shape ∧ x.Sized := by
  obtain ⟨count, hcount, h⟩ := Option.bind_eq_some_iff.1 h
  obtain rfl := Option.some.inj h
  exact ⟨rfl, by simp [Sized, hcount]⟩

/-- As many zeros as the extents say. -/
def blank [Zero α] (s : Shape) : Tensor α := ⟨s, Array.replicate (Word.product s.dims) 0⟩

@[simp] theorem shape_blank [Zero α] (s : Shape) : (blank s : Tensor α).shape = s := rfl

namespace WellFormed

theorem size_eq (h : t.WellFormed) : t.data.size = Word.product t.shape.dims :=
  (Shape.product_of_numElements? h).symm

theorem size_lt (h : t.WellFormed) : t.data.size < Word.modulus := Shape.lt_of_numElements? h

theorem product_lt (h : t.WellFormed) : Word.product t.shape.dims < Word.modulus :=
  h.size_eq ▸ h.size_lt

theorem sized [Build] (h : t.WellFormed) : t.Sized := Shape.numElements_of_numElements? h

/-- The zeros that an operation writes into. -/
theorem zeros [Build] [Zero α] (h : t.WellFormed) :
    (Tensor.zeros t.shape : Option (Tensor α)) = some (blank t.shape) := by
  refine zeros_eq_some_iff.2 ⟨rfl, ?_, by simp [blank]⟩
  rw [Sized, blank, Array.size_replicate, ← h.size_eq]
  exact h.sized

/-- A tensor whose shape has a number of elements other than zero has no zero extent. -/
theorem positive [Build] (h : t.WellFormed) (hn : t.shape.numElements ≠ some 0) :
    t.shape.Positive := by
  refine Word.forall_pos_of_product_pos (Nat.pos_of_ne_zero fun hzero => hn ?_)
  rw [← hzero, ← h.size_eq]
  exact h.sized

end WellFormed

/-- The tensor holds the product of its extents, which is a word. Products from the left need not be
words where a later extent is zero. -/
structure Exact (t : Tensor α) : Prop where
  size_eq : t.data.size = Word.product t.shape.dims
  size_lt : t.data.size < Word.modulus

instance : DecidablePred (Exact : Tensor α → Prop) := fun t =>
  decidable_of_iff (t.data.size = Word.product t.shape.dims ∧ t.data.size < Word.modulus)
    ⟨fun h => ⟨h.1, h.2⟩, fun h => ⟨h.size_eq, h.size_lt⟩⟩

theorem WellFormed.exact (h : t.WellFormed) : t.Exact := ⟨h.size_eq, h.size_lt⟩

/-- What the build counts for the shape is what the tensor holds. -/
theorem Exact.size_eq_of_sized [Build] {β : Type} {u : Tensor β} (h : t.Exact) (hu : u.Sized)
    (hshape : u.shape = t.shape) : u.data.size = t.data.size := by
  rw [Shape.eq_wrap_of_product hu, hshape, ← h.size_eq, Word.wrap_of_lt h.size_lt]

/-- The zeros that an operation writes into, where the build can count them. -/
theorem Exact.zeros_eq [Build] [Zero α] {z : Tensor α} (h : t.Exact)
    (hz : Tensor.zeros t.shape = some z) : z = blank t.shape := by
  obtain ⟨hshape, hsized, hdata⟩ := zeros_eq_some_iff.1 hz
  have hsize : z.data.size = Word.product t.shape.dims :=
    (h.size_eq_of_sized hsized hshape).trans h.size_eq
  rw [blank, ← hsize, ← hdata, ← hshape]

/-- A tensor of the shape and the size of an exact one is exact. -/
theorem Exact.of_shape_eq {u : Tensor α} (h : t.Exact) (hshape : u.shape = t.shape)
    (hsize : u.data.size = t.data.size) : u.Exact :=
  ⟨by rw [hshape, hsize, h.size_eq], hsize ▸ h.size_lt⟩

/-- A well-formed tensor without a zero extent. -/
structure Proper (t : Tensor α) : Prop where
  wellFormed : t.WellFormed
  positive : t.shape.Positive

instance : DecidablePred (WellFormed : Tensor α → Prop) := fun t =>
  inferInstanceAs (Decidable (t.shape.numElements? = some t.data.size))

instance : DecidablePred (Proper : Tensor α → Prop) := fun t =>
  decidable_of_iff (t.WellFormed ∧ t.shape.Positive)
    ⟨fun h => ⟨h.1, h.2⟩, fun h => ⟨h.wellFormed, h.positive⟩⟩

theorem wellFormed_of_numBytes? (hb : (t.shape.numBytes? .f32).isSome)
    (h : t.data.size = Word.product t.shape.dims) : t.WellFormed := by
  obtain ⟨n, hn⟩ := Option.isSome_iff_exists.1 (Shape.numElements?_isSome_of_numBytes? hb)
  rw [WellFormed, hn, h, Shape.product_of_numElements? hn]

theorem wellFormed_of_sized [Build] (hb : (t.shape.numBytes? .f32).isSome) (h : t.Sized) :
    t.WellFormed := by
  obtain ⟨n, hn⟩ := Option.isSome_iff_exists.1 (Shape.numElements?_isSome_of_numBytes? hb)
  rw [WellFormed, hn, h.size_eq_of_count (Shape.numElements_of_numElements? hn)]

end Tensor

end NetPack
