import NetPack.Kernel.Conv
import NetPack.Proofs.Outcomes
import NetPack.Proofs.Sizes

/-!
# Cells and sums of products

Kernels compute their results cell by cell. `Tensor.cells_eq_ok` says what is known of the cells of
a result, `Tensor.exists_cells` that there is a result if every cell has one.

A cell of a convolution is a start value plus products of elements of two tensors, added from left
to right. `Kernel.accumulate` is this sum over a plain list of pairs
of positions. It has a value exactly when every position is in range (`Kernel.accumulate_eq_ok`).
-/

namespace NetPack

theorem mul_add_lt_mul {a b m n : Nat} (ha : a < m) (hb : b < n) : a * n + b < m * n :=
  calc a * n + b < a * n + n := Nat.add_lt_add_left hb _
    _ = (a + 1) * n := (Nat.succ_mul a n).symm
    _ ≤ m * n := Nat.mul_le_mul_right n ha

namespace Tensor

variable {α ε : Type} {n c h w : Nat} {cell : Nat → Nat → Nat → Nat → Outcome ε α}

/-- The cell at a row-major position. -/
def cellAt (c h w : Nat) (cell : Nat → Nat → Nat → Nat → Outcome ε α) (i : Nat) : Outcome ε α :=
  cell (i / (c * h * w)) (i / (h * w) % c) (i / w % h) (i % w)

theorem cells_eq_ok {a : Array α} :
    cells n c h w cell = .ok a ↔
      a.size = n * c * h * w ∧ ∀ i (hi : i < a.size), cellAt c h w cell i = .ok a[i] := by
  rw [cells, Outcome.bind_eq_ok]
  constructor
  · rintro ⟨l, hl, ha⟩
    obtain rfl := Outcome.pure_eq_ok_iff.1 ha
    obtain ⟨hsize, hcell⟩ := Outcome.mapM_range_eq_ok.1 hl
    exact ⟨by simpa using hsize, fun i hi => hcell i (by simpa using hi)⟩
  · rintro ⟨hsize, hcell⟩
    exact ⟨a.toList, Outcome.mapM_range_eq_ok.2 ⟨by simpa using hsize, fun i hi =>
      hcell i (by simpa using hi)⟩, rfl⟩

/-- The coordinates of a position. -/
theorem coordinates_lt {i : Nat} (hi : i < n * c * h * w) :
    i / (c * h * w) < n ∧ i / (h * w) % c < c ∧ i / w % h < h ∧ i % w < w := by
  have hpos : 0 < n * c * h * w := Nat.lt_of_le_of_lt (Nat.zero_le i) hi
  have hw : 0 < w := Nat.pos_of_mul_pos_left hpos
  have hh : 0 < h := Nat.pos_of_mul_pos_left (Nat.pos_of_mul_pos_right hpos)
  have hc : 0 < c :=
    Nat.pos_of_mul_pos_left (Nat.pos_of_mul_pos_right (Nat.pos_of_mul_pos_right hpos))
  refine ⟨?_, Nat.mod_lt _ hc, Nat.mod_lt _ hh, Nat.mod_lt _ hw⟩
  refine Nat.div_lt_of_lt_mul ?_
  rwa [Nat.mul_comm, ← Nat.mul_assoc, ← Nat.mul_assoc]

theorem mul_add_div_of_lt {a b m : Nat} (h : b < m) : (a * m + b) / m = a := by
  rw [Nat.mul_comm, Nat.mul_add_div (by omega), Nat.div_eq_of_lt h, Nat.add_zero]

theorem mul_add_mod_of_lt {a b m : Nat} (h : b < m) : (a * m + b) % m = b := by
  rw [Nat.mul_add_mod_self_right, Nat.mod_eq_of_lt h]

/-- The cell at the row-major position of given coordinates. -/
theorem cellAt_index {image channel y x : Nat} (hc : channel < c) (hy : y < h) (hx : x < w) :
    cellAt c h w cell (((image * c + channel) * h + y) * w + x) = cell image channel y x := by
  have hrow : (((image * c + channel) * h + y) * w + x) / w = (image * c + channel) * h + y :=
    mul_add_div_of_lt hx
  have hplane : (((image * c + channel) * h + y) * w + x) / (h * w) = image * c + channel := by
    rw [Nat.mul_comm h w, ← Nat.div_div_eq_div_mul, hrow, mul_add_div_of_lt hy]
  have himage : (((image * c + channel) * h + y) * w + x) / (c * h * w) = image := by
    rw [Nat.mul_assoc, Nat.mul_comm c, ← Nat.div_div_eq_div_mul, hplane, mul_add_div_of_lt hc]
  rw [cellAt, himage, hplane, hrow, mul_add_mod_of_lt hc, mul_add_mod_of_lt hy,
    mul_add_mod_of_lt hx]

theorem exists_cells (hcell : ∀ image < n, ∀ channel < c, ∀ y < h, ∀ x < w,
    ∃ v, cell image channel y x = .ok v) : ∃ a, cells n c h w cell = .ok a := by
  have : ∀ i ∈ List.range (n * c * h * w), ∃ v, cellAt c h w cell i = .ok v := by
    intro i hi
    obtain ⟨hn, hc, hh, hw⟩ := coordinates_lt (List.mem_range.1 hi)
    exact hcell _ hn _ hc _ hh _ hw
  obtain ⟨l, hl⟩ := Outcome.exists_mapM_eq_ok this
  exact ⟨l.toArray, by rw [cells]; exact Outcome.bind_eq_ok.2 ⟨l, hl, rfl⟩⟩

/-- A cell of a result that was computed cell by cell. -/
theorem exists_of_cells {data : Array α} (hdata : cells n c h w cell = .ok data)
    {image channel y x : Nat} (himage : image < n) (hchannel : channel < c) (hy : y < h)
    (hx : x < w) :
    ∃ v, data[((image * c + channel) * h + y) * w + x]? = some v ∧
      cell image channel y x = .ok v := by
  obtain ⟨hsize, hcell⟩ := cells_eq_ok.1 hdata
  have hlt : ((image * c + channel) * h + y) * w + x < data.size := by
    rw [hsize]
    exact mul_add_lt_mul (mul_add_lt_mul (mul_add_lt_mul himage hchannel) hy) hx
  have hvalue := hcell _ hlt
  rw [cellAt_index hchannel hy hx] at hvalue
  exact ⟨_, Array.getElem?_eq_getElem hlt, hvalue⟩

/-- If one of the cells breaks off, so does the whole computation. -/
theorem cells_eq_crash {image channel y x : Nat}
    (hsilent : ∀ image channel y x, Outcome.Silent (cell image channel y x)) (himage : image < n)
    (hchannel : channel < c) (hy : y < h) (hx : x < w)
    (hcell : cell image channel y x = Outcome.crash) : cells n c h w cell = Outcome.crash := by
  have hcells : Outcome.Silent (cells n c h w cell) :=
    (Outcome.silent_mapM (fun _ => hsilent _ _ _ _) _).bind fun _ => Outcome.silent_ok _
  refine hcells.eq_crash fun a ha => ?_
  obtain ⟨v, -, hv⟩ := exists_of_cells ha himage hchannel hy hx
  exact Outcome.crash_ne_ok (hcell.symm.trans hv)

/-- A cell of a tensor that was computed cell by cell. -/
theorem exists_of_map_cells {shape : Shape} {t : Tensor α}
    (ht : (fun data => (⟨shape, data⟩ : Tensor α)) <$> cells n c h w cell = .ok t)
    {image channel y x : Nat} (himage : image < n) (hchannel : channel < c) (hy : y < h)
    (hx : x < w) :
    ∃ v, t.data[((image * c + channel) * h + y) * w + x]? = some v ∧
      cell image channel y x = .ok v := by
  obtain ⟨data, hdata, rfl⟩ := Outcome.map_eq_ok.1 ht
  exact exists_of_cells hdata himage hchannel hy hx

theorem entry_of_lt {t : Tensor α} {i : Nat} (hi : i < t.data.size) :
    t.entry i = .ok t.data[i] := Outcome.entry_of_lt hi

theorem entry_of_size_le {t : Tensor α} {i : Nat} (hi : t.data.size ≤ i) :
    t.entry i = Outcome.crash := Outcome.entry_of_size_le hi

theorem lt_of_entry {t : Tensor α} {i : Nat} {a : α} (h : t.entry i = .ok a) :
    i < t.data.size := by
  by_contra hi
  rw [entry_of_size_le (Nat.le_of_not_lt hi)] at h
  cases h

end Tensor

namespace Kernel

variable {α : Type} [Scalar α]

/-- Adds the products of elements at pairs of positions to a start value, from left to right. -/
def accumulate (x k : Tensor α) (terms : List (Nat × Nat)) (start : α) : Outcome TensorError α :=
  terms.foldlM (fun acc t => do return acc + (← x.entry t.1) * (← k.entry t.2)) start

variable {x k : Tensor α}

theorem accumulate_cons (t : Nat × Nat) (terms : List (Nat × Nat)) (start : α) :
    accumulate x k (t :: terms) start = (do
      let a ← x.entry t.1
      let b ← k.entry t.2
      accumulate x k terms (start + a * b)) := by
  rw [accumulate, List.foldlM_cons]
  cases x.entry t.1 <;> [rfl; (cases k.entry t.2 <;> rfl)]

/-- The elements at a pair of positions, multiplied. -/
def productAt (x k : Tensor α) (t : Nat × Nat) : α :=
  x.data.getD t.1 0 * k.data.getD t.2 0

/-- **A sum of products has a value exactly when every position is in range**, and the value adds
the products from left to right. -/
theorem accumulate_eq_ok {terms : List (Nat × Nat)} {start v : α} :
    accumulate x k terms start = .ok v ↔
      (∀ t ∈ terms, t.1 < x.data.size ∧ t.2 < k.data.size) ∧
        terms.foldl (fun acc t => acc + productAt x k t) start = v := by
  induction terms generalizing start with
  | nil => simp [accumulate]
  | cons t terms ih =>
    rw [accumulate_cons, List.forall_mem_cons, List.foldl_cons, Outcome.bind_eq_ok]
    constructor
    · rintro ⟨a, ha, h⟩
      obtain ⟨b, hb, h⟩ := Outcome.bind_eq_ok.1 h
      have hx := Tensor.lt_of_entry ha
      have hk := Tensor.lt_of_entry hb
      obtain rfl := Except.ok.inj ((Tensor.entry_of_lt hx).symm.trans ha)
      obtain rfl := Except.ok.inj ((Tensor.entry_of_lt hk).symm.trans hb)
      obtain ⟨hterms, hv⟩ := ih.1 h
      refine ⟨⟨⟨hx, hk⟩, hterms⟩, ?_⟩
      simpa [productAt, hx, hk] using hv
    · rintro ⟨⟨⟨hx, hk⟩, hterms⟩, hv⟩
      refine ⟨_, Tensor.entry_of_lt hx, Outcome.bind_eq_ok.2 ⟨_, Tensor.entry_of_lt hk, ?_⟩⟩
      refine ih.2 ⟨hterms, ?_⟩
      simpa [productAt, hx, hk] using hv

theorem silent_accumulate (terms : List (Nat × Nat)) (start : α) :
    Outcome.Silent (accumulate x k terms start) :=
  Outcome.silent_foldlM (fun _ _ => (Outcome.silent_entry _ _).bind fun _ =>
    (Outcome.silent_entry _ _).bind fun _ => Outcome.silent_ok _) terms start

end Kernel

end NetPack
