import NetPack.Proofs.Exchange.Messages
import NetPack.Proofs.Exchange.Operators
import NetPack.Proofs.Tables

/-!
# Constants of an exchange file

The parameters of a graph and the bounds of its cuts become initializers, and an initializer is read
back as the tensor that it was written from if its extents fit (`Exchange.Writable`). Constants are
told apart by their names only, so reading needs names that do not clash (`Exchange.Named`); then
every node finds its parameters and bounds, and no value is taken for a constant.
-/

namespace NetPack

theorem Shape.small_of_numBytes? {s : Shape} (hs : s.Positive)
    (hbytes : (s.numBytes? .f32).isSome) : ∀ d ∈ s.dims, Small d := by
  intro d hd
  have hsize := (numBytes?_isSome_iff hs).1 hbytes
  have hle : d ≤ Word.product s.dims := Word.le_product hs hd
  simp only [Word.modulus] at hsize
  rw [Small]
  omega

theorem Tensor.ofBytes_eq_ok {shape : Shape} {dtype : DType} {bytes : List UInt8}
    {t : Tensor Binary32} (h : ofBytes shape dtype bytes = .ok t) :
    t.shape = shape ∧ t.WellFormed := by
  unfold ofBytes at h
  rw [Outcome.ite_eq_ok (by simp)] at h
  obtain ⟨-, h⟩ := h
  split at h
  · cases h
  · rename_i expected hexpected
    split at h
    · rename_i hlength
      obtain rfl := Except.ok.inj h
      obtain ⟨n, hn, hsize⟩ := Option.bind_eq_some_iff.1 hexpected
      have hmul : n * 4 = expected := (Word.mul?_eq_some_iff.1 hsize).1
      refine ⟨rfl, ?_⟩
      rw [WellFormed, hn, List.size_toArray, Binary32.length_listOfBytes, hlength, ← hmul,
        Nat.mul_div_cancel _ (by decide)]
    · cases h

namespace Exchange

open Wire

/-! ### One initializer -/

theorem ofBytes_toBytes {t : Tensor Binary32} (ht : t.WellFormed)
    (hbytes : (t.shape.numBytes? .f32).isSome) : Tensor.ofBytes t.shape .f32 t.toBytes = .ok t := by
  obtain ⟨expected, hexpected⟩ := Option.isSome_iff_exists.1 hbytes
  obtain ⟨count, hcount, hmul⟩ := Option.bind_eq_some_iff.1 hexpected
  obtain ⟨rfl, -⟩ := Word.mul?_eq_some_iff.1 hmul
  obtain rfl : count = t.data.size := Option.some.inj (hcount.symm.trans ht)
  have hlength : t.toBytes.length = t.data.size * DType.f32.bytes := by
    rw [Tensor.toBytes, Binary32.length_bytesOfList, Array.length_toList, Nat.mul_comm]
    rfl
  have hdata : (Binary32.listOfBytes t.toBytes).toArray = t.data := by
    rw [Tensor.toBytes, Binary32.listOfBytes_bytesOfList, Array.toArray_toList]
  simp only [Tensor.ofBytes, hexpected, hlength, hdata, ne_eq, not_true_eq_false, if_false, if_true]

/-- What a tensor needs to be read back from an initializer: as many elements as its shape says, a
size in bytes, and extents that fit signed integers of 64 bits. -/
structure Writable (t : Tensor Binary32) : Prop where
  wellFormed : t.WellFormed
  bytes : (t.shape.numBytes? .f32).isSome
  small : ∀ d ∈ t.shape.dims, Small d

theorem Writable.of_proper {t : Tensor Binary32} (ht : t.Proper)
    (hbytes : (t.shape.numBytes? .f32).isSome) : Writable t :=
  ⟨ht.wellFormed, hbytes, Shape.small_of_numBytes? ht.positive hbytes⟩

theorem Initializer.toTensor_ofTensor (name : String) {t : Tensor Binary32} (ht : Writable t) :
    (ofTensor name t).toTensor = .ok t := by
  have hdims : (ofTensor name t).dims.mapM natural? = some t.shape.dims := by
    have hsigned : (ofTensor name t).dims = t.shape.dims.map Int.ofNat := map_signed ht.small
    rw [hsigned, mapM_natural?]
  have htype : (ofTensor name t).dataType = 1 := rfl
  have hsome : ((⟨t.shape.dims⟩ : Shape).numBytes? .f32).isNone = false := by
    rw [Option.isNone_eq_false_iff]
    exact ht.bytes
  -- Without elements there are no bytes, and then the numbers are read, of which there are none.
  have hread : (if (ofTensor name t).raw.isEmpty then
      Tensor.ofArray ⟨t.shape.dims⟩ (ofTensor name t).singles.toArray
      else Tensor.ofBytes ⟨t.shape.dims⟩ .f32 (ofTensor name t).raw) = .ok t := by
    split
    · rename_i hraw
      have hlength : t.toBytes.length = 0 := by simpa [ofTensor] using hraw
      rw [Tensor.toBytes, Binary32.length_bytesOfList, Array.length_toList] at hlength
      have hdata : t.data = #[] := Array.eq_empty_of_size_eq_zero (by omega)
      refine Tensor.ofArray_eq_ok_iff.2 ⟨?_, ht.wellFormed⟩
      rw [show (ofTensor name t).singles.toArray = t.data by rw [hdata]; rfl]
    · exact ofBytes_toBytes ht.wellFormed ht.bytes
  simp only [toTensor, htype, hdims, hsome, hread]
  rfl

/-! ### All initializers -/

/-- The named tensors that become the initializers of a graph. -/
def constantTensors (g : NetPack.Graph Binary32) : List (String × Tensor Binary32) :=
  g.params.entries ++ g.nodes.flatMap boundTensors

theorem initializers_eq_map (g : NetPack.Graph Binary32) :
    (g.params.entries.map fun e => Initializer.ofTensor e.1 e.2) ++ g.nodes.flatMap boundsOf =
      (constantTensors g).map fun e => .ofTensor e.1 e.2 := by
  rw [constantTensors, List.map_append, List.map_flatMap]
  exact congrArg _ (congrArg (List.flatMap · g.nodes) (funext boundsOf_eq_map))

/-- A bound is one of two scalars, and its name says which. -/
theorem mem_boundTensors {n : Node Binary32} {e : String × Tensor Binary32}
    (h : e ∈ boundTensors n) :
    e = (n.name ++ ".clip_min", ⟨⟨[]⟩, #[0]⟩) ∨
      e = (n.name ++ ".clip_max", ⟨⟨[]⟩, #[Scalar.count 6]⟩) := by
  unfold boundTensors at h
  split at h
  · simpa using h
  · simp at h

theorem writable_scalar (x : Binary32) : Writable (⟨⟨[]⟩, #[x]⟩ : Tensor Binary32) :=
  ⟨rfl, rfl, by simp⟩

/-- Initializers are collected with the last one first. -/
theorem foldlM_toTensor {es : List (String × Tensor Binary32)}
    (hes : ∀ e ∈ es, Writable e.2) (constants : Constants) :
    (es.map fun e => Initializer.ofTensor e.1 e.2).foldlM
      (fun constants t =>
        match t.toTensor with
        | .ok tensor => (.ok ((t.name, tensor) :: constants) : Except ConvertError Constants)
        | .error cause => .error (fault cause)) constants = .ok (es.reverse ++ constants) := by
  induction es generalizing constants with
  | nil => rfl
  | cons e es ih =>
    rw [List.forall_mem_cons] at hes
    rw [List.map_cons, List.foldlM_cons, Initializer.toTensor_ofTensor e.1 hes.1,
      Outcome.ok_bind, ih hes.2, List.reverse_cons, List.append_assoc]
    rfl

/-! ### Names -/

/-- The last letter of a name with a suffix is the last one of the suffix. -/
theorem getLast?_append {suffix : String} {c : Char} (name : String)
    (h : suffix.toList.getLast? = some c) : (name ++ suffix).toList.getLast? = some c := by
  rw [String.toList_append, List.getLast?_append, h, Option.some_or]

theorem clip_min_ne_clip_max (name name' : String) : name ++ ".clip_min" ≠ name' ++ ".clip_max" :=
  fun h => by
    have hmin : (name ++ ".clip_min").toList.getLast? = some 'n' := getLast?_append name rfl
    have hmax : (name' ++ ".clip_max").toList.getLast? = some 'x' := getLast?_append name' rfl
    rw [h, hmax] at hmin
    exact absurd hmin (by decide)

/-- The name is not empty and no constant has it. -/
def Fresh (g : NetPack.Graph Binary32) (v : String) : Prop :=
  v ≠ "" ∧ ∀ e ∈ constantTensors g, e.1 ≠ v

/-- The names of a graph can be told apart in an exchange file. -/
structure Named (g : NetPack.Graph Binary32) : Prop where
  graph : g.name ≠ ""
  nodes : ∀ n ∈ g.nodes, n.name ≠ ""
  input : Fresh g g.input.name
  outputs : ∀ n ∈ g.nodes, Fresh g n.output
  params : ∀ p t, g.params.find? p = some t →
    p ≠ "" ∧ ∀ n ∈ g.nodes, ∀ e ∈ boundTensors n, e.1 ≠ p

/-- The constants of the exchange file of a graph. -/
def constantsFor (g : NetPack.Graph Binary32) : Constants := (constantTensors g).reverse

section Lookup

variable {g : NetPack.Graph Binary32} {n : Node Binary32} {v : String} {t : Tensor Binary32}

theorem lookup_of_fresh (hv : Fresh g v) : (constantsFor g).lookup v = none := by
  refine List.lookup_eq_none_iff.2 fun e he => ?_
  have hne := hv.2 e (List.mem_reverse.1 he)
  simpa using hne.symm

theorem mem_constantTensors : (v, t) ∈ constantTensors g ↔
    g.params.find? v = some t ∨ ∃ n ∈ g.nodes, (v, t) ∈ boundTensors n := by
  rw [constantTensors, List.mem_append, List.mem_flatMap, Table.find?_eq_some_iff]

/-- A parameter is found among the constants if it is not called like a bound. -/
theorem lookup_param (ht : g.params.find? v = some t)
    (hbounds : ∀ n ∈ g.nodes, ∀ e ∈ boundTensors n, e.1 ≠ v) :
    (constantsFor g).lookup v = some t := by
  refine Table.lookup_of_mem (List.mem_reverse.2 (mem_constantTensors.2 (.inl ht))) ?_
  intro t' ht'
  rcases mem_constantTensors.1 (List.mem_reverse.1 ht') with hfind | ⟨m, hm, hbound⟩
  · exact Option.some.inj (hfind.symm.trans ht)
  · exact absurd rfl (hbounds m hm _ hbound)

/-- Every bound is found among the constants, because bounds come behind the parameters. Bounds of
one name are the same scalar. -/
theorem lookup_bound (hn : n ∈ g.nodes) {e : String × Tensor Binary32}
    (he : e ∈ boundTensors n) : (constantsFor g).lookup e.1 = some e.2 := by
  have hlast : (g.nodes.flatMap boundTensors).reverse.lookup e.1 = some e.2 := by
    refine Table.lookup_of_mem (List.mem_reverse.2 (List.mem_flatMap.2 ⟨n, hn, he⟩)) ?_
    intro t' ht'
    obtain ⟨m, -, hbound⟩ := List.mem_flatMap.1 (List.mem_reverse.1 ht')
    -- Layers may share a name as far as is known here, but the suffix decides which scalar it is.
    rcases mem_boundTensors he with rfl | rfl <;>
      rcases mem_boundTensors hbound with hb | hb
    · exact congrArg Prod.snd hb
    · exact absurd (congrArg Prod.fst hb) (clip_min_ne_clip_max _ _)
    · exact absurd (congrArg Prod.fst hb).symm (clip_min_ne_clip_max _ _)
    · exact congrArg Prod.snd hb
  rw [constantsFor, constantTensors, List.reverse_append, List.lookup_append, hlast, Option.some_or]

theorem provides_constantsFor (hg : Named g) (hn : n ∈ g.nodes)
    (hbound : ∀ p ∈ n.params, (g.params.find? p).isSome) :
    Provides (constantsFor g) g.params n := by
  refine ⟨fun p hp => ?_, fun e he => lookup_bound hn he⟩
  obtain ⟨t, ht⟩ := Option.isSome_iff_exists.1 (hbound p hp)
  exact ⟨t, ht, lookup_param ht (hg.params p t ht).2⟩

end Lookup

end Exchange

end NetPack
