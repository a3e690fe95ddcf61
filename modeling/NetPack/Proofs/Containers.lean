import NetPack.Container.Basic
import NetPack.Proofs.ElementCounts
import NetPack.Proofs.Json.Lengths
import NetPack.Proofs.Json.Records

/-!
# Containers are read back as they were written

The header of a container lists its tensors with the places of their elements, one after the other
(`Container.entriesFrom`). The reader finds the same entries in it (`Container.readHeader_header`),
they pass its checks (`Container.checkEntries_entriesFrom`), and the bytes at their places are those
of the tensors (`Container.mapM_bytesOf`). So a container that fits the format is read back as the
text and the tensors that it was written with (`Container.decode_encode`).

The reader checks the number of elements of every tensor. All tensors that a checked build makes
pass this check (`Tensor.built_iff_wellFormed`).
-/

namespace NetPack

/-- A list in the order of its names is its own table. -/
theorem Table.ofList_of_pairwise {β : Type} {l : List (String × β)}
    (h : l.Pairwise fun a b => a.1 < b.1) : ofList l = ⟨l, h⟩ := by
  refine ext_find? fun name => ?_
  rw [find?_ofList (u := ⟨l, h⟩) fun e he => find?_eq_some_iff.2 he]
  by_cases hname : name ∈ l.map (·.1)
  · rw [if_pos hname]
  · rw [if_neg hname]
    refine (Option.eq_none_iff_forall_ne_some.2 fun b hb => hname ?_).symm
    exact List.mem_map_of_mem (find?_eq_some_iff.1 hb)

namespace Bytes

theorem ofString_append (s t : String) : ofString (s ++ t) = ofString s ++ ofString t := by
  simp [ofString]

theorem ofString_pushn (n : Nat) : ofString ("".pushn ' ' n) = List.replicate n 0x20 := by
  rw [String.pushn_eq_repeat_push]
  induction n with
  | zero => rfl
  | succ n ih =>
    rw [Nat.repeat, List.replicate_succ', ← ih, String.push_eq_append, ofString_append]
    rfl

end Bytes

namespace Container

open Json Document

/-! ### What is written -/

/-- The entry of a tensor whose elements start at the given place. -/
def Entry.ofTensor (start : Nat) (t : Tensor Binary32) : Entry :=
  ⟨"F32", 4, t.shape, start, start + t.numBytes⟩

/-- The entries of tensors whose elements lie one after the other. -/
def entriesFrom : (start : Nat) → List (String × Tensor Binary32) → List (String × Entry)
  | _, [] => []
  | start, (name, t) :: rest =>
    (name, .ofTensor start t) :: entriesFrom (start + t.numBytes) rest

/-- The elements of tensors. -/
def elements (l : List (String × Tensor Binary32)) : Bytes := l.flatMap fun e => e.2.toBytes

/-- How many blanks are behind a document of `n` bytes. -/
def padding (n : Nat) : Nat := (8 - n % 8) % 8

/-- The text of the header with the blanks behind it. -/
def headerText (kind text : String) (tensors : Table (Tensor Binary32)) : String :=
  let document := (header kind text tensors).render
  document ++ "".pushn ' ' (padding (Bytes.ofString document).length)

/-- A container that the format can hold. -/
structure Fits (kind text : String) (tensors : Table (Tensor Binary32)) : Prop where
  /-- No tensor has the name under which the text is stored. -/
  unreserved : tensors.contains "__metadata__" = false
  /-- The tensors are some that can be built. -/
  built : ∀ e ∈ tensors.entries, e.2.Built fun _ => True
  /-- Extents are words. -/
  extents : ∀ e ∈ tensors.entries, ∀ d ∈ e.2.shape.dims, d < Word.modulus
  /-- The header is not too long to be read. -/
  header : (Bytes.ofString (headerText kind text tensors)).length ≤ maxHeader
  /-- The length of the file is a word. -/
  file : (encode kind text tensors).length < Word.modulus

variable {kind text : String} {tensors : Table (Tensor Binary32)}

theorem encode_eq : encode kind text tensors =
    Bytes.ofNat 8 (Bytes.ofString (headerText kind text tensors)).length ++
      Bytes.ofString (headerText kind text tensors) ++ elements tensors.entries := by
  unfold headerText
  rw [Bytes.ofString_append, Bytes.ofString_pushn]
  rfl

theorem length_toBytes (t : Tensor Binary32) : t.toBytes.length = t.numBytes := by
  rw [Tensor.toBytes, Binary32.length_bytesOfList, Array.length_toList, Nat.mul_comm]
  rfl

theorem length_elements_cons (name : String) (t : Tensor Binary32)
    (l : List (String × Tensor Binary32)) :
    (elements ((name, t) :: l)).length = t.numBytes + (elements l).length := by
  rw [elements, List.flatMap_cons, List.length_append, length_toBytes]
  rfl

/-! ### Entries -/

/-- What the header says about an entry. -/
def Entry.toJson (e : Entry) : Json :=
  .object [("dtype", .string e.elementType), ("shape", .nats e.shape.dims),
    ("data_offsets", .nats [e.first, e.last])]

theorem entryMembers_eq (start : Nat) (l : List (String × Tensor Binary32)) :
    entryMembers start l = (entriesFrom start l).map fun e => (e.1, e.2.toJson) := by
  induction l generalizing start with
  | nil => rfl
  | cons e l ih => rw [entryMembers, ih]; rfl

section

variable {start : Nat} {t : Tensor Binary32} {l : List (String × Tensor Binary32)}

theorem Entry.kept?_toJson (hextents : ∀ d ∈ t.shape.dims, d < Word.modulus)
    (hlast : start + t.numBytes < Word.modulus) :
    Json.kept? (ofTensor start t).toJson = some (ofTensor start t).toJson := by
  have hoffsets : ∀ n ∈ [start, start + t.numBytes], n < Word.modulus := by simp; omega
  refine kept?_object (by simp) ?_
  simp only [List.forall_mem_cons]
  exact ⟨kept?_string _, kept?_nats hextents, kept?_nats hoffsets, by simp⟩

theorem Entry.read_toJson (hextents : ∀ d ∈ t.shape.dims, d < Word.modulus)
    (hlast : start + t.numBytes < Word.modulus) :
    Entry.read (ofTensor start t).toJson = .ok (ofTensor start t) := by
  refine bind_record [some (.string "F32"), some (.nats t.shape.dims),
    some (.nats [start, start + t.numBytes])] rfl (by decide) rfl fun r hfind => ?_
  simp only [List.zip_cons_cons, List.forall_mem_cons] at hfind
  obtain ⟨hdtype, hshape, hoffsets, -⟩ := hfind
  have hname : Document.name (fun name => elementTypes.find? fun t => t.1 == name)
      "an element type" (Json.string "F32") = .ok ("F32", 4) := rfl
  simp only [Record.required, hdtype, hshape, hoffsets, hname, list_nats hextents,
    pair_nats (by omega : start < Word.modulus) hlast, Outcome.ok_bind]
  rfl

theorem map_fst_entriesFrom (start : Nat) (l : List (String × Tensor Binary32)) :
    (entriesFrom start l).map (·.1) = l.map (·.1) := by
  induction l generalizing start with
  | nil => rfl
  | cons e l ih => rw [entriesFrom, List.map_cons, ih]; rfl

theorem le_first {e : String × Entry} (h : e ∈ entriesFrom start l) :
    start ≤ e.2.first ∧ e.2.first ≤ e.2.last := by
  induction l generalizing start with
  | nil => cases h
  | cons e' l ih =>
    rw [entriesFrom] at h
    rcases List.mem_cons.1 h with rfl | h
    · exact ⟨Nat.le_refl start, Nat.le_add_right start _⟩
    · have hle := ih h
      omega

/-- The entries lie in the order in which they are written. -/
theorem pairwise_before (start : Nat) (l : List (String × Tensor Binary32)) :
    (entriesFrom start l).Pairwise fun a b => a.2.before b.2 := by
  induction l generalizing start with
  | nil => exact .nil
  | cons e l ih =>
    refine .cons (fun b hb => ?_) (ih _)
    have hle := le_first hb
    rw [Entry.before, Bool.or_eq_true, Bool.and_eq_true, decide_eq_true_eq, decide_eq_true_eq,
      beq_iff_eq]
    change start < b.2.first ∨ start = b.2.first ∧ start + e.2.numBytes ≤ b.2.last
    omega

theorem checkEntries_entriesFrom (hwf : ∀ e ∈ l, e.2.WellFormed)
    (hstop : start + (elements l).length < Word.modulus) :
    checkEntries start (entriesFrom start l) = .ok (start + (elements l).length) := by
  induction l generalizing start with
  | nil => rfl
  | cons e l ih =>
    obtain ⟨name, t⟩ := e
    rw [List.forall_mem_cons] at hwf
    rw [length_elements_cons, ← Nat.add_assoc] at hstop ⊢
    have hcount : t.shape.numElements? = some t.data.size := hwf.1
    have hsize : Word.mul? t.data.size 4 = some t.numBytes :=
      Word.mul?_eq_some_iff.2 ⟨rfl, by omega⟩
    rw [entriesFrom, checkEntries]
    simpa [Entry.ofTensor, hcount, hsize] using ih hwf.2 hstop

theorem mapM_read (hextents : ∀ e ∈ l, ∀ d ∈ e.2.shape.dims, d < Word.modulus)
    (hstop : start + (elements l).length < Word.modulus) :
    (entryMembers start l).mapM (fun (name, entry) => do
      let _ ← Document.expect "an entry that can be kept" (Document.kept? entry)
      return (name, ← Entry.read entry)) = .ok (entriesFrom start l) := by
  induction l generalizing start with
  | nil => rfl
  | cons e l ih =>
    obtain ⟨name, t⟩ := e
    rw [List.forall_mem_cons] at hextents
    rw [length_elements_cons, ← Nat.add_assoc] at hstop
    have hlast : start + t.numBytes < Word.modulus := by omega
    have hkept : Document.kept? (Entry.ofTensor start t).toJson =
        some (Entry.ofTensor start t).toJson :=
      Entry.kept?_toJson hextents.1 hlast
    rw [entryMembers_eq, entriesFrom, List.map_cons, List.mapM_cons, ← entryMembers_eq]
    dsimp only
    rw [hkept, Entry.read_toJson hextents.1 hlast, ih hextents.2 hstop]
    rfl

theorem mapM_bytesOf (ix : Index) (before : Bytes) (hwf : ∀ e ∈ l, e.2.WellFormed)
    (hstop : start + (elements l).length < Word.modulus) (hstart : before.length = start)
    (hix : ix.elements = before ++ elements l) :
    (entriesFrom start l).mapM (fun (name, e) => do
      match Tensor.ofBytes e.shape (← e.dtype) (ix.bytesOf e) with
      | .ok t => return (name, t)
      | .error cause => throw (ContainerError.tensor name cause)) = .ok l := by
  induction l generalizing start before with
  | nil => rfl
  | cons e l ih =>
    obtain ⟨name, t⟩ := e
    rw [List.forall_mem_cons] at hwf
    rw [length_elements_cons, ← Nat.add_assoc] at hstop
    have hbytes : ix.bytesOf (.ofTensor start t) = t.toBytes := by
      have hcons : elements ((name, t) :: l) = t.toBytes ++ elements l := rfl
      rw [Index.bytesOf, hix, hcons, Entry.ofTensor]
      simp [← hstart, ← length_toBytes]
    have hread : Tensor.ofBytes t.shape .f32 t.toBytes = .ok t := by
      refine Exchange.ofBytes_toBytes hwf.1 (Option.isSome_iff_exists.2 ⟨t.numBytes, ?_⟩)
      have hcount : t.shape.numElements? = some t.data.size := hwf.1
      rw [Shape.numBytes?, hcount]
      exact Word.mul?_eq_some_iff.2 ⟨rfl, by omega⟩
    have hrest := ih (before ++ t.toBytes) hwf.2 hstop (by
      rw [List.length_append, hstart, length_toBytes]) (by
      rw [hix, List.append_assoc]
      rfl)
    rw [entriesFrom, List.mapM_cons, hrest]
    dsimp only
    rw [hbytes]
    have hdtype : (Entry.ofTensor start t).dtype = .ok .f32 := rfl
    have hshape : (Entry.ofTensor start t).shape = t.shape := rfl
    rw [hdtype, hshape, Outcome.ok_bind, hread]
    rfl

end

/-! ### Whole containers -/

theorem name_ne_of_contains {name : String} (h : tensors.contains name = false) :
    ∀ e ∈ tensors.entries, e.1 ≠ name := by
  rintro e he rfl
  have hfind : tensors.find? e.1 = some e.2 := Table.find?_eq_some_iff.2 he
  rw [Table.contains, hfind] at h
  cases h

/-- A table keeps the names of its entries when these are laid out. -/
theorem pairwise_names (start : Nat) (tensors : Table (Tensor Binary32)) :
    (entriesFrom start tensors.entries).Pairwise fun a b => a.1 < b.1 := by
  have hnames := List.pairwise_map.2 tensors.sorted
  rw [← map_fst_entriesFrom start] at hnames
  exact List.pairwise_map.1 hnames

theorem length_encode (kind text : String) (tensors : Table (Tensor Binary32)) :
    (encode kind text tensors).length =
    8 + (Bytes.ofString (headerText kind text tensors)).length +
      (elements tensors.entries).length := by
  rw [encode_eq, List.length_append, List.length_append, Bytes.length_ofNat]

theorem Fits.wellFormed (h : Fits kind text tensors) : ∀ e ∈ tensors.entries, e.2.WellFormed :=
  fun e he => (h.built e he).wellFormed rfl

theorem Fits.length_lt (h : Fits kind text tensors) :
    0 + (elements tensors.entries).length < Word.modulus := by
  have hfile := h.file
  rw [length_encode] at hfile
  omega

theorem readHeader_header (h : Fits kind text tensors) :
    readHeader (header kind text tensors) =
      .ok ([(kind, text)], entriesFrom 0 tensors.entries) := by
  have hother : ∀ m ∈ entryMembers 0 tensors.entries, m.1 ≠ "__metadata__" := by
    intro m hm
    have hname : m.1 ∈ tensors.entries.map (·.1) := by
      rw [entryMembers_eq] at hm
      obtain ⟨e, he, rfl⟩ := List.mem_map.1 hm
      rw [← map_fst_entriesFrom 0]
      exact List.mem_map_of_mem he
    obtain ⟨e, he, heq⟩ := List.mem_map.1 hname
    exact heq ▸ name_ne_of_contains h.unreserved e he
  have hmetadata : (entryMembers 0 tensors.entries).filter (fun m => m.1 == "__metadata__") = [] :=
    List.filter_eq_nil_iff.2 fun m hm => by simpa using hother m hm
  have hentries : (entryMembers 0 tensors.entries).filter (fun m => !(m.1 == "__metadata__")) =
      entryMembers 0 tensors.entries :=
    List.filter_eq_self.2 fun m hm => by simpa using hother m hm
  have htexts : readTexts (Json.object [(kind, .string text)]) = .ok [(kind, text)] := rfl
  have hmembers : Document.expect "an object" (Document.members? (header kind text tensors)) =
    .ok (("__metadata__", .object [(kind, .string text)]) ::
      entryMembers 0 tensors.entries) := rfl
  have hsort : (entriesFrom 0 tensors.entries).mergeSort (fun a b => a.2.before b.2) =
      entriesFrom 0 tensors.entries := List.mergeSort_of_pairwise (pairwise_before 0 _)
  have hread := mapM_read h.extents h.length_lt
  unfold readHeader
  simp only [hmembers, Outcome.ok_bind, List.partition_eq_filter_filter, Function.comp_def,
    List.filter_cons, beq_self_eq_true, if_true, Bool.not_true, Bool.false_eq_true, if_false,
    hmetadata, hentries, htexts, hread, Table.ofList_of_pairwise (pairwise_names 0 tensors), hsort]
  rfl

theorem faithful_header (room : Nat) (kind text : String) (tensors : Table (Tensor Binary32)) :
    Faithful (room + 3) (header kind text tensors) := by
  rw [header, faithful_object, List.forall_mem_cons, entryMembers_eq, List.forall_mem_map]
  refine ⟨?_, fun e _ => ?_⟩
  · rw [faithful_object]
    simp [faithful_string]
  · rw [Entry.toJson, faithful_object]
    simp [faithful_string, faithful_nats]

theorem index_encode (h : Fits kind text tensors) : index (encode kind text tensors) =
    .ok ⟨[(kind, text)], entriesFrom 0 tensors.entries, elements tensors.entries⟩ := by
  have hlength := length_encode kind text tensors
  have hheader := h.header
  generalize hpadded : Bytes.ofString (headerText kind text tensors) = padded at hlength hheader
  have hencode : encode kind text tensors =
      Bytes.ofNat 8 padded.length ++ (padded ++ elements tensors.entries) := by
    rw [encode_eq, hpadded, List.append_assoc]
  have hprefix : (Bytes.ofNat 8 padded.length).length = 8 := Bytes.length_ofNat 8 _
  have htake : (encode kind text tensors).take 8 = Bytes.ofNat 8 padded.length := by
    rw [hencode, List.take_left' hprefix]
  have hdrop : (encode kind text tensors).drop 8 = padded ++ elements tensors.entries := by
    rw [hencode, List.drop_left' hprefix]
  have hnumber : Bytes.toNat (Bytes.ofNat 8 padded.length) = padded.length := by
    refine Bytes.toNat_ofNat ?_
    have hmax : maxHeader < Nat.pow 256 8 := by decide
    omega
  have htext : Bytes.toString? padded = some (headerText kind text tensors) := by
    rw [← hpadded, Bytes.toString?_ofString]
  have hparse : Json.decode readHeader (headerText kind text tensors) =
      .ok ([(kind, text)], entriesFrom 0 tensors.entries) := by
    rw [Json.decode, headerText, parse?_render (faithful_header 124 kind text tensors)]
    exact readHeader_header h
  have hcheck := checkEntries_entriesFrom h.wellFormed h.length_lt
  rw [Nat.zero_add] at hcheck
  unfold index
  simp only [htake, hdrop, hnumber, List.take_left, List.drop_left, htext, hparse, hcheck, hlength]
  rw [if_neg (by omega), if_neg (by omega), if_neg (by omega), Outcome.ok_bind, if_neg (by omega)]
  rfl

/-- **A container that fits the format is read back** as the text and the tensors that it was
written with. -/
theorem decode_encode (h : Fits kind text tensors) :
    decode (encode kind text tensors) kind = .ok (text, tensors) := by
  have htensors := mapM_bytesOf ⟨[(kind, text)], entriesFrom 0 tensors.entries,
    elements tensors.entries⟩ [] h.wellFormed h.length_lt rfl rfl
  have htext : Index.textOf? ⟨[(kind, text)], entriesFrom 0 tensors.entries,
      elements tensors.entries⟩ kind = some text := by simp [Index.textOf?]
  unfold decode
  rw [index_encode h, Outcome.ok_bind, htext]
  dsimp only
  refine (congrArg (· >>= _) htensors).trans ?_
  rw [Outcome.ok_bind, Table.ofList_of_pairwise tensors.sorted]
  rfl

/-! ### Containers that are small enough -/

theorem weight_header (kind text : String) (tensors : Table (Tensor Binary32)) :
    (header kind text tensors).weight = (header kind "" tensors).weight + 6 * text.length := by
  simp [header, weight, weightMembers]
  omega

theorem length_headerText_le (kind : String) (j : Json) (tensors : Table (Tensor Binary32)) :
    (Bytes.ofString (headerText kind j.render tensors)).length ≤
      4 * ((header kind "" tensors).weight + 6 * j.weight) + 7 := by
  have htext := length_render_le j
  have hdocument := length_render_le (header kind j.render tensors)
  have hbytes := Bytes.length_ofString_le (header kind j.render tensors).render
  have hpadding : ∀ n, padding n ≤ 7 := fun n => by
    unfold padding
    omega
  have hblanks := hpadding (Bytes.ofString (header kind j.render tensors).render).length
  rw [weight_header] at hdocument
  rw [headerText, Bytes.ofString_append, Bytes.ofString_pushn, List.length_append,
    List.length_replicate]
  omega

/-- A container fits the format if the weight of its documents says so. -/
theorem Fits.of_weight {j : Json} (hunreserved : tensors.contains "__metadata__" = false)
    (hwf : ∀ e ∈ tensors.entries, e.2.WellFormed)
    (hextents : ∀ e ∈ tensors.entries, ∀ d ∈ e.2.shape.dims, d < Word.modulus)
    (hheader : 4 * ((Container.header kind "" tensors).weight + 6 * j.weight) + 7 ≤ maxHeader)
    (hfile : 8 + maxHeader + (elements tensors.entries).length < Word.modulus) :
    Fits kind j.render tensors := by
  have hlength := Nat.le_trans (length_headerText_le kind j tensors) hheader
  have hbuilt := fun e he => Tensor.built_iff_wellFormed.2 (hwf e he)
  refine ⟨hunreserved, hbuilt, hextents, hlength, ?_⟩
  rw [length_encode]
  omega

end Container

end NetPack
