import NetPack.Files.Formats
import NetPack.Proofs.Containers
import NetPack.Proofs.Exporting
import NetPack.Proofs.Json.Words
import NetPack.Proofs.Storable

/-!
# What is loaded can be stored

The reader of containers lets nothing through that a container could not hold: no tensor has the
name that the header keeps for itself, extents are words, and the elements are as many as the shape
says (`Container.storable_of_decode`, `SequentialModel.storable_of_weightsOf`). So the graph of a
bundle can be stored (`Bundle.storable_of_decode`), and so can the graph that is exported from a
checkpoint (`Export.storable_of_build`).
-/

namespace NetPack

/-! ### Containers -/

namespace Container

open Document

theorem Entry.gives_read :
    Gives (Entry.read : Decoder Json Entry) fun e => ∀ d ∈ e.shape.dims, d < Word.modulus := by
  intro j e h
  obtain ⟨r, -, h⟩ := Outcome.bind_eq_ok.1 h
  obtain ⟨⟨elementType, width⟩, -, h⟩ := Outcome.bind_eq_ok.1 h
  obtain ⟨dims, hdims, h⟩ := Outcome.bind_eq_ok.1 h
  obtain ⟨⟨first, last⟩, -, h⟩ := Outcome.bind_eq_ok.1 h
  obtain rfl := Outcome.pure_eq_ok_iff.1 h
  exact Record.of_required Json.gives_nat.list hdims

/-- No entry has the name that is kept for the texts, and all extents are words. -/
theorem gives_readHeader :
    Gives (readHeader : Decoder Json _) fun p =>
      ∀ e ∈ p.2, e.1 ≠ "__metadata__" ∧ ∀ d ∈ e.2.shape.dims, d < Word.modulus := by
  intro j p h
  obtain ⟨members, -, h⟩ := Outcome.bind_eq_ok.1 h
  -- The entries are read in the same way whatever texts there are.
  have hentries : ∀ found : List (String × Entry),
      ((members.partition fun m => m.1 == "__metadata__").2.mapM fun m => do
        let _ ← expect "an entry that can be kept" (kept? m.2)
        return (m.1, ← Entry.read m.2)) = .ok found →
      ∀ e ∈ (Table.ofList found).entries.mergeSort fun a b => a.2.before b.2,
        e.1 ≠ "__metadata__" ∧ ∀ d ∈ e.2.shape.dims, d < Word.modulus := by
    intro found hfound e he
    rw [List.mem_mergeSort] at he
    refine Outcome.forall_of_mapM (P := fun e => e.1 ≠ "__metadata__" ∧
      ∀ d ∈ e.2.shape.dims, d < Word.modulus) hfound ?_ e (Table.mem_ofList he)
    rintro ⟨name, entry⟩ hmem e he
    obtain ⟨_, -, he⟩ := Outcome.bind_eq_ok.1 he
    obtain ⟨read, hread, he⟩ := Outcome.bind_eq_ok.1 he
    obtain rfl := Outcome.pure_eq_ok_iff.1 he
    refine ⟨?_, Entry.gives_read _ _ hread⟩
    rw [List.partition_eq_filter_filter] at hmem
    simpa using (List.mem_filter.1 hmem).2
  dsimp only at h
  split at h
  case h_3 => cases h
  all_goals
    obtain ⟨_, -, h⟩ := Outcome.bind_eq_ok.1 h
    obtain ⟨found, hfound, h⟩ := Outcome.bind_eq_ok.1 h
    obtain rfl := Outcome.pure_eq_ok_iff.1 h
    exact hentries found hfound

theorem entries_of_index {bytes : Bytes} {ix : Index} (h : index bytes = .ok ix) :
    ∀ e ∈ ix.entries, e.1 ≠ "__metadata__" ∧ ∀ d ∈ e.2.shape.dims, d < Word.modulus := by
  simp only [index, Outcome.throw_eq_error, Outcome.error_bind] at h
  rw [Outcome.ite_eq_ok (by simp), Outcome.ite_eq_ok (by simp), Outcome.ite_eq_ok (by simp)] at h
  obtain ⟨-, -, -, h⟩ := h
  split at h
  · split at h
    · rename_i texts entries hdecode
      obtain ⟨stop, -, h⟩ := Outcome.bind_eq_ok.1 h
      rw [Outcome.ite_eq_ok (by simp), Outcome.pure_eq_ok_iff] at h
      obtain ⟨-, rfl⟩ := h
      exact gives_readHeader.decode hdecode
    · cases h
  · cases h

/-- **The tensors of a container that was read can be stored.** -/
theorem storable_of_decode {bytes : Bytes} {kind text : String} {params : Table (Tensor Binary32)}
    (h : decode bytes kind = .ok (text, params)) :
    ∀ name t, params.find? name = some t → Storable name t := by
  obtain ⟨ix, hindex, h⟩ := Outcome.bind_eq_ok.1 h
  split at h
  · obtain ⟨tensors, htensors, h⟩ := Outcome.bind_eq_ok.1 h
    rw [Outcome.pure_eq_ok_iff, Prod.mk.injEq] at h
    obtain ⟨-, rfl⟩ := h
    intro name t ht
    have hmem := Table.mem_ofList (Table.find?_eq_some_iff.1 ht)
    refine Outcome.forall_of_mapM (P := fun e => Storable e.1 e.2) htensors ?_ _ hmem
    rintro ⟨name, entry⟩ hentry e he
    obtain ⟨hname, hextents⟩ := entries_of_index hindex _ hentry
    obtain ⟨dtype, -, he⟩ := Outcome.bind_eq_ok.1 he
    split at he
    · rename_i t hbytes
      obtain rfl := Outcome.pure_eq_ok_iff.1 he
      obtain ⟨hshape, hwell⟩ := Tensor.ofBytes_eq_ok hbytes
      exact ⟨hname, hwell, hshape ▸ hextents⟩
    · cases he
  · cases h

end Container

/-- **The graph of a bundle can be stored.** -/
theorem Bundle.storable_of_decode {bytes : Bytes} {g : Graph Binary32}
    (h : decode bytes = .ok g) : g.Storable := by
  unfold decode at h
  split at h
  · cases h
  · rename_i text params hcontainer
    split at h
    · cases h
    · rename_i found topology hdecode
      rw [Outcome.ite_eq_ok (by simp), Outcome.pure_eq_ok_iff] at h
      obtain ⟨-, rfl⟩ := h
      exact Graph.storable_of_counts (gives_readHeader.decode hdecode)
        (Container.storable_of_decode hcontainer)

/-! ### Checkpoints -/

namespace SequentialModel

theorem storable_of_weightOf {ix : Container.Index} {name : String} {t : Tensor Binary32}
    (hix : ∀ e ∈ ix.entries, e.1 ≠ "__metadata__" ∧ ∀ d ∈ e.2.shape.dims, d < Word.modulus)
    (h : weightOf ix name = .ok t) : Container.Storable name t := by
  unfold weightOf at h
  split at h
  · rename_i entry hentry
    obtain ⟨hname, hextents⟩ := hix _ (Table.mem_of_lookup hentry)
    split at h
    · cases h
    · split at h
      · cases h
      · rename_i t hbytes
        obtain rfl := Outcome.pure_eq_ok_iff.1 h
        obtain ⟨hshape, hwell⟩ := Tensor.ofBytes_eq_ok hbytes
        exact ⟨hname, hwell, hshape ▸ hextents⟩
  · cases h

/-- **The weights of a checkpoint can be stored.** -/
theorem storable_of_weightsOf {m : Manifest} {path : String} {container : Bytes}
    {weights : Table (Tensor Binary32)} (h : weightsOf m path container = .ok weights) :
    ∀ name t, weights.find? name = some t → Container.Storable name t := by
  unfold weightsOf at h
  split at h
  · cases h
  · rename_i ix hindex
    have hix := Container.entries_of_index hindex
    refine Outcome.of_foldlM (P := fun weights : Table (Tensor Binary32) =>
      ∀ name t, weights.find? name = some t → Container.Storable name t) ?_ (by simp) h
    intro next _ before after hbefore hstep name t ht
    split at hstep
    · obtain rfl := Outcome.pure_eq_ok_iff.1 hstep
      exact hbefore name t ht
    · obtain ⟨w, hw, hstep⟩ := Outcome.bind_eq_ok.1 hstep
      obtain rfl := Outcome.pure_eq_ok_iff.1 hstep
      rw [Table.find?_insert] at ht
      split at ht
      · rename_i hname
        obtain rfl := Option.some.inj ht
        exact hname ▸ storable_of_weightOf hix hw
      · exact hbefore name t ht

theorem counts_of_stands {weights : Table (Tensor Binary32)} {specs : List LayerSpec}
    {ls : List (Layer Binary32)} (h : List.Forall₂ (Stands weights) specs ls)
    (hspecs : ∀ spec ∈ specs, spec.Words) :
    ∀ l ∈ ls, ∀ op, l.kind = .op op → ∀ n ∈ op.counts, n < Word.modulus := by
  induction h with
  | nil => simp
  | cons hl _ ih =>
    rw [List.forall_mem_cons] at hspecs ⊢
    exact ⟨fun op hop => hspecs.1.kind (hl.kind.trans (congrArg Except.ok hop)), ih hspecs.2⟩

end SequentialModel

namespace Tracer

theorem Records.kinds {α : Type} {params : Table (Tensor α)} {v w : String} {ls : List (Layer α)}
    {ns : List (Node α)} (h : Records params v ls ns w) :
    ∀ n ∈ ns, ∃ l ∈ ls, l.kind = .op n.op := by
  induction h with
  | nil => simp
  | skip _ _ ih =>
    intro n hn
    obtain ⟨l, hl, hkind⟩ := ih n hn
    exact ⟨l, List.mem_cons_of_mem _ hl, hkind⟩
  | op hkind _ _ ih =>
    refine List.forall_mem_cons.2 ⟨⟨_, List.mem_cons_self, hkind⟩, fun n hn => ?_⟩
    obtain ⟨l, hl, hkind⟩ := ih n hn
    exact ⟨l, List.mem_cons_of_mem _ hl, hkind⟩

end Tracer

/-- **The graph that is exported from a checkpoint can be stored**, if the declared extents are
words. -/
theorem Export.storable_of_build [NumberSource] {m : Manifest}
    {weights : Table (Tensor Binary32)} {model : SequentialModel Binary32} {d : Descriptor}
    {g : Graph Binary32}
    (hm : ∀ l ∈ m.layers, l.Words)
    (hweights : ∀ name t, weights.find? name = some t → Container.Storable name t)
    (hd : ∀ n ∈ d.dims, n < Word.modulus) (hbuild : SequentialModel.build m weights = .ok model)
    (hexport : exportGraph model.toModel d = .ok g) : g.Storable := by
  have hg := exported_of_build hbuild hexport
  obtain ⟨-, -, -, hstands⟩ := SequentialModel.build_eq_ok hbuild
  have hzero : ∀ n ∈ [0], n < Word.modulus := by decide
  refine ⟨?_, ?_, ?_, fun name t ht => hweights name t (hg.params name t ht)⟩
  · rw [hg.input]
    exact List.forall_mem_append.2 ⟨hd, hzero⟩
  · obtain ⟨shape, hout⟩ := hg.output
    rw [hout]
    exact hzero
  · obtain ⟨ns, w, -, hrecords, hnodes⟩ := hg.nodes
    rw [hnodes, List.forall_mem_map]
    intro n hn
    obtain ⟨l, hl, hkind⟩ := hrecords.kinds n hn
    exact SequentialModel.counts_of_stands hstands hm l hl n.op hkind

end NetPack
