import NetPack.Model.Manifest
import NetPack.Proofs.Json.Headers
import NetPack.Proofs.Outcomes

/-!
# Counts that were read are words

A number of a document is read as a count only if it is a word (`Json.gives_nat`), and so all counts
of whatever is read from a document are words: those of the topology in a bundle
(`Topology.gives_read`) and those of the operations that a manifest lists
(`Manifest.gives_read`, `LayerSpec.Words.kind`).
-/

namespace NetPack

namespace Document

variable {δ α : Type} {value : Decoder δ α} {P : α → Prop}

/-- All values that are read have the property. -/
def Gives (value : Decoder δ α) (P : α → Prop) : Prop := ∀ d a, value d = .ok a → P a

namespace Record

variable {r : Record δ} {field : String} {a : α}

theorem of_required (h : Gives value P) (hr : r.required field value = .ok a) : P a := by
  unfold required at hr
  split at hr
  · exact h _ a hr
  · cases hr

theorem of_withDefault {absent : α} (h : Gives value P) (habsent : P absent)
    (hr : r.withDefault field value absent = .ok a) : P a := by
  unfold withDefault at hr
  split at hr
  · exact h _ a hr
  · exact Except.ok.inj hr ▸ habsent

end Record

variable [Document δ]

theorem Gives.list (h : Gives value P) : Gives (list value) fun as => ∀ a ∈ as, P a := by
  intro d as has
  obtain ⟨es, -, has⟩ := Outcome.bind_eq_ok.1 has
  exact Outcome.forall_of_mapM has fun e _ a ha => h e a ha

theorem Gives.pair (h : Gives value P) : Gives (pair value) fun p => P p.1 ∧ P p.2 := by
  intro d p hp
  obtain ⟨es, -, hp⟩ := Outcome.bind_eq_ok.1 hp
  obtain ⟨as, has, hp⟩ := Outcome.bind_eq_ok.1 hp
  have hall := Outcome.forall_of_mapM has fun e _ a ha => h e a ha
  split at hp
  · obtain rfl := Outcome.pure_eq_ok_iff.1 hp
    simpa using hall
  · cases hp

theorem Gives.option (h : Gives value P) : Gives (option value) fun o => ∀ a ∈ o, P a := by
  intro d o ho
  unfold Document.option at ho
  split at ho
  · simp [← Except.ok.inj ho]
  · obtain ⟨a, ha, rfl⟩ := Outcome.map_eq_ok.1 ho
    simpa using h d a ha

theorem Record.of_optional {r : Record δ} {field : String} {o : Option α} (h : Gives value P)
    (hr : r.optional field value = .ok o) : ∀ a ∈ o, P a :=
  of_withDefault h.option (by simp) hr

theorem Gives.decode {value : Decoder Json α} (h : Gives value P) {text : String} {a : α}
    (hdecode : Json.decode value text = .ok a) : P a := by
  unfold Json.decode at hdecode
  split at hdecode
  · exact h _ a hdecode
  · cases hdecode

end Document

open Document

theorem Json.gives_nat : Gives (Document.nat : Decoder Json Nat) (· < Word.modulus) := by
  intro j n h
  have hword : ∃ literal, wordOfLiteral? literal = some n := by
    simp only [Document.nat, Document.nat?] at h
    split at h
    · rename_i literal
      cases hword : wordOfLiteral? literal with
      | none => simp [hword, expect] at h
      | some m =>
        rw [hword] at h
        exact ⟨literal, hword.trans (congrArg some (Except.ok.inj h))⟩
    · cases h
  obtain ⟨literal, hword⟩ := hword
  simp only [wordOfLiteral?] at hword
  split at hword
  · rename_i hsmall
    obtain rfl := Option.some.inj hword
    simp only [Bool.and_eq_true, decide_eq_true_eq] at hsmall
    exact hsmall.2
  · cases hword

/-! ### Topologies -/

theorem Axes.gives_read :
    Gives (Axes.read : Decoder Json Axes) fun a => ∀ n ∈ a.toList, n < Word.modulus := by
  intro j a h
  obtain ⟨p, hp, h⟩ := Outcome.bind_eq_ok.1 h
  obtain rfl := Outcome.pure_eq_ok_iff.1 h
  simpa [toList] using Json.gives_nat.pair j p hp

theorem Shape.gives_read :
    Gives (Shape.read : Decoder Json Shape) fun s => ∀ d ∈ s.dims, d < Word.modulus := by
  intro j s h
  obtain ⟨dims, hdims, h⟩ := Outcome.bind_eq_ok.1 h
  obtain rfl := Outcome.pure_eq_ok_iff.1 h
  exact Json.gives_nat.list j dims hdims

theorem ConvParams.words_of_ofContents {fields : Contents Json} {p : ConvParams}
    (h : ofContents fields = .ok p) :
    ∀ n ∈ (Op.conv p : Op Binary32).counts, n < Word.modulus := by
  obtain ⟨r, -, h⟩ := Outcome.bind_eq_ok.1 h
  obtain ⟨stride, hstride, h⟩ := Outcome.bind_eq_ok.1 h
  obtain ⟨padding, hpadding, h⟩ := Outcome.bind_eq_ok.1 h
  obtain ⟨groups, hgroups, h⟩ := Outcome.bind_eq_ok.1 h
  obtain rfl := Outcome.pure_eq_ok_iff.1 h
  simp only [Op.counts, List.forall_mem_append, List.forall_mem_singleton]
  exact ⟨⟨Record.of_required Axes.gives_read hstride, Record.of_required Axes.gives_read hpadding⟩,
    Record.of_required (P := (· < Word.modulus)) Json.gives_nat hgroups⟩

theorem PoolParams.words_of_ofContents {fields : Contents Json} {p : PoolParams}
    (h : ofContents fields = .ok p) :
    ∀ n ∈ (Op.maxPool p : Op Binary32).counts, n < Word.modulus := by
  obtain ⟨r, -, h⟩ := Outcome.bind_eq_ok.1 h
  obtain ⟨kernel, hkernel, h⟩ := Outcome.bind_eq_ok.1 h
  obtain ⟨stride, hstride, h⟩ := Outcome.bind_eq_ok.1 h
  obtain ⟨padding, hpadding, h⟩ := Outcome.bind_eq_ok.1 h
  obtain rfl := Outcome.pure_eq_ok_iff.1 h
  simp only [Op.counts, List.forall_mem_append]
  exact ⟨⟨Record.of_required Axes.gives_read hkernel, Record.of_required Axes.gives_read hstride⟩,
    Record.of_required Axes.gives_read hpadding⟩

theorem Op.gives_read :
    Gives (Op.read : Decoder Json (Op Binary32)) fun op => ∀ n ∈ op.counts, n < Word.modulus := by
  intro j op h
  obtain ⟨⟨tag, fields⟩, -, h⟩ := Outcome.bind_eq_ok.1 h
  dsimp only at h
  split at h
  -- Only convolutions and poolings have counts.
  case h_1 =>
    obtain ⟨p, hp, h⟩ := Outcome.bind_eq_ok.1 h
    obtain rfl := Outcome.pure_eq_ok_iff.1 h
    exact ConvParams.words_of_ofContents hp
  case h_2 =>
    obtain ⟨p, hp, h⟩ := Outcome.bind_eq_ok.1 h
    obtain rfl := Outcome.pure_eq_ok_iff.1 h
    exact PoolParams.words_of_ofContents hp
  case h_3 | h_4 =>
    obtain ⟨r, -, h⟩ := Outcome.bind_eq_ok.1 h
    obtain ⟨x, -, h⟩ := Outcome.bind_eq_ok.1 h
    obtain rfl := Outcome.pure_eq_ok_iff.1 h
    simp [counts]
  case h_9 => cases h
  all_goals
    obtain ⟨_, -, h⟩ := Outcome.bind_eq_ok.1 h
    obtain rfl := Outcome.pure_eq_ok_iff.1 h
    simp [counts]

theorem ValueInfo.gives_read :
    Gives (ValueInfo.read : Decoder Json ValueInfo) fun v => ∀ n ∈ v.counts, n < Word.modulus := by
  intro j v h
  obtain ⟨r, -, h⟩ := Outcome.bind_eq_ok.1 h
  obtain ⟨name, -, h⟩ := Outcome.bind_eq_ok.1 h
  obtain ⟨shape, hshape, h⟩ := Outcome.bind_eq_ok.1 h
  obtain ⟨axes, haxes, h⟩ := Outcome.bind_eq_ok.1 h
  obtain rfl := Outcome.pure_eq_ok_iff.1 h
  rw [counts, List.forall_mem_append]
  exact ⟨Record.of_required Shape.gives_read hshape,
    Record.of_withDefault Json.gives_nat.list (by simp) haxes⟩

theorem Node.gives_read :
    Gives (Node.read : Decoder Json (Node Binary32)) fun n => ∀ k ∈ n.counts, k < Word.modulus := by
  intro j n h
  obtain ⟨r, -, h⟩ := Outcome.bind_eq_ok.1 h
  obtain ⟨name, -, h⟩ := Outcome.bind_eq_ok.1 h
  obtain ⟨op, hop, h⟩ := Outcome.bind_eq_ok.1 h
  obtain ⟨input, -, h⟩ := Outcome.bind_eq_ok.1 h
  obtain ⟨params, -, h⟩ := Outcome.bind_eq_ok.1 h
  obtain ⟨output, -, h⟩ := Outcome.bind_eq_ok.1 h
  obtain ⟨shape, hshape, h⟩ := Outcome.bind_eq_ok.1 h
  obtain rfl := Outcome.pure_eq_ok_iff.1 h
  rw [counts, List.forall_mem_append]
  exact ⟨Record.of_required Op.gives_read hop, Record.of_required Shape.gives_read hshape⟩

/-- **All counts of a topology that was read are words.** -/
theorem Topology.gives_read :
    Gives (Topology.read : Decoder Json (Topology Binary32))
      fun t => ∀ n ∈ t.counts, n < Word.modulus := by
  intro j t h
  obtain ⟨r, -, h⟩ := Outcome.bind_eq_ok.1 h
  obtain ⟨name, -, h⟩ := Outcome.bind_eq_ok.1 h
  obtain ⟨input, hinput, h⟩ := Outcome.bind_eq_ok.1 h
  obtain ⟨output, houtput, h⟩ := Outcome.bind_eq_ok.1 h
  obtain ⟨nodes, hnodes, h⟩ := Outcome.bind_eq_ok.1 h
  obtain rfl := Outcome.pure_eq_ok_iff.1 h
  simp only [counts, List.forall_mem_append, List.forall_mem_flatMap]
  exact ⟨⟨Record.of_required ValueInfo.gives_read hinput,
    Record.of_required ValueInfo.gives_read houtput⟩,
    Record.of_required Node.gives_read.list hnodes⟩

theorem Bundle.gives_readHeader :
    Gives (readHeader : Decoder Json (Nat × Topology Binary32))
      fun p => ∀ n ∈ p.2.counts, n < Word.modulus := by
  intro j p h
  obtain ⟨r, -, h⟩ := Outcome.bind_eq_ok.1 h
  obtain ⟨found, -, h⟩ := Outcome.bind_eq_ok.1 h
  obtain ⟨t, ht, h⟩ := Outcome.bind_eq_ok.1 h
  obtain rfl := Outcome.pure_eq_ok_iff.1 h
  exact Record.of_required Topology.gives_read ht

/-! ### Manifests -/

namespace LayerSpec

/-- The hyper-parameters that are counts are words. -/
structure Words (l : LayerSpec) : Prop where
  axes : ∀ a, l.kernelSize = some a ∨ l.stride = some a ∨ l.padding = some a →
    ∀ n ∈ a.toList, n < Word.modulus
  groups : ∀ n ∈ l.groups, n < Word.modulus

theorem gives_read : Gives (LayerSpec.read : Decoder Json LayerSpec) Words := by
  intro j l h
  obtain ⟨r, -, h⟩ := Outcome.bind_eq_ok.1 h
  obtain ⟨name, -, h⟩ := Outcome.bind_eq_ok.1 h
  obtain ⟨layerType, -, h⟩ := Outcome.bind_eq_ok.1 h
  obtain ⟨weights, -, h⟩ := Outcome.bind_eq_ok.1 h
  obtain ⟨kernelSize, hkernel, h⟩ := Outcome.bind_eq_ok.1 h
  obtain ⟨stride, hstride, h⟩ := Outcome.bind_eq_ok.1 h
  obtain ⟨padding, hpadding, h⟩ := Outcome.bind_eq_ok.1 h
  obtain ⟨groups, hgroups, h⟩ := Outcome.bind_eq_ok.1 h
  obtain ⟨epsilon, -, h⟩ := Outcome.bind_eq_ok.1 h
  obtain rfl := Outcome.pure_eq_ok_iff.1 h
  refine ⟨?_, Record.of_optional Json.gives_nat hgroups⟩
  rintro a (ha | ha | ha)
  · exact Record.of_optional Axes.gives_read hkernel a ha
  · exact Record.of_optional Axes.gives_read hstride a ha
  · exact Record.of_optional Axes.gives_read hpadding a ha

/-- Only convolutions and poolings have counts: those of the layer, or defaults. -/
theorem counts_of_kind {l : LayerSpec} {op : Op Binary32} (h : l.kind = .ok (.op op)) :
    op.counts = [] ∨
      op = .conv ⟨l.stride.getD ⟨1, 1⟩, l.padding.getD ⟨0, 0⟩, l.groups.getD 1⟩ ∨
      ∃ kernel, l.kernelSize = some kernel ∧
        op = .maxPool ⟨kernel, l.stride.getD kernel, l.padding.getD ⟨0, 0⟩⟩ := by
  unfold kind at h
  dsimp only at h
  split at h
  case h_1 | h_2 =>
    cases h
    exact .inr (.inl rfl)
  case h_15 | h_16 | h_17 =>
    split at h
    · rename_i kernel hkernel
      cases h
      exact .inr (.inr ⟨kernel, hkernel, rfl⟩)
    · cases h
  -- All other layers are operations without counts, or no operations.
  all_goals cases h <;> exact .inl rfl

theorem axes_getD {o : Option Axes} {absent : Axes}
    (h : ∀ a, o = some a → ∀ n ∈ a.toList, n < Word.modulus)
    (habsent : ∀ n ∈ absent.toList, n < Word.modulus) :
    ∀ n ∈ (o.getD absent).toList, n < Word.modulus := by
  cases o with
  | none => exact habsent
  | some a => exact h a rfl

/-- The operation that a layer stands for has the hyper-parameters of the layer or defaults. -/
theorem Words.kind {l : LayerSpec} (hl : l.Words) {op : Op Binary32}
    (h : l.kind = .ok (.op op)) : ∀ n ∈ op.counts, n < Word.modulus := by
  have hstride : ∀ a, l.stride = some a → ∀ n ∈ a.toList, n < Word.modulus :=
    fun a ha => hl.axes a (.inr (.inl ha))
  have hpadding : ∀ n ∈ (l.padding.getD ⟨0, 0⟩).toList, n < Word.modulus :=
    axes_getD (fun a ha => hl.axes a (.inr (.inr ha))) (by decide)
  rcases counts_of_kind h with hnone | rfl | ⟨kernel, hkernel, rfl⟩
  · simp [hnone]
  · have hgroups : l.groups.getD 1 < Word.modulus := by
      cases hg : l.groups with
      | none => decide
      | some n => exact hl.groups n hg
    simp only [Op.counts, List.forall_mem_append, List.forall_mem_singleton]
    exact ⟨⟨axes_getD hstride (by decide), hpadding⟩, hgroups⟩
  · have hkernel := hl.axes kernel (.inl hkernel)
    simp only [Op.counts, List.forall_mem_append]
    exact ⟨⟨hkernel, axes_getD hstride hkernel⟩, hpadding⟩

end LayerSpec

/-- The layers of a manifest that was read have words for counts. -/
theorem Manifest.gives_read :
    Gives (Manifest.read : Decoder Json Manifest) fun m => ∀ l ∈ m.layers, l.Words := by
  intro j m h
  obtain ⟨r, -, h⟩ := Outcome.bind_eq_ok.1 h
  obtain ⟨name, -, h⟩ := Outcome.bind_eq_ok.1 h
  obtain ⟨architecture, -, h⟩ := Outcome.bind_eq_ok.1 h
  obtain ⟨dtype, -, h⟩ := Outcome.bind_eq_ok.1 h
  obtain ⟨layers, hlayers, h⟩ := Outcome.bind_eq_ok.1 h
  obtain rfl := Outcome.pure_eq_ok_iff.1 h
  exact Record.of_required LayerSpec.gives_read.list hlayers

end NetPack
