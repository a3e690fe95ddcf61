import NetPack.Proofs.Exchange.Messages
import NetPack.Proofs.Exchange.Operands
import NetPack.Proofs.Exchange.Operators

/-!
# Integers of exchange files

All integers that are read from an exchange file have 64 bits, whatever the file is
(`Exchange.Model.bounded_of_decode?`). Lifting takes those that are not negative for counts, so the
hyper-parameters of what it gives are small numbers (`Exchange.small_of_liftOperator`).
-/

namespace NetPack

namespace Exchange

open Wire

/-! ### Bounded files -/

/-- The integers of the attribute have 64 bits. -/
structure Attribute.Bounded (a : Attribute) : Prop where
  int : Long a.int
  ints : ∀ i ∈ a.ints, Long i

/-- The integers of the attributes have 64 bits. -/
def Operator.Bounded (o : Operator) : Prop := ∀ a ∈ o.attributes, a.Bounded

/-- The extents of the initializer have 64 bits. -/
def Initializer.Bounded (t : Initializer) : Prop := ∀ i ∈ t.dims, Long i

/-- The declared extents have 64 bits. -/
def ValueType.Bounded : ValueType → Prop
  | .unset => True
  | .tensor _ shape => ∀ dims ∈ shape, ∀ d ∈ dims, Dimension.Storable d

/-- The declared extents have 64 bits. -/
def Value.Bounded (v : Value) : Prop := v.type.Bounded

/-- The integers of a graph have 64 bits. -/
structure Graph.Bounded (g : Graph) : Prop where
  operators : ∀ o ∈ g.operators, o.Bounded
  initializers : ∀ t ∈ g.initializers, t.Bounded
  inputs : ∀ v ∈ g.inputs, v.Bounded
  outputs : ∀ v ∈ g.outputs, v.Bounded

/-- The integers of the graph of a file have 64 bits. -/
def Model.Bounded (m : Model) : Prop := ∀ g ∈ m.graph, g.Bounded

theorem Value.Storable.bounded {v : Value} (h : v.Storable) : v.Bounded := by
  unfold Value.Storable at h
  unfold Bounded
  cases htype : v.type with
  | unset => trivial
  | tensor elementType shape =>
    rw [htype] at h
    exact h.2

theorem Model.Storable.bounded {m : Model} (h : m.Storable) : m.Bounded := fun g hg =>
  have hg := h.graph g hg
  ⟨fun o ho a ha => ⟨(hg.operators o ho a ha).int, (hg.operators o ho a ha).ints⟩,
    fun t ht => (hg.initializers t ht).dims, fun v hv => (hg.inputs v hv).bounded,
    fun v hv => (hg.outputs v hv).bounded⟩

/-! ### Files that were read -/

theorem long_of_mem_intsOf (v : Wire.Value) : ∀ i ∈ intsOf v, Long i := by
  cases v with
  | varint n => exact List.forall_mem_singleton.2 (long_signed n)
  | bytes b => exact List.forall_mem_map.2 fun n _ => long_signed n
  | _ => simp [intsOf]

theorem Attribute.bounded_ofBytes (b : Bytes) : (ofBytes b).Bounded := by
  refine List.foldlRecOn _ _ ⟨by simp [named, Long], by simp [named]⟩ fun a ha f _ => ?_
  unfold step
  split
  · exact ⟨ha.int, ha.ints⟩
  · exact ⟨ha.int, ha.ints⟩
  · rename_i n _
    refine ⟨?_, ha.ints⟩
    dsimp only
    exact long_signed n
  · exact ⟨ha.int, ha.ints⟩
  · rename_i v _
    exact ⟨ha.int, List.forall_mem_append.2 ⟨ha.ints, long_of_mem_intsOf v⟩⟩
  · exact ⟨ha.int, ha.ints⟩
  · exact ha

theorem Operator.bounded_ofBytes (b : Bytes) : (ofBytes b).Bounded := by
  refine List.foldlRecOn _ _ (by simp [Bounded]) fun o ho f _ => ?_
  unfold step
  split
  case h_5 =>
    exact List.forall_mem_append.2
      ⟨ho, List.forall_mem_singleton.2 (Attribute.bounded_ofBytes _)⟩
  all_goals exact ho

theorem Initializer.bounded_ofBytes (b : Bytes) : (ofBytes b).Bounded := by
  refine List.foldlRecOn _ _ (by simp [Bounded]) fun t ht f _ => ?_
  unfold step
  split
  case h_1 v _ => exact List.forall_mem_append.2 ⟨ht, long_of_mem_intsOf v⟩
  all_goals exact fun i hi => ht i hi

theorem Dimension.storable_ofBytes (b : Bytes) : (ofBytes b).Storable := by
  refine List.foldlRecOn _ _ trivial fun d hd f _ => ?_
  unfold step
  split
  · rename_i n _
    exact long_signed n
  · trivial
  · exact hd

/-- The extents of a shape that is given in pieces are put together. -/
theorem ValueType.storable_tensorStep {t : Int × Option (List Dimension)}
    (ht : ∀ dims ∈ t.2, ∀ d ∈ dims, Dimension.Storable d) (f : Field) :
    ∀ dims ∈ (tensorStep t f).2, ∀ d ∈ dims, Dimension.Storable d := by
  unfold tensorStep
  split
  · exact ht
  · rintro _ ⟨⟩
    refine List.forall_mem_append.2 ⟨fun d hd => ?_, fun d hd => ?_⟩
    · cases hdims : t.2 with
      | none => simp [hdims] at hd
      | some dims =>
        rw [hdims] at hd
        exact ht dims hdims d hd
    · obtain ⟨f, -, hf⟩ := List.mem_filterMap.1 hd
      split at hf
      · obtain rfl := Option.some.inj hf
        exact Dimension.storable_ofBytes _
      · cases hf
  · exact ht

theorem ValueType.bounded_step {t : ValueType} (ht : t.Bounded) (f : Field) :
    (t.step f).Bounded := by
  unfold step
  split
  · dsimp only
    refine List.foldlRecOn (motive := fun u : Int × Option (List Dimension) =>
      ∀ dims ∈ u.2, ∀ d ∈ dims, Dimension.Storable d) _ _ ?_ fun u hu f _ =>
        storable_tensorStep hu f
    cases t with
    | unset => simp
    | tensor elementType shape => exact ht
  · exact ht

theorem Value.bounded_ofBytes (b : Bytes) : (ofBytes b).Bounded := by
  refine List.foldlRecOn _ _ trivial fun v hv f _ => ?_
  unfold step
  split
  · exact hv
  · exact List.foldlRecOn _ _ hv fun t ht f _ => ValueType.bounded_step ht f
  · exact hv

theorem Graph.bounded_step {g : Graph} (hg : g.Bounded) (f : Field) : (g.step f).Bounded := by
  unfold step
  split
  · exact ⟨List.forall_mem_append.2
      ⟨hg.operators, List.forall_mem_singleton.2 (Operator.bounded_ofBytes _)⟩,
      hg.initializers, hg.inputs, hg.outputs⟩
  · exact ⟨hg.operators, hg.initializers, hg.inputs, hg.outputs⟩
  · exact ⟨hg.operators, List.forall_mem_append.2
      ⟨hg.initializers, List.forall_mem_singleton.2 (Initializer.bounded_ofBytes _)⟩,
      hg.inputs, hg.outputs⟩
  · exact ⟨hg.operators, hg.initializers, List.forall_mem_append.2
      ⟨hg.inputs, List.forall_mem_singleton.2 (Value.bounded_ofBytes _)⟩, hg.outputs⟩
  · exact ⟨hg.operators, hg.initializers, hg.inputs, List.forall_mem_append.2
      ⟨hg.outputs, List.forall_mem_singleton.2 (Value.bounded_ofBytes _)⟩⟩
  · exact hg

/-- **All integers that are read from a file have 64 bits.** -/
theorem Model.bounded_of_decode? {b : Bytes} {m : Model} (h : decode? b = some m) : m.Bounded := by
  unfold decode? at h
  split at h
  · obtain rfl := Option.some.inj h
    have hstart : (⟨0, "", "", [], none⟩ : Model).Bounded := fun _ hg => by cases hg
    refine List.foldlRecOn _ _ hstart fun m hm f _ => ?_
    unfold step
    split
    case h_4 =>
      have hstart : (m.graph.getD ⟨[], "", [], [], []⟩).Bounded := by
        cases hgraph : m.graph with
        | none => exact ⟨by simp, by simp, by simp, by simp⟩
        | some g => exact hm g hgraph
      rintro _ ⟨⟩
      exact List.foldlRecOn _ _ hstart fun g hg f _ => Graph.bounded_step hg f
    all_goals exact fun g hg => hm g hg
  · cases h

/-! ### Hyper-parameters -/

theorem small_of_natural? {i : Int} {n : Nat} (hi : Long i) (h : natural? i = some n) :
    Small n := by
  cases i with
  | ofNat m =>
    obtain rfl := Option.some.inj h
    exact Int.ofNat_lt.1 hi.2
  | negSucc m => cases h

theorem small_of_mapM {is : List Int} {ns : List Nat} (his : ∀ i ∈ is, Long i)
    (h : is.mapM natural? = some ns) : ∀ n ∈ ns, Small n := by
  induction is generalizing ns with
  | nil =>
    obtain rfl : [] = ns := by simpa using h
    simp
  | cons i is ih =>
    rw [List.forall_mem_cons] at his
    rw [List.mapM_cons] at h
    obtain ⟨n, hn, h⟩ := Option.bind_eq_some_iff.1 h
    obtain ⟨ns', hns, h⟩ := Option.bind_eq_some_iff.1 h
    obtain rfl := Option.some.inj h
    exact List.forall_mem_cons.2 ⟨small_of_natural? his.1 hn, ih his.2 hns⟩

section Operator

variable {o : Operator} {name : String} {a absent : Axes}

theorem small_of_axesAttribute (ho : o.Bounded) (habsent : absent.Small)
    (h : o.axesAttribute name absent = .ok a) : a.Small := by
  unfold Operator.axesAttribute at h
  split at h
  · exact Except.ok.inj h ▸ habsent
  · rename_i given hgiven
    split at h
    · rename_i height width hints
      obtain rfl := Except.ok.inj h
      have hsmall := small_of_mapM (ho given (List.mem_of_find?_eq_some hgiven)).ints hints
      rw [List.forall_mem_cons, List.forall_mem_singleton] at hsmall
      exact hsmall
    · cases h

theorem small_of_padding (ho : o.Bounded) (h : o.padding = .ok a) : a.Small := by
  have hpads : (∃ given ∈ o.attributes, ∃ height width rest,
      given.ints.mapM natural? = some (height :: width :: rest) ∧ a = ⟨height, width⟩) ∨
      a = ⟨0, 0⟩ := by
    unfold Operator.padding at h
    dsimp only at h
    split at h
    case' h_1 =>
      split at h
      · cases h
    -- The pads are read in the same way whether padding is named or not.
    all_goals
      split at h
      · exact .inr (Outcome.pure_eq_ok_iff.1 h).symm
      · rename_i given hgiven
        split at h
        · rename_i top left bottom right hints
          split at h
          · exact .inl ⟨given, List.mem_of_find?_eq_some hgiven, top, left, [bottom, right], hints,
              (Outcome.pure_eq_ok_iff.1 h).symm⟩
          · cases h
        · cases h
  rcases hpads with ⟨given, hgiven, height, width, rest, hints, rfl⟩ | rfl
  · have hsmall := small_of_mapM (ho given hgiven).ints hints
    rw [List.forall_mem_cons, List.forall_mem_cons] at hsmall
    exact ⟨hsmall.1, hsmall.2.1⟩
  · simp [Axes.Small, Small]

theorem small_of_group {n : Nat} (ho : o.Bounded)
    (h : natural? (o.intAttribute "group" 1) = some n) : Small n := by
  refine small_of_natural? ?_ h
  unfold Operator.intAttribute
  cases hgiven : o.attribute? "group" with
  | none => simp [Long]
  | some given => exact (ho given (List.mem_of_find?_eq_some hgiven)).int

theorem small_of_liftConv {constants : Constants} {op : Op Binary32} (ho : o.Bounded)
    (h : liftConv o constants = .ok op) : op.Small := by
  simp only [liftConv, Outcome.throw_eq_error, Outcome.error_bind] at h
  rw [Outcome.ite_eq_ok (by simp)] at h
  obtain ⟨-, h⟩ := h
  obtain ⟨_, -, h⟩ := Outcome.bind_eq_ok.1 h
  obtain ⟨stride, hstride, h⟩ := Outcome.bind_eq_ok.1 h
  obtain ⟨padding, hpadding, h⟩ := Outcome.bind_eq_ok.1 h
  split at h
  · rename_i groups hgroups
    obtain rfl := Outcome.pure_eq_ok_iff.1 h
    exact ⟨small_of_axesAttribute ho (by simp [Axes.Small, Small]) hstride,
      small_of_padding ho hpadding, small_of_group ho hgroups⟩
  · cases h

theorem small_of_liftMaxPool {op : Op Binary32} (ho : o.Bounded) (h : liftMaxPool o = .ok op) :
    op.Small := by
  simp only [liftMaxPool, Outcome.throw_eq_error, Outcome.error_bind] at h
  obtain ⟨kernel, hkernel, h⟩ := Outcome.bind_eq_ok.1 h
  rw [Outcome.ite_eq_ok (by simp), Outcome.ite_eq_ok (by simp)] at h
  obtain ⟨-, -, h⟩ := h
  obtain ⟨stride, hstride, h⟩ := Outcome.bind_eq_ok.1 h
  obtain ⟨padding, hpadding, h⟩ := Outcome.bind_eq_ok.1 h
  obtain rfl := Outcome.pure_eq_ok_iff.1 h
  exact ⟨small_of_axesAttribute ho (by simp [Axes.Small, Small]) hkernel,
    small_of_axesAttribute ho (by simp [Axes.Small, Small]) hstride, small_of_padding ho hpadding⟩

/-- **What is lifted has small hyper-parameters.** -/
theorem small_of_liftOperator {constants : Constants} {rank : Nat} {op : Op Binary32}
    (ho : o.Bounded) (h : liftOperator o constants rank = .ok (some op)) : op.Small := by
  have hlift := h
  unfold liftOperator at h
  split at h
  case h_1 =>
    obtain ⟨op', hop, h⟩ := Outcome.bind_eq_ok.1 h
    obtain rfl := Option.some.inj (Outcome.pure_eq_ok_iff.1 h)
    exact small_of_liftConv ho hop
  case h_2 =>
    obtain ⟨op', hop, h⟩ := Outcome.bind_eq_ok.1 h
    obtain rfl := Option.some.inj (Outcome.pure_eq_ok_iff.1 h)
    unfold liftGemm at hop
    dsimp only at hop
    split at hop <;> cases hop
    trivial
  case h_7 htype =>
    obtain ⟨⟨kind, rfl⟩, -⟩ := liftOperator_clip htype hlift
    trivial
  case h_8 =>
    obtain ⟨op', hop, h⟩ := Outcome.bind_eq_ok.1 h
    obtain rfl := Option.some.inj (Outcome.pure_eq_ok_iff.1 h)
    exact small_of_liftMaxPool ho hop
  case h_10 | h_11 =>
    dsimp only at h
    split at h <;> cases h
    trivial
  -- No other operation has hyper-parameters that are counts.
  all_goals
    cases h <;> trivial

end Operator

end Exchange

end NetPack
