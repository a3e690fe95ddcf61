import NetPack.Proofs.Operations
import NetPack.Proofs.Tables
import NetPack.Proofs.Validity

/-!
# The sizes of the values of a valid graph

Convolution and pooling refuse a result whose bytes cannot be counted in a word, whatever they read.
The other operations infer a shape without such a check. Most of them give a result that is not
larger than what they read (`Op.byteBounded_of_inferShape`), so the bound goes on along the nodes.
It can get lost in two places: a fully connected layer multiplies the number of rows by the width
of its weight, and global pooling gives a cell to every plane, also where the planes are empty.

So all values of a valid graph are bounded exactly if the declared input is bounded and the results
of these operations are (`Graph.Valid.byteBounded_iff`). Validation looks at none of these: it only
compares the number of elements of the input, as the build counts them, with zero
(`Graph.not_forall_byteBounded`).
-/

namespace NetPack

namespace Shape

/-- The exact number of bytes of single-precision numbers of this shape is a word. -/
def ByteBounded (s : Shape) : Prop := Word.product s.dims * DType.f32.bytes < Word.modulus

theorem byteBounded_of_numBytes? {s : Shape} (h : (s.numBytes? .f32).isSome) : s.ByteBounded :=
  product_lt_of_numBytes? h

/-- A shape with no more elements is bounded too. -/
theorem ByteBounded.of_le {s out : Shape} (h : s.ByteBounded)
    (hle : Word.product out.dims ≤ Word.product s.dims) : out.ByteBounded :=
  lt_of_le_of_lt (Nat.mul_le_mul_right _ hle) h

instance : DecidablePred ByteBounded := fun s =>
  inferInstanceAs (Decidable (Word.product s.dims * DType.f32.bytes < Word.modulus))

end Shape

namespace Op

variable [Build] {α : Type} {input out : Shape} {shapes : List Shape}

/-- The operations that refuse a result whose bytes cannot be counted. -/
def Measures : Op α → Prop
  | conv _ | maxPool _ => True
  | _ => False

/-- The result can have more elements than the input, and no check bounds it. -/
def Unchecked (input : Shape) : Op α → Prop
  | linear => True
  | globalAvgPool => Word.product input.dims = 0
  | _ => False

/-- What they infer is bounded, whatever they read. -/
theorem byteBounded_of_measures {op : Op α} (hop : op.Measures)
    (h : op.inferShape input shapes = .ok out) : out.ByteBounded := by
  cases op with
  | conv p =>
    obtain ⟨d, hd, -, rfl, -⟩ := inferShape_conv.1 h
    exact Shape.byteBounded_of_numBytes? hd.bytes
  | maxPool p =>
    obtain ⟨-, d, hd, -, rfl⟩ := inferShape_maxPool.1 h
    exact Shape.byteBounded_of_numBytes? hd.bytes
  | _ => exact hop.elim

/-- **A bounded input gives a bounded result**, except where nothing bounds it. -/
theorem byteBounded_of_inferShape {op : Op α} (hop : ¬op.Unchecked input)
    (hinput : input.ByteBounded) (h : op.inferShape input shapes = .ok out) : out.ByteBounded := by
  cases op with
  | conv p =>
    have hmeasures : (conv p : Op α).Measures := trivial
    exact byteBounded_of_measures hmeasures h
  | linear => exact absurd trivial hop
  | batchNorm epsilon =>
    obtain ⟨-, -, -, -, rfl, -⟩ := inferShape_batchNorm.1 h
    exact hinput
  | activation kind =>
    obtain ⟨-, rfl⟩ := inferShape_activation.1 h
    exact hinput
  | maxPool p =>
    have hmeasures : (maxPool p : Op α).Measures := trivial
    exact byteBounded_of_measures hmeasures h
  | globalAvgPool =>
    obtain ⟨-, n, c, height, width, rfl, rfl⟩ := inferShape_globalAvgPool.1 h
    refine hinput.of_le ?_
    have hplane : 0 < height * (width * 1) := by
      refine Nat.pos_of_ne_zero fun hzero => hop ?_
      simp only [Unchecked, Word.product_cons, Word.product_nil, hzero, Nat.mul_zero]
    simp only [Word.product_cons, Word.product_nil, Nat.mul_one, ← Nat.mul_assoc] at hplane ⊢
    rw [Nat.mul_assoc]
    exact Nat.le_mul_of_pos_right _ hplane
  | flatten =>
    obtain ⟨-, n, rest, m, rfl, hm, rfl⟩ := inferShape_flatten.1 h
    refine hinput.of_le ?_
    have hwrap : m ≤ Word.product rest := Shape.eq_wrap_of_product hm ▸ Nat.mod_le _ _
    simpa [Shape.matrix] using Nat.mul_le_mul_left n hwrap
  | softmax =>
    obtain ⟨-, -, rfl⟩ := inferShape_softmax.1 h
    exact hinput

end Op

namespace Graph

variable {α : Type} {params : Table (Tensor α)} {s : Scope} {ns : List (Node α)} {g : Graph α}

theorem AllFit.byteBounded [Build] (h : AllFit params s ns) (hs : ∀ v ∈ s.values, v.2.ByteBounded)
    (hns : ∀ n ∈ ns, ∀ input, (ns.foldl Scope.extend s).values.lookup n.input = some input →
      n.op.Unchecked input → n.outputShape.ByteBounded) :
    (∀ n ∈ ns, n.outputShape.ByteBounded) ∧
      ∀ v ∈ (ns.foldl Scope.extend s).values, v.2.ByteBounded := by
  -- Along the nodes all values in scope are bounded.
  induction ns generalizing s with
  | nil => exact ⟨by simp, hs⟩
  | cons n ns ih =>
    obtain ⟨input, hinput, hinfer⟩ := h.1.inferred
    have hn : n.outputShape.ByteBounded := by
      by_cases hop : n.op.Unchecked input
      · exact hns n List.mem_cons_self input (h.lookup_final hinput) hop
      · exact Op.byteBounded_of_inferShape hop (hs _ (Table.mem_of_lookup hinput)) hinfer
    obtain ⟨hrest, hfinal⟩ := ih h.2 (List.forall_mem_cons.2 ⟨hn, hs⟩)
      fun m hm => hns m (List.mem_cons_of_mem _ hm)
    exact ⟨List.forall_mem_cons.2 ⟨hn, hrest⟩, hfinal⟩

theorem AllFit.byteBounded_of_measures [Build] (h : AllFit params s ns) :
    ∀ n ∈ ns, n.op.Measures → n.outputShape.ByteBounded := by
  induction ns generalizing s with
  | nil => simp
  | cons n ns ih =>
    obtain ⟨input, -, hinfer⟩ := h.1.inferred
    exact List.forall_mem_cons.2 ⟨fun hop => Op.byteBounded_of_measures hop hinfer, ih h.2⟩

/-- **Which values of a valid graph are bounded.** The results of convolutions and poolings always
are, and all values are if the declared input and the unchecked results are. -/
theorem Valid.byteBounded_iff [Build] (hg : g.Valid) :
    (∀ n ∈ g.nodes, n.op.Measures → n.outputShape.ByteBounded) ∧
    ((g.input.shape.ByteBounded ∧ g.output.shape.ByteBounded ∧
        ∀ n ∈ g.nodes, n.outputShape.ByteBounded) ↔
      g.input.shape.ByteBounded ∧
        ∀ n ∈ g.nodes, ∀ input, (Scope.final g).values.lookup n.input = some input →
          n.op.Unchecked input → n.outputShape.ByteBounded) := by
  obtain ⟨-, -, -, hfit, hout⟩ := valid_iff.1 hg
  refine ⟨hfit.byteBounded_of_measures, ?_, ?_⟩
  · rintro ⟨hinput, -, hnodes⟩
    exact ⟨hinput, fun n hn _ _ _ => hnodes n hn⟩
  · rintro ⟨hinput, hunchecked⟩
    obtain ⟨hnodes, hfinal⟩ :=
      hfit.byteBounded (List.forall_mem_singleton.2 hinput) hunchecked
    exact ⟨hinput, hfinal _ (Table.mem_of_lookup hout), hnodes⟩

/-! #### An input that is too large -/

/-- An activation of a vector of the given length. -/
def activated (length : Nat) : Graph Binary32 where
  name := "m"
  input := .fixed "x" (.vector length)
  output := .fixed "y" (.vector length)
  nodes := [⟨"act", .activation .relu, "x", [], "y", .vector length⟩]
  params := .empty

theorem byteBounded_activated :
    (activated 3).Valid ∧ (activated 3).output.shape.ByteBounded := by
  have hvalid : (activated 3).Valid := by decide
  have hbounded := (Valid.byteBounded_iff hvalid).2.2 ⟨by decide, ?_⟩
  · exact ⟨hvalid, hbounded.2.1⟩
  · intro n hn input _ hop
    obtain rfl := List.mem_singleton.1 hn
    exact hop.elim

/-- The bytes of `2 ^ 62` numbers cannot be counted in a word, but their number can. -/
theorem not_forall_byteBounded :
    ¬∀ g : Graph Binary32, g.Valid →
      (∀ name t, g.params.find? name = some t → t.WellFormed) →
      g.input.shape.ByteBounded ∧ g.output.shape.ByteBounded ∧
        ∀ n ∈ g.nodes, n.outputShape.ByteBounded := by
  intro h
  have hvalid : (activated 4611686018427387904).Valid := by decide
  have hbounded := (h _ hvalid (by simp [activated, Table.empty, Table.find?])).1
  exact absurd hbounded (by decide)

end Graph

end NetPack
