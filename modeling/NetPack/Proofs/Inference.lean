import NetPack.Proofs.Kernels.GroupedConvolution
import NetPack.Proofs.Operations
import NetPack.Proofs.Replaying

/-!
# Shape inference and execution

Shapes are inferred by one set of rules and computed by another: `Op.inferShape` looks at shapes
only, and the kernels check what they are given once more. Both accept the same operands, and the
result has the inferred shape (`Op.inferShape_iff`). There is one exception: softmax of a tensor
without axes has a result, but no shape is inferred for it.

This is so where the build can place all windows and count the elements of a channel, as every
release build can. Inference does neither, so in a checked build a shape is inferred for some
operands on which the kernel breaks off (`Export.not_forall_agree`).

What an operation has computed can therefore be inferred again, whatever its operands were
(`Op.inferShape_of_execute`). A tracer records what it has computed, so validation never finds a
recorded shape wrong: it refuses a finished recording only for a name that is used twice or for an
input without elements (`Export.inference_agrees`).
-/

namespace NetPack

namespace Op

variable [Build] {α : Type} [Scalar α] {x weight y : Tensor α}

/-! ### From execution to inference -/

theorem inferShape_of_conv {p : ConvParams} (bias : Option (Tensor α))
    (h : Kernel.conv x weight bias p = .ok y) :
    (conv p : Op α).inferShape x.shape (weight.shape :: bias.toList.map (·.shape)) =
      .ok y.shape := by
  obtain ⟨d, hd, hx, hw, hb, hy, -⟩ := Kernel.conv_eq_ok.1 h
  refine inferShape_conv.2 ⟨d, hd, hx, hy, bias.toList.map (·.shape), by rw [hw], ?_, ?_⟩
  · cases bias <;> simp
  · rw [List.forall_mem_map]
    exact fun b hmem => hb b (Option.mem_toList.1 hmem)

theorem inferShape_of_linear (bias : Option (Tensor α)) (h : Kernel.linear x weight bias = .ok y) :
    (linear : Op α).inferShape x.shape (weight.shape :: bias.toList.map (·.shape)) =
      .ok y.shape := by
  obtain ⟨n, k, o, hlinear, rfl⟩ := Kernel.linear_eq_ok.1 h
  refine inferShape_linear.2 ⟨n, k, o, bias.toList.map (·.shape), hlinear.rows, rfl,
    by rw [hlinear.weights], ?_, ?_⟩
  · cases bias <;> simp
  · rw [List.forall_mem_map]
    exact fun b hmem => (hlinear.biases b (Option.mem_toList.1 hmem)).1

theorem inferShape_of_batchNorm {epsilon : α} {gamma beta mean var output : Tensor α}
    (hout : output.shape = x.shape)
    (h : Kernel.batchNorm x gamma beta mean var epsilon output = .ok y) :
    (batchNorm epsilon).inferShape x.shape ([gamma, beta, mean, var].map (·.shape)) =
      .ok y.shape := by
  obtain ⟨n, channels, trailing, -, hx, hstats, -, hy, -⟩ := (Kernel.batchNorm_eq_ok hout).1 h
  refine inferShape_batchNorm.2 ⟨n, channels, trailing, congrArg Shape.mk hx, hy, rfl, ?_⟩
  rw [List.forall_mem_map]
  exact hstats

theorem inferShape_of_maxPool {p : PoolParams} (h : Kernel.maxPool x p = .ok y) :
    (maxPool p : Op α).inferShape x.shape [] = .ok y.shape := by
  obtain ⟨d, hd, hx, hy, -⟩ := Kernel.maxPool_eq_ok.1 h
  exact inferShape_maxPool.2 ⟨rfl, d, hd, hx, hy⟩

theorem inferShape_of_globalAvgPool (h : Kernel.globalAvgPool x = .ok y) :
    (globalAvgPool : Op α).inferShape x.shape [] = .ok y.shape := by
  simp only [Kernel.globalAvgPool, Outcome.report_bind] at h
  split at h
  · rename_i n c height width hx
    obtain ⟨area, -, h⟩ := Outcome.bind_eq_ok.1 h
    rw [Outcome.ite_eq_ok (by simp)] at h
    obtain ⟨count, -, h⟩ := Outcome.bind_eq_ok.1 h.2
    obtain ⟨rfl, -⟩ := Tensor.ofArray_eq_ok_iff.1 (Outcome.ofExcept_eq_ok.1 h)
    exact inferShape_globalAvgPool.2 ⟨rfl, n, c, height, width, Shape.nchw?_eq_some.1 hx, rfl⟩
  · cases h

omit [Scalar α] in
theorem inferShape_of_flatten (h : Kernel.flatten x = .ok y) :
    (flatten : Op α).inferShape x.shape [] = .ok y.shape := by
  unfold Kernel.flatten at h
  split at h
  · rename_i n rest hx
    obtain ⟨m, hm, h⟩ := Outcome.bind_eq_ok.1 h
    obtain ⟨rfl, -⟩ := Tensor.ofArray_eq_ok_iff.1 (Outcome.ofExcept_eq_ok.1 h)
    exact inferShape_flatten.2
      ⟨rfl, n, rest, m, congrArg Shape.mk hx, Outcome.orCrash_eq_ok.1 hm, rfl⟩
  · cases h

/-- **What was computed is inferred.** Nothing is asked of the operands, but a tensor without axes
that goes through softmax is left out. -/
theorem inferShape_of_execute {op : Op α} {params : List (Tensor α)}
    (h : op.execute x params = .ok y) (haxes : ¬ (op = softmax ∧ x.shape.rank = 0)) :
    op.inferShape x.shape (params.map (·.shape)) = .ok y.shape := by
  -- An operation looks at the number of its operands first and reports any other number.
  cases op with
  | conv p =>
    rcases params with _ | ⟨weight, _ | ⟨bias, _ | ⟨_, _⟩⟩⟩
    · simp [execute] at h
    · exact inferShape_of_conv none h
    · exact inferShape_of_conv (some bias) h
    · simp [execute] at h
  | linear =>
    rcases params with _ | ⟨weight, _ | ⟨bias, _ | ⟨_, _⟩⟩⟩
    · simp [execute] at h
    · exact inferShape_of_linear none h
    · exact inferShape_of_linear (some bias) h
    · simp [execute] at h
  | batchNorm epsilon =>
    by_cases hlen : params.length = 4
    · obtain ⟨gamma, beta, mean, var, rfl⟩ := List.length_eq_four.1 hlen
      obtain ⟨output, hzeros, h⟩ := Outcome.bind_eq_ok.1 h
      exact inferShape_of_batchNorm
        (Tensor.zeros_eq_some_iff.1 (Outcome.orCrash_eq_ok.1 hzeros)).1 h
    · rcases params with _ | ⟨_, _ | ⟨_, _ | ⟨_, _ | ⟨_, _ | ⟨_, _⟩⟩⟩⟩⟩ <;>
        first
        | exact absurd rfl hlen
        | simp [execute] at h
  | activation kind =>
    rcases params with _ | ⟨_, _⟩
    · obtain ⟨output, hzeros, h⟩ := Outcome.bind_eq_ok.1 h
      have hout := (Tensor.zeros_eq_some_iff.1 (Outcome.orCrash_eq_ok.1 hzeros)).1
      rw [Kernel.activation_eq_ok kind hout] at h
      obtain rfl := Except.ok.inj (Outcome.ofExcept_eq_ok.1 h)
      exact inferShape_activation.2 ⟨rfl, rfl⟩
    · simp [execute] at h
  | softmax =>
    rcases params with _ | ⟨_, _⟩
    · obtain ⟨output, -, h⟩ := Outcome.bind_eq_ok.1 h
      have hshape := Kernel.shape_eq_of_softmax (Outcome.ofExcept_eq_ok.1 h)
      exact inferShape_softmax.2 ⟨rfl, fun hrank => haxes ⟨rfl, hrank⟩, hshape⟩
    · simp [execute] at h
  | maxPool p =>
    rcases params with _ | ⟨_, _⟩
    · exact inferShape_of_maxPool h
    · simp [execute] at h
  | globalAvgPool =>
    rcases params with _ | ⟨_, _⟩
    · exact inferShape_of_globalAvgPool h
    · simp [execute] at h
  | flatten =>
    rcases params with _ | ⟨_, _⟩
    · exact inferShape_of_flatten h
    · simp [execute] at h

/-! ### Both directions -/

/-- **Inference accepts what execution accepts**, and the result has the inferred shape, except that
no shape is inferred for softmax of a tensor without axes. -/
theorem inferShape_iff {op : Op α} {params : List (Tensor α)} (hx : x.WellFormed)
    (hplanes : op = globalAvgPool → x.shape.Positive) (hparams : ∀ t ∈ params, t.Proper)
    (hplaced : op.Placed x.shape (params.map (·.shape))) (hcounted : op.Counted x.shape)
    (hbytes : ∀ s, op.inferShape x.shape (params.map (·.shape)) = .ok s →
      (s.numBytes? .f32).isSome) (s : Shape) :
    op.inferShape x.shape (params.map (·.shape)) = .ok s ↔
      (∃ t, op.execute x params = .ok t ∧ t.shape = s) ∧
        ¬ (op = softmax ∧ x.shape.rank = 0) := by
  constructor
  · intro h
    obtain ⟨t, ht, hshape, -⟩ :=
      yields_of_inferShape hx hplanes hparams hplaced hcounted (hbytes s h) h
    refine ⟨⟨t, ht, hshape⟩, ?_⟩
    rintro ⟨rfl, hrank⟩
    exact (inferShape_softmax.1 h).2.1 hrank
  · rintro ⟨⟨t, ht, rfl⟩, haxes⟩
    exact inferShape_of_execute ht haxes

end Op

/-! ### Validating what was recorded -/

/-- The error says that a name is used twice. -/
inductive ModelError.Taken : ModelError → Prop
  | node (name : String) : Taken (.graph (.duplicateNode name))
  | value (name : String) : Taken (.graph (.producedTwice name))

namespace Graph

variable [Build] {α : Type} {params : Table (Tensor α)} {s : Scope} {n : Node α} {input : Shape}

theorem validate_eq_error {g : Graph α} {fault : Fault ModelError} :
    g.validate = .error fault ↔ g.check = .error fault := by
  rw [validate]
  cases g.check <;> simp

/-- A node that reads what is defined and whose recorded shape is inferred is only refused for its
name or for the name of its value. -/
theorem checkNode_of_inferred (hinput : s.values.lookup n.input = some input)
    (hbound : ∀ p ∈ n.params, (params.find? p).isSome)
    (hinfer : n.op.inferShape input ((paramTensors params n).map (·.shape)) =
      .ok n.outputShape) :
    (∃ e, checkNode params s n = Outcome.report e ∧ e.Taken) ∨
      checkNode params s n = .ok (s.extend n) ∧ s.values.lookup n.output = none := by
  by_cases hname : n.name ∈ s.names
  · refine .inl ⟨.graph (.duplicateNode n.name), ?_, .node _⟩
    simp [checkNode, hname]
  · have hshapes := paramShapes_eq_ok.2 ⟨hbound, rfl⟩
    cases hout : s.values.lookup n.output with
    | some shape =>
      refine .inl ⟨.graph (.producedTwice n.output), ?_, .value _⟩
      simp [checkNode, hname, hinput, hshapes, hinfer, hout]
      rfl
    | none =>
      exact .inr ⟨checkNode_eq_ok.2 ⟨⟨hname, hbound, ⟨input, hinput, hinfer⟩, hout⟩, rfl⟩, rfl⟩

end Graph

namespace Tracer

open NetPack.Graph

variable [Build] {α : Type} [Scalar α] {params : Table (Tensor α)} {known : List (Traced α)}
  {calls : List (Call α)} {ns : List (Node α)}

theorem Leaves.length_eq (h : Leaves params calls ns) : ns.length = (returned calls).length := by
  induction h with
  | nil => rfl
  | failed _ ih => exact ih
  | node _ _ _ _ ih => exact congrArg Nat.succ ih

omit [Build] [Scalar α] in
/-- The weights of a node have the shapes of the tensors that were given to the call. -/
theorem shapes_of_bound {ps : List (String × Tensor α)} {n : Node α}
    (hn : n.params = ps.map (·.1))
    (h : ∀ p ∈ ps, ∃ b, params.find? p.1 = some b ∧ b.shape = p.2.shape) :
    (∀ name ∈ n.params, (params.find? name).isSome) ∧
      (paramTensors params n).map (·.shape) = (ps.map (·.2)).map (·.shape) := by
  rw [paramTensors, hn]
  clear hn
  induction ps with
  | nil => simp
  | cons p ps ih =>
    rw [List.forall_mem_cons] at h
    obtain ⟨⟨b, hb, hshape⟩, hps⟩ := h
    obtain ⟨hbound, hshapes⟩ := ih hps
    refine ⟨?_, ?_⟩
    · rw [List.map_cons, List.forall_mem_cons, hb]
      exact ⟨rfl, hbound⟩
    · rw [List.map_cons, List.filterMap_cons_some hb, List.map_cons, hshapes, hshape]
      rfl

/-- **Nodes that calls have left pass validation one after the other**, until a name is used
twice. Afterwards every value that was returned is defined with the shape of its tensor. -/
theorem Leaves.check (h : Leaves params calls ns) {old new : String} {s : Scope}
    (hlinked : Linked known calls)
    (haxes : ∀ c ∈ calls, ¬ (c.op = .softmax ∧ c.input.tensor.shape.rank = 0))
    (hknown : ∀ v ∈ known, s.values.lookup (renamed old new v.name) = some v.tensor.shape) :
    (∃ e, (ns.map (renameValue old new)).foldlM (checkNode params) s = Outcome.report e ∧
        e.Taken) ∨
      ∃ s', (ns.map (renameValue old new)).foldlM (checkNode params) s = .ok s' ∧
        ∀ v ∈ returned calls ++ known,
          s'.values.lookup (renamed old new v.name) = some v.tensor.shape := by
  -- A value is defined only once, so no value that is known becomes hidden.
  induction h generalizing known s with
  | nil => exact .inr ⟨s, rfl, hknown⟩
  | failed _ ih => exact ih hlinked.2 (List.forall_mem_cons.1 haxes).2 hknown
  | @node layer name op x y ps calls ns hname hexec hshapes _ ih =>
    rw [List.forall_mem_cons] at haxes
    let n := renameValue old new (layerNode name op x.name ps y.tensor.shape)
    have hinput : s.values.lookup n.input = some x.tensor.shape := hknown x hlinked.1
    have houtput : n.output = renamed old new y.name := by
      rw [hname]
      rfl
    obtain ⟨hbound, hparams⟩ := shapes_of_bound (n := n) rfl hshapes
    have hinfer : n.op.inferShape x.tensor.shape ((paramTensors params n).map (·.shape)) =
        .ok n.outputShape := by
      rw [hparams]
      exact Op.inferShape_of_execute hexec haxes.1
    rw [List.map_cons, List.foldlM_cons]
    rcases checkNode_of_inferred hinput hbound hinfer with ⟨e, he, htaken⟩ | ⟨hok, hfresh⟩
    · refine .inl ⟨e, ?_, htaken⟩
      rw [he]
      rfl
    · have hknown' : ∀ v ∈ y :: known,
          (s.extend n).values.lookup (renamed old new v.name) = some v.tensor.shape := by
        rw [List.forall_mem_cons]
        refine ⟨?_, fun v hv => ?_⟩
        · rw [Scope.extend, ← houtput, List.lookup_cons_self]
          rfl
        · rw [Scope.extend, List.lookup_cons, beq_false_of_ne, hknown v hv]
          intro heq
          rw [← heq, hknown v hv] at hfresh
          cases hfresh
      rw [hok, Outcome.ok_bind]
      rcases ih hlinked.2 haxes.2 hknown' with herror | ⟨s', hs', hvalues⟩
      · exact .inl herror
      · refine .inr ⟨s', hs', fun v hv => hvalues v ?_⟩
        simp only [returned, List.filterMap_cons, Except.toOption, List.mem_append,
          List.mem_cons] at hv ⊢
        tauto

/-- What a call has returned was executed. -/
theorem execute_of_session {t t' : Tracer α} (h : Session t calls t') :
    ∀ c ∈ calls, ∀ z, c.answer = .ok z →
      c.op.execute c.input.tensor (c.params.map (·.2)) = .ok z.tensor := by
  induction calls generalizing t with
  | nil => simp
  | cons c calls ih =>
    obtain ⟨t₁, hcall, h⟩ := h
    refine List.forall_mem_cons.2 ⟨fun z hz => ?_, ih h⟩
    rw [hz] at hcall
    obtain ⟨_, -, hexec, -⟩ := exists_of_record hcall
    exact hexec

/-- **A finished recording has no wrong shape.** Validation refuses it only for a name that is used
twice or for an input without elements, and it breaks off only if the build cannot count those. -/
theorem taken_of_validate {graphName inputName outputName : String} {x : Tensor α} {t : Tracer α}
    {y : Traced α} {g : Graph α} {fault : Fault ModelError}
    (h : Session (start graphName inputName x).1 calls t)
    (hlinked : Linked [(start graphName inputName x).2] calls)
    (haxes : ∀ c ∈ calls, ¬ (c.op = .softmax ∧ c.input.tensor.shape.rank = 0))
    (hy : y ∈ (start graphName inputName x).2 :: returned calls)
    (hfinish : t.finish y outputName = .ok g) (hvalidate : g.validate = .error fault) :
    (∃ e, fault = .reported e ∧
      (e.Taken ∨ x.shape.numElements = some 0 ∧ e = .graph (.emptyInput inputName x.shape))) ∨
      fault = .crash ∧ x.shape.numElements = none := by
  obtain ⟨ns, hleaves, hnodes, -, hinput, -⟩ := leaves_of_session h
  obtain ⟨hne, rfl⟩ := finish_eq_ok hfinish
  replace hnodes : t.nodes = ns := hnodes
  replace hinput : t.input = .fixed inputName x.shape := hinput
  replace hne : y.name ≠ inputName := by
    rw [hinput] at hne
    exact hne
  -- The output is no input, so a call has returned it and has left a node.
  have hreturned : y ∈ returned calls := by
    rcases List.mem_cons.1 hy with rfl | hy
    · exact absurd rfl hne
    · exact hy
  have hnonempty : ns ≠ [] := by
    rintro rfl
    have hlength := hleaves.length_eq
    rw [List.eq_nil_of_length_eq_zero hlength.symm] at hreturned
    cases hreturned
  have hknown : ∀ v ∈ [(start graphName inputName x).2],
      [(inputName, x.shape)].lookup (renamed y.name outputName v.name) = some v.tensor.shape := by
    rw [List.forall_mem_singleton, start, renamed, if_neg (Ne.symm hne)]
    exact List.lookup_cons_self
  rw [validate_eq_error, check] at hvalidate
  simp only [hinput, hnodes, ValueInfo.fixed, List.isEmpty_map, List.isEmpty_iff, hnonempty,
    if_false, List.find?_nil, Outcome.report_bind] at hvalidate
  rcases hcount : x.shape.numElements with _ | count
  · rw [hcount] at hvalidate
    exact .inr ⟨(Except.error.inj hvalidate).symm, rfl⟩
  rw [hcount, Outcome.orCrash_some, Outcome.ok_bind] at hvalidate
  by_cases hempty : count = 0
  · rw [if_pos hempty] at hvalidate
    exact .inl ⟨_, (Except.error.inj hvalidate).symm, .inr ⟨congrArg some hempty, rfl⟩⟩
  · rw [if_neg hempty] at hvalidate
    rcases hleaves.check hlinked haxes (s := ⟨[(inputName, x.shape)], []⟩) hknown with
      ⟨e, he, htaken⟩ | ⟨s', hs', hvalues⟩
    · rw [he] at hvalidate
      exact .inl ⟨e, (Except.error.inj hvalidate).symm, .inl htaken⟩
    -- What is left is the check of the output, which is the value of a call.
    · have hlookup := hvalues y (List.mem_append_left _ hreturned)
      rw [renamed, if_pos rfl] at hlookup
      rw [hs', Outcome.ok_bind, checkOutput_eq_ok.2 hlookup] at hvalidate
      cases hvalidate

end Tracer

namespace Export

open Tracer

/-- **Inference and execution agree.** On well-formed operands, of which the parameters and what is
averaged over planes have no zero extent, a shape is inferred exactly if there is a result, and the
result has this shape, if the build can place all windows and count the elements of a channel, as
every release build can; otherwise the operation breaks off. Only softmax of a tensor without axes
has a result without a shape. So what a tracer has recorded is inferred again: a finished recording
has no wrong shape. -/
theorem inference_agrees [Build] {α : Type} [Scalar α] :
    (∀ (op : Op α) (x : Tensor α) (params : List (Tensor α)), x.WellFormed →
      (op = .globalAvgPool → x.shape.Positive) → (∀ t ∈ params, t.Proper) →
      (∀ s, op.inferShape x.shape (params.map (·.shape)) = .ok s → (s.numBytes? .f32).isSome) →
      (op.Placed x.shape (params.map (·.shape)) ∧ op.Counted x.shape →
        ∀ s, op.inferShape x.shape (params.map (·.shape)) = .ok s ↔
          (∃ t, op.execute x params = .ok t ∧ t.shape = s) ∧
            ¬ (op = .softmax ∧ x.shape.rank = 0)) ∧
      (¬ (op.Placed x.shape (params.map (·.shape)) ∧ op.Counted x.shape) →
        ∀ s, op.inferShape x.shape (params.map (·.shape)) = .ok s →
          op.execute x params = Outcome.crash) ∧
      (Build.checks = false → op.Placed x.shape (params.map (·.shape)) ∧ op.Counted x.shape) ∧
      (op = .softmax → params = [] → ∃ t, op.execute x params = .ok t ∧ t.shape = x.shape)) ∧
    ∀ (graphName inputName outputName : String) (x : Tensor α) (calls : List (Call α))
      (t : Tracer α) (y : Traced α) (g : Graph α),
      Session (start graphName inputName x).1 calls t →
      Linked [(start graphName inputName x).2] calls →
      (∀ c ∈ calls, ¬ (c.op = .softmax ∧ c.input.tensor.shape.rank = 0)) →
      y ∈ (start graphName inputName x).2 :: returned calls →
      t.finish y outputName = .ok g →
      (∀ c ∈ calls, ∀ z, c.answer = .ok z →
        c.op.inferShape c.input.tensor.shape (c.params.map (·.2.shape)) = .ok z.tensor.shape) ∧
      ∀ fault, g.validate = .error fault →
        (∃ e, fault = .reported e ∧
          (e.Taken ∨ x.shape.numElements = some 0 ∧ e = .graph (.emptyInput inputName x.shape))) ∨
          fault = .crash ∧ x.shape.numElements = none := by
  constructor
  · intro op x params hx hplanes hparams hbytes
    refine ⟨fun hfit => Op.inferShape_iff hx hplanes hparams hfit.1 hfit.2 hbytes,
      fun hnot s hs => Op.execute_of_not_placed hx hnot hs,
      fun hrelease => ⟨Op.placed_release hrelease op _ _, Op.counted_release hrelease op _⟩, ?_⟩
    rintro rfl rfl
    obtain ⟨t, ht, hshape, -⟩ := Op.yields_softmax hx
    exact ⟨t, ht, hshape⟩
  · intro graphName inputName outputName x calls t y g hsession hlinked haxes hy hfinish
    refine ⟨fun c hc z hz => ?_, fun fault hfault => ?_⟩
    · have hexec := execute_of_session hsession c hc z hz
      rw [← Op.inferShape_of_execute hexec (haxes c hc), List.map_map]
      rfl
    · exact taken_of_validate hsession hlinked haxes hy hfinish hfault

/-- The shape of a pooled image, and a recording whose output gets the name of another value. -/
theorem inference_agrees_branchingPass :
    ((Op.maxPool ⟨⟨2, 2⟩, ⟨1, 1⟩, ⟨0, 0⟩⟩ : Op Binary32).inferShape ⟨[1, 1, 3, 2]⟩ [] =
        .ok ⟨[1, 1, 2, 1]⟩ ∧
      ∃ t, (Op.maxPool ⟨⟨2, 2⟩, ⟨1, 1⟩, ⟨0, 0⟩⟩ : Op Binary32).execute (.blank ⟨[1, 1, 3, 2]⟩) [] =
        .ok t ∧ t.shape = ⟨[1, 1, 2, 1]⟩) ∧
    ∃ g e, (Recording.outcome (branchingPass fourPixels.2).run fourPixels.1).2.finish
        ⟨"flat.out", .blank ⟨[1, 4]⟩⟩ "conv.out" = .ok g ∧
      g.validate = Outcome.report e ∧ e.Taken := by
  constructor
  · have hinfer : (Op.maxPool ⟨⟨2, 2⟩, ⟨1, 1⟩, ⟨0, 0⟩⟩ : Op Binary32).inferShape
        (Tensor.blank ⟨[1, 1, 3, 2]⟩ : Tensor Binary32).shape (([] : List (Tensor Binary32)).map
          (·.shape)) = .ok ⟨[1, 1, 2, 1]⟩ := by decide
    have hbytes : ∀ s, (Op.maxPool ⟨⟨2, 2⟩, ⟨1, 1⟩, ⟨0, 0⟩⟩ : Op Binary32).inferShape
        (Tensor.blank ⟨[1, 1, 3, 2]⟩ : Tensor Binary32).shape (([] : List (Tensor Binary32)).map
          (·.shape)) = .ok s → (s.numBytes? .f32).isSome := by
      intro s hs
      obtain rfl := Except.ok.inj (hinfer.symm.trans hs)
      decide
    obtain ⟨hiff, -⟩ := inference_agrees.1 _ (.blank ⟨[1, 1, 3, 2]⟩) [] (by decide) (by simp)
      (by simp) hbytes
    have hplaced :
        (Op.maxPool ⟨⟨2, 2⟩, ⟨1, 1⟩, ⟨0, 0⟩⟩ : Op Binary32).Placed ⟨[1, 1, 3, 2]⟩ [] := by
      intro d hd hdims
      obtain ⟨-, -, hh, hw⟩ : 1 = d.n ∧ 1 = d.c ∧ 3 = d.h ∧ 2 = d.w := by
        simpa [PoolDims.input] using hdims
      refine hd.placed fun _ => ⟨?_, ?_⟩
      · rw [← hh]
        decide
      · rw [← hw]
        decide
    exact ⟨hinfer, ((hiff ⟨hplaced, trivial⟩ _).1 hinfer).1⟩
  · let t := (Recording.outcome (branchingPass fourPixels.2).run fourPixels.1).2
    let y : Traced Binary32 := ⟨"flat.out", .blank ⟨[1, 4]⟩⟩
    obtain ⟨g, hg⟩ : ∃ g, t.finish y "conv.out" = .ok g :=
      Outcome.exists_of_isOk (by decide +kernel)
    obtain ⟨-, htaken⟩ := inference_agrees.2 "m" inputName "conv.out" _ _ t y g
      (Pass.session _ fourPixels.1) coherent_branchingPass.calls.linked (by decide +kernel)
      (by decide +kernel) hg
    refine ⟨g, ?_⟩
    cases hvalidate : g.validate with
    | error fault =>
      rcases htaken fault hvalidate with ⟨e, rfl, h | ⟨hempty, -⟩⟩ | ⟨-, hnone⟩
      · exact ⟨e, hg, rfl, h⟩
      · exact absurd hempty (by decide)
      · exact absurd hnone (by decide)
    | ok g' =>
      have hrefused : (do (← t.finish y "conv.out").validate :
        Outcome ModelError (Graph Binary32)).isOk = false := by decide +kernel
      rw [hg, Outcome.liftM_eq_ofExcept, Outcome.ofExcept_ok, Outcome.ok_bind,
        hvalidate] at hrefused
      cases hrefused

/-- **A shape may be inferred where a convolution breaks off.** -/
theorem not_forall_agree :
    ¬ ∀ (op : Op Binary32) (x : Tensor Binary32) (params : List (Tensor Binary32)),
      x.WellFormed → x.shape.Positive → (∀ t ∈ params, t.Proper) →
      (∀ s, op.inferShape x.shape (params.map (·.shape)) = .ok s → (s.numBytes? .f32).isSome) →
      ∀ s, op.inferShape x.shape (params.map (·.shape)) = .ok s ↔
        (∃ t, op.execute x params = .ok t ∧ t.shape = s) ∧
          ¬ (op = .softmax ∧ x.shape.rank = 0) := by
  intro h
  have hinfer : (Op.conv Kernel.farStride : Op Binary32).inferShape Kernel.onePixel.shape
      ([Kernel.onePixel].map (·.shape)) = .ok ⟨[1, 1, 2, 1]⟩ := by decide
  have hbytes : ∀ s, (Op.conv Kernel.farStride : Op Binary32).inferShape Kernel.onePixel.shape
      ([Kernel.onePixel].map (·.shape)) = .ok s → (s.numBytes? .f32).isSome := by
    intro s hs
    obtain rfl := Except.ok.inj (hinfer.symm.trans hs)
    decide
  obtain ⟨⟨t, ht, -⟩, -⟩ := (h _ Kernel.onePixel [Kernel.onePixel] (by decide) (by decide)
    (by decide) hbytes _).1 hinfer
  exact Outcome.crash_ne_ok (Kernel.conv_onePixel.symm.trans ht)

end Export

end NetPack
