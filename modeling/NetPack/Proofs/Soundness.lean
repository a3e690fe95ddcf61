import NetPack.Proofs.Evaluation
import NetPack.Proofs.Kernels.GroupedConvolution
import NetPack.Proofs.Operations
import NetPack.Proofs.Tables

/-!
# Valid graphs run

Validation looks at shapes only, evaluation at tensors. While a valid graph runs, the tensors that
have been computed agree with the shapes that validation has recorded (`Graph.Agrees`): every node
finds its input, executes without an index out of range, and leaves behind a tensor of its recorded
shape (`Graph.exists_runNode`). So the whole run succeeds and every node contributes a tensor of
the recorded shape (`Graph.runs_as_recorded`).

Validation places no window. In a checked build a run therefore also needs that the windows of all
nodes can be placed (`Graph.Placeable`); there are valid graphs of small shapes on which such a
build breaks off (`Graph.not_forall_runs`).
-/

namespace NetPack

namespace Graph

variable {α : Type} [Scalar α]

/-- The tensors computed so far have the names and the shapes of the values defined so far. -/
def Agrees (env : Env α) (s : Scope) : Prop :=
  List.Forall₂ (fun e v => e.1 = v.1 ∧ e.2.shape = v.2 ∧ e.2.Proper) env s.values

/-- The tensor of a node was computed from the tensor of its input and has the recorded shape. -/
def Computed [Build] (params : Table (Tensor α)) (env : Env α) (n : Node α) : Prop :=
  ∃ x y, env.lookup n.input = some x ∧ n.op.execute x (paramTensors params n) = .ok y ∧
    env.lookup n.output = some y ∧ y.shape = n.outputShape

variable {params : Table (Tensor α)} {env : Env α} {s : Scope} {n : Node α} {ns : List (Node α)}

omit [Scalar α] in
/-- A name is looked up with the same outcome on both sides. -/
theorem Agrees.rel_lookup (h : Agrees env s) (name : String) :
    Option.Rel (fun t shape => t.shape = shape ∧ t.Proper) (env.lookup name)
      (s.values.lookup name) := by
  unfold Agrees at h
  generalize s.values = values at h
  -- Both lists have the same names in the same order, so both searches stop at the same place.
  induction h with
  | nil => exact .none
  | @cons e v env' values' hev _ ih =>
    obtain ⟨ename, t⟩ := e
    obtain ⟨vname, shape⟩ := v
    obtain ⟨rfl, hshape⟩ := hev
    rw [List.lookup_cons, List.lookup_cons]
    cases name == ename with
    | true => exact .some hshape
    | false => exact ih

omit [Scalar α] in
theorem Agrees.lookup (h : Agrees env s) {name : String} {shape : Shape}
    (hs : s.values.lookup name = some shape) :
    ∃ t, env.lookup name = some t ∧ t.shape = shape ∧ t.Proper := by
  have hrel := h.rel_lookup name
  rw [hs] at hrel
  cases ht : env.lookup name with
  | none =>
    rw [ht] at hrel
    cases hrel
  | some t =>
    rw [ht] at hrel
    cases hrel with
    | some hshape => exact ⟨t, rfl, hshape⟩

omit [Scalar α] in
theorem Agrees.lookup_eq_none (h : Agrees env s) {name : String}
    (hs : s.values.lookup name = none) : env.lookup name = none := by
  have hrel := h.rel_lookup name
  rw [hs] at hrel
  cases ht : env.lookup name with
  | none => rfl
  | some t =>
    rw [ht] at hrel
    cases hrel

/-- The build can place the windows of a node on an input of the given shape. -/
def PlacedOn [Build] (params : Table (Tensor α)) (n : Node α) (input : Shape) : Prop :=
  n.op.Placed input ((paramTensors params n).map (·.shape))

/-- The build can place the windows of every node on the input that validation has recorded. -/
def Placeable [Build] (g : Graph α) : Prop :=
  ∀ n ∈ g.nodes, ∀ input, (Scope.final g).values.lookup n.input = some input →
    PlacedOn g.params n input

omit [Scalar α] in
theorem placeable_release [Build] (h : Build.checks = false) (g : Graph α) : g.Placeable :=
  fun _ _ _ _ => Op.placed_release h _ _ _

/-- **A node that fits runs**, and the new tensor has the recorded shape. -/
theorem exists_runNode [Build] (hparams : ∀ t ∈ paramTensors params n, t.Proper)
    (hbytes : (n.outputShape.numBytes? .f32).isSome) (hfit : Fits params s n)
    (hplaced : ∀ input, s.values.lookup n.input = some input → PlacedOn params n input)
    (henv : Agrees env s) :
    ∃ y, runNode params env n = .ok ((n.output, y) :: env) ∧
      Agrees ((n.output, y) :: env) (s.extend n) ∧
      Computed params ((n.output, y) :: env) n := by
  obtain ⟨input, hinput, hinfer⟩ := hfit.inferred
  obtain ⟨x, hx, rfl, hproper⟩ := henv.lookup hinput
  obtain ⟨y, hy, hshape, hyproper⟩ :=
    Op.exists_execute hproper hparams (hplaced _ hinput) hbytes hinfer
  refine ⟨y, runNode_eq_ok.2 ⟨x, y, hx, hy, rfl⟩, .cons ⟨rfl, hshape, hyproper⟩ henv, ?_⟩
  exact ⟨x, y, lookup_cons_of_fresh (henv.lookup_eq_none hfit.single) hx, hy, by simp, hshape⟩

/-- All nodes run, what was computed stays, and every node adds its tensor. -/
theorem exists_run [Build] (hparams : ∀ n ∈ ns, ∀ t ∈ paramTensors params n, t.Proper)
    (hbytes : ∀ n ∈ ns, (n.outputShape.numBytes? .f32).isSome) (hfit : AllFit params s ns)
    (hplaced : ∀ n ∈ ns, ∀ input,
      (ns.foldl Scope.extend s).values.lookup n.input = some input → PlacedOn params n input)
    (henv : Agrees env s) :
    ∃ env', ns.foldlM (runNode params) env = .ok env' ∧ Agrees env' (ns.foldl Scope.extend s) ∧
      (∀ name t, env.lookup name = some t → env'.lookup name = some t) ∧
      ∀ n ∈ ns, Computed params env' n := by
  -- Environment and scope grow in step and keep agreeing. A tensor is never hidden later, because a
  -- value is defined once only.
  induction ns generalizing env s with
  | nil => exact ⟨env, rfl, henv, fun _ _ h => h, by simp⟩
  | cons n ns ih =>
    have hfinal : ∀ {name shape}, s.values.lookup name = some shape →
        ((n :: ns).foldl Scope.extend s).values.lookup name = some shape := hfit.lookup_final
    obtain ⟨hn, hns⟩ := hfit
    rw [List.forall_mem_cons] at hparams hbytes hplaced
    obtain ⟨y, hrun, hagrees, x, _, hx, hexec, hlookup, hshape⟩ :=
      exists_runNode hparams.1 hbytes.1 hn (fun input hinput => hplaced.1 input (hfinal hinput))
        henv
    obtain ⟨env', hrun', hagrees', hkeep, hcomputed⟩ :=
      ih hparams.2 hbytes.2 hns hplaced.2 hagrees
    refine ⟨env', ?_, hagrees', ?_, ?_⟩
    · rw [List.foldlM_cons, hrun]
      exact hrun'
    · intro name t h
      exact hkeep name t (lookup_cons_of_fresh (henv.lookup_eq_none hn.single) h)
    · rw [List.forall_mem_cons]
      exact ⟨⟨x, _, hkeep _ _ hx, hexec, hkeep _ _ hlookup, hshape⟩, hcomputed⟩

/-- All nodes of a valid graph run, and then the output is defined. -/
theorem Valid.exists_env [Build] {g : Graph α} (hg : g.Valid)
    (hparams : ∀ n ∈ g.nodes, ∀ t ∈ paramTensors g.params n, t.Proper)
    (hbytes : ∀ n ∈ g.nodes, (n.outputShape.numBytes? .f32).isSome)
    (hplaced : g.Placeable) {x : Tensor α} (hx : x.WellFormed) (hshape : x.shape = g.input.shape) :
    ∃ env y, g.nodes.foldlM (runNode g.params) [(g.input.name, x)] = .ok env ∧
      (∀ n ∈ g.nodes, Computed g.params env n) ∧
      env.lookup g.output.name = some y ∧ y.shape = g.output.shape := by
  obtain ⟨-, ⟨count, hcount, hne⟩, -, hfit, hout⟩ := valid_iff.1 hg
  have hproper : x.Proper := ⟨hx, hx.positive (by simpa [hshape, hcount] using hne)⟩
  have hinit : Agrees [(g.input.name, x)] (Scope.initial g) :=
    .cons ⟨rfl, hshape, hproper⟩ .nil
  obtain ⟨env, hrun, hagrees, -, hcomputed⟩ := exists_run hparams hbytes hfit hplaced hinit
  obtain ⟨y, hy, hyshape, -⟩ := hagrees.lookup hout
  exact ⟨env, y, hrun, hcomputed, hy, hyshape⟩

/-- **A valid graph runs on every well-formed input of the declared shape.** No kernel reads out of
range, the result has the declared shape, and so has the tensor of every node. The parameters that
nodes read must be well-formed and without a zero extent, the recorded shapes must have a size in
bytes, and a checked build must be able to place the windows of every node. -/
theorem runs_as_recorded [Build] {g : Graph α} (hg : g.Valid)
    (hparams : ∀ n ∈ g.nodes, ∀ t ∈ paramTensors g.params n, t.Proper)
    (hbytes : ∀ n ∈ g.nodes, (n.outputShape.numBytes? .f32).isSome)
    (hplaced : Build.checks = true → g.Placeable) {x : Tensor α} (hx : x.WellFormed)
    (hshape : x.shape = g.input.shape) :
    ∃ env y, g.nodes.foldlM (runNode g.params) [(g.input.name, x)] = .ok env ∧
      (∀ n ∈ g.nodes, Computed g.params env n) ∧
      g.evaluate x = .ok y ∧ env.lookup g.output.name = some y ∧ y.shape = g.output.shape := by
  have hplaceable : g.Placeable := by
    cases hchecks : Build.checks with
    | false => exact placeable_release hchecks g
    | true => exact hplaced hchecks
  obtain ⟨env, y, hrun, hcomputed, hy, hyshape⟩ :=
    hg.exists_env hparams hbytes hplaceable hx hshape
  exact ⟨env, y, hrun, hcomputed,
    evaluate_eq_ok.2 ⟨hshape ▸ accepts_self g.input, env, hrun, hy⟩, hy, hyshape⟩

/-- A convolution with a bias over a padded image, then a flattening. -/
def paddedConv : Graph Binary32 where
  name := "padded"
  input := .fixed "image" ⟨[1, 1, 2, 2]⟩
  output := .fixed "row" ⟨[1, 9]⟩
  nodes :=
    [⟨"conv", .conv ⟨⟨1, 1⟩, ⟨1, 1⟩, 1⟩, "image", ["weight", "bias"], "map", ⟨[1, 1, 3, 3]⟩⟩,
      ⟨"flat", .flatten, "map", [], "row", ⟨[1, 9]⟩⟩]
  params := .ofList [("weight", .blank ⟨[1, 1, 2, 2]⟩), ("bias", .blank ⟨[1]⟩)]

/-- The window is as far from `2 ^ 63` as the image is small. -/
theorem placeable_paddedConv : paddedConv.Placeable := by
  intro n hn input hinput
  simp only [paddedConv, List.mem_cons, List.not_mem_nil, or_false] at hn
  rcases hn with rfl | rfl
  · obtain rfl : input = ⟨[1, 1, 2, 2]⟩ := (Option.some.inj hinput).symm
    intro d hd hdims _
    obtain ⟨-, -, hh, hw⟩ : 1 = d.n ∧ 1 = d.c ∧ 2 = d.h ∧ 2 = d.w := by
      simpa [ConvDims.input] using hdims
    refine hd.placed fun _ => ⟨?_, ?_⟩
    · rw [← hh]
      decide
    · rw [← hw]
      decide
  · trivial

theorem runs_as_recorded_paddedConv :
    paddedConv.Valid ∧
      (∀ n ∈ paddedConv.nodes, ∀ t ∈ paramTensors paddedConv.params n, t.Proper) ∧
      (∀ n ∈ paddedConv.nodes, (n.outputShape.numBytes? .f32).isSome) ∧
      (Tensor.blank ⟨[1, 1, 2, 2]⟩ : Tensor Binary32).WellFormed ∧
      ∃ y, paddedConv.evaluate (.blank ⟨[1, 1, 2, 2]⟩) = .ok y ∧ y.shape = ⟨[1, 9]⟩ := by
  have hvalid : paddedConv.Valid := by decide
  have hparams : ∀ n ∈ paddedConv.nodes, ∀ t ∈ paramTensors paddedConv.params n, t.Proper := by
    decide
  have hbytes : ∀ n ∈ paddedConv.nodes, (n.outputShape.numBytes? .f32).isSome := by decide
  have hx : (Tensor.blank ⟨[1, 1, 2, 2]⟩ : Tensor Binary32).WellFormed := by decide
  obtain ⟨_, y, -, -, hy, -, hshape⟩ :=
    runs_as_recorded hvalid hparams hbytes (fun _ => placeable_paddedConv) hx rfl
  exact ⟨hvalid, hparams, hbytes, hx, y, hy, hshape⟩

/-! #### A window that cannot be placed -/

/-- A convolution of one pixel with a long padding. -/
def farConv : Graph Binary32 where
  name := "far"
  input := .fixed "image" ⟨[1, 1, 1, 1]⟩
  output := .fixed "map" ⟨[1, 1, 2, 1]⟩
  nodes := [⟨"conv", .conv Kernel.farStride, "image", ["weight"], "map", ⟨[1, 1, 2, 1]⟩⟩]
  params := .ofList [("weight", Kernel.onePixel)]

/-- **A valid graph may break off**, although no extent is zero and all shapes are small. -/
theorem not_forall_runs :
    ¬ ∀ (g : Graph Binary32) (x : Tensor Binary32), g.Valid →
      (∀ name t, g.params.find? name = some t → t.Proper) →
      (∀ n ∈ g.nodes, (n.outputShape.numBytes? .f32).isSome) → x.WellFormed →
      x.shape = g.input.shape → ∃ y, g.evaluate x = .ok y ∧ y.shape = g.output.shape := by
  intro h
  obtain ⟨y, hy, -⟩ := h farConv Kernel.onePixel (by decide) (Table.forall_find? (by decide))
    (by decide) (by decide) rfl
  obtain ⟨-, hruns⟩ := evaluate_eq_ok.1 hy
  obtain ⟨x, t, hx, ht, -⟩ := runs_cons.1 hruns
  obtain rfl : Kernel.onePixel = x := Option.some.inj hx
  have hcrash : (Op.conv Kernel.farStride).execute Kernel.onePixel [Kernel.onePixel] =
      Outcome.crash := Kernel.conv_onePixel
  exact Outcome.crash_ne_ok (hcrash.symm.trans ht)

end Graph

end NetPack
