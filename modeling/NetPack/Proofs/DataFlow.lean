import NetPack.Proofs.Evaluation
import NetPack.Proofs.Sizes

/-!
# The data flow of a graph

Nodes run in the order in which they are listed. What a valid graph computes does not depend on that
order: its nodes are equations between named tensors, and the tensors that a run leaves behind are a
solution of them (`Graph.Solution`), which the nodes determine without being listed one after the
other. So the result of a valid graph is what its solution holds for the declared output
(`Graph.Valid.evaluate_iff_solution`), and graphs whose nodes are the same up to their order have
the same results (`Graph.evaluate_of_perm`).

Both rest on what validation asks for. No value is defined twice, so no tensor is hidden by a later
one; and every node reads a value that was defined before it, so a run that has followed a solution
so far finds its next input.
-/

namespace NetPack

namespace Graph

variable {α : Type} [Scalar α]

/-- The tensor that a node produces is what the node computes from the tensor that it reads. -/
def Solved [Build] (params : Table (Tensor α)) (values : String → Option (Tensor α))
    (n : Node α) : Prop :=
  ∃ x y, values n.input = some x ∧ n.op.execute x (paramTensors params n) = .ok y ∧
    values n.output = some y

/-- Tensors for the names of a graph: the given one for the input, and such ones for all other
values that every node is an equation that holds. -/
structure Solution [Build] (g : Graph α) (x : Tensor α) (values : String → Option (Tensor α)) :
    Prop where
  input : values g.input.name = some x
  nodes : ∀ n ∈ g.nodes, Solved g.params values n

/-- Tensors have been computed for exactly the values that are defined. -/
def Covers (env : Env α) (s : Scope) : Prop :=
  ∀ name, env.lookup name = none ↔ s.values.lookup name = none

/-- Every tensor that has been computed is the one of its name. -/
def Follows (env : Env α) (values : String → Option (Tensor α)) : Prop :=
  ∀ name t, env.lookup name = some t → values name = some t

variable {params : Table (Tensor α)} {env env' : Env α} {s : Scope} {n : Node α}
  {ns : List (Node α)} {values : String → Option (Tensor α)}

/-! ### One node -/

omit [Scalar α] in
theorem Covers.extend (h : Covers env s) (n : Node α) (y : Tensor α) :
    Covers ((n.output, y) :: env) (s.extend n) := by
  intro name
  rw [lookup_extend_eq_none, List.lookup_cons]
  by_cases hname : name = n.output
  · simp [hname]
  · simpa [hname, beq_false_of_ne hname] using h name

omit [Scalar α] in
theorem Follows.cons {name : String} {y : Tensor α} (h : Follows env values)
    (hy : values name = some y) : Follows ((name, y) :: env) values := by
  intro name' t ht
  by_cases hname : name' = name
  · rw [hname, List.lookup_cons_self] at ht
    rw [hname, hy, ht]
  · exact h name' t (by rwa [lookup_cons_of_ne hname] at ht)

omit [Scalar α] in
/-- What a node reads has been computed. -/
theorem Covers.exists_input [Build] (h : Covers env s) (hfit : Fits params s n) :
    ∃ x, env.lookup n.input = some x := by
  obtain ⟨shape, hshape, -⟩ := hfit.inferred
  refine Option.ne_none_iff_exists'.1 fun hnone => ?_
  rw [(h n.input).1 hnone] at hshape
  cases hshape

/-! ### All nodes -/

/-- A run keeps what it has computed and solves its nodes. -/
theorem solved_of_run [Build] (hfit : AllFit params s ns) (henv : Covers env s)
    (h : ns.foldlM (runNode params) env = .ok env') :
    Follows env (env'.lookup ·) ∧ ∀ n ∈ ns, Solved params (env'.lookup ·) n := by
  -- Each node defines a name that was not defined yet, so the tensors before it stay visible.
  induction ns generalizing env s with
  | nil =>
    obtain rfl := Outcome.pure_eq_ok_iff.1 h
    exact ⟨fun _ _ ht => ht, by simp⟩
  | cons n ns ih =>
    rw [List.foldlM_cons] at h
    obtain ⟨env₁, hnode, h⟩ := Outcome.bind_eq_ok.1 h
    obtain ⟨x, y, hx, hy, rfl⟩ := runNode_eq_ok.1 hnode
    have hfresh : env.lookup n.output = none := (henv n.output).2 hfit.1.single
    obtain ⟨hkeep, hsolved⟩ := ih hfit.2 (henv.extend n y) h
    have hkept : Follows env (env'.lookup ·) := by
      intro name t ht
      exact hkeep name t (lookup_cons_of_fresh hfresh ht)
    refine ⟨hkept, List.forall_mem_cons.2 ⟨⟨x, y, hkept _ _ hx, hy, ?_⟩, hsolved⟩⟩
    exact hkeep n.output y List.lookup_cons_self

/-- **Nodes run along a solution**, in whatever order they fit. -/
theorem exists_run_of_solved [Build] (hfit : AllFit params s ns) (henv : Covers env s)
    (hfollows : Follows env values) (hsolved : ∀ n ∈ ns, Solved params values n) :
    ∃ env', ns.foldlM (runNode params) env = .ok env' ∧
      Covers env' (ns.foldl Scope.extend s) ∧ Follows env' values := by
  induction ns generalizing env s with
  | nil => exact ⟨env, rfl, henv, hfollows⟩
  | cons n ns ih =>
    rw [List.forall_mem_cons] at hsolved
    obtain ⟨⟨source, y, hsource, hy, houtput⟩, hsolved⟩ := hsolved
    -- The run has computed the input of the node, and it follows the solution.
    obtain ⟨x, hx⟩ := henv.exists_input hfit.1
    obtain rfl : x = source := Option.some.inj ((hfollows _ _ hx).symm.trans hsource)
    have hnode : runNode params env n = .ok ((n.output, y) :: env) :=
      runNode_eq_ok.2 ⟨x, y, hx, hy, rfl⟩
    obtain ⟨env', hrun, hcovers, hend⟩ :=
      ih hfit.2 (henv.extend n y) (hfollows.cons houtput) hsolved
    refine ⟨env', ?_, hcovers, hend⟩
    rw [List.foldlM_cons, hnode, Outcome.ok_bind, hrun]

/-! ### Whole graphs -/

variable {g g' : Graph α}

omit [Scalar α] in
theorem covers_initial (g : Graph α) (x : Tensor α) :
    Covers [(g.input.name, x)] (Scope.initial g) := by
  intro name
  by_cases hname : name = g.input.name
  · simp [Scope.initial, hname]
  · simp [Scope.initial, List.lookup_cons, beq_false_of_ne hname]

/-- **The result of a valid graph is what its solution holds for the output.** -/
theorem Valid.evaluate_iff_solution [Build] (hg : g.Valid) (x y : Tensor α) :
    g.evaluate x = .ok y ↔ accepts g.input x.shape ∧
      ∃ values, Solution g x values ∧ values g.output.name = some y := by
  obtain ⟨-, -, -, hfit, hout⟩ := valid_iff.1 hg
  have hstart := covers_initial g x
  rw [evaluate_eq_ok]
  refine and_congr_right fun _ => ⟨?_, ?_⟩
  · rintro ⟨env, hrun, hy⟩
    obtain ⟨hkept, hsolved⟩ := solved_of_run hfit hstart hrun
    exact ⟨(env.lookup ·), ⟨hkept _ _ List.lookup_cons_self, hsolved⟩, hy⟩
  · rintro ⟨values, hvalues, hy⟩
    have hinput : Follows [(g.input.name, x)] values :=
      Follows.cons (fun name t ht => by simp at ht) hvalues.input
    obtain ⟨env, hrun, hcovers, hfollows⟩ :=
      exists_run_of_solved hfit hstart hinput hvalues.nodes
    refine ⟨env, hrun, ?_⟩
    -- The declared output is defined, so the run has computed it.
    have hdefined : env.lookup g.output.name ≠ none := by
      rw [Ne, hcovers]
      exact hout ▸ Option.some_ne_none _
    obtain ⟨t, ht⟩ := Option.ne_none_iff_exists'.1 hdefined
    rw [ht, ← hy, hfollows _ _ ht]

theorem Solution.of_perm [Build] {x : Tensor α} (h : Solution g x values)
    (hinput : g.input = g'.input)
    (hparams : g.params = g'.params) (hnodes : g.nodes.Perm g'.nodes) : Solution g' x values where
  input := hinput ▸ h.input
  nodes n hn := hparams ▸ h.nodes n (hnodes.mem_iff.2 hn)

/-- **The order of the nodes does not matter.** Valid graphs with the same input, output and
parameters, whose nodes are the same in another order, have the same results. -/
theorem evaluate_of_perm [Build] (hg : g.Valid) (hg' : g'.Valid) (hinput : g.input = g'.input)
    (houtput : g.output = g'.output) (hparams : g.params = g'.params)
    (hnodes : g.nodes.Perm g'.nodes) (x y : Tensor α) :
    g.evaluate x = .ok y ↔ g'.evaluate x = .ok y := by
  rw [hg.evaluate_iff_solution, hg'.evaluate_iff_solution, hinput, houtput]
  refine and_congr_right fun _ => exists_congr fun values => and_congr_left fun _ => ⟨?_, ?_⟩
  · intro h
    exact h.of_perm hinput hparams hnodes
  · intro h
    exact h.of_perm hinput.symm hparams.symm hnodes.symm

/-- Two activations of the input, one of which is flattened, in the order in which they stand. -/
def twoBranches (first second : Node Binary32) : Graph Binary32 where
  name := first.name
  input := ⟨"x", ⟨[1, 2]⟩, [0]⟩
  output := .fixed "y" ⟨[1, 2]⟩
  nodes := [first, second, ⟨"flat", .flatten, "a", [], "y", ⟨[1, 2]⟩⟩]
  params := .empty

theorem evaluate_of_perm_twoBranches :
    let a : Node Binary32 := ⟨"relu", .activation .relu, "x", [], "a", ⟨[1, 2]⟩⟩
    let b : Node Binary32 := ⟨"sigmoid", .activation .sigmoid, "x", [], "b", ⟨[1, 2]⟩⟩
    (twoBranches a b).Valid ∧ (twoBranches b a).Valid ∧
      (twoBranches a b).evaluate (.blank ⟨[3, 2]⟩) = .ok (.blank ⟨[3, 2]⟩) ∧
      ∀ x y, (twoBranches a b).evaluate x = .ok y ↔ (twoBranches b a).evaluate x = .ok y := by
  intro a b
  have hfirst : (twoBranches a b).Valid := by decide
  have hsecond : (twoBranches b a).Valid := by decide
  refine ⟨hfirst, hsecond, by decide +kernel, ?_⟩
  exact evaluate_of_perm hfirst hsecond rfl rfl rfl (.swap _ _ _)

end Graph

end NetPack
