import NetPack.Graph.Evaluate
import NetPack.Proofs.Validity

/-!
# What a run of a graph computes

`Graph.evaluate` has a result exactly when the input is accepted, every node runs, and the declared
output is among the tensors (`Graph.evaluate_eq_ok`); a node runs exactly when its input is there
and its operation has a result (`Graph.runNode_eq_ok`).
-/

namespace NetPack

namespace Graph

variable {α : Type} {params params' : Table (Tensor α)} {env env' : Env α} {n : Node α}

/-- A new entry does not hide the entries before it. -/
theorem lookup_cons_of_ne {env : Env α} {fresh name : String} {y : Tensor α} (h : name ≠ fresh) :
    ((fresh, y) :: env).lookup name = env.lookup name := by
  rw [List.lookup_cons, beq_false_of_ne h]

theorem lookup_cons_of_fresh {fresh name : String} {t y : Tensor α}
    (hfresh : env.lookup fresh = none) (h : env.lookup name = some t) :
    ((fresh, y) :: env).lookup name = some t := by
  have hne : name ≠ fresh := by
    rintro rfl
    rw [hfresh] at h
    cases h
  rw [lookup_cons_of_ne hne, h]

theorem paramTensors_congr (h : ∀ p ∈ n.params, params.find? p = params'.find? p) :
    paramTensors params n = paramTensors params' n :=
  List.filterMap_congr h

/-- The recorded shape is accepted, whichever axes are dynamic. -/
theorem accepts_self (v : ValueInfo) : accepts v v.shape = true := by
  have h : ∀ p ∈ (v.shape.dims.zip v.shape.dims).zipIdx,
      (p.1.1 == p.1.2 || v.dynamicAxes.contains p.2) = true := by
    rintro ⟨⟨a, b⟩, i⟩ hp
    have hab : (a, b) ∈ v.shape.dims.zip v.shape.dims := List.fst_mem_of_mem_zipIdx hp
    -- The shape is compared with itself, so the two extents are the same.
    rw [List.zip, List.zipWith_self] at hab
    obtain ⟨c, -, hc⟩ := List.mem_map.1 hab
    obtain ⟨rfl, rfl⟩ := Prod.mk.inj hc
    simp
  simpa [accepts] using h

variable [Build] [Scalar α]

theorem runNode_eq_ok :
    runNode params env n = .ok env' ↔
      ∃ x y, env.lookup n.input = some x ∧ n.op.execute x (paramTensors params n) = .ok y ∧
        env' = (n.output, y) :: env := by
  unfold runNode
  cases env.lookup n.input with
  | none => simp
  | some x =>
    simp only [Outcome.bind_eq_ok, Outcome.mapError_eq_ok, Outcome.pure_eq_ok_iff]
    constructor
    · rintro ⟨y, hy, rfl⟩
      exact ⟨x, y, rfl, hy, rfl⟩
    · rintro ⟨_, y, ⟨⟩, hy, rfl⟩
      exact ⟨y, hy, rfl⟩

theorem runNode_eq_crash {x : Tensor α} (hx : env.lookup n.input = some x)
    (h : n.op.execute x (paramTensors params n) = Outcome.crash) :
    runNode params env n = Outcome.crash := by
  rw [paramTensors] at h
  rw [runNode, hx]
  simp only [h]
  rfl

/-- The nodes run from the environment `env` on, and `y` is then the tensor of a name. -/
def Runs (params : Table (Tensor α)) (ns : List (Node α)) (env : Env α) (name : String)
    (y : Tensor α) : Prop :=
  ∃ env', ns.foldlM (runNode params) env = .ok env' ∧ env'.lookup name = some y

@[simp] theorem runs_nil {name : String} {y : Tensor α} :
    Runs params [] env name y ↔ env.lookup name = some y := by
  simp [Runs]

theorem runs_cons {ns : List (Node α)} {name : String} {y : Tensor α} :
    Runs params (n :: ns) env name y ↔
      ∃ x t, env.lookup n.input = some x ∧ n.op.execute x (paramTensors params n) = .ok t ∧
        Runs params ns ((n.output, t) :: env) name y := by
  simp only [Runs, List.foldlM_cons, Outcome.bind_eq_ok, runNode_eq_ok]
  constructor
  · rintro ⟨env', ⟨_, ⟨x, t, hx, ht, rfl⟩, hrun⟩, hy⟩
    exact ⟨x, t, hx, ht, env', hrun, hy⟩
  · rintro ⟨x, t, hx, ht, env', hrun, hy⟩
    exact ⟨env', ⟨_, ⟨x, t, hx, ht, rfl⟩, hrun⟩, hy⟩

/-- **When a graph has a result.** -/
theorem evaluate_eq_ok {g : Graph α} {x y : Tensor α} :
    g.evaluate x = .ok y ↔
      accepts g.input x.shape ∧ Runs g.params g.nodes [(g.input.name, x)] g.output.name y := by
  simp only [evaluate, Outcome.report_bind]
  rw [Outcome.ite_eq_ok (by simp), Outcome.bind_eq_ok]
  refine and_congr (by simp) (exists_congr fun env => and_congr_right fun _ => ?_)
  cases env.lookup g.output.name <;> simp

theorem evaluate_eq_crash {g : Graph α} {x : Tensor α} (haccepts : accepts g.input x.shape)
    (h : g.nodes.foldlM (runNode g.params) [(g.input.name, x)] = Outcome.crash) :
    g.evaluate x = Outcome.crash := by
  rw [evaluate, h, haccepts]
  rfl

end Graph

end NetPack
