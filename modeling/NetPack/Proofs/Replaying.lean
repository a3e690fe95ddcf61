import NetPack.Proofs.Tracing

/-!
# A recording replays exactly

A model may call its tracer in any way: read an earlier value again, take one side of a branch that
depends on what was computed, go on after a call that failed. A `Tracer.Call` is one call of
`Tracer.record` with its answer, and `Tracer.Session` says that calls lead from one tracer to
another. If the calls read only values that the tracer has returned and pass every name with the
same weight (`Tracer.Coherent`), then the nodes that they leave compute, one after the other, the
tensors that were returned (`Tracer.Recorded.exists_run`).

Names decide what a node reads. Two returned values may well have the same name, and finishing the
recording gives one of them another name, which may be taken. Validation rejects such graphs, so in
a valid graph no value hides another one, and every name leads to the tensor that stood behind it
while the recording was made.

A `Pass` is the forward pass of a model as a tree of calls that branches on their answers; the
layers of a sequential model are one (`Pass.run_ofLayers`). What a pass does is a session
(`Pass.session`), so an exported graph agrees with every such model on the traced input
(`Export.trace_replays`).
-/

namespace NetPack

namespace Tracer

variable {α : Type}

/-! ### Calls of the tracer -/

/-- A call of `record` with what it answered. -/
structure Call (α : Type) where
  /-- The layer that is recorded. -/
  layer : String
  /-- What the layer computes. -/
  op : Op α
  /-- The value that it reads. -/
  input : Traced α
  /-- Its weights by name. -/
  params : List (String × Tensor α)
  /-- The value that was returned, or why the call failed. -/
  answer : Outcome ModelError (Traced α)

/-- The values that calls have returned, in the order of the calls. -/
def returned (calls : List (Call α)) : List (Traced α) := calls.filterMap (·.answer.toOption)

/-- The calls, made one after the other, lead from the first tracer to the second one. -/
def Session [Build] [Scalar α] : Tracer α → List (Call α) → Tracer α → Prop
  | t, [], t' => t' = t
  | t, c :: calls, t' => ∃ t₁,
    Recording.outcome (record c.layer c.op c.input c.params) t = (c.answer, t₁) ∧
      Session t₁ calls t'

/-- Every call reads a value that is known or that an earlier call has returned. -/
def Linked : List (Traced α) → List (Call α) → Prop
  | _, [] => True
  | known, c :: calls => c.input ∈ known ∧ Linked (returned [c] ++ known) calls

/-- The calls read only the first value and what the tracer has returned, and a name of a weight
stands for one tensor. -/
structure Coherent (x : Traced α) (calls : List (Call α)) : Prop where
  linked : Linked [x] calls
  shared : ∀ c ∈ calls, ∀ c' ∈ calls, ∀ p ∈ c.params, ∀ p' ∈ c'.params, p.1 = p'.1 → p.2 = p'.2

instance [DecidableEq α] : DecidableEq (Traced α) := fun v w =>
  decidable_of_iff (v.name = w.name ∧ v.tensor = w.tensor) (by cases v; cases w; simp)

instance decidableLinked [DecidableEq α] :
    (known : List (Traced α)) → (calls : List (Call α)) → Decidable (Linked known calls)
  | _, [] => .isTrue trivial
  | known, c :: calls =>
    have := decidableLinked (returned [c] ++ known) calls
    inferInstanceAs (Decidable (c.input ∈ known ∧ _))

instance [DecidableEq α] (x : Traced α) (calls : List (Call α)) : Decidable (Coherent x calls) :=
  decidable_of_iff (Linked [x] calls ∧ ∀ c ∈ calls, ∀ c' ∈ calls, ∀ p ∈ c.params,
    ∀ p' ∈ c'.params, p.1 = p'.1 → p.2 = p'.2) ⟨fun h => ⟨h.1, h.2⟩, fun h => ⟨h.linked, h.shared⟩⟩

/-- The weights of all calls are entries of one table. -/
theorem Coherent.exists_source {x : Traced α} {calls : List (Call α)} (h : Coherent x calls) :
    ∃ source : Table (Tensor α), ∀ c ∈ calls, ∀ p ∈ c.params, source.find? p.1 = some p.2 := by
  refine ⟨.ofList (calls.flatMap (·.params)), fun c hc p hp => ?_⟩
  refine Table.find?_ofList_of_mem ?_ p (List.mem_flatMap.2 ⟨c, hc, hp⟩)
  intro p hp p' hp'
  obtain ⟨c, hc, hp⟩ := List.mem_flatMap.1 hp
  obtain ⟨c', hc', hp'⟩ := List.mem_flatMap.1 hp'
  exact h.shared c hc c' hc' p hp p' hp'

/-! ### What calls leave behind -/

section Leaving

variable [Scalar α] {t t' : Tracer α} {x y : Traced α} {layer : String} {op : Op α}
  {ps : List (String × Tensor α)} {e : Fault ModelError}

/-- A call that fails leaves no node and counts for nothing. -/
theorem gains_of_record_eq_error [Build]
    (h : Recording.outcome (record layer op x ps) t = (.error e, t')) :
    Keeps t t' ∧ t'.counts = t.counts ∧ Gains ps t.params t'.params := by
  rw [record, Recording.outcome_bind_eq_error] at h
  rcases h with h | ⟨tensor, t₀, hexec, h⟩
  · obtain rfl : t = t' := congrArg Prod.snd h
    exact ⟨.refl t, rfl, .refl _⟩
  obtain rfl : t = t₀ := congrArg Prod.snd hexec
  rcases Recording.outcome_bind_eq_error.1 h with h | ⟨_, t₁, -, h⟩
  · obtain ⟨hkeeps, hcounts, hgains, -⟩ := gains_of_forM_bind h
    exact ⟨hkeeps, hcounts, hgains⟩
  -- What follows the weights does not fail.
  · cases congrArg Prod.fst h

/-- The name of the node that a layer leaves if its name has come up so many times by then. -/
def occurrenceName (layer : String) (count : Nat) : String :=
  if count = 1 then layer else s!"{layer}_{count}"

omit [Scalar α] in
theorem nodeName_eq_ok {name : String}
    (h : Recording.outcome (nodeName layer) t = (.ok name, t')) :
    name = occurrenceName layer ((t.counts.find? layer).getD 0 + 1) ∧
      t' = { t with counts := t.counts.insert layer ((t.counts.find? layer).getD 0 + 1) } :=
  ⟨(Except.ok.inj (congrArg Prod.fst h)).symm, (congrArg Prod.snd h).symm⟩

/-- A call that returns a value leaves one node, whose name may be new. -/
theorem exists_of_record [Build] (h : Recording.outcome (record layer op x ps) t = (.ok y, t')) :
    ∃ name, y.name = name ++ ".out" ∧ op.execute x.tensor (ps.map (·.2)) = .ok y.tensor ∧
      t'.graphName = t.graphName ∧ t'.input = t.input ∧
      t'.nodes = t.nodes ++ [layerNode name op x.name ps y.tensor.shape] ∧
      Gains ps t.params t'.params ∧
      (∀ p ∈ ps, ∃ b, t'.params.find? p.1 = some b ∧ b.shape = p.2.shape) ∧
      name = occurrenceName layer ((t.counts.find? layer).getD 0 + 1) ∧
      t'.counts = t.counts.insert layer ((t.counts.find? layer).getD 0 + 1) := by
  rw [record] at h
  obtain ⟨tensor, t₀, hexec, h⟩ := Recording.outcome_bind_eq_ok.1 h
  obtain rfl : t = t₀ := congrArg Prod.snd hexec
  obtain ⟨_, t₁, hbind, h⟩ := Recording.outcome_bind_eq_ok.1 h
  obtain ⟨hkeeps, hcounts, hgains, hbound⟩ := gains_of_forM_bind hbind
  obtain ⟨name, t₂, hname, h⟩ := Recording.outcome_bind_eq_ok.1 h
  obtain ⟨hissued, rfl⟩ := nodeName_eq_ok hname
  simp only [Recording.outcome_modify_bind, Recording.outcome_pure, Prod.mk.injEq,
    Except.ok.injEq] at h
  obtain ⟨rfl, rfl⟩ := h
  rw [hcounts] at hissued
  refine ⟨name, rfl, Outcome.mapError_eq_ok.1 (congrArg Prod.fst hexec), hkeeps.graphName,
    hkeeps.input, ?_, hgains, hbound rfl, hissued, ?_⟩
  · simp only [hkeeps.nodes]
    rfl
  · simp only [hcounts]

/-- The nodes that calls leave. Their weights are bound to tensors of the same shapes. -/
inductive Leaves [Build] (params : Table (Tensor α)) : List (Call α) → List (Node α) → Prop
  | nil : Leaves params [] []
  | failed {layer : String} {op : Op α} {x : Traced α} {ps : List (String × Tensor α)}
      {e : Fault ModelError} {calls : List (Call α)} {ns : List (Node α)} :
      Leaves params calls ns → Leaves params (⟨layer, op, x, ps, .error e⟩ :: calls) ns
  | node {layer name : String} {op : Op α} {x y : Traced α} {ps : List (String × Tensor α)}
      {calls : List (Call α)} {ns : List (Node α)} :
      y.name = name ++ ".out" → op.execute x.tensor (ps.map (·.2)) = .ok y.tensor →
      (∀ p ∈ ps, ∃ b, params.find? p.1 = some b ∧ b.shape = p.2.shape) → Leaves params calls ns →
      Leaves params (⟨layer, op, x, ps, .ok y⟩ :: calls)
        (layerNode name op x.name ps y.tensor.shape :: ns)

/-- **What a session leaves behind.** -/
theorem leaves_of_session [Build] {calls : List (Call α)} (h : Session t calls t') :
    ∃ ns, Leaves t'.params calls ns ∧ t'.nodes = t.nodes ++ ns ∧ t'.graphName = t.graphName ∧
      t'.input = t.input ∧ Gains (calls.flatMap (·.params)) t.params t'.params := by
  induction calls generalizing t with
  | nil =>
    obtain rfl : t' = t := h
    exact ⟨[], .nil, (List.append_nil _).symm, rfl, rfl, .refl _⟩
  | cons c calls ih =>
    obtain ⟨layer, op, x, ps, answer⟩ := c
    obtain ⟨t₁, hcall, h⟩ := h
    obtain ⟨ns, hleaves, hnodes, hgraph, hinput, hgains⟩ := ih h
    cases answer with
    | error e =>
      obtain ⟨hkeeps, -, hgains₁⟩ := gains_of_record_eq_error hcall
      exact ⟨ns, .failed hleaves, hkeeps.nodes ▸ hnodes, hgraph.trans hkeeps.graphName,
        hinput.trans hkeeps.input, hgains₁.trans hgains⟩
    | ok y =>
      obtain ⟨name, hname, hexec, hgraph₁, hinput₁, hnodes₁, hgains₁, hshapes, -⟩ :=
        exists_of_record hcall
      refine ⟨_, .node hname hexec (fun p hp => ?_) hleaves, ?_, hgraph.trans hgraph₁,
        hinput.trans hinput₁, hgains₁.trans hgains⟩
      -- What is bound once stays bound.
      · obtain ⟨b, hb, hshape⟩ := hshapes p hp
        exact ⟨b, hgains.keeps _ _ hb, hshape⟩
      · rw [hnodes, hnodes₁, List.append_assoc]
        rfl

end Leaving

/-! ### Running what was recorded -/

/-- The nodes compute the values one after the other, each from a value that is known by then. -/
inductive Recorded [Build] [Scalar α] (params : Table (Tensor α)) :
    List (Traced α) → List (Traced α) → List (Node α) → Prop
  | nil {known : List (Traced α)} : Recorded params known [] []
  | cons {known vs : List (Traced α)} {x v : Traced α} {n : Node α} {ns : List (Node α)} :
      x ∈ known → n.input = x.name → n.output = v.name →
      n.op.execute x.tensor (Graph.paramTensors params n) = .ok v.tensor →
      Recorded params (v :: known) vs ns → Recorded params known (v :: vs) (n :: ns)

section Replay

variable [Scalar α] {params source : Table (Tensor α)} {known vs : List (Traced α)}
  {ns : List (Node α)}

/-- Nodes and values go together, with whatever is known of the values. -/
theorem Recorded.outputs [Build] {P : Traced α → Prop} (h : Recorded params known vs ns)
    (hvs : ∀ v ∈ vs, P v) : List.Forall₂ (fun n v => n.output = v.name ∧ P v) ns vs := by
  induction h with
  | nil => exact .nil
  | cons _ _ houtput _ _ ih =>
    rw [List.forall_mem_cons] at hvs
    exact .cons ⟨houtput, hvs.1⟩ (ih hvs.2)

theorem Leaves.recorded [Build] {calls : List (Call α)}
    (hsource : ∀ c ∈ calls, ∀ p ∈ c.params, source.find? p.1 = some p.2)
    (hs : Extends params source) (hlinked : Linked known calls) (h : Leaves params calls ns) :
    Recorded params known (returned calls) ns := by
  induction h generalizing known with
  | nil => exact .nil
  | failed _ ih => exact ih (List.forall_mem_cons.1 hsource).2 hlinked.2
  | @node layer name op x y ps calls ns hname hexec hshapes _ ih =>
    rw [List.forall_mem_cons] at hsource
    have hparams : Graph.paramTensors params (layerNode name op x.name ps y.tensor.shape) =
        ps.map (·.2) :=
      paramTensors_layerNode fun p hp => hs.find?_of_bound (hsource.1 p hp) (hshapes p hp)
    exact .cons hlinked.1 rfl hname.symm (hparams ▸ hexec) (ih hsource.2 hlinked.2)

/-- **A session leaves nodes that compute what it has returned.** -/
theorem recorded_of_session [Build] {calls : List (Call α)} {t t' : Tracer α}
    (hsource : ∀ c ∈ calls, ∀ p ∈ c.params, source.find? p.1 = some p.2)
    (hs : Extends t.params source) (hlinked : Linked known calls) (h : Session t calls t') :
    ∃ ns, Recorded t'.params known (returned calls) ns ∧ t'.nodes = t.nodes ++ ns ∧
      t'.graphName = t.graphName ∧ t'.input = t.input ∧ Extends t.params t'.params := by
  obtain ⟨ns, hleaves, hnodes, hgraph, hinput, hgains⟩ := leaves_of_session h
  have hs' : Extends t'.params source := by
    refine hgains.within (fun p hp => ?_) hs
    obtain ⟨c, hc, hp⟩ := List.mem_flatMap.1 hp
    exact hsource c hc p hp
  exact ⟨ns, hleaves.recorded hsource hs' hlinked, hnodes, hgraph, hinput, hgains.keeps⟩

open NetPack.Graph in
/-- **What was recorded is computed again.** The nodes of a valid graph run on an environment in
which the known values have their tensors, and afterwards every value has the tensor that was
returned for it. -/
theorem Recorded.exists_run [Build] (h : Recorded params known vs ns) {old new : String} {s : Scope}
    {env : Env α} (hfit : AllFit params s (ns.map (renameValue old new)))
    (hdefined : ∀ name, s.values.lookup name = none → env.lookup name = none)
    (hknown : ∀ v ∈ known, env.lookup (renamed old new v.name) = some v.tensor) :
    ∃ env', (ns.map (renameValue old new)).foldlM (runNode params) env = .ok env' ∧
      ∀ v ∈ vs ++ known, env'.lookup (renamed old new v.name) = some v.tensor := by
  -- A node produces a value that is not defined yet, so nothing that is known becomes hidden.
  induction h generalizing s env with
  | nil => exact ⟨env, rfl, hknown⟩
  | @cons known vs x v n ns hmem hinput houtput hexec _ ih =>
    have hinput : (renameValue old new n).input = renamed old new x.name := by
      rw [← hinput]
      rfl
    have houtput : (renameValue old new n).output = renamed old new v.name := by
      rw [← houtput]
      rfl
    have hfresh : env.lookup (renamed old new v.name) = none :=
      houtput ▸ hdefined _ hfit.1.single
    have hrun : runNode params env (renameValue old new n) =
        .ok ((renamed old new v.name, v.tensor) :: env) :=
      runNode_eq_ok.2 ⟨x.tensor, v.tensor, hinput ▸ hknown x hmem, hexec, by rw [houtput]⟩
    have hdefined' : ∀ name, (s.extend (renameValue old new n)).values.lookup name = none →
        ((renamed old new v.name, v.tensor) :: env).lookup name = none := by
      intro name hname
      obtain ⟨hne, hname⟩ := lookup_extend_eq_none.1 hname
      rw [lookup_cons_of_ne (houtput ▸ hne), hdefined name hname]
    have hknown' : ∀ w ∈ v :: known,
        ((renamed old new v.name, v.tensor) :: env).lookup (renamed old new w.name) =
          some w.tensor :=
      List.forall_mem_cons.2 ⟨List.lookup_cons_self, fun w hw =>
        lookup_cons_of_fresh hfresh (hknown w hw)⟩
    obtain ⟨env', hrest, hvalues⟩ := ih hfit.2 hdefined' hknown'
    refine ⟨env', ?_, fun w hw => hvalues w ?_⟩
    · rw [List.map_cons, List.foldlM_cons, hrun, Outcome.ok_bind, hrest]
    · simp only [List.mem_append, List.mem_cons] at hw ⊢
      tauto

end Replay

end Tracer

namespace Graph

variable {α : Type} [Scalar α] {g : Graph α}

/-- The nodes of a graph run on an input, and these are the tensors that they compute. -/
def Computes [Build] (g : Graph α) (x : Tensor α) (ys : List (Tensor α)) : Prop :=
  ∃ env, g.nodes.foldlM (runNode g.params) [(g.input.name, x)] = .ok env ∧
    List.Forall₂ (fun n y => env.lookup n.output = some y) g.nodes ys

/-- A valid graph of recorded nodes, one of whose values is the output, computes what was
recorded. -/
theorem Valid.replays [Build] {x y : Traced α} {vs : List (Traced α)} {ns : List (Node α)}
    (h : g.Valid) (hrec : Tracer.Recorded g.params [x] vs ns)
    (hnodes : g.nodes = ns.map (Tracer.renameValue y.name g.output.name))
    (hname : g.input.name = x.name) (hshape : g.input.shape = x.tensor.shape)
    (hne : y.name ≠ x.name) (hy : y ∈ x :: vs) :
    g.evaluate x.tensor = .ok y.tensor ∧ g.Computes x.tensor (vs.map (·.tensor)) := by
  obtain ⟨-, -, -, hfit, -⟩ := valid_iff.1 h
  rw [hnodes] at hfit
  have hdefined : ∀ name, (Scope.initial g).values.lookup name = none →
      [(g.input.name, x.tensor)].lookup name = none := by
    simp only [Scope.initial, List.lookup_cons, List.lookup_nil]
    intro name hnone
    split at hnone
    · cases hnone
    · rfl
  -- The input is not the output, so it keeps its name.
  have hknown : ∀ v ∈ [x], [(g.input.name, x.tensor)].lookup
      (Tracer.renamed y.name g.output.name v.name) = some v.tensor := by
    rw [List.forall_mem_singleton, Tracer.renamed, if_neg hne.symm, hname, List.lookup_cons_self]
  obtain ⟨env, hrun, hvalues⟩ := hrec.exists_run hfit hdefined hknown
  rw [← hnodes] at hrun
  constructor
  · have haccepts := accepts_self g.input
    rw [hshape] at haccepts
    have hmem : y ∈ vs ++ [x] := by simpa [or_comm] using hy
    have hout := hvalues y hmem
    rw [Tracer.renamed, if_pos rfl] at hout
    exact evaluate_eq_ok.2 ⟨haccepts, env, hrun, hout⟩
  · refine ⟨env, hrun, ?_⟩
    rw [hnodes, List.forall₂_map_left_iff, List.forall₂_map_right_iff]
    refine (hrec.outputs fun v hv => hvalues v (List.mem_append_left _ hv)).imp ?_
    rintro n v ⟨houtput, hv⟩
    rw [← houtput] at hv
    exact hv

end Graph

/-! ### Forward passes -/

/-- A forward pass as a tree of calls. What is done next depends on the answer of a call, which may
be a failure that the model handles. -/
inductive Pass (α : Type) where
  /-- The pass is over. -/
  | done (result : Outcome ModelError (Traced α))
  /-- The pass records a layer and goes on. -/
  | record (layer : String) (op : Op α) (input : Traced α) (params : List (String × Tensor α))
    (next : Outcome ModelError (Traced α) → Pass α)

namespace Pass

variable {α : Type} [Scalar α]

/-- Runs a pass through a tracer. -/
def run [Build] : Pass α → Recording α (Traced α)
  | done result => Tracer.attempt result
  | record layer op input params next => ExceptT.mk do
    let answer ← (Tracer.record layer op input params).run
    (run (next answer)).run

/-- The calls that a pass makes. -/
def calls [Build] : Pass α → Tracer α → List (Tracer.Call α)
  | done _, _ => []
  | record layer op input params next, t =>
    let call := Recording.outcome (Tracer.record layer op input params) t
    ⟨layer, op, input, params, call.1⟩ :: calls (next call.1) call.2

/-- The pass reads and returns only the first value and what the tracer has returned, and a name of
a weight stands for one tensor. -/
structure Coherent [Build] (p : Pass α) (t : Tracer α) (x : Traced α) : Prop where
  calls : Tracer.Coherent x (p.calls t)
  returned : ∀ y, (Recording.outcome p.run t).1 = .ok y → y ∈ x :: Tracer.returned (p.calls t)

/-- **A pass is a session of its calls.** -/
theorem session [Build] (p : Pass α) (t : Tracer α) :
    Tracer.Session t (p.calls t) (Recording.outcome p.run t).2 := by
  induction p generalizing t with
  | done result => rfl
  | record layer op input params next ih => exact ⟨_, rfl, ih _ _⟩

/-- Layers that are applied one after the other, as a pass. -/
def ofLayers : List (Layer α) → Traced α → Pass α
  | [], x => done (.ok x)
  | l :: ls, x =>
    match l.kind with
    | .op op => record l.name op x l.weights fun
      | .ok y => ofLayers ls y
      | .error fault => done (.error fault)
    | .dropout => ofLayers ls x
    | .custom layerType => done (Outcome.report (.unsupported l.name layerType))

theorem run_ofLayers (ls : List (Layer α)) (x : Traced α) :
    (ofLayers ls x).run = ls.foldlM (fun x l => l.forward x) x := by
  induction ls generalizing x with
  | nil => rfl
  | cons l ls ih =>
    rw [List.foldlM_cons, Layer.forward, ofLayers]
    cases l.kind with
    | op op =>
      dsimp only
      rw [run, ExceptT.ext_iff, ExceptT.run_mk, ExceptT.run_bind]
      refine bind_congr fun answer => ?_
      cases answer with
      | error fault => rfl
      | ok y => exact congrArg ExceptT.run (ih y)
    | dropout => exact ih x
    | custom layerType => rfl

end Pass

namespace Tracer

variable {α : Type} [Scalar α]

/-- What calls on a new tracer have left, if the recording is finished with a value that the tracer
has returned. -/
theorem recorded_of_finish [Build] {graphName inputName outputName : String} {x : Tensor α}
    {calls : List (Call α)} {t : Tracer α} {y : Traced α} {g : Graph α}
    (hcoherent : Coherent (start graphName inputName x).2 calls)
    (h : Session (start graphName inputName x).1 calls t)
    (hfinish : t.finish y outputName = .ok g) :
    y.name ≠ inputName ∧ g.input = .fixed inputName x.shape ∧ g.output.name = outputName ∧
      ∃ ns, Recorded g.params [⟨inputName, x⟩] (returned calls) ns ∧
        g.nodes = ns.map (renameValue y.name outputName) := by
  obtain ⟨source, hsource⟩ := hcoherent.exists_source
  have hempty : Extends (Table.empty : Table (Tensor α)) source :=
    fun name b hb => by simp at hb
  obtain ⟨ns, hrec, hnodes, -, hinput, -⟩ :=
    recorded_of_session hsource hempty hcoherent.linked h
  obtain ⟨hne, rfl⟩ := finish_eq_ok hfinish
  rw [hinput] at hne
  refine ⟨hne, hinput, rfl, ns, hrec, ?_⟩
  rw [hnodes]
  rfl

end Tracer

namespace Export

open Tracer

@[simp] theorem batchDynamic_name (v : ValueInfo) : (batchDynamic v).name = v.name := by
  unfold batchDynamic ValueInfo.withDynamicAxis
  split <;> rfl

@[simp] theorem batchDynamic_shape (v : ValueInfo) : (batchDynamic v).shape = v.shape := by
  unfold batchDynamic ValueInfo.withDynamicAxis
  split <;> rfl

/-- **A trace replays exactly.** Calls that read only what the tracer has returned, in whatever
order, and name every weight consistently leave a graph that computes on the traced input what the
calls have returned, node by node. So the graph exported from a forward pass gives on the synthetic
input the tensor that the pass has returned, whichever numbers were drawn for it and whichever
branches the pass has taken. -/
theorem trace_replays {α : Type} [Scalar α] :
    (∀ [Build] (graphName inputName outputName : String) (x : Tensor α) (calls : List (Call α))
      (t : Tracer α) (y : Traced α) (g : Graph α),
      Session (start graphName inputName x).1 calls t →
      Tracer.Coherent (start graphName inputName x).2 calls →
      y ∈ (start graphName inputName x).2 :: returned calls →
      (do (← t.finish y outputName).validate : Outcome ModelError (Graph α)) = .ok g →
      g.evaluate x = .ok y.tensor ∧ g.Computes x ((returned calls).map (·.tensor))) ∧
    ∀ [NumberSource] (name : String) (mode : Mode) (pass : Traced Binary32 → Pass Binary32)
      (d : Descriptor) (x : Tensor Binary32) (g : Graph Binary32),
      let traced := start name inputName x
      syntheticInput d = some x →
      (pass traced.2).Coherent traced.1 traced.2 →
      exportGraph ⟨name, mode, fun x => (pass x).run⟩ d = .ok g →
      ∃ y, (Recording.outcome (pass traced.2).run traced.1).1 = .ok y ∧
        g.evaluate x = .ok y.tensor ∧
        g.Computes x ((returned ((pass traced.2).calls traced.1)).map (·.tensor)) := by
  constructor
  · intro _ graphName inputName outputName x calls t y g hsession hcoherent hy h
    obtain ⟨g, hfinish, h⟩ := Outcome.bind_eq_ok.1 h
    replace hfinish := Outcome.ofExcept_eq_ok.1 hfinish
    obtain ⟨hvalid, rfl⟩ := Graph.validate_eq_ok.1 h
    obtain ⟨hne, hinput, rfl, ns, hrec, hnodes⟩ := recorded_of_finish hcoherent hsession hfinish
    exact hvalid.replays hrec hnodes (by rw [hinput]; rfl) (by rw [hinput]; rfl) hne hy
  · intro _ name mode pass d x g traced hx hcoherent h
    obtain ⟨hvalid, -, x', y, t, g, hx', hrun, hfinish, rfl⟩ := exists_of_exportGraph h
    obtain rfl := Option.some.inj (hx.symm.trans hx')
    have hresult := congrArg Prod.fst hrun
    have hsession := (pass traced.2).session traced.1
    rw [hrun] at hsession
    obtain ⟨hne, hinput, hout, ns, hrec, hnodes⟩ :=
      recorded_of_finish hcoherent.calls hsession hfinish
    refine ⟨y, hresult, hvalid.replays hrec ?_ ?_ ?_ hne (hcoherent.returned y hresult)⟩
    · rw [batchDynamic_name, hout, ← hnodes]
    · rw [batchDynamic_name, hinput]
      rfl
    · rw [batchDynamic_shape, hinput]
      rfl

/-! #### A branching pass -/

attribute [local instance] zeroSource

/-- A convolution of single pixels. -/
def pointwise : Op Binary32 := .conv ⟨⟨1, 1⟩, ⟨0, 0⟩, 1⟩

/-- A pass that uses a convolution twice, goes on after a layer that fails, and flattens what the
first convolution gives if nothing that the second one gives is positive. -/
def branchingPass (x : Traced Binary32) : Pass Binary32 :=
  .record "conv" pointwise x [("filter", .blank ⟨[1, 1, 1, 1]⟩)] fun first =>
  .record "pool" (.maxPool ⟨⟨9, 9⟩, ⟨1, 1⟩, ⟨0, 0⟩⟩) x [] fun _ =>
  match first with
  | .error fault => .done (.error fault)
  | .ok a => .record "conv" pointwise a [("filter", .blank ⟨[1, 1, 1, 1]⟩)] fun second =>
    match second with
    | .error fault => .done (.error fault)
    | .ok b =>
      if b.tensor.data.any (Scalar.lt 0) then .done (.ok b) else .record "flat" .flatten a [] .done

/-- The start of a recording on four pixels. -/
def fourPixels : Tracer Binary32 × Traced Binary32 :=
  start "m" inputName (.blank ⟨[1, 1, 2, 2]⟩)

theorem syntheticInput_fourPixels :
    syntheticInput ⟨1, 1, 2, 2, .f32⟩ = some (.blank ⟨[1, 1, 2, 2]⟩) := rfl

theorem outcome_branchingPass :
    (Recording.outcome (branchingPass fourPixels.2).run fourPixels.1).1 =
      .ok ⟨"flat.out", .blank ⟨[1, 4]⟩⟩ := by decide +kernel

theorem coherent_branchingPass :
    (branchingPass fourPixels.2).Coherent fourPixels.1 fourPixels.2 := by
  refine ⟨by decide +kernel, fun y hy => ?_⟩
  obtain rfl := Except.ok.inj (outcome_branchingPass.symm.trans hy)
  decide +kernel

/-- The recording is finished with the value that the pass returns, or with the value between the
two convolutions, which other nodes read. -/
theorem trace_replays_branchingPass :
    (∃ g, exportGraph ⟨"m", .eval, fun x => (branchingPass x).run⟩ ⟨1, 1, 2, 2, .f32⟩ = .ok g ∧
      g.evaluate (.blank ⟨[1, 1, 2, 2]⟩) = .ok (.blank ⟨[1, 4]⟩)) ∧
    ∃ g, (do
      let g ← (Recording.outcome (branchingPass fourPixels.2).run fourPixels.1).2.finish
        ⟨"conv.out", .blank ⟨[1, 1, 2, 2]⟩⟩ "y"
      g.validate : Outcome ModelError (Graph Binary32)) = .ok g ∧
      g.evaluate (.blank ⟨[1, 1, 2, 2]⟩) = .ok (.blank ⟨[1, 1, 2, 2]⟩) := by
  constructor
  · obtain ⟨g, hg⟩ : ∃ g, exportGraph ⟨"m", .eval, fun x => (branchingPass x).run⟩
        ⟨1, 1, 2, 2, .f32⟩ = .ok g := Outcome.exists_of_isOk (by decide +kernel)
    obtain ⟨y, hy, hrun, -⟩ := (@trace_replays Binary32 _).2 "m" .eval branchingPass _ _ g
      syntheticInput_fourPixels coherent_branchingPass hg
    obtain rfl := Except.ok.inj (outcome_branchingPass.symm.trans hy)
    exact ⟨g, hg, hrun⟩
  · obtain ⟨g, hg⟩ :
        ∃ g, (do
          let g ← (Recording.outcome (branchingPass fourPixels.2).run fourPixels.1).2.finish
            ⟨"conv.out", .blank ⟨[1, 1, 2, 2]⟩⟩ "y"
          g.validate : Outcome ModelError (Graph Binary32)) = .ok g :=
      Outcome.exists_of_isOk (by decide +kernel)
    exact ⟨g, hg, (trace_replays.1 "m" inputName "y" _ _ _ _ g (Pass.session _ fourPixels.1)
      coherent_branchingPass.calls (by decide +kernel) hg).1⟩

end Export

end NetPack
