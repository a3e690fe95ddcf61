import NetPack.Proofs.Replaying

/-!
# What a failed call leaves behind

A call of `Tracer.record` may fail, and a model may go on after that. No node is recorded then and
no name is counted, since both is done at the end of a call. The weights, however, are bound one
after the other, and where one of them is in conflict with what its name is bound to, the weights
before it stay bound. So a failed call is in general not undone (`Tracer.not_forall_undone`): a name
that it has leaked refuses every other tensor from then on.

What such a call leaves is known exactly (`Tracer.state_of_failed`). A call whose operation refuses
its operands leaves the tracer as it was. Any other failed call leaves the tracer with the weights
before the first conflict adopted, which is no change exactly if all their names were bound before.
Later calls that pass a leaked name with the leaked tensor alone, or not at all, cannot tell the
difference: they get the same answers and leave the same nodes and counts (`Tracer.Leaks.session`).
For this a tracer is compared with one that has more parameters (`Tracer.Leaks`). Each step of a
call is `Tracer.Blind` to these, and so is what is made of such steps.
-/

namespace NetPack

namespace Tracer

variable {α β γ : Type}

/-! ### Weights up to a conflict -/

section Adopting

variable {params : Table (Tensor α)} {p : String × Tensor α} {ps : List (String × Tensor α)}
  {t t' : Tracer α} {layer name : String}

/-- The parameters with a weight added whose name is free. -/
def adopt (params : Table (Tensor α)) (p : String × Tensor α) : Table (Tensor α) :=
  if params.contains p.1 then params else params.insert p.1 p.2

/-- Of several weights of one name, the first one is adopted. -/
theorem find?_foldl_adopt (ps : List (String × Tensor α)) (params : Table (Tensor α))
    (name : String) :
    (ps.foldl adopt params).find? name = (params.find? name).or (ps.lookup name) := by
  induction ps generalizing params with
  | nil => simp
  | cons p ps ih =>
    rw [List.foldl_cons, ih, adopt, Table.contains, List.lookup_cons]
    by_cases hname : name = p.1
    · subst hname
      cases hbound : params.find? p.1 <;> simp [hbound]
    · cases params.find? p.1 <;>
        simp [beq_false_of_ne hname, Table.find?_insert_of_ne hname]

/-- Adopting weights changes nothing exactly if their names are taken. -/
theorem foldl_adopt_eq_self :
    ps.foldl adopt params = params ↔ ∀ p ∈ ps, params.contains p.1 = true := by
  constructor
  · intro h p hp
    rw [← h, Table.contains, find?_foldl_adopt, Option.isSome_or]
    simp only [Bool.or_eq_true, List.lookup_isSome_iff]
    exact .inr ⟨p, hp, beq_self_eq_true _⟩
  · intro h
    refine Table.ext_find? fun name => ?_
    rw [find?_foldl_adopt]
    by_cases hbound : (params.find? name).isSome
    · exact Option.or_of_isSome hbound
    · have hnone : ps.lookup name = none := List.lookup_eq_none_iff.2 fun p hp =>
        bne_iff_ne.2 fun heq => hbound (heq ▸ h p hp)
      rw [hnone, Option.or_none]

variable [Scalar α]

/-- The name of the weight stands for a tensor that is not the same. -/
def Conflicts (params : Table (Tensor α)) (p : String × Tensor α) : Prop :=
  ∃ b, params.find? p.1 = some b ∧ b.same p.2 = false

theorem outcome_bind_of_conflicts (h : Conflicts t.params p) :
    Recording.outcome (bind layer p) t =
      (Outcome.report (.layer layer (.boundElsewhere p.1)), t) := by
  obtain ⟨b, hbound, hsame⟩ := h
  simp [bind, hbound, hsame]

theorem outcome_bind_of_not_conflicts (h : ¬ Conflicts t.params p) :
    Recording.outcome (bind layer p) t = (.ok (), { t with params := adopt t.params p }) := by
  cases hbound : t.params.find? p.1 with
  | some b =>
    have hsame : b.same p.2 = true := by
      by_contra hne
      exact h ⟨b, hbound, by simpa using hne⟩
    simp [bind, adopt, Table.contains, hbound, hsame]
  | none => simp [bind, adopt, Table.contains, hbound]

/-- Weights that cannot all be bound are adopted up to the first conflict. -/
theorem exists_of_forM_bind_eq_error {e : Fault ModelError}
    (h : Recording.outcome (ps.forM (bind layer)) t = (.error e, t')) :
    ∃ before p after, ps = before ++ p :: after ∧
      e = .reported (.layer layer (.boundElsewhere p.1)) ∧
      t' = { t with params := before.foldl adopt t.params } ∧ Conflicts t'.params p := by
  induction ps generalizing t with
  | nil => cases congrArg Prod.fst h
  | cons p ps ih =>
    rw [List.forM_eq_forM, List.forM_cons] at h
    by_cases hp : Conflicts t.params p
    · rcases Recording.outcome_bind_eq_error.1 h with h | ⟨_, t₁, hbind, -⟩
      · rw [outcome_bind_of_conflicts hp, Prod.mk.injEq] at h
        obtain ⟨he, rfl⟩ := h
        exact ⟨[], p, ps, rfl, (Except.error.inj he).symm, rfl, hp⟩
      · rw [outcome_bind_of_conflicts hp] at hbind
        cases congrArg Prod.fst hbind
    · rcases Recording.outcome_bind_eq_error.1 h with h | ⟨_, t₁, hbind, h⟩
      · rw [outcome_bind_of_not_conflicts hp] at h
        cases congrArg Prod.fst h
      · rw [outcome_bind_of_not_conflicts hp] at hbind
        obtain rfl := (congrArg Prod.snd hbind).symm
        obtain ⟨before, q, after, rfl, he, ht', hq⟩ := ih h
        exact ⟨p :: before, q, after, rfl, he, ht', hq⟩

end Adopting

/-! ### Tracers with further parameters -/

/-- The second tracer is the first one with what was leaked bound to the names that are free. -/
def Leaks (leak : String → Option (Tensor α)) (t u : Tracer α) : Prop :=
  ∃ params, u = { t with params } ∧
    ∀ name, params.find? name = (t.params.find? name).or (leak name)

/-- A recording that comes to the same whether or not there is a leak. -/
def Blind (leak : String → Option (Tensor α)) (r : Recording α β) : Prop :=
  ∀ t u, Leaks leak t u → (Recording.outcome r u).1 = (Recording.outcome r t).1 ∧
    Leaks leak (Recording.outcome r t).2 (Recording.outcome r u).2

/-- The weight is bound alike with the leak: if its name was leaked, then with this very tensor,
which is the same as itself. -/
def Spares [Scalar α] (leak : String → Option (Tensor α)) (p : String × Tensor α) : Prop :=
  ∀ b, leak p.1 = some b → p.2 = b ∧ b.same b = true

section Blindness

variable {leak : String → Option (Tensor α)}

theorem Blind.bind {r : Recording α β} {f : β → Recording α γ} (hr : Blind leak r)
    (hf : ∀ b, Blind leak (f b)) : Blind leak (r >>= f) := by
  intro t u h
  obtain ⟨hanswer, hleaks⟩ := hr t u h
  rw [Recording.outcome_bind, Recording.outcome_bind]
  rcases ht : Recording.outcome r t with ⟨answer, t₁⟩
  rcases hu : Recording.outcome r u with ⟨answer', u₁⟩
  rw [ht, hu] at hanswer hleaks
  obtain rfl : answer' = answer := hanswer
  cases answer' with
  | ok b => exact hf b t₁ u₁ hleaks
  | error e => exact ⟨rfl, hleaks⟩

theorem blind_attempt (r : Outcome ModelError β) : Blind leak (attempt r) := fun _ _ h => ⟨rfl, h⟩

theorem blind_pure (b : β) : Blind leak (pure b) := fun _ _ h => ⟨rfl, h⟩

theorem blind_nodeName (layer : String) : Blind leak (nodeName layer) := by
  rintro t _ ⟨params, rfl, hparams⟩
  exact ⟨rfl, params, rfl, hparams⟩

theorem blind_appendNode (n : Node α) :
    Blind leak (modify fun t => { t with nodes := t.nodes ++ [n] }) := by
  rintro t _ ⟨params, rfl, hparams⟩
  exact ⟨rfl, params, rfl, hparams⟩

variable [Scalar α] {layer : String} {p : String × Tensor α} {ps : List (String × Tensor α)}

theorem blind_bind (h : Spares leak p) : Blind leak (bind layer p) := by
  rintro t _ ⟨params, rfl, hparams⟩
  have hp := hparams p.1
  cases hbound : t.params.find? p.1 with
  | some b =>
    -- Both tracers compare with the same tensor.
    rw [hbound, Option.some_or] at hp
    simp only [bind, Recording.outcome_get_bind, hbound, hp]
    split
    · exact ⟨rfl, params, rfl, hparams⟩
    · exact ⟨rfl, params, rfl, hparams⟩
  | none =>
    rw [hbound, Option.none_or] at hp
    have hinsert : ∀ name, (params.find? name = some p.2 ∨ name ≠ p.1) →
        (params.find? name) = ((t.params.insert p.1 p.2).find? name).or (leak name) := by
      intro name hname
      rw [Table.find?_insert]
      split
      · rename_i heq
        rw [Option.some_or]
        exact hname.resolve_right (not_not.2 heq)
      · exact hparams name
    cases hleak : leak p.1 with
    | some b =>
      -- The first tracer binds the weight, the second one finds it bound to the leaked tensor.
      obtain ⟨rfl, hsame⟩ := h b hleak
      rw [hleak] at hp
      simp only [bind, Recording.outcome_get_bind, hbound, hp, hsame, if_true]
      refine ⟨rfl, params, rfl, fun name => hinsert name ?_⟩
      by_cases hname : name = p.1
      · exact .inl (hname ▸ hp)
      · exact .inr hname
    | none =>
      rw [hleak] at hp
      simp only [bind, Recording.outcome_get_bind, hbound, hp]
      refine ⟨rfl, params.insert p.1 p.2, rfl, fun name => ?_⟩
      by_cases hname : name = p.1
      · simp [hname]
      · rw [Recording.outcome_set, Table.find?_insert_of_ne hname, Table.find?_insert_of_ne hname]
        exact hparams name

theorem blind_forM_bind (h : ∀ p ∈ ps, Spares leak p) : Blind leak (ps.forM (bind layer)) := by
  induction ps with
  | nil => exact blind_pure ()
  | cons p ps ih =>
    rw [List.forall_mem_cons] at h
    exact (blind_bind h.1).bind fun _ => ih h.2

/-- **A call that spares the leak does not see it.** -/
theorem blind_record (layer : String) (op : Op α) (x : Traced α) (h : ∀ p ∈ ps, Spares leak p) :
    Blind leak (record layer op x ps) :=
  (blind_attempt _).bind fun _ => (blind_forM_bind h).bind fun _ =>
    (blind_nodeName layer).bind fun _ => (blind_appendNode _).bind fun _ => blind_pure _

/-- **Calls that spare the leak do not see it**: with and without it they get the same answers. -/
theorem Leaks.session {t u u' : Tracer α} {calls : List (Call α)} (h : Leaks leak t u)
    (hcalls : ∀ c ∈ calls, ∀ p ∈ c.params, Spares leak p) (hu : Session u calls u') :
    ∃ t', Session t calls t' ∧ Leaks leak t' u' := by
  induction calls generalizing t u with
  | nil =>
    obtain rfl : u' = u := hu
    exact ⟨t, rfl, h⟩
  | cons c calls ih =>
    rw [List.forall_mem_cons] at hcalls
    obtain ⟨u₁, hcall, hu⟩ := hu
    have hblind := blind_record c.layer c.op c.input hcalls.1 t u h
    rw [hcall] at hblind
    rcases hcall' : Recording.outcome (record c.layer c.op c.input c.params) t with ⟨answer, t₁⟩
    rw [hcall'] at hblind
    obtain ⟨rfl, hleaks⟩ := hblind
    obtain ⟨t', ht, hleaks'⟩ := ih hleaks hcalls.2 hu
    exact ⟨t', ⟨t₁, hcall', ht⟩, hleaks'⟩

end Blindness

/-! ### Failed calls -/

/-- The parameters of the second tracer whose names are free in the first one. -/
def leaked (t t' : Tracer α) (name : String) : Option (Tensor α) :=
  if t.params.contains name then none else t'.params.find? name

theorem leaks_leaked {t t' : Tracer α} (hsame : t' = { t with params := t'.params })
    (hkeeps : Extends t.params t'.params) : Leaks (leaked t t') t t' := by
  refine ⟨t'.params, hsame, fun name => ?_⟩
  rw [leaked, Table.contains]
  cases hbound : t.params.find? name with
  | some b => simpa using hkeeps name b hbound
  | none => simp

theorem finish_with_params (t : Tracer α) (params : Table (Tensor α)) (y : Traced α)
    (outputName : String) :
    { t with params }.finish y outputName =
      (t.finish y outputName).map fun g => { g with params } := by
  unfold finish
  by_cases hinput : y.name = t.input.name
  · simp [hinput, Except.map]
  · by_cases hmade : t.nodes.any (·.output == y.name) = true
    · simp [hinput, hmade, Except.map, pure, Except.pure]
    · simp [hinput, hmade, Except.map]

section Failing

variable [Scalar α] {t t' : Tracer α} {x : Traced α} {layer : String} {op : Op α}
  {ps : List (String × Tensor α)} {e : Fault ModelError}

/-- A call fails in its operation, and nothing has changed, or at the first weight in conflict. -/
theorem cases_of_record_eq_error
    (h : Recording.outcome (record layer op x ps) t = (.error e, t')) :
    (t' = t ∧ ∃ cause, op.execute x.tensor (ps.map (·.2)) = .error cause ∧
      e = cause.map (refusal layer)) ∨
    ∃ before p after, ps = before ++ p :: after ∧
      (∃ y, op.execute x.tensor (ps.map (·.2)) = .ok y) ∧
      e = .reported (.layer layer (.boundElsewhere p.1)) ∧
      t' = { t with params := before.foldl adopt t.params } ∧ Conflicts t'.params p := by
  rw [record, Recording.outcome_bind_eq_error, Recording.outcome_attempt] at h
  rcases h with h | ⟨y, t₀, hexec, h⟩
  · obtain ⟨hfault, rfl⟩ := Prod.mk.inj h
    cases hexec : op.execute x.tensor (ps.map (·.2)) with
    | ok y => simp [hexec] at hfault
    | error cause =>
      rw [hexec] at hfault
      exact .inl ⟨rfl, cause, rfl, (Except.error.inj hfault).symm⟩
  · obtain rfl : t = t₀ := congrArg Prod.snd hexec
    have hexec : op.execute x.tensor (ps.map (·.2)) = .ok y :=
      Outcome.mapError_eq_ok.1 (congrArg Prod.fst hexec)
    rcases Recording.outcome_bind_eq_error.1 h with h | ⟨_, t₁, -, h⟩
    · obtain ⟨before, p, after, hps, he, ht', hp⟩ := exists_of_forM_bind_eq_error h
      exact .inr ⟨before, p, after, hps, ⟨y, hexec⟩, he, ht', hp⟩
    · cases congrArg Prod.fst h

/-- An operation that runs is recorded if its weights can be bound, and refused otherwise. -/
theorem outcome_record_of_execute (layer : String) (t : Tracer α) {y : Tensor α}
    (hexec : op.execute x.tensor (ps.map (·.2)) = .ok y) :
    (∀ e t', Recording.outcome (ps.forM (bind layer)) t = (.error e, t') →
      Recording.outcome (record layer op x ps) t = (.error e, t')) ∧
    ∀ t₁, Recording.outcome (ps.forM (bind layer)) t = (.ok (), t₁) →
      ∃ v t', Recording.outcome (record layer op x ps) t = (.ok v, t') ∧ v.tensor = y ∧
        t'.params = t₁.params := by
  rw [record, Recording.outcome_bind, Recording.outcome_attempt, hexec, Outcome.mapError_ok]
  dsimp only
  rw [Recording.outcome_bind]
  constructor
  · intro e t' hbind
    rw [hbind]
  · intro t₁ hbind
    rw [hbind]
    exact ⟨_, _, rfl, rfl, rfl⟩

/-- A weight whose name is bound to another tensor refuses an operation that would run. -/
theorem outcome_record_of_conflicts {p : String × Tensor α} {y : Tensor α}
    (hexec : op.execute x.tensor [p.2] = .ok y) (hp : Conflicts t.params p) :
    Recording.outcome (record layer op x [p]) t =
      (Outcome.report (.layer layer (.boundElsewhere p.1)), t) := by
  refine (outcome_record_of_execute _ _ hexec).1 _ _ ?_
  rw [List.forM_eq_forM, List.forM_cons, Recording.outcome_bind, outcome_bind_of_conflicts hp]
  rfl

/-- A weight whose name is free lets an operation that runs be recorded. -/
theorem exists_record_of_free {p : String × Tensor α} {y : Tensor α}
    (hexec : op.execute x.tensor [p.2] = .ok y) (hfree : t.params.find? p.1 = none) :
    ∃ v t', Recording.outcome (record layer op x [p]) t = (.ok v, t') := by
  have hp : ¬ Conflicts t.params p := by
    rintro ⟨b, hb, -⟩
    rw [hfree] at hb
    cases hb
  have hbind : Recording.outcome ([p].forM (bind layer)) t =
      (.ok (), { t with params := adopt t.params p }) := by
    rw [List.forM_eq_forM, List.forM_cons, Recording.outcome_bind, outcome_bind_of_not_conflicts hp]
    rfl
  obtain ⟨v, t', h, -⟩ := (outcome_record_of_execute _ _ hexec).2 _ hbind
  exact ⟨v, t', h⟩

/-- **What a failed call leaves behind.** Nodes and counts stay as they were, and so do the
parameters if the operation fails. Otherwise the weights before the first conflict are adopted,
which is a change exactly if one of their names was free. Calls that pass the leaked names, if at
all, with the leaked tensors get the same answers as without the failed call and leave the same but
for the leaked parameters. A leaked name refuses any other tensor, which would have been accepted
without the failed call. -/
theorem state_of_failed (h : Recording.outcome (record layer op x ps) t = (.error e, t')) :
    t'.graphName = t.graphName ∧ t'.input = t.input ∧ t'.nodes = t.nodes ∧ t'.counts = t.counts ∧
    ((t' = t ∧ ∃ cause, op.execute x.tensor (ps.map (·.2)) = .error cause ∧
        e = cause.map (refusal layer)) ∨
      ∃ before p after, ps = before ++ p :: after ∧
        (∃ y, op.execute x.tensor (ps.map (·.2)) = .ok y) ∧
        e = .reported (.layer layer (.boundElsewhere p.1)) ∧ Conflicts t'.params p ∧
        (∀ name, t'.params.find? name = (t.params.find? name).or (before.lookup name)) ∧
        (t' = t ↔ ∀ q ∈ before, t.params.contains q.1 = true)) ∧
    (∀ (calls : List (Call α)) (u' : Tracer α), Session t' calls u' →
      (∀ c ∈ calls, ∀ p ∈ c.params, Spares (leaked t t') p) →
      ∃ u, Session t calls u ∧ u' = { u with params := u'.params } ∧
        (∀ name, leaked t t' name = none → u'.params.find? name = u.params.find? name) ∧
        ∀ (y : Traced α) (outputName : String), u'.finish y outputName =
          (u.finish y outputName).map fun g => { g with params := u'.params }) ∧
    ∀ (p : String × Tensor α) (b : Tensor α), leaked t t' p.1 = some b → b.same p.2 = false →
      ∀ (layer' : String) (op' : Op α) (x' : Traced α) (y : Tensor α),
        op'.execute x'.tensor [p.2] = .ok y →
        (∃ v u, Recording.outcome (record layer' op' x' [p]) t = (.ok v, u)) ∧
        Recording.outcome (record layer' op' x' [p]) t' =
          (Outcome.report (.layer layer' (.boundElsewhere p.1)), t') := by
  obtain ⟨hkeeps, hcounts, -⟩ := gains_of_record_eq_error h
  have hsame : t' = { t with params := t'.params } := by
    obtain ⟨graphName, input, nodes, params, counts⟩ := t'
    obtain ⟨rfl, rfl, rfl, -⟩ := hkeeps
    obtain rfl := hcounts
    rfl
  refine ⟨hkeeps.graphName, hkeeps.input, hkeeps.nodes, hcounts, ?_, ?_, ?_⟩
  · rcases cases_of_record_eq_error h with hexec | ⟨before, p, after, hps, hexec, he, rfl, hp⟩
    · exact .inl hexec
    · refine .inr ⟨before, p, after, hps, hexec, he, hp, find?_foldl_adopt _ _, ?_⟩
      rw [← foldl_adopt_eq_self]
      exact ⟨fun ht => congrArg Tracer.params ht, fun hparams => by rw [hparams]⟩
  · intro calls u' hu hcalls
    obtain ⟨u, hsession, params, rfl, hparams⟩ :=
      (leaks_leaked hsame hkeeps.params).session hcalls hu
    refine ⟨u, hsession, rfl, fun name hname => ?_, finish_with_params u params⟩
    rw [hparams, hname, Option.or_none]
  · intro p b hb hdiffers layer' op' x' y hexec
    rw [leaked] at hb
    by_cases hbound : t.params.contains p.1 = true
    · rw [if_pos hbound] at hb
      cases hb
    · rw [if_neg hbound] at hb
      have hfree : t.params.find? p.1 = none := by simpa [Table.contains] using hbound
      exact ⟨exists_record_of_free hexec hfree, outcome_record_of_conflicts hexec ⟨b, hb, hdiffers⟩⟩

end Failing

/-! ### A call that fails at its second weight -/

/-- A number as a matrix. -/
def single (v : Binary32) : Tensor Binary32 := ⟨⟨[1, 1]⟩, #[v]⟩

/-- The start of a recording on a single one. -/
def onOne : Tracer Binary32 × Traced Binary32 := start "t" "x" (single 1)

/-- Takes `b` for a matrix. -/
def matrixCall : Recording Binary32 (Traced Binary32) :=
  record "first" .linear onOne.2 [("b", single 1)]

/-- Takes `b` for a vector that is added to a product with `a`. -/
def vectorCall : Recording Binary32 (Traced Binary32) :=
  record "second" .linear onOne.2 [("a", single 1), ("b", ⟨⟨[1]⟩, #[1]⟩)]

/-- The recording after `b` was bound to a matrix. -/
def matrixBound : Tracer Binary32 := (Recording.outcome matrixCall onOne.1).2

/-- The recording after `b` was refused as a vector. -/
def vectorRefused : Tracer Binary32 := (Recording.outcome vectorCall matrixBound).2

theorem outcome_vectorCall : Recording.outcome vectorCall matrixBound =
    (.error (.reported (.layer "second" (.boundElsewhere "b"))), vectorRefused) :=
  Prod.ext (by decide +kernel) rfl

/-- The name `a` is bound by the call that was refused for `b`. -/
theorem state_of_failed_vector :
    vectorRefused.nodes = matrixBound.nodes ∧ vectorRefused ≠ matrixBound ∧
      (∃ u, Session matrixBound [⟨"third", .activation .relu, onOne.2, [],
        .ok ⟨"third.out", single 1⟩⟩] u) ∧
      Recording.outcome (record "third" .linear onOne.2 [("a", single 0)]) vectorRefused =
        (Outcome.report (.layer "third" (.boundElsewhere "a")), vectorRefused) := by
  obtain ⟨-, -, hnodes, -, hcases, hlater, hrefused⟩ := state_of_failed outcome_vectorCall
  refine ⟨hnodes, ?_, ?_, ?_⟩
  · intro h
    have hnone : vectorRefused.params.find? "a" = none := by
      rw [h]
      decide +kernel
    exact absurd hnone (by decide +kernel)
  · have hsession : Session vectorRefused [⟨"third", .activation .relu, onOne.2, [],
        .ok ⟨"third.out", single 1⟩⟩] _ := ⟨_, Prod.ext (by decide +kernel) rfl, rfl⟩
    obtain ⟨u, hu, -⟩ := hlater _ _ hsession (by simp)
    exact ⟨u, hu⟩
  · exact (hrefused ("a", single 0) (single 1) (by decide +kernel) (by decide +kernel) "third"
      .linear onOne.2 (single 0) (by decide +kernel)).2

/-- **A failed call is in general not undone.** A later call with the weight `a` is refused, which
is accepted if the failed call was never made. -/
theorem not_forall_undone :
    ¬ ∀ (graphName inputName : String) (x : Tensor Binary32) (calls : List (Call Binary32))
      (t t' : Tracer Binary32) (layer : String) (op : Op Binary32) (y : Traced Binary32)
      (ps : List (String × Tensor Binary32)) (e : ModelError),
      Session (start graphName inputName x).1 calls t →
      Recording.outcome (record layer op y ps) t = (.error (.reported e), t') →
      ∀ (later : List (Call Binary32)) (u' : Tracer Binary32), Session t' later u' →
        ∃ u, Session t later u := by
  intro h
  obtain ⟨u, u₁, hcall, -⟩ := h "t" "x" (single 1)
    [⟨"first", .linear, onOne.2, [("b", single 1)], (Recording.outcome matrixCall onOne.1).1⟩]
    matrixBound vectorRefused _ _ _ _ _ ⟨_, rfl, rfl⟩ outcome_vectorCall
    [⟨"third", .linear, onOne.2, [("a", single 0)],
      Outcome.report (.layer "third" (.boundElsewhere "a"))⟩]
    _ ⟨_, Prod.ext (by decide +kernel) rfl, rfl⟩
  have haccepted : (Recording.outcome (record "third" .linear onOne.2 [("a", single 0)])
      matrixBound).1.isOk = true := by decide +kernel
  rw [hcall] at haccepted
  cases haccepted

end Tracer

end NetPack
