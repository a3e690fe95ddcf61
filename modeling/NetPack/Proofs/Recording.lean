import NetPack.Model.Basic
import NetPack.Proofs.Outcomes
import NetPack.Proofs.Tables
import NetPack.Proofs.Validity

/-!
# What a recording leaves behind

A recording of the layers of a model gives one node for each layer that is an operation.
`Tracer.Records` says so without the tracer: the first node reads the value that the recording
started with, every other node reads what the node before it produces, and the parameters of the
nodes are bound to the weights of their layers. Running the layers through a tracer that has not
seen their names always gives such nodes (`Tracer.records_of_forward`).
-/

namespace NetPack

namespace Recording

variable {α β γ : Type} {t t' : Tracer α}

/-- The result of a recording and the tracer that it leaves. -/
def outcome (r : Recording α β) (t : Tracer α) : Outcome ModelError β × Tracer α := r.run.run t

@[simp] theorem outcome_pure (b : β) : outcome (pure b : Recording α β) t = (.ok b, t) := rfl

@[simp] theorem outcome_get_bind (f : Tracer α → Recording α β) :
    outcome (get >>= f) t = outcome (f t) t := rfl

@[simp] theorem outcome_set (t' : Tracer α) :
    outcome (set t' : Recording α Unit) t = (.ok (), t') := rfl

@[simp] theorem outcome_set_bind (t' : Tracer α) (f : Unit → Recording α β) :
    outcome (set t' >>= f) t = outcome (f ()) t' := rfl

@[simp] theorem outcome_modify_bind (g : Tracer α → Tracer α) (f : Unit → Recording α β) :
    outcome (modify g >>= f) t = outcome (f ()) (g t) := rfl

@[simp] theorem outcome_attempt (r : Outcome ModelError β) :
    outcome (Tracer.attempt r : Recording α β) t = (r, t) := rfl

theorem outcome_bind (r : Recording α β) (f : β → Recording α γ) (t : Tracer α) :
    outcome (r >>= f) t = match outcome r t with
      | (.ok b, t₁) => outcome (f b) t₁
      | (.error e, t₁) => (.error e, t₁) := by
  simp only [outcome, ExceptT.run_bind, StateT.run_bind]
  rcases r.run.run t with ⟨_ | b, t₁⟩ <;> rfl

theorem outcome_bind_eq_ok {r : Recording α β} {f : β → Recording α γ} {c : γ} :
    outcome (r >>= f) t = (.ok c, t') ↔
      ∃ b t₁, outcome r t = (.ok b, t₁) ∧ outcome (f b) t₁ = (.ok c, t') := by
  rw [outcome_bind]
  rcases outcome r t with ⟨e | b, t₁⟩ <;> simp

theorem outcome_bind_eq_error {r : Recording α β} {f : β → Recording α γ}
    {e : Fault ModelError} :
    outcome (r >>= f) t = (.error e, t') ↔ outcome r t = (.error e, t') ∨
      ∃ b t₁, outcome r t = (.ok b, t₁) ∧ outcome (f b) t₁ = (.error e, t') := by
  rw [outcome_bind]
  rcases outcome r t with ⟨e₁ | b, t₁⟩ <;> simp

end Recording

namespace Tracer

variable {α : Type} {t t' : Tracer α} {x y : Traced α} {source : Table (Tensor α)}

/-! ### Parameters -/

/-- Every parameter of the first table is in the second one. -/
def Extends (params params' : Table (Tensor α)) : Prop :=
  ∀ name b, params.find? name = some b → params'.find? name = some b

/-- The second table has no parameters but those of the first one and the named ones. -/
def Adds (names : List String) (params params' : Table (Tensor α)) : Prop :=
  ∀ name b, params'.find? name = some b → params.find? name = some b ∨ name ∈ names

theorem Adds.refl (params : Table (Tensor α)) : Adds [] params params := fun _ _ h => .inl h

theorem Adds.trans {names names' : List String} {params params' params'' : Table (Tensor α)}
    (h : Adds names params params') (h' : Adds names' params' params'') :
    Adds (names ++ names') params params'' := fun name b hb => by
  rcases h' name b hb with hb | hmem
  · exact (h name b hb).imp_right (List.mem_append_left names')
  · exact .inr (List.mem_append_right names hmem)

/-- The recording went on without changing anything but the parameters and the counts of names. -/
structure Keeps (t t' : Tracer α) : Prop where
  graphName : t'.graphName = t.graphName
  input : t'.input = t.input
  nodes : t'.nodes = t.nodes
  params : Extends t.params t'.params

theorem Keeps.refl (t : Tracer α) : Keeps t t := ⟨rfl, rfl, rfl, fun _ _ h => h⟩

theorem Keeps.trans {t₁ t₂ t₃ : Tracer α} (h : Keeps t₁ t₂) (h' : Keeps t₂ t₃) : Keeps t₁ t₃ :=
  ⟨h'.graphName.trans h.graphName, h'.input.trans h.input, h'.nodes.trans h.nodes,
    fun name b hb => h'.params name b (h.params name b hb)⟩

/-- The second table has the parameters of the first one and maybe some of the weights. -/
structure Gains (ps : List (String × Tensor α)) (params params' : Table (Tensor α)) : Prop where
  keeps : Extends params params'
  only : ∀ name b, params'.find? name = some b → params.find? name = some b ∨ (name, b) ∈ ps

section Binding

variable {params params' params'' : Table (Tensor α)} {layer : String} {p : String × Tensor α}
  {ps : List (String × Tensor α)}

theorem Gains.refl (params : Table (Tensor α)) : Gains ps params params :=
  ⟨fun _ _ h => h, fun _ _ h => .inl h⟩

theorem Gains.trans {ps' : List (String × Tensor α)} (h : Gains ps params params')
    (h' : Gains ps' params' params'') : Gains (ps ++ ps') params params'' where
  keeps name b hb := h'.keeps name b (h.keeps name b hb)
  only name b hb := by
    rcases h'.only name b hb with hb | hmem
    · exact (h.only name b hb).imp_right (List.mem_append_left ps')
    · exact .inr (List.mem_append_right ps hmem)

theorem Gains.adds (h : Gains ps params params') : Adds (ps.map (·.1)) params params' :=
  fun name b hb => (h.only name b hb).imp_right fun hmem => List.mem_map.2 ⟨(name, b), hmem, rfl⟩

/-- Weights of the source leave only parameters of the source behind. -/
theorem Gains.within (h : Gains ps params params') (hps : ∀ p ∈ ps, source.find? p.1 = some p.2)
    (hs : Extends params source) : Extends params' source := by
  intro name b hb
  rcases h.only name b hb with hb | hmem
  · exact hs name b hb
  · exact hps (name, b) hmem

variable [Scalar α] {answer : Outcome ModelError Unit}

/-- A weight is bound to a tensor of its shape or refused; a refusal leaves the tracer as it was. -/
theorem gains_of_bind (h : Recording.outcome (bind layer p) t = (answer, t')) :
    Keeps t t' ∧ t'.counts = t.counts ∧ Gains [p] t.params t'.params ∧
      (answer = .ok () → ∃ b, t'.params.find? p.1 = some b ∧ b.shape = p.2.shape) := by
  rw [bind, Recording.outcome_get_bind] at h
  cases hbound : t.params.find? p.1 with
  | some b =>
    simp only [hbound] at h
    split at h
    · rename_i hsame
      obtain rfl : t = t' := congrArg Prod.snd h
      simp only [Tensor.same, Bool.and_eq_true, decide_eq_true_eq] at hsame
      exact ⟨.refl t, rfl, .refl _, fun _ => ⟨b, hbound, hsame.1.1⟩⟩
    · obtain rfl : t = t' := congrArg Prod.snd h
      refine ⟨.refl t, rfl, .refl _, ?_⟩
      rintro rfl
      cases congrArg Prod.fst h
  | none =>
    simp only [hbound, Recording.outcome_set, Prod.mk.injEq] at h
    obtain ⟨-, rfl⟩ := h
    have hgains : Gains [p] t.params (t.params.insert p.1 p.2) := by
      refine ⟨fun name b hb => ?_, fun name b hb => ?_⟩
      · have hne : name ≠ p.1 := by
          rintro rfl
          simp [hbound] at hb
        rw [Table.find?_insert_of_ne hne, hb]
      · by_cases hname : name = p.1
        · subst hname
          rw [Table.find?_insert_self, Option.some.injEq] at hb
          exact .inr (List.mem_singleton.2 (Prod.ext rfl hb.symm))
        · rw [Table.find?_insert_of_ne hname] at hb
          exact .inl hb
    exact ⟨⟨rfl, rfl, rfl, hgains.keeps⟩, rfl, hgains,
      fun _ => ⟨p.2, Table.find?_insert_self _ _ _, rfl⟩⟩

theorem gains_of_forM_bind (h : Recording.outcome (ps.forM (bind layer)) t = (answer, t')) :
    Keeps t t' ∧ t'.counts = t.counts ∧ Gains ps t.params t'.params ∧ (answer = .ok () →
      ∀ p ∈ ps, ∃ b, t'.params.find? p.1 = some b ∧ b.shape = p.2.shape) := by
  induction ps generalizing t with
  | nil =>
    obtain rfl : t = t' := congrArg Prod.snd h
    exact ⟨.refl t, rfl, .refl _, by simp⟩
  | cons p ps ih =>
    rw [List.forM_eq_forM, List.forM_cons] at h
    cases answer with
    | error e =>
      rcases Recording.outcome_bind_eq_error.1 h with h | ⟨_, t₁, hbind, h⟩
      -- The weights behind the one that is refused are not bound.
      · obtain ⟨hkeeps, hcounts, hgains, -⟩ := gains_of_bind h
        exact ⟨hkeeps, hcounts, hgains.trans (.refl _), by simp⟩
      · obtain ⟨hkeeps, hcounts, hgains, -⟩ := gains_of_bind hbind
        obtain ⟨hkeeps', hcounts', hgains', -⟩ := ih h
        exact ⟨hkeeps.trans hkeeps', hcounts'.trans hcounts, hgains.trans hgains', by simp⟩
    | ok u =>
      obtain ⟨_, t₁, hbind, h⟩ := Recording.outcome_bind_eq_ok.1 h
      obtain ⟨hkeeps, hcounts, hgains, hbound⟩ := gains_of_bind hbind
      obtain ⟨hkeeps', hcounts', hgains', hbounds⟩ := ih h
      obtain ⟨b, hb, hshape⟩ := hbound rfl
      refine ⟨hkeeps.trans hkeeps', hcounts'.trans hcounts, hgains.trans hgains', fun _ => ?_⟩
      exact List.forall_mem_cons.2 ⟨⟨b, hgains'.keeps _ _ hb, hshape⟩, hbounds rfl⟩

omit [Scalar α] in
/-- What a weight of the source is bound to is the tensor of its name in the source. -/
theorem Extends.find?_of_bound {shape : Shape} (hs : Extends params source)
    (hp : source.find? p.1 = some p.2)
    (h : ∃ b, params.find? p.1 = some b ∧ b.shape = shape) : params.find? p.1 = some p.2 := by
  obtain ⟨b, hb, -⟩ := h
  rw [hb, ← hs _ _ hb, hp]

end Binding

/-! ### Nodes -/

/-- A layer whose name is new gives a node of that name. -/
theorem nodeName_of_new {layer : String} (h : t.counts.find? layer = none) :
    Recording.outcome (nodeName layer) t =
      (.ok layer, { t with counts := t.counts.insert layer 1 }) := by
  simp only [nodeName, Recording.outcome_get_bind, h, Option.getD_none, Nat.zero_add,
    Recording.outcome_set_bind, if_true, Recording.outcome_pure]

/-- The node that a layer leaves. -/
def layerNode (layer : String) (op : Op α) (input : String) (weights : List (String × Tensor α))
    (shape : Shape) : Node α :=
  ⟨layer, op, input, weights.map (·.1), layer ++ ".out", shape⟩

/-- What recording an operation leaves behind. -/
theorem record_eq_ok [Scalar α] {layer : String} {op : Op α} {ps : List (String × Tensor α)}
    (hps : ∀ p ∈ ps, source.find? p.1 = some p.2) (hs : Extends t.params source)
    (hnew : t.counts.find? layer = none)
    (h : Recording.outcome (record layer op x ps) t = (.ok y, t')) :
    y.name = layer ++ ".out" ∧ t'.graphName = t.graphName ∧ t'.input = t.input ∧
      t'.nodes = t.nodes ++ [layerNode layer op x.name ps y.tensor.shape] ∧
      t'.counts = t.counts.insert layer 1 ∧ Extends t.params t'.params ∧
      Extends t'.params source ∧ Adds (ps.map (·.1)) t.params t'.params ∧
      ∀ p ∈ ps, t'.params.find? p.1 = some p.2 := by
  rw [record] at h
  -- The steps in turn: execution, the weights, the name of the node, the node.
  obtain ⟨tensor, t₀, hexec, h⟩ := Recording.outcome_bind_eq_ok.1 h
  obtain rfl : t = t₀ := congrArg Prod.snd hexec
  obtain ⟨_, t₁, hbind, h⟩ := Recording.outcome_bind_eq_ok.1 h
  obtain ⟨hkeeps, hcounts, hgains, hshapes⟩ := gains_of_forM_bind hbind
  have hs₁ := hgains.within hps hs
  have hbound : ∀ p ∈ ps, t₁.params.find? p.1 = some p.2 :=
    fun p hp => hs₁.find?_of_bound (hps p hp) (hshapes rfl p hp)
  obtain ⟨name, t₂, hname, h⟩ := Recording.outcome_bind_eq_ok.1 h
  rw [nodeName_of_new (hcounts ▸ hnew), Prod.mk.injEq, Except.ok.injEq] at hname
  obtain ⟨rfl, rfl⟩ := hname
  simp only [Recording.outcome_modify_bind, Recording.outcome_pure, Prod.mk.injEq,
    Except.ok.injEq] at h
  obtain ⟨rfl, rfl⟩ := h
  refine ⟨rfl, hkeeps.graphName, hkeeps.input, ?_, ?_, hkeeps.params, hs₁, hgains.adds, hbound⟩
  · simp only [hkeeps.nodes]
    rfl
  · simp only [hcounts]

/-- The nodes that layers leave between the value that the first one reads and the value that the
last one produces. -/
inductive Records (params : Table (Tensor α)) :
    String → List (Layer α) → List (Node α) → String → Prop
  | nil {v : String} : Records params v [] [] v
  | skip {v w : String} {l : Layer α} {ls : List (Layer α)} {ns : List (Node α)} :
      l.kind = .dropout → Records params v ls ns w → Records params v (l :: ls) ns w
  | op {v w : String} {l : Layer α} {op : Op α} {shape : Shape} {ls : List (Layer α)}
      {ns : List (Node α)} :
      l.kind = .op op → (∀ p ∈ l.weights, params.find? p.1 = some p.2) →
      Records params (l.name ++ ".out") ls ns w →
      Records params v (l :: ls) (layerNode l.name op v l.weights shape :: ns) w

theorem Records.named {params : Table (Tensor α)} {v w : String} {ls : List (Layer α)}
    {ns : List (Node α)} (h : Records params v ls ns w) :
    ∀ n ∈ ns, ∃ l ∈ ls, n.name = l.name ∧ n.output = l.name ++ ".out" := by
  induction h with
  | nil => simp
  | skip _ _ ih =>
    intro n hn
    obtain ⟨l, hl, hnames⟩ := ih n hn
    exact ⟨l, List.mem_cons_of_mem _ hl, hnames⟩
  | @op v w l op shape ls ns _ _ _ ih =>
    refine List.forall_mem_cons.2 ⟨⟨l, List.mem_cons_self, rfl, rfl⟩, fun n hn => ?_⟩
    obtain ⟨l', hl', hnames⟩ := ih n hn
    exact ⟨l', List.mem_cons_of_mem _ hl', hnames⟩

/-- **Running layers with names of their own through a tracer leaves their nodes.** -/
theorem records_of_forward [Scalar α] {ls : List (Layer α)}
    (hw : ∀ l ∈ ls, ∀ p ∈ l.weights, source.find? p.1 = some p.2)
    (hs : Extends t.params source) (hnames : (ls.map (·.name)).Nodup)
    (hnew : ∀ l ∈ ls, t.counts.find? l.name = none)
    (h : Recording.outcome (ls.foldlM (fun x l => l.forward x) x) t = (.ok y, t')) :
    ∃ ns, Records t'.params x.name ls ns y.name ∧ t'.nodes = t.nodes ++ ns ∧
      t'.graphName = t.graphName ∧ t'.input = t.input ∧ Extends t.params t'.params ∧
        Extends t'.params source ∧ Adds (ns.flatMap (·.params)) t.params t'.params := by
  -- The tracer has counted the names of the layers before only, so each name is new (`hnew`) and
  -- becomes the name of a node unchanged.
  induction ls generalizing t x with
  | nil =>
    rw [List.foldlM_nil, Recording.outcome_pure, Prod.mk.injEq, Except.ok.injEq] at h
    obtain ⟨rfl, rfl⟩ := h
    exact ⟨[], .nil, (List.append_nil _).symm, rfl, rfl, fun _ _ hb => hb, hs, .refl t.params⟩
  | cons l ls ih =>
    rw [List.forall_mem_cons] at hw hnew
    rw [List.map_cons, List.nodup_cons] at hnames
    rw [List.foldlM_cons] at h
    obtain ⟨z, t₁, hlayer, h⟩ := Recording.outcome_bind_eq_ok.1 h
    rw [Layer.forward] at hlayer
    split at hlayer
    · rename_i op hkind
      obtain ⟨hz, hgraph, hinput, hnodes, hcounts, hext, hs₁, hadds, hbound⟩ :=
        record_eq_ok hw.1 hs hnew.1 hlayer
      have hnew' : ∀ l' ∈ ls, t₁.counts.find? l'.name = none := fun l' hl' => by
        have hne : l'.name ≠ l.name := fun heq => hnames.1 (heq ▸ List.mem_map_of_mem hl')
        rw [hcounts, Table.find?_insert_of_ne hne, hnew.2 l' hl']
      obtain ⟨ns, hrec, hnodes', hgraph', hinput', hext', hs', hadds'⟩ :=
        ih hw.2 hs₁ hnames.2 hnew' h
      refine ⟨layerNode l.name op x.name l.weights z.tensor.shape :: ns, ?_, ?_,
        hgraph'.trans hgraph, hinput'.trans hinput, fun name b hb => hext' _ _ (hext _ _ hb), hs',
        hadds.trans hadds'⟩
      · exact .op hkind (fun p hp => hext' _ _ (hbound p hp)) (hz ▸ hrec)
      · rw [hnodes', hnodes, List.append_assoc]
        rfl
    -- A layer that is skipped leaves the tracer as it was.
    · rename_i hkind
      rw [Recording.outcome_pure, Prod.mk.injEq, Except.ok.injEq] at hlayer
      obtain ⟨rfl, rfl⟩ := hlayer
      obtain ⟨ns, hrec, hrest⟩ := ih hw.2 hs hnames.2 hnew.2 h
      exact ⟨ns, .skip hkind hrec, hrest⟩
    · cases congrArg Prod.fst hlayer

end Tracer

end NetPack
