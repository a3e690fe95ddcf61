import NetPack.Proofs.Comparisons
import NetPack.Proofs.FailedCalls

/-!
# Layers that share weights

Layers of a manifest may list the same weights. All of them get the tensor of the checkpoint, and
the tracer, which binds a name once, compares the tensors with each other. The comparison is the
numerical one, for which NaN differs from itself, and so it depends on the values of a weight
whether it can be shared: a weight that holds NaN is taken for another tensor when its name comes up
again (`SequentialModel.not_forall_traces`).

This is the only such case. The tracer has at any time bound the names that the layers have listed
so far to the tensors of the checkpoint (`Tracer.BoundTo`). A name that comes up again is accepted
if its tensor is the same as itself (`Tracer.Reusable`), that is, if it holds no NaN
(`Tensor.same_self`). So the forward pass is refused for a shared weight exactly if the layers up to
one that lists such a weight again run, and in all other cases it gives what the layers of the
manifest give without a tracer (`SequentialModel.forward_of_shared`).
-/

namespace NetPack

namespace Tensor

theorem all_same_zip_self (vs : List Binary32) :
    ((vs.zip vs).all fun (a, b) => Scalar.same a b) = vs.all fun v => !v.isNaN := by
  induction vs with
  | nil => rfl
  | cons v vs ih =>
    rw [List.zip_cons_cons, List.all_cons, List.all_cons, ih]
    exact congrArg (· && _) (Binary32.same_self v)

/-- **A tensor is the same as itself exactly if it holds no NaN.** -/
theorem same_self (w : Tensor Binary32) : w.same w = w.data.toList.all fun v => !v.isNaN := by
  rw [same, all_same_zip_self]
  simp

end Tensor

namespace Tracer

variable {α : Type} [Scalar α]

/-! ### Names that come up again -/

/-- The names that are bound are the given ones, and they are bound to tensors of the source. -/
def BoundTo (source : Table (Tensor α)) (names : List String) (params : Table (Tensor α)) : Prop :=
  ∀ name, params.find? name = if name ∈ names then source.find? name else none

/-- The tensor of a name that is listed more than once is the same as itself. -/
def Reusable (source : Table (Tensor α)) (names : List String) : Prop :=
  ∀ name b, 2 ≤ names.count name → source.find? name = some b → b.same b = true

section Weights

variable {source params : Table (Tensor α)} {names : List String} {p : String × Tensor α}
  {ps : List (String × Tensor α)} {t : Tracer α} {layer : String}

theorem Reusable.of_append {names' : List String} (h : Reusable source (names ++ names')) :
    Reusable source names := by
  intro name b hcount hb
  refine h name b ?_ hb
  rw [List.count_append]
  omega

theorem reusable_append_singleton (h : Reusable source names)
    (hp : source.find? p.1 = some p.2) :
    Reusable source (names ++ [p.1]) ↔ (p.1 ∈ names → p.2.same p.2 = true) := by
  constructor
  · intro hreusable hmem
    refine hreusable p.1 p.2 ?_ hp
    have hcount := List.one_le_count_iff.2 hmem
    rw [List.count_append, List.count_singleton_self]
    omega
  · intro hsame name b hcount hb
    by_cases hname : name = p.1
    · subst hname
      obtain rfl : p.2 = b := Option.some.inj (hp.symm.trans hb)
      refine hsame (List.one_le_count_iff.1 ?_)
      rw [List.count_append, List.count_singleton_self] at hcount
      omega
    · refine h name b ?_ hb
      rwa [List.count_append, List.count_singleton, beq_false_of_ne (Ne.symm hname)] at hcount

theorem BoundTo.conflicts_iff (h : BoundTo source names params)
    (hp : source.find? p.1 = some p.2) :
    Conflicts params p ↔ p.1 ∈ names ∧ p.2.same p.2 = false := by
  rw [Conflicts, h]
  by_cases hmem : p.1 ∈ names
  · simp [hmem, hp]
  · simp [hmem]

omit [Scalar α] in
theorem BoundTo.adopt (h : BoundTo source names params) (hp : source.find? p.1 = some p.2) :
    BoundTo source (names ++ [p.1]) (adopt params p) := by
  intro name
  have hfind := find?_foldl_adopt [p] params name
  rw [List.foldl_cons, List.foldl_nil, h] at hfind
  rw [hfind, List.lookup_cons, List.lookup_nil]
  by_cases hname : name = p.1
  · subst hname
    by_cases hmem : p.1 ∈ names <;> simp [hmem, hp]
  · simp [hname, beq_false_of_ne hname]

/-- **Weights of the source are bound unless one that cannot be reused comes up again.** -/
theorem outcome_forM_bind_of_boundTo (layer : String) (h : BoundTo source names t.params)
    (hnames : Reusable source names) (hps : ∀ p ∈ ps, source.find? p.1 = some p.2) :
    (Reusable source (names ++ ps.map (·.1)) → ∃ t',
      Recording.outcome (ps.forM (bind layer)) t = (.ok (), t') ∧
        BoundTo source (names ++ ps.map (·.1)) t'.params) ∧
    (¬ Reusable source (names ++ ps.map (·.1)) → ∃ name t',
      Recording.outcome (ps.forM (bind layer)) t =
        (Outcome.report (.layer layer (.boundElsewhere name)), t')) := by
  induction ps generalizing names t with
  | nil =>
    rw [List.map_nil, List.append_nil]
    exact ⟨fun _ => ⟨t, rfl, h⟩, fun hnot => absurd hnames hnot⟩
  | cons p ps ih =>
    rw [List.forall_mem_cons] at hps
    rw [List.map_cons, List.append_cons, List.forM_eq_forM, List.forM_cons, Recording.outcome_bind]
    by_cases hp : Conflicts t.params p
    · have hnot : ¬ Reusable source (names ++ [p.1]) := by
        obtain ⟨hmem, hsame⟩ := (h.conflicts_iff hps.1).1 hp
        rw [reusable_append_singleton hnames hps.1]
        intro himp
        rw [himp hmem] at hsame
        cases hsame
      refine ⟨fun hreusable => absurd hreusable.of_append hnot, fun _ => ⟨p.1, t, ?_⟩⟩
      rw [outcome_bind_of_conflicts hp]
      rfl
    · have hreusable : Reusable source (names ++ [p.1]) := by
        rw [reusable_append_singleton hnames hps.1]
        intro hmem
        by_contra hsame
        exact hp ((h.conflicts_iff hps.1).2 ⟨hmem, Bool.eq_false_of_not_eq_true hsame⟩)
      rw [outcome_bind_of_not_conflicts hp]
      exact ih (h.adopt hps.1) hreusable hps.2

end Weights

/-! ### Layers -/

section Layers

variable {source : Table (Tensor α)} {names : List String} {l : Layer α} {ls : List (Layer α)}

/-- Some of the first layers run and list a weight again that cannot be reused. -/
def Stalls (source : Table (Tensor α)) (names : List String) (ls : List (Layer α))
    (x : Tensor α) : Prop :=
  ∃ k y, (ls.take k).foldlM Layer.apply x = .ok y ∧
    ¬ Reusable source (names ++ (ls.take k).flatMap fun l => l.weights.map (·.1))

theorem not_stalls_nil {x : Tensor α} (h : Reusable source names) : ¬ Stalls source names [] x := by
  rintro ⟨k, y, -, hnot⟩
  rw [List.take_nil, List.flatMap_nil, List.append_nil] at hnot
  exact hnot h

theorem stalls_cons {x : Tensor α} (h : Reusable source names) :
    Stalls source names (l :: ls) x ↔
      ∃ z, l.apply x = .ok z ∧ Stalls source (names ++ l.weights.map (·.1)) ls z := by
  constructor
  · rintro ⟨_ | k, y, hrun, hnot⟩
    · rw [List.take_zero, List.flatMap_nil, List.append_nil] at hnot
      exact absurd h hnot
    · rw [List.take_succ_cons, List.foldlM_cons] at hrun
      obtain ⟨z, hz, hrun⟩ := Outcome.bind_eq_ok.1 hrun
      rw [List.take_succ_cons, List.flatMap_cons, ← List.append_assoc] at hnot
      exact ⟨z, hz, k, y, hrun, hnot⟩
  · rintro ⟨z, hz, k, y, hrun, hnot⟩
    refine ⟨k + 1, y, ?_, ?_⟩
    · rw [List.take_succ_cons, List.foldlM_cons, hz, Outcome.ok_bind, hrun]
    · rwa [List.take_succ_cons, List.flatMap_cons, ← List.append_assoc]

theorem stalls_of_not_reusable {x : Tensor α} (h : ¬ Reusable source names) :
    Stalls source names ls x := by
  refine ⟨0, x, rfl, ?_⟩
  rwa [List.take_zero, List.flatMap_nil, List.append_nil]

/-- **A forward pass is refused for a shared weight exactly if its layers stall.** Otherwise it
gives what the layers give, be it a tensor or an error. -/
theorem outcome_forward {t : Tracer α} {x : Traced α} (ht : BoundTo source names t.params)
    (hnames : Reusable source names)
    (hls : ∀ l ∈ ls, ∀ p ∈ l.weights, source.find? p.1 = some p.2)
    (hdropout : ∀ l ∈ ls, l.kind = .dropout → l.weights = []) :
    (Stalls source names ls x.tensor → ∃ layer name,
      (Recording.outcome (ls.foldlM (fun x l => l.forward x) x) t).1 =
        Outcome.report (.layer layer (.boundElsewhere name))) ∧
    (¬ Stalls source names ls x.tensor →
      (Recording.outcome (ls.foldlM (fun x l => l.forward x) x) t).1.map (·.tensor) =
        ls.foldlM Layer.apply x.tensor) := by
  induction ls generalizing names t x with
  | nil => exact ⟨fun h => absurd h (not_stalls_nil hnames), fun _ => rfl⟩
  | cons l ls ih =>
    rw [List.forall_mem_cons] at hls hdropout
    rw [stalls_cons hnames, List.foldlM_cons, List.foldlM_cons, Recording.outcome_bind]
    rw [Layer.forward, Layer.apply]
    cases hkind : l.kind with
    | custom layerType =>
      refine ⟨?_, fun _ => rfl⟩
      rintro ⟨z, hz, -⟩
      exact absurd hz Outcome.report_ne_ok
    | dropout =>
      have hweights := hdropout.1 hkind
      have hrest := ih (x := x) ht hnames hls.2 hdropout.2
      simp only [hweights, List.map_nil, List.append_nil, Except.ok.injEq, exists_eq_left']
      exact hrest
    | op op =>
      dsimp only
      cases hexec : op.execute x.tensor (l.weights.map (·.2)) with
      | error cause =>
        have hcall : Recording.outcome (record l.name op x l.weights) t =
            (Outcome.mapError (refusal l.name) (.error cause), t) := by
          rw [record, Recording.outcome_bind, Recording.outcome_attempt, hexec]
          rfl
        rw [hcall]
        refine ⟨?_, fun _ => rfl⟩
        rintro ⟨z, hz, -⟩
        cases hz
      | ok z =>
        obtain ⟨hrefused, hrecorded⟩ := outcome_record_of_execute l.name t hexec
        obtain ⟨hbound, hunbound⟩ := outcome_forM_bind_of_boundTo l.name ht hnames hls.1
        simp only [Outcome.mapError_ok, Except.ok.injEq, exists_eq_left', Outcome.ok_bind]
        by_cases hreusable : Reusable source (names ++ l.weights.map (·.1))
        · obtain ⟨t₁, hbind, ht₁⟩ := hbound hreusable
          obtain ⟨v, t₂, hcall, rfl, hparams⟩ := hrecorded t₁ hbind
          rw [hcall]
          exact ih (hparams ▸ ht₁) hreusable hls.2 hdropout.2
        · obtain ⟨name, t₁, hbind⟩ := hunbound hreusable
          rw [hrefused _ _ hbind]
          exact ⟨fun _ => ⟨l.name, name, rfl⟩,
            fun hnot => absurd (stalls_of_not_reusable hreusable) hnot⟩

/-- Without a tracer there is no parameter that could be bound. -/
theorem foldlM_apply_ne_boundElsewhere (ls : List (Layer α)) (x : Tensor α) (layer name : String) :
    ls.foldlM Layer.apply x ≠ Outcome.report (.layer layer (.boundElsewhere name)) := by
  induction ls generalizing x with
  | nil => exact fun h => nomatch h
  | cons l ls ih =>
    rw [List.foldlM_cons]
    cases hl : l.apply x with
    | ok z => exact ih z
    | error e =>
      rintro ⟨⟩
      rw [Layer.apply] at hl
      split at hl
      · cases hexec : ‹Op α›.execute x (l.weights.map (·.2)) with
        | ok z => simp [hexec] at hl
        | error cause =>
          rw [hexec] at hl
          rcases cause with cause | _
          · cases cause <;> cases hl
          · cases hl
      · cases hl
      · cases hl

end Layers

end Tracer

/-! ### Models of manifests -/

namespace SequentialModel

/-- The layers of a model take as many weights as they have. -/
theorem allows_of_build {m : Manifest} {weights : Table (Tensor Binary32)}
    {model : SequentialModel Binary32} (h : build m weights = .ok model) :
    ∀ l ∈ model.layers, l.kind.arity.allows l.weights.length = true := by
  rw [build] at h
  obtain ⟨_, -, h⟩ := Outcome.bind_eq_ok.1 h
  obtain ⟨layers, hlayers, h⟩ := Outcome.bind_eq_ok.1 h
  obtain rfl := Outcome.pure_eq_ok_iff.1 h
  refine Outcome.forall_of_mapM hlayers fun spec _ l hl => ?_
  obtain ⟨kind, -, hl⟩ := Outcome.bind_eq_ok.1 hl
  obtain ⟨ws, -, hl⟩ := Outcome.bind_eq_ok.1 hl
  rw [Layer.make] at hl
  split at hl
  · rename_i hallows
    obtain rfl := Except.ok.inj hl
    exact hallows
  · cases hl

theorem flatMap_weights {weights : Table (Tensor Binary32)} {specs : List LayerSpec}
    {ls : List (Layer Binary32)} (h : List.Forall₂ (Stands weights) specs ls) :
    specs.flatMap (·.weights) = ls.flatMap fun l => l.weights.map (·.1) := by
  induction h with
  | nil => rfl
  | cons hl _ ih => rw [List.flatMap_cons, List.flatMap_cons, hl.names, ih]

/-- A weight that holds NaN comes up again in the first layers, which run on the tensor. -/
def SharesNaN (m : Manifest) (weights : Table (Tensor Binary32)) (x : Tensor Binary32) : Prop :=
  ∃ k y name w, (m.layers.take k).foldlM (LayerSpec.apply weights) x = .ok y ∧
    2 ≤ ((m.layers.take k).flatMap (·.weights)).count name ∧ weights.find? name = some w ∧
    ∃ v ∈ w.data.toList, v.isNaN = true

theorem stalls_iff {m : Manifest} {weights : Table (Tensor Binary32)} {ls : List (Layer Binary32)}
    (h : List.Forall₂ (Stands weights) m.layers ls) (x : Tensor Binary32) :
    Tracer.Stalls weights [] ls x ↔ SharesNaN m weights x := by
  have hnot : ∀ names, ¬ Tracer.Reusable weights names ↔ ∃ name w, 2 ≤ names.count name ∧
      weights.find? name = some w ∧ ∃ v ∈ w.data.toList, v.isNaN = true := by
    intro names
    simp only [Tracer.Reusable, Tensor.same_self, not_forall, List.all_eq_true, Bool.not_eq_true',
      Bool.not_eq_false, exists_prop]
  unfold Tracer.Stalls SharesNaN
  refine exists_congr fun k => exists_congr fun y => ?_
  have hprefix := List.forall₂_take k h
  rw [List.nil_append, ← flatMap_weights hprefix, ← Manifest.run_of_stands hprefix, hnot]
  simp only [exists_and_left]

/-- **Shared weights trace unless they hold NaN.** -/
theorem forward_of_shared {m : Manifest} {weights : Table (Tensor Binary32)}
    {model : SequentialModel Binary32} (h : build m weights = .ok model)
    (graphName inputName : String) (x : Tensor Binary32) :
    let start := Tracer.start graphName inputName x
    let answer := (Recording.outcome (model.forward start.2) start.1).1
    ((∃ layer name, answer = Outcome.report (.layer layer (.boundElsewhere name))) ↔
      SharesNaN m weights x) ∧
    (¬ SharesNaN m weights x → answer.map (·.tensor) = m.run weights x) := by
  intro start answer
  obtain ⟨-, -, -, hstands⟩ := build_eq_ok h
  have hdropout : ∀ l ∈ model.layers, l.kind = .dropout → l.weights = [] := by
    intro l hl hkind
    have hallows := allows_of_build h l hl
    rw [hkind] at hallows
    exact List.eq_nil_of_length_eq_zero (by simpa [LayerKind.arity, Arity.allows] using hallows)
  have hempty : Tracer.BoundTo weights [] start.1.params := fun name => rfl
  have hreusable : Tracer.Reusable weights [] := fun name b hcount _ => by simp at hcount
  obtain ⟨hstalls, hruns⟩ := Tracer.outcome_forward (x := start.2) hempty hreusable
    (forall_found hstands) hdropout
  have hiff : Tracer.Stalls weights [] model.layers x ↔ SharesNaN m weights x :=
    stalls_iff hstands x
  have hanswer : ¬ SharesNaN m weights x → answer.map (·.tensor) = m.run weights x := by
    intro hnot
    rw [Manifest.run, Manifest.run_of_stands hstands]
    exact hruns fun hstall => hnot (hiff.1 hstall)
  refine ⟨⟨?_, fun hnan => hstalls (hiff.2 hnan)⟩, hanswer⟩
  rintro ⟨layer, name, hrefused⟩
  by_contra hnot
  have hrun := hanswer hnot
  rw [hrefused, Manifest.run, Manifest.run_of_stands hstands] at hrun
  exact Tracer.foldlM_apply_ne_boundElsewhere _ _ _ _ hrun.symm

/-- Two linear layers that list the same weight. -/
def sharedManifest : Manifest where
  name := "shared"
  architecture := ""
  dtype := "f32"
  layers :=
    [⟨"first", "Linear", ["w"], none, none, none, none, none⟩,
      ⟨"second", "Linear", ["w"], none, none, none, none, none⟩]

/-- The weight of both layers. -/
def sharedWeight (v : Binary32) : Table (Tensor Binary32) := .ofList [("w", ⟨⟨[1, 1]⟩, #[v]⟩)]

/-- The model of both layers. -/
def sharedModel (v : Binary32) : SequentialModel Binary32 where
  name := "shared"
  layers :=
    [⟨"first", .op .linear, [("w", ⟨⟨[1, 1]⟩, #[v]⟩)]⟩,
      ⟨"second", .op .linear, [("w", ⟨⟨[1, 1]⟩, #[v]⟩)]⟩]
  mode := .eval

theorem build_shared (v : Binary32) :
    build sharedManifest (sharedWeight v) = .ok (sharedModel v) := rfl

/-- A weight of one is shared, a weight of NaN is not. -/
theorem forward_of_shared_pair :
    let start := Tracer.start "shared" "input" ⟨⟨[1, 1]⟩, #[1]⟩
    (Recording.outcome ((sharedModel 1).forward start.2) start.1).1.map (·.tensor) =
        .ok ⟨⟨[1, 1]⟩, #[1]⟩ ∧
      ∃ layer name, (Recording.outcome ((sharedModel .nan).forward start.2) start.1).1 =
        Outcome.report (.layer layer (.boundElsewhere name)) := by
  intro start
  constructor
  · have hnot : ¬ SharesNaN sharedManifest (sharedWeight 1) ⟨⟨[1, 1]⟩, #[1]⟩ := by
      rintro ⟨-, -, name, w, -, -, hw, v, hv, hnan⟩
      have hmem := Table.mem_ofList (Table.find?_eq_some_iff.1 hw)
      obtain ⟨-, rfl⟩ := Prod.mk.inj (List.mem_singleton.1 hmem)
      obtain rfl : v = 1 := List.mem_singleton.1 hv
      exact absurd hnan (by decide)
    rw [(forward_of_shared (build_shared 1) "shared" "input" _).2 hnot]
    decide +kernel
  · refine (forward_of_shared (build_shared .nan) "shared" "input" _).1.2 ?_
    exact ⟨2, ⟨⟨[1, 1]⟩, #[.nan]⟩, "w", ⟨⟨[1, 1]⟩, #[.nan]⟩, by decide +kernel, by decide, rfl,
      .nan, List.mem_singleton.2 rfl, by decide⟩

/-- **Shared weights do not always trace.** -/
theorem not_forall_traces :
    ¬ ∀ (m : Manifest) (weights : Table (Tensor Binary32)) (model : SequentialModel Binary32)
      (graphName inputName : String) (x : Tensor Binary32), build m weights = .ok model →
      ∀ layer name, (Recording.outcome (model.forward (Tracer.start graphName inputName x).2)
        (Tracer.start graphName inputName x).1).1 ≠
          Outcome.report (.layer layer (.boundElsewhere name)) :=
  fun h => h _ _ _ "shared" "input" ⟨⟨[1, 1]⟩, #[1]⟩ (build_shared .nan) "second" "w"
    (by decide +kernel)

end SequentialModel

end NetPack
