import NetPack.Convert.Compile
import NetPack.Proofs.Lowering

/-!
# When compiling succeeds

Compiling checks the options, the declared input and the labels in this order, and each of them can
be refused for one reason (`Refused`). Behind the checks there is only the lowering of the graph,
and for a valid graph without parameters of folded names that cannot fail. So a compilation succeeds
exactly if the three checks pass, it never crashes, and what it gives is a valid graph that is
shorter by one node for every folded pair (`compile_of_valid`).
-/

namespace NetPack

variable {g : Graph Binary32} {input : InputSpec} {options : CompileOptions}
  {labels : Option Labels} {a : Artifact}

/-! ### What is checked first -/

/-- What compiling asks for. -/
structure Compilable (g : Graph Binary32) (input : InputSpec) (options : CompileOptions)
    (labels : Option Labels) : Prop where
  /-- The platform can run the options. -/
  options : options.check = .ok ()
  /-- The declared input is that of the graph. -/
  input : input.shape = g.input.shape
  /-- If there are labels, then one for every output. -/
  labels : ∀ ls, labels = some ls → ls.length = g.output.shape.last?.getD 0

/-- Why compiling refuses a graph: the first of its requests that is not met. -/
inductive Refused (g : Graph Binary32) (input : InputSpec) (options : CompileOptions)
    (labels : Option Labels) : ConvertError → Prop
  | target {cause : TargetError} (h : options.check = .error cause) :
      Refused g input options labels (.target cause)
  | input (hoptions : options.check = .ok ()) (h : input.shape ≠ g.input.shape) :
      Refused g input options labels
        (.shape (.input input.name input.shape g.name g.input.shape))
  | labels {ls : Labels} (hoptions : options.check = .ok ()) (hinput : input.shape = g.input.shape)
      (hlabels : labels = some ls) (h : ls.length ≠ g.output.shape.last?.getD 0) :
      Refused g input options labels (.labelCount ls.length (g.output.shape.last?.getD 0))

theorem Refused.not_compilable {e : ConvertError} (h : Refused g input options labels e) :
    ¬ Compilable g input options labels := by
  rintro ⟨hoptions, hinput, hlabels⟩
  cases h with
  | target h =>
    rw [hoptions] at h
    cases h
  | input _ h => exact h hinput
  | labels _ _ hls h => exact h (hlabels _ hls)

/-- There is one first request that is not met. -/
theorem Refused.unique {e e' : ConvertError} (h : Refused g input options labels e)
    (h' : Refused g input options labels e') : e = e' := by
  cases h <;> cases h' <;> simp_all

/-- The artifact of a lowered graph. -/
def loweredTo (input : InputSpec) (options : CompileOptions) (labels : Option Labels)
    (lowered : Graph Binary32 × Nat) : Artifact :=
  ⟨lowered.1.name, lowered.1, input, labels, options,
    if 0 < lowered.2 then [foldPass] else [], none⟩

/-- **What compiling does**: it lowers the graph, or it reports the first request that is not
met. -/
theorem compile_cases (g : Graph Binary32) (input : InputSpec) (options : CompileOptions)
    (labels : Option Labels) :
    (Compilable g input options labels ∧
      compile g input options labels = loweredTo input options labels <$> g.foldBatchNorms) ∨
    ∃ e, Refused g input options labels e ∧ compile g input options labels = Outcome.report e := by
  cases hoptions : options.check with
  | error cause =>
    refine .inr ⟨_, .target hoptions, ?_⟩
    simp [compile, hoptions]
  | ok u =>
    cases u
    by_cases hinput : input.shape = g.input.shape
    case neg =>
      refine .inr ⟨_, .input hoptions hinput, ?_⟩
      simp [compile, hoptions, checkInput, hinput]
    have hchecked : compile g input options labels = (do
        Outcome.ofExcept (checkLabels g labels)
        loweredTo input options labels <$> g.foldBatchNorms) := by
      simp only [compile, hoptions, checkInput, hinput, ne_eq, not_true_eq_false, if_false]
      cases checkLabels g labels <;> cases g.foldBatchNorms <;> rfl
    rw [hchecked]
    cases labels with
    | none => exact .inl ⟨⟨hoptions, hinput, by simp⟩, rfl⟩
    | some ls =>
      by_cases hcount : ls.length = g.output.shape.last?.getD 0
      · refine .inl ⟨⟨hoptions, hinput, by simpa using hcount⟩, ?_⟩
        simp [checkLabels, hcount]
      · refine .inr ⟨_, .labels hoptions hinput rfl hcount, ?_⟩
        simp [checkLabels, hcount]

/-- **When compiling succeeds, and what it gives.** -/
theorem compile_eq_ok :
    compile g input options labels = .ok a ↔ Compilable g input options labels ∧
      ∃ lowered, g.foldBatchNorms = .ok lowered ∧ loweredTo input options labels lowered = a := by
  rcases compile_cases g input options labels with ⟨hmeets, heq⟩ | ⟨e, hrefused, heq⟩
  · rw [heq, Outcome.map_eq_ok, and_iff_right hmeets]
  · rw [heq]
    exact iff_of_false Outcome.report_ne_ok fun h => hrefused.not_compilable h.1

/-! ### What is lowered -/

/-- The artifact holds the lowered form of a graph. -/
structure Lowered (g : Graph Binary32) (a : Artifact) : Prop where
  valid : a.graph.Valid
  name : a.graph.name = g.name
  input : a.graph.input = g.input
  output : a.graph.output = g.output
  /-- Every parameter is read by some node. -/
  used : ∀ p, (a.graph.params.find? p).isSome → ∃ n ∈ a.graph.nodes, p ∈ n.params
  /-- One node is gone for every pair that was folded, and the pass is listed if there was one. -/
  pairs : ∃ pairs : List (Node Binary32 × Node Binary32), pairs.Nodup ∧
    (∀ c m, (c, m) ∈ pairs ↔ g.Folds c m) ∧ g.foldBatchNorms = .ok (a.graph, pairs.length) ∧
    a.graph.nodes.length + pairs.length = g.nodes.length ∧
    (foldPass ∈ a.passes ↔ 0 < pairs.length)

theorem lowered_of_foldBatchNorms {lowered : Graph Binary32 × Nat} (hg : g.Valid)
    (h : g.foldBatchNorms = .ok lowered) : Lowered g (loweredTo input options labels lowered) := by
  obtain ⟨g', count⟩ := lowered
  obtain ⟨f, hf, rfl, hvalid, rfl⟩ := Graph.foldBatchNorms_eq_ok.1 h
  obtain ⟨hnodes, hcount, -⟩ := Graph.foldNodes_eq_ok hf
  have hlength := Graph.length_map_after (Graph.blocks g g.nodes)
  rw [Graph.flatMap_before, ← hnodes] at hlength
  have hpairs := (Graph.length_foldedPairs (Graph.blocks g g.nodes)).trans hcount.symm
  refine ⟨hvalid, rfl, rfl, rfl, fun p hp => Graph.exists_mem_of_usedParams hp,
    Graph.foldedPairs (Graph.blocks g g.nodes), ?_, ?_, ?_, ?_, ?_⟩
  · exact Graph.nodup_foldedPairs hg.nodup_nodes
  · exact fun c m => Graph.mem_foldedPairs.trans Graph.folded_mem_blocks
  · rw [h, hpairs]
    rfl
  · rw [hpairs, hcount]
    exact hlength
  · rw [hpairs]
    by_cases hpos : 0 < f.count <;> simp [loweredTo, hpos]

/-- **Compiling a valid graph fails only if a request is not met.** No parameter may have a name
that folding uses; then compiling succeeds exactly if everything that it asks for is met, it reports
the first request that is not, and what it gives holds the lowered graph. -/
theorem compile_of_valid (hg : g.Valid)
    (hsized : ∀ name t, g.params.find? name = some t → t.Sized) (hfresh : g.FreshNames)
    (input : InputSpec) (options : CompileOptions) (labels : Option Labels) :
    ((∃ a, compile g input options labels = .ok a) ↔ Compilable g input options labels) ∧
    (∀ fault, compile g input options labels = .error fault ↔
      ∃ e, fault = .reported e ∧ Refused g input options labels e) ∧
    ∀ a, compile g input options labels = .ok a → Lowered g a := by
  obtain ⟨g', count, hfold, -⟩ := Graph.exists_foldBatchNorms hg hsized hfresh
  have hok : Compilable g input options labels → ∃ a, compile g input options labels = .ok a :=
    fun hmeets => ⟨_, compile_eq_ok.2 ⟨hmeets, _, hfold, rfl⟩⟩
  refine ⟨⟨fun ⟨a, ha⟩ => (compile_eq_ok.1 ha).1, hok⟩, fun fault => ?_, fun a ha => ?_⟩
  · rcases compile_cases g input options labels with ⟨hmeets, -⟩ | ⟨e, hrefused, heq⟩
    · obtain ⟨a, ha⟩ := hok hmeets
      rw [ha]
      exact iff_of_false (by simp) fun ⟨e, _, hrefused⟩ => hrefused.not_compilable hmeets
    · rw [heq, Outcome.report, Except.error.injEq]
      constructor
      · rintro rfl
        exact ⟨e, rfl, hrefused⟩
      · rintro ⟨e', rfl, hrefused'⟩
        rw [hrefused.unique hrefused']
  · obtain ⟨-, lowered, hlowered, rfl⟩ := compile_eq_ok.1 ha
    exact lowered_of_foldBatchNorms hg hlowered

/-- A pair of nodes, and a parameter that none of them reads. -/
def Graph.paired : Graph Binary32 where
  name := "paired"
  input := .fixed "x" ⟨[1, 1, 1, 1]⟩
  output := .fixed "y" ⟨[1, 1, 1, 1]⟩
  nodes :=
    [⟨"conv", .conv ⟨⟨1, 1⟩, ⟨0, 0⟩, 1⟩, "x", ["weight"], "map", ⟨[1, 1, 1, 1]⟩⟩,
      ⟨"norm", .batchNorm 0, "map", ["one", "zero", "zero", "one"], "y", ⟨[1, 1, 1, 1]⟩⟩]
  params := .ofList
    [("one", ⟨⟨[1]⟩, #[1]⟩), ("spare", ⟨⟨[1]⟩, #[1]⟩), ("weight", ⟨⟨[1, 1, 1, 1]⟩, #[1]⟩),
      ("zero", ⟨⟨[1]⟩, #[0]⟩)]

/-- With one label it is compiled, with two it is not. -/
theorem compile_of_valid_paired :
    (∃ a, compile Graph.paired (.tensor "x" ⟨[1, 1, 1, 1]⟩ .f32) Preset.classifier.options
      (some ["only"]) = .ok a ∧ Lowered Graph.paired a) ∧
    compile Graph.paired (.tensor "x" ⟨[1, 1, 1, 1]⟩ .f32) Preset.classifier.options
      (some ["first", "second"]) = .error (.reported (.labelCount 2 1)) := by
  have hvalid : Graph.paired.Valid := by decide
  have hsized : ∀ name t, Graph.paired.params.find? name = some t → t.Sized :=
    Table.forall_find? (by decide)
  have hfresh : Graph.paired.FreshNames := by decide
  have hmain := compile_of_valid hvalid hsized hfresh (.tensor "x" ⟨[1, 1, 1, 1]⟩ .f32)
    Preset.classifier.options
  constructor
  · obtain ⟨hok, -, hlowered⟩ := hmain (some ["only"])
    obtain ⟨a, ha⟩ := hok.2 ⟨rfl, rfl, by rintro _ ⟨⟩; rfl⟩
    exact ⟨a, ha, hlowered a ha⟩
  · obtain ⟨-, herror, -⟩ := hmain (some ["first", "second"])
    exact (herror _).2 ⟨_, rfl, .labels rfl rfl rfl (by decide)⟩

end NetPack
