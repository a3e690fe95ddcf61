import Mathlib.Algebra.Order.Field.Rat
import NetPack.Proofs.FoldedPair

/-!
# Folding keeps the meaning of a graph

`Graph.Rewrites` relates the nodes of a graph with the nodes after folding: each node is kept with
its operands, or two of them became one. Over exact numbers the blocks of a valid graph are such
nodes (`Graph.rewrites_after`).

The value between two folded nodes is gone afterwards. Only values that are still `Live` have to
agree for a run, so every result of the graph is one of the folded graph (`Graph.Rewrites.runs`). A
folded graph counts no elements of a channel. Its results are those of the graph, unless a batch
normalisation of the graph cannot count them and breaks off (`Graph.Rewrites.runs_or_crash`), which
happens on tensors without elements in a checked build only (`Graph.not_forall_preserves`). Together
this is `Graph.foldBatchNorms_preserves`.
-/

namespace NetPack

namespace Graph

variable {F : Type}

/-- The second list of nodes, with the parameters `Q`, arises from the first one, with the
parameters of the graph, by folding. -/
inductive Rewrites [Build] [ExactScalar F] (g : Graph F) (Q : Table (Tensor F)) :
    List (Node F) → List (Node F) → Prop
  | nil : Rewrites g Q [] []
  | keep {n : Node F} {ns ns' : List (Node F)} :
      (∀ p ∈ n.params, Q.find? p = g.params.find? p) → Rewrites g Q ns ns' →
      Rewrites g Q (n :: ns) (n :: ns')
  | fold {conv norm : Node F} {ns ns' : List (Node F)} {d : FoldData F} :
      Private g conv norm → d.Of g.params conv norm →
      Q.find? (foldedWeight conv) = some d.foldedWeight →
      Q.find? (foldedBias conv) = some d.foldedBias → Rewrites g Q ns ns' →
      Rewrites g Q (conv :: norm :: ns) (foldedNode conv norm :: ns')

variable {g : Graph F} {Q : Table (Tensor F)} {s : Scope} {ns ns' : List (Node F)}

/-! ### Running folded nodes -/

/-- Tensors that agree on live values still do when both sides add the same one. -/
theorem agree_cons {env env' : Env F} {n : Node F} {name : String} {t : Tensor F}
    (h : ∀ v, Live g (n :: ns) v → env.lookup v = env'.lookup v) (v : String) (hv : Live g ns v) :
    ((name, t) :: env).lookup v = ((name, t) :: env').lookup v := by
  rw [List.lookup_cons, List.lookup_cons, h v hv.cons]

variable [ExactScalar F]

theorem Rewrites.paramTensors_foldedNode {conv norm : Node F} {d : FoldData F}
    (hw : Q.find? (foldedWeight conv) = some d.foldedWeight)
    (hb : Q.find? (foldedBias conv) = some d.foldedBias) :
    paramTensors Q (foldedNode conv norm) = [d.foldedWeight, d.foldedBias] := by
  simp [paramTensors, foldedNode, hw, hb]

omit [ExactScalar F] in
/-- The tensor between two folded nodes is in the first environment only, but is not read again. -/
theorem Private.agree_folded {pre : List (Node F)} {conv norm : Node F} {env env' : Env F}
    (h : Private g conv norm) (hnodes : g.nodes = pre ++ conv :: norm :: ns)
    (hagree : ∀ v, Live g (conv :: norm :: ns) v → env.lookup v = env'.lookup v)
    (t y : Tensor F) (v : String) (hv : Live g ns v) :
    ((norm.output, y) :: (conv.output, t) :: env).lookup v =
      ((norm.output, y) :: env').lookup v := by
  have hne : v ≠ conv.output := fun heq => h.not_live hnodes (heq ▸ hv)
  rw [List.lookup_cons, lookup_cons_of_ne hne, List.lookup_cons, hagree v hv.cons.cons]

/-- **Folded nodes compute the output of the nodes** from tensors that agree on the live values. -/
theorem Rewrites.runs [Build] (h : Rewrites g Q ns ns') (pre : List (Node F))
    (hnodes : g.nodes = pre ++ ns) {env env' : Env F}
    (hagree : ∀ v, Live g ns v → env.lookup v = env'.lookup v) {y : Tensor F}
    (hrun : Runs g.params ns env g.output.name y) : Runs Q ns' env' g.output.name y := by
  -- The environments agree on the live values only, and fewer values are live from node to node.
  -- The nodes before, `pre`, are kept to count who reads a value.
  induction h generalizing pre env env' with
  | nil =>
    rw [runs_nil] at hrun ⊢
    rw [← hagree _ (.inl rfl), hrun]
  | @keep n ns ns' hparams _ ih =>
    obtain ⟨x, t, hx, ht, hrun⟩ := runs_cons.1 hrun
    refine runs_cons.2 ⟨x, t, ?_, ?_, ?_⟩
    · rw [← hagree _ (live_input n ns), hx]
    · rw [paramTensors_congr hparams, ht]
    · exact ih (pre ++ [n]) (by simpa using hnodes) (agree_cons hagree) hrun
  | @fold conv norm ns ns' d hprivate hd hw hb _ ih =>
    obtain ⟨x, t, hx, ht, hrun⟩ := runs_cons.1 hrun
    obtain ⟨t', y', ht', hy', hrun⟩ := runs_cons.1 hrun
    rw [hprivate.read, List.lookup_cons_self, Option.some.injEq] at ht'
    subst ht'
    refine runs_cons.2 ⟨x, y', ?_, ?_, ?_⟩
    · rw [← hx]
      exact (hagree _ (live_input conv _)).symm
    · rw [paramTensors_foldedNode hw hb]
      exact hd.execute_folded ht hy'
    · exact ih (pre ++ [conv, norm]) (by simpa using hnodes)
        (hprivate.agree_folded hnodes hagree t y') hrun

/-- A run of the nodes comes to a batch normalisation that cannot count the elements of a
channel. -/
def Miscounts [Build] (params : Table (Tensor F)) (ns : List (Node F)) (env : Env F) : Prop :=
  ∃ pre n post env' t, ns = pre ++ n :: post ∧ pre.foldlM (runNode params) env = .ok env' ∧
    env'.lookup n.input = some t ∧ ¬ n.op.Counted t.shape

/-- A release build counts modulo `2 ^ 64`. -/
theorem not_miscounts [Build] (params : Table (Tensor F)) (ns : List (Node F)) (env : Env F)
    (h : Build.checks = false) : ¬ Miscounts params ns env := by
  rintro ⟨-, n, -, -, t, -, -, -, hcount⟩
  exact hcount (Op.counted_release h n.op t.shape)

theorem Miscounts.cons [Build] {params : Table (Tensor F)} {n : Node F} {env env' : Env F}
    (hn : runNode params env n = .ok env') (h : Miscounts params ns env') :
    Miscounts params (n :: ns) env := by
  obtain ⟨pre, m, post, env'', t, rfl, hpre, ht, hcount⟩ := h
  refine ⟨n :: pre, m, post, env'', t, rfl, ?_, ht, hcount⟩
  rw [List.foldlM_cons, hn, Outcome.ok_bind, hpre]

/-- **The nodes compute the output of the folded nodes**, or come to a batch normalisation that
breaks off. -/
theorem Rewrites.runs_or_crash [Build] (h : Rewrites g Q ns ns') (pre : List (Node F))
    (hnodes : g.nodes = pre ++ ns) {env env' : Env F}
    (hagree : ∀ v, Live g ns v → env.lookup v = env'.lookup v) {y : Tensor F}
    (hrun : Runs Q ns' env' g.output.name y) :
    Runs g.params ns env g.output.name y ∨
      Miscounts g.params ns env ∧ ns.foldlM (runNode g.params) env = Outcome.crash := by
  induction h generalizing pre env env' with
  | nil =>
    rw [runs_nil] at hrun ⊢
    rw [hagree _ (.inl rfl)]
    exact .inl hrun
  | @keep n ns ns' hparams _ ih =>
    obtain ⟨x, t, hx, ht, hrun⟩ := runs_cons.1 hrun
    rw [← hagree _ (live_input n ns)] at hx
    rw [paramTensors_congr hparams] at ht
    have hn : runNode g.params env n = .ok ((n.output, t) :: env) :=
      runNode_eq_ok.2 ⟨x, t, hx, ht, rfl⟩
    rcases ih (pre ++ [n]) (by simpa using hnodes) (agree_cons hagree) hrun with
      hrun | ⟨hmiscounts, hcrash⟩
    · exact .inl (runs_cons.2 ⟨x, t, hx, ht, hrun⟩)
    · refine .inr ⟨hmiscounts.cons hn, ?_⟩
      rw [List.foldlM_cons, hn, Outcome.ok_bind, hcrash]
  | @fold conv norm ns ns' d hprivate hd hw hb _ ih =>
    obtain ⟨x, y', hx, hy', hrun⟩ := runs_cons.1 hrun
    rw [paramTensors_foldedNode hw hb] at hy'
    have hx' : env.lookup conv.input = some x := by
      rw [← hx]
      exact hagree _ (live_input conv _)
    obtain ⟨t, ht, hcounted, huncounted⟩ := hd.execute_pair hy'
    have hconv : runNode g.params env conv = .ok ((conv.output, t) :: env) :=
      runNode_eq_ok.2 ⟨x, t, hx', ht, rfl⟩
    have hread : ((conv.output, t) :: env).lookup norm.input = some t := by
      rw [hprivate.read, List.lookup_cons_self]
    by_cases hcount : norm.op.Counted t.shape
    · have hnorm : runNode g.params ((conv.output, t) :: env) norm =
          .ok ((norm.output, y') :: (conv.output, t) :: env) :=
        runNode_eq_ok.2 ⟨t, y', hread, hcounted hcount, rfl⟩
      rcases ih (pre ++ [conv, norm]) (by simpa using hnodes)
        (hprivate.agree_folded hnodes hagree t y') hrun with hrun | ⟨hmiscounts, hcrash⟩
      · exact .inl (runs_cons.2 ⟨x, t, hx', ht,
          runs_cons.2 ⟨t, y', hread, hcounted hcount, hrun⟩⟩)
      · refine .inr ⟨(hmiscounts.cons hnorm).cons hconv, ?_⟩
        rw [List.foldlM_cons, hconv, Outcome.ok_bind, List.foldlM_cons, hnorm, Outcome.ok_bind,
          hcrash]
    · refine .inr ⟨Miscounts.cons hconv ⟨[], norm, ns, _, t, rfl, rfl, hread, hcount⟩, ?_⟩
      rw [List.foldlM_cons, hconv, Outcome.ok_bind, List.foldlM_cons,
        runNode_eq_crash hread (huncounted hcount), Outcome.crash_bind]

/-! ### The whole pass -/

/-- The blocks of nodes that fit are kept or folded. -/
theorem rewrites_after [Build] {bs : List (Block F)}
    (hsized : ∀ name t, g.params.find? name = some t → t.Sized)
    (hholds : ∀ b ∈ bs, b.Holds g Q) (hfit : AllFit g.params s (bs.flatMap Block.before)) :
    Rewrites g Q (bs.flatMap Block.before) (bs.map Block.after) := by
  induction bs generalizing s with
  | nil => exact .nil
  | cons b bs ih =>
    obtain ⟨hb, hbs⟩ := List.forall_mem_cons.1 hholds
    cases b with
    | kept n => exact .keep hb (ih hbs hfit.2)
    | folded conv norm =>
      obtain ⟨hconv, hnorm, hfit⟩ := hfit
      obtain ⟨epsilon, weight, bias, hfold, hto, hw, hbias⟩ := hb
      obtain ⟨d, hd, rfl, rfl⟩ := hto.exists_data hsized hconv hnorm hfold
      exact .fold (foldable?_isSome.1 (Option.isSome_of_mem hfold)).2.2 hd hw hbias (ih hbs hfit)

/-- **Folding keeps the meaning of a graph.** Over exact numbers, whatever the square root is, a
valid graph in which no parameter has a name that folding uses can be folded. The folded graph has
the same results for every input, also for one that differs from the recorded shape. Only where a
run of the graph comes to a batch normalisation that cannot count the elements of a channel, which
is so in no release build, the graph breaks off and the folded graph may have a result. -/
theorem foldBatchNorms_preserves [Build] (hg : g.Valid)
    (hsized : ∀ name t, g.params.find? name = some t → t.Sized) (hfresh : FreshNames g) :
    ∃ g' count, g.foldBatchNorms = .ok (g', count) ∧ ∀ x,
      (∀ y, g.evaluate x = .ok y → g'.evaluate x = .ok y) ∧
      (∀ y, g'.evaluate x = .ok y → g.evaluate x = .ok y ∨
        Miscounts g.params g.nodes [(g.input.name, x)] ∧ g.evaluate x = Outcome.crash) ∧
      (Build.checks = false → ¬ Miscounts g.params g.nodes [(g.input.name, x)]) := by
  obtain ⟨g', count, hfold, hholds⟩ := exists_foldBatchNorms hg hsized hfresh
  obtain ⟨f, hf, rfl, -, rfl⟩ := foldBatchNorms_eq_ok.1 hfold
  obtain ⟨-, -, -, hfit, -⟩ := valid_iff.1 hg
  have hjoin := flatMap_before g g.nodes
  have hrewrites := rewrites_after hsized hholds (hjoin.symm ▸ hfit)
  rw [hjoin, ← (foldNodes_eq_ok hf).1] at hrewrites
  refine ⟨_, f.count, hfold, fun x => ⟨fun y hy => ?_, fun y hy => ?_, not_miscounts _ _ _⟩⟩
  · obtain ⟨haccepts, hrun⟩ := evaluate_eq_ok.1 hy
    exact evaluate_eq_ok.2 ⟨haccepts, hrewrites.runs [] rfl (fun _ _ => rfl) hrun⟩
  · obtain ⟨haccepts, hrun⟩ := evaluate_eq_ok.1 hy
    rcases hrewrites.runs_or_crash [] rfl (fun _ _ => rfl) hrun with hrun | ⟨hmiscounts, hcrash⟩
    · exact .inl (evaluate_eq_ok.2 ⟨haccepts, hrun⟩)
    · exact .inr ⟨hmiscounts, evaluate_eq_crash haccepts hcrash⟩

instance : ExactScalar ℚ where
  sqrt x := x
  exp x := x
  max := max
  lowest := 0
  count n := n
  lt x y := decide (x < y)
  same x y := decide (x = y)

/-- Two groups of channels, normalised and then read twice. -/
def grouped : Graph ℚ where
  name := "grouped"
  input := ⟨"image", ⟨[1, 2, 2, 2]⟩, [0]⟩
  output := .fixed "pooled" ⟨[1, 2, 1, 1]⟩
  nodes :=
    [⟨"conv", .conv ⟨⟨1, 1⟩, ⟨0, 0⟩, 2⟩, "image", ["weight"], "map", ⟨[1, 2, 1, 1]⟩⟩,
      ⟨"norm", .batchNorm 1, "map", ["scale", "shift", "mean", "variance"], "scaled",
        ⟨[1, 2, 1, 1]⟩⟩,
      ⟨"act", .activation .relu, "scaled", [], "spare", ⟨[1, 2, 1, 1]⟩⟩,
      ⟨"pool", .globalAvgPool, "scaled", [], "pooled", ⟨[1, 2, 1, 1]⟩⟩]
  params := .ofList
    [("weight", ⟨⟨[2, 1, 2, 2]⟩, #[1, 2, 3, 4, 5, 6, 7, 8]⟩), ("scale", ⟨⟨[2]⟩, #[2, 3]⟩),
      ("shift", ⟨⟨[2]⟩, #[1, 0]⟩), ("mean", ⟨⟨[2]⟩, #[1, 5]⟩), ("variance", ⟨⟨[2]⟩, #[3, 8]⟩)]

theorem foldBatchNorms_preserves_grouped :
    grouped.Valid ∧ (∀ name t, grouped.params.find? name = some t → t.Sized) ∧
      FreshNames grouped ∧
      ∃ g' count, grouped.foldBatchNorms = .ok (g', count) ∧
        ∀ x y, grouped.evaluate x = .ok y → g'.evaluate x = .ok y := by
  have hvalid : grouped.Valid := by decide
  have hsized : ∀ name t, grouped.params.find? name = some t → t.Sized :=
    Table.forall_find? (by decide)
  have hfresh : FreshNames grouped := by decide
  obtain ⟨g', count, hfold, hsame⟩ := foldBatchNorms_preserves hvalid hsized hfresh
  exact ⟨hvalid, hsized, hfresh, g', count, hfold, fun x => (hsame x).1⟩

/-! #### A plane that cannot be counted -/

/-- A filter of one cell with a normalisation behind it, on images of any size. -/
def stretched : Graph ℚ where
  name := "stretched"
  input := ⟨"image", ⟨[1, 1, 1, 1]⟩, [0, 2, 3]⟩
  output := ⟨"scaled", ⟨[1, 1, 1, 1]⟩, [0, 2, 3]⟩
  nodes :=
    [⟨"conv", .conv ⟨⟨1, 1⟩, ⟨0, 0⟩, 1⟩, "image", ["weight"], "map", ⟨[1, 1, 1, 1]⟩⟩,
      ⟨"norm", .batchNorm 1, "map", ["scale", "shift", "mean", "variance"], "scaled",
        ⟨[1, 1, 1, 1]⟩⟩]
  params := .ofList
    [("weight", ⟨⟨[1, 1, 1, 1]⟩, #[1]⟩), ("scale", ⟨⟨[1]⟩, #[1]⟩), ("shift", ⟨⟨[1]⟩, #[0]⟩),
      ("mean", ⟨⟨[1]⟩, #[0]⟩), ("variance", ⟨⟨[1]⟩, #[0]⟩)]

/-- No image of `2 ^ 80` cells. -/
def noImage : Tensor ℚ := ⟨⟨[0, 1, 1099511627776, 1099511627776]⟩, #[]⟩

theorem evaluate_stretched : stretched.evaluate noImage = Outcome.crash := rfl

/-- The folded graph gives no image. Its numbers are not looked at. -/
theorem evaluate_folded_stretched :
    (do
      let (g', _) ← stretched.foldBatchNorms
      Outcome.mapError ConvertError.ofModel (g'.evaluate noImage)) = .ok noImage := rfl

/-- **A folded graph may have a result where the graph breaks off**: the batch normalisation counts
the cells of a plane, although there is no plane. -/
theorem not_forall_preserves :
    ¬ ∀ g : Graph ℚ, g.Valid → (∀ name t, g.params.find? name = some t → t.WellFormed) →
      FreshNames g → ∃ g' count, g.foldBatchNorms = .ok (g', count) ∧
        ∀ x y, x.WellFormed → (g.evaluate x = .ok y ↔ g'.evaluate x = .ok y) := by
  intro h
  obtain ⟨g', count, hfold, hsame⟩ :=
    h stretched (by decide) (Table.forall_find? (by decide)) (by decide)
  have hfolded := evaluate_folded_stretched
  rw [hfold] at hfolded
  have hresult := (hsame noImage noImage (by decide)).2 (Outcome.mapError_eq_ok.1 hfolded)
  rw [evaluate_stretched] at hresult
  cases hresult

end Graph

end NetPack
