import NetPack.Proofs.Blocks
import NetPack.Proofs.Evaluation
import NetPack.Proofs.Operations

/-!
# Folding a valid graph

A valid graph in which no parameter has a name that folding uses can be folded, and the result is
valid again (`Graph.exists_foldBatchNorms`). Both parts go along the blocks of the graph.

Validation has checked the operands of every pair, so one fold succeeds (`Graph.exists_foldsTo`),
and because the names of the folded parameters are new, it takes no parameter away from another
node. In the end every block finds the parameters that it needs (`Graph.Block.Holds`).

The value between two folded nodes is gone afterwards. Only values that are still `Live`, because a
later node reads them or because they are the output, keep their shapes, and that is all that
validation asks for (`Graph.allFit_after`).
-/

namespace NetPack

namespace Graph

variable {α : Type}

/-- The value is the output, or one of the nodes reads it. -/
def Live (g : Graph α) (ns : List (Node α)) (name : String) : Prop :=
  name = g.output.name ∨ ∃ n ∈ ns, n.input = name

/-- No parameter has a name that is used for what folding adds. -/
def FreshNames (g : Graph α) : Prop :=
  ∀ c ∈ g.nodes, isConv c.op →
    g.params.find? (foldedWeight c) = none ∧ g.params.find? (foldedBias c) = none

instance (g : Graph α) [DecidableEq α] : Decidable (FreshNames g) :=
  inferInstanceAs (Decidable (∀ c ∈ g.nodes, isConv c.op →
    g.params.find? (foldedWeight c) = none ∧ g.params.find? (foldedBias c) = none))

variable {g : Graph α} {P Q Q' : Table (Tensor α)} {s s' : Scope} {conv norm : Node α}
  {pre ns : List (Node α)} {epsilon : α}

/-! ### Live values -/

theorem Live.cons {n : Node α} {name : String} (h : Live g ns name) : Live g (n :: ns) name := by
  rcases h with h | ⟨m, hm, hname⟩
  · exact .inl h
  · exact .inr ⟨m, List.mem_cons_of_mem _ hm, hname⟩

theorem live_input (n : Node α) (ns : List (Node α)) : Live g (n :: ns) n.input :=
  .inr ⟨n, List.mem_cons_self, rfl⟩

/-- The value between two folded nodes is not read later. -/
theorem Private.not_live (h : Private g conv norm)
    (hnodes : g.nodes = pre ++ conv :: norm :: ns) : ¬ Live g ns conv.output := by
  rintro (hout | ⟨n, hn, hread⟩)
  · exact h.not_output hout
  · have hcount := h.single
    rw [numReaders, hnodes, List.countP_append, List.countP_cons, List.countP_cons] at hcount
    have hpos : 0 < ns.countP fun n => n.input == conv.output :=
      List.countP_pos_iff.2 ⟨n, hn, by simpa using hread⟩
    simp only [h.read, beq_self_eq_true, if_true] at hcount
    omega

/-! ### Names -/

theorem foldedWeight_inj {c c' : Node α} (h : foldedWeight c = foldedWeight c') :
    c.name = c'.name := String.append_left_inj _ |>.1 h

theorem foldedBias_inj {c c' : Node α} (h : foldedBias c = foldedBias c') :
    c.name = c'.name := String.append_left_inj _ |>.1 h

theorem foldedWeight_ne_foldedBias (c c' : Node α) : foldedWeight c ≠ foldedBias c' := by
  intro h
  have := congrArg (fun s => s.toList.getLast?) h
  simp [foldedWeight, foldedBias] at this

theorem find?_foldedParams_foldedWeight {weight bias : Tensor α} :
    (foldedParams P conv weight bias).find? (foldedWeight conv) = some weight := by
  rw [foldedParams, Table.find?_insert_of_ne (foldedWeight_ne_foldedBias conv conv),
    Table.find?_insert_self]

theorem find?_foldedParams_foldedBias {weight bias : Tensor α} :
    (foldedParams P conv weight bias).find? (foldedBias conv) = some bias :=
  Table.find?_insert_self _ _ _

/-! ### The operands of a pair -/

theorem paramAt?_eq {n : Node α} (h : ∀ p ∈ n.params, (P.find? p).isSome) (i : Nat) :
    paramAt? P n i = (paramTensors P n)[i]? := by
  unfold paramAt? paramTensors
  generalize n.params = ps at h
  induction ps generalizing i with
  | nil => simp
  | cons p ps ih =>
    rw [List.forall_mem_cons] at h
    obtain ⟨t, ht⟩ := Option.isSome_iff_exists.1 h.1
    rw [List.filterMap_cons_some ht]
    cases i with
    | zero => simp [ht]
    | succ i => simpa using ih i h.2

theorem exists_eq_toList {β : Type} {l : List β} (h : l.length ≤ 1) :
    ∃ o : Option β, l = o.toList := by
  rcases l with _ | ⟨a, _ | ⟨_, _⟩⟩
  · exact ⟨none, rfl⟩
  · exact ⟨some a, rfl⟩
  · simp at h

/-- The operands of two nodes of a valid graph that can be folded. -/
theorem exists_operands [Build] (hsized : ∀ name t, g.params.find? name = some t → t.Sized)
    (hconv : Fits g.params s conv) (hnorm : Fits g.params (s.extend conv) norm)
    (hfold : foldable? g conv norm = some epsilon) :
    ∃ weight bias gamma beta mean var channels,
      paramTensors g.params conv = weight :: Option.toList bias ∧
      paramTensors g.params norm = [gamma, beta, mean, var] ∧
      weight.shape.dim? 0 = some channels ∧ channels < Word.modulus ∧ weight.Sized ∧
      (∀ b ∈ bias, b.shape.numElements = some channels ∧ b.Sized) ∧
      ∀ t ∈ [gamma, beta, mean, var], t.shape.numElements = some channels ∧ t.Sized := by
  obtain ⟨⟨p, hop⟩, -, -, hread, hnop⟩ := foldable?_eq_some.1 hfold
  obtain ⟨input, -, hinfer⟩ := hconv.inferred
  obtain ⟨input', hinput', hinfer'⟩ := hnorm.inferred
  rw [hop] at hinfer
  rw [hnop] at hinfer'
  obtain ⟨e, -, -, hout, bias, hcons, hlen, hbias⟩ := Op.inferShape_conv.1 hinfer
  obtain ⟨weight, rest, hops, hweight, hrest⟩ := List.map_eq_cons_iff.1 hcons
  obtain ⟨bias, rfl⟩ : ∃ b : Option (Tensor α), rest = b.toList := exists_eq_toList <| by
    rwa [← List.length_map (·.shape), hrest]
  obtain ⟨n, channels, trailing, hin', -, hfour, hstats⟩ := Op.inferShape_batchNorm.1 hinfer'
  rw [List.length_map] at hfour
  obtain ⟨gamma, beta, mean, var, hnops⟩ := List.length_eq_four.1 hfour
  -- The batch normalisation reads what the convolution produces, so it has one channel for each
  -- filter.
  obtain rfl : e.o = channels := by
    rw [hread, Scope.extend, List.lookup_cons_self, Option.some.injEq] at hinput'
    rw [← hinput', hout, ConvDims.output, Shape.mk.injEq] at hin'
    exact (List.cons.inj (List.cons.inj hin').2).1
  refine ⟨weight, bias, gamma, beta, mean, var, e.o, hops, hnops, ?_, ?_, ?_, ?_, ?_⟩
  · rw [show weight.shape = e.weight from hweight]
    rfl
  · exact Shape.lt_of_numElements (hstats gamma.shape (by simp [hnops]))
  · exact forall_mem_paramTensors hsized _ (hops ▸ List.mem_cons_self)
  · intro b hb
    have hmem : b ∈ bias.toList := by simpa using hb
    exact ⟨hbias _ (hrest ▸ List.mem_map_of_mem hmem),
      forall_mem_paramTensors hsized _ (hops ▸ List.mem_cons_of_mem _ hmem)⟩
  · intro t ht
    exact ⟨hstats _ (List.mem_map_of_mem (hnops ▸ ht)),
      forall_mem_paramTensors hsized _ (hnops ▸ ht)⟩

/-! ### One fold -/

variable [Scalar α] {weight bias : Tensor α}

theorem foldChannel_eq {gamma beta mean var : Tensor α} {old : Option (Tensor α)} {channel : Nat}
    {start : α} (epsilon : α) (hstart : Kernel.biasAt old channel = .ok start)
    (hgamma : channel < gamma.data.size) (hbeta : channel < beta.data.size)
    (hmean : channel < mean.data.size) (hvar : channel < var.data.size) :
    foldChannel epsilon gamma beta mean var old channel =
      .ok (gamma.data[channel] / Scalar.sqrt (var.data[channel] + epsilon),
        (start - mean.data[channel]) *
          (gamma.data[channel] / Scalar.sqrt (var.data[channel] + epsilon)) +
            beta.data[channel]) := by
  cases old with
  | none =>
    obtain rfl : 0 = start := Except.ok.inj hstart
    simp only [foldChannel, Outcome.entry_of_lt hvar, Outcome.entry_of_lt hgamma,
      Outcome.entry_of_lt hmean, Outcome.entry_of_lt hbeta, Outcome.ok_bind, pure_bind]
    rfl
  | some b =>
    have hb := Tensor.lt_of_entry hstart
    obtain rfl := Except.ok.inj ((Tensor.entry_of_lt hb).symm.trans hstart)
    simp only [foldChannel, Outcome.entry_of_lt hvar, Outcome.entry_of_lt hgamma,
      Outcome.entry_of_lt hmean, Outcome.entry_of_lt hbeta, Outcome.entry_of_lt hb,
      Outcome.ok_bind]
    rfl

theorem exists_biasAt [Build] {old : Option (Tensor α)} {channel channels : Nat}
    (hc : channel < channels)
    (hold : ∀ b ∈ old, b.shape.numElements = some channels ∧ b.Sized) :
    ∃ start, Kernel.biasAt old channel = .ok start := by
  cases old with
  | none => exact ⟨0, rfl⟩
  | some b =>
    obtain ⟨hnum, hsized⟩ := hold b rfl
    have hb : channel < b.data.size := by rwa [hsized.size_eq_of_count hnum]
    exact ⟨_, Tensor.entry_of_lt hb⟩

/-- **One fold succeeds** for two nodes of a valid graph. -/
theorem exists_foldsTo [Build] (hsized : ∀ name t, g.params.find? name = some t → t.Sized)
    (hconv : Fits g.params s conv) (hnorm : Fits g.params (s.extend conv) norm)
    (hfold : foldable? g conv norm = some epsilon) :
    ∃ weight bias, FoldsTo epsilon g.params conv norm weight bias := by
  obtain ⟨old, bias, gamma, beta, mean, var, channels, hops, hnops, hdim, hword, hold, hbias,
    hstats⟩ := exists_operands hsized hconv hnorm hfold
  have hlt : ∀ t ∈ [gamma, beta, mean, var], t.data.size = channels := fun t ht => by
    obtain ⟨hnum, hsized⟩ := hstats t ht
    exact hsized.size_eq_of_count hnum
  simp only [List.forall_mem_cons] at hlt
  obtain ⟨hgamma, hbeta, hmean, hvar, -⟩ := hlt
  obtain ⟨folded, hfolded⟩ : ∃ folded, (List.range channels).mapM
      (foldChannel epsilon gamma beta mean var bias) = .ok folded := by
    refine Outcome.exists_mapM_eq_ok fun channel hmem => ?_
    have hc := List.mem_range.1 hmem
    obtain ⟨start, hstart⟩ := exists_biasAt hc hbias
    exact ⟨_, foldChannel_eq epsilon hstart (by rwa [hgamma]) (by rwa [hbeta]) (by rwa [hmean])
      (by rwa [hvar])⟩
  have hsize : folded.length = channels := (Outcome.mapM_range_eq_ok.1 hfolded).1
  have hvector : (Shape.vector channels).numElements? = some channels := by
    simp [Shape.numElements?, Shape.vector, Word.mul?_eq_some_iff.2 ⟨Nat.one_mul channels, hword⟩]
  have hbiases : Tensor.ofArray (.vector channels) (folded.map (·.2)).toArray =
      .ok ⟨.vector channels, (folded.map (·.2)).toArray⟩ :=
    Tensor.ofArray_eq_ok_iff.2 ⟨rfl, by simp [Tensor.WellFormed, hvector, hsize]⟩
  have hoption : bias.toList[0]? = bias := by cases bias <;> rfl
  rw [Tensor.Sized] at hold
  refine ⟨scaleChannels (folded.map (·.1)).toArray old.data.size old,
    ⟨.vector channels, (folded.map (·.2)).toArray⟩, old, gamma, beta, mean, var, old.data.size,
    folded, ?_⟩
  simp only [paramAt?_eq hconv.bound, paramAt?_eq hnorm.bound, hops, hnops,
    List.getElem?_cons_zero, List.getElem?_cons_succ, hdim, Option.getD_some, hoption, hold,
    hfolded, hbiases, and_self]

/-- A fold reads the parameters of the two nodes only. -/
theorem FoldsTo.congr [Build] (h : FoldsTo epsilon P conv norm weight bias)
    (hconv : ∀ p ∈ conv.params, Q.find? p = P.find? p)
    (hnorm : ∀ p ∈ norm.params, Q.find? p = P.find? p) :
    FoldsTo epsilon Q conv norm weight bias := by
  have hat : ∀ n : Node α, (∀ p ∈ n.params, Q.find? p = P.find? p) →
      ∀ i, paramAt? Q n i = paramAt? P n i := fun n hn i => by
    rw [paramAt?, paramAt?]
    cases hp : n.params[i]? with
    | none => rfl
    | some p => exact hn p (List.mem_of_getElem? hp)
  simpa only [FoldsTo, hat conv hconv, hat norm hnorm] using h

/-- The folded operands lead to the shape of the convolution. -/
theorem FoldsTo.inferShape_eq_ok [Build] (h : FoldsTo epsilon g.params conv norm weight bias)
    (hop : isConv conv.op) (hconv : Fits g.params s conv) {input out : Shape}
    (hinfer : conv.op.inferShape input ((paramTensors g.params conv).map (·.shape)) = .ok out) :
    conv.op.inferShape input [weight.shape, bias.shape] = .ok out := by
  obtain ⟨p, hop⟩ : ∃ p, conv.op = .conv p := by
    cases hc : conv.op <;> simp_all [isConv]
  obtain ⟨old, _, _, _, _, _, folded, hold, -, -, -, -, -, -, rfl, hbias⟩ := h
  rw [hop] at hinfer ⊢
  obtain ⟨e, he, hin, hout, rest, hcons, -⟩ := Op.inferShape_conv.1 hinfer
  have hweight : old.shape = e.weight := by
    obtain ⟨first, _, hops, hfirst, -⟩ := List.map_eq_cons_iff.1 hcons
    rw [paramAt?_eq hconv.bound, hops, List.getElem?_cons_zero, Option.some.injEq] at hold
    rw [← hold]
    exact hfirst
  have hdim : (old.shape.dim? 0).getD 0 = e.o := by
    rw [hweight]
    rfl
  obtain ⟨rfl, hwell⟩ := Tensor.ofArray_eq_ok_iff.1 hbias
  refine Op.inferShape_conv.2 ⟨e, he, hin, hout, _, congrArg (· :: _) hweight, by simp, ?_⟩
  -- The bias was built for as many channels as there are filters.
  rw [List.forall_mem_singleton, hdim]
  exact Shape.numElements_vector (by simpa [Shape.vector, hdim] using hwell.product_lt)

/-! ### Folding all nodes -/

/-- The parameters `Q` hold what the node of a block reads: the parameters of a node that is kept,
or what a fold has computed. -/
def Block.Holds [Build] (g : Graph α) (Q : Table (Tensor α)) : Block α → Prop
  | .kept n => ∀ p ∈ n.params, Q.find? p = g.params.find? p
  | .folded conv norm => ∃ epsilon weight bias, foldable? g conv norm = some epsilon ∧
      FoldsTo epsilon g.params conv norm weight bias ∧
      Q.find? (foldedWeight conv) = some weight ∧ Q.find? (foldedBias conv) = some bias

theorem Block.Holds.congr [Build] {b : Block α} (h : b.Holds g Q)
    (hparams : ∀ p ∈ b.after.params, Q'.find? p = Q.find? p) : b.Holds g Q' := by
  cases b with
  | kept n => exact fun p hp => (hparams p hp).trans (h p hp)
  | folded conv norm =>
    obtain ⟨epsilon, weight, bias, hfold, hto, hw, hb⟩ := h
    refine ⟨epsilon, weight, bias, hfold, hto, ?_, ?_⟩
    · rw [hparams _ (by simp [Block.after, foldedNode]), hw]
    · rw [hparams _ (by simp [Block.after, foldedNode]), hb]

/-- The table has the parameters of the graph under their names. -/
def HoldsParams (g : Graph α) (P : Table (Tensor α)) : Prop :=
  ∀ name, (g.params.find? name).isSome → P.find? name = g.params.find? name

omit [Scalar α] in
theorem HoldsParams.of_fits [Build] (h : HoldsParams g P) {n : Node α} (hn : Fits g.params s n) :
    ∀ p ∈ n.params, P.find? p = g.params.find? p := fun p hp => h p (hn.bound p hp)

omit [Scalar α] in
/-- The graph has no parameters of the two names that a fold adds, so it replaces none. -/
theorem HoldsParams.foldedParams (h : HoldsParams g P) (hfresh : FreshNames g)
    (hmem : conv ∈ g.nodes) (hfold : foldable? g conv norm = some epsilon) :
    HoldsParams g (foldedParams P conv weight bias) := by
  intro name hname
  obtain ⟨hw, hb⟩ := hfresh conv hmem (foldable?_isSome.1 (Option.isSome_of_mem hfold)).1
  rw [find?_foldedParams_of_ne, h name hname]
  · rintro rfl
    simp [hw] at hname
  · rintro rfl
    simp [hb] at hname

omit [Scalar α] in
theorem AllFit.name_ne_of_folded [Build] (hfit : AllFit g.params s (conv :: norm :: ns))
    {c m : Node α}
    (hblock : .folded c m ∈ blocks g ns) : conv.name ≠ c.name := by
  intro heq
  have hc : c ∈ ns := (folded_mem_blocks.1 hblock).1.subset List.mem_cons_self
  have hnodup := hfit.nodup
  rw [List.map_cons, List.nodup_cons] at hnodup
  exact hnodup.1 (heq ▸ List.mem_map_of_mem (List.mem_cons_of_mem norm hc))

/-- What a fold has computed stays: the names of later folds are made of other names. -/
theorem find?_of_foldNodes [Build] (hfit : AllFit g.params s (conv :: norm :: ns)) {f : Folded α}
    (hf : foldNodes g (foldedParams P conv weight bias) ns = .ok f) :
    f.params.find? (foldedWeight conv) = some weight ∧
      f.params.find? (foldedBias conv) = some bias := by
  have hframe := (foldNodes_eq_ok hf).2.2
  constructor
  · rw [hframe, find?_foldedParams_foldedWeight]
    exact fun c m hblock => ⟨fun heq => hfit.name_ne_of_folded hblock (foldedWeight_inj heq),
      foldedWeight_ne_foldedBias conv c⟩
  · rw [hframe, find?_foldedParams_foldedBias]
    exact fun c m hblock => ⟨(foldedWeight_ne_foldedBias c conv).symm,
      fun heq => hfit.name_ne_of_folded hblock (foldedBias_inj heq)⟩

/-- **The nodes of a valid graph can be folded**, and every block finds what it needs. -/
theorem exists_foldNodes [Build] (hsized : ∀ name t, g.params.find? name = some t → t.Sized)
    (hfresh : FreshNames g) (hns : ∀ n ∈ ns, n ∈ g.nodes) (hfit : AllFit g.params s ns)
    (hP : HoldsParams g P) :
    ∃ f, foldNodes g P ns = .ok f ∧ (∀ b ∈ blocks g ns, b.Holds g f.params) ∧
      HoldsParams g f.params := by
  -- The induction follows the pass, which takes one node or two. The parameters grow on the way;
  -- all that is needed of them is that they hold those of the graph (`hP`).
  fun_induction foldNodes g P ns generalizing s with
  | case1 P => exact ⟨_, rfl, by simp [blocks], hP⟩
  | case2 P last => exact ⟨_, rfl, List.forall_mem_singleton.2 (hP.of_fits hfit.1), hP⟩
  | case3 P conv norm rest epsilon hfold ih =>
    simp only [List.forall_mem_cons] at hns
    obtain ⟨hmem, -, hrest⟩ := hns
    obtain ⟨hconv, hnorm, hfit'⟩ := hfit
    obtain ⟨weight, bias, hto⟩ := exists_foldsTo hsized hconv hnorm hfold
    have hpair : foldPair epsilon P conv norm =
        .ok (foldedNode conv norm, foldedParams P conv weight bias) :=
      foldPair_eq_ok.2 ⟨weight, bias, hto.congr (hP.of_fits hconv) (hP.of_fits hnorm), rfl, rfl⟩
    have hP' : HoldsParams g (foldedParams P conv weight bias) :=
      hP.foldedParams hfresh hmem hfold
    obtain ⟨f, hf, hholds, hkeeps⟩ := ih _ hrest hfit' hP'
    obtain ⟨hw, hb⟩ := find?_of_foldNodes ⟨hconv, hnorm, hfit'⟩ hf
    refine ⟨⟨foldedNode conv norm :: f.nodes, f.params, f.count + 1⟩, ?_, ?_, hkeeps⟩
    · rw [hpair, Outcome.ok_bind]
      simp only [hf]
      rfl
    · rw [blocks, hfold]
      exact List.forall_mem_cons.2 ⟨⟨epsilon, weight, bias, hfold, hto, hw, hb⟩, hholds⟩
  | case4 P conv norm rest hfold ih =>
    obtain ⟨f, hf, hholds, hkeeps⟩ := ih (List.forall_mem_cons.1 hns).2 hfit.2 hP
    refine ⟨{ f with nodes := conv :: f.nodes }, ?_, ?_, hkeeps⟩
    · rw [hf]
      rfl
    · rw [blocks, hfold]
      exact List.forall_mem_cons.2 ⟨hkeeps.of_fits hfit.1, hholds⟩

/-! ### Validating folded nodes -/

/-- The second scope agrees with the first one on the live values and has nothing that the first
one does not have. -/
structure Under (g : Graph α) (ns : List (Node α)) (s s' : Scope) : Prop where
  live : ∀ v, Live g ns v → s.values.lookup v = s'.values.lookup v
  defined : ∀ v, s.values.lookup v = none → s'.values.lookup v = none
  names : ∀ v ∈ s'.names, v ∈ s.names

omit [Scalar α] in
theorem Under.keep {n : Node α} (h : Under g (n :: ns) s s') :
    Under g ns (s.extend n) (s'.extend n) where
  live v hv := by
    simp only [Scope.extend, List.lookup_cons, h.live v hv.cons]
  defined v hv := by
    rw [lookup_extend_eq_none] at hv ⊢
    exact ⟨hv.1, h.defined v hv.2⟩
  names v hv := by
    simp only [Scope.extend, List.mem_cons] at hv ⊢
    exact hv.imp_right (h.names v)

omit [Scalar α] in
theorem Under.fold (hprivate : Private g conv norm)
    (hnodes : g.nodes = pre ++ conv :: norm :: ns) (h : Under g (conv :: norm :: ns) s s') :
    Under g ns ((s.extend conv).extend norm) (s'.extend (foldedNode conv norm)) where
  live v hv := by
    have hne : v ≠ conv.output := fun heq => hprivate.not_live hnodes (heq ▸ hv)
    simp only [Scope.extend, foldedNode, List.lookup_cons, beq_false_of_ne hne,
      h.live v hv.cons.cons]
  defined v hv := by
    rw [lookup_extend_eq_none, lookup_extend_eq_none] at hv
    obtain ⟨hname, -, hnone⟩ := hv
    exact lookup_extend_eq_none.2 ⟨hname, h.defined v hnone⟩
  names v hv := by
    simp only [Scope.extend, foldedNode, List.mem_cons] at hv ⊢
    exact .inr (hv.imp_right (h.names v))

/-- The folded node fits where the two nodes fit. -/
theorem fits_foldedNode [Build] (hblock : Block.Holds g Q (.folded conv norm))
    (h : Under g (conv :: norm :: ns) s s') (hconv : Fits g.params s conv)
    (hnorm : Fits g.params (s.extend conv) norm) : Fits Q s' (foldedNode conv norm) := by
  obtain ⟨epsilon, weight, bias, hfold, hto, hw, hb⟩ := hblock
  obtain ⟨hop, -, hprivate⟩ := foldable?_isSome.1 (Option.isSome_of_mem hfold)
  obtain ⟨-, -, -, -, hnop⟩ := foldable?_eq_some.1 hfold
  have hparams : paramTensors Q (foldedNode conv norm) = [weight, bias] := by
    simp [paramTensors, foldedNode, hw, hb]
  obtain ⟨input, hinput, hinfer⟩ := hconv.inferred
  obtain ⟨input', hinput', hinfer'⟩ := hnorm.inferred
  rw [hprivate.read, Scope.extend, List.lookup_cons_self, Option.some.injEq] at hinput'
  rw [hnop] at hinfer'
  obtain ⟨_, _, _, -, hout, -⟩ := Op.inferShape_batchNorm.1 hinfer'
  refine ⟨fun hmem => hconv.fresh (h.names _ hmem), ?_, ⟨input, ?_, ?_⟩, ?_⟩
  · simp [foldedNode, hw, hb]
  · rw [← hinput]
    exact (h.live _ (live_input conv _)).symm
  · rw [hparams]
    simp only [foldedNode]
    rw [hout, ← hinput']
    exact hto.inferShape_eq_ok hop hconv hinfer
  -- The name of the result is new, as it was when the batch normalisation defined it.
  · exact h.defined _ (lookup_extend_eq_none.1 hnorm.single).2

/-- **Folded nodes fit**, and the output has the same shape. -/
theorem allFit_after [Build] {bs : List (Block α)} (hholds : ∀ b ∈ bs, b.Holds g Q)
    (pre : List (Node α)) (hnodes : g.nodes = pre ++ bs.flatMap Block.before)
    (hunder : Under g (bs.flatMap Block.before) s s')
    (hfit : AllFit g.params s (bs.flatMap Block.before)) :
    AllFit Q s' (bs.map Block.after) ∧
      ((bs.map Block.after).foldl Scope.extend s').values.lookup g.output.name =
        ((bs.flatMap Block.before).foldl Scope.extend s).values.lookup g.output.name := by
  induction bs generalizing pre s s' with
  | nil => exact ⟨trivial, (hunder.live _ (.inl rfl)).symm⟩
  | cons b bs ih =>
    obtain ⟨hb, hbs⟩ := List.forall_mem_cons.1 hholds
    cases b with
    | kept n =>
      obtain ⟨hn, hfit⟩ := hfit
      obtain ⟨input, hinput, hinfer⟩ := hn.inferred
      have hfits : Fits Q s' n :=
        { fresh := fun hmem => hn.fresh (hunder.names _ hmem)
          bound := fun p hp => (hb p hp).symm ▸ hn.bound p hp
          inferred := ⟨input, by rw [← hunder.live _ (live_input n _), hinput],
            paramTensors_congr hb ▸ hinfer⟩
          single := hunder.defined _ hn.single }
      obtain ⟨hall, hout⟩ :=
        ih hbs (pre ++ [n]) (by simpa [Block.before] using hnodes) hunder.keep hfit
      exact ⟨⟨hfits, hall⟩, hout⟩
    | folded conv norm =>
      obtain ⟨hconv, hnorm, hfit⟩ := hfit
      have hprivate : Private g conv norm := by
        obtain ⟨_, _, _, hfold, -⟩ := hb
        exact (foldable?_isSome.1 (Option.isSome_of_mem hfold)).2.2
      obtain ⟨hall, hout⟩ := ih hbs (pre ++ [conv, norm]) (by simpa [Block.before] using hnodes)
        (hunder.fold hprivate hnodes) hfit
      exact ⟨⟨fits_foldedNode hb hunder hconv hnorm, hall⟩, hout⟩

/-! ### The whole pass -/

/-- **A valid graph can be folded**, if no parameter has a name that folding uses. -/
theorem exists_foldBatchNorms [Build] (hg : g.Valid)
    (hsized : ∀ name t, g.params.find? name = some t → t.Sized) (hfresh : FreshNames g) :
    ∃ g' count, g.foldBatchNorms = .ok (g', count) ∧
      ∀ b ∈ blocks g g.nodes, b.Holds g g'.params := by
  obtain ⟨hne, hinput, haxes, hfit, hout⟩ := valid_iff.1 hg
  obtain ⟨f, hf, hholds, -⟩ := exists_foldNodes hsized hfresh (fun _ hn => hn) hfit fun _ _ => rfl
  obtain ⟨hnodes, -⟩ := foldNodes_eq_ok hf
  -- Parameters that no node reads any longer are dropped.
  have hused : ∀ b ∈ blocks g g.nodes, b.Holds g (usedParams f.nodes f.params) := by
    refine fun b hb => (hholds b hb).congr fun p hp => find?_usedParams ?_ hp
    rw [hnodes]
    exact List.mem_map_of_mem hb
  have hjoin := flatMap_before g g.nodes
  have hunder : Under g g.nodes (Scope.initial g) (Scope.initial g) :=
    ⟨fun _ _ => rfl, fun _ h => h, fun _ h => h⟩
  obtain ⟨hall, hlookup⟩ := allFit_after hused [] hjoin.symm (hjoin.symm ▸ hunder)
    (hjoin.symm ▸ hfit)
  rw [hjoin] at hlookup
  rw [← hnodes] at hall hlookup
  -- Folding two nodes leaves one, so at least one node remains.
  have hne' : f.nodes ≠ [] := by
    intro hnil
    rw [hnodes, List.map_eq_nil_iff] at hnil
    rw [hnil] at hjoin
    exact hne hjoin.symm
  refine ⟨_, f.count, foldBatchNorms_eq_ok.2 ⟨f, hf, rfl, ?_, rfl⟩, hused⟩
  exact valid_iff.2 ⟨hne', hinput, haxes, hall, hlookup.trans hout⟩

end Graph

end NetPack
