import Mathlib.Data.List.Nodup
import NetPack.Proofs.Inference

/-!
# Names of recorded nodes

A node is named after its layer; where a layer name comes up again, the number of the occurrence is
added to it. Such a name is a text like any other, and a layer may well be called that way: after
two layers `act` and one layer `act_2` there are two nodes `act_2`
(`Tracer.not_forall_nodup_names`).

This is the only way in which two nodes get the same name. Which names a recording gives is
determined by the names of its layers (`Tracer.occurrences`), two numbered names are the same only
if layer and number are (`Tracer.occurrenceName_inj`), and so the names of the nodes differ exactly
if no layer is called like a repetition of another one (`Tracer.Clash`). The same holds of the
values, none of which is called like the input if the name of the input does not end like theirs.
Without a clash a finished recording of a tensor that has elements is valid
(`Tracer.names_of_recording`).
-/

namespace NetPack

/-! ### Names that validation refuses -/

namespace Graph

variable [Build] {α : Type} {params : Table (Tensor α)} {s : Scope} {n : Node α}
  {ns : List (Node α)} {g : Graph α} {e : ModelError}

omit [Build] in
theorem not_taken_of_paramShapes (h : paramShapes params n = .error e) : ¬ e.Taken := by
  obtain ⟨p, -, hp⟩ := Outcome.exists_of_mapM_eq_error h
  split at hp
  · cases hp
  · obtain rfl := Except.error.inj hp
    rintro ⟨⟩

/-- A node that is refused for a name comes after another use of that name. -/
theorem used_of_taken (h : checkNode params s n = Outcome.report e) (he : e.Taken) :
    e = .graph (.duplicateNode n.name) ∧ n.name ∈ s.names ∨
      e = .graph (.producedTwice n.output) ∧ s.values.lookup n.output ≠ none := by
  simp only [checkNode, Outcome.report_bind, Outcome.liftM_eq_ofExcept] at h
  split at h
  · rename_i hname
    obtain rfl := Outcome.report_inj.1 h
    exact .inl ⟨rfl, by simpa using hname⟩
  split at h
  · cases hshapes : paramShapes params n with
    | error e' =>
      rw [hshapes] at h
      obtain rfl := Outcome.report_inj.1 h
      exact absurd he (not_taken_of_paramShapes hshapes)
    | ok shapes =>
      rw [hshapes, Outcome.ofExcept_ok, Outcome.ok_bind] at h
      rcases hinfer : n.op.inferShape _ shapes with (e' | _) | inferred
      · rw [hinfer] at h
        obtain rfl := Outcome.report_inj.1 h
        cases he
      · rw [hinfer] at h
        cases h
      rw [hinfer, Outcome.mapError_ok, Outcome.ok_bind] at h
      split at h
      · obtain rfl := Outcome.report_inj.1 h
        cases he
      split at h
      · rename_i hvalue
        obtain rfl := Outcome.report_inj.1 h
        exact .inr ⟨rfl, Option.isSome_iff_ne_none.1 hvalue⟩
      · cases h
  · obtain rfl := Outcome.report_inj.1 h
    cases he

/-- Nodes whose names differ are not refused for a name, and those whose values differ are not
refused for a value. -/
theorem cause_of_foldlM (h : ns.foldlM (checkNode params) s = Outcome.report e) :
    ((ns.map (·.name)).Nodup → (∀ n ∈ ns, n.name ∉ s.names) →
        ∀ name, e ≠ .graph (.duplicateNode name)) ∧
      ((ns.map (·.output)).Nodup → (∀ n ∈ ns, s.values.lookup n.output = none) →
        ∀ value, e ≠ .graph (.producedTwice value)) := by
  induction ns generalizing s with
  | nil => cases h
  | cons n ns ih =>
    simp only [List.map_cons, List.nodup_cons, List.forall_mem_cons]
    rw [List.foldlM_cons] at h
    cases hnode : checkNode params s n with
    | error fault =>
      rw [hnode, Outcome.error_bind] at h
      obtain rfl := Except.error.inj h
      constructor
      · rintro - ⟨hnew, -⟩ name rfl
        rcases used_of_taken hnode (.node name) with ⟨-, hused⟩ | ⟨hother, -⟩
        · exact hnew hused
        · cases hother
      · rintro - ⟨hfresh, -⟩ value rfl
        rcases used_of_taken hnode (.value value) with ⟨hother, -⟩ | ⟨-, hused⟩
        · cases hother
        · exact hused hfresh
    | ok s' =>
      rw [hnode, Outcome.ok_bind] at h
      obtain ⟨-, rfl⟩ := checkNode_eq_ok.1 hnode
      obtain ⟨hnames, hvalues⟩ := ih h
      constructor
      · rintro ⟨hname, hnodup⟩ ⟨-, hnew⟩
        refine hnames hnodup fun m hm => ?_
        rw [Scope.extend, List.mem_cons, not_or]
        exact ⟨fun heq => hname (heq ▸ List.mem_map_of_mem hm), hnew m hm⟩
      · rintro ⟨houtput, hnodup⟩ ⟨-, hfresh⟩
        refine hvalues hnodup fun m hm => ?_
        rw [lookup_extend_eq_none]
        exact ⟨fun heq => houtput (heq ▸ List.mem_map_of_mem hm), hfresh m hm⟩

/-- Names are looked at when the nodes are checked one after the other. -/
theorem foldlM_of_taken (h : g.check = Outcome.report e) (he : e.Taken) :
    g.nodes.foldlM (checkNode g.params) (Scope.initial g) = Outcome.report e := by
  simp only [check, Outcome.report_bind, Outcome.liftM_eq_ofExcept] at h
  split at h
  · obtain rfl := Outcome.report_inj.1 h
    cases he
  rcases hcount : g.input.shape.numElements with _ | count
  · rw [hcount] at h
    cases h
  rw [hcount, Outcome.orCrash_some, Outcome.ok_bind] at h
  split at h
  · obtain rfl := Outcome.report_inj.1 h
    cases he
  split at h
  · obtain rfl := Outcome.report_inj.1 h
    cases he
  cases hfold : g.nodes.foldlM (checkNode g.params) (Scope.initial g) with
  | error fault =>
    rw [Scope.initial] at hfold
    rw [hfold, Outcome.error_bind] at h
    exact congrArg Except.error (Except.error.inj h)
  | ok s =>
    rw [Scope.initial] at hfold
    rw [hfold, Outcome.ok_bind, checkOutput] at h
    split at h
    · obtain rfl := Outcome.report_inj.1 h
      cases he
    · split at h
      · obtain rfl := Outcome.report_inj.1 h
        cases he
      · cases h

/-- **A graph whose nodes have names of their own is not refused for the name of a node.** -/
theorem not_duplicateNode_of_nodup (hnames : (g.nodes.map (·.name)).Nodup) (name : String) :
    g.check ≠ Outcome.report (.graph (.duplicateNode name)) := fun h =>
  (cause_of_foldlM (foldlM_of_taken h (.node name))).1 hnames (by simp [Scope.initial]) name rfl

/-- **A graph whose names differ is not refused for a name.** -/
theorem not_taken_of_nodup (hnames : (g.nodes.map (·.name)).Nodup)
    (hvalues : (g.input.name :: g.nodes.map (·.output)).Nodup)
    (h : g.check = Outcome.report e) : ¬ e.Taken := by
  obtain ⟨hinput, houtputs⟩ := List.nodup_cons.1 hvalues
  rintro (⟨name⟩ | ⟨value⟩)
  · exact not_duplicateNode_of_nodup hnames name h
  · refine (cause_of_foldlM (foldlM_of_taken h (.value value))).2 houtputs (fun n hn => ?_)
      value rfl
    have hne : n.output ≠ g.input.name := fun heq => hinput (heq ▸ List.mem_map_of_mem hn)
    simp [Scope.initial, List.lookup_cons, beq_false_of_ne hne]

end Graph

namespace Tracer

/-! ### Numbered names -/

theorem not_mem_repr (n : Nat) : '_' ∉ n.repr.toList := by
  intro h
  rw [Nat.toList_repr] at h
  exact absurd (Nat.isDigit_of_mem_toDigits (by decide) (by decide) h) (by decide)

/-- The number stands behind the last underscore. -/
theorem append_number_inj {cs cs' : List Char} {n n' : Nat}
    (h : cs ++ '_' :: n.repr.toList = cs' ++ '_' :: n'.repr.toList) : cs = cs' ∧ n = n' := by
  have hn := not_mem_repr n
  have hn' := not_mem_repr n'
  simp only [Nat.toList_repr] at h hn hn'
  have hdigits : cs = cs' ∧ Nat.toDigits 10 n = Nat.toDigits 10 n' := by
    rcases List.append_eq_append_iff.1 h with ⟨as, rfl, has⟩ | ⟨as, rfl, has⟩
    all_goals
      cases as with
      | nil => simpa [eq_comm] using has
      | cons a as =>
        obtain ⟨-, has⟩ := List.cons.inj has
        simp [has] at hn hn'
  refine ⟨hdigits.1, ?_⟩
  rw [← Nat.ofDigitChars_ten_toDigits (n := n), hdigits.2, Nat.ofDigitChars_ten_toDigits]

theorem toList_occurrenceName {layer : String} {k : Nat} (hk : 2 ≤ k) :
    (occurrenceName layer k).toList = layer.toList ++ '_' :: k.repr.toList := by
  rw [occurrenceName, if_neg (by omega)]
  simp [toString]

/-- **Repetitions are told apart** by their layer and their number. -/
theorem occurrenceName_inj {layer layer' : String} {k k' : Nat} (hk : 2 ≤ k) (hk' : 2 ≤ k')
    (h : occurrenceName layer k = occurrenceName layer' k') : layer = layer' ∧ k = k' := by
  have hlist := congrArg String.toList h
  rw [toList_occurrenceName hk, toList_occurrenceName hk'] at hlist
  exact (append_number_inj hlist).imp_left String.toList_inj.1

/-! ### Occurrences of layers -/

/-- The layers with the number of times that their names have come up by then, if those in `before`
have come up already. -/
def occurrences : (before layers : List String) → List (String × Nat)
  | _, [] => []
  | before, layer :: layers =>
    (layer, before.count layer + 1) :: occurrences (layer :: before) layers

/-- The names of the nodes that layers leave. -/
def issued (before layers : List String) : List String :=
  (occurrences before layers).map fun o => occurrenceName o.1 o.2

/-- A layer is called like a repetition of another one. -/
def Clash (layers : List String) : Prop :=
  ∃ layer ∈ layers, ∃ k ≤ layers.count layer, 2 ≤ k ∧ occurrenceName layer k ∈ layers

instance (layers : List String) : Decidable (Clash layers) :=
  inferInstanceAs (Decidable (∃ layer ∈ layers, ∃ k ≤ layers.count layer,
    2 ≤ k ∧ occurrenceName layer k ∈ layers))

theorem mem_occurrences {before layers : List String} {layer : String} {k : Nat} :
    (layer, k) ∈ occurrences before layers ↔
      before.count layer < k ∧ k ≤ before.count layer + layers.count layer := by
  induction layers generalizing before with
  | nil =>
    simp only [occurrences, List.not_mem_nil, List.count_nil, false_iff]
    omega
  | cons l layers ih =>
    rw [occurrences, List.mem_cons, ih, Prod.mk.injEq, List.count_cons, List.count_cons]
    by_cases hl : l = layer
    · subst hl
      simp only [true_and, beq_self_eq_true, if_true]
      omega
    · simp only [Ne.symm hl, false_and, beq_false_of_ne hl, Bool.false_eq_true, if_false, false_or,
        Nat.add_zero]

theorem nodup_occurrences (before layers : List String) : (occurrences before layers).Nodup := by
  induction layers generalizing before with
  | nil => exact List.nodup_nil
  | cons l layers ih =>
    refine List.nodup_cons.2 ⟨fun hmem => ?_, ih _⟩
    -- The occurrences behind the first one have greater numbers.
    have hlt := (mem_occurrences.1 hmem).1
    rw [List.count_cons_self] at hlt
    exact absurd hlt (lt_irrefl _)

/-- **When names are issued twice.** -/
theorem nodup_issued (layers : List String) : (issued [] layers).Nodup ↔ ¬ Clash layers := by
  have hmem : ∀ {layer : String} {k : Nat}, (layer, k) ∈ occurrences [] layers ↔
      1 ≤ k ∧ k ≤ layers.count layer := by
    intro layer k
    rw [mem_occurrences, List.count_nil, Nat.zero_add]
    rfl
  have hfirst : ∀ {layer : String}, layer ∈ layers ↔ (layer, 1) ∈ occurrences [] layers := by
    intro layer
    rw [hmem, List.one_le_count_iff]
    simp
  rw [issued, List.nodup_map_iff_inj_on (nodup_occurrences _ _)]
  constructor
  · rintro hinj ⟨layer, -, k, hle, hk, hclash⟩
    have hsame := hinj (layer, k) (hmem.2 ⟨by omega, hle⟩) _ (hfirst.1 hclash) rfl
    rw [Prod.mk.injEq] at hsame
    omega
  · rintro hclash ⟨layer, k⟩ ho ⟨layer', k'⟩ ho' hname
    have hrepeated : ∀ {l l' : String} {j : Nat}, (l, j) ∈ occurrences [] layers →
        (l', 1) ∈ occurrences [] layers → 2 ≤ j → occurrenceName l j ≠ l' := by
      rintro l l' j hj hl' hlt rfl
      obtain ⟨hpos, hle⟩ := hmem.1 hj
      exact hclash ⟨l, List.one_le_count_iff.1 (hpos.trans hle), j, hle, hlt, hfirst.2 hl'⟩
    have hpos := (hmem.1 ho).1
    have hpos' := (hmem.1 ho').1
    -- A first occurrence has the name of its layer, all others have numbered names.
    by_cases hk : k = 1
    · by_cases hk' : k' = 1
      · subst hk hk'
        exact congrArg (·, 1) hname
      · subst hk
        exact absurd hname.symm (hrepeated ho' ho (by omega))
    · by_cases hk' : k' = 1
      · subst hk'
        exact absurd hname (hrepeated ho ho' (by omega))
      · obtain ⟨rfl, rfl⟩ := occurrenceName_inj (by omega) (by omega) hname
        rfl

/-! ### Sessions -/

section Sessions

variable {α : Type} [Scalar α] {t t' : Tracer α}

/-- The layers of the calls that have returned a value. -/
def recordedLayers (calls : List (Call α)) : List String :=
  calls.filterMap fun c => c.answer.toOption.map fun _ => c.layer

/-- The tracer has counted these layers. -/
def Counted (t : Tracer α) (before : List String) : Prop :=
  ∀ layer, (t.counts.find? layer).getD 0 = before.count layer

omit [Scalar α] in
theorem Counted.insert {before : List String} (h : Counted t before) {layer : String}
    (hcounts : t'.counts = t.counts.insert layer ((t.counts.find? layer).getD 0 + 1)) :
    Counted t' (layer :: before) := by
  intro other
  rw [hcounts, h, Table.find?_insert, List.count_cons]
  by_cases hother : other = layer
  · simp [hother]
  · simpa [hother, beq_false_of_ne (Ne.symm hother)] using h other

/-- **Nodes get the names that are issued for their layers**, and values are called after them. -/
theorem issued_of_session [Build] {calls : List (Call α)} {before : List String}
    (ht : Counted t before) (h : Session t calls t') : ∃ ns, t'.nodes = t.nodes ++ ns ∧
      ns.map (·.name) = issued before (recordedLayers calls) ∧
      ns.map (·.output) = (issued before (recordedLayers calls)).map (· ++ ".out") := by
  induction calls generalizing t before with
  | nil =>
    obtain rfl : t' = t := h
    exact ⟨[], (List.append_nil _).symm, rfl, rfl⟩
  | cons c calls ih =>
    obtain ⟨layer, op, x, ps, answer⟩ := c
    obtain ⟨t₁, hcall, h⟩ := h
    cases answer with
    | error e =>
      -- A call that fails leaves no node, and its layer is not counted.
      obtain ⟨hkeeps, hcounts, -⟩ := gains_of_record_eq_error hcall
      obtain ⟨ns, hnodes, hrest⟩ := ih (fun other => hcounts ▸ ht other) h
      exact ⟨ns, hkeeps.nodes ▸ hnodes, hrest⟩
    | ok y =>
      obtain ⟨name, -, -, -, -, hnodes₁, -, -, hname, hcounts⟩ := exists_of_record hcall
      obtain ⟨ns, hnodes, hnames, houtputs⟩ := ih (ht.insert hcounts) h
      refine ⟨layerNode name op x.name ps y.tensor.shape :: ns, ?_, ?_, ?_⟩
      · rw [hnodes, hnodes₁, List.append_assoc]
        rfl
      · rw [List.map_cons, hnames, layerNode, hname, ht]
        rfl
      · rw [List.map_cons, houtputs, layerNode, hname, ht]
        rfl

/-- No value is called like an input whose name ends in another way. -/
theorem not_mem_outputs {names : List String} {inputName : String}
    (h : ∀ base, inputName ≠ base ++ ".out") : inputName ∉ names.map (· ++ ".out") := by
  intro hmem
  obtain ⟨base, -, hbase⟩ := List.mem_map.1 hmem
  exact h base hbase.symm

theorem nodup_outputs {names : List String} :
    (names.map (· ++ ".out")).Nodup ↔ names.Nodup :=
  List.nodup_map_iff fun _ _ h => (String.append_left_inj ".out").1 h

/-- Giving a value the name of no other value keeps names apart. -/
theorem nodup_renamed {old new : String} {names : List String} (h : names.Nodup)
    (hnew : ∀ v ∈ names, v ≠ old → v ≠ new) : (names.map (renamed old new)).Nodup := by
  refine List.Nodup.map_on (fun v hv w hw heq => ?_) h
  unfold renamed at heq
  by_cases hvo : v = old
  · by_cases hwo : w = old
    · rw [hvo, hwo]
    · rw [if_pos hvo, if_neg hwo] at heq
      exact absurd heq.symm (hnew w hw hwo)
  · by_cases hwo : w = old
    · rw [if_neg hvo, if_pos hwo] at heq
      exact absurd heq (hnew v hv hvo)
    · rwa [if_neg hvo, if_neg hwo] at heq

omit [Scalar α] in
theorem names_renameValue (old new : String) (ns : List (Node α)) :
    (ns.map (renameValue old new)).map (·.name) = ns.map (·.name) := by
  rw [List.map_map]
  rfl

variable {graphName inputName outputName : String} {x : Tensor α} {calls : List (Call α)}
  {y : Traced α} {g : Graph α}

/-- **Without a clash a finished recording is valid**, unless its input has no elements or the
output is called like another value. -/
theorem valid_of_finish [Build] (h : Session (start graphName inputName x).1 calls t)
    (hlinked : Linked [(start graphName inputName x).2] calls)
    (haxes : ∀ c ∈ calls, ¬ (c.op = .softmax ∧ c.input.tensor.shape.rank = 0))
    (hy : y ∈ returned calls) (hfinish : t.finish y outputName = .ok g)
    (helements : ∃ count, x.shape.numElements = some count ∧ count ≠ 0)
    (hclash : ¬ Clash (recordedLayers calls))
    (hinput : ∀ base, inputName ≠ base ++ ".out")
    (houtput : ∀ v ∈ inputName :: t.nodes.map (·.output), v ≠ y.name → v ≠ outputName) :
    g.Valid := by
  have hstart : Counted (start graphName inputName x).1 [] := fun _ => rfl
  obtain ⟨ns, hnodes, hnames, houtputs⟩ := issued_of_session hstart h
  obtain ⟨-, -, -, -, htracer, -⟩ := leaves_of_session h
  replace hnodes : t.nodes = ns := hnodes
  replace htracer : t.input.name = inputName := congrArg ValueInfo.name htracer
  have hissued := (nodup_issued (recordedLayers calls)).2 hclash
  have hvalues : (inputName :: t.nodes.map (·.output)).Nodup := by
    rw [hnodes, houtputs]
    exact List.nodup_cons.2 ⟨not_mem_outputs hinput, nodup_outputs.2 hissued⟩
  cases hvalidate : g.validate with
  | ok g' => exact (Graph.validate_eq_ok.1 hvalidate).1
  | error fault =>
    obtain ⟨count, hcount, hne⟩ := helements
    rcases taken_of_validate h hlinked haxes (List.mem_cons_of_mem _ hy) hfinish hvalidate with
      ⟨e, rfl, htaken | ⟨hempty, -⟩⟩ | ⟨-, hnone⟩
    · obtain ⟨hne, rfl⟩ := finish_eq_ok hfinish
      refine absurd htaken (Graph.not_taken_of_nodup ?_ ?_ (Graph.validate_eq_error.1 hvalidate))
      · rw [names_renameValue, hnodes, hnames]
        exact hissued
      · have hsame : t.input.name :: (t.nodes.map (renameValue y.name outputName)).map (·.output) =
            (inputName :: t.nodes.map (·.output)).map (renamed y.name outputName) := by
          rw [htracer] at hne ⊢
          rw [List.map_cons, renamed, if_neg hne.symm, List.map_map, List.map_map]
          rfl
        rw [hsame]
        exact nodup_renamed hvalues houtput
    · exact absurd (Option.some.inj (hcount.symm.trans hempty)) hne
    · cases hcount.symm.trans hnone

end Sessions

/-! ### Whole recordings -/

/-- **The names that a recording gives.** They are the ones that are issued for the layers that were
recorded, and values are called after their nodes. So nodes and values have names of their own
exactly if no layer is called like a repetition of another one, and no value is called like an input
whose name ends in another way. Then names are no reason to refuse the finished recording, if the
output is not called like another value, and with such a layer it is refused in any case. -/
theorem names_of_recording [Build] {α : Type} [Scalar α] {graphName inputName : String}
    {x : Tensor α} {calls : List (Call α)} {t : Tracer α}
    (h : Session (start graphName inputName x).1 calls t) :
    let layers := recordedLayers calls
    t.nodes.map (·.name) = issued [] layers ∧
      t.nodes.map (·.output) = (issued [] layers).map (· ++ ".out") ∧
      ((t.nodes.map (·.name)).Nodup ↔ ¬ Clash layers) ∧
      ((t.nodes.map (·.output)).Nodup ↔ ¬ Clash layers) ∧
      ((∀ base, inputName ≠ base ++ ".out") → inputName ∉ t.nodes.map (·.output)) ∧
      (∀ (outputName : String) (y : Traced α) (g : Graph α),
        Clash layers → t.finish y outputName = .ok g → ¬ g.Valid) ∧
      ∀ (outputName : String) (y : Traced α) (g : Graph α),
        ¬ Clash layers → (∀ base, inputName ≠ base ++ ".out") →
        (∀ v ∈ inputName :: t.nodes.map (·.output), v ≠ y.name → v ≠ outputName) →
        Linked [(start graphName inputName x).2] calls → y ∈ returned calls →
        (∀ c ∈ calls, ¬ (c.op = .softmax ∧ c.input.tensor.shape.rank = 0)) →
        (∃ count, x.shape.numElements = some count ∧ count ≠ 0) →
        t.finish y outputName = .ok g → g.Valid := by
  intro layers
  have hstart : Counted (start graphName inputName x).1 [] := fun _ => rfl
  obtain ⟨ns, hnodes, hnames, houtputs⟩ := issued_of_session hstart h
  replace hnodes : t.nodes = ns := hnodes
  rw [← hnodes] at hnames houtputs
  have hnodup : (t.nodes.map (·.name)).Nodup ↔ ¬ Clash layers := by
    rw [hnames]
    exact nodup_issued layers
  refine ⟨hnames, houtputs, hnodup, ?_, ?_, ?_, ?_⟩
  · rw [houtputs, nodup_outputs]
    exact nodup_issued layers
  · intro hinput
    rw [houtputs]
    exact not_mem_outputs hinput
  · intro outputName y g hclash hfinish hvalid
    obtain ⟨-, rfl⟩ := finish_eq_ok hfinish
    obtain ⟨-, -, -, hfits, -⟩ := Graph.valid_iff.1 hvalid
    have hnames := hfits.nodup
    rw [names_renameValue] at hnames
    exact hnodup.1 hnames hclash
  · intro outputName y g hclash hinput houtput hlinked hy haxes helements hfinish
    exact valid_of_finish h hlinked haxes hy hfinish helements hclash hinput houtput

/-- The calls that record activations with the given layers one after the other, and the tracer that
they leave. -/
def recordActivations : Tracer Binary32 → Traced Binary32 → List String →
    List (Call Binary32) × Tracer Binary32
  | t, _, [] => ([], t)
  | t, x, layer :: layers =>
    let call := Recording.outcome (record layer (.activation .relu) x []) t
    let rest := recordActivations call.2 (call.1.toOption.getD x) layers
    (⟨layer, .activation .relu, x, [], call.1⟩ :: rest.1, rest.2)

theorem session_recordActivations (t : Tracer Binary32) (x : Traced Binary32)
    (layers : List String) :
    Session t (recordActivations t x layers).1 (recordActivations t x layers).2 := by
  induction layers generalizing t x with
  | nil => rfl
  | cons layer layers ih => exact ⟨_, rfl, ih _ _⟩

/-- A tracer whose input is called `x`, and its input. -/
def started : Tracer Binary32 × Traced Binary32 := start "t" "x" ⟨⟨[2]⟩, #[1, 0]⟩

theorem x_ne_append_out (base : String) : "x" ≠ base ++ ".out" := by
  intro h
  have hlength := congrArg String.length h
  rw [String.length_append] at hlength
  have hshort : ("x" : String).length = 1 := by decide
  have hlong : (".out" : String).length = 4 := by decide
  omega

/-- Two activations of one layer. -/
theorem names_of_recording_repeated :
    let recording := recordActivations started.1 started.2 ["act", "act"]
    Session started.1 recording.1 recording.2 ∧
      recording.2.nodes.map (·.name) = ["act", "act_2"] ∧
      (recording.2.nodes.map (·.output)).Nodup ∧
      "x" ∉ recording.2.nodes.map (·.output) ∧
      ∃ g, recording.2.finish ⟨"act_2.out", started.2.tensor⟩ "y" = .ok g ∧ g.Valid := by
  intro recording
  have hsession : Session started.1 recording.1 recording.2 := session_recordActivations _ _ _
  have hlayers : recordedLayers recording.1 = ["act", "act"] := by decide +kernel
  have hclash : ¬ Clash (recordedLayers recording.1) := by
    rw [hlayers]
    decide
  obtain ⟨hnames, -, -, houtputs, hinput, -, hvalid⟩ := names_of_recording hsession
  obtain ⟨g, hg⟩ : ∃ g, recording.2.finish ⟨"act_2.out", started.2.tensor⟩ "y" = .ok g :=
    Outcome.exists_of_isOk (by decide +kernel)
  refine ⟨hsession, ?_, houtputs.2 hclash, hinput x_ne_append_out, g, hg, ?_⟩
  · rw [hnames, hlayers]
    decide
  · exact hvalid "y" _ g hclash x_ne_append_out (by decide +kernel) (by decide +kernel)
      (by decide +kernel) (by decide +kernel) (by decide) hg

/-- **Names may clash.** The third layer is called like the repetition of the first one. -/
theorem not_forall_nodup_names :
    ¬ ∀ (graphName inputName : String) (x : Tensor Binary32) (calls : List (Call Binary32))
      (t : Tracer Binary32), (∀ base, inputName ≠ base ++ ".out") →
      (∀ c ∈ calls, ∃ y, c.answer = .ok y) → Session (start graphName inputName x).1 calls t →
      (t.nodes.map (·.name)).Nodup ∧ (t.nodes.map (·.output)).Nodup ∧
        inputName ∉ t.nodes.map (·.output) := by
  intro h
  let recording := recordActivations started.1 started.2 ["act", "act", "act_2"]
  have hanswers : ∀ c ∈ recording.1, ∃ y, c.answer = .ok y := by
    have hok : recording.1.all (·.answer.isOk) = true := by decide +kernel
    exact fun c hc => Outcome.exists_of_isOk (List.all_eq_true.1 hok c hc)
  obtain ⟨hnames, -⟩ := h "t" "x" started.2.tensor recording.1 recording.2 x_ne_append_out hanswers
    (session_recordActivations _ _ _)
  exact absurd hnames (by decide +kernel)

end Tracer

end NetPack
