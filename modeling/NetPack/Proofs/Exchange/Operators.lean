import NetPack.Exchange.Lift
import NetPack.Exchange.Lower
import NetPack.Proofs.Exchange.Fields
import NetPack.Proofs.Outcomes

/-!
# Operators that are lifted to the operation they were lowered from

Lowering turns the hyper-parameters of an operation into attributes, and the bounds of a cut into
constants; lifting reads them again. For every operation this gives the operation back
(`Exchange.liftOperator_ofNode`), if its numbers fit a signed integer of 64 bits.
-/

namespace NetPack

/-- The number fits a signed integer of 64 bits. -/
def Small (n : Nat) : Prop := n < 9223372036854775808

/-- Both numbers are small. -/
def Axes.Small (a : Axes) : Prop := NetPack.Small a.vertical ∧ NetPack.Small a.horizontal

/-- Steps, paddings, numbers of groups and sizes of windows are small. -/
def Op.Small {α : Type} : Op α → Prop
  | conv p => p.stride.Small ∧ p.padding.Small ∧ NetPack.Small p.groups
  | maxPool p => p.kernel.Small ∧ p.stride.Small ∧ p.padding.Small
  | _ => True

namespace Exchange

open Wire

/-! ### Attributes -/

@[simp] theorem int_intAttribute (name : String) (i : Int) : (intAttribute name i).int = i := rfl

@[simp] theorem single_singleAttribute (name : String) (x : Binary32) :
    (singleAttribute name x).single = x := rfl

theorem signed_of_small {n : Nat} (h : Small n) : signed n = Int.ofNat n := signed_of_lt h

theorem map_signed {ns : List Nat} (h : ∀ n ∈ ns, Small n) : ns.map signed = ns.map Int.ofNat :=
  List.map_congr_left fun n hn => signed_of_small (h n hn)

theorem mapM_natural? (ns : List Nat) : (ns.map Int.ofNat).mapM natural? = some ns := by
  induction ns with
  | nil => rfl
  | cons n ns ih =>
    rw [List.map_cons, List.mapM_cons, ih]
    rfl

/-- Small numbers are read back. -/
theorem natural?_intsAttribute {name : String} {ns : List Nat} (h : ∀ n ∈ ns, Small n) :
    (intsAttribute name ns).ints.mapM natural? = some ns := by
  have hints : (intsAttribute name ns).ints = ns.map Int.ofNat := map_signed h
  rw [hints, mapM_natural?]

/-- An operator with one attribute reads it. -/
theorem attribute?_of_single {o : Operator} {a : Attribute} (h : o.attributes = [a]) :
    o.attribute? a.name = some a := by
  simp [Operator.attribute?, h]

theorem intAttribute_of_single {o : Operator} {name : String} {i : Int}
    (h : o.attributes = [intAttribute name i]) (absent : Int) :
    o.intAttribute name absent = i := by
  have hread : o.attribute? name = some (intAttribute name i) := attribute?_of_single h
  rw [Operator.intAttribute, hread, Option.map_some, Option.getD_some, int_intAttribute]

theorem singleAttribute_of_single {o : Operator} {name : String} {x : Binary32}
    (h : o.attributes = [singleAttribute name x]) (absent : Binary32) :
    o.singleAttribute name absent = x := by
  have hread : o.attribute? name = some (singleAttribute name x) := attribute?_of_single h
  rw [Operator.singleAttribute, hread, Option.map_some, Option.getD_some, single_singleAttribute]

theorem axesAttribute_eq_ok {o : Operator} {name : String} {a : Attribute} {p absent : Axes}
    (h : o.attribute? name = some a) (hints : a.ints.mapM natural? = some p.toList) :
    o.axesAttribute name absent = .ok p := by
  simp only [Operator.axesAttribute, h, hints, Axes.toList]

theorem padding_eq_ok {o : Operator} {a : Attribute} {p : Axes}
    (hmode : o.attribute? "auto_pad" = none) (h : o.attribute? "pads" = some a)
    (hints : a.ints.mapM natural? = some (pads p)) : o.padding = .ok p := by
  have hpads : pads p = [p.vertical, p.horizontal, p.vertical, p.horizontal] := rfl
  simp only [Operator.padding, hmode, h, hints, hpads, decide_true, Bool.and_self, if_true]
  rfl

theorem small_toList {p : Axes} (hp : p.Small) : ∀ n ∈ p.toList, Small n := by
  rw [Axes.toList, List.forall_mem_cons, List.forall_mem_singleton]
  exact hp

theorem small_pads {p : Axes} (hp : p.Small) : ∀ n ∈ pads p, Small n := by
  rw [pads, List.forall_mem_append]
  exact ⟨small_toList hp, small_toList hp⟩

/-! ### Constants that a node reads -/

/-- The bounds of a cut as constants. -/
def boundTensors (n : Node Binary32) : List (String × Tensor Binary32) :=
  match n.op with
  | .activation .relu6 =>
    [(n.name ++ ".clip_min", ⟨⟨[]⟩, #[0]⟩), (n.name ++ ".clip_max", ⟨⟨[]⟩, #[Scalar.count 6]⟩)]
  | _ => []

theorem boundsOf_eq_map (n : Node Binary32) :
    boundsOf n = (boundTensors n).map fun e => .ofTensor e.1 e.2 := by
  obtain ⟨name, op, input, params, output, shape⟩ := n
  cases op with
  | activation kind => cases kind <;> rfl
  | _ => rfl

/-- The constants hold the parameters and the bounds of a node. -/
structure Provides (constants : Constants) (params : Table (Tensor Binary32))
    (n : Node Binary32) : Prop where
  params : ∀ p ∈ n.params, ∃ t, params.find? p = some t ∧ constants.lookup p = some t
  bounds : ∀ e ∈ boundTensors n, constants.lookup e.1 = some e.2

section Lifting

variable {params : Table (Tensor Binary32)} {constants : Constants} {n : Node Binary32}

/-- The shape of the first parameter. -/
def filterShape (params : Table (Tensor Binary32)) (n : Node Binary32) : Option Shape :=
  (n.params.head?.bind params.find?).map (·.shape)

theorem attributes_ofNode : (Operator.ofNode params n).attributes =
    (operatorOf n.op (filterShape params n)).2 := rfl

theorem type_ofNode : (Operator.ofNode params n).type =
    (operatorOf n.op (filterShape params n)).1 := rfl

theorem attribute?_conv (params : Table (Tensor Binary32)) {p : ConvParams} (hop : n.op = .conv p) :
    (Operator.ofNode params n).attribute? "kernel_shape" =
        (filterShape params n).map (fun s => intsAttribute "kernel_shape" (s.dims.drop 2)) ∧
      (Operator.ofNode params n).attribute? "strides" =
        some (intsAttribute "strides" p.stride.toList) ∧
      (Operator.ofNode params n).attribute? "auto_pad" = none ∧
      (Operator.ofNode params n).attribute? "pads" = some (intsAttribute "pads" (pads p.padding)) ∧
      (Operator.ofNode params n).attribute? "dilations" = some (intsAttribute "dilations" [1, 1]) ∧
      (Operator.ofNode params n).attribute? "group" =
        some (intAttribute "group" (signed p.groups)) := by
  simp only [Operator.attribute?, attributes_ofNode, hop, operatorOf]
  cases filterShape params n <;> simp [intsAttribute, intAttribute, Attribute.named]

theorem checkKernelShape_ofNode {p : ConvParams} (hop : n.op = .conv p)
    (hconst : Provides constants params n)
    (hdims : ∀ s ∈ filterShape params n, ∀ d ∈ s.dims, Small d) :
    checkKernelShape (.ofNode params n) constants = .ok () := by
  rw [checkKernelShape, (attribute?_conv params hop).1]
  cases hparams : n.params with
  | nil => simp [filterShape, hparams]
  | cons q qs =>
    obtain ⟨t, hfind, hlookup⟩ := hconst.params q (hparams ▸ List.mem_cons_self)
    have hfilter : filterShape params n = some t.shape := by simp [filterShape, hparams, hfind]
    have hinput : (Operator.ofNode params n).inputs[1]? = some q := by
      simp [Operator.ofNode, hparams]
    have hints : (intsAttribute "kernel_shape" (t.shape.dims.drop 2)).ints =
        (t.shape.dims.drop 2).map Int.ofNat :=
      map_signed fun d hd => hdims t.shape hfilter d (List.mem_of_mem_drop hd)
    simp only [hfilter, Option.map_some, hinput, Option.bind_some, hlookup, hints, if_true]

theorem liftConv_ofNode {p : ConvParams} (hop : n.op = .conv p)
    (hsmall : (Op.conv p : Op Binary32).Small) (hconst : Provides constants params n)
    (hdims : ∀ s ∈ filterShape params n, ∀ d ∈ s.dims, Small d) :
    liftConv (.ofNode params n) constants = .ok (.conv p) := by
  obtain ⟨hstride, hpadding, hgroups⟩ := hsmall
  obtain ⟨-, hstrides, hmode, hpads, hdilations, hgroup⟩ := attribute?_conv params hop
  have hones : (intsAttribute "dilations" [1, 1]).ints.any (· ≠ 1) = false := by decide
  have hg : natural? ((Operator.ofNode params n).intAttribute "group" 1) = some p.groups := by
    rw [Operator.intAttribute, hgroup, Option.map_some, Option.getD_some, int_intAttribute,
      signed_of_small hgroups]
    rfl
  rw [liftConv, hdilations, Option.any_some, hones, checkKernelShape_ofNode hop hconst hdims,
    axesAttribute_eq_ok hstrides (natural?_intsAttribute (small_toList hstride)),
    padding_eq_ok hmode hpads (natural?_intsAttribute (small_pads hpadding)), hg]
  rfl

theorem liftMaxPool_ofNode {p : PoolParams} (hop : n.op = .maxPool p)
    (hsmall : (Op.maxPool p : Op Binary32).Small) (hkernel : p.kernel.hasZero = false) :
    liftMaxPool (.ofNode params n) = .ok (.maxPool p) := by
  obtain ⟨hsize, hstride, hpadding⟩ := hsmall
  obtain ⟨hkernels, hstrides, hmode, hpads, hceil⟩ :
      (Operator.ofNode params n).attribute? "kernel_shape" =
          some (intsAttribute "kernel_shape" p.kernel.toList) ∧
        (Operator.ofNode params n).attribute? "strides" =
          some (intsAttribute "strides" p.stride.toList) ∧
        (Operator.ofNode params n).attribute? "auto_pad" = none ∧
        (Operator.ofNode params n).attribute? "pads" =
          some (intsAttribute "pads" (pads p.padding)) ∧
        (Operator.ofNode params n).attribute? "ceil_mode" = none := by
    simp only [Operator.attribute?, attributes_ofNode, hop, operatorOf]
    simp [intsAttribute, Attribute.named]
  rw [liftMaxPool, axesAttribute_eq_ok hkernels (natural?_intsAttribute (small_toList hsize)),
    Operator.intAttribute, hceil,
    axesAttribute_eq_ok hstrides (natural?_intsAttribute (small_toList hstride)),
    padding_eq_ok hmode hpads (natural?_intsAttribute (small_pads hpadding))]
  simp [hkernel]

theorem liftGemm_ofNode (hop : n.op = .linear) : liftGemm (.ofNode params n) = .ok .linear := by
  have hsame : Scalar.same (1 : Binary32) 1 = true := by decide
  have hattrs : (Operator.ofNode params n).attributes = [intAttribute "transB" 1] := by
    rw [attributes_ofNode, hop]
    rfl
  simp [liftGemm, Operator.intAttribute, Operator.singleAttribute, Operator.attribute?, hattrs,
    hsame, show (intAttribute "transB" 1).name = "transB" from rfl]

theorem clipBound_eq_ok {o : Operator} {index : Nat} {field name : String} {x : Binary32}
    (hinput : o.inputs[index]? = some name) (hname : name.isEmpty = false)
    (hlookup : constants.lookup name = some ⟨⟨[]⟩, #[x]⟩) :
    clipBound o constants index field = .ok (some x) := by
  have hfilter : (o.inputs[index]?.filter fun i => !i.isEmpty) = some name := by
    rw [hinput, Option.filter_some, hname]
    rfl
  simp only [clipBound, hfilter, hlookup]

/-- The bounds of a cut are found among the constants. -/
theorem liftClip_ofNode (hop : n.op = .activation .relu6) (hparams : n.params = [])
    (hconst : Provides constants params n) :
    liftClip (.ofNode params n) constants = .ok (.activation .relu6) := by
  have hzero : Scalar.same (0 : Binary32) 0 = true := by decide
  have hsix : Scalar.same (Scalar.count 6 : Binary32) (Scalar.count 6) = true := by
    decide +kernel
  have hbounds := hconst.bounds
  simp only [boundTensors, hop, List.forall_mem_cons] at hbounds
  obtain ⟨hmin, hmax, -⟩ := hbounds
  have hinputs : (Operator.ofNode params n).inputs =
      [n.input, n.name ++ ".clip_min", n.name ++ ".clip_max"] := by
    simp only [Operator.ofNode, hparams, boundsOf, hop, Initializer.ofSingle, Initializer.ofTensor,
      List.map_cons, List.map_nil, List.cons_append, List.nil_append]
  have hnonempty : ∀ suffix : String, suffix ≠ "" → (n.name ++ suffix).isEmpty = false := by
    intro suffix hsuffix
    simp [hsuffix]
  have hlow : clipBound (.ofNode params n) constants 1 "min" = .ok (some 0) :=
    clipBound_eq_ok (by rw [hinputs]; rfl) (hnonempty _ (by decide)) hmin
  have hhigh : clipBound (.ofNode params n) constants 2 "max" = .ok (some (Scalar.count 6)) :=
    clipBound_eq_ok (by rw [hinputs]; rfl) (hnonempty _ (by decide)) hmax
  simp [liftClip, hlow, hhigh, hzero, hsix]

/-- **Every operation is lifted from what it was lowered to.** -/
theorem liftOperator_ofNode (rank : Nat) (hsmall : n.op.Small)
    (hconst : Provides constants params n)
    (hdims : ∀ s ∈ filterShape params n, ∀ d ∈ s.dims, Small d)
    (hactivation : ∀ kind, n.op = .activation kind → n.params = [])
    (hkernel : ∀ p, n.op = .maxPool p → p.kernel.hasZero = false) :
    liftOperator (.ofNode params n) constants rank = .ok (some n.op) := by
  have htype := @type_ofNode params n
  have hattrs := @attributes_ofNode params n
  cases hop : n.op with
  | conv p =>
    rw [hop] at hsmall htype
    simp [liftOperator, htype, operatorOf, liftConv_ofNode hop hsmall hconst hdims]
  | linear =>
    rw [hop] at htype
    simp [liftOperator, htype, operatorOf, liftGemm_ofNode hop]
  | batchNorm epsilon =>
    rw [hop] at htype hattrs
    simp [liftOperator, htype, operatorOf, singleAttribute_of_single hattrs]
  | activation kind =>
    rw [hop] at htype
    cases kind with
    | relu => simp [liftOperator, htype, operatorOf]
    | relu6 =>
      simp [liftOperator, htype, operatorOf, liftClip_ofNode hop (hactivation _ hop) hconst]
    | sigmoid => simp [liftOperator, htype, operatorOf]
    | hardSwish => simp [liftOperator, htype, operatorOf]
  | maxPool p =>
    rw [hop] at hsmall htype
    simp [liftOperator, htype, operatorOf, liftMaxPool_ofNode hop hsmall (hkernel p hop)]
  | globalAvgPool =>
    rw [hop] at htype
    simp [liftOperator, htype, operatorOf]
  | flatten =>
    rw [hop] at htype hattrs
    simp [liftOperator, htype, operatorOf, intAttribute_of_single hattrs]
  | softmax =>
    rw [hop] at htype hattrs
    simp [liftOperator, htype, operatorOf, intAttribute_of_single hattrs]

end Lifting

end Exchange

end NetPack
