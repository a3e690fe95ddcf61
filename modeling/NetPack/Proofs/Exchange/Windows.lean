import NetPack.Proofs.Exchange.Lifted
import NetPack.Proofs.Kernels.Dilation

/-!
# Windows of lifted operators

The attributes of a convolution or a pooling describe how its window is placed
(`Exchange.Operator.Declares`). The operation that it is lifted to knows no gaps between the cells
of a window, the same padding at both ends of an axis, and extents that are rounded down. Lifting
refuses an operator that asks for anything else (`Exchange.Operator.Expressible`), and what it
accepts slides the window that was declared (`Exchange.toGraph_windows`).

There is one exception. The gaps of a pooling are not looked at: whatever it declares, it slides its
window without gaps (`Exchange.not_forall_slides`).
-/

namespace NetPack

/-- Both numbers as signed integers. -/
def Axes.ints (a : Axes) : List Int := a.toList.map Int.ofNat

namespace Axes

variable {a b : Axes}

theorem ints_injective (h : a.ints = b.ints) : a = b := by
  obtain ⟨hv, hh⟩ : a.vertical = b.vertical ∧ a.horizontal = b.horizontal := by
    simpa [ints, toList] using h
  cases a
  cases b
  exact congrArg₂ mk hv hh

theorem ints_append_injective (h : a.ints ++ a.ints = b.ints ++ b.ints) : a = b :=
  ints_injective (List.append_inj_left h rfl)

end Axes

namespace Exchange

/-! ### What attributes declare -/

namespace Operator

/-- Does the operator slide a window over images? -/
def isWindowed (o : Operator) : Bool := o.type == "Conv" || o.type == "MaxPool"

/-- The integers of an attribute, or those that are meant where it is left out. -/
def integers (o : Operator) (name : String) (absent : List Int) : List Int :=
  ((o.attribute? name).map (·.ints)).getD absent

/-- The extents of the window: those of the filters, or those of the attribute. The filters are the
second operand, behind images that are no constant. -/
def DeclaresKernel (o : Operator) (constants : Constants) (kernel : Axes) : Prop :=
  if o.type = "Conv" then
    ∃ images weight bias filters out depth, o.inputs = images :: weight :: bias ∧ weight ≠ "" ∧
      constants.lookup images = none ∧ constants.lookup weight = some filters ∧
        filters.shape = ⟨[out, depth, kernel.vertical, kernel.horizontal]⟩
  else o.integers "kernel_shape" [] = kernel.ints

/-- The attributes declare a window of this geometry. -/
structure Declares (o : Operator) (constants : Constants) (G : Geometry) : Prop where
  kernel : o.DeclaresKernel constants G.kernel
  strides : o.integers "strides" [1, 1] = G.stride.ints
  pads : o.integers "pads" [0, 0, 0, 0] = G.padding.ints ++ G.padding.ints
  dilations : o.integers "dilations" [1, 1] = G.dilation.ints

/-- No padding is left to be found out from the extents of the images. -/
def PadsGiven (o : Operator) : Prop :=
  ∀ a ∈ o.attribute? "auto_pad",
    Bytes.toLossyString a.text = "" ∨ Bytes.toLossyString a.text = "NOTSET"

/-- An operation can slide the window: it has two axes, the padding is given and the same at both
ends, filters have no gaps, and extents of a pooling are rounded down. -/
structure Expressible (o : Operator) : Prop where
  strides : ∃ a : Axes, o.integers "strides" [1, 1] = a.ints
  mode : o.PadsGiven
  pads : ∃ a : Axes, o.integers "pads" [0, 0, 0, 0] = a.ints ++ a.ints
  dilations : o.type = "Conv" → ∀ d ∈ o.integers "dilations" [1, 1], d = 1
  kernel : o.type = "MaxPool" → ∃ a : Axes, o.integers "kernel_shape" [0, 0] = a.ints
  rounding : o.type = "MaxPool" → o.intAttribute "ceil_mode" 0 = 0

/-- The extents of the window are not at fault: a convolution declares those of its filters, if any,
and a pooling declares a window that is not empty. -/
structure SizeSound (o : Operator) (constants : Constants) : Prop where
  filters : o.type = "Conv" → checkKernelShape o constants = .ok ()
  window : o.type = "MaxPool" → ∀ a : Axes, o.integers "kernel_shape" [0, 0] = a.ints →
    a.hasZero = false

/-! ### Reading attributes -/

variable {o : Operator} {constants : Constants} {rank : Nat}

/-- The operator is refused because no operation stands for it. -/
def Refuses {β : Type} (o : Operator) (result : Except ConvertError β) : Prop :=
  ∃ detail, result = .error (o.unsupported detail)

theorem Refuses.bind {β γ : Type} {result : Except ConvertError β} (h : o.Refuses result)
    (f : β → Except ConvertError γ) : o.Refuses (result >>= f) := by
  obtain ⟨detail, rfl⟩ := h
  exact ⟨detail, rfl⟩

theorem Refuses.ne_ok {β : Type} {result : Except ConvertError β} (h : o.Refuses result) (b : β) :
    result ≠ .ok b := by
  obtain ⟨detail, rfl⟩ := h
  simp

theorem mapM_natural?_iff {is : List Int} {ns : List Nat} :
    is.mapM natural? = some ns ↔ is = ns.map Int.ofNat := by
  constructor
  · intro h
    induction is generalizing ns with
    | nil =>
      obtain rfl : ns = [] := by simpa [eq_comm] using h
      rfl
    | cons i is ih =>
      rw [List.mapM_cons] at h
      obtain ⟨n, hn, h⟩ := Option.bind_eq_some_iff.1 h
      obtain ⟨rest, hrest, h⟩ := Option.bind_eq_some_iff.1 h
      obtain rfl : n :: rest = ns := Option.some.inj h
      cases i with
      | ofNat m =>
        obtain rfl : m = n := Option.some.inj hn
        rw [ih hrest, List.map_cons]
      | negSucc m => cases hn
  · rintro rfl
    exact mapM_natural? ns

/-- Two numbers are read, or the operator is refused. -/
theorem axesAttribute_cases (o : Operator) (name : String) (absent : Axes) :
    (∃ a : Axes, o.integers name absent.ints = a.ints ∧ o.axesAttribute name absent = .ok a) ∨
      (¬ ∃ a : Axes, o.integers name absent.ints = a.ints) ∧
        o.Refuses (o.axesAttribute name absent) := by
  unfold axesAttribute integers
  cases o.attribute? name with
  | none => exact .inl ⟨absent, rfl, rfl⟩
  | some a =>
    dsimp only [Option.map_some, Option.getD_some]
    split
    · rename_i vertical horizontal hints
      exact .inl ⟨⟨vertical, horizontal⟩, mapM_natural?_iff.1 hints, rfl⟩
    · rename_i hother
      refine .inr ⟨?_, _, rfl⟩
      rintro ⟨b, hb⟩
      exact hother b.vertical b.horizontal (mapM_natural?_iff.2 hb)

theorem ints_of_axesAttribute {name : String} {absent a : Axes}
    (h : o.axesAttribute name absent = .ok a) : o.integers name absent.ints = a.ints := by
  rcases o.axesAttribute_cases name absent with ⟨b, hints, hread⟩ | ⟨-, hrefused⟩
  · rw [hints, Except.ok.inj (h.symm.trans hread)]
  · exact absurd h (hrefused.ne_ok a)

/-- The padding as far as the pads declare it. -/
def declaredPads (o : Operator) : Except ConvertError Axes :=
  match o.attribute? "pads" with
  | none => .ok ⟨0, 0⟩
  | some a =>
    let asymmetric := o.unsupported s!"{o.type} (asymmetric pads {ExchangeError.integers a.ints})"
    match a.ints.mapM natural? with
    | some [t, l, b, r] => if t = b && l = r then .ok ⟨t, l⟩ else .error asymmetric
    | _ => .error asymmetric

/-- The pads are read, or the operator is refused. -/
theorem declaredPads_cases (o : Operator) :
    (∃ p : Axes, o.integers "pads" [0, 0, 0, 0] = p.ints ++ p.ints ∧ o.declaredPads = .ok p) ∨
      (¬ ∃ p : Axes, o.integers "pads" [0, 0, 0, 0] = p.ints ++ p.ints) ∧
        o.Refuses o.declaredPads := by
  unfold declaredPads integers
  cases o.attribute? "pads" with
  | none => exact .inl ⟨⟨0, 0⟩, rfl, rfl⟩
  | some a =>
    have hints : ∀ p : Axes, a.ints = p.ints ++ p.ints ↔ a.ints.mapM natural? =
        some [p.vertical, p.horizontal, p.vertical, p.horizontal] := by
      intro p
      rw [mapM_natural?_iff]
      rfl
    simp only [Option.map_some, Option.getD_some, hints]
    split
    · rename_i top left bottom right hread
      by_cases hsame : top = bottom ∧ left = right
      · obtain ⟨rfl, rfl⟩ := hsame
        exact .inl ⟨⟨top, left⟩, hread, by simp⟩
      · refine .inr ⟨?_, _, if_neg (by simpa using hsame)⟩
        rintro ⟨p, hp⟩
        rw [hread] at hp
        simp only [Option.some.injEq, List.cons.injEq, and_true] at hp
        exact hsame ⟨by omega, by omega⟩
    · rename_i hother
      exact .inr ⟨fun ⟨p, hp⟩ => hother _ _ _ _ hp, _, rfl⟩

/-- The pads count where no other padding is asked for; otherwise the operator is refused. -/
theorem padding_of_padsGiven (h : o.PadsGiven) : o.padding = o.declaredPads := by
  unfold padding
  cases hmode : o.attribute? "auto_pad" with
  | none => rfl
  | some a =>
    have hgiven : (!(Bytes.toLossyString a.text).isEmpty &&
        decide (Bytes.toLossyString a.text ≠ "NOTSET")) = false := by
      rcases h a hmode with hempty | hset
      · simp [hempty]
      · simp [hset]
    simp only [hgiven, Bool.false_eq_true, if_false]
    rfl

theorem refuses_padding (h : ¬ o.PadsGiven) : o.Refuses o.padding := by
  unfold PadsGiven at h
  push Not at h
  obtain ⟨a, hmode, hempty, hset⟩ := h
  have hgiven : (!(Bytes.toLossyString a.text).isEmpty &&
      decide (Bytes.toLossyString a.text ≠ "NOTSET")) = true := by
    simp [hempty, hset]
  unfold padding
  rw [Option.mem_def.1 hmode]
  simp only [hgiven, if_true]
  exact ⟨_, rfl⟩

/-- The padding is read, or the operator is refused. -/
theorem padding_cases (o : Operator) :
    (o.PadsGiven ∧ ∃ p : Axes, o.integers "pads" [0, 0, 0, 0] = p.ints ++ p.ints ∧
      o.padding = .ok p) ∨
      ¬ (o.PadsGiven ∧ ∃ p : Axes, o.integers "pads" [0, 0, 0, 0] = p.ints ++ p.ints) ∧
        o.Refuses o.padding := by
  by_cases hmode : o.PadsGiven
  · rw [padding_of_padsGiven hmode]
    rcases o.declaredPads_cases with hpads | ⟨hpads, hrefused⟩
    · exact .inl ⟨hmode, hpads⟩
    · exact .inr ⟨fun h => hpads h.2, hrefused⟩
  · exact .inr ⟨fun h => hmode h.1, refuses_padding hmode⟩

theorem pads_of_padding {a : Axes} (h : o.padding = .ok a) :
    o.PadsGiven ∧ o.integers "pads" [0, 0, 0, 0] = a.ints ++ a.ints := by
  rcases o.padding_cases with ⟨hmode, b, hints, hread⟩ | ⟨-, hrefused⟩
  · exact ⟨hmode, by rw [hints, Except.ok.inj (h.symm.trans hread)]⟩
  · exact absurd h (hrefused.ne_ok a)

/-! ### Lifting -/

theorem dilations_iff : ((o.attribute? "dilations").any fun d => d.ints.any (· ≠ 1)) = false ↔
    ∀ d ∈ o.integers "dilations" [1, 1], d = 1 := by
  unfold integers
  cases o.attribute? "dilations" with
  | none => simp
  | some a => simp

/-- What a convolution is lifted to. -/
theorem liftConv_eq_ok {op : Op Binary32} (htype : o.type = "Conv")
    (h : liftConv o constants = .ok op) :
    o.Expressible ∧ checkKernelShape o constants = .ok () ∧ ∃ p, op = .conv p ∧
      o.integers "strides" [1, 1] = p.stride.ints ∧
        o.integers "pads" [0, 0, 0, 0] = p.padding.ints ++ p.padding.ints := by
  simp only [liftConv, Outcome.throw_eq_error, Outcome.error_bind] at h
  rw [Outcome.ite_eq_ok (by simp), Bool.not_eq_true, dilations_iff] at h
  obtain ⟨hdilations, h⟩ := h
  obtain ⟨_, hchecked, h⟩ := Outcome.bind_eq_ok.1 h
  obtain ⟨stride, hstride, h⟩ := Outcome.bind_eq_ok.1 h
  obtain ⟨padding, hpadding, h⟩ := Outcome.bind_eq_ok.1 h
  have hstride := ints_of_axesAttribute hstride
  obtain ⟨hmode, hpads⟩ := pads_of_padding hpadding
  split at h
  · rename_i groups hgroups
    obtain rfl := Outcome.pure_eq_ok_iff.1 h
    refine ⟨?_, hchecked, ⟨stride, padding, groups⟩, rfl, hstride, hpads⟩
    exact {
      strides := ⟨stride, hstride⟩
      mode := hmode
      pads := ⟨padding, hpads⟩
      dilations := fun _ => hdilations
      kernel := by simp [htype]
      rounding := by simp [htype] }
  · cases h

/-- What a pooling is lifted to. -/
theorem liftMaxPool_eq_ok {op : Op Binary32} (htype : o.type = "MaxPool")
    (h : liftMaxPool o = .ok op) :
    o.Expressible ∧ ∃ p, op = .maxPool p ∧ p.kernel.hasZero = false ∧
      o.integers "kernel_shape" [0, 0] = p.kernel.ints ∧
        o.integers "strides" [1, 1] = p.stride.ints ∧
          o.integers "pads" [0, 0, 0, 0] = p.padding.ints ++ p.padding.ints := by
  simp only [liftMaxPool, Outcome.throw_eq_error, Outcome.error_bind] at h
  obtain ⟨kernel, hkernel, h⟩ := Outcome.bind_eq_ok.1 h
  rw [Outcome.ite_eq_ok (by simp), Outcome.ite_eq_ok (by simp), Bool.not_eq_true, not_not] at h
  obtain ⟨hzero, hrounding, h⟩ := h
  obtain ⟨stride, hstride, h⟩ := Outcome.bind_eq_ok.1 h
  obtain ⟨padding, hpadding, h⟩ := Outcome.bind_eq_ok.1 h
  obtain rfl := Outcome.pure_eq_ok_iff.1 h
  have hkernel := ints_of_axesAttribute hkernel
  have hstride := ints_of_axesAttribute hstride
  obtain ⟨hmode, hpads⟩ := pads_of_padding hpadding
  refine ⟨?_, ⟨kernel, stride, padding⟩, rfl, hzero, hkernel, hstride, hpads⟩
  exact {
    strides := ⟨stride, hstride⟩
    mode := hmode
    pads := ⟨padding, hpads⟩
    dilations := by simp [htype]
    kernel := fun _ => ⟨kernel, hkernel⟩
    rounding := fun _ => hrounding }

theorem refuses_liftConv (htype : o.type = "Conv") (hsize : o.SizeSound constants)
    (h : ¬ o.Expressible) : o.Refuses (liftConv o constants) := by
  simp only [liftConv, Outcome.throw_eq_error, Outcome.error_bind]
  by_cases hdilations : ∀ d ∈ o.integers "dilations" [1, 1], d = 1
  · rw [if_neg (by rw [Bool.not_eq_true]; exact dilations_iff.2 hdilations), hsize.filters htype]
    rcases o.axesAttribute_cases "strides" ⟨1, 1⟩ with ⟨stride, hstride, hread⟩ | ⟨-, hrefused⟩
    · rw [hread]
      rcases o.padding_cases with ⟨hmode, padding, hpads, -⟩ | ⟨-, hrefused⟩
      · refine absurd ?_ h
        exact {
          strides := ⟨stride, hstride⟩
          mode := hmode
          pads := ⟨padding, hpads⟩
          dilations := fun _ => hdilations
          kernel := by simp [htype]
          rounding := by simp [htype] }
      · exact hrefused.bind _
    · exact hrefused.bind _
  · refine ⟨_, if_pos ?_⟩
    by_contra hother
    exact hdilations (dilations_iff.1 (Bool.eq_false_iff.2 hother))

theorem refuses_liftMaxPool (htype : o.type = "MaxPool") (hsize : o.SizeSound constants)
    (h : ¬ o.Expressible) : o.Refuses (liftMaxPool o) := by
  simp only [liftMaxPool, Outcome.throw_eq_error, Outcome.error_bind]
  rcases o.axesAttribute_cases "kernel_shape" ⟨0, 0⟩ with ⟨kernel, hkernel, hread⟩ | ⟨-, hrefused⟩
  · rw [hread, Outcome.ok_bind, if_neg (by rw [hsize.window htype kernel hkernel]; simp)]
    by_cases hrounding : o.intAttribute "ceil_mode" 0 = 0
    · rw [if_neg (not_not.2 hrounding)]
      rcases o.axesAttribute_cases "strides" ⟨1, 1⟩ with ⟨stride, hstride, hread⟩ | ⟨-, hrefused⟩
      · rw [hread, Outcome.ok_bind]
        rcases o.padding_cases with ⟨hmode, padding, hpads, -⟩ | ⟨-, hrefused⟩
        · refine absurd ?_ h
          exact {
            strides := ⟨stride, hstride⟩
            mode := hmode
            pads := ⟨padding, hpads⟩
            dilations := by simp [htype]
            kernel := fun _ => ⟨kernel, hkernel⟩
            rounding := fun _ => hrounding }
        · exact hrefused.bind _
      · exact hrefused.bind _
    · exact ⟨_, if_pos hrounding⟩
  · exact hrefused.bind _

/-- Whether the window can be slid does not depend on the name. -/
theorem Expressible.of_named {name : String} (h : ({ o with name } : Operator).Expressible) :
    o.Expressible where
  strides := h.strides
  mode := h.mode
  pads := h.pads
  dilations := h.dilations
  kernel := h.kernel
  rounding := h.rounding

theorem liftOperator_conv (htype : o.type = "Conv") :
    liftOperator o constants rank = some <$> liftConv o constants := by
  simp [liftOperator, htype]

theorem liftOperator_maxPool (htype : o.type = "MaxPool") :
    liftOperator o constants rank = some <$> liftMaxPool o := by
  simp [liftOperator, htype]

theorem isWindowed_iff : o.isWindowed = true ↔ o.type = "Conv" ∨ o.type = "MaxPool" := by
  simp [isWindowed]

/-- **What no operation stands for is refused.** -/
theorem refuses_liftOperator (hwindow : o.isWindowed = true) (hsize : o.SizeSound constants)
    (h : ¬ o.Expressible) : o.Refuses (liftOperator o constants rank) := by
  rcases isWindowed_iff.1 hwindow with htype | htype
  · rw [liftOperator_conv htype]
    exact (refuses_liftConv htype hsize h).bind _
  · rw [liftOperator_maxPool htype]
    exact (refuses_liftMaxPool htype hsize h).bind _

end Operator

/-! ### Nodes -/

namespace Naming

variable {N : Naming} {o : Operator × Nat} {n : Node Binary32}

/-- The shapes of the parameters of a node. -/
def shapes (N : Naming) (n : Node Binary32) : List Shape :=
  n.params.filterMap fun p => (N.constants.lookup p).map (·.shape)

/-- The node slides the window that the operator declares, which is one that an operation can slide.
Its cells have no gaps between them. That is what a convolution declares; the gaps of a pooling are
left out. -/
structure SlidesAs (N : Naming) (o : Operator × Nat) (n : Node Binary32) : Prop where
  expressible : o.1.Expressible
  slides : ∀ G, o.1.Declares N.constants G → n.op.Slides { G with dilation := ⟨1, 1⟩ }
  sized : ∀ G, o.1.Declares N.constants G → n.op.SizedBy (N.shapes n) G.kernel ∧
    o.1.integers "kernel_shape" G.kernel.ints = G.kernel.ints
  gaps : ∀ G, o.1.Declares N.constants G → o.1.type = "Conv" → G.dilation = ⟨1, 1⟩

theorem integers_of_left_out {o : Operator} {name : String} {absent : List Int} {a : Axes}
    (h : o.integers name [] = a.ints) : o.integers name absent = a.ints := by
  unfold Operator.integers at h ⊢
  cases hgiven : o.attribute? name with
  | none => simp [hgiven, Axes.ints, Axes.toList] at h
  | some given => simpa [hgiven] using h

/-- Filters that were checked have the extents that are declared. -/
theorem kernelShape_of_check {o : Operator} {constants : Constants} {kernel : Axes}
    {images weight : String} {bias : List String} {filters : Tensor Binary32} {out depth : Nat}
    (hchecked : checkKernelShape o constants = .ok ())
    (hinputs : o.inputs = images :: weight :: bias)
    (hfilters : constants.lookup weight = some filters)
    (hshape : filters.shape = ⟨[out, depth, kernel.vertical, kernel.horizontal]⟩) :
    o.integers "kernel_shape" kernel.ints = kernel.ints := by
  unfold checkKernelShape at hchecked
  unfold Operator.integers
  cases hgiven : o.attribute? "kernel_shape" with
  | none => rfl
  | some given =>
    have hweight : o.inputs[1]?.bind (fun i => constants.lookup i) = some filters := by
      simp [hinputs, hfilters]
    simp only [hgiven, hweight, hshape, List.drop_succ_cons, List.drop_zero] at hchecked
    split at hchecked
    · rename_i hsame
      simpa [Axes.ints, Axes.toList] using hsame
    · cases hchecked

theorem BuiltFrom.slidesAs_conv (h : N.BuiltFrom o n) (htype : o.1.type = "Conv") :
    N.SlidesAs o n := by
  obtain ⟨o, k⟩ := o
  obtain ⟨rank, hop⟩ := h.op
  rw [Operator.liftOperator_conv (o := { o with name := n.name }) htype] at hop
  obtain ⟨op, hlift, hop⟩ := Outcome.map_eq_ok.1 hop
  obtain rfl := Option.some.inj hop
  obtain ⟨hexpressible, hchecked, p, hp, hstrides, hpads⟩ :=
    Operator.liftConv_eq_ok (o := { o with name := n.name }) htype hlift
  refine ⟨hexpressible.of_named, fun G hG => ?_, fun G hG => ?_, fun G hG _ => ?_⟩
  · rw [hp]
    exact Op.slides_conv {
      stride := Axes.ints_injective (hstrides.symm.trans hG.strides)
      padding := Axes.ints_append_injective (hpads.symm.trans hG.pads)
      dilation := rfl }
  · have hkernel := hG.kernel
    rw [Operator.DeclaresKernel, if_pos htype] at hkernel
    obtain ⟨images, weight, bias, filters, out, depth, hinputs, hgiven, himages, hfilters,
      hshape⟩ := hkernel
    refine ⟨?_, kernelShape_of_check (o := { o with name := n.name }) hchecked hinputs hfilters
      hshape⟩
    -- The images are no constant, so the filters are the first one.
    obtain ⟨rest, hrest⟩ : ∃ rest, o.constantOperands N.constants = weight :: rest := by
      have hweight : (N.constants.lookup weight).isSome = true := by rw [hfilters]; rfl
      have hvalue : (N.constants.lookup images).isSome = false := by rw [himages]; rfl
      rw [Operator.constantOperands, Operator.operands, hinputs]
      by_cases hempty : images = "" <;> simp [hempty, hgiven, hweight, hvalue]
    have hparams : n.params = weight :: rest := by rw [h.params, hp, parametersOf, hrest]; simp
    rw [hp, shapes, hparams, List.filterMap_cons, hfilters, Option.map_some, hshape]
    exact ⟨out, depth, _, rfl⟩
  · have hones := hexpressible.of_named.dilations htype
    rw [hG.dilations] at hones
    exact Axes.ints_injective (by simpa [Axes.ints, Axes.toList] using hones)

theorem BuiltFrom.slidesAs_maxPool (h : N.BuiltFrom o n) (htype : o.1.type = "MaxPool") :
    N.SlidesAs o n := by
  obtain ⟨o, k⟩ := o
  obtain ⟨rank, hop⟩ := h.op
  rw [Operator.liftOperator_maxPool (o := { o with name := n.name }) htype] at hop
  obtain ⟨op, hlift, hop⟩ := Outcome.map_eq_ok.1 hop
  obtain rfl := Option.some.inj hop
  obtain ⟨hexpressible, p, hp, -, hkernel, hstrides, hpads⟩ :=
    Operator.liftMaxPool_eq_ok (o := { o with name := n.name }) htype hlift
  have hsame : ∀ G, o.Declares N.constants G → ∀ absent,
      o.integers "kernel_shape" absent = G.kernel.ints := by
    intro G hG absent
    have hkernel := hG.kernel
    rw [Operator.DeclaresKernel, if_neg (by rw [htype]; decide)] at hkernel
    exact integers_of_left_out hkernel
  refine ⟨hexpressible.of_named, fun G hG => ?_, fun G hG => ?_, fun G _ hconv => ?_⟩
  · rw [hp]
    exact Op.slides_maxPool {
      kernel := Axes.ints_injective (hkernel.symm.trans (hsame G hG _))
      stride := Axes.ints_injective (hstrides.symm.trans hG.strides)
      padding := Axes.ints_append_injective (hpads.symm.trans hG.pads)
      dilation := rfl }
  · rw [hp]
    exact ⟨trivial, hsame G hG _⟩
  · rw [htype] at hconv
    exact absurd hconv (by decide)

theorem BuiltFrom.slidesAs (h : N.BuiltFrom o n) (hwindow : o.1.isWindowed = true) :
    N.SlidesAs o n := by
  rcases Operator.isWindowed_iff.1 hwindow with htype | htype
  · exact h.slidesAs_conv htype
  · exact h.slidesAs_maxPool htype

end Naming

/-! ### The whole graph -/

/-- **Windows are placed as attributes declare, or refused.** In a graph that is lifted, every
convolution and every pooling slides the window that its operator declares, over images of every
shape, except for the gaps that a pooling declares. An operator that asks for anything that no
operation does is refused for this reason, unless the extents of its window are at fault. -/
theorem toGraph_windows (m : Model) (batch : Nat) :
    (∀ {g : NetPack.Graph Binary32}, toGraph m batch = .ok g →
      ∃ N : Naming, N.Describes m g ∧
        (∀ p t, g.params.find? p = some t → N.constants.lookup p = some t) ∧
          List.Forall₂ (fun o n => o.1.isWindowed = true → N.SlidesAs o n)
            N.graph.computing g.nodes) ∧
      ∀ {o : Operator} {constants : Constants} {rank : Nat}, o.isWindowed = true →
        o.SizeSound constants → ¬ o.Expressible → o.Refuses (liftOperator o constants rank) := by
  refine ⟨fun h => ?_, Operator.refuses_liftOperator⟩
  obtain ⟨N, hN, hbuilt, hparams⟩ := exists_naming h
  exact ⟨N, hN, hparams, hbuilt.imp fun o n hbuilt => hbuilt.slidesAs⟩

/-- A pooling `p = MaxPool(x)` with a window of `2 × 2` cells at these distances. -/
def poolOperator (dilations : List Nat) : Operator where
  inputs := ["x"]
  outputs := ["p"]
  name := "pool"
  type := "MaxPool"
  attributes := [intsAttribute "kernel_shape" [2, 2], intsAttribute "dilations" dilations]

/-- The mean of the pooling of an image of `3 × 3` cells. -/
def poolModel (dilations : List Nat) : Model where
  irVersion := 7
  producerName := ""
  producerVersion := ""
  operatorSets := [⟨"", 14⟩]
  graph := some {
    operators := [poolOperator dilations, ⟨["p"], ["y"], "mean", "GlobalAveragePool", []⟩]
    name := "pools"
    initializers := []
    inputs := [⟨"x", .tensor 1 (some [.value 1, .value 1, .value 3, .value 3])⟩]
    outputs := [⟨"y", .tensor 1 (some [.value 1, .value 1, .value 1, .value 1])⟩] }

/-- The graph of the pooling, which slides its window without gaps. -/
def poolGraph : NetPack.Graph Binary32 where
  name := "pools"
  input := ⟨"x", ⟨[1, 1, 3, 3]⟩, []⟩
  output := ⟨"y", ⟨[1, 1, 1, 1]⟩, []⟩
  nodes := [⟨"pool", .maxPool ⟨⟨2, 2⟩, ⟨1, 1⟩, ⟨0, 0⟩⟩, "x", [], "p", ⟨[1, 1, 2, 2]⟩⟩,
    ⟨"mean", .globalAvgPool, "p", [], "y", ⟨[1, 1, 1, 1]⟩⟩]
  params := .empty

/-- The window that the pooling declares. -/
def poolGeometry (dilation : Axes) : Geometry := ⟨⟨2, 2⟩, ⟨1, 1⟩, ⟨0, 0⟩, dilation⟩

theorem declares_poolGeometry (dilation : Axes) (hsmall : dilation.Small) (constants : Constants) :
    (poolOperator dilation.toList).Declares constants (poolGeometry dilation) := by
  have hsize : (poolOperator dilation.toList).attribute? "kernel_shape" =
      some (intsAttribute "kernel_shape" [2, 2]) := by
    simp [Operator.attribute?, poolOperator, intsAttribute, Attribute.named]
  have hgaps : (poolOperator dilation.toList).attribute? "dilations" =
      some (intsAttribute "dilations" dilation.toList) := by
    simp [Operator.attribute?, poolOperator, intsAttribute, Attribute.named]
  have hleftOut : (poolOperator dilation.toList).attribute? "strides" = none ∧
      (poolOperator dilation.toList).attribute? "pads" = none := by
    simp [Operator.attribute?, poolOperator, intsAttribute, Attribute.named]
  refine ⟨?_, ?_, ?_, ?_⟩
  · rw [Operator.DeclaresKernel, if_neg (by simp [poolOperator]), Operator.integers, hsize]
    exact map_signed (by simp [Small])
  · rw [Operator.integers, hleftOut.1]
    rfl
  · rw [Operator.integers, hleftOut.2]
    rfl
  · rw [Operator.integers, hgaps]
    exact map_signed (small_toList hsmall)

theorem exists_computing_poolModel {N : Naming} {dilations : List Nat} {g : NetPack.Graph Binary32}
    (hN : N.Describes (poolModel dilations) g) :
    ∃ os, N.graph.computing = (poolOperator dilations, 0) :: os := by
  have hgraph := Option.some.inj hN.graph
  rw [← hgraph]
  exact ⟨_, rfl⟩

set_option maxRecDepth 4000 in
/-- All distances of the cells give the same graph. -/
theorem toGraph_poolModel (dilations : List Nat) :
    toGraph (poolModel dilations) 1 = .ok poolGraph := rfl

/-- Without gaps the pooling slides its window, and filters with gaps are refused. -/
theorem toGraph_windows_pool :
    (∃ N : Naming, N.Describes (poolModel [1, 1]) poolGraph ∧
      (Op.maxPool ⟨⟨2, 2⟩, ⟨1, 1⟩, ⟨0, 0⟩⟩ : Op Binary32).Slides (poolGeometry ⟨1, 1⟩)) ∧
    ∃ detail, liftOperator ⟨["x", "w"], ["y"], "conv", "Conv", [intsAttribute "dilations" [2, 2]]⟩
      [] 4 = .error (.unsupported "conv" detail) := by
  constructor
  · obtain ⟨N, hN, -, hslides⟩ := (toGraph_windows _ _).1 (toGraph_poolModel [1, 1])
    obtain ⟨os, hos⟩ := exists_computing_poolModel hN
    rw [hos] at hslides
    obtain ⟨hpool, -⟩ := List.forall₂_cons.1 hslides
    have hdeclared := declares_poolGeometry ⟨1, 1⟩ (by simp [Axes.Small, Small])
      N.constants
    exact ⟨N, hN, (hpool rfl).slides _ hdeclared⟩
  · refine (toGraph_windows (poolModel [1, 1]) 1).2 rfl ⟨fun _ => rfl, by simp⟩ fun h => ?_
    have hone : (2 : Int) = 1 := h.dilations rfl 2 (by decide)
    exact absurd hone (by decide)

/-- **The gaps of a pooling are not looked at.** A window that has a gap in it fits the image once,
but the pooling takes the four positions of a window without gaps. -/
theorem not_forall_slides : ¬ ∀ (m : Model) (batch : Nat) (g : NetPack.Graph Binary32),
    toGraph m batch = .ok g → ∃ N : Naming, N.Describes m g ∧
      List.Forall₂ (fun o n => o.1.isWindowed = true → ∀ G, o.1.Declares N.constants G →
        n.op.Slides G) N.graph.computing g.nodes := by
  intro h
  obtain ⟨N, hN, hslides⟩ := h (poolModel [2, 2]) 1 poolGraph (toGraph_poolModel [2, 2])
  obtain ⟨os, hos⟩ := exists_computing_poolModel hN
  rw [hos] at hslides
  obtain ⟨hpool, -⟩ := List.forall₂_cons.1 hslides
  have hdeclared := declares_poolGeometry ⟨2, 2⟩ (by simp [Axes.Small, Small])
    N.constants
  have hinfer : (Op.maxPool ⟨⟨2, 2⟩, ⟨1, 1⟩, ⟨0, 0⟩⟩ : Op Binary32).inferShape
      ⟨[1, 1, 3, 3]⟩ [] = .ok ⟨[1, 1, 2, 2]⟩ := rfl
  obtain ⟨n, c, h, w, o, outH, outW, hin, hout, -, hrows, -, -⟩ :=
    ((hpool rfl _ hdeclared).shape trivial).1 hinfer
  obtain ⟨-, -, rfl, -⟩ : 1 = n ∧ 1 = c ∧ 3 = h ∧ 3 = w := by simpa using hin
  obtain ⟨-, -, rfl, -⟩ : 1 = n ∧ 1 = o ∧ 2 = outH ∧ 2 = outW := by simpa using hout
  rcases hrows.count with hcount | ⟨hempty, -⟩
  · exact absurd hcount (by decide)
  · exact absurd hempty (by decide)

end Exchange

end NetPack
