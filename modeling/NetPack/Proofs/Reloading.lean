import NetPack.Proofs.Persistence
import NetPack.Proofs.Soundness

/-!
# What reading an artifact checks

Compiling makes artifacts whose parts belong together (`Artifact.Consistent`): the declared input is
the input of the graph, there is a label for every output, the platform can run the options, and an
image has a bias for each of its channels. Such an artifact can be run: preprocessing and evaluating
succeed on all pixels of the declared shape (`Artifact.Consistent.exists_run`).

Reading is another way to get an artifact, and it checks less. A file of an artifact is accepted
exactly if the graph in it is valid, whatever the input, the labels and the options are
(`Artifact.reloading`). So what compiling guarantees holds of the files that were made by compiling,
but not of every file that is accepted (`Artifact.not_forall_consistent`). An image
without biases is accepted too, and preprocessing crashes on it
(`InputSpec.preprocess_without_bias`).
-/

namespace NetPack

/-! ### Preprocessing -/

namespace InputSpec

/-- An image has one bias for each channel of its shape. -/
def BiasPerChannel : InputSpec → Prop
  | image _ shape _ _ bias => shape.dims[1]? = some bias.length
  | tensor .. => True

instance : DecidablePred BiasPerChannel
  | image _ shape _ _ bias => inferInstanceAs (Decidable (shape.dims[1]? = some bias.length))
  | tensor .. => inferInstanceAs (Decidable True)

theorem biasPerChannel_ofImage {name : String} {d : Descriptor} {n : Normalization}
    {layout : ColorLayout} {spec : InputSpec} (h : ofImage name d n layout = .ok spec) :
    spec.BiasPerChannel := by
  obtain ⟨-, hchannels, rfl⟩ := ofImage_eq_ok.1 h
  change some d.channels = some (channelBias n layout).length
  rw [hchannels]
  cases layout <;> rfl

/-- Preprocessing gives a tensor of the same shape with as many elements. -/
theorem exists_preprocess [Build] {spec : InputSpec} {pixels : Tensor Binary32}
    (hbias : spec.BiasPerChannel) (hshape : pixels.shape = spec.shape) (hpixels : pixels.Proper) :
    ∃ x, spec.preprocess pixels = .ok x ∧ x.shape = pixels.shape ∧
      x.data.size = pixels.data.size := by
  cases spec with
  | tensor => exact ⟨pixels, rfl, rfl, rfl⟩
  | image name shape layout scale bias =>
    obtain rfl : pixels.shape = shape := hshape
    obtain ⟨hrank, hlength⟩ := List.getElem?_eq_some_iff.1 hbias
    obtain ⟨batch, channels, plane, hdims⟩ :
        ∃ batch channels plane, pixels.shape.dims = batch :: channels :: plane := by
      rcases hdims : pixels.shape.dims with - | ⟨batch, - | ⟨channels, plane⟩⟩
      · simp [hdims] at hrank
      · simp [hdims] at hrank
      · exact ⟨batch, channels, plane, rfl⟩
    -- No extent is zero, so there is a channel and with it a bias, and a plane can be counted.
    have hpos : 0 < bias.length := hlength ▸ hpixels.positive _ (List.getElem_mem hrank)
    obtain ⟨area, harea⟩ : ∃ area, Shape.product plane = some area := by
      have hcounted := Op.counted_of_positive (.batchNorm 0 : Op Nat) hpixels.positive
        hpixels.wellFormed.product_lt
      rw [Op.Counted, hdims, List.drop_succ_cons, List.drop_succ_cons, List.drop_zero] at hcounted
      exact Option.isSome_iff_exists.1 hcounted
    obtain ⟨elements, helements⟩ :
        ∃ elements, pixels.data.toList.zipIdx.mapM (fun p => do
          return p.1 * scale + (← Outcome.entry bias.toArray
            (p.2 / Nat.max area 1 % bias.length))) =
          (.ok elements : Outcome InputError (List Binary32)) :=
      Outcome.exists_mapM_eq_ok fun p _ => by
        rw [Outcome.entry_of_lt (by simpa using Nat.mod_lt _ hpos), Outcome.ok_bind]
        exact ⟨_, rfl⟩
    refine ⟨{ pixels with data := elements.toArray }, ?_, rfl, ?_⟩
    · simp only [preprocess, hdims, harea, Outcome.orCrash_some, Outcome.ok_bind]
      rw [if_neg (by simp)]
      exact Outcome.bind_eq_ok.2 ⟨elements, helements, rfl⟩
    · have hsize := (Outcome.mapM_eq_ok.1 helements).length_eq
      simpa using hsize.symm

/-- Without biases there is nothing to add to the first pixel. -/
theorem preprocess_without_bias [Build] {name : String} {shape : Shape} {layout : ColorLayout}
    {scale : Binary32} {pixels : Tensor Binary32} (hshape : pixels.shape = shape)
    (hpixels : pixels.data.size ≠ 0) :
    (image name shape layout scale []).preprocess pixels = Outcome.crash := by
  obtain ⟨v, vs, hdata⟩ : ∃ v vs, pixels.data.toList = v :: vs :=
    List.exists_cons_of_ne_nil (by simpa using hpixels)
  simp only [preprocess, hshape]
  rw [if_neg (by simp)]
  rcases shape.dims with - | ⟨batch, - | ⟨channels, plane⟩⟩
  · rfl
  · rfl
  · cases hplane : Shape.product plane with
    | none =>
      simp only [hplane]
      rfl
    | some area =>
      simp only [hplane, hdata, List.zipIdx_cons, List.mapM_cons, Outcome.orCrash_some,
        Outcome.ok_bind]
      rw [Outcome.entry_of_size_le (by simp)]
      rfl

end InputSpec

/-! ### Evaluating -/

theorem Graph.Valid.exists_evaluate {g : Graph Binary32} (hg : g.Valid) (hplaced : g.Placeable)
    (hparams : ∀ name t, g.params.find? name = some t → t.Proper)
    (hbytes : ∀ n ∈ g.nodes, (n.outputShape.numBytes? .f32).isSome)
    {x : Tensor Binary32} (hx : x.WellFormed) (hshape : x.shape = g.input.shape) :
    ∃ y, g.evaluate x = .ok y ∧ y.shape = g.output.shape := by
  obtain ⟨env, y, hrun, -, hy, hyshape⟩ :=
    hg.exists_env (fun _ _ => forall_mem_paramTensors hparams) hbytes hplaced hx hshape
  exact ⟨y, evaluate_eq_ok.2 ⟨hshape ▸ accepts_self g.input, env, hrun, hy⟩, hyshape⟩

/-! ### Artifacts that were compiled -/

namespace Artifact

/-- The parts of an artifact belong together. -/
structure Consistent (a : Artifact) : Prop where
  /-- The input is declared as the graph takes it. -/
  input : a.input.shape = a.graph.input.shape
  /-- There is a label for every output. -/
  labels : ∀ labels, a.labels = some labels → labels.length = a.outputWidth
  /-- The platform can run the options. -/
  options : a.options.check = .ok ()
  /-- An image has one bias per channel. -/
  bias : a.input.BiasPerChannel

/-- **A consistent artifact can be run.** On pixels of the declared shape preprocessing has a
result, and so has the graph on it, if no parameter has a zero extent, the recorded shapes have a
size in bytes and all windows can be placed. -/
theorem Consistent.exists_run {a : Artifact} (ha : a.Consistent) (hvalid : a.graph.Valid)
    (hplaced : a.graph.Placeable)
    (hparams : ∀ name t, a.graph.params.find? name = some t → t.Proper)
    (hbytes : ∀ n ∈ a.graph.nodes, (n.outputShape.numBytes? .f32).isSome)
    {pixels : Tensor Binary32} (hpixels : pixels.WellFormed)
    (hshape : pixels.shape = a.input.shape) :
    ∃ x y, a.input.preprocess pixels = .ok x ∧ a.graph.evaluate x = .ok y ∧
      y.shape = a.graph.output.shape := by
  obtain ⟨-, ⟨count, hcount, hne⟩, -⟩ := Graph.valid_iff.1 hvalid
  have hsame : pixels.shape = a.graph.input.shape := hshape.trans ha.input
  have hpositive : pixels.shape.Positive :=
    hpixels.positive (by simpa [hsame, hcount] using hne)
  obtain ⟨x, hx, hxshape, hsize⟩ :=
    InputSpec.exists_preprocess ha.bias hshape ⟨hpixels, hpositive⟩
  have hxwell : x.WellFormed := by
    rw [Tensor.WellFormed, hxshape, hsize]
    exact hpixels
  obtain ⟨y, hy, hyshape⟩ :=
    hvalid.exists_evaluate hplaced hparams hbytes hxwell (hxshape.trans hsame)
  exact ⟨x, y, hx, hy, hyshape⟩

/-- Folding gives a valid graph with the same input and output. -/
theorem valid_of_foldBatchNorms {g g' : Graph Binary32} {count : Nat}
    (h : g.foldBatchNorms = .ok (g', count)) :
    g'.Valid ∧ g'.input = g.input ∧ g'.output = g.output := by
  obtain ⟨f, -, rfl, hvalid, -⟩ := Graph.foldBatchNorms_eq_ok.1 h
  exact ⟨hvalid, rfl, rfl⟩

/-- **What compiling guarantees.** -/
theorem consistent_of_compile {g : Graph Binary32} {input : InputSpec} {options : CompileOptions}
    {labels : Option Labels} {a : Artifact} (hbias : input.BiasPerChannel)
    (h : compile g input options labels = .ok a) : a.graph.Valid ∧ a.Consistent := by
  obtain ⟨hmeets, ⟨graph, count⟩, hfold, rfl⟩ := compile_eq_ok.1 h
  obtain ⟨hvalid, hsame, hout⟩ := valid_of_foldBatchNorms hfold
  refine ⟨hvalid, hmeets.input.trans (congrArg (·.shape) hsame.symm), ?_, hmeets.options, hbias⟩
  rw [outputWidth, loweredTo, hout]
  exact hmeets.labels

/-! ### Artifacts that were read -/

theorem gives_readHeader_params (params : Table (Tensor Binary32)) :
    Document.Gives (readHeader params : Decoder Json (Nat × Artifact))
      fun r => r.2.graph.params = params := by
  intro j r h
  obtain ⟨fields, -, h⟩ := Outcome.bind_eq_ok.1 h
  obtain ⟨found, -, h⟩ := Outcome.bind_eq_ok.1 h
  obtain ⟨name, -, h⟩ := Outcome.bind_eq_ok.1 h
  obtain ⟨topology, -, h⟩ := Outcome.bind_eq_ok.1 h
  obtain ⟨input, -, h⟩ := Outcome.bind_eq_ok.1 h
  obtain ⟨labels, -, h⟩ := Outcome.bind_eq_ok.1 h
  obtain ⟨options, -, h⟩ := Outcome.bind_eq_ok.1 h
  obtain ⟨passes, -, h⟩ := Outcome.bind_eq_ok.1 h
  obtain ⟨metadata, -, h⟩ := Outcome.bind_eq_ok.1 h
  obtain rfl := Outcome.pure_eq_ok_iff.1 h
  rfl

/-- The graph of an artifact that was read is valid, and its parameters can be stored. -/
theorem valid_of_decode {bytes : Bytes} {a : Artifact} (h : decode bytes = .ok a) :
    a.graph.Valid ∧ ∀ name t, a.graph.params.find? name = some t → Container.Storable name t := by
  unfold decode at h
  split at h
  · cases h
  · rename_i text params hcontainer
    split at h
    · cases h
    · rename_i found a' hdecode
      simp only [Outcome.report_bind] at h
      rw [Outcome.ite_eq_ok (by simp)] at h
      obtain ⟨graph, hvalidate, hgraph⟩ := Outcome.bind_eq_ok.1 h.2
      obtain ⟨hvalid, rfl⟩ := Graph.validate_eq_ok.1 (Outcome.mapError_eq_ok.1 hvalidate)
      obtain rfl := Outcome.pure_eq_ok_iff.1 hgraph
      have hparams : a'.graph.params = params := (gives_readHeader_params params).decode hdecode
      exact ⟨hvalid, fun name t ht =>
        Container.storable_of_decode hcontainer name t (hparams ▸ ht)⟩

/-- **What reading an artifact checks.** An artifact that was read has a valid graph, and if it is
consistent and its windows can be placed it can be run. Reading checks nothing beyond the graph: an
artifact is read back exactly if its graph is valid, and so is one that was compiled, which is
consistent besides. -/
theorem reloading (bytes : Bytes) (a : Artifact) :
    (decode bytes = .ok a → a.graph.Valid ∧
      (a.Consistent → (∀ name t, a.graph.params.find? name = some t → t.shape.Positive) →
        (∀ n ∈ a.graph.nodes, (n.outputShape.numBytes? .f32).isSome) → a.graph.Placeable →
        ∀ pixels : Tensor Binary32, pixels.WellFormed → pixels.shape = a.input.shape →
          ∃ x y, a.input.preprocess pixels = .ok x ∧ a.graph.evaluate x = .ok y ∧
            y.shape = a.graph.output.shape)) ∧
    (Representable a.counts a.singles →
      Container.Fits kind a.headerToJson.render a.graph.params →
        (∀ a', decode a.encode = .ok a' ↔ a' = a ∧ a.graph.Valid) ∧
        ∀ g input options labels, input.BiasPerChannel →
          compile g input options labels = .ok a → decode a.encode = .ok a ∧ a.Consistent) := by
  refine ⟨fun h => ?_, fun hnumbers hfits => ⟨fun _ => decode_encode_eq_ok_iff hnumbers hfits,
    fun g input options labels hbias h => ?_⟩⟩
  · obtain ⟨hvalid, hstorable⟩ := valid_of_decode h
    refine ⟨hvalid, fun hconsistent hpositive hbytes hplaced pixels hpixels hshape => ?_⟩
    exact hconsistent.exists_run hvalid hplaced
      (fun name t ht => ⟨(hstorable name t ht).wellFormed, hpositive name t ht⟩) hbytes hpixels
      hshape
  · obtain ⟨hvalid, hconsistent⟩ := consistent_of_compile hbias h
    exact ⟨(decode_encode_eq_ok_iff hnumbers hfits).2 ⟨rfl, hvalid⟩, hconsistent⟩

/-- The artifact of images of one pixel with the given labels. -/
def labelled (labels : Labels) : Artifact :=
  { BatchConfig.Flat.compiled .standard with labels := some labels }

theorem representable_labelled (labels : Labels) :
    Representable (labelled labels).counts (labelled labels).singles := by
  change Representable (labelled []).counts (labelled []).singles
  exact ⟨by decide, by decide, by decide⟩

/-- With three labels it is compiled, read back and run. -/
theorem reloading_labelled :
    compile { BatchConfig.Flat.graph with name := "m" } (labelled []).input
        Preset.classifier.options (some ["r", "g", "b"]) = .ok (labelled ["r", "g", "b"]) ∧
      decode (labelled ["r", "g", "b"]).encode = .ok (labelled ["r", "g", "b"]) ∧
      ∃ x y, (labelled ["r", "g", "b"]).input.preprocess (.blank ⟨[1, 3, 1, 1]⟩) = .ok x ∧
        (labelled ["r", "g", "b"]).graph.evaluate x = .ok y ∧ y.shape = ⟨[1, 3]⟩ := by
  have hinput : InputSpec.ofImage "input" ⟨1, 3, 1, 1, .f32⟩ .standard .rgb =
      .ok (labelled []).input := InputSpec.ofImage_eq_ok.2 ⟨by decide, rfl, rfl⟩
  have hcompile : compile { BatchConfig.Flat.graph with name := "m" } (labelled []).input
      Preset.classifier.options (some ["r", "g", "b"]) = .ok (labelled ["r", "g", "b"]) := rfl
  have hfits : Container.Fits kind (labelled ["r", "g", "b"]).headerToJson.render
      (labelled ["r", "g", "b"]).graph.params :=
    .of_weight (by decide) (by decide) (by decide) (by decide) (by decide)
  obtain ⟨hrun, hread⟩ := reloading (labelled ["r", "g", "b"]).encode (labelled ["r", "g", "b"])
  obtain ⟨hdecode, hconsistent⟩ := (hread (representable_labelled _) hfits).2 _ _ _ _
    (InputSpec.biasPerChannel_ofImage hinput) hcompile
  have hplaced : (labelled ["r", "g", "b"]).graph.Placeable := by
    simp [Graph.Placeable, Graph.PlacedOn, Op.Placed, labelled, BatchConfig.Flat.compiled,
      BatchConfig.Flat.graph]
  exact ⟨hcompile, hdecode, (hrun hdecode).2 hconsistent (by simp [labelled,
    BatchConfig.Flat.compiled, BatchConfig.Flat.graph]) (by decide) hplaced _ (by decide) rfl⟩

/-- With one label for its three outputs it is not compiled, but it is read. -/
theorem not_forall_consistent : ¬∀ bytes a, decode bytes = .ok a → a.Consistent := by
  intro h
  have hfits : Container.Fits kind (labelled ["r"]).headerToJson.render
      (labelled ["r"]).graph.params :=
    .of_weight (by decide) (by decide) (by decide) (by decide) (by decide)
  have hdecode : decode (labelled ["r"]).encode = .ok (labelled ["r"]) :=
    decode_encode (by decide) (representable_labelled _) hfits
  have hcount : ["r"].length = 3 := (h _ _ hdecode).labels _ rfl
  cases hcount

end Artifact

end NetPack
