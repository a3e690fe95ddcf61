import NetPack.Proofs.Exchange.Messages

/-!
# Written exchange files are accepted

The layout of a file is checked against a schema before it is read. Every field that is written has
the contents that the schema asks for, so what was written is accepted and read back
(`Exchange.Model.decode?_encode`). A file without a length, which no machine holds, may be refused;
but nothing else than what was written is read from it (`Exchange.Model.eq_of_decode?_encode`).
-/

namespace NetPack

namespace Schema

open Wire

/-- What checks the messages in a message, `depth` levels above the deepest ones. -/
def innerAt : (depth : Nat) → Option (Kind → Bytes → Bool)
  | 0 => none
  | depth + 1 => some (acceptsWithin depth)

variable {depth number : Nat} {kind inner : Kind} {content : Content} {b : Bytes} {v : Value}
  {fs : List Field}

/-- A message is accepted if each of its fields is. -/
theorem acceptsWithin_encodeFields (hfs : ∀ f ∈ fs, Plain f)
    (hlen : (encodeFields fs).length < Word.modulus)
    (h : ∀ f ∈ fs, admits (innerAt depth) kind f = true) :
    acceptsWithin depth kind (encodeFields fs) = true := by
  cases depth with
  | zero =>
    rw [acceptsWithin, fields?_encodeFields 0 hfs (short_of_length_lt hlen), Option.any_some,
      List.all_eq_true]
    exact h
  | succ depth =>
    rw [acceptsWithin, fields?_encodeFields (depth + 1) hfs (short_of_length_lt hlen),
      Option.any_some, List.all_eq_true]
    exact h

theorem admits_of_fits (hlookup : (fieldsOf kind).lookup number = some content)
    (hfits : fits content v = true) : admits (innerAt depth) kind (number, v) = true := by
  simp only [admits, hlookup]
  cases content with
  | message k => cases v <;> simp [fits] at hfits
  | _ => exact hfits

theorem admits_of_accepts (hlookup : (fieldsOf kind).lookup number = some (.message inner))
    (haccepts : acceptsWithin depth inner b = true) :
    admits (innerAt (depth + 1)) kind (number, .bytes b) = true := by
  simp only [admits, hlookup, innerAt, Option.any_some, haccepts]

theorem fits_text (s : String) : fits .text (.bytes (Bytes.ofString s)) = true := by
  rw [fits, Bytes.toString?_ofString, Option.isSome_some]

theorem fits_numbers (is : List Int) :
    fits .numbers (.bytes (is.flatMap fun i => encodeVarint (unsigned i))) = true := by
  rw [fits, Exchange.varints?_unsigned, Option.isSome_some]

theorem fits_singles (xs : List Binary32) :
    fits .singles (.bytes (Binary32.bytesOfList xs)) = true := by
  simp [fits, Binary32.length_bytesOfList]

end Schema

namespace Exchange

open Wire Schema

theorem Attribute.accepts (depth : Nat) {a : Attribute} (hlen : a.encode.length < Word.modulus) :
    acceptsWithin depth .attr a.encode = true := by
  rw [encode_eq] at hlen ⊢
  refine acceptsWithin_encodeFields a.plain_fields hlen ?_
  simp only [fields, List.forall_mem_append]
  refine ⟨⟨⟨⟨⟨?_, ?_⟩, ?_⟩, ?_⟩, ?_⟩, ?_⟩ <;> refine forall_mem_unless ?_
  · exact admits_of_fits rfl (fits_text a.name)
  · exact admits_of_fits rfl rfl
  · exact admits_of_fits rfl rfl
  · exact admits_of_fits rfl rfl
  · exact admits_of_fits rfl (fits_numbers a.ints)
  · exact admits_of_fits rfl rfl

theorem Operator.accepts (depth : Nat) {o : Operator} (hlen : o.encode.length < Word.modulus) :
    acceptsWithin (depth + 1) .node o.encode = true := by
  have hattribute := attribute_lt hlen
  rw [encode_eq] at hlen ⊢
  refine acceptsWithin_encodeFields o.plain_fields hlen ?_
  simp only [fields, List.forall_mem_append, List.forall_mem_map]
  refine ⟨⟨⟨⟨fun s _ => ?_, fun s _ => ?_⟩, forall_mem_unless ?_⟩, forall_mem_unless ?_⟩,
    fun a ha => ?_⟩
  · exact admits_of_fits rfl (fits_text s)
  · exact admits_of_fits rfl (fits_text s)
  · exact admits_of_fits rfl (fits_text o.name)
  · exact admits_of_fits rfl (fits_text o.type)
  · exact admits_of_accepts rfl (Attribute.accepts depth (hattribute a ha))

theorem Initializer.accepts (depth : Nat) {t : Initializer}
    (hlen : t.encode.length < Word.modulus) : acceptsWithin depth .tensor t.encode = true := by
  rw [encode_eq] at hlen ⊢
  refine acceptsWithin_encodeFields t.plain_fields hlen ?_
  simp only [fields, List.forall_mem_append]
  refine ⟨⟨⟨⟨?_, ?_⟩, ?_⟩, ?_⟩, ?_⟩ <;> refine forall_mem_unless ?_
  · exact admits_of_fits rfl (fits_numbers t.dims)
  · exact admits_of_fits rfl rfl
  · exact admits_of_fits rfl (fits_singles t.singles)
  · exact admits_of_fits rfl (fits_text t.name)
  · exact admits_of_fits rfl rfl

theorem Dimension.accepts (depth : Nat) {d : Dimension} (hlen : d.encode.length < Word.modulus) :
    acceptsWithin depth .dimension d.encode = true := by
  rw [encode_eq] at hlen ⊢
  refine acceptsWithin_encodeFields d.plain_fields hlen ?_
  cases d with
  | unset => simp [fields]
  | value n => simpa [fields] using admits_of_fits rfl rfl
  | param name => simpa [fields] using admits_of_fits rfl (fits_text name)

theorem ValueType.accepts (depth : Nat) {v : ValueType} (hlen : v.encode.length < Word.modulus) :
    acceptsWithin (depth + 3) .type v.encode = true := by
  cases v with
  | unset => rfl
  | tensor elementType shape =>
    have htensor := tensor_lt hlen
    rw [encode_eq] at hlen ⊢
    refine acceptsWithin_encodeFields (plain_fields _) hlen ?_
    rw [fields, List.forall_mem_singleton]
    refine admits_of_accepts rfl (acceptsWithin_encodeFields (plain_tensorFields _ _) htensor ?_)
    simp only [tensorFields, List.forall_mem_append, List.forall_mem_map]
    refine ⟨forall_mem_unless (admits_of_fits rfl rfl), fun dims hdims => ?_⟩
    have hshape := shape_lt htensor dims (Option.mem_toList.1 hdims)
    refine admits_of_accepts rfl (acceptsWithin_encodeFields (plain_shapeFields dims) hshape ?_)
    simp only [shapeFields, List.forall_mem_map]
    exact fun d hd => admits_of_accepts rfl (Dimension.accepts depth (dimension_lt hshape d hd))

theorem Value.accepts (depth : Nat) {v : Value} (hlen : v.encode.length < Word.modulus) :
    acceptsWithin (depth + 4) .valueInfo v.encode = true := by
  have htype := type_lt hlen
  rw [encode_eq] at hlen ⊢
  refine acceptsWithin_encodeFields v.plain_fields hlen ?_
  simp only [fields, List.forall_mem_append]
  exact ⟨forall_mem_unless (admits_of_fits rfl (fits_text v.name)),
    forall_mem_unless (admits_of_accepts rfl (ValueType.accepts depth htype))⟩

theorem OperatorSet.accepts (depth : Nat) {s : OperatorSet}
    (hlen : s.encode.length < Word.modulus) : acceptsWithin depth .operatorSet s.encode = true := by
  rw [encode_eq] at hlen ⊢
  refine acceptsWithin_encodeFields s.plain_fields hlen ?_
  simp only [fields, List.forall_mem_append]
  exact ⟨forall_mem_unless (admits_of_fits rfl (fits_text s.domain)),
    forall_mem_unless (admits_of_fits rfl rfl)⟩

theorem Graph.accepts (depth : Nat) {g : Graph} (hlen : g.encode.length < Word.modulus) :
    acceptsWithin (depth + 5) .graph g.encode = true := by
  obtain ⟨hoperator, hinitializer, hinput, houtput⟩ := parts_lt hlen
  rw [encode_eq] at hlen ⊢
  refine acceptsWithin_encodeFields g.plain_fields hlen ?_
  simp only [fields, List.forall_mem_append, List.forall_mem_map]
  refine ⟨⟨⟨⟨fun o ho => ?_, forall_mem_unless ?_⟩, fun t ht => ?_⟩, fun v hv => ?_⟩,
    fun v hv => ?_⟩
  · exact admits_of_accepts rfl (Operator.accepts (depth + 3) (hoperator o ho))
  · exact admits_of_fits rfl (fits_text g.name)
  · exact admits_of_accepts rfl (Initializer.accepts (depth + 4) (hinitializer t ht))
  · exact admits_of_accepts rfl (Value.accepts depth (hinput v hv))
  · exact admits_of_accepts rfl (Value.accepts depth (houtput v hv))

theorem Model.accepts (depth : Nat) {m : Model} (hlen : m.encode.length < Word.modulus) :
    acceptsWithin (depth + 6) .model m.encode = true := by
  rw [encode_eq] at hlen
  obtain ⟨hgraph, hset⟩ := parts_lt (short_of_length_lt hlen)
  rw [encode_eq]
  refine acceptsWithin_encodeFields m.plain_fields hlen ?_
  simp only [fields, List.forall_mem_append, List.forall_mem_map]
  refine ⟨⟨⟨⟨forall_mem_unless ?_, forall_mem_unless ?_⟩, forall_mem_unless ?_⟩, fun g hg => ?_⟩,
    fun s hs => ?_⟩
  · exact admits_of_fits rfl rfl
  · exact admits_of_fits rfl (fits_text m.producerName)
  · exact admits_of_fits rfl (fits_text m.producerVersion)
  · exact admits_of_accepts rfl (Graph.accepts depth (hgraph g (Option.mem_toList.1 hg)))
  · exact admits_of_accepts rfl (OperatorSet.accepts (depth + 5) (hset s hs))

/-- **A file that can be read is read back as it was written**, whatever its length is. -/
theorem Model.eq_of_decode?_encode {m m' : Model} (hm : m.Storable)
    (h : decode? m.encode = some m') : m' = m := by
  unfold decode? at h
  split at h
  · rename_i haccepts
    rw [Schema.accepts, Schema.maxDepth, acceptsWithin, Option.any_eq_true, encode_eq] at haccepts
    obtain ⟨fs, hfields, -⟩ := haccepts
    have hshort := short_of_fields? m.plain_fields hfields
    rw [encode_eq, fieldsIn, fields?_encodeFields _ m.plain_fields hshort, Option.getD_some,
      foldl_fields hm hshort] at h
    exact (Option.some.inj h).symm
  · cases h

/-- **A file that was written is read back**, if it has a length. -/
theorem Model.decode?_encode {m : Model} (hm : m.Storable)
    (hlen : m.encode.length < Word.modulus) : decode? m.encode = some m := by
  -- A file is six levels deep, and a hundred are allowed.
  have haccepts : Schema.accepts m.encode = true := m.accepts 94 hlen
  have hread : decode? m.encode = some _ := if_pos haccepts
  rw [hread, eq_of_decode?_encode hm hread]

end Exchange

end NetPack
