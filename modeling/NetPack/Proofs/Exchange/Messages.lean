import Mathlib.Data.List.Basic
import NetPack.Exchange.Codec
import NetPack.Proofs.Exchange.Fields

/-!
# Exchange messages that are written and read back

Every message is a list of fields, in which default values are left out. Reading starts from the
default values and takes the fields one after another, so what was left out is there again. A
message is read back as it was written (`Exchange.Model.foldl_fields` for a whole file) if its
integers have the widths of their fields and no number in it is a negative zero, which would be left
out.
-/

namespace NetPack

/-! ### Texts and numbers as bytes -/

theorem Bytes.toString?_ofString (s : String) : toString? (ofString s) = some s := by
  have hbytes : (⟨s.toUTF8.data⟩ : ByteArray) = s.toUTF8 := rfl
  have hvalid : s.toUTF8.IsValidUTF8 := s.isValidUTF8
  rw [toString?, ofString, Array.toArray_toList, hbytes, String.fromUTF8?, dif_pos hvalid]
  rfl

namespace Binary32

theorem toBytes_eq_ofNat (x : Binary32) : x.toBytes = Bytes.ofNat 4 x.bits.toNat := by
  simp only [toBytes, Bytes.ofNat, List.cons.injEq, and_true]
  refine ⟨?_, ?_, ?_, ?_⟩ <;> apply UInt8.toNat_inj.1 <;>
    simp [Nat.shiftRight_eq_div_pow] <;> omega

theorem ofBytes_toBytes (x : Binary32) :
    ofBytes x.bits.toUInt8 (x.bits >>> 8).toUInt8 (x.bits >>> 16).toUInt8
      (x.bits >>> 24).toUInt8 = x := by
  obtain ⟨⟨b⟩⟩ := x
  simp only [ofBytes, Binary32.mk.injEq]
  apply UInt32.toBitVec_inj.1
  simp only [UInt32.toBitVec_or, UInt32.toBitVec_shiftLeft, UInt32.toBitVec_shiftRight,
    UInt8.toBitVec_toUInt32, UInt32.toBitVec_toUInt8]
  ext i hi
  have hbit : b[i] = b.getLsbD i := (BitVec.getLsbD_eq_getElem hi).symm
  simp only [hbit]
  -- Every bit comes from the byte that it lies in.
  by_cases h8 : i < 8
  · simp [h8, show i < 16 by omega, show i < 24 by omega]
  · by_cases h16 : i < 16
    · simp [h8, h16, show i < 24 by omega, show i - 8 < 8 by omega, show 8 + (i - 8) = i by omega]
    · by_cases h24 : i < 24
      · simp [h8, h16, h24, show ¬ i - 8 < 8 by omega, show i - 16 < 8 by omega,
          show 16 + (i - 16) = i by omega]
      · simp [h8, h16, h24, show ¬ i - 8 < 8 by omega, show ¬ i - 16 < 8 by omega,
          show i - 24 < 8 by omega, show 24 + (i - 24) = i by omega]

theorem listOfBytes_bytesOfList (xs : List Binary32) : listOfBytes (bytesOfList xs) = xs := by
  induction xs with
  | nil => rfl
  | cons x xs ih =>
    have hx : listOfBytes (bytesOfList (x :: xs)) =
        ofBytes x.bits.toUInt8 (x.bits >>> 8).toUInt8 (x.bits >>> 16).toUInt8
          (x.bits >>> 24).toUInt8 :: listOfBytes (bytesOfList xs) := rfl
    rw [hx, ofBytes_toBytes, ih]

theorem length_bytesOfList (xs : List Binary32) : (bytesOfList xs).length = 4 * xs.length := by
  induction xs with
  | nil => rfl
  | cons x xs ih =>
    have hx : (bytesOfList (x :: xs)).length = 4 + (bytesOfList xs).length := by
      simp [bytesOfList, toBytes]
      omega
    rw [hx, ih, List.length_cons]
    omega

theorem length_listOfBytes (bytes : List UInt8) :
    (listOfBytes bytes).length = bytes.length / 4 := by
  fun_induction listOfBytes bytes with
  | case1 a b c d rest ih =>
    simp only [List.length_cons, ih]
    omega
  | case2 bytes hshort =>
    have hlt : bytes.length < 4 := by
      match bytes, hshort with
      | [], _ | [_], _ | [_, _], _ | [_, _, _], _ => simp
      | a :: b :: c :: d :: rest, hshort => exact absurd rfl (hshort a b c d rest)
    simp only [List.length_nil]
    omega

end Binary32

namespace Exchange

open Wire

@[simp] theorem textOf_ofString (s : String) : textOf (Bytes.ofString s) = s := by
  rw [textOf, Bytes.toString?_ofString, Option.getD_some]

@[simp] theorem singleOf_toNat (x : Binary32) : singleOf x.bits.toNat = x := by
  simp [singleOf]

/-! ### Integers -/

/-- An integer of 64 bits. -/
def Long (i : Int) : Prop := -9223372036854775808 ≤ i ∧ i < 9223372036854775808

/-- An integer of 32 bits. -/
def Short (i : Int) : Prop := -2147483648 ≤ i ∧ i < 2147483648

theorem long_signed (n : Nat) : Long (signed n) := by
  have hlow := Int.le_bmod (x := n) (m := Word.modulus) (by decide)
  have hhigh := Int.bmod_lt (x := n) (m := Word.modulus) (by decide)
  simp only [Word.modulus] at hlow hhigh
  unfold Long signed
  simp only [Word.modulus]
  omega

theorem signed_of_long {i : Int} (h : Long i) : signed (unsigned i) = i := signed_unsigned h

theorem int32_unsigned {i : Int} (h : Short i) : int32 (unsigned i) = i := by
  obtain ⟨hlow, hhigh⟩ := h
  have hmod : (unsigned i : Int) % 4294967296 = i % 4294967296 := by
    rw [natCast_unsigned]
    exact Int.emod_emod_of_dvd i (by omega)
  have hbmod := Int.bmod_def (unsigned i) 4294967296
  rw [Nat.cast_ofNat, hmod] at hbmod
  unfold int32
  rw [hbmod]
  omega

theorem map_signed_unsigned {is : List Int} (h : ∀ i ∈ is, Long i) :
    (is.map unsigned).map signed = is := by
  induction is with
  | nil => rfl
  | cons i is ih =>
    rw [List.forall_mem_cons] at h
    rw [List.map_cons, List.map_cons, signed_of_long h.1, ih h.2]

/-- Packed integers are read back as the numbers that were written for them. -/
theorem varints?_unsigned (is : List Int) :
    varints? (is.flatMap fun i => encodeVarint (unsigned i)) = some (is.map unsigned) := by
  have hmap : (is.flatMap fun i => encodeVarint (unsigned i)) =
      (is.map unsigned).flatMap encodeVarint := by
    rw [List.flatMap_map]
  rw [hmap]
  exact varints?_flatMap (List.forall_mem_map.2 fun i _ => unsigned_lt i)

theorem intsOf_flatMap {is : List Int} (h : ∀ i ∈ is, Long i) :
    intsOf (.bytes (is.flatMap fun i => encodeVarint (unsigned i))) = is := by
  rw [intsOf, varints?_unsigned, Option.getD_some, map_signed_unsigned h]

/-! ### Lists of fields -/

/-- A field, or nothing if its value is the default one. -/
def fieldUnless (isDefault : Bool) (f : Field) : List Field := if isDefault then [] else [f]

theorem encodeFields_unless (isDefault : Bool) (f : Field) :
    encodeFields (fieldUnless isDefault f) = omitIf isDefault (encodeField f) := by
  cases isDefault <;> simp [fieldUnless, omitIf, encodeFields]

theorem encodeFields_map {β : Type} (l : List β) (f : β → Field) :
    encodeFields (l.map f) = l.flatMap fun b => encodeField (f b) := List.flatMap_map ..

theorem forall_mem_unless {P : Field → Prop} {isDefault : Bool} {f : Field} (h : P f) :
    ∀ f' ∈ fieldUnless isDefault f, P f' := by
  cases isDefault <;> simp [fieldUnless, h]

theorem plain_bytes {number : Nat} {b : Bytes} (hpos : 0 < number) (hlt : number < 536870912) :
    Plain (number, .bytes b) := ⟨hpos, hlt, trivial⟩

theorem plain_unsigned {number : Nat} {i : Int} (hpos : 0 < number) (hlt : number < 536870912) :
    Plain (number, .varint (unsigned i)) := ⟨hpos, hlt, unsigned_lt i⟩

theorem plain_single {number : Nat} {x : Binary32} (hpos : 0 < number)
    (hlt : number < 536870912) : Plain (number, .fixed32 x.bits.toNat) :=
  ⟨hpos, hlt, x.bits.toNat_lt⟩

/-- What a field of a message holds is shorter than the message. -/
theorem length_lt_of_mem {fs : List Field} {number : Nat} {b : Bytes}
    (hlen : (encodeFields fs).length < Word.modulus) (h : (number, .bytes b) ∈ fs) :
    b.length < Word.modulus :=
  (length_le_of_mem h).trans_lt hlen

theorem fieldsIn_encodeFields {fs : List Field} (hfs : ∀ f ∈ fs, Plain f)
    (hlen : (encodeFields fs).length < Word.modulus) : fieldsIn (encodeFields fs) = fs := by
  rw [fieldsIn, fields?_encodeFields _ hfs (short_of_length_lt hlen), Option.getD_some]

/-- A field that was left out had the value that the reader starts with. -/
theorem foldl_unless {σ : Type} {step : σ → Field → σ} {s s' : σ} {isDefault : Bool} {f : Field}
    (hstep : step s f = s') (hdefault : isDefault = true → s = s') :
    (fieldUnless isDefault f).foldl step s = s' := by
  cases isDefault
  · exact hstep
  · exact hdefault rfl

/-- A repeated field collects what it is given. -/
theorem foldl_repeated {σ β : Type} {step : σ → Field → σ} (f : β → Field) (l : List β)
    (collected : List β → σ)
    (h : ∀ xs, ∀ b ∈ l, step (collected xs) (f b) = collected (xs ++ [b])) :
    (l.map f).foldl step (collected []) = collected l := by
  have hgen : ∀ xs, (l.map f).foldl step (collected xs) = collected (xs ++ l) := by
    induction l with
    | nil => simp
    | cons b l ih =>
      intro xs
      rw [List.map_cons, List.foldl_cons, h xs b List.mem_cons_self,
        ih fun xs b hb => h xs b (List.mem_cons_of_mem _ hb), List.append_assoc]
      rfl
  exact hgen []

/-! ### Attributes -/

namespace Attribute

variable {a : Attribute}

/-- The numbers of the attribute fit their fields, and its number is not the negative zero. -/
structure Storable (a : Attribute) : Prop where
  single : a.single.isZero = true → a.single = ⟨0⟩
  int : Long a.int
  ints : ∀ i ∈ a.ints, Long i
  type : Short a.type

/-- The fields that are written. -/
def fields (a : Attribute) : List Field :=
  fieldUnless a.name.isEmpty (1, .bytes (Bytes.ofString a.name)) ++
    fieldUnless a.single.isZero (2, .fixed32 a.single.bits.toNat) ++
    fieldUnless (a.int == 0) (3, .varint (unsigned a.int)) ++
    fieldUnless a.text.isEmpty (4, .bytes a.text) ++
    fieldUnless a.ints.isEmpty (8, .bytes (a.ints.flatMap fun i => encodeVarint (unsigned i))) ++
    fieldUnless (a.type == 0) (20, .varint (unsigned a.type))

theorem encode_eq (a : Attribute) : a.encode = encodeFields a.fields := by
  simp only [fields, encodeFields_append, encodeFields_unless]
  simp only [encode, textField, intField, intsField, singleField, Binary32.toBytes_eq_ofNat,
    encodeField]

theorem plain_fields (a : Attribute) : ∀ f ∈ a.fields, Plain f := by
  simp only [fields, List.forall_mem_append]
  refine ⟨⟨⟨⟨⟨?_, ?_⟩, ?_⟩, ?_⟩, ?_⟩, ?_⟩ <;> refine forall_mem_unless ?_
  · exact plain_bytes (by decide) (by decide)
  · exact plain_single (by decide) (by decide)
  · exact plain_unsigned (by decide) (by decide)
  · exact plain_bytes (by decide) (by decide)
  · exact plain_bytes (by decide) (by decide)
  · exact plain_unsigned (by decide) (by decide)

theorem foldl_fields (ha : a.Storable) : a.fields.foldl step (.named "") = a := by
  obtain ⟨name, single, int, text, ints, type⟩ := a
  -- One field after the other. At each of them the fields behind it still have their defaults.
  have hname : (fieldUnless name.isEmpty (1, .bytes (Bytes.ofString name))).foldl step (.named "") =
      ⟨name, ⟨0⟩, 0, [], [], 0⟩ :=
    foldl_unless (by simp [step, named]) (by simp +contextual [named])
  have hsingle : (fieldUnless single.isZero (2, .fixed32 single.bits.toNat)).foldl step
      ⟨name, ⟨0⟩, 0, [], [], 0⟩ = ⟨name, single, 0, [], [], 0⟩ :=
    foldl_unless (by simp [step]) fun h => by rw [show single = ⟨0⟩ from ha.single h]
  have hint : (fieldUnless (int == 0) (3, .varint (unsigned int))).foldl step
      ⟨name, single, 0, [], [], 0⟩ = ⟨name, single, int, [], [], 0⟩ :=
    foldl_unless (by rw [step, signed_of_long ha.int]) (by simp +contextual)
  have htext : (fieldUnless text.isEmpty (4, .bytes text)).foldl step
      ⟨name, single, int, [], [], 0⟩ = ⟨name, single, int, text, [], 0⟩ :=
    foldl_unless rfl (by simp +contextual)
  have hints : (fieldUnless ints.isEmpty (8, .bytes (ints.flatMap fun i =>
      encodeVarint (unsigned i)))).foldl step ⟨name, single, int, text, [], 0⟩ =
      ⟨name, single, int, text, ints, 0⟩ :=
    foldl_unless (by rw [step, intsOf_flatMap ha.ints, List.nil_append]) (by simp +contextual)
  have htype : (fieldUnless (type == 0) (20, .varint (unsigned type))).foldl step
      ⟨name, single, int, text, ints, 0⟩ = ⟨name, single, int, text, ints, type⟩ :=
    foldl_unless (by rw [step, int32_unsigned ha.type]) (by simp +contextual)
  simp only [fields, List.foldl_append, hname, hsingle, hint, htext, hints, htype]

theorem ofBytes_encode (ha : a.Storable) (hlen : a.encode.length < Word.modulus) :
    ofBytes a.encode = a := by
  rw [encode_eq] at hlen ⊢
  rw [ofBytes, fieldsIn_encodeFields a.plain_fields hlen, foldl_fields ha]

end Attribute

/-! ### Operators and initializers -/

namespace Operator

variable {o : Operator}

/-- The attributes can be stored. -/
def Storable (o : Operator) : Prop := ∀ a ∈ o.attributes, a.Storable

/-- The fields that are written. -/
def fields (o : Operator) : List Field :=
  (o.inputs.map fun s => (1, .bytes (Bytes.ofString s))) ++
    (o.outputs.map fun s => (2, .bytes (Bytes.ofString s))) ++
    fieldUnless o.name.isEmpty (3, .bytes (Bytes.ofString o.name)) ++
    fieldUnless o.type.isEmpty (4, .bytes (Bytes.ofString o.type)) ++
    o.attributes.map fun a => (5, .bytes a.encode)

theorem encode_eq (o : Operator) : o.encode = encodeFields o.fields := by
  simp only [fields, encodeFields_append, encodeFields_unless, encodeFields_map]
  rfl

theorem plain_fields (o : Operator) : ∀ f ∈ o.fields, Plain f := by
  simp only [fields, List.forall_mem_append, List.forall_mem_map]
  refine ⟨⟨⟨⟨fun _ _ => ?_, fun _ _ => ?_⟩, forall_mem_unless ?_⟩, forall_mem_unless ?_⟩,
    fun _ _ => ?_⟩ <;> exact plain_bytes (by decide) (by decide)

theorem attribute_lt (hlen : o.encode.length < Word.modulus) :
    ∀ a ∈ o.attributes, a.encode.length < Word.modulus := fun a ha => by
  have hmem : (5, .bytes a.encode) ∈ o.fields := List.mem_append_right _ (List.mem_map_of_mem ha)
  rw [encode_eq] at hlen
  exact length_lt_of_mem hlen hmem

theorem foldl_fields (ho : o.Storable) (hlen : o.encode.length < Word.modulus) :
    o.fields.foldl step ⟨[], [], "", "", []⟩ = o := by
  have hattribute : ∀ a ∈ o.attributes, Attribute.ofBytes a.encode = a := fun a ha =>
    Attribute.ofBytes_encode (ho a ha) (attribute_lt hlen a ha)
  obtain ⟨inputs, outputs, name, type, attributes⟩ := o
  have hinputs : (inputs.map fun s => (1, .bytes (Bytes.ofString s))).foldl step
      ⟨[], [], "", "", []⟩ = ⟨inputs, [], "", "", []⟩ :=
    foldl_repeated _ inputs (fun xs => (⟨xs, [], "", "", []⟩ : Operator))
      fun xs s _ => by simp [step]
  have houtputs : (outputs.map fun s => (2, .bytes (Bytes.ofString s))).foldl step
      ⟨inputs, [], "", "", []⟩ = ⟨inputs, outputs, "", "", []⟩ :=
    foldl_repeated _ outputs (fun xs => (⟨inputs, xs, "", "", []⟩ : Operator))
      fun xs s _ => by simp [step]
  have hname : (fieldUnless name.isEmpty (3, .bytes (Bytes.ofString name))).foldl step
      ⟨inputs, outputs, "", "", []⟩ = ⟨inputs, outputs, name, "", []⟩ :=
    foldl_unless (by simp [step]) (by simp +contextual)
  have htype : (fieldUnless type.isEmpty (4, .bytes (Bytes.ofString type))).foldl step
      ⟨inputs, outputs, name, "", []⟩ = ⟨inputs, outputs, name, type, []⟩ :=
    foldl_unless (by simp [step]) (by simp +contextual)
  have hattributes : (attributes.map fun a => (5, .bytes a.encode)).foldl step
      ⟨inputs, outputs, name, type, []⟩ = ⟨inputs, outputs, name, type, attributes⟩ :=
    foldl_repeated _ attributes (fun xs => (⟨inputs, outputs, name, type, xs⟩ : Operator))
      fun xs a ha => by rw [step, hattribute a ha]
  simp only [fields, List.foldl_append, hinputs, houtputs, hname, htype, hattributes]

theorem ofBytes_encode (ho : o.Storable) (hlen : o.encode.length < Word.modulus) :
    ofBytes o.encode = o := by
  have hfold := foldl_fields ho hlen
  rw [encode_eq] at hlen ⊢
  rw [ofBytes, fieldsIn_encodeFields o.plain_fields hlen, hfold]

end Operator

namespace Initializer

variable {t : Initializer}

/-- The numbers of the initializer fit their fields. -/
structure Storable (t : Initializer) : Prop where
  dims : ∀ i ∈ t.dims, Long i
  dataType : Short t.dataType

/-- The fields that are written. -/
def fields (t : Initializer) : List Field :=
  fieldUnless t.dims.isEmpty (1, .bytes (t.dims.flatMap fun i => encodeVarint (unsigned i))) ++
    fieldUnless (t.dataType == 0) (2, .varint (unsigned t.dataType)) ++
    fieldUnless t.singles.isEmpty (4, .bytes (Binary32.bytesOfList t.singles)) ++
    fieldUnless t.name.isEmpty (8, .bytes (Bytes.ofString t.name)) ++
    fieldUnless t.raw.isEmpty (9, .bytes t.raw)

theorem encode_eq (t : Initializer) : t.encode = encodeFields t.fields := by
  simp only [fields, encodeFields_append, encodeFields_unless]
  rfl

theorem plain_fields (t : Initializer) : ∀ f ∈ t.fields, Plain f := by
  simp only [fields, List.forall_mem_append]
  refine ⟨⟨⟨⟨?_, ?_⟩, ?_⟩, ?_⟩, ?_⟩ <;> refine forall_mem_unless ?_
  · exact plain_bytes (by decide) (by decide)
  · exact plain_unsigned (by decide) (by decide)
  · exact plain_bytes (by decide) (by decide)
  · exact plain_bytes (by decide) (by decide)
  · exact plain_bytes (by decide) (by decide)

theorem foldl_fields (ht : t.Storable) : t.fields.foldl step ⟨[], 0, [], "", []⟩ = t := by
  obtain ⟨dims, dataType, singles, name, raw⟩ := t
  have hdims : (fieldUnless dims.isEmpty (1, .bytes (dims.flatMap fun i =>
      encodeVarint (unsigned i)))).foldl step ⟨[], 0, [], "", []⟩ = ⟨dims, 0, [], "", []⟩ :=
    foldl_unless (by rw [step, intsOf_flatMap ht.dims, List.nil_append]) (by simp +contextual)
  have htype : (fieldUnless (dataType == 0) (2, .varint (unsigned dataType))).foldl step
      ⟨dims, 0, [], "", []⟩ = ⟨dims, dataType, [], "", []⟩ :=
    foldl_unless (by rw [step, int32_unsigned ht.dataType]) (by simp +contextual)
  have hsingles : (fieldUnless singles.isEmpty (4, .bytes (Binary32.bytesOfList singles))).foldl
      step ⟨dims, dataType, [], "", []⟩ = ⟨dims, dataType, singles, "", []⟩ :=
    foldl_unless
      (by rw [step, singlesOf, Binary32.listOfBytes_bytesOfList, List.nil_append])
      (by simp +contextual)
  have hname : (fieldUnless name.isEmpty (8, .bytes (Bytes.ofString name))).foldl step
      ⟨dims, dataType, singles, "", []⟩ = ⟨dims, dataType, singles, name, []⟩ :=
    foldl_unless (by simp [step]) (by simp +contextual)
  have hraw : (fieldUnless raw.isEmpty (9, .bytes raw)).foldl step
      ⟨dims, dataType, singles, name, []⟩ = ⟨dims, dataType, singles, name, raw⟩ :=
    foldl_unless rfl (by simp +contextual)
  simp only [fields, List.foldl_append, hdims, htype, hsingles, hname, hraw]

theorem ofBytes_encode (ht : t.Storable) (hlen : t.encode.length < Word.modulus) :
    ofBytes t.encode = t := by
  rw [encode_eq] at hlen ⊢
  rw [ofBytes, fieldsIn_encodeFields t.plain_fields hlen, foldl_fields ht]

end Initializer

/-! ### Declared values -/

namespace Dimension

variable {d : Dimension}

/-- The extent fits its field. -/
def Storable : Dimension → Prop
  | .value n => Long n
  | _ => True

/-- The fields that are written. -/
def fields : Dimension → List Field
  | .unset => []
  | .value n => [(1, .varint (unsigned n))]
  | .param name => [(2, .bytes (Bytes.ofString name))]

theorem encode_eq (d : Dimension) : d.encode = encodeFields d.fields := by
  cases d <;> simp [encode, fields, encodeFields, encodeField]

theorem plain_fields (d : Dimension) : ∀ f ∈ d.fields, Plain f := by
  cases d with
  | unset => simp [fields]
  | value n => simpa [fields] using plain_unsigned (by decide) (by decide)
  | param name => simpa [fields] using plain_bytes (by decide) (by decide)

theorem ofBytes_encode (hd : d.Storable) (hlen : d.encode.length < Word.modulus) :
    ofBytes d.encode = d := by
  rw [encode_eq] at hlen ⊢
  rw [ofBytes, fieldsIn_encodeFields d.plain_fields hlen]
  cases d with
  | unset => rfl
  | value n => simp only [fields, List.foldl_cons, List.foldl_nil, step, signed_of_long hd]
  | param name => simp [fields, step]

end Dimension

namespace ValueType

variable {v : ValueType}

/-- The element type and the extents fit their fields. -/
def Storable : ValueType → Prop
  | .unset => True
  | .tensor elementType shape =>
    Short elementType ∧ ∀ dims ∈ shape, ∀ d ∈ dims, Dimension.Storable d

/-- The fields of a shape. -/
def shapeFields (dims : List Dimension) : List Field := dims.map fun d => (1, .bytes d.encode)

/-- The fields of a tensor type. -/
def tensorFields (elementType : Int) (shape : Option (List Dimension)) : List Field :=
  fieldUnless (elementType == 0) (1, .varint (unsigned elementType)) ++
    shape.toList.map fun dims => (2, .bytes (encodeFields (shapeFields dims)))

/-- The fields that are written. -/
def fields : ValueType → List Field
  | .unset => []
  | .tensor elementType shape => [(1, .bytes (encodeFields (tensorFields elementType shape)))]

theorem encode_eq (v : ValueType) : v.encode = encodeFields v.fields := by
  rcases v with _ | ⟨elementType, _ | dims⟩
  · rfl
  all_goals
    simp only [fields, tensorFields, shapeFields, encodeFields_append, encodeFields_unless,
      encodeFields_map, encodeFields_cons, encodeFields_nil, Option.toList_none, Option.toList_some,
      List.map_nil, List.map_cons, List.append_nil]
    simp only [encode, intField, encodeField, List.append_nil]

theorem plain_shapeFields (dims : List Dimension) : ∀ f ∈ shapeFields dims, Plain f := by
  simp only [shapeFields, List.forall_mem_map]
  exact fun _ _ => plain_bytes (by decide) (by decide)

theorem plain_tensorFields (elementType : Int) (shape : Option (List Dimension)) :
    ∀ f ∈ tensorFields elementType shape, Plain f := by
  simp only [tensorFields, List.forall_mem_append, List.forall_mem_map]
  exact ⟨forall_mem_unless (plain_unsigned (by decide) (by decide)),
    fun _ _ => plain_bytes (by decide) (by decide)⟩

theorem plain_fields (v : ValueType) : ∀ f ∈ v.fields, Plain f := by
  cases v with
  | unset => simp [fields]
  | tensor elementType shape => simpa [fields] using plain_bytes (by decide) (by decide)

theorem dimension_lt {dims : List Dimension}
    (hlen : (encodeFields (shapeFields dims)).length < Word.modulus) :
    ∀ d ∈ dims, d.encode.length < Word.modulus := fun d hd => by
  have hmem : (1, .bytes d.encode) ∈ shapeFields dims := List.mem_map_of_mem hd
  exact length_lt_of_mem hlen hmem

theorem shape_lt {elementType : Int} {shape : Option (List Dimension)}
    (hlen : (encodeFields (tensorFields elementType shape)).length < Word.modulus) :
    ∀ dims ∈ shape, (encodeFields (shapeFields dims)).length < Word.modulus := fun dims hdims => by
  have hmem : (2, .bytes (encodeFields (shapeFields dims))) ∈ tensorFields elementType shape :=
    List.mem_append_right _ (List.mem_map_of_mem (Option.mem_toList.2 hdims))
  exact length_lt_of_mem hlen hmem

theorem tensor_lt {elementType : Int} {shape : Option (List Dimension)}
    (hlen : (tensor elementType shape).encode.length < Word.modulus) :
    (encodeFields (tensorFields elementType shape)).length < Word.modulus := by
  rw [encode_eq] at hlen
  exact length_lt_of_mem hlen List.mem_cons_self

/-- The extents are read back. -/
theorem tensorStep_shapeFields {elementType : Int} {dims : List Dimension}
    (hdims : ∀ d ∈ dims, d.Storable)
    (hlen : (encodeFields (shapeFields dims)).length < Word.modulus) :
    tensorStep (elementType, none) (2, .bytes (encodeFields (shapeFields dims))) =
      (elementType, some dims) := by
  have hread : ∀ d ∈ dims, Dimension.ofBytes d.encode = d := fun d hd =>
    Dimension.ofBytes_encode (hdims d hd) (dimension_lt hlen d hd)
  rw [tensorStep, fieldsIn_encodeFields (plain_shapeFields dims) hlen, shapeFields,
    List.filterMap_map]
  refine congrArg (fun ds => (elementType, some ds)) ?_
  refine (List.filterMap_congr fun d hd => ?_).trans List.filterMap_some
  exact congrArg some (hread d hd)

theorem foldl_tensorFields {elementType : Int} {shape : Option (List Dimension)}
    (hv : Storable (.tensor elementType shape))
    (hlen : (encodeFields (tensorFields elementType shape)).length < Word.modulus) :
    (tensorFields elementType shape).foldl tensorStep (0, none) = (elementType, shape) := by
  have htype : (fieldUnless (elementType == 0) (1, .varint (unsigned elementType))).foldl
      tensorStep (0, none) = (elementType, none) :=
    foldl_unless (by rw [tensorStep, int32_unsigned hv.1]) (by simp +contextual)
  rw [tensorFields, List.foldl_append, htype]
  cases shape with
  | none => rfl
  | some dims =>
    rw [Option.toList_some, List.map_cons, List.map_nil, List.foldl_cons, List.foldl_nil,
      tensorStep_shapeFields (hv.2 dims rfl) (shape_lt hlen dims rfl)]

theorem foldl_fields (hv : v.Storable) (hlen : v.encode.length < Word.modulus) :
    (fieldsIn v.encode).foldl step .unset = v := by
  have hfields : fieldsIn v.encode = v.fields := by
    rw [encode_eq] at hlen ⊢
    exact fieldsIn_encodeFields v.plain_fields hlen
  rw [hfields]
  cases v with
  | unset => rfl
  | tensor elementType shape =>
    have htensor := tensor_lt hlen
    have hfold := foldl_tensorFields hv htensor
    simp only [fields, List.foldl_cons, List.foldl_nil, step,
      fieldsIn_encodeFields (plain_tensorFields elementType shape) htensor, hfold]

end ValueType

namespace Value

variable {v : Value}

/-- The type can be stored. -/
def Storable (v : Value) : Prop := v.type.Storable

/-- The fields that are written. -/
def fields (v : Value) : List Field :=
  fieldUnless v.name.isEmpty (1, .bytes (Bytes.ofString v.name)) ++
    fieldUnless (v.type == .unset) (2, .bytes v.type.encode)

theorem encode_eq (v : Value) : v.encode = encodeFields v.fields := by
  simp only [fields, encodeFields_append, encodeFields_unless]
  rfl

theorem plain_fields (v : Value) : ∀ f ∈ v.fields, Plain f := by
  simp only [fields, List.forall_mem_append]
  refine ⟨?_, ?_⟩ <;> exact forall_mem_unless (plain_bytes (by decide) (by decide))

theorem type_lt (hlen : v.encode.length < Word.modulus) :
    v.type.encode.length < Word.modulus := by
  by_cases hunset : v.type = .unset
  · rw [hunset]
    exact Nat.zero_lt_succ _
  · have hmem : (2, .bytes v.type.encode) ∈ v.fields := by simp [fields, fieldUnless, hunset]
    rw [encode_eq] at hlen
    exact length_lt_of_mem hlen hmem

theorem foldl_fields (hv : v.Storable) (hlen : v.encode.length < Word.modulus) :
    v.fields.foldl step ⟨"", .unset⟩ = v := by
  have htypeFields : (fieldsIn v.type.encode).foldl ValueType.step .unset = v.type :=
    ValueType.foldl_fields hv (type_lt hlen)
  obtain ⟨name, type⟩ := v
  have hname : (fieldUnless name.isEmpty (1, .bytes (Bytes.ofString name))).foldl step
      ⟨"", .unset⟩ = ⟨name, .unset⟩ :=
    foldl_unless (by simp [step]) (by simp +contextual)
  rw [fields, List.foldl_append, hname]
  by_cases htype : type = .unset
  · simp [fieldUnless, htype]
  · simp [fieldUnless, htype, step, htypeFields]

theorem ofBytes_encode (hv : v.Storable) (hlen : v.encode.length < Word.modulus) :
    ofBytes v.encode = v := by
  have hfold := foldl_fields hv hlen
  rw [encode_eq] at hlen ⊢
  rw [ofBytes, fieldsIn_encodeFields v.plain_fields hlen, hfold]

end Value

/-! ### Whole files -/

namespace OperatorSet

variable {s : OperatorSet}

/-- The version fits its field. -/
def Storable (s : OperatorSet) : Prop := Long s.version

/-- The fields that are written. -/
def fields (s : OperatorSet) : List Field :=
  fieldUnless s.domain.isEmpty (1, .bytes (Bytes.ofString s.domain)) ++
    fieldUnless (s.version == 0) (2, .varint (unsigned s.version))

theorem encode_eq (s : OperatorSet) : s.encode = encodeFields s.fields := by
  simp only [fields, encodeFields_append, encodeFields_unless]
  rfl

theorem plain_fields (s : OperatorSet) : ∀ f ∈ s.fields, Plain f := by
  simp only [fields, List.forall_mem_append]
  exact ⟨forall_mem_unless (plain_bytes (by decide) (by decide)),
    forall_mem_unless (plain_unsigned (by decide) (by decide))⟩

theorem ofBytes_encode (hs : s.Storable) (hlen : s.encode.length < Word.modulus) :
    ofBytes s.encode = s := by
  rw [encode_eq] at hlen ⊢
  rw [ofBytes, fieldsIn_encodeFields s.plain_fields hlen]
  obtain ⟨domain, version⟩ := s
  have hdomain : (fieldUnless domain.isEmpty (1, .bytes (Bytes.ofString domain))).foldl step
      ⟨"", 0⟩ = ⟨domain, 0⟩ :=
    foldl_unless (by simp [step]) (by simp +contextual)
  have hversion : (fieldUnless (version == 0) (2, .varint (unsigned version))).foldl step
      ⟨domain, 0⟩ = ⟨domain, version⟩ :=
    foldl_unless (by rw [step, signed_of_long hs]) (by simp +contextual)
  rw [fields, List.foldl_append, hdomain, hversion]

end OperatorSet

namespace Graph

variable {g : Graph}

/-- Everything in the graph can be stored. -/
structure Storable (g : Graph) : Prop where
  operators : ∀ o ∈ g.operators, o.Storable
  initializers : ∀ t ∈ g.initializers, t.Storable
  inputs : ∀ v ∈ g.inputs, v.Storable
  outputs : ∀ v ∈ g.outputs, v.Storable

/-- The fields that are written. -/
def fields (g : Graph) : List Field :=
  (g.operators.map fun o => (1, .bytes o.encode)) ++
    fieldUnless g.name.isEmpty (2, .bytes (Bytes.ofString g.name)) ++
    (g.initializers.map fun t => (5, .bytes t.encode)) ++
    (g.inputs.map fun v => (11, .bytes v.encode)) ++
    g.outputs.map fun v => (12, .bytes v.encode)

theorem encode_eq (g : Graph) : g.encode = encodeFields g.fields := by
  simp only [fields, encodeFields_append, encodeFields_unless, encodeFields_map]
  rfl

theorem plain_fields (g : Graph) : ∀ f ∈ g.fields, Plain f := by
  simp only [fields, List.forall_mem_append, List.forall_mem_map]
  refine ⟨⟨⟨⟨fun _ _ => ?_, forall_mem_unless ?_⟩, fun _ _ => ?_⟩, fun _ _ => ?_⟩,
    fun _ _ => ?_⟩ <;> exact plain_bytes (by decide) (by decide)

/-- What the fields of the graph hold is shorter than the graph. -/
theorem parts_lt (hlen : g.encode.length < Word.modulus) :
    (∀ o ∈ g.operators, o.encode.length < Word.modulus) ∧
      (∀ t ∈ g.initializers, t.encode.length < Word.modulus) ∧
      (∀ v ∈ g.inputs, v.encode.length < Word.modulus) ∧
      ∀ v ∈ g.outputs, v.encode.length < Word.modulus := by
  rw [encode_eq] at hlen
  refine ⟨fun o ho => ?_, fun t ht => ?_, fun v hv => ?_, fun v hv => ?_⟩
  · have hmem : (1, .bytes o.encode) ∈ g.fields := by
      simp only [fields, List.mem_append]
      exact .inl (.inl (.inl (.inl (List.mem_map_of_mem ho))))
    exact length_lt_of_mem hlen hmem
  · have hmem : (5, .bytes t.encode) ∈ g.fields := by
      simp only [fields, List.mem_append]
      exact .inl (.inl (.inr (List.mem_map_of_mem ht)))
    exact length_lt_of_mem hlen hmem
  · have hmem : (11, .bytes v.encode) ∈ g.fields := by
      simp only [fields, List.mem_append]
      exact .inl (.inr (List.mem_map_of_mem hv))
    exact length_lt_of_mem hlen hmem
  · have hmem : (12, .bytes v.encode) ∈ g.fields := by
      simp only [fields, List.mem_append]
      exact .inr (List.mem_map_of_mem hv)
    exact length_lt_of_mem hlen hmem

theorem foldl_fields (hg : g.Storable) (hlen : g.encode.length < Word.modulus) :
    g.fields.foldl step ⟨[], "", [], [], []⟩ = g := by
  obtain ⟨hoperatorLt, hinitializerLt, hinputLt, houtputLt⟩ := parts_lt hlen
  have hoperator : ∀ o ∈ g.operators, Operator.ofBytes o.encode = o := fun o ho =>
    Operator.ofBytes_encode (hg.operators o ho) (hoperatorLt o ho)
  have hinitializer : ∀ t ∈ g.initializers, Initializer.ofBytes t.encode = t := fun t ht =>
    Initializer.ofBytes_encode (hg.initializers t ht) (hinitializerLt t ht)
  have hinput : ∀ v ∈ g.inputs, Value.ofBytes v.encode = v := fun v hv =>
    Value.ofBytes_encode (hg.inputs v hv) (hinputLt v hv)
  have houtput : ∀ v ∈ g.outputs, Value.ofBytes v.encode = v := fun v hv =>
    Value.ofBytes_encode (hg.outputs v hv) (houtputLt v hv)
  obtain ⟨operators, name, initializers, inputs, outputs⟩ := g
  have hoperators : (operators.map fun o => (1, .bytes o.encode)).foldl step
      ⟨[], "", [], [], []⟩ = ⟨operators, "", [], [], []⟩ :=
    foldl_repeated _ operators (fun xs => (⟨xs, "", [], [], []⟩ : Graph))
      fun xs o ho => by rw [step, hoperator o ho]
  have hname : (fieldUnless name.isEmpty (2, .bytes (Bytes.ofString name))).foldl step
      ⟨operators, "", [], [], []⟩ = ⟨operators, name, [], [], []⟩ :=
    foldl_unless (by simp [step]) (by simp +contextual)
  have hinitializers : (initializers.map fun t => (5, .bytes t.encode)).foldl step
      ⟨operators, name, [], [], []⟩ = ⟨operators, name, initializers, [], []⟩ :=
    foldl_repeated _ initializers (fun xs => (⟨operators, name, xs, [], []⟩ : Graph))
      fun xs t ht => by rw [step, hinitializer t ht]
  have hinputs : (inputs.map fun v => (11, .bytes v.encode)).foldl step
      ⟨operators, name, initializers, [], []⟩ = ⟨operators, name, initializers, inputs, []⟩ :=
    foldl_repeated _ inputs (fun xs => (⟨operators, name, initializers, xs, []⟩ : Graph))
      fun xs v hv => by rw [step, hinput v hv]
  have houtputs : (outputs.map fun v => (12, .bytes v.encode)).foldl step
      ⟨operators, name, initializers, inputs, []⟩ =
      ⟨operators, name, initializers, inputs, outputs⟩ :=
    foldl_repeated _ outputs (fun xs => (⟨operators, name, initializers, inputs, xs⟩ : Graph))
      fun xs v hv => by rw [step, houtput v hv]
  simp only [fields, List.foldl_append, hoperators, hname, hinitializers, hinputs, houtputs]

end Graph

namespace Model

variable {m : Model}

/-- Everything in the file can be stored. -/
structure Storable (m : Model) : Prop where
  irVersion : Long m.irVersion
  operatorSets : ∀ s ∈ m.operatorSets, s.Storable
  graph : ∀ g ∈ m.graph, g.Storable

/-- The fields that are written. -/
def fields (m : Model) : List Field :=
  fieldUnless (m.irVersion == 0) (1, .varint (unsigned m.irVersion)) ++
    fieldUnless m.producerName.isEmpty (2, .bytes (Bytes.ofString m.producerName)) ++
    fieldUnless m.producerVersion.isEmpty (3, .bytes (Bytes.ofString m.producerVersion)) ++
    (m.graph.toList.map fun g => (7, .bytes g.encode)) ++
    m.operatorSets.map fun s => (8, .bytes s.encode)

theorem encode_eq (m : Model) : m.encode = encodeFields m.fields := by
  obtain ⟨irVersion, producerName, producerVersion, operatorSets, _ | g⟩ := m
  all_goals
    simp only [fields, encodeFields_append, encodeFields_unless, encodeFields_map,
      Option.toList_none, Option.toList_some, List.flatMap_nil, List.flatMap_singleton]
    rfl

theorem plain_fields (m : Model) : ∀ f ∈ m.fields, Plain f := by
  simp only [fields, List.forall_mem_append, List.forall_mem_map]
  refine ⟨⟨⟨⟨forall_mem_unless ?_, forall_mem_unless ?_⟩, forall_mem_unless ?_⟩, fun _ _ => ?_⟩,
    fun _ _ => ?_⟩
  · exact plain_unsigned (by decide) (by decide)
  all_goals exact plain_bytes (by decide) (by decide)

/-- What the fields of the file hold is short if the fields are. -/
theorem parts_lt (hshort : ∀ f ∈ m.fields, f.2.Short) :
    (∀ g ∈ m.graph, g.encode.length < Word.modulus) ∧
      ∀ s ∈ m.operatorSets, s.encode.length < Word.modulus := by
  refine ⟨fun g hg => ?_, fun s hs => ?_⟩
  · have hmem : (7, .bytes g.encode) ∈ m.fields :=
      List.mem_append_left _ (List.mem_append_right _
        (List.mem_map_of_mem (Option.mem_toList.2 hg)))
    exact hshort _ hmem
  · have hmem : (8, .bytes s.encode) ∈ m.fields := List.mem_append_right _ (List.mem_map_of_mem hs)
    exact hshort _ hmem

/-- **A whole file is read back field by field.** -/
theorem foldl_fields (hm : m.Storable) (hshort : ∀ f ∈ m.fields, f.2.Short) :
    m.fields.foldl step ⟨0, "", "", [], none⟩ = m := by
  obtain ⟨hgraphLt, hsetLt⟩ := parts_lt hshort
  have hsetOf : ∀ s ∈ m.operatorSets, OperatorSet.ofBytes s.encode = s := fun s hs =>
    OperatorSet.ofBytes_encode (hm.operatorSets s hs) (hsetLt s hs)
  have hgraphOf : ∀ g ∈ m.graph, (fieldsIn g.encode).foldl Graph.step ⟨[], "", [], [], []⟩ = g :=
    fun g hg => by
      have hlt := hgraphLt g hg
      have hfold := Graph.foldl_fields (hm.graph g hg) hlt
      rw [Graph.encode_eq] at hlt ⊢
      rw [fieldsIn_encodeFields g.plain_fields hlt, hfold]
  obtain ⟨irVersion, producerName, producerVersion, operatorSets, graph⟩ := m
  have hversion : (fieldUnless (irVersion == 0) (1, .varint (unsigned irVersion))).foldl step
      ⟨0, "", "", [], none⟩ = ⟨irVersion, "", "", [], none⟩ :=
    foldl_unless (by rw [step, signed_of_long hm.irVersion]) (by simp +contextual)
  have hname : (fieldUnless producerName.isEmpty (2, .bytes (Bytes.ofString producerName))).foldl
      step ⟨irVersion, "", "", [], none⟩ = ⟨irVersion, producerName, "", [], none⟩ :=
    foldl_unless (by simp [step]) (by simp +contextual)
  have hproducer : (fieldUnless producerVersion.isEmpty
      (3, .bytes (Bytes.ofString producerVersion))).foldl step
      ⟨irVersion, producerName, "", [], none⟩ =
      ⟨irVersion, producerName, producerVersion, [], none⟩ :=
    foldl_unless (by simp [step]) (by simp +contextual)
  have hgraph : (graph.toList.map fun g => (7, .bytes g.encode)).foldl step
      ⟨irVersion, producerName, producerVersion, [], none⟩ =
      ⟨irVersion, producerName, producerVersion, [], graph⟩ := by
    cases graph with
    | none => rfl
    | some g =>
      rw [Option.toList_some, List.map_cons, List.map_nil, List.foldl_cons, List.foldl_nil, step,
        Option.getD_none, hgraphOf g rfl]
  have hsets : (operatorSets.map fun s => (8, .bytes s.encode)).foldl step
      ⟨irVersion, producerName, producerVersion, [], graph⟩ =
      ⟨irVersion, producerName, producerVersion, operatorSets, graph⟩ :=
    foldl_repeated _ operatorSets
      (fun xs => (⟨irVersion, producerName, producerVersion, xs, graph⟩ : Model))
      fun xs s hs => by rw [step, hsetOf s hs]
  simp only [fields, List.foldl_append, hversion, hname, hproducer, hgraph, hsets]

end Model

end Exchange

end NetPack
