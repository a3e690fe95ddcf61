import NetPack.Exchange.Wire
import NetPack.Proofs.Sizes

/-!
# Fields that are written and read back

`Wire.encodeField` writes one field in the layout that its contents ask for. A message without
groups that was written field by field is read back field by field (`Wire.fields?_encodeFields`),
at every depth. No condition on the fields is needed beyond those of the format: numbers of fields
below `2 ^ 29`, variable-length numbers below `2 ^ 64`, and a whole message of less than `2 ^ 64`
bytes.
-/

namespace NetPack

namespace Wire

/-! ### Variable-length numbers -/

theorem encodeVarint_of_lt {n : Nat} (h : n < 128) : encodeVarint n = [UInt8.ofNat n] := by
  rw [encodeVarint, if_pos h]

theorem encodeVarint_of_le {n : Nat} (h : 128 ≤ n) :
    encodeVarint n = UInt8.ofNat (n % 128 + 128) :: encodeVarint (n / 128) := by
  rw [encodeVarint, if_neg (by omega)]

theorem length_encodeVarint_pos (n : Nat) : 0 < (encodeVarint n).length := by
  unfold encodeVarint
  split <;> simp

/-- The last byte of a number. The last byte of the budget has room for one bit. -/
theorem decodeVarint_last (budget : Nat) {n : Nat} (h : n < 128) (rest : Bytes) :
    decodeVarint (budget + 1) (encodeVarint n ++ rest) =
      if budget = 0 ∧ 2 ≤ n then none else some (n, rest) := by
  have hbyte : (UInt8.ofNat n).toNat = n := by
    rw [UInt8.toNat_ofNat']
    omega
  rw [encodeVarint_of_lt h, List.singleton_append, decodeVarint, hbyte, if_pos h]
  simp only [Bool.and_eq_true, decide_eq_true_eq]

/-- Any other byte of a number. -/
theorem decodeVarint_more (budget : Nat) {n : Nat} (h : 128 ≤ n) (rest : Bytes) :
    decodeVarint (budget + 1) (encodeVarint n ++ rest) =
      (decodeVarint budget (encodeVarint (n / 128) ++ rest)).map fun r =>
        (n % 128 + 128 * r.1, r.2) := by
  have hbyte : (UInt8.ofNat (n % 128 + 128)).toNat = n % 128 + 128 := by
    rw [UInt8.toNat_ofNat']
    omega
  rw [encodeVarint_of_le h, List.cons_append, decodeVarint, hbyte, if_neg (by omega),
    Nat.add_sub_cancel]
  cases decodeVarint budget (encodeVarint (n / 128) ++ rest) <;> rfl

theorem decodeVarint_encodeVarint (budget : Nat) {n : Nat} (h : n < 2 * 128 ^ budget)
    (rest : Bytes) :
    decodeVarint (budget + 1) (encodeVarint n ++ rest) = some (n, rest) := by
  induction budget generalizing n with
  | zero => rw [decodeVarint_last 0 (by omega), if_neg (by omega)]
  | succ budget ih =>
    by_cases hn : n < 128
    · rw [decodeVarint_last _ hn, if_neg (by omega)]
    · have hdiv : n / 128 < 2 * 128 ^ budget := by
        rw [Nat.pow_succ] at h
        omega
      rw [decodeVarint_more _ (by omega), ih hdiv]
      simp only [Option.map_some, Nat.mod_add_div]

theorem varint?_encodeVarint {n : Nat} (h : n < Word.modulus) (rest : Bytes) :
    varint? (encodeVarint n ++ rest) = some (n, rest) :=
  decodeVarint_encodeVarint 9 (by simpa [Word.modulus] using h) rest

/-- A number that takes more than the budget is refused. -/
theorem decodeVarint_of_le (budget : Nat) {n : Nat} (h : 2 * 128 ^ budget ≤ n) (rest : Bytes) :
    decodeVarint (budget + 1) (encodeVarint n ++ rest) = none := by
  induction budget generalizing n with
  | zero =>
    by_cases hn : n < 128
    · rw [decodeVarint_last 0 hn, if_pos ⟨rfl, by omega⟩]
    · rw [decodeVarint_more 0 (by omega)]
      rfl
  | succ budget ih =>
    have hdiv : 2 * 128 ^ budget ≤ n / 128 := by
      rw [Nat.pow_succ] at h
      omega
    have hn : 128 ≤ n := by
      have hpow := Nat.one_le_pow budget 128 (by decide)
      omega
    rw [decodeVarint_more _ hn, ih hdiv]
    rfl

theorem varint?_of_le {n : Nat} (h : Word.modulus ≤ n) (rest : Bytes) :
    varint? (encodeVarint n ++ rest) = none :=
  decodeVarint_of_le 9 (by simpa [Word.modulus] using h) rest

/-- Numbers that were written one after the other are read back. -/
theorem varints?_flatMap {ns : List Nat} (h : ∀ n ∈ ns, n < Word.modulus) :
    varints? (ns.flatMap encodeVarint) = some ns := by
  have hfrom : ∀ fuel, ns.length ≤ fuel → varintsFrom fuel (ns.flatMap encodeVarint) = some ns := by
    induction ns with
    | nil =>
      intro fuel _
      cases fuel <;> rfl
    | cons n ns ih =>
      intro fuel hfuel
      rw [List.forall_mem_cons] at h
      obtain ⟨fuel, rfl⟩ : ∃ k, fuel = k + 1 := ⟨fuel - 1, by simp at hfuel; omega⟩
      have hne : (encodeVarint n ++ ns.flatMap encodeVarint).isEmpty = false := by
        rw [List.isEmpty_eq_false_iff]
        exact List.append_ne_nil_of_left_ne_nil
          (List.ne_nil_of_length_pos (length_encodeVarint_pos n)) _
      rw [List.flatMap_cons, varintsFrom, hne, varint?_encodeVarint h.1]
      have hrest := ih h.2 fuel (by simpa using hfuel)
      simp [hrest]
  -- Every number takes a byte or more, so one unit of fuel for each byte is enough.
  refine hfrom _ ?_
  clear hfrom h
  induction ns with
  | nil => simp
  | cons n ns ih =>
    have := length_encodeVarint_pos n
    simp only [List.flatMap_cons, List.length_append, List.length_cons]
    omega

/-! ### Integers -/

theorem natCast_unsigned (i : Int) : (unsigned i : Int) = i % 18446744073709551616 :=
  Int.toNat_of_nonneg (Int.emod_nonneg i (by decide))

theorem unsigned_lt (i : Int) : unsigned i < Word.modulus := by
  have := natCast_unsigned i
  simp only [Word.modulus]
  omega

/-- Integers of 64 bits survive. -/
theorem signed_unsigned {i : Int} (h : -9223372036854775808 ≤ i ∧ i < 9223372036854775808) :
    signed (unsigned i) = i := by
  rw [signed, natCast_unsigned, Int.bmod_def]
  simp only [Word.modulus]
  omega

theorem signed_of_lt {n : Nat} (h : n < 9223372036854775808) : signed n = n := by
  rw [signed, Int.bmod_def]
  simp only [Word.modulus]
  omega

/-! ### Fields -/

/-- A field in the layout that its contents ask for. -/
def encodeField : Field → Bytes
  | (number, .varint n) => varintField number n
  | (number, .fixed64 n) => key number 1 ++ Bytes.ofNat 8 n
  | (number, .bytes b) => bytesField number b
  | (_, .group) => []
  | (number, .fixed32 n) => key number 5 ++ Bytes.ofNat 4 n

/-- A message field by field. -/
def encodeFields (fs : List Field) : Bytes := fs.flatMap encodeField

/-- The contents can be written. -/
def Value.Plain : Value → Prop
  | .varint n => n < Word.modulus
  | .fixed64 n => n < Word.modulus
  | .bytes _ => True
  | .group => False
  | .fixed32 n => n < 4294967296

/-- The length of the contents can be written. -/
def Value.Short : Value → Prop
  | .bytes b => b.length < Word.modulus
  | _ => True

/-- The field can be written. -/
structure Plain (f : Field) : Prop where
  pos : 0 < f.1
  lt : f.1 < 536870912
  value : f.2.Plain

@[simp] theorem encodeFields_nil : encodeFields [] = [] := rfl

theorem encodeFields_cons (f : Field) (fs : List Field) :
    encodeFields (f :: fs) = encodeField f ++ encodeFields fs := rfl

theorem encodeFields_append (fs gs : List Field) :
    encodeFields (fs ++ gs) = encodeFields fs ++ encodeFields gs := List.flatMap_append

/-- The contents of a field are no longer than the message. -/
theorem length_le_of_mem {fs : List Field} {number : Nat} {b : Bytes}
    (h : (number, .bytes b) ∈ fs) : b.length ≤ (encodeFields fs).length := by
  induction fs with
  | nil => simp at h
  | cons f fs ih =>
    rw [encodeFields_cons, List.length_append]
    rcases List.mem_cons.1 h with rfl | h
    · simp only [encodeField, bytesField, List.length_append]
      omega
    · have := ih h
      omega

theorem short_of_length_lt {fs : List Field} (hlen : (encodeFields fs).length < Word.modulus) :
    ∀ f ∈ fs, f.2.Short := by
  rintro ⟨number, v⟩ hf
  cases v with
  | bytes b => exact (length_le_of_mem hf).trans_lt hlen
  | _ => exact trivial

theorem key?_key {number layout : Nat} (hpos : 0 < number) (hlt : number < 536870912)
    (hlayout : layout < 8) (rest : Bytes) :
    key? (key number layout ++ rest) = some (number, layout, rest) := by
  have hword : 8 * number + layout < Word.modulus := by
    simp only [Word.modulus]
    omega
  have hdiv : (8 * number + layout) / 8 = number := by omega
  have hmod : (8 * number + layout) % 8 = layout := by omega
  simp only [key?, key, varint?_encodeVarint hword, Option.bind_eq_bind, Option.bind_some, hdiv,
    hmod]
  rw [if_pos]
  simp only [Bool.and_eq_true, decide_eq_true_eq]
  omega

theorem split?_append {b rest : Bytes} {count : Nat} (h : b.length = count) :
    split? count (b ++ rest) = some (b, rest) := by
  subst h
  simp [split?]

/-- Reading the contents that were written. -/
theorem exists_layout {f : Field} (hf : Plain f) (hshort : f.2.Short) (rest : Bytes) :
    ∃ layout < 8, layout ≠ 3 ∧ layout ≠ 4 ∧ ∃ contents,
      encodeField f = key f.1 layout ++ contents ∧
        value? layout (contents ++ rest) = some (f.2, rest) := by
  obtain ⟨number, v⟩ := f
  have hvalue := hf.value
  cases v with
  | varint n =>
    refine ⟨0, by omega, by omega, by omega, encodeVarint n, rfl, ?_⟩
    simp only [value?, varint?_encodeVarint hvalue]
    rfl
  | fixed64 n =>
    refine ⟨1, by omega, by omega, by omega, Bytes.ofNat 8 n, rfl, ?_⟩
    have hn : Bytes.toNat (Bytes.ofNat 8 n) = n := Bytes.toNat_ofNat hvalue
    simp only [value?, split?_append (Bytes.length_ofNat 8 n)]
    simp [hn]
  | bytes b =>
    refine ⟨2, by omega, by omega, by omega, encodeVarint b.length ++ b, ?_, ?_⟩
    · simp only [encodeField, bytesField, List.append_assoc]
    · have hb : b.length < Word.modulus := hshort
      simp only [value?, List.append_assoc, varint?_encodeVarint hb, Option.bind_eq_bind,
        Option.bind_some, split?_append rfl]
      rfl
  | group => exact hvalue.elim
  | fixed32 n =>
    refine ⟨5, by omega, by omega, by omega, Bytes.ofNat 4 n, rfl, ?_⟩
    have hn : Bytes.toNat (Bytes.ofNat 4 n) = n := Bytes.toNat_ofNat hvalue
    simp only [value?, split?_append (Bytes.length_ofNat 4 n)]
    simp [hn]

theorem length_encodeField_pos {f : Field} (hf : Plain f) (hshort : f.2.Short) :
    0 < (encodeField f).length := by
  obtain ⟨layout, -, -, -, contents, h, -⟩ := exists_layout hf hshort []
  have := length_encodeVarint_pos (8 * f.1 + layout)
  rw [h, List.length_append, key]
  omega

theorem fieldsFrom_cons (depth fuel : Nat) {f : Field} (hf : Plain f) (hshort : f.2.Short)
    (rest : Bytes) :
    fieldsFrom depth (fuel + 1) [] (encodeField f ++ rest) =
      (fieldsFrom depth fuel [] rest).map (f :: ·) := by
  obtain ⟨layout, hlt, h3, h4, contents, hfield, hvalue⟩ := exists_layout hf hshort rest
  have hne : (encodeField f ++ rest).isEmpty = false := by
    rw [List.isEmpty_eq_false_iff]
    exact List.append_ne_nil_of_left_ne_nil
      (List.ne_nil_of_length_pos (length_encodeField_pos hf hshort)) _
  rw [fieldsFrom, hne, hfield, List.append_assoc, key?_key hf.pos hf.lt hlt]
  simp only [Bool.false_eq_true, if_false, Option.bind_eq_bind, Option.bind_some, h3, h4,
    List.isEmpty_nil, Bool.not_true, Bool.false_and, hvalue, if_true]
  cases fieldsFrom depth fuel [] rest <;> rfl

/-- Contents that are too long to be written are not read. -/
theorem fieldsFrom_of_not_short (depth fuel : Nat) {f : Field} (hf : Plain f) (hlong : ¬ f.2.Short)
    (rest : Bytes) : fieldsFrom depth fuel [] (encodeField f ++ rest) = none := by
  obtain ⟨number, v⟩ := f
  cases v with
  | bytes b =>
    have hvalue : value? 2 (encodeVarint b.length ++ (b ++ rest)) = none := by
      simp only [value?, varint?_of_le (Nat.le_of_not_lt hlong), Option.bind_eq_bind,
        Option.bind_none]
    have hfield : encodeField (number, .bytes b) ++ rest =
        key number 2 ++ (encodeVarint b.length ++ (b ++ rest)) := by
      simp only [encodeField, bytesField, List.append_assoc]
    have hne : (encodeField (number, .bytes b) ++ rest).isEmpty = false := by
      rw [hfield, List.isEmpty_eq_false_iff]
      exact List.append_ne_nil_of_left_ne_nil
        (List.ne_nil_of_length_pos (length_encodeVarint_pos _)) _
    cases fuel with
    | zero => simp [fieldsFrom, hne]
    | succ fuel =>
      rw [fieldsFrom, hne, hfield, key?_key hf.pos hf.lt (by decide)]
      simp [hvalue]
  | _ => exact absurd trivial hlong

theorem length_le_encodeFields {fs : List Field} (hfs : ∀ f ∈ fs, Plain f)
    (hshort : ∀ f ∈ fs, f.2.Short) : fs.length ≤ (encodeFields fs).length := by
  induction fs with
  | nil => simp
  | cons f fs ih =>
    rw [List.forall_mem_cons] at hfs hshort
    rw [encodeFields_cons, List.length_append, List.length_cons]
    have hpos := length_encodeField_pos hfs.1 hshort.1
    have hle := ih hfs.2 hshort.2
    omega

/-- **A message without groups is read back field by field.** -/
theorem fields?_encodeFields (depth : Nat) {fs : List Field} (hfs : ∀ f ∈ fs, Plain f)
    (hshort : ∀ f ∈ fs, f.2.Short) : fields? depth (encodeFields fs) = some fs := by
  have hfrom : ∀ fuel, fs.length ≤ fuel →
      fieldsFrom depth fuel [] (encodeFields fs) = some fs := by
    induction fs with
    | nil =>
      intro fuel _
      cases fuel <;> rfl
    | cons f fs ih =>
      intro fuel hfuel
      rw [List.forall_mem_cons] at hfs hshort
      obtain ⟨fuel, rfl⟩ : ∃ k, fuel = k + 1 := ⟨fuel - 1, by simp at hfuel; omega⟩
      rw [encodeFields_cons, fieldsFrom_cons depth fuel hfs.1 hshort.1,
        ih hfs.2 hshort.2 fuel (by simpa using hfuel)]
      rfl
  -- Every field takes a byte or more, so one unit of fuel for each byte is enough.
  exact hfrom _ (length_le_encodeFields hfs hshort)

/-- Where a message that was written can be read at all, none of its contents is too long. -/
theorem short_of_fields? {depth : Nat} {fs fs' : List Field} (hfs : ∀ f ∈ fs, Plain f)
    (h : fields? depth (encodeFields fs) = some fs') : ∀ f ∈ fs, f.2.Short := by
  have hfrom : ∀ fuel fs', fieldsFrom depth fuel [] (encodeFields fs) = some fs' →
      ∀ f ∈ fs, f.2.Short := by
    clear h
    induction fs with
    | nil => simp
    | cons f fs ih =>
      intro fuel fs' h
      rw [List.forall_mem_cons] at hfs ⊢
      rw [encodeFields_cons] at h
      by_cases hshort : f.2.Short
      · cases fuel with
        | zero =>
          have hne := List.ne_nil_of_length_pos (length_encodeField_pos hfs.1 hshort)
          simp [fieldsFrom, hne] at h
        | succ fuel =>
          rw [fieldsFrom_cons depth fuel hfs.1 hshort, Option.map_eq_some_iff] at h
          obtain ⟨rest, hrest, -⟩ := h
          exact ⟨hshort, ih hfs.2 fuel rest hrest⟩
      · rw [fieldsFrom_of_not_short depth fuel hfs.1 hshort] at h
        cases h
  exact hfrom _ fs' h

end Wire

end NetPack
