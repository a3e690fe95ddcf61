import Mathlib.Data.List.Nodup
import NetPack.Json.Decode
import NetPack.Proofs.Json.Rendering
import NetPack.Proofs.Outcomes
import NetPack.Proofs.Tables

/-!
# Reading what a record was written with

A record is written as the members that have a value. When its fields have different names, each
field of the record that is read holds what was written under its name, and nothing if nothing was
written (`record_present`, `record_of_perm`); behind a tag the same holds of the other members
(`tagged_object`). The sections below say when the parts of records are faithful, are kept, and are
read back.
-/

namespace NetPack

namespace Json

open Document

variable {α δ : Type}

/-! ### Faithful parts -/

/-- The members of an object that have a value. -/
def present (fields : List (String × Option δ)) : List (String × δ) :=
  fields.filterMap fun (name, value) => value.map (name, ·)

theorem mem_present {fields : List (String × Option δ)} {m : String × δ} :
    m ∈ present fields ↔ (m.1, some m.2) ∈ fields := by
  simp [present, Prod.ext_iff]

attribute [local simp] Faithful FaithfulAll FaithfulMembers

theorem faithfulAll_iff {room : Nat} {js : List Json} :
    FaithfulAll room js ↔ ∀ j ∈ js, Faithful room j := by
  induction js with
  | nil => simp
  | cons j js ih => simp [ih]

theorem faithfulMembers_iff {room : Nat} {ms : List (String × Json)} :
    FaithfulMembers room ms ↔ ∀ m ∈ ms, Faithful room m.2 := by
  induction ms with
  | nil => simp
  | cons m ms ih => simp [ih]

theorem faithful_array {room : Nat} {js : List Json} :
    Faithful (room + 1) (.array js) ↔ ∀ j ∈ js, Faithful room j := by
  simp [faithfulAll_iff]

theorem faithful_object {room : Nat} {ms : List (String × Json)} :
    Faithful (room + 1) (.object ms) ↔ ∀ m ∈ ms, Faithful room m.2 := by
  simp [faithfulMembers_iff]

theorem faithful_string (room : Nat) (s : String) : Faithful room (.string s) := by
  simp

theorem faithful_nat (room n : Nat) : Faithful room (.nat n) := by
  rw [nat, Faithful]
  exact Token.isNumber_repr n

theorem faithful_single (room : Nat) (x : Binary32) : Faithful room (.single x) := by
  unfold single
  split
  · rename_i hx
    simp [Token.isNumber_single hx]
  · simp

theorem faithful_nats (room : Nat) (ns : List Nat) : Faithful (room + 1) (.nats ns) := by
  rw [nats, faithful_array, List.forall_mem_map]
  exact fun n _ => faithful_nat room n

theorem faithful_strings (room : Nat) (ss : List String) : Faithful (room + 1) (.strings ss) := by
  rw [strings, faithful_array, List.forall_mem_map]
  exact fun s _ => faithful_string room s

theorem faithful_members {room : Nat} {fields : List (String × Option Json)}
    (h : ∀ f ∈ fields, ∀ j, f.2 = some j → Faithful room j) :
    Faithful (room + 1) (members fields) := by
  rw [members, faithful_object]
  intro m hm
  exact h _ (mem_present.1 hm) m.2 rfl

/-! ### Parts that are kept -/

attribute [local simp] kept? keptAll? keptMembers?

theorem keptAll?_eq {js : List Json} (h : ∀ j ∈ js, kept? j = some j) :
    keptAll? js = some js := by
  induction js with
  | nil => rfl
  | cons j js ih =>
    rw [List.forall_mem_cons] at h
    simp [h.1, ih h.2]

theorem keptMembers?_eq {ms : List (String × Json)} (h : ∀ m ∈ ms, kept? m.2 = some m.2) :
    keptMembers? ms = some ms := by
  induction ms with
  | nil => rfl
  | cons m ms ih =>
    rw [List.forall_mem_cons] at h
    simp [h.1, ih h.2]

theorem kept?_array {js : List Json} (h : ∀ j ∈ js, kept? j = some j) :
    kept? (.array js) = some (.array js) := by
  rw [kept?, keptAll?_eq h]
  rfl

theorem kept?_object {ms : List (String × Json)} (hne : ms ≠ [])
    (h : ∀ m ∈ ms, kept? m.2 = some m.2) : kept? (.object ms) = some (.object ms) := by
  obtain ⟨m, ms, rfl⟩ := List.exists_cons_of_ne_nil hne
  rw [kept?, keptMembers?_eq h]
  · rfl
  · simp

theorem kept?_string (s : String) : kept? (.string s) = some (.string s) := by
  simp

theorem kept?_number {literal : String} (h : (singleOfLiteral? literal).isSome) :
    kept? (.number literal) = some (.number literal) := by
  rw [← isSome_floatOfLiteral?, Option.isSome_iff_exists] at h
  obtain ⟨v, hv⟩ := h
  rw [kept?, hv, Option.map_some]

theorem kept?_nat {n : Nat} (h : n < Word.modulus) : kept? (.nat n) = some (.nat n) := by
  refine kept?_number ?_
  simp [singleOfLiteral?, ofLiteral_repr, digitsValue_toDigits, NumberParts.isWhole, h]

theorem kept?_nats {ns : List Nat} (h : ∀ n ∈ ns, n < Word.modulus) :
    kept? (.nats ns) = some (.nats ns) := by
  refine kept?_array ?_
  rw [List.forall_mem_map]
  exact fun n hn => kept?_nat (h n hn)

/-- A number that is read back as the number that it was written for. -/
def ReadsBack (x : Binary32) : Prop := singleOfLiteral? (singleNotation.single x) = some x

instance : DecidablePred ReadsBack := fun _ => inferInstanceAs (Decidable (_ = _))

theorem kept?_single {x : Binary32} (h : x.isFinite → ReadsBack x) :
    kept? (.single x) = some (.single x) := by
  unfold single
  split
  · rename_i hx
    refine kept?_number ?_
    rw [h hx]
    rfl
  · rw [kept?] <;> simp

/-! ### Parts that are read back -/

theorem nat_nat {n : Nat} (h : n < Word.modulus) : Document.nat (Json.nat n) = .ok n := by
  have hread : nat? (Json.nat n) = some n := wordOfLiteral?_repr h
  rw [Document.nat, hread]
  rfl

theorem single_single {x : Binary32} (hx : x.isFinite) (h : ReadsBack x) :
    Document.single (Json.single x) = .ok x := by
  have hread : single? (Json.single x) = some x := by
    rw [single, if_pos hx]
    exact h
  rw [Document.single, hread]
  rfl

theorem string_string (s : String) : Document.string (Json.string s) = .ok s := rfl

/-- An array of written values is read element by element. -/
theorem list_of_elements [Document δ] (write : α → δ) {value : Decoder δ α} {xs : List α} {d : δ}
    (hd : Document.elements? d = some (xs.map write)) (h : ∀ x ∈ xs, value (write x) = .ok x) :
    Document.list value d = .ok xs := by
  have hread : (xs.map write).mapM value = .ok xs := by
    rw [Outcome.mapM_eq_ok, List.forall₂_map_left_iff, List.forall₂_same]
    exact h
  rw [Document.list, hd]
  exact hread

theorem list_map {write : α → Json} {value : Decoder Json α} {xs : List α}
    (h : ∀ x ∈ xs, value (write x) = .ok x) :
    Document.list value (.array (xs.map write)) = .ok xs := list_of_elements write rfl h

theorem list_nats {ns : List Nat} (h : ∀ n ∈ ns, n < Word.modulus) :
    Document.list Document.nat (Json.nats ns) = .ok ns :=
  list_map fun n hn => nat_nat (h n hn)

theorem list_strings (ss : List String) :
    Document.list Document.string (Json.strings ss) = .ok ss :=
  list_map fun s _ => string_string s

theorem pair_nats {n m : Nat} (hn : n < Word.modulus) (hm : m < Word.modulus) :
    Document.pair Document.nat (Json.nats [n, m]) = .ok (n, m) := by
  have hread : [Json.nat n, Json.nat m].mapM Document.nat = .ok [n, m] := by
    simp [nat_nat hn, nat_nat hm]
  change ([Json.nat n, Json.nat m].mapM Document.nat >>= _) = _
  rw [hread]
  rfl

/-! ### Records -/

theorem nodup_present {fields : List (String × Option δ)}
    (hnodup : (fields.map (·.1)).Nodup) : ((present fields).map (·.1)).Nodup := by
  refine List.pairwise_map.2 ((List.pairwise_map.1 hnodup).filterMap _ ?_)
  intro f f' hne m hm m' hm'
  obtain ⟨_, -, rfl⟩ := Option.map_eq_some_iff.1 hm
  obtain ⟨_, -, rfl⟩ := Option.map_eq_some_iff.1 hm'
  exact hne

/-- Members are found by their names in whatever order they are given. -/
theorem lookup_of_perm {fields : List (String × Option δ)} {ms : List (String × δ)}
    (hms : ms.Perm (present fields)) (hnodup : (fields.map (·.1)).Nodup)
    {f : String × Option δ} (hf : f ∈ fields) : ms.lookup f.1 = f.2 := by
  have hunique : ∀ f' ∈ fields, f'.1 = f.1 → f' = f :=
    fun f' hf' h => List.inj_on_of_nodup_map hnodup hf' hf h
  cases hvalue : f.2 with
  | none =>
    refine List.lookup_eq_none_iff.2 fun m hm => bne_iff_ne.2 fun h => ?_
    have hm := hunique _ (mem_present.1 (hms.mem_iff.1 hm)) h.symm
    rw [← hm] at hvalue
    cases hvalue
  | some j =>
    have hmem : (f.1, j) ∈ ms := hms.mem_iff.2 (mem_present.2 (hvalue ▸ hf))
    refine Table.lookup_of_mem hmem fun j' hj' => ?_
    have hj' := hunique _ (mem_present.1 (hms.mem_iff.1 hj')) rfl
    rw [← hj'] at hvalue
    exact Option.some.inj hvalue

/-- **Every field of a record holds what was written under its name**, in whatever order the
members are given. -/
theorem record_of_perm {names : List String} (hnodup : names.Nodup) {values : List (Option δ)}
    (hlength : names.length = values.length) {ms : List (String × δ)}
    (hms : ms.Perm (present (names.zip values))) :
    ∃ r : Record δ, (Contents.named ms).record names = .ok r ∧
      ∀ f ∈ names.zip values, r.fields.lookup f.1 = f.2 := by
  have hnames : (names.zip values).map (·.1) = names := List.map_fst_zip hlength.le
  have hfields : ((names.zip values).map (·.1)).Nodup := by rwa [hnames]
  refine ⟨⟨ms⟩, ?_, fun f hf => lookup_of_perm hms hfields hf⟩
  have hknown : ms.filter (fun m => names.contains m.1) = ms := by
    refine List.filter_eq_self.2 fun m hm => List.contains_iff_mem.2 ?_
    rw [← hnames]
    exact List.mem_map_of_mem (mem_present.1 (hms.mem_iff.1 hm))
  have hsingle : names.find? (fun n => 1 < (ms.filter fun m => m.1 == n).length) = none := by
    refine List.find?_eq_none.2 fun n _ => ?_
    have hcount := List.nodup_iff_count_le_one.1
      ((hms.map (·.1)).nodup_iff.2 (nodup_present hfields)) n
    rw [List.count_eq_countP, List.countP_map, List.countP_eq_length_filter] at hcount
    exact fun hmore => Nat.not_lt.2 hcount (of_decide_eq_true hmore)
  rw [Contents.record, hknown, hsingle]
  rfl

theorem record_present {names : List String} (hnodup : names.Nodup) {values : List (Option δ)}
    (hlength : names.length = values.length) :
    ∃ r : Record δ, (Contents.named (present (names.zip values))).record names = .ok r ∧
      ∀ f ∈ names.zip values, r.fields.lookup f.1 = f.2 :=
  record_of_perm hnodup hlength (.refl _)

section

variable {β : Type} {b : β}

/-- What is read of a record depends on its fields, which hold what was written. -/
theorem bind_contents [Document δ] {k : Record δ → Except DecodeError β}
    (names : List String) (values : List (Option δ)) {d : δ} {ms : List (String × δ)}
    (hd : Document.contents d = .ok (.named ms)) (hms : ms.Perm (present (names.zip values)))
    (hnodup : names.Nodup) (hlength : names.length = values.length)
    (h : ∀ r, (∀ f ∈ names.zip values, r.fields.lookup f.1 = f.2) → k r = .ok b) :
    (Document.record names d >>= k) = .ok b := by
  obtain ⟨r, hr, hfind⟩ := record_of_perm hnodup hlength hms
  have hrecord : Document.record names d = .ok r := by
    rw [Document.record, hd]
    exact hr
  rw [hrecord, Outcome.ok_bind]
  exact h r hfind

variable {k : Record Json → Except DecodeError β}

theorem bind_record (values : List (Option Json)) {names : List String} {j : Json}
    (hj : j = members (names.zip values)) (hnodup : names.Nodup)
    (hlength : names.length = values.length)
    (h : ∀ r, (∀ f ∈ names.zip values, r.fields.lookup f.1 = f.2) → k r = .ok b) :
    (Document.record names j >>= k) = .ok b :=
  bind_contents names values (hj ▸ rfl) (.refl _) hnodup hlength h

/-- The same of the members behind a tag. -/
theorem bind_named (values : List (Option Json)) {names : List String} {ms : List (String × Json)}
    (hms : ms = present (names.zip values)) (hnodup : names.Nodup)
    (hlength : names.length = values.length)
    (h : ∀ r, (∀ f ∈ names.zip values, r.fields.lookup f.1 = f.2) → k r = .ok b) :
    ((Contents.named ms).record names >>= k) = .ok b := by
  obtain ⟨r, hr, hfind⟩ := record_present hnodup hlength
  rw [hms, hr, Outcome.ok_bind]
  exact h r hfind

end

theorem tagged_object {tag t : String} {ms : List (String × Json)}
    (hkept : ∀ m ∈ ms, kept? m.2 = some m.2) (htag : tag ∉ ms.map (·.1)) :
    Document.tagged tag (Json.object ((tag, .string t) :: ms)) = .ok (t, .named ms) := by
  have hkept : kept? (.object ((tag, .string t) :: ms)) = some (.object ((tag, .string t) :: ms)) :=
    kept?_object (by simp) (List.forall_mem_cons.2 ⟨kept?_string t, hkept⟩)
  have hother : ∀ m ∈ ms, m.1 ≠ tag := fun m hm h => htag (h ▸ List.mem_map_of_mem hm)
  have hnone : ms.filter (fun m => m.1 == tag) = [] :=
    List.filter_eq_nil_iff.2 fun m hm => by simpa using hother m hm
  have hall : ms.filter (fun m => m.1 != tag) = ms :=
    List.filter_eq_self.2 fun m hm => by simpa using hother m hm
  have hcontents : Document.contents (Json.object ((tag, .string t) :: ms)) =
      .ok (.named ((tag, .string t) :: ms)) := rfl
  unfold Document.tagged
  rw [show Document.kept? (Json.object ((tag, .string t) :: ms)) = _ from hkept]
  simp [Document.expect, hcontents, hnone, hall, string_string]

end Json

namespace Document

namespace Record

variable {α δ : Type} {r : Record δ} {field : String} {value : Decoder δ α} {a : α}

theorem required_of_lookup {d : δ} (h : r.fields.lookup field = some d) :
    r.required field value = value d := by
  rw [required, h]

theorem withDefault_of_lookup {o : Option δ} (h : r.fields.lookup field = o)
    (hsome : ∀ d, o = some d → value d = .ok a) {absent : α} (hnone : o = none → absent = a) :
    r.withDefault field value absent = .ok a := by
  rw [withDefault, h]
  cases o with
  | none => rw [hnone rfl]
  | some d => exact hsome d rfl

/-- A field that was left out is absent, and one that was written is read. -/
theorem optional_of_lookup [Document δ] {write : α → δ} {o : Option α}
    (h : r.fields.lookup field = o.map write)
    (hread : ∀ a, o = some a → value (write a) = .ok a ∧ isNull (write a) = false) :
    r.optional field value = .ok o := by
  refine withDefault_of_lookup h ?_ ?_
  · intro d hd
    obtain ⟨a, ha, rfl⟩ := Option.map_eq_some_iff.1 hd
    obtain ⟨hvalue, hnull⟩ := hread a ha
    rw [option, hnull, hvalue, ha]
    rfl
  · intro hnone
    exact (Option.map_eq_none_iff.1 hnone).symm

end Record

end Document

end NetPack
