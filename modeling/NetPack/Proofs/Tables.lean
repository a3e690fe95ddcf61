import Mathlib.Data.List.Basic
import Mathlib.Data.String.Basic
import NetPack.Table

/-!
# Looking up names in tables

What a table holds after its entries were changed, read through `Table.find?`: an insertion is seen
at its own name only (`Table.find?_insert`), a filter keeps what passes (`Table.find?_filter`), and
a table is determined by what is found in it (`Table.ext_find?`).
-/

namespace NetPack

namespace Table

variable {β : Type} {t u : Table β} {name : String} {b : β}

theorem find?_eq_some_iff : t.find? name = some b ↔ (name, b) ∈ t.entries := by
  rw [find?, Option.map_eq_some_iff]
  constructor
  · rintro ⟨⟨name', b'⟩, h, rfl⟩
    obtain rfl : name' = name := by simpa using List.find?_some h
    exact List.mem_of_find?_eq_some h
  · intro h
    refine ⟨(name, b), ?_, rfl⟩
    obtain ⟨entries, sorted⟩ := t
    induction entries with
    | nil => simp at h
    | cons e es ih =>
      obtain ⟨hhead, htail⟩ := List.pairwise_cons.1 sorted
      rcases List.mem_cons.1 h with rfl | h
      · simp
      · have hne : e.1 ≠ name := (hhead _ h).ne
        rw [List.find?_cons_of_neg (by simpa using hne)]
        exact ih htail h

theorem mem_names_iff : name ∈ t.names ↔ (t.find? name).isSome := by
  rw [names, List.mem_map, Option.isSome_iff_exists]
  constructor
  · rintro ⟨⟨_, b⟩, he, rfl⟩
    exact ⟨b, find?_eq_some_iff.2 he⟩
  · rintro ⟨b, hb⟩
    exact ⟨(name, b), find?_eq_some_iff.1 hb, rfl⟩

theorem nodup_names (t : Table β) : t.names.Nodup :=
  List.pairwise_map.2 (t.sorted.imp fun hlt => hlt.ne)

/-- What holds of all entries holds of every entry that is found. -/
theorem forall_find? {P : β → Prop} (h : ∀ e ∈ t.entries, P e.2) :
    ∀ name b, t.find? name = some b → P b :=
  fun name b hb => h (name, b) (find?_eq_some_iff.1 hb)

@[simp] theorem find?_empty : (empty : Table β).find? name = none := rfl

theorem find?_place (l : List (String × β)) (name' : String) :
    ((place name b l).find? fun e => e.1 == name').map (·.2) =
      if name' = name then some b else (l.find? fun e => e.1 == name').map (·.2) := by
  induction l with
  | nil => by_cases h : name' = name <;> simp [place, h, Ne.symm]
  | cons e es ih =>
    unfold place
    -- The entry comes before the first one, takes its place, or goes on to the rest.
    by_cases hlt : name < e.1
    · rw [if_pos hlt]
      by_cases hname : name' = name
      · simp [hname]
      · rw [List.find?_cons_of_neg (by simpa using Ne.symm hname), if_neg hname]
    · rw [if_neg hlt]
      by_cases heq : name = e.1
      · rw [if_pos heq]
        by_cases hname : name' = name
        · simp [hname]
        · have hne : e.1 ≠ name' := fun h => hname (h ▸ heq.symm)
          rw [List.find?_cons_of_neg (by simpa using Ne.symm hname),
            List.find?_cons_of_neg (by simpa using hne), if_neg hname]
      · rw [if_neg heq]
        by_cases hhead : e.1 = name'
        · have hname : name' ≠ name := fun h => heq (h ▸ hhead.symm)
          rw [List.find?_cons_of_pos (by simpa using hhead),
            List.find?_cons_of_pos (by simpa using hhead), if_neg hname]
        · rw [List.find?_cons_of_neg (by simpa using hhead),
            List.find?_cons_of_neg (by simpa using hhead), ih]

theorem find?_insert (t : Table β) (name : String) (b : β) (name' : String) :
    (t.insert name b).find? name' = if name' = name then some b else t.find? name' :=
  find?_place t.entries name'

@[simp] theorem find?_insert_self (t : Table β) (name : String) (b : β) :
    (t.insert name b).find? name = some b := by
  rw [find?_insert, if_pos rfl]

theorem find?_insert_of_ne {name' : String} (h : name' ≠ name) :
    (t.insert name b).find? name' = t.find? name' := by
  rw [find?_insert, if_neg h]

theorem find?_filter (t : Table β) (p : String → β → Bool) (name : String) :
    (t.filter p).find? name = (t.find? name).filter (p name) := by
  ext b
  rw [Option.filter_eq_some_iff, find?_eq_some_iff, find?_eq_some_iff]
  simp [filter]

/-- **A table is determined by what is found in it.** -/
theorem ext_find? (h : ∀ name, t.find? name = u.find? name) : t = u := by
  have hperm : t.entries.Perm u.entries := by
    refine (List.perm_ext_iff_of_nodup ?_ ?_).2 fun e => ?_
    · exact t.sorted.imp fun hab hab' => hab.ne (congrArg Prod.fst hab')
    · exact u.sorted.imp fun hab hab' => hab.ne (congrArg Prod.fst hab')
    · rw [← find?_eq_some_iff, ← find?_eq_some_iff, h]
  have hentries : t.entries = u.entries :=
    hperm.eq_of_pairwise (fun a b _ _ hab hba => absurd hab hba.not_gt) t.sorted u.sorted
  obtain ⟨_, _⟩ := t
  obtain ⟨_, _⟩ := u
  simpa using hentries

/-! ### Lists of named entries -/

variable {l : List (String × β)}

theorem mem_of_lookup (h : l.lookup name = some b) : (name, b) ∈ l := by
  obtain ⟨l₁, l₂, rfl, -⟩ := List.lookup_eq_some_iff.1 h
  exact List.mem_append_right _ List.mem_cons_self

theorem lookup_map_snd {γ : Type} (f : String → β → γ) (l : List (String × β)) (name : String) :
    (l.map fun e => (e.1, f e.1 e.2)).lookup name = (l.lookup name).map (f name) := by
  induction l with
  | nil => rfl
  | cons e l ih =>
    rw [List.map_cons, List.lookup_cons, List.lookup_cons, ih]
    cases hname : name == e.1 with
    | true => rw [eq_of_beq hname, Option.map_some]
    | false => rfl

/-- An entry is found if all entries of its name are the same. -/
theorem lookup_of_mem (hmem : (name, b) ∈ l) (h : ∀ b', (name, b') ∈ l → b' = b) :
    l.lookup name = some b := by
  cases hlookup : l.lookup name with
  | none => exact absurd hmem fun hmem => by simpa using List.lookup_eq_none_iff.1 hlookup _ hmem
  | some b' => rw [h b' (mem_of_lookup hlookup)]

/-- The table of a list holds the last entry of every name. -/
theorem find?_ofList_eq_lookup (l : List (String × β)) (name : String) :
    (ofList l).find? name = l.reverse.lookup name := by
  have hfold : ∀ t : Table β, (l.foldl (fun t e => t.insert e.1 e.2) t).find? name =
      (l.reverse.lookup name).or (t.find? name) := by
    induction l with
    | nil => simp
    | cons e l ih =>
      intro t
      rw [List.foldl_cons, ih, find?_insert, List.reverse_cons, List.lookup_append, Option.or_assoc,
        List.lookup_cons, List.lookup_nil]
      by_cases hname : name = e.1
      · simp [hname]
      · simp [hname, beq_false_of_ne hname]
  rw [ofList, hfold empty, find?_empty, Option.or_none]

/-- A table made of entries of another table holds those. -/
theorem find?_ofList (h : ∀ e ∈ l, u.find? e.1 = some e.2) (name : String) :
    (ofList l).find? name = if name ∈ l.map (·.1) then u.find? name else none := by
  rw [find?_ofList_eq_lookup]
  split
  · rename_i hmem
    obtain ⟨e, he, rfl⟩ := List.mem_map.1 hmem
    rw [h e he]
    refine lookup_of_mem (List.mem_reverse.2 he) fun b hb => ?_
    exact Option.some.inj ((h _ (List.mem_reverse.1 hb)).symm.trans (h e he))
  · rename_i hmem
    refine List.lookup_eq_none_iff.2 fun e he => bne_iff_ne.2 fun hname => hmem ?_
    exact hname ▸ List.mem_map_of_mem (List.mem_reverse.1 he)

theorem mem_ofList {e : String × β} (h : e ∈ (ofList l).entries) : e ∈ l := by
  have hlookup : l.reverse.lookup e.1 = some e.2 := by
    rw [← find?_ofList_eq_lookup, find?_eq_some_iff]
    exact h
  exact List.mem_reverse.1 (mem_of_lookup hlookup)

/-- Every entry of a list is in its table if entries of one name are the same. -/
theorem find?_ofList_of_mem (h : ∀ e ∈ l, ∀ e' ∈ l, e.1 = e'.1 → e.2 = e'.2) :
    ∀ e ∈ l, (ofList l).find? e.1 = some e.2 := by
  intro e he
  rw [find?_ofList_eq_lookup]
  exact lookup_of_mem (List.mem_reverse.2 he) fun b hb => h _ (List.mem_reverse.1 hb) _ he rfl

end Table

end NetPack
