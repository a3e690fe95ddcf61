/-!
# Tables of named entries

A `Table β` holds one entry of type `β` for each of finitely many names, in the order of the names.
The order is part of the type, so two tables with the same entries are equal, and every text or
file written from a table is determined by its entries.
-/

namespace NetPack

/-- Named entries in strictly increasing order of their names. -/
structure Table (β : Type) where
  /-- The entries. -/
  entries : List (String × β)
  /-- Names increase, so none occurs twice. -/
  sorted : entries.Pairwise fun a b => a.1 < b.1

namespace Table

variable {β γ : Type}

/-- The table without entries. -/
def empty : Table β := ⟨[], .nil⟩

instance : Inhabited (Table β) := ⟨empty⟩

/-- The entry of a name. -/
def find? (t : Table β) (name : String) : Option β :=
  (t.entries.find? fun e => e.1 == name).map (·.2)

/-- Does the table have an entry of this name? -/
def contains (t : Table β) (name : String) : Bool := (t.find? name).isSome

/-- The names, in increasing order. -/
def names (t : Table β) : List String := t.entries.map (·.1)

/-- The number of entries. -/
def size (t : Table β) : Nat := t.entries.length

/-- Puts an entry into a list sorted by name, in place of an entry of the same name. -/
def place (name : String) (b : β) : List (String × β) → List (String × β)
  | [] => [(name, b)]
  | e :: rest =>
    if name < e.1 then (name, b) :: e :: rest
    else if name = e.1 then (name, b) :: rest
    else e :: place name b rest

theorem mem_place {name : String} {b : β} {x : String × β} :
    ∀ {l : List (String × β)}, x ∈ place name b l → x = (name, b) ∨ x ∈ l
  | [], h => by simpa [place] using h
  | e :: rest, h => by
    unfold place at h
    split at h
    · simpa using h
    · split at h
      · rcases List.mem_cons.1 h with h | h
        · exact .inl h
        · exact .inr (List.mem_cons_of_mem _ h)
      · rcases List.mem_cons.1 h with h | h
        · exact .inr (h ▸ List.mem_cons_self)
        · rcases mem_place h with h | h
          · exact .inl h
          · exact .inr (List.mem_cons_of_mem _ h)

theorem pairwise_place {name : String} {b : β} :
    ∀ {l : List (String × β)}, l.Pairwise (fun a b => a.1 < b.1) →
      (place name b l).Pairwise fun a b => a.1 < b.1
  | [], _ => by simp [place]
  | e :: rest, h => by
    obtain ⟨head, tail⟩ := List.pairwise_cons.1 h
    unfold place
    split
    · rename_i lt
      refine List.pairwise_cons.2 ⟨fun x hx => ?_, h⟩
      rcases List.mem_cons.1 hx with rfl | hx
      · exact lt
      · exact String.lt_trans lt (head x hx)
    · split
      · rename_i eq
        exact List.pairwise_cons.2 ⟨fun x hx => eq ▸ head x hx, tail⟩
      · rename_i notLt ne
        refine List.pairwise_cons.2 ⟨fun x hx => ?_, pairwise_place tail⟩
        rcases mem_place hx with rfl | hx
        · rcases Std.le_iff_lt_or_eq.1 (Std.not_lt.1 notLt) with lt | eq
          · exact lt
          · exact absurd eq.symm ne
        · exact head x hx

/-- Sets the entry of a name. -/
def insert (t : Table β) (name : String) (b : β) : Table β :=
  ⟨place name b t.entries, pairwise_place t.sorted⟩

/-- Removes the entry of a name. -/
def erase (t : Table β) (name : String) : Table β :=
  ⟨t.entries.filter fun e => e.1 != name, t.sorted.filter _⟩

/-- Keeps the entries whose name and content pass a test. -/
def filter (t : Table β) (p : String → β → Bool) : Table β :=
  ⟨t.entries.filter fun e => p e.1 e.2, t.sorted.filter _⟩

/-- The table of a list of entries; of two entries of one name the later one stays. -/
def ofList (l : List (String × β)) : Table β :=
  l.foldl (fun t e => t.insert e.1 e.2) empty

/-- Changes the contents and keeps the names. -/
def map (f : β → γ) (t : Table β) : Table γ :=
  ⟨t.entries.map fun e => (e.1, f e.2), t.sorted.map _ fun _ _ h => h⟩

end Table

end NetPack
