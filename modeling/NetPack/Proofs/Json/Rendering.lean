import NetPack.Json.Reader
import NetPack.Proofs.Json.Literals

/-!
# Documents are read back as they were written

A document is cut into the tokens that it is made of (`tokensOf`, `Token.cuts_render`), and reading
these tokens puts the document where a value is due (`Reader.foldlM_tokensOf`). Both hold of
documents that are `Faithful`: all their parts can be read, their numbers are numbers, and their
collections do not lie too deep. Such a document is read back from its text (`parse?_render`).
-/

namespace NetPack

namespace Json

open Token

mutual

/-- Every part can be read, and at most `room` collections lie in one another. -/
def Faithful : (room : Nat) → Json → Prop
  | _, .null => True
  | _, .bool _ => True
  | _, .number literal => IsNumber literal.toList
  | _, .string _ => True
  | _, .unreadable => False
  | room, .array elements => ∃ inner, room = inner + 1 ∧ FaithfulAll inner elements
  | room, .object members => ∃ inner, room = inner + 1 ∧ FaithfulMembers inner members

/-- Every part of several documents can be read. -/
def FaithfulAll : (room : Nat) → List Json → Prop
  | _, [] => True
  | room, j :: rest => Faithful room j ∧ FaithfulAll room rest

/-- Every part of the members of an object can be read. -/
def FaithfulMembers : (room : Nat) → List (String × Json) → Prop
  | _, [] => True
  | room, (_, j) :: rest => Faithful room j ∧ FaithfulMembers room rest

end

mutual

/-- The tokens of a document. -/
def tokensOf : Json → List Token
  | .null => [.null]
  | .bool b => [.bool b]
  | .number literal => [.number literal]
  | .string s => [.string s]
  | .unreadable => [.null]
  | .array elements => .openArray :: [.comma].intercalate (tokensOfAll elements) ++ [.closeArray]
  | .object members =>
    .openObject :: [.comma].intercalate (tokensOfMembers members) ++ [.closeObject]

/-- The tokens of several documents. -/
def tokensOfAll : List Json → List (List Token)
  | [] => []
  | j :: rest => tokensOf j :: tokensOfAll rest

/-- The tokens of the members of an object. -/
def tokensOfMembers : List (String × Json) → List (List Token)
  | [] => []
  | (name, j) :: rest => (.string name :: .colon :: tokensOf j) :: tokensOfMembers rest

end

theorem intercalate_cons {α : Type} (separator x : List α) (xs : List (List α)) :
    separator.intercalate (x :: xs) = x ++ xs.flatMap (separator ++ ·) := by
  induction xs generalizing x with
  | nil => simp
  | cons y ys ih =>
    rw [List.intercalate_cons_cons, ih, List.flatMap_cons]
    simp only [List.append_assoc]

/-! ### From characters to tokens -/

namespace Token

/-- The text is cut into these tokens, whatever follows that ends a number. -/
structure Cuts (cs : List Char) (ts : List Token) : Prop where
  /-- Every token takes a character. -/
  length_le : ts.length ≤ cs.length
  /-- The tokens come first, and then those of what follows. -/
  list?_append : ∀ rest, Ends rest → ∀ fuel,
    list? (ts.length + fuel) (cs ++ rest) = (list? fuel rest).map (ts ++ ·)

theorem list?_succ {c : Char} {cs rest : List Char} {t : Token}
    (h : next? (c :: cs) = some (t, rest)) (hblank : isBlank c = false) (fuel : Nat) :
    list? (fuel + 1) (c :: cs) = (list? fuel rest).map (t :: ·) := by
  rw [list?, List.dropWhile_cons_of_neg (by simp [hblank])]
  simp only [h, Option.bind_eq_bind, Option.bind_some]
  exact Option.map_eq_bind.symm

theorem Cuts.nil : Cuts [] [] where
  length_le := Nat.le_refl 0
  list?_append rest _ fuel := by simp

/-- A text of one token. -/
theorem Cuts.single {c : Char} {cs : List Char} {t : Token} (hblank : isBlank c = false)
    (h : ∀ rest, Ends rest → next? (c :: (cs ++ rest)) = some (t, rest)) :
    Cuts (c :: cs) [t] where
  length_le := by simp
  list?_append rest hrest fuel := by
    rw [List.length_singleton, Nat.add_comm]
    exact list?_succ (h rest hrest) hblank fuel

theorem Cuts.append {cs cs' : List Char} {ts ts' : List Token} (h : Cuts cs ts)
    (h' : Cuts cs' ts') (hends : ∀ rest, Ends rest → Ends (cs' ++ rest)) :
    Cuts (cs ++ cs') (ts ++ ts') where
  length_le := by
    rw [List.length_append, List.length_append]
    exact Nat.add_le_add h.length_le h'.length_le
  list?_append rest hrest fuel := by
    rw [List.length_append, Nat.add_assoc, List.append_assoc,
      h.list?_append _ (hends rest hrest), h'.list?_append rest hrest, Option.map_map]
    congr 1
    funext ts''
    exact (List.append_assoc ts ts' ts'').symm

/-- A mark ends a number. -/
theorem ends_cons {c : Char} (hc : c ∈ [',', ':', ']', '\x7d']) (rest : List Char) :
    Ends (c :: rest) := by
  intro d hd
  cases hd
  simp only [List.mem_cons, List.not_mem_nil, or_false] at hc
  rcases hc with rfl | rfl | rfl | rfl <;> decide

/-- A mark in front of a text. -/
theorem Cuts.mark {c : Char} {cs : List Char} {t : Token} {ts : List Token}
    (hblank : isBlank c = false) (h : ∀ rest, next? (c :: rest) = some (t, rest))
    (hcs : Cuts cs ts) : Cuts (c :: cs) (t :: ts) where
  length_le := Nat.succ_le_succ hcs.length_le
  list?_append rest hrest fuel := by
    rw [List.cons_append, List.length_cons, Nat.succ_add, list?_succ (h _) hblank,
      hcs.list?_append rest hrest, Option.map_map]
    rfl

theorem ends_flatMap (css : List (List Char)) {rest : List Char} (h : Ends rest) :
    Ends (css.flatMap ([','] ++ ·) ++ rest) := by
  cases css with
  | nil => exact h
  | cons cs css => exact ends_cons (by decide) _

theorem Cuts.intercalate {css : List (List Char)} {tss : List (List Token)}
    (h : List.Forall₂ Cuts css tss) :
    Cuts ([','].intercalate css) ([Token.comma].intercalate tss) := by
  cases h with
  | nil => exact .nil
  | @cons cs ts css tss hhead htail =>
    rw [intercalate_cons, intercalate_cons]
    refine hhead.append ?_ fun _ => ends_flatMap css
    clear hhead
    induction htail with
    | nil => exact .nil
    | @cons cs ts css tss hcs _ ih =>
      exact (Cuts.mark rfl (fun _ => rfl) hcs).append ih fun _ => ends_flatMap css

/-- A text between two brackets. -/
theorem Cuts.enclosed {opening closing : Char} {cs : List Char} {t t' : Token} {ts : List Token}
    (hblank : isBlank opening = false) (hblank' : isBlank closing = false)
    (hopening : ∀ rest, next? (opening :: rest) = some (t, rest))
    (hclosing : ∀ rest, next? (closing :: rest) = some (t', rest))
    (hends : closing ∈ [',', ':', ']', '\x7d']) (h : Cuts cs ts) :
    Cuts (opening :: cs ++ [closing]) (t :: ts ++ [t']) :=
  (Cuts.mark hblank hopening h).append (.mark hblank' hclosing .nil)
    fun rest _ => ends_cons hends rest

theorem cuts_quoted (s : String) : Cuts (quoted s).toList [.string s] := by
  have hquoted : (quoted s).toList = '"' :: (s.toList.flatMap escapeChar ++ ['"']) := by
    simp [quoted]
  have hnext := next?_quoted s
  rw [hquoted] at hnext ⊢
  exact .single rfl fun rest _ => hnext rest

theorem cuts_number {literal : String} (h : IsNumber literal.toList) :
    Cuts literal.toList [.number literal] := by
  obtain ⟨c, cs, heq, hc⟩ := h.exists_cons
  have hblank : isBlank c = false := by
    have hnone : ∀ b ∈ [' ', '\n', '\t', '\r'], ¬ (b = '-' ∨ b.isDigit) := by
      simp [Char.isDigit]
    cases hblank : isBlank c with
    | false => rfl
    | true => exact absurd hc (hnone c (by simpa [isBlank, or_assoc] using hblank))
  have hnext (rest : List Char) (hrest : Ends rest) := next?_number h hrest
  rw [String.ofList_toList] at hnext
  rw [heq] at hnext ⊢
  exact .single hblank hnext

mutual

theorem cuts_render {room : Nat} : ∀ {j : Json}, Faithful room j → Cuts j.render.toList (tokensOf j)
  | .null, _ => .single rfl fun _ _ => rfl
  | .bool true, _ => .single rfl fun _ _ => rfl
  | .bool false, _ => .single rfl fun _ _ => rfl
  | .number literal, h => by
    rw [Faithful] at h
    rw [render, tokensOf]
    exact cuts_number h
  | .string s, _ => by
    rw [render, tokensOf]
    exact cuts_quoted s
  | .unreadable, h => by
    rw [Faithful] at h
    exact h.elim
  | .array elements, h => by
    rw [Faithful] at h
    obtain ⟨inner, -, h⟩ := h
    have hinner := Cuts.intercalate (cuts_renderAll h)
    simpa [render, tokensOf, String.toList_intercalate] using
      Cuts.enclosed rfl rfl (fun _ => rfl) (fun _ => rfl) (by decide) hinner
  | .object members, h => by
    rw [Faithful] at h
    obtain ⟨inner, -, h⟩ := h
    have hinner := Cuts.intercalate (cuts_renderMembers h)
    simpa [render, tokensOf, String.toList_intercalate] using
      Cuts.enclosed rfl rfl (fun _ => rfl) (fun _ => rfl) (by decide) hinner

theorem cuts_renderAll {room : Nat} : ∀ {js : List Json}, FaithfulAll room js →
    List.Forall₂ Cuts ((renderAll js).map String.toList) (tokensOfAll js)
  | [], _ => by simp [renderAll, tokensOfAll]
  | j :: rest, h => by
    rw [FaithfulAll] at h
    rw [renderAll, tokensOfAll]
    exact .cons (cuts_render h.1) (cuts_renderAll h.2)

theorem cuts_renderMembers {room : Nat} : ∀ {ms : List (String × Json)}, FaithfulMembers room ms →
    List.Forall₂ Cuts ((renderMembers ms).map String.toList) (tokensOfMembers ms)
  | [], _ => by simp [renderMembers, tokensOfMembers]
  | (name, j) :: rest, h => by
    rw [FaithfulMembers] at h
    have hmember := (cuts_quoted name).append (.mark rfl (fun _ => rfl) (cuts_render h.1))
      fun rest _ => ends_cons (c := ':') (by decide) _
    rw [renderMembers, tokensOfMembers]
    refine .cons ?_ (cuts_renderMembers h.2)
    simpa using hmember

end

end Token

/-! ### From tokens to documents -/

namespace Reader

theorem objectOf_reverse (ms : List (String × Json)) :
    objectOf ((ms.map fun m => (some m.1, m.2)).reverse) = .object ms := by
  have hms : ∀ f : Option String × Json → Option (String × Json),
      (∀ m, f (some m.1, m.2) = some m) →
      (ms.map fun m => (some m.1, m.2)).mapM f = some ms := by
    intro f hf
    induction ms with
    | nil => rfl
    | cons m ms ih => simp [hf, ih]
  rw [objectOf, List.reverse_reverse, hms _ fun _ => rfl]

theorem exists_tokensOf {room : Nat} {j : Json} (h : Faithful room j) :
    ∃ t ts, tokensOf j = t :: ts ∧ t ≠ .closeArray := by
  cases j with
  | unreadable =>
    rw [Faithful] at h
    exact h.elim
  | array elements => exact ⟨.openArray, _, by rw [tokensOf, List.cons_append], by simp⟩
  | object members => exact ⟨.openObject, _, by rw [tokensOf, List.cons_append], by simp⟩
  | _ => exact ⟨_, _, by rw [tokensOf], by simp⟩

/-- A document may stand where an array could also end. -/
theorem foldlM_valueOrClose {room : Nat} {j : Json} (h : Faithful room j) (stack : List Open)
    (ts : List Token) :
    (tokensOf j ++ ts).foldlM step ⟨stack, .valueOrClose⟩ =
      (tokensOf j ++ ts).foldlM step ⟨stack, .value⟩ := by
  obtain ⟨t, ts', heq, ht⟩ := exists_tokensOf h
  have hstep : step ⟨stack, .valueOrClose⟩ t = step ⟨stack, .value⟩ t := by
    cases t <;> first | rfl | exact absurd rfl ht
  rw [heq, List.cons_append, List.foldlM_cons, List.foldlM_cons, hstep]

theorem close_of_lt {j : Json} {outer : List Open} (h : outer.length < maxDepth) :
    close j outer = complete j outer := by
  rw [close, if_pos h]

mutual

/-- **The tokens of a document put it where a value is due**, if the open collections leave room
for those of the document. -/
theorem foldlM_tokensOf {room : Nat} {stack : List Open} (hroom : room + stack.length ≤ maxDepth)
    (ts : List Token) : ∀ {j : Json}, Faithful room j →
      (tokensOf j ++ ts).foldlM step ⟨stack, .value⟩ = ts.foldlM step (complete j stack)
  | .null, _ | .bool _, _ | .number _, _ | .string _, _ => by
    rw [tokensOf, List.singleton_append, List.foldlM_cons]
    rfl
  | .unreadable, h => by
    rw [Faithful] at h
    exact h.elim
  | .array [], h => by
    rw [Faithful] at h
    obtain ⟨inner, rfl, -⟩ := h
    have hclose : close (.array []) stack = complete (.array []) stack := close_of_lt (by omega)
    rw [tokensOf, tokensOfAll, ← hclose]
    rfl
  | .array (j :: rest), h => by
    rw [Faithful] at h
    obtain ⟨inner, rfl, h⟩ := h
    rw [FaithfulAll] at h
    have htokens : tokensOf (.array (j :: rest)) ++ ts = .openArray :: (tokensOf j ++
        ((tokensOfAll rest).flatMap ([Token.comma] ++ ·) ++ .closeArray :: ts)) := by
      simp [tokensOf, tokensOfAll, intercalate_cons]
    rw [htokens, List.foldlM_cons]
    change (tokensOf j ++ _).foldlM step ⟨.array [] :: stack, .valueOrClose⟩ = _
    rw [foldlM_valueOrClose h.1, foldlM_tokensOf (by simp; omega) _ h.1]
    exact foldlM_tokensOfAll (by omega) ts h.2 [j]
  | .object [], h => by
    rw [Faithful] at h
    obtain ⟨inner, rfl, -⟩ := h
    have hclose : close (.object []) stack = complete (.object []) stack := close_of_lt (by omega)
    rw [tokensOf, tokensOfMembers, ← hclose]
    rfl
  | .object ((name, j) :: rest), h => by
    rw [Faithful] at h
    obtain ⟨inner, rfl, h⟩ := h
    rw [FaithfulMembers] at h
    have htokens : tokensOf (.object ((name, j) :: rest)) ++ ts =
        .openObject :: .string name :: .colon :: (tokensOf j ++
          ((tokensOfMembers rest).flatMap ([Token.comma] ++ ·) ++ .closeObject :: ts)) := by
      simp [tokensOf, tokensOfMembers, intercalate_cons]
    rw [htokens, List.foldlM_cons]
    change (tokensOf j ++ _).foldlM step ⟨.object [] (some name) :: stack, .value⟩ = _
    rw [foldlM_tokensOf (by simp; omega) _ h.1]
    exact foldlM_tokensOfMembers (by omega) ts h.2 [(name, j)] _

/-- The elements of an array after those that were read, up to its end. -/
theorem foldlM_tokensOfAll {room : Nat} {outer : List Open} (hroom : room + outer.length < maxDepth)
    (ts : List Token) : ∀ {js : List Json}, FaithfulAll room js → ∀ elements : List Json,
      ((tokensOfAll js).flatMap ([Token.comma] ++ ·) ++ .closeArray :: ts).foldlM step
          ⟨.array elements.reverse :: outer, .separator⟩ =
        ts.foldlM step (complete (.array (elements ++ js)) outer)
  | [], _, elements => by
    rw [List.append_nil, ← close_of_lt (by omega), ← List.reverse_reverse elements,
      List.reverse_reverse elements.reverse]
    rfl
  | j :: rest, h, elements => by
    rw [FaithfulAll] at h
    have hrest := foldlM_tokensOfAll hroom ts h.2 (elements ++ [j])
    rw [List.reverse_append, List.append_assoc] at hrest
    rw [tokensOfAll, List.flatMap_cons, List.append_assoc, List.append_assoc,
      List.singleton_append, List.foldlM_cons]
    change (tokensOf j ++ _).foldlM step ⟨.array elements.reverse :: outer, .value⟩ = _
    rw [foldlM_tokensOf (by simp; omega) _ h.1]
    exact hrest

/-- The members of an object after those that were read, up to its end. -/
theorem foldlM_tokensOfMembers {room : Nat} {outer : List Open}
    (hroom : room + outer.length < maxDepth) (ts : List Token) :
    ∀ {ms : List (String × Json)}, FaithfulMembers room ms →
      ∀ (members : List (String × Json)) (name : Option String),
        ((tokensOfMembers ms).flatMap ([Token.comma] ++ ·) ++ .closeObject :: ts).foldlM step
            ⟨.object (members.map fun m => (some m.1, m.2)).reverse name :: outer, .separator⟩ =
          ts.foldlM step (complete (.object (members ++ ms)) outer)
  | [], _, members, name => by
    rw [List.append_nil, ← close_of_lt (by omega), ← objectOf_reverse]
    rfl
  | (name', j) :: rest, h, members, name => by
    rw [FaithfulMembers] at h
    have hrest := foldlM_tokensOfMembers hroom ts h.2 (members ++ [(name', j)]) (some name')
    rw [List.map_append, List.reverse_append, List.append_assoc] at hrest
    rw [tokensOfMembers, List.flatMap_cons, List.append_assoc, List.append_assoc,
      List.singleton_append, List.foldlM_cons]
    change (tokensOf j ++ _).foldlM step
      ⟨.object (members.map fun m => (some m.1, m.2)).reverse (some name') :: outer, .value⟩ = _
    rw [foldlM_tokensOf (by simp; omega) _ h.1]
    exact hrest

end

end Reader

/-- **A faithful document is read back from its text**, also with blanks behind it. -/
theorem parse?_render {j : Json} (h : Faithful Reader.maxDepth j) (blanks : Nat) :
    parse? (j.render ++ "".pushn ' ' blanks) = some j := by
  have hends : Token.Ends (List.replicate blanks ' ') := by
    intro c hc
    obtain rfl := List.eq_of_mem_replicate (List.mem_of_mem_head? hc)
    decide
  have hnone (fuel : Nat) : Token.list? (fuel + 1) (List.replicate blanks ' ') = some [] := by
    have hdrop : (List.replicate blanks ' ').dropWhile Token.isBlank = [] :=
      List.dropWhile_eq_nil_iff.2 fun c hc => by rw [List.eq_of_mem_replicate hc]; rfl
    rw [Token.list?, hdrop]
  have hcuts := Token.cuts_render h
  have htokens : tokens? (j.render ++ "".pushn ' ' blanks) = some (tokensOf j) := by
    obtain ⟨fuel, hfuel⟩ := Nat.exists_eq_add_of_le hcuts.length_le
    have hlength : (j.render ++ "".pushn ' ' blanks).length + 1 =
        (tokensOf j).length + (fuel + blanks + 1) := by
      rw [String.length_append, ← String.length_toList, hfuel, String.length_pushn]
      simp
      omega
    rw [tokens?, hlength, String.toList_append, Token.toList_pushn,
      hcuts.list?_append _ hends, hnone]
    simp
  have hread : (tokensOf j ++ []).foldlM Reader.step ⟨[], .value⟩ = some (Reader.complete j []) :=
    Reader.foldlM_tokensOf (Nat.le_refl _) [] h
  rw [List.append_nil] at hread
  rw [parse?, htokens, Option.bind_eq_bind, Option.bind_some, Reader.start, hread]
  rfl

end Json

end NetPack
