import NetPack.Proofs.Toml.Numbers
import NetPack.Toml.Reader
import NetPack.Toml.Writer

/-!
# Documents that are read back from their text

Strings, numbers and arrays of them are read back from their texts wherever a line, an element or
an array ends behind them (`ReadsBack`). A text is read line by line; `Progress.Reads` says that a
piece of text leads from one state of the reader to another one whatever follows, so that the states
of the blocks of a document can be chained. Tables under a header are read into a state with one
member more, and arrays of tables into one whose last member grows with each header.

The documents that are covered have members with bare keys, tables of plain members and arrays of
such tables, but no deeper tables (`IsShallow`). They are read back with their plain members before
those that have headers (`parse?_render`).
-/

namespace NetPack

namespace Toml

open Json.Token (IsDigits IsWhole)

variable {depth fuel n : Nat} {s key : String} {v : Toml} {vs : List Toml} {cs rest : List Char}
  {c : Char}

/-! ### Values -/

/-- The characters that are skipped between elements, or start what is skipped. -/
def skipped : List Char := [' ', '\t', '\n', '\r', '#']

/-- The text goes on with something else than blanks, line ends, comments and the end of an
array. -/
def Starts (cs : List Char) : Prop := ∃ c tail, cs = c :: tail ∧ c ∉ skipped ∧ c ≠ ']'

/-- A value is read back from its text. -/
structure ReadsBack (depth : Nat) (v : Toml) : Prop where
  starts : Starts (valueText v).toList
  read : ∀ rest, Ends rest → value? depth ((valueText v).toList ++ rest) = some (v, rest)

theorem exists_stringText (s : String) :
    ∃ c tail, (stringText s).toList = c :: tail ∧ (c = '"' ∨ c = '\'') := by
  unfold stringText formText
  cases stringForm s.toList <;> simp

theorem readsBack_string (depth : Nat) (s : String) : ReadsBack depth (string s) := by
  obtain ⟨c, tail, htext, hc⟩ := exists_stringText s
  constructor
  · refine ⟨c, tail, htext, ?_⟩
    rcases hc with rfl | rfl <;> decide
  · intro rest hrest
    have hread := string?_stringText s hrest
    rw [valueText]
    rw [htext, List.cons_append] at hread ⊢
    rcases hc with rfl | rfl <;> simp [value?, hread]

theorem not_mem_of_digit {cs : List Char} (hc : c.isDigit ∨ c ∈ ['-', 'i'])
    (hcs : cs.all fun d => !d.isDigit && d != '-' && d != 'i') : c ∉ cs := by
  intro hmem
  have hother := List.all_eq_true.1 hcs c hmem
  simp only [Bool.and_eq_true, Bool.not_eq_true', bne_iff_ne] at hother
  rcases hc with hc | hc
  · rw [hother.1.1] at hc
    cases hc
  · simp [hother.1.2, hother.2] at hc

theorem value?_of_startsNumber (h : StartsNumber cs) (depth : Nat) :
    value? depth cs = number? cs := by
  obtain ⟨c, tail, rfl, hc⟩ := h
  have hother : c ∉ ['"', '\'', '[', '\x7b', 't', 'f'] := not_mem_of_digit hc (by decide)
  simp only [List.mem_cons, List.not_mem_nil, or_false, not_or] at hother
  unfold value?
  split <;> first | rfl | simp_all

theorem readsBack_of_number (hstart : StartsNumber (valueText v).toList)
    (hread : ∀ rest, Ends rest → number? ((valueText v).toList ++ rest) = some (v, rest))
    (depth : Nat) : ReadsBack depth v := by
  obtain ⟨c, tail, htext, hc⟩ := hstart
  constructor
  · have hclose : c ∉ [']'] := not_mem_of_digit hc (by decide)
    exact ⟨c, tail, htext, not_mem_of_digit hc (by decide), by simpa using hclose⟩
  · intro rest hrest
    rw [value?_of_startsNumber ⟨c, tail ++ rest, by rw [htext, List.cons_append], hc⟩,
      hread rest hrest]

theorem readsBack_integer (hn : n ≤ maxInteger) (depth : Nat) :
    ReadsBack depth (integer (Int.ofNat n)) := by
  have hrepr : (valueText (integer (Int.ofNat n))).toList = n.repr.toList := by
    rw [valueText]
    rfl
  refine readsBack_of_number ?_ (fun rest hrest => ?_) depth
  · rw [hrepr, Nat.toList_repr]
    simpa using startsNumber_digits (Json.Token.isDigits_toDigits n) []
  · rw [hrepr]
    exact number?_repr hn hrest

theorem readsBack_float {x : Float} (h : x.isNaN = false) (depth : Nat) :
    ReadsBack depth (float x) := by
  have htext : valueText (float x) = floatNotation.double x := by rw [valueText]
  refine readsBack_of_number ?_ (fun rest hrest => ?_) depth
  · rw [htext]
    exact startsNumber_double h
  · rw [htext]
    exact number?_double h hrest

/-! ### Arrays -/

theorem skipGap_blanks (hc : c ∉ skipped) (n : Nat) (cs : List Char) :
    skipGap (List.replicate n ' ' ++ c :: cs) = c :: cs := by
  have hgap : ¬ isGap c := by
    simp only [skipped, List.mem_cons, List.not_mem_nil, or_false, not_or] at hc
    simp [isGap, hc]
  have hblanks : ∀ d ∈ List.replicate n ' ', isGap d := fun d hd => by
    rw [List.eq_of_mem_replicate hd]
    rfl
  rw [skipGap, List.dropWhile_append_of_pos hblanks, List.dropWhile_cons_of_neg hgap]

theorem lineEnd?_skipComment (hc : c ∉ skipped) (cs : List Char) :
    lineEnd? (skipComment (c :: cs)) = none := by
  simp only [skipped, List.mem_cons, List.not_mem_nil, or_false, not_or] at hc
  obtain ⟨-, -, hline, hreturn, hcomment⟩ := hc
  have hskip : skipComment (c :: cs) = c :: cs := by
    unfold skipComment
    split
    · exact absurd (List.cons.inj ‹_›).1 hcomment
    · rfl
  rw [hskip]
  unfold lineEnd?
  split
  · exact absurd (List.cons.inj ‹_›).1 hline
  · exact absurd (List.cons.inj ‹_›).1 hreturn
  · rfl

theorem skipLines_blanks (hc : c ∉ skipped) (fuel n : Nat) (cs : List Char) :
    skipLines (fuel + 1) (List.replicate n ' ' ++ c :: cs) = c :: cs := by
  simp only [skipLines, skipGap_blanks hc, lineEnd?_skipComment hc]

theorem skipBetween_cons (hc : c ∉ skipped) (cs : List Char) : skipBetween (c :: cs) = c :: cs :=
  skipLines_blanks hc cs.length 0 cs

theorem skipBetween_line (hc : c ∉ skipped) (n : Nat) (cs : List Char) :
    skipBetween ('\n' :: (List.replicate n ' ' ++ c :: cs)) = c :: cs := by
  have hline (text : List Char) : skipBetween ('\n' :: text) = skipLines text.length text := rfl
  have hlength : (List.replicate n ' ' ++ c :: cs).length = n + cs.length + 1 := by
    simp [Nat.add_assoc]
  rw [hline, hlength, skipLines_blanks hc]

theorem valueTexts_eq (vs : List Toml) : valueTexts vs = vs.map valueText := by
  induction vs with
  | nil => rfl
  | cons v vs ih => rw [valueTexts, ih, List.map_cons]

theorem ends_cons (hc : c ∈ ['\n', ',', ']']) (cs : List Char) : Ends (c :: cs) := ⟨c, cs, rfl, hc⟩

/-- An element is read, whatever is skipped in front of it. -/
theorem elements?_cons {text : List Char} (hv : ReadsBack depth v)
    (htext : skipBetween text = (valueText v).toList ++ rest) (hrest : Ends rest) :
    elements? (value? depth) (fuel + 1) text =
      (match skipBetween rest with
      | ',' :: rest => do
        let (vs, rest) ← elements? (value? depth) fuel rest
        return (v :: vs, rest)
      | ']' :: rest => return ([v], rest)
      | _ => none) := by
  obtain ⟨c, tail, hstart, -, hc⟩ := hv.starts
  rw [elements?, htext]
  split
  · rename_i heq
    rw [hstart] at heq
    exact absurd (List.cons.inj heq).1 hc
  · rw [hv.read rest hrest]
    rfl

/-- The elements of an array with a line for each of them. -/
def elementLines (vs : List Toml) : List Char :=
  vs.flatMap fun v => '\n' :: (List.replicate 4 ' ' ++ ((valueText v).toList ++ [',']))

theorem elementLines_cons (v : Toml) (vs : List Toml) :
    elementLines (v :: vs) =
      '\n' :: (List.replicate 4 ' ' ++ ((valueText v).toList ++ ',' :: elementLines vs)) := by
  simp [elementLines]

theorem length_le_elementLines (vs : List Toml) : vs.length ≤ (elementLines vs).length := by
  induction vs with
  | nil => exact Nat.zero_le _
  | cons v vs ih =>
    rw [elementLines_cons]
    simp only [List.length_cons, List.length_append]
    omega

theorem elements?_elementLines (h : ∀ v ∈ vs, ReadsBack depth v) (hfuel : vs.length < fuel)
    (rest : List Char) :
    elements? (value? depth) fuel (elementLines vs ++ '\n' :: ']' :: rest) = some (vs, rest) := by
  induction vs generalizing fuel with
  | nil =>
    have hskip : skipBetween ('\n' :: ']' :: rest) = ']' :: rest :=
      skipBetween_line (by decide) 0 rest
    obtain ⟨fuel, rfl⟩ := Nat.exists_eq_add_one_of_ne_zero (Nat.ne_zero_of_lt hfuel)
    simp [elements?, elementLines, hskip]
  | cons v vs ih =>
    obtain ⟨fuel, rfl⟩ := Nat.exists_eq_add_one_of_ne_zero (Nat.ne_zero_of_lt hfuel)
    obtain ⟨hv, hvs⟩ := List.forall_mem_cons.1 h
    obtain ⟨c, tail, hstart, hc, -⟩ := hv.starts
    have hskip : skipBetween (elementLines (v :: vs) ++ '\n' :: ']' :: rest) =
        (valueText v).toList ++ ',' :: (elementLines vs ++ '\n' :: ']' :: rest) := by
      rw [elementLines_cons, hstart]
      simpa using skipBetween_line hc 4 (tail ++ ',' :: (elementLines vs ++ '\n' :: ']' :: rest))
    rw [elements?_cons hv hskip (ends_cons (by decide) _), skipBetween_cons (by decide)]
    simp [ih hvs (Nat.lt_of_succ_lt_succ hfuel)]

theorem toList_arrayText_lines (v w : Toml) (vs : List Toml) :
    (arrayText (valueTexts (v :: w :: vs))).toList =
      '[' :: (elementLines (v :: w :: vs) ++ ['\n', ']']) := by
  rw [valueTexts_eq]
  simp [arrayText, elementLines, List.flatMap_map, List.replicate]

theorem value?_array (depth : Nat) (cs : List Char) :
    value? (depth + 1) ('[' :: cs) =
      (elements? (value? depth) (cs.length + 1) cs).map fun (vs, rest) => (array vs, rest) := by
  rw [value?]

theorem readsBack_array (h : ∀ v ∈ vs, ReadsBack depth v) : ReadsBack (depth + 1) (array vs) := by
  match vs with
  | [] =>
    have htext : (valueText (array [])).toList = ['[', ']'] := by
      rw [valueText]
      simp [valueTexts, arrayText]
    refine ⟨⟨'[', [']'], htext, by decide, by decide⟩, fun rest _ => ?_⟩
    rw [htext, List.cons_append, value?_array, elements?]
    simp [skipBetween_cons (c := ']') (by decide)]
  | [v] =>
    have htext : (valueText (array [v])).toList = '[' :: ((valueText v).toList ++ [']']) := by
      rw [valueText]
      simp [valueTexts, arrayText]
    refine ⟨⟨'[', _, htext, by decide, by decide⟩, fun rest _ => ?_⟩
    have hv := h v List.mem_cons_self
    obtain ⟨c, tail, hstart, hc, -⟩ := hv.starts
    have hskip : skipBetween ((valueText v).toList ++ ']' :: rest) =
        (valueText v).toList ++ ']' :: rest := by
      rw [hstart]
      exact skipBetween_cons hc _
    rw [htext, List.cons_append, List.append_assoc, List.singleton_append, value?_array,
      elements?_cons hv hskip (ends_cons (by decide) rest), skipBetween_cons (by decide)]
    rfl
  | v :: w :: vs =>
    have htext : (valueText (array (v :: w :: vs))).toList = _ :=
      (congrArg String.toList (valueText.eq_6 _)).trans (toList_arrayText_lines v w vs)
    refine ⟨⟨'[', _, htext, by decide, by decide⟩, fun rest _ => ?_⟩
    have hlength := length_le_elementLines (v :: w :: vs)
    have hfuel : (v :: w :: vs).length <
        (elementLines (v :: w :: vs) ++ '\n' :: ']' :: rest).length + 1 := by
      simp at hlength ⊢
      omega
    have hread := elements?_elementLines h hfuel rest
    rw [htext, List.cons_append, List.append_assoc, value?_array]
    exact congrArg (Option.map _) hread

/-! ### Keys and pairs -/

/-- A key that is written without quotes. -/
def IsBareKey (key : String) : Prop := key ≠ "" ∧ ∀ c ∈ key.toList, isBare c

instance (key : String) : Decidable (IsBareKey key) :=
  decidable_of_iff (key ≠ "" ∧ key.toList.all isBare = true) (by rw [List.all_eq_true, IsBareKey])

theorem IsBareKey.keyText_eq (hkey : IsBareKey key) : keyText key = key := by
  have hall : key.toList.all isBare := List.all_eq_true.2 hkey.2
  simp [keyText, hall, hkey.1]

theorem IsBareKey.exists_cons (hkey : IsBareKey key) :
    ∃ c tail, key.toList = c :: tail ∧ isBare c := by
  have hne : key.toList ≠ [] := by simpa using hkey.1
  obtain ⟨c, tail, heq⟩ := List.exists_cons_of_ne_nil hne
  exact ⟨c, tail, heq, hkey.2 c (heq ▸ List.mem_cons_self)⟩

/-- No letter, no digit, no underscore and no hyphen. -/
theorem ne_of_isBare (hc : isBare c) {d : Char} (hd : isBare d = false) : c ≠ d := by
  rintro rfl
  rw [hc] at hd
  cases hd

theorem skipGap_of_isBare (hc : isBare c) (cs : List Char) : skipGap (c :: cs) = c :: cs :=
  List.dropWhile_cons_of_neg (by simp [isGap, ne_of_isBare hc (d := ' ') rfl,
    ne_of_isBare hc (d := '\t') rfl])

theorem keyPart?_bare (hkey : IsBareKey key) (hrest : ∀ c ∈ rest.head?, isBare c = false) :
    keyPart? (key.toList ++ rest) = some (key, rest) := by
  obtain ⟨c, tail, heq, hc⟩ := hkey.exists_cons
  have hspan : (key.toList ++ rest).span isBare = (key.toList, rest) := by
    have hstop : rest.takeWhile isBare = [] ∧ rest.dropWhile isBare = rest := by
      cases rest with
      | nil => exact ⟨rfl, rfl⟩
      | cons d rest => simp [hrest d rfl]
    rw [List.span_eq_takeWhile_dropWhile, List.takeWhile_append_of_pos hkey.2,
      List.dropWhile_append_of_pos hkey.2, hstop.1, hstop.2, List.append_nil]
  unfold keyPart?
  split
  · rename_i hquote
    rw [heq] at hquote
    exact absurd (List.cons.inj hquote).1 (ne_of_isBare hc rfl)
  · rename_i hquote
    rw [heq] at hquote
    exact absurd (List.cons.inj hquote).1 (ne_of_isBare hc rfl)
  · rw [hspan, heq]
    simp [← heq]

/-- A key without quotes has one part. -/
theorem key?_bare (hkey : IsBareKey key) (hrest : ∀ c ∈ rest.head?, isBare c = false)
    (hpoint : ∀ tail, skipGap rest ≠ '.' :: tail) :
    key? (key.toList ++ rest) = some (([], key), skipGap rest) := by
  have hpart := keyPart?_bare hkey hrest
  obtain ⟨c, tail, heq, hc⟩ := hkey.exists_cons
  have hgap : skipGap (key.toList ++ rest) = key.toList ++ rest := by
    rw [heq]
    exact skipGap_of_isBare hc _
  have hparts : keyParts? maxDepth (key.toList ++ rest) = some ([key], skipGap rest) := by
    rw [maxDepth, keyParts?, hgap, hpart]
    dsimp only [Option.bind_eq_bind, Option.bind_some]
    split
    · exact absurd ‹_› (hpoint _)
    · rfl
  simp [key?, hparts]

theorem pair?_append (hkey : IsBareKey key) (hv : ReadsBack depth v) (hrest : Ends rest) :
    pair? (value? depth) (key.toList ++ ' ' :: '=' :: ' ' :: ((valueText v).toList ++ rest)) =
      some (([], key, v), rest) := by
  obtain ⟨c, tail, heq, hc, -⟩ := hv.starts
  have hread := hv.read rest hrest
  have hgap : skipGap (' ' :: ((valueText v).toList ++ rest)) = (valueText v).toList ++ rest := by
    rw [heq]
    exact skipGap_blanks hc 1 _
  have hequals : skipGap (' ' :: '=' :: ' ' :: ((valueText v).toList ++ rest)) =
      '=' :: ' ' :: ((valueText v).toList ++ rest) := rfl
  rw [pair?, key?_bare hkey]
  · simp [hequals, hgap, hread]
  · simp [isBare]
  · simp [hequals]

/-! ### Lines -/

namespace Progress

variable {p q r : Progress} {text text' : List Char}

/-- The text leads from one state of the reader to another one, whatever follows. Every line takes
one unit of fuel and at least one character. -/
def Reads (p : Progress) (text : List Char) (q : Progress) : Prop :=
  ∀ rest fuel, (text ++ rest).length < fuel →
    ∃ fuel', rest.length < fuel' ∧ lines? fuel p (text ++ rest) = lines? fuel' q rest

theorem Reads.refl (p : Progress) : Reads p [] p := fun _ fuel h => ⟨fuel, h, rfl⟩

theorem Reads.trans (h : Reads p text q) (h' : Reads q text' r) : Reads p (text ++ text') r := by
  intro rest fuel hfuel
  rw [List.append_assoc] at hfuel ⊢
  obtain ⟨fuel', hfuel', hread⟩ := h (text' ++ rest) fuel hfuel
  obtain ⟨fuel'', hfuel'', hread'⟩ := h' rest fuel' hfuel'
  exact ⟨fuel'', hfuel'', hread.trans hread'⟩

/-- The step of one line. -/
theorem Reads.of_line {text : List Char}
    (h : ∀ rest fuel, lines? (fuel + 1) p (text ++ rest) = lines? fuel q rest)
    (htext : text ≠ []) : Reads p text q := by
  intro rest fuel hfuel
  have hlength := List.length_pos_iff.2 htext
  rw [List.length_append] at hfuel
  obtain ⟨fuel, rfl⟩ := Nat.exists_eq_add_one_of_ne_zero (Nat.ne_zero_of_lt hfuel)
  exact ⟨fuel, by omega, h rest fuel⟩

theorem reads_blank (p : Progress) : Reads p ['\n'] p := .of_line (fun _ _ => rfl) (by simp)

theorem restOfLine?_line (rest : List Char) : restOfLine? ('\n' :: rest) = some rest := rfl

/-- A line that starts with none of these marks is not blank and has no comment alone. -/
theorem lines?_of_line? (hc : c ∉ skipped) {fuel : Nat} {tail : List Char}
    (h : line? p (c :: cs) = some (q, tail)) :
    lines? (fuel + 1) p (c :: cs) = lines? fuel q tail := by
  have hgap : skipGap (c :: cs) = c :: cs := skipGap_blanks hc 0 cs
  simp only [skipped, List.mem_cons, List.not_mem_nil, or_false, not_or] at hc
  simp [lines?, hgap, hc, h]

theorem reads_pair (hkey : IsBareKey key) (hv : ReadsBack maxDepth v)
    (h : p.insert [] key v = some q) :
    Reads p (keyText key ++ " = " ++ valueText v ++ "\n").toList q := by
  obtain ⟨c, tail, heq, hc⟩ := hkey.exists_cons
  refine .of_line (fun rest fuel => ?_) (by simp)
  have htext : (keyText key ++ " = " ++ valueText v ++ "\n").toList ++ rest =
      key.toList ++ ' ' :: '=' :: ' ' :: ((valueText v).toList ++ '\n' :: rest) := by
    simp [hkey.keyText_eq]
  have hread := pair?_append hkey hv (ends_cons (c := '\n') (by decide) rest)
  rw [htext]
  rw [heq, List.cons_append] at hread ⊢
  refine lines?_of_line? ?_ ?_
  · intro hmem
    simp only [skipped, List.mem_cons, List.not_mem_nil, or_false] at hmem
    rcases hmem with rfl | rfl | rfl | rfl | rfl <;> exact absurd hc (by decide)
  · unfold line?
    split
    · exact absurd (List.cons.inj ‹_›).1 (ne_of_isBare hc rfl)
    · exact absurd (List.cons.inj ‹_›).1 (ne_of_isBare hc rfl)
    · simp [hread, h, restOfLine?_line]

theorem reads_header {root : Draft.Members} (hkey : IsBareKey key)
    (h : Draft.openTable [] key p.root = some root) :
    Reads p ("[" ++ pathText [key] ++ "]" ++ "\n").toList ⟨root, [key]⟩ := by
  refine .of_line (fun rest fuel => ?_) (by simp)
  have htext : ("[" ++ pathText [key] ++ "]" ++ "\n").toList ++ rest =
      '[' :: (key.toList ++ ']' :: '\n' :: rest) := by
    simp [pathText, hkey.keyText_eq]
  have hread : key? (key.toList ++ ']' :: '\n' :: rest) = _ :=
    key?_bare hkey (by simp [isBare]) (by simp [skipGap, isGap])
  obtain ⟨c, tail, heq, hc⟩ := hkey.exists_cons
  rw [htext]
  refine lines?_of_line? (by decide) ?_
  rw [heq, List.cons_append] at hread ⊢
  unfold line?
  split
  · have hbracket := (List.cons.inj (List.cons.inj ‹_›).2).1
    exact absurd hbracket (ne_of_isBare hc rfl)
  · have htail := (List.cons.inj ‹_›).2
    rw [← htail, hread]
    simp [skipGap, isGap, h, restOfLine?_line]
  · rename_i hother
    exact (hother _ rfl).elim

theorem reads_element {root : Draft.Members} (hkey : IsBareKey key)
    (h : Draft.addTable [] key p.root = some root) :
    Reads p ("[[" ++ pathText [key] ++ "]]" ++ "\n").toList ⟨root, [key]⟩ := by
  refine .of_line (fun rest fuel => ?_) (by simp)
  have htext : ("[[" ++ pathText [key] ++ "]]" ++ "\n").toList ++ rest =
      '[' :: '[' :: (key.toList ++ ']' :: ']' :: '\n' :: rest) := by
    simp [pathText, hkey.keyText_eq]
  have hread : key? (key.toList ++ ']' :: ']' :: '\n' :: rest) = _ :=
    key?_bare hkey (by simp [isBare]) (by simp [skipGap, isGap])
  rw [htext]
  refine lines?_of_line? (by decide) ?_
  simp [line?, hread, skipGap, isGap, h, restOfLine?_line]

end Progress

/-! ### Tables under construction -/

namespace Draft

variable {change : Option Draft → Option Draft} {ms : Members} {d : Draft}

/-- The names of members. -/
abbrev names (ms : Members) : List String := ms.map (·.1)

theorem alter?_of_notMem (hkey : key ∉ names ms) :
    alter? change key ms = (change none).map fun d => ms ++ [(key, d)] := by
  induction ms with
  | nil => rfl
  | cons m ms ih =>
    obtain ⟨hne, hkey⟩ := not_or.1 (fun h => hkey (List.mem_cons.2 h))
    rw [alter?, if_neg (Ne.symm hne), ih hkey, Option.map_map]
    rfl

theorem alter?_append (hkey : key ∉ names ms) :
    alter? change key (ms ++ [(key, d)]) = (change (some d)).map fun d => ms ++ [(key, d)] := by
  induction ms with
  | nil => simp [alter?]
  | cons m ms ih =>
    obtain ⟨hne, hkey⟩ := not_or.1 (fun h => hkey (List.mem_cons.2 h))
    rw [List.cons_append, alter?, if_neg (Ne.symm hne), ih hkey, Option.map_map]
    rfl

theorem alterLast?_append {α : Type} (change : α → Option α) (as : List α) (a : α) :
    alterLast? change (as ++ [a]) = (change a).map fun a => as ++ [a] := by
  induction as with
  | nil => rfl
  | cons b as ih =>
    rw [List.cons_append, alterLast?, ih, Option.map_map]
    · rfl
    · simp

theorem insertPair_of_notMem (hkey : key ∉ names ms) (v : Toml) :
    insertPair [] key v ms = some (ms ++ [(key, value v)]) := by
  simp [insertPair, within, alter?_of_notMem hkey]

theorem openTable_of_notMem (hkey : key ∉ names ms) :
    openTable [] key ms = some (ms ++ [(key, table .header [])]) := by
  simp [openTable, within, alter?_of_notMem hkey]

theorem addTable_of_notMem (hkey : key ∉ names ms) :
    addTable [] key ms = some (ms ++ [(key, tables [[]])]) := by
  simp [addTable, within, alter?_of_notMem hkey]

theorem addTable_append (hkey : key ∉ names ms) (elements : List Members) :
    addTable [] key (ms ++ [(key, tables elements)]) =
      some (ms ++ [(key, tables (elements ++ [[]]))]) := by
  simp [addTable, within, alter?_append hkey]

/-- The members of a table of plain values. -/
def ofMembers (members : List (String × Toml)) : Members :=
  members.map fun (key, v) => (key, value v)

theorem finishMembers_eq (ms : Members) :
    finishMembers ms = ms.map fun (key, d) => (key, d.finish) := by
  induction ms with
  | nil => rfl
  | cons m ms ih => rw [finishMembers, ih, List.map_cons]

theorem finishMembers_ofMembers (members : List (String × Toml)) :
    finishMembers (ofMembers members) = members := by
  rw [finishMembers_eq, ofMembers, List.map_map]
  conv_rhs => rw [← List.map_id members]
  exact List.map_congr_left fun m _ => by simp [finish]

theorem finishMembers_append (ms ms' : Members) :
    finishMembers (ms ++ ms') = finishMembers ms ++ finishMembers ms' := by
  simp [finishMembers_eq]

theorem finishTables_eq (es : List Members) :
    finishTables es = es.map fun ms => .table (finishMembers ms) := by
  induction es with
  | nil => rfl
  | cons ms es ih => rw [finishTables, ih, List.map_cons]

end Draft

namespace Progress

open Draft (Members names ofMembers)

/-- Pairs with new keys go to the end of the members that are put into the state. -/
def Fills (plug : Members → Progress) : Prop :=
  ∀ ms key v, key ∉ names ms → (plug ms).insert [] key v = some (plug (ms ++ [(key, .value v)]))

theorem fills_root : Fills fun ms => ⟨ms, []⟩ := by
  intro ms key v hkey
  simp [insert, Draft.within, Draft.insertPair_of_notMem hkey]

theorem fills_table {root : Members} (hkey : key ∉ names root) :
    Fills fun ms => ⟨root ++ [(key, .table .header ms)], [key]⟩ := by
  intro ms name v hname
  simp [insert, Draft.within, Draft.alter?_append hkey, Draft.insertPair_of_notMem hname]

theorem fills_element {root : Members} (hkey : key ∉ names root) (elements : List Members) :
    Fills fun ms => ⟨root ++ [(key, .tables (elements ++ [ms]))], [key]⟩ := by
  intro ms name v hname
  simp [insert, Draft.within, Draft.alter?_append hkey, Draft.alterLast?_append,
    Draft.insertPair_of_notMem hname]

/-- The text of plain members. -/
def pairsText (members : List (String × Toml)) : String :=
  String.join (members.map fun (key, v) => keyText key ++ " = " ++ valueText v ++ "\n")

theorem reads_pairs {plug : Members → Progress} (hplug : Fills plug)
    {members : List (String × Toml)}
    (hmembers : ∀ m ∈ members, IsBareKey m.1 ∧ ReadsBack maxDepth m.2) (ms : Members)
    (hnodup : (names ms ++ members.map (·.1)).Nodup) :
    Reads (plug ms) (pairsText members).toList (plug (ms ++ ofMembers members)) := by
  induction members generalizing ms with
  | nil =>
    rw [ofMembers, List.map_nil, List.append_nil]
    exact .refl _
  | cons m members ih =>
    obtain ⟨⟨hkey, hv⟩, hmembers⟩ := List.forall_mem_cons.1 hmembers
    have hnew : m.1 ∉ names ms := fun hmem =>
      (List.nodup_append.1 hnodup).2.2 m.1 hmem m.1 List.mem_cons_self rfl
    have hrest := ih hmembers (ms ++ [(m.1, .value m.2)]) (by simpa using hnodup)
    have htext : (pairsText (m :: members)).toList =
        (keyText m.1 ++ " = " ++ valueText m.2 ++ "\n").toList ++ (pairsText members).toList := by
      simp [pairsText]
    have hdrafts : ms ++ ofMembers (m :: members) =
        ms ++ [(m.1, .value m.2)] ++ ofMembers members := by
      simp [ofMembers]
    rw [htext, hdrafts]
    exact (reads_pair hkey hv (hplug ms m.1 m.2 hnew)).trans hrest

/-! ### Blocks -/

/-- The blocks of a text lead from one state to another one. -/
inductive Chain : Progress → List String → Progress → Prop
  | nil (p : Progress) : Chain p [] p
  | cons {p q r : Progress} {block : String} {blocks : List String} :
    Reads p block.toList q → Chain q blocks r → Chain p (block :: blocks) r

theorem Chain.append {blocks blocks' : List String} (h : Chain p blocks q)
    (h' : Chain q blocks' r) : Chain p (blocks ++ blocks') r := by
  induction h with
  | nil p => exact h'
  | cons hread _ ih => exact .cons hread (ih h')

theorem Chain.singleton {block : String} (h : Reads p block.toList q) : Chain p [block] q :=
  .cons h (.nil q)

/-- There is an empty line between two blocks. -/
theorem Chain.reads {blocks : List String} (h : Chain p blocks q) :
    Reads p ("\n".intercalate blocks).toList q := by
  induction h with
  | nil p => exact .refl p
  | @cons p q r block blocks hread hchain ih =>
    cases hchain with
    | nil => simpa using hread
    | @cons _ _ _ block' blocks' _ _ =>
      have htext : ("\n".intercalate (block :: block' :: blocks')).toList =
          block.toList ++ (['\n'] ++ ("\n".intercalate (block' :: blocks')).toList) := by
        simp
      rw [htext]
      exact hread.trans ((reads_blank q).trans ih)

end Progress

theorem eq_nil_of_pairsText {members : List (String × Toml)}
    (h : (Progress.pairsText members).isEmpty) : members = [] := by
  cases members with
  | nil => rfl
  | cons m members => simp [Progress.pairsText] at h

theorem blocksOf_of_plain (h : hasHeader v = false) (path : List String) :
    blocksOf path v = [] := by
  unfold blocksOf
  split
  · simp [hasHeader] at h
  · simp only [hasHeader] at h
    simp [h]
  · rfl

/-- The members of a table that has plain members only. -/
structure IsFlat (members : List (String × Toml)) : Prop where
  nodup : (members.map (·.1)).Nodup
  bare : ∀ m ∈ members, IsBareKey m.1
  plain : ∀ m ∈ members, hasHeader m.2 = false
  readsBack : ∀ m ∈ members, ReadsBack maxDepth m.2

namespace IsFlat

variable {members : List (String × Toml)}

theorem plainLines_eq (h : IsFlat members) : plainLines members = Progress.pairsText members := by
  have hfilter : (members.filter fun (_, v) => !hasHeader v) = members :=
    List.filter_eq_self.2 fun m hm => by simp [h.plain m hm]
  rw [plainLines, hfilter, Progress.pairsText]

theorem memberBlocks_eq (h : IsFlat members) (path : List String) :
    memberBlocks path members = [] := by
  have hplain := h.plain
  clear h
  induction members with
  | nil => rfl
  | cons m members ih =>
    obtain ⟨hm, hmembers⟩ := List.forall_mem_cons.1 hplain
    rw [memberBlocks, blocksOf_of_plain hm, ih hmembers, List.append_nil]

theorem tableBlock_eq (h : IsFlat members) (header : String) (always : Bool) :
    tableBlock header always members = [header ++ "\n" ++ Progress.pairsText members] := by
  unfold tableBlock
  rw [h.plainLines_eq]
  refine if_neg fun hempty => ?_
  simp only [Bool.and_eq_true, Bool.not_eq_true'] at hempty
  rw [eq_nil_of_pairsText hempty.1.1] at hempty
  simp at hempty

end IsFlat

namespace Progress

open Draft (Members names ofMembers)

variable {members : List (String × Toml)} {root : Members} {current : List String}

theorem chain_table (hkey : IsBareKey key) (hmembers : IsFlat members) (hnew : key ∉ names root)
    (current : List String) :
    Chain ⟨root, current⟩ (blocksOf [key] (.table members))
      ⟨root ++ [(key, .table .header (ofMembers members))], [key]⟩ := by
  rw [blocksOf, hmembers.memberBlocks_eq, List.append_nil, hmembers.tableBlock_eq]
  refine .singleton ?_
  rw [String.toList_append]
  refine (reads_header hkey (Draft.openTable_of_notMem hnew)).trans ?_
  exact reads_pairs (fills_table hnew) (fun m hm => ⟨hmembers.bare m hm, hmembers.readsBack m hm⟩)
    [] hmembers.nodup

theorem chain_element {root' : Members} (hkey : IsBareKey key) (hmembers : IsFlat members)
    (hnew : key ∉ names root) (done : List Members)
    (hadd : Draft.addTable [] key root' = some (root ++ [(key, .tables (done ++ [[]]))]))
    (current : List String) :
    Chain ⟨root', current⟩ (tableBlock ("[[" ++ pathText [key] ++ "]]") true members)
      ⟨root ++ [(key, .tables (done ++ [ofMembers members]))], [key]⟩ := by
  rw [hmembers.tableBlock_eq]
  refine .singleton ?_
  rw [String.toList_append]
  refine (reads_element hkey hadd).trans ?_
  exact reads_pairs (fills_element hnew done)
    (fun m hm => ⟨hmembers.bare m hm, hmembers.readsBack m hm⟩) [] hmembers.nodup

/-- Further tables under one header. -/
theorem chain_elements (hkey : IsBareKey key) {es : List (List (String × Toml))}
    (hes : ∀ ms ∈ es, IsFlat ms) (hnew : key ∉ names root) (done : List Members) :
    Chain ⟨root ++ [(key, .tables done)], [key]⟩ (elementBlocks [key] (es.map .table))
      ⟨root ++ [(key, .tables (done ++ es.map ofMembers))], [key]⟩ := by
  induction es generalizing done with
  | nil => simpa [elementBlocks] using Chain.nil _
  | cons ms es ih =>
    obtain ⟨hms, hes⟩ := List.forall_mem_cons.1 hes
    have hhead := chain_element hkey hms hnew done (Draft.addTable_append hnew done) [key]
    have htail := ih hes (done ++ [ofMembers ms])
    rw [List.append_assoc] at htail
    rw [List.map_cons, elementBlocks, hms.memberBlocks_eq, List.append_nil]
    exact hhead.append htail

theorem chain_tables (hkey : IsBareKey key) {es : List (List (String × Toml))} (hne : es ≠ [])
    (hes : ∀ ms ∈ es, IsFlat ms) (hnew : key ∉ names root) (current : List String) :
    Chain ⟨root, current⟩ (elementBlocks [key] (es.map .table))
      ⟨root ++ [(key, .tables (es.map ofMembers))], [key]⟩ := by
  obtain ⟨ms, es, rfl⟩ := List.exists_cons_of_ne_nil hne
  obtain ⟨hms, hes⟩ := List.forall_mem_cons.1 hes
  have hhead := chain_element hkey hms hnew [] (Draft.addTable_of_notMem hnew) current
  have htail := chain_elements hkey hes hnew [ofMembers ms]
  rw [List.map_cons, elementBlocks, hms.memberBlocks_eq, List.append_nil]
  exact hhead.append htail

end Progress

/-! ### Documents -/

/-- A member of a document that is at most one table deep: a value on its line, a table or tables
under one header. -/
inductive Shallow : Toml → Prop
  | plain {v : Toml} (hheader : hasHeader v = false) (hv : ReadsBack maxDepth v) : Shallow v
  | table {members : List (String × Toml)} (hmembers : IsFlat members) : Shallow (.table members)
  | tables {es : List (List (String × Toml))} (hne : es ≠ []) (hes : ∀ ms ∈ es, IsFlat ms) :
    Shallow (.array (es.map .table))

/-- The members of a document that can be written line by line. -/
structure IsShallow (members : List (String × Toml)) : Prop where
  nodup : (members.map (·.1)).Nodup
  bare : ∀ m ∈ members, IsBareKey m.1
  shallow : ∀ m ∈ members, Shallow m.2

open Draft (Members names ofMembers)

/-- A member with a header becomes the last member of the text. -/
theorem Shallow.exists_draft (h : Shallow v) (hheader : hasHeader v = true)
    (hkey : IsBareKey key) :
    ∃ d : Draft, d.finish = v ∧ ∀ root current, key ∉ names root →
      Progress.Chain ⟨root, current⟩ (blocksOf [key] v) ⟨root ++ [(key, d)], [key]⟩ := by
  cases h with
  | plain hplain =>
    rw [hplain] at hheader
    cases hheader
  | table hmembers =>
    exact ⟨.table .header _, by rw [Draft.finish, Draft.finishMembers_ofMembers],
      fun root current hnew => Progress.chain_table hkey hmembers hnew current⟩
  | @tables es hne hes =>
    refine ⟨.tables (es.map ofMembers), ?_, fun root current hnew => ?_⟩
    · rw [Draft.finish, Draft.finishTables_eq, List.map_map]
      congr 1
      exact List.map_congr_left fun ms _ => by simp [Draft.finishMembers_ofMembers]
    · rw [hasHeader] at hheader
      rw [blocksOf, if_pos hheader]
      exact Progress.chain_tables hkey hne hes hnew current

theorem chain_memberBlocks {members : List (String × Toml)}
    (hmembers : ∀ m ∈ members, IsBareKey m.1 ∧ Shallow m.2) (root : Members)
    (current : List String)
    (hnodup : (names root ++ (members.filter fun m => hasHeader m.2).map (·.1)).Nodup) :
    ∃ ds current', Draft.finishMembers ds = members.filter (fun m => hasHeader m.2) ∧
      Progress.Chain ⟨root, current⟩ (memberBlocks [] members) ⟨root ++ ds, current'⟩ := by
  induction members generalizing root current with
  | nil => exact ⟨[], current, rfl, by simpa [memberBlocks] using Progress.Chain.nil _⟩
  | cons m members ih =>
    obtain ⟨⟨hkey, hm⟩, hmembers⟩ := List.forall_mem_cons.1 hmembers
    cases hheader : hasHeader m.2 with
    | false =>
      rw [List.filter_cons_of_neg (by simp [hheader])] at hnodup ⊢
      rw [memberBlocks, blocksOf_of_plain hheader, List.nil_append]
      exact ih hmembers root current hnodup
    | true =>
      rw [List.filter_cons_of_pos (by simp [hheader])] at hnodup ⊢
      have hnew : m.1 ∉ names root := fun hmem =>
        (List.nodup_append.1 hnodup).2.2 m.1 hmem m.1 List.mem_cons_self rfl
      obtain ⟨d, hd, hhead⟩ := hm.exists_draft hheader hkey
      obtain ⟨ds, current', hds, htail⟩ := ih hmembers (root ++ [(m.1, d)]) [m.1]
        (by simpa using hnodup)
      refine ⟨(m.1, d) :: ds, current', by rw [Draft.finishMembers, hd, hds], ?_⟩
      rw [memberBlocks]
      simpa using (hhead root current hnew).append htail

theorem Shallow.readsBack (h : Shallow v) (hheader : hasHeader v = false) :
    ReadsBack maxDepth v := by
  cases h with
  | plain _ hv => exact hv
  | table => simp [hasHeader] at hheader
  | tables hne => simp [hasHeader, isTables, isTable, hne] at hheader

/-- No line starts with the mark that some texts start with. -/
theorem Progress.lines?_mark (fuel : Nat) (p : Progress) (cs : List Char) :
    lines? fuel p ('\ufeff' :: cs) = none := by
  have hkey : key? ('\ufeff' :: cs) = none := by
    have hbare : ('\ufeff' :: cs).span isBare = ([], '\ufeff' :: cs) := by
      rw [List.span_eq_takeWhile_dropWhile]
      simp [(by decide : isBare '\ufeff' = false)]
    have hpart : keyPart? ('\ufeff' :: cs) = none := by
      simp [keyPart?, hbare, -List.span_eq_takeWhile_dropWhile]
    have hgap : skipGap ('\ufeff' :: cs) = '\ufeff' :: cs := rfl
    rw [key?, maxDepth, keyParts?, hgap, hpart]
    rfl
  have hline : line? p ('\ufeff' :: cs) = none := by
    simp [line?, pair?, hkey]
  cases fuel with
  | zero => rfl
  | succ fuel => simp [lines?, skipGap, isGap, hline]

theorem parse?_of_reads {text : String} {q : Progress}
    (h : Progress.Reads ⟨[], []⟩ text.toList q) :
    parse? text = some (.table (Draft.finishMembers q.root)) := by
  have hread (fuel : Nat) (hfuel : text.toList.length < fuel) :
      Progress.lines? fuel ⟨[], []⟩ text.toList = some q.root := by
    obtain ⟨fuel', hfuel', heq⟩ := h [] fuel (by rwa [List.append_nil])
    obtain ⟨fuel', rfl⟩ := Nat.exists_eq_add_one_of_ne_zero (Nat.ne_zero_of_lt hfuel')
    rw [List.append_nil] at heq
    rw [heq]
    rfl
  have hmark : dropMark text.toList = text.toList := by
    unfold dropMark
    split
    · rename_i heq
      have hnone := hread _ (Nat.lt_succ_self _)
      rw [heq, Progress.lines?_mark] at hnone
      cases hnone
    · rfl
  simp [parse?, hmark, hread, Draft.finish]

/-- **A document is read back from its text**, its plain members before its tables. -/
theorem parse?_render {members : List (String × Toml)} (h : IsShallow members) :
    parse? (render members) = some (.table (members.filter (fun m => !hasHeader m.2) ++
      members.filter fun m => hasHeader m.2)) := by
  generalize hplain : members.filter (fun m => !hasHeader m.2) = plain
  have hsub : plain.Sublist members := hplain ▸ List.filter_sublist
  have hnodup : (names (ofMembers plain) ++
      (members.filter fun m => hasHeader m.2).map (·.1)).Nodup := by
    have hperm : (plain ++ members.filter fun m => hasHeader m.2).Perm members := by
      have := List.filter_append_perm (fun m : String × Toml => !hasHeader m.2) members
      simpa [hplain] using this
    have hnames : names (ofMembers plain) = plain.map (·.1) := by simp [ofMembers]
    rw [hnames, ← List.map_append]
    exact (hperm.map _).nodup_iff.2 h.nodup
  have hpairs : Progress.Reads ⟨[], []⟩ (Progress.pairsText plain).toList
      ⟨ofMembers plain, []⟩ := by
    refine Progress.reads_pairs Progress.fills_root (fun m hm => ?_) []
      (h.nodup.sublist (hsub.map _))
    have hmem : m ∈ members := hsub.subset hm
    have hheader : hasHeader m.2 = false := by
      rw [← hplain] at hm
      simpa using (List.mem_filter.1 hm).2
    exact ⟨h.bare m hmem, (h.shallow m hmem).readsBack hheader⟩
  obtain ⟨ds, current, hds, hchain⟩ := chain_memberBlocks
    (fun m hm => ⟨h.bare m hm, h.shallow m hm⟩) (ofMembers plain) [] hnodup
  have hlines : plainLines members = Progress.pairsText plain := by
    rw [← hplain]
    rfl
  have hfirst : Progress.Chain ⟨[], []⟩
      (if (plainLines members).isEmpty then [] else [plainLines members])
      ⟨ofMembers plain, []⟩ := by
    rw [hlines]
    split
    · rename_i hempty
      rw [eq_nil_of_pairsText hempty]
      exact .nil _
    · exact .singleton hpairs
  rw [render, parse?_of_reads (hfirst.append hchain).reads, Draft.finishMembers_append,
    Draft.finishMembers_ofMembers, hds]

end Toml

end NetPack
