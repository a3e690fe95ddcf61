import Mathlib.Data.List.TakeDrop
import Mathlib.Data.List.TakeWhile
import Mathlib.Order.MinMax
import NetPack.Toml.Writer

/-!
# Strings of TOML texts

Whatever form the writer chooses for a string, the reader finds the string again
(`string?_stringText`). A basic string is read character by character. In a form for lines the
closing quotes must not run into quotes of the string: three quotes close it, and up to two before
them belong to it, so the string is read back because no three quotes follow one another inside.
-/

namespace NetPack

namespace Toml

variable {c quote : Char} {cs rest : List Char}

/-- A value ends here: the line ends, or a comma or a bracket follows. -/
def Ends (rest : List Char) : Prop := ∃ c tail, rest = c :: tail ∧ c ∈ ['\n', ',', ']']

theorem Ends.head?_ne (h : Ends rest) (hquote : quote ∉ ['\n', ',', ']']) :
    rest.head? ≠ some quote := by
  obtain ⟨c, tail, rfl, hc⟩ := h
  simp only [List.head?_cons, ne_eq, Option.some.injEq]
  rintro rfl
  exact hquote hc

/-! ### Escapes -/

/-- What is written for a character between double quotes, unless it is a quote that is written as
it is. -/
def charText (lines : Bool) (c : Char) : List Char :=
  if c = '"' then ['\\', '"'] else ((escapeOf? lines c).getD c.toString).toList

theorem escapeDigits_eq : ∀ n < 0x80, (escapeDigits n).toList.length = 4 ∧
    codePoint? (escapeDigits n).toList = some (Char.ofNat n) := by
  decide +kernel

/-- The characters with an escape of one letter, and the letters. -/
def letters (lines : Bool) : List (Char × Char) :=
  [('"', '"'), ('\\', '\\'), ('\x08', 'b'), ('\t', 't'), ('\x0c', 'f'), ('\r', 'r')] ++
    if lines then [] else [('\n', 'n')]

/-- A character is written with a letter, with its code point, or as it is. -/
theorem charText_cases (lines : Bool) (c : Char) :
    (∃ letter, (c, letter) ∈ letters lines ∧ charText lines c = ['\\', letter]) ∨
    (∃ a b d e, charText lines c = ['\\', 'u', a, b, d, e] ∧
      codePoint? [a, b, d, e] = some c) ∨
    (charText lines c = [c] ∧ c ≠ '"' ∧ c ≠ '\\' ∧ c ≠ '\r' ∧
      (isPlain c ∨ (lines ∧ c = '\n'))) := by
  by_cases hquote : c = '"'
  · subst hquote
    exact .inl ⟨'"', by simp [letters], rfl⟩
  · have htext : charText lines c = ((escapeOf? lines c).getD c.toString).toList := if_neg hquote
    unfold escapeOf? at htext
    split at htext
    case h_1 => exact .inl ⟨'b', by simp [letters], htext⟩
    case h_2 => exact .inl ⟨'t', by simp [letters], htext⟩
    case h_3 =>
      cases lines
      · exact .inl ⟨'n', by simp [letters], htext⟩
      · exact .inr (.inr ⟨htext, hquote, by decide, by decide, .inr ⟨rfl, rfl⟩⟩)
    case h_4 => exact .inl ⟨'f', by simp [letters], htext⟩
    case h_5 => exact .inl ⟨'r', by simp [letters], htext⟩
    case h_6 => exact .inl ⟨'\\', by simp [letters], htext⟩
    case h_7 _ _ _ hreturn hslash =>
      by_cases hcontrol : c.toNat < 0x20 ∨ c.toNat = 0x7f
      · obtain ⟨hlength, hpoint⟩ := escapeDigits_eq c.toNat (by omega)
        obtain ⟨a, b, d, e, hdigits⟩ : ∃ a b d e, (escapeDigits c.toNat).toList = [a, b, d, e] := by
          match h : (escapeDigits c.toNat).toList with
          | [a, b, d, e] => exact ⟨a, b, d, e, rfl⟩
          | [] | [_] | [_, _] | [_, _, _] | _ :: _ :: _ :: _ :: _ :: _ => simp [h] at hlength
        rw [hdigits, Char.ofNat_toNat] at hpoint
        refine .inr (.inl ⟨a, b, d, e, ?_, hpoint⟩)
        rw [htext]
        simp [hcontrol, hdigits]
      · refine .inr (.inr ⟨?_, hquote, hslash, hreturn, .inl ?_⟩)
        · rw [htext]
          simp [hcontrol]
        · simp [isPlain]
          omega

theorem basicBody_charText (c : Char) (rest : List Char) :
    basicBody (charText false c ++ rest) = consed c (basicBody rest) := by
  rcases charText_cases false c with ⟨letter, hmem, h⟩ | ⟨a, b, d, e, h, hpoint⟩ |
    ⟨h, hquote, hslash, -, hplain⟩
  · rw [h]
    simp only [letters, Bool.false_eq_true, ↓reduceIte, List.cons_append, List.nil_append,
      List.mem_cons, List.not_mem_nil, or_false, Prod.mk.injEq] at hmem
    rcases hmem with ⟨rfl, rfl⟩ | ⟨rfl, rfl⟩ | ⟨rfl, rfl⟩ | ⟨rfl, rfl⟩ | ⟨rfl, rfl⟩ | ⟨rfl, rfl⟩ |
      ⟨rfl, rfl⟩ <;> rfl
  · rw [h]
    change (codePoint? [a, b, d, e]).bind _ = _
    rw [hpoint]
    rfl
  · have hplain : isPlain c := by simpa using hplain
    rw [h, List.singleton_append, basicBody.eq_6]
    · simp [hplain, hslash]
    all_goals simp [hquote, hslash]

theorem closing?_of_head?_ne (h : cs.head? ≠ some quote) : closing? quote cs = none := by
  cases cs with
  | nil => rfl
  | cons c cs =>
    have hc : c ≠ quote := by simpa using h
    simp [closing?, hc]

theorem basicLines_charText (c : Char) (rest : List Char) :
    basicLines false (charText true c ++ rest) = consed c (basicLines false rest) := by
  rcases charText_cases true c with ⟨letter, hmem, h⟩ | ⟨a, b, d, e, h, hpoint⟩ |
    ⟨h, hquote, hslash, hreturn, hplain⟩
  · rw [h]
    simp only [letters, ↓reduceIte, List.append_nil, List.mem_cons, List.not_mem_nil, or_false,
      Prod.mk.injEq] at hmem
    rcases hmem with ⟨rfl, rfl⟩ | ⟨rfl, rfl⟩ | ⟨rfl, rfl⟩ | ⟨rfl, rfl⟩ | ⟨rfl, rfl⟩ | ⟨rfl, rfl⟩ <;>
      rfl
  · rw [h]
    change (codePoint? [a, b, d, e]).bind _ = _
    rw [hpoint]
    rfl
  · have hplain : (isPlain c || c = '\n') = true := by simpa using hplain
    rw [h, List.singleton_append, basicLines.eq_7]
    · have hopen : closing? '"' (c :: rest) = none :=
        closing?_of_head?_ne (by simpa using hquote)
      simp [hopen, hplain]
    all_goals simp [hreturn, hslash]

/-! ### Basic and literal strings -/

/-- The characters of a string with escapes. -/
def escapedText (lines : Bool) (quotes run : Nat) (cs : List Char) : List Char :=
  (String.join (escaped lines quotes run cs)).toList

theorem escapedText_nil (lines : Bool) (quotes run : Nat) :
    escapedText lines quotes run [] = [] := by
  simp [escapedText, escaped]

/-- A quote is written as it is while few of them precede it; otherwise a character is written by
itself. -/
theorem escapedText_cons (lines : Bool) (quotes run : Nat) (c : Char) (cs : List Char) :
    escapedText lines quotes run (c :: cs) =
      if c = '"' ∧ run < quotes then '"' :: escapedText lines quotes (run + 1) cs
      else charText lines c ++ escapedText lines quotes 0 cs := by
  unfold escapedText charText
  rw [escaped]
  by_cases hquote : c = '"'
  · by_cases hrun : run < quotes <;> simp [hquote, hrun]
  · simp [hquote]

theorem basicBody_escapedText (cs rest : List Char) :
    basicBody (escapedText false 0 0 cs ++ '"' :: rest) = some (cs, rest) := by
  induction cs with
  | nil =>
    rw [escapedText_nil]
    rfl
  | cons c cs ih =>
    rw [escapedText_cons, if_neg (by omega), List.append_assoc, basicBody_charText, ih]
    rfl

theorem literalBody_append (hplain : ∀ c ∈ cs, isPlain c) (hquote : '\'' ∉ cs)
    (rest : List Char) : literalBody (cs ++ '\'' :: rest) = some (cs, rest) := by
  have hall : ∀ c ∈ cs, (isPlain c && c ≠ '\'') = true := by
    intro c hc
    have hne : c ≠ '\'' := fun h => hquote (h ▸ hc)
    simp [hplain c hc, hne]
  unfold literalBody
  rw [List.span_eq_takeWhile_dropWhile, List.takeWhile_append_of_pos hall,
    List.dropWhile_append_of_pos hall]
  simp

/-! ### Strings of several lines -/

/-- The quotes at the start of a text. -/
def leading (quote : Char) (cs : List Char) : Nat := (cs.takeWhile (· = quote)).length

/-- Three quotes close a string with at most two quotes at its start only if it is made of these
quotes. -/
theorem closing?_append (cs : List Char) (hcs : leading quote cs ≤ 2)
    (hrest : rest.head? ≠ some quote) :
    closing? quote (cs ++ quote :: quote :: quote :: rest) =
      if cs.all (· == quote) then some (cs, rest) else none := by
  have hnone : rest.takeWhile (· = quote) = [] := by
    cases rest with
    | nil => rfl
    | cons c rest => simpa using hrest
  unfold closing? leading at *
  by_cases hall : ∀ c ∈ cs, c = quote
  · -- The count takes the quotes of the string and the three that close it.
    have hreplicate : List.replicate cs.length quote = cs :=
      (List.eq_replicate_iff.2 ⟨rfl, hall⟩).symm
    have hcount : ((cs ++ quote :: quote :: quote :: rest).takeWhile (· = quote)).length =
        cs.length + 3 := by
      rw [List.takeWhile_append_of_pos (by simpa using hall)]
      simp [hnone]
    have hlength : cs.length ≤ 2 := by
      rwa [List.takeWhile_eq_self_iff.2 (by simpa using hall)] at hcs
    have hmin : Nat.min 5 (cs.length + 3) = cs.length + 3 := Nat.min_eq_right (by omega)
    have hquotes : cs.all (· == quote) := by simpa using hall
    rw [if_pos hquotes]
    simp [hcount, hmin, hreplicate, List.drop_append]
  · have hcount : ((cs ++ quote :: quote :: quote :: rest).takeWhile (· = quote)).length ≤ 2 := by
      rw [List.takeWhile_append, if_neg]
      · exact hcs
      · intro hlength
        refine hall fun c hc => ?_
        have hself := (List.takeWhile_prefix (· = quote)).eq_of_length hlength
        simpa using List.takeWhile_eq_self_iff.1 hself c hc
    have hmin : ¬ 3 ≤ Nat.min 5 ((cs ++ quote :: quote :: quote :: rest).takeWhile
        (· = quote)).length := fun h => by
      have := Nat.le_trans h (Nat.min_le_right _ _)
      omega
    have hquotes : ¬ cs.all (· == quote) := by simpa using hall
    rw [if_neg hmin, if_neg hquotes]

theorem leading_cons_of_ne (h : c ≠ quote) (cs : List Char) : leading quote (c :: cs) = 0 := by
  simp [leading, h]

theorem leading_cons_self (quote : Char) (cs : List Char) :
    leading quote (quote :: cs) = leading quote cs + 1 := by
  simp [leading]

/-- An escape or a character other than a quote is in front. -/
theorem exists_charText (lines : Bool) (c : Char) :
    ∃ d ds, charText lines c = d :: ds ∧ d ≠ '"' := by
  rcases charText_cases lines c with ⟨letter, -, h⟩ | ⟨a, b, d, e, h, -⟩ | ⟨h, hquote, -⟩
  · exact ⟨_, _, h, by decide⟩
  · exact ⟨_, _, h, by decide⟩
  · exact ⟨_, _, h, hquote⟩

/-- Behind a run of quotes only so many follow that there are at most two. -/
theorem leading_escapedText {run : Nat} (hrun : run ≤ 2) (cs : List Char) :
    run + leading '"' (escapedText true 2 run cs) ≤ 2 := by
  induction cs generalizing run with
  | nil => simpa [escapedText_nil, leading] using hrun
  | cons c cs ih =>
    rw [escapedText_cons]
    split
    · have hnext : run + 1 + leading '"' (escapedText true 2 (run + 1) cs) ≤ 2 := ih (by omega)
      rw [leading_cons_self]
      omega
    · obtain ⟨d, ds, hd, hne⟩ := exists_charText true c
      rw [hd, List.cons_append, leading_cons_of_ne hne]
      omega

theorem escapedText_of_quotes {run : Nat} (h : ∀ c ∈ escapedText true 2 run cs, c = '"') :
    escapedText true 2 run cs = cs := by
  induction cs generalizing run with
  | nil => exact escapedText_nil ..
  | cons c cs ih =>
    rw [escapedText_cons] at h ⊢
    split at h
    · rename_i hc
      rw [if_pos hc, ih (List.forall_mem_cons.1 h).2, hc.1]
    · obtain ⟨d, ds, hd, hne⟩ := exists_charText true c
      rw [hd, List.cons_append] at h
      exact absurd (List.forall_mem_cons.1 h).1 hne

theorem basicLines_escapedText {run : Nat} (hrun : run ≤ 2) (cs : List Char)
    (hrest : rest.head? ≠ some '"') :
    basicLines false (escapedText true 2 run cs ++ '"' :: '"' :: '"' :: rest) =
      some (cs, rest) := by
  induction cs generalizing run with
  | nil =>
    have hclose := closing?_append [] (Nat.zero_le 2) hrest
    rw [escapedText_nil, List.nil_append, basicLines.eq_7]
    · rw [List.nil_append] at hclose
      simp [hclose]
    all_goals simp
  | cons c cs ih =>
    by_cases hc : c = '"' ∧ run < 2
    · obtain ⟨rfl, hlt⟩ := hc
      -- The quote closes the string together with the quotes behind it, or is read by itself.
      have hlead := leading_escapedText hrun ('"' :: cs)
      have hclose := closing?_append (escapedText true 2 run ('"' :: cs)) (by omega) hrest
      have hself : (∀ c ∈ escapedText true 2 run ('"' :: cs), c = '"') →
          escapedText true 2 run ('"' :: cs) = '"' :: cs := escapedText_of_quotes
      rw [escapedText_cons, if_pos ⟨rfl, hlt⟩] at hclose hself ⊢
      rw [List.cons_append] at hclose ⊢
      rw [basicLines.eq_7, hclose]
      · by_cases hall : ('"' :: escapedText true 2 (run + 1) cs).all (· == '"')
        · rw [if_pos hall, hself (by simpa using hall)]
          rfl
        · rw [if_neg hall, ih (by omega)]
          rfl
      all_goals simp
    · rw [escapedText_cons, if_neg hc, List.append_assoc, basicLines_charText, ih (by omega)]
      rfl

/-- The longest run so far and the run that goes on, behind a further character. -/
def nextRun (quote : Char) (runs : Nat × Nat) (c : Char) : Nat × Nat :=
  let run := if c = quote then runs.2 + 1 else 0
  (Nat.max runs.1 run, run)

theorem longestRun_eq (quote : Char) (cs : List Char) :
    longestRun quote cs = (cs.foldl (nextRun quote) (0, 0)).1 := rfl

theorem foldl_nextRun_mono (quote : Char) (cs : List Char) {runs runs' : Nat × Nat}
    (h : runs ≤ runs') : cs.foldl (nextRun quote) runs ≤ cs.foldl (nextRun quote) runs' := by
  induction cs generalizing runs runs' with
  | nil => exact h
  | cons c cs ih =>
    obtain ⟨hlongest, hrun⟩ := Prod.mk_le_mk.1 h
    have hnext : (if c = quote then runs.2 + 1 else 0) ≤ if c = quote then runs'.2 + 1 else 0 := by
      split <;> omega
    exact ih (Prod.mk_le_mk.2 ⟨max_le_max hlongest hnext, hnext⟩)

theorem le_foldl_nextRun (quote : Char) (cs : List Char) (runs : Nat × Nat) :
    runs.1 ≤ (cs.foldl (nextRun quote) runs).1 := by
  induction cs generalizing runs with
  | nil => exact Nat.le_refl _
  | cons c cs ih => exact Nat.le_trans (Nat.le_max_left ..) (ih (nextRun quote runs c))

theorem add_leading_le (quote : Char) (cs : List Char) (runs : Nat × Nat) (h : runs.2 ≤ runs.1) :
    runs.2 + leading quote cs ≤ (cs.foldl (nextRun quote) runs).1 := by
  induction cs generalizing runs with
  | nil => simpa [leading] using h
  | cons c cs ih =>
    by_cases hc : c = quote
    · subst hc
      have hnext : (nextRun c runs c).2 = runs.2 + 1 := by simp [nextRun]
      have hle := ih (nextRun c runs c) (Nat.le_max_right ..)
      rw [leading_cons_self, List.foldl_cons]
      omega
    · rw [leading_cons_of_ne hc]
      exact Nat.le_trans h (le_foldl_nextRun quote (c :: cs) runs)

theorem leading_le_longestRun (quote : Char) (cs : List Char) :
    leading quote cs ≤ longestRun quote cs := by
  simpa [longestRun_eq] using add_leading_le quote cs (0, 0) (Nat.le_refl 0)

theorem longestRun_le_cons (quote c : Char) (cs : List Char) :
    longestRun quote cs ≤ longestRun quote (c :: cs) :=
  (foldl_nextRun_mono quote cs (Prod.mk_le_mk.2 ⟨Nat.zero_le _, Nat.zero_le _⟩)).1

theorem literalLines_append (hplain : ∀ c ∈ cs, isPlain c ∨ c = '\n')
    (hrun : longestRun '\'' cs < 3) (hrest : rest.head? ≠ some '\'') :
    literalLines (cs ++ '\'' :: '\'' :: '\'' :: rest) = some (cs, rest) := by
  induction cs with
  | nil =>
    have hclose := closing?_append [] (Nat.zero_le 2) hrest
    rw [List.nil_append] at hclose ⊢
    rw [literalLines.eq_3, hclose]
    · simp
    all_goals simp
  | cons c cs ih =>
    have hlead := leading_le_longestRun '\'' (c :: cs)
    have htail := longestRun_le_cons '\'' c cs
    have hclose := closing?_append (c :: cs) (by omega) hrest
    obtain ⟨hc, hcs⟩ := List.forall_mem_cons.1 hplain
    have hreturn : c ≠ '\r' := by
      rintro rfl
      simp [isPlain] at hc
    rw [List.cons_append] at hclose ⊢
    rw [literalLines.eq_3, hclose]
    · by_cases hall : (c :: cs).all (· == '\'')
      · rw [if_pos hall]
      · rw [if_neg hall, ih hcs (by omega)]
        simp [hc, consed]
    all_goals simp [hreturn]

/-! ### Forms -/

theorem mem_of_longestRun (h : 0 = longestRun quote cs) : quote ∉ cs := by
  induction cs with
  | nil => simp
  | cons c cs ih =>
    have hhead := leading_le_longestRun quote (c :: cs)
    have htail := longestRun_le_cons quote c cs
    intro hmem
    rcases List.mem_cons.1 hmem with rfl | hmem
    · rw [leading_cons_self] at hhead
      omega
    · exact ih (by omega) hmem

theorem isPlain_of_not_isControl (h : ¬ isControl c) : isPlain c ∨ c = '\n' := by
  by_cases htab : c = '\t'
  · exact .inl (by simp [isPlain, htab])
  · by_cases hline : c = '\n'
    · exact .inr hline
    · simp [isControl, htab, hline] at h
      simp [isPlain, h]

theorem of_stringForm_eq_literal (h : stringForm cs = .literal) :
    (∀ c ∈ cs, isPlain c) ∧ '\'' ∉ cs := by
  unfold stringForm at h
  dsimp only at h
  split_ifs at h with _ hliteral
  simp only [Bool.and_eq_true, Bool.not_eq_true', List.any_eq_false, decide_eq_true_eq,
    List.contains_eq_mem, decide_eq_false_iff_not] at hliteral
  obtain ⟨⟨hcontrol, hsingle⟩, hline⟩ := hliteral
  refine ⟨fun c hc => ?_, mem_of_longestRun hsingle.symm⟩
  refine (isPlain_of_not_isControl (hcontrol c hc)).resolve_right ?_
  rintro rfl
  exact hline hc

theorem of_stringForm_eq_literalLines (h : stringForm cs = .literalLines) :
    (∀ c ∈ cs, isPlain c ∨ c = '\n') ∧ longestRun '\'' cs < 3 := by
  unfold stringForm at h
  dsimp only at h
  split_ifs at h with _ _ _ hliteral
  simp only [Bool.and_eq_true, Bool.not_eq_true', List.any_eq_false,
    decide_eq_true_eq] at hliteral
  exact ⟨fun c hc => isPlain_of_not_isControl (hliteral.1 c hc), hliteral.2⟩

/-- The line end that is put in front of a string of several lines is dropped again. -/
theorem afterOpening_start {text : List Char}
    (h : '\n' ∉ cs → ∀ c ∈ text.head?, c ≠ '\n' ∧ c ≠ '\r') :
    afterOpening ((if cs.contains '\n' then "\n" else "").toList ++ text) = text := by
  by_cases hline : '\n' ∈ cs
  · simp [hline, afterOpening, lineEnd?]
  · have hstart : (if cs.contains '\n' then "\n" else "").toList ++ text = text := by simp [hline]
    rw [hstart]
    unfold afterOpening lineEnd?
    split
    · exact absurd rfl (h hline '\n' rfl).1
    · exact absurd rfl (h hline '\r' rfl).2
    · rfl

theorem string?_of_short (hdouble : ∀ tail, cs ≠ '"' :: '"' :: '"' :: tail)
    (hsingle : ∀ tail, cs ≠ '\'' :: '\'' :: '\'' :: tail) : string? cs = shortString? cs := by
  unfold string?
  split
  · exact absurd rfl (hdouble _)
  · exact absurd rfl (hsingle _)
  · rfl

theorem string?_basic (s : String) (hrest : rest.head? ≠ some '"') :
    string? ((formText .basic s).toList ++ rest) = some (s, rest) := by
  have htext : (formText .basic s).toList ++ rest =
      '"' :: (escapedText false 0 0 s.toList ++ '"' :: rest) := by
    simp [formText, escapedText]
  have hread := basicBody_escapedText s.toList rest
  rw [htext, string?_of_short]
  · simp [shortString?, hread]
  · intro tail htail
    cases hs : s.toList with
    | nil =>
      rw [hs, escapedText_nil] at htail
      have hhead : rest = '"' :: tail := (List.cons.inj (List.cons.inj htail).2).2
      exact hrest (hhead ▸ rfl)
    | cons c cs =>
      obtain ⟨d, ds, hd, hne⟩ := exists_charText false c
      rw [hs, escapedText_cons, if_neg (by omega), hd] at htail
      exact hne (List.cons.inj (List.cons.inj htail).2).1
  · simp

theorem string?_literal {s : String} (hplain : ∀ c ∈ s.toList, isPlain c)
    (hquote : '\'' ∉ s.toList) (hrest : rest.head? ≠ some '\'') :
    string? ((formText .literal s).toList ++ rest) = some (s, rest) := by
  have htext : (formText .literal s).toList ++ rest = '\'' :: (s.toList ++ '\'' :: rest) := by
    simp [formText]
  have hread := literalBody_append hplain hquote rest
  rw [htext, string?_of_short]
  · simp [shortString?, hread]
  · simp
  · intro tail htail
    cases hs : s.toList with
    | nil =>
      rw [hs] at htail
      have hhead : rest = '\'' :: tail := (List.cons.inj (List.cons.inj htail).2).2
      exact hrest (hhead ▸ rfl)
    | cons c cs =>
      rw [hs] at htail hquote
      obtain rfl := (List.cons.inj (List.cons.inj htail).2).1
      exact hquote List.mem_cons_self

theorem string?_basicLines (s : String) (hrest : rest.head? ≠ some '"') :
    string? ((formText .basicLines s).toList ++ rest) = some (s, rest) := by
  have htext : (formText .basicLines s).toList ++ rest =
      '"' :: '"' :: '"' :: ((if s.toList.contains '\n' then "\n" else "").toList ++
        (escapedText true 2 0 s.toList ++ '"' :: '"' :: '"' :: rest)) := by
    simp [formText, escapedText]
  have hread := basicLines_escapedText (Nat.zero_le 2) s.toList hrest
  rw [htext, string?, afterOpening_start, hread]
  · simp
  · -- What is written first is a quote, a backslash or a character of the string.
    intro hline d hd
    cases hs : s.toList with
    | nil =>
      rw [hs, escapedText_nil] at hd
      cases hd
      decide
    | cons c cs =>
      rw [hs] at hline hd
      rw [escapedText_cons] at hd
      split at hd
      · cases hd
        decide
      · rcases charText_cases true c with ⟨_, -, h⟩ | ⟨_, _, _, _, h, -⟩ | ⟨h, -, -, hreturn, -⟩ <;>
          rw [h] at hd <;> cases hd
        · decide
        · decide
        · exact ⟨fun h => hline (h ▸ List.mem_cons_self), hreturn⟩

theorem string?_literalLines {s : String} (hplain : ∀ c ∈ s.toList, isPlain c ∨ c = '\n')
    (hrun : longestRun '\'' s.toList < 3) (hrest : rest.head? ≠ some '\'') :
    string? ((formText .literalLines s).toList ++ rest) = some (s, rest) := by
  have htext : (formText .literalLines s).toList ++ rest =
      '\'' :: '\'' :: '\'' :: ((if s.toList.contains '\n' then "\n" else "").toList ++
        (s.toList ++ '\'' :: '\'' :: '\'' :: rest)) := by
    simp [formText]
  have hread := literalLines_append hplain hrun hrest
  rw [htext, string?, afterOpening_start, hread]
  · simp
  · intro hline d hd
    cases hs : s.toList with
    | nil =>
      rw [hs] at hd
      cases hd
      decide
    | cons c cs =>
      rw [hs] at hline hplain hd
      cases hd
      have hne : d ≠ '\n' := fun h => hline (h ▸ List.mem_cons_self)
      refine ⟨hne, ?_⟩
      rintro rfl
      simpa [isPlain] using hplain '\r' List.mem_cons_self

/-- **A string is read back from its written form.** -/
theorem string?_stringText (s : String) (hrest : Ends rest) :
    string? ((stringText s).toList ++ rest) = some (s, rest) := by
  have hdouble : rest.head? ≠ some '"' := hrest.head?_ne (by decide)
  have hsingle : rest.head? ≠ some '\'' := hrest.head?_ne (by decide)
  unfold stringText
  cases hform : stringForm s.toList with
  | basic => exact string?_basic s hdouble
  | literal =>
    obtain ⟨hplain, hquote⟩ := of_stringForm_eq_literal hform
    exact string?_literal hplain hquote hsingle
  | basicLines => exact string?_basicLines s hdouble
  | literalLines =>
    obtain ⟨hplain, hrun⟩ := of_stringForm_eq_literalLines hform
    exact string?_literalLines hplain hrun hsingle

end Toml

end NetPack
