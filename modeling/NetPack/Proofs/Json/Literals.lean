import Mathlib.Data.List.TakeDrop
import Mathlib.Data.List.TakeWhile
import NetPack.Json.Number
import NetPack.Json.Token
import NetPack.Json.Writer
import NetPack.Proofs.Decimals

/-!
# Strings and numbers as they are written and read

The written form of a string is read back as that string (`Token.next?_quoted`), and a written
number is read up to its last character when nothing that could belong to it follows
(`Token.number?_append`). Words and single-precision numbers are written as numbers
(`Token.isNumber_repr`, `Token.isNumber_single`), and a word is read back as itself
(`wordOfLiteral?_repr`).
-/

namespace NetPack

namespace Json

/-! ### Values of digits -/

theorem digitsValue_toDigits (n : Nat) : digitsValue (Nat.toDigits 10 n) = n := by
  simpa [digitsValue, Nat.ofDigitChars_eq_foldl, Nat.mul_comm] using
    Nat.ofDigitChars_ten_toDigits (n := n)

theorem foldl_digits (ds : List Char) (n : Nat) :
    ds.foldl (fun acc d => acc * 10 + (d.toNat - '0'.toNat)) n =
      n * 10 ^ ds.length + digitsValue ds := by
  induction ds generalizing n with
  | nil => simp [digitsValue]
  | cons d ds ih =>
    rw [digitsValue, List.foldl_cons, List.foldl_cons, ih, ih (0 * 10 + _), List.length_cons]
    ring

theorem digitsValue_append (ds es : List Char) :
    digitsValue (ds ++ es) = digitsValue ds * 10 ^ es.length + digitsValue es := by
  rw [digitsValue, List.foldl_append, foldl_digits]
  rfl

theorem digitsValue_zeros (k : Nat) : digitsValue (List.replicate k '0') = 0 := by
  induction k with
  | zero => rfl
  | succ k ih =>
    rw [List.replicate_succ', digitsValue_append, ih]
    rfl

namespace Token

/-! ### Strings -/

/-- The control characters that have an escape of one letter. -/
def shortControls : List Char := ['\x08', '\x0c', '\n', '\r', '\t']

/-- The part of a string that the written form of a character is read as. -/
def partOf (c : Char) : Part :=
  if c.toNat < 0x20 ∧ c ∉ shortControls then .unit c.toNat else .char c

theorem hex4?_hexDigit :
    ∀ n < 0x20, hex4? '0' '0' (hexDigit (n / 16)) (hexDigit (n % 16)) = some n := by decide

theorem parts?_plain {c : Char} (hquote : c ≠ '"') (hslash : c ≠ '\\') (hc : ¬ c.toNat < 0x20)
    (rest : List Char) :
    parts? (c :: rest) = (parts? rest).map fun p => (.char c :: p.1, p.2) := by
  rw [parts?.eq_def]
  split
  case h_1 => exact absurd (List.cons.inj ‹_›).1 hquote
  case h_2 | h_3 => exact absurd (List.cons.inj ‹_›).1 hslash
  case h_4 heq =>
    obtain ⟨rfl, rfl⟩ := List.cons.inj heq
    rw [if_neg hc]
    exact Option.map_eq_bind.symm
  case h_5 => cases ‹_›

/-- What is read of an escaped character does not depend on what follows. -/
theorem parts?_escapeChar (c : Char) (rest : List Char) :
    parts? (escapeChar c ++ rest) = (parts? rest).map fun p => (partOf c :: p.1, p.2) := by
  by_cases hshort : c ∈ '"' :: '\\' :: shortControls
  · -- Seven characters, each with its letter.
    simp only [shortControls, List.mem_cons, List.not_mem_nil, or_false] at hshort
    rcases hshort with rfl | rfl | rfl | rfl | rfl | rfl | rfl <;>
      exact Option.map_eq_bind.symm
  · simp only [shortControls, List.mem_cons, List.not_mem_nil, or_false, not_or] at hshort
    obtain ⟨hquote, hslash, hback, hfeed, hline, hreturn, htab⟩ := hshort
    simp only [escapeChar, hquote, hslash, hback, hfeed, hline, hreturn, htab, ↓reduceIte]
    by_cases hcontrol : c.toNat < 0x20
    · have hunit : partOf c = .unit c.toNat := if_pos ⟨hcontrol, by simp [shortControls, *]⟩
      rw [if_pos hcontrol]
      change (hex4? '0' '0' (hexDigit (c.toNat / 16)) (hexDigit (c.toNat % 16))).bind _ = _
      rw [hex4?_hexDigit _ hcontrol, hunit]
      exact Option.map_eq_bind.symm
    · rw [if_neg hcontrol, List.singleton_append, parts?_plain hquote hslash hcontrol]
      simp [partOf, hcontrol]

theorem parts?_flatMap_escapeChar (cs rest : List Char) :
    parts? (cs.flatMap escapeChar ++ '"' :: rest) = some (cs.map partOf, rest) := by
  induction cs with
  | nil => rfl
  | cons c cs ih =>
    rw [List.flatMap_cons, List.append_assoc, parts?_escapeChar, ih]
    rfl

theorem joinParts_unit {n : Nat} (h : n < 0xd800) (ps : List Part) :
    joinParts (.unit n :: ps) = (joinParts ps).map (Char.ofNat n :: ·) := by
  have hhigh : isHighSurrogate n = false := by simp [isHighSurrogate]; omega
  have hlow : isLowSurrogate n = false := by simp [isLowSurrogate]; omega
  rcases ps with _ | ⟨_ | _, _⟩ <;> simp [joinParts, hhigh, hlow]

theorem joinParts_map_partOf (cs : List Char) : joinParts (cs.map partOf) = some cs := by
  induction cs with
  | nil => rfl
  | cons c cs ih =>
    rw [List.map_cons, partOf]
    split
    · rename_i hcontrol
      rw [joinParts_unit (by omega), ih, Char.ofNat_toNat]
      rfl
    · rw [joinParts, ih]
      rfl

theorem next?_quoted (s : String) (rest : List Char) :
    next? ((quoted s).toList ++ rest) = some (.string s, rest) := by
  have hquoted :
      (quoted s).toList ++ rest = '"' :: (s.toList.flatMap escapeChar ++ '"' :: rest) := by
    simp [quoted]
  rw [hquoted, next?, parts?_flatMap_escapeChar, Option.bind_eq_bind, Option.bind_some]
  simp [joinParts_map_partOf]

/-! ### Numbers -/

/-- Decimal digits, at least one. -/
def IsDigits (ds : List Char) : Prop := ds ≠ [] ∧ ∀ d ∈ ds, d.isDigit

/-- The digits before the point: zero, or digits that do not start with zero. -/
def IsWhole (ds : List Char) : Prop := IsDigits ds ∧ (ds.head? = some '0' → ds = ['0'])

/-- The point and the digits after it, or nothing. -/
def IsFraction (cs : List Char) : Prop := cs = [] ∨ ∃ ds, IsDigits ds ∧ cs = '.' :: ds

/-- An exponent with its sign, or nothing. -/
def IsExponent (cs : List Char) : Prop :=
  cs = [] ∨ ∃ sign ∈ ['+', '-'], ∃ ds, IsDigits ds ∧ cs = 'e' :: sign :: ds

/-- A written number without a sign. -/
def IsUnsigned (cs : List Char) : Prop :=
  ∃ w f e, IsWhole w ∧ IsFraction f ∧ IsExponent e ∧ cs = w ++ f ++ e

/-- A written number. -/
def IsNumber (cs : List Char) : Prop :=
  IsUnsigned cs ∨ ∃ size, IsUnsigned size ∧ cs = '-' :: size

/-- The text does not go on with a digit. -/
def NoDigit (rest : List Char) : Prop := ∀ c ∈ rest.head?, c.isDigit = false

/-- The text does not go on with a character that could belong to a number. -/
def Ends (rest : List Char) : Prop :=
  ∀ c ∈ rest.head?, c.isDigit = false ∧ c ≠ '.' ∧ c ≠ 'e' ∧ c ≠ 'E'

theorem Ends.noDigit {rest : List Char} (h : Ends rest) : NoDigit rest := fun c hc => (h c hc).1

theorem noDigit_cons {c : Char} {rest : List Char} (h : c.isDigit = false) :
    NoDigit (c :: rest) := by
  intro d hd
  cases hd
  exact h

theorem digits_append {ds rest : List Char} (hds : ∀ d ∈ ds, d.isDigit) (hrest : NoDigit rest) :
    digits (ds ++ rest) = (ds, rest) := by
  have hstop : rest.takeWhile Char.isDigit = [] ∧ rest.dropWhile Char.isDigit = rest := by
    cases rest with
    | nil => exact ⟨rfl, rfl⟩
    | cons c rest => simp [hrest c rfl]
  rw [digits, List.span_eq_takeWhile_dropWhile, List.takeWhile_append_of_pos hds,
    List.dropWhile_append_of_pos hds, hstop.1, hstop.2, List.append_nil]

theorem whole?_append {w rest : List Char} (hw : IsWhole w) (hrest : NoDigit rest) :
    whole? (w ++ rest) = some (w, rest) := by
  obtain ⟨⟨hne, hdigits⟩, hzero⟩ := hw
  unfold whole?
  split
  · rename_i heq
    have hw : w = ['0'] := by
      cases w with
      | nil => exact absurd rfl hne
      | cons c w => cases heq; exact hzero rfl
    subst hw
    cases heq
    change (if rest.head?.any Char.isDigit then none else some (['0'], rest)) = some (['0'], rest)
    rw [(Option.any_eq_false _ _).2 hrest]
    rfl
  · rw [digits_append hdigits hrest]
    simp [hne]

theorem fraction?_append {f rest : List Char} (hf : IsFraction f) (hrest : NoDigit rest)
    (hpoint : ∀ c ∈ rest.head?, c ≠ '.') : fraction? (f ++ rest) = some (f, rest) := by
  rcases hf with rfl | ⟨ds, hds, rfl⟩
  · unfold fraction?
    split
    · rename_i heq
      rw [List.nil_append] at heq
      subst heq
      exact absurd rfl (hpoint '.' rfl)
    · rfl
  · rw [List.cons_append, fraction?, digits_append hds.2 hrest]
    simp [hds.1]

theorem exponent?_append {e rest : List Char} (he : IsExponent e) (hrest : Ends rest) :
    exponent? (e ++ rest) = some (e, rest) := by
  rcases he with rfl | ⟨sign, hsign, ds, hds, rfl⟩
  · cases rest with
    | nil => rfl
    | cons c rest =>
      have hc := hrest c rfl
      simp [exponent?, hc.2.2]
  · simp only [List.mem_cons, List.not_mem_nil, or_false] at hsign
    rcases hsign with rfl | rfl <;> simp [exponent?, digits_append hds.2 hrest.noDigit, hds.1]

theorem IsUnsigned.exists_cons {cs : List Char} (h : IsUnsigned cs) :
    ∃ d rest, cs = d :: rest ∧ d.isDigit := by
  obtain ⟨w, f, e, hw, -, -, rfl⟩ := h
  obtain ⟨d, w, rfl⟩ := List.exists_cons_of_ne_nil hw.1.1
  exact ⟨d, w ++ f ++ e, rfl, hw.1.2 d List.mem_cons_self⟩

theorem IsNumber.exists_cons {cs : List Char} (h : IsNumber cs) :
    ∃ c rest, cs = c :: rest ∧ (c = '-' ∨ c.isDigit) := by
  rcases h with h | ⟨size, -, rfl⟩
  · obtain ⟨d, rest, heq, hd⟩ := h.exists_cons
    exact ⟨d, rest, heq, .inr hd⟩
  · exact ⟨'-', size, rfl, .inl rfl⟩

/-- The three parts of a number are read one after the other. -/
theorem readParts_append {cs rest : List Char} (h : IsUnsigned cs) (hrest : Ends rest)
    (sign : List Char) :
    (do
      let (w, rest) ← whole? (cs ++ rest)
      let (f, rest) ← fraction? rest
      let (e, rest) ← exponent? rest
      return (sign ++ w ++ f ++ e, rest)) = some (sign ++ cs, rest) := by
  obtain ⟨w, f, e, hw, hf, he, rfl⟩ := h
  have hexponent : NoDigit (e ++ rest) ∧ ∀ c ∈ (e ++ rest).head?, c ≠ '.' := by
    rcases he with rfl | ⟨mark, -, ds, -, rfl⟩
    · exact ⟨hrest.noDigit, fun c hc => (hrest c hc).2.1⟩
    · exact ⟨noDigit_cons rfl, by simp⟩
  have hfraction : NoDigit (f ++ (e ++ rest)) := by
    rcases hf with rfl | ⟨ds, -, rfl⟩
    · exact hexponent.1
    · exact noDigit_cons rfl
  simp only [List.append_assoc, whole?_append hw hfraction,
    fraction?_append hf hexponent.1 hexponent.2, exponent?_append he hrest, Option.bind_eq_bind,
    Option.bind_some, Option.pure_def]

/-- **A written number is read up to its last character** if the text does not go on with a
character that could belong to it. -/
theorem number?_append {cs rest : List Char} (h : IsNumber cs) (hrest : Ends rest) :
    number? (cs ++ rest) = some (cs, rest) := by
  rcases h with h | ⟨size, h, rfl⟩
  · have hread := readParts_append h hrest []
    obtain ⟨d, cs, rfl, hd⟩ := h.exists_cons
    have hsign : d ≠ '-' := by
      rintro rfl
      exact absurd hd (by decide)
    simpa [number?, hsign] using hread
  · exact readParts_append h hrest ['-']

theorem next?_number {cs rest : List Char} (h : IsNumber cs) (hrest : Ends rest) :
    next? (cs ++ rest) = some (.number (String.ofList cs), rest) := by
  have hread := number?_append h hrest
  obtain ⟨c, cs, rfl, hc⟩ := h.exists_cons
  -- No other token starts with a minus sign or a digit.
  have hother : ∀ p ∈ ['[', ']', '\x7b', '\x7d', ',', ':', '"', 'n', 't', 'f'],
      ¬ (p = '-' ∨ p.isDigit) := by simp [Char.isDigit]
  rw [List.cons_append] at hread ⊢
  unfold next?
  split
  all_goals first
    | rename_i heq; exact absurd ((List.cons.inj heq).1 ▸ hc) (hother _ (by decide))
    | rw [hread]; rfl

/-! ### Decimal digits of natural numbers -/

theorem isDigits_toDigits (n : Nat) : IsDigits (Nat.toDigits 10 n) :=
  ⟨Nat.toDigits_ne_nil, fun _ => Nat.isDigit_of_mem_toDigits (by decide) (by decide)⟩

theorem head?_toDigits {n : Nat} (h : 0 < n) : (Nat.toDigits 10 n).head? ≠ some '0' := by
  induction n using Nat.strongRecOn with
  | ind n ih =>
    by_cases hn : n < 10
    · rw [Nat.toDigits_of_lt_base hn]
      simp
      omega
    · rw [Nat.toDigits_of_base_le (by decide) (by omega), List.head?_append,
        List.head?_eq_some_head Nat.toDigits_ne_nil, Option.some_or]
      rw [← List.head?_eq_some_head Nat.toDigits_ne_nil]
      exact ih (n / 10) (by omega) (by omega)

theorem isWhole_toDigits (n : Nat) : IsWhole (Nat.toDigits 10 n) := by
  refine ⟨isDigits_toDigits n, fun h => ?_⟩
  by_cases hn : 0 < n
  · exact absurd h (head?_toDigits hn)
  · obtain rfl : n = 0 := by omega
    rfl

theorem isNumber_repr (n : Nat) : IsNumber n.repr.toList := by
  rw [Nat.toList_repr]
  exact .inl ⟨_, [], [], isWhole_toDigits n, .inl rfl, .inl rfl, by simp⟩

/-! ### Decimals -/

theorem toList_pushn (c : Char) (n : Nat) : ("".pushn c n).toList = List.replicate n c := by
  rw [String.pushn_eq_repeat_push]
  induction n with
  | zero => rfl
  | succ n ih =>
    rw [Nat.repeat, String.toList_push, ih, List.replicate_succ']

theorem IsDigits.of_forall_mem {ds cs : List Char} (h : IsDigits ds) (hne : cs ≠ [])
    (hmem : ∀ c ∈ cs, c ∈ ds ∨ c = '0') : IsDigits cs := by
  refine ⟨hne, fun c hc => ?_⟩
  rcases hmem c hc with hc | rfl
  · exact h.2 c hc
  · rfl

/-- Digits that start with those of a number without leading zeros have none either. -/
theorem IsWhole.of_head? {w cs : List Char} (h : w.head? ≠ some '0') (hcs : IsDigits cs)
    (hhead : cs.head? = w.head?) : IsWhole cs :=
  ⟨hcs, fun hzero => absurd (hhead ▸ hzero) h⟩

theorem isWhole_digit {c : Char} (h : c.isDigit) : IsWhole [c] :=
  ⟨⟨by simp, by simpa using h⟩, fun hzero => by cases hzero; rfl⟩

theorem isUnsigned_point {w ds : List Char} (hw : IsWhole w) (hds : IsDigits ds) :
    IsUnsigned (w ++ '.' :: ds) :=
  ⟨w, _, [], hw, .inr ⟨ds, hds, rfl⟩, .inl rfl, by simp⟩

section

open Decimal

/-- Digits on both sides of a point that have the value of a decimal. -/
structure IsLayout (n : Nat) (exponent : Int) (w f : List Char) : Prop where
  whole : IsWhole w
  fraction : IsDigits f
  places : 0 ≤ exponent + f.length
  value : digitsValue (w ++ f) = n * 10 ^ (exponent + f.length).toNat

theorem length_repr (n : Nat) : n.repr.length = (Nat.toDigits 10 n).length := by
  rw [← String.length_toList, Nat.toList_repr]

/-- A whole number is its digits and the zeros that its exponent stands for. -/
theorem isLayout_zeros_after {n : Nat} {exponent : Int} (h : n = 0 → exponent = 0)
    (hexponent : 0 ≤ exponent) :
    IsLayout n exponent (Nat.toDigits 10 n ++ List.replicate exponent.toNat '0') ['0'] where
  whole := by
    have hds := isDigits_toDigits n
    by_cases hn : 0 < n
    · refine .of_head? (head?_toDigits hn) (hds.of_forall_mem (by simp [hds.1]) ?_) ?_
      · intro c hc
        rcases List.mem_append.1 hc with hc | hc
        · exact .inl hc
        · exact .inr (List.eq_of_mem_replicate hc)
      · rw [List.head?_append, List.head?_eq_some_head hds.1, Option.some_or]
    · obtain rfl : n = 0 := by omega
      rw [h rfl]
      exact isWhole_toDigits 0
  fraction := (isWhole_digit rfl).1
  places := by simp; omega
  value := by
    have hpower : (exponent + (['0'].length : Int)).toNat = exponent.toNat + 1 := by
      simp
      omega
    have hzeros := digitsValue_zeros (exponent.toNat + 1)
    rw [hpower, List.append_assoc, ← List.replicate_succ', digitsValue_append, hzeros,
      digitsValue_toDigits, List.length_replicate, Nat.add_zero]

/-- With fewer places than digits the point stands between the digits. -/
theorem isLayout_point_within {n places : Nat} (hn : 0 < n) (hpos : 0 < places)
    (hplaces : places < n.repr.length) :
    IsLayout n (-places) ((Nat.toDigits 10 n).take (n.repr.length - places))
      ((Nat.toDigits 10 n).drop (n.repr.length - places)) := by
  have hds := isDigits_toDigits n
  have hlength := length_repr n
  have hf : ((Nat.toDigits 10 n).drop (n.repr.length - places)).length = places := by
    rw [List.length_drop]
    omega
  have hpower : (-places + places : Int).toNat = 0 := by omega
  refine ⟨.of_head? (head?_toDigits hn) (hds.of_forall_mem ?_ ?_) ?_,
    hds.of_forall_mem ?_ fun c hc => .inl (List.mem_of_mem_drop hc), by omega, ?_⟩
  · simp [hds.1]; omega
  · exact fun c hc => .inl (List.mem_of_mem_take hc)
  · rw [List.head?_take, if_neg (by omega)]
  · simp; omega
  · rw [hf, hpower, List.take_append_drop, digitsValue_toDigits, Nat.pow_zero, Nat.mul_one]

/-- With as many places as digits or more, zeros stand between the point and the digits. -/
theorem isLayout_zeros_before {n places : Nat} (hplaces : n.repr.length ≤ places) :
    IsLayout n (-places) ['0']
      (List.replicate (places - n.repr.length) '0' ++ Nat.toDigits 10 n) := by
  have hds := isDigits_toDigits n
  have hlength := length_repr n
  have hf : (List.replicate (places - n.repr.length) '0' ++ Nat.toDigits 10 n).length =
      places := by
    rw [List.length_append, List.length_replicate]
    omega
  have hpower : (-places + places : Int).toNat = 0 := by omega
  have hzeros := digitsValue_zeros (places - n.repr.length + 1)
  refine ⟨isWhole_toDigits 0, hds.of_forall_mem (by simp [hds.1]) fun c hc => ?_, by omega, ?_⟩
  · rcases List.mem_append.1 hc with hc | hc
    · exact .inr (List.eq_of_mem_replicate hc)
    · exact .inl hc
  · rw [hf, hpower, ← List.append_assoc, ← List.replicate_one, ← List.replicate_add,
      Nat.add_comm 1, digitsValue_append, hzeros, digitsValue_toDigits, Nat.pow_zero,
      Nat.mul_one, Nat.zero_mul, Nat.zero_add]

/-- **The positional layout of a decimal**: digits on both sides of the point that have the value of
the decimal. -/
theorem exists_plain {n : Nat} {exponent : Int} (h : n = 0 → exponent = 0) :
    ∃ w f, (Notation.plain n.repr exponent).toList = w ++ '.' :: f ∧ IsLayout n exponent w f := by
  unfold Notation.plain
  by_cases hexponent : 0 ≤ exponent
  · rw [if_pos hexponent]
    exact ⟨_, _, by simp [toList_pushn, Nat.toList_repr], isLayout_zeros_after h hexponent⟩
  · obtain ⟨places, hpos, rfl⟩ : ∃ places : Nat, 0 < places ∧ exponent = -places :=
      ⟨exponent.natAbs, by omega⟩
    have hn : 0 < n := Nat.pos_of_ne_zero fun hn => hexponent (h hn ▸ Int.le_refl 0)
    rw [if_neg hexponent, Int.neg_neg, Int.toNat_natCast]
    dsimp only
    by_cases hplaces : places < n.repr.length
    · rw [if_pos hplaces]
      exact ⟨_, _, by simp [Nat.toList_repr], isLayout_point_within hn hpos hplaces⟩
    · rw [if_neg hplaces]
      exact ⟨_, _, by simp [toList_pushn, Nat.toList_repr],
        isLayout_zeros_before (Nat.not_lt.1 hplaces)⟩

theorem isUnsigned_plain {n : Nat} {exponent : Int} (h : n = 0 → exponent = 0) :
    IsUnsigned (Notation.plain n.repr exponent).toList := by
  obtain ⟨w, f, htext, hw, hf, -, -⟩ := exists_plain h
  rw [htext]
  exact isUnsigned_point hw hf

theorem isUnsigned_scientific (n : Nat) (power : Int) :
    IsUnsigned (singleNotation.scientific n.repr power).toList := by
  have hds := isDigits_toDigits n
  obtain ⟨d, ds, heq⟩ := List.exists_cons_of_ne_nil hds.1
  have hd : IsWhole [d] := isWhole_digit (hds.2 d (heq ▸ List.mem_cons_self))
  have hf : IsFraction (if ds = [] then [] else '.' :: ds) := by
    by_cases hempty : ds = []
    · exact .inl (if_pos hempty)
    · refine .inr ⟨ds, ⟨hempty, fun c hc => hds.2 c ?_⟩, if_neg hempty⟩
      rw [heq]
      exact List.mem_cons_of_mem d hc
  have he : IsExponent ('e' :: (if power < 0 then '-' else '+') ::
      Nat.toDigits 10 power.natAbs) := by
    refine .inr ⟨_, ?_, _, isDigits_toDigits power.natAbs, rfl⟩
    by_cases hpower : power < 0 <;> simp [hpower]
  have htext : (singleNotation.scientific n.repr power).toList =
      [d] ++ (if ds = [] then [] else '.' :: ds) ++
        ('e' :: (if power < 0 then '-' else '+') :: Nat.toDigits 10 power.natAbs) := by
    have hfirst : (n.repr.take 1).toString.toList = [d] := by simp [Nat.toList_repr, heq]
    have hrest : (n.repr.drop 1).toString.toList = ds := by simp [Nat.toList_repr, heq]
    have hexponent : (if power < 0 then "e-" ++ (-power).toNat.repr
        else "e" ++ singleNotation.positiveMark ++ power.toNat.repr).toList =
        'e' :: (if power < 0 then '-' else '+') :: Nat.toDigits 10 power.natAbs := by
      by_cases hpower : power < 0
      · have habs : (-power).toNat = power.natAbs := by omega
        simp [hpower, habs]
      · have habs : power.toNat = power.natAbs := by omega
        simp [hpower, habs, singleNotation]
    unfold Notation.scientific
    generalize (n.repr.take 1).toString = first at hfirst ⊢
    generalize (n.repr.drop 1).toString = rest at hrest ⊢
    rw [String.toList_append, hexponent, ← hrest, String.toList_append, hfirst]
    by_cases hempty : rest = "" <;> simp [hempty]
  exact ⟨[d], _, _, hd, hf, he, htext⟩

theorem isUnsigned_positive {d : Finite} (h : d.digits = 0 → d.exponent = 0) :
    IsUnsigned (singleNotation.positive d).toList := by
  unfold Notation.positive
  dsimp only
  split
  · exact isUnsigned_plain h
  · exact isUnsigned_scientific d.digits _

theorem isNumber_single {x : Binary32} (hx : x.isFinite) :
    IsNumber (singleNotation.single x).toList := by
  have hnan : x.isNaN = false := Binary32.isNaN_of_isFinite hx
  have hsize : IsUnsigned (if x.isZero then "0.0"
      else if x.isFinite then singleNotation.positive ((Dyadic.ofBinary32 x).shortest .toEven)
      else "null").toList := by
    by_cases hzero : x.isZero
    · rw [if_pos hzero]
      exact isUnsigned_point (isWhole_digit (c := '0') rfl) (isWhole_digit (c := '0') rfl).1
    · rw [if_neg hzero, if_pos hx]
      refine isUnsigned_positive (Dyadic.exponent_shortest ?_ _)
      exact Dyadic.significand_pos (by simpa using hzero)
  unfold Notation.single
  rw [if_neg (by simp [hnan]), String.toList_append]
  by_cases hsign : x.signBit
  · rw [if_pos hsign]
    exact .inr ⟨_, hsize, rfl⟩
  · rw [if_neg hsign]
    exact .inl hsize

end

end Token

/-! ### Values of numbers -/

theorem ofLiteral_repr (n : Nat) :
    NumberParts.ofLiteral n.repr = ⟨false, Nat.toDigits 10 n, none, none⟩ := by
  have hds := Token.isDigits_toDigits n
  have hspan : (Nat.toDigits 10 n).span Char.isDigit = (Nat.toDigits 10 n, []) := by
    have h : Token.digits (Nat.toDigits 10 n ++ []) = (Nat.toDigits 10 n, []) :=
      Token.digits_append hds.2 (by simp [Token.NoDigit])
    rwa [List.append_nil] at h
  obtain ⟨d, ds, heq⟩ := List.exists_cons_of_ne_nil hds.1
  have hd : d ≠ '-' := by
    rintro rfl
    exact absurd (hds.2 '-' (heq ▸ List.mem_cons_self)) (by decide)
  rw [heq] at hspan
  simp [NumberParts.ofLiteral, Nat.toList_repr, heq, hd, hspan, -List.span_eq_takeWhile_dropWhile]

theorem wordOfLiteral?_repr {n : Nat} (h : n < Word.modulus) : wordOfLiteral? n.repr = some n := by
  simp [wordOfLiteral?, ofLiteral_repr, digitsValue_toDigits, NumberParts.isWhole, h]

theorem isSome_floatOfLiteral? (literal : String) :
    (floatOfLiteral? literal).isSome = (singleOfLiteral? literal).isSome := by
  unfold floatOfLiteral? singleOfLiteral?
  dsimp only
  split
  · rfl
  · split
    · rfl
    · rw [Option.isSome_map]

end Json

end NetPack
