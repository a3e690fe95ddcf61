import NetPack.Proofs.Files

/-!
# The parts of paths

A path is taken apart at its slashes, as the list of its characters is (`Path.splitOn_char`). A
path that names a file consists of the parts of the directory that holds the file, if it names one,
and of the name; parts that do not count can stand around it (`Path.Layout`, `Path.exists_layout`).
The path of the directory has the same parts in front (`Path.Layout.enclosing_cases`), and so has
the path with another name (`Path.Layout.splitOn_withFileName`), and the three start at the root
together (`Path.Layout.isAbsolute_of_base`).
-/

namespace NetPack

namespace Path

open String

/-! ### Texts and their parts -/

theorem splitOnAux_char (sep : Char) (l m r : List Char) (acc : List String) :
    splitOnAux (ofList (l ++ m ++ r)) (ofList [sep]) ⟨utf8Len l⟩ ⟨utf8Len l + utf8Len m⟩ 0 acc =
      acc.reverse ++ (List.splitOnPPrepend (· == sep) r m.reverse).map ofList := by
  have hsep : (0 : Pos.Raw).get (ofList [sep]) = sep := get_of_valid [] [sep]
  have hnext : (0 : Pos.Raw).next (ofList [sep]) = ⟨sep.utf8Size⟩ := by
    simpa using next_of_valid [] sep []
  have hend : Pos.Raw.atEnd (ofList [sep]) ⟨sep.utf8Size⟩ = true := by
    have := (atEnd_of_valid [sep] []).2 rfl
    simpa using this
  induction r generalizing l m acc with
  | nil =>
    have hdone : Pos.Raw.atEnd (ofList (l ++ m ++ [])) ⟨utf8Len l + utf8Len m⟩ = true := by
      have := (atEnd_of_valid (l ++ m) []).2 rfl
      simpa using this
    rw [splitOnAux, if_pos hdone]
    simpa using extract_of_valid l m []
  | cons c r ih =>
    have hmore : ¬Pos.Raw.atEnd (ofList (l ++ m ++ c :: r)) ⟨utf8Len l + utf8Len m⟩ = true := by
      have := mt (atEnd_of_valid (l ++ m) (c :: r)).1 (by simp)
      simpa using this
    have hget : Pos.Raw.get (ofList (l ++ m ++ c :: r)) ⟨utf8Len l + utf8Len m⟩ = c := by
      simpa using get_of_valid (l ++ m) (c :: r)
    have hstep : Pos.Raw.next (ofList (l ++ m ++ c :: r)) ⟨utf8Len l + utf8Len m⟩ =
        ⟨utf8Len l + utf8Len m + c.utf8Size⟩ := by
      simpa using next_of_valid (l ++ m) c r
    rw [splitOnAux, if_neg hmore, hget, hsep, hstep, hnext, List.splitOnPPrepend_cons_eq_if]
    by_cases hc : c = sep
    · subst hc
      have hback : Pos.Raw.unoffsetBy ⟨utf8Len l + utf8Len m + c.utf8Size⟩ ⟨c.utf8Size⟩ =
          ⟨utf8Len l + utf8Len m⟩ := by simp [Pos.Raw.unoffsetBy]
      have hextract := extract_of_valid l m (c :: r)
      have hrest := ih (l ++ m ++ [c]) [] (ofList m :: acc)
      simp only [beq_self_eq_true, if_true, hend, hback, hextract]
      simpa [Nat.add_assoc] using hrest
    · have hback : Pos.Raw.unoffsetBy ⟨utf8Len l + utf8Len m⟩ 0 = ⟨utf8Len l + utf8Len m⟩ := by
        simp [Pos.Raw.unoffsetBy]
      have hrest := ih l (m ++ [c]) acc
      simp only [beq_iff_eq, hc, if_false, hback, hstep]
      simpa [Nat.add_assoc] using hrest

/-- **A text is split at a character as the list of its characters is.** -/
theorem splitOn_char (sep : Char) (text : String) :
    text.splitOn (ofList [sep]) = (text.toList.splitOn sep).map ofList := by
  rw [splitOn, if_neg (by simp), List.splitOn]
  simpa using splitOnAux_char sep [] [] text.toList []

theorem splitOn_slash (path : String) :
    path.splitOn "/" = (path.toList.splitOn '/').map ofList := splitOn_char '/' path

theorem splitOn_append_slash (before after : String) :
    (before ++ "/" ++ after).splitOn "/" = before.splitOn "/" ++ after.splitOn "/" := by
  have htext : (before ++ "/" ++ after).toList = before.toList ++ '/' :: after.toList := by simp
  rw [splitOn_slash, htext, List.splitOn_append_cons_self, List.map_append, ← splitOn_slash,
    ← splitOn_slash]

theorem splitOn_intercalate {parts : List String} (h : ∀ part ∈ parts, '/' ∉ part.toList)
    (hne : parts ≠ []) : ("/".intercalate parts).splitOn "/" = parts := by
  have htext : ("/".intercalate parts).toList = ['/'].intercalate (parts.map String.toList) :=
    String.toList_intercalate
  rw [splitOn_slash, htext, List.splitOn_intercalate '/' (by simpa using h) (by simpa using hne)]
  simp [Function.comp_def]

theorem splitOn_of_noSlash {name : String} (h : '/' ∉ name.toList) :
    name.splitOn "/" = [name] := by
  rw [splitOn_slash, List.splitOn_eq_singleton h]
  simp

/-- No part of a path has a slash. -/
theorem noSlash_of_mem_splitOn {path part : String} (h : part ∈ path.splitOn "/") :
    '/' ∉ part.toList := by
  rw [splitOn_slash] at h
  obtain ⟨chars, hchars, rfl⟩ := List.mem_map.1 h
  rw [toList_ofList]
  clear h
  generalize path.toList = text at hchars
  induction text generalizing chars with
  | nil => simp_all
  | cons c text ih =>
    rw [List.splitOn_cons_eq_if_modifyHead] at hchars
    obtain ⟨first, rest, hsplit⟩ := List.exists_cons_of_ne_nil (List.splitOn_ne_nil '/' text)
    rw [hsplit] at hchars ih
    by_cases hc : c = '/'
    · rw [if_pos (by simpa using hc)] at hchars
      rcases List.mem_cons.1 hchars with rfl | hchars
      · simp
      · exact ih chars hchars
    · rw [if_neg (by simpa using hc)] at hchars
      rcases List.mem_cons.1 hchars with rfl | hchars
      · simpa [Ne.symm hc] using ih first List.mem_cons_self
      · exact ih chars (List.mem_cons_of_mem _ hchars)

theorem splitOn_empty : "".splitOn "/" = [""] := splitOn_of_noSlash (by simp)

theorem splitOn_root : "/".splitOn "/" = ["", ""] := by
  have hsplit := splitOn_append_slash "" ""
  rwa [splitOn_empty] at hsplit

theorem endsWith_slash {path : String} :
    path.endsWith "/" = true ↔ ∃ before, path = before ++ "/" := by
  have hsuffix : path.endsWith "/" = true ↔ ['/'] <:+ path.toList := by
    rw [← String.endsWith_toSlice, String.Slice.endsWith_string_iff]
    simp
  rw [hsuffix]
  constructor
  · rintro ⟨before, h⟩
    exact ⟨ofList before, String.toList_injective (by simpa using h.symm)⟩
  · rintro ⟨before, rfl⟩
    exact ⟨before.toList, by simp⟩

/-- A path starts at the root if its first part is empty, but for the empty path. -/
theorem isAbsolute_iff {path : String} :
    isAbsolute path = true ↔ path ≠ "" ∧ (path.splitOn "/").head? = some "" := by
  have hslash : isAbsolute path = true ↔ ['/'] <+: path.toList := by simp [isAbsolute]
  rw [hslash, splitOn_slash, Ne, ← String.toList_eq_nil_iff]
  cases path.toList with
  | nil => simp
  | cons c text =>
    rw [List.splitOn_cons_eq_if_modifyHead]
    by_cases hc : c = '/'
    · simp [hc]
    · obtain ⟨first, rest, hsplit⟩ := List.exists_cons_of_ne_nil (List.splitOn_ne_nil '/' text)
      simp [hc, Ne.symm hc, hsplit]

/-- The path of something in a directory that has a plain name. -/
theorem join_plain {directory name : String} (hdirectory : Plain directory) (h : Plain name) :
    join directory name = directory ++ "/" ++ name := by
  have hslash : ¬directory.endsWith "/" = true := by
    rw [endsWith_slash]
    rintro ⟨before, rfl⟩
    exact hdirectory.noSlash (by simp)
  rw [join, h.isAbsolute, if_neg (by simp [hdirectory.ne.1]), if_neg hslash]

theorem splitOn_join_plain {directory name : String} (hdirectory : Plain directory)
    (h : Plain name) : (join directory name).splitOn "/" = [directory, name] := by
  rw [join_plain hdirectory h, splitOn_append_slash, hdirectory.splitOn, h.splitOn]
  rfl

/-! ### Paths of files -/

/-- A part of a path that does not count. -/
def Idle (part : String) : Prop := part = "" ∨ part = "."

theorem exists_trimmed (ps : List String) :
    ∃ idle, ps = idle ++ trimmed ps ∧ ∀ p ∈ idle, Idle p := by
  fun_induction trimmed ps with
  | case1 first => exact ⟨[], rfl, by simp⟩
  | case2 part rest hrest hpart ih =>
    obtain ⟨idle, hidle, hall⟩ := ih
    have hfirst : Idle part := by simpa [Idle] using hpart
    exact ⟨part :: idle, by rw [List.cons_append, ← hidle], List.forall_mem_cons.2 ⟨hfirst, hall⟩⟩
  | case3 part rest hrest hpart => exact ⟨[], rfl, by simp⟩
  | case4 => exact ⟨[], rfl, by simp⟩

theorem trimmed_ne_nil {ps : List String} (h : ps ≠ []) : trimmed ps ≠ [] := by
  fun_induction trimmed ps with
  | case1 first => exact List.cons_ne_nil _ _
  | case2 part rest hrest hpart ih =>
    refine ih ?_
    rintro rfl
    exact hrest rfl
  | case3 part rest hrest hpart => exact List.cons_ne_nil _ _
  | case4 => exact absurd rfl h

/-- The first part that is left counts, unless it is the only one. -/
theorem not_idle_of_trimmed {ps rest : List String} {p q : String}
    (h : trimmed ps = p :: q :: rest) : ¬Idle p := by
  fun_induction trimmed ps with
  | case1 first => simp at h
  | case2 part rest hrest hpart ih => exact ih h
  | case3 part rest hrest hpart =>
    obtain ⟨rfl, -⟩ := List.cons.inj h
    simpa [Idle] using hpart
  | case4 => cases h

/-- The name of a file is the last part of its path, and it is proper. -/
theorem exists_parts_of_fileName? {path name : String} (h : fileName? path = some name) :
    ∃ rest, parts path = name :: rest ∧ name ≠ "" ∧ name ≠ "." ∧ name ≠ ".." := by
  unfold fileName? at h
  split at h
  · rename_i found rest hfound
    split at h
    · cases h
    · rename_i hproper
      obtain rfl := Option.some.inj h
      exact ⟨rest, hfound, by simpa using hproper⟩
  · cases h

/-- How a path is made up that names a file: the parts of the directory that holds it, if the path
names one, and then the name. Around the name stand parts that do not count. -/
structure Layout (path : String) where
  base : List String
  inner : List String
  name : String
  outer : List String
  parts : path.splitOn "/" = base ++ inner ++ name :: outer
  idle_inner : ∀ p ∈ inner, Idle p
  idle_outer : ∀ p ∈ outer, Idle p
  proper : name ≠ "" ∧ name ≠ "." ∧ name ≠ ".."
  fileName? : Path.fileName? path = some name
  parent? : Path.parent? path = some (if base = [] then "" else ofParts base.reverse)
  inner_nil : base = [] → inner = []
  getLast_base : base ≠ [""] → base.getLast? ≠ some ""

theorem exists_layout {path : String} (h : (fileName? path).isSome) : Nonempty (Layout path) := by
  obtain ⟨name, hname⟩ := Option.isSome_iff_exists.1 h
  obtain ⟨rest, hrest, hproper⟩ := exists_parts_of_fileName? hname
  obtain ⟨outer, houter, hidle⟩ := exists_trimmed (path.splitOn "/").reverse
  have hsplit : path.splitOn "/" = rest.reverse ++ name :: outer.reverse := by
    rw [← List.reverse_reverse (path.splitOn "/"), houter, ← parts, hrest]
    simp
  by_cases hnil : rest = []
  · subst hnil
    refine ⟨⟨[], [], name, outer.reverse, hsplit, by simp, by simpa using hidle, hproper, hname, ?_,
      fun _ => rfl, by simp⟩⟩
    rw [Path.parent?, hrest, if_pos rfl]
    exact if_neg hproper.1
  · obtain ⟨inner, hinner, hidle'⟩ := exists_trimmed rest
    have hbase : (trimmed rest).reverse ≠ [] := by simpa using trimmed_ne_nil hnil
    refine ⟨⟨(trimmed rest).reverse, inner.reverse, name, outer.reverse, ?_, by simpa using hidle',
      by simpa using hidle, hproper, hname, ?_, fun h => absurd h hbase, ?_⟩⟩
    · rw [hsplit]
      nth_rewrite 1 [hinner]
      simp
    · rw [Path.parent?, hrest, if_neg hbase, List.reverse_reverse]
      obtain ⟨first, others, rfl⟩ := List.exists_cons_of_ne_nil hnil
      rfl
    · intro hroot hlast
      obtain ⟨first, others, htrimmed⟩ := List.exists_cons_of_ne_nil (trimmed_ne_nil hnil)
      rw [htrimmed, List.getLast?_reverse, List.head?_cons, Option.some_inj] at hlast
      subst hlast
      cases others with
      | nil => exact hroot (by rw [htrimmed]; rfl)
      | cons second others => exact not_idle_of_trimmed htrimmed (.inl rfl)

namespace Layout

variable {path : String} (l : Layout path)

theorem noSlash_base : ∀ p ∈ l.base, '/' ∉ p.toList := by
  intro p hp
  have hmem : p ∈ path.splitOn "/" := by
    rw [l.parts]
    simp [hp]
  exact noSlash_of_mem_splitOn hmem

theorem noSlash_name : '/' ∉ l.name.toList := by
  have hmem : l.name ∈ path.splitOn "/" := by
    rw [l.parts]
    simp
  exact noSlash_of_mem_splitOn hmem

theorem splitOn_ofParts (h : l.base ≠ []) (hroot : l.base ≠ [""]) :
    (ofParts l.base.reverse).splitOn "/" = l.base := by
  have hparts : ofParts l.base.reverse = "/".intercalate l.base := by
    unfold ofParts
    split
    · rename_i hreverse
      exact absurd (List.reverse_eq_iff.1 hreverse) hroot
    · rw [List.reverse_reverse]
  rw [hparts, splitOn_intercalate l.noSlash_base h]

theorem ofParts_ne (h : l.base ≠ []) : ofParts l.base.reverse ≠ "" := by
  intro hempty
  by_cases hroot : l.base = [""]
  · rw [hroot] at hempty
    exact absurd hempty (by decide)
  · have hsplit := l.splitOn_ofParts h hroot
    rw [hempty, splitOn_empty] at hsplit
    exact hroot hsplit.symm

/-- **The directory that holds the file has the parts in front of the name**, and one more that does
not count if it is the root. -/
theorem enclosing_cases :
    (l.base = [] ∧ enclosing? path = none) ∨
      ∃ directory idle, l.base ≠ [] ∧ enclosing? path = some directory ∧ directory ≠ "" ∧
        directory.splitOn "/" = l.base ++ idle ∧ ∀ p ∈ idle, Idle p := by
  by_cases h : l.base = []
  · refine .inl ⟨h, ?_⟩
    rw [enclosing?, l.parent?, if_pos h]
    rfl
  · have hne := l.ofParts_ne h
    have henclosing : enclosing? path = some (ofParts l.base.reverse) := by
      rw [enclosing?, l.parent?, if_neg h]
      simpa using hne
    by_cases hroot : l.base = [""]
    · have hsplit : (ofParts l.base.reverse).splitOn "/" = l.base ++ [""] := by
        rw [hroot]
        exact splitOn_root
      exact .inr ⟨_, [""], h, henclosing, hne, hsplit, by simp [Idle]⟩
    · have hsplit : (ofParts l.base.reverse).splitOn "/" = l.base ++ [] := by
        rw [l.splitOn_ofParts h hroot, List.append_nil]
      exact .inr ⟨_, [], h, henclosing, hne, hsplit, by simp⟩

/-- **The path with another name has the same parts in front of it.** -/
theorem splitOn_withFileName {name : String} (h : '/' ∉ name.toList) :
    (withFileName path name).splitOn "/" = l.base ++ [name] := by
  have hrelative : isAbsolute name = false := by
    rw [Bool.eq_false_iff, Ne, isAbsolute_iff, splitOn_of_noSlash h]
    simp
  rw [withFileName, l.fileName?, l.parent?]
  dsimp only
  by_cases hbase : l.base = []
  · rw [if_pos hbase, join, if_pos (by simp), hbase, splitOn_of_noSlash h]
    rfl
  · rw [if_neg hbase, join, if_neg (by simp [hrelative, l.ofParts_ne hbase])]
    by_cases hroot : l.base = [""]
    · have hslash : (ofParts l.base.reverse).endsWith "/" = true := by
        rw [hroot, endsWith_slash]
        exact ⟨"", by decide⟩
      rw [if_pos hslash, hroot]
      have hsplit := splitOn_append_slash "" name
      rwa [splitOn_empty, splitOn_of_noSlash h, String.empty_append] at hsplit
    · have hsplit := l.splitOn_ofParts hbase hroot
      have hslash : ¬(ofParts l.base.reverse).endsWith "/" = true := by
        rw [endsWith_slash]
        rintro ⟨before, hbefore⟩
        have hlast := splitOn_append_slash before ""
        rw [String.append_empty, splitOn_empty, ← hbefore, hsplit] at hlast
        exact l.getLast_base hroot (by rw [hlast, List.getLast?_concat])
      rw [if_neg hslash, splitOn_append_slash, hsplit, splitOn_of_noSlash h]

/-- Paths with the parts of the directory in front start at the root together. -/
theorem isAbsolute_of_base {other : String} {rest : List String} (hne : other ≠ "")
    (hparts : other.splitOn "/" = l.base ++ rest) (hrest : l.base = [] → rest.head? ≠ some "") :
    isAbsolute other = isAbsolute path := by
  have hpath : path ≠ "" := by
    rintro rfl
    have hname : l.name ∈ "".splitOn "/" := by
      rw [l.parts]
      simp
    rw [splitOn_empty, List.mem_singleton] at hname
    exact l.proper.1 hname
  rw [Bool.eq_iff_iff, isAbsolute_iff, isAbsolute_iff, hparts, l.parts]
  rcases hbase : l.base with _ | ⟨first, others⟩
  · simp [hrest hbase, l.inner_nil hbase, l.proper.1]
  · simp [hne, hpath]

end Layout

end Path

end NetPack
