import Mathlib.Algebra.GroupWithZero.Nat
import NetPack.Bytes
import NetPack.Json.Writer

/-!
# How long written documents are

The text of a document is at most as long as its `Json.weight`, which counts six characters for
every character of a string and is found without writing anything (`Json.length_render_le`). A text
has at most four bytes for each of its characters (`Bytes.length_ofString_le`).
-/

namespace NetPack

namespace Json

mutual

/-- An upper bound for the length of a document. -/
def weight : Json → Nat
  | .null => 4
  | .bool _ => 5
  | .number literal => literal.length
  | .string s => 6 * s.length + 2
  | .unreadable => 4
  | .array elements => weightAll elements + 2
  | .object members => weightMembers members + 2

/-- The bounds of several documents and the commas between them. -/
def weightAll : List Json → Nat
  | [] => 0
  | j :: rest => weight j + 1 + weightAll rest

/-- The bounds of the members of an object, with colons and commas. -/
def weightMembers : List (String × Json) → Nat
  | [] => 0
  | (name, j) :: rest => (6 * name.length + 2) + 1 + weight j + 1 + weightMembers rest

end

theorem length_escapeChar (c : Char) : (escapeChar c).length ≤ 6 := by
  unfold escapeChar
  repeat' split
  all_goals simp

theorem length_quoted (s : String) : (quoted s).length ≤ 6 * s.length + 2 := by
  have hbody : (s.toList.flatMap escapeChar).length ≤ 6 * s.toList.length := by
    induction s.toList with
    | nil => simp
    | cons c cs ih =>
      have hc := length_escapeChar c
      rw [List.flatMap_cons, List.length_append, List.length_cons]
      omega
  rw [quoted, String.length_ofList, List.length_append, List.length_cons]
  simp only [List.length_singleton, String.length_toList] at hbody ⊢
  omega

theorem length_intercalate (xs : List String) :
    (",".intercalate xs).length ≤ (xs.map fun x => x.length + 1).sum := by
  induction xs with
  | nil => simp
  | cons x xs ih =>
    cases xs with
    | nil => simp
    | cons y ys =>
      rw [String.intercalate_cons_cons, String.length_append, String.length_append, List.map_cons,
        List.sum_cons]
      simp only [show ",".length = 1 from rfl]
      omega

mutual

/-- **A document is at most as long as its weight.** -/
theorem length_render_le : ∀ j : Json, j.render.length ≤ weight j
  | .null => by rw [render, weight]; decide
  | .bool true => by rw [render, weight]; decide
  | .bool false => by rw [render, weight]; decide
  | .number literal => Nat.le_of_eq (by rw [render, weight])
  | .string s => by
    rw [render, weight]
    exact length_quoted s
  | .unreadable => by rw [render, weight]; decide
  | .array elements => by
    have hinner := Nat.le_trans (length_intercalate _) (sum_renderAll_le elements)
    rw [render, weight, String.length_append, String.length_append, show "[".length = 1 from rfl,
      show "]".length = 1 from rfl]
    omega
  | .object members => by
    have hinner := Nat.le_trans (length_intercalate _) (sum_renderMembers_le members)
    rw [render, weight, String.length_append, String.length_append,
      show "\x7b".length = 1 from rfl, show "\x7d".length = 1 from rfl]
    omega

theorem sum_renderAll_le :
    ∀ js : List Json, ((renderAll js).map fun x => x.length + 1).sum ≤ weightAll js
  | [] => by simp [renderAll, weightAll]
  | j :: rest => by
    have hj := length_render_le j
    have hrest := sum_renderAll_le rest
    rw [renderAll, weightAll, List.map_cons, List.sum_cons]
    omega

theorem sum_renderMembers_le :
    ∀ ms : List (String × Json), ((renderMembers ms).map fun x => x.length + 1).sum ≤
      weightMembers ms
  | [] => by simp [renderMembers, weightMembers]
  | (name, j) :: rest => by
    have hname := length_quoted name
    have hj := length_render_le j
    have hrest := sum_renderMembers_le rest
    rw [renderMembers, weightMembers, List.map_cons, List.sum_cons, String.length_append,
      String.length_append, show ":".length = 1 from rfl]
    omega

end

end Json

theorem Bytes.length_ofString_le (s : String) : (ofString s).length ≤ 4 * s.length := by
  have hbytes : ofString s = s.toList.flatMap String.utf8EncodeChar := by
    rw [ofString, String.toUTF8, ← String.utf8Encode_toList, List.utf8Encode,
      List.toList_data_toByteArray]
  have hlength : (s.toList.flatMap String.utf8EncodeChar).length ≤ 4 * s.toList.length := by
    induction s.toList with
    | nil => simp
    | cons c cs ih =>
      have hc := c.utf8Size_le_four
      rw [List.flatMap_cons, List.length_append, List.length_cons, String.length_utf8EncodeChar]
      omega
  rwa [hbytes, ← String.length_toList]

end NetPack
