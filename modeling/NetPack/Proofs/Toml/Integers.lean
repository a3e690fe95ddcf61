import NetPack.Proofs.Toml.Documents

/-!
# The integers of parsed documents

An integer is read only if it has 64 bits. Tables under construction keep the values that are added
to them, so that all integers of a document have 64 bits (`inRange_of_parse?`), however deep they
stand.
-/

namespace NetPack

namespace Toml

variable {v : Toml} {cs rest : List Char}

/-- All integers of a value have 64 bits. -/
inductive InRange : Toml → Prop
  | string (s : String) : InRange (string s)
  | integer {i : Int} (hmin : minInteger ≤ i) (hmax : i ≤ maxInteger) : InRange (integer i)
  | float (x : Float) : InRange (float x)
  | boolean (b : Bool) : InRange (boolean b)
  | moment (written : String) : InRange (moment written)
  | array {vs : List Toml} (hvs : ∀ v ∈ vs, InRange v) : InRange (array vs)
  | table {ms : List (String × Toml)} (hms : ∀ m ∈ ms, InRange m.2) : InRange (table ms)

/-! ### Numbers -/

theorem inRange_of_bounded? {i : Int} (h : bounded? i = some v) : InRange v := by
  unfold bounded? at h
  split at h
  · rename_i hrange
    obtain ⟨hmin, hmax⟩ := Bool.and_eq_true_iff.1 hrange
    cases h
    exact .integer (of_decide_eq_true hmin) (of_decide_eq_true hmax)
  · cases h

theorem inRange_of_based? {base : Nat} (h : based? base cs = some (v, rest)) : InRange v := by
  unfold based? at h
  simp only [Option.bind_eq_bind, Option.bind_eq_some_iff, Option.pure_def, Option.some.injEq,
    Prod.mk.injEq] at h
  obtain ⟨⟨ds, tail⟩, -, w, hw, rfl, -⟩ := h
  exact inRange_of_bounded? hw

theorem inRange_of_integer? (h : integer? cs = some (v, rest)) : InRange v := by
  unfold integer? at h
  split at h
  · exact inRange_of_based? h
  · exact inRange_of_based? h
  · exact inRange_of_based? h
  · simp only [Option.bind_eq_bind, Option.bind_eq_some_iff, Option.pure_def, Option.some.injEq,
      Prod.mk.injEq] at h
    obtain ⟨⟨ds, tail⟩, -, w, hw, rfl, -⟩ := h
    exact inRange_of_bounded? hw

theorem inRange_of_decimal? (h : decimal? cs = some (v, rest)) : InRange v := by
  unfold decimal? at h
  simp only [Option.bind_eq_bind, Option.bind_eq_some_iff] at h
  obtain ⟨⟨w, tail⟩, -, h⟩ := h
  split at h
  · cases h
  · dsimp only at h
    split at h
    · cases h
    · cases h
      exact .float _

theorem inRange_of_special? (h : special? cs = some (v, rest)) : InRange v := by
  unfold special? at h
  dsimp only at h
  split at h <;> cases h
  · exact .float _
  · exact .float _

theorem inRange_of_moment? (h : moment? cs = some (v, rest)) : InRange v := by
  unfold moment? at h
  simp only [Option.bind_eq_bind, Option.bind_eq_some_iff, Option.pure_def, Option.some.injEq,
    Prod.mk.injEq] at h
  obtain ⟨tail, -, rfl, -⟩ := h
  exact .moment _

theorem inRange_of_number? (h : number? cs = some (v, rest)) : InRange v := by
  unfold number? at h
  simp only [Option.orElse_eq_orElse, Option.orElse_eq_or, Option.or_eq_some_iff] at h
  rcases h with h | ⟨-, h | ⟨-, h | ⟨-, h⟩⟩⟩
  · exact inRange_of_moment? h
  · exact inRange_of_decimal? h
  · exact inRange_of_special? h
  · exact inRange_of_integer? h

/-! ### Tables under construction -/

namespace Draft

/-- All integers of a table under construction have 64 bits. -/
inductive InRange : Draft → Prop
  | value {v : Toml} (hv : v.InRange) : InRange (value v)
  | table {origin : Origin} {ms : Members} (hms : ∀ m ∈ ms, InRange m.2) : InRange (table origin ms)
  | tables {es : List Members} (hes : ∀ ms ∈ es, ∀ m ∈ ms, InRange m.2) : InRange (tables es)

/-- The same of all members of a table. -/
def AllInRange (ms : Members) : Prop := ∀ m ∈ ms, InRange m.2

variable {key : String} {path : List String} {ms ms' : Members}

theorem allInRange_nil : AllInRange [] := fun _ hm => absurd hm List.not_mem_nil

theorem InRange.finish {d : Draft} (h : d.InRange) : d.finish.InRange := by
  induction h with
  | value hv => rwa [Draft.finish]
  | table _ ih =>
    rw [Draft.finish, finishMembers_eq]
    exact .table (List.forall_mem_map.2 ih)
  | tables _ ih =>
    rw [Draft.finish, finishTables_eq]
    refine .array (List.forall_mem_map.2 fun ms hms => ?_)
    rw [finishMembers_eq]
    exact .table (List.forall_mem_map.2 (ih ms hms))

theorem allInRange_of_alter? {change : Option Draft → Option Draft}
    (hchange : ∀ o d, (∀ d' ∈ o, InRange d') → change o = some d → InRange d)
    (hms : AllInRange ms) (h : alter? change key ms = some ms') : AllInRange ms' := by
  induction ms generalizing ms' with
  | nil =>
    obtain ⟨d, hd, rfl⟩ := Option.map_eq_some_iff.1 h
    exact List.forall_mem_singleton.2 (hchange none d (by simp) hd)
  | cons m ms ih =>
    obtain ⟨hm, hms⟩ := List.forall_mem_cons.1 hms
    rw [alter?] at h
    split at h
    · obtain ⟨d, hd, rfl⟩ := Option.map_eq_some_iff.1 h
      exact List.forall_mem_cons.2 ⟨hchange (some m.2) d (by simpa using hm) hd, hms⟩
    · obtain ⟨ms'', hms'', rfl⟩ := Option.map_eq_some_iff.1 h
      exact List.forall_mem_cons.2 ⟨hm, ih hms hms''⟩

theorem forall_of_alterLast? {α : Type} {P : α → Prop} {change : α → Option α}
    (hchange : ∀ a b, P a → change a = some b → P b) {as bs : List α} (has : ∀ a ∈ as, P a)
    (h : alterLast? change as = some bs) : ∀ b ∈ bs, P b := by
  induction as generalizing bs with
  | nil => cases h
  | cons a as ih =>
    obtain ⟨ha, has⟩ := List.forall_mem_cons.1 has
    cases as with
    | nil =>
      obtain ⟨b, hb, rfl⟩ := Option.map_eq_some_iff.1 h
      exact List.forall_mem_singleton.2 (hchange a b ha hb)
    | cons a' as =>
      rw [alterLast?] at h
      · obtain ⟨bs', hbs', rfl⟩ := Option.map_eq_some_iff.1 h
        exact List.forall_mem_cons.2 ⟨ha, ih has hbs'⟩
      · simp

/-- A change at the end of a path keeps the integers in range if it does so in every table. -/
theorem allInRange_of_within {dotted : Bool} {change : Origin → Members → Option Members}
    (hchange : ∀ origin ms ms', AllInRange ms → change origin ms = some ms' → AllInRange ms')
    {origin : Origin} (hms : AllInRange ms) (h : within dotted change path origin ms = some ms') :
    AllInRange ms' := by
  induction path generalizing origin ms ms' with
  | nil => exact hchange origin ms ms' hms h
  | cons key path ih =>
    refine allInRange_of_alter? (fun o d ho hd => ?_) hms h
    split at hd
    · obtain ⟨ms'', hms'', rfl⟩ := Option.map_eq_some_iff.1 hd
      exact .table (ih allInRange_nil hms'')
    · cases hd
    · split at hd
      · cases hd
      · obtain ⟨ms'', hms'', rfl⟩ := Option.map_eq_some_iff.1 hd
        cases ho _ rfl with
        | table hms => exact .table (ih hms hms'')
    · obtain ⟨es, hes, rfl⟩ := Option.map_eq_some_iff.1 hd
      cases ho _ rfl with
      | tables hmembers =>
        exact .tables (forall_of_alterLast? (fun _ _ hms h => ih hms h) hmembers hes)

theorem allInRange_of_insertPair (hv : v.InRange) (hms : AllInRange ms)
    (h : insertPair path key v ms = some ms') : AllInRange ms' := by
  refine allInRange_of_within (fun origin ms ms' hms h => ?_) hms h
  split at h
  · cases h
  · refine allInRange_of_alter? (fun o d _ hd => ?_) hms h
    split at hd
    · cases hd
      exact .value hv
    · cases hd

theorem allInRange_of_openTable (hms : AllInRange ms) (h : openTable path key ms = some ms') :
    AllInRange ms' := by
  refine allInRange_of_within (fun _ ms ms' hms h => ?_) hms h
  refine allInRange_of_alter? (fun o d ho hd => ?_) hms h
  split at hd <;> cases hd
  · exact .table allInRange_nil
  · cases ho _ rfl with
    | table hms => exact .table hms

theorem allInRange_of_addTable (hms : AllInRange ms) (h : addTable path key ms = some ms') :
    AllInRange ms' := by
  refine allInRange_of_within (fun _ ms ms' hms h => ?_) hms h
  refine allInRange_of_alter? (fun o d ho hd => ?_) hms h
  split at hd <;> cases hd
  · exact .tables (List.forall_mem_singleton.2 allInRange_nil)
  · cases ho _ rfl with
    | tables hes =>
      exact .tables (List.forall_mem_append.2 ⟨hes, List.forall_mem_singleton.2 allInRange_nil⟩)

end Draft

open Draft (AllInRange)

/-! ### Values -/

/-- A reader of values whose integers have 64 bits. -/
def ReadsInRange (value : Scan Toml) : Prop := ∀ cs v rest, value cs = some (v, rest) → InRange v

variable {value : Scan Toml} {fuel : Nat}

theorem inRange_of_elements? (hvalue : ReadsInRange value) {vs : List Toml}
    (h : elements? value fuel cs = some (vs, rest)) : ∀ v ∈ vs, InRange v := by
  induction fuel generalizing cs vs rest with
  | zero => cases h
  | succ fuel ih =>
    rw [elements?] at h
    split at h
    · cases h
      simp
    · simp only [Option.bind_eq_bind, Option.bind_eq_some_iff] at h
      obtain ⟨⟨v, tail⟩, hv, h⟩ := h
      have hv := hvalue _ _ _ hv
      dsimp only at h
      split at h
      · simp only [Option.bind_eq_some_iff, Option.pure_def, Option.some.injEq,
          Prod.mk.injEq] at h
        obtain ⟨⟨vs', tail'⟩, hvs', rfl, -⟩ := h
        exact List.forall_mem_cons.2 ⟨hv, ih hvs'⟩
      · cases h
        exact List.forall_mem_singleton.2 hv
      · cases h

theorem inRange_of_pair? (hvalue : ReadsInRange value) {path : List String} {key : String}
    (h : pair? value cs = some ((path, key, v), rest)) : InRange v := by
  unfold pair? at h
  simp only [Option.bind_eq_bind, Option.bind_eq_some_iff] at h
  obtain ⟨⟨⟨path', key'⟩, tail⟩, -, h⟩ := h
  dsimp only at h
  split at h
  · simp only [Option.bind_eq_some_iff, Option.pure_def, Option.some.injEq, Prod.mk.injEq] at h
    obtain ⟨⟨w, tail'⟩, hw, ⟨-, -, rfl⟩, -⟩ := h
    exact hvalue _ _ _ hw
  · cases h

theorem allInRange_of_pairs? (hvalue : ReadsInRange value) {ms ms' : Draft.Members}
    (hms : AllInRange ms) (h : pairs? value fuel ms cs = some (ms', rest)) : AllInRange ms' := by
  induction fuel generalizing ms cs with
  | zero => cases h
  | succ fuel ih =>
    rw [pairs?] at h
    simp only [Option.bind_eq_bind, Option.bind_eq_some_iff] at h
    obtain ⟨⟨⟨path, key, v⟩, tail⟩, hpair, ms'', hinsert, h⟩ := h
    have hms'' := Draft.allInRange_of_insertPair (inRange_of_pair? hvalue hpair) hms hinsert
    split at h
    · exact ih hms'' h
    · cases h
      exact hms''
    · cases h

theorem inRange_of_inlineTable? (hvalue : ReadsInRange value)
    (h : inlineTable? value cs = some (v, rest)) : InRange v := by
  unfold inlineTable? at h
  split at h
  · cases h
    exact .table (by simp)
  · obtain ⟨⟨ms, tail⟩, hms, heq⟩ := Option.map_eq_some_iff.1 h
    cases heq
    exact (Draft.InRange.table (allInRange_of_pairs? hvalue Draft.allInRange_nil hms)).finish

/-- Values of every depth have integers of 64 bits. -/
theorem readsInRange_value? (depth : Nat) : ReadsInRange (value? depth) := by
  induction depth using Nat.strongRecOn with
  | ind depth ih =>
    intro cs v rest h
    unfold value? at h
    split at h
    · obtain ⟨⟨s, tail⟩, -, heq⟩ := Option.map_eq_some_iff.1 h
      cases heq
      exact .string s
    · obtain ⟨⟨s, tail⟩, -, heq⟩ := Option.map_eq_some_iff.1 h
      cases heq
      exact .string s
    · split at h
      · cases h
      · rename_i depth
        obtain ⟨⟨vs, tail⟩, hvs, heq⟩ := Option.map_eq_some_iff.1 h
        cases heq
        exact .array (inRange_of_elements? (ih depth (Nat.lt_succ_self depth)) hvs)
    · split at h
      · cases h
      · rename_i depth
        exact inRange_of_inlineTable? (ih depth (Nat.lt_succ_self depth)) h
    · cases h
      exact .boolean true
    · cases h
      exact .boolean false
    · exact inRange_of_number? h

/-! ### Texts -/

namespace Progress

variable {p q : Progress}

theorem allInRange_of_insert {path : List String} {key : String} (hv : v.InRange)
    (hp : AllInRange p.root) (h : p.insert path key v = some q) : AllInRange q.root := by
  unfold insert at h
  simp only [Option.bind_eq_bind, Option.bind_eq_some_iff, Option.pure_def, Option.some.injEq] at h
  obtain ⟨root, hroot, rfl⟩ := h
  exact Draft.allInRange_of_within
    (fun _ _ _ hms h => Draft.allInRange_of_insertPair hv hms h) hp hroot

/-- A line adds values that were read, and tables without members. -/
theorem allInRange_of_line? (hp : AllInRange p.root) (h : p.line? cs = some (q, rest)) :
    AllInRange q.root := by
  unfold line? at h
  split at h
  · simp only [Option.bind_eq_bind, Option.bind_eq_some_iff] at h
    obtain ⟨⟨⟨path, key⟩, tail⟩, -, h⟩ := h
    dsimp only at h
    split at h
    · simp only [Option.bind_eq_some_iff, Option.pure_def, Option.some.injEq, Prod.mk.injEq] at h
      obtain ⟨root, hroot, tail', -, rfl, -⟩ := h
      exact Draft.allInRange_of_addTable hp hroot
    · cases h
  · simp only [Option.bind_eq_bind, Option.bind_eq_some_iff] at h
    obtain ⟨⟨⟨path, key⟩, tail⟩, -, h⟩ := h
    dsimp only at h
    split at h
    · simp only [Option.bind_eq_some_iff, Option.pure_def, Option.some.injEq, Prod.mk.injEq] at h
      obtain ⟨root, hroot, tail', -, rfl, -⟩ := h
      exact Draft.allInRange_of_openTable hp hroot
    · cases h
  · simp only [Option.bind_eq_bind, Option.bind_eq_some_iff, Option.pure_def, Option.some.injEq,
      Prod.mk.injEq] at h
    obtain ⟨⟨⟨path, key, v⟩, tail⟩, hpair, q', hq', tail', -, rfl, -⟩ := h
    exact allInRange_of_insert (inRange_of_pair? (readsInRange_value? _) hpair) hp hq'

theorem allInRange_of_lines? {fuel : Nat} {ms : Draft.Members} (hp : AllInRange p.root)
    (h : lines? fuel p cs = some ms) : AllInRange ms := by
  induction fuel generalizing p cs with
  | zero => cases h
  | succ fuel ih =>
    rw [lines?] at h
    split at h
    · cases h
      exact hp
    · split at h
      · split at h
        · exact ih hp h
        · cases h
      · split at h
        · rename_i hline
          exact ih (allInRange_of_line? hp hline) h
        · cases h

end Progress

/-- **All integers of a document have 64 bits.** -/
theorem inRange_of_parse? {text : String} (h : parse? text = some v) : v.InRange := by
  unfold parse? at h
  obtain ⟨ms, hms, rfl⟩ := Option.map_eq_some_iff.1 h
  have hroot : AllInRange ms :=
    Progress.allInRange_of_lines? (p := ⟨[], []⟩) Draft.allInRange_nil hms
  exact (Draft.InRange.table hroot).finish

end Toml

end NetPack
