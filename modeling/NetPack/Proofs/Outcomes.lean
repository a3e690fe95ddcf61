import Mathlib.Data.List.Forall2
import NetPack.Outcome

/-!
# Computations that succeed

What a successful run of a sequence of steps says about the steps. A bind succeeds exactly when both
of its parts do (`Outcome.bind_eq_ok`), a list of steps when every step does (`Outcome.mapM_eq_ok`),
and the results of the steps are then known one by one.
-/

namespace NetPack

namespace Outcome

variable {ε ε' α β γ : Type}

/-! ### Single steps -/

theorem bind_eq_ok {x : Except ε α} {f : α → Except ε β} {b : β} :
    (x >>= f) = .ok b ↔ ∃ a, x = .ok a ∧ f a = .ok b := by
  cases x <;> simp [bind, Except.bind]

theorem map_eq_ok {x : Except ε α} {f : α → β} {b : β} :
    (f <$> x) = .ok b ↔ ∃ a, x = .ok a ∧ f a = b := by
  cases x <;> simp [Functor.map, Except.map]

@[simp] theorem ok_bind (a : α) (f : α → Except ε β) : ((.ok a : Except ε α) >>= f) = f a := rfl

@[simp] theorem error_bind (e : ε) (f : α → Except ε β) :
    ((.error e : Except ε α) >>= f) = .error e := rfl

@[simp] theorem pure_eq_ok_iff {a b : α} : (pure a : Except ε α) = .ok b ↔ a = b := by
  simp [pure, Except.pure]

@[simp] theorem throw_eq_error (e : ε) : (throw e : Except ε α) = .error e := rfl

@[simp] theorem report_ne_ok {e : ε} {a : α} : (report e : Outcome ε α) ≠ .ok a := by
  simp [report]

@[simp] theorem crash_ne_ok {a : α} : (crash : Outcome ε α) ≠ .ok a := by
  simp [crash]

@[simp] theorem report_inj {e e' : ε} : (report e : Outcome ε α) = report e' ↔ e = e' := by
  simp [report]

@[simp] theorem report_ne_crash {e : ε} : (report e : Outcome ε α) ≠ crash := by
  simp [report, crash]

@[simp] theorem report_bind (e : ε) (f : α → Outcome ε β) : (report e >>= f) = report e := rfl

@[simp] theorem crash_bind (f : α → Outcome ε β) : ((crash : Outcome ε α) >>= f) = crash := rfl

/-- A step behind a check succeeds exactly when the check passes and the step does. -/
theorem ite_eq_ok {c : Prop} [Decidable c] {x y : Except ε α} {a : α} (hx : x ≠ .ok a) :
    (if c then x else y) = .ok a ↔ ¬ c ∧ y = .ok a := by
  by_cases h : c <;> simp [h, hx]

theorem exists_of_isOk {x : Except ε α} (h : x.isOk) : ∃ a, x = .ok a := by
  cases x with
  | error e => cases h
  | ok a => exact ⟨a, rfl⟩

@[simp] theorem liftM_eq_ofExcept (x : Except ε α) : (liftM x : Outcome ε α) = ofExcept x := rfl

@[simp] theorem ofExcept_eq_ok {x : Except ε α} {a : α} : ofExcept x = .ok a ↔ x = .ok a := by
  cases x <;> simp [report]

@[simp] theorem mapError_eq_ok {f : ε → ε'} {x : Outcome ε α} {a : α} :
    mapError f x = .ok a ↔ x = .ok a := by
  cases x <;> simp [mapError]

@[simp] theorem orCrash_eq_ok {x : Option α} {a : α} :
    (orCrash x : Outcome ε α) = .ok a ↔ x = some a := by
  cases x <;> simp

theorem entry_eq_ok {xs : Array α} {i : Nat} {a : α} :
    (entry xs i : Outcome ε α) = .ok a ↔ xs[i]? = some a := by
  unfold entry
  cases xs[i]? <;> simp

theorem entry_of_size_le {xs : Array α} {i : Nat} (h : xs.size ≤ i) :
    (entry xs i : Outcome ε α) = crash := by
  unfold entry
  rw [Array.getElem?_eq_none h]

/-! ### Lists of steps -/

theorem mapM_eq_ok {f : α → Except ε β} {l : List α} {r : List β} :
    l.mapM f = .ok r ↔ List.Forall₂ (fun a b => f a = .ok b) l r := by
  induction l generalizing r with
  | nil =>
    rw [List.mapM_nil, pure_eq_ok_iff, List.forall₂_nil_left_iff]
    exact eq_comm
  | cons a l ih =>
    rw [List.mapM_cons, bind_eq_ok, List.forall₂_cons_left_iff]
    constructor
    · rintro ⟨b, hb, h⟩
      obtain ⟨bs, hbs, h⟩ := bind_eq_ok.1 h
      exact ⟨b, bs, hb, ih.1 hbs, (pure_eq_ok_iff.1 h).symm⟩
    · rintro ⟨b, bs, hb, hbs, rfl⟩
      exact ⟨b, hb, bind_eq_ok.2 ⟨bs, ih.2 hbs, rfl⟩⟩

theorem mapM_of_forall {f : α → Except ε β} {g : α → β} {l : List α}
    (h : ∀ a ∈ l, f a = .ok (g a)) : l.mapM f = .ok (l.map g) := by
  rw [mapM_eq_ok]
  exact List.forall₂_map_right_iff.2 (List.forall₂_same.2 h)

theorem exists_mapM_eq_ok {f : α → Except ε β} {l : List α} (h : ∀ a ∈ l, ∃ b, f a = .ok b) :
    ∃ r, l.mapM f = .ok r := by
  induction l with
  | nil => exact ⟨[], rfl⟩
  | cons a l ih =>
    obtain ⟨b, hb⟩ := h a List.mem_cons_self
    obtain ⟨bs, hbs⟩ := ih fun a' ha' => h a' (List.mem_cons_of_mem _ ha')
    refine ⟨b :: bs, ?_⟩
    rw [List.mapM_cons, hb, ok_bind, hbs]
    rfl

theorem exists_of_mapM {f : α → Except ε β} {l : List α} {r : List β} (h : l.mapM f = .ok r) :
    ∀ a ∈ l, ∃ b, f a = .ok b := by
  have hsteps := mapM_eq_ok.1 h
  clear h
  induction hsteps with
  | nil => simp
  | cons hstep _ ih => exact List.forall_mem_cons.2 ⟨⟨_, hstep⟩, ih⟩

/-- A list of steps fails where one of them does. -/
theorem exists_of_mapM_eq_error {f : α → Except ε β} {l : List α} {e : ε}
    (h : l.mapM f = .error e) : ∃ a ∈ l, f a = .error e := by
  induction l with
  | nil => cases h
  | cons a l ih =>
    rw [List.mapM_cons] at h
    cases ha : f a with
    | error e' =>
      rw [ha, error_bind] at h
      obtain rfl := Except.error.inj h
      exact ⟨a, List.mem_cons_self, ha⟩
    | ok b =>
      rw [ha, ok_bind] at h
      cases hl : l.mapM f with
      | error e' =>
        rw [hl, error_bind] at h
        obtain ⟨a', ha', herror⟩ := ih (hl.trans h)
        exact ⟨a', List.mem_cons_of_mem _ ha', herror⟩
      | ok bs =>
        rw [hl, ok_bind] at h
        cases h

/-- What every step gives holds of all results. -/
theorem forall_of_mapM {P : β → Prop} {f : α → Except ε β} {l : List α} {r : List β}
    (h : l.mapM f = .ok r) (hf : ∀ a ∈ l, ∀ b, f a = .ok b → P b) : ∀ b ∈ r, P b := by
  have hsteps := mapM_eq_ok.1 h
  clear h
  induction hsteps with
  | nil => simp
  | cons hstep _ ih =>
    rw [List.forall_mem_cons] at hf ⊢
    exact ⟨hf.1 _ hstep, ih hf.2⟩

/-- Steps numbered from zero succeed exactly when each of them does. -/
theorem mapM_range_eq_ok {f : Nat → Except ε β} {n : Nat} {r : List β} :
    (List.range n).mapM f = .ok r ↔
      r.length = n ∧ ∀ i (h : i < r.length), f i = .ok r[i] := by
  rw [mapM_eq_ok, List.forall₂_iff_get]
  constructor
  · rintro ⟨len, h⟩
    rw [List.length_range] at len
    refine ⟨len.symm, fun i hi => ?_⟩
    simpa using h i (by simpa [len] using hi) hi
  · rintro ⟨rfl, h⟩
    refine ⟨List.length_range, fun i _ hi => ?_⟩
    simpa using h i hi

/-- Steps over the entries of a list with their numbers. -/
theorem mapM_zipIdx_eq_ok {f : α × Nat → Except ε β} {l : List α} {r : List β} :
    l.zipIdx.mapM f = .ok r ↔
      r.length = l.length ∧ ∀ i (h : i < l.length) (h' : i < r.length), f (l[i], i) = .ok r[i] := by
  rw [mapM_eq_ok, List.forall₂_iff_get]
  constructor
  · rintro ⟨len, h⟩
    rw [List.length_zipIdx] at len
    refine ⟨len.symm, fun i hi hi' => ?_⟩
    simpa using h i (by simpa using hi) hi'
  · rintro ⟨len, h⟩
    refine ⟨by rw [List.length_zipIdx, len], fun i hi hi' => ?_⟩
    simpa using h i (by simpa using hi) hi'

theorem exists_foldlM {f : β → α → Except ε β} {l : List α}
    (h : ∀ a ∈ l, ∀ b, ∃ b', f b a = .ok b') (b : β) : ∃ b', l.foldlM f b = .ok b' := by
  induction l generalizing b with
  | nil => exact ⟨b, rfl⟩
  | cons a l ih =>
    obtain ⟨b₁, hb₁⟩ := h a List.mem_cons_self b
    rw [List.foldlM_cons, hb₁]
    exact ih (fun a' ha' => h a' (List.mem_cons_of_mem _ ha')) b₁

/-- What every step keeps holds at the end. -/
theorem of_foldlM {P : β → Prop} {f : β → α → Except ε β} {l : List α} {b b' : β}
    (hf : ∀ a ∈ l, ∀ b b', P b → f b a = .ok b' → P b') (hb : P b) (h : l.foldlM f b = .ok b') :
    P b' := by
  induction l generalizing b with
  | nil => exact pure_eq_ok_iff.1 h ▸ hb
  | cons a l ih =>
    rw [List.forall_mem_cons] at hf
    obtain ⟨b₁, hstep, h⟩ := bind_eq_ok.1 h
    exact ih hf.2 (hf.1 b b₁ hb hstep) h

/-- Where a fold succeeds, all its steps have succeeded. -/
theorem exists_of_mem_foldlM {f : β → α → Except ε β} {l : List α} {a : α} {b b' : β}
    (h : l.foldlM f b = .ok b') (ha : a ∈ l) : ∃ c c', f c a = .ok c' := by
  induction l generalizing b with
  | nil => cases ha
  | cons x l ih =>
    rw [List.foldlM_cons] at h
    obtain ⟨b₁, hx, hl⟩ := bind_eq_ok.1 h
    rcases List.mem_cons.1 ha with rfl | ha
    · exact ⟨b, b₁, hx⟩
    · exact ih hl ha

/-- A fold succeeds alike if all steps do that succeed. -/
theorem foldlM_eq_ok_of_imp {f g : β → α → Except ε β} {l : List α} {b b' : β}
    (hfg : ∀ a ∈ l, ∀ c c', f c a = .ok c' → g c a = .ok c') (h : l.foldlM f b = .ok b') :
    l.foldlM g b = .ok b' := by
  induction l generalizing b with
  | nil => exact h
  | cons a l ih =>
    rw [List.forall_mem_cons] at hfg
    rw [List.foldlM_cons] at h ⊢
    obtain ⟨b₁, ha, hl⟩ := bind_eq_ok.1 h
    rw [hfg.1 b b₁ ha, ok_bind]
    exact ih hfg.2 hl

/-- A fold whose steps succeed comes to what the steps come to. -/
theorem foldl_of_foldlM {f : β → α → Except ε β} {g : β → α → β} {l : List α} {b b' : β}
    (hfg : ∀ a ∈ l, ∀ c c', f c a = .ok c' → g c a = c') (h : l.foldlM f b = .ok b') :
    l.foldl g b = b' := by
  have hpure := foldlM_eq_ok_of_imp (g := fun c a => pure (g c a))
    (fun a ha c c' hc => congrArg Except.ok (hfg a ha c c' hc)) h
  rw [List.foldlM_pure] at hpure
  exact pure_eq_ok_iff.1 hpure

theorem foldlM_congr {f g : β → α → Except ε β} {l : List α} (h : ∀ a ∈ l, ∀ b, f b a = g b a)
    (b : β) : l.foldlM f b = l.foldlM g b := by
  induction l generalizing b with
  | nil => rfl
  | cons a l ih =>
    rw [List.forall_mem_cons] at h
    rw [List.foldlM_cons, List.foldlM_cons, h.1 b]
    exact bind_congr fun b' => ih h.2 b'

theorem foldlM_flatMap {f : β → γ → Except ε β} {g : α → List γ} {l : List α} {b : β} :
    (l.flatMap g).foldlM f b = l.foldlM (fun b a => (g a).foldlM f b) b := by
  induction l generalizing b with
  | nil => rfl
  | cons a l ih =>
    rw [List.flatMap_cons, List.foldlM_append, List.foldlM_cons]
    exact bind_congr fun b' => ih

/-! ### Computations that report nothing -/

/-- The computation reports no error: it has a value or breaks off. -/
def Silent (x : Outcome ε α) : Prop := ∀ e, x ≠ report e

theorem silent_ok (a : α) : Silent (.ok a : Outcome ε α) := by
  intro e h
  cases h

theorem silent_crash : Silent (crash : Outcome ε α) := by
  intro e h
  cases h

theorem Silent.eq_crash {x : Outcome ε α} (hx : Silent x) (h : ∀ a, x ≠ .ok a) : x = crash := by
  cases x with
  | ok a => exact absurd rfl (h a)
  | error fault =>
    cases fault with
    | reported e => exact absurd rfl (hx e)
    | crash => rfl

theorem silent_entry (xs : Array α) (i : Nat) : Silent (entry xs i : Outcome ε α) := by
  unfold entry
  cases xs[i]? with
  | none => exact silent_crash
  | some a => exact silent_ok a

theorem Silent.bind {x : Outcome ε α} {f : α → Outcome ε β} (hx : Silent x)
    (hf : ∀ a, Silent (f a)) : Silent (x >>= f) := by
  cases x with
  | ok a => exact hf a
  | error fault =>
    cases fault with
    | reported e => exact absurd rfl (hx e)
    | crash => exact silent_crash

theorem silent_foldlM {f : β → α → Outcome ε β} (hf : ∀ b a, Silent (f b a)) (l : List α) (b : β) :
    Silent (l.foldlM f b) := by
  induction l generalizing b with
  | nil => exact silent_ok b
  | cons a l ih =>
    rw [List.foldlM_cons]
    exact (hf b a).bind ih

theorem silent_mapM {f : α → Outcome ε β} (hf : ∀ a, Silent (f a)) (l : List α) :
    Silent (l.mapM f) := by
  induction l with
  | nil => exact silent_ok []
  | cons a l ih =>
    rw [List.mapM_cons]
    exact (hf a).bind fun b => ih.bind fun bs => silent_ok (b :: bs)

end Outcome

end NetPack
