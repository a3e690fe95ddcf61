import NetPack.Files.Formats
import NetPack.Files.Unreliable

/-!
# Attempts

What holds behind a computation whose steps may fail or be stopped at any point. `Trial.Attempts`
has one condition for what is left by a computation that succeeds and another one for what is left
by one that does not, and the rules below follow how a computation is made up. For a single step
there are three cases (`Trial.perform_cases`): it is performed, a failure cuts it short, or the run
ends in it.
-/

namespace NetPack

open FileStore

namespace Trial

variable {ε ε' α β : Type} {t : Trial} {s : FileStep}

/-! ### Runs -/

/-- How a computation ends, and what it leaves. There is no result if it was stopped. -/
def run (t : Trial) (x : ExceptT ε Unreliable α) : Option (Except ε α) × Trial :=
  x.run.run.run t

theorem run_bind (x : ExceptT ε Unreliable α) (f : α → ExceptT ε Unreliable β) :
    t.run (x >>= f) =
      match t.run x with
      | (some (.ok a), t₁) => t₁.run (f a)
      | (some (.error e), t₁) => (some (.error e), t₁)
      | (none, t₁) => (none, t₁) := by
  simp only [run, ExceptT.run_bind, OptionT.run_bind, Option.elimM, StateT.run_bind]
  rcases x.run.run.run t with ⟨_ | _ | a, t₁⟩ <;> rfl

theorem run_adapt (f : ε → ε') (x : ExceptT ε Unreliable α) :
    t.run (ExceptT.adapt f x) = ((t.run x).1.map (·.mapError f), (t.run x).2) := by
  change (OptionT.run (Except.mapError f <$> x.run)).run t = _
  rw [OptionT.run_map, StateT.run_map]
  rfl

/-- What follows a computation whose failure is handled is told how that one has ended. -/
theorem run_attempted {x : ExceptT ε Unreliable α}
    {settle : Except ε α → ExceptT ε' Unreliable β} :
    t.run (liftM (ExceptT.run x : Unreliable (Except ε α)) >>= settle) =
      match t.run x with
      | (some r, t₁) => t₁.run (settle r)
      | (none, t₁) => (none, t₁) := by
  have h : t.run (liftM (ExceptT.run x : Unreliable (Except ε α)) :
      ExceptT ε' Unreliable (Except ε α)) = ((t.run x).1.map .ok, (t.run x).2) := by
    change (OptionT.run (Except.ok <$> x.run)).run t = _
    rw [OptionT.run_map, StateT.run_map]
    rfl
  rw [run_bind, h]
  rcases t.run x with ⟨_ | _, t₁⟩ <;> rfl

/-- **What can become of a step.** It is performed, or it is cut short by a failure or by the end of
the run. -/
theorem perform_cases (t : Trial) (s : FileStep) :
    (∃ r, t.perform s =
      (some r, ⟨(t.files.perform s).2, t.fates.tail, (s, r) :: t.past⟩) ∧
        r = (t.files.perform s).1) ∨
      (∃ e done, t.perform s =
        (some (.error e), ⟨t.files.cutShort s done, t.fates.tail, (s, .error e) :: t.past⟩)) ∨
      ∃ done, t.perform s = (none, ⟨t.files.cutShort s done, t.fates.tail, t.past⟩) := by
  unfold perform
  split
  · exact .inl ⟨_, rfl, rfl⟩
  · exact .inr (.inl ⟨_, _, rfl⟩)
  · exact .inr (.inr ⟨_, rfl⟩)

/-! ### Attempts -/

/-- Where `P` holds before a computation, `Q` holds behind it if it succeeds, and `E` holds if it
fails or is stopped. -/
def Attempts (P : Trial → Prop) (x : ExceptT ε Unreliable α) (Q : α → Trial → Prop)
    (E : Trial → Prop) : Prop :=
  ∀ t, P t → match t.run x with
    | (some (.ok a), t') => Q a t'
    | (_, t') => E t'

section Attempts

variable {P E : Trial → Prop} {Q : α → Trial → Prop} {R : β → Trial → Prop}

theorem Attempts.bind {x : ExceptT ε Unreliable α} {f : α → ExceptT ε Unreliable β}
    (hx : Attempts P x Q E) (hf : ∀ a, Attempts (Q a) (f a) R E) : Attempts P (x >>= f) R E := by
  intro t ht
  have hfirst := hx t ht
  rw [run_bind]
  rcases hrun : t.run x with ⟨_ | _ | a, t₁⟩
  · rwa [hrun] at hfirst
  · rwa [hrun] at hfirst
  · rw [hrun] at hfirst
    exact hf a t₁ hfirst

theorem attempts_settled {r : Except ε α} (hok : ∀ a, r = .ok a → ∀ t, P t → Q a t)
    (herror : ∀ t, P t → E t) : Attempts P (ofResult r) Q E := by
  intro t ht
  have hrun : t.run (ofResult r) = (some r, t) := rfl
  rw [hrun]
  cases r with
  | error e => exact herror t ht
  | ok a => exact hok a rfl t ht

theorem attempts_step {Q : Trial → Prop}
    (hok : ∀ t, P t → ∀ fs', t.files.perform s = (.ok (), fs') →
      Q ⟨fs', t.fates.tail, (s, .ok ()) :: t.past⟩)
    (herror : ∀ t, P t → ∀ e fs', t.files.perform s = (.error e, fs') →
      E ⟨fs', t.fates.tail, (s, .error e) :: t.past⟩)
    (hcut : ∀ t, P t → ∀ done past, (past = t.past ∨ ∃ e, past = (s, .error e) :: t.past) →
      E ⟨t.files.cutShort s done, t.fates.tail, past⟩) :
    Attempts P (step s : ExceptT FileError Unreliable Unit) (fun _ => Q) E := by
  intro t ht
  have hrun : t.run (step s : ExceptT FileError Unreliable Unit) = t.perform s := rfl
  rw [hrun]
  rcases perform_cases t s with ⟨r, hperform, hr⟩ | ⟨e, done, hperform⟩ | ⟨done, hperform⟩
  · rw [hperform]
    cases r with
    | error e => exact herror t ht e _ (Prod.ext hr.symm rfl)
    | ok _ => exact hok t ht _ (Prod.ext hr.symm rfl)
  · rw [hperform]
    exact hcut t ht done _ (.inr ⟨e, rfl⟩)
  · rw [hperform]
    exact hcut t ht done _ (.inl rfl)

/-- A fact that has nothing to do with the run stays. -/
theorem Attempts.with {x : ExceptT ε Unreliable α} {p : Prop} (hx : Attempts P x Q E) :
    Attempts (fun t => p ∧ P t) x (fun a t => p ∧ Q a t) E := by
  intro t ⟨hp, ht⟩
  have hx := hx t ht
  rcases hrun : t.run x with ⟨_ | _ | a, t₁⟩ <;> rw [hrun] at hx
  · exact hx
  · exact hx
  · exact ⟨hp, hx⟩

theorem Attempts.imp {E₁ : Trial → Prop} {x : ExceptT ε Unreliable α} (hx : Attempts P x Q E₁)
    (h : ∀ t, E₁ t → E t) : Attempts P x Q E := by
  intro t ht
  have hx := hx t ht
  rcases hrun : t.run x with ⟨_ | _ | a, t₁⟩ <;> rw [hrun] at hx
  · exact h _ hx
  · exact h _ hx
  · exact hx

theorem Attempts.adapt {x : ExceptT ε Unreliable α} (hx : Attempts P x Q E) (f : ε → ε') :
    Attempts P (ExceptT.adapt f x) Q E := by
  intro t ht
  have hx := hx t ht
  rw [run_adapt]
  rcases hrun : t.run x with ⟨_ | _ | a, t₁⟩ <;> rw [hrun] at hx <;> exact hx

theorem attempts_throw (e : ε) (h : ∀ t, P t → E t) :
    Attempts P (throw e : ExceptT ε Unreliable α) Q E := h

/-- What follows a computation whose failure is handled starts with what the computation leaves. -/
theorem Attempts.attempted {E₁ : Trial → Prop} {x : ExceptT ε Unreliable α}
    {settle : Except ε α → ExceptT ε' Unreliable β} (hx : Attempts P x Q E₁)
    (hok : ∀ a, Attempts (Q a) (settle (.ok a)) R E)
    (herror : ∀ e, Attempts E₁ (settle (.error e)) R E) (hstop : ∀ t, E₁ t → E t) :
    Attempts P (liftM (ExceptT.run x : Unreliable (Except ε α)) >>= settle) R E := by
  intro t ht
  have hfirst := hx t ht
  rw [run_attempted]
  rcases hrun : t.run x with ⟨_ | e | a, t₁⟩ <;> rw [hrun] at hfirst
  · exact hstop t₁ hfirst
  · exact herror e t₁ hfirst
  · exact hok a t₁ hfirst

theorem attempts_tag {tag : String} {f : String → ExceptT ε Unreliable β}
    (htag : ∀ t, P t → t.files.tag = tag) (h : Attempts P (f tag) R E) :
    Attempts P ((liftM (FileStore.tag : Unreliable String) : ExceptT ε Unreliable String) >>= f)
      R E := by
  intro t ht
  have hrun : t.run ((liftM (FileStore.tag : Unreliable String) : ExceptT ε Unreliable String) >>=
      f) = t.run (f t.files.tag) := by
    rw [run_bind]
    rfl
  rw [hrun, htag t ht]
  exact h t ht

/-- Pieces that are written one after the other. -/
theorem attempts_forM {Q : Bytes → Trial → Prop} {write : Bytes → ExceptT ε Unreliable Unit}
    (h : ∀ piece written, Attempts (Q written) (write piece) (fun _ => Q (written ++ piece)) E)
    (pieces : List Bytes) (written : Bytes) :
    Attempts (Q written) (forM pieces write) (fun _ => Q (written ++ pieces.flatten)) E := by
  induction pieces generalizing written with
  | nil =>
    intro t ht
    have hrun : t.run (forM [] write) = (some (.ok ()), t) := rfl
    rw [hrun, List.flatten_nil, List.append_nil]
    exact ht
  | cons piece pieces ih =>
    rw [List.forM_cons, List.flatten_cons, ← List.append_assoc]
    exact (h piece written).bind fun _ => ih (written ++ piece)

end Attempts

end Trial

end NetPack
