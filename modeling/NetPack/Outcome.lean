/-!
# Ways a computation ends

A computation that runs kernels has three endings: a value, a reported error, and a crash, where an
index or a division of work into rows has no meaning and nothing further is done. `Outcome ε α`
holds all three. Steps that can only report errors stay in `Except ε α` and are lifted into an
outcome where they are used.
-/

namespace NetPack

/-- Why a computation ends without a value. -/
inductive Fault (ε : Type) where
  /-- An error is reported to the caller. -/
  | reported (error : ε)
  /-- The computation breaks off. -/
  | crash
deriving DecidableEq

/-- A value, a reported error or a crash. -/
abbrev Outcome (ε α : Type) := Except (Fault ε) α

namespace Fault

variable {ε ε' : Type}

/-- Rewords a reported error; a crash stays a crash. -/
def map (f : ε → ε') : Fault ε → Fault ε'
  | .reported e => .reported (f e)
  | .crash => .crash

end Fault

namespace Outcome

variable {ε ε' α : Type}

/-- Reports an error. -/
def report (e : ε) : Outcome ε α := .error (.reported e)

/-- Breaks off. -/
def crash : Outcome ε α := .error .crash

/-- A result that cannot crash. -/
def ofExcept : Except ε α → Outcome ε α
  | .ok a => .ok a
  | .error e => report e

/-- Rewords reported errors. -/
def mapError (f : ε → ε') : Outcome ε α → Outcome ε' α
  | .ok a => .ok a
  | .error e => .error (e.map f)

instance : MonadLift (Except ε) (Except (Fault ε)) := ⟨ofExcept⟩

/-- A value whose absence is a crash. -/
def orCrash : Option α → Outcome ε α
  | some a => .ok a
  | none => crash

/-- The entry of an array, whose absence is a crash. -/
def entry (xs : Array α) (i : Nat) : Outcome ε α :=
  match xs[i]? with
  | some a => .ok a
  | none => crash

@[simp] theorem ofExcept_ok (a : α) : ofExcept (.ok a : Except ε α) = .ok a := rfl

@[simp] theorem ofExcept_error (e : ε) : (ofExcept (.error e) : Outcome ε α) = report e := rfl

@[simp] theorem orCrash_some (a : α) : (orCrash (some a) : Outcome ε α) = .ok a := rfl

@[simp] theorem orCrash_none : (orCrash none : Outcome ε α) = crash := rfl

@[simp] theorem mapError_ok (f : ε → ε') (a : α) : mapError f (.ok a) = .ok a := rfl

theorem entry_of_lt {xs : Array α} {i : Nat} (h : i < xs.size) :
    (entry xs i : Outcome ε α) = .ok xs[i] := by
  simp [entry, h]

end Outcome

end NetPack
