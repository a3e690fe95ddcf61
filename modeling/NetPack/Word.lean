/-!
# Sizes as 64-bit words

Extents, counts and byte sizes are unsigned 64-bit words. They are kept as natural numbers, so that
lemmas about them are plain arithmetic, and each place that multiplies or adds two of them says what
happens when the result does not fit. `Word.mul?` and `Word.add?` give no result, in every build.
`Word.settle` is what the plain operators do, and that depends on the `Build`: a release build keeps
the low 64 bits, a checked build breaks off.
-/

namespace NetPack

/-- How the program is built. -/
class Build where
  /-- Does an operation break off if its result is no word? -/
  checks : Bool

namespace Build

/-- A build whose operations keep the low 64 bits of a result. -/
@[reducible] def release : Build := ⟨false⟩

/-- A build whose operations break off at a result that is no word. -/
@[reducible] def checked : Build := ⟨true⟩

/-- The build that is meant where none is named. -/
instance (priority := low) : Build := checked

end Build

namespace Word

/-- The number of different words. -/
def modulus : Nat := 18446744073709551616

/-- The least word that is negative as a signed one. -/
def signBit : Nat := 9223372036854775808

/-- The low 64 bits of a number. -/
def wrap (n : Nat) : Nat := n % modulus

/-- The sum of numbers. -/
def sum (ns : List Nat) : Nat := ns.foldr (· + ·) 0

/-- The product of numbers. -/
def product (ns : List Nat) : Nat := ns.foldr (· * ·) 1

/-- The product, if it is a word. -/
def mul? (a b : Nat) : Option Nat :=
  if a * b < modulus then some (a * b) else none

/-- The sum, if it is a word. -/
def add? (a b : Nat) : Option Nat :=
  if a + b < modulus then some (a + b) else none

/-- The result of a plain operation whose exact result is `n`; none where the build breaks off. -/
def settle [Build] (n : Nat) : Option Nat :=
  if n < modulus then some n else if Build.checks then none else some (wrap n)

theorem wrap_of_lt {n : Nat} (h : n < modulus) : wrap n = n := Nat.mod_eq_of_lt h

theorem wrap_lt (n : Nat) : wrap n < modulus := Nat.mod_lt n (by decide)

theorem mul?_eq_some_iff {a b c : Nat} : mul? a b = some c ↔ a * b = c ∧ c < modulus := by
  unfold mul?
  split <;> simp only [Option.some.injEq, reduceCtorEq, false_iff, not_and] <;> omega

theorem add?_eq_some_iff {a b c : Nat} : add? a b = some c ↔ a + b = c ∧ c < modulus := by
  unfold add?
  split <;> simp only [Option.some.injEq, reduceCtorEq, false_iff, not_and] <;> omega

theorem settle_of_lt [Build] {n : Nat} (h : n < modulus) : settle n = some n := if_pos h

/-- Whatever the build, a result is the exact one modulo `2 ^ 64`. -/
theorem eq_wrap_of_settle [Build] {n m : Nat} (h : settle n = some m) : m = wrap n := by
  unfold settle at h
  split at h
  · rename_i hlt
    rw [wrap_of_lt hlt, ← Option.some.inj h]
  · split at h
    · cases h
    · exact (Option.some.inj h).symm

/-- A release build computes modulo `2 ^ 64`. -/
theorem settle_release [Build] (h : Build.checks = false) (n : Nat) :
    settle n = some (wrap n) := by
  unfold settle
  split
  · rename_i hlt
    rw [wrap_of_lt hlt]
  · simp [h]

end Word

end NetPack
