/-!
# Rounding a quotient

One function rounds a quotient of natural numbers to a natural number.  What it
does with an exact half is the caller's choice, named by `Tie`.  Reading a
decimal, a fused multiply-add, a fixed number of places and the nearest integer
are all this one function on different quotients.
-/

namespace Backlog

/-- A power of two. -/
def twoTo (n : Nat) : Nat := Nat.pow 2 n

/-- A power of ten. -/
def tenTo (n : Nat) : Nat := Nat.pow 10 n

/-- Which way an exact half goes. -/
inductive Tie where
  /-- To the neighbour that is even. -/
  | even
  /-- To the neighbour that is larger. -/
  | up
  deriving DecidableEq, Repr

/-- The natural number nearest to `num / den`; a half goes as `tie` says. -/
def roundQuotient (tie : Tie) (num den : Nat) : Nat :=
  let quotient := num / den
  match compare (2 * (num % den)) den with
  | .lt => quotient
  | .gt => quotient + 1
  | .eq =>
    match tie with
    | .even => quotient + quotient % 2
    | .up => quotient + 1

/-- An integer brought into `low … high`. -/
def clamp (low high i : Int) : Int := max low (min high i)

/-- The difference of two 64-bit integers, held at the ends of the 64-bit range. -/
def saturatingSub (a b : Int64) : Int :=
  clamp (-(twoTo 63)) (twoTo 63 - 1) (a.toInt - b.toInt)

end Backlog
