/-!
# Double-precision magnitudes

A finite double without its sign is a whole number of units of `2 ^ -1074`,
the smallest of them. Arithmetic is exact on such numbers and is then rounded
to the nearest double, a tie going to the even neighbour.
-/

namespace FlowLex

/-- A finite double without its sign, as a multiple of `2 ^ -1074`. -/
structure Binary64 where
  units : Nat
  deriving DecidableEq, Repr

namespace Binary64

/-- The nearest whole number to a ratio; of two, the even one. -/
def roundDiv (num den : Nat) : Nat :=
  let quotient := num / den
  let twice := 2 * (num % den)
  if twice < den then quotient
  else if den < twice then quotient + 1
  else quotient + quotient % 2

/-- The distance of neighbouring doubles from a size on: 53 binary digits are
kept. -/
def spacing (units : Nat) : Nat :=
  Nat.pow 2 (units.log2 - 52)

/-- The first power of two that is no double. -/
def limit : Nat := Nat.pow 2 2098

/-- The double nearest to a ratio; none when it would be infinite. -/
def ofRatio? (num den : Nat) : Option Binary64 :=
  let scaled := num * Nat.pow 2 1074
  let step := spacing (scaled / den)
  let units := roundDiv scaled (den * step) * step
  if units < limit then some ⟨units⟩ else none

def ofNat? (n : Nat) : Option Binary64 :=
  ofRatio? n 1

def mul? (a b : Binary64) : Option Binary64 :=
  ofRatio? (a.units * b.units) (Nat.pow 2 2148)

def div? (a b : Binary64) : Option Binary64 :=
  ofRatio? a.units b.units

/-- The largest power of ten that is a double is the 308th. -/
def maxPowerOfTen : Nat := 308

/-- `x / 10 ^ power`, by powers of ten that are doubles, the result of each
division being rounded. -/
def scaleDown? (x : Binary64) (power : Nat) : Option Binary64 := do
  if power ≤ maxPowerOfTen then
    x.div? (← ofNat? (Nat.pow 10 power))
  else if x.units = 0 then
    return x
  else
    let next ← x.div? (← ofNat? (Nat.pow 10 maxPowerOfTen))
    next.scaleDown? (power - maxPowerOfTen)
termination_by power
decreasing_by simp only [maxPowerOfTen] at *; omega

/-- `x * 10 ^ power`, rounded. -/
def scaleUp? (x : Binary64) (power : Nat) : Option Binary64 := do
  if power ≤ maxPowerOfTen then
    x.mul? (← ofNat? (Nat.pow 10 power))
  else if x.units = 0 then
    return x
  else
    none

def scale? (x : Binary64) : Int → Option Binary64
  | .ofNat power => x.scaleUp? power
  | .negSucc power => x.scaleDown? (power + 1)

end Binary64

end FlowLex
