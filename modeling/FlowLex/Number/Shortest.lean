import FlowLex.Number.Binary64

/-!
# Shortest decimals

The decimal with the fewest digits among those that read back as a given
double: the point nearest to it on the coarsest decimal grid that has a point
in the interval of the reals that round to it.
-/

namespace FlowLex

/-- The number `digits * 10 ^ power`. -/
structure Decimal where
  digits : Nat
  power : Int
  deriving DecidableEq, Repr

namespace Binary64

/-- The reals that round to a double, in quarter units; the ends belong to
them when the double is even. Below a power of two the doubles lie twice as
close. -/
def interval (x : Binary64) : Nat × Nat :=
  let step := spacing x.units
  let below := if 1 < step && x.units == Nat.pow 2 52 * step then step else 2 * step
  (4 * x.units - below, 4 * x.units + 2 * step)

def isEven (x : Binary64) : Bool :=
  x.units / spacing x.units % 2 == 0

/-- `digits * 10 ^ power` as a ratio of quarter units. -/
def quarters (d : Decimal) : Nat × Nat :=
  match d.power with
  | .ofNat power => (4 * (d.digits * Nat.pow 10 power * Nat.pow 2 1074), 1)
  | .negSucc power => (4 * (d.digits * Nat.pow 2 1074), Nat.pow 10 (power + 1))

/-- The decimal rounds to the double. -/
def isReadAs (d : Decimal) (x : Binary64) : Bool :=
  let (num, den) := quarters d
  let (low, high) := x.interval
  if x.isEven then
    low * den ≤ num && num ≤ high * den
  else
    low * den < num && num < high * den

/-- The two neighbours of a double on a decimal grid, and whether the upper
one is the better choice: it is nearer, or as near and even. -/
def neighbours (x : Binary64) (power : Int) : Nat × Nat × Bool :=
  let (num, den) :=
    match power with
    | .ofNat power => (x.units, Nat.pow 2 1074 * Nat.pow 10 power)
    | .negSucc power => (x.units * Nat.pow 10 (power + 1), Nat.pow 2 1074)
  let quotient := num / den
  (quotient, quotient + 1, roundDiv num den != quotient)

/-- The best decimal on a grid that reads back as the double. -/
def onGrid? (x : Binary64) (power : Int) : Option Decimal :=
  let (lower, upper, takeUpper) := x.neighbours power
  let candidates := if takeUpper then [upper, lower] else [lower, upper]
  (candidates.map (Decimal.mk · power)).find? (isReadAs · x)

/-- The grids that can be the coarsest for some double, from coarse to
fine. -/
def grids : List Int :=
  (List.range 700).map fun index => 310 - Int.ofNat index

/-- The shortest decimal that reads back as the double; 0 has one digit. -/
def shortest (x : Binary64) : Decimal :=
  if x.units = 0 then ⟨0, 0⟩
  else (grids.findSome? x.onGrid?).getD ⟨0, 0⟩

end Binary64

end FlowLex
