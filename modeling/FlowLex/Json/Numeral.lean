import FlowLex.Json.Fault
import FlowLex.Number.Shortest

/-!
# Numbers in a JSON text

A number is read as a numeral, its digits, and only then valued: a whole
number that fits into 64 bits keeps its value, any other number becomes the
double next to it.
-/

namespace FlowLex.Json

/-- The digits of a number. The exponent has a sign, true when negative. -/
structure Numeral where
  negative : Bool := false
  whole : List Char
  fraction : List Char := []
  exponent : Option (Bool × List Char) := none
  deriving DecidableEq, Repr

/-- Reads one or more digits. `missing` is the fault of a text that ends
where a digit must stand. -/
def readDigits (missing : Problem) :
    List Char → Except Fault (List Char × List Char)
  | [] => .error (.before missing [])
  | c :: rest =>
    if c.isDigit then
      .ok (c :: rest.takeWhile Char.isDigit, rest.dropWhile Char.isDigit)
    else
      .error (.past .invalidNumber (c :: rest))

/-- Reads the digits in front of the point. A zero in front of another digit
is refused. -/
def readWhole (missing : Problem) :
    List Char → Except Fault (List Char × List Char)
  | '0' :: c :: rest =>
    if c.isDigit then .error (.past .invalidNumber (c :: rest))
    else .ok (['0'], c :: rest)
  | text => readDigits missing text

def readFraction (missing : Problem) :
    List Char → Except Fault (List Char × List Char)
  | '.' :: rest => readDigits missing rest
  | text => .ok ([], text)

/-- Reads the sign of an exponent, true when negative. -/
def readSign : List Char → Bool × List Char
  | '+' :: rest => (false, rest)
  | '-' :: rest => (true, rest)
  | text => (false, text)

def readExponent (missing : Problem) :
    List Char → Except Fault (Option (Bool × List Char) × List Char)
  | c :: rest =>
    if c = 'e' || c = 'E' then do
      let (negative, rest) := readSign rest
      let (digits, rest) ← readDigits missing rest
      return (some (negative, digits), rest)
    else
      .ok (none, c :: rest)
  | [] => .ok (none, [])

/-- Reads a number behind its sign. -/
def readUnsigned (missing : Problem) (negative : Bool) (text : List Char) :
    Except Fault (Numeral × List Char) := do
  let (whole, rest) ← readWhole missing text
  let (fraction, rest) ← readFraction missing rest
  let (exponent, rest) ← readExponent missing rest
  return ({ negative, whole, fraction, exponent }, rest)

/-- Reads a number. -/
def readNumeral (missing : Problem) :
    List Char → Except Fault (Numeral × List Char)
  | '-' :: rest => readUnsigned missing true rest
  | text => readUnsigned missing false text

theorem length_lt_of_readDigits {missing : Problem}
    {text digits rest : List Char}
    (h : readDigits missing text = .ok (digits, rest)) :
    rest.length < text.length := by
  unfold readDigits at h
  split at h
  · cases h
  · split at h
    · cases h
      exact Nat.lt_succ_of_le (List.dropWhile_sublist _).length_le
    · cases h

theorem length_lt_of_readWhole {missing : Problem}
    {text digits rest : List Char}
    (h : readWhole missing text = .ok (digits, rest)) :
    rest.length < text.length := by
  unfold readWhole at h
  split at h
  · split at h
    · cases h
    · cases h
      simp
  · exact length_lt_of_readDigits h

theorem length_le_of_readFraction {missing : Problem}
    {text digits rest : List Char}
    (h : readFraction missing text = .ok (digits, rest)) :
    rest.length ≤ text.length := by
  unfold readFraction at h
  split at h
  · exact Nat.le_succ_of_le (Nat.le_of_lt (length_lt_of_readDigits h))
  · cases h
    exact Nat.le_refl _

theorem length_readSign_le (text : List Char) :
    (readSign text).2.length ≤ text.length := by
  unfold readSign
  split <;> simp

theorem length_le_of_readExponent {missing : Problem} {text rest : List Char}
    {exponent : Option (Bool × List Char)}
    (h : readExponent missing text = .ok (exponent, rest)) :
    rest.length ≤ text.length := by
  unfold readExponent at h
  split at h
  · rename_i c text'
    split at h
    · have hsign := length_readSign_le text'
      cases hdigits : readDigits missing (readSign text').2 with
      | error fault =>
          simp only [hdigits, bind, Except.bind] at h
          cases h
      | ok pair =>
          obtain ⟨digits, rest'⟩ := pair
          have := length_lt_of_readDigits hdigits
          simp only [hdigits, bind, Except.bind] at h
          cases h
          simp only [List.length_cons]
          omega
    · cases h
      exact Nat.le_refl _
  · cases h
    exact Nat.le_refl _

theorem length_lt_of_readUnsigned {missing : Problem} {negative : Bool}
    {text rest : List Char} {numeral : Numeral}
    (h : readUnsigned missing negative text = .ok (numeral, rest)) :
    rest.length < text.length := by
  unfold readUnsigned at h
  cases hwhole : readWhole missing text with
  | error fault =>
      simp only [hwhole, bind, Except.bind] at h
      cases h
  | ok whole =>
      have := length_lt_of_readWhole hwhole
      simp only [hwhole, bind, Except.bind] at h
      cases hfraction : readFraction missing whole.2 with
      | error fault =>
          simp only [hfraction] at h
          cases h
      | ok fraction =>
          have := length_le_of_readFraction hfraction
          simp only [hfraction] at h
          cases hexponent : readExponent missing fraction.2 with
          | error fault =>
              simp only [hexponent] at h
              cases h
          | ok exponent =>
              have := length_le_of_readExponent hexponent
              simp only [hexponent] at h
              cases h
              omega

theorem length_lt_of_readNumeral {missing : Problem} {text rest : List Char}
    {numeral : Numeral} (h : readNumeral missing text = .ok (numeral, rest)) :
    rest.length < text.length := by
  unfold readNumeral at h
  split at h
  · exact Nat.lt_succ_of_lt (length_lt_of_readUnsigned h)
  · exact length_lt_of_readUnsigned h

namespace Numeral

/-- Appends digits to a number as long as it stays below `limit`, and counts
the digits that are left over. -/
def absorb (limit value : Nat) : List Char → Nat × Nat
  | [] => (value, 0)
  | c :: rest =>
    let next := 10 * value + (c.toNat - '0'.toNat)
    if next < limit then absorb limit next rest else (value, rest.length + 1)

/-- The power of ten that the exponent adds. -/
def exponentValue (numeral : Numeral) : Int :=
  match numeral.exponent with
  | none => 0
  | some (negative, digits) =>
    let size := digits.foldl (fun n c => 10 * n + (c.toNat - '0'.toNat)) 0
    if negative then -(size : Int) else size

/-- The double that a numeral stands for, without its sign. Digits past the
first 64 bits count only for the size; the result is none when it would be
infinite. -/
def magnitude? (numeral : Numeral) : Option Binary64 := do
  let (value, leftWhole) := absorb (Nat.pow 2 64) 0 numeral.whole
  let (value, leftFraction) := absorb (Nat.pow 2 64) value numeral.fraction
  let used := numeral.fraction.length - leftFraction
  let power := (leftWhole : Int) - used + numeral.exponentValue
  (← Binary64.ofNat? value).scale? power

/-- The decimal text of a double: positional from `0.00001` up to
`10 ^ 16`, otherwise with an exponent, which has a sign. -/
def decimalText (x : Binary64) : String :=
  let shortest := x.shortest
  let digits := shortest.digits.repr.toList
  let point : Int := digits.length + shortest.power
  String.ofList <|
    if 0 ≤ shortest.power && point ≤ 16 then
      digits ++ List.replicate shortest.power.toNat '0' ++ ['.', '0']
    else if 0 < point && point ≤ 16 then
      digits.take point.toNat ++ ['.'] ++ digits.drop point.toNat
    else if -5 < point && point ≤ 0 then
      ['0', '.'] ++ List.replicate (-point).toNat '0' ++ digits
    else
      let fraction := if digits.length = 1 then [] else '.' :: digits.drop 1
      let mark := if 0 < point then ['e', '+'] else ['e']
      digits.take 1 ++ fraction ++ mark ++ (point - 1).repr.toList

/-- The whole number that a numeral stands for; none when it has a fraction,
an exponent or too many digits, is below the least of 64 bits, or is a zero
with a sign. -/
def integer? (numeral : Numeral) : Option Int :=
  let (value, left) := absorb (Nat.pow 2 64) 0 numeral.whole
  if !numeral.fraction.isEmpty || numeral.exponent.isSome || left != 0 then
    none
  else if !numeral.negative then
    some value
  else if value = 0 || Nat.pow 2 63 < value then
    none
  else
    some (-(value : Int))

/-- The digits that need not be read to see that the exponent does not fit
into 31 bits. -/
def unread (numeral : Numeral) : Nat :=
  match numeral.exponent with
  | none => 0
  | some (_, digits) => (absorb (Nat.pow 2 31) 0 digits).2 - 1

/-- A numeral as it is named in messages, when `rest` follows it. A double
that would be infinite is a fault. -/
def found (numeral : Numeral) (rest : List Char) : Except Fault Found :=
  match numeral.integer?, numeral.magnitude? with
  | some value, _ => .ok (.integer value)
  | none, some x =>
    let sign := if numeral.negative then "-" else ""
    .ok (.decimal (sign ++ decimalText x))
  | none, none =>
    .error ⟨.numberOutOfRange, Text.byteSize rest + numeral.unread⟩

end Numeral

end FlowLex.Json
