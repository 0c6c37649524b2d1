import FlowLex.Json.Fault
import FlowLex.Json.Numeral
import FlowLex.Json.Quote

/-!
# Skipped values

A value that nobody asks for is checked and left out. It may nest as deep as
it likes: the brackets that are open around the place of reading are kept in
a list.
-/

namespace FlowLex.Json

/-- What an open bracket encloses. -/
inductive Enclosure where
  | list
  | object
  deriving DecidableEq, Repr

namespace Enclosure

def closing : Enclosure → Char
  | .list => ']'
  | .object => '\x7d'

/-- The fault of a text that ends inside. -/
def unclosed : Enclosure → Problem
  | .list => .endOfList
  | .object => .endOfObject

/-- The fault of a part with neither a comma nor the closing bracket behind
it. -/
def unseparated : Enclosure → Problem
  | .list => .expectedCommaOrListEnd
  | .object => .expectedCommaOrObjectEnd

end Enclosure

/-- Reads the colon behind a key. -/
def readColon (text : List Char) : Except Fault (List Char) :=
  match skipGap text with
  | [] => .error (.before .endOfObject [])
  | c :: rest =>
    if c = ':' then .ok rest else .error (.past .expectedColon (c :: rest))

/-- Skips a key and its colon. -/
def skipKey (text : List Char) : Except Fault (List Char) :=
  match skipGap text with
  | [] => .error (.before .endOfObject [])
  | '"' :: rest => skipString rest >>= readColon
  | rest => .error (.past .keyNotString rest)

/-- Skips a value that is neither a list nor an object. -/
def skipScalar : List Char → Except Fault (List Char)
  | [] => .error (.before .endOfValue [])
  | 'n' :: rest => readWord nullTail rest
  | 't' :: rest => readWord trueTail rest
  | 'f' :: rest => readWord falseTail rest
  | '"' :: rest => skipString rest
  | c :: rest =>
    if c = '-' || c.isDigit then
      (readNumeral .invalidNumber (c :: rest)).map Prod.snd
    else
      .error (.past .expectedValue (c :: rest))

theorem length_lt_of_readColon {text rest : List Char}
    (h : readColon text = .ok rest) : rest.length < text.length := by
  unfold readColon at h
  split at h
  · cases h
  · rename_i hgap
    split at h
    · cases h
      exact length_lt_of_skipGap hgap
    · cases h

theorem length_lt_of_skipKey {text rest : List Char}
    (h : skipKey text = .ok rest) : rest.length < text.length := by
  unfold skipKey at h
  split at h
  · cases h
  · rename_i text' hgap
    have := length_lt_of_skipGap hgap
    cases hstring : skipString text' with
    | error fault =>
        simp only [hstring, bind, Except.bind] at h
        cases h
    | ok rest' =>
        simp only [hstring, bind, Except.bind] at h
        have := length_lt_of_skipString hstring
        have := length_lt_of_readColon h
        omega
  · cases h

theorem length_lt_of_skipScalar {text rest : List Char}
    (h : skipScalar text = .ok rest) : rest.length < text.length := by
  unfold skipScalar at h
  split at h
  · cases h
  · exact Nat.lt_succ_of_le (length_le_of_readWord h)
  · exact Nat.lt_succ_of_le (length_le_of_readWord h)
  · exact Nat.lt_succ_of_le (length_le_of_readWord h)
  · exact Nat.lt_succ_of_lt (length_lt_of_skipString h)
  · rename_i c text' _ _ _ _
    split at h
    · cases hnumeral : readNumeral .invalidNumber (c :: text') with
      | error fault =>
          rw [hnumeral] at h
          cases h
      | ok pair =>
          rw [hnumeral] at h
          cases h
          exact length_lt_of_readNumeral hnumeral
    · cases h

mutual

/-- Skips a value and what follows it up to the last of the brackets that are
open around it. -/
def skipValue (around : List Enclosure) (text : List Char) :
    Except Fault (List Char) :=
  match hgap : skipGap text with
  | '[' :: inner =>
    have := length_lt_of_skipGap hgap
    match hinner : skipGap inner with
    | [] => .error (.before .endOfList [])
    | ']' :: rest =>
      have := length_lt_of_skipGap hinner
      skipRest around rest
    | _ => skipValue (.list :: around) inner
  | '\x7b' :: inner =>
    have := length_lt_of_skipGap hgap
    match hinner : skipGap inner with
    | '\x7d' :: rest =>
      have := length_lt_of_skipGap hinner
      skipRest around rest
    | _ =>
      match hkey : skipKey inner with
      | .error fault => .error fault
      | .ok rest =>
        have := length_lt_of_skipKey hkey
        skipValue (.object :: around) rest
  | scalar =>
    match hscalar : skipScalar scalar with
    | .error fault => .error fault
    | .ok rest =>
      have := length_lt_of_skipScalar hscalar
      have := length_skipGap_le text
      skipRest around rest
termination_by text.length

/-- Skips what follows a value up to the last of the open brackets. -/
def skipRest (around : List Enclosure) (text : List Char) :
    Except Fault (List Char) :=
  match around with
  | [] => .ok text
  | inside :: outside =>
    match hgap : skipGap text with
    | [] => .error (.before inside.unclosed [])
    | c :: rest =>
      have := length_lt_of_skipGap hgap
      if c = ',' then
        match inside with
        | .list => skipValue around rest
        | .object =>
          match hkey : skipKey rest with
          | .error fault => .error fault
          | .ok rest' =>
            have := length_lt_of_skipKey hkey
            skipValue around rest'
      else if c = inside.closing then
        skipRest outside rest
      else
        .error (.past inside.unseparated (c :: rest))
termination_by text.length

end

theorem length_of_skip :
    (∀ around text rest, skipValue around text = .ok rest →
      rest.length < text.length) ∧
    (∀ around text rest, skipRest around text = .ok rest →
      rest.length ≤ text.length) := by
  apply skipValue.mutual_induct
    (fun around text => ∀ rest, skipValue around text = .ok rest →
      rest.length < text.length)
    (fun around text => ∀ rest, skipRest around text = .ok rest →
      rest.length ≤ text.length)
  all_goals grind [skipValue, skipRest]

theorem length_lt_of_skipValue {around : List Enclosure} {text rest : List Char}
    (h : skipValue around text = .ok rest) : rest.length < text.length :=
  length_of_skip.1 around text rest h

end FlowLex.Json
