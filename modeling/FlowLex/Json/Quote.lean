import FlowLex.Json.Fault

/-!
# Strings in a JSON text

A string that is needed is read as text; its escapes above U+FFFF are pairs
of UTF-16 surrogates, which must be complete. In a string that is only
skipped, escapes are checked one by one and pairs are not.
-/

namespace FlowLex.Json

/-- The value of a hexadecimal digit in either case. -/
def hexDigit? (c : Char) : Option Nat :=
  if c.isDigit then some (c.toNat - '0'.toNat)
  else if 'a' ≤ c && c ≤ 'f' then some (c.toNat - 'a'.toNat + 10)
  else if 'A' ≤ c && c ≤ 'F' then some (c.toNat - 'A'.toNat + 10)
  else none

/-- The number that four hexadecimal digits write. -/
def hexUnit? (a b c d : Char) : Option Nat := do
  return ((← hexDigit? a) * 16 + (← hexDigit? b)) * 256 +
    ((← hexDigit? c) * 16 + (← hexDigit? d))

/-- Reads the four bytes of an escape with a code number. -/
def readHexUnit (text : List Char) : Except Fault (Nat × List Char) :=
  match text with
  | a :: b :: c :: d :: rest =>
    match hexUnit? a b c d with
    | some unit => .ok (unit, rest)
    | none => .error ⟨.invalidEscape, Text.byteSize text - 4⟩
  | _ =>
    if Text.byteSize text < 4 then .error (.before .endOfString [])
    else .error ⟨.invalidEscape, Text.byteSize text - 4⟩

/-- The character that a letter behind a backslash stands for. -/
def shortEscape? : Char → Option Char
  | '"' => some '"'
  | '\\' => some '\\'
  | '/' => some '/'
  | 'b' => some '\x08'
  | 'f' => some '\x0c'
  | 'n' => some '\n'
  | 'r' => some '\r'
  | 't' => some '\t'
  | _ => none

/-- Reads an escape behind its backslash: the code number it stands for, which
can be half of a surrogate pair. -/
def readEscape : List Char → Except Fault (Nat × List Char)
  | [] => .error (.before .endOfString [])
  | 'u' :: rest => readHexUnit rest
  | c :: rest =>
    match shortEscape? c with
    | some meant => .ok (meant.toNat, rest)
    | none => .error (.past .invalidEscape (c :: rest))

theorem length_lt_of_readHexUnit {text rest : List Char} {unit : Nat}
    (h : readHexUnit text = .ok (unit, rest)) : rest.length < text.length := by
  unfold readHexUnit at h
  split at h
  · split at h
    · cases h
      simp only [List.length_cons]
      omega
    · cases h
  · split at h <;> cases h

theorem length_lt_of_readEscape {text rest : List Char} {unit : Nat}
    (h : readEscape text = .ok (unit, rest)) : rest.length < text.length := by
  unfold readEscape at h
  split at h
  · cases h
  · exact Nat.lt_succ_of_lt (length_lt_of_readHexUnit h)
  · split at h
    · cases h
      simp
    · cases h

/-- Skips a string behind its opening quote. -/
def skipString : List Char → Except Fault (List Char)
  | [] => .error (.before .endOfString [])
  | '"' :: rest => .ok rest
  | '\\' :: rest =>
    match h : readEscape rest with
    | .error fault => .error fault
    | .ok (_, rest') =>
      have := length_lt_of_readEscape h
      skipString rest'
  | c :: rest =>
    if c < ' ' then .error (.before .controlCharacter (c :: rest))
    else skipString rest
termination_by text => text.length

def isLeading (unit : Nat) : Bool :=
  0xD800 ≤ unit && unit ≤ 0xDBFF

def isTrailing (unit : Nat) : Bool :=
  0xDC00 ≤ unit && unit ≤ 0xDFFF

/-- Reads the second half of a surrogate pair and gives the character that
the pair stands for. -/
def readTrailing (leading : Nat) :
    List Char → Except Fault (Char × List Char)
  | [] => .error (.before .endOfString [])
  | '\\' :: [] => .error (.before .endOfString [])
  | '\\' :: 'u' :: rest => do
    let (trailing, rest) ← readHexUnit rest
    if isTrailing trailing then
      let code := 0x10000 + (leading - 0xD800) * 0x400 + (trailing - 0xDC00)
      return (Char.ofNat code, rest)
    else
      throw (.before .loneSurrogate rest)
  | '\\' :: rest => .error (.past .unfinishedPair rest)
  | rest => .error (.past .unfinishedPair rest)

/-- Reads the character of an escape behind its backslash. -/
def readEscapedChar (text : List Char) : Except Fault (Char × List Char) := do
  let (unit, rest) ← readEscape text
  if isTrailing unit then throw (.before .loneSurrogate rest)
  else if isLeading unit then readTrailing unit rest
  else return (Char.ofNat unit, rest)

theorem length_lt_of_readTrailing {leading : Nat} {text rest : List Char}
    {c : Char} (h : readTrailing leading text = .ok (c, rest)) :
    rest.length < text.length := by
  unfold readTrailing at h
  split at h
  · cases h
  · cases h
  · rename_i text'
    cases hunit : readHexUnit text' with
    | error fault =>
        rw [hunit] at h
        cases h
    | ok pair =>
        obtain ⟨trailing, rest'⟩ := pair
        have := length_lt_of_readHexUnit hunit
        simp only [hunit, bind, Except.bind] at h
        split at h
        · simp only [pure, Except.pure, Except.ok.injEq, Prod.mk.injEq] at h
          obtain ⟨-, rfl⟩ := h
          simp only [List.length_cons]
          omega
        · cases h
  · cases h
  · cases h

theorem length_lt_of_readEscapedChar {text rest : List Char} {c : Char}
    (h : readEscapedChar text = .ok (c, rest)) : rest.length < text.length := by
  unfold readEscapedChar at h
  cases hescape : readEscape text with
  | error fault =>
      rw [hescape] at h
      cases h
  | ok pair =>
      obtain ⟨unit, rest'⟩ := pair
      have hlt := length_lt_of_readEscape hescape
      simp only [hescape, bind, Except.bind] at h
      split at h
      · cases h
      · split at h
        · exact Nat.lt_trans (length_lt_of_readTrailing h) hlt
        · simp only [pure, Except.pure, Except.ok.injEq, Prod.mk.injEq] at h
          obtain ⟨-, rfl⟩ := h
          exact hlt

/-- Reads a string behind its opening quote. -/
def readString : List Char → Except Fault (List Char × List Char)
  | [] => .error (.before .endOfString [])
  | '"' :: rest => .ok ([], rest)
  | '\\' :: rest =>
    match h : readEscapedChar rest with
    | .error fault => .error fault
    | .ok (c, rest') =>
      have := length_lt_of_readEscapedChar h
      match readString rest' with
      | .error fault => .error fault
      | .ok (text, rest) => .ok (c :: text, rest)
  | c :: rest =>
    if c < ' ' then .error (.past .controlCharacter (c :: rest))
    else
      match readString rest with
      | .error fault => .error fault
      | .ok (text, rest) => .ok (c :: text, rest)
termination_by text => text.length

theorem length_lt_of_skipString {text rest : List Char}
    (h : skipString text = .ok rest) : rest.length < text.length := by
  fun_induction skipString text with
  | case1 => cases h
  | case2 =>
      cases h
      simp
  | case3 => cases h
  | case4 text' unit rest' hescape hlt ih =>
      have := ih h
      simp only [List.length_cons]
      omega
  | case5 => cases h
  | case6 c text' _ _ _ ih =>
      exact Nat.lt_succ_of_lt (ih h)

theorem length_lt_of_readString {text value rest : List Char}
    (h : readString text = .ok (value, rest)) : rest.length < text.length := by
  fun_induction readString text generalizing value with
  | case1 => cases h
  | case2 =>
      cases h
      simp
  | case3 => cases h
  | case4 => cases h
  | case5 text' c rest' hescape hlt value' rest'' hread ih =>
      cases h
      have := ih hread
      simp only [List.length_cons]
      omega
  | case6 => cases h
  | case7 => cases h
  | case8 c text' _ _ _ value' rest' hread ih =>
      cases h
      exact Nat.lt_succ_of_lt (ih hread)

end FlowLex.Json
