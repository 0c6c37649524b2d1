import FlowLex.Json.Quote
import Mathlib.Data.List.Basic

/-!
# Code units

In JSON a string is written with UTF-16 code units: an escape gives one unit, so a
character above U+FFFF takes two, a leading and a trailing surrogate. Not every list of
code units is a text, but a text is known from its code units.
-/

namespace FlowLex.Text

open Json (isLeading isTrailing)

/-- The UTF-16 code units of a character. -/
def codeUnits (c : Char) : List ℕ :=
  if c.toNat < 0x10000 then [c.toNat]
  else [0xD800 + (c.toNat - 0x10000) / 0x400, 0xDC00 + (c.toNat - 0x10000) % 0x400]

/-- The UTF-16 form of a text. -/
def utf16 (text : List Char) : List ℕ := text.flatMap codeUnits

@[simp] theorem utf16_nil : utf16 [] = [] := rfl

@[simp] theorem utf16_cons (c : Char) (text : List Char) :
    utf16 (c :: text) = codeUnits c ++ utf16 text := rfl

/-- The character that a pair of surrogates stands for. -/
def pairChar (leading trailing : ℕ) : Char :=
  Char.ofNat (0x10000 + (leading - 0xD800) * 0x400 + (trailing - 0xDC00))

/-- The text with the given code units; none when half of a surrogate pair stands
alone. -/
def ofUnits? : List ℕ → Option (List Char)
  | [] => some []
  | unit :: rest =>
      if isLeading unit then
        match rest with
        | [] => none
        | next :: rest =>
            if isTrailing next then (ofUnits? rest).map (pairChar unit next :: ·) else none
      else if isTrailing unit then none
      else (ofUnits? rest).map (Char.ofNat unit :: ·)

theorem ofUnits?_pair {leading trailing : ℕ} (hlead : isLeading leading)
    (htrail : isTrailing trailing) (units : List ℕ) :
    ofUnits? (leading :: trailing :: units) =
      (ofUnits? units).map (pairChar leading trailing :: ·) := by
  rw [ofUnits?, if_pos hlead]
  simp [htrail]

theorem ofUnits?_single {unit : ℕ} (hlead : isLeading unit = false)
    (htrail : isTrailing unit = false) (units : List ℕ) :
    ofUnits? (unit :: units) = (ofUnits? units).map (Char.ofNat unit :: ·) := by
  rw [ofUnits?.eq_def]
  simp [hlead, htrail]

theorem ofUnits?_trailing {unit : ℕ} (htrail : isTrailing unit) (units : List ℕ) :
    ofUnits? (unit :: units) = none := by
  have hlead : isLeading unit = false := by
    simp only [isTrailing, isLeading, Bool.and_eq_true, decide_eq_true_eq,
      Bool.and_eq_false_iff, decide_eq_false_iff_not] at htrail ⊢
    omega
  rw [ofUnits?.eq_def]
  simp [hlead, htrail]

/-- A leading surrogate needs a trailing one behind it. -/
theorem ofUnits?_lone {unit : ℕ} (hlead : isLeading unit) {units : List ℕ}
    (hnext : ∀ next ∈ units.head?, isTrailing next = false) :
    ofUnits? (unit :: units) = none := by
  rw [ofUnits?.eq_def]
  cases units with
  | nil => simp [hlead]
  | cons next units => simp [hlead, hnext next rfl]

/-! ## Characters and their code units -/

/-- No character is a surrogate. -/
theorem not_surrogate (c : Char) : c.toNat < 0xD800 ∨ 0xDFFF < c.toNat ∧ c.toNat < 0x110000 :=
  c.valid

theorem codeUnits_of_lt {c : Char} (h : c.toNat < 0x10000) : codeUnits c = [c.toNat] :=
  if_pos h

theorem isLeading_toNat (c : Char) : isLeading c.toNat = false := by
  have hvalid := not_surrogate c
  simp only [isLeading, Bool.and_eq_false_iff, decide_eq_false_iff_not]
  omega

theorem isTrailing_toNat (c : Char) : isTrailing c.toNat = false := by
  have hvalid := not_surrogate c
  simp only [isTrailing, Bool.and_eq_false_iff, decide_eq_false_iff_not]
  omega

/-- The first code unit of a character is no trailing surrogate. -/
theorem isTrailing_head?_codeUnits (c : Char) (units : List ℕ) :
    ∀ unit ∈ (codeUnits c ++ units).head?, isTrailing unit = false := by
  intro unit hunit
  have hvalid := not_surrogate c
  unfold codeUnits at hunit
  split at hunit
  · obtain rfl : c.toNat = unit := by simpa using hunit
    exact isTrailing_toNat c
  · obtain rfl : 0xD800 + (c.toNat - 0x10000) / 0x400 = unit := by simpa using hunit
    simp only [isTrailing, Bool.and_eq_false_iff, decide_eq_false_iff_not]
    omega

theorem ofUnits?_codeUnits_append (c : Char) (units : List ℕ) :
    ofUnits? (codeUnits c ++ units) = (ofUnits? units).map (c :: ·) := by
  have hvalid := not_surrogate c
  unfold codeUnits
  split
  · rw [List.singleton_append, ofUnits?_single (isLeading_toNat c) (isTrailing_toNat c),
      Char.ofNat_toNat]
  · have hlead : isLeading (0xD800 + (c.toNat - 0x10000) / 0x400) := by
      simp only [isLeading, Bool.and_eq_true, decide_eq_true_eq]
      omega
    have htrail : isTrailing (0xDC00 + (c.toNat - 0x10000) % 0x400) := by
      simp only [isTrailing, Bool.and_eq_true, decide_eq_true_eq]
      omega
    have hpair : pairChar (0xD800 + (c.toNat - 0x10000) / 0x400)
        (0xDC00 + (c.toNat - 0x10000) % 0x400) = c := by
      have hcode : 0x10000 + (0xD800 + (c.toNat - 0x10000) / 0x400 - 0xD800) * 0x400 +
          (0xDC00 + (c.toNat - 0x10000) % 0x400 - 0xDC00) = c.toNat := by omega
      rw [pairChar, hcode, Char.ofNat_toNat]
    rw [List.cons_append, List.singleton_append, ofUnits?_pair hlead htrail, hpair]

/-- A text is known from its code units. -/
@[simp] theorem ofUnits?_utf16 (text : List Char) : ofUnits? (utf16 text) = some text := by
  induction text with
  | nil => rfl
  | cons c text ih => rw [utf16_cons, ofUnits?_codeUnits_append, ih, Option.map_some]

theorem utf16_injective : Function.Injective utf16 := by
  intro text other h
  have heq := congrArg ofUnits? h
  rwa [ofUnits?_utf16, ofUnits?_utf16, Option.some.injEq] at heq

end FlowLex.Text
