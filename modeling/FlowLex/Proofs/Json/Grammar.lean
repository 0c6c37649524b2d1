import FlowLex.Json.Fault
import FlowLex.Json.Numeral
import FlowLex.Proofs.Text.Utf16
import Mathlib.Data.List.Basic

/-!
# The grammar of JSON

What a JSON text says is a value; the same value is written in many ways, with white
space, with escapes and with different exponents. The rules say when a text writes a
value and do not look at how texts are read.
-/

namespace FlowLex.Json

open Text

/-- What a JSON text says. A number is given by its digits and a string by its code
units. The members of an object keep their order, and a key may come back. -/
inductive Value where
  | null
  | boolean (value : Bool)
  | number (numeral : Numeral)
  | string (units : List ℕ)
  | list (elements : List Value)
  | object (members : List (List ℕ × Value))

/-- A key and its value. -/
abbrev Member := List ℕ × Value

/-- Induction on the parts of a value. -/
theorem Value.induct {motive : Value → Prop} (null : motive .null)
    (boolean : ∀ value, motive (.boolean value))
    (number : ∀ numeral, motive (.number numeral))
    (string : ∀ units, motive (.string units))
    (list : ∀ elements, (∀ value ∈ elements, motive value) → motive (.list elements))
    (object : ∀ members : List Member, (∀ member ∈ members, motive member.2) →
      motive (.object members)) : ∀ value, motive value
  | .null => null
  | .boolean value => boolean value
  | .number numeral => number numeral
  | .string units => string units
  | .list elements =>
      list elements fun value _ => induct null boolean number string list object value
  | .object members =>
      object members fun member h =>
        have := List.sizeOf_lt_of_mem h
        induct null boolean number string list object member.2
termination_by value => sizeOf value
decreasing_by
  · have := List.sizeOf_lt_of_mem ‹_›
    simp only [Value.list.sizeOf_spec]
    omega
  · obtain ⟨key, value⟩ := member
    simp only [Value.object.sizeOf_spec, Prod.mk.sizeOf_spec] at *
    omega

/-- The text that a string says. There is none when half of a surrogate pair stands
alone. -/
def Value.text? : Value → Option String
  | .string units => (ofUnits? units).map String.ofList
  | _ => none

theorem Value.text?_utf16 (text : List Char) :
    (Value.string (utf16 text)).text? = some (String.ofList text) := by
  rw [text?, ofUnits?_utf16, Option.map_some]

/-! ## Numbers -/

/-- One or more digits. -/
def IsDigits (digits : List Char) : Prop := digits ≠ [] ∧ ∀ c ∈ digits, c.isDigit

namespace Numeral

/-- The digits in front of the point. No zero stands in front of another digit. -/
def IsWhole (digits : List Char) : Prop :=
  IsDigits digits ∧ (digits.head? = some '0' → digits = ['0'])

/-- The point and the digits behind it, if there are any. -/
inductive IsFraction : List Char → List Char → Prop
  | none : IsFraction [] []
  | some {digits : List Char} (h : IsDigits digits) : IsFraction digits ('.' :: digits)

/-- How the sign of an exponent is written. -/
inductive IsSign : Bool → List Char → Prop
  | none : IsSign false []
  | plus : IsSign false ['+']
  | minus : IsSign true ['-']

/-- The exponent with its letter, if there is one. -/
inductive IsExponent : Option (Bool × List Char) → List Char → Prop
  | none : IsExponent none []
  | some {letter : Char} {negative : Bool} {sign digits : List Char}
      (hletter : letter = 'e' ∨ letter = 'E') (hsign : IsSign negative sign)
      (hdigits : IsDigits digits) :
      IsExponent (some (negative, digits)) (letter :: (sign ++ digits))

/-- How a number is written. -/
inductive IsSpelled (numeral : Numeral) : List Char → Prop
  | mk {fraction exponent : List Char} (hwhole : IsWhole numeral.whole)
      (hfraction : IsFraction numeral.fraction fraction)
      (hexponent : IsExponent numeral.exponent exponent) :
      IsSpelled numeral
        ((if numeral.negative then ['-'] else []) ++ (numeral.whole ++ (fraction ++ exponent)))

end Numeral

/-! ## Strings -/

/-- What stands between the quotes of a string with the given code units: characters
written as they are, short escapes and escapes with the digits of a unit. -/
inductive IsBody : List ℕ → List Char → Prop
  | nil : IsBody [] []
  | plain {c : Char} {units : List ℕ} {body : List Char} (hlow : ' ' ≤ c) (hquote : c ≠ '"')
      (hslash : c ≠ '\\') (h : IsBody units body) :
      IsBody (codeUnits c ++ units) (c :: body)
  | short {letter meant : Char} {units : List ℕ} {body : List Char}
      (hletter : shortEscape? letter = some meant) (h : IsBody units body) :
      IsBody (codeUnits meant ++ units) ('\\' :: letter :: body)
  | unit {a b c d : Char} {unit : ℕ} {units : List ℕ} {body : List Char}
      (hunit : hexUnit? a b c d = some unit) (h : IsBody units body) :
      IsBody (unit :: units) ('\\' :: 'u' :: a :: b :: c :: d :: body)

/-! ## Values -/

section Parts

variable {α : Type} (IsPart : α → List Char → Prop)

/-- A part behind its key, which is a string, and a colon. -/
inductive Keyed : List ℕ × α → List Char → Prop
  | mk {a : α} {units : List ℕ} {body back front text : List Char} (hkey : IsBody units body)
      (hback : back.all isGap) (hfront : front.all isGap) (h : IsPart a text) :
      Keyed (units, a) ('"' :: (body ++ ('"' :: (back ++ (':' :: (front ++ text))))))

/-- One or more parts, each with white space around it, with commas between them. -/
inductive Separated : List α → List Char → Prop
  | last {a : α} {front text back : List Char} (hfront : front.all isGap) (h : IsPart a text)
      (hback : back.all isGap) : Separated [a] (front ++ (text ++ back))
  | cons {a : α} {rest : List α} {front text back tail : List Char} (hfront : front.all isGap)
      (h : IsPart a text) (hback : back.all isGap) (hrest : Separated rest tail) :
      Separated (a :: rest) (front ++ (text ++ (back ++ (',' :: tail))))

/-- Parts between two brackets, with white space alone when there are none. -/
inductive Enclosed (first last : Char) : List α → List Char → Prop
  | empty {gap : List Char} (hgap : gap.all isGap) :
      Enclosed first last [] (first :: (gap ++ [last]))
  | parts {parts : List α} {inner : List Char} (h : Separated IsPart parts inner) :
      Enclosed first last parts (first :: (inner ++ [last]))

end Parts

/-- A text writes a value, without white space around it. -/
inductive Value.IsSpelled : Value → List Char → Prop
  | null : IsSpelled .null ['n', 'u', 'l', 'l']
  | boolTrue : IsSpelled (.boolean true) ['t', 'r', 'u', 'e']
  | boolFalse : IsSpelled (.boolean false) ['f', 'a', 'l', 's', 'e']
  | number {numeral : Numeral} {text : List Char} (h : numeral.IsSpelled text) :
      IsSpelled (.number numeral) text
  | string {units : List ℕ} {body : List Char} (h : IsBody units body) :
      IsSpelled (.string units) ('"' :: (body ++ ['"']))
  | list {elements : List Value} {text : List Char}
      (h : Enclosed IsSpelled '[' ']' elements text) : IsSpelled (.list elements) text
  | object {members : List Member} {text : List Char}
      (h : Enclosed (Keyed IsSpelled) '\x7b' '\x7d' members text) :
      IsSpelled (.object members) text

/-- A document is a value with white space around it. -/
def IsDocument (value : Value) (document : List Char) : Prop :=
  ∃ front text back, front.all isGap ∧ value.IsSpelled text ∧ back.all isGap ∧
    document = front ++ (text ++ back)

end FlowLex.Json
