import FlowLex.Proofs.Json.Reading

/-!
# A JSON text has one reading

The first character of a value tells its kind, and whatever follows a value the text
of the value ends at one place. So a document writes one value at most, whatever white
space, escapes and nesting are in it.
-/

namespace FlowLex.Json

open Text

/-! ## Where values start and end -/

/-- A part starts with neither white space nor a sign that stands behind values. -/
def StartsPart (text : List Char) : Prop :=
  ∃ c tail, text = c :: tail ∧ isGap c = false ∧ c ∉ [',', ']', '\x7d']

theorem StartsPart.skipGap_append {text : List Char} (h : StartsPart text) {front : List Char}
    (hfront : front.all isGap) (rest : List Char) :
    skipGap (front ++ (text ++ rest)) = text ++ rest := by
  obtain ⟨c, tail, rfl, hc, -⟩ := h
  rw [Json.skipGap_append hfront, List.cons_append, skipGap_cons hc]

theorem isGap_of_mem_ends {c : Char} (hc : c ∈ [',', ']', '\x7d']) : isGap c = false := by
  simp only [List.mem_cons, List.not_mem_nil, or_false] at hc
  rcases hc with rfl | rfl | rfl <;> rfl

theorem skipGap_append_cons {c : Char} (hc : isGap c = false) {gap : List Char}
    (hgap : gap.all isGap) (rest : List Char) : skipGap (gap ++ c :: rest) = c :: rest := by
  rw [skipGap_append hgap, skipGap_cons hc]

theorem endsValue_append_cons {c : Char} (hc : c ∈ [',', ']', '\x7d']) {gap : List Char}
    (hgap : gap.all isGap) (rest : List Char) : EndsValue (gap ++ c :: rest) := by
  intro d hd
  cases gap with
  | nil =>
      obtain rfl : c = d := by simpa using hd
      exact Or.inr hc
  | cons g gap =>
      obtain rfl : g = d := by simpa using hd
      rw [List.all_cons, Bool.and_eq_true] at hgap
      exact Or.inl hgap.1

/-- The kind of a value. -/
inductive Kind where
  | null
  | boolean (value : Bool)
  | number
  | string
  | list
  | object
  deriving DecidableEq, Repr

def Value.kind : Value → Kind
  | .null => .null
  | .boolean value => .boolean value
  | .number _ => .number
  | .string _ => .string
  | .list _ => .list
  | .object _ => .object

/-- The kind of a value that starts with the character. -/
def Kind.ofFirst : Char → Kind
  | 'n' => .null
  | 't' => .boolean true
  | 'f' => .boolean false
  | '"' => .string
  | '[' => .list
  | '\x7b' => .object
  | _ => .number

theorem Kind.ofFirst_of_numeral {c : Char} (h : c = '-' ∨ c.isDigit) :
    Kind.ofFirst c = .number := by
  unfold Kind.ofFirst
  split
  all_goals first | rfl | exact absurd h (by decide)

/-- A number begins with none of the other signs that a value can begin with. -/
theorem ne_of_numeral {c d : Char} (h : c = '-' ∨ c.isDigit) (hd : d ≠ '-' ∧ d.isDigit = false) :
    c ≠ d := by
  rintro rfl
  rcases h with h | h
  · exact hd.1 h
  · rw [hd.2] at h
    cases h

theorem isGap_of_numeral {c : Char} (h : c = '-' ∨ c.isDigit) : isGap c = false := by
  rw [← Bool.not_eq_true]
  intro hgap
  simp only [isGap, Bool.or_eq_true, beq_iff_eq] at hgap
  rcases hgap with ((rfl | rfl) | rfl) | rfl <;> exact absurd h (by decide)

theorem Numeral.IsSpelled.exists_cons {numeral : Numeral} {text : List Char}
    (h : numeral.IsSpelled text) : ∃ c tail, text = c :: tail ∧ (c = '-' ∨ c.isDigit) := by
  cases h with
  | mk hwhole _ _ =>
      cases numeral.negative with
      | true => exact ⟨'-', _, rfl, Or.inl rfl⟩
      | false =>
          obtain ⟨c, tail, hcons⟩ := List.exists_cons_of_ne_nil hwhole.1.1
          rw [hcons]
          refine ⟨c, _, rfl, Or.inr (hwhole.1.2 c ?_)⟩
          rw [hcons]
          exact List.mem_cons_self

theorem Enclosed.exists_cons {α : Type} {IsPart : α → List Char → Prop} {first last : Char}
    {parts : List α} {text : List Char} (h : Enclosed IsPart first last parts text) :
    ∃ tail, text = first :: tail := by
  cases h with
  | empty => exact ⟨_, rfl⟩
  | parts => exact ⟨_, rfl⟩

/-- The first character of a value tells its kind. -/
theorem Value.IsSpelled.exists_cons {value : Value} {text : List Char}
    (h : value.IsSpelled text) : ∃ c tail, text = c :: tail ∧ Kind.ofFirst c = value.kind := by
  cases h with
  | number h =>
      obtain ⟨c, tail, rfl, hc⟩ := h.exists_cons
      exact ⟨c, tail, rfl, Kind.ofFirst_of_numeral hc⟩
  | list h =>
      obtain ⟨tail, rfl⟩ := h.exists_cons
      exact ⟨_, tail, rfl, rfl⟩
  | object h =>
      obtain ⟨tail, rfl⟩ := h.exists_cons
      exact ⟨_, tail, rfl, rfl⟩
  | _ => exact ⟨_, _, rfl, rfl⟩

theorem kind_eq_of_append_eq {value other : Value} {text text' rest more : List Char}
    (h : value.IsSpelled text) (h' : other.IsSpelled text') (heq : text ++ rest = text' ++ more) :
    other.kind = value.kind := by
  obtain ⟨c, tail, rfl, hkind⟩ := h.exists_cons
  obtain ⟨d, tail', rfl, hkind'⟩ := h'.exists_cons
  rw [List.cons_append, List.cons_append, List.cons.injEq] at heq
  rw [← hkind, ← hkind', heq.1]

theorem Value.IsSpelled.startsPart {value : Value} {text : List Char}
    (h : value.IsSpelled text) : StartsPart text := by
  cases h with
  | number h =>
      obtain ⟨c, tail, rfl, hc⟩ := h.exists_cons
      refine ⟨c, tail, rfl, isGap_of_numeral hc, ?_⟩
      intro hmem
      simp only [List.mem_cons, List.not_mem_nil, or_false] at hmem
      rcases hmem with rfl | rfl | rfl <;> exact absurd hc (by decide)
  | list h =>
      obtain ⟨tail, rfl⟩ := h.exists_cons
      exact ⟨_, tail, rfl, by decide, by decide⟩
  | object h =>
      obtain ⟨tail, rfl⟩ := h.exists_cons
      exact ⟨_, tail, rfl, by decide, by decide⟩
  | _ => exact ⟨_, _, rfl, by decide, by decide⟩

/-! ## Strings -/

theorem IsBody.unique {units others : List ℕ} {body : List Char} (h : IsBody units body)
    (h' : IsBody others body) : units = others := by
  induction h generalizing others with
  | nil =>
      cases h'
      rfl
  | plain _ _ hslash _ ih =>
      cases h' with
      | plain _ _ _ h' => rw [ih h']
      | short => exact absurd rfl hslash
      | unit => exact absurd rfl hslash
  | short hletter _ ih =>
      cases h' with
      | plain _ _ hslash _ => exact absurd rfl hslash
      | short hletter' h' =>
          rw [hletter, Option.some.injEq] at hletter'
          rw [hletter', ih h']
      | unit => exact absurd rfl (ne_u_of_shortEscape? hletter)
  | unit hunit _ ih =>
      cases h' with
      | plain _ _ hslash _ => exact absurd rfl hslash
      | short hletter' _ => exact absurd rfl (ne_u_of_shortEscape? hletter')
      | unit hunit' h' =>
          rw [hunit, Option.some.injEq] at hunit'
          rw [hunit', ih h']

/-- A string ends at the first quote that no escape takes. -/
theorem IsBody.append_inj {units others : List ℕ} {body body' rest more : List Char}
    (h : IsBody units body) (h' : IsBody others body')
    (heq : body ++ '"' :: rest = body' ++ '"' :: more) : units = others ∧ rest = more := by
  have hrest : rest = more := by
    have hskip := skipString_append h rest
    rw [heq, skipString_append h' more] at hskip
    exact (Except.ok.inj hskip).symm
  rw [hrest, List.append_cancel_right_eq] at heq
  subst heq
  exact ⟨h.unique h', hrest⟩

/-! ## Parts -/

section Parts

variable {α : Type} {IsPart : α → List Char → Prop}

/-- Whatever follows the text of a part, it is the text of no other part and ends
nowhere else. -/
def IsDetermined (IsPart : α → List Char → Prop) (a : α) : Prop :=
  ∀ ⦃b : α⦄ ⦃text other rest more : List Char⦄, IsPart a text → IsPart b other →
    EndsValue rest → EndsValue more → text ++ rest = other ++ more → a = b ∧ rest = more

theorem Keyed.startsPart {member : List ℕ × α} {text : List Char}
    (h : Keyed IsPart member text) : StartsPart text := by
  cases h
  exact ⟨'"', _, rfl, by decide, by decide⟩

/-- The pieces of a member in front of any text. -/
theorem Keyed.exists_body {member : List ℕ × α} {text : List Char}
    (h : Keyed IsPart member text) :
    ∃ body back front part, IsBody member.1 body ∧ back.all isGap ∧ front.all isGap ∧
      IsPart member.2 part ∧ ∀ rest, text ++ rest =
        '"' :: (body ++ '"' :: (back ++ ':' :: (front ++ (part ++ rest)))) := by
  cases h with
  | mk hkey hback hfront hpart =>
      exact ⟨_, _, _, _, hkey, hback, hfront, hpart, fun rest => by simp⟩

variable (hstart : ∀ {a text}, IsPart a text → StartsPart text)
include hstart

theorem Keyed.isDetermined {member : List ℕ × α} (h : IsDetermined IsPart member.2) :
    IsDetermined (Keyed IsPart) member := by
  intro other text text' rest more hmember hother hrest hmore heq
  cases hmember with
  | mk hkey hback hfront hpart =>
      cases hother with
      | mk hkey' hback' hfront' hpart' =>
          simp only [List.cons_append, List.append_assoc, List.cons.injEq, true_and] at heq
          obtain ⟨hunits, hbehind⟩ := hkey.append_inj hkey' heq
          have hcolon := congrArg skipGap hbehind
          rw [skipGap_append_cons (by decide) hback, skipGap_append_cons (by decide) hback',
            List.cons.injEq] at hcolon
          have hvalue := congrArg skipGap hcolon.2
          rw [(hstart hpart).skipGap_append hfront, (hstart hpart').skipGap_append hfront']
            at hvalue
          obtain ⟨hsame, hleft⟩ := h hpart hpart' hrest hmore hvalue
          exact ⟨Prod.ext hunits hsame, hleft⟩

/-- A part with white space around it and a sign behind it. -/
theorem IsDetermined.append_inj {a b : α} (ha : IsDetermined IsPart a)
    {front text back rest front' text' back' more : List Char} {c d : Char}
    (hfront : front.all isGap) (hpart : IsPart a text) (hback : back.all isGap)
    (hfront' : front'.all isGap) (hpart' : IsPart b text') (hback' : back'.all isGap)
    (hc : c ∈ [',', ']', '\x7d']) (hd : d ∈ [',', ']', '\x7d'])
    (heq : front ++ (text ++ (back ++ c :: rest)) = front' ++ (text' ++ (back' ++ d :: more))) :
    a = b ∧ c = d ∧ rest = more := by
  have hstrip := congrArg skipGap heq
  rw [(hstart hpart).skipGap_append hfront, (hstart hpart').skipGap_append hfront'] at hstrip
  obtain ⟨hsame, hleft⟩ := ha hpart hpart' (endsValue_append_cons hc hback rest)
    (endsValue_append_cons hd hback' more) hstrip
  have hends := congrArg skipGap hleft
  rw [skipGap_append_cons (isGap_of_mem_ends hc) hback,
    skipGap_append_cons (isGap_of_mem_ends hd) hback', List.cons.injEq] at hends
  exact ⟨hsame, hends⟩

/-- Parts that are determined, in front of a closing bracket. -/
theorem Separated.append_inj {parts others : List α} {inner inner' rest more : List Char}
    {c d : Char} (hparts : ∀ a ∈ parts, IsDetermined IsPart a) (h : Separated IsPart parts inner)
    (h' : Separated IsPart others inner') (hc : c ∈ [']', '\x7d']) (hd : d ∈ [']', '\x7d'])
    (heq : inner ++ c :: rest = inner' ++ d :: more) :
    parts = others ∧ rest = more := by
  have hcomma : ',' ∈ [',', ']', '\x7d'] := List.mem_cons_self
  have hc' : c ∈ [',', ']', '\x7d'] := List.mem_cons_of_mem _ hc
  have hd' : d ∈ [',', ']', '\x7d'] := List.mem_cons_of_mem _ hd
  have hne : ∀ e ∈ [']', '\x7d'], e ≠ ',' := by simp
  induction h generalizing others inner' with
  | last hfront hpart hback =>
      have hdet := hparts _ List.mem_cons_self
      cases h' with
      | last hfront' hpart' hback' =>
          simp only [List.append_assoc] at heq
          obtain ⟨rfl, -, hrest⟩ := hdet.append_inj hstart hfront hpart hback hfront' hpart'
            hback' hc' hd' heq
          exact ⟨rfl, hrest⟩
      | cons hfront' hpart' hback' _ =>
          simp only [List.append_assoc, List.cons_append] at heq
          obtain ⟨-, hsign, -⟩ := hdet.append_inj hstart hfront hpart hback hfront' hpart'
            hback' hc' hcomma heq
          exact absurd hsign (hne c hc)
  | cons hfront hpart hback _ ih =>
      have hdet := hparts _ List.mem_cons_self
      cases h' with
      | last hfront' hpart' hback' =>
          simp only [List.append_assoc, List.cons_append] at heq
          obtain ⟨-, hsign, -⟩ := hdet.append_inj hstart hfront hpart hback hfront' hpart'
            hback' hcomma hd' heq
          exact absurd hsign.symm (hne d hd)
      | cons hfront' hpart' hback' hrest' =>
          simp only [List.append_assoc, List.cons_append] at heq
          obtain ⟨rfl, -, hbehind⟩ := hdet.append_inj hstart hfront hpart hback hfront' hpart'
            hback' hcomma hcomma heq
          obtain ⟨rfl, hrest⟩ :=
            ih (fun a ha => hparts a (List.mem_cons_of_mem _ ha)) hrest' hbehind
          exact ⟨rfl, hrest⟩

theorem Separated.exists_startsPart {parts : List α} {inner : List Char}
    (h : Separated IsPart parts inner) :
    ∃ front text rest, front.all isGap ∧ StartsPart text ∧ inner = front ++ (text ++ rest) := by
  cases h with
  | last hfront hpart _ => exact ⟨_, _, _, hfront, hstart hpart, rfl⟩
  | cons hfront hpart _ _ => exact ⟨_, _, _, hfront, hstart hpart, rfl⟩

/-- White space in front of a closing bracket is no part. -/
theorem Separated.append_ne_gap {parts : List α} {inner gap rest more : List Char} {c d : Char}
    (h : Separated IsPart parts inner) (hgap : gap.all isGap) (hd : d ∈ [']', '\x7d']) :
    inner ++ c :: rest ≠ gap ++ d :: more := by
  intro heq
  have hd' : d ∈ [',', ']', '\x7d'] := List.mem_cons_of_mem _ hd
  obtain ⟨front, text, behind, hfront, htext, rfl⟩ := h.exists_startsPart hstart
  have hstrip := congrArg skipGap heq
  rw [List.append_assoc, List.append_assoc, htext.skipGap_append hfront,
    skipGap_append_cons (isGap_of_mem_ends hd') hgap] at hstrip
  obtain ⟨first, tail, rfl, -, hfirst⟩ := htext
  rw [List.cons_append, List.cons.injEq] at hstrip
  rw [hstrip.1] at hfirst
  exact hfirst hd'

theorem Enclosed.append_inj {first last : Char} {parts others : List α}
    {text text' rest more : List Char} (hparts : ∀ a ∈ parts, IsDetermined IsPart a)
    (h : Enclosed IsPart first last parts text) (h' : Enclosed IsPart first last others text')
    (hlast : last ∈ [']', '\x7d']) (heq : text ++ rest = text' ++ more) :
    parts = others ∧ rest = more := by
  cases h with
  | empty hgap =>
      cases h' with
      | empty hgap' =>
          simp only [List.cons_append, List.append_assoc, List.cons.injEq, true_and] at heq
          have hend := isGap_of_mem_ends (List.mem_cons_of_mem ',' hlast)
          have hstrip := congrArg skipGap heq
          rw [skipGap_append_cons hend hgap, skipGap_append_cons hend hgap',
            List.cons.injEq] at hstrip
          exact ⟨rfl, hstrip.2⟩
      | parts h' =>
          simp only [List.cons_append, List.append_assoc, List.cons.injEq, true_and] at heq
          exact absurd heq.symm (h'.append_ne_gap hstart hgap hlast)
  | parts h =>
      cases h' with
      | empty hgap' =>
          simp only [List.cons_append, List.append_assoc, List.cons.injEq, true_and] at heq
          exact absurd heq (h.append_ne_gap hstart hgap' hlast)
      | parts h' =>
          simp only [List.cons_append, List.append_assoc, List.cons.injEq, true_and] at heq
          exact h.append_inj hstart hparts h' hlast hlast heq

end Parts

/-! ## Values -/

/-- The text of a value is the text of no other value and ends at one place. -/
theorem Value.isDetermined (value : Value) : IsDetermined Value.IsSpelled value := by
  induction value using Value.induct with
  | null =>
      intro other text text' rest more h h' _ _ heq
      have hkind := kind_eq_of_append_eq h h' heq
      cases h
      cases h' <;> cases hkind
      simpa using heq
  | boolean value =>
      intro other text text' rest more h h' _ _ heq
      have hkind := kind_eq_of_append_eq h h' heq
      cases h <;> cases h' <;> cases hkind <;> simpa using heq
  | number numeral =>
      intro other text text' rest more h h' hrest hmore heq
      have hkind := kind_eq_of_append_eq h h' heq
      cases h with
      | number h =>
          cases h' <;> cases hkind
          next h' =>
            have hread := readNumeral_append .invalidNumber h hrest.endsNumeral
            rw [heq, readNumeral_append .invalidNumber h' hmore.endsNumeral] at hread
            obtain ⟨hnumeral, hleft⟩ := Prod.mk.inj (Except.ok.inj hread)
            rw [hnumeral, hleft]
            exact ⟨rfl, rfl⟩
  | string units =>
      intro other text text' rest more h h' _ _ heq
      have hkind := kind_eq_of_append_eq h h' heq
      cases h with
      | string h =>
          cases h' <;> cases hkind
          next h' =>
            simp only [List.cons_append, List.append_assoc, List.cons.injEq, true_and] at heq
            obtain ⟨hunits, hleft⟩ := h.append_inj h' heq
            exact ⟨by rw [hunits], hleft⟩
  | list elements ih =>
      intro other text text' rest more h h' _ _ heq
      have hkind := kind_eq_of_append_eq h h' heq
      cases h with
      | list h =>
          cases h' <;> cases hkind
          next h' =>
            obtain ⟨rfl, hleft⟩ := h.append_inj IsSpelled.startsPart ih h' (by decide) heq
            exact ⟨rfl, hleft⟩
  | object members ih =>
      intro other text text' rest more h h' _ _ heq
      have hkind := kind_eq_of_append_eq h h' heq
      have hmembers : ∀ member ∈ members, IsDetermined (Keyed IsSpelled) member :=
        fun member hmember => Keyed.isDetermined IsSpelled.startsPart (ih member hmember)
      cases h with
      | object h =>
          cases h' <;> cases hkind
          next h' =>
            obtain ⟨rfl, hleft⟩ := h.append_inj Keyed.startsPart hmembers h' (by decide) heq
            exact ⟨rfl, hleft⟩

/-- **A document has one reading.** -/
theorem IsDocument.unique {value other : Value} {document : List Char}
    (h : IsDocument value document) (h' : IsDocument other document) : value = other := by
  obtain ⟨front, text, back, hfront, hvalue, hback, rfl⟩ := h
  obtain ⟨front', text', back', hfront', hvalue', hback', heq⟩ := h'
  have hstrip := congrArg skipGap heq
  rw [hvalue.startsPart.skipGap_append hfront, hvalue'.startsPart.skipGap_append hfront']
    at hstrip
  have hends : ∀ {gap : List Char}, gap.all isGap → EndsValue gap := by
    intro gap hgap c hc
    exact Or.inl (List.all_eq_true.mp hgap c (List.mem_of_mem_head? hc))
  exact (value.isDetermined hvalue hvalue' (hends hback) (hends hback') hstrip).1

end FlowLex.Json
