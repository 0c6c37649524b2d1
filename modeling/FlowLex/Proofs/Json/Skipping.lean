import FlowLex.Json.Skip
import FlowLex.Proofs.Json.Unambiguous

/-!
# Skipping values

A value that is skipped is left behind as a whole, however deep it nests and whatever
brackets are open around it. What is left to skip are then the brackets around it.
-/

namespace FlowLex.Json

/-! ## The steps -/

/-- One step of skipping a value. -/
theorem skipValue_eq (around : List Enclosure) (text : List Char) :
    skipValue around text =
      match skipGap text with
      | '[' :: inner =>
          match skipGap inner with
          | [] => .error (.before .endOfList [])
          | ']' :: rest => skipRest around rest
          | _ => skipValue (.list :: around) inner
      | '\x7b' :: inner =>
          match skipGap inner with
          | '\x7d' :: rest => skipRest around rest
          | _ => skipKey inner >>= skipValue (.object :: around)
      | scalar => skipScalar scalar >>= skipRest around := by
  rw [skipValue]
  simp only [bind, Except.bind]
  grind

/-- One step of skipping what follows a value inside a bracket. -/
theorem skipRest_eq (inside : Enclosure) (around : List Enclosure) (text : List Char) :
    skipRest (inside :: around) text =
      match skipGap text with
      | [] => .error (.before inside.unclosed [])
      | c :: rest =>
          if c = ',' then
            match inside with
            | .list => skipValue (inside :: around) rest
            | .object => skipKey rest >>= skipValue (inside :: around)
          else if c = inside.closing then skipRest around rest
          else .error (.past inside.unseparated (c :: rest)) := by
  rw [skipRest]
  simp only [bind, Except.bind]
  grind

theorem readColon_append {gap : List Char} (hgap : gap.all isGap) (rest : List Char) :
    readColon (gap ++ ':' :: rest) = .ok rest := by
  rw [readColon, skipGap_append_cons (by decide) hgap]
  exact if_pos rfl

/-- A key is skipped with its colon. -/
theorem skipKey_append {units : List ℕ} {front body back : List Char}
    (hfront : front.all isGap) (h : IsBody units body) (hback : back.all isGap)
    (rest : List Char) :
    skipKey (front ++ '"' :: (body ++ '"' :: (back ++ ':' :: rest))) = .ok rest := by
  rw [skipKey, skipGap_append_cons (by decide) hfront]
  show skipString _ >>= readColon = _
  rw [skipString_append h]
  exact readColon_append hback rest

/-! ## Parts between brackets -/

/-- The bracket that opens a list or an object. -/
def Enclosure.opening : Enclosure → Char
  | .list => '['
  | .object => '\x7b'

/-- How a part between brackets is skipped: in an object the key goes first. -/
def skipPart (inside : Enclosure) (around : List Enclosure) (text : List Char) :
    Except Fault (List Char) :=
  match inside with
  | .list => skipValue (.list :: around) text
  | .object => skipKey text >>= skipValue (.object :: around)

section Brackets

variable (inside : Enclosure) (around : List Enclosure) {gap : List Char}

theorem skipRest_comma (hgap : gap.all isGap) (rest : List Char) :
    skipRest (inside :: around) (gap ++ ',' :: rest) = skipPart inside around rest := by
  rw [skipRest_eq, skipGap_append_cons (by decide) hgap]
  cases inside <;> rfl

theorem skipRest_closing (hgap : gap.all isGap) (rest : List Char) :
    skipRest (inside :: around) (gap ++ inside.closing :: rest) = skipRest around rest := by
  have hclosing : isGap inside.closing = false ∧ inside.closing ≠ ',' := by
    cases inside <;> decide
  rw [skipRest_eq, skipGap_append_cons hclosing.1 hgap]
  simp [hclosing.2]

theorem skipValue_empty (hgap : gap.all isGap) (rest : List Char) :
    skipValue around (inside.opening :: (gap ++ inside.closing :: rest)) =
      skipRest around rest := by
  cases inside with
  | list =>
      rw [Enclosure.opening, Enclosure.closing, skipValue_eq, skipGap_cons (by decide)]
      simp [skipGap_append_cons (by decide : isGap ']' = false) hgap]
  | object =>
      rw [Enclosure.opening, Enclosure.closing, skipValue_eq, skipGap_cons (by decide)]
      simp [skipGap_append_cons (by decide : isGap '\x7d' = false) hgap]

/-- Behind the opening bracket stands a part. -/
theorem skipValue_opening {inner tail : List Char} {c : Char} (hinner : skipGap inner = c :: tail)
    (hc : c ∉ [',', ']', '\x7d']) :
    skipValue around (inside.opening :: inner) = skipPart inside around inner := by
  simp only [List.mem_cons, List.not_mem_nil, or_false, not_or] at hc
  cases inside with
  | list =>
      rw [Enclosure.opening, skipValue_eq, skipGap_cons (by decide)]
      simp [hinner, hc.2.1, skipPart]
  | object =>
      rw [Enclosure.opening, skipValue_eq, skipGap_cons (by decide)]
      simp [hinner, hc.2.2, skipPart]

end Brackets

section Parts

variable {α : Type} {IsPart : α → List Char → Prop}

/-- However the part is written, it is skipped up to what stands behind it. -/
def IsSkipped (IsPart : α → List Char → Prop) (inside : Enclosure) (a : α) : Prop :=
  ∀ {front text rest : List Char} (around : List Enclosure), front.all isGap → IsPart a text →
    EndsValue rest → skipPart inside around (front ++ (text ++ rest)) =
      skipRest (inside :: around) rest

theorem Enclosure.closing_mem_ends (inside : Enclosure) : inside.closing ∈ [',', ']', '\x7d'] := by
  cases inside <;> decide

variable (inside : Enclosure) {parts : List α}

theorem skipPart_separated {inner : List Char} (h : Separated IsPart parts inner)
    (hparts : ∀ a ∈ parts, IsSkipped IsPart inside a) (around : List Enclosure)
    (rest : List Char) :
    skipPart inside around (inner ++ inside.closing :: rest) = skipRest around rest := by
  induction h with
  | last hfront hpart hback =>
      rw [List.append_assoc, List.append_assoc,
        hparts _ List.mem_cons_self around hfront hpart
          (endsValue_append_cons inside.closing_mem_ends hback rest),
        skipRest_closing inside around hback]
  | @cons _ _ front text back tail hfront hpart hback _ ih =>
      rw [List.forall_mem_cons] at hparts
      have hassoc : front ++ (text ++ (back ++ ',' :: tail)) ++ inside.closing :: rest =
          front ++ (text ++ (back ++ ',' :: (tail ++ inside.closing :: rest))) := by simp
      rw [hassoc, hparts.1 around hfront hpart (endsValue_append_cons (by decide) hback _),
        skipRest_comma inside around hback, ih hparts.2]

/-- The parts between two brackets are skipped with the brackets. -/
theorem skipValue_enclosed {text : List Char}
    (hstart : ∀ {a text}, IsPart a text → StartsPart text)
    (h : Enclosed IsPart inside.opening inside.closing parts text)
    (hparts : ∀ a ∈ parts, IsSkipped IsPart inside a) (around : List Enclosure)
    (rest : List Char) : skipValue around (text ++ rest) = skipRest around rest := by
  cases h with
  | empty hgap =>
      have hempty := skipValue_empty inside around hgap rest
      simpa using hempty
  | @parts _ inner hinner =>
      obtain ⟨front, text, back, hfront, htext, hcut⟩ := hinner.exists_startsPart hstart
      have hskip : skipGap (inner ++ inside.closing :: rest) =
          text ++ (back ++ inside.closing :: rest) := by
        rw [hcut, List.append_assoc, List.append_assoc]
        exact htext.skipGap_append hfront _
      obtain ⟨c, tail, rfl, -, hc⟩ := htext
      rw [List.cons_append] at hskip
      have hopening := skipValue_opening inside around hskip hc
      rw [skipPart_separated inside hinner hparts] at hopening
      simpa using hopening

end Parts

/-! ## Values -/

theorem skipValue_append_gap {gap : List Char} (hgap : gap.all isGap) (around : List Enclosure)
    (text : List Char) : skipValue around (gap ++ text) = skipValue around text := by
  rw [skipValue_eq, skipValue_eq, skipGap_append hgap]

/-- A value without parts is skipped in one step. -/
theorem skipValue_scalar {c : Char} {tail rest : List Char} (around : List Enclosure)
    (hgap : isGap c = false) (hc : c ≠ '[' ∧ c ≠ '\x7b') (h : skipScalar (c :: tail) = .ok rest) :
    skipValue around (c :: tail) = skipRest around rest := by
  rw [skipValue_eq, skipGap_cons hgap]
  simp [hc, h, bind, Except.bind]

theorem skipScalar_number {c : Char} (hc : c = '-' ∨ c.isDigit) (text : List Char) :
    skipScalar (c :: text) = (readNumeral .invalidNumber (c :: text)).map Prod.snd := by
  unfold skipScalar
  split
  · next heq => cases heq
  iterate 4
    · next heq => exact absurd (List.cons.inj heq).1 (ne_of_numeral hc (by decide))
  · next heq =>
      obtain ⟨rfl, rfl⟩ := List.cons.inj heq
      exact if_pos (by simpa using hc)

/-- **A value that is skipped is left behind as a whole**, whatever it holds and whatever
brackets are open around it. -/
theorem skipValue_append (value : Value) {text rest : List Char} (around : List Enclosure)
    (h : value.IsSpelled text) (hrest : EndsValue rest) :
    skipValue around (text ++ rest) = skipRest around rest := by
  induction value using Value.induct generalizing text rest around with
  | null =>
      cases h
      exact skipValue_scalar around (by decide) (by decide) (readWord_append nullTail rest)
  | boolean value =>
      cases h
      · exact skipValue_scalar around (by decide) (by decide) (readWord_append trueTail rest)
      · exact skipValue_scalar around (by decide) (by decide) (readWord_append falseTail rest)
  | number numeral =>
      cases h with
      | number h =>
          have hread := readNumeral_append .invalidNumber h hrest.endsNumeral
          obtain ⟨c, tail, rfl, hc⟩ := h.exists_cons
          rw [List.cons_append] at hread ⊢
          have hbracket : c ≠ '[' ∧ c ≠ '\x7b' :=
            ⟨ne_of_numeral hc (by decide), ne_of_numeral hc (by decide)⟩
          refine skipValue_scalar around (isGap_of_numeral hc) hbracket ?_
          rw [skipScalar_number hc, hread]
          rfl
  | string units =>
      cases h with
      | string h =>
          have hskip := skipString_append h rest
          refine skipValue_scalar around (by decide) (by decide) ?_
          simpa [skipScalar] using hskip
  | list elements ih =>
      cases h with
      | list h =>
          refine skipValue_enclosed .list Value.IsSpelled.startsPart h ?_ around rest
          intro value hvalue front text rest around hfront htext hrest
          rw [skipPart, skipValue_append_gap hfront]
          exact ih value hvalue _ htext hrest
  | object members ih =>
      cases h with
      | object h =>
          refine skipValue_enclosed .object Keyed.startsPart h ?_ around rest
          intro member hmember front text rest around hfront htext hrest
          obtain ⟨body, back, front', part, hkey, hback, hfront', hpart, happend⟩ :=
            htext.exists_body
          rw [skipPart, happend, skipKey_append hfront hkey hback]
          show skipValue _ _ = _
          rw [skipValue_append_gap hfront']
          exact ih member hmember _ hpart hrest

end FlowLex.Json
