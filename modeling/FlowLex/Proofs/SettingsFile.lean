import FlowLex.Proofs.Json.Skipping
import FlowLex.Settings.File

/-!
# What a settings file says

Reading a settings file that is an object comes to the same as going through its members
in their order: a member with one of the four keys sets its field, once, and any other
member changes nothing. Where the members stand and how they are written has no
influence.
-/

namespace FlowLex.Settings

open Json Text

/-! ## Values of fields -/

/-- The format that a value names: by a string, or by the only key of an object with
null behind it. -/
def formatOf? : Value → Option OutputFormat
  | .string units => (Value.string units).text?.bind OutputFormat.ofName?
  | .object [(units, .null)] => (Value.string units).text?.bind OutputFormat.ofName?
  | _ => none

def flagOf? : Value → Option Bool
  | .boolean value => some value
  | _ => none

/-- Sets a field to a value, if the value is one for the field. -/
def Layer.set? (layer : Layer) (value : Value) : Field → Option Layer
  | .format => (formatOf? value).map fun format => { layer with format := some format }
  | .showTokens => (flagOf? value).map fun flag => { layer with showTokens := some flag }
  | .showVariables => (flagOf? value).map fun flag => { layer with showVariables := some flag }
  | .showSource => (flagOf? value).map fun flag => { layer with showSource := some flag }

/-- What a value behind a key makes of a layer. No field is set twice. -/
def Layer.put? (layer : Layer) (key : String) (value : Value) : Option Layer :=
  match Field.ofKey? key with
  | some field => if layer.mentions field then none else layer.set? value field
  | none => some layer

/-- The key of a member, if it is a text. -/
def keyOf? (member : Member) : Option String := (Value.string member.1).text?

/-- What a member makes of a layer. -/
def Layer.take? (layer : Layer) (member : Member) : Option Layer :=
  (keyOf? member).bind fun key => layer.put? key member.2

/-! ## Reading values -/

theorem toOption_bind {ε α β : Type} (read : Except ε α) (next : α → Except ε β) :
    (read >>= next).toOption = read.toOption.bind fun a => (next a).toOption := by
  cases read <;> rfl

section Values

variable {value : Value} {front text : List Char}

theorem toOption_readBool (hfront : front.all isGap) (h : value.IsSpelled text)
    (rest : List Char) :
    (readBool (front ++ (text ++ rest))).toOption = (flagOf? value).map (·, rest) := by
  rw [readBool, h.startsPart.skipGap_append hfront]
  cases h with
  | null => rfl
  | boolTrue =>
      show (readWord trueTail (trueTail ++ rest) >>= fun rest => .ok (true, rest)).toOption = _
      rw [readWord_append]
      rfl
  | boolFalse =>
      show (readWord falseTail (falseTail ++ rest) >>= fun rest => .ok (false, rest)).toOption = _
      rw [readWord_append]
      rfl
  | number h =>
      obtain ⟨c, tail, rfl, hc⟩ := h.exists_cons
      rw [List.cons_append]
      split
      · next heq => cases heq
      iterate 2
        · next heq => exact absurd (List.cons.inj heq).1 (ne_of_numeral hc (by decide))
      · rfl
  | string => rfl
  | list h =>
      obtain ⟨tail, rfl⟩ := h.exists_cons
      rfl
  | object h =>
      obtain ⟨tail, rfl⟩ := h.exists_cons
      rfl

theorem toOption_readNull (hfront : front.all isGap) (h : value.IsSpelled text)
    (rest : List Char) :
    (readNull (front ++ (text ++ rest))).toOption =
      if value.kind = .null then some rest else none := by
  rw [readNull, h.startsPart.skipGap_append hfront]
  cases h with
  | null =>
      show (readWord nullTail (nullTail ++ rest)).toOption = _
      rw [readWord_append]
      rfl
  | number h =>
      obtain ⟨c, tail, rfl, hc⟩ := h.exists_cons
      rw [List.cons_append]
      split
      · next heq => cases heq
      · next heq => exact absurd (List.cons.inj heq).1 (ne_of_numeral hc (by decide))
      · rfl
  | list h =>
      obtain ⟨tail, rfl⟩ := h.exists_cons
      rfl
  | object h =>
      obtain ⟨tail, rfl⟩ := h.exists_cons
      rfl
  | _ => rfl

theorem toOption_readFormatName {units : List ℕ} {body : List Char} (h : IsBody units body)
    (rest : List Char) :
    (readFormatName (body ++ '"' :: rest)).toOption =
      ((Value.string units).text?.bind OutputFormat.ofName?).map (·, rest) := by
  rw [readFormatName, toOption_bind, readString_append h, Value.text?]
  cases ofUnits? units with
  | none => rfl
  | some name =>
      simp only [Option.map_some, Option.bind_some]
      cases OutputFormat.ofName? (String.ofList name) <;> rfl

/-- The object form of a format: its first key, and null behind it. -/
theorem toOption_readFormatObject_key {units : List ℕ} {body back front' : List Char}
    (hfront : front.all isGap) (hkey : IsBody units body) (hback : back.all isGap)
    (hfront' : front'.all isGap) (h : value.IsSpelled text) (behind : List Char) :
    (readFormatObject
        (front ++ '"' :: (body ++ '"' :: (back ++ ':' :: (front' ++ (text ++ behind)))))).toOption =
      ((Value.string units).text?.bind OutputFormat.ofName?).bind fun format =>
        if value.kind = .null then (readBrace behind).toOption.map (format, ·) else none := by
  rw [readFormatObject, skipGap_append_cons (by decide) hfront]
  show (readFormatName _ >>= _).toOption = _
  rw [toOption_bind, toOption_readFormatName hkey]
  cases (Value.string units).text?.bind OutputFormat.ofName? with
  | none => rfl
  | some format =>
      simp only [Option.map_some, Option.bind_some]
      rw [toOption_bind, readColon_append hback]
      show (readNull _ >>= _).toOption = _
      rw [toOption_bind, toOption_readNull hfront' h]
      split
      · rw [Option.bind_some]
        cases readBrace behind <;> rfl
      · rfl

theorem readBrace_closing {gap : List Char} (hgap : gap.all isGap) (rest : List Char) :
    readBrace (gap ++ '\x7d' :: rest) = .ok rest := by
  rw [readBrace, skipGap_append_cons (by decide) hgap]
  rfl

theorem toOption_readBrace_comma {gap : List Char} (hgap : gap.all isGap) (rest : List Char) :
    (readBrace (gap ++ ',' :: rest)).toOption = none := by
  rw [readBrace, skipGap_append_cons (by decide) hgap]
  rfl

theorem toOption_readFormatObject {members : List Member} {text : List Char}
    (h : Enclosed (Keyed Value.IsSpelled) '\x7b' '\x7d' members ('\x7b' :: text))
    (rest : List Char) :
    (readFormatObject (text ++ rest)).toOption =
      (formatOf? (.object members)).map (·, rest) := by
  cases h with
  | @empty gap hgap =>
      rw [List.append_assoc, readFormatObject, List.singleton_append,
        skipGap_append_cons (by decide) hgap]
      rfl
  | @parts _ inner h =>
      cases h with
      | @last member front _ back hfront hkeyed hback =>
          obtain ⟨body, back', front', part, hkey, hback', hfront', hpart, happend⟩ :=
            hkeyed.exists_body
          simp only [List.append_assoc, List.singleton_append]
          rw [happend, toOption_readFormatObject_key hfront hkey hback' hfront' hpart,
            readBrace_closing hback]
          obtain ⟨units, value⟩ := member
          cases value with
          | null =>
              show Option.bind _ (fun format => some (format, rest)) = Option.map _ _
              rw [Option.map_eq_bind]
              rfl
          | _ => simp [formatOf?, Value.kind]
      | @cons member others front _ back tail hfront hkeyed hback hothers =>
          obtain ⟨body, back', front', part, hkey, hback', hfront', hpart, happend⟩ :=
            hkeyed.exists_body
          simp only [List.append_assoc, List.cons_append]
          rw [happend, toOption_readFormatObject_key hfront hkey hback' hfront' hpart,
            toOption_readBrace_comma hback]
          have hnone : formatOf? (.object (member :: others)) = none := by
            cases hothers <;> simp [formatOf?]
          rw [hnone]
          simp

theorem toOption_readFormat (hfront : front.all isGap) (h : value.IsSpelled text)
    (rest : List Char) :
    (readFormat (front ++ (text ++ rest))).toOption = (formatOf? value).map (·, rest) := by
  rw [readFormat, h.startsPart.skipGap_append hfront]
  cases h with
  | null => rfl
  | boolTrue => rfl
  | boolFalse => rfl
  | number h =>
      obtain ⟨c, tail, rfl, hc⟩ := h.exists_cons
      rw [List.cons_append]
      split
      · next heq => cases heq
      iterate 2
        · next heq => exact absurd (List.cons.inj heq).1 (ne_of_numeral hc (by decide))
      · rfl
  | @string units body h =>
      show (readFormatName (body ++ ['"'] ++ rest)).toOption = _
      rw [List.append_assoc]
      exact toOption_readFormatName h rest
  | list h =>
      obtain ⟨tail, rfl⟩ := h.exists_cons
      rfl
  | object h =>
      obtain ⟨tail, rfl⟩ := h.exists_cons
      exact toOption_readFormatObject h rest

theorem toOption_readField (layer : Layer) (field : Field) (hfront : front.all isGap)
    (h : value.IsSpelled text) (rest : List Char) :
    (readField layer field (front ++ (text ++ rest))).toOption =
      (layer.set? value field).map (·, rest) := by
  cases field with
  | format =>
      rw [readField, toOption_bind, toOption_readFormat hfront h, Layer.set?]
      cases formatOf? value <;> rfl
  | showTokens =>
      rw [readField, toOption_bind, toOption_readBool hfront h, Layer.set?]
      cases flagOf? value <;> rfl
  | showVariables =>
      rw [readField, toOption_bind, toOption_readBool hfront h, Layer.set?]
      cases flagOf? value <;> rfl
  | showSource =>
      rw [readField, toOption_bind, toOption_readBool hfront h, Layer.set?]
      cases flagOf? value <;> rfl

end Values

/-! ## Reading members -/

/-- Reads a member from its key on, and then the members behind it. -/
def readFromKey (layer : Layer) (quoted : List Char) : Except Fault (Layer × List Char) := do
  let (key, behind) ← readString quoted
  let (layer, rest) ← readMember layer (String.ofList key) behind
  readMembers layer false rest

/-- One step of reading members. -/
theorem readMembers_eq (layer : Layer) (isFirst : Bool) (text : List Char) :
    readMembers layer isFirst text =
      match skipGap text with
      | [] => .error (.before .endOfObject [])
      | '\x7d' :: rest => .ok (layer, rest)
      | start => keyStart isFirst start >>= readFromKey layer := by
  rw [readMembers]
  simp only [readFromKey, bind, Except.bind]
  grind

section Members

variable {value : Value} {units : List ℕ} {body back front text rest : List Char}

/-- A member behind its key. -/
theorem toOption_readMember (layer : Layer) (key : String) (hback : back.all isGap)
    (hfront : front.all isGap) (h : value.IsSpelled text) (hrest : EndsValue rest) :
    (readMember layer key (back ++ ':' :: (front ++ (text ++ rest)))).toOption =
      (layer.put? key value).map (·, rest) := by
  rw [readMember, Layer.put?]
  cases Field.ofKey? key with
  | some field =>
      dsimp only
      split
      · rfl
      · rw [readColon_append hback]
        exact toOption_readField layer field hfront h rest
  | none =>
      dsimp only
      rw [readColon_append hback]
      show (skipValue [] _ >>= _).toOption = _
      rw [skipValue_append_gap hfront, skipValue_append value [] h hrest, skipRest]
      rfl

theorem toOption_readFromKey (layer : Layer) (hkey : IsBody units body) (hback : back.all isGap)
    (hfront : front.all isGap) (h : value.IsSpelled text) (hrest : EndsValue rest) :
    (readFromKey layer (body ++ '"' :: (back ++ ':' :: (front ++ (text ++ rest))))).toOption =
      (layer.take? (units, value)).bind fun layer => (readMembers layer false rest).toOption := by
  rw [readFromKey, toOption_bind, readString_append hkey, Layer.take?, keyOf?, Value.text?]
  cases ofUnits? units with
  | none => rfl
  | some key =>
      simp only [Option.map_some, Option.bind_some]
      rw [toOption_bind, toOption_readMember layer _ hback hfront h hrest, Option.bind_map]
      rfl

/-- What stands in front of a member: nothing, or white space and a comma. -/
inductive IsLead : Bool → List Char → Prop
  | first : IsLead true []
  | behind {gap : List Char} (hgap : gap.all isGap) : IsLead false (gap ++ [','])

theorem readMembers_lead (layer : Layer) {isFirst : Bool} {lead : List Char}
    (hlead : IsLead isFirst lead) (hfront : front.all isGap) (quoted : List Char) :
    readMembers layer isFirst (lead ++ (front ++ '"' :: quoted)) = readFromKey layer quoted := by
  rw [readMembers_eq]
  cases hlead with
  | first =>
      rw [List.nil_append, skipGap_append_cons (by decide) hfront]
      rfl
  | behind hgap =>
      rw [List.append_assoc, List.singleton_append, skipGap_append_cons (by decide) hgap]
      show keyStart false (',' :: _) >>= _ = _
      rw [keyStart, if_neg (by decide), skipGap_append_cons (by decide) hfront]
      rfl

theorem readMembers_closing (layer : Layer) (isFirst : Bool) {gap : List Char}
    (hgap : gap.all isGap) (rest : List Char) :
    readMembers layer isFirst (gap ++ '\x7d' :: rest) = .ok (layer, rest) := by
  rw [readMembers_eq, skipGap_append_cons (by decide) hgap]
  rfl

/-- Reading members comes to the same as going through them one by one. -/
theorem toOption_readMembers {members : List Member} {inner : List Char}
    (h : Separated (Keyed Value.IsSpelled) members inner) (layer : Layer) {isFirst : Bool}
    {lead : List Char} (hlead : IsLead isFirst lead) (rest : List Char) :
    (readMembers layer isFirst (lead ++ (inner ++ '\x7d' :: rest))).toOption =
      (members.foldlM Layer.take? layer).map (·, rest) := by
  induction h generalizing layer isFirst lead with
  | @last member front _ back hfront hkeyed hback =>
      obtain ⟨body, back', front', part, hkey, hback', hfront', hpart, happend⟩ :=
        hkeyed.exists_body
      simp only [List.append_assoc]
      rw [happend, readMembers_lead layer hlead hfront,
        toOption_readFromKey layer hkey hback' hfront' hpart
          (endsValue_append_cons (by decide) hback rest), List.foldlM_cons]
      simp only [readMembers_closing _ _ hback]
      cases layer.take? member <;> rfl
  | @cons member others front _ back tail hfront hkeyed hback _ ih =>
      obtain ⟨body, back', front', part, hkey, hback', hfront', hpart, happend⟩ :=
        hkeyed.exists_body
      simp only [List.append_assoc, List.cons_append]
      rw [happend, readMembers_lead layer hlead hfront,
        toOption_readFromKey layer hkey hback' hfront' hpart
          (endsValue_append_cons (by decide) hback _), List.foldlM_cons]
      cases layer.take? member with
      | none => rfl
      | some layer =>
          have hothers := ih layer (.behind hback)
          simpa using hothers

end Members

/-! ## Reading a file -/

theorem toOption_readMembers_object {members : List Member} {text : List Char}
    (h : Enclosed (Keyed Value.IsSpelled) '\x7b' '\x7d' members ('\x7b' :: text))
    (rest : List Char) :
    (readMembers {} true (text ++ rest)).toOption =
      (members.foldlM Layer.take? {}).map (·, rest) := by
  cases h with
  | empty hgap =>
      rw [List.append_assoc, List.singleton_append, readMembers_closing _ _ hgap]
      rfl
  | parts h =>
      rw [List.append_assoc, List.singleton_append]
      exact toOption_readMembers h {} .first rest

/-- **What a settings file says**, however its members are written and whatever stands
between them. -/
theorem toOption_readLayer {members : List Member} {text : String}
    (h : IsDocument (.object members) text.toList) :
    (readLayer text).toOption = members.foldlM Layer.take? {} := by
  obtain ⟨front, object, back, hfront, hobject, hback, hcut⟩ := h
  have hstart : skipGap text.toList = object ++ back := by
    rw [hcut, hobject.startsPart.skipGap_append hfront]
  have hend : skipGap back = [] := by
    rw [← List.append_nil back, skipGap_append hback]
    rfl
  cases hobject with
  | object h =>
      obtain ⟨tail, rfl⟩ := h.exists_cons
      rw [readLayer, hstart]
      show (readMembers {} true (tail ++ back) >>= _).toOption = _
      rw [toOption_bind, toOption_readMembers_object h]
      cases members.foldlM Layer.take? {} with
      | none => rfl
      | some layer =>
          rw [Option.map_some, Option.bind_some]
          dsimp only
          rw [hend]
          rfl

end FlowLex.Settings
