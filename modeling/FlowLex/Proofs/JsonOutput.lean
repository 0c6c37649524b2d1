import FlowLex.Proofs.Json.Written
import FlowLex.Proofs.Summary
import FlowLex.Report.Output

/-!
# The JSON report can be read back

A report that is written as JSON is a document with one reading, and the reading holds
all that the report holds, apart from its diagnostics. Classes and variable numbers are
written by their tags, which tell them apart.
-/

namespace FlowLex

open Json Text

/-! ## Parts of a value -/

namespace Json.Value

/-- The natural number that a number without a sign, a point and an exponent says. -/
def natural? : Value → Option ℕ
  | .number { negative := false, whole, fraction := [], exponent := none } =>
      (String.ofList whole).toNat?
  | _ => none

def elements? : Value → Option (List Value)
  | .list elements => some elements
  | _ => none

def members? : Value → Option (List Member)
  | .object members => some members
  | _ => none

/-- The keys of an object in their order. -/
def keys? (value : Value) : Option (List String) :=
  value.members?.bind (List.mapM fun member => (ofUnits? member.1).map String.ofList)

/-- The value of the first member with this key. -/
def member? (key : String) (value : Value) : Option Value :=
  value.members?.bind (List.lookup (utf16 key.toList))

end Json.Value

namespace Json

@[simp] theorem text?_value_string (text : String) :
    (Json.string text).value.text? = some text := by
  rw [value, Value.text?_utf16, String.ofList_toList]

@[simp] theorem natural?_value_number (n : ℕ) : (Json.number n).value.natural? = some n := by
  rw [value, Value.natural?, String.ofList_toList, Nat.toNat?_repr]

/-- A list is read back when its elements are. -/
theorem bind_mapM_value_list {α : Type} {write : α → Json} {read : Value → Option α}
    (h : ∀ a, read (write a).value = some a) (parts : List α) :
    (Json.list (parts.map write)).value.elements?.bind (List.mapM read) = some parts := by
  rw [value, values_eq_map, List.map_map]
  exact mapM_map_eq_some fun a _ => h a

end Json

/-! ## Tags -/

/-- The number that is written with this tag. -/
def ofIdTag? (tag : String) : Option ℕ :=
  match tag.toList with
  | 'i' :: 'd' :: digits => (String.ofList digits).toNat?
  | _ => none

@[simp] theorem ofIdTag?_idTag (id : ℕ) : ofIdTag? (idTag id) = some id := by
  have htag : (idTag id).toList = 'i' :: 'd' :: id.repr.toList := TokenClass.toList_tag_name id
  rw [ofIdTag?, htag]
  simp only [String.ofList_toList, Nat.toNat?_repr]

/-- The class with this tag. -/
def TokenClass.ofTag? (tag : String) : Option TokenClass :=
  match unnumbered.find? (·.tag == tag) with
  | some kind => some kind
  | none => (ofIdTag? tag).map TokenClass.name

@[simp] theorem TokenClass.ofTag?_tag (kind : TokenClass) : ofTag? kind.tag = some kind := by
  unfold ofTag?
  rcases kind.eq_name_or_mem_unnumbered with ⟨id, rfl⟩ | hmem
  · have hnone : unnumbered.find? (·.tag == (TokenClass.name id).tag) = none := by
      rw [List.find?_eq_none]
      intro kind hkind
      simpa using (tag_name_ne hkind id).symm
    rw [hnone]
    simp [tag]
  · cases hfound : unnumbered.find? (·.tag == kind.tag) with
    | none => simpa using List.find?_eq_none.mp hfound kind hmem
    | some found =>
        have htag : found.tag = kind.tag := by simpa using List.find?_some hfound
        rw [tag_injective htag]

/-! ## Reports -/

/-- The token that a value describes. -/
def Token.ofValue? (value : Value) : Option Token := do
  let line ← (← value.member? "lineNumber").natural?
  let tag ← (← value.member? "classPart").text?
  let kind ← TokenClass.ofTag? tag
  let spelling ← (← value.member? "valuePart").text?
  return ⟨line, kind, spelling⟩

/-- The variable that a value describes. -/
def Variable.ofValue? (value : Value) : Option Variable := do
  let name ← (← value.member? "name").text?
  let tag ← (← value.member? "id").text?
  let id ← ofIdTag? tag
  return ⟨name, id⟩

/-- The report that a value describes. -/
def Report.ofValue? (value : Value) : Option Report := do
  let tokens ← (← value.member? "tokens").elements? >>= List.mapM Token.ofValue?
  let summaries ← (← value.member? "summaries").elements? >>= List.mapM Value.text?
  let errors ← (← value.member? "errors").elements? >>= List.mapM Value.text?
  let vars ← (← value.member? "variables").elements? >>= List.mapM Variable.ofValue?
  return { tokens, summaries, errors, vars }

section Members

variable {key name : String} {document : Json} {members : List (String × Json)}

theorem member?_value_object_head :
    (Json.object ((key, document) :: members)).value.member? key = some document.value := by
  simp [value, memberValues, Value.member?, Value.members?, List.lookup]

/-- A member with another key is passed over. -/
theorem member?_value_object_tail (h : key ≠ name) :
    (Json.object ((name, document) :: members)).value.member? key =
      (Json.object members).value.member? key := by
  have hunits : utf16 key.toList ≠ utf16 name.toList := by
    rwa [utf16_injective.ne_iff, Ne, String.toList_inj]
  simp [value, memberValues, Value.member?, Value.members?, List.lookup,
    beq_eq_false_iff_ne.mpr hunits]

end Members

@[simp] theorem ofValue?_value_token (token : Token) :
    Token.ofValue? token.toJson.value = some token := by
  simp [Token.ofValue?, Token.toJson, member?_value_object_head, member?_value_object_tail]

@[simp] theorem ofValue?_value_variable (v : Variable) :
    Variable.ofValue? v.toJson.value = some v := by
  simp [Variable.ofValue?, Variable.toJson, member?_value_object_head, member?_value_object_tail]

theorem keys?_value_object (members : List (String × Json)) :
    (Json.object members).value.keys? = some (members.map Prod.fst) := by
  rw [value, Value.keys?, Value.members?, Option.bind_some]
  induction members with
  | nil => simp [memberValues]
  | cons member members ih => simp [memberValues, ih]

/-- Everything but the diagnostics is read back. -/
theorem ofValue?_value_report (report : Report) :
    Report.ofValue? report.toJson.value = some { report with diagnostics := [] } := by
  simp [Report.ofValue?, Report.toJson, member?_value_object_head, member?_value_object_tail,
    bind_mapM_value_list]

/-- **The JSON report loses nothing.** Whatever the strings and numbers in a report are,
its text is a JSON document with one reading: an object with the four keys, from which
the tokens, the summaries, the error messages and the variables come back as they were.
So two reports have the same text exactly when these are the same. -/
theorem Report.jsonText_read_back (report : Report) :
    ∃ value : Value,
      (∀ read, IsDocument read report.jsonText.toList ↔ read = value) ∧
        value.keys? = some ["tokens", "summaries", "errors", "variables"] ∧
        Report.ofValue? value = some { report with diagnostics := [] } ∧
        ∀ other : Report, other.jsonText = report.jsonText ↔
          other.tokens = report.tokens ∧ other.summaries = report.summaries ∧
            other.errors = report.errors ∧ other.vars = report.vars := by
  refine ⟨report.toJson.value, isDocument_render_iff report.toJson, keys?_value_object _,
    ofValue?_value_report report, ?_⟩
  intro other
  constructor
  · intro htext
    have hread : IsDocument other.toJson.value report.jsonText.toList := by
      rw [← htext]
      exact (isDocument_render_iff other.toJson _).mpr rfl
    have hvalue := (isDocument_render_iff report.toJson _).mp hread
    have hreport := ofValue?_value_report other
    rw [hvalue, ofValue?_value_report] at hreport
    simp only [Option.some.injEq, Report.mk.injEq] at hreport
    obtain ⟨htokens, hsummaries, herrors, hvars, -⟩ := hreport
    exact ⟨htokens.symm, hsummaries.symm, herrors.symm, hvars.symm⟩
  · rintro ⟨htokens, hsummaries, herrors, hvars⟩
    rw [Report.jsonText, Report.jsonText, Report.toJson, Report.toJson, htokens, hsummaries,
      herrors, hvars]

end FlowLex
