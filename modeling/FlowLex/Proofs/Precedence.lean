import FlowLex.Program
import FlowLex.Proofs.Json.Written
import FlowLex.Proofs.SettingsFile

/-!
# Where settings come from

A setting is what the command line says, else what the settings file says, else what the
environment says, else its default. The file may be any JSON object: what else stands in
it, and how it is written, has no influence.
-/

namespace FlowLex

open Json Text

namespace Settings

/-! ## Members of a settings file -/

/-- The member has the key of the field. -/
def IsFor (field : Field) (member : Member) : Prop := keyOf? member = some field.key

instance (field : Field) : DecidablePred (IsFor field) :=
  fun member => inferInstanceAs (Decidable (keyOf? member = some field.key))

/-- The value that a file gives to a field. -/
def given? (members : List Member) (field : Field) : Option Value :=
  (members.find? (IsFor field ·)).map Prod.snd

/-- The value is one for the field. -/
def Field.Accepts (field : Field) (value : Value) : Prop :=
  match field with
  | .format => (formatOf? value).isSome
  | .showTokens | .showVariables | .showSource => (flagOf? value).isSome

/-- What a settings file must hold: every key is a text, no field is set twice, and what
sets a field is a value for it. -/
structure AreSettings (members : List Member) : Prop where
  keys : ∀ member ∈ members, (keyOf? member).isSome
  once : ∀ field, members.countP (IsFor field ·) ≤ 1
  valid : ∀ field, ∀ member ∈ members, IsFor field member → field.Accepts member.2

/-- The layer with what members say about the fields that it leaves alone. -/
def Layer.orGiven (layer : Layer) (members : List Member) : Layer where
  format := layer.format.or ((given? members .format).bind formatOf?)
  showTokens := layer.showTokens.or ((given? members .showTokens).bind flagOf?)
  showVariables := layer.showVariables.or ((given? members .showVariables).bind flagOf?)
  showSource := layer.showSource.or ((given? members .showSource).bind flagOf?)

/-! ## One member -/

theorem ofKey?_eq_some_iff {key : String} {field : Field} :
    Field.ofKey? key = some field ↔ key = field.key := by
  constructor
  · intro h
    have hkey := List.find?_some h
    exact (beq_iff_eq.mp hkey).symm
  · rintro rfl
    cases field <;> rfl

/-- A member is for one field at most. -/
theorem IsFor.unique {field other : Field} {member : Member} (h : IsFor field member)
    (h' : IsFor other member) : field = other := by
  rw [IsFor, show keyOf? member = some field.key from h, Option.some.injEq] at h'
  cases field <;> cases other <;> first | rfl | exact absurd h' (by decide)

section Member

variable {layer next : Layer} {member : Member}

theorem isSome_set?_iff (layer : Layer) {value : Value} {field : Field} :
    (layer.set? value field).isSome ↔ field.Accepts value := by
  cases field <;> simp [Layer.set?, Field.Accepts]

theorem mentions_of_set? {value : Value} {field : Field} (h : layer.set? value field = some next)
    (other : Field) : next.mentions other ↔ layer.mentions other ∨ field = other := by
  cases field
  all_goals
    rw [Layer.set?, Option.map_eq_some_iff] at h
    obtain ⟨a, -, rfl⟩ := h
    cases other <;> simp [Layer.mentions]

theorem take?_of_isFor {field : Field} (h : IsFor field member) :
    layer.take? member = if layer.mentions field then none else layer.set? member.2 field := by
  rw [Layer.take?, show keyOf? member = some field.key from h, Option.bind_some, Layer.put?,
    ofKey?_eq_some_iff.mpr rfl]

theorem take?_of_not_isFor (hkey : (keyOf? member).isSome) (h : ∀ field, ¬ IsFor field member) :
    layer.take? member = some layer := by
  obtain ⟨key, hkey⟩ := Option.isSome_iff_exists.mp hkey
  have hnone : Field.ofKey? key = none := by
    rw [Option.eq_none_iff_forall_ne_some]
    intro field hfield
    rw [ofKey?_eq_some_iff] at hfield
    exact h field (by rw [IsFor, hkey, hfield])
  rw [Layer.take?, hkey, Option.bind_some, Layer.put?, hnone]

/-- What one member can do: it sets a field that is free, or it has no meaning. -/
theorem take?_eq_some_iff : layer.take? member = some next ↔
    (∃ field, IsFor field member ∧ ¬ layer.mentions field ∧
        layer.set? member.2 field = some next) ∨
      ((keyOf? member).isSome ∧ (∀ field, ¬ IsFor field member) ∧ next = layer) := by
  by_cases hfor : ∃ field, IsFor field member
  · obtain ⟨field, hfield⟩ := hfor
    rw [take?_of_isFor hfield]
    constructor
    · intro h
      split at h
      · cases h
      · next hfree => exact Or.inl ⟨field, hfield, hfree, h⟩
    · rintro (⟨other, hother, hfree, h⟩ | ⟨-, hnone, -⟩)
      · rw [hfield.unique hother, if_neg hfree, h]
      · exact absurd hfield (hnone field)
  · rw [not_exists] at hfor
    constructor
    · intro h
      have hkey : (keyOf? member).isSome := by
        rw [Option.isSome_iff_ne_none]
        intro hnone
        rw [Layer.take?, hnone] at h
        cases h
      rw [take?_of_not_isFor hkey hfor, Option.some.injEq] at h
      exact Or.inr ⟨hkey, hfor, h.symm⟩
    · rintro (⟨field, hfield, -, -⟩ | ⟨hkey, -, rfl⟩)
      · exact absurd hfield (hfor field)
      · exact take?_of_not_isFor hkey hfor

end Member

/-! ## All members -/

section Members

variable {layer next : Layer} {member : Member} {members : List Member}

theorem given?_cons_of_isFor {field : Field} (h : IsFor field member) :
    given? (member :: members) field = some member.2 := by
  rw [given?, List.find?_cons_of_pos (by simpa using h), Option.map_some]

theorem given?_cons_of_not_isFor {field : Field} (h : ¬ IsFor field member) :
    given? (member :: members) field = given? members field := by
  rw [given?, List.find?_cons_of_neg (by simpa using h), given?]

theorem orGiven_nil (layer : Layer) : layer.orGiven [] = layer := by
  simp [Layer.orGiven, given?]

/-- A member that is taken says what the layer then mentions. -/
theorem orGiven_of_take? (h : layer.take? member = some next) (members : List Member) :
    next.orGiven members = layer.orGiven (member :: members) := by
  rcases take?_eq_some_iff.mp h with ⟨field, hfield, hfree, hset⟩ | ⟨-, hnone, rfl⟩
  · have hother : ∀ other, other ≠ field → ¬ IsFor other member :=
      fun other hne hfor => hne (hfor.unique hfield)
    cases field
    all_goals
      rw [Layer.set?, Option.map_eq_some_iff] at hset
      obtain ⟨a, ha, rfl⟩ := hset
      simp_all [Layer.orGiven, Layer.mentions, given?_cons_of_isFor, given?_cons_of_not_isFor]
  · simp [Layer.orGiven, given?_cons_of_not_isFor, hnone]

theorem areSettings_cons_iff : AreSettings (member :: members) ↔
    (keyOf? member).isSome ∧
      (∀ field, IsFor field member →
        field.Accepts member.2 ∧ ∀ other ∈ members, ¬ IsFor field other) ∧
      AreSettings members := by
  constructor
  · rintro ⟨hkeys, honce, hvalid⟩
    rw [List.forall_mem_cons] at hkeys
    refine ⟨hkeys.1, ?_, hkeys.2, ?_, ?_⟩
    · intro field hfield
      refine ⟨hvalid field member List.mem_cons_self hfield, ?_⟩
      have hcount := honce field
      rw [List.countP_cons_of_pos (by simpa using hfield)] at hcount
      have hzero : members.countP (IsFor field ·) = 0 := by omega
      simpa using hzero
    · exact fun field => le_trans (List.sublist_cons_self _ _).countP_le (honce field)
    · exact fun field other hother => hvalid field other (List.mem_cons_of_mem _ hother)
  · rintro ⟨hkey, hmember, hkeys, honce, hvalid⟩
    refine ⟨List.forall_mem_cons.mpr ⟨hkey, hkeys⟩, ?_, ?_⟩
    · intro field
      by_cases hfield : IsFor field member
      · have hzero : members.countP (IsFor field ·) = 0 := by
          simpa using (hmember field hfield).2
        rw [List.countP_cons_of_pos (by simpa using hfield), hzero]
      · rw [List.countP_cons_of_neg (by simpa using hfield)]
        exact honce field
    · intro field
      rw [List.forall_mem_cons]
      exact ⟨fun hfield => (hmember field hfield).1, hvalid field⟩

/-- The members are taken one after the other exactly when they are settings for the
fields that are free, and then each field has the value that it was given. -/
theorem foldlM_take?_eq_some_iff {result : Layer} :
    members.foldlM Layer.take? layer = some result ↔
      (∀ field, layer.mentions field → ∀ member ∈ members, ¬ IsFor field member) ∧
        AreSettings members ∧ result = layer.orGiven members := by
  induction members generalizing layer with
  | nil =>
      have hnone : AreSettings [] := ⟨by simp, by simp, by simp⟩
      rw [orGiven_nil, List.foldlM_nil]
      constructor
      · rintro ⟨⟩
        exact ⟨by simp, hnone, rfl⟩
      · rintro ⟨-, -, rfl⟩
        rfl
  | cons member members ih =>
      rw [List.foldlM_cons, Option.bind_eq_bind, Option.bind_eq_some_iff, areSettings_cons_iff]
      constructor
      · rintro ⟨next, htake, hrest⟩
        obtain ⟨hfree, hmembers, rfl⟩ := ih.mp hrest
        rw [orGiven_of_take? htake]
        rcases take?_eq_some_iff.mp htake with
          ⟨field, hfield, hunset, hset⟩ | ⟨hkey, hnone, rfl⟩
        · have hmentions := mentions_of_set? hset
          refine ⟨?_, ⟨by rw [hfield]; rfl, ?_, hmembers⟩, rfl⟩
          · intro other hother
            rw [List.forall_mem_cons]
            refine ⟨?_, hfree other ((hmentions other).mpr (Or.inl hother))⟩
            intro hfor
            rw [hfor.unique hfield] at hother
            exact hunset hother
          · intro other hfor
            rw [hfor.unique hfield]
            refine ⟨(isSome_set?_iff layer).mp ?_, hfree field ((hmentions field).mpr (Or.inr rfl))⟩
            rw [hset]
            rfl
        · refine ⟨?_, ⟨hkey, fun field hfield => absurd hfield (hnone field), hmembers⟩, rfl⟩
          exact fun field hfield => List.forall_mem_cons.mpr ⟨hnone field, hfree field hfield⟩
      · rintro ⟨hfree, ⟨hkey, hmember, hmembers⟩, rfl⟩
        by_cases hfor : ∃ field, IsFor field member
        · obtain ⟨field, hfield⟩ := hfor
          obtain ⟨haccepts, hothers⟩ := hmember field hfield
          have hsome : (layer.set? member.2 field).isSome := (isSome_set?_iff layer).mpr haccepts
          obtain ⟨next, hset⟩ := Option.isSome_iff_exists.mp hsome
          have hunset : ¬ layer.mentions field :=
            fun h => hfree field h member List.mem_cons_self hfield
          have htake := take?_eq_some_iff.mpr (Or.inl ⟨field, hfield, hunset, hset⟩)
          refine ⟨next, htake, ih.mpr ⟨?_, hmembers, (orGiven_of_take? htake members).symm⟩⟩
          intro other hother
          rcases (mentions_of_set? hset other).mp hother with hother | rfl
          · exact fun m hm => hfree other hother m (List.mem_cons_of_mem _ hm)
          · exact hothers
        · have htake : layer.take? member = some layer :=
            take?_of_not_isFor hkey (not_exists.mp hfor)
          refine ⟨layer, htake, ih.mpr ⟨?_, hmembers, (orGiven_of_take? htake members).symm⟩⟩
          exact fun field hfield m hm => hfree field hfield m (List.mem_cons_of_mem _ hm)

end Members

end Settings

/-! ## The settings of a run -/

namespace Program

open Settings CommandLine

variable {m : Type → Type} [Monad m] [LawfulMonad m]

/-- The members of the settings file of a run; there are none when no file is named. -/
inductive IsConfigured (inputs : Inputs m) (options : Options) : List Member → Prop
  | none (hconfig : options.config = none) : IsConfigured inputs options []
  | file {path text : String} {members : List Member} (hconfig : options.config = some path)
      (hpath : '\x00' ∉ path.toList) (hfile : inputs.file path = pure (.ok text.toUTF8))
      (hdoc : IsDocument (.object members) text.toList) : IsConfigured inputs options members

theorem toOption_parse (name : String) :
    (OutputFormat.parse name).toOption = OutputFormat.ofName? name.toLower := by
  have hlower : String.ofList (name.toList.map Char.toLower) = name.toLower := by
    rw [← String.toList_inj, String.toList_ofList]
    exact String.toList_map.symm
  rw [OutputFormat.parse, hlower]
  cases OutputFormat.ofName? name.toLower <;> rfl

theorem getD_ofName? (name : String) :
    (OutputFormat.ofName? name).getD .text = if name = "json" then .json else .text := by
  unfold OutputFormat.ofName?
  split
  · rfl
  · rfl
  · next hjson => exact (if_neg hjson).symm

/-- What the environment asks for: JSON, if it names it in any case, else text. -/
theorem format_default (formatValue : Option String) :
    (Settings.default formatValue).format =
      if formatValue.map String.toLower = some "json" then .json else .text := by
  cases formatValue with
  | none => rfl
  | some name =>
      rw [Settings.default, Option.bind_some, toOption_parse, getD_ofName?]
      simp only [Option.map_some, Option.some.injEq]

/-- What the command line changes. -/
theorem under_layer (base : Settings) (options : Options) :
    base.under options.layer =
      { format := options.format.getD base.format
        showTokens := !options.noTokens && base.showTokens
        showVariables := options.showVariables || base.showVariables
        showSource := options.showSource || base.showSource } := by
  obtain ⟨file, format, config, noTokens, showVariables, showSource⟩ := options
  cases noTokens <;> cases showVariables <;> cases showSource <;> rfl

theorem text_of_file {inputs : Inputs m} {path text : String} (hpath : '\x00' ∉ path.toList)
    (hfile : inputs.file path = pure (.ok text.toUTF8)) :
    inputs.text path = pure (.ok text) := by
  have hdecode : String.fromUTF8? text.toUTF8 = some text := dif_pos text.isValidUTF8
  rw [Inputs.text, if_neg (by simpa using hpath), hfile, pure_bind, decode, hdecode]

section Run

variable {inputs : Inputs m} {options : Options} {members : List Member}

/-- The file is read into the layer that its members make. -/
theorem loadSettings_eq_ok (h : IsConfigured inputs options members)
    (formatValue : Option String) {layer : Layer}
    (hlayer : members.foldlM Layer.take? {} = some layer) :
    loadSettings inputs options formatValue =
      pure (.ok (((Settings.default formatValue).under layer).under options.layer)) := by
  cases h with
  | none hconfig =>
      obtain rfl : {} = layer := Option.some.inj hlayer
      rw [loadSettings, hconfig]
      rfl
  | @file path text _ hconfig hpath hfile hdoc =>
      have hread : layerOf text = .ok layer := by
        rw [← toOption_readLayer hdoc] at hlayer
        rw [layerOf]
        cases hresult : readLayer text with
        | ok found =>
            rw [hresult] at hlayer
            cases hlayer
            rfl
        | error fault =>
            rw [hresult] at hlayer
            cases hlayer
      rw [loadSettings, hconfig]
      simp only [text_of_file hpath hfile, pure_bind]
      show pure (layerOf text >>= _) = _
      rw [hread]
      rfl

/-- A file whose members make no layer is refused. -/
theorem loadSettings_eq_error (h : IsConfigured inputs options members)
    (formatValue : Option String) (hnone : members.foldlM Layer.take? {} = none) :
    ∃ problem line column, loadSettings inputs options formatValue =
      pure (.error (.settings problem line column)) := by
  cases h with
  | none => cases hnone
  | @file path text _ hconfig hpath hfile hdoc =>
      have hread : ∃ problem line column,
          layerOf text = .error (.settings problem line column) := by
        rw [← toOption_readLayer hdoc] at hnone
        rw [layerOf]
        cases hresult : readLayer text with
        | ok found =>
            rw [hresult] at hnone
            cases hnone
        | error fault => exact ⟨_, _, _, rfl⟩
      obtain ⟨problem, line, column, hread⟩ := hread
      refine ⟨problem, line, column, ?_⟩
      rw [loadSettings, hconfig]
      simp only [text_of_file hpath hfile, pure_bind]
      show pure (layerOf text >>= _) = _
      rw [hread]
      rfl

/-- **Settings by precedence.** Whatever else stands in the settings file and however it
is written, the format is the one on the command line, else the one in the file, else the
one that the environment names in any case, else text; flags on the command line win over
the file, and the file over the defaults. A file that sets a field twice is refused,
whatever the command line says. -/
theorem loadSettings_by_precedence (h : IsConfigured inputs options members)
    (formatValue : Option String) :
    (AreSettings members →
      loadSettings inputs options formatValue = pure (.ok
        { format := (options.format.or ((given? members .format).bind formatOf?)).getD
            (if formatValue.map String.toLower = some "json" then .json else .text)
          showTokens :=
            !options.noTokens && ((given? members .showTokens).bind flagOf?).getD true
          showVariables := options.showVariables ||
            ((given? members .showVariables).bind flagOf?).getD false
          showSource := options.showSource ||
            ((given? members .showSource).bind flagOf?).getD false })) ∧
      ∀ field, 1 < members.countP (IsFor field ·) →
        ∃ problem line column, loadSettings inputs options formatValue =
          pure (.error (.settings problem line column)) := by
  constructor
  · intro hmembers
    have hempty : ∀ field, ¬ ({} : Layer).mentions field := by
      intro field
      cases field <;> decide
    have hlayer := foldlM_take?_eq_some_iff.mpr
      ⟨fun field hfield => absurd hfield (hempty field), hmembers, rfl⟩
    rw [loadSettings_eq_ok h formatValue hlayer, ← format_default, under_layer]
    simp [Settings.under, Layer.orGiven, Settings.default]
  · intro field htwice
    have hnone : members.foldlM Layer.take? {} = none := by
      rw [Option.eq_none_iff_forall_ne_some]
      intro layer hlayer
      have honce := (foldlM_take?_eq_some_iff.mp hlayer).2.1.once field
      omega
    exact loadSettings_eq_error h formatValue hnone

end Run

/-- A file with an unknown member and an escape in a key, under two flags; and a file
that sets the format twice. -/
theorem loadSettings_by_precedence_two_flags :
    loadSettings (m := Id)
        ⟨fun _ => .ok
          "\x7b\"x\":[\x7b\x7d,null],\"\\u0066ormat\" : \"json\",\n\"show_tokens\":true\x7d".toUTF8,
          .ok .empty⟩
        { config := some "c", noTokens := true, showSource := true } (some "Text") =
      .ok ⟨.json, false, false, true⟩ ∧
    ∃ problem line column, loadSettings (m := Id)
        ⟨fun _ => .ok
          (Json.object [("format", .number 1), ("format", .string "json")]).render.toUTF8,
          .ok .empty⟩
        { config := some "c", format := some .text } none =
      .error (.settings problem line column) := by
  constructor
  · let members : List Member :=
      [(utf16 "x".toList, .list [.object [], .null]),
        (utf16 "format".toList, .string (utf16 "json".toList)),
        (utf16 "show_tokens".toList, .boolean true)]
    have hdoc : IsDocument (.object members) (String.toList
        "\x7b\"x\":[\x7b\x7d,null],\"\\u0066ormat\" : \"json\",\n\"show_tokens\":true\x7d") := by
      have hblank : [' '].all isGap := by decide
      have hline : ['\n'].all isGap := by decide
      have hlist : Value.IsSpelled (.list [.object [], .null]) _ :=
        .list (.parts (.cons List.all_nil (.object (.empty List.all_nil)) List.all_nil
          (.last List.all_nil .null List.all_nil)))
      have hkey : IsBody (utf16 "format".toList) _ :=
        @IsBody.unit '0' '0' '6' '6' 0x66 _ _ (by decide) (isBody_escaped "ormat".toList)
      refine ⟨[], _, [], List.all_nil, .object (.parts
        (.cons List.all_nil (.mk (isBody_escaped "x".toList) List.all_nil List.all_nil hlist)
          List.all_nil
        (.cons List.all_nil (.mk hkey hblank hblank (isSpelled_stringText "json")) List.all_nil
        (.last hline (.mk (isBody_escaped "show_tokens".toList) List.all_nil List.all_nil
          .boolTrue) List.all_nil)))), List.all_nil, rfl⟩
    have hmembers : AreSettings members := by
      refine ⟨?_, ?_, ?_⟩
      · simp [-utf16_cons, members, keyOf?, Value.text?_utf16]
      · intro field
        cases field <;>
          simp [-utf16_cons, members, IsFor, Field.key, keyOf?, Value.text?_utf16]
      · intro field
        cases field <;>
          simp [-utf16_cons, members, IsFor, Field.key, keyOf?, Value.text?_utf16,
            Field.Accepts, formatOf?, flagOf?, OutputFormat.ofName?]
    refine ((loadSettings_by_precedence (.file rfl (by decide) rfl hdoc) _).1 hmembers).trans ?_
    simp [-utf16_cons, members, given?, IsFor, Field.key, keyOf?, Value.text?_utf16, formatOf?,
      flagOf?, OutputFormat.ofName?]
    rfl
  · refine (loadSettings_by_precedence (.file rfl (by decide) rfl
      ((isDocument_render_iff _ _).mpr rfl)) none).2 .format ?_
    simp [-utf16_cons, IsFor, Json.value, memberValues, Field.key, keyOf?, Value.text?_utf16]

end Program

end FlowLex
