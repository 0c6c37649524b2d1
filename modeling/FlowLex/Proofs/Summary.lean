import FlowLex.Proofs.Respelling
import Mathlib

/-!
# Summaries can be read back

The summary of a line is the number of the line and behind it the texts of the tokens.
Spellings may look like any part of a summary, a literal even like several tokens, but
every part shows where it ends: numbers and class tags are words with a sign or a
blank behind them, and the spelling of a token is the one lexeme that stands there. So
a summary has one reading.
-/

namespace FlowLex

/-! ## Words in a written text -/

/-- Two words in front of texts that end them are told apart from what follows. -/
theorem IsWord.append_inj {word other rest more : List Char} (hword : IsWord word)
    (hother : IsWord other) (hrest : EndsWord rest) (hmore : EndsWord more)
    (h : word ++ rest = other ++ more) : word = other ∧ rest = more :=
  (IsLexeme.word hword hrest).unique (.word hother hmore) h

theorem isWord_repr (n : ℕ) : IsWord n.repr.toList := by
  rw [Nat.toList_repr]
  refine ⟨Nat.toDigits_ne_nil, ?_⟩
  intro c hc
  exact isWordChar_of_isDigit (Nat.isDigit_of_mem_toDigits (by decide) (by decide) hc)

/-- The number in front of a text that goes on with no word character. -/
theorem repr_append_inj {n m : ℕ} {rest more : List Char} (hrest : EndsWord rest)
    (hmore : EndsWord more) (h : n.repr.toList ++ rest = m.repr.toList ++ more) :
    n = m ∧ rest = more := by
  obtain ⟨hrepr, hbehind⟩ := (isWord_repr n).append_inj (isWord_repr m) hrest hmore h
  rw [String.toList_inj, Nat.repr_inj] at hrepr
  exact ⟨hrepr, hbehind⟩

/-! ## Class tags -/

namespace TokenClass

theorem toList_tag_name (id : ℕ) :
    (TokenClass.name id).tag.toList = 'i' :: 'd' :: id.repr.toList := by
  simp [tag, idTag]

/-- A tag is a word, so it holds no sign and no blank. -/
theorem isWord_tag (kind : TokenClass) : IsWord kind.tag.toList := by
  cases kind with
  | name id =>
      rw [toList_tag_name]
      refine ⟨List.cons_ne_nil _ _, ?_⟩
      rw [List.forall_mem_cons, List.forall_mem_cons]
      exact ⟨by decide, by decide, (isWord_repr id).2⟩
  | reserved category =>
      cases category
      · exact ⟨by decide, List.all_eq_true.mp (by decide)⟩
      · exact ⟨by decide, List.all_eq_true.mp (by decide)⟩
  | _ => exact ⟨by decide, List.all_eq_true.mp (by decide)⟩

/-- The classes that carry no number. -/
def unnumbered : List TokenClass :=
  [.reserved .keyword, .reserved .boolean, .number, .string, .operator, .symbol, .semicolon]

theorem eq_name_or_mem_unnumbered (kind : TokenClass) :
    (∃ id, kind = .name id) ∨ kind ∈ unnumbered := by
  cases kind with
  | name id => exact Or.inl ⟨id, rfl⟩
  | reserved category => cases category <;> exact Or.inr (by decide)
  | _ => exact Or.inr (by decide)

theorem tag_name_ne {kind : TokenClass} (h : kind ∈ unnumbered) (id : ℕ) :
    (TokenClass.name id).tag ≠ kind.tag := by
  intro heq
  have hall : ∀ kind ∈ unnumbered, kind.tag.toList.head? ≠ some 'i' := by decide
  apply hall kind h
  rw [← heq, toList_tag_name]
  rfl

/-- Different classes have different tags, and variables with different numbers
too. -/
theorem tag_injective : Function.Injective tag := by
  intro a b h
  rcases eq_name_or_mem_unnumbered a with ⟨id, rfl⟩ | ha
  · rcases eq_name_or_mem_unnumbered b with ⟨id', rfl⟩ | hb
    · rw [← String.toList_inj, toList_tag_name, toList_tag_name, List.cons.injEq,
        List.cons.injEq, String.toList_inj, Nat.repr_inj] at h
      rw [h.2.2]
    · exact absurd h (tag_name_ne hb id)
  · rcases eq_name_or_mem_unnumbered b with ⟨id', rfl⟩ | hb
    · exact absurd h.symm (tag_name_ne ha id')
    · have hall : ∀ a ∈ unnumbered, ∀ b ∈ unnumbered, a.tag = b.tag → a = b := by decide
      exact hall a ha b hb h

/-- The tag in front of a text that goes on with no word character. -/
theorem tag_append_inj {kind other : TokenClass} {rest more : List Char}
    (hrest : EndsWord rest) (hmore : EndsWord more)
    (h : kind.tag.toList ++ rest = other.tag.toList ++ more) :
    kind = other ∧ rest = more := by
  obtain ⟨htag, hbehind⟩ := kind.isWord_tag.append_inj other.isWord_tag hrest hmore h
  exact ⟨tag_injective (String.toList_inj.mp htag), hbehind⟩

end TokenClass

/-! ## Tokens of a line -/

theorem toList_text (token : Token) :
    token.text.toList =
      '(' :: (token.kind.tag.toList ++ ',' :: ' ' :: (token.value.toList ++ [')'])) := by
  simp [Token.text]

/-- The text of a token shows where it ends. -/
theorem text_append_inj {token other : Token} {rest more : List Char}
    (htoken : isAccepted token.value) (hother : isAccepted other.value)
    (h : token.text.toList ++ rest = other.text.toList ++ more) :
    token.kind = other.kind ∧ token.value = other.value ∧ rest = more := by
  simp only [toList_text, List.cons_append, List.append_assoc, List.nil_append,
    List.cons.injEq, true_and] at h
  have hcomma : ∀ text, EndsWord (',' :: text) := fun text => endsWord_cons.mpr (by decide)
  have hclose : ∀ text, EndsWord (')' :: text) := fun text => endsWord_cons.mpr (by decide)
  obtain ⟨hkind, h⟩ := TokenClass.tag_append_inj (hcomma _) (hcomma _) h
  rw [List.cons.injEq, List.cons.injEq] at h
  -- Whatever the spelling looks like, it is the lexeme in front of the bracket.
  obtain ⟨hvalue, h⟩ := (isLexeme_of_isAccepted htoken (hclose _)).unique
    (isLexeme_of_isAccepted hother (hclose _)) h.2.2
  exact ⟨hkind, String.toList_inj.mp hvalue, (List.cons.inj h).2⟩

/-- The token stands on the line with this number and is spelled by an accepted
lexeme. -/
def Token.IsOn (token : Token) (number : ℕ) : Prop :=
  token.line = number ∧ isAccepted token.value

/-- The texts of some tokens, with a blank in front of each. -/
def tokenTexts (tokens : List Token) : List Char :=
  tokens.flatMap fun token => ' ' :: token.text.toList

theorem tokenTexts_cons (token : Token) (rest : List Token) :
    tokenTexts (token :: rest) = ' ' :: (token.text.toList ++ tokenTexts rest) := rfl

theorem tokenTexts_inj {number : ℕ} {tokens others : List Token}
    (htokens : ∀ token ∈ tokens, token.IsOn number)
    (hothers : ∀ token ∈ others, token.IsOn number)
    (h : tokenTexts tokens = tokenTexts others) : tokens = others := by
  induction tokens generalizing others with
  | nil =>
      cases others with
      | nil => rfl
      | cons other others => simp [tokenTexts] at h
  | cons token tokens ih =>
      cases others with
      | nil => simp [tokenTexts] at h
      | cons other others =>
          rw [List.forall_mem_cons] at htokens hothers
          rw [tokenTexts_cons, tokenTexts_cons, List.cons.injEq] at h
          obtain ⟨hkind, hvalue, hrest⟩ :=
            text_append_inj htokens.1.2 hothers.1.2 h.2
          have hline : token.line = other.line := by rw [htokens.1.1, hothers.1.1]
          have hfirst : token = other := by
            obtain ⟨line, kind, value⟩ := token
            rw [Token.mk.injEq]
            exact ⟨hline, hkind, hvalue⟩
          rw [hfirst, ih htokens.2 hothers.2 hrest]

/-! ## Summaries -/

theorem toList_summary (line : Line) :
    line.summary.toList =
      "Line ".toList ++ (line.number.repr.toList ++ tokenTexts line.tokens) := by
  have htexts : (String.join (line.tokens.map fun token => " " ++ token.text)).toList =
      tokenTexts line.tokens := by
    induction line.tokens with
    | nil => rfl
    | cons token tokens ih =>
        rw [List.map_cons, String.join_cons, String.toList_append, ih, tokenTexts_cons]
        simp
  rw [Line.summary, String.toList_append, String.toList_append, htexts, List.append_assoc]

theorem endsWord_tokenTexts (tokens : List Token) : EndsWord (tokenTexts tokens) := by
  cases tokens with
  | nil => exact endsWord_nil
  | cons token tokens => exact endsWord_cons.mpr (by decide)

/-- The line that is read has the number it was read under, and so have its tokens. -/
theorem isOn_of_readLine {session : Session} {number : ℕ} {text : List Char} {line : Line}
    (h : (session.readLine number text).1 = some line) :
    line.number = number ∧ ∀ token ∈ line.tokens, token.IsOn number := by
  rw [readLine_line (Variables.Extends.refl _), Option.map_map, Option.map_eq_some_iff] at h
  obtain ⟨code, -, rfl⟩ := h
  refine ⟨rfl, ?_⟩
  intro token htoken
  obtain ⟨hline, -, hacc⟩ := of_mem_tokens_ofCode htoken
  exact ⟨hline, hacc⟩

/-- **A summary has one reading.** Two lines, each read in any session and under any
number, have the same number and the same tokens when their summaries are the same,
whether they are valid or not. -/
theorem eq_of_summary_eq {session other : Session} {number n : ℕ} {text t : List Char}
    {line line' : Line} (hline : (session.readLine number text).1 = some line)
    (hline' : (other.readLine n t).1 = some line') (h : line.summary = line'.summary) :
    line.number = line'.number ∧ line.tokens = line'.tokens := by
  obtain ⟨hnumber, htokens⟩ := isOn_of_readLine hline
  obtain ⟨hnumber', htokens'⟩ := isOn_of_readLine hline'
  rw [← String.toList_inj, toList_summary, toList_summary, List.append_cancel_left_eq] at h
  obtain ⟨hsame, htexts⟩ :=
    repr_append_inj (endsWord_tokenTexts _) (endsWord_tokenTexts _) h
  refine ⟨hsame, ?_⟩
  have hn : n = number := by rw [← hnumber, ← hnumber', hsame]
  rw [hn] at htokens'
  exact tokenTexts_inj htokens htokens' htexts

/-- An invalid line that is read second has the summary of a valid one. The bracket in
the literal closes no token. -/
theorem eq_of_summary_eq_invalid_line :
    ∃ line line' : Line,
      (Session.start.readLine 7 "x,\"), (\";".toList).1 = some line ∧
        ((Session.start.readLine 3 "x".toList).2.readLine 7
          " x , é\"), (\" 9x ; // x".toList).1 = some line' ∧
        line'.isInvalid ∧
        line.summary = "Line 7 (id1, x) (symbol, ,) (string, \"), (\") (semicolon, ;)" ∧
        line.summary = line'.summary ∧
        line.number = line'.number ∧ line.tokens = line'.tokens := by
  have hline : (Session.start.readLine 7 "x,\"), (\";".toList).1 =
      some ⟨7, [⟨7, .name 1, "x"⟩, ⟨7, .symbol, ","⟩, ⟨7, .string, "\"), (\""⟩,
        ⟨7, .semicolon, ";"⟩], none⟩ := by
    cbv
  have hline' : ((Session.start.readLine 3 "x".toList).2.readLine 7
      " x , é\"), (\" 9x ; // x".toList).1 =
        some ⟨7, [⟨7, .name 1, "x"⟩, ⟨7, .symbol, ","⟩, ⟨7, .string, "\"), (\""⟩,
          ⟨7, .semicolon, ";"⟩], some ⟨"é", 7, some 4⟩⟩ := by
    cbv
  exact ⟨_, _, hline, hline', rfl, by decide, rfl, eq_of_summary_eq hline hline' rfl⟩

end FlowLex
