import FlowLex.Proofs.FirstOccurrence
import FlowLex.Proofs.Relocation

/-!
# A session that is used again

A session can read lines one by one, under any numbers, before it reads a source.
An open block comment is then forgotten and the scanner starts each line from
scratch, so of all that was read only the variables are kept. The results are
those of a new session with the numbers that the variables have now.
-/

namespace FlowLex

/-- The session after some lines have been read one by one, each under a number of
its own. -/
def Session.afterLines (session : Session) (calls : List (ℕ × String)) : Session :=
  calls.foldl (fun session call => (session.readLine call.1 call.2.toList).2) session

/-- What a session makes of a source, beside what a new one makes of it. The
results differ in the numbers of variables, which are those of the table after
the source. This table goes on from the one before it with the names that only
the new session has. -/
structure ReadsLikeNew (session : Session) (source : String) : Prop where
  lines_eq : (session.readSource source).1 =
    (Session.start.readSource source).1.map
      (Line.renumber (session.readSource source).2.table)
  known : ∀ line ∈ (Session.start.readSource source).1, ∀ token ∈ line.tokens,
    token.isVariable → token.value ∈ (session.readSource source).2.table.names
  table_extends : (session.readSource source).2.table.Extends session.table
  names_eq : (session.readSource source).2.table.names =
    session.table.names ++
      (Session.start.readSource source).2.table.names.removeAll session.table.names
  wellNumbered : (session.readSource source).2.table.WellNumbered

/-! ## What is kept of the lines read before -/

theorem wellNumbered_readLine {session : Session} (h : session.table.WellNumbered)
    (number : ℕ) (text : List Char) :
    (session.readLine number text).2.table.WellNumbered := by
  rw [readLine_table]
  exact h.learn _

theorem wellNumbered_afterLines {session : Session} (h : session.table.WellNumbered)
    (calls : List (ℕ × String)) : (session.afterLines calls).table.WellNumbered := by
  induction calls generalizing session with
  | nil => exact h
  | cons call calls ih => exact ih (wellNumbered_readLine h call.1 call.2.toList)

/-! ## Reading a source -/

theorem table_readSource (session : Session) (source : String) :
    (session.readSource source).2.table = session.table.learn (namesIn (codeLines source)) :=
  readLines_table _ _ _

theorem readsLikeNew_of_wellNumbered {session : Session} (h : session.table.WellNumbered)
    (source : String) : ReadsLikeNew session source := by
  refine ⟨?_, ?_, ?_, ?_, ?_⟩
  · have hmode : ({ session with mode := .code } : Session).mode =
        ({ Session.start with mode := .code } : Session).mode := rfl
    exact readLines_renumber hmode 1 _
  · intro line hline token htoken hvar
    obtain ⟨id, hid⟩ := Token.isVariable_iff.mp hvar
    rw [readSource_lines] at hline
    rw [table_readSource]
    exact Variables.mem_names_learn
      (of_mem_tokens_of_name (List.mem_flatMap.mpr ⟨line, hline, htoken⟩) hid).1
  · rw [table_readSource]
    exact Variables.learn_extends _ _
  · rw [table_readSource, readSource_table]
    exact Variables.names_learn_beside_empty _ _
  · rw [table_readSource]
    exact h.learn _

/-- **A used session reads like a new one.** Whatever lines a session has read, it
makes of a source what a new one makes of it, up to the numbers of variables. -/
theorem readsLikeNew_afterLines (calls : List (ℕ × String)) (source : String) :
    ReadsLikeNew (Session.start.afterLines calls) source :=
  readsLikeNew_of_wellNumbered
    (wellNumbered_afterLines Variables.wellNumbered_empty calls) source

end FlowLex
