import MeepBot.Library.Run
import MeepBot.Tables

/-!
# Calls of the database

Sequences of calls of the functions of `UserDB` and `QuotesDB`, as the query texts they execute.

* `calls_agree`: they do what the operations on the tables do, whatever texts they are given.
* `closes_iff`: which of them leave prepared statements behind, so that the database cannot be
  closed.
-/

namespace MeepBot
namespace Properties

open Connection

/-- For every sequence of calls, the functions that print and execute query texts give the answers
of the operations on the tables, and leave a database that holds the same tables. -/
theorem calls_agree {c : Connection} {t : Tables} (holds : Holds c.db t) (calls : List DbCall)
    (fit : ∀ call ∈ calls, call.Fits) :
    (Run.answers DbCall.execute calls c).1 = (Run.answers DbCall.operate calls t).1 ∧
      Holds (Run.answers DbCall.execute calls c).2.db (Run.answers DbCall.operate calls t).2 := by
  have steps (call : DbCall) (c : Connection) (t : Tables) (fits : call.Fits)
      (holds : Holds c.db t) : (call.execute c).1 = (call.operate t).1 ∧
        Holds (call.execute c).2.db (call.operate t).2 := by
    obtain ⟨answer, after, -⟩ := call.execute_does fits holds
    exact ⟨answer, after⟩
  exact Run.answers_simulated steps fit holds

/-- A new database, and texts that look like parts of a query. -/
theorem calls_agree_new : (Run.answers DbCall.execute
    [.addUser "o'Brien".toList .op, .setDescription "O'BRIEN".toList "'); --".toList,
      .getDescription "o'brien".toList, .addQuote "o'Brien".toList "100%; '".toList,
      .getIDByPattern "; '".toList 0, .getQuoteByID 1]
    opened.createQuotes.createUsers).1 =
    [.flag true, .flag true, .text (some "'); --".toList), .flag true, .number 1,
      .text (some "100%; '".toList)] := by
  refine (calls_agree created_holds _ ?_).1.trans (by decide)
  simp only [List.forall_mem_cons, DbCall.Fits, true_and]
  exact ⟨by decide, by simp⟩

/-- The statements that the calls leave open. -/
def leftBy : List DbCall → Tables → Nat
  | [], _ => 0
  | call :: calls, t => call.left t + leftBy calls (call.operate t).2

/-- No call of the sequence leaves a statement open. -/
def Finalizes (calls : List DbCall) (t : Tables) : Prop :=
  Run.Along (fun t call => (call.operate t).2) (fun t call => call.left t = 0) calls t

theorem finalizes_iff (calls : List DbCall) (t : Tables) :
    Finalizes calls t ↔ leftBy calls t = 0 := by
  induction calls generalizing t with
  | nil => simp [Finalizes, Run.Along, leftBy]
  | cons call calls ih =>
    have rest := ih (call.operate t).2
    rw [leftBy, Nat.add_eq_zero_iff, ← rest]
    rfl

/-- For every sequence of calls, the statements that stay open are those of `SetDescription`, of
`GetQuoteAuthor`, and of `IsProtected` about a name that is not known; so the connection can be
closed if and only if there was no such call. -/
theorem closes_iff {c : Connection} {t : Tables} (holds : Holds c.db t) (calls : List DbCall)
    (fit : ∀ call ∈ calls, call.Fits) :
    (Run.answers DbCall.execute calls c).2.statements = c.statements + leftBy calls t ∧
      ((Run.answers DbCall.execute calls c).2.closes = true ↔
        c.closes = true ∧ Finalizes calls t) := by
  have count : (Run.answers DbCall.execute calls c).2.statements =
      c.statements + leftBy calls t := by
    induction calls generalizing c t with
    | nil => rfl
    | cons call calls ih =>
      obtain ⟨here, others⟩ := List.forall_mem_cons.mp fit
      obtain ⟨-, after, left⟩ := call.execute_does here holds
      have rest := ih after others
      rw [left, Nat.add_assoc] at rest
      exact rest
  refine ⟨count, ?_⟩
  rw [closes, closes, count, finalizes_iff, decide_eq_true_iff, decide_eq_true_iff]
  exact Nat.add_eq_zero_iff

/-- A description that is set keeps the connection from closing. -/
theorem closes_iff_description : (Run.answers DbCall.execute
    [.addUser "bob".toList .op, .setDescription "bob".toList "a bot".toList]
    opened.createQuotes.createUsers).2.closes = false := by
  refine Bool.eq_false_iff.mpr fun closed => ?_
  have tidy := ((closes_iff created_holds _ (by simp [DbCall.Fits])).2.mp closed).2
  exact absurd ((finalizes_iff _ _).mp tidy) (by decide)

end Properties
end MeepBot
