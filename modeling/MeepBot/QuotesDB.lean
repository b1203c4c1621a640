import Mathlib.Algebra.Group.Int.Defs
import Mathlib.Algebra.Group.Nat.Defs
import MeepBot.Text
import MeepBot.Library.KeyedTable
import MeepBot.Library.SqlLike

/-!
# QuotesDB

The table of quotes. Its primary key counts up: a new quote gets an id above every id ever
used, and an insertion fails once the largest id is used up. `ORDER BY RANDOM() LIMIT 1` is
a choice made outside, here an index into the rows that match.
-/

namespace MeepBot

structure QuoteRow where
  id : Int
  quote : Str
  addedBy : Str
  deriving DecidableEq

structure QuotesTable where
  quotes : KeyedTable QuoteRow.id
  /-- The largest id ever used. -/
  lastId : Int
  used : 0 ≤ lastId ∧ ∀ r ∈ quotes.rows, 0 < r.id ∧ r.id ≤ lastId

def QuotesTable.empty : QuotesTable := ⟨.empty, 0, by simp [KeyedTable.empty]⟩

namespace QuotesDB

/-- `sqlite3_column_int`: the lower 32 bits of the value. -/
def columnInt (v : Int) : Int := v.bmod (2 ^ 32)

/-- The id of the row that the random order puts first, and -1 if there is no row. -/
def choose (rows : List QuoteRow) (pick : Nat) : Int :=
  match rows[pick % rows.length]? with
  | some r => columnInt r.id
  | none => -1

def quoteExists (t : QuotesTable) (iQuoteID : Int) : Bool := (t.quotes.lookup iQuoteID).isSome

def getQuoteByID (t : QuotesTable) (iQuoteID : Int) : Option Str :=
  (t.quotes.lookup iQuoteID).map QuoteRow.quote

def getIDByPattern (t : QuotesTable) (pattern : Str) (pick : Nat) : Int :=
  choose (t.quotes.rows.filter fun r => Sql.like ('%' :: pattern ++ ['%']) r.quote) pick

def getQuoteAuthor (t : QuotesTable) (iQuoteID : Int) : Option Str :=
  (t.quotes.lookup iQuoteID).map QuoteRow.addedBy

def getRandomID (t : QuotesTable) (pick : Nat) : Int := choose t.quotes.rows pick

def addQuote (t : QuotesTable) (adder quote : Str) : Bool × QuotesTable :=
  -- `AUTOINCREMENT` never goes back to a free id below the largest one
  if t.lastId < 2 ^ 63 - 1 then
    (true,
      { quotes := t.quotes.insertOrIgnore ⟨t.lastId + 1, quote, adder⟩
        lastId := t.lastId + 1
        used := by
          refine ⟨by have := t.used.1; omega, fun r member => ?_⟩
          rcases KeyedTable.mem_insertOrIgnore.mp member with old | ⟨rfl, -⟩
          · have := t.used.2 r old
            omega
          · have := t.used.1
            exact ⟨by simp only; omega, by simp⟩ })
  else (false, t)

def removeQuote (t : QuotesTable) (iQuoteID : Int) : Bool × QuotesTable :=
  if quoteExists t iQuoteID then
    (true,
      { t with
        quotes := t.quotes.delete iQuoteID
        used := ⟨t.used.1, fun r member => t.used.2 r (KeyedTable.mem_delete.mp member).1⟩ })
  else (false, t)

/-! ### What the writers do to an id -/

/-- No id above the largest one is used. -/
theorem lookup_above (t : QuotesTable) {id : Int} (above : t.lastId < id) :
    t.quotes.lookup id = none := by
  rw [KeyedTable.lookup_none_iff]
  intro taken
  obtain ⟨row, member, rfl⟩ := List.mem_map.mp taken
  have := t.used.2 row member
  omega

/-- A removal answers whether the quote was there. -/
theorem removeQuote_fst (t : QuotesTable) (iQuoteID : Int) :
    (removeQuote t iQuoteID).1 = quoteExists t iQuoteID := by
  cases present : quoteExists t iQuoteID with
  | true => rw [removeQuote, if_pos present]
  | false => rw [removeQuote, if_neg (by simp [present])]

theorem lastId_addQuote {t : QuotesTable} (room : t.lastId < 2 ^ 63 - 1) (adder quote : Str) :
    (addQuote t adder quote).2.lastId = t.lastId + 1 := by
  rw [addQuote, if_pos room]

theorem lastId_removeQuote (t : QuotesTable) (iQuoteID : Int) :
    (removeQuote t iQuoteID).2.lastId = t.lastId := by
  unfold removeQuote
  split
  · rfl
  · rfl

/-- While there are ids left, an addition takes the next one and leaves the others alone. -/
theorem lookup_addQuote {t : QuotesTable} (room : t.lastId < 2 ^ 63 - 1) (adder quote : Str)
    (id : Int) : (addQuote t adder quote).2.quotes.lookup id =
      if id = t.lastId + 1 then some ⟨t.lastId + 1, quote, adder⟩ else t.quotes.lookup id := by
  rw [addQuote, if_pos room]
  exact KeyedTable.lookup_insertOrIgnore_free (lookup_above t (by simp only; omega)) id

/-- A removal takes its own id away and leaves the others alone. -/
theorem lookup_removeQuote (t : QuotesTable) (iQuoteID id : Int) :
    (removeQuote t iQuoteID).2.quotes.lookup id =
      if id = iQuoteID then none else t.quotes.lookup id := by
  cases present : quoteExists t iQuoteID with
  | true =>
    rw [removeQuote, if_pos present]
    exact KeyedTable.lookup_delete t.quotes iQuoteID id
  | false =>
    rw [removeQuote, if_neg (by simp [present])]
    split
    next same => rw [same]; simpa [quoteExists] using present
    next => rfl

/-- Every row after an insertion is an old one or the new one. -/
theorem mem_addQuote {t : QuotesTable} {adder quote : Str} {r : QuoteRow}
    (member : r ∈ (addQuote t adder quote).2.quotes.rows) :
    r ∈ t.quotes.rows ∨ (r.quote = quote ∧ r.addedBy = adder) := by
  unfold addQuote at member
  split at member
  · rcases KeyedTable.mem_insertOrIgnore.mp member with old | ⟨rfl, -⟩
    · exact .inl old
    · exact .inr ⟨rfl, rfl⟩
  · exact .inl member

theorem mem_removeQuote {t : QuotesTable} {id : Int} {r : QuoteRow}
    (member : r ∈ (removeQuote t id).2.quotes.rows) : r ∈ t.quotes.rows := by
  unfold removeQuote at member
  split at member
  · exact (KeyedTable.mem_delete.mp member).1
  · exact member

/-- The rows with other ids survive a removal. -/
theorem mem_removeQuote_of_ne {t : QuotesTable} {id : Int} {r : QuoteRow}
    (member : r ∈ t.quotes.rows) (other : r.id ≠ id) :
    r ∈ (removeQuote t id).2.quotes.rows := by
  unfold removeQuote
  split
  · exact KeyedTable.mem_delete.mpr ⟨member, other⟩
  · exact member

/-! ### Ids and texts as they are read -/

/-- The buffer that `GetFirstQuote` and `GetQuoteAuthor` each return: `strncpy` of the bytes of a
column, which stops at a zero and fills up with zeros, and one zero behind. -/
def copyBuffer (val : Str) : Str :=
  let copied := cstr val
  copied ++ List.replicate (val.length - copied.length) '\x00' ++ ['\x00']

/-- As a C string, the copy of a text without zeros is the text. -/
theorem cstr_copyBuffer {val : Str} (clean : '\x00' ∉ val) : cstr (copyBuffer val) = val := by
  rw [copyBuffer, cstr_eq_self val clean, Nat.sub_self, List.replicate_zero, List.append_nil,
    cstr_append_zero val [] clean]

theorem columnInt_of_lt {v : Int} (nonneg : 0 ≤ v) (small : v < 2 ^ 31) : columnInt v = v := by
  have kept := Int.bmod_eq_of_le (n := v) (m := 2 ^ 32) (by omega) (by omega)
  exact kept

/-- What is chosen is the id of some row, cut to 32 bits, unless there is no row. -/
theorem choose_cases (rows : List QuoteRow) (pick : Nat) :
    (rows = [] ∧ choose rows pick = -1) ∨ ∃ r ∈ rows, choose rows pick = columnInt r.id := by
  cases chosen : rows[pick % rows.length]? with
  | none =>
    left
    cases rows with
    | nil => exact ⟨rfl, rfl⟩
    | cons r rows =>
      have inside := Nat.mod_lt pick (Nat.succ_pos rows.length)
      exact absurd (List.getElem?_eq_none_iff.mp chosen) (by simpa using inside)
  | some r => exact .inr ⟨r, List.mem_of_getElem? chosen, by rw [choose, chosen]⟩

/-- Every row may be the one that is chosen. -/
theorem exists_choose {rows : List QuoteRow} {r : QuoteRow} (member : r ∈ rows) :
    ∃ pick, choose rows pick = columnInt r.id := by
  obtain ⟨i, inside, rfl⟩ := List.mem_iff_getElem.mp member
  exact ⟨i, by rw [choose, Nat.mod_eq_of_lt inside, List.getElem?_eq_getElem inside]⟩

theorem getQuoteByID_mem {t : QuotesTable} {id : Int} {quote : Str}
    (found : getQuoteByID t id = some quote) : ∃ r ∈ t.quotes.rows, r.quote = quote := by
  obtain ⟨r, row, rfl⟩ := Option.map_eq_some_iff.mp found
  exact ⟨r, KeyedTable.mem_of_lookup row, rfl⟩

theorem getQuoteAuthor_mem {t : QuotesTable} {id : Int} {author : Str}
    (found : getQuoteAuthor t id = some author) : ∃ r ∈ t.quotes.rows, r.addedBy = author := by
  obtain ⟨r, row, rfl⟩ := Option.map_eq_some_iff.mp found
  exact ⟨r, KeyedTable.mem_of_lookup row, rfl⟩

end QuotesDB
end MeepBot
