import Mathlib.Data.List.Infix
import MeepBot.QuotesDB

/-!
# Searching quotes

The text a user looks for becomes part of a `LIKE` pattern, and what it matches is compared with
what contains it.

* `search_iff`: a quote with the text is found, and no other, exactly when every quote that `LIKE`
  matches contains the text, and one is matched if any contains it.
-/

namespace MeepBot
namespace Properties

open QuotesDB
open Sql (like)

/-- The text contains `p`, up to the case of ASCII letters. -/
def Contains (p text : Str) : Prop := toLower p <:+: toLower text

instance (p text : Str) : Decidable (Contains p text) :=
  inferInstanceAs (Decidable (toLower p <:+: toLower text))

/-- A correct answer to the search for `p`. -/
structure CorrectAnswer (t : QuotesTable) (p : Str) (id : Int) : Prop where
  hit : (∃ r ∈ t.quotes.rows, Contains p r.quote) →
    ∃ r ∈ t.quotes.rows, r.id = id ∧ Contains p r.quote
  honest : ∀ r ∈ t.quotes.rows, r.id = id → Contains p r.quote
  miss : (∀ r ∈ t.quotes.rows, ¬Contains p r.quote) → id = -1

/-- Every row that `LIKE` matches is told by the id of a quote that contains `p`. An id is cut to
32 bits, and may also become the one that stands for no quote. -/
def Told (t : QuotesTable) (p : Str) : Prop :=
  ∀ r ∈ t.quotes.rows, like ('%' :: p ++ ['%']) r.quote = true →
    (∃ row ∈ t.quotes.rows, row.id = columnInt r.id ∧ Contains p row.quote) ∨
      ((∀ row ∈ t.quotes.rows, ¬Contains p row.quote) ∧ columnInt r.id = -1)

/-- `LIKE` matches some row if the text is contained in one. -/
def Noticed (t : QuotesTable) (p : Str) : Prop :=
  (∃ r ∈ t.quotes.rows, Contains p r.quote) →
    ∃ r ∈ t.quotes.rows, like ('%' :: p ++ ['%']) r.quote = true

/-- The ids of the table are numbers of type `int`, and the quotes are C strings. -/
def Ordinary (t : QuotesTable) : Prop :=
  ∀ r ∈ t.quotes.rows, r.id < 2 ^ 31 ∧ '\x00' ∉ r.quote

/-- The text is not too long for `LIKE`, and of ASCII characters that are no wildcards. -/
def Searchable (p : Str) : Prop :=
  p.length ≤ 49998 ∧ ∀ c ∈ p, c.toNat < 128 ∧ c ≠ '%' ∧ c ≠ '_'

/-! ### `LIKE` and containment -/

/-- `LIKE` and `tolower` agree on the letters of ASCII, and leave all other bytes as they are. -/
theorem folded_eq (s : Str) : Sql.folded s = (toLower s).map Char.toNat := by
  rw [Sql.folded, toLower, List.map_map]
  exact List.map_congr_left fun c _ => (toNat_toLower c).symm

theorem contains_iff_folded {p text : Str} :
    Contains p text ↔ Sql.folded p <:+: Sql.folded text := by
  rw [folded_eq, folded_eq, Contains]
  constructor
  · exact fun contains => contains.map Char.toNat
  · rintro ⟨pre, post, shape⟩
    obtain ⟨front, post, whole, first, -⟩ := List.map_eq_append_iff.mp shape.symm
    obtain ⟨pre, own, rfl, -, same⟩ := List.map_eq_append_iff.mp first
    have injective : Function.Injective Char.toNat := fun _ _ => Char.toNat_inj.mp
    rw [List.map_injective_iff.mpr injective same] at whole
    exact ⟨pre, post, whole.symm⟩

theorem searchable_iff {p : Str} : Searchable p ↔ Sql.Literal p := by
  rw [Searchable, Sql.Literal, Sql.maxPattern]
  exact and_congr_left' (by omega)

/-- A text is found just where it is contained, whatever the quotes are, if and only if `LIKE` can
look for it. -/
theorem like_iff_contains {p : Str} (clean : '\x00' ∉ p) :
    (∀ text, '\x00' ∉ text → (like ('%' :: p ++ ['%']) text = true ↔ Contains p text)) ↔
      Searchable p := by
  rw [searchable_iff, ← Sql.like_iff_contains clean]
  simp only [contains_iff_folded]
  rfl

/-! ### The search -/

/-- No row has the number that stands for no quote. -/
theorem id_ne_none {t : QuotesTable} {r : QuoteRow} (member : r ∈ t.quotes.rows) : r.id ≠ -1 := by
  have := (t.used.2 r member).1
  omega

theorem correctAnswer_iff_told (t : QuotesTable) (p : Str) :
    (∀ pick, CorrectAnswer t p (getIDByPattern t p pick)) ↔ Told t p ∧ Noticed t p := by
  constructor
  · intro all
    refine ⟨fun r member matched => ?_, fun ⟨row, at_, contains⟩ => ?_⟩
    · have kept : r ∈ t.quotes.rows.filter fun r => like ('%' :: p ++ ['%']) r.quote :=
        List.mem_filter.mpr ⟨member, matched⟩
      obtain ⟨pick, chosen⟩ := exists_choose kept
      have found := all pick
      rw [getIDByPattern, chosen] at found
      by_cases some : ∃ row ∈ t.quotes.rows, Contains p row.quote
      · exact .inl (found.hit some)
      · have none : ∀ row ∈ t.quotes.rows, ¬Contains p row.quote :=
          fun row at_ contains => some ⟨row, at_, contains⟩
        exact .inr ⟨none, found.miss none⟩
    · -- without a match the answer stands for no quote
      by_contra nothing
      have empty : (t.quotes.rows.filter fun r => like ('%' :: p ++ ['%']) r.quote) = [] :=
        List.filter_eq_nil_iff.mpr fun r member matched => nothing ⟨r, member, matched⟩
      have found := all 0
      rw [getIDByPattern, empty] at found
      obtain ⟨r, member, minus, -⟩ := found.hit ⟨row, at_, contains⟩
      exact id_ne_none member minus
  · rintro ⟨told, noticed⟩ pick
    rcases choose_cases (t.quotes.rows.filter fun r => like ('%' :: p ++ ['%']) r.quote) pick with
      ⟨nothing, chosen⟩ | ⟨r, member, chosen⟩
    · -- nothing matches, so nothing contains the text
      have none : ∀ row ∈ t.quotes.rows, ¬Contains p row.quote := by
        intro row at_ contains
        obtain ⟨r, member, matched⟩ := noticed ⟨row, at_, contains⟩
        have kept : r ∈ t.quotes.rows.filter fun r => like ('%' :: p ++ ['%']) r.quote :=
          List.mem_filter.mpr ⟨member, matched⟩
        rw [nothing] at kept
        cases kept
      rw [getIDByPattern, chosen]
      exact ⟨fun ⟨row, at_, contains⟩ => absurd contains (none row at_),
        fun row at_ same => absurd same (id_ne_none at_), fun _ => rfl⟩
    · obtain ⟨at_, matched⟩ := List.mem_filter.mp member
      rw [getIDByPattern, chosen]
      rcases told r at_ matched with ⟨row, present, same, contains⟩ | ⟨none, minus⟩
      · refine ⟨fun _ => ⟨row, present, same, contains⟩, fun other there equal => ?_,
          fun none => absurd contains (none row present)⟩
        -- two rows with one id are one row
        rwa [List.inj_on_of_nodup_map t.quotes.unique there present (equal.trans same.symm)]
      · exact ⟨fun ⟨row, present, contains⟩ => absurd contains (none row present),
          fun row present same => absurd (same.trans minus) (id_ne_none present), fun _ => minus⟩

/-- Where no id is cut, the row that is told is the one that was matched. -/
theorem told_iff_of_fit {t : QuotesTable} (fit : ∀ r ∈ t.quotes.rows, r.id < 2 ^ 31) (p : Str) :
    Told t p ↔
      ∀ r ∈ t.quotes.rows, like ('%' :: p ++ ['%']) r.quote = true → Contains p r.quote := by
  have whole : ∀ r ∈ t.quotes.rows, columnInt r.id = r.id := fun r member =>
    columnInt_of_lt (Int.le_of_lt (t.used.2 r member).1) (fit r member)
  constructor
  · intro told r member matched
    rcases told r member matched with ⟨row, present, same, contains⟩ | ⟨-, minus⟩
    · rw [whole r member] at same
      rwa [← List.inj_on_of_nodup_map t.quotes.unique present member same]
    · exact absurd ((whole r member).symm.trans minus) (id_ne_none member)
  · intro contained r member matched
    exact .inl ⟨r, member, (whole r member).symm, contained r member matched⟩

/-- In a table of one quote, the search is right if and only if the quote is matched just when it
contains the text. -/
theorem told_single (p text : Str) :
    (Told (addQuote .empty [] text).2 p ∧ Noticed (addQuote .empty [] text).2 p) ↔
      (like ('%' :: p ++ ['%']) text = true ↔ Contains p text) := by
  have rows : (addQuote .empty [] text).2.quotes.rows = [⟨1, text, []⟩] := rfl
  rw [told_iff_of_fit (by rw [rows]; simp), Noticed, rows]
  simp only [List.mem_singleton, forall_eq, exists_eq_left]
  exact Iff.intro (fun both => ⟨both.1, both.2⟩) fun same => ⟨same.mp, same.mpr⟩

/-- For every table, every text and every random order: the answer is an id whose quote contains
the text if there is one, never the id of another quote, and -1 if there is none, exactly when
every quote that `LIKE` matches is told by the id of a quote that contains the text, and one is
matched if any contains it. Where the ids fit an `int`, the first means that every quote that `LIKE`
matches contains the text; and in all of these tables the search is right exactly for the texts that
`LIKE` can look for. -/
theorem search_iff (t : QuotesTable) (p : Str) :
    ((∀ pick, CorrectAnswer t p (getIDByPattern t p pick)) ↔ Told t p ∧ Noticed t p) ∧
      ((∀ r ∈ t.quotes.rows, r.id < 2 ^ 31) → (Told t p ↔
        ∀ r ∈ t.quotes.rows, like ('%' :: p ++ ['%']) r.quote = true → Contains p r.quote)) ∧
      ('\x00' ∉ p → ((∀ table, Ordinary table → Told table p ∧ Noticed table p) ↔
        Searchable p)) := by
  refine ⟨correctAnswer_iff_told t p, fun fit => told_iff_of_fit fit p, fun clean => ?_⟩
  rw [← like_iff_contains clean]
  constructor
  · intro all text cleaner
    refine (told_single p text).mp (all _ fun r only => ?_)
    obtain rfl : r = ⟨1, text, []⟩ := List.mem_singleton.mp only
    exact ⟨(by decide : (1 : Int) < 2 ^ 31), cleaner⟩
  · intro same table ordinary
    have found (r : QuoteRow) (member : r ∈ table.quotes.rows) := same r.quote (ordinary r member).2
    refine ⟨(told_iff_of_fit (fun r member => (ordinary r member).1) p).mpr fun r member => ?_, ?_⟩
    · exact (found r member).mp
    · rintro ⟨r, member, contains⟩
      exact ⟨r, member, (found r member).mpr contains⟩

/-- A name with an underscore finds a quote it does not occur in. -/
theorem search_not_found :
    getIDByPattern (addQuote .empty "bob".toList "axb".toList).2 "a_b".toList 0 = 1 ∧
      ¬CorrectAnswer (addQuote .empty "bob".toList "axb".toList).2 "a_b".toList 1 := by
  refine ⟨by decide, fun found => ?_⟩
  exact absurd (found.honest ⟨1, "axb".toList, "bob".toList⟩ (by decide) rfl) (by decide)

end Properties
end MeepBot
