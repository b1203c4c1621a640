import MeepBot.Effects

/-!
# Quote numbers

The number in the argument of `quote` and `removequote`, and the id it is turned into.

* `quote_number_iff`: the id is the number typed exactly when the number fits an `int`.
-/

namespace MeepBot
namespace Properties

open Effect Scripts LuaBindings

/-! ### The number in a text -/

/-- The text has a mark: a number sign with a digit behind it. -/
def Numbered (params : Str) : Prop := ∃ pre c post, params = pre ++ '#' :: c :: post ∧ c.isDigit

/-- The first of these marks, the whole run of digits behind it, and the number they denote. -/
structure Typed (params digits : Str) (n : Nat) : Prop where
  place : ∃ pre post, params = pre ++ '#' :: (digits ++ post) ∧ ¬Numbered pre ∧
    ∀ c ∈ post.head?, c.isDigit = false
  numeral : Numeral digits n

theorem not_numbered_nil : ¬Numbered [] := by
  rintro ⟨_ | ⟨_, _⟩, _, _, shape, -⟩ <;> cases shape

theorem numbered_cons {c : Char} {t : Str} :
    Numbered (c :: t) ↔ (c = '#' ∧ t.takeWhile Char.isDigit ≠ []) ∨ Numbered t := by
  constructor
  · rintro ⟨_ | ⟨_, pre⟩, d, post, shape, digit⟩
    · cases shape
      left
      rw [List.takeWhile_cons_of_pos digit]
      exact ⟨rfl, List.cons_ne_nil _ _⟩
    · cases shape
      exact .inr ⟨pre, d, post, rfl, digit⟩
  · rintro (⟨rfl, some⟩ | ⟨pre, d, post, rfl, digit⟩)
    · cases t with
      | nil => exact absurd rfl some
      | cons d post =>
        refine ⟨[], d, post, rfl, ?_⟩
        by_contra other
        exact some (List.takeWhile_cons_of_neg other)
    · exact ⟨c :: pre, d, post, rfl, digit⟩

/-- A number sign ends a run of digits. -/
theorem takeWhile_sign (pre t : Str) :
    (pre ++ '#' :: t).takeWhile Char.isDigit = pre.takeWhile Char.isDigit :=
  takeWhile_append_stop _ _ _ (by simp)

/-- Every text with a mark has a first one. -/
theorem exists_typed {params : Str} (numbered : Numbered params) :
    ∃ digits n, Typed params digits n := by
  induction params with
  | nil => exact absurd numbered not_numbered_nil
  | cons c t ih =>
    by_cases here : c = '#' ∧ t.takeWhile Char.isDigit ≠ []
    · obtain ⟨rfl, some⟩ := here
      refine ⟨t.takeWhile Char.isDigit, _, ⟨[], t.dropWhile Char.isDigit, ?_, not_numbered_nil, ?_⟩,
        ⟨some, fun d member => List.mem_takeWhile_imp member, rfl⟩⟩
      · rw [List.takeWhile_append_dropWhile]
        rfl
      · intro d first
        have stop := List.head?_dropWhile_not Char.isDigit t
        rw [Option.mem_def.mp first] at stop
        exact stop
    · obtain ⟨digits, n, ⟨pre, post, rfl, unnumbered, stops⟩, numeral⟩ :=
        ih ((numbered_cons.mp numbered).resolve_left here)
      refine ⟨digits, n, ⟨c :: pre, post, rfl, fun earlier => ?_, stops⟩, numeral⟩
      rcases numbered_cons.mp earlier with ⟨rfl, some⟩ | later
      · exact here ⟨rfl, by rwa [takeWhile_sign]⟩
      · exact unnumbered later

/-- `find` goes to the first mark. -/
theorem findNumber_typed {params digits : Str} {n : Nat} (typed : Typed params digits n) :
    findNumber params = some digits := by
  obtain ⟨⟨pre, post, rfl, unnumbered, stops⟩, numeral⟩ := typed
  induction pre with
  | nil =>
    obtain ⟨run, -⟩ := run_append_stop Char.isDigit numeral.digits stops
    rw [List.nil_append, findNumber, run, if_pos ⟨rfl, numeral.nonempty⟩]
  | cons c pre ih =>
    rw [numbered_cons, not_or] at unnumbered
    rw [List.cons_append, findNumber, takeWhile_sign, if_neg unnumbered.1, ih unnumbered.2]

/-! ### The id it is turned into -/

/-- The number typed is the number used. -/
structure NumberKept [Platform] (params digits : Str) (n : Nat) : Prop where
  /-- What the commands pass is read as a number that fits an `int`. -/
  converted : ∃ x, (findNumber params).bind LuaNumber.tonumber = some x ∧
    x.inRange (-2 ^ 31) (2 ^ 31 - 1) = some (n : Int)
  byID : ∀ b, onNumber quoteGetByID none (.string digits) b =
    (.ok (QuotesDB.getQuoteByID b.quotes n), b)
  author : ∀ b, onNumber quoteGetAuthor none (.string digits) b =
    (.ok (QuotesDB.getQuoteAuthor b.quotes n), b)
  remove : ∀ b, onNumber quoteRemove false (.string digits) b =
    (.ok (QuotesDB.removeQuote b.quotes n).1,
      { b with quotes := (QuotesDB.removeQuote b.quotes n).2 })
  /-- `quote` answers with the quote that has the number. -/
  shows : ∀ b type caller text, QuotesDB.getQuoteByID b.quotes n = some text →
    ¬(UserDB.getAccessLevel b.users caller = .user ∧ type ≠ .typePM) →
    quote type caller (some params) b =
      sayOrPM type (some caller) (some ("#".toList ++ digits ++ ": ".toList ++ text)) b
  /-- `removequote` deletes the quote that has the number, and no other one. -/
  removes : ∀ b type caller, (removequote type caller (some params) b).2.quotes =
    (QuotesDB.removeQuote b.quotes n).2
  spares : ∀ b type caller, ∀ r ∈ b.quotes.quotes.rows, r.id ≠ (n : Int) →
    r ∈ (removequote type caller (some params) b).2.quotes.quotes.rows

section
variable [Platform] {digits : Str} {x : LuaNumber}

omit [Platform] in
theorem onNumber_read {α : Type} {f : LuaNumber → LuaM α} {missing : α}
    (read : LuaNumber.tonumber digits = some x) : onNumber f missing (.string digits) = f x := by
  simp only [onNumber, LuaValue.toNumber, read]

/-- Whatever is answered, the quotes are those that `RemoveQuote` leaves. -/
theorem removequote_quotes {params : Str} (number : findNumber params = some digits)
    (read : LuaNumber.tonumber digits = some x) (type : LuaValue) (caller : Str) (b : Bot) :
    (removequote type caller (some params) b).2.quotes =
      (QuotesDB.removeQuote b.quotes x.toInt).2 := by
  simp only [removequote, Option.bind_some, number, onNumber_read read, quoteGetAuthor, query_bind,
    LuaValue.toNumber, read, LuaM.need_some, quoteRemove]
  cases author : QuotesDB.getQuoteAuthor b.quotes x.toInt with
  | none =>
    -- nobody has added a quote that does not exist
    have absent : QuotesDB.quoteExists b.quotes x.toInt = false := by
      rw [QuotesDB.quoteExists, Option.map_eq_none_iff.mp author]
      rfl
    rw [QuotesDB.removeQuote, if_neg (by simp [absent])]
    exact (sayOrPM_stores type caller _ b).quotes
  | some author =>
    simp only [act_bind]
    split
    · exact (sayOrPM_stores type caller _ _).quotes
    · exact (sayOrPM_stores type caller _ _).quotes

/-- A quote that has the number in the text is the one shown. -/
theorem quote_numbered {params text : Str} (number : findNumber params = some digits)
    (sign : '#' ∈ params) (read : LuaNumber.tonumber digits = some x) {b : Bot}
    (found : QuotesDB.getQuoteByID b.quotes x.toInt = some text) {type : LuaValue} {caller : Str}
    (answers : ¬(UserDB.getAccessLevel b.users caller = .user ∧ type ≠ .typePM)) :
    quote type caller (some params) b =
      sayOrPM type (some caller) (some ("#".toList ++ digits ++ ": ".toList ++ text)) b := by
  have other : toLower params ≠ "me".toList := by
    intro me
    have lowered : '#' ∈ toLower params := List.mem_map.mpr ⟨'#', sign, rfl⟩
    rw [me] at lowered
    exact absurd lowered (by decide)
  have asked : onNumber quoteGetByID none (.string digits) b = (.ok (some text), b) := by
    rw [onNumber_read read, quoteGetByID, query_apply, found]
  have chosen : quoteToShow caller (some params) b = (.ok (some (.ofDigits digits)), b) := by
    simp only [quoteToShow, if_neg other, number]
    rw [bind_ok asked]
    rfl
  simp only [quote, LuaBindings.getAccessLevel, query_bind, if_neg answers]
  rw [bind_ok chosen]
  simp only [QuoteId.ofDigits]
  rw [bind_ok asked]
  rfl

/-- For every argument that has a number sign with a digit behind it: the number typed is the
number used, by each of the three functions and in both commands, exactly when it is below
2^31. -/
theorem quote_number_iff (params : Str) (numbered : Numbered params) :
    ∃ digits n, Typed params digits n ∧ (NumberKept params digits n ↔ n < 2 ^ 31) := by
  obtain ⟨digits, n, typed⟩ := exists_typed numbered
  refine ⟨digits, n, typed, ?_⟩
  have number := findNumber_typed typed
  obtain ⟨x, read, value⟩ := inRange_numeral typed.numeral (-2 ^ 31) (2 ^ 31 - 1)
    (by decide) (by decide)
  constructor
  · rintro ⟨⟨x', read', fits⟩, -⟩
    rw [number, Option.bind_some, read] at read'
    cases read'
    rw [value] at fits
    split at fits
    · omega
    · cases fits
  · intro small
    rw [if_pos (by omega)] at value
    have idx : x.toInt = n := by rw [LuaNumber.toInt, value]; rfl
    have sign : '#' ∈ params := by
      obtain ⟨⟨pre, post, rfl, -⟩, -⟩ := typed
      simp
    have removes (b : Bot) (type : LuaValue) (caller : Str) :
        (removequote type caller (some params) b).2.quotes =
          (QuotesDB.removeQuote b.quotes n).2 := by
      rw [removequote_quotes number read, idx]
    refine ⟨⟨x, by rw [number]; exact read, value⟩, fun b => ?_, fun b => ?_, fun b => ?_, ?_,
      removes, fun b type caller r member other => ?_⟩
    · rw [onNumber_read read, quoteGetByID, query_apply, idx]
    · rw [onNumber_read read, quoteGetAuthor, query_apply, idx]
    · rw [onNumber_read read, quoteRemove, act_apply, idx]
    · intro b type caller text found answers
      exact quote_numbered number sign read (idx ▸ found) answers
    · rw [removes]
      exact QuotesDB.mem_removeQuote_of_ne member other

end

/-- The number of a quote that exists, in front of a text. -/
theorem quote_number_iff_ten : ∃ digits n, Typed "see #10.".toList digits n ∧
    (@NumberKept lp64 "see #10.".toList digits n ↔ n < 2 ^ 31) :=
  @quote_number_iff lp64 "see #10.".toList ⟨"see ".toList, '1', "0.".toList, rfl, rfl⟩

/-- The smallest number that does not fit is turned into the smallest `int` there is. -/
theorem quote_number_not_kept :
    Typed "#2147483648".toList "2147483648".toList 2147483648 ∧
      ¬@NumberKept lp64 "#2147483648".toList "2147483648".toList 2147483648 ∧
      ∃ x, LuaNumber.tonumber "2147483648".toList = some x ∧
        @LuaNumber.toInt lp64 x = -2147483648 := by
  let _ := lp64
  have numeral : Numeral "2147483648".toList 2147483648 := ⟨by decide, by simp, by decide⟩
  obtain ⟨x, read, value⟩ := inRange_numeral numeral (-2 ^ 31) (2 ^ 31 - 1)
    (by decide) (by decide)
  rw [if_neg (by decide)] at value
  refine ⟨⟨⟨[], [], rfl, not_numbered_nil, by simp⟩, numeral⟩, ?_, x, read, ?_⟩
  · rintro ⟨⟨x', read', fits⟩, -⟩
    have same : (findNumber "#2147483648".toList).bind LuaNumber.tonumber = some x := read
    rw [same] at read'
    cases read'
    rw [value] at fits
    cases fits
  · rw [LuaNumber.toInt, value]
    rfl

end Properties
end MeepBot
