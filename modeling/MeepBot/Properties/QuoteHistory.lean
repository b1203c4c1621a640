import Mathlib.Data.List.Induction
import MeepBot.Library.Run
import MeepBot.QuotesDB

/-!
# The history of the quotes

What the readers of the quotes answer after any sequence of additions and removals.

* `history_iff`: ids are stable in every state of a run exactly when it adds fewer than 2^31
  quotes.
-/

namespace MeepBot
namespace Properties

open QuotesDB

/-- A call of one of the two writers. -/
inductive QuoteOp where
  | add (adder quote : Str)
  | remove (iQuoteID : Int)
  deriving DecidableEq

namespace QuoteOp

def apply (t : QuotesTable) : QuoteOp → QuotesTable
  | add adder quote => (addQuote t adder quote).2
  | remove iQuoteID => (removeQuote t iQuoteID).2

def isAdd : QuoteOp → Bool
  | add _ _ => true
  | remove _ => false

/-- The texts of the call are free of zeros. -/
def Clean : QuoteOp → Prop
  | add adder quote => '\x00' ∉ adder ∧ '\x00' ∉ quote
  | remove _ => True

end QuoteOp

/-- The table after the calls, from an empty one. -/
def after (ops : List QuoteOp) : QuotesTable := Run.run QuoteOp.apply ops .empty

def additions (ops : List QuoteOp) : Nat := ops.countP QuoteOp.isAdd

/-- The addition behind `pre` receives `id`: a quote with it did not exist, and does then. -/
def Receives (pre : List QuoteOp) (adder quote : Str) (id : Int) : Prop :=
  quoteExists (after pre) id = false ∧ quoteExists (after (pre ++ [.add adder quote])) id = true

/-- An addition of the text by the adder received `id`, and no removal of `id` came after it. -/
def Stands (ops : List QuoteOp) (id : Int) (adder quote : Str) : Prop :=
  ∃ pre post, ops = pre ++ .add adder quote :: post ∧ Receives pre adder quote id ∧
    .remove id ∉ post

/-- Quote ids are stable after the calls. -/
structure Stable (ops : List QuoteOp) : Prop where
  /-- Every addition receives an id, -/
  received : ∀ pre adder quote post, ops = pre ++ .add adder quote :: post →
    ∃ id, Receives pre adder quote id
  /-- no other one receives the same, -/
  once : ∀ pre adder quote post pre' adder' quote' post' id,
    ops = pre ++ .add adder quote :: post → ops = pre' ++ .add adder' quote' :: post' →
    Receives pre adder quote id → Receives pre' adder' quote' id → pre.length = pre'.length
  /-- and the three readers tell its quote for as long as it is not removed, -/
  told : ∀ id adder quote, Stands ops id adder quote →
    quoteExists (after ops) id = true ∧ getQuoteByID (after ops) id = some quote ∧
      getQuoteAuthor (after ops) id = some adder
  /-- in buffers that hold it as a C string. -/
  copies : ∀ id adder quote, Stands ops id adder quote →
    cstr (copyBuffer quote) = quote ∧ cstr (copyBuffer adder) = adder
  /-- They know of no other quote. -/
  none : ∀ id, (∀ adder quote, ¬Stands ops id adder quote) →
    quoteExists (after ops) id = false ∧ getQuoteByID (after ops) id = none ∧
      getQuoteAuthor (after ops) id = none
  /-- A removal tells whether the quote existed, -/
  removed : ∀ id, (removeQuote (after ops) id).1 = quoteExists (after ops) id
  /-- and removes it and nothing else. -/
  spared : ∀ id other, (removeQuote (after ops) id).2.quotes.lookup other =
    if other = id then .none else (after ops).quotes.lookup other
  /-- A random id is one of a quote that exists, -/
  random : ∀ pick, (after ops).quotes.rows ≠ [] →
    quoteExists (after ops) (getRandomID (after ops) pick) = true
  /-- and -1 if there is none. -/
  empty : ∀ pick, getRandomID (after ops) pick = -1 ↔ (after ops).quotes.rows = []

/-! ### One more call -/

theorem after_snoc (ops : List QuoteOp) (op : QuoteOp) :
    after (ops ++ [op]) = op.apply (after ops) := by
  rw [after, Run.run_append]
  rfl

theorem additions_append (pre post : List QuoteOp) :
    additions (pre ++ post) = additions pre + additions post := List.countP_append

theorem additions_cons_add (adder quote : Str) (ops : List QuoteOp) :
    additions (.add adder quote :: ops) = additions ops + 1 := List.countP_cons_of_pos rfl

theorem additions_cons_remove (iQuoteID : Int) (ops : List QuoteOp) :
    additions (.remove iQuoteID :: ops) = additions ops :=
  List.countP_cons_of_neg Bool.false_ne_true

theorem additions_snoc_add (ops : List QuoteOp) (adder quote : Str) :
    additions (ops ++ [.add adder quote]) = additions ops + 1 := additions_append ops _

theorem additions_snoc_remove (ops : List QuoteOp) (iQuoteID : Int) :
    additions (ops ++ [.remove iQuoteID]) = additions ops := additions_append ops _

/-- The largest id used is the number of additions. -/
theorem lastId_after {ops : List QuoteOp} (few : additions ops < 2 ^ 63) :
    (after ops).lastId = additions ops := by
  induction ops using List.reverseRecOn with
  | nil => rfl
  | append_singleton ops op ih =>
    rw [after_snoc]
    cases op with
    | add adder quote =>
      rw [additions_snoc_add] at few ⊢
      have before := ih (by omega)
      rw [QuoteOp.apply, lastId_addQuote (by omega), before]
      rfl
    | remove iQuoteID =>
      rw [additions_snoc_remove] at few ⊢
      rw [QuoteOp.apply, lastId_removeQuote, ih few]

theorem lookup_after_add {ops : List QuoteOp} (few : additions ops < 2 ^ 63 - 1)
    (adder quote : Str) (id : Int) :
    (after (ops ++ [.add adder quote])).quotes.lookup id =
      if id = additions ops + 1 then some ⟨additions ops + 1, quote, adder⟩
      else (after ops).quotes.lookup id := by
  have last : (after ops).lastId = additions ops := lastId_after (by omega)
  rw [after_snoc, QuoteOp.apply, lookup_addQuote (by omega), last]

/-- An addition receives the number of the additions up to it. -/
theorem receives_iff {pre : List QuoteOp} (few : additions pre < 2 ^ 63 - 1) (adder quote : Str)
    (id : Int) : Receives pre adder quote id ↔ id = additions pre + 1 := by
  simp only [Receives, quoteExists, lookup_after_add few]
  constructor
  · rintro ⟨free, taken⟩
    by_contra other
    rw [if_neg other, free] at taken
    cases taken
  · intro next
    have last : (after pre).lastId = additions pre := lastId_after (by omega)
    rw [if_pos next, lookup_above _ (by omega)]
    exact ⟨rfl, rfl⟩

/-! ### The rows of a history -/

theorem snoc_eq_append_cons {α : Type} {ops pre post : List α} {op a : α} :
    ops ++ [op] = pre ++ a :: post ↔
      (op = a ∧ ops = pre ∧ post = []) ∨ ∃ rest, post = rest ++ [op] ∧ ops = pre ++ a :: rest := by
  constructor
  · intro same
    rcases List.eq_nil_or_concat post with rfl | ⟨rest, last, rfl⟩
    · obtain ⟨rfl, only⟩ := List.append_inj' same rfl
      exact .inl ⟨List.singleton_inj.mp only, rfl, rfl⟩
    · rw [List.concat_eq_append, ← List.cons_append, ← List.append_assoc] at same
      obtain ⟨rfl, only⟩ := List.append_inj' same rfl
      exact .inr ⟨rest, by rw [List.concat_eq_append, only], rfl⟩
  · rintro (⟨rfl, rfl, rfl⟩ | ⟨rest, rfl, rfl⟩)
    · rfl
    · simp

/-- A quote stands exactly if there is a row that holds it. -/
theorem stands_iff {ops : List QuoteOp} (few : additions ops < 2 ^ 63) (id : Int)
    (adder quote : Str) :
    Stands ops id adder quote ↔ (after ops).quotes.lookup id = some ⟨id, quote, adder⟩ := by
  induction ops using List.reverseRecOn with
  | nil => simp [Stands, after, QuotesTable.empty, KeyedTable.lookup, KeyedTable.empty]
  | append_singleton ops op ih =>
    have before := ih (by rw [additions_append] at few; omega)
    have split_ : Stands (ops ++ [op]) id adder quote ↔
        (op = .add adder quote ∧ Receives ops adder quote id) ∨
          (Stands ops id adder quote ∧ .remove id ≠ op) := by
      simp only [Stands, snoc_eq_append_cons]
      constructor
      · rintro ⟨pre, post, ⟨rfl, rfl, rfl⟩ | ⟨rest, rfl, rfl⟩, received, stays⟩
        · exact .inl ⟨rfl, received⟩
        · rw [List.mem_append, List.mem_singleton, not_or] at stays
          exact .inr ⟨⟨pre, rest, rfl, received, stays.1⟩, stays.2⟩
      · rintro (⟨rfl, received⟩ | ⟨⟨pre, rest, rfl, received, stays⟩, other⟩)
        · exact ⟨ops, [], .inl ⟨rfl, rfl, rfl⟩, received, List.not_mem_nil⟩
        · exact ⟨pre, _, .inr ⟨rest, rfl, rfl⟩, received, by simp [stays, other]⟩
    rw [split_, before]
    cases op with
    | add adder' quote' =>
      rw [additions_snoc_add] at few
      rw [lookup_after_add (by omega), receives_iff (by omega)]
      have last : (after ops).lastId = additions ops := lastId_after (by omega)
      by_cases next : id = additions ops + 1
      · rw [if_pos next, lookup_above _ (by omega)]
        simp [next, eq_comm, and_comm]
      · simp [next]
    | remove iQuoteID =>
      rw [after_snoc, QuoteOp.apply, lookup_removeQuote]
      by_cases same : id = iQuoteID
      · simp [same]
      · simp [same]

/-! ### Stability -/

/-- A random id is the id of a row, as long as all of them fit an `int`. -/
theorem getRandomID_cases {t : QuotesTable} (fit : t.lastId < 2 ^ 31) (pick : Nat) :
    (t.quotes.rows = [] ∧ getRandomID t pick = -1) ∨
      ∃ r ∈ t.quotes.rows, getRandomID t pick = r.id := by
  rcases choose_cases t.quotes.rows pick with nothing | ⟨r, member, chosen⟩
  · exact .inl nothing
  · have used := t.used.2 r member
    exact .inr ⟨r, member, chosen.trans (columnInt_of_lt (by omega) (by omega))⟩

/-- Of two additions in one history, the later one has more additions in front of it. -/
theorem length_le_of_additions {ops pre pre' post post' : List QuoteOp} {adder quote : Str}
    (at_ : ops = pre ++ .add adder quote :: post) (at' : ops = pre' ++ post')
    (same : additions pre = additions pre') : pre'.length ≤ pre.length := by
  by_contra later
  have inside : pre ++ [.add adder quote] <+: pre' := by
    have whole : pre ++ [.add adder quote] <+: ops := ⟨post, by rw [at_]; simp⟩
    apply List.prefix_of_prefix_length_le whole ⟨post', at'.symm⟩
    rw [List.length_append, List.length_singleton]
    omega
  have more : additions (pre ++ [.add adder quote]) ≤ additions pre' :=
    inside.sublist.countP_le
  rw [additions_snoc_add] at more
  omega

theorem stable_of_few {ops : List QuoteOp} (clean : ∀ op ∈ ops, op.Clean)
    (few : additions ops < 2 ^ 31) : Stable ops := by
  have fewer {pre post : List QuoteOp} (at_ : ops = pre ++ post) : additions pre < 2 ^ 63 - 1 := by
    rw [at_, additions_append] at few
    omega
  have last : (after ops).lastId = additions ops := lastId_after (by omega)
  have stands (id : Int) (adder quote : Str) :
      Stands ops id adder quote ↔ (after ops).quotes.lookup id = some ⟨id, quote, adder⟩ :=
    stands_iff (by omega) id adder quote
  have random := getRandomID_cases (t := after ops) (by omega)
  constructor
  case received =>
    intro pre adder quote post at_
    exact ⟨_, (receives_iff (fewer at_) adder quote _).mpr rfl⟩
  case once =>
    intro pre adder quote post pre' adder' quote' post' id at_ at' received received'
    have first := (receives_iff (fewer at_) _ _ _).mp received
    have second := (receives_iff (fewer at') _ _ _).mp received'
    have same : additions pre = additions pre' := by omega
    exact Nat.le_antisymm (length_le_of_additions at' at_ same.symm)
      (length_le_of_additions at_ at' same)
  case told =>
    intro id adder quote standing
    have row := (stands id adder quote).mp standing
    simp only [quoteExists, getQuoteByID, getQuoteAuthor, row, Option.isSome_some, Option.map_some,
      and_self]
  case copies =>
    rintro id adder quote ⟨pre, post, rfl, -⟩
    obtain ⟨cleanAdder, cleanQuote⟩ := clean (.add adder quote) (by simp)
    exact ⟨cstr_copyBuffer cleanQuote, cstr_copyBuffer cleanAdder⟩
  case none =>
    intro id gone
    have absent : (after ops).quotes.lookup id = .none := by
      cases row : (after ops).quotes.lookup id with
      | none => rfl
      | some r =>
        obtain rfl := KeyedTable.key_of_lookup row
        exact absurd ((stands r.id r.addedBy r.quote).mpr row) (gone _ _)
    simp only [quoteExists, getQuoteByID, getQuoteAuthor, absent, Option.isSome_none,
      Option.map_none, and_self]
  case removed => exact removeQuote_fst (after ops)
  case spared => exact lookup_removeQuote (after ops)
  case random =>
    intro pick some
    rcases random pick with ⟨nothing, -⟩ | ⟨r, member, chosen⟩
    · exact absurd nothing some
    · rw [chosen, quoteExists, (KeyedTable.lookup_some_iff _ r.id r).mpr ⟨member, rfl⟩]
      rfl
  case empty =>
    intro pick
    rcases random pick with ⟨nothing, chosen⟩ | ⟨r, member, chosen⟩
    · exact iff_of_true chosen nothing
    · have used := ((after ops).used.2 r member).1
      exact iff_of_false (by omega) (List.ne_nil_of_mem member)

/-- The addition with the first id that does not fit: a random choice may cut it to a number
that no quote has. -/
theorem not_stable {pre : List QuoteOp} (many : additions pre = 2 ^ 31 - 1) (adder quote : Str) :
    ¬Stable (pre ++ [.add adder quote]) := by
  intro stable
  have row : (after (pre ++ [.add adder quote])).quotes.lookup (additions pre + 1) =
      some ⟨additions pre + 1, quote, adder⟩ := by
    rw [lookup_after_add (by omega), if_pos rfl]
  have member := KeyedTable.mem_of_lookup row
  obtain ⟨pick, chosen⟩ := exists_choose member
  have cut : columnInt (additions pre + 1) = -2 ^ 31 := by
    rw [many]
    decide
  have exists_ := stable.random pick (List.ne_nil_of_mem member)
  rw [getRandomID, chosen, cut, quoteExists, Option.isSome_iff_exists] at exists_
  obtain ⟨r, found⟩ := exists_
  have negative := KeyedTable.key_of_lookup found
  have positive := ((after _).used.2 r (KeyedTable.mem_of_lookup found)).1
  omega

/-- A history has an addition for each number up to that of its additions. -/
theorem exists_addition {ops : List QuoteOp} {k : Nat} (some : k + 1 ≤ additions ops) :
    ∃ pre adder quote post, ops = pre ++ .add adder quote :: post ∧ additions pre = k := by
  induction ops generalizing k with
  | nil => cases some
  | cons op ops ih =>
    cases op with
    | add adder quote =>
      rw [additions_cons_add] at some
      cases k with
      | zero => exact ⟨[], adder, quote, ops, rfl, rfl⟩
      | succ k =>
        obtain ⟨pre, adder', quote', post, rfl, before⟩ := ih (k := k) (by omega)
        refine ⟨.add adder quote :: pre, adder', quote', post, rfl, ?_⟩
        rw [additions_cons_add, before]
    | remove iQuoteID =>
      rw [additions_cons_remove] at some
      obtain ⟨pre, adder, quote, post, rfl, before⟩ := ih some
      refine ⟨.remove iQuoteID :: pre, adder, quote, post, rfl, ?_⟩
      rw [additions_cons_remove, before]

/-- For every sequence of additions and removals of texts without zeros, from an empty table: ids
are stable in every state reached exactly when fewer than 2^31 quotes are added. -/
theorem history_iff (ops : List QuoteOp) (clean : ∀ op ∈ ops, op.Clean) :
    (∀ earlier, earlier <+: ops → Stable earlier) ↔ additions ops < 2 ^ 31 := by
  constructor
  · intro all
    by_contra many
    have last : 2 ^ 31 - 1 + 1 ≤ additions ops := by omega
    obtain ⟨pre, adder, quote, post, rfl, before⟩ := exists_addition last
    exact not_stable before adder quote (all _ ⟨post, by simp⟩)
  · intro few earlier part
    have fewer : additions earlier ≤ additions ops := part.sublist.countP_le
    exact stable_of_few (fun op member => clean op (part.subset member)) (by omega)

/-- A quote is added, removed, and another one added. -/
theorem history_iff_two :
    (∀ earlier, earlier <+: [QuoteOp.add "bob".toList "hi".toList, .remove 1,
      .add "Mia".toList "ho".toList] → Stable earlier) ↔
    additions [QuoteOp.add "bob".toList "hi".toList, .remove 1,
      .add "Mia".toList "ho".toList] < 2 ^ 31 := by
  apply history_iff
  intro op member
  simp only [List.mem_cons, List.not_mem_nil, or_false] at member
  rcases member with rfl | rfl | rfl
  · exact ⟨by decide, by decide⟩
  · trivial
  · exact ⟨by decide, by decide⟩

theorem additions_replicate (n : Nat) (adder quote : Str) :
    additions (List.replicate n (.add adder quote)) = n := by
  simp [additions, List.countP_replicate, QuoteOp.isAdd]

theorem not_stable_replicate {n : Nat} (many : n = 2 ^ 31 - 1) (adder quote : Str) :
    ¬Stable (List.replicate (n + 1) (.add adder quote)) := by
  rw [List.replicate_succ']
  exact not_stable ((additions_replicate n adder quote).trans many) adder quote

/-- The same quote, added 2^31 times. -/
theorem history_not_stable :
    ¬Stable (List.replicate (2 ^ 31 - 1 + 1) (.add "bob".toList "hi".toList)) :=
  not_stable_replicate rfl _ _

end Properties
end MeepBot
