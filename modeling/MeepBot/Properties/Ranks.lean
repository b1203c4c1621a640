import MeepBot.HandlePacket

/-!
# Ranks

The level of the row that is created for a user who is seen for the first time.

* `rank_iff`: it is the one of the rank mark if and only if a message without a bar does not
  start with a mark, and the position behind a bar is not cut to that of another rank's mark.
-/

namespace MeepBot
namespace Properties

/-- The character right behind the first bar of a text is one of the marks. -/
def Marked (marks text : Str) : Prop :=
  '|' ∈ text ∧ ∃ mark ∈ marks, text[text.idxOf '|' + 1]? = some mark

/-- A level that is told from the rank mark of a text alone. -/
structure RankByMark (text : Str) (level : AccessLevel) : Prop where
  admin : level = .admin ↔ Marked Bot.adminRanks text
  mod : level = .mod ↔ Marked Bot.modRanks text
  other : level = Bot.defaultAccessLevel ↔
    ¬Marked Bot.adminRanks text ∧ ¬Marked Bot.modRanks text

/-- Two characters stand for the same rank, or both for none. -/
def SameRank (c d : Char) : Prop :=
  (c ∈ Bot.adminRanks ↔ d ∈ Bot.adminRanks) ∧ (c ∈ Bot.modRanks ↔ d ∈ Bot.modRanks)

/-- A text without a bar does not start with a mark; in a text with one, the position behind
it, cut to 32 bits, has a character of the same rank as the one behind the bar. -/
def RankSafe (text : Str) : Prop :=
  if '|' ∈ text then
    SameRank (text.getD ((text.idxOf '|' + 1) % 2 ^ 32) '\x00')
      (text.getD (text.idxOf '|' + 1) '\x00')
  else text.headD '\x00' ∉ Bot.adminRanks ++ Bot.modRanks

/-! ### The rank of one character -/

/-- The rank the two loops give to a character. -/
def rankOfChar (c : Char) : AccessLevel :=
  if c ∈ Bot.modRanks then .mod
  else if c ∈ Bot.adminRanks then .admin else Bot.defaultAccessLevel

/-- The character the loops look at: behind the bar, or the first one. -/
def examined (msg : Str) : Char :=
  if '|' ∈ msg then msg.getD ((msg.idxOf '|' + 1) % 2 ^ 32) '\x00' else msg.headD '\x00'

theorem rankOf_eq (msg : Str) : Bot.rankOf msg = rankOfChar (examined msg) := by
  rw [Bot.rankOf, StringUtil.findFirstOf_zero, rankOfChar, examined]
  by_cases bar : '|' ∈ msg
  · simp only [if_pos bar]
  · simp only [if_neg bar]
    rw [List.getD_eq_getElem?_getD, ← List.head?_eq_getElem?, List.headD_eq_head?_getD]

theorem not_mod_of_admin {c : Char} (admin : c ∈ Bot.adminRanks) : c ∉ Bot.modRanks := by
  have cases : c = 'A' ∨ c = 'C' := by simpa [Bot.adminRanks] using admin
  rcases cases with rfl | rfl <;> decide

theorem rankOfChar_admin (c : Char) : rankOfChar c = .admin ↔ c ∈ Bot.adminRanks := by
  unfold rankOfChar
  split
  next mod => exact iff_of_false (by decide) fun admin => not_mod_of_admin admin mod
  next =>
    split
    next admin => exact iff_of_true rfl admin
    next other => exact iff_of_false (by decide) other

theorem rankOfChar_mod (c : Char) : rankOfChar c = .mod ↔ c ∈ Bot.modRanks := by
  unfold rankOfChar
  split
  next mod => exact iff_of_true rfl mod
  next other =>
    refine iff_of_false ?_ other
    split <;> decide

theorem rankOfChar_default (c : Char) :
    rankOfChar c = Bot.defaultAccessLevel ↔ c ∉ Bot.adminRanks ∧ c ∉ Bot.modRanks := by
  rw [← rankOfChar_admin, ← rankOfChar_mod]
  have cases : rankOfChar c = .admin ∨ rankOfChar c = .mod ∨
      rankOfChar c = Bot.defaultAccessLevel := by
    unfold rankOfChar
    split
    · exact .inr (.inl rfl)
    · split
      · exact .inl rfl
      · exact .inr (.inr rfl)
  rcases cases with rank | rank | rank <;> rw [rank] <;> decide

/-! ### The rank of a message -/

/-- The terminator behind a text that ends in the bar is no mark. -/
theorem marked_iff (marks text : Str) (noZero : '\x00' ∉ marks) :
    Marked marks text ↔ '|' ∈ text ∧ text.getD (text.idxOf '|' + 1) '\x00' ∈ marks := by
  apply and_congr_right
  intro bar
  rw [List.getD_eq_getElem?_getD]
  cases text[text.idxOf '|' + 1]? with
  | none => simp [noZero]
  | some c => simp

theorem rankByMark_rankOf_iff (msg : Str) : RankByMark msg (Bot.rankOf msg) ↔ RankSafe msg := by
  have admin := marked_iff Bot.adminRanks msg (by decide)
  have mod := marked_iff Bot.modRanks msg (by decide)
  -- the level by the mark of the character that is examined
  have level : RankByMark msg (Bot.rankOf msg) ↔
      (examined msg ∈ Bot.adminRanks ↔ Marked Bot.adminRanks msg) ∧
        (examined msg ∈ Bot.modRanks ↔ Marked Bot.modRanks msg) := by
    rw [rankOf_eq, ← rankOfChar_admin, ← rankOfChar_mod]
    constructor
    · exact fun rank => ⟨rank.admin, rank.mod⟩
    · rintro ⟨ofAdmin, ofMod⟩
      refine ⟨ofAdmin, ofMod, ?_⟩
      rw [rankOfChar_default, ← rankOfChar_admin, ← rankOfChar_mod, ofAdmin, ofMod]
  rw [level, admin, mod, RankSafe, examined]
  by_cases bar : '|' ∈ msg
  · simp only [bar, if_true, true_and]
    exact Iff.rfl
  · simp only [bar, if_false, false_and, iff_false, List.mem_append, not_or]

/-- For every bot, every packet that lists a user or tells of one who joins, with whatever
message, and a name that has no row: the row that is created has the level of the rank mark if
and only if the message is safe. -/
theorem rank_iff [Platform] (b : Bot) (p : ChatPacket)
    (code : p.iCode = MessageCode.userList.value ∨ p.iCode = MessageCode.userJoin.value)
    (named : p.sUsername ≠ blank) (absent : UserDB.rowOf b.users (cstr p.sUsername) = none) :
    (∃ r, UserDB.rowOf (b.dispatch p).users (cstr p.sUsername) = some r ∧
      RankByMark p.sMessage r.accessLevel) ↔ RankSafe p.sMessage := by
  have row : UserDB.rowOf (b.dispatch p).users (cstr p.sUsername) =
      some (UserDB.newRow (cstr p.sUsername) (Bot.rankOf p.sMessage)) := by
    rw [Bot.dispatch_join b code named]
    exact UserDB.rowOf_addUser_of_absent absent _
  rw [← rankByMark_rankOf_iff, row]
  constructor
  · rintro ⟨_, ⟨⟩, rank⟩
    exact rank
  · exact fun rank => ⟨_, rfl, rank⟩

/-- A moderator joins. -/
theorem rank_iff_mod : ∃ r, UserDB.rowOf (@Bot.dispatch lp64 (.initial .empty .empty .calm)
      (.message .userJoin "bob".toList "x|c".toList)).users "bob".toList = some r ∧
    RankByMark "x|c".toList r.accessLevel := by
  let _ := lp64
  refine (rank_iff (.initial .empty .empty .calm) (.message .userJoin "bob".toList "x|c".toList)
    (.inr rfl) (by decide) rfl).mpr ?_
  rw [RankSafe, if_pos (by decide)]
  exact ⟨Iff.rfl, Iff.rfl⟩

/-- A message without a bar makes an administrator of whoever joins. -/
theorem rank_given_away : ∃ (b : Bot) (data : Str) (p : ChatPacket) (r : UserRow),
    @ChatPacket.fromString lp64 (cstr data) = some p ∧
    p.iCode = MessageCode.userJoin.value ∧ p.sUsername ≠ blank ∧
    UserDB.rowOf b.users (cstr p.sUsername) = none ∧
    UserDB.rowOf (@Bot.handlePacket lp64 b data).users (cstr p.sUsername) = some r ∧
    ¬RankByMark p.sMessage r.accessLevel := by
  let _ := lp64
  refine ⟨.initial .empty .empty .calm, "1`bob`Apple`0`0`0".toList,
    .message .userJoin "bob".toList "Apple".toList,
    UserDB.newRow "bob".toList .admin, by decide, rfl, by decide, rfl, by decide, fun rank => ?_⟩
  -- the text has no bar, so it has no mark
  have marked := rank.admin.mp rfl
  exact absurd marked.1 (by decide)

end Properties
end MeepBot
