import MeepBot.Library.Run
import MeepBot.Effects

/-!
# Privilege

Access levels over whole runs: a level that is in the table never rises, and below a
moderator a message changes nothing but the description of its sender.

* `no_escalation`: both, in every state of every run of received strings.
-/

namespace MeepBot
namespace Properties

open Scripts

variable [Platform]

/-- The string is a warning of the user `name` by a moderator. -/
def Warns (b : Bot) (data name : Str) : Prop :=
  ∃ type caller params, b.asks data = .command type caller .warn params ∧
    .mod ≤ UserDB.getAccessLevel b.users caller ∧
    toLower (b.userList.resolve caller params) = toLower name

omit [Platform] in
theorem warnRow_accessLevel (warnings : Int) (r : UserRow) :
    (warnRow warnings r).accessLevel = r.accessLevel ∨
      (warnRow warnings r).accessLevel = .banned := by
  unfold warnRow
  simp only
  split <;> split <;> cases r.isProtected <;> simp

omit [Platform] in
/-- A handler leaves every row in the table, and changes its level by a warning at most. -/
theorem rowOf_usersAfter {b : Bot} {name : Str} {r : UserRow}
    (row : UserDB.rowOf b.users name = some r) (caller params : Str) (c : Command) :
    ∃ r', UserDB.rowOf (usersAfter b caller params c) name = some r' ∧
      (r'.accessLevel = r.accessLevel ∨ r'.accessLevel = .banned ∧ r.accessLevel ≤ .op ∧
        c = .warn ∧ toLower (b.userList.resolve caller params) = toLower name) := by
  have keeps (f : UserRow → UserRow) (level : (f r).accessLevel = r.accessLevel)
      {users : UserTable} (after : UserDB.rowOf users name = (UserDB.rowOf b.users name).map f) :
      ∃ r', UserDB.rowOf users name = some r' ∧ r'.accessLevel = r.accessLevel :=
    ⟨f r, by rw [after, row, Option.map_some], level⟩
  have same : ∃ r', UserDB.rowOf b.users name = some r' ∧ r'.accessLevel = r.accessLevel :=
    ⟨r, row, rfl⟩
  have weaken {users : UserTable}
      (kept : ∃ r', UserDB.rowOf users name = some r' ∧ r'.accessLevel = r.accessLevel) :
      ∃ r', UserDB.rowOf users name = some r' ∧ (r'.accessLevel = r.accessLevel ∨
        r'.accessLevel = .banned ∧ r.accessLevel ≤ .op ∧
          c = .warn ∧ toLower (b.userList.resolve caller params) = toLower name) :=
    kept.imp fun _ h => ⟨h.1, .inl h.2⟩
  cases c with
  | protect | unprotect =>
    exact weaken (keeps _ (by split <;> rfl) (UserDB.rowOf_protect ..))
  | unwarn => exact weaken (keeps _ (by split <;> rfl) (UserDB.rowOf_setWarnings ..))
  | setdesc =>
    simp only [usersAfter]
    split
    · exact weaken same
    · exact weaken (keeps _ (by split <;> rfl) (UserDB.rowOf_setDescription ..))
  | warn =>
    rw [usersAfter]
    cases known : UserDB.getUserEntry b.users (b.userList.resolve caller params) with
    | none => exact weaken same
    | some entry =>
      dsimp only
      split
      next accepted =>
        rw [rowOf_warnUsers, row, Option.map_some]
        refine ⟨_, rfl, ?_⟩
        -- the entry that was checked is that of the row, if the row is the target's
        by_cases target : toLower name = toLower (b.userList.resolve caller params)
        · rw [if_pos target]
          apply (warnRow_accessLevel entry.warnings r).imp_right
          intro banned
          have own : UserDB.getUserEntry b.users (b.userList.resolve caller params) =
              some (UserDB.entryOf r) :=
            UserDB.getUserEntry_of_row (by rw [UserDB.rowOf, ← target]; exact row)
          rw [known] at own
          cases own
          exact ⟨banned, accepted.1, rfl, target.symm⟩
        · rw [if_neg target]
          exact .inl rfl
      next => exact weaken same
  | _ => exact weaken same

/-- What one string does to a row. -/
theorem row_step {b : Bot} (open_ : b.Shipped) (data : Str) {name : Str} {r : UserRow}
    (row : UserDB.rowOf b.users name = some r) :
    ∃ r', UserDB.rowOf (b.receive data).users name = some r' ∧
      (r'.accessLevel = r.accessLevel ∨
        r'.accessLevel = .banned ∧ r.accessLevel ≤ .op ∧ Warns b data name) := by
  rw [Bot.receive_users open_]
  cases asked : b.asks data with
  | join user msg => exact ⟨r, UserDB.rowOf_addUser row, .inl rfl⟩
  | command type caller c params =>
    obtain ⟨r', after, level⟩ := rowOf_usersAfter row caller params c
    refine ⟨r', after, level.imp_right ?_⟩
    rintro ⟨banned, low, rfl, target⟩
    obtain ⟨rank, meant, allowed⟩ := allowed_of_asks asked
    cases meant
    exact ⟨banned, low, type, caller, params, asked, (allowed_level_iff.mp allowed).1, target⟩
  | _ => exact ⟨r, row, .inl rfl⟩

/-- A row stays, and its level never rises, over a run. -/
theorem row_run {b : Bot} (open_ : b.Shipped) (datas : List Str) {name : Str} {r : UserRow}
    (row : UserDB.rowOf b.users name = some r) :
    ∃ r', UserDB.rowOf (Run.run Bot.receive datas b).users name = some r' ∧
      (r'.accessLevel = r.accessLevel ∨ r'.accessLevel = .banned) := by
  -- a banned row stays banned, since a warning can only ban it again
  induction datas generalizing b r with
  | nil => exact ⟨r, row, .inl rfl⟩
  | cons data datas ih =>
    obtain ⟨next, after, level⟩ := row_step open_ data row
    obtain ⟨last, ends, levels⟩ := ih (Bot.receive_shipped open_ data) after
    refine ⟨last, ends, ?_⟩
    rcases levels with same | banned
    · rw [same]
      exact level.imp_right fun h => h.1
    · exact .inr banned

/-- A name that comes leaves every row as it is. -/
theorem row_join {b : Bot} (open_ : b.Shipped) {data name : Str} {r : UserRow} {p : ChatPacket}
    (row : UserDB.rowOf b.users name = some r)
    (parsed : ChatPacket.fromString (cstr data) = some p)
    (joins : p.iCode = MessageCode.userList.value ∨ p.iCode = MessageCode.userJoin.value) :
    UserDB.rowOf (b.receive data).users name = some r := by
  rw [Bot.receive_users open_]
  rcases asks_join parsed joins with asked | ⟨user, msg, asked⟩
  · rw [asked]
    exact row
  · rw [asked]
    exact UserDB.rowOf_addUser row

omit [Platform] in
/-- Of the handlers for less than a moderator, only `setdesc` changes the table. -/
theorem usersAfter_of_low {b : Bot} {caller params : Str} {c : Command} {rank : AccessLevel}
    (meant : levelFor c = some rank) (low : rank < .mod) :
    usersAfter b caller params c = b.users ∨
      usersAfter b caller params c = (UserDB.setDescription b.users caller params).2 := by
  cases c with
  | setdesc =>
    rw [usersAfter]
    split
    · exact .inl rfl
    · exact .inr rfl
  | protect | unprotect | warn | unwarn =>
    cases meant
    exact absurd low (by decide)
  | _ => exact .inl rfl

/-- A message from below a moderator changes the description of its sender at most. -/
theorem message_step {b : Bot} (open_ : b.Shipped) {data : Str} {p : ChatPacket}
    {type : MessageCode}
    (parsed : ChatPacket.fromString (cstr data) = some p) (code : p.iCode = type.value)
    (message : type = .roomMessage ∨ type = .userPM)
    (low : UserDB.getAccessLevel b.users (cstr p.sUsername) < .mod) :
    (b.receive data).users = b.users ∨
      ∃ desc, (b.receive data).users =
        (UserDB.setDescription b.users (cstr p.sUsername) desc).2 := by
  rw [Bot.receive_users open_]
  by_cases halted : b.halted = true
  · rw [asks_of_halted halted]
    exact .inl rfl
  · rw [asks_message parsed code message halted]
    rcases asksOf_cases b type (cstr p.sUsername) (cstr p.sMessage) with
      none | none | ⟨c, params, rank, asked, meant, allowed⟩
    · rw [none]
      exact .inl rfl
    · rw [none]
      exact .inl rfl
    · rw [asked]
      -- the handler is open to its caller, so its level is below a moderator's too
      have below := lt_of_le_of_lt (allowed_level_iff.mp allowed).1 low
      exact (usersAfter_of_low meant below).imp_right fun same => ⟨params, same⟩

/-- In every state of every run: a string leaves the rows of the table in place, with their
levels; a level only falls, to `LEVEL_BANNED`, by a moderator's warning of a user of level
`LEVEL_OP` at most; names that come change no row. Below a moderator, a message changes the
description of its sender at most. -/
theorem no_escalation (b : Bot) (open_ : b.Shipped) (before : List Str) (data : Str) :
    (∀ name r, UserDB.rowOf (Run.run Bot.receive before b).users name = some r →
      (∃ r', UserDB.rowOf ((Run.run Bot.receive before b).receive data).users name = some r' ∧
        r'.accessLevel ≤ r.accessLevel ∧
        (r'.accessLevel = r.accessLevel ∨ r'.accessLevel = .banned ∧ r.accessLevel ≤ .op ∧
          Warns (Run.run Bot.receive before b) data name) ∧
        ∀ p, ChatPacket.fromString (cstr data) = some p →
          p.iCode = MessageCode.userList.value ∨ p.iCode = MessageCode.userJoin.value → r' = r) ∧
      ∀ after, ∃ r', UserDB.rowOf (Run.run Bot.receive (before ++ after) b).users name = some r' ∧
        (r'.accessLevel = r.accessLevel ∨ r'.accessLevel = .banned)) ∧
    ∀ p type, ChatPacket.fromString (cstr data) = some p → p.iCode = MessageCode.value type →
      type = .roomMessage ∨ type = .userPM →
      UserDB.getAccessLevel (Run.run Bot.receive before b).users (cstr p.sUsername) < .mod →
      ((Run.run Bot.receive before b).receive data).users = (Run.run Bot.receive before b).users ∨
        ∃ desc, ((Run.run Bot.receive before b).receive data).users =
          (UserDB.setDescription (Run.run Bot.receive before b).users (cstr p.sUsername)
            desc).2 := by
  have reached : (Run.run Bot.receive before b).Shipped :=
    Run.invariant_of_inputs Bot.receive Bot.Shipped (fun _ => True)
      (fun _ data open_ _ => Bot.receive_shipped open_ data) before (fun _ _ => trivial) b open_
  refine ⟨fun name r row => ⟨?_, fun after => ?_⟩, fun p type parsed code message low =>
    message_step reached parsed code message low⟩
  · obtain ⟨r', next, level⟩ := row_step reached data row
    refine ⟨r', next, ?_, level, fun p parsed joins => ?_⟩
    · rcases level with same | ⟨banned, -⟩
      · exact same.le
      · rw [banned]
        exact AccessLevel.banned_le _
    · rw [row_join reached row parsed joins] at next
      exact (Option.some.inj next).symm
  · rw [Run.run_append]
    exact row_run reached after row

omit [Platform]

/-- Bob joins as an operator and comes back with an administrator's mark. -/
theorem no_escalation_bob : ∃ r, UserDB.rowOf (Run.run (@Bot.receive lp64)
      ["1`bob`x`0`0`0".toList, "1`BOB`A`0`0`0".toList]
      { Bot.initial .empty .empty .calm with lua := some loaded }).users "bob".toList = some r ∧
    r.accessLevel ≤ .op := by
  let _ := lp64
  have joined : UserDB.rowOf (Run.run Bot.receive ["1`bob`x`0`0`0".toList]
      { Bot.initial .empty .empty .calm with lua := some loaded }).users "bob".toList =
      some (UserDB.newRow "bob".toList .op) := by decide
  obtain ⟨r, after, low, -⟩ := ((no_escalation
    { Bot.initial .empty .empty .calm with lua := some loaded }
    (by rintro l ⟨⟩; exact ⟨rfl, rfl⟩) ["1`bob`x`0`0`0".toList]
    "1`BOB`A`0`0`0".toList).1 _ _ joined).1
  exact ⟨r, after, low⟩

end Properties
end MeepBot
