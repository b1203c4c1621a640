import MeepBot.Properties.Known
import MeepBot.Properties.QuoteNumbers

/-!
# Who changes what

In a run of the machine, every change of the tables and of the scripts' flag goes back to one
packet: a name that joins, or a message whose sender may use the command it calls.

* `quote_added`, `quote_removed`: quotes are added under the name of who adds them, and only
  removed by moderators.
* `description_set`: a description is set by the user it is about.
* `protection_set`, `warnings_set`: these by the moderators and administrators alone.
* `flag_set`: so is the flag, unless the scripts are reloaded.
-/

namespace MeepBot
namespace Properties

open Scripts Effect

variable [Platform]

/-! ### Packets that are handled in a run -/

/-- The next step of the machine gives `data` to `HandlePacket`. -/
def Handles (m : Machine) (data : Str) : Prop :=
  ¬m.client.halted = true ∧ ∃ rest, m.control = .batch (data :: rest)

/-- Some step of the run gives a string to a bot that meet the condition together. -/
def Happens (username password : Str) (inputs : List Input) (m : Machine)
    (cond : Bot → Str → Prop) : Prop :=
  ∃ earlier i later data, inputs = earlier ++ i :: later ∧
    Handles (m.run username password earlier) data ∧
    cond (m.run username password earlier).client.toBot data

theorem step_handles {username password : Str} {m : Machine} {data : Str} (handles : Handles m data)
    (i : Input) :
    (m.step username password i).client.toBot = m.client.toBot.receive data := by
  obtain ⟨running, rest, batch⟩ := handles
  simp only [Machine.step, running, batch, Bot.receive]
  rfl

/-- Between the packets, neither the tables nor the scripts change. -/
theorem step_between (username password : Str) (m : Machine) (i : Input) :
    (∃ data, Handles m data) ∨
      ((m.step username password i).client.users = m.client.users ∧
        (m.step username password i).client.quotes = m.client.quotes ∧
        (m.step username password i).client.lua = m.client.lua) := by
  have kept {b c : Bot} (stores : Bot.SameStores b c) :
      c.users = b.users ∧ c.quotes = b.quotes ∧ c.lua = b.lua :=
    ⟨stores.users, stores.quotes, stores.lua⟩
  have read := m.client.read_stores i.recv
  by_cases halted : m.client.halted = true
  · rw [Machine.step, if_pos halted]
    exact .inr ⟨rfl, rfl, rfl⟩
  cases place : m.control with
  | idle => exact .inr (by simp [Machine.step, halted, place, Bot.connect])
  | joining =>
    right
    have login := kept (m.client.login_stores username password i.recv)
    simpa [Machine.step, halted, place] using login
  | loop =>
    right
    have leave (c : Client) : (m.leave c).client.users = c.users ∧
        (m.leave c).client.quotes = c.quotes ∧ (m.leave c).client.lua = c.lua := by
      obtain ⟨-, -, users, quotes, lua⟩ := Bot.SameStores.logout c.toBot
      exact ⟨users, quotes, lua⟩
    have data := kept read
    simp only [Machine.step, if_neg halted, place]
    split
    · split
      · rw [(leave _).1, (leave _).2.1, (leave _).2.2]
        exact data
      · exact data
    · exact leave m.client
  | batch rest =>
    cases rest with
    | nil => exact .inr (by simp [Machine.step, halted, place])
    | cons data rest => exact .inl ⟨data, halted, rest, place⟩

theorem step_shipped {m : Machine} (open_ : m.client.Shipped) (username password : Str)
    (i : Input) : (m.step username password i).client.Shipped := by
  rcases step_between username password m i with ⟨data, handles⟩ | ⟨-, -, lua⟩
  · rw [step_handles handles]
    exact Bot.receive_shipped open_ data
  · rw [Bot.Shipped, lua]
    exact open_

theorem run_shipped' {m : Machine} (open_ : m.client.Shipped) (username password : Str)
    (inputs : List Input) : (m.run username password inputs).client.Shipped :=
  Run.invariant_of_inputs (Machine.step username password) (·.client.Shipped) (fun _ => True)
    (fun _ i open_ _ => step_shipped open_ username password i) inputs (fun _ _ => trivial) m open_

/-- What is said of the tables and the scripts, and was not true before the run, was made true by a
packet. -/
theorem happens_of_change {P : Bot → Prop}
    (tables : ∀ b c : Bot, c.users = b.users → c.quotes = b.quotes → c.lua = b.lua → P c → P b)
    {username password : Str} {inputs : List Input} {m : Machine} (open_ : m.client.Shipped)
    (before : ¬P m.client.toBot) (after : P (m.run username password inputs).client.toBot) :
    Happens username password inputs m fun b data =>
      b.Shipped ∧ ¬P b ∧ P (b.receive data) := by
  obtain ⟨earlier, i, later, split, still, changed⟩ := Run.exists_change
    (Machine.step username password) (P := fun m => P m.client.toBot) before after
  change P ((m.run username password earlier).step username password i).client.toBot at changed
  rcases step_between username password (m.run username password earlier) i with
    ⟨data, handles⟩ | ⟨users, quotes, lua⟩
  · rw [step_handles handles] at changed
    exact ⟨earlier, i, later, data, split, handles, run_shipped' open_ username password earlier,
      still, changed⟩
  · exact absurd (tables _ _ users quotes lua changed) still

theorem Happens.imp {username password : Str} {inputs : List Input} {m : Machine}
    {cond cond' : Bot → Str → Prop} (happens : Happens username password inputs m cond)
    (weaker : ∀ b data, cond b data → cond' b data) :
    Happens username password inputs m cond' := by
  obtain ⟨earlier, i, later, data, split, handles, met⟩ := happens
  exact ⟨earlier, i, later, data, split, handles, weaker _ data met⟩

/-! ### Calls -/

/-- The string is a message from `caller` that calls the handler `c`, whose level is `rank`, and
the caller may use it. -/
structure Calls (b : Bot) (data : Str) (c : Command) (caller params : Str) (rank : AccessLevel) :
    Prop where
  sent : ∃ p type, ChatPacket.fromString (cstr data) = some p ∧ type ∈ Bot.chatting ∧
    p.iCode = MessageCode.value type ∧ cstr p.sUsername = caller ∧
    request shipped caller (cstr p.sMessage) = .command c (LuaValue.level rank) params
  level : rank ≤ UserDB.getAccessLevel b.users caller
  enabled : .mod ≤ UserDB.getAccessLevel b.users caller ∨ b.lua.any Lua.isEnabled = true

omit [Platform] in
theorem calls_of_asksOf {b : Bot} {type type' : MessageCode} {caller caller' line params : Str}
    {c : Command} (asked : b.asksOf type caller line = .command type' caller' c params) :
    type' = type ∧ caller' = caller ∧ ∃ rank, levelFor c = some rank ∧
      request shipped caller line = .command c (LuaValue.level rank) params ∧
      Allowed b caller (LuaValue.level rank) := by
  unfold Bot.asksOf at asked
  split at asked
  · cases asked
  · split at asked
    · cases asked
    · split at asked
      next c level params found =>
        split at asked
        next allowed =>
          cases asked
          obtain ⟨rank, meant, rfl⟩ := command_of_request found
          exact ⟨rfl, rfl, rank, meant, found, allowed⟩
        next => cases asked
      next => cases asked

/-- What asks for a handler is a message from someone who may use it. -/
theorem calls_of_asks {b : Bot} {data : Str} {type : MessageCode} {caller params : Str}
    {c : Command} (asked : b.asks data = .command type caller c params) :
    ∃ rank, levelFor c = some rank ∧ Calls b data c caller params rank := by
  have line {p : ChatPacket} {type' : MessageCode}
      (parsed : ChatPacket.fromString (cstr data) = some p)
      (code : MessageCode.ofCode p.iCode = some type') (chat : type' ∈ Bot.chatting)
      (asked : b.asksOf type' (cstr p.sUsername) (cstr p.sMessage) =
        .command type caller c params) :
      ∃ rank, levelFor c = some rank ∧ Calls b data c caller params rank := by
    obtain ⟨rfl, rfl, rank, meant, found, allowed⟩ := calls_of_asksOf asked
    obtain ⟨level, enabled⟩ := allowed_level_iff.mp allowed
    exact ⟨rank, meant, ⟨p, type, parsed, chat, MessageCode.value_of_ofCode code, rfl, found⟩,
      level, enabled⟩
  unfold Bot.asks at asked
  split at asked
  · cases asked
  · split at asked
    next => cases asked
    next p parsed =>
      split at asked
      -- names that come or go, and the two kinds of messages
      case h_1 | h_2 => split at asked <;> cases asked
      case h_8 code => exact line parsed code (by decide) asked
      case h_9 code => exact line parsed code (by decide) asked
      all_goals cases asked

/-! ### Quotes -/

/-- The quotes a handler leaves behind. -/
def quotesAfter (b : Bot) (caller params : Str) : Command → QuotesTable
  | .addquote => (QuotesDB.addQuote b.quotes caller params).2
  | .removequote =>
    match (findNumber params).bind LuaNumber.tonumber with
    | none => b.quotes
    | some x => (QuotesDB.removeQuote b.quotes x.toInt).2
  | _ => b.quotes

theorem run_quotes (c : Command) (type : LuaValue) (caller params : Str) (b : Bot) :
    (run c type caller (some params) b).2.quotes = quotesAfter b caller params c := by
  have same (other : c ≠ .addquote ∧ c ≠ .removequote) :
      (run c type caller (some params) b).2.quotes = b.quotes := by
    refine run_stores (Q := fun b' => b'.quotes = b.quotes)
      (fun _ _ same kept => same.quotes.trans kept) c type caller params ?_ b rfl
    cases c with
    | addquote => exact absurd rfl other.1
    | removequote => exact absurd rfl other.2
    | protect | unprotect | unwarn => exact fun _ _ kept => kept
    | setdesc => exact fun _ _ _ kept => kept
    | warn => exact fun _ _ _ kept _ _ _ => kept
    | enablebot | disablebot => exact fun _ kept => kept
    | kick | disable | ban | unban | mute | unmute => exact fun _ _ _ _ kept => kept
    | _ => trivial
  cases c with
  | addquote => exact (sayOrPM_stores type caller _ _).quotes
  | removequote =>
    rw [quotesAfter]
    cases number : findNumber params with
    | none =>
      simp only [run, removequote, Option.bind_some, number, Option.bind_none]
      exact (sayOrPM_stores type caller _ b).quotes
    | some digits =>
      cases read : LuaNumber.tonumber digits with
      | none =>
        simp only [run, removequote, Option.bind_some, number, onNumber, LuaValue.toNumber, read]
        exact (sayOrPM_stores type caller _ b).quotes
      | some x =>
        rw [run, removequote_quotes number read]
        simp only [Option.bind_some, read]
  | _ => exact same ⟨by decide, by decide⟩

/-- The quotes after a string. -/
theorem receive_quotes {b : Bot} (open_ : b.Shipped) (data : Str) :
    (b.receive data).quotes = match b.asks data with
      | .command _ caller c params => quotesAfter b caller params c
      | _ => b.quotes := by
  have does := Bot.receive_does open_ data
  cases asked : b.asks data with
  | nothing =>
    rw [asked] at does
    exact does.quotes
  | join user msg =>
    rw [asked] at does
    rw [show b.receive data = _ from does]
  | part user =>
    rw [asked] at does
    rw [show b.receive data = _ from does]
    rfl
  | reload type caller =>
    rw [asked] at does
    obtain ⟨lua, stores, -⟩ := Bot.doReload_stores b type caller
    rw [show b.receive data = _ from does]
    exact stores.quotes
  | command type caller c params =>
    rw [asked] at does
    exact does.quotes.trans (run_quotes c _ caller params b)

/-- The id that a parameter of `removequote` stands for. -/
def DenotesId (params : Str) (id : Int) : Prop :=
  ∃ digits x, findNumber params = some digits ∧ LuaNumber.tonumber digits = some x ∧ x.toInt = id

/-- Every quote that is new after a run was added in it, by the one it names. -/
theorem quote_added {username password : Str} {inputs : List Input} {m : Machine}
    (open_ : m.client.Shipped) {r : QuoteRow} (new : r ∉ m.client.quotes.quotes.rows)
    (there : r ∈ (m.run username password inputs).client.quotes.quotes.rows) :
    Happens username password inputs m fun b data =>
      Calls b data .addquote r.addedBy r.quote .op ∧ r.id = b.quotes.lastId + 1 := by
  have changed := happens_of_change (P := fun b => r ∈ b.quotes.quotes.rows)
    (fun b c _ quotes _ member => quotes ▸ member) open_ new there
  refine changed.imp fun b data ⟨shipped, before, after⟩ => ?_
  rw [receive_quotes shipped] at after
  cases asked : b.asks data with
  | command type caller c params =>
    rw [asked] at after
    obtain ⟨rank, meant, calls⟩ := calls_of_asks asked
    cases c with
    | addquote =>
      cases meant
      simp only [quotesAfter, QuotesDB.addQuote] at after
      split at after
      · rcases KeyedTable.mem_insertOrIgnore.mp after with old | ⟨rfl, -⟩
        · exact absurd old before
        · exact ⟨calls, rfl⟩
      · exact absurd after before
    | removequote =>
      simp only [quotesAfter] at after
      split at after
      · exact absurd after before
      · exact absurd (QuotesDB.mem_removeQuote after) before
    | _ => exact absurd after before
  | _ =>
    rw [asked] at after
    exact absurd after before

omit [Platform] in
/-- Bob, Ann and Mia join, as an operator, an administrator and a moderator, and each of them has
something to say. -/
def evening : List Input :=
  let receives (text : Str) : Input := ⟨.connected 3, .data text⟩
  let lines := "1`bob`x`0`0`0\n1`ann`A`0`0`0\n1`mia`c`0`0`0\n".toList ++
    "3`bob`!addquote one`0`0`0\n3`bob`!setdesc fun`0`0`0\n".toList ++
    "3`mia`!warn bob`0`0`0\n3`ann`!protect bob`0`0`0\n3`mia`!disablebot`0`0`0\n".toList
  [receives [], receives "100`_`_`0`0`0\n".toList, receives lines] ++
    List.replicate 8 (receives [])

omit [Platform] in
/-- The bot before that evening. -/
def opened : Machine := .booted .empty .empty .calm (some loaded) .zero

omit [Platform] in
theorem opened_shipped : opened.client.Shipped := by
  rintro l ⟨⟩
  exact ⟨rfl, rfl⟩

omit [Platform] in
/-- What the evening leaves behind. -/
theorem evening_end :
    let b := (@Machine.run lp64 "MeepBot".toList "secret".toList evening opened).client
    ⟨1, "one".toList, "bob".toList⟩ ∈ b.quotes.quotes.rows ∧
      UserDB.rowOf b.users "bob".toList =
        some ⟨"bob".toList, some "fun".toList, .op, true, 1, none⟩ ∧
      b.lua.map Lua.isEnabled = some false := by decide +kernel

omit [Platform] in
/-- Bob's quote is there afterwards. -/
theorem quote_added_bob : @Happens lp64 "MeepBot".toList "secret".toList evening opened
    fun b data => @Calls lp64 b data .addquote "bob".toList "one".toList .op ∧
      (1 : Int) = b.quotes.lastId + 1 :=
  @quote_added lp64 "MeepBot".toList "secret".toList evening opened opened_shipped
    ⟨1, "one".toList, "bob".toList⟩ (by decide) evening_end.1

/-- Every quote that is gone after a run was removed in it, by its number, by a moderator. -/
theorem quote_removed {username password : Str} {inputs : List Input} {m : Machine}
    (open_ : m.client.Shipped) {r : QuoteRow} (there : r ∈ m.client.quotes.quotes.rows)
    (gone : r ∉ (m.run username password inputs).client.quotes.quotes.rows) :
    Happens username password inputs m fun b data =>
      ∃ caller params, Calls b data .removequote caller params .mod ∧ DenotesId params r.id := by
  have changed := happens_of_change (P := fun b => r ∉ b.quotes.quotes.rows)
    (fun b c _ quotes _ missing => quotes ▸ missing) open_ (fun missing => missing there) gone
  refine changed.imp fun b data ⟨shipped, before, after⟩ => ?_
  rw [receive_quotes shipped] at after
  have member := not_not.mp before
  cases asked : b.asks data with
  | command type caller c params =>
    rw [asked] at after
    obtain ⟨rank, meant, calls⟩ := calls_of_asks asked
    cases c with
    | addquote =>
      simp only [quotesAfter, QuotesDB.addQuote] at after
      split at after
      · exact absurd (KeyedTable.mem_insertOrIgnore.mpr (.inl member)) after
      · exact absurd member after
    | removequote =>
      cases meant
      simp only [quotesAfter] at after
      split at after
      next => exact absurd member after
      next x read =>
        obtain ⟨digits, number, value⟩ := Option.bind_eq_some_iff.mp read
        refine ⟨caller, params, calls, digits, x, number, value, ?_⟩
        by_contra other
        exact after (QuotesDB.mem_removeQuote_of_ne member (Ne.symm other))
    | _ => exact absurd member after
  | _ =>
    rw [asked] at after
    exact absurd member after

omit [Platform] in
/-- Mia removes it the next day. -/
theorem quote_removed_mia :
    let receives (text : Str) : Input := ⟨.connected 3, .data text⟩
    @Happens lp64 "MeepBot".toList "secret".toList
      [receives [], receives "100`_`_`0`0`0\n".toList,
        receives "3`mia`!removequote #1`0`0`0\n".toList, receives []]
      (.booted ⟨[⟨"mia".toList, none, .mod, false, 0, none⟩], by decide⟩
        ⟨⟨[⟨1, "one".toList, "bob".toList⟩], by decide⟩, 1, by decide⟩ .calm (some loaded) .zero)
      fun b data => ∃ caller params, @Calls lp64 b data .removequote caller params .mod ∧
        @DenotesId lp64 params 1 := by
  intro receives
  refine @quote_removed lp64 "MeepBot".toList "secret".toList _ _ ?_
    ⟨1, "one".toList, "bob".toList⟩ (by decide +kernel) (by decide +kernel)
  rintro l ⟨⟩
  exact ⟨rfl, rfl⟩

/-! ### Users -/

/-- What a string can do to the row of a name. -/
inductive RowChange (b : Bot) (data name : Str) : Option UserRow → Option UserRow → Prop where
  | kept (row : Option UserRow) : RowChange b data name row row
  | joined {user msg : Str} (asked : b.asks data = .join user msg)
      (own : toLower (cstr user) = toLower name) :
      RowChange b data name none (some (UserDB.newRow (cstr user) (Bot.rankOf msg)))
  | described {caller params : Str} (r : UserRow) (calls : Calls b data .setdesc caller params .op)
      (own : toLower caller = toLower name) (short : params.length ≤ maxDescLen) :
      RowChange b data name (some r) (some { r with description := some params })
  | protects {c : Command} {caller params : Str} (r : UserRow) (bProtect : Bool)
      (calls : Calls b data c caller params .admin)
      (which : c = if bProtect then .protect else .unprotect)
      (target : toLower (b.userList.resolve caller params) = toLower name) :
      RowChange b data name (some r) (some { r with isProtected := bProtect })
  | warned {caller params : Str} (r : UserRow) (calls : Calls b data .warn caller params .mod)
      (target : toLower (b.userList.resolve caller params) = toLower name)
      (low : r.accessLevel ≤ .op) (few : r.warnings < maxWarnings) :
      RowChange b data name (some r) (some (warnRow r.warnings r))
  | unwarned {caller params : Str} (r : UserRow) (calls : Calls b data .unwarn caller params .admin)
      (target : toLower (b.userList.resolve caller params) = toLower name) :
      RowChange b data name (some r) (some { r with warnings := 0 })

/-- A handler that rewrites the row of one name leaves the others as they are. -/
theorem RowChange.of_update {b : Bot} {data name key : Str} {f : UserRow → UserRow}
    {users : UserTable}
    (after : UserDB.rowOf users name = (UserDB.rowOf b.users name).map fun r =>
      if toLower name = toLower key then f r else r)
    (own : ∀ r, UserDB.rowOf b.users name = some r → toLower key = toLower name →
      RowChange b data name (some r) (some (f r))) :
    RowChange b data name (UserDB.rowOf b.users name) (UserDB.rowOf users name) := by
  rw [after]
  cases row : UserDB.rowOf b.users name with
  | none => exact .kept none
  | some r =>
    rw [Option.map_some]
    by_cases target : toLower name = toLower key
    · rw [if_pos target]
      exact own r row target.symm
    · rw [if_neg target]
      exact .kept _

/-- What a handler does to the row of a name. -/
theorem RowChange.of_command {b : Bot} {data caller params : Str} {c : Command} {rank : AccessLevel}
    (meant : levelFor c = some rank) (calls : Calls b data c caller params rank) (name : Str) :
    RowChange b data name (UserDB.rowOf b.users name)
      (UserDB.rowOf (usersAfter b caller params c) name) := by
  cases c with
  | protect =>
    cases meant
    exact of_update (UserDB.rowOf_protect ..) fun r _ target => .protects r true calls rfl target
  | unprotect =>
    cases meant
    exact of_update (UserDB.rowOf_protect ..) fun r _ target => .protects r false calls rfl target
  | unwarn =>
    cases meant
    exact of_update (UserDB.rowOf_setWarnings ..) fun r _ target => .unwarned r calls target
  | setdesc =>
    cases meant
    simp only [usersAfter]
    split
    next => exact .kept _
    next short =>
      exact of_update (UserDB.rowOf_setDescription ..) fun r _ own =>
        .described r calls own (Nat.le_of_not_lt short)
  | warn =>
    cases meant
    rcases target : UserDB.rowOf b.users (b.userList.resolve caller params) with _ | warned
    · rw [usersAfter, UserDB.getUserEntry_none target]
      exact .kept _
    · rw [usersAfter_warn target]
      split
      next accepted =>
        refine of_update (rowOf_warnUsers ..) fun r row own => ?_
        -- the row that was looked at is the one that is rewritten
        obtain rfl : r = warned := by
          apply Option.some.inj
          rw [← row, ← target, UserDB.rowOf, UserDB.rowOf, own]
        exact .warned r calls own accepted.1 accepted.2
      next => exact .kept _
  | _ => exact .kept _

theorem RowChange.of_join {b : Bot} {data user msg : Str} (asked : b.asks data = .join user msg)
    (name : Str) : RowChange b data name (UserDB.rowOf b.users name)
      (UserDB.rowOf (UserDB.addUser b.users (cstr user) (Bot.rankOf msg)) name) := by
  cases row : UserDB.rowOf b.users name with
  | some r =>
    rw [UserDB.rowOf_addUser row]
    exact .kept _
  | none =>
    by_cases own : toLower (cstr user) = toLower name
    · have absent : UserDB.rowOf b.users (cstr user) = none := by
        rw [← row, UserDB.rowOf, UserDB.rowOf, own]
      have added := UserDB.rowOf_addUser_of_absent absent (Bot.rankOf msg)
      rw [UserDB.rowOf, own, ← UserDB.rowOf] at added
      rw [added]
      exact .joined asked own
    · -- nothing is added under another name
      cases known : UserDB.rowOf b.users (cstr user) with
      | some r =>
        have same : UserDB.addUser b.users (cstr user) (Bot.rankOf msg) = b.users :=
          KeyedTable.insertOrIgnore_of_present known
        rw [same, row]
        exact .kept none
      | none =>
        have added := KeyedTable.lookup_insertOrIgnore_free
          (r := UserDB.newRow (cstr user) (Bot.rankOf msg)) known (toLower name)
        rw [if_neg fun same => own same.symm] at added
        rw [UserDB.rowOf, UserDB.addUser, added, ← UserDB.rowOf, row]
        exact .kept none

/-- What a string does to the row of a name. -/
theorem row_change {b : Bot} (open_ : b.Shipped) (data name : Str) :
    RowChange b data name (UserDB.rowOf b.users name)
      (UserDB.rowOf (b.receive data).users name) := by
  rw [Bot.receive_users open_]
  cases asked : b.asks data with
  | join user msg => exact .of_join asked name
  | command type caller c params =>
    obtain ⟨rank, meant, calls⟩ := calls_of_asks asked
    exact .of_command meant calls name
  | _ => exact .kept _

/-- What is said of the row of a name, and was not true before the run, was made true by a change of
that row. -/
theorem happens_of_row {P : UserRow → Prop} {name : Str} {username password : Str}
    {inputs : List Input} {m : Machine} (open_ : m.client.Shipped)
    (before : ¬∃ r, UserDB.rowOf m.client.users name = some r ∧ P r)
    (after : ∃ r, UserDB.rowOf (m.run username password inputs).client.users name = some r ∧ P r) :
    Happens username password inputs m fun b data => ∃ row r,
      RowChange b data name row (some r) ∧ UserDB.rowOf b.users name = row ∧
        (∀ old, row = some old → ¬P old) ∧ P r := by
  have changed := happens_of_change
    (P := fun b => ∃ r, UserDB.rowOf b.users name = some r ∧ P r)
    (fun b c users _ _ there => users ▸ there) open_ before after
  refine changed.imp fun b data ⟨shipped, before, r, row, holds⟩ => ?_
  have change := row_change shipped data name
  rw [row] at change
  exact ⟨_, r, change, rfl, fun old known met => before ⟨old, known, met⟩, holds⟩

/-- The third warning of a user who is no moderator. -/
def LastWarning (b : Bot) (data name : Str) : Prop :=
  ∃ caller params r, Calls b data .warn caller params .mod ∧
    toLower (b.userList.resolve caller params) = toLower name ∧
    UserDB.rowOf b.users name = some r ∧ r.accessLevel ≤ .op ∧ r.warnings + 1 = maxWarnings

/-- A description that is new after a run was set in it by the very user, unless a last warning has
emptied it. -/
theorem description_set {username password name text : Str} {inputs : List Input} {m : Machine}
    (open_ : m.client.Shipped)
    (before : ¬∃ r, UserDB.rowOf m.client.users name = some r ∧ r.description = some text)
    (after : ∃ r, UserDB.rowOf (m.run username password inputs).client.users name = some r ∧
      r.description = some text) :
    Happens username password inputs m fun b data =>
      (∃ caller, Calls b data .setdesc caller text .op ∧ toLower caller = toLower name ∧
        text.length ≤ maxDescLen) ∨
      (text = [] ∧ LastWarning b data name) := by
  refine (happens_of_row open_ before after).imp fun b data ⟨row, r, change, place, new, set⟩ => ?_
  cases change with
  | kept => exact absurd set (new r rfl)
  | joined => cases set
  | described old calls own short =>
    cases set
    exact .inl ⟨_, calls, own, short⟩
  | protects old | unwarned old => exact absurd set (new old rfl)
  | warned old calls target low few =>
    right
    have last : maxWarnings ≤ old.warnings + 1 := by
      by_contra more
      have same : (warnRow old.warnings old).description = old.description := by
        simp only [warnRow, if_neg more]
        split <;> rfl
      exact new old rfl (same ▸ set)
    rw [warnRow] at set
    simp only [if_pos last] at set
    cases set
    exact ⟨rfl, _, _, old, calls, target, place, low, by simp only [maxWarnings] at *; omega⟩

omit [Platform] in
/-- Bob describes himself. -/
theorem description_set_bob : @Happens lp64 "MeepBot".toList "secret".toList evening opened
    fun b data => (∃ caller, @Calls lp64 b data .setdesc caller "fun".toList .op ∧
        toLower caller = toLower "bob".toList ∧ "fun".toList.length ≤ maxDescLen) ∨
      ("fun".toList = [] ∧ @LastWarning lp64 b data "bob".toList) := by
  refine @description_set lp64 "MeepBot".toList "secret".toList "bob".toList "fun".toList evening
    opened opened_shipped ?_ ?_
  · rintro ⟨r, ⟨⟩, -⟩
  · exact ⟨_, evening_end.2.1, rfl⟩

/-- A protection that is new after a run was set in it by an administrator, unless a last warning
has set it; one that is missing was lifted by an administrator, unless the row is new. -/
theorem protection_set {username password name : Str} {value : Bool} {inputs : List Input}
    {m : Machine} (open_ : m.client.Shipped)
    (before : ¬∃ r, UserDB.rowOf m.client.users name = some r ∧ r.isProtected = value)
    (after : ∃ r, UserDB.rowOf (m.run username password inputs).client.users name = some r ∧
      r.isProtected = value) :
    Happens username password inputs m fun b data =>
      (∃ caller params, Calls b data (if value then .protect else .unprotect) caller params .admin ∧
        toLower (b.userList.resolve caller params) = toLower name) ∨
      (value = true ∧ LastWarning b data name) ∨
      (value = false ∧ UserDB.rowOf b.users name = none ∧
        ∃ user msg, b.asks data = .join user msg ∧ toLower (cstr user) = toLower name) := by
  refine (happens_of_row open_ before after).imp fun b data ⟨row, r, change, place, new, set⟩ => ?_
  cases change with
  | kept => exact absurd set (new r rfl)
  | joined asked own =>
    cases set
    exact .inr (.inr ⟨rfl, place, _, _, asked, own⟩)
  | described old | unwarned old => exact absurd set (new old rfl)
  | protects old bProtect calls which target =>
    cases set
    subst which
    exact .inl ⟨_, _, calls, target⟩
  | warned old calls target low few =>
    right; left
    have last : maxWarnings ≤ old.warnings + 1 := by
      by_contra more
      have same : (warnRow old.warnings old).isProtected = old.isProtected := by
        simp only [warnRow, if_neg more]
        split <;> rfl
      exact new old rfl (same ▸ set)
    rw [warnRow] at set
    simp only [if_pos last] at set
    cases set
    exact ⟨rfl, _, _, old, calls, target, place, low, by simp only [maxWarnings] at *; omega⟩

omit [Platform] in
/-- Ann protects him. -/
theorem protection_set_bob : @Happens lp64 "MeepBot".toList "secret".toList evening opened
    fun b data =>
      (∃ caller params, @Calls lp64 b data .protect caller params .admin ∧
        toLower (b.userList.resolve caller params) = toLower "bob".toList) ∨
      (true = true ∧ @LastWarning lp64 b data "bob".toList) ∨
      (true = false ∧ UserDB.rowOf b.users "bob".toList = none ∧
        ∃ user msg, @Bot.asks lp64 b data = .join user msg ∧
          toLower (cstr user) = toLower "bob".toList) := by
  refine @protection_set lp64 "MeepBot".toList "secret".toList "bob".toList true evening opened
    opened_shipped ?_ ?_
  · rintro ⟨r, ⟨⟩, -⟩
  · exact ⟨_, evening_end.2.1, rfl⟩

/-- A number of warnings that is new after a run is one more by a moderator, or none again by an
administrator, unless the row is new. -/
theorem warnings_set {username password name : Str} {warnings : Int} {inputs : List Input}
    {m : Machine} (open_ : m.client.Shipped)
    (before : ¬∃ r, UserDB.rowOf m.client.users name = some r ∧ r.warnings = warnings)
    (after : ∃ r, UserDB.rowOf (m.run username password inputs).client.users name = some r ∧
      r.warnings = warnings) :
    Happens username password inputs m fun b data =>
      (∃ caller params r, Calls b data .warn caller params .mod ∧
        toLower (b.userList.resolve caller params) = toLower name ∧
        UserDB.rowOf b.users name = some r ∧ r.accessLevel ≤ .op ∧ warnings = r.warnings + 1 ∧
        0 ≤ warnings ∧ warnings ≤ maxWarnings) ∨
      (warnings = 0 ∧ ∃ caller params, Calls b data .unwarn caller params .admin ∧
        toLower (b.userList.resolve caller params) = toLower name) ∨
      (warnings = 0 ∧ UserDB.rowOf b.users name = none ∧
        ∃ user msg, b.asks data = .join user msg ∧ toLower (cstr user) = toLower name) := by
  refine (happens_of_row open_ before after).imp fun b data ⟨row, r, change, place, new, set⟩ => ?_
  cases change with
  | kept => exact absurd set (new r rfl)
  | joined asked own =>
    cases set
    exact .inr (.inr ⟨rfl, place, _, _, asked, own⟩)
  | described old | protects old => exact absurd set (new old rfl)
  | unwarned old calls target =>
    cases set
    exact .inr (.inl ⟨rfl, _, _, calls, target⟩)
  | warned old calls target low few =>
    left
    by_cases out : old.warnings + 1 < 0 ∨ 5 < old.warnings + 1
    · -- the binding refuses the count, and the row keeps its own
      have same : (warnRow old.warnings old).warnings = old.warnings := by
        simp only [warnRow, if_pos out]
        split <;> rfl
      exact absurd (same ▸ set) (new old rfl)
    · have counted : (warnRow old.warnings old).warnings = old.warnings + 1 := by
        simp only [warnRow, if_neg out]
        split <;> rfl
      rw [counted] at set
      subst set
      exact ⟨_, _, old, calls, target, place, low, rfl, by omega,
        by simp only [maxWarnings] at *; omega⟩

omit [Platform] in
/-- Mia warns him. -/
theorem warnings_set_bob : @Happens lp64 "MeepBot".toList "secret".toList evening opened
    fun b data =>
      (∃ caller params r, @Calls lp64 b data .warn caller params .mod ∧
        toLower (b.userList.resolve caller params) = toLower "bob".toList ∧
        UserDB.rowOf b.users "bob".toList = some r ∧ r.accessLevel ≤ .op ∧
        (1 : Int) = r.warnings + 1 ∧ (0 : Int) ≤ 1 ∧ 1 ≤ maxWarnings) ∨
      ((1 : Int) = 0 ∧ ∃ caller params, @Calls lp64 b data .unwarn caller params .admin ∧
        toLower (b.userList.resolve caller params) = toLower "bob".toList) ∨
      ((1 : Int) = 0 ∧ UserDB.rowOf b.users "bob".toList = none ∧
        ∃ user msg, @Bot.asks lp64 b data = .join user msg ∧
          toLower (cstr user) = toLower "bob".toList) := by
  refine @warnings_set lp64 "MeepBot".toList "secret".toList "bob".toList 1 evening opened
    opened_shipped ?_ ?_
  · rintro ⟨r, ⟨⟩, -⟩
  · exact ⟨_, evening_end.2.1, rfl⟩

/-! ### The scripts -/

/-- The state of the scripts a handler leaves behind. -/
def luaAfter (b : Bot) : Command → Option Lua
  | .enablebot => b.lua.map fun l => { l with isEnabled := true }
  | .disablebot => b.lua.map fun l => { l with isEnabled := false }
  | _ => b.lua

theorem run_lua (c : Command) (type : LuaValue) (caller params : Str) (b : Bot) :
    (run c type caller (some params) b).2.lua = luaAfter b c := by
  have same (other : ∀ value, ¬Switches c value) :
      (run c type caller (some params) b).2.lua = b.lua :=
    run_stores (Q := fun b' => b'.lua = b.lua) (fun _ _ same kept => same.lua.trans kept) c type
      caller params (sets_of_changes (fun _ _ _ => id) (fun _ _ => id)
        (fun value switch => absurd switch (other value)) fun _ _ _ => id) b rfl
  cases c with
  | enablebot | disablebot => exact (Bot.SameStores.say _ _).lua
  | _ => exact same fun _ => id

/-- The string is a request to reload by someone who may. -/
def Reloads (b : Bot) (data caller : Str) : Prop :=
  b.MayReload caller ∧ ∃ type, b.asks data = .reload type caller

/-- Whether the scripts are loaded, and the flag if they are. -/
def flag (b : Bot) : Option Bool := b.lua.map Lua.isEnabled

omit [Platform] in
theorem doReload_flag (b : Bot) (type : MessageCode) (caller : Str) :
    flag (b.doReload type caller).2 = flag b ∨
      (b.MayReload caller ∧ flag (b.doReload type caller).2 ≠ some false) := by
  by_cases may : b.MayReload caller
  · obtain ⟨lua, stores, which⟩ := Bot.doReload_stores b type caller
    rw [flag, stores.lua]
    rcases which with rfl | rfl | rfl
    · exact .inr ⟨may, by simp⟩
    · exact .inr ⟨may, by simp [loaded]⟩
    · exact .inl rfl
  · left
    rw [Bot.doReload, Bot.doReloadUnder, if_neg may]

/-- Where the flag is another one after a run, a moderator has set it, or the scripts have been
reloaded by someone who may; loaded again, they are enabled. -/
theorem flag_set {username password : Str} {value : Option Bool} {inputs : List Input}
    {m : Machine} (open_ : m.client.Shipped) (before : flag m.client.toBot ≠ value)
    (after : flag (m.run username password inputs).client.toBot = value) :
    Happens username password inputs m fun b data =>
      (value = some true ∧ ∃ caller params, Calls b data .enablebot caller params .mod) ∨
      (value = some false ∧ ∃ caller params, Calls b data .disablebot caller params .mod) ∨
      (value ≠ some false ∧ ∃ caller, Reloads b data caller) := by
  have changed := happens_of_change (P := fun b => flag b = value)
    (fun b c _ _ lua set => by rw [flag, ← lua]; exact set) open_ before after
  refine changed.imp fun b data ⟨shipped, other, set⟩ => ?_
  have does := Bot.receive_does shipped data
  have kept {c : Bot} (lua : c.lua = b.lua) : flag c ≠ value := by
    rw [flag, lua]
    exact other
  cases asked : b.asks data with
  | nothing =>
    rw [asked] at does
    exact absurd set (kept does.lua)
  | join user msg | part user =>
    rw [asked] at does
    rw [show b.receive data = _ from does] at set
    exact absurd set (kept rfl)
  | reload type caller =>
    rw [asked] at does
    rw [show b.receive data = _ from does] at set
    rcases doReload_flag b type caller with same | ⟨may, on⟩
    · exact absurd (same ▸ set) other
    · exact .inr (.inr ⟨set ▸ on, caller, may, type, asked⟩)
  | command type caller c params =>
    rw [asked] at does
    obtain ⟨rank, meant, calls⟩ := calls_of_asks asked
    rw [flag, does.lua, run_lua] at set
    obtain ⟨l, open_⟩ : ∃ l, b.lua = some l := by
      rw [← Option.isSome_iff_exists, ← Option.ne_none_iff_isSome]
      intro closed
      -- no handler opens the scripts
      have none : luaAfter b c = none := by cases c <;> simp [luaAfter, closed]
      rw [none] at set
      exact other (by rw [flag, closed, ← set])
    cases c with
    | enablebot =>
      cases meant
      refine .inl ⟨?_, caller, params, calls⟩
      rw [← set, luaAfter, open_]
      rfl
    | disablebot =>
      cases meant
      refine .inr (.inl ⟨?_, caller, params, calls⟩)
      rw [← set, luaAfter, open_]
      rfl
    | _ => exact absurd set other

omit [Platform] in
/-- Mia has the last word. -/
theorem flag_set_mia : @Happens lp64 "MeepBot".toList "secret".toList evening opened
    fun b data =>
      (some false = some true ∧ ∃ caller params, @Calls lp64 b data .enablebot caller params .mod) ∨
      (some false = some false ∧
        ∃ caller params, @Calls lp64 b data .disablebot caller params .mod) ∨
      (some false ≠ some false ∧ ∃ caller, @Reloads lp64 b data caller) :=
  @flag_set lp64 "MeepBot".toList "secret".toList (some false) evening opened opened_shipped
    (by decide) evening_end.2.2

end Properties
end MeepBot
