import MeepBot.HandlePacket
import MeepBot.Scripts.Specs

/-!
# What a received string does

A string handed to `HandlePacket` asks for one thing at most: a name is put into the user
list or taken out, the scripts are reloaded, or one handler of the shipped scripts is called.
Everything else leaves the stores as they are. The effect of a handler on the users table is
a function of the table, so that the invariants are derived from it and not from the handlers.
-/

namespace MeepBot

open Scripts Effect

/-- What a string asks for. -/
inductive Ask where
  /-- a reply at most -/
  | nothing
  | join (user msg : Str)
  | part (user : Str)
  | reload (type : MessageCode) (caller : Str)
  /-- a handler that the caller may use -/
  | command (type : MessageCode) (caller : Str) (c : Command) (params : Str)
  deriving DecidableEq

namespace Bot

/-- The scripts, where they are open, are the shipped ones. -/
def Shipped (b : Bot) : Prop := ∀ l ∈ b.lua, l.registry = shipped ∧ l.responds = true

/-- What a chat line asks for. -/
def asksOf (b : Bot) (type : MessageCode) (caller line : Str) : Ask :=
  if line = "!reload".toList then .reload type caller
  else if b.lua = none then .nothing
  else match request shipped caller line with
    | .command c level params =>
      if Allowed b caller level then .command type caller c params else .nothing
    | _ => .nothing

/-- What a received string asks for. -/
def asks [Platform] (b : Bot) (data : Str) : Ask :=
  if b.halted then .nothing
  else match ChatPacket.fromString (cstr data) with
    | none => .nothing
    | some p =>
      match MessageCode.ofCode p.iCode with
      | some .userList | some .userJoin =>
        if p.sUsername = blank then .nothing else .join p.sUsername p.sMessage
      | some .userPart | some .userKick | some .userDisable | some .userBan | some .idleKick =>
        .part p.sUsername
      | some .roomMessage => b.asksOf .roomMessage (cstr p.sUsername) (cstr p.sMessage)
      | some .userPM => b.asksOf .userPM (cstr p.sUsername) (cstr p.sMessage)
      | _ => .nothing

end Bot

/-- A line asks for nothing, a reload, or a handler that its sender may use. -/
theorem asksOf_cases (b : Bot) (type : MessageCode) (caller line : Str) :
    b.asksOf type caller line = .nothing ∨ b.asksOf type caller line = .reload type caller ∨
      ∃ c params rank, b.asksOf type caller line = .command type caller c params ∧
        levelFor c = some rank ∧ Allowed b caller (LuaValue.level rank) := by
  unfold Bot.asksOf
  split
  · exact .inr (.inl rfl)
  · split
    · exact .inl rfl
    · split
      next c level params found =>
        split
        next allowed =>
          -- every level of the shipped table is a number, the one of its handler
          obtain ⟨rank, meant, rfl⟩ := command_of_request found
          exact .inr (.inr ⟨c, params, rank, rfl, meant, allowed⟩)
        next => exact .inl rfl
      next => exact .inl rfl

/-- A handler is only called for who may use it. -/
theorem allowed_of_asks [Platform] {b : Bot} {data : Str} {type : MessageCode} {caller params : Str}
    {c : Command} (asked : b.asks data = .command type caller c params) :
    ∃ rank, levelFor c = some rank ∧ Allowed b caller (LuaValue.level rank) := by
  have line {type' : MessageCode} {caller' text : Str}
      (asked : b.asksOf type' caller' text = .command type caller c params) :
      ∃ rank, levelFor c = some rank ∧ Allowed b caller (LuaValue.level rank) := by
    rcases asksOf_cases b type' caller' text with none | none | ⟨c', params', rank, found, meant⟩
    · rw [none] at asked; cases asked
    · rw [none] at asked; cases asked
    · rw [found] at asked
      cases asked
      exact ⟨rank, meant⟩
  unfold Bot.asks at asked
  split at asked
  · cases asked
  · split at asked
    next => cases asked
    next p parsed =>
      split at asked
      -- names that come or go, and the two kinds of messages
      case h_1 | h_2 => split at asked <;> cases asked
      case h_8 | h_9 => exact line asked
      all_goals cases asked

/-- A message asks for what its line asks for. -/
theorem asks_message [Platform] {b : Bot} {data : Str} {p : ChatPacket} {type : MessageCode}
    (parsed : ChatPacket.fromString (cstr data) = some p) (code : p.iCode = type.value)
    (message : type = .roomMessage ∨ type = .userPM) (running : ¬b.halted = true) :
    b.asks data = b.asksOf type (cstr p.sUsername) (cstr p.sMessage) := by
  rcases message with rfl | rfl <;>
    simp [Bot.asks, running, parsed, code, MessageCode.ofCode_value]

theorem asks_of_halted [Platform] {b : Bot} (halted : b.halted = true) (data : Str) :
    b.asks data = .nothing := by rw [Bot.asks, if_pos halted]

/-- Names that come ask for a new row at most. -/
theorem asks_join [Platform] {b : Bot} {data : Str} {p : ChatPacket}
    (parsed : ChatPacket.fromString (cstr data) = some p)
    (joins : p.iCode = MessageCode.userList.value ∨ p.iCode = MessageCode.userJoin.value) :
    b.asks data = .nothing ∨ ∃ user msg, b.asks data = .join user msg := by
  by_cases halted : b.halted = true
  · exact .inl (asks_of_halted halted data)
  · by_cases anonymous : p.sUsername = blank
    · left
      rcases joins with code | code <;>
        simp [Bot.asks, halted, parsed, code, MessageCode.ofCode_value, anonymous]
    · refine .inr ⟨p.sUsername, p.sMessage, ?_⟩
      rcases joins with code | code <;>
        simp [Bot.asks, halted, parsed, code, MessageCode.ofCode_value, anonymous]

/-! ### Handlers -/

/-- Where no class of texts is asked for, the stored texts do not matter. -/
theorem closed_all {Q : Bot → Prop} {caller : Str} (say : ∀ b str, Q b → Q (b.say str))
    (pm : ∀ b str, Q b → Q (b.pm caller str))
    (world : ∀ b world, Q b → Q { b with world := world }) : Closed TextClass.all caller Q where
  say b str _ := say b str
  pm b str _ := pm b str
  values b _ := world b _
  picks b _ := world b _
  description _ _ _ _ := trivial
  count _ _ _ _ := ⟨trivial, trivial⟩
  quote _ _ _ _ := ⟨trivial, trivial⟩
  name _ _ _ _ := trivial
  help _ _ _ _ _ _ _ := trivial

/-- A property of the stores is kept by everything that is said. -/
theorem closed_of_stores {Q : Bot → Prop} (stores : ∀ b c, Bot.SameStores b c → Q b → Q c)
    (caller : Str) : Closed TextClass.all caller Q :=
  closed_all (fun b str => stores _ _ (Bot.SameStores.say b str))
    (fun b str => stores _ _ (Bot.SameStores.pm b caller str))
    fun b _ => stores b _ ⟨rfl, rfl, rfl, rfl, rfl⟩

/-- The handlers that change the users table. -/
def ChangesUsers : Command → Prop
  | .protect | .unprotect | .setdesc | .warn | .unwarn => True
  | _ => False

/-- The handlers that set the flag, and to what. -/
def Switches : Command → Bool → Prop
  | .enablebot, value => value = true
  | .disablebot, value => value = false
  | _, _ => False

/-- The handlers that pass a packet to `Write` without asking for the login. -/
def Moderates : Command → Prop
  | .kick | .disable | .ban | .unban | .mute | .unmute => True
  | _ => False

/-- What a handler asks of a property, told by the part of the bot that the handler changes. -/
theorem sets_of_changes {T : TextClass} {caller : Str} {Q : Bot → Prop} {c : Command}
    (users : ChangesUsers c → ∀ b users, Q b → Q { b with users := users })
    (quotes : ∀ b quotes, Q b → Q { b with quotes := quotes })
    (switch : ∀ value, Switches c value → ∀ b, Q b →
      Q { b with lua := b.lua.map fun l => { l with isEnabled := value } })
    (writes : Moderates c → ∀ b p, Q b → Q (b.write p).2) : Sets T caller Q c := by
  cases c with
  | protect | unprotect | unwarn => exact fun b _ kept => users trivial b _ kept
  | setdesc => exact fun b _ _ kept => users trivial b _ kept
  | warn => exact fun b _ _ kept _ _ _ => users trivial b _ kept
  | addquote => exact fun b _ _ kept => quotes b _ kept
  | removequote => exact fun b _ kept => quotes b _ kept
  | enablebot => exact fun b kept => switch true rfl b kept
  | disablebot => exact fun b kept => switch false rfl b kept
  | kick | disable | ban | unban | mute | unmute =>
    exact fun b _ _ _ kept => writes trivial b _ kept
  | _ => trivial

/-- A handler keeps a property of the stores that its own changes keep. -/
theorem run_stores [Platform] {Q : Bot → Prop} (stores : ∀ b c, Bot.SameStores b c → Q b → Q c)
    (c : Command) (type : LuaValue) (caller params : Str) (sets : Sets TextClass.all caller Q c)
    (b : Bot) (holds : Q b) : Q (run c type caller (some params) b).2 := by
  have keeps : Keeps Q (run c type caller (some params)) fun _ => True :=
    run_keeps (closed_of_stores stores caller) trivial c sets (fun _ _ _ => trivial) type trivial
  exact keeps.state holds

theorem sayOrPM_stores (type : LuaValue) (caller text : Str) (b : Bot) :
    Bot.SameStores b (sayOrPM type (some caller) (some text) b).2 := by
  have keeps : Keeps (Bot.SameStores b) (sayOrPM type (some caller) (some text)) fun _ => True :=
    sayOrPM_keeps (closed_of_stores (fun _ _ same kept => kept.trans same) caller) type
      (Nat.le_refl _) trivial
  exact keeps.state (Bot.SameStores.refl b)

/-- The row of a warned user who had `warnings` warnings. -/
def warnRow (warnings : Int) (r : UserRow) : UserRow :=
  let r := if warnings + 1 < 0 ∨ 5 < warnings + 1 then r else { r with warnings := warnings + 1 }
  if maxWarnings ≤ warnings + 1 then
    { r with
      description := some []
      accessLevel := if r.isProtected then r.accessLevel else .banned
      isProtected := true }
  else r

theorem rowOf_warnUsers (users : UserTable) (target other : Str) (warnings : Int) :
    UserDB.rowOf (warnUsers users target warnings) other =
      (UserDB.rowOf users other).map fun r =>
        if toLower other = toLower target then warnRow warnings r else r := by
  have counted : UserDB.rowOf (if warnings + 1 < 0 ∨ 5 < warnings + 1 then users
      else (UserDB.setWarnings users target (warnings + 1)).2) other =
      (UserDB.rowOf users other).map fun r =>
        if toLower other = toLower target then
          if warnings + 1 < 0 ∨ 5 < warnings + 1 then r else { r with warnings := warnings + 1 }
        else r := by
    by_cases out : warnings + 1 < 0 ∨ 5 < warnings + 1
    · simp only [if_pos out, ite_self, Option.map_id']
    · simp only [if_neg out, UserDB.rowOf_setWarnings]
  unfold warnUsers
  by_cases last : maxWarnings ≤ warnings + 1
  · simp only [if_pos last, UserDB.rowOf_protect, UserDB.rowOf_setAccessLevel,
      UserDB.rowOf_setDescription, counted, Option.map_map]
    congr 1
    funext r
    by_cases same : toLower other = toLower target
    · -- the setter may refuse the count, and the protection keeps the level
      by_cases out : warnings + 1 < 0 ∨ 5 < warnings + 1
      · simp only [warnRow, Function.comp_apply, if_pos same, if_pos last, if_pos out]
        cases locked : r.isProtected <;> simp [same]
      · simp only [warnRow, Function.comp_apply, if_pos same, if_pos last, if_neg out]
        cases locked : r.isProtected <;> simp [same]
    · simp [same]
  · simp only [if_neg last, counted]
    congr 1
    funext r
    by_cases same : toLower other = toLower target
    · simp [warnRow, same, last]
    · simp [same]

/-- The users table a handler leaves behind. -/
def usersAfter (b : Bot) (caller params : Str) : Command → UserTable
  | .protect => (UserDB.protect b.users (b.userList.resolve caller params) true).2
  | .unprotect => (UserDB.protect b.users (b.userList.resolve caller params) false).2
  | .setdesc =>
    if maxDescLen < params.length then b.users
    else (UserDB.setDescription b.users caller params).2
  | .warn =>
    match UserDB.getUserEntry b.users (b.userList.resolve caller params) with
    | none => b.users
    | some entry =>
      if entry.level ≤ .op ∧ entry.warnings < maxWarnings then
        warnUsers b.users (b.userList.resolve caller params) entry.warnings
      else b.users
  | .unwarn => (UserDB.setWarnings b.users (b.userList.resolve caller params) 0).2
  | _ => b.users

theorem usersAfter_warn {b : Bot} {caller params : Str} {r : UserRow}
    (row : UserDB.rowOf b.users (b.userList.resolve caller params) = some r) :
    usersAfter b caller params .warn =
      if r.accessLevel ≤ .op ∧ r.warnings < maxWarnings then
        warnUsers b.users (b.userList.resolve caller params) r.warnings
      else b.users := by
  rw [usersAfter, UserDB.getUserEntry_of_row row]
  rfl

theorem setProtection_users (bProtect : Bool) (usage done : String) (type : LuaValue)
    (caller params : Str) (b : Bot) :
    (setProtection bProtect usage done type caller (some params) b).2.users =
      (UserDB.protect b.users (b.userList.resolve caller params) bProtect).2 :=
  (sayOrPM_stores type caller _ _).users

theorem setdesc_users (type : LuaValue) (caller params : Str) (b : Bot) :
    (setdesc type caller (some params) b).2.users =
      if maxDescLen < params.length then b.users
      else (UserDB.setDescription b.users caller params).2 := by
  by_cases long : maxDescLen < params.length
  · simp only [setdesc, if_pos long]
    exact (sayOrPM_stores type caller _ b).users
  · simp only [setdesc, if_neg long]
    exact (sayOrPM_stores type caller _ _).users

theorem unwarn_users (type : LuaValue) (caller params : Str) (b : Bot) :
    (unwarn type caller (some params) b).2.users =
      (UserDB.setWarnings b.users (b.userList.resolve caller params) 0).2 := by
  obtain ⟨target, resolved⟩ : ∃ target, b.userList.resolve caller params = target := ⟨_, rfl⟩
  cases row : UserDB.rowOf b.users target with
  | none =>
    -- the handler stops here, and the update would find no row
    simp only [unwarn, LuaBindings.resolve, LuaBindings.getUserEntry, query_bind, resolved,
      UserDB.getUserEntry_none row]
    rw [(sayOrPM_stores type caller _ b).users]
    exact (KeyedTable.update_of_absent row).symm
  | some r =>
    -- zero is a count that the binding passes on
    simp only [unwarn, LuaBindings.resolve, LuaBindings.getUserEntry, query_bind, resolved,
      UserDB.getUserEntry_of_row row]
    rw [bind_ok (setWarnings_eq target 0 b), (sayOrPM_stores type caller _ _).users]
    rfl

theorem warn_users (type : LuaValue) (caller params : Str) (b : Bot) :
    (warn type caller (some params) b).2.users = usersAfter b caller params .warn := by
  obtain ⟨target, resolved⟩ : ∃ target, b.userList.resolve caller params = target := ⟨_, rfl⟩
  simp only [usersAfter, resolved]
  cases known : UserDB.getUserEntry b.users target with
  | none =>
    simp only [warn, LuaBindings.resolve, LuaBindings.getUserEntry, query_bind, resolved, known]
    exact (sayOrPM_stores type caller _ b).users
  | some entry =>
    have count : UserDB.getWarnings b.users target = entry.warnings := by
      rw [UserDB.getWarnings, known]
    by_cases accepted : entry.level ≤ .op ∧ entry.warnings < maxWarnings
    · rw [warn_accepted resolved known accepted.1 accepted.2]
      simp only [if_pos accepted]
      exact (sayOrPM_stores type caller _ _).users
    · simp only [if_neg accepted]
      by_cases staff : .op < entry.level
      · simp only [warn, LuaBindings.resolve, LuaBindings.getUserEntry, query_bind, resolved, known,
          if_pos staff]
        exact (sayOrPM_stores type caller _ b).users
      · have many : maxWarnings ≤ entry.warnings := by
          by_contra few
          exact accepted ⟨not_lt.mp staff, not_le.mp few⟩
        simp only [warn, LuaBindings.resolve, LuaBindings.getUserEntry, LuaBindings.getWarnings,
          query_bind, resolved, known, if_neg staff, count, if_pos many]
        exact (sayOrPM_stores type caller _ b).users

theorem run_users [Platform] (c : Command) (type : LuaValue) (caller params : Str) (b : Bot) :
    (run c type caller (some params) b).2.users = usersAfter b caller params c := by
  have same (other : ¬ChangesUsers c) :
      (run c type caller (some params) b).2.users = b.users :=
    run_stores (Q := fun b' => b'.users = b.users)
      (fun _ _ same kept => same.users.trans kept) c type caller params
      (sets_of_changes (fun changes => absurd changes other) (fun _ _ => id) (fun _ _ _ => id)
        fun _ _ _ => id) b rfl
  cases c with
  | protect => exact setProtection_users true "Usage: !protect [username]" _ ..
  | unprotect => exact setProtection_users false "Usage: !unProtect [username]" _ ..
  | setdesc => exact setdesc_users ..
  | warn => exact warn_users ..
  | unwarn => exact unwarn_users ..
  | _ => exact same id

/-- No handler touches the connection or the list of users. -/
theorem run_outside [Platform] (c : Command) (type : LuaValue) (caller params : Str) (b : Bot) :
    (run c type caller (some params) b).2.socket = b.socket ∧
      (run c type caller (some params) b).2.userList = b.userList := by
  refine run_stores (Q := fun b' => b'.socket = b.socket ∧ b'.userList = b.userList)
    (fun _ _ same kept => ⟨same.socket.trans kept.1, same.userList.trans kept.2⟩) c type caller
    params ?_ b ⟨rfl, rfl⟩
  exact sets_of_changes (fun _ _ _ => id) (fun _ _ => id) (fun _ _ _ => id) fun _ _ _ => id

theorem run_shipped [Platform] (c : Command) (type : LuaValue) (caller params : Str) (b : Bot)
    (open_ : b.Shipped) : (run c type caller (some params) b).2.Shipped := by
  have flag (lua : Option Lua) (value : Bool)
      (open_ : ∀ l ∈ lua, l.registry = shipped ∧ l.responds = true) :
      ∀ l ∈ lua.map fun l => { l with isEnabled := value },
        l.registry = shipped ∧ l.responds = true := by
    intro l member
    obtain ⟨old, present, rfl⟩ := Option.map_eq_some_iff.mp member
    exact open_ old present
  refine run_stores (Q := Bot.Shipped) (fun b c same kept => ?_) c type caller params ?_ b open_
  · rw [Bot.Shipped, same.lua]
    exact kept
  · exact sets_of_changes (fun _ _ _ => id) (fun _ _ => id) (fun value _ b => flag b.lua value)
      fun _ _ _ => id

/-! ### Strings -/

namespace Bot

variable [Platform]

/-- The effect of what a string asks for on the stores. -/
def Does (b : Bot) (ask : Ask) (c : Bot) : Prop :=
  match ask with
  | .nothing => SameStores b c
  | .join user msg =>
    c = { b with
      userList := b.userList.add user
      users := UserDB.addUser b.users (cstr user) (rankOf msg) }
  | .part user => c = b.part user
  | .reload type caller => c = (b.doReload type caller).2
  | .command type caller handler params =>
    SameStores (run handler (.typeOf type) caller (some params) b).2 c

omit [Platform] in
/-- An empty line is no line to the scripts, and asks for nothing either way. -/
theorem respond_line {H : Type} (reg : Registry H)
    (call : H → LuaValue → Str → Option Str → LuaM Unit) (type : LuaValue) (user line : Str)
    (b : Bot) : Scripts.respond reg call type user (if line.length = 0 then none else some line) b =
      Scripts.respond reg call type user (some line) b := by
  by_cases empty : line = []
  · rw [empty, List.length_nil, if_pos rfl, respond_eq, request, if_pos (.inr (by decide))]
    rfl
  · rw [if_neg (by simpa using empty)]

/-- A call of the scripts, and the farewell where a signal ends it. -/
theorem callRespond_stores (b : Bot) (l : Lua) (type : MessageCode) (user line : Str) :
    SameStores (Scripts.respond l.registry run (.typeOf type) user (some line) b).2
      (b.callRespond l type user line).2 := by
  unfold callRespond callRespondUnder
  rw [respond_line]
  rcases Scripts.respond l.registry run (.typeOf type) user (some line) b with
    ⟨(msg | name) | _, c⟩
  · exact SameStores.refl c
  · exact SameStores.crash c name
  · exact SameStores.refl c

theorem respond_does {b : Bot} (open_ : b.Shipped) (type : MessageCode) (caller line : Str) :
    b.Does (b.asksOf type caller line) (b.respond type caller line).2 := by
  unfold asksOf Bot.respond Bot.respondUnder
  by_cases reload : line = "!reload".toList
  · rw [if_pos reload, if_pos reload]
    rfl
  rw [if_neg reload, if_neg reload]
  cases scripts : b.lua with
  | none =>
    -- at most the complaint about the broken scripts
    rw [if_pos rfl]
    simp only [Does]
    split
    · exact SameStores.say b _
    · exact SameStores.refl b
  | some l =>
    obtain ⟨registry, responds⟩ := open_ l scripts
    rw [if_neg (by simp)]
    simp only [responds, if_true]
    have called := callRespond_stores b l type caller line
    rw [registry, respond_eq] at called
    cases asked : request shipped caller line with
    | ignored =>
      rw [asked] at called
      exact called
    | nameless =>
      rw [asked] at called
      exact called
    | unlevelled cmd =>
      rw [asked] at called
      exact (sayOrPM_stores _ caller _ b).trans called
    | command c level params =>
      rw [asked] at called
      by_cases allowed : Allowed b caller level
      · simp only [if_pos allowed] at called ⊢
        exact called
      · simp only [if_neg allowed] at called ⊢
        exact called

/-- One received string does what it asks for. -/
theorem receive_does {b : Bot} (open_ : b.Shipped) (data : Str) :
    b.Does (b.asks data) (b.receive data) := by
  unfold asks receive
  by_cases halted : b.halted = true
  · rw [if_pos halted, if_pos halted]
    exact SameStores.refl b
  rw [if_neg halted, if_neg halted]
  cases parsed : ChatPacket.fromString (cstr data) with
  | none =>
    rw [handlePacket_rejected b parsed]
    exact SameStores.refl b
  | some p =>
    rw [handlePacket_accepted b parsed]
    simp only
    unfold dispatch dispatchUnder
    cases code : MessageCode.ofCode p.iCode with
    | none => exact SameStores.refl b
    | some m =>
      cases m with
      | userList | userJoin =>
        simp only
        by_cases anonymous : p.sUsername = blank
        · rw [if_pos anonymous, join, if_pos anonymous]
          exact SameStores.say b _
        · rw [if_neg anonymous, join, if_neg anonymous]
          rfl
      | userPart | userKick | userDisable | userBan | idleKick => rfl
      | userMute =>
        simp only
        split
        · exact (SameStores.write b _).trans (SameStores.say _ _)
        · exact SameStores.refl b
      | clientIdle =>
        simp only
        split
        · exact SameStores.write b _
        · exact SameStores.refl b
      -- the two codes whose message goes to the scripts
      | roomMessage => exact respond_does open_ _ _ _
      | userPM => exact respond_does open_ _ _ _
      | _ => exact SameStores.refl b

/-! ### The stores after a string -/

omit [Platform] in
theorem SameStores.reply (b : Bot) (type : MessageCode) (caller text : Str) :
    SameStores b (b.reply type caller text) := by
  unfold Bot.reply
  split
  · exact SameStores.pm b caller text
  · exact SameStores.say b text

omit [Platform] in
/-- A reload changes the state of the scripts alone, and only for who may reload. -/
theorem doReload_stores (b : Bot) (type : MessageCode) (caller : Str) :
    ∃ lua, SameStores { b with lua := lua } (b.doReload type caller).2 ∧
      (lua = none ∨ lua = some Scripts.loaded ∨ lua = b.lua) := by
  unfold doReload doReloadUnder
  split
  · obtain ⟨told, announced⟩ :
        ∃ told, b.reply type caller "Reloading Lua scripts...".toList = told := ⟨_, rfl⟩
    have same := SameStores.reply b type caller "Reloading Lua scripts...".toList
    rw [announced] at same ⊢
    obtain ⟨socket, userList, users, quotes, -⟩ := same
    -- whatever comes of the loading, the stores are those of the announcement
    have outcome : ∃ lua, SameStores { b with lua := lua } told.reloadLua.2 ∧
        (lua = none ∨ lua = some Scripts.loaded) := by
      unfold reloadLua reloadLuaUnder
      cases told.world.reloads.head.1 with
      | ran => exact ⟨some Scripts.loaded, ⟨socket, userList, users, quotes, rfl⟩, .inr rfl⟩
      | failed err => exact ⟨none, ⟨socket, userList, users, quotes, rfl⟩, .inl rfl⟩
      | unreadable =>
        refine ⟨none, SameStores.trans ?_ (SameStores.crash _ _), .inl rfl⟩
        exact ⟨socket, userList, users, quotes, rfl⟩
    obtain ⟨lua, stores, which⟩ := outcome
    refine ⟨lua, ?_, which.imp_right .inl⟩
    simp only [reloadLuaUnder_zero]
    rcases result : told.reloadLua with ⟨_ | ret, c⟩
    · rw [result] at stores
      exact stores
    · rw [result] at stores
      exact stores.trans (SameStores.reply c type caller _)
  · exact ⟨b.lua, SameStores.refl b, .inr (.inr rfl)⟩

/-- Whatever the scripts are, a chat line leaves the stores to a reload, or to one handler. -/
theorem respond_stores (b : Bot) (type : MessageCode) (caller line : Str) :
    (∃ lua, SameStores { b with lua := lua } (b.respond type caller line).2) ∨
      ∃ c params, SameStores (run c (.typeOf type) caller (some params) b).2
        (b.respond type caller line).2 := by
  unfold Bot.respond Bot.respondUnder
  split
  · obtain ⟨lua, stores, -⟩ := doReload_stores b type caller
    exact .inl ⟨lua, stores⟩
  split
  next =>
    refine .inl ⟨b.lua, ?_⟩
    split
    · exact SameStores.say b _
    · exact SameStores.refl b
  next l _ =>
    split
    · have called := callRespond_stores b l type caller line
      rw [respond_eq] at called
      cases asked : request l.registry caller line with
      | ignored | nameless =>
        rw [asked] at called
        exact .inl ⟨b.lua, called⟩
      | unlevelled cmd =>
        rw [asked] at called
        exact .inl ⟨b.lua, (sayOrPM_stores _ caller _ b).trans called⟩
      | command c level params =>
        rw [asked] at called
        by_cases allowed : Allowed b caller level
        · simp only [if_pos allowed] at called
          exact .inr ⟨c, params, called⟩
        · simp only [if_neg allowed] at called
          exact .inl ⟨b.lua, called⟩
    · -- the state of the scripts is closed
      obtain ⟨socket, userList, users, quotes, -⟩ := SameStores.say b
        "Ph'nglui mglw'nafh Cthulhu R'lyeh wgah'nagl fh'tagn! I'a! I'a!".toList
      exact .inl ⟨none, socket, userList, users, quotes, rfl⟩

/-- Whatever the scripts are, a packet adds a name, takes one out, or does what a chat line
can do to the stores. -/
theorem dispatch_stores (b : Bot) (p : ChatPacket) :
    (∃ lua, SameStores { b with lua := lua } (b.dispatch p)) ∨
      (b.dispatch p = { b with
        userList := b.userList.add p.sUsername
        users := UserDB.addUser b.users (cstr p.sUsername) (rankOf p.sMessage) }) ∨
      b.dispatch p = b.part p.sUsername ∨
      ∃ type caller c params, SameStores (run c type caller (some params) b).2 (b.dispatch p) := by
  have same {c : Bot} (stores : SameStores b c) : ∃ lua, SameStores { b with lua := lua } c :=
    ⟨b.lua, stores⟩
  have made := dispatch_cases b p
  generalize b.dispatch p = c at made ⊢
  cases made with
  | join =>
    by_cases anonymous : p.sUsername = blank
    · rw [join, if_pos anonymous]
      exact .inl (same (SameStores.say b _))
    · rw [join, if_neg anonymous]
      exact .inr (.inl rfl)
  | part => exact .inr (.inr (.inl rfl))
  | muted => exact .inl (same ((SameStores.write b _).trans (SameStores.say _ _)))
  | idle => exact .inl (same (SameStores.write b _))
  | chat =>
    rcases b.respond_stores _ (cstr p.sUsername) (cstr p.sMessage) with
      reload | ⟨c, params, stores⟩
    · exact .inl reload
    · exact .inr (.inr (.inr ⟨_, _, c, params, stores⟩))
  | ignored => exact .inl (same (SameStores.refl b))

theorem handlePacket_socket (b : Bot) (data : Str) : (b.handlePacket data).socket = b.socket := by
  cases parsed : ChatPacket.fromString (cstr data) with
  | none => rw [handlePacket_rejected b parsed]
  | some p =>
    rw [handlePacket_accepted b parsed]
    rcases dispatch_stores b p with ⟨lua, stores⟩ | joined | parted | ⟨type, caller, c, params, ran⟩
    · exact stores.socket
    · rw [joined]
    · rw [parted, part]
    · exact ran.socket.trans (run_outside c type caller params b).1

/-- The users table after a string. -/
theorem receive_users {b : Bot} (open_ : b.Shipped) (data : Str) :
    (b.receive data).users = match b.asks data with
      | .join user msg => UserDB.addUser b.users (cstr user) (rankOf msg)
      | .command _ caller c params => usersAfter b caller params c
      | _ => b.users := by
  have does := receive_does open_ data
  cases asked : b.asks data with
  | nothing =>
    rw [asked] at does
    exact does.users
  | join user msg =>
    rw [asked] at does
    rw [show b.receive data = _ from does]
  | part user =>
    rw [asked] at does
    rw [show b.receive data = _ from does]
    rfl
  | reload type caller =>
    rw [asked] at does
    obtain ⟨lua, stores, -⟩ := doReload_stores b type caller
    rw [show b.receive data = _ from does]
    exact stores.users
  | command type caller c params =>
    rw [asked] at does
    exact does.users.trans (run_users c _ caller params b)

/-- The shipped scripts are never replaced by others. -/
theorem receive_shipped {b : Bot} (open_ : b.Shipped) (data : Str) : (b.receive data).Shipped := by
  have does := receive_does open_ data
  cases asked : b.asks data with
  | nothing =>
    rw [asked] at does
    rw [Shipped, does.lua]
    exact open_
  | join user msg =>
    rw [asked] at does
    rw [show b.receive data = _ from does]
    exact open_
  | part user =>
    rw [asked] at does
    rw [show b.receive data = _ from does]
    exact open_
  | reload type caller =>
    rw [asked] at does
    obtain ⟨lua, stores, which⟩ := doReload_stores b type caller
    rw [show b.receive data = _ from does, Shipped, stores.lua]
    rcases which with rfl | rfl | rfl
    · simp
    · rintro l ⟨⟩
      exact ⟨rfl, rfl⟩
    · exact open_
  | command type caller c params =>
    rw [asked] at does
    rw [Shipped, does.lua]
    exact run_shipped c _ caller params b open_

end Bot
end MeepBot
