import MeepBot.TextClass
import MeepBot.Scripts.Shipped

/-!
# What the handlers preserve

One rule for each handler: it keeps a property of the bot that speaking and drawing keep, if
its own change of the store keeps it. The rules are parametric in the class of texts the
property asks for, so that one rule serves for the wire as well as for the tables. A rule
without an error condition says that the handler returns.
-/

namespace MeepBot
namespace Scripts

open Effect LuaBindings

/-- `SQLITE_MAX_LENGTH`, the longest text the database holds. -/
def limit : Nat := 1000000000

/-- The longest text the handlers say: two texts of the database, and what is said around them. -/
def speech : Nat := 2000001000

/-- The help texts of the tables are in the class. -/
def Helps (T : TextClass) {H : Type} (reg : Registry H) : Prop :=
  ∀ cmd text, reg.help.lookup cmd = some text → T.holds 100 text

/-- A property kept by everything a handler does on behalf of `caller`, changes of the
stores apart, under which the stored texts are in the class. -/
structure Closed (T : TextClass) (caller : Str) (P : Bot → Prop) : Prop where
  say : ∀ b str, T.holds speech str → P b → P (b.say str)
  pm : ∀ b str, T.holds speech str → P b → P (b.pm caller str)
  values : ∀ b values, P b → P { b with world := { b.world with values := values } }
  picks : ∀ b picks, P b → P { b with world := { b.world with picks := picks } }
  description : ∀ b, P b → ∀ r ∈ b.users.rows, T.holds limit (r.description.getD [])
  count : ∀ b, P b → ∀ r ∈ b.users.rows,
    T.holds 21 (decimalInt r.warnings) ∧ T.holds 21 (decimalInt (r.warnings + 1))
  quote : ∀ b, P b → ∀ r ∈ b.quotes.quotes.rows, T.holds limit r.quote ∧ T.holds limit r.addedBy
  name : ∀ b, P b → ∀ n ∈ b.userList, T.holds limit n
  help : ∀ b, P b → ∀ l ∈ b.lua, Helps T l.registry

/-- The only signal a handler raises is the one for a remainder by zero. -/
def Arithmetic : Abort → Prop
  | .error _ => True
  | .signal name => name = "Floating point exception".toList

/-- The handler keeps `P`, and stops with an error only if `err` allows it. -/
abbrev Keeps (P : Bot → Prop) (m : LuaM Unit) (err : Abort → Prop) : Prop :=
  Maintains P m (fun _ => True) err

section
variable {T : TextClass} {caller : Str} {P : Bot → Prop} {err : Abort → Prop}

/-! ### The functions the handlers call -/

theorem say_keeps (closed : Closed T caller P) {n : Nat} {text : Str} (short : n ≤ speech)
    (ok : T.holds n text) : Keeps P (say (some text)) err :=
  Maintains.change (fun b => closed.say b text (T.mono ok short)) trivial

/-- A reply keeps the property if its text is in the class. -/
theorem sayOrPM_keeps (closed : Closed T caller P) (type : LuaValue) {n : Nat} {text : Str}
    (short : n ≤ speech) (ok : T.holds n text) :
    Keeps P (sayOrPM type (some caller) (some text)) err := by
  apply Maintains.seqAny (Maintains.query fun _ _ => trivial)
  intro enabled
  apply Maintains.ite (fun _ => Maintains.returns trivial)
  intro _
  refine Maintains.ite (fun _ => ?_) fun _ => say_keeps closed short ok
  exact Maintains.change (fun b => closed.pm b text (T.mono ok short)) trivial

theorem sayLiteral_keeps (closed : Closed T caller P) (type : LuaValue) {chars : Str}
    (short : shortPlain 100 chars = true) :
    Keeps P (sayOrPM type (some caller) (some (String.ofList chars).toList)) err :=
  sayOrPM_keeps closed type (by decide) (T.literal short)

theorem resolve_keeps (closed : Closed T caller P) (atCaller : T.holds limit caller) {params : Str}
    (atParams : T.holds limit params) :
    Maintains P (resolve caller params) (fun target => T.holds limit target) err :=
  Maintains.query fun b hb => UserList.resolve_of_all atCaller atParams (closed.name b hb)

theorem resolveParams_keeps (closed : Closed T caller P) (atCaller : T.holds limit caller)
    {params : Str} (atParams : T.holds limit params) :
    Maintains P (resolveParams caller (some params))
      (fun r => ∃ target, r = some target ∧ T.holds limit target) err :=
  Maintains.query fun b hb =>
    ⟨_, rfl, UserList.resolve_of_all atCaller atParams (closed.name b hb)⟩

theorem rowOf_mem {users : UserTable} {name : Str} {r : UserRow}
    (row : UserDB.rowOf users name = some r) : r ∈ users.rows := KeyedTable.mem_of_lookup row

theorem getUserEntry_keeps (closed : Closed T caller P) (name : Str) :
    Maintains P (getUserEntry name) (fun e => ∀ entry ∈ e, T.holds limit entry.desc) err := by
  apply Maintains.query
  intro b hb entry found
  obtain ⟨r, row, rfl⟩ := Option.map_eq_some_iff.mp found
  exact closed.description b hb r (rowOf_mem row)

/-- The count of warnings can be printed, also with one more. -/
theorem getWarnings_keeps (closed : Closed T caller P) (name : Str) :
    Maintains P (getWarnings name)
      (fun w => T.holds 21 (decimalInt w) ∧ T.holds 21 (decimalInt (w + 1))) err := by
  apply Maintains.query
  intro b hb
  cases row : UserDB.rowOf b.users name with
  | none =>
    have absent : UserDB.getWarnings b.users name = -1 := by
      rw [UserDB.getWarnings, UserDB.getUserEntry_none row]
    rw [absent]
    exact ⟨T.int (by decide), T.int (by decide)⟩
  | some r =>
    rw [UserDB.getWarnings_of_row row]
    exact closed.count b hb r (rowOf_mem row)

theorem getAccessLevel_keeps (name : Str) :
    Maintains P (getAccessLevel name) (fun _ => True) err := Maintains.query fun _ _ => trivial

/-- A setter keeps the property if the table it leaves behind does. -/
theorem setUsers_keeps {f : UserTable → Bool × UserTable}
    (sets : ∀ b, P b → P { b with users := (f b.users).2 }) :
    Maintains P (setUsers f) (fun _ => True) err := Maintains.act sets fun _ _ => trivial

/-- The remainder by a nonzero bound, counted from one, does not wrap around. -/
theorem draw_range (ret : UInt32) {bound : UInt32} (nonzero : bound ≠ 0) :
    1 ≤ (ret % bound + 1).toNat ∧ (ret % bound + 1).toNat ≤ bound.toNat := by
  have positive : 0 < bound.toNat :=
    Nat.pos_of_ne_zero fun zero => nonzero (UInt32.toNat_inj.mp zero)
  have below := Nat.mod_lt ret.toNat positive
  have bounded := bound.toNat_lt
  have exact : (ret % bound + 1).toNat = ret.toNat % bound.toNat + 1 := by
    rw [UInt32.toNat_add, UInt32.toNat_mod, UInt32.toNat_one]
    exact Nat.mod_eq_of_lt (by omega)
  rw [exact]
  exact ⟨Nat.le_add_left 1 _, below⟩

/-- With a bound that is not converted to zero, the generator gives a number up to it. -/
theorem rand_keeps [Platform] (closed : Closed T caller P) {bound : LuaNumber}
    (nonzero : bound.toUnsigned ≠ 0) :
    Maintains P (rand bound) (fun n => 1 ≤ n ∧ n ≤ bound.toUnsigned.toNat) err := by
  refine Maintains.seqAny (Maintains.act (fun b hb => closed.values b _ hb) fun _ _ => trivial)
    fun ret => ?_
  rw [if_neg nonzero]
  exact Maintains.returns (draw_range ret nonzero)

theorem toUnsigned_ofNat [Platform] {n : Nat} (small : n < 2 ^ 32) :
    (LuaNumber.ofNat n).toUnsigned.toNat = n := by
  simp only [LuaNumber.toUnsigned, LuaNumber.ofNat, LuaNumber.inRange, LuaNumber.truncate_natCast]
  rw [if_pos (by omega)]
  simp only [UInt32.ofInt, UInt32.toNat_ofNat']
  omega

/-- An index drawn for a table is one of its entries. -/
theorem entry_keeps {table : List String} {idx : Nat} (low : 1 ≤ idx) (high : idx ≤ table.length)
    {post : Str → Prop} (all : ∀ text ∈ table, post text.toList) :
    Maintains P (entry table idx) post err := by
  have inside : idx - 1 < table.length := by omega
  rw [entry, if_neg (by omega), List.getElem?_eq_getElem inside]
  exact Maintains.returns (all _ (List.getElem_mem inside))

/-! ### Chat -/

theorem answers_holds (T : TextClass) : ∀ text ∈ answers, T.holds 100 text.toList := by
  intro text member
  simp only [answers, List.mem_cons, List.not_mem_nil, or_false] at member
  rcases member with rfl | rfl | rfl | rfl | rfl | rfl | rfl | rfl | rfl | rfl | rfl | rfl | rfl |
    rfl | rfl | rfl | rfl | rfl | rfl | rfl <;> exact T.literal (by decide)

theorem eightBall_keeps [Platform] (closed : Closed T caller P) (atCaller : T.holds limit caller)
    (type : LuaValue) (params : Option Str) : Keeps P (eightBall type caller params) err := by
  have count : (LuaNumber.ofNat answers.length).toUnsigned.toNat = answers.length :=
    toUnsigned_ofNat (by decide)
  refine Maintains.ite (fun _ => ?_) fun _ => sayLiteral_keeps closed type (by decide)
  refine Maintains.seq (rand_keeps closed fun zero => ?_) fun idx range => ?_
  · rw [zero] at count
    exact absurd count (by decide)
  · rw [count] at range
    apply Maintains.seq (entry_keeps range.1 range.2 (answers_holds T))
    intro answer ok
    exact sayOrPM_keeps closed type (by decide)
      (T.appendLiteral (T.append (T.appendLiteral atCaller (by decide)) ok) (by decide))

theorem fling_keeps [Platform] (type : LuaValue) (params : Option Str) :
    Keeps P (fling type caller params) err := by
  rw [fling, if_pos (by rintro ⟨⟩)]
  exact Maintains.returns trivial

theorem sayCommand_keeps (closed : Closed T caller P) (type : LuaValue) {params : Str}
    (atParams : T.holds limit params) : Keeps P (sayCommand type caller (some params)) err :=
  Maintains.ite (fun _ => Maintains.returns trivial) fun _ => say_keeps closed (by decide) atParams

theorem help_keeps (closed : Closed T caller P) (type : LuaValue) {params : Str}
    (atParams : T.holds limit params) : Keeps P (help type caller (some params)) err := by
  apply Maintains.seq (getAccessLevel_keeps caller)
  intro level _
  apply Maintains.ite (fun _ => Maintains.returns trivial)
  intro _
  refine Maintains.seq (q := fun found => ∀ text ∈ found, T.holds 100 text) ?_ ?_
  · apply Maintains.query
    intro b hb text found
    obtain ⟨l, open_, entry⟩ := Option.bind_eq_some_iff.mp found
    exact closed.help b hb l open_ _ text entry
  · rintro (_ | text) ok
    · exact sayOrPM_keeps closed type (by decide)
        (T.appendLiteral (T.literalAppend (by decide) atParams) (by decide))
    · exact sayOrPM_keeps closed type (by decide)
        (T.append (T.appendLiteral atParams (by decide)) (ok text rfl))

/-! ### Help texts -/

theorem helps_of_insert {H : Type} {before after : Registry H} (helps : Helps T before)
    {cmd text : Str} (inserts : after.help = before.help.insert cmd text) (ok : T.holds 100 text) :
    Helps T after := by
  intro other found member
  rw [inserts] at member
  by_cases same : other = cmd
  · rw [same, AList.lookup_insert] at member
    cases member
    exact ok
  · rw [AList.lookup_insert_ne same] at member
    exact helps other found member

theorem helps_installs {reg : Registry Command} (helps : Helps T reg) (cmd : String)
    (l : AccessLevel) {help : String} (func : Command) (ok : T.holds 100 help.toList) :
    Helps T (installs cmd l help func reg) := helps_of_insert helps rfl ok

theorem helps_modActionScript {reg : Registry Command} (helps : Helps T reg) (cmd func : String)
    {help : String} (handler : Command) (ok : T.holds 100 help.toList) :
    Helps T (modActionScript cmd func help handler reg) := helps_of_insert helps rfl ok

theorem helps_shipped : Helps T shipped := by
  apply List.foldlRecOn scripts.flatten _ (fun _ _ none => by cases none)
  intro reg helps f member
  simp only [scripts, util, eightBallScript, adminActions, describeScript, dice, enableDisable,
    flingScript, geicoScript, helpScript, modActions, positionScript, quotesScript, sayScript,
    warningsScript, List.flatten_cons, List.flatten_nil, List.cons_append, List.nil_append,
    List.append_nil, List.mem_cons, List.not_mem_nil, or_false] at member
  -- in the order of the files: the entry that `util` makes by hand, then registrations, with the
  -- six of the moderators' actions among them
  rcases member with rfl | rfl | rfl | rfl | rfl | rfl | rfl | rfl | rfl | rfl | rfl | rfl | rfl |
    rfl | rfl | rfl | rfl | rfl | rfl | rfl | rfl | rfl | rfl | rfl | rfl | rfl | rfl | rfl | rfl
  · exact helps_of_insert helps rfl (T.literal (by decide))
  iterate 14 exact helps_installs helps _ _ _ (T.literal (by decide))
  iterate 6 exact helps_modActionScript helps _ _ _ (T.literal (by decide))
  iterate 8 exact helps_installs helps _ _ _ (T.literal (by decide))

/-! ### Users -/

/-- `protect` and `unprotect` change the flag of one row. -/
theorem setProtection_keeps (closed : Closed T caller P) (atCaller : T.holds limit caller)
    {bProtect : Bool} (usage : String) {done : String} (type : LuaValue) {params : Str}
    (atParams : T.holds limit params) (text : T.holds 100 done.toList)
    (sets : ∀ b name, P b → P { b with users := (UserDB.protect b.users name bProtect).2 }) :
    Keeps P (setProtection bProtect usage done type caller (some params)) err := by
  apply Maintains.seq (resolve_keeps closed atCaller atParams)
  intro target ok
  apply Maintains.seq (setUsers_keeps fun b hb => sets b target hb)
  intro done _
  cases done with
  | true => exact sayOrPM_keeps closed type (by decide) (T.append ok text)
  | false =>
    exact sayOrPM_keeps closed type (by decide)
      (T.appendLiteral (T.literalAppend (by decide) ok) (by decide))

theorem setmask_keeps (closed : Closed T caller P) (type : LuaValue) (params : Str) :
    Keeps P (setmask type caller (some params)) err := sayLiteral_keeps closed type (by decide)

theorem admindesc_keeps (closed : Closed T caller P) (type : LuaValue) (params : Option Str) :
    Keeps P (admindesc type caller params) err := sayLiteral_keeps closed type (by decide)

/-- `describe` fails on a target without a row. -/
theorem describe_keeps (closed : Closed T caller P) (atCaller : T.holds limit caller)
    (type : LuaValue) {params : Str} (atParams : T.holds limit params) :
    Keeps P (describe type caller (some params)) Arithmetic := by
  apply Maintains.seq (resolveParams_keeps closed atCaller atParams)
  rintro _ ⟨target, rfl, ok⟩
  apply Maintains.seq (getUserEntry_keeps closed target)
  rintro (_ | entry) known
  · -- without a row there is no entry to read the description from
    exact Maintains.fails trivial
  · simp only
    split
    · exact sayOrPM_keeps closed type (by decide) (T.appendLiteral ok (by decide))
    · exact sayOrPM_keeps closed type (by decide)
        (T.append (T.appendLiteral ok (by decide)) (known entry rfl))

/-- `setdesc` changes the description of the caller. -/
theorem setdesc_keeps (closed : Closed T caller P) (type : LuaValue) {params : Str}
    (atParams : T.holds limit params)
    (sets : ∀ b, P b → P { b with users := (UserDB.setDescription b.users caller params).2 }) :
    Keeps P (setdesc type caller (some params)) err := by
  refine Maintains.ite (fun _ => ?_) fun _ => ?_
  · exact sayOrPM_keeps closed type (by decide)
      (T.appendLiteral (T.append (T.appendLiteral (T.append (T.append (T.literal (by decide))
        (T.literal (by decide))) (T.size atParams (by decide))) (by decide)) (T.nat (by decide)))
        (by decide))
  · apply Maintains.seq (setUsers_keeps sets)
    intro ok _
    cases ok with
    | true => exact sayLiteral_keeps closed type (by decide)
    | false => exact sayLiteral_keeps closed type (by decide)

theorem levelToName_holds (level : AccessLevel) : T.holds 100 (levelToName level) := by
  cases level <;> exact T.literal (by decide)

theorem position_keeps (closed : Closed T caller P) (atCaller : T.holds limit caller)
    (type : LuaValue) {params : Str} (atParams : T.holds limit params) :
    Keeps P (position type caller (some params)) err := by
  apply Maintains.seq (getAccessLevel_keeps caller)
  intro level _
  apply Maintains.ite (fun _ => Maintains.returns trivial)
  intro _
  apply Maintains.seq (resolve_keeps closed atCaller atParams)
  intro target ok
  apply Maintains.seq (getUserEntry_keeps closed target)
  rintro (_ | entry) -
  · apply Maintains.seqAny (Maintains.query fun _ _ => trivial)
    intro _
    apply Maintains.ite (fun _ => Maintains.returns trivial)
    intro _
    exact Maintains.ite (fun _ => Maintains.returns trivial) fun _ => Maintains.returns trivial
  · exact sayOrPM_keeps closed type (by decide)
      (T.append (T.appendLiteral ok (by decide)) (levelToName_holds entry.level))

theorem modAction_keeps (closed : Closed T caller P) (atCaller : T.holds limit caller)
    (witticism : Str → Str) (code : MessageCode) (type : LuaValue) {params : Str}
    (atParams : T.holds limit params)
    (witty : ∀ target, T.holds limit target → T.holds (2 * limit) (witticism target))
    (writes : ∀ b target, T.holds limit target → P b → P (b.write (.message code blank target)).2) :
    Keeps P (modAction witticism code type caller (some params)) err := by
  apply Maintains.seq (resolve_keeps closed atCaller atParams)
  intro target ok
  apply Maintains.seq (say_keeps closed (by decide) (witty target ok))
  intro _ _
  exact Maintains.change (fun b hb => writes b target ok hb) trivial

/-! ### The switch -/

/-- `enablebot` and `disablebot` change the flag. -/
theorem enablebot_keeps (closed : Closed T caller P) (type : LuaValue) (params : Option Str)
    (sets : ∀ b, P b → P { b with lua := b.lua.map fun l => { l with isEnabled := true } }) :
    Keeps P (enablebot type caller params) err :=
  Maintains.seqAny (Maintains.change sets trivial) fun _ =>
    say_keeps closed (by decide) (T.literal (by decide))

theorem disablebot_keeps (closed : Closed T caller P) (type : LuaValue) (params : Option Str)
    (sets : ∀ b, P b → P { b with lua := b.lua.map fun l => { l with isEnabled := false } }) :
    Keeps P (disablebot type caller params) err :=
  Maintains.seqAny (Maintains.change sets trivial) fun _ =>
    say_keeps closed (by decide) (T.literal (by decide))

/-! ### Warnings -/

theorem tellWarnings_keeps (closed : Closed T caller P) (atCaller : T.holds limit caller)
    (type : LuaValue) {params : Str} (atParams : T.holds limit params) :
    Keeps P (tellWarnings type caller (some params)) err := by
  apply Maintains.seq (resolveParams_keeps closed atCaller atParams)
  rintro _ ⟨target, rfl, ok⟩
  apply Maintains.seq (getWarnings_keeps closed target)
  intro warnings counts
  simp only
  split
  · exact sayOrPM_keeps closed type (by decide)
      (T.appendLiteral (T.literalAppend (by decide) atCaller) (by decide))
  · exact sayOrPM_keeps closed type (by decide)
      (T.appendLiteral (T.append (T.appendLiteral (T.append (T.appendLiteral ok (by decide))
        counts.1) (by decide)) (T.int (by decide))) (by decide))

theorem checkwarnings_keeps (closed : Closed T caller P) (atCaller : T.holds limit caller)
    (type : LuaValue) {params : Str} (atParams : T.holds limit params) :
    Keeps P (checkwarnings type caller (some params)) err := by
  apply Maintains.seq (getAccessLevel_keeps caller)
  intro level _
  refine Maintains.ite (fun _ => ?_) fun _ => tellWarnings_keeps closed atCaller type atParams
  exact tellWarnings_keeps closed atCaller .typePM (T.mono (T.literal (by decide)) (by decide))

/-- `unwarn` sets the warnings of a row to 0. -/
theorem unwarn_keeps (closed : Closed T caller P) (atCaller : T.holds limit caller)
    (type : LuaValue) {params : Str} (atParams : T.holds limit params)
    (sets : ∀ b name, P b → P { b with users := (UserDB.setWarnings b.users name 0).2 }) :
    Keeps P (unwarn type caller (some params)) err := by
  apply Maintains.seq (resolve_keeps closed atCaller atParams)
  intro target ok
  apply Maintains.seq (getUserEntry_keeps closed target)
  rintro (_ | entry) -
  · exact sayLiteral_keeps closed type (by decide)
  · refine Maintains.seqAny ?_ fun _ =>
      sayOrPM_keeps closed type (by decide) (T.appendLiteral ok (by decide))
    exact Maintains.ite (fun _ => Maintains.returns trivial) fun _ =>
      setUsers_keeps fun b hb => sets b target hb

/-- What `warn` leaves of the table for a target with `warnings` warnings. -/
def warnUsers (users : UserTable) (target : Str) (warnings : Int) : UserTable :=
  let users :=
    if warnings + 1 < 0 ∨ 5 < warnings + 1 then users
    else (UserDB.setWarnings users target (warnings + 1)).2
  if maxWarnings ≤ warnings + 1 then
    let users := (UserDB.setDescription users target []).2
    let users := (UserDB.setAccessLevel users target .banned).2
    (UserDB.protect users target true).2
  else users

/-- The reply to an accepted warning. -/
def warnReply (target : Str) (warnings : Int) : Str :=
  let response := target ++ " warned. (".toList ++ decimalInt warnings ++ "/".toList ++
    decimalInt maxWarnings ++ ")".toList
  if maxWarnings ≤ warnings then
    response ++ " -  ".toList ++ target ++ " is no longer allowed to use the bot.".toList
  else response

theorem warnReply_holds {target : Str} {warnings : Int} (ok : T.holds limit target)
    (count : T.holds 21 (decimalInt warnings)) :
    T.holds speech (warnReply target warnings) := by
  have warned : T.holds 100 " warned. (".toList := T.literal (by decide)
  have slash : T.holds 100 "/".toList := T.literal (by decide)
  have close : T.holds 100 ")".toList := T.literal (by decide)
  have most : T.holds 21 (decimalInt maxWarnings) := T.int (by decide)
  have response := T.append (T.append (T.append (T.append (T.append ok warned) count) slash) most)
    close
  rw [warnReply]
  split
  · exact T.mono (T.appendLiteral (T.append (T.appendLiteral response (by decide)) ok) (by decide))
      (by decide)
  · exact T.mono response (by decide)

theorem setWarnings_eq (target : Str) (warnings : Int) (b : Bot) :
    LuaBindings.setWarnings target warnings b =
    (.ok (!decide (warnings < 0 ∨ 5 < warnings)), { b with
      users := if warnings < 0 ∨ 5 < warnings then b.users
        else (UserDB.setWarnings b.users target warnings).2 }) := by
  unfold LuaBindings.setWarnings
  split
  next out => rw [decide_eq_true out]; rfl
  next out => rw [decide_eq_false out]; rfl

/-- An accepted warning is one change of the table and a reply. -/
theorem warn_accepted {b : Bot} {type : LuaValue} {caller params target : Str} {entry : UserEntry}
    (resolved : b.userList.resolve caller params = target)
    (known : UserDB.getUserEntry b.users target = some entry) (low : entry.level ≤ .op)
    (few : entry.warnings < maxWarnings) :
    warn type caller (some params) b =
      sayOrPM type (some caller) (some (warnReply target (entry.warnings + 1)))
        { b with users := warnUsers b.users target entry.warnings } := by
  have count : UserDB.getWarnings b.users target = entry.warnings := by
    rw [UserDB.getWarnings, known]
  simp only [warn, resolve, LuaBindings.getUserEntry, LuaBindings.getWarnings, query_bind,
    resolved, known, not_lt.mpr low, if_false, count, not_le.mpr few]
  rw [bind_ok (setWarnings_eq target _ b)]
  by_cases last : maxWarnings ≤ entry.warnings + 1
  · rw [if_pos last, warnReply, if_pos last, warnUsers, if_pos last]
    rfl
  · rw [if_neg last, warnReply, if_neg last, warnUsers, if_neg last]

/-- A warning that is not accepted changes nothing. -/
theorem warn_keeps (closed : Closed T caller P) (atCaller : T.holds limit caller)
    (type : LuaValue) {params : Str} (atParams : T.holds limit params)
    (sets : ∀ b target entry, P b → UserDB.getUserEntry b.users target = some entry →
      entry.level ≤ .op → entry.warnings < maxWarnings →
      P { b with users := warnUsers b.users target entry.warnings }) :
    Keeps P (warn type caller (some params)) err := by
  -- the reads and the changes follow each other without a reply between them, so the handler is
  -- taken at one state, by what the entry of the target says
  intro b hb
  obtain ⟨target, resolved⟩ : ∃ target, b.userList.resolve caller params = target := ⟨_, rfl⟩
  have ok : T.holds limit target := by
    rw [← resolved]
    exact UserList.resolve_of_all atCaller atParams (closed.name b hb)
  have told {n : Nat} {text : Str} (c : Bot) (hc : P c) (short : n ≤ speech)
      (ok : T.holds n text) :=
    (sayOrPM_keeps closed type short ok : Keeps P (sayOrPM type (some caller) (some text)) err) c hc
  cases known : UserDB.getUserEntry b.users target with
  | none =>
    simp only [warn, resolve, LuaBindings.getUserEntry, query_bind, resolved, known]
    exact told b hb (by decide) (T.appendLiteral (T.literalAppend (by decide) ok) (by decide))
  | some entry =>
    obtain ⟨r, row, same⟩ := Option.map_eq_some_iff.mp known
    have counts := closed.count b hb r (rowOf_mem row)
    have warned : r.warnings = entry.warnings := by rw [← same]; rfl
    rw [warned] at counts
    by_cases staff : .op < entry.level
    · simp only [warn, resolve, LuaBindings.getUserEntry, query_bind, resolved, known, if_pos staff]
      exact told b hb (by decide) (T.literal (by decide))
    · by_cases many : maxWarnings ≤ entry.warnings
      · have count : UserDB.getWarnings b.users target = entry.warnings := by
          rw [UserDB.getWarnings, known]
        simp only [warn, resolve, LuaBindings.getUserEntry, LuaBindings.getWarnings, query_bind,
          resolved, known, if_neg staff, count, if_pos many]
        exact told b hb (by decide)
          (T.appendLiteral (T.append (T.appendLiteral ok (by decide)) counts.1) (by decide))
      · rw [warn_accepted resolved known (not_lt.mp staff) (not_le.mp many)]
        have kept := sets b target entry hb known (not_lt.mp staff) (not_le.mp many)
        exact told _ kept (Nat.le_refl _) (warnReply_holds ok counts.2)

/-! ### Dice -/

theorem doRolls_keeps [Platform] (closed : Closed T caller P) {sides : LuaNumber}
    (nonzero : sides.toUnsigned ≠ 0) (n : Nat) :
    Maintains P (doRolls sides n)
      (fun rolls => rolls.length = n ∧ ∀ r ∈ rolls, r < 10 ^ 10) err := by
  induction n with
  | zero => exact Maintains.returns ⟨rfl, by simp⟩
  | succ n ih =>
    apply Maintains.seq (rand_keeps closed nonzero)
    intro roll range
    apply Maintains.seq ih
    intro rolls all
    refine Maintains.returns ⟨by simp [all.1], ?_⟩
    have bound := sides.toUnsigned.toNat_lt
    intro r member
    rcases List.mem_cons.mp member with rfl | later
    · omega
    · exact all.2 r later

/-- The list of the rolls grows by a comma and a number in every turn. -/
theorem listed_holds {rolls : List Nat} (small : ∀ r ∈ rolls, r < 10 ^ 10) {ret : Str} {m : Nat}
    (ok : T.holds m ret) :
    T.holds (m + 120 * rolls.length)
      (rolls.foldl (fun ret r => ret ++ ", ".toList ++ decimal r) ret) := by
  induction rolls generalizing ret m with
  | nil => exact ok
  | cons r rolls ih =>
    have comma : T.holds 100 ", ".toList := T.literal (by decide)
    have next := T.append (T.append ok comma)
      (T.nat (n := r) (lt_trans (small r (by simp)) (by decide)))
    exact T.mono (ih (fun r member => small r (by simp [member])) next)
      (by simp only [List.length_cons]; omega)

theorem sum_le {rolls : List Nat} (small : ∀ r ∈ rolls, r < 10 ^ 10) (sum : Nat) :
    rolls.foldl (· + ·) sum ≤ sum + 10 ^ 10 * rolls.length := by
  induction rolls generalizing sum with
  | nil => simp
  | cons r rolls ih =>
    have head := small r (by simp)
    have rest := ih (fun r member => small r (by simp [member])) (sum + r)
    simp only [List.foldl_cons, List.length_cons]
    omega

theorem rollsToStr_holds {n : Nat} {rolls : List Nat} (few : rolls.length ≤ n)
    (small : ∀ r ∈ rolls, r < 10 ^ 10) (short : n ≤ 20) : T.holds 3000 (rollsToStr rolls) := by
  rcases rolls with _ | ⟨roll, rolls⟩
  · exact T.mono (T.literal (by decide)) (by decide)
  · have first := small roll (by simp)
    have others : ∀ r ∈ rolls, r < 10 ^ 10 := fun r member => small r (by simp [member])
    have sum := sum_le others roll
    simp only [List.length_cons] at few
    have shown := listed_holds others (T.nat (lt_trans first (by decide)))
    refine T.mono (T.append (T.appendLiteral shown (by decide)) (T.nat (lt_of_le_of_lt sum ?_))) ?_
    · omega
    · omega

/-- A number of sides up to the limit of `rollx` loses its fraction when it is converted. -/
theorem toUnsigned_finite [Platform] {q : ℚ} (low : 1 ≤ q) (high : q ≤ maxRollxSides) :
    ((LuaNumber.finite q).toUnsigned.toNat : Int) = ⌊q⌋ ∧ 1 ≤ ⌊q⌋ := by
  have whole := LuaNumber.truncate_eq_floor (le_trans zero_le_one low)
  have from1 : 1 ≤ ⌊q⌋ := Int.le_floor.mpr (by exact_mod_cast low)
  have toLimit : ⌊q⌋ ≤ maxRollxSides := Int.floor_le_iff.mpr (by push_cast; linarith)
  rw [maxRollxSides] at toLimit
  refine ⟨?_, from1⟩
  rw [LuaNumber.toUnsigned, LuaNumber.inRange, whole, if_pos (by omega)]
  simp only [UInt32.ofInt, UInt32.toNat_ofNat']
  omega

/-- A number of sides that `roll` admits is at least one and at most `MAX_SIDES`. -/
theorem sides_range {sides : LuaNumber}
    (shape : sides = .finite 0 ∨ sides = .inf false ∨ ∃ q : ℚ, sides = .finite q ∧ 1 ≤ q)
    (nonzero : sides.isZero = false) (small : LuaNumber.lt (.ofNat maxSides) sides = false) :
    ∃ q : ℚ, sides = .finite q ∧ 1 ≤ q ∧ q ≤ maxSides := by
  rcases shape with rfl | rfl | ⟨q, rfl, low⟩
  · simp [LuaNumber.isZero] at nonzero
  · simp [LuaNumber.lt, LuaNumber.ofNat] at small
  · refine ⟨q, rfl, low, ?_⟩
    simpa only [← Bool.not_eq_true, LuaNumber.lt_ofNat_finite, not_lt] using small

/-- It is not converted to zero. -/
theorem sides_nonzero [Platform] {sides : LuaNumber}
    (range : ∃ q : ℚ, sides = .finite q ∧ 1 ≤ q ∧ q ≤ maxSides) : sides.toUnsigned ≠ 0 := by
  obtain ⟨q, rfl, low, high⟩ := range
  have limit : (maxSides : ℚ) ≤ maxRollxSides := by exact_mod_cast (by decide : maxSides ≤ _)
  obtain ⟨value, positive⟩ := toUnsigned_finite low (high.trans limit)
  intro zero
  rw [zero, UInt32.toNat_zero] at value
  omega

/-- The loop of `roll` makes twenty turns at most. -/
theorem turns_le {num : LuaNumber} (small : LuaNumber.lt (.ofNat maxRolls) num = false) :
    turns num ≤ 20 := by
  rcases num with q | _ | _
  · simp only [LuaNumber.lt, LuaNumber.ofNat, decide_eq_false_iff_not, not_lt] at small
    have high : q ≤ 20 := by exact_mod_cast small
    have : ⌊q⌋ ≤ 20 := Int.floor_le_iff.mpr (by push_cast; linarith)
    simp only [turns]
    omega
  · exact Nat.zero_le _
  · exact Nat.zero_le _

/-- The sides in the parameter of `roll` are a numeral made of digits. -/
theorem findDice_sides {params : Str} {num : Option LuaNumber} {sides : LuaNumber}
    (found : findDice params = (num, some sides)) :
    sides = .finite 0 ∨ sides = .inf false ∨ ∃ q : ℚ, sides = .finite q ∧ 1 ≤ q := by
  simp only [findDice] at found
  split at found
  · cases found
  · obtain ⟨-, number⟩ := Prod.mk.inj found
    exact LuaNumber.tonumber_digits (fun c member => List.mem_takeWhile_imp member) number

theorem salutation_holds (atCaller : T.holds limit caller) (type : LuaValue) :
    T.holds limit (salutation type caller) := by
  unfold salutation
  split
  · exact T.mono (T.literal (by decide)) (by decide)
  · exact atCaller

theorem roll_keeps [Platform] (closed : Closed T caller P) (atCaller : T.holds limit caller)
    (type : LuaValue) (params : Str) : Keeps P (roll type caller (some params)) err := by
  obtain ⟨num, sides, dice⟩ : ∃ num sides, findDice params = (num, sides) := ⟨_, _, rfl⟩
  simp only [roll, dice]
  cases num.filter fun num => !num.isZero with
  | none => exact sayLiteral_keeps closed type (by decide)
  | some num =>
    cases admitted : sides.filter fun sides => !sides.isZero with
    | none => exact sayLiteral_keeps closed type (by decide)
    | some sides =>
      obtain ⟨rfl, nonzero⟩ := Option.filter_eq_some_iff.mp admitted
      refine Maintains.ite (fun _ => ?_) fun few => ?_
      · exact sayOrPM_keeps closed type (by decide)
          (T.appendLiteral (T.literalAppend (by decide) (T.nat (by decide))) (by decide))
      refine Maintains.ite (fun _ => ?_) fun small => ?_
      · exact sayOrPM_keeps closed type (by decide)
          (T.appendLiteral (T.literalAppend (by decide) (T.nat (by decide))) (by decide))
      simp only [Bool.or_eq_true, not_or, Bool.not_eq_true] at few small
      -- behind both tests the sides are a number that the generator takes
      have range := sides_range (findDice_sides dice) (by simpa using nonzero) small.2
      apply Maintains.seq (doRolls_keeps closed (sides_nonzero range) _)
      intro rolls all
      have rolled : T.holds 100 " rolled".toList := T.literal (by decide)
      have hello := T.append (salutation_holds atCaller type) rolled
      by_cases one : num = .ofNat 1
      · rw [if_pos one]
        have first : rolls.headD 0 < 10 ^ 20 := by
          rcases rolls with _ | ⟨roll, rolls⟩
          · decide
          · exact lt_trans (all.2 roll (by simp)) (by decide)
        exact sayOrPM_keeps closed type (by decide) (T.append hello
          (T.appendLiteral (T.literalAppend (by decide) (T.nat first)) (by decide)))
      · rw [if_neg one]
        exact sayOrPM_keeps closed type (by decide)
          (T.append hello (T.literalAppend (by decide)
            (rollsToStr_holds (all.1.trans_le (turns_le few.2)) all.2 (Nat.le_refl 20))))

/-- `rollx` is stopped by a signal where its number of sides is converted to zero. -/
theorem rollx_keeps [Platform] (closed : Closed T caller P) (atCaller : T.holds limit caller)
    (type : LuaValue) (params : Str) :
    Keeps P (rollx type caller (some params)) Arithmetic := by
  simp only [rollx]
  cases (rollxSides params).filter fun sides => !sides.isZero with
  | none => exact sayLiteral_keeps closed type (by decide)
  | some sides =>
    refine Maintains.ite (fun _ => ?_) fun _ => ?_
    · exact sayOrPM_keeps closed type (by decide)
        (T.appendLiteral (T.literalAppend (by decide) (T.nat (by decide))) (by decide))
    · refine Maintains.seq (q := fun n => n < 10 ^ 20) ?_ fun result small => ?_
      · by_cases zero : sides.toUnsigned = 0
        · -- the test for zero comes before the conversion, which drops a fraction
          refine Maintains.seqAny
            (Maintains.act (fun b hb => closed.values b _ hb) fun _ _ => trivial) fun _ => ?_
          rw [if_pos zero]
          exact Maintains.fails rfl
        · refine Maintains.weaken (rand_keeps closed zero) ?_ fun _ => id
          intro n range
          have := sides.toUnsigned.toNat_lt
          omega
      · exact sayOrPM_keeps closed type (by decide) (T.appendLiteral (T.append (T.append
          (salutation_holds atCaller type) (T.literal (by decide))) (T.nat small)) (by decide))

/-! ### Quotes -/

theorem addquote_keeps (closed : Closed T caller P) (type : LuaValue) {params : Str}
    (sets : ∀ b, P b → P { b with quotes := (QuotesDB.addQuote b.quotes caller params).2 }) :
    Keeps P (addquote type caller (some params)) err := by
  apply Maintains.seqAny (Maintains.act sets fun _ _ => trivial)
  intro ok
  cases ok with
  | true => exact sayLiteral_keeps closed type (by decide)
  | false => exact sayLiteral_keeps closed type (by decide)

theorem findNumber_sublist {params digits : Str} (found : findNumber params = some digits) :
    digits.Sublist params := by
  induction params with
  | nil => cases found
  | cons c t ih =>
    simp only [findNumber] at found
    split at found
    · cases found
      exact (List.takeWhile_sublist _).trans (List.sublist_cons_self c t)
    · exact (ih found).trans (List.sublist_cons_self c t)

theorem quoteGetAuthor_keeps [Platform] (closed : Closed T caller P) (id : LuaNumber) :
    Maintains P (quoteGetAuthor id) (fun r => ∀ author ∈ r, T.holds limit author) err := by
  apply Maintains.query
  intro b hb author found
  obtain ⟨r, member, rfl⟩ := QuotesDB.getQuoteAuthor_mem found
  exact (closed.quote b hb r member).2

theorem quoteGetByID_keeps [Platform] (closed : Closed T caller P) (id : LuaNumber) :
    Maintains P (quoteGetByID id) (fun r => ∀ quote ∈ r, T.holds limit quote) err := by
  apply Maintains.query
  intro b hb quote found
  obtain ⟨r, member, rfl⟩ := QuotesDB.getQuoteByID_mem found
  exact (closed.quote b hb r member).1

/-- The rule of a function of a number is the rule for an argument that may be one. -/
theorem onNumber_keeps {α : Type} {f : LuaNumber → LuaM α} {missing : α} {post : α → Prop}
    (atNumber : ∀ x, Maintains P (f x) post err) (atMissing : post missing) (id : LuaValue) :
    Maintains P (onNumber f missing id) post err := by
  unfold onNumber
  split
  next x _ => exact atNumber x
  next => exact Maintains.returns atMissing

theorem formatD_bound [Platform] (x : LuaNumber) : x.formatD.length ≤ 20 ∧ Plain x.formatD := by
  refine ⟨?_, plain_decimalInt _⟩
  apply length_decimalInt (k := 19) (by decide)
  cases value : x.inRange (-2 ^ 63) (2 ^ 63 - 1) with
  | none =>
    have low := Int64.le_toInt (Platform.longOutOfRange x)
    have high := Int64.toInt_lt (Platform.longOutOfRange x)
    simp only [Option.getD_none]
    omega
  | some t =>
    have range : -2 ^ 63 ≤ t ∧ t ≤ 2 ^ 63 - 1 := by
      unfold LuaNumber.inRange at value
      split at value
      · split at value
        next inside => cases value; exact inside
        next => cases value
      · cases value
    simp only [Option.getD_some]
    omega

/-- `removequote` deletes one row. -/
theorem removequote_keeps [Platform] (closed : Closed T caller P) (type : LuaValue)
    (params : Str)
    (sets : ∀ b id, P b → P { b with quotes := (QuotesDB.removeQuote b.quotes id).2 }) :
    Keeps P (removequote type caller (some params)) err := by
  simp only [removequote, Option.bind_some]
  cases number : findNumber params with
  | none => exact sayLiteral_keeps closed type (by decide)
  | some id =>
    apply Maintains.seq (onNumber_keeps (quoteGetAuthor_keeps closed) (by simp) _)
    rintro (_ | author) known
    · exact sayLiteral_keeps closed type (by decide)
    · refine Maintains.seq
        (q := fun removed => removed = true → (LuaValue.string id).toNumber.isSome) ?_ ?_
      · unfold onNumber
        split
        next x numeric =>
          exact Maintains.act (fun b hb => sets b _ hb) fun _ _ _ => by rw [numeric]; rfl
        next => exact Maintains.returns (by simp)
      · intro removed numeric
        cases removed with
        | false => exact sayLiteral_keeps closed type (by decide)
        | true =>
          obtain ⟨x, value⟩ := Option.isSome_iff_exists.mp (numeric rfl)
          simp only [value, if_true, LuaM.need_some]
          have printed : T.holds 20 x.formatD :=
            T.mono (T.plain (formatD_bound x).2) (formatD_bound x).1
          exact sayOrPM_keeps closed type (by decide)
            (T.appendLiteral (T.appendLiteral (T.append (T.appendLiteral
              (T.literalAppend (by decide) printed) (by decide)) (known author rfl)) (by decide))
              (by decide))

theorem columnInt_bound (v : Int) : (QuotesDB.columnInt v).natAbs < 10 ^ 10 := by
  have low := Int.le_bmod (x := v) (m := 2 ^ 32) (by decide)
  have high := Int.bmod_lt (x := v) (m := 2 ^ 32) (by decide)
  simp only [QuotesDB.columnInt]
  omega

theorem choose_bound (rows : List QuoteRow) (i : Nat) :
    (QuotesDB.choose rows i).natAbs < 10 ^ 10 := by
  unfold QuotesDB.choose
  split
  · exact columnInt_bound _
  · decide

/-- An id chosen by the database prints in few digits. -/
theorem ofIndex_holds {idx : Int} {i : Int} (bound : i.natAbs < 10 ^ 10)
    (chosen : positive i = some idx) : T.holds limit (QuoteId.ofIndex idx).text := by
  have same : idx = i := by
    unfold positive at chosen
    split at chosen
    · exact (Option.some.inj chosen).symm
    · cases chosen
  rw [same]
  exact T.mono (T.int (lt_trans bound (by decide))) (by decide)

theorem quoteToShow_keeps [Platform] (closed : Closed T caller P) (atCaller : T.holds limit caller)
    {params : Str} (atParams : T.holds limit params) :
    Maintains P (quoteToShow caller (some params))
      (fun r => ∀ id ∈ r, T.holds limit id.text) err := by
  have effective : T.holds limit (if toLower params = "me".toList then caller else params) := by
    split
    · exact atCaller
    · exact atParams
  simp only [quoteToShow]
  generalize (if toLower params = "me".toList then caller else params) = params at effective
  -- without a number, and with one that no quote has, the text is a pattern
  have byPattern : Maintains P (do
      let idx ← quoteGetIDByPattern params
      pure (idx.map QuoteId.ofIndex)) (fun r => ∀ id ∈ r, T.holds limit id.text) err := by
    refine Maintains.seq (q := fun r => ∀ idx ∈ r, T.holds limit (QuoteId.ofIndex idx).text)
      ?_ fun r ok => Maintains.returns ?_
    · refine Maintains.seqAny
        (Maintains.act (fun b hb => closed.picks b _ hb) fun _ _ => trivial) fun i => ?_
      exact Maintains.query fun b _ idx chosen => ofIndex_holds (choose_bound _ _) chosen
    · intro id member
      obtain ⟨idx, h, rfl⟩ := Option.map_eq_some_iff.mp member
      exact ok idx h
  cases number : findNumber params with
  | none => exact Maintains.seqAny (Maintains.returns trivial) fun _ => byPattern
  | some digits =>
    apply Maintains.seq (onNumber_keeps (quoteGetByID_keeps closed) (by simp) _)
    rintro (_ | quote) -
    · exact byPattern
    · apply Maintains.returns
      rintro id ⟨⟩
      exact T.part effective (findNumber_sublist number)

/-- `quote` fails where the id of the quote chosen does not fit an `int`. -/
theorem quote_keeps [Platform] (closed : Closed T caller P) (atCaller : T.holds limit caller)
    (type : LuaValue) {params : Str} (atParams : T.holds limit params) :
    Keeps P (quote type caller (some params)) Arithmetic := by
  apply Maintains.seq (getAccessLevel_keeps caller)
  intro level _
  apply Maintains.ite (fun _ => Maintains.returns trivial)
  intro _
  apply Maintains.seq (quoteToShow_keeps closed atCaller atParams)
  rintro (_ | id) ok
  · exact sayLiteral_keeps closed type (by decide)
  · apply Maintains.seq (onNumber_keeps (quoteGetByID_keeps closed) (by simp) _)
    rintro (_ | quote) known
    · -- nil is not a text that can be appended
      exact Maintains.fails trivial
    · exact sayOrPM_keeps closed type (by decide)
        (T.append (T.appendLiteral (T.literalAppend (by decide) (ok id rfl)) (by decide))
          (known quote rfl))

/-! ### All handlers -/

/-- What is asked of a property so that a handler's change of the stores keeps it. -/
def Sets (T : TextClass) (caller : Str) (P : Bot → Prop) : Command → Prop
  | .protect =>
    ∀ b name, P b → P { b with users := (UserDB.protect b.users name true).2 }
  | .unprotect =>
    ∀ b name, P b → P { b with users := (UserDB.protect b.users name false).2 }
  | .setdesc =>
    ∀ b desc, T.holds limit desc → P b →
      P { b with users := (UserDB.setDescription b.users caller desc).2 }
  | .warn =>
    ∀ b target entry, P b → UserDB.getUserEntry b.users target = some entry →
      entry.level ≤ .op → entry.warnings < maxWarnings →
      P { b with users := warnUsers b.users target entry.warnings }
  | .unwarn => ∀ b name, P b → P { b with users := (UserDB.setWarnings b.users name 0).2 }
  | .addquote =>
    ∀ b text, T.holds limit text → P b →
      P { b with quotes := (QuotesDB.addQuote b.quotes caller text).2 }
  | .removequote => ∀ b id, P b → P { b with quotes := (QuotesDB.removeQuote b.quotes id).2 }
  | .enablebot => ∀ b, P b → P { b with lua := b.lua.map fun l => { l with isEnabled := true } }
  | .disablebot => ∀ b, P b → P { b with lua := b.lua.map fun l => { l with isEnabled := false } }
  | .kick | .disable | .ban | .unban | .mute | .unmute =>
    ∀ b target code, T.holds limit target → P b → P (b.write (.message code blank target)).2
  | _ => True

/-- The handlers with a path that does not return. -/
def CanFail : Command → Prop
  | .describe | .geico | .rollx | .quote => True
  | _ => False

theorem run_keeps [Platform] (closed : Closed T caller P) (atCaller : T.holds limit caller)
    (c : Command) (sets : Sets T caller P c) (may : CanFail c → ∀ a, Arithmetic a → err a)
    (type : LuaValue) {params : Str} (atParams : T.holds limit params) :
    Keeps P (run c type caller (some params)) err := by
  have failing {m : LuaM Unit} (fails : CanFail c) (h : Keeps P m Arithmetic) : Keeps P m err :=
    Maintains.weaken h (fun _ => id) (may fails)
  cases c with
  | eightBall => exact eightBall_keeps closed atCaller type (some params)
  | protect =>
    exact setProtection_keeps closed atCaller "Usage: !protect [username]" type atParams
      (T.literal (by decide)) sets
  | unprotect =>
    exact setProtection_keeps closed atCaller "Usage: !unProtect [username]" type atParams
      (T.literal (by decide)) sets
  | setmask => exact setmask_keeps closed type params
  | describe => exact failing trivial (describe_keeps closed atCaller type atParams)
  | setdesc => exact setdesc_keeps closed type atParams fun b => sets b params atParams
  | admindesc => exact admindesc_keeps closed type (some params)
  | roll => exact roll_keeps closed atCaller type params
  | rollx => exact failing trivial (rollx_keeps closed atCaller type params)
  | enablebot => exact enablebot_keeps closed type (some params) sets
  | disablebot => exact disablebot_keeps closed type (some params) sets
  | fling => exact fling_keeps type (some params)
  | geico => exact Maintains.fails (may trivial _ trivial)
  | help => exact help_keeps closed type atParams
  | kick =>
    refine modAction_keeps closed atCaller _ _ type atParams (fun target ok => ?_)
      fun b target ok => sets b target _ ok
    exact T.mono (T.appendLiteral (T.literalAppend (by decide) ok) (by decide)) (by decide)
  | disable =>
    refine modAction_keeps closed atCaller _ _ type atParams (fun target ok => ?_)
      fun b target ok => sets b target _ ok
    exact T.mono (T.literal (by decide)) (by decide)
  | mute =>
    refine modAction_keeps closed atCaller _ _ type atParams (fun target ok => ?_)
      fun b target ok => sets b target _ ok
    exact T.mono (T.appendLiteral (T.literalAppend (by decide) ok) (by decide)) (by decide)
  | ban | unban | unmute =>
    refine modAction_keeps closed atCaller _ _ type atParams (fun target ok => ?_)
      fun b target ok => sets b target _ ok
    exact T.mono (T.appendLiteral ok (by decide)) (by decide)
  | position => exact position_keeps closed atCaller type atParams
  | addquote => exact addquote_keeps closed type fun b => sets b params atParams
  | removequote => exact removequote_keeps closed type params sets
  | quote => exact failing trivial (quote_keeps closed atCaller type atParams)
  | say => exact sayCommand_keeps closed type atParams
  | warn => exact warn_keeps closed atCaller type atParams sets
  | unwarn => exact unwarn_keeps closed atCaller type atParams sets
  | checkwarnings => exact checkwarnings_keeps closed atCaller type atParams

/-! ### The dispatcher -/

theorem splitCommand_sublist {line cmd params : Str}
    (found : splitCommand line = some (cmd, params)) :
    cmd.Sublist line ∧ params.Sublist line := by
  unfold splitCommand at found
  split at found
  next t =>
    simp only at found
    split at found
    · cases found
    · cases found
      exact ⟨(List.takeWhile_sublist _).trans (List.sublist_cons_self _ t),
        ((List.dropWhile_sublist _).trans (List.dropWhile_sublist _)).trans
          (List.sublist_cons_self _ t)⟩
  next => cases found

/-- What a request carries is made of parts of the line. -/
def Request.PartOf {H : Type} (line : Str) : Request H → Prop
  | .unlevelled cmd => ∃ t, cmd = toLower t ∧ t.Sublist line
  | .command _ _ params => params.Sublist line
  | _ => True

theorem request_partOf {H : Type} (reg : Registry H) (caller line : Str) :
    (request reg caller line).PartOf line := by
  unfold request
  split
  · trivial
  · split
    next => trivial
    next cmd params found =>
      obtain ⟨name, rest⟩ := splitCommand_sublist found
      split
      next => trivial
      next =>
        simp only
        split
        · exact rest
        · exact ⟨cmd, rfl, name⟩

/-- The dispatcher keeps a property that every handler open to the caller keeps. -/
theorem respond_keeps [Platform] (closed : Closed T caller P) (atCaller : T.holds limit caller)
    (sets : ∀ c rank, levelFor c = some rank →
      (∃ b, P b ∧ rank ≤ UserDB.getAccessLevel b.users caller) → Sets T caller P c)
    (type : LuaValue) {line : Str} (atLine : T.holds limit line) :
    Keeps P (respond shipped run type caller (some line)) Arithmetic := by
  intro b hb
  have parts := request_partOf shipped caller line
  rw [respond_eq]
  cases asked : request shipped caller line with
  | ignored => exact ⟨hb, trivial⟩
  | nameless => exact ⟨hb, trivial⟩
  | unlevelled cmd =>
    rw [asked] at parts
    obtain ⟨t, rfl, part⟩ := parts
    exact sayOrPM_keeps closed type (by decide)
      (T.appendLiteral (T.lower (T.part atLine part)) (by decide)) b hb
  | command c level params =>
    obtain ⟨rank, meant, rfl⟩ := command_of_request asked
    rw [asked] at parts
    by_cases allowed : Allowed b caller (LuaValue.level rank)
    · have own := sets c rank meant ⟨b, hb, (allowed_level_iff.mp allowed).1⟩
      simp only [if_pos allowed]
      exact run_keeps closed atCaller c own (fun _ _ => id) type (T.part atLine parts) b hb
    · simp only [if_neg allowed]
      exact ⟨hb, trivial⟩

end
end Scripts
end MeepBot
