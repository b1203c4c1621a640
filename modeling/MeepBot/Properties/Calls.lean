import MeepBot.Natives

/-!
# Calls of the C functions

A script that calls a function written in C gets what the program of the same name in
`LuaBindings` gives for the last arguments, and the bot is left in the same state.
-/

namespace MeepBot

/-- What a call gives back: a value, or a new table with the fields of an entry. -/
inductive Answer where
  | value (v : LuaValue)
  | entry (e : UserEntry)

namespace LuaValue

/-- The C string a value is taken for. -/
def asCString [NumberText] (v : LuaValue) : Option Str := v.asText.map cstr

/-- The number a value is converted to. -/
def converted (v : LuaValue) : LuaNumber := v.asNumber.getD (.ofNat 0)

def ofText : Option Str → LuaValue
  | some text => .string (cstr text)
  | none => .nil

def ofId : Option Int → LuaValue
  | some idx => .number (.finite idx)
  | none => .nil

end LuaValue

namespace CFunction

open Effect

/-- How many arguments the function looks at. -/
def arity : CFunction → Nat
  | quoteGetRandomID => 0
  | pm | quoteAdd | setAccessLevel | protect | setDescription | setWarnings | resolve => 2
  | _ => 1

section
variable [NumberText]

/-- A program for a string, where the value is one. -/
def onString (v : LuaValue) (missing : LuaValue) (f : Str → LuaM LuaValue) : LuaM (List Answer) :=
  match v.asCString with
  | some s => do pure [.value (← f s)]
  | none => pure [.value missing]

omit [NumberText] in
/-- A program for a number, where the value is one. -/
def onNumber (v : LuaValue) (missing : LuaValue) (f : LuaNumber → LuaM LuaValue) :
    LuaM (List Answer) :=
  match v.asNumber with
  | some x => do pure [.value (← f x)]
  | none => pure [.value missing]

/-- One of the actions of a moderator. -/
def moderate (code : MessageCode) (v : LuaValue) : LuaM (List Answer) :=
  match v.asCString with
  | some name => do LuaBindings.modAction name code; pure []
  | none => pure []

variable [Platform]

/-- A function of one argument, by the programs of `LuaBindings`. -/
def meaning₁ (v : LuaValue) : CFunction → LuaM (List Answer)
  | say => do LuaBindings.say v.asCString; pure []
  | emote => do change fun b => (v.asCString.map b.emote).getD b; pure []
  | kick => moderate .userKick v
  | disable => moderate .userDisable v
  | ban => moderate .userBan v
  | unban => moderate .userUnban v
  | mute => moderate .userMute v
  | unmute => moderate .userUnmute v
  | quoteGetIDByPattern => onString v .nil fun pattern =>
      LuaValue.ofId <$> LuaBindings.quoteGetIDByPattern pattern
  | quoteGetByID => onNumber v .nil fun id => LuaValue.ofText <$> LuaBindings.quoteGetByID id
  | quoteRemove => onNumber v (.boolean false) fun id =>
      LuaValue.boolean <$> LuaBindings.quoteRemove id
  | quoteGetAuthor => onNumber v .nil fun id => LuaValue.ofText <$> LuaBindings.quoteGetAuthor id
  | getAccessLevel => onString v .nil fun name =>
      LuaValue.level <$> LuaBindings.getAccessLevel name
  | getUserEntry =>
    match v.asCString with
    | some name => do
      match ← LuaBindings.getUserEntry name with
      | some entry => pure [.entry entry]
      | none => pure [.value .nil]
    | none => pure [.value .nil]
  | getDescription => onString v .nil fun user => do
      pure (LuaValue.ofText ((← LuaBindings.getUserEntry user).map UserEntry.desc))
  | getWarnings => onString v .nil fun user => do
      pure (.number (.finite (← LuaBindings.getWarnings user)))
  | rand =>
    match v.asNumber with
    | some bound => do pure [.value (.number (.ofNat (← LuaBindings.rand bound)))]
    | none => do
      let ret ← act fun b =>
        (b.world.values.head, { b with world := { b.world with values := b.world.values.tail } })
      pure [.value (.number (.ofNat (ret + 1).toNat))]
  | _ => pure []

/-- A function of two arguments, by the programs of `LuaBindings`. -/
def meaning₂ (v w : LuaValue) : CFunction → LuaM (List Answer)
  | pm => do LuaBindings.pm v.asCString w.asCString; pure []
  | quoteAdd => onString v (.boolean false) fun adder =>
      LuaValue.boolean <$> LuaBindings.quoteAdd adder w.asCString
  | setAccessLevel => onString v (.boolean false) fun name =>
      match AccessLevel.ofInt? w.converted.toInt with
      | some level => LuaValue.boolean <$> LuaBindings.setAccessLevel name level
      | none => pure .nil
  | protect => onString v (.boolean false) fun user =>
      LuaValue.boolean <$> LuaBindings.protect user w.truthy
  | setDescription => onString v (.boolean false) fun target =>
      match w.asCString with
      | some desc => LuaValue.boolean <$> LuaBindings.setDescription target desc
      | none => pure (.boolean false)
  | setWarnings => onString v (.boolean false) fun user =>
      LuaValue.boolean <$> LuaBindings.setWarnings user w.converted.toInt
  | resolve => onString v .nil fun caller =>
      match w.asCString with
      | some pattern => do pure (.string (cstr (← LuaBindings.resolve caller pattern)))
      | none => pure .nil
  | _ => pure []

/-- What a call with just enough arguments means. -/
def meaning (f : CFunction) : List LuaValue → LuaM (List Answer)
  | [] => do
    let idx ← LuaBindings.quoteGetRandomID
    pure [.value (LuaValue.ofId idx)]
  | [v] => f.meaning₁ v
  | [v, w] => f.meaning₂ v w
  | _ => pure []

/-- The arguments are as many as the function looks at, and a level is one there is. -/
structure Fits (f : CFunction) (args : List LuaValue) : Prop where
  enough : args.length = f.arity
  level : f = setAccessLevel → ∀ v w, args = [v, w] →
    (AccessLevel.ofInt? w.converted.toInt).isSome

end
end CFunction

namespace Properties

open Effect LuaC LuaStack

/-! ### Arguments -/

section
variable [NumberText] (vs : List LuaValue) (o : Nat → LuaObject CFunction) (n : Nat) (b : Bot)

/-- Reading a string may leave another value in its place. -/
theorem luaToString_last (v : LuaValue) : ∃ v',
    (luaToString (-1) : LuaC CFunction Bot _) ⟨v :: vs, o, n, b⟩ =
      (.ok v.asCString, ⟨v' :: vs, o, n, b⟩) := by
  rw [luaToString, bind_ok (at_apply (value_last v)), LuaValue.asCString]
  cases v.asText with
  | none => exact ⟨v, rfl⟩
  | some text => exact ⟨.string text, rfl⟩

theorem luaToString_second (v w : LuaValue) : ∃ v',
    (luaToString (-2) : LuaC CFunction Bot _) ⟨w :: v :: vs, o, n, b⟩ =
      (.ok v.asCString, ⟨w :: v' :: vs, o, n, b⟩) := by
  rw [luaToString, bind_ok (at_apply (value_second v w)), LuaValue.asCString]
  cases v.asText with
  | none => exact ⟨v, rfl⟩
  | some text => exact ⟨.string text, rfl⟩

theorem isString_last (v : LuaValue) :
    (isString (-1) : LuaC CFunction Bot _) ⟨v :: vs, o, n, b⟩ =
      (.ok v.asCString.isSome, ⟨v :: vs, o, n, b⟩) := by
  rw [isString, bind_ok (at_apply (value_last v)), LuaValue.asCString, Option.isSome_map]
  rfl

omit [NumberText] in
theorem isNumber_last (v : LuaValue) :
    (isNumber (-1) : LuaC CFunction Bot _) ⟨v :: vs, o, n, b⟩ =
      (.ok v.asNumber.isSome, ⟨v :: vs, o, n, b⟩) := by
  rw [isNumber, bind_ok (at_apply (value_last v))]
  rfl

omit [NumberText] in
theorem toNumber_last (v : LuaValue) :
    (toNumber (-1) : LuaC CFunction Bot _) ⟨v :: vs, o, n, b⟩ =
      (.ok v.converted, ⟨v :: vs, o, n, b⟩) := by
  rw [toNumber, bind_ok (at_apply (value_last v))]
  rfl

end

/-! ### What a function does -/

/-- The fields of an entry, by name. -/
def entryFields (e : UserEntry) (key : LuaValue) : LuaValue :=
  if key = .string "mask".toList then .string (cstr e.mask)
  else if key = .string "warnings".toList then .number (.finite e.warnings)
  else if key = .string "protected".toList then .boolean e.locked
  else if key = .string "desc".toList then .string (cstr e.desc)
  else if key = .string "level".toList then .level e.level
  else .nil

/-- A value returned shows an answer. -/
def Shows (s : LuaStack CFunction Bot) (v : LuaValue) : Answer → Prop
  | .value w => v = w
  | .entry e => ∃ id, v = .object id ∧ s.objects id = .table (entryFields e)

/-- How a program stops, for the code on the stack. -/
def faultOf : Abort → LuaFault
  | .error msg => .error msg
  | .signal name => .signal name

/-- From a state, the code does what the program does: the last values on the stack show its
answers, and the objects there are stay as they are. -/
def Does (s : LuaStack CFunction Bot) (body : LuaC CFunction Bot Nat) (m : LuaM (List Answer)) :
    Prop :=
  match m s.host with
  | (.ok answers, b) => ∃ values rest s', body s = (.ok values.length, s') ∧
      s'.stack = values.reverse ++ rest ∧ s'.host = b ∧
      List.Forall₂ (Shows s') values answers ∧ ∀ id < s.next, s'.objects id = s.objects id
  | (.error e, b) => ∃ s', body s = (.error (faultOf e), s') ∧ s'.host = b

theorem Does.nothing {s : LuaStack CFunction Bot} {body : LuaC CFunction Bot Nat}
    {m : LuaM (List Answer)} {b : Bot} {rest : List LuaValue}
    (returns : body s = (.ok 0, ⟨rest, s.objects, s.next, b⟩)) (means : m s.host = (.ok [], b)) :
    Does s body m := by
  rw [Does, means]
  exact ⟨[], rest, _, returns, rfl, rfl, .nil, fun _ _ => rfl⟩

theorem Does.one {s : LuaStack CFunction Bot} {body : LuaC CFunction Bot Nat}
    {m : LuaM (List Answer)} {b : Bot} {v : LuaValue} (rest : List LuaValue)
    (returns : body s = (.ok 1, ⟨v :: rest, s.objects, s.next, b⟩))
    (means : m s.host = (.ok [.value v], b)) : Does s body m := by
  rw [Does, means]
  exact ⟨[v], rest, _, returns, rfl, rfl, .cons rfl .nil, fun _ _ => rfl⟩

theorem pushText_apply (text : Option Str) (s : LuaStack CFunction Bot) :
    Natives.pushText text s = (.ok (), s.push (LuaValue.ofText text)) := by
  cases text <;> rfl

theorem pushId_apply (idx : Int) (s : LuaStack CFunction Bot) :
    Natives.pushId idx s = (.ok (), s.push (LuaValue.ofId (LuaBindings.positive idx))) := by
  rw [Natives.pushId, LuaBindings.positive]
  split
  · rfl
  · rfl

section
variable [NumberText] [Platform] {vs : List LuaValue} {o : Nat → LuaObject CFunction} {n : Nat}
  {b : Bot}

/-! ### Functions without results -/

omit [Platform] in
/-- A function that does something with a string, if it is given one. -/
theorem tells {v : LuaValue} {body : LuaC CFunction Bot Nat} {m : LuaM (List Answer)}
    (f : Str → Bot → Bot)
    (absent : v.asCString = none → ∃ rest, body ⟨v :: vs, o, n, b⟩ = (.ok 0, ⟨rest, o, n, b⟩) ∧
      m b = (.ok [], b))
    (present : ∀ str, v.asCString = some str →
      ∃ rest, body ⟨v :: vs, o, n, b⟩ = (.ok 0, ⟨rest, o, n, f str b⟩) ∧
        m b = (.ok [], f str b)) : Does ⟨v :: vs, o, n, b⟩ body m := by
  cases text : v.asCString with
  | none =>
    obtain ⟨rest, returns, means⟩ := absent text
    exact .nothing returns means
  | some str =>
    obtain ⟨rest, returns, means⟩ := present str text
    exact .nothing returns means

omit [Platform] in
theorem speak_does (f : Bot → Str → Bot) {m : LuaM (List Answer)} (v : LuaValue)
    (means : m b = (.ok [], (v.asCString.map (f b)).getD b)) :
    Does ⟨v :: vs, o, n, b⟩ (Natives.speak f) m := by
  obtain ⟨v', read⟩ := luaToString_last vs o n b v
  refine tells (fun str b => f b str) (fun text => ⟨v :: vs, ?_, ?_⟩)
    fun str text => ⟨v' :: vs, ?_, ?_⟩
  · rw [Natives.speak, bind_ok (isString_last _ _ _ _ v), text]
    rfl
  · rw [means, text]
    rfl
  · rw [text] at read
    rw [Natives.speak, bind_ok (isString_last _ _ _ _ v), text, Option.isSome_some, if_pos rfl,
      bind_ok read]
    rfl
  · rw [means, text]
    rfl

theorem say_does (v : LuaValue) :
    Does ⟨v :: vs, o, n, b⟩ Natives.say (CFunction.say.meaning₁ v) := by
  refine speak_does Bot.say v ?_
  cases text : v.asCString <;> (rw [CFunction.meaning₁, text]; rfl)

theorem emote_does (v : LuaValue) :
    Does ⟨v :: vs, o, n, b⟩ Natives.emote (CFunction.emote.meaning₁ v) :=
  speak_does Bot.emote v rfl

omit [Platform] in
theorem modAction_does (code : MessageCode) (v : LuaValue) :
    Does ⟨v :: vs, o, n, b⟩ (Natives.modAction code) (CFunction.moderate code v) := by
  obtain ⟨v', read⟩ := luaToString_last vs o n b v
  refine tells (fun name b => (b.write (.message code blank name)).2)
    (fun text => ⟨v' :: vs, ?_, ?_⟩) fun str text => ⟨v' :: vs, ?_, ?_⟩
  all_goals rw [text] at read
  · rw [Natives.modAction, bind_ok read]
    rfl
  · rw [CFunction.moderate, text]
    rfl
  · rw [Natives.modAction, bind_ok read]
    rfl
  · rw [CFunction.moderate, text]
    rfl

/-! ### Functions with one result -/

omit [Platform] in
/-- A function that needs a string. -/
theorem onString_does {s : LuaStack CFunction Bot} {body : LuaC CFunction Bot Nat}
    {v missing : LuaValue} {f : Str → LuaM LuaValue}
    (absent : v.asCString = none →
      ∃ rest, body s = (.ok 1, ⟨missing :: rest, s.objects, s.next, s.host⟩))
    (present : ∀ str, v.asCString = some str → ∃ w rest c,
      body s = (.ok 1, ⟨w :: rest, s.objects, s.next, c⟩) ∧ f str s.host = (.ok w, c)) :
    Does s body (CFunction.onString v missing f) := by
  cases text : v.asCString with
  | none =>
    obtain ⟨rest, returns⟩ := absent text
    refine .one rest returns ?_
    rw [CFunction.onString, text]
    rfl
  | some str =>
    obtain ⟨w, rest, c, returns, means⟩ := present str text
    refine .one rest returns ?_
    simp only [CFunction.onString, text]
    exact bind_ok means

omit [NumberText] [Platform] in
/-- A function that needs a number: it is asked for, and then converted. -/
theorem onNumber_does {v missing : LuaValue} {f : LuaNumber → LuaM LuaValue}
    {A : LuaNumber → LuaC CFunction Bot Nat}
    (present : ∀ x, ∃ w c, A x ⟨v :: vs, o, n, b⟩ = (.ok 1, ⟨w :: v :: vs, o, n, c⟩) ∧
      f x b = (.ok w, c)) :
    Does ⟨v :: vs, o, n, b⟩
      (do
        if ← isNumber (-1) then do
          let x ← toNumber (-1)
          A x
        else do
          LuaC.push missing
          pure 1)
      (CFunction.onNumber v missing f) := by
  cases number : v.asNumber with
  | none =>
    have means : CFunction.onNumber v missing f b = (.ok [.value missing], b) := by
      rw [CFunction.onNumber, number]
      rfl
    refine .one (v :: vs) ?_ means
    rw [bind_ok (isNumber_last _ _ _ _ v), number]
    rfl
  | some x =>
    obtain ⟨w, c, returns, means⟩ := present x
    have means : CFunction.onNumber v missing f b = (.ok [.value w], c) := by
      simp only [CFunction.onNumber, number]
      exact bind_ok means
    refine .one (v :: vs) ?_ means
    rw [bind_ok (isNumber_last _ _ _ _ v), number, Option.isSome_some, if_pos rfl,
      bind_ok (toNumber_last _ _ _ _ v), LuaValue.converted, number]
    exact returns

theorem quoteGetIDByPattern_does (v : LuaValue) :
    Does ⟨v :: vs, o, n, b⟩ Natives.quoteGetIDByPattern
      (CFunction.quoteGetIDByPattern.meaning₁ v) := by
  obtain ⟨v', read⟩ := luaToString_last vs o n b v
  refine onString_does (fun text => ⟨v :: vs, ?_⟩) fun str text => ⟨_, v' :: vs, _, ?_, rfl⟩
  · rw [Natives.quoteGetIDByPattern, bind_ok (isString_last _ _ _ _ v), text]
    rfl
  · rw [text] at read
    rw [Natives.quoteGetIDByPattern, bind_ok (isString_last _ _ _ _ v), text, Option.isSome_some,
      if_pos rfl, bind_ok read]
    exact bind_ok (pushId_apply _ _)

theorem quoteGetByID_does (v : LuaValue) :
    Does ⟨v :: vs, o, n, b⟩ Natives.quoteGetByID (CFunction.quoteGetByID.meaning₁ v) :=
  onNumber_does fun _ => ⟨_, _, bind_ok (pushText_apply _ _), rfl⟩

theorem quoteRemove_does (v : LuaValue) :
    Does ⟨v :: vs, o, n, b⟩ Natives.quoteRemove (CFunction.quoteRemove.meaning₁ v) :=
  onNumber_does fun _ => ⟨_, _, rfl, rfl⟩

theorem quoteGetAuthor_does (v : LuaValue) :
    Does ⟨v :: vs, o, n, b⟩ Natives.quoteGetAuthor (CFunction.quoteGetAuthor.meaning₁ v) :=
  onNumber_does fun _ => ⟨_, _, bind_ok (pushText_apply _ _), rfl⟩

omit [Platform] in
/-- A function that asks for a string at the top. -/
theorem string_does {v missing : LuaValue} {f : Str → LuaM LuaValue}
    {A : Option Str → LuaC CFunction Bot Nat}
    (absent : ∀ xs, A none ⟨xs, o, n, b⟩ = (.ok 1, ⟨missing :: xs, o, n, b⟩))
    (present : ∀ str xs, ∃ w c, A (some str) ⟨xs, o, n, b⟩ = (.ok 1, ⟨w :: xs, o, n, c⟩) ∧
      f str b = (.ok w, c)) :
    Does ⟨v :: vs, o, n, b⟩ (luaToString (-1) >>= A) (CFunction.onString v missing f) := by
  obtain ⟨v', read⟩ := luaToString_last vs o n b v
  refine onString_does (fun text => ⟨v' :: vs, ?_⟩) fun str text => ?_
  · rw [bind_ok read, text]
    exact absent (v' :: vs)
  · obtain ⟨w, c, returns, means⟩ := present str (v' :: vs)
    refine ⟨w, v' :: vs, c, ?_, means⟩
    rw [bind_ok read, text]
    exact returns

omit [Platform] in
/-- A function that asks for a string below the top, and then for one at the top. -/
theorem strings_does {v w missing : LuaValue} {f : Str → LuaM LuaValue}
    {A : Option Str → Option Str → LuaC CFunction Bot Nat}
    (absent : ∀ xs, A none w.asCString ⟨xs, o, n, b⟩ = (.ok 1, ⟨missing :: xs, o, n, b⟩))
    (present : ∀ str xs, ∃ r c,
      A (some str) w.asCString ⟨xs, o, n, b⟩ = (.ok 1, ⟨r :: xs, o, n, c⟩) ∧ f str b = (.ok r, c)) :
    Does ⟨w :: v :: vs, o, n, b⟩
      (do let s ← luaToString (-2); let t ← luaToString (-1); A s t)
      (CFunction.onString v missing f) := by
  obtain ⟨v', below⟩ := luaToString_second vs o n b v w
  obtain ⟨w', top⟩ := luaToString_last (v' :: vs) o n b w
  have runs : (do let s ← luaToString (-2); let t ← luaToString (-1); A s t)
      ⟨w :: v :: vs, o, n, b⟩ = A v.asCString w.asCString ⟨w' :: v' :: vs, o, n, b⟩ :=
    (bind_ok below).trans (bind_ok top)
  refine onString_does (fun text => ⟨w' :: v' :: vs, ?_⟩) fun str text => ?_
  · rw [runs, text]
    exact absent _
  · obtain ⟨r, c, returns, means⟩ := present str (w' :: v' :: vs)
    refine ⟨r, w' :: v' :: vs, c, ?_, means⟩
    rw [runs, text]
    exact returns

theorem getAccessLevel_does (v : LuaValue) :
    Does ⟨v :: vs, o, n, b⟩ Natives.getAccessLevel (CFunction.getAccessLevel.meaning₁ v) :=
  string_does (fun _ => rfl) fun _ _ => ⟨_, _, rfl, rfl⟩

theorem getWarnings_does (v : LuaValue) :
    Does ⟨v :: vs, o, n, b⟩ Natives.getWarnings (CFunction.getWarnings.meaning₁ v) :=
  string_does (fun _ => rfl) fun _ _ => ⟨_, _, rfl, rfl⟩

theorem getDescription_does (v : LuaValue) :
    Does ⟨v :: vs, o, n, b⟩ Natives.getDescription (CFunction.getDescription.meaning₁ v) := by
  refine string_does (fun _ => rfl) fun user xs =>
    ⟨.ofText ((UserDB.getUserEntry b.users user).map UserEntry.desc), b, ?_, rfl⟩
  have asked (s : LuaStack CFunction Bot) :
      Natives.ask (fun b => (some user).bind (UserDB.getUserEntry b.users)) s =
        (.ok (UserDB.getUserEntry s.host.users user), s) := rfl
  rw [bind_ok (asked _)]
  cases UserDB.getUserEntry b.users user with
  | none => rfl
  | some entry => rfl

omit [NumberText] [Platform] in
theorem setKeyVal_apply {s : LuaStack CFunction Bot} {id : Nat} {fields : LuaValue → LuaValue}
    (top : s.value (-1) = some (.object id)) (object : s.objects id = .table fields) (key : Str)
    (val : LuaValue) :
    Natives.setKeyVal key val s =
      (.ok (), s.setTable id (Function.update fields (.string key) val)) := by
  obtain ⟨stack, o, n, b⟩ := s
  cases stack with
  | nil => cases top
  | cons w vs =>
    obtain rfl : w = .object id := Option.some.inj top
    rw [Natives.setKeyVal, bind_ok (pushString_apply _ _), bind_ok (push_apply _ _)]
    exact setTable_apply (value_third _ _ _) object

/-- The table of an entry, field by field. -/
theorem getUserEntry_does (v : LuaValue) :
    Does ⟨v :: vs, o, n, b⟩ Natives.getUserEntry (CFunction.getUserEntry.meaning₁ v) := by
  obtain ⟨v', read⟩ := luaToString_last vs o n b v
  have asked (name : Option Str) (s : LuaStack CFunction Bot) :
      Natives.ask (fun b => name.bind (UserDB.getUserEntry b.users)) s =
        (.ok (name.bind (UserDB.getUserEntry s.host.users)), s) := rfl
  have runs : Natives.getUserEntry ⟨v :: vs, o, n, b⟩ = _ :=
    (bind_ok read).trans (bind_ok (asked _ _))
  cases found : v.asCString.bind (UserDB.getUserEntry b.users) with
  | none =>
    rw [found] at runs
    refine .one _ runs ?_
    cases text : v.asCString with
    | none =>
      rw [CFunction.meaning₁, text]
      rfl
    | some name =>
      rw [text] at found
      change UserDB.getUserEntry b.users name = none at found
      simp only [CFunction.meaning₁, text]
      rw [LuaBindings.getUserEntry, query_bind, found]
      rfl
  | some e =>
    rw [found] at runs
    obtain ⟨name, text, known⟩ := Option.bind_eq_some_iff.mp found
    let made : LuaStack CFunction Bot :=
      ((⟨v' :: vs, o, n, b⟩ : LuaStack CFunction Bot).alloc (.table fun _ => .nil)).push (.object n)
    have set (fields : LuaValue → LuaValue) (key : Str) (val : LuaValue) :
        Natives.setKeyVal key val (made.setTable n fields) =
          (.ok (), made.setTable n (Function.update fields (.string key) val)) := by
      rw [setKeyVal_apply rfl (objects_setTable_self _ _ _), setTable_setTable]
    have object : made.objects n = .table fun _ => .nil :=
      objects_alloc_self (⟨v' :: vs, o, n, b⟩ : LuaStack CFunction Bot) _
    have first (key : Str) (val : LuaValue) : Natives.setKeyVal key val made =
        (.ok (), made.setTable n (Function.update (fun _ => .nil) (.string key) val)) :=
      setKeyVal_apply rfl object key val
    have fields : Natives.getUserEntry ⟨v :: vs, o, n, b⟩ =
        (.ok 1, made.setTable n (entryFields e)) := by
      refine runs.trans ((bind_ok (newTable_apply _)).trans ?_)
      rw [bind_ok (first _ _), bind_ok (set _ _ _), bind_ok (set _ _ _), bind_ok (set _ _ _),
        bind_ok (set _ _ _), pure_apply]
      congr 2
      funext key
      simp only [Function.update_apply, entryFields]
    have means : CFunction.getUserEntry.meaning₁ v b = (.ok [.entry e], b) := by
      simp only [CFunction.meaning₁, text]
      rw [LuaBindings.getUserEntry, query_bind, known]
      rfl
    rw [Does, means]
    refine ⟨[.object n], v' :: vs, _, fields, rfl, rfl,
      .cons ⟨n, rfl, objects_setTable_self _ _ _⟩ .nil, fun id old => ?_⟩
    rw [objects_setTable_of_ne _ (Nat.ne_of_lt old)]
    exact objects_alloc_of_lt _ old _

theorem pm_does (v w : LuaValue) :
    Does ⟨w :: v :: vs, o, n, b⟩ Natives.pm (CFunction.pm.meaning₂ v w) := by
  obtain ⟨v', below⟩ := luaToString_second vs o n b v w
  obtain ⟨w', top⟩ := luaToString_last (v' :: vs) o n b w
  have runs : Natives.pm ⟨w :: v :: vs, o, n, b⟩ = _ := (bind_ok below).trans (bind_ok top)
  cases text : v.asCString with
  | none =>
    rw [text] at runs
    refine .nothing runs ?_
    rw [CFunction.meaning₂, text]
    rfl
  | some name =>
    cases text' : w.asCString with
    | none =>
      rw [text, text'] at runs
      refine .nothing runs ?_
      rw [CFunction.meaning₂, text, text']
      rfl
    | some msg =>
      rw [text, text'] at runs
      refine .nothing runs ?_
      rw [CFunction.meaning₂, text, text']
      rfl

theorem rand_does (v : LuaValue) :
    Does ⟨v :: vs, o, n, b⟩ Natives.rand (CFunction.rand.meaning₁ v) := by
  let drawn : Bot := { b with world := { b.world with values := b.world.values.tail } }
  have draws : (Natives.onBot fun b => (b.world.values.head,
      { b with world := { b.world with values := b.world.values.tail } }))
        (⟨v :: vs, o, n, b⟩ : LuaStack CFunction Bot) =
      (.ok b.world.values.head, ⟨v :: vs, o, n, drawn⟩) := rfl
  have runs : Natives.rand ⟨v :: vs, o, n, b⟩ = _ :=
    (bind_ok draws).trans (bind_ok (isNumber_last _ _ _ _ v))
  cases number : v.asNumber with
  | none =>
    rw [number] at runs
    refine .one (v :: vs) runs ?_
    simp only [CFunction.meaning₁, number]
    rfl
  | some bound =>
    have converted : v.converted = bound := by
      rw [LuaValue.converted, number]
      rfl
    simp only [number, Option.isSome_some, if_true] at runs
    rw [bind_ok (toNumber_last _ _ _ _ v), converted] at runs
    by_cases zero : bound.toUnsigned = 0
    · rw [if_pos zero] at runs
      have means : CFunction.rand.meaning₁ v b =
          (.error (.signal "Floating point exception".toList), drawn) := by
        simp only [CFunction.meaning₁, number]
        refine bind_error ?_
        rw [LuaBindings.rand, act_bind, if_pos zero]
        rfl
      rw [Does, means]
      exact ⟨_, runs, rfl⟩
    · rw [if_neg zero] at runs
      have rolled : LuaBindings.rand bound b =
          (.ok (b.world.values.head % bound.toUnsigned + 1).toNat, drawn) := by
        rw [LuaBindings.rand, act_bind, if_neg zero]
        rfl
      refine .one (v :: vs) runs ?_
      simp only [CFunction.meaning₁, number]
      exact bind_ok rolled

theorem quoteGetRandomID_does (vs : List LuaValue) :
    Does ⟨vs, o, n, b⟩ Natives.quoteGetRandomID (CFunction.quoteGetRandomID.meaning []) :=
  .one vs (bind_ok (pushId_apply _ _)) rfl

theorem quoteAdd_does (v w : LuaValue) :
    Does ⟨w :: v :: vs, o, n, b⟩ Natives.quoteAdd (CFunction.quoteAdd.meaning₂ v w) := by
  refine strings_does (fun _ => rfl) fun adder xs => ?_
  cases w.asCString with
  | none => exact ⟨_, _, rfl, rfl⟩
  | some quote => exact ⟨_, _, rfl, rfl⟩

theorem setDescription_does (v w : LuaValue) :
    Does ⟨w :: v :: vs, o, n, b⟩ Natives.setDescription
      (CFunction.setDescription.meaning₂ v w) := by
  refine strings_does (fun _ => rfl) fun target xs => ?_
  cases w.asCString with
  | none => exact ⟨_, _, rfl, rfl⟩
  | some desc => exact ⟨_, _, rfl, rfl⟩

theorem resolve_does (v w : LuaValue) :
    Does ⟨w :: v :: vs, o, n, b⟩ Natives.resolve (CFunction.resolve.meaning₂ v w) := by
  refine strings_does (fun _ => rfl) fun caller xs => ?_
  cases w.asCString with
  | none => exact ⟨_, _, rfl, rfl⟩
  | some pattern => exact ⟨_, _, rfl, rfl⟩

theorem protect_does (v w : LuaValue) :
    Does ⟨w :: v :: vs, o, n, b⟩ Natives.protect (CFunction.protect.meaning₂ v w) := by
  obtain ⟨v', below⟩ := luaToString_second vs o n b v w
  refine onString_does (fun text => ⟨w :: v' :: vs, ?_⟩) fun user text =>
    ⟨_, w :: v' :: vs, _, ?_, rfl⟩
  all_goals
    rw [text] at below
    rw [Natives.protect, bind_ok below]
    rfl

theorem setWarnings_does (v w : LuaValue) :
    Does ⟨w :: v :: vs, o, n, b⟩ Natives.setWarnings (CFunction.setWarnings.meaning₂ v w) := by
  obtain ⟨v', below⟩ := luaToString_second vs o n b v w
  have runs : Natives.setWarnings ⟨w :: v :: vs, o, n, b⟩ = _ :=
    (bind_ok below).trans (bind_ok (toNumber_last _ _ _ _ w))
  refine onString_does (fun text => ⟨w :: v' :: vs, ?_⟩) fun user text => ?_
  · rw [runs, text]
    rfl
  · rw [text] at runs
    by_cases outside : w.converted.toInt < 0 ∨ 5 < w.converted.toInt
    · refine ⟨.boolean false, w :: v' :: vs, b, ?_, ?_⟩
      · simp only [runs, if_pos outside]
        rfl
      · rw [LuaBindings.setWarnings, if_pos outside]
        rfl
    · refine ⟨.boolean (UserDB.setWarnings b.users user w.converted.toInt).1, w :: v' :: vs,
        { b with users := (UserDB.setWarnings b.users user w.converted.toInt).2 }, ?_, ?_⟩
      · simp only [runs, if_neg outside]
        rfl
      · rw [LuaBindings.setWarnings, if_neg outside]
        rfl

theorem setAccessLevel_does (v w : LuaValue)
    (level : (AccessLevel.ofInt? w.converted.toInt).isSome) :
    Does ⟨w :: v :: vs, o, n, b⟩ Natives.setAccessLevel
      (CFunction.setAccessLevel.meaning₂ v w) := by
  obtain ⟨v', below⟩ := luaToString_second vs o n b v w
  have runs : Natives.setAccessLevel ⟨w :: v :: vs, o, n, b⟩ = _ :=
    (bind_ok below).trans (bind_ok (toNumber_last _ _ _ _ w))
  obtain ⟨level, known⟩ := Option.isSome_iff_exists.mp level
  rw [known] at runs
  refine onString_does (fun text => ⟨w :: v' :: vs, ?_⟩) fun user text => ?_
  · rw [runs, text]
    rfl
  · rw [runs, text, known]
    exact ⟨_, w :: v' :: vs, _, rfl, rfl⟩

/-! ### All functions -/

theorem body_does₁ (f : CFunction) (one : f.arity = 1) (v : LuaValue) :
    Does ⟨v :: vs, o, n, b⟩ f.body (f.meaning₁ v) := by
  cases f with
  | say => exact say_does v
  | emote => exact emote_does v
  | kick | disable | ban | unban | mute | unmute => exact modAction_does _ v
  | quoteGetIDByPattern => exact quoteGetIDByPattern_does v
  | quoteGetByID => exact quoteGetByID_does v
  | quoteRemove => exact quoteRemove_does v
  | quoteGetAuthor => exact quoteGetAuthor_does v
  | getAccessLevel => exact getAccessLevel_does v
  | getUserEntry => exact getUserEntry_does v
  | getDescription => exact getDescription_does v
  | getWarnings => exact getWarnings_does v
  | rand => exact rand_does v
  | pm | quoteAdd | quoteGetRandomID | setAccessLevel | protect | setDescription | setWarnings
  | resolve => cases one

theorem body_does₂ (f : CFunction) (two : f.arity = 2) {v w : LuaValue} (fits : f.Fits [v, w]) :
    Does ⟨w :: v :: vs, o, n, b⟩ f.body (f.meaning₂ v w) := by
  cases f with
  | pm => exact pm_does v w
  | quoteAdd => exact quoteAdd_does v w
  | setAccessLevel => exact setAccessLevel_does v w (fits.level rfl v w rfl)
  | protect => exact protect_does v w
  | setDescription => exact setDescription_does v w
  | setWarnings => exact setWarnings_does v w
  | resolve => exact resolve_does v w
  | _ => cases two

/-- Every function, on a stack with more below the arguments it looks at. -/
theorem body_does (f : CFunction) {args : List LuaValue} (fits : f.Fits args) :
    Does ⟨args.reverse ++ vs, o, n, b⟩ f.body (f.meaning args) := by
  have enough := fits.enough
  match args, fits, enough with
  | [], _, zero =>
    have only : f = .quoteGetRandomID := by cases f <;> first | rfl | cases zero
    rw [only]
    exact quoteGetRandomID_does vs
  | [v], _, one => exact body_does₁ f one.symm v
  | [v, w], fits, two => exact body_does₂ f two.symm fits
  | _ :: _ :: _ :: _, _, many => cases f <;> cases many

/-- A call of a C function, with any values in front of the arguments it looks at: it returns the
answers of the program in the bindings for these arguments, and every object there was is unchanged,
or it stops with the program's error. The bot is left as by the program, and the caller's stack as
it was. -/
theorem calls_mean (f : CFunction) (more : List LuaValue) {args : List LuaValue}
    (fits : f.Fits args) (s : LuaStack CFunction Bot) :
    match f.meaning args s.host with
    | (.ok answers, b) => ∃ values s', call f.body (more ++ args) s = (.ok values, s') ∧
        s'.stack = s.stack ∧ s'.host = b ∧ List.Forall₂ (Shows s') values answers ∧
        ∀ id < s.next, s'.objects id = s.objects id
    | (.error e, b) => ∃ s', call f.body (more ++ args) s = (.error (faultOf e), s') ∧
        s'.stack = s.stack ∧ s'.host = b := by
  have does : Does ⟨args.reverse ++ more.reverse, s.objects, s.next, s.host⟩ f.body
      (f.meaning args) := body_does f fits
  rw [← List.reverse_append, Does] at does
  rcases means : f.meaning args s.host with ⟨e | answers, b⟩
  · rw [means] at does
    obtain ⟨s', stops, host⟩ := does
    refine ⟨{ s' with stack := s.stack }, ?_, rfl, host⟩
    rw [call, stops]
  · rw [means] at does
    obtain ⟨values, rest, s', returns, stack, host, shown, kept⟩ := does
    have results : (s'.stack.take values.length).reverse = values := by
      rw [stack, List.take_left' List.length_reverse, List.reverse_reverse]
    refine ⟨values, { s' with stack := s.stack }, ?_, rfl, host, shown.imp ?_, kept⟩
    · rw [call, returns]
      simp only [results]
    · intro v answer shows
      cases answer with
      | value w => exact shows
      | entry e => exact shows

end

/-- An entry is changed by the last two of three arguments. -/
theorem calls_mean_setAccessLevel : ∃ (b : Bot) (s' : LuaStack CFunction Bot),
    UserDB.getAccessLevel b.users "bob".toList = .user ∧
    call (@CFunction.body ⟨fun _ => []⟩ lp64 CFunction .setAccessLevel)
      [.nil, .string "BOB".toList, .number (.ofNat 3)] ⟨[.nil], fun _ => .other, 0, b⟩ =
        (.ok [.boolean true], s') ∧
    UserDB.getAccessLevel s'.host.users "bob".toList = .mod := by
  let b := Bot.initial (UserDB.addUser .empty "bob".toList .user) .empty .calm
  have means : @CFunction.meaning ⟨fun _ => []⟩ lp64 .setAccessLevel
      [.string "BOB".toList, .number (.ofNat 3)] b =
        (.ok [.value (.boolean true)],
          { b with users := (UserDB.setAccessLevel b.users "BOB".toList .mod).2 }) := by
    rfl
  have level : ∀ v w : LuaValue, [.string "BOB".toList, .number (.ofNat 3)] = [v, w] →
      (AccessLevel.ofInt? (@LuaNumber.toInt lp64 w.converted)).isSome := by
    rintro v w same
    cases same
    decide
  have result := @calls_mean ⟨fun _ => []⟩ lp64 .setAccessLevel [.nil] _
    (@CFunction.Fits.mk lp64 _ _ rfl fun _ => level) ⟨[.nil], fun _ => .other, 0, b⟩
  rw [means] at result
  obtain ⟨values, s', returns, -, host, shown, -⟩ := result
  refine ⟨b, s', by decide, ?_, ?_⟩
  · cases shown with
    | cons here rest =>
      cases rest
      cases here
      exact returns
  · rw [host]
    decide

end Properties
end MeepBot
