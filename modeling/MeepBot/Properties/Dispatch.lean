import MeepBot.Effects

/-!
# The dispatcher

Which lines reach a handler, and which handlers come back.

* `reachable_iff`: a name reaches its handler if and only if the letters it starts with, in
  lower case, are a key of the handler and of a level the caller has.
* `respond_returns_iff`: a call of the dispatcher returns unless it is stopped in one of the
  ways listed by `Stops`.
-/

namespace MeepBot
namespace Properties

open Scripts Effect LuaBindings

/-! ### Reaching a handler -/

/-- A line makes the dispatcher call the handler `h` once, and do nothing else, whatever the
handlers do. -/
def Invokes {H : Type} (reg : Registry H) (h : H) (type : LuaValue) (caller line : Str) (b : Bot) :
    Prop :=
  ∃ params, ∀ call : H → LuaValue → Str → Option Str → LuaM Unit,
    Scripts.respond reg call type caller (some line) b = call h type caller (some params) b

/-- A name is registered with a level, and its handler is installed under the name or under
its lower case. -/
structure Installed {H : Type} (reg : Registry H) (n : Str) (lv : LuaValue) (h : H) : Prop where
  registered : reg.accessLevel.lookup n = some lv
  installed : reg.commands.lookup n = some h ∨ reg.commands.lookup (toLower n) = some h

/-- `Register` with a handler, where there was none under the name. -/
theorem installed_register {H : Type} (reg : Registry H) (n : Str) (lv : LuaValue) (help : Str)
    (h : H)
    (free : reg.commands.lookup n = none) : Installed (reg.register n lv help (some h)) n lv h where
  registered := AList.lookup_insert reg.accessLevel
  installed := by
    left
    simp only [Registry.register, free]
    exact AList.lookup_insert reg.commands

/-- `Register` without a handler, and an assignment under the name or under its lower case. -/
theorem installed_assign {H : Type} (reg : Registry H) (n : Str) (lv : LuaValue) (help : Str)
    (h : H)
    (key : Str) (own : key = n ∨ key = toLower n) :
    Installed ((reg.register n lv help none).assign key h) n lv h where
  registered := AList.lookup_insert reg.accessLevel
  installed := by
    rcases own with rfl | rfl
    · exact .inl (AList.lookup_insert _)
    · exact .inr (AList.lookup_insert _)

/-- What the handlers do decides what the dispatcher does only where it calls one. -/
theorem invokes_iff {H : Type} {reg : Registry H} {h : H} {type : LuaValue} {caller line : Str}
    {b : Bot} : Invokes reg h type caller line b ↔
      ∃ level params, request reg caller line = .command h level params ∧
        Allowed b caller level := by
  classical
  constructor
  · rintro ⟨params, same⟩
    -- where nothing is called, a handler that returns and one that fails would end alike
    have fixed (x : Except Abort Unit × Bot)
        (always : ∀ call : H → LuaValue → Str → Option Str → LuaM Unit,
          Scripts.respond reg call type caller (some line) b = x) : False := by
      have returns := (same fun _ _ _ _ => pure ()).symm.trans (always _)
      have fails := (same fun _ _ _ _ => throw (.error [])).symm.trans (always _)
      have clash := returns.trans fails.symm
      cases clash
    cases asked : request reg caller line with
    | ignored =>
      exact (fixed _ fun call => by rw [respond_eq, asked]).elim
    | nameless =>
      exact (fixed _ fun call => by rw [respond_eq, asked]).elim
    | unlevelled cmd =>
      exact (fixed _ fun call => by rw [respond_eq, asked]).elim
    | command h' level params' =>
      by_cases allowed : Allowed b caller level
      · refine ⟨level, params', ?_, allowed⟩
        by_contra different
        have other : h' ≠ h := by
          rintro rfl
          exact different rfl
        -- handlers that fail, `h` apart, tell which one is called
        have clash := same fun x _ _ _ => if x = h then pure () else throw (.error [])
        rw [respond_eq, asked] at clash
        simp only [if_pos allowed, if_neg other, if_true] at clash
        cases clash
      · exact (fixed (.ok (), b) fun call => by
          rw [respond_eq, asked]
          simp only [if_neg allowed]).elim
  · rintro ⟨level, params, asked, allowed⟩
    refine ⟨params, fun call => ?_⟩
    rw [respond_eq, asked]
    simp only [if_pos allowed]

theorem takeWhile_toLower (s : Str) :
    (toLower s).takeWhile Char.isAlpha = toLower (s.takeWhile Char.isAlpha) := by
  rw [toLower, toLower, List.takeWhile_map]
  congr 2
  funext c
  exact isAlpha_toLower c

/-- The letters a name starts with, in lower case: the key the dispatcher looks for. -/
def keyOf (n : Str) : Str := toLower (n.takeWhile Char.isAlpha)

/-- The key of a name is the handler's, and has a level that the caller reaches. -/
structure Found {H : Type} (reg : Registry H) (n : Str) (h : H) (caller : Str) (b : Bot) :
    Prop where
  letters : keyOf n ≠ []
  command : reg.commands.lookup (keyOf n) = some h
  level : ∃ level, reg.accessLevel.lookup (keyOf n) = some level ∧ Allowed b caller level

theorem keyOf_variant {typed n : Str} (variant : toLower typed = toLower n) :
    keyOf typed = keyOf n := by
  rw [keyOf, keyOf, ← takeWhile_toLower, ← takeWhile_toLower, variant]

/-- The name typed ends at the white space behind it at the latest. -/
theorem splitCommand_typed {typed : Str} (letters : keyOf typed ≠ []) (args : Str) :
    ∃ params, splitCommand ('!' :: (typed ++ ' ' :: args)) =
      some (typed.takeWhile Char.isAlpha, params) := by
  have name : (typed ++ ' ' :: args).takeWhile Char.isAlpha = typed.takeWhile Char.isAlpha :=
    takeWhile_append_stop _ _ _ (by simp)
  have nonempty : typed.takeWhile Char.isAlpha ≠ [] := by simpa [keyOf, toLower] using letters
  simp only [splitCommand, name, if_neg nonempty]
  exact ⟨_, rfl⟩

theorem splitCommand_nameless {typed : Str} (empty : keyOf typed = []) (args : Str) :
    splitCommand ('!' :: (typed ++ ' ' :: args)) = none := by
  have name : (typed ++ ' ' :: args).takeWhile Char.isAlpha = typed.takeWhile Char.isAlpha :=
    takeWhile_append_stop _ _ _ (by simp)
  have none : typed.takeWhile Char.isAlpha = [] := by simpa [keyOf, toLower] using empty
  simp only [splitCommand, name, if_pos none]

theorem request_typed {H : Type} {reg : Registry H} {h : H} {caller typed args : Str} {b : Bot}
    (other : caller ≠ "MeepBot".toList) :
    (∃ level params, request reg caller ('!' :: (typed ++ ' ' :: args)) = .command h level params ∧
      Allowed b caller level) ↔ Found reg typed h caller b := by
  have mark := not_skipped other (typed ++ ' ' :: args)
  by_cases letters : keyOf typed = []
  · simp only [request, if_neg mark, splitCommand_nameless letters]
    apply iff_of_false
    · rintro ⟨_, _, asked, -⟩
      cases asked
    · exact fun found => found.letters letters
  · obtain ⟨params, parts⟩ := splitCommand_typed letters args
    simp only [request, if_neg mark, parts]
    generalize key : toLower (typed.takeWhile Char.isAlpha) = k
    obtain rfl : keyOf typed = k := key
    -- the two tables are looked up with the key of the name, handlers first
    cases handler : reg.commands.lookup (keyOf typed) with
    | none =>
      refine ⟨?_, fun found => ?_⟩
      · rintro ⟨_, _, asked, -⟩
        cases asked
      · rw [found.command] at handler
        cases handler
    | some h' =>
      simp only
      cases level : reg.accessLevel.lookup (keyOf typed) with
      | none =>
        refine ⟨?_, fun found => ?_⟩
        · rintro ⟨_, _, asked, -⟩
          cases asked
        · obtain ⟨l, registered, -⟩ := found.level
          rw [registered] at level
          cases level
      | some l =>
        constructor
        · rintro ⟨l', params', asked, allowed⟩
          split at asked
          next =>
            cases asked
            exact ⟨letters, handler, l, level, allowed⟩
          next => cases asked
        · intro found
          obtain ⟨l', registered, allowed⟩ := found.level
          have command := found.command
          rw [registered] at level
          rw [command] at handler
          cases level
          cases handler
          obtain ⟨x, rfl, -⟩ := id allowed
          exact ⟨_, params, rfl, allowed⟩

theorem keyOf_lower {n : Str} (lower : ∀ c ∈ n, c.isLower = true) : keyOf n = n := by
  have letters : n.takeWhile Char.isAlpha = n :=
    List.takeWhile_eq_self_iff.mpr fun c member => by
      change (c.isUpper || c.isLower) = true
      rw [lower c member, Bool.or_true]
  rw [keyOf, letters, toLower_eq_self lower]

/-- An installed name, typed in any letter case by who has its level, calls its handler if and
only if its key is the handler's and has a level that the caller reaches. That is the case for
every name of lower-case letters. -/
theorem reachable_iff {H : Type} (reg : Registry H) (n : Str) (lv : LuaValue) (h : H)
    (installed : Installed reg n lv h) (b : Bot) (enabled : b.lua.any Lua.isEnabled = true)
    (type : LuaValue) (caller : Str) (other : caller ≠ "MeepBot".toList)
    (reaches : ∃ x, lv = .number x ∧
      LuaNumber.le x (.ofNat (UserDB.getAccessLevel b.users caller).value) = true)
    (typed : Str) (variant : toLower typed = toLower n) (args : Str) :
    (Invokes reg h type caller ('!' :: (typed ++ ' ' :: args)) b ↔ Found reg n h caller b) ∧
    (n ≠ [] → (∀ c ∈ n, c.isLower = true) →
      Invokes reg h type caller ('!' :: (typed ++ ' ' :: args)) b) := by
  have same := keyOf_variant variant
  have decides : Invokes reg h type caller ('!' :: (typed ++ ' ' :: args)) b ↔
      Found reg n h caller b := by
    rw [invokes_iff, request_typed other]
    exact ⟨fun ⟨h1, h2, h3⟩ => ⟨same ▸ h1, same ▸ h2, same ▸ h3⟩,
      fun ⟨h1, h2, h3⟩ => ⟨same ▸ h1, same ▸ h2, same ▸ h3⟩⟩
  refine ⟨decides, fun nonempty lower => decides.mpr ?_⟩
  -- such a name is its own key, so the name and its lower case are one key of the table
  have own := keyOf_lower lower
  obtain ⟨x, rfl, high⟩ := reaches
  exact
    { letters := by rwa [own]
      command := by
        rw [own]
        rcases installed.installed with found | found
        · exact found
        · rwa [toLower_eq_self lower] at found
      level := by
        rw [own]
        refine ⟨.number x, installed.registered, x, rfl, ?_, high⟩
        rintro ⟨-, off⟩
        rw [off] at enabled
        cases enabled }

theorem reachable_iff_roll :
    Invokes shipped .roll .typePM "bob".toList "!RoLL 1d6".toList
      { Bot.initial ⟨[⟨"bob".toList, none, .op, false, 0, none⟩], by decide⟩ .empty .calm with
        lua := some loaded } := by
  have installed : Installed shipped "roll".toList (LuaValue.level .op) .roll :=
    ⟨by decide +kernel, .inl (by decide +kernel)⟩
  exact (reachable_iff shipped "roll".toList _ _ installed _ rfl _ _ (by decide)
    ⟨_, rfl, by decide⟩ "RoLL".toList (by decide) "1d6".toList).2 (by decide)
    (List.all_eq_true.mp (by decide))

/-- `8ball` does not start with a letter, and `Kick` is registered with a capital. -/
theorem not_reachable : ∃ b : Bot, b.lua.any Lua.isEnabled = true ∧
    UserDB.getAccessLevel b.users "Mia".toList = .admin ∧
    Installed shipped "8ball".toList (LuaValue.level .op) .eightBall ∧
    ¬Invokes shipped .eightBall .typePM "Mia".toList "!8ball will it rain?".toList b ∧
    Installed shipped "Kick".toList (LuaValue.level .mod) .kick ∧
    ¬Invokes shipped .kick .typePM "Mia".toList "!Kick bob".toList b := by
  let mia : UserRow := ⟨"Mia".toList, none, .admin, false, 0, none⟩
  refine ⟨{ Bot.initial ⟨[mia], by decide⟩ .empty .calm with lua := some loaded }, rfl, rfl,
    ⟨by decide +kernel, .inl (by decide +kernel)⟩, ?_,
    ⟨by decide +kernel, .inr (by decide +kernel)⟩, ?_⟩
  · rw [invokes_iff, show "!8ball will it rain?".toList =
      '!' :: ("8ball".toList ++ ' ' :: "will it rain?".toList) from rfl, request_typed (by decide)]
    exact fun found => found.letters (by decide)
  · rw [invokes_iff,
      show "!Kick bob".toList = '!' :: ("Kick".toList ++ ' ' :: "bob".toList) from rfl,
      request_typed (by decide)]
    intro found
    obtain ⟨level, registered, -⟩ := found.level
    have none : shipped.accessLevel.lookup (keyOf "Kick".toList) = none := by decide +kernel
    rw [none] at registered
    cases registered

/-! ### Coming back from a handler -/

variable [Platform]

/-- The quote whose number stands in a text. -/
def numbered (quotes : QuotesTable) (text : Str) : Option Str :=
  ((findNumber text).bind LuaNumber.tonumber).bind fun id => QuotesDB.getQuoteByID quotes id.toInt

/-- What stops a handler: `geico` always, `describe` on a name without a row, `rollx` on a
number that is converted to zero, and `quote` on an id cut to 32 bits that no quote has. -/
def Stops (b : Bot) (type : LuaValue) (caller params : Str) : Command → Prop
  | .geico => True
  | .describe => UserDB.rowOf b.users (b.userList.resolve caller params) = none
  | .rollx =>
    ∃ sides, rollxSides params = some sides ∧ sides.isZero = false ∧
      LuaNumber.lt (.ofNat maxRollxSides) sides = false ∧ sides.toUnsigned = 0
  | .quote =>
    let pattern := if toLower params = "me".toList then caller else params
    let idx := QuotesDB.getIDByPattern b.quotes pattern b.world.picks.head
    ¬(UserDB.getAccessLevel b.users caller = .user ∧ type ≠ .typePM) ∧
      numbered b.quotes pattern = none ∧ 0 < idx ∧ QuotesDB.getQuoteByID b.quotes idx = none
  | _ => False

/-- What stops the dispatcher: a mark without a name, or a handler that is stopped. -/
def Stopped (b : Bot) (type : LuaValue) (caller line : Str) : Prop :=
  request shipped caller line = .nameless ∨
    ∃ c level params, request shipped caller line = .command c level params ∧
      Allowed b caller level ∧ Stops b type caller params c

omit [Platform] in
theorem sayOrPM_returns (type : LuaValue) (caller text : Str) (b : Bot) :
    (sayOrPM type (some caller) (some text) b).1 = .ok () := by
  have keeps : Keeps (fun _ => True) (sayOrPM type (some caller) (some text)) fun _ => False :=
    sayOrPM_keeps (closed_of_stores (fun _ _ _ => id) caller) type (Nat.le_refl _) trivial
  obtain ⟨_, returns⟩ := keeps.succeeds (s := b) trivial
  exact returns

theorem describe_returns_iff (type : LuaValue) (caller params : Str) (b : Bot) :
    (describe type caller (some params) b).1 = .ok () ↔ ¬Stops b type caller params .describe := by
  obtain ⟨target, resolved⟩ : ∃ target, b.userList.resolve caller params = target := ⟨_, rfl⟩
  simp only [describe, resolveParams, getUserEntry, query_bind, resolved, Stops]
  cases row : UserDB.rowOf b.users target with
  | none =>
    simp only [UserDB.getUserEntry_none row]
    exact iff_of_false (by rintro ⟨⟩) fun known => known trivial
  | some r =>
    simp only [UserDB.getUserEntry_of_row row]
    exact iff_of_true (sayOrPM_returns type caller _ b) (by rintro ⟨⟩)

theorem rollx_returns_iff (type : LuaValue) (caller params : Str) (b : Bot) :
    (rollx type caller (some params) b).1 = .ok () ↔ ¬Stops b type caller params .rollx := by
  simp only [rollx, Stops]
  cases number : rollxSides params with
  | none => exact iff_of_true (sayOrPM_returns type caller _ b) (by rintro ⟨_, ⟨⟩, -⟩)
  | some sides =>
    cases zero : sides.isZero with
    | true =>
      rw [Option.filter_some, if_neg (by simp [zero])]
      apply iff_of_true (sayOrPM_returns type caller _ b)
      rintro ⟨_, ⟨⟩, nonzero, -⟩
      rw [zero] at nonzero
      cases nonzero
    | false =>
      rw [Option.filter_some, if_pos (by simp [zero])]
      simp only
      by_cases large : LuaNumber.lt (.ofNat maxRollxSides) sides = true
      · rw [if_pos large]
        apply iff_of_true (sayOrPM_returns type caller _ b)
        rintro ⟨_, ⟨⟩, -, small, -⟩
        rw [large] at small
        cases small
      · rw [if_neg large]
        -- admitted, but the remainder is taken by the converted number
        by_cases converted : sides.toUnsigned = 0
        · simp only [rand, if_pos converted]
          refine iff_of_false (by rintro ⟨⟩) fun admitted => admitted ?_
          exact ⟨sides, rfl, zero, by simpa using large, converted⟩
        · simp only [rand, if_neg converted]
          apply iff_of_true (sayOrPM_returns type caller _ _)
          rintro ⟨_, ⟨⟩, -, -, same⟩
          exact converted same

/-- A number asked for directly finds the quote with that number. -/
theorem onNumber_quoteGetByID (digits : Str) (b : Bot) :
    onNumber quoteGetByID none (.string digits) b =
      (.ok ((LuaNumber.tonumber digits).bind fun id =>
        QuotesDB.getQuoteByID b.quotes id.toInt), b) := by
  unfold onNumber
  simp only [LuaValue.toNumber]
  cases LuaNumber.tonumber digits <;> rfl

/-- An id given by the database is handed back unchanged. -/
theorem toInt_positive {idx : Int} (positive : 0 < idx) (bounded : idx < 2 ^ 31) :
    (LuaNumber.finite idx).toInt = idx := by
  rw [LuaNumber.toInt, LuaNumber.inRange, LuaNumber.truncate_intCast, if_pos (by omega)]
  rfl

omit [Platform] in
theorem choose_lt (rows : List QuoteRow) (i : Nat) : QuotesDB.choose rows i < 2 ^ 31 := by
  unfold QuotesDB.choose
  split
  next r _ =>
    have high := Int.bmod_lt (x := r.id) (m := 2 ^ 32) (by decide)
    simp only [QuotesDB.columnInt]
    omega
  next => decide

/-- The quote with the number in the text, else one that matches the text. -/
theorem quoteToShow_eq (caller params : Str) (b : Bot) {pattern : Str}
    (effective : (if toLower params = "me".toList then caller else params) = pattern) :
    quoteToShow caller (some params) b =
      match numbered b.quotes pattern with
      | some _ => (.ok ((findNumber pattern).map QuoteId.ofDigits), b)
      | none =>
        (.ok ((positive (QuotesDB.getIDByPattern b.quotes pattern b.world.picks.head)).map
          QuoteId.ofIndex),
          { b with world := { b.world with picks := b.world.picks.tail } }) := by
  simp only [quoteToShow, effective, numbered]
  cases number : findNumber pattern with
  | none => rfl
  | some digits =>
    simp only [Option.bind_some]
    rw [bind_ok (onNumber_quoteGetByID digits b)]
    cases (LuaNumber.tonumber digits).bind fun id => QuotesDB.getQuoteByID b.quotes id.toInt <;> rfl

theorem quote_returns_iff (type : LuaValue) (caller params : Str) (b : Bot) :
    (quote type caller (some params) b).1 = .ok () ↔ ¬Stops b type caller params .quote := by
  obtain ⟨pattern, effective⟩ : ∃ pattern,
      (if toLower params = "me".toList then caller else params) = pattern := ⟨_, rfl⟩
  simp only [quote, getAccessLevel, query_bind, Stops, effective]
  by_cases silenced : UserDB.getAccessLevel b.users caller = .user ∧ type ≠ .typePM
  · rw [if_pos silenced]
    exact iff_of_true rfl fun stops => stops.1 silenced
  · rw [if_neg silenced]
    have shown := quoteToShow_eq caller params b effective
    cases known : numbered b.quotes pattern with
    | some text =>
      -- the quote is read a second time, by the digits it was found with
      obtain ⟨digits, number, found⟩ : ∃ digits, findNumber pattern = some digits ∧
          (LuaNumber.tonumber digits).bind (fun id => QuotesDB.getQuoteByID b.quotes id.toInt) =
            some text := by
        rw [numbered] at known
        cases number : findNumber pattern with
        | none => rw [number] at known; cases known
        | some digits => exact ⟨digits, rfl, by rw [number] at known; exact known⟩
      rw [known, number] at shown
      rw [bind_ok shown]
      simp only [Option.map_some]
      have again := onNumber_quoteGetByID digits b
      rw [found] at again
      rw [QuoteId.ofDigits, bind_ok again]
      exact iff_of_true (sayOrPM_returns type caller _ b) fun stops => by cases stops.2.1
    | none =>
      -- the id of a matching row comes back as an `int`, and may be another one
      rw [known] at shown
      rw [bind_ok shown]
      by_cases above : 0 < QuotesDB.getIDByPattern b.quotes pattern b.world.picks.head
      · simp only [positive, if_pos above, Option.map_some, QuoteId.ofIndex, onNumber,
          LuaValue.toNumber, quoteGetByID, query_bind, toInt_positive above (choose_lt _ _)]
        cases quote : QuotesDB.getQuoteByID b.quotes
            (QuotesDB.getIDByPattern b.quotes pattern b.world.picks.head) with
        | none =>
          exact iff_of_false (by rintro ⟨⟩) fun stays => stays ⟨silenced, trivial, above, rfl⟩
        | some text =>
          exact iff_of_true (sayOrPM_returns type caller _ _) fun stops => by cases stops.2.2.2
      · simp only [positive, if_neg above, Option.map_none]
        exact iff_of_true (sayOrPM_returns type caller _ _) fun stops => absurd stops.2.2.1 above

/-- A handler returns unless it is stopped. -/
theorem run_returns_iff (c : Command) (type : LuaValue) (caller params : Str) (b : Bot) :
    (run c type caller (some params) b).1 = .ok () ↔ ¬Stops b type caller params c := by
  have always (safe : ¬CanFail c) (free : ¬Stops b type caller params c) :
      (run c type caller (some params) b).1 = .ok () ↔ ¬Stops b type caller params c := by
    have sets : Sets TextClass.all caller (fun _ => True) c :=
      sets_of_changes (fun _ _ _ => id) (fun _ _ => id) (fun _ _ _ => id) fun _ _ _ => id
    have keeps : Keeps (fun _ => True) (run c type caller (some params)) fun _ => False :=
      run_keeps (closed_of_stores (fun _ _ _ => id) caller) trivial c sets
        (fun fails => (safe fails).elim) type trivial
    obtain ⟨_, returns⟩ := keeps.succeeds (s := b) trivial
    exact iff_of_true returns free
  cases c with
  | geico => exact iff_of_false (by rintro ⟨⟩) fun stays => stays trivial
  | describe => exact describe_returns_iff type caller params b
  | rollx => exact rollx_returns_iff type caller params b
  | quote => exact quote_returns_iff type caller params b
  | _ => exact always id id

/-- A call of the dispatcher of the shipped scripts returns, and `Respond` of the bindings is
true, unless it is stopped. -/
theorem respond_returns_iff (b : Bot) (type : LuaValue) (caller line : Str) :
    ((Scripts.respond shipped run type caller (some line) b).1 = .ok () ↔
      ¬Stopped b type caller line) ∧
    ∀ l code, l.registry = shipped → type = .typeOf code →
      ((b.callRespond l code caller line).1 = true ↔ ¬Stopped b type caller line) := by
  have returns : (Scripts.respond shipped run type caller (some line) b).1 = .ok () ↔
      ¬Stopped b type caller line := by
    rw [respond_eq, Stopped]
    cases asked : request shipped caller line with
    | ignored =>
      apply iff_of_true rfl
      rintro (same | ⟨_, _, _, same, -⟩) <;> cases same
    | nameless => exact iff_of_false (by rintro ⟨⟩) fun stays => stays (.inl rfl)
    | unlevelled cmd =>
      apply iff_of_true (sayOrPM_returns type caller _ b)
      rintro (same | ⟨_, _, _, same, -⟩) <;> cases same
    | command c level params =>
      by_cases allowed : Allowed b caller level
      · simp only [if_pos allowed]
        rw [run_returns_iff]
        refine not_congr ⟨fun stops => .inr ⟨c, level, params, rfl, allowed, stops⟩, ?_⟩
        rintro (same | ⟨_, _, _, same, -, stops⟩)
        · cases same
        · cases same
          exact stops
      · simp only [if_neg allowed]
        apply iff_of_true trivial
        rintro (same | ⟨_, _, _, same, yes, -⟩)
        · cases same
        · cases same
          exact allowed yes
  refine ⟨returns, ?_⟩
  rintro l code registry rfl
  rw [← returns, Bot.callRespond, Bot.callRespondUnder, Bot.respond_line, registry]
  split
  next found => rw [found]; exact iff_of_true rfl rfl
  next found => rw [found]; exact iff_of_false (by rintro ⟨⟩) (by rintro ⟨⟩)
  next found => rw [found]; exact iff_of_false (by rintro ⟨⟩) (by rintro ⟨⟩)

omit [Platform]

theorem respond_returns_iff_roll :
    (@Scripts.respond Command shipped (@run lp64) .typePM "bob".toList (some "!roll 1d6".toList)
      { Bot.initial .empty .empty .calm with lua := some loaded }).1 = .ok () := by
  let _ := lp64
  have asks : request shipped "bob".toList "!roll 1d6".toList =
      .command .roll (LuaValue.level .op) "1d6".toList := by decide +kernel
  apply (respond_returns_iff _ _ _ _).1.mpr
  rintro (same | ⟨c, level, params, same, -, stops⟩)
  · rw [asks] at same
    cases same
  · rw [asks] at same
    cases same
    exact stops

/-- An exclamation mark in front of a digit. -/
theorem respond_stopped : ∃ (b : Bot) (type : LuaValue) (caller line : Str),
    caller ≠ "MeepBot".toList ∧ b.lua = some loaded ∧
      (@Scripts.respond Command shipped (@run lp64) type caller (some line) b).1 ≠ .ok () := by
  refine ⟨{ Bot.initial .empty .empty .calm with lua := some loaded }, .typePM, "bob".toList,
    "!8ball".toList, by decide, rfl, ?_⟩
  rw [respond_eq, show request shipped "bob".toList "!8ball".toList = .nameless from rfl]
  rintro ⟨⟩

end Properties
end MeepBot
