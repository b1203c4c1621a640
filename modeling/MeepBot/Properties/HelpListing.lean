import MeepBot.Scripts.Shipped

/-!
# The help listing

`help` without an argument is meant to list the commands by level. Its helpers could build the
listing, but they are not called with what they need.

* `help_never_lists`: no caller gets a complete listing, in any state.
-/

namespace MeepBot
namespace Properties

open Effect Scripts

/-! ### What a listing is -/

/-- The commands registered at a level, sorted, each of them once. -/
structure Group {H : Type} (reg : Registry H) (level : AccessLevel) (names : List Str) : Prop where
  sorted : names.Pairwise (· < ·)
  complete : ∀ cmd, cmd ∈ names ↔ reg.accessLevel.lookup cmd = some (.level level)

/-- The name that `LevelNames` has for a level, under the name of the constant and not under the
level itself. -/
def levelName : AccessLevel → Str
  | .banned => []
  | .user => "Users".toList
  | .op => "Ops".toList
  | .mod => "Mods".toList
  | .admin => "Admins".toList

/-- The section of a level: its name and the commands with commas in between. -/
def sectionOf (level : AccessLevel) (names : List Str) : Str :=
  levelName level ++ ": ".toList ++ (", ".toList).intercalate names ++ ".".toList

/-- A text that goes through the levels of users up to `level`, and for each one that has commands
is its section. A level without commands may be passed over or told in any other way. -/
def Listing {H : Type} (reg : Registry H) (level : AccessLevel) (text : Str) : Prop :=
  ∃ sections : AccessLevel → Str,
    (∀ l names, Group reg l names → names ≠ [] → sections l = sectionOf l names) ∧
      text = ([AccessLevel.user, .op, .mod, .admin].filter fun l => l ≤ level).flatMap sections

/-! ### What the helpers compute -/

/-- `GetFunctionsForLevel`, given a level. -/
def getFunctionsForLevel {H : Type} (reg : Registry H) (level : AccessLevel) : List Str :=
  let funcs := (reg.accessLevel.entries.filter fun e => decide (e.2 = .level level)).map Sigma.fst
  funcs.sortBy id

/-- `Stringify`, given a name and functions; without a first function it fails. -/
def stringify (name : Str) : List Str → Option Str
  | [] => none
  | func :: funcs =>
    some (funcs.foldl (fun ret f => ret ++ ", ".toList ++ f) (name ++ ": ".toList ++ func) ++
      ".".toList)

/-- Whatever the tables hold, the functions of a level are found, once each, and sorted. -/
theorem getFunctionsForLevel_group {H : Type} (reg : Registry H) (level : AccessLevel) :
    Group reg level (getFunctionsForLevel reg level) := by
  constructor
  · have nodup : (reg.accessLevel.entries.map Sigma.fst).Nodup := reg.accessLevel.nodupKeys
    apply List.sortBy_strict
    rw [List.map_id']
    exact nodup.sublist (List.filter_sublist.map _)
  · intro cmd
    rw [getFunctionsForLevel, List.mem_sortBy, List.mem_map, ← Option.mem_def,
      AList.mem_lookup_iff]
    constructor
    · rintro ⟨⟨name, value⟩, member, rfl⟩
      obtain ⟨entry, same⟩ := List.mem_filter.mp member
      obtain rfl : value = .level level := by simpa using same
      exact entry
    · intro entry
      exact ⟨_, List.mem_filter.mpr ⟨entry, by simp⟩, rfl⟩

/-- A level has one group only. -/
theorem group_unique {H : Type} {reg : Registry H} {level : AccessLevel} {names names' : List Str}
    (group : Group reg level names) (group' : Group reg level names') : names = names' := by
  have sameMembers : ∀ cmd, cmd ∈ names ↔ cmd ∈ names' := fun cmd =>
    (group.complete cmd).trans (group'.complete cmd).symm
  have perm : names.Perm names' :=
    (List.perm_ext_iff_of_nodup (group.sorted.imp fun below => below.ne)
      (group'.sorted.imp fun below => below.ne)).mpr sameMembers
  exact perm.eq_of_pairwise (fun _ _ _ _ below above => absurd below above.not_gt) group.sorted
    group'.sorted

theorem stringify_eq (level : AccessLevel) {names : List Str} (some : names ≠ []) :
    stringify (levelName level) names = Option.some (sectionOf level names) := by
  obtain ⟨func, funcs, rfl⟩ := List.exists_cons_of_ne_nil some
  rw [stringify, foldl_intercalate, intercalate_append]
  rfl

/-- The tables always have a listing, and it is what the helpers would put together. -/
theorem listing_of_helpers {H : Type} (reg : Registry H) (level : AccessLevel) :
    Listing reg level
      (([AccessLevel.user, .op, .mod, .admin].filter fun l => l ≤ level).flatMap fun l =>
        (stringify (levelName l) (getFunctionsForLevel reg l)).getD []) := by
  refine ⟨_, fun l names group some => ?_, rfl⟩
  rw [group_unique (getFunctionsForLevel_group reg l) group, stringify_eq l some]
  rfl

/-! ### What the command does -/

/-- The answer that tells a listing. -/
def announcement (listing : Str) : Str :=
  "Registered commands: ".toList ++ listing ++
    " For info on a specific command, use !help [command]".toList

theorem head?_announcement (listing : Str) : (announcement listing).head? = some 'R' := rfl

theorem announcement_ne_nil (listing : Str) : announcement listing ≠ [] := by
  intro empty
  have first := head?_announcement listing
  rw [empty] at first
  cases first

/-- What the command should do in a state: answer the caller with a complete listing. -/
def AnswersListing (type : LuaValue) (caller : Str) (params : Option Str) (b : Bot) : Prop :=
  ∃ l text, b.lua = some l ∧ Listing l.registry (UserDB.getAccessLevel b.users caller) text ∧
    help type caller params b = sayOrPM type (some caller) (some (announcement text)) b

/-- Below an operator nothing is said outside of a private message. -/
theorem help_silent {b : Bot} {caller : Str} {type : LuaValue}
    (silenced : UserDB.getAccessLevel b.users caller < .op ∧ type ≠ .typePM)
    (params : Option Str) : help type caller params b = (.ok (), b) := by
  simp only [help, LuaBindings.getAccessLevel, query_bind, if_pos silenced]
  rfl

/-- Without an argument the command fails, since `GetFunctionsSorted` is called without a level. -/
theorem help_none {b : Bot} {caller : Str} {type : LuaValue}
    (answers : ¬(UserDB.getAccessLevel b.users caller < .op ∧ type ≠ .typePM)) :
    help type caller none b = (.error (.error "'for' limit must be a number".toList), b) := by
  simp only [help, LuaBindings.getAccessLevel, query_bind, if_neg answers]
  rfl

/-- The dispatcher passes an empty argument, and help on it is what is looked for. -/
theorem help_empty {b : Bot} {caller : Str} {type : LuaValue}
    (answers : ¬(UserDB.getAccessLevel b.users caller < .op ∧ type ≠ .typePM)) :
    ∃ text, text.head? ≠ some 'R' ∧ text ≠ [] ∧
      help type caller (some []) b = sayOrPM type (some caller) (some text) b := by
  simp only [help, LuaBindings.getAccessLevel, query_bind, if_neg answers]
  cases b.lua.bind fun l => l.registry.help.lookup (clean []) with
  | none => exact ⟨_, by decide, by decide, rfl⟩
  | some text => exact ⟨_, by simp, by simp, rfl⟩

section
variable {b : Bot} (enabled : b.lua.any Lua.isEnabled = true) (loggedIn : b.loggedIn = true)
include enabled loggedIn

/-- A call that leaves the state as it is has not answered. -/
theorem not_answers_of_unchanged {type : LuaValue} {caller : Str} {params : Option Str}
    (unchanged : (help type caller params b).2 = b) : ¬AnswersListing type caller params b := by
  rintro ⟨l, listing, -, -, answer⟩
  obtain ⟨w, told, -⟩ := message_sayOrPM enabled loggedIn type caller (announcement_ne_nil listing)
  rw [← answer, unchanged] at told
  exact absurd told (by simp)

/-- For all tables, all rows of users and every caller, and whatever else the state is, while the
bot is enabled and logged in: in a room and in private, called by a script without an argument or
by the dispatcher with an empty one, the command does not answer with a complete listing. -/
theorem help_never_lists (type : LuaValue) (caller : Str) (params : Option Str)
    (noArgument : params.getD [] = []) : ¬AnswersListing type caller params b := by
  by_cases silenced : UserDB.getAccessLevel b.users caller < .op ∧ type ≠ .typePM
  · exact not_answers_of_unchanged enabled loggedIn (by rw [help_silent silenced])
  · cases params with
    | none => exact not_answers_of_unchanged enabled loggedIn (by rw [help_none silenced])
    | some argument =>
      obtain rfl : argument = [] := noArgument
      rintro ⟨l, listing, -, -, answer⟩
      obtain ⟨w, told, message⟩ :=
        message_sayOrPM enabled loggedIn type caller (announcement_ne_nil listing)
      -- what is told instead begins with another letter
      obtain ⟨text, other, nonempty, response⟩ := help_empty silenced
      obtain ⟨w', told', message'⟩ := message_sayOrPM enabled loggedIn type caller nonempty
      rw [← answer, response, told'] at told
      obtain rfl : w' = w := by simpa using told
      have same : text = announcement listing := message'.symm.trans message
      exact other (same ▸ head?_announcement listing)

end

/-- The bot when it has just logged in, with the shipped scripts. -/
def ready (users : UserTable) : Bot :=
  { Bot.initial users .empty .calm with loggedIn := true, lua := some ⟨true, true, shipped⟩ }

/-- An administrator asks for the commands of the shipped scripts in private. -/
theorem help_never_lists_admin :
    ¬AnswersListing .typePM "bob".toList none
      (ready ⟨[UserDB.newRow "bob".toList .admin], by decide⟩) :=
  help_never_lists rfl rfl _ _ _ rfl

/-- An operator asks for them in the room: the command fails. -/
theorem help_fails : ∃ users : UserTable, UserDB.getAccessLevel users "bob".toList = .op ∧
    (help (.typeOf .roomMessage) "bob".toList none (ready users)).1 =
      .error (.error "'for' limit must be a number".toList) ∧
    ¬AnswersListing (.typeOf .roomMessage) "bob".toList none (ready users) := by
  let users : UserTable := ⟨[UserDB.newRow "bob".toList .op], by decide⟩
  have level : UserDB.getAccessLevel users "bob".toList = .op := by decide
  have fails : help (.typeOf .roomMessage) "bob".toList none (ready users) =
      (.error (.error "'for' limit must be a number".toList), ready users) := by
    apply help_none
    rintro ⟨low, -⟩
    exact absurd level low.ne
  exact ⟨users, level, by rw [fails], not_answers_of_unchanged rfl rfl (by rw [fails])⟩

end Properties
end MeepBot
