import MeepBot.Scripts.Shipped

/-!
# Arguments

What a handler gets of the text behind its command.

* `arguments_documented_iff`: the text without its leading white space, unless nothing is left
  of it: then the handler gets an empty text instead of nil.
-/

namespace MeepBot
namespace Properties

open Scripts Effect

/-- The parameter as it is documented: nil where the text is blank. -/
def documentedParams (text : Str) : Option Str :=
  if text.dropWhile isSpace = [] then none else some (text.dropWhile isSpace)

/-- The letters end where the text begins. -/
theorem splitCommand_letters {cmd text : Str} (letters : ∀ c ∈ cmd, c.isAlpha = true)
    (nonempty : cmd ≠ []) (ends : ∀ c ∈ text.head?, c.isAlpha = false) :
    splitCommand ('!' :: (cmd ++ text)) = some (cmd, text.dropWhile isSpace) := by
  obtain ⟨name, rest⟩ := run_append_stop Char.isAlpha letters ends
  simp only [splitCommand, name, rest, if_neg nonempty]

/-- The dispatcher calls the handler with the text, also where it is blank. -/
theorem respond_command {H : Type} {reg : Registry H} {h : H} {level : LuaValue}
    {caller : Str} (cmd text : Str) {b : Bot} (letters : ∀ c ∈ cmd, c.isAlpha = true)
    (nonempty : cmd ≠ []) (ends : ∀ c ∈ text.head?, c.isAlpha = false)
    (other : caller ≠ "MeepBot".toList)
    (command : reg.commands.lookup (toLower cmd) = some h)
    (registered : reg.accessLevel.lookup (toLower cmd) = some level)
    (allowed : Allowed b caller level) (type : LuaValue)
    (call : H → LuaValue → Str → Option Str → LuaM Unit) :
    respond reg call type caller (some ('!' :: (cmd ++ text))) b =
      call h type caller (some (text.dropWhile isSpace)) b := by
  have asked : request reg caller ('!' :: (cmd ++ text)) =
      .command h level (text.dropWhile isSpace) := by
    obtain ⟨x, rfl, -⟩ := id allowed
    simp only [request, if_neg (not_skipped other _), splitCommand_letters letters nonempty ends,
      command, registered]
    rfl
  rw [respond_eq, asked]
  simp only [if_pos allowed]

/-- A handler that tells an empty parameter from nil. -/
def needsParams : Option Str → LuaM Unit
  | none => throw (.error [])
  | some _ => pure ()

theorem needsParams_nil (text : Str) (b : Bot) :
    needsParams (some text) b ≠ needsParams none b := by
  intro same
  cases same

/-- For every command that a caller has access to, in any letter case and with any handler, and
every text behind its letters: the handler is called with the parameter that is documented if
and only if the text is not blank. -/
theorem arguments_documented_iff {H : Type} (reg : Registry H) (h : H) (level : LuaValue)
    (caller cmd text : Str) (b : Bot) (letters : ∀ c ∈ cmd, c.isAlpha = true)
    (nonempty : cmd ≠ []) (ends : ∀ c ∈ text.head?, c.isAlpha = false)
    (other : caller ≠ "MeepBot".toList)
    (command : reg.commands.lookup (toLower cmd) = some h)
    (registered : reg.accessLevel.lookup (toLower cmd) = some level)
    (allowed : Allowed b caller level) (type : LuaValue) :
    (∀ call : H → LuaValue → Str → Option Str → LuaM Unit,
      respond reg call type caller (some ('!' :: (cmd ++ text))) b =
        call h type caller (documentedParams text) b) ↔ ∃ c ∈ text, isSpace c = false := by
  have blank : text.dropWhile isSpace = [] ↔ ¬∃ c ∈ text, isSpace c = false := by
    simp [List.dropWhile_eq_nil_iff]
  have called := respond_command cmd text letters nonempty ends other command registered
    allowed type
  rw [documentedParams]
  constructor
  · intro documented
    by_contra none
    have same := documented fun _ _ _ params => needsParams params
    rw [called, if_pos (blank.mpr none)] at same
    exact needsParams_nil _ b same
  · intro some call
    rw [called, if_neg fun empty => blank.mp empty some]

/-- A bot that is enabled, and knows an operator. -/
def withOperator : Bot :=
  { Bot.initial ⟨[⟨"bob".toList, none, .op, false, 0, none⟩], by decide⟩ .empty .calm with
    lua := some loaded }

theorem arguments_documented_iff_roll :
    respond shipped (fun _ _ _ params => needsParams params) .typePM "bob".toList
      (some "!Roll  !2d6 ".toList) withOperator =
        needsParams (some "!2d6 ".toList) withOperator :=
  (arguments_documented_iff shipped .roll (LuaValue.level .op) "bob".toList "Roll".toList
    "  !2d6 ".toList withOperator (List.all_eq_true.mp (by decide)) (by decide) (by simp)
    (by decide) (by decide +kernel) (by decide +kernel) (by decide +kernel) .typePM).mpr
    ⟨'!', by decide, by decide⟩ fun _ _ _ params => needsParams params

/-- Without a parameter, `roll` does not get nil. -/
theorem arguments_undocumented : ∃ call : Command → LuaValue → Str → Option Str → LuaM Unit,
    shipped.commands.lookup "roll".toList = some .roll ∧
    shipped.accessLevel.lookup "roll".toList = some (LuaValue.level .op) ∧
    Allowed withOperator "bob".toList (LuaValue.level .op) ∧
    respond shipped call .typePM "bob".toList (some "!roll".toList) withOperator ≠
      call .roll .typePM "bob".toList none withOperator := by
  have command : shipped.commands.lookup "roll".toList = some .roll := by decide +kernel
  have registered : shipped.accessLevel.lookup "roll".toList = some (LuaValue.level .op) := by
    decide +kernel
  have allowed : Allowed withOperator "bob".toList (LuaValue.level .op) := by decide +kernel
  refine ⟨fun _ _ _ params => needsParams params, command, registered, allowed, fun same => ?_⟩
  have called := respond_command "roll".toList [] (List.all_eq_true.mp (by decide)) (by decide)
    (by simp) (by decide) command registered allowed .typePM fun _ _ _ params =>
      needsParams params
  exact needsParams_nil _ _ (called.symm.trans same)

end Properties
end MeepBot
