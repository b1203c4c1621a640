import MeepBot.Library.Run
import MeepBot.UserDB

/-!
# Protection

Six operations write the table of users, and two of them ask whether a row is protected.

* `protection_holds`: that is enough for the level of a protected row to stay.
-/

namespace MeepBot
namespace Properties

open UserDB (rowOf Operation)

/-- The operation takes the protection from a name, in whatever letter case. -/
def Unprotects (name : Str) : Operation → Prop
  | .protect other bProtect => bProtect = false ∧ toLower other = toLower name
  | _ => False

/-- The row of a name is protected and has a certain level. -/
def Locked (name : Str) (level : AccessLevel) (t : UserTable) : Prop :=
  ∃ r, rowOf t name = some r ∧ r.isProtected = true ∧ r.accessLevel = level

theorem locked_of_map {name : Str} {level : AccessLevel} {t t' : UserTable} {f : UserRow → UserRow}
    (locked : Locked name level t) (after : rowOf t' name = (rowOf t name).map f)
    (keeps : ∀ r, r.isProtected = true →
      (f r).isProtected = true ∧ (f r).accessLevel = r.accessLevel) : Locked name level t' := by
  obtain ⟨r, row, isProtected, same⟩ := locked
  obtain ⟨still, levels⟩ := keeps r isProtected
  exact ⟨f r, by rw [after, row, Option.map_some], still, levels.trans same⟩

/-- Each of the operations keeps a protected row and its level. -/
theorem locked_apply {name : Str} {level : AccessLevel} {t : UserTable} {op : Operation}
    (locked : Locked name level t) (keeps : ¬Unprotects name op) :
    Locked name level (op.apply t) := by
  cases op with
  -- an insertion that ignores a name it finds
  | addUser other l =>
    obtain ⟨r, row, rest⟩ := locked
    exact ⟨r, UserDB.rowOf_addUser row, rest⟩
  | setUserEntry other entry pointer =>
    obtain ⟨r, row, isProtected, same⟩ := locked
    exact ⟨r, UserDB.rowOf_setUserEntry_of_protected row isProtected other entry pointer,
      isProtected, same⟩
  | setAccessLevel other l =>
    apply locked_of_map locked (UserDB.rowOf_setAccessLevel t other name l)
    intro r isProtected
    -- the change is for rows without protection only
    rw [if_neg (by simp [isProtected])]
    exact ⟨isProtected, rfl⟩
  | setDescription other desc =>
    apply locked_of_map locked (UserDB.rowOf_setDescription t other name desc)
    intro r h
    split <;> exact ⟨h, rfl⟩
  | setWarnings other warnings =>
    apply locked_of_map locked (UserDB.rowOf_setWarnings t other name warnings)
    intro r h
    split <;> exact ⟨h, rfl⟩
  | protect other bProtect =>
    apply locked_of_map locked (UserDB.rowOf_protect t other name bProtect)
    intro r h
    split
    next same =>
      refine ⟨?_, rfl⟩
      cases bProtect with
      | true => rfl
      -- the one operation that is excluded
      | false => exact absurd ⟨rfl, same.symm⟩ keeps
    next => exact ⟨h, rfl⟩

/-- In every table with a protected row for a name, and over every sequence of operations with
any arguments that does not unprotect the name: the row stays protected, and its level never
changes. -/
theorem protection_holds (t : UserTable) (name : Str) (r : UserRow) (row : rowOf t name = some r)
    (isProtected : r.isProtected = true) (ops : List Operation)
    (keeps : ∀ op ∈ ops, ¬Unprotects name op) :
    ∃ r', rowOf (Run.run Operation.apply ops t) name = some r' ∧ r'.isProtected = true ∧
      r'.accessLevel = r.accessLevel :=
  Run.invariant_of_inputs Operation.apply (Locked name r.accessLevel)
    (fun op => ¬Unprotects name op) (fun _ _ locked keeps => locked_apply locked keeps) ops keeps t
    ⟨r, row, isProtected, rfl⟩

/-- Nobody gets at a protected moderator by writing the name in capitals. -/
theorem protection_holds_capitals :
    ∃ r', rowOf (Run.run Operation.apply
      [.setUserEntry "BOB".toList ⟨[], [], .banned, false, 0⟩ 0, .setAccessLevel "BOB".toList .user,
        .protect "ann".toList false]
      (UserDB.addUser ⟨[⟨"bob".toList, none, .mod, true, 0, none⟩], by decide⟩ "ann".toList .op))
      "Bob".toList = some r' ∧ r'.isProtected = true ∧ r'.accessLevel = .mod := by
  apply protection_holds _ "Bob".toList ⟨"bob".toList, none, .mod, true, 0, none⟩ rfl rfl _
  intro op member
  simp only [List.mem_cons, List.not_mem_nil, or_false] at member
  rcases member with rfl | rfl | rfl
  · exact id
  · exact id
  · rintro ⟨-, same⟩
    revert same
    decide

end Properties
end MeepBot
