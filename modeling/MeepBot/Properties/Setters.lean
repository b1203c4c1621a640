import MeepBot.UserDB

/-!
# Setters

What the operations that write the row of a name return, and what they leave in the table.

* `setter_truthful_iff`: the four setters tell whether they have done something, except three
  of them about a name without a row.
* `entry_roundTrip_iff`: an entry is read back as it was written if and only if there is a row
  to replace, and the mask is the number its pointer is printed as.
-/

namespace MeepBot
namespace Properties

open UserDB (rowOf hasUser)

/-! ### One field -/

/-- A setter with the value it is to set. -/
inductive Setter where
  | protect (bProtect : Bool)
  | setDescription (desc : Str)
  | setWarnings (warnings : Int)
  | setAccessLevel (level : AccessLevel)

namespace Setter

/-- The call of the setter for a name: the value returned, and the table. -/
def call (t : UserTable) (name : Str) : Setter → Bool × UserTable
  | protect bProtect => UserDB.protect t name bProtect
  | setDescription desc => UserDB.setDescription t name desc
  | setWarnings warnings => UserDB.setWarnings t name warnings
  | setAccessLevel level => UserDB.setAccessLevel t name level

/-- A row with the value in the field of the setter. -/
def write (r : UserRow) : Setter → UserRow
  | protect bProtect => { r with isProtected := bProtect }
  | setDescription desc => { r with description := some desc }
  | setWarnings warnings => { r with warnings := warnings }
  | setAccessLevel level => { r with accessLevel := level }

/-- The getter of the field returns the value. -/
def Reads (t : UserTable) (name : Str) : Setter → Prop
  | protect bProtect => UserDB.isProtected t name = bProtect
  | setDescription desc => UserDB.getDescription t name = desc
  | setWarnings warnings => UserDB.getWarnings t name = warnings
  | setAccessLevel level => UserDB.getAccessLevel t name = level

/-- Whether the setter asks for the protection of the row. -/
def IsGuarded : Setter → Prop
  | setAccessLevel _ => True
  | _ => False

end Setter

/-- The setter tells whether there is a row; either it has set the one field of the one row,
or nothing has changed. -/
structure Truthful (t : UserTable) (name : Str) (setter : Setter) : Prop where
  tells : (setter.call t name).1 = true ↔ hasUser t name = true
  reads : (setter.call t name).1 = true → setter.Reads (setter.call t name).2 name
  row : (setter.call t name).1 = true → ∀ r, rowOf t name = some r →
    rowOf (setter.call t name).2 name = some (setter.write r)
  others : (setter.call t name).1 = true → ∀ other, toLower other ≠ toLower name →
    rowOf (setter.call t name).2 other = rowOf t other
  refused : (setter.call t name).1 = false → (setter.call t name).2 = t

/-- The setter as a rewriting of a row. -/
def Setter.rewrite (setter : Setter) : KeyedTable.Rewrite UserRow.key :=
  ⟨fun r => setter.write r, fun _ => by cases setter <;> rfl⟩

/-- On a row that may be written, every setter is an update of its field. -/
theorem call_of_row {t : UserTable} {name : Str} {r : UserRow} {setter : Setter}
    (row : rowOf t name = some r) (unlocked : setter.IsGuarded → r.isProtected = false) :
    setter.call t name = (true, t.update (toLower name) setter.rewrite) := by
  cases setter with
  | protect bProtect => rfl
  | setDescription desc => rfl
  | setWarnings warnings => rfl
  | setAccessLevel level =>
    have free : UserDB.isProtected t name = false := by
      rw [UserDB.isProtected, row]
      exact unlocked trivial
    rw [Setter.call, UserDB.setAccessLevel, if_neg (by simp [free])]
    rfl

/-- A getter finds the value in the row that has it. -/
theorem reads_of_row {t : UserTable} {name : Str} {r : UserRow} {setter : Setter}
    (row : rowOf t name = some (setter.write r)) : setter.Reads t name := by
  have entry := UserDB.getUserEntry_of_row row
  cases setter with
  | protect bProtect => rw [Setter.Reads, UserDB.isProtected, row, Setter.write]
  | setDescription desc => rw [Setter.Reads, UserDB.getDescription, entry]; rfl
  | setWarnings warnings => rw [Setter.Reads, UserDB.getWarnings, entry]; rfl
  | setAccessLevel level => rw [Setter.Reads, UserDB.getAccessLevel, entry]; rfl

theorem truthful_of_row {t : UserTable} {name : Str} {r : UserRow} {setter : Setter}
    (row : rowOf t name = some r) (unlocked : setter.IsGuarded → r.isProtected = false) :
    Truthful t name setter := by
  have called := call_of_row row unlocked
  have after (other : Str) : rowOf (setter.call t name).2 other = (rowOf t other).map fun r =>
      if toLower other = toLower name then setter.write r else r := by
    rw [called]
    exact UserDB.rowOf_update ..
  have own : rowOf (setter.call t name).2 name = some (setter.write r) := by
    rw [after, row, Option.map_some, if_pos rfl]
  constructor
  · rw [called]
    exact iff_of_true rfl (UserDB.hasUser_of_row row)
  · exact fun _ => reads_of_row own
  · intro _ r' row'
    cases row.symm.trans row'
    exact own
  · intro _ other different
    rw [after]
    simp [different]
  · rw [called]
    intro refused
    cases refused

/-- `SetAccessLevel` is refused for a name without a row, which counts as protected. -/
theorem truthful_of_absent {t : UserTable} {name : Str} (absent : rowOf t name = none)
    (level : AccessLevel) : Truthful t name (.setAccessLevel level) := by
  have refused : (Setter.setAccessLevel level).call t name = (false, t) := by
    rw [Setter.call, UserDB.setAccessLevel, UserDB.isProtected, absent]
    rfl
  have silent : ¬((Setter.setAccessLevel level).call t name).1 = true := by simp [refused]
  constructor
  · exact iff_of_false silent (UserDB.not_hasUser absent)
  · exact fun told => absurd told silent
  · exact fun told => absurd told silent
  · exact fun told => absurd told silent
  · exact fun _ => congrArg Prod.snd refused

/-- For every table, name and value, `SetAccessLevel` only where no protected row is found: a
setter tells the truth if and only if the name has a row, or it is `SetAccessLevel`. -/
theorem setter_truthful_iff (t : UserTable) (name : Str) (setter : Setter)
    (unlocked : setter.IsGuarded → ∀ r, rowOf t name = some r → r.isProtected = false) :
    Truthful t name setter ↔ hasUser t name = true ∨ setter.IsGuarded := by
  cases row : rowOf t name with
  | some r =>
    have present := UserDB.hasUser_of_row row
    exact iff_of_true (truthful_of_row row fun guarded => unlocked guarded r row) (.inl present)
  | none =>
    have absent := UserDB.not_hasUser row
    rw [or_iff_right absent]
    cases setter with
    | setAccessLevel level => exact iff_of_true (truthful_of_absent row level) trivial
    -- an update of no row succeeds as well
    | _ => exact iff_of_false (fun truthful => absent (truthful.tells.mp rfl)) id

/-- The level of someone who is not protected is set under any spelling of the name. -/
theorem setter_truthful_iff_bob : Truthful
    ⟨[⟨"bob".toList, none, .op, false, 0, none⟩], by decide⟩ "Bob".toList
    (.setAccessLevel .mod) := by
  refine (setter_truthful_iff _ _ _ fun _ r row => ?_).mpr (.inr trivial)
  cases row
  rfl

/-- `Protect` is told to have protected nobody. -/
theorem setter_untruthful : ¬Truthful .empty "nobody".toList (.protect true) :=
  fun truthful => absurd (truthful.tells.mp rfl) (by decide)

/-! ### A whole entry -/

/-- An entry is set, and read as it was written, and no other row is changed. -/
structure EntryKept (t : UserTable) (name : Str) (e : UserEntry) (pointer : Int) : Prop where
  set : (UserDB.setUserEntry t name e pointer).1 = true
  get : UserDB.getUserEntry (UserDB.setUserEntry t name e pointer).2 name = some e
  others : ∀ other, toLower other ≠ toLower name →
    rowOf (UserDB.setUserEntry t name e pointer).2 other = rowOf t other

/-- For every table, every name that has no row or one that is not protected, every entry, and
whatever the pointer of its mask is printed as: the entry is kept if and only if the name has a
row and the mask is that number. -/
theorem entry_roundTrip_iff (t : UserTable) (name : Str) (e : UserEntry) (pointer : Int)
    (desc : '\x00' ∉ e.desc) (unlocked : ∀ r, rowOf t name = some r → r.isProtected = false) :
    EntryKept t name e pointer ↔ hasUser t name = true ∧ e.mask = decimalInt pointer := by
  cases row : rowOf t name with
  | none =>
    -- a name without a row counts as protected
    have absent := UserDB.not_hasUser row
    have refused : UserDB.setUserEntry t name e pointer = (false, t) := by
      rw [UserDB.setUserEntry, UserDB.isProtected, row]
      rfl
    refine iff_of_false (fun kept => ?_) fun both => absent both.1
    have set := kept.set
    rw [refused] at set
    cases set
  | some r =>
    have present := UserDB.hasUser_of_row row
    have free : ¬UserDB.isProtected t name = true := by
      rw [UserDB.isProtected, row]
      simp [unlocked r row]
    have after (other : Str) : rowOf (UserDB.setUserEntry t name e pointer).2 other =
        if toLower other = toLower name then
          some ⟨name, some e.desc, e.level, e.locked, e.warnings, some (decimalInt pointer)⟩
        else rowOf t other := by
      rw [UserDB.setUserEntry, if_neg free, cstr_eq_self _ desc]
      exact KeyedTable.lookup_insertOrReplace _ _ _
    have read := UserDB.getUserEntry_of_row ((after name).trans (if_pos rfl))
    rw [and_iff_right present]
    constructor
    · intro kept
      have same : e = _ := Option.some.inj (kept.get.symm.trans read)
      exact congrArg UserEntry.mask same
    · intro mask
      refine ⟨?_, ?_, fun other different => (after other).trans (if_neg different)⟩
      · rw [UserDB.setUserEntry, if_neg free]
      · rw [read, UserDB.entryOf, ← mask]
        rfl

/-- An entry whose mask happens to be the number of its pointer. -/
theorem entry_roundTrip_iff_bob : EntryKept
    ⟨[⟨"bob".toList, none, .op, false, 0, none⟩], by decide⟩ "bob".toList
    ⟨"a bot".toList, "4096".toList, .mod, true, 2⟩ 4096 := by
  refine (entry_roundTrip_iff _ _ _ _ (by decide) fun r row => ?_).mpr ⟨rfl, by decide⟩
  cases row
  rfl

/-- Nothing can be set for a name without a row; and where there is one, the mask is lost. -/
theorem entry_lost : ¬EntryKept .empty "bob".toList ⟨[], [], .op, false, 0⟩ 4096 ∧
    ¬EntryKept ⟨[⟨"bob".toList, none, .op, false, 0, none⟩], by decide⟩ "bob".toList
      ⟨[], "Bob".toList, .op, false, 0⟩ 4096 :=
  ⟨fun kept => absurd kept.set (by decide), fun kept => absurd kept.get (by decide)⟩

end Properties
end MeepBot
