import MeepBot.Library.Run
import MeepBot.Effects

/-!
# The warning limit

The last warning of a user changes the count, the description, the level and the protection
one after the other. The level is left as it is where the row is protected.

* `limit_enforced_iff`: the limit is enforced throughout a run if and only if no protected
  user gets the last warning in it.
-/

namespace MeepBot
namespace Properties

open Scripts

/-- A row within the limit: at the limit, the user is banned. -/
def Limited (r : UserRow) : Prop :=
  0 ≤ r.warnings ∧ r.warnings ≤ maxWarnings ∧ (r.warnings = maxWarnings → r.accessLevel = .banned)

def Enforced (t : UserTable) : Prop := ∀ r ∈ t.rows, Limited r

/-- The string is an accepted warning of a protected user who has all warnings but one and is
not banned. -/
def Escapes [Platform] (b : Bot) (data : Str) : Prop :=
  ∃ type caller params r, b.asks data = .command type caller .warn params ∧
    UserDB.rowOf b.users (b.userList.resolve caller params) = some r ∧
    (r.accessLevel = .user ∨ r.accessLevel = .op) ∧ r.isProtected = true ∧
    r.warnings = maxWarnings - 1

theorem limited_of_none {r : UserRow} (none : r.warnings = 0) : Limited r := by
  simp [Limited, none, maxWarnings]

/-- The last warning brings a row over the limit just when it is protected. -/
theorem limited_warnRow_iff {r : UserRow} (limited : Limited r) (low : r.accessLevel ≤ .op)
    (few : r.warnings < maxWarnings) :
    Limited (warnRow r.warnings r) ↔
      ¬((r.accessLevel = .user ∨ r.accessLevel = .op) ∧ r.isProtected = true ∧
        r.warnings = maxWarnings - 1) := by
  obtain ⟨positive, -, -⟩ := limited
  simp only [maxWarnings] at few
  have inside : ¬(r.warnings + 1 < 0 ∨ 5 < r.warnings + 1) := by omega
  -- only the last warning is more than a count, and the protection decides over its level
  by_cases last : maxWarnings ≤ r.warnings + 1
  · have two : r.warnings = 2 := by simp only [maxWarnings] at last; omega
    have level : r.accessLevel = .banned ↔ ¬(r.accessLevel = .user ∨ r.accessLevel = .op) := by
      cases at_ : r.accessLevel <;> rw [at_] at low <;> revert low <;> decide
    cases locked : r.isProtected with
    | true => simp [Limited, warnRow, two, maxWarnings, locked, level]
    | false => simp [Limited, warnRow, two, maxWarnings, locked]
  · have below : r.warnings + 1 < 3 := by simp only [maxWarnings] at last; omega
    have counted : warnRow r.warnings r = { r with warnings := r.warnings + 1 } := by
      simp only [warnRow, if_neg inside, if_neg last]
    rw [counted]
    simp only [Limited, maxWarnings]
    constructor
    · rintro - ⟨-, -, two⟩
      omega
    · exact fun _ => ⟨by omega, by omega, fun three => by omega⟩

/-- A warning keeps the limit for the whole table if it does for the row of its target. -/
theorem enforced_warnUsers_iff {t : UserTable} (enforced : Enforced t) {target : Str} {r : UserRow}
    (row : UserDB.rowOf t target = some r) :
    Enforced (warnUsers t target r.warnings) ↔ Limited (warnRow r.warnings r) := by
  rw [Enforced, UserDB.forall_rows_iff]
  constructor
  · intro all
    apply all target _
    rw [rowOf_warnUsers, row, Option.map_some, if_pos rfl]
  · intro limited name r' after
    rw [rowOf_warnUsers] at after
    obtain ⟨old, before, rfl⟩ := Option.map_eq_some_iff.mp after
    by_cases same : toLower name = toLower target
    · have own : UserDB.rowOf t target = some old := by rw [UserDB.rowOf, ← same]; exact before
      rw [row] at own
      cases own
      rw [if_pos same]
      exact limited
    · rw [if_neg same]
      exact UserDB.forall_rows_iff.mp enforced name old before

/-- Every other handler keeps the limit. -/
theorem enforced_usersAfter {b : Bot} (enforced : Enforced b.users) (caller params : Str)
    {c : Command} (other : c ≠ .warn) : Enforced (usersAfter b caller params c) := by
  cases c with
  | warn => exact absurd rfl other
  | protect | unprotect =>
    exact KeyedTable.forall_update enforced fun r present => enforced r present
  | unwarn => exact KeyedTable.forall_update enforced fun r _ => limited_of_none rfl
  | setdesc =>
    rw [usersAfter]
    split
    · exact enforced
    · exact KeyedTable.forall_update enforced fun r present => enforced r present
  | _ => exact enforced

theorem enforced_addUser {t : UserTable} (enforced : Enforced t) (name : Str)
    (level : AccessLevel) :
    Enforced (UserDB.addUser t name level) := by
  intro r member
  rcases KeyedTable.mem_insertOrIgnore.mp member with old | ⟨rfl, -⟩
  · exact enforced r old
  · exact limited_of_none rfl

/-- A warning keeps the limit unless it is the last one of a protected user. -/
theorem enforced_warn_iff {b : Bot} (enforced : Enforced b.users) (caller params : Str) :
    Enforced (usersAfter b caller params .warn) ↔ ¬∃ r,
      UserDB.rowOf b.users (b.userList.resolve caller params) = some r ∧
      (r.accessLevel = .user ∨ r.accessLevel = .op) ∧ r.isProtected = true ∧
      r.warnings = maxWarnings - 1 := by
  cases row : UserDB.rowOf b.users (b.userList.resolve caller params) with
  | none => simp [usersAfter, UserDB.getUserEntry_none row, enforced]
  | some r =>
    rw [usersAfter_warn row]
    simp only [Option.some.injEq, exists_eq_left']
    by_cases accepted : r.accessLevel ≤ .op ∧ r.warnings < maxWarnings
    · rw [if_pos accepted]
      have limited := UserDB.forall_rows_iff.mp enforced _ r row
      rw [← limited_warnRow_iff limited accepted.1 accepted.2]
      exact enforced_warnUsers_iff enforced row
    · -- a protected user with two warnings would have been accepted
      rw [if_neg accepted]
      apply iff_of_true enforced
      rintro ⟨level, -, two⟩
      refine accepted ⟨?_, by rw [two]; decide⟩
      rcases level with same | same <;> exact same.trans_le (by decide)

variable [Platform]

/-- One string keeps the limit if and only if it is not such a warning. -/
theorem enforced_step {b : Bot} (open_ : b.Shipped) (enforced : Enforced b.users) (data : Str) :
    Enforced (b.receive data).users ↔ ¬Escapes b data := by
  rw [Bot.receive_users open_]
  unfold Escapes
  cases b.asks data with
  | command type caller c params =>
    by_cases warns : c = .warn
    · subst warns
      refine (enforced_warn_iff enforced caller params).trans (not_congr ⟨?_, ?_⟩)
      · exact fun ⟨r, rest⟩ => ⟨type, caller, params, r, rfl, rest⟩
      · rintro ⟨_, _, _, r, same, rest⟩
        cases same
        exact ⟨r, rest⟩
    · apply iff_of_true (enforced_usersAfter enforced caller params warns)
      rintro ⟨_, _, _, _, same, -⟩
      cases same
      exact warns rfl
  | join user msg =>
    apply iff_of_true (enforced_addUser enforced _ _)
    rintro ⟨_, _, _, _, same, -⟩
    cases same
  | _ =>
    apply iff_of_true enforced
    rintro ⟨_, _, _, _, same, -⟩
    cases same

/-- From a table within the limit, all states of a run are within the limit if and only if no
string of the run is an accepted last warning of a protected user. -/
theorem limit_enforced_iff (b : Bot) (open_ : b.Shipped) (enforced : Enforced b.users)
    (datas : List Str) :
    (∀ earlier, earlier <+: datas → Enforced (Run.run Bot.receive earlier b).users) ↔
      Run.Along Bot.receive (fun c data => ¬Escapes c data) datas b :=
  Run.invariant_iff Bot.receive (fun c => Enforced c.users) _ Bot.Shipped
    (fun _ data open_ _ _ => Bot.receive_shipped open_ data)
    (fun _ data open_ enforced => enforced_step open_ enforced data) datas b open_ enforced

omit [Platform]

/-- The last warning of a user without protection. -/
theorem limit_enforced_iff_bob : Enforced (Run.run (@Bot.receive lp64)
    ["3`Mia`!warn bob`0`0`0".toList]
    { Bot.initial ⟨[⟨"Mia".toList, none, .admin, false, 0, none⟩,
        ⟨"bob".toList, none, .op, false, 2, none⟩], by decide⟩ .empty .calm with
      lua := some loaded }).users := by
  let _ := lp64
  have stays : ¬Escapes
      { Bot.initial ⟨[⟨"Mia".toList, none, .admin, false, 0, none⟩,
          ⟨"bob".toList, none, .op, false, 2, none⟩], by decide⟩ .empty .calm with
        lua := some loaded } "3`Mia`!warn bob`0`0`0".toList := by
    rintro ⟨type, caller, params, r, asked, row, -, locked, -⟩
    have asks : Bot.asks { Bot.initial ⟨[⟨"Mia".toList, none, .admin, false, 0, none⟩,
        ⟨"bob".toList, none, .op, false, 2, none⟩], by decide⟩ .empty .calm with
          lua := some loaded } "3`Mia`!warn bob`0`0`0".toList =
        .command .roomMessage "Mia".toList .warn "bob".toList := by decide +kernel
    rw [asks] at asked
    cases asked
    have own : UserDB.rowOf ⟨[⟨"Mia".toList, none, .admin, false, 0, none⟩,
        ⟨"bob".toList, none, .op, false, 2, none⟩], by decide⟩ "bob".toList =
        some ⟨"bob".toList, none, .op, false, 2, none⟩ := by decide
    rw [show UserList.resolve _ _ _ = "bob".toList from rfl] at row
    cases own.symm.trans row
    cases locked
  have along : Run.Along Bot.receive (fun c data => ¬Escapes c data) [_] _ := ⟨stays, trivial⟩
  exact (limit_enforced_iff _ (by rintro l ⟨⟩; exact ⟨rfl, rfl⟩)
    (by unfold Enforced Limited; decide) _).mpr along _ List.prefix_rfl

/-- Two warnings, a protection and a third warning. -/
theorem limit_broken : ∃ b : Bot, b.Shipped ∧ Enforced b.users ∧ ∃ datas,
    ¬Enforced (Run.run (@Bot.receive lp64) datas b).users := by
  refine ⟨{ Bot.initial .empty .empty .calm with lua := some loaded },
    by rintro l ⟨⟩; exact ⟨rfl, rfl⟩, by rintro r ⟨⟩,
    ["1`Mia`A`0`0`0".toList, "1`bob`x`0`0`0".toList, "3`Mia`!warn bob`0`0`0".toList,
      "3`Mia`!warn bob`0`0`0".toList, "3`Mia`!protect bob`0`0`0".toList,
      "3`Mia`!warn bob`0`0`0".toList], fun enforced => ?_⟩
  have bob : UserDB.rowOf (Run.run (@Bot.receive lp64)
      ["1`Mia`A`0`0`0".toList, "1`bob`x`0`0`0".toList, "3`Mia`!warn bob`0`0`0".toList,
        "3`Mia`!warn bob`0`0`0".toList, "3`Mia`!protect bob`0`0`0".toList,
        "3`Mia`!warn bob`0`0`0".toList]
      { Bot.initial .empty .empty .calm with lua := some loaded }).users "bob".toList =
      some ⟨"bob".toList, some [], .op, true, 3, none⟩ := by decide +kernel
  exact absurd ((UserDB.forall_rows_iff.mp enforced _ _ bob).2.2 rfl) (by decide)

end Properties
end MeepBot
