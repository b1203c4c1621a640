import MeepBot.Properties.Privilege
import MeepBot.Session

/-!
# Known users

The list of users is a set of names as they are spelt, the table knows a name in any letter
case. A packet puts a name into both.

* `listed_known`: over every run, who is listed has a row, and no row is ever lost.
-/

namespace MeepBot
namespace Properties

open Scripts

/-- From one state to another no row is lost, and who is listed newly has a row. -/
structure Remembers (b c : Bot) : Prop where
  rows : ∀ name, UserDB.hasUser b.users name = true → UserDB.hasUser c.users name = true
  names : ∀ name ∈ c.userList, name ∈ b.userList ∨ UserDB.hasUser c.users name = true

namespace Remembers

theorem of_stores {b c : Bot} (userList : c.userList = b.userList) (users : c.users = b.users) :
    Remembers b c :=
  ⟨fun name => by rw [users]; exact id, fun name => by rw [userList]; exact .inl⟩

theorem trans {b c d : Bot} (first : Remembers b c) (second : Remembers c d) : Remembers b d := by
  refine ⟨fun name known => second.rows name (first.rows name known), fun name listed => ?_⟩
  rcases second.names name listed with before | known
  · exact (first.names name before).imp_right (second.rows name)
  · exact .inr known

/-- A name that comes is listed and has a row. -/
theorem joined (b : Bot) (user : Str) (level : AccessLevel) : Remembers b { b with
    userList := b.userList.add user, users := UserDB.addUser b.users user level } := by
  constructor
  · intro name known
    obtain ⟨r, row⟩ := Option.isSome_iff_exists.mp known
    exact Option.isSome_iff_exists.mpr ⟨r, UserDB.rowOf_addUser row⟩
  · intro name listed
    rcases (SortedSet.mem_insert _ _ _).mp listed with rfl | before
    · exact .inr (UserDB.hasUser_addUser b.users name level)
    · exact .inl before

theorem parted (b : Bot) (user : Str) : Remembers b (b.part user) :=
  ⟨fun _ => id, fun _ listed => .inl ((SortedSet.mem_erase _ _ _).mp listed).1⟩

variable [Platform]

/-- A handler keeps the rows, and does not list anyone. -/
theorem ran {b c : Bot} {handler : Command} {type : LuaValue} {caller params : Str}
    (stores : Bot.SameStores (run handler type caller (some params) b).2 c) : Remembers b c := by
  constructor
  · intro name known
    obtain ⟨r, row⟩ := Option.isSome_iff_exists.mp known
    obtain ⟨r', after, -⟩ := rowOf_usersAfter row caller params handler
    rw [UserDB.hasUser, stores.users, run_users, after]
    rfl
  · intro name listed
    rw [stores.userList, (run_outside ..).2] at listed
    exact .inl listed

theorem handlePacket (b : Bot) (data : Str) : Remembers b (b.handlePacket data) := by
  cases parsed : ChatPacket.fromString (cstr data) with
  | none =>
    rw [Bot.handlePacket_rejected b parsed]
    exact of_stores rfl rfl
  | some p =>
    -- the name came out of a C string, and is the same one for the list and for the table
    have user : cstr p.sUsername = p.sUsername := by
      refine cstr_eq_self _ fun zero => cstr_clean data ?_
      exact (ChatPacket.username_cameFrom parsed).chars _ zero
    rw [Bot.handlePacket_accepted b parsed]
    rcases Bot.dispatch_stores b p with
      ⟨lua, stores⟩ | came | went | ⟨type, caller, c, params, stores⟩
    · exact of_stores stores.userList stores.users
    · rw [came, user]
      exact joined b p.sUsername _
    · rw [went]
      exact parted b p.sUsername
    · exact ran stores

omit [Platform] in
theorem leave (m : Machine) (c : Client) : Remembers c.toBot (m.leave c).client.toBot :=
  of_stores (Bot.SameStores.logout c.toBot).userList (Bot.SameStores.logout c.toBot).users

theorem step (username password : Str) (m : Machine) (i : Input) :
    Remembers m.client.toBot (Machine.step username password m i).client.toBot := by
  have kept {b c : Bot} (stores : Bot.SameStores b c) : Remembers b c :=
    of_stores stores.userList stores.users
  have read := m.client.read_stores i.recv
  unfold Machine.step
  split
  · exact of_stores rfl rfl
  split
  · exact of_stores rfl rfl
  · exact kept (m.client.login_stores username password i.recv)
  · simp only
    split
    · split
      · refine trans ?_ (leave m _)
        exact of_stores read.userList read.users
      · exact kept read
    · exact leave m m.client
  · exact of_stores rfl rfl
  next data rest _ => exact handlePacket m.client.toBot data

theorem run (username password : Str) (inputs : List Input) (m : Machine) :
    Remembers m.client.toBot (Machine.run username password inputs m).client.toBot := by
  induction inputs generalizing m with
  | nil => exact of_stores rfl rfl
  | cons i inputs ih => exact (step username password m i).trans (ih _)

end Remembers

variable [Platform]

/-- In every run from an empty list of users, and at any two times of it: everyone who is listed
has a row, no two rows have names that agree up to letter case, and every row of the first time
is there at the second. -/
theorem listed_known (username password : Str) (m : Machine) (nobody : m.client.userList = .empty)
    (earlier later : List Input) :
    let before := (m.run username password earlier).client
    let after := ((m.run username password earlier).run username password later).client
    (∀ name ∈ after.userList, UserDB.hasUser after.users name = true) ∧
      after.users.rows.Pairwise (fun r r' => toLower r.username ≠ toLower r'.username) ∧
      ∀ r ∈ before.users.rows,
        ∃ r' ∈ after.users.rows, toLower r'.username = toLower r.username := by
  intro before after
  -- the list is told from the whole run, which starts with nobody
  have whole : Remembers m.client.toBot after.toBot :=
    (Remembers.run username password earlier m).trans (Remembers.run username password later _)
  refine ⟨fun name listed => ?_, ?_, fun r member => ?_⟩
  · rcases whole.names name listed with start | known
    · rw [nobody] at start
      exact absurd start (SortedSet.not_mem_empty name)
    · exact known
  · -- the table cannot hold two rows of one key
    exact List.pairwise_map.mp after.users.unique
  · have row : UserDB.rowOf before.users r.username = some r :=
      (KeyedTable.lookup_some_iff before.users r.key r).mpr ⟨member, rfl⟩
    have known := (Remembers.run username password later
      (m.run username password earlier)).rows r.username (UserDB.hasUser_of_row row)
    obtain ⟨r', row'⟩ := Option.isSome_iff_exists.mp known
    have same : r'.key = toLower r.username := KeyedTable.key_of_lookup row'
    exact ⟨r', KeyedTable.mem_of_lookup row', same⟩

omit [Platform]

/-- Bob joins under two spellings. -/
def twice : List Input :=
  let receives (text : Str) : Input := ⟨.connected 3, .data text⟩
  [receives [], receives "100`_`_`0`0`0\n".toList,
    receives "1`bob`x`0`0`0\n1`BOB`x`0`0`0\n".toList, receives [], receives []]

/-- Both are listed, and both have a row, which is one. -/
theorem listed_known_bob :
    let m := @Machine.run lp64 "MeepBot".toList "secret".toList twice
      (.booted .empty .empty .calm none .zero)
    m.client.userList.elems = ["BOB".toList, "bob".toList] ∧
      ∀ name ∈ m.client.userList, UserDB.hasUser m.client.users name = true :=
  ⟨by decide +kernel, (@listed_known lp64 "MeepBot".toList "secret".toList
    (.booted .empty .empty .calm none .zero) rfl twice []).1⟩

end Properties
end MeepBot
