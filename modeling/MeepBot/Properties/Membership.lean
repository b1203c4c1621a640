import MeepBot.Session
import MeepBot.Effects

/-!
# The user list

The names in the room, told from the packets of the session alone.

* `mirror_iff`: the user list of every state inside a session mirrors the session if and only
  if every session starts with an empty list.
-/

namespace MeepBot
namespace Properties

open Scripts Effect

/-! ### Membership packets -/

/-- Whether a packet says that its user is there, or is not there. -/
def membership (p : ChatPacket) : Option Bool :=
  match MessageCode.ofCode p.iCode with
  | some .userList | some .userJoin => some true
  | some .userPart | some .userKick | some .userDisable | some .userBan | some .idleKick =>
    some false
  | _ => none

/-- What the most recent membership packet of a name says. -/
def lastMembership (session : List ChatPacket) (name : Str) : Option Bool :=
  ((session.filter fun p => decide (p.sUsername = name)).filterMap membership).getLast?

/-- The names of the list are those last said to be there, the blank name excepted. -/
def Mirrors (session : List ChatPacket) (l : UserList) : Prop :=
  ∀ name, name ∈ l ↔ name ≠ blank ∧ lastMembership session name = some true

theorem lastMembership_append (session : List ChatPacket) (p : ChatPacket) (name : Str) :
    lastMembership (session ++ [p]) name =
      if p.sUsername = name then (membership p).or (lastMembership session name)
      else lastMembership session name := by
  rw [lastMembership, List.filter_append, List.filterMap_append]
  by_cases own : p.sUsername = name
  · rw [if_pos own, List.filter_singleton, decide_eq_true own, cond_true]
    cases said : membership p with
    | none => simp [said, lastMembership]
    | some there => simp [said]
  · rw [if_neg own, List.filter_singleton, decide_eq_false own]
    simp [lastMembership]

/-! ### What the switch does to the list -/

variable [Platform]

theorem respond_userList (b : Bot) (type : MessageCode) (user line : Str) :
    (b.respond type user line).2.userList = b.userList := by
  rcases b.respond_stores type user line with ⟨lua, stores⟩ | ⟨c, params, stores⟩
  · exact stores.userList
  · exact stores.userList.trans (run_outside ..).2

theorem dispatch_userList (b : Bot) (p : ChatPacket) :
    (b.dispatch p).userList = match membership p with
      | some true => if p.sUsername = blank then b.userList else b.userList.add p.sUsername
      | some false => b.userList.remove p.sUsername
      | none => b.userList := by
  have join (msg : Str) : (b.join p.sUsername msg).userList =
      if p.sUsername = blank then b.userList else b.userList.add p.sUsername := by
    unfold Bot.join
    split
    · exact (Bot.SameStores.say b _).userList
    · rfl
  unfold Bot.dispatch Bot.dispatchUnder membership
  cases code : MessageCode.ofCode p.iCode with
  | none => rfl
  | some m =>
    cases m with
    | userList | userJoin => exact join p.sMessage
    | userPart | userKick | userDisable | userBan | idleKick => rfl
    | userMute =>
      simp only
      split
      · exact ((Bot.SameStores.write b _).trans (Bot.SameStores.say _ _)).userList
      · rfl
    | clientIdle =>
      simp only
      split
      · exact (Bot.SameStores.write b _).userList
      · rfl
    | roomMessage => exact respond_userList ..
    | userPM => exact respond_userList ..
    | _ => rfl

/-- One packet keeps the mirror. -/
theorem mirrors_dispatch {session : List ChatPacket} {b : Bot}
    (mirrors : Mirrors session b.userList) (p : ChatPacket) :
    Mirrors (session ++ [p]) (b.dispatch p).userList := by
  intro name
  rw [dispatch_userList, lastMembership_append]
  cases said : membership p with
  | none =>
    rw [Option.none_or, ite_self]
    exact mirrors name
  | some there =>
    rw [Option.some_or]
    cases there with
    | true =>
      simp only
      by_cases anonymous : p.sUsername = blank
      · rw [if_pos anonymous, mirrors name]
        by_cases own : p.sUsername = name
        · simp [← own, anonymous]
        · rw [if_neg own]
      · rw [if_neg anonymous, UserList.add, SortedSet.mem_insert, mirrors name]
        by_cases own : p.sUsername = name
        · simp [← own, anonymous]
        · simp [own, Ne.symm own]
    | false =>
      simp only
      rw [UserList.remove, SortedSet.mem_erase, mirrors name]
      by_cases own : p.sUsername = name
      · simp [own]
      · simp [own, Ne.symm own]

theorem mirrors_handlePacket {session : List ChatPacket} {b : Bot}
    (mirrors : Mirrors session b.userList) (data : Str) :
    Mirrors (session ++ (ChatPacket.fromString (cstr data)).toList)
      (b.handlePacket data).userList := by
  cases parsed : ChatPacket.fromString (cstr data) with
  | none =>
    rw [Bot.handlePacket_rejected b parsed, Option.toList_none, List.append_nil]
    exact mirrors
  | some p =>
    rw [Bot.handlePacket_accepted b parsed]
    exact mirrors_dispatch mirrors p

/-! ### Sessions -/

/-- Inside a session, the user list mirrors it. -/
def Mirrored (m : Machine) : Prop := m.InSession → Mirrors m.session m.client.userList

/-- A session does not start with names in the list. -/
def StartsEmpty (username password : Str) (m : Machine) (i : Input) : Prop :=
  ¬m.client.halted = true → m.control = .joining →
    (m.client.login username password i.recv).1 = true → ∀ name, name ∉ m.client.userList

variable {username password : Str}

/-- One step keeps the mirror, unless a session starts with names in the list. -/
theorem mirrored_step (m : Machine) (i : Input) (mirrored : Mirrored m) :
    Mirrored (Machine.step username password m i) ↔ StartsEmpty username password m i := by
  unfold Machine.step
  by_cases halted : m.client.halted = true
  · rw [if_pos halted]
    exact iff_of_true mirrored fun running => absurd halted running
  rw [if_neg halted]
  -- away from a login, nothing is asked of the step
  have elsewhere {n : Machine} (other : m.control ≠ .joining) (kept : Mirrored n) :
      Mirrored n ↔ StartsEmpty username password m i :=
    iff_of_true kept fun _ joining => absurd joining other
  have outside {n : Machine} (idle : n.control = .idle ∨ n.control = .joining) : Mirrored n := by
    rintro (loop | ⟨rest, batch⟩)
    · rw [loop] at idle
      simp at idle
    · rw [batch] at idle
      simp at idle
  cases control : m.control with
  | idle =>
    refine elsewhere (by rw [control]; rintro ⟨⟩) (outside ?_)
    simp only
    split
    · exact .inr rfl
    · exact .inl rfl
  | joining =>
    simp only
    cases granted : (m.client.login username password i.recv).1 with
    | false =>
      apply iff_of_true (outside (.inl rfl))
      intro _ _ success
      rw [granted] at success
      cases success
    | true =>
      have list := (m.client.login_stores username password i.recv).userList
      constructor
      · -- the session has no packets yet, so nobody was said to be there
        intro kept _ _ _ name member
        have said := (kept (.inl rfl) name).mp (by rw [list]; exact member)
        cases said.2
      · intro empty _ name
        rw [list]
        apply iff_of_false (empty halted control granted name)
        rintro ⟨-, ⟨⟩⟩
  | loop =>
    apply elsewhere (by rw [control]; rintro ⟨⟩)
    simp only
    split
    · split
      · exact outside (.inl rfl)
      · intro _
        simp only [(m.client.read_stores i.recv).userList]
        exact mirrored (.inl control)
    · exact outside (.inl rfl)
  | batch rest =>
    apply elsewhere (by rw [control]; rintro ⟨⟩)
    have mirrors := mirrored (.inr ⟨rest, control⟩)
    cases rest with
    | nil => exact fun _ => mirrors
    | cons data rest => exact fun _ => mirrors_handlePacket mirrors data

/-- In every run from the start of `main`: all states inside a session mirror the session if
and only if no session starts with names in the list. -/
theorem mirror_iff (username password : Str) (c : Client) (inputs : List Input) :
    (∀ earlier, earlier <+: inputs →
      Mirrored (Machine.run username password earlier (Machine.start c))) ↔
      Run.Along (Machine.step username password) (StartsEmpty username password) inputs
        (Machine.start c) := by
  have initial : Mirrored (Machine.start c) := by
    rintro (loop | ⟨rest, batch⟩)
    · cases loop
    · cases batch
  exact Run.invariant_iff (Machine.step username password) Mirrored (StartsEmpty username password)
    (fun _ => True) (fun _ _ _ _ _ => trivial) (fun m i _ => mirrored_step m i) inputs
    (Machine.start c) trivial initial

omit [Platform]

/-- Bob joins, the connection is lost, and the next session starts. -/
theorem mirror_broken : ∃ (c : Client) (inputs : List Input),
    ¬Mirrored (@Machine.run lp64 "MeepBot".toList "secret".toList inputs (Machine.start c)) := by
  let _ := lp64
  let connects (o : RecvOutcome) : Input := ⟨.connected 3, o⟩
  let grant := connects (.data "100`_`_`0`0`0\n".toList)
  refine ⟨⟨Bot.initial .empty .empty .calm, .zero⟩,
    [grant, grant, connects (.data "1`bob`x`0`0`0\n".toList), grant, grant, connects .error,
      grant, grant], fun mirrored => ?_⟩
  have reached :
      let m := Machine.run "MeepBot".toList "secret".toList
        [grant, grant, connects (.data "1`bob`x`0`0`0\n".toList), grant, grant, connects .error,
          grant, grant] (Machine.start ⟨Bot.initial .empty .empty .calm, .zero⟩)
      m.control = .loop ∧ m.session = [] ∧ m.client.userList.elems = ["bob".toList] := by
    decide +kernel
  obtain ⟨loop, session, listed⟩ := reached
  have said := (mirrored (.inl loop) "bob".toList).mp (by
    rw [SortedSet.mem_def, listed]
    exact List.mem_singleton_self _)
  rw [session] at said
  cases said.2

end Properties
end MeepBot
