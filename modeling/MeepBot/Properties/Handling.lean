import MeepBot.Effects

/-!
# Handling

What `HandlePacket` changes, field by field. The codes of the two chat messages, which are
handed to the scripts, are left aside.

* `handled_intended`: rejected data changes nothing, and a packet what it is about at most.
-/

namespace MeepBot
namespace Properties

open UserDB

/-- What the packet may have changed in a bot. -/
structure Intended (b : Bot) (p : ChatPacket) (c : Bot) : Prop where
  others : ∀ name, name ≠ p.sUsername → (name ∈ c.userList ↔ name ∈ b.userList)
  added : p.sUsername ∈ c.userList →
    p.sUsername ∈ b.userList ∨ p.Bears Bot.joining ∧ p.sUsername ≠ blank
  removed : p.sUsername ∈ b.userList → p.sUsername ∈ c.userList ∨ p.Bears Bot.removing
  /-- at most one row is gained, at the end -/
  users : c.users = b.users ∨ p.Bears Bot.joining ∧
    ∃ level, c.users.rows = b.users.rows ++ [newRow p.sUsername level]
  /-- the login is lost by leaving, or by one of the packets that were written -/
  login : ∃ new, c.written = b.written ++ new ∧
    (c.loggedIn = true ↔ b.loggedIn = true ∧
      ¬(p.Bears Bot.removing ∧ p.sUsername = "MeepBot".toList) ∧
      ∀ w ∈ new, 0 < Socket.write w.outcome)
  kept : c.socket = b.socket ∧ c.quotes = b.quotes ∧ c.lua = b.lua ∧ c.halted = b.halted

/-! ### Output alone -/

/-- The stores are the same, packets were written, and the login is left if all were sent. -/
structure Outputs (b c : Bot) : Prop where
  stores : Bot.SameStores b c
  halted : c.halted = b.halted
  login : ∃ new, c.written = b.written ++ new ∧
    (c.loggedIn = true ↔ b.loggedIn = true ∧ ∀ w ∈ new, 0 < Socket.write w.outcome)

namespace Outputs

theorem refl (b : Bot) : Outputs b b := ⟨.refl b, rfl, [], by simp, by simp⟩

theorem write (b : Bot) (p : ChatPacket) : Outputs b (b.write p).2 := by
  refine ⟨.write b p, rfl, [⟨b.loggedIn, p, b.world.sends.head⟩], rfl, ?_⟩
  simp [Bot.write]

theorem say (b : Bot) (str : Str) : Outputs b (b.say str) := by
  unfold Bot.say
  split
  · exact refl b
  · exact write b _

theorem trans {b c d : Bot} (first : Outputs b c) (second : Outputs c d) : Outputs b d := by
  obtain ⟨before, wrote, left⟩ := first.login
  obtain ⟨after, wrote', left'⟩ := second.login
  refine ⟨first.stores.trans second.stores, second.halted.trans first.halted, before ++ after,
    ?_, ?_⟩
  · rw [wrote', wrote, List.append_assoc]
  · rw [left', left, List.forall_mem_append, and_assoc]

/-- Output is within what every packet but those of leaving users may do. -/
theorem intended {b c : Bot} (output : Outputs b c) {p : ChatPacket}
    (stays : ¬p.Bears Bot.removing) : Intended b p c := by
  obtain ⟨⟨socket, userList, users, quotes, lua⟩, halted, new, wrote, left⟩ := output
  refine ⟨?_, ?_, ?_, .inl users, ⟨new, wrote, ?_⟩, socket, quotes, lua, halted⟩
  · exact fun name _ => by rw [userList]
  · exact fun present => .inl (userList ▸ present)
  · exact fun present => .inl (userList ▸ present)
  · simp [left, stays]

end Outputs

/-! ### The switch -/

theorem intended_join (b : Bot) {p : ChatPacket} (joins : p.Bears Bot.joining)
    (stays : ¬p.Bears Bot.removing) (clean : cstr p.sUsername = p.sUsername) :
    Intended b p (b.join p.sUsername p.sMessage) := by
  unfold Bot.join
  split
  · exact (Outputs.say b _).intended stays
  next named =>
    rw [clean]
    have present (name : Str) :
        name ∈ b.userList.add p.sUsername ↔ name = p.sUsername ∨ name ∈ b.userList :=
      SortedSet.mem_insert ..
    refine ⟨fun name other => ?_, fun _ => .inr ⟨joins, named⟩, fun _ => ?_, ?_, ?_, rfl, rfl, rfl,
      rfl⟩
    · rw [present, or_iff_right other]
    · exact .inl ((present _).mpr (.inl rfl))
    · exact (addUser_cases b.users p.sUsername _).imp_right fun gained => ⟨joins, _, gained⟩
    · exact ⟨[], by simp, by simp [stays]⟩

theorem intended_part (b : Bot) {p : ChatPacket} (leaves : p.Bears Bot.removing) :
    Intended b p (b.part p.sUsername) := by
  have present (name : Str) :
      name ∈ (b.part p.sUsername).userList ↔ name ∈ b.userList ∧ name ≠ p.sUsername :=
    SortedSet.mem_erase ..
  refine ⟨fun name other => ?_, fun kept => ?_, fun _ => .inr leaves, .inl rfl, ?_, rfl, rfl, rfl,
    rfl⟩
  · rw [present, and_iff_left other]
  · exact .inl ((present _).mp kept).1
  · -- nothing is written
    refine ⟨[], (List.append_nil _).symm, ?_⟩
    simp only [Bot.part, Bool.and_eq_true, decide_eq_true_eq, leaves, true_and, List.not_mem_nil,
      false_imp_iff, implies_true, and_true]

variable [Platform]

theorem dispatch_intended (b : Bot) {p : ChatPacket} (clean : cstr p.sUsername = p.sUsername)
    (other : ¬p.Bears Bot.chatting) : Intended b p (b.dispatch p) := by
  have made := b.dispatch_cases p
  generalize b.dispatch p = c at made ⊢
  cases made with
  | join code =>
    obtain ⟨m, member, value⟩ := id code
    have apart : ∀ m ∈ Bot.joining, m ∉ Bot.removing := by decide
    have stays := (ChatPacket.bears_iff value Bot.removing).not.mpr (apart m member)
    exact intended_join b code stays clean
  | part code => exact intended_part b code
  | muted code =>
    have stays : ¬p.Bears Bot.removing := (ChatPacket.bears_iff code _).not.mpr (by decide)
    exact ((Outputs.write b _).trans (Outputs.say _ _)).intended stays
  | idle code =>
    have stays : ¬p.Bears Bot.removing := (ChatPacket.bears_iff code _).not.mpr (by decide)
    exact (Outputs.write b _).intended stays
  | chat code line => exact absurd ⟨_, line, code⟩ other
  | ignored stays => exact (Outputs.refl b).intended stays

/-- From every state and for every string: rejected data leaves the whole bot as it is, and a
packet that is no chat message changes the names in the room, the users table and the login as
it is meant to. -/
theorem handled_intended (b : Bot) (data : Str) :
    (ChatPacket.fromString (cstr data) = none → b.handlePacket data = b) ∧
      ∀ p, ChatPacket.fromString (cstr data) = some p → ¬p.Bears Bot.chatting →
        Intended b p (b.handlePacket data) := by
  constructor
  · exact b.handlePacket_rejected
  · intro p accepted other
    -- the name is a part of the string, which ends before the first zero
    have clean : '\x00' ∉ p.sUsername := fun zero =>
      cstr_clean data ((ChatPacket.username_cameFrom accepted).chars _ zero)
    rw [b.handlePacket_accepted accepted]
    exact dispatch_intended b (cstr_eq_self _ clean) other

omit [Platform]

/-- Somebody comes into the room. -/
theorem handled_intended_join :
    Intended (Bot.initial .empty .empty .calm) ⟨1, "bob".toList, "|C".toList, 0, 0, 0⟩
      (@Bot.handlePacket lp64 (Bot.initial .empty .empty .calm) "1`bob`|C`0`0`0".toList) := by
  let _ := lp64
  apply (handled_intended (Bot.initial .empty .empty .calm) _).2 _ (by decide)
  exact (ChatPacket.bears_iff (m := .userJoin) rfl _).not.mpr (by decide)

end Properties
end MeepBot
