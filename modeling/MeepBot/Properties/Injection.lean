import MeepBot.Session
import MeepBot.Wire

/-!
# Injection

No byte of a received text is read as a delimiter or as the end of a line again.

* `no_injection`: in every run, the texts of the user list and of the database stay clean, and
  every packet written is one line, the login and the error texts of the scripts excepted.
-/

namespace MeepBot
namespace Properties

section
variable [Platform]

/-- Whatever packet a string is, its texts are clean. -/
def Carries (data : Str) : Prop :=
  ∀ p, ChatPacket.fromString (cstr data) = some p →
    CleanName p.sUsername ∧ p.sUsername ≠ [] ∧ CleanText p.sMessage

/-- The error texts that loading the scripts may report. -/
def Reported (world : World) (err : Str) : Prop :=
  ∃ usec, (ScriptsOutcome.failed err, usec) ∈ world.reloads

/-- Both ways of taking a buffer leave its newlines and delimiters out of the texts. -/
theorem carries_of_frame {text data : Str} (free : '\x00' ∉ text) (short : text.length ≤ bufferSize)
    (member : data ∈ PacketUtil.frames text) : Carries data := by
  intro p accepted
  have part := PacketUtil.isInfix_of_mem_frames member
  rw [cstr_eq_self data fun zero => free (part.subset zero)] at accepted
  obtain ⟨code, r, g, b, six, -⟩ := ChatPacket.pieces_of_fromString accepted
  -- also a buffer that is not split has its newline behind the last delimiter
  have clean (field : Str) (which : field = p.sUsername ∨ field = p.sMessage)
      (among : field ∈ pieces delim data) : field ≠ [] ∧ CleanName field := by
    obtain ⟨from_, line⟩ := PacketUtil.frame_fields member accepted field which
    refine ⟨from_.nonempty, ?_, ?_⟩
    · rintro c inside
      refine ⟨?_, ?_, ?_⟩ <;> rintro rfl
      · exact from_.free inside
      · exact line inside
      · exact free (from_.chars _ inside)
    · calc field.length ≤ data.length := (Pieces.isInfix delim data field among).length_le
        _ ≤ text.length := part.length_le
        _ ≤ bufferSize := short
  obtain ⟨named, username⟩ := clean p.sUsername (.inl rfl) (by simp [six])
  exact ⟨username, named, (clean p.sMessage (.inr rfl) (by simp [six])).2.text⟩

/-! ### Steps -/

/-- The invariant of the machine: a sound bot, and strings of clean texts still to be handled. -/
structure Guarded (username password : Str) (errors : Str → Prop) (m : Machine) : Prop where
  sound : Sound username password errors m.client.toBot
  batch : ∀ rest, m.control = .batch rest → ∀ data ∈ rest, Carries data

variable {username password : Str} {errors : Str → Prop}

theorem sound_handlePacket {b : Bot} (sound : Sound username password errors b) {data : Str}
    (carries : Carries data) : Sound username password errors (b.handlePacket data) := by
  cases parsed : ChatPacket.fromString (cstr data) with
  | none =>
    rw [Bot.handlePacket_rejected b parsed]
    exact sound
  | some p =>
    rw [Bot.handlePacket_accepted b parsed]
    obtain ⟨username, named, message⟩ := carries p parsed
    exact sound.dispatch username named message

theorem sound_read {c : Client} (sound : Sound username password errors c.toBot) (o : RecvOutcome) :
    Sound username password errors (c.read o).2.toBot := by
  simp only [Client.read]
  split
  · exact { sound with }
  · exact sound

theorem sound_login {c : Client} (sound : Sound username password errors c.toBot)
    (o : RecvOutcome) : Sound username password errors (c.login username password o).2.toBot := by
  have asked := sound.write (.inl .login)
  have read := sound_read
    (c := { c with toBot := (c.toBot.write (.message .userJoin username password)).2 }) asked o
  unfold Client.login
  simp only
  split
  · split
    · split
      · exact (read.withLogin true).write (.inr (wellFormed_blank .userList))
      · exact read
    · exact read
  · exact asked

/-- What a read with data leaves to be handled. -/
theorem carries_read {c : Client} {o : RecvOutcome}
    (free : ∀ bytes, o = .data bytes → '\x00' ∉ bytes) (data : ¬(c.read o).1 ≤ 0) :
    ∀ d ∈ PacketUtil.frames (c.read o).2.readBuffer.text, Carries d := by
  by_cases failed : ∀ bytes, o = .data bytes → bytes = []
  · rw [c.read_failed failed] at data
    exact absurd (by simp) data
  · push Not at failed
    obtain ⟨bytes, rfl, nonempty⟩ := failed
    have clean := free bytes rfl
    obtain ⟨buffer, text, read⟩ := c.read_data nonempty clean
    rw [read, text]
    exact fun d => carries_of_frame (fun zero => clean (List.mem_of_mem_take zero))
      (List.length_take_le _ _)

/-- One step keeps the invariant. -/
theorem guarded_step {m : Machine} (guarded : Guarded username password errors m) (i : Input)
    (free : ∀ bytes, i.recv = .data bytes → '\x00' ∉ bytes) :
    Guarded username password errors (Machine.step username password m i) := by
  obtain ⟨sound, batch⟩ := guarded
  -- away from a batch there is nothing left to be handled
  have between {n : Machine} (after : Sound username password errors n.client.toBot)
      (control : ∀ rest, n.control ≠ .batch rest) : Guarded username password errors n :=
    ⟨after, fun rest same => absurd same (control rest)⟩
  have leaves {c : Client} (after : Sound username password errors c.toBot) :
      Guarded username password errors (m.leave c) :=
    between { after.logout with } (by rintro rest ⟨⟩)
  unfold Machine.step
  split
  · exact ⟨sound, batch⟩
  cases control : m.control with
  | idle =>
    refine between { sound with } fun rest => ?_
    simp only
    split <;> rintro ⟨⟩
  | joining =>
    apply between (sound_login sound i.recv)
    intro rest
    simp only
    split <;> rintro ⟨⟩
  | loop =>
    simp only
    have read := sound_read sound i.recv
    split
    · split
      · exact leaves { read with }
      next data =>
        refine ⟨read, ?_⟩
        rintro rest ⟨⟩
        exact carries_read free data
    · exact leaves sound
  | batch rest =>
    rw [control] at batch
    cases rest with
    | nil => exact between sound (by rintro rest ⟨⟩)
    | cons data rest =>
      refine ⟨sound_handlePacket sound (batch _ rfl data (by simp)), ?_⟩
      rintro _ ⟨⟩ d member
      exact batch _ rfl d (by simp [member])

/-- In every run, from clean texts and with the shipped scripts: the texts stay clean, and
what is written is a line, the login and the error texts of the scripts excepted. -/
theorem no_injection (username password : Str) (c : Client) (clean : Clean c.toBot)
    (scripts : c.Shipped) (unwritten : c.written = []) (inputs : List Input)
    (free : ∀ i ∈ inputs, ∀ bytes, i.recv = .data bytes → '\x00' ∉ bytes) :
    Clean (Machine.run username password inputs (Machine.start c)).client.toBot ∧
      ∀ w ∈ (Machine.run username password inputs (Machine.start c)).client.written,
        Exempt username password (Reported c.world) w.packet ∨ WellFormed w.packet.toString := by
  have initial : Guarded username password (Reported c.world) (Machine.start c) := by
    constructor
    · refine { clean with scripts := scripts, reported := ?_, written := fun w member => ?_ }
      · exact fun err usec member => ⟨usec, member⟩
      · rw [show (Machine.start c).client.written = [] from unwritten] at member
        cases member
    · rintro rest ⟨⟩
  have reached := Run.invariant_of_inputs (Machine.step username password)
    (Guarded username password (Reported c.world)) _ (fun _ i guarded => guarded_step guarded i)
    inputs free _ initial
  exact ⟨reached.sound.toClean, reached.sound.written⟩

end

/-- Bob joins as an admin and has the bot say something. -/
theorem no_injection_said : ∃ (c : Client) (inputs : List Input),
    (@Machine.run lp64 "MeepBot".toList "secret".toList inputs (.start c)).client.written.length =
      3 ∧
    ∀ w ∈ (@Machine.run lp64 "MeepBot".toList "secret".toList inputs (.start c)).client.written,
      Exempt "MeepBot".toList "secret".toList (Reported c.world) w.packet ∨
        WellFormed (@ChatPacket.toString lp64 w.packet) := by
  let connects (o : RecvOutcome) : Input := ⟨.connected 3, o⟩
  let grant := connects (.data "100`_`_`0`0`0\n".toList)
  let batch := connects (.data "1`bob`A`0`0`0\n3`bob`!say hi`0`0`0\n".toList)
  refine ⟨⟨{ Bot.initial .empty .empty .calm with lua := some Scripts.loaded }, .zero⟩,
    [grant, grant, batch, batch, batch], by decide +kernel, ?_⟩
  refine (@no_injection lp64 "MeepBot".toList "secret".toList
    ⟨{ Bot.initial .empty .empty .calm with lua := some Scripts.loaded }, .zero⟩ ⟨?_, ?_, ?_⟩ ?_ rfl
    [grant, grant, batch, batch, batch] ?_).2
  · rintro r ⟨⟩
  · rintro r ⟨⟩
  · rintro name ⟨⟩
  · rintro l ⟨⟩
    exact ⟨rfl, rfl⟩
  · intro i member bytes data
    simp only [List.mem_cons, List.not_mem_nil, or_false] at member
    rcases member with rfl | rfl | rfl | rfl | rfl <;> cases data <;> decide

end Properties
end MeepBot
