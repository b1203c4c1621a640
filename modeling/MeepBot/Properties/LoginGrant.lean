import MeepBot.Session

/-!
# Granted logins

What `Login` makes of the buffer it parses.

* `login_trusts_iff`: along a run, `Login` succeeds exactly on fresh grants if and only if no
  read of a login fails over the bytes of an old grant, and no answer with the code of a grant
  has six fields as a whole but not in its first line, or in its first line but not as a whole.
-/

namespace MeepBot
namespace Properties

/-- The bytes a `recv` that succeeds puts into the buffer. -/
def received : RecvOutcome → Option Str
  | .data bytes => if bytes = [] then none else some (bytes.take bufferSize)
  | _ => none

/-- The first line of a text, if a newline ends it. -/
def firstLine (text : Str) : Option Str :=
  if '\n' ∈ text then some (text.takeWhile fun c => decide (c ≠ '\n')) else none

def SixFields (text : Str) : Prop := (pieces delim text).length = 6

instance (text : Str) : Decidable (SixFields text) :=
  inferInstanceAs (Decidable ((pieces delim text).length = 6))

variable [Platform]

/-- The code in the first field of a text. -/
def leadingCode (text : Str) : UInt16 := UInt16.ofInt (atoi ((pieces delim text).headD []))

/-- The request is written, and the answer's first line is a packet that grants access. -/
structure FreshGrant (c : Client) (name pwd : Str) (o : RecvOutcome) : Prop where
  written : 0 < (c.toBot.write (.message .userJoin name pwd)).1
  granted : ∃ text l p, received o = some text ∧ firstLine text = some l ∧
    ChatPacket.fromString l = some p ∧ p.iCode = MessageCode.accessGranted.value

/-- With the request written: no old grant is in the buffer where the read fails, and an
answer that starts with the code of a grant has six fields as a whole exactly when its first
line has. -/
def Unmistakable (c : Client) (name pwd : Str) (o : RecvOutcome) : Prop :=
  0 < (c.toBot.write (.message .userJoin name pwd)).1 →
    match received o with
    | none =>
      ¬(SixFields c.readBuffer.text ∧
        leadingCode c.readBuffer.text = MessageCode.accessGranted.value)
    | some text =>
      leadingCode text = MessageCode.accessGranted.value →
        (SixFields text ↔ ∃ l, firstLine text = some l ∧ SixFields l)

/-! ### What is parsed -/

theorem fromString_some_iff {s : Str} {code : UInt16} :
    (∃ p, ChatPacket.fromString s = some p ∧ p.iCode = code) ↔
      SixFields s ∧ leadingCode s = code := by
  rw [SixFields, leadingCode]
  constructor
  · rintro ⟨p, accepted, rfl⟩
    obtain ⟨first, r, g, b, six, same⟩ := ChatPacket.pieces_of_fromString accepted
    rw [six, same]
    exact ⟨rfl, rfl⟩
  · rintro ⟨six, leading⟩
    rw [ChatPacket.fromString_eq]
    obtain ⟨first, username, message, r, g, b, fields⟩ := ChatPacket.exists_fields six
    rw [fields] at leading ⊢
    exact ⟨_, rfl, leading⟩

theorem ofString_granted_iff {s : Str} :
    (ChatPacket.ofString s).iCode = MessageCode.accessGranted.value ↔
      SixFields s ∧ leadingCode s = MessageCode.accessGranted.value := by
  rw [← fromString_some_iff, ChatPacket.ofString]
  cases ChatPacket.fromString s with
  | none => exact iff_of_false (by decide) (by rintro ⟨p, ⟨⟩, -⟩)
  | some p =>
    constructor
    · exact fun granted => ⟨p, rfl, granted⟩
    · rintro ⟨_, ⟨⟩, granted⟩
      exact granted

omit [Platform] in
theorem firstLine_prefix {text l : Str} (first : firstLine text = some l) : l <+: text := by
  unfold firstLine at first
  split at first
  next =>
    cases first
    exact List.takeWhile_prefix _
  next => cases first

/-- Behind six fields of the first line, more bytes do not change the leading code. -/
theorem leadingCode_line {text l : Str} (first : firstLine text = some l) (six : SixFields l) :
    leadingCode text = leadingCode l := by
  obtain ⟨rest, rfl⟩ := firstLine_prefix first
  rw [SixFields] at six
  rw [leadingCode, leadingCode, List.headD_eq_head?_getD, List.headD_eq_head?_getD,
    Pieces.head?_append delim l rest (by omega)]

/-! ### One login -/

/-- `Login` succeeds where the buffer, with what was received in it, holds a grant. -/
theorem login_granted_iff (c : Client) (name pwd : Str) {o : RecvOutcome}
    (clean : ∀ bytes, o = .data bytes → '\x00' ∉ bytes) :
    (c.login name pwd o).1 = true ↔
      0 < (c.toBot.write (.message .userJoin name pwd)).1 ∧
        SixFields ((received o).getD c.readBuffer.text) ∧
        leadingCode ((received o).getD c.readBuffer.text) = MessageCode.accessGranted.value := by
  rw [← ofString_granted_iff]
  unfold Client.login
  by_cases written : 0 < (c.toBot.write (.message .userJoin name pwd)).1
  swap
  · simp [written]
  simp only [written, if_true, true_and]
  -- `Login` looks at the count of the read for zero only, and parses the buffer after an error too
  have parses {d e : Client} {len : Int} (read : d.read o = (len, e)) (some : len ≠ 0)
      (text : e.readBuffer.text = (received o).getD c.readBuffer.text) :
      (if (d.read o).1 ≠ 0 then
        if (ChatPacket.ofString (d.read o).2.readBuffer.text).iCode =
            MessageCode.accessGranted.value then
          (true, { (d.read o).2 with
            toBot := ({ (d.read o).2.toBot with loggedIn := true }.write (.ofCode .userList)).2 })
        else (false, (d.read o).2)
      else (false, (d.read o).2)).1 = true ↔
        (ChatPacket.ofString ((received o).getD c.readBuffer.text)).iCode =
          MessageCode.accessGranted.value := by
    rw [read, if_pos some, text]
    split
    next granted => exact iff_of_true rfl granted
    next other => exact iff_of_false (by simp) other
  rcases outcome : received o with _ | text
  · -- the buffer is as it was left
    have failed : ∀ bytes, o = .data bytes → bytes = [] := by
      rintro bytes rfl
      by_contra some
      simp [received, some] at outcome
    rw [← outcome]
    exact parses (Client.read_failed _ failed) (by decide) (by rw [outcome]; rfl)
  · obtain ⟨bytes, rfl, nonempty, rfl⟩ :
        ∃ bytes, o = .data bytes ∧ bytes ≠ [] ∧ bytes.take bufferSize = text := by
      cases o with
      | error => cases outcome
      | closed => cases outcome
      | data bytes =>
        by_cases nonempty : bytes = []
        · simp [received, nonempty] at outcome
        · simp only [received, if_neg nonempty, Option.some.injEq] at outcome
          exact ⟨bytes, rfl, nonempty, outcome⟩
    obtain ⟨buffer, text, read⟩ := Client.read_data
      { c with toBot := (c.toBot.write (.message .userJoin name pwd)).2 } nonempty (clean bytes rfl)
    have some : ((bytes.take bufferSize).length : Int) ≠ 0 := by
      have taken : bytes.take bufferSize ≠ [] := by simpa [bufferSize] using nonempty
      exact_mod_cast (List.length_pos_of_ne_nil taken).ne'
    rw [← outcome]
    exact parses read some (by rw [text, outcome]; rfl)

theorem freshGrant_iff (c : Client) (name pwd : Str) (o : RecvOutcome) :
    FreshGrant c name pwd o ↔ 0 < (c.toBot.write (.message .userJoin name pwd)).1 ∧
      ∃ text, received o = some text ∧
        leadingCode text = MessageCode.accessGranted.value ∧
        ∃ l, firstLine text = some l ∧ SixFields l := by
  constructor
  · rintro ⟨written, text, l, p, got, first, accepted, granted⟩
    obtain ⟨six, leading⟩ := fromString_some_iff.mp ⟨p, accepted, granted⟩
    exact ⟨written, text, got, (leadingCode_line first six).trans leading, l, first, six⟩
  · rintro ⟨written, text, got, leading, l, first, six⟩
    rw [leadingCode_line first six] at leading
    obtain ⟨p, accepted, granted⟩ := fromString_some_iff.mpr ⟨six, leading⟩
    exact ⟨written, text, l, p, got, first, accepted, granted⟩

/-- One login succeeds on fresh grants alone exactly when nothing can be mistaken for one. -/
theorem trusts_iff (c : Client) (name pwd : Str) {o : RecvOutcome}
    (clean : ∀ bytes, o = .data bytes → '\x00' ∉ bytes) :
    ((c.login name pwd o).1 = true ↔ FreshGrant c name pwd o) ↔ Unmistakable c name pwd o := by
  rw [login_granted_iff c name pwd clean, freshGrant_iff, Unmistakable]
  by_cases written : 0 < (c.toBot.write (.message .userJoin name pwd)).1
  swap
  · simp [written]
  simp only [written, true_and, forall_const]
  cases received o with
  | none => simp
  | some text =>
    by_cases leading : leadingCode text = MessageCode.accessGranted.value <;> simp [leading]

/-! ### All logins of a run -/

/-- At a login, `Login` succeeds exactly on a fresh grant. -/
def Trusts (username password : Str) (m : Machine) (i : Input) : Prop :=
  ¬m.client.halted = true → m.control = .joining →
    ((m.client.login username password i.recv).1 = true ↔
      FreshGrant m.client username password i.recv)

/-- At a login, nothing can be mistaken for a fresh grant. -/
def Unmistaken (username password : Str) (m : Machine) (i : Input) : Prop :=
  ¬m.client.halted = true → m.control = .joining →
    Unmistakable m.client username password i.recv

/-- Along every run of `main`, whatever is received: each login succeeds exactly on a fresh
grant if and only if nothing it meets can be mistaken for one. -/
theorem login_trusts_iff (username password : Str) (c : Client) (inputs : List Input)
    (clean : ∀ i ∈ inputs, ∀ bytes, i.recv = .data bytes → '\x00' ∉ bytes) :
    Run.Along (Machine.step username password) (Trusts username password) inputs
        (Machine.start c) ↔
      Run.Along (Machine.step username password) (Unmistaken username password) inputs
        (Machine.start c) := by
  refine Run.along_congr (fun m i member => ?_) (Machine.start c)
  exact forall₂_congr fun _ _ => trusts_iff m.client username password (clean i member)

omit [Platform]

/-- A connection that is granted. -/
theorem login_trusts_iff_grant :
    Run.Along (@Machine.step lp64 "MeepBot".toList "secret".toList)
      (@Trusts lp64 "MeepBot".toList "secret".toList)
      [⟨.connected 3, .error⟩, ⟨.connected 3, .data "100`_`_`0`0`0\n".toList⟩]
      (Machine.start ⟨Bot.initial .empty .empty .calm, .zero⟩) := by
  let _ := lp64
  refine (login_trusts_iff _ _ _ _ ?_).mpr
    ⟨fun _ idle => absurd idle (by decide), fun _ _ _ _ => iff_of_true ?_ ?_, trivial⟩
  · intro i member bytes data
    simp only [List.mem_cons, List.not_mem_nil, or_false] at member
    rcases member with rfl | rfl <;> cases data
    decide
  · decide
  · exact ⟨"100`_`_`0`0`0".toList, by decide, by decide⟩

/-- The first session is granted, and in the second one nothing is received. -/
theorem login_mistaken : ∃ (c : Client) (inputs : List Input),
    (∀ i ∈ inputs, ∀ bytes, i.recv = .data bytes → '\x00' ∉ bytes) ∧
    ¬Run.Along (@Machine.step lp64 "MeepBot".toList "secret".toList)
      (@Trusts lp64 "MeepBot".toList "secret".toList) inputs (Machine.start c) := by
  let _ := lp64
  let connects (o : RecvOutcome) : Input := ⟨.connected 3, o⟩
  let grant := connects (.data "100`_`_`0`0`0\n".toList)
  let lost := connects .error
  refine ⟨⟨Bot.initial .empty .empty .calm, .zero⟩, [grant, grant, lost, lost, lost], ?_, ?_⟩
  · intro i member bytes data
    simp only [List.mem_cons, List.not_mem_nil, or_false] at member
    rcases member with rfl | rfl | rfl | rfl | rfl <;> cases data <;> decide
  · intro trusts
    have last : Trusts _ _ (Machine.run "MeepBot".toList "secret".toList [grant, grant, lost, lost]
        (Machine.start ⟨Bot.initial .empty .empty .calm, .zero⟩)) lost :=
      ((Run.along_append _ _ [grant, grant, lost, lost] [lost] _).mp trusts).2.1
    have joining :
        let m := Machine.run "MeepBot".toList "secret".toList [grant, grant, lost, lost]
          (Machine.start ⟨Bot.initial .empty .empty .calm, .zero⟩)
        m.control = .joining ∧ ¬m.client.halted = true ∧
          (m.client.login "MeepBot".toList "secret".toList .error).1 = true := by decide +kernel
    obtain ⟨text, l, p, got, -⟩ := ((last joining.2.1 joining.1).mp joining.2.2).granted
    cases got

end Properties
end MeepBot
