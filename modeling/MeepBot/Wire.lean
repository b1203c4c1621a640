import MeepBot.Effects

/-!
# What goes over the wire

`ToString` escapes nothing, so a packet is one line only if its two texts are clean. That they
are is an invariant: every text the bot holds is clean, what it says is put together from clean
texts, and what it stores comes from the fields of packets, which are clean again.
-/

namespace MeepBot

open Scripts Effect

/-- One line: five delimiters between six non-empty fields, and one newline, at the end. -/
structure WellFormed (s : Str) : Prop where
  delims : s.count delim = 5
  line : ∃ l, s = l ++ ['\n'] ∧ '\n' ∉ l ∧ (l.splitOn delim).length = 6 ∧
    ∀ field ∈ l.splitOn delim, field ≠ []

/-- A text the database can hold and that has no meaning on the wire. -/
def CleanText (s : Str) : Prop := TextClass.wire.holds limit s

/-- A clean name of a packet, which is no longer than what is read at once. -/
def CleanName (s : Str) : Prop := TextClass.wire.holds bufferSize s

/-- A row of clean texts; the count is an integer of the database. -/
structure CleanRow (r : UserRow) : Prop where
  username : CleanText r.username
  description : CleanText (r.description.getD [])
  warnings : -2 ^ 63 ≤ r.warnings ∧ r.warnings < 2 ^ 63

/-- The texts of the user list and of the database are clean. -/
structure Clean (b : Bot) : Prop where
  users : ∀ r ∈ b.users.rows, CleanRow r
  quotes : ∀ r ∈ b.quotes.quotes.rows, CleanText r.quote ∧ CleanText r.addedBy
  names : ∀ name ∈ b.userList, CleanText name

/-- What is sent without being made of clean texts: the login, and the private reply with an
error text of the scripts. -/
inductive Exempt (username password : Str) (errors : Str → Prop) : ChatPacket → Prop
  | login : Exempt username password errors (.message .userJoin username password)
  | scriptError (caller : Str) (usec : Nat) {err : Str} (reported : errors err) :
    Exempt username password errors
      (.message .userPM caller (Bot.reloadReply .userPM usec (.error err)))

/-! ### Clean texts -/

theorem field_of_plain {s : Str} (plain : Plain s) (nonempty : s ≠ []) : ChatPacket.Field s :=
  ⟨nonempty, fun member => (plain _ member).1 rfl, fun member => (plain _ member).2.1 rfl,
    fun member => (plain _ member).2.2 rfl⟩

theorem cleanName_blank : CleanName blank := ⟨by decide, by decide⟩

theorem CleanName.text {s : Str} (clean : CleanName s) : CleanText s :=
  TextClass.wire.mono clean (by decide)

/-- A short text of the program itself. -/
theorem clean_literal {chars : Str} (short : shortPlain 100 chars = true) :
    TextClass.wire.holds speech (String.ofList chars).toList :=
  TextClass.wire.mono (TextClass.wire.literal short) (by decide)

theorem cleanRow_warnRow {r : UserRow} (clean : CleanRow r) (warnings : Int) :
    CleanRow (warnRow warnings r) := by
  have counted : CleanRow (if warnings + 1 < 0 ∨ 5 < warnings + 1 then r
      else { r with warnings := warnings + 1 }) := by
    split
    · exact clean
    · exact { clean with warnings := ⟨by simp only; omega, by simp only; omega⟩ }
  unfold warnRow
  simp only
  split
  · exact ⟨counted.username, ⟨by simp [Plain], by simp⟩, counted.warnings⟩
  · exact counted

variable [Platform]

/-- The invariant of a bot with the shipped scripts: its texts are clean, and what it has
written is a line or exempt. -/
structure Sound (username password : Str) (errors : Str → Prop) (b : Bot) : Prop
    extends Clean b where
  scripts : b.Shipped
  reported : ∀ err usec, (ScriptsOutcome.failed err, usec) ∈ b.world.reloads → errors err
  written : ∀ w ∈ b.written,
    Exempt username password errors w.packet ∨ WellFormed w.packet.toString

/-! ### Lines -/

/-- Texts that are fields, in a line that fits its buffer, make a line of the protocol. -/
theorem wellFormed_of_fields {p : ChatPacket} (roomy : p.Roomy)
    (username : ChatPacket.Field p.sUsername) (message : ChatPacket.Field p.sMessage) :
    WellFormed p.toString := by
  have all := ChatPacket.field_of_mem_fields username message
  rw [ChatPacket.toString_eq_text username.zero_free message.zero_free roomy, ChatPacket.text]
  have splits : ([delim].intercalate p.fields).splitOn delim = p.fields :=
    List.splitOn_intercalate delim (fun f member => (all f member).delim_free)
      (by simp [ChatPacket.fields])
  constructor
  · have none (f : Str) (member : f ∈ p.fields) : f.count delim = 0 :=
      List.count_eq_zero.mpr (all f member).delim_free
    simp only [ChatPacket.fields, List.mem_cons, List.not_mem_nil, or_false, forall_eq_or_imp,
      forall_eq] at none
    obtain ⟨h1, h2, h3, h4, h5, h6⟩ := none
    simp only [ChatPacket.fields, List.intercalate, List.intersperse, List.flatten_cons,
      List.flatten_nil, List.count_append, h1, h2, h3, h4, h5, h6]
    decide
  · refine ⟨[delim].intercalate p.fields, rfl, ?_, by rw [splits]; rfl, ?_⟩
    · intro newline
      rcases ChatPacket.mem_line newline with same | ⟨f, member, inside⟩
      · cases same
      · exact (all f member).newline_free inside
    · rw [splits]
      exact fun f member => (all f member).nonempty

/-- A packet of clean texts is a line. -/
theorem wellFormed_of_clean (code : MessageCode) {name msg : Str} (r g b : UInt8)
    (atName : CleanName name) (atMsg : TextClass.wire.holds speech msg)
    (named : name ≠ []) (told : msg ≠ []) :
    WellFormed (⟨code.value, name, msg, r, g, b⟩ : ChatPacket).toString := by
  refine wellFormed_of_fields ⟨code.value_lt, ?_⟩ (field_of_plain atName.1 named)
    (field_of_plain atMsg.1 told)
  -- the code has three digits, and two texts of the database are shorter than 2^31 together
  have digits : (decimal code.value.toNat).length ≤ 3 :=
    length_decimal (by decide) code.value_lt
  have line := ChatPacket.text_length_le ⟨code.value, name, msg, r, g, b⟩
  have short := atName.2
  have bounded := atMsg.2
  simp only [bufferSize, speech] at line short bounded
  omega

theorem wellFormed_blank (code : MessageCode) : WellFormed (ChatPacket.ofCode code).toString :=
  wellFormed_of_clean code 0 0 0 cleanName_blank (TextClass.wire.mono cleanName_blank (by decide))
    (by decide) (by decide)

/-! ### Speaking -/

namespace Sound

variable {username password : Str} {errors : Str → Prop} {b : Bot}

theorem write (sound : Sound username password errors b) {p : ChatPacket}
    (allowed : Exempt username password errors p ∨ WellFormed p.toString) :
    Sound username password errors (b.write p).2 := by
  refine { sound with written := ?_ }
  intro w member
  rcases List.mem_append.mp member with old | new
  · exact sound.written w old
  · rw [List.mem_singleton.mp new]
    exact allowed

theorem withLogin (sound : Sound username password errors b) (loggedIn : Bool) :
    Sound username password errors { b with loggedIn := loggedIn } := { sound with }

theorem say (sound : Sound username password errors b) {str : Str}
    (clean : TextClass.wire.holds speech str) :
    Sound username password errors (b.say str) := by
  unfold Bot.say
  split
  · exact sound
  next loud =>
    simp only [Bool.or_eq_true, not_or, decide_eq_true_eq, List.length_eq_zero_iff] at loud
    exact sound.write (.inr (wellFormed_of_clean .roomMessage _ _ _ cleanName_blank clean
      (by decide) loud.2))

theorem pm (sound : Sound username password errors b) {name msg : Str} (atName : CleanName name)
    (named : name ≠ []) (clean : TextClass.wire.holds speech msg) :
    Sound username password errors (b.pm name msg) := by
  unfold Bot.pm
  split
  · exact sound
  next loud =>
    simp only [Bool.or_eq_true, not_or, decide_eq_true_eq, List.length_eq_zero_iff] at loud
    exact sound.write (.inr (wellFormed_of_clean .userPM 0 0 0 atName clean named loud.2))

theorem reply (sound : Sound username password errors b) (type : MessageCode) {name msg : Str}
    (atName : CleanName name) (named : name ≠ []) (clean : TextClass.wire.holds speech msg) :
    Sound username password errors (b.reply type name msg) := by
  unfold Bot.reply
  split
  · exact sound.pm atName named clean
  · exact sound.say clean

theorem logout (sound : Sound username password errors b) :
    Sound username password errors b.logout := by
  unfold Bot.logout
  split
  · exact { sound.write (.inr (wellFormed_blank .userPart)) with }
  · exact { sound with }

theorem crash (sound : Sound username password errors b) {signal : Str}
    (clean : TextClass.wire.holds 100 signal) :
    Sound username password errors (b.crash signal) := by
  -- `Format` cuts the text off at the end of its buffer
  have goodbye : TextClass.wire.holds speech (StringUtil.format
      ("Aaaahh! ".toList ++ signal ++ "! Every man for himself!".toList)) :=
    TextClass.wire.part
      (TextClass.wire.mono (TextClass.wire.append (TextClass.wire.append
        (TextClass.wire.literal (by decide)) clean) (TextClass.wire.literal (by decide)))
        (by decide))
      (List.take_sublist _ _)
  exact { (sound.say goodbye).logout with }

/-! ### Handlers -/

/-- Everything a handler does on behalf of a clean name, changes of the stores apart. -/
theorem closed {caller : Str} (atCaller : CleanName caller) (named : caller ≠ []) :
    Closed TextClass.wire caller (Sound username password errors) where
  say _ _ clean sound := sound.say clean
  pm _ _ clean sound := sound.pm atCaller named clean
  values _ _ sound := { sound with }
  picks _ _ sound := { sound with }
  description _ sound r member := (sound.users r member).description
  count _ sound r member := by
    have bounds := (sound.users r member).warnings
    exact ⟨TextClass.wire.int (by omega), TextClass.wire.int (by omega)⟩
  quote _ sound r member := sound.quotes r member
  name _ sound n member := sound.names n member
  help _ sound l open_ := by
    rw [(sound.scripts l open_).1]
    exact helps_shipped

/-- A handler with a level changes the stores to clean ones. -/
theorem sets {caller : Str} (atCaller : CleanName caller) {c : Command} {rank : AccessLevel}
    (meant : levelFor c = some rank) :
    Sets TextClass.wire caller (Sound username password errors) c := by
  cases c with
  | protect | unprotect =>
    exact fun b name sound => { sound with
      users := KeyedTable.forall_update sound.users fun r member =>
        { sound.users r member with } }
  | setdesc =>
    exact fun b desc clean sound => { sound with
      users := KeyedTable.forall_update sound.users fun r member =>
        { sound.users r member with description := clean } }
  | warn =>
    intro b target entry sound _ _ _
    refine { sound with users := UserDB.forall_rows_iff.mpr fun name r row => ?_ }
    rw [rowOf_warnUsers] at row
    obtain ⟨old, before, rfl⟩ := Option.map_eq_some_iff.mp row
    have clean := UserDB.forall_rows_iff.mp sound.users name old before
    split
    · exact cleanRow_warnRow clean entry.warnings
    · exact clean
  | unwarn =>
    exact fun b name sound => { sound with
      users := KeyedTable.forall_update sound.users fun r member =>
        { sound.users r member with warnings := by simp } }
  | addquote =>
    intro b text clean sound
    refine { sound with quotes := fun r member => ?_ }
    rcases QuotesDB.mem_addQuote member with old | ⟨quote, adder⟩
    · exact sound.quotes r old
    · rw [quote, adder]
      exact ⟨clean, atCaller.text⟩
  | removequote =>
    exact fun b id sound => { sound with
      quotes := fun r member => sound.quotes r (QuotesDB.mem_removeQuote member) }
  | enablebot | disablebot =>
    intro b sound
    refine { sound with scripts := fun l member => ?_ }
    obtain ⟨old, present, rfl⟩ := Option.map_eq_some_iff.mp member
    exact sound.scripts old present
  -- registered with a capital, so that no level is found for them
  | kick | disable | ban | unban | mute | unmute => cases meant
  | _ => trivial

/-! ### Chat lines -/

section
variable {caller line : Str}

theorem reloadLua (sound : Sound username password errors b) :
    Sound username password errors b.reloadLua.2 := by
  have later : ∀ err usec, (ScriptsOutcome.failed err, usec) ∈ b.world.reloads.tail → errors err :=
    fun err usec ⟨n, same⟩ => sound.reported err usec ⟨n + 1, same⟩
  unfold Bot.reloadLua Bot.reloadLuaUnder
  cases b.world.reloads.head.1 with
  | ran =>
    refine { sound with scripts := ?_, reported := later }
    rintro l ⟨⟩
    exact ⟨rfl, rfl⟩
  | failed err => exact { sound with scripts := by rintro l ⟨⟩, reported := later }
  | unreadable =>
    refine crash ?_ (TextClass.wire.literal (by decide))
    exact { sound with scripts := by rintro l ⟨⟩, reported := later }

omit [Platform] in
theorem reloadLua_error {err : Str} (failed : b.reloadLua.1 = some (.error err)) :
    ∃ usec, (ScriptsOutcome.failed err, usec) ∈ b.world.reloads := by
  unfold Bot.reloadLua Bot.reloadLuaUnder at failed
  cases outcome : b.world.reloads.head.1 with
  | ran => rw [outcome] at failed; cases failed
  | failed text =>
    rw [outcome] at failed
    cases failed
    exact ⟨b.world.reloads.head.2, 0, by rw [← outcome]⟩
  | unreadable => rw [outcome] at failed; cases failed

omit [Platform] in
theorem reloadReply_clean (type : MessageCode) (usec : Nat) :
    TextClass.wire.holds speech (Bot.reloadReply type usec (.ok ())) := by
  have plain : Plain ("...done. (took ".toList ++ decimal usec ++ " usec)".toList) :=
    plain_append (plain_append (by decide) (plain_decimal usec)) (by decide)
  have reply : Bot.reloadReply type usec (.ok ()) =
      ("...done. (took ".toList ++ decimal usec ++ " usec)".toList).take 255 := rfl
  rw [reply]
  refine ⟨fun c member => plain c (List.mem_of_mem_take member), ?_⟩
  rw [List.length_take, speech]
  omega

/-- The reply to a reload is clean, or has an error text and is exempt. -/
theorem replyReload (sound : Sound username password errors b) (type : MessageCode)
    (atCaller : CleanName caller) (named : caller ≠ []) (usec : Nat) (ret : Except Str Unit)
    (reported : ∀ err, ret = .error err → errors err) :
    Sound username password errors (b.reply type caller (Bot.reloadReply type usec ret)) := by
  cases ret with
  | ok => exact sound.reply type atCaller named (reloadReply_clean type usec)
  | error err =>
    unfold Bot.reply
    split
    next inPrivate =>
      subst inPrivate
      unfold Bot.pm
      split
      · exact sound
      · exact sound.write (.inl (.scriptError caller usec (reported err rfl)))
    next inRoom =>
      -- the room is not told the error text
      have reply : Bot.reloadReply type usec (.error err) = "...failed :(".toList := by
        change "...failed :(".toList ++ (if type = .userPM then _ else []) = _
        rw [if_neg inRoom, List.append_nil]
      rw [reply]
      exact sound.say (clean_literal (by decide))

theorem doReload (sound : Sound username password errors b) (type : MessageCode)
    (atCaller : CleanName caller) (named : caller ≠ []) :
    Sound username password errors (b.doReload type caller).2 := by
  unfold Bot.doReload Bot.doReloadUnder
  split
  swap
  · exact sound
  have told : Sound username password errors
      (b.reply type caller "Reloading Lua scripts...".toList) :=
    sound.reply type atCaller named (clean_literal (by decide))
  generalize b.reply type caller "Reloading Lua scripts...".toList = b at told
  have after := told.reloadLua
  simp only [Bot.reloadLuaUnder_zero]
  rcases result : b.reloadLua with ⟨_ | ret, c⟩
  · rw [result] at after
    exact after
  · rw [result] at after
    apply after.replyReload type atCaller named _ ret
    intro err failed
    obtain ⟨usec, member⟩ := reloadLua_error (b := b) (by rw [result, failed])
    exact told.reported err usec member

theorem callRespond (sound : Sound username password errors b) {l : Lua} (open_ : l ∈ b.lua)
    (type : MessageCode) (atCaller : CleanName caller) (named : caller ≠ [])
    (atLine : CleanText line) :
    Sound username password errors (b.callRespond l type caller line).2 := by
  have outcome := respond_keeps (closed atCaller named) atCaller.text
    (fun c rank meant _ => sets atCaller meant) (.typeOf type) atLine b sound
  unfold Bot.callRespond Bot.callRespondUnder
  rw [Bot.respond_line, (sound.scripts l open_).1]
  rcases result : respond shipped run (.typeOf type) caller (some line) b with
    ⟨(msg | name) | _, c⟩
  · rw [result] at outcome
    exact outcome.1
  · rw [result] at outcome
    obtain ⟨after, rfl⟩ := outcome
    exact after.crash (TextClass.wire.literal (by decide))
  · rw [result] at outcome
    exact outcome.1

theorem respond (sound : Sound username password errors b) (type : MessageCode)
    (atCaller : CleanName caller) (named : caller ≠ []) (atLine : CleanText line) :
    Sound username password errors (b.respond type caller line).2 := by
  unfold Bot.respond Bot.respondUnder
  split
  · exact sound.doReload type atCaller named
  · split
    · split
      · exact sound.say (clean_literal (by decide))
      · exact sound
    next l open_ =>
      -- the shipped scripts have a `Respond`, so the state of the scripts is not closed
      rw [if_pos (sound.scripts l open_).2]
      exact sound.callRespond open_ type atCaller named atLine

/-! ### Packets -/

theorem join (sound : Sound username password errors b) {user : Str} (clean : CleanText user)
    (msg : Str) : Sound username password errors (b.join user msg) := by
  unfold Bot.join
  split
  · apply sound.say
    unfold Bot.greeting
    split <;> exact clean_literal (by decide)
  · -- a new row holds the name up to its first zero byte, and no other text
    refine { sound with users := fun r member => ?_, names := fun name member => ?_ }
    · rcases KeyedTable.mem_insertOrIgnore.mp member with old | ⟨rfl, -⟩
      · exact sound.users r old
      · exact ⟨TextClass.wire.part clean (List.takeWhile_sublist _),
          ⟨by simp [UserDB.newRow, Plain], by simp [UserDB.newRow]⟩, by simp [UserDB.newRow]⟩
    · rcases (SortedSet.mem_insert _ _ _).mp member with rfl | old
      · exact clean
      · exact sound.names name old

/-- A packet with clean fields is answered by lines and stores clean texts. -/
theorem dispatch (sound : Sound username password errors b) {p : ChatPacket}
    (atUser : CleanName p.sUsername) (named : p.sUsername ≠ []) (atMessage : CleanText p.sMessage) :
    Sound username password errors (b.dispatch p) := by
  have asCstr {s : Str} (plain : Plain s) : cstr s = s :=
    cstr_eq_self s fun zero => (plain _ zero).2.2 rfl
  have made := b.dispatch_cases p
  generalize b.dispatch p = c at made ⊢
  cases made with
  | join => exact sound.join atUser.text p.sMessage
  | part =>
    exact { sound with
      names := fun name member => sound.names name ((SortedSet.mem_erase _ _ _).mp member).1 }
  | muted =>
    exact (sound.write (.inr (wellFormed_of_clean .userUnmute 0 0 0 cleanName_blank
      ⟨by decide, by decide⟩ (by decide) (by decide)))).say (clean_literal (by decide))
  | idle => exact sound.write (.inr (wellFormed_blank .clientBack))
  | chat =>
    rw [asCstr atUser.1, asCstr atMessage.1]
    exact sound.respond _ atUser named atMessage
  | ignored => exact sound

end

end Sound
end MeepBot
