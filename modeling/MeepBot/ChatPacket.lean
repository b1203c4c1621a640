import MeepBot.Platform
import MeepBot.StringUtil

/-!
# ChatPacket

A packet is one line of six fields separated by a backquote. `FromString` reads the fields
by the collapsing splitter and `atoi`, narrowing the numbers to their field's width;
`ToString` prints them into a buffer whose size is computed beforehand.
-/

namespace MeepBot

inductive MessageCode where
  | userList | userJoin | userPart
  | roomMessage | roomAction | userPM
  | userKick | userDisable | userBan | userUnban | userMute | userUnmute
  | serverDown | idleKick | ipQuery | debugCommand
  | userTimedBan | userTimedMute
  | modChat
  | accessGranted | accessDenied | limitReached
  | pmBox
  | forceClear | forceUrl
  | joinRoom | createRoom | destroyRoom | roomList | forceJoin
  | clientIdle | clientAway | clientBack | clientConfig
  | wallMessage
  | startTyping | stopTyping | resetTyping
  deriving DecidableEq

namespace MessageCode

def value : MessageCode → UInt16
  | userList => 0 | userJoin => 1 | userPart => 2
  | roomMessage => 3 | roomAction => 4 | userPM => 5
  | userKick => 6 | userDisable => 7 | userBan => 8 | userUnban => 9
  | userMute => 10 | userUnmute => 11
  | serverDown => 12 | idleKick => 13 | ipQuery => 14 | debugCommand => 15
  | userTimedBan => 16 | userTimedMute => 17
  | modChat => 18
  | accessGranted => 100 | accessDenied => 101 | limitReached => 102
  | pmBox => 200
  | forceClear => 300 | forceUrl => 301
  | joinRoom => 400 | createRoom => 402 | destroyRoom => 403 | roomList => 404 | forceJoin => 405
  | clientIdle => 500 | clientAway => 501 | clientBack => 502 | clientConfig => 600
  | wallMessage => 601
  | startTyping => 602 | stopTyping => 603 | resetTyping => 604

def all : List MessageCode :=
  [userList, userJoin, userPart, roomMessage, roomAction, userPM, userKick, userDisable, userBan,
   userUnban, userMute, userUnmute, serverDown, idleKick, ipQuery, debugCommand, userTimedBan,
   userTimedMute, modChat, accessGranted, accessDenied, limitReached, pmBox, forceClear, forceUrl,
   joinRoom, createRoom, destroyRoom, roomList, forceJoin, clientIdle, clientAway, clientBack,
   clientConfig, wallMessage, startTyping, stopTyping, resetTyping]

/-- The enumerator a code is cast to, if there is one with its value. -/
def ofCode (code : UInt16) : Option MessageCode := all.find? fun c => decide (c.value = code)

theorem ofCode_value (c : MessageCode) : ofCode c.value = some c := by cases c <;> rfl

theorem value_of_ofCode {code : UInt16} {c : MessageCode} (found : ofCode code = some c) :
    code = c.value := by
  have same := List.find?_some found
  exact (of_decide_eq_true same).symm

/-- Every code prints in three digits at most. -/
theorem value_lt (c : MessageCode) : c.value.toNat < 1000 := by cases c <;> decide

end MessageCode

/-- `BLANK`, a field without content. -/
def blank : Str := ['_']

def invalidCode : UInt16 := 0xFFFF

structure ChatPacket where
  iCode : UInt16
  sUsername : Str
  sMessage : Str
  r : UInt8
  g : UInt8
  b : UInt8
  deriving DecidableEq

namespace ChatPacket

/-- `ChatPacket( code, username, message )`. -/
def message (code : MessageCode) (sUsername sMessage : Str) : ChatPacket :=
  ⟨code.value, sUsername, sMessage, 0, 0, 0⟩

/-- `ChatPacket( code )`. -/
def ofCode (code : MessageCode) : ChatPacket := message code blank blank

/-- The packet of a rejected string. The source leaves its colours unset, and reads none. -/
def invalid : ChatPacket := ⟨invalidCode, [], [], 0, 0, 0⟩

variable [Platform]

/-- The packet of six fields, the numbers narrowed to their width. -/
def ofFields : List Str → Option ChatPacket
  | [code, username, message, r, g, b] => some
    { iCode := UInt16.ofInt (atoi code)
      sUsername := username
      sMessage := message
      r := UInt8.ofInt (atoi r)
      g := UInt8.ofInt (atoi g)
      b := UInt8.ofInt (atoi b) }
  | _ => none

/-- `FromString`, and nothing where it returns false and leaves the packet as it was. -/
def fromString (sData : Str) : Option ChatPacket := ofFields (StringUtil.split sData [] delim)

/-- `ChatPacket( sData )`. -/
def ofString (sData : Str) : ChatPacket := (fromString sData).getD invalid

omit [Platform]

def isValid (p : ChatPacket) : Bool := decide (p.iCode ≠ invalidCode)

/-- The packet bears one of some codes. -/
def Bears (p : ChatPacket) (codes : List MessageCode) : Prop := ∃ m ∈ codes, p.iCode = m.value

theorem bears_iff {p : ChatPacket} {m : MessageCode} (code : p.iCode = m.value)
    (codes : List MessageCode) : p.Bears codes ↔ m ∈ codes := by
  constructor
  · rintro ⟨m', member, same⟩
    have found := congrArg MessageCode.ofCode (code.symm.trans same)
    rw [MessageCode.ofCode_value, MessageCode.ofCode_value] at found
    rwa [Option.some.inj found]
  · exact fun member => ⟨m, member, code⟩

/-- The six fields `ToString` prints: the strings up to their terminator. -/
def fields (p : ChatPacket) : List Str :=
  [decimal p.iCode.toNat, cstr p.sUsername, cstr p.sMessage,
    decimal p.r.toNat, decimal p.g.toNat, decimal p.b.toNat]

/-- The text `ToString` formats. -/
def text (p : ChatPacket) : Str := [delim].intercalate p.fields ++ ['\n']

/-- The size of the buffer, an `unsigned`. -/
def iLen (p : ChatPacket) : Nat := (p.sUsername.length + p.sMessage.length + 20) % 2 ^ 32

/-- `ToString`, which does not look at the result of `snprintf`. -/
def toString (p : ChatPacket) : Str := snprintf p.iLen p.text

/-! ### What is accepted -/

theorem fromString_eq [Platform] (s : Str) : fromString s = ofFields (pieces delim s) := by
  rw [fromString, StringUtil.split_eq, List.nil_append]

theorem pieces_of_fromString [Platform] {s : Str} {p : ChatPacket}
    (accepted : fromString s = some p) :
    ∃ code r g b, pieces delim s = [code, p.sUsername, p.sMessage, r, g, b] ∧
      p.iCode = UInt16.ofInt (atoi code) := by
  rw [fromString_eq] at accepted
  unfold ofFields at accepted
  split at accepted
  next code username message r g b six =>
    cases accepted
    exact ⟨code, r, g, b, six, rfl⟩
  next => cases accepted

theorem ofFields_none_of_length [Platform] {fs : List Str} (h : fs.length ≠ 6) :
    ofFields fs = none := by
  unfold ofFields
  split
  next => simp at h
  next => rfl

theorem exists_fields {fs : List Str} (six : fs.length = 6) :
    ∃ code username message r g b, fs = [code, username, message, r, g, b] := by
  rcases fs with _ | ⟨a, _ | ⟨b, _ | ⟨c, _ | ⟨d, _ | ⟨e, _ | ⟨f, _ | ⟨g, rest⟩⟩⟩⟩⟩⟩⟩ <;> simp at six
  exact ⟨a, b, c, d, e, f, rfl⟩

/-- Rejected is what has not six fields. -/
theorem fromString_none_iff [Platform] {s : Str} :
    fromString s = none ↔ (pieces delim s).length ≠ 6 := by
  rw [fromString_eq]
  constructor
  · intro rejected six
    obtain ⟨code, username, message, r, g, b, fields⟩ := exists_fields six
    rw [fields] at rejected
    cases rejected
  · exact ofFields_none_of_length

/-- A newline behind the last field is not part of any field's value. -/
theorem ofFields_newline [Platform] (init : List Str) (last : Str) :
    ofFields (init ++ [last ++ ['\n']]) = ofFields (init ++ [last]) := by
  by_cases six : init.length = 5
  · obtain ⟨a, b, c, d, e, rfl⟩ : ∃ a b c d e, init = [a, b, c, d, e] := by
      rcases init with _ | ⟨a, _ | ⟨b, _ | ⟨c, _ | ⟨d, _ | ⟨e, _ | ⟨f, rest⟩⟩⟩⟩⟩⟩ <;> simp at six
      exact ⟨a, b, c, d, e, rfl⟩
    simp [ofFields, atoi_newline]
  · rw [ofFields_none_of_length (by simpa using six), ofFields_none_of_length (by simpa using six)]

/-- A line is read alike with and without its newline, unless it ends in a delimiter: there
the newline becomes a field. -/
theorem fromString_newline [Platform] (u : Str) (c : Char) (other : c ≠ delim) :
    fromString (u ++ [c] ++ ['\n']) = fromString (u ++ [c]) := by
  obtain ⟨init, last, short, long⟩ :=
    Pieces.append_free_of_run delim c u ['\n'] other (by decide)
  rw [fromString_eq, fromString_eq, short, long, ofFields_newline]

/-- The strings of an accepted packet are non-empty, without delimiter, and made of bytes
of the data; a newline at the end of the data is in none of them. -/
structure CameFrom (s : Str) (field : Str) : Prop where
  nonempty : field ≠ []
  free : delim ∉ field
  chars : ∀ c ∈ field, c ∈ s

theorem cameFrom_of_mem {s field : Str} (member : field ∈ pieces delim s) : CameFrom s field :=
  let ⟨h1, h2, h3⟩ := Pieces.spec delim s field member
  ⟨h1, h2, h3⟩

theorem username_cameFrom [Platform] {s : Str} {p : ChatPacket} (accepted : fromString s = some p) :
    CameFrom s p.sUsername := by
  obtain ⟨code, r, g, b, six, -⟩ := pieces_of_fromString accepted
  exact cameFrom_of_mem (by simp [six])

theorem message_cameFrom [Platform] {s : Str} {p : ChatPacket} (accepted : fromString s = some p) :
    CameFrom s p.sMessage := by
  obtain ⟨code, r, g, b, six, -⟩ := pieces_of_fromString accepted
  exact cameFrom_of_mem (by simp [six])

/-- The fields in front of the last one do not see the newline that ends the data. -/
theorem cameFrom_line [Platform] {l : Str} {p : ChatPacket}
    (accepted : fromString (l ++ ['\n']) = some p) :
    CameFrom l p.sUsername ∧ CameFrom l p.sMessage := by
  obtain ⟨code, r, g, b, six, -⟩ := pieces_of_fromString accepted
  have inFront (init : List Str) (last : Str) (whole : pieces delim (l ++ ['\n']) = init ++ [last])
      (sub : ∀ f ∈ init, f ∈ pieces delim l) : CameFrom l p.sUsername ∧ CameFrom l p.sMessage := by
    have shape : init ++ [last] = [code, p.sUsername, p.sMessage, r, g] ++ [b] := by
      rw [← whole, six]; rfl
    have init_eq := (List.append_inj' shape rfl).1
    subst init_eq
    exact ⟨cameFrom_of_mem (sub _ (by simp)), cameFrom_of_mem (sub _ (by simp))⟩
  -- the newline is a field of its own, or behind the last field
  by_cases boundary : l = [] ∨ ∃ u, l = u ++ [delim]
  · exact inFront _ _
      (Pieces.append_free_of_boundary delim l ['\n'] (by decide) (by simp) boundary) fun _ h => h
  · push Not at boundary
    obtain ⟨u, c, rfl⟩ := (List.eq_nil_or_concat' l).resolve_left boundary.1
    have other : c ≠ delim := fun same => boundary.2 u (by rw [same])
    obtain ⟨init, last, short, long⟩ :=
      Pieces.append_free_of_run delim c u ['\n'] other (by decide)
    exact inFront init _ long fun f h => by rw [short]; exact List.mem_append_left _ h

/-! ### What is printed -/

/-- A text that can be a field of a line: non-empty, without delimiter, newline and
terminator. -/
structure Field (s : Str) : Prop where
  nonempty : s ≠ []
  delim_free : delim ∉ s
  newline_free : '\n' ∉ s
  zero_free : '\x00' ∉ s

/-- A text that is read as one field; it may have a newline. -/
structure Token (s : Str) : Prop where
  nonempty : s ≠ []
  delim_free : delim ∉ s
  zero_free : '\x00' ∉ s

theorem Field.token {s : Str} (field : Field s) : Token s :=
  ⟨field.nonempty, field.delim_free, field.zero_free⟩

theorem field_decimal (n : Nat) : Field (decimal n) where
  nonempty := decimal_ne_nil n
  delim_free h := absurd (isDigit_of_mem_decimal h) (by decide)
  newline_free h := absurd (isDigit_of_mem_decimal h) (by decide)
  zero_free h := absurd (isDigit_of_mem_decimal h) (by decide)

/-- The buffer has room, and the line can be counted: three digits for the code at most, and a
line that is no longer than the greatest `int`. -/
def Roomy (p : ChatPacket) : Prop := p.iCode.toNat < 1000 ∧ p.text.length < 2 ^ 31

theorem text_length (p : ChatPacket) : p.text.length =
    (decimal p.iCode.toNat).length + (cstr p.sUsername).length + (cstr p.sMessage).length +
    (decimal p.r.toNat).length + (decimal p.g.toNat).length + (decimal p.b.toNat).length + 6 := by
  simp only [text, fields, List.intercalate, List.intersperse, List.flatten_cons,
    List.flatten_nil, List.length_append, List.length_cons, List.length_nil]
  omega

/-- Three digits for each colour at most. -/
theorem text_length_le (p : ChatPacket) : p.text.length ≤
    (decimal p.iCode.toNat).length + p.sUsername.length + p.sMessage.length + 15 := by
  have colour (x : UInt8) : (decimal x.toNat).length ≤ 3 :=
    (Nat.length_toDigits_le_iff (by decide) (by decide)).mpr
      (Nat.lt_of_lt_of_le x.toNat_lt (by decide))
  have r := colour p.r
  have g := colour p.g
  have b := colour p.b
  have username := (List.takeWhile_prefix (l := p.sUsername) fun c => decide (c ≠ '\x00')).length_le
  have message := (List.takeWhile_prefix (l := p.sMessage) fun c => decide (c ≠ '\x00')).length_le
  rw [text_length]
  simp only [cstr] at username message ⊢
  omega

/-- The numbers, the delimiters and the newline need ten bytes beside the texts at least. -/
theorem text_length_ge (p : ChatPacket) (username : '\x00' ∉ p.sUsername)
    (message : '\x00' ∉ p.sMessage) :
    p.sUsername.length + p.sMessage.length + 10 ≤ p.text.length := by
  have number (n : Nat) : 0 < (decimal n).length := List.length_pos_of_ne_nil (decimal_ne_nil n)
  have code := number p.iCode.toNat
  have r := number p.r.toNat
  have g := number p.g.toNat
  have b := number p.b.toNat
  rw [text_length, cstr_eq_self _ username, cstr_eq_self _ message]
  omega

/-- A line that can be counted has a buffer whose size does not wrap around. -/
theorem iLen_of_counted {p : ChatPacket} (username : '\x00' ∉ p.sUsername)
    (message : '\x00' ∉ p.sMessage) (counted : p.text.length < 2 ^ 31) :
    p.iLen = p.sUsername.length + p.sMessage.length + 20 := by
  have needed := p.text_length_ge username message
  exact Nat.mod_eq_of_lt (by omega)

section
variable [Platform]

theorem toString_of_counted {p : ChatPacket} (username : '\x00' ∉ p.sUsername)
    (message : '\x00' ∉ p.sMessage) (counted : p.text.length < 2 ^ 31) :
    p.toString = p.text.take (p.sUsername.length + p.sMessage.length + 19) := by
  rw [toString, snprintf_of_lt _ counted, iLen_of_counted username message counted]
  rfl

theorem toString_eq_text {p : ChatPacket} (username : '\x00' ∉ p.sUsername)
    (message : '\x00' ∉ p.sMessage) (roomy : p.Roomy) : p.toString = p.text := by
  have code : (decimal p.iCode.toNat).length ≤ 3 :=
    (Nat.length_toDigits_le_iff (by decide) (by decide)).mpr roomy.1
  have length := p.text_length_le
  rw [toString_of_counted username message roomy.2]
  apply List.take_of_length_le
  omega

/-- The buffer of a line that can be counted has no room for the newline at worst, where the
code has five digits. -/
theorem toString_of_fits {p : ChatPacket} (username : '\x00' ∉ p.sUsername)
    (message : '\x00' ∉ p.sMessage) (counted : p.text.length < 2 ^ 31) :
    p.toString = p.text ∨ p.toString = [delim].intercalate p.fields := by
  have code : (decimal p.iCode.toNat).length ≤ 5 :=
    (Nat.length_toDigits_le_iff (by decide) (by decide)).mpr
      (Nat.lt_of_lt_of_le p.iCode.toNat_lt (by decide))
  have length := p.text_length_le
  have line : p.text.length = ([delim].intercalate p.fields).length + 1 := by
    rw [text, List.length_append, List.length_singleton]
  rw [toString_of_counted username message counted]
  by_cases room : p.text.length ≤ p.sUsername.length + p.sMessage.length + 19
  · exact .inl (List.take_of_length_le room)
  · right
    have last : p.sUsername.length + p.sMessage.length + 19 =
        ([delim].intercalate p.fields).length := by omega
    rw [text, last, List.take_left]

end

/-- A line that cannot be counted is lost where `snprintf` leaves nothing. -/
theorem toString_leavingNothing (platform : Platform) {p : ChatPacket}
    (uncounted : 2 ^ 31 ≤ p.text.length) : @toString platform.leavingNothing p = [] := by
  let _ := platform.leavingNothing
  rw [toString, snprintf, if_neg (not_lt.mpr uncounted)]
  exact List.take_nil

theorem ofInt_toNat16 (x : UInt16) : UInt16.ofInt (x.toNat : Int) = x := by
  have small := x.toNat_lt
  apply UInt16.toNat_inj.mp
  simp only [UInt16.ofInt, UInt16.toNat_ofNat']
  omega

theorem ofInt_toNat8 (x : UInt8) : UInt8.ofInt (x.toNat : Int) = x := by
  have small := x.toNat_lt
  apply UInt8.toNat_inj.mp
  simp only [UInt8.ofInt, UInt8.toNat_ofNat']
  omega

/-- What holds of every number and of both texts holds of all six parts of the line. -/
theorem forall_mem_fields {p : ChatPacket} {P : Str → Prop} (number : ∀ n, P (decimal n))
    (username : P (cstr p.sUsername)) (message : P (cstr p.sMessage)) : ∀ f ∈ p.fields, P f := by
  intro f member
  simp only [fields, List.mem_cons, List.not_mem_nil, or_false] at member
  rcases member with rfl | rfl | rfl | rfl | rfl | rfl
  · exact number _
  · exact username
  · exact message
  all_goals exact number _

/-- With fields for texts, all six parts of the line are fields. -/
theorem field_of_mem_fields {p : ChatPacket} (username : Field p.sUsername)
    (message : Field p.sMessage) : ∀ f ∈ p.fields, Field f := by
  apply forall_mem_fields field_decimal
  · rwa [cstr_eq_self _ username.zero_free]
  · rwa [cstr_eq_self _ message.zero_free]

theorem token_of_mem_fields {p : ChatPacket} (username : Token p.sUsername)
    (message : Token p.sMessage) : ∀ f ∈ p.fields, Token f := by
  apply forall_mem_fields fun n => (field_decimal n).token
  · rwa [cstr_eq_self _ username.zero_free]
  · rwa [cstr_eq_self _ message.zero_free]

/-- A byte of a line is a delimiter or belongs to a field. -/
theorem mem_line {fs : List Str} {c : Char} (member : c ∈ [delim].intercalate fs) :
    c = delim ∨ ∃ f ∈ fs, c ∈ f := by
  induction fs with
  | nil => simp [List.intercalate_nil] at member
  | cons f fs ih =>
    rcases fs with _ | ⟨g, fs⟩
    · rw [List.intercalate_singleton] at member
      exact .inr ⟨f, by simp, member⟩
    · rw [List.intercalate_cons_cons, List.append_assoc, List.mem_append, List.mem_append,
        List.mem_singleton] at member
      rcases member with here | same | later
      · exact .inr ⟨f, by simp, here⟩
      · exact .inl same
      · rcases ih later with same | ⟨h, among, inside⟩
        · exact .inl same
        · exact .inr ⟨h, List.mem_cons_of_mem f among, inside⟩

/-- `ToString` and `FromString` on the wire: a printed line is read back, with and without
its newline. -/
theorem fromString_line [Platform] (p : ChatPacket) (username : Token p.sUsername)
    (message : Token p.sMessage) :
    fromString ([delim].intercalate p.fields) = some p ∧ fromString p.text = some p := by
  have lines : fromString ([delim].intercalate p.fields) = some p := by
    rw [fromString_eq, Pieces.intercalate]
    · -- every number that is printed fits an `int`, and then its own width again
      have number (n : Nat) (small : n < 2 ^ 31) : atoi (decimal n) = n := by
        simpa using atoi_decimal n small [] (by simp)
      have code := number p.iCode.toNat (Nat.lt_of_lt_of_le p.iCode.toNat_lt (by decide))
      have colour (x : UInt8) := number x.toNat (Nat.lt_of_lt_of_le x.toNat_lt (by decide))
      simp only [fields, ofFields, cstr_eq_self _ username.zero_free,
        cstr_eq_self _ message.zero_free, code, colour, ofInt_toNat16, ofInt_toNat8]
    · intro f member
      have token := token_of_mem_fields username message f member
      exact ⟨token.nonempty, token.delim_free⟩
  refine ⟨lines, ?_⟩
  -- the line ends in a digit, so its newline is not read as a field
  obtain ⟨u, c, shape⟩ := (List.eq_nil_or_concat' (decimal p.b.toNat)).resolve_left
    (decimal_ne_nil _)
  have digit : c.isDigit := isDigit_of_mem_decimal (n := p.b.toNat) (by simp [shape])
  obtain ⟨v, ends⟩ : ∃ v, [delim].intercalate p.fields = v ++ [c] :=
    ⟨[delim].intercalate [decimal p.iCode.toNat, cstr p.sUsername, cstr p.sMessage,
      decimal p.r.toNat, decimal p.g.toNat, u], by
        simp [fields, List.intercalate, shape]⟩
  rw [text, ends, fromString_newline v c (by rintro rfl; exact absurd digit (by decide)), ← ends,
    lines]

end ChatPacket
end MeepBot
