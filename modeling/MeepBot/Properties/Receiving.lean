import MeepBot.PacketUtil

/-!
# Receiving

What the parser makes of a string that has been received.

* `shortcut_agrees_iff`: a buffer taken whole has the packets of its pieces unless its line
  ends in a delimiter behind five or six fields.
* `fromString_exact_iff`: `FromString` and `IsValid` tell the well-formed strings from the
  others unless a string that is not well-formed has six fields by the collapsing splitter.
-/

namespace MeepBot
namespace Properties

open PacketUtil

/-! ### The shortcut -/

/-- The newline behind a delimiter is a field of its own. -/
theorem length_pieces_dangling {l : Str} (dangling : Dangling l) :
    (pieces delim (l ++ ['\n'])).length = (pieces delim l).length + 1 := by
  rw [Pieces.append_free_of_boundary delim l ['\n'] (by decide) (by decide) (.inr dangling.1),
    List.length_append, List.length_singleton]

section
variable [Platform]

/-- A dangling line is rejected with its newline and accepted without, or the other way. -/
theorem dangling_differs {l : Str} (dangling : Dangling l) :
    ChatPacket.fromString (l ++ ['\n']) ≠ ChatPacket.fromString l := by
  intro same
  have rejected := ChatPacket.fromString_none_iff (s := l)
  rw [← same, ChatPacket.fromString_none_iff, length_pieces_dangling dangling] at rejected
  -- the newline makes six of five fields, and seven of six
  have count := dangling.2
  omega

/-- For every buffer that is taken whole: its packets are those of its pieces if and only if it
is no line that ends in a delimiter behind five or six fields. -/
theorem shortcut_agrees_iff (s : Str) (whole : needsSplit s = false) :
    [s].filterMap ChatPacket.fromString = (split s []).filterMap ChatPacket.fromString ↔
      ¬∃ l, s = l ++ ['\n'] ∧ Dangling l := by
  rw [split, StringUtil.split_eq, List.nil_append]
  rcases needsSplit_eq_false_iff.mp whole with rfl | ⟨l, rfl, free⟩
  · exact iff_of_true rfl (by simp)
  · constructor
    · -- the only piece is the line without its newline
      rintro agree ⟨l', line, dangling⟩
      obtain rfl := List.append_cancel_right line
      have nonempty : l ≠ [] := by
        obtain ⟨⟨u, rfl⟩, -⟩ := dangling
        exact List.append_ne_nil_of_right_ne_nil u (by decide)
      rw [Pieces.append_self, Pieces.of_not_mem '\n' l free nonempty] at agree
      have heads := congrArg List.head? agree
      simp only [List.filterMap_cons, List.filterMap_nil] at heads
      apply dangling_differs dangling
      revert heads
      cases ChatPacket.fromString (l ++ ['\n']) <;> cases ChatPacket.fromString l <;> simp
    · intro closed
      have frame : frames (l ++ ['\n']) = [l ++ ['\n']] := if_neg (by simp [whole])
      rw [← frame]
      exact receive_eq_pieces _ fun l line _ dangling => closed ⟨l, line, dangling⟩

end

/-- A line in full colour is taken whole, and is the one packet of its pieces. -/
theorem shortcut_agrees_white :
    let s := "3`a`b`255`255`255\n".toList
    [s].filterMap (@ChatPacket.fromString lp64) =
      (split s []).filterMap (@ChatPacket.fromString lp64) := by
  apply (@shortcut_agrees_iff lp64 "3`a`b`255`255`255\n".toList (by decide)).mpr
  rintro ⟨l, whole, ⟨u, rfl⟩, -⟩
  have last := congrArg (fun s => s.dropLast.getLast?) whole
  rw [List.dropLast_concat, List.getLast?_concat] at last
  exact absurd last (by decide)

/-- Five fields and a delimiter are a packet when they are taken whole, with the newline for
the sixth field, and none when they are split. -/
theorem shortcut_differs : ∃ s : Str, '\x00' ∉ s ∧ needsSplit s = false ∧
    [s].filterMap (@ChatPacket.fromString lp64) ≠
      (split s []).filterMap (@ChatPacket.fromString lp64) :=
  ⟨"3`a`b`1`2`\n".toList, by decide, by decide, by decide⟩

/-! ### Acceptance -/

/-- A text without delimiter. -/
structure Text (s : Str) : Prop where
  nonempty : s ≠ []
  free : delim ∉ s

/-- The string is six non-empty fields between single delimiters that denote the packet: its
code, not the invalid one, its texts, and its colours, with a newline behind them or not. -/
inductive Denotes : Str → ChatPacket → Prop
  | line {p : ChatPacket} {code r g b tail : Str} (codeNumeral : Numeral code p.iCode.toNat)
      (codeRange : p.iCode.toNat ≤ 65534) (username : Text p.sUsername) (message : Text p.sMessage)
      (rNumeral : Numeral r p.r.toNat) (gNumeral : Numeral g p.g.toNat)
      (bNumeral : Numeral b p.b.toNat) (ends : tail = [] ∨ tail = ['\n']) :
      Denotes ([delim].intercalate [code, p.sUsername, p.sMessage, r, g, b ++ tail]) p

/-- `FromString` returns true exactly on the well-formed strings, with the packets they denote,
and `IsValid` says of a packet whether its string has been accepted. -/
structure Exact [Platform] (s : Str) : Prop where
  accepts : (ChatPacket.fromString s).isSome = true ↔ ∃ p, Denotes s p
  reads : ∀ p, Denotes s p → ChatPacket.fromString s = some p
  valid : (ChatPacket.ofString s).isValid = true ↔ (ChatPacket.fromString s).isSome = true

/-- A numeral with a value up to `n`. -/
def UpTo (n : Nat) (text : Str) : Prop := ∃ value ≤ n, Numeral text value

/-- Six fields, where the collapsing splitter finds them, are between five delimiters, and the
numbers among them are numerals in range. -/
def Strict (s : Str) : Prop :=
  ∀ code username message r g b, pieces delim s = [code, username, message, r, g, b] →
    s.count delim = 5 ∧ UpTo 65534 code ∧ UpTo 255 r ∧ UpTo 255 g ∧
      (UpTo 255 b ∨ ∃ digits, b = digits ++ ['\n'] ∧ UpTo 255 digits)

theorem Text.of_numeral {text : Str} {n : Nat} (numeral : Numeral text n) : Text text :=
  ⟨numeral.nonempty, fun member => absurd (numeral.digits _ member) (by decide)⟩

theorem Text.of_last {b tail : Str} {n : Nat} (numeral : Numeral b n)
    (ends : tail = [] ∨ tail = ['\n']) : Text (b ++ tail) := by
  obtain ⟨nonempty, free⟩ := Text.of_numeral numeral
  refine ⟨List.append_ne_nil_of_left_ne_nil nonempty tail, ?_⟩
  rw [List.mem_append, not_or]
  refine ⟨free, ?_⟩
  rcases ends with rfl | rfl
  · decide
  · decide

/-- The fields of a well-formed string. -/
theorem Denotes.fields {s : Str} {p : ChatPacket} (denotes : Denotes s p) :
    ∃ code r g b tail, pieces delim s = [code, p.sUsername, p.sMessage, r, g, b ++ tail] ∧
      s.count delim = 5 ∧ Numeral code p.iCode.toNat ∧ p.iCode.toNat ≤ 65534 ∧
      Numeral r p.r.toNat ∧ Numeral g p.g.toNat ∧ Numeral b p.b.toNat ∧
      (tail = [] ∨ tail = ['\n']) := by
  cases denotes with
  | @line _ code r g b tail codeNumeral range username message rNumeral gNumeral bNumeral ends =>
    have texts : ∀ f ∈ [code, p.sUsername, p.sMessage, r, g, b ++ tail], Text f := by
      intro f member
      simp only [List.mem_cons, List.not_mem_nil, or_false] at member
      rcases member with rfl | rfl | rfl | rfl | rfl | rfl
      · exact .of_numeral codeNumeral
      · exact username
      · exact message
      · exact .of_numeral rNumeral
      · exact .of_numeral gNumeral
      · exact .of_last bNumeral ends
    have split := Pieces.intercalate delim _ fun f member =>
      ⟨(texts f member).nonempty, (texts f member).free⟩
    have single := Pieces.count_intercalate delim _ fun f member => (texts f member).free
    exact ⟨code, r, g, b, tail, split, single, codeNumeral, range, rNumeral, gNumeral,
      bNumeral, ends⟩

/-- Six fields that meet the condition denote a packet. -/
theorem exists_denotes {s : Str} (strict : Strict s) (six : (pieces delim s).length = 6) :
    ∃ p, Denotes s p := by
  obtain ⟨code, username, message, r, g, b, split⟩ := ChatPacket.exists_fields six
  obtain ⟨single, ⟨codeValue, codeRange, codeNumeral⟩, ⟨rValue, rRange, rNumeral⟩,
    ⟨gValue, gRange, gNumeral⟩, last⟩ := strict _ _ _ _ _ _ split
  obtain ⟨digits, tail, bValue, rfl, bRange, bNumeral, ends⟩ : ∃ digits tail bValue,
      b = digits ++ tail ∧ bValue ≤ 255 ∧ Numeral digits bValue ∧
        (tail = [] ∨ tail = ['\n']) := by
    rcases last with ⟨v, range, numeral⟩ | ⟨digits, rfl, v, range, numeral⟩
    · exact ⟨b, [], v, by simp, range, numeral, .inl rfl⟩
    · exact ⟨digits, ['\n'], v, rfl, range, numeral, .inr rfl⟩
  have text (f : Str) (member : f ∈ pieces delim s) : Text f :=
    ⟨(Pieces.spec delim s f member).1, (Pieces.spec delim s f member).2.1⟩
  -- with five delimiters for six fields there is none to be collapsed
  have whole := Pieces.intercalate_of_count delim s (by rw [six, single])
  have code16 : (UInt16.ofNat codeValue).toNat = codeValue := by
    rw [UInt16.toNat_ofNat', Nat.mod_eq_of_lt (by omega)]
  have colour {v : Nat} (range : v ≤ 255) : (UInt8.ofNat v).toNat = v := by
    rw [UInt8.toNat_ofNat', Nat.mod_eq_of_lt (by omega)]
  let p : ChatPacket := ⟨UInt16.ofNat codeValue, username, message, UInt8.ofNat rValue,
    UInt8.ofNat gValue, UInt8.ofNat bValue⟩
  refine ⟨p, ?_⟩
  rw [← whole, split]
  refine .line (p := p) ?_ ?_ (text username (by simp [split])) (text message (by simp [split]))
    ?_ ?_ ?_ ends
  · rwa [code16]
  · rwa [code16]
  · rwa [colour rRange]
  · rwa [colour gRange]
  · rwa [colour bRange]

section
variable [Platform]

/-- The numbers of a well-formed string are read as they are. -/
theorem Denotes.fromString {s : Str} {p : ChatPacket} (denotes : Denotes s p) :
    ChatPacket.fromString s = some p := by
  obtain ⟨code, r, g, b, tail, split, -, codeNumeral, codeRange, rNumeral, gNumeral, bNumeral,
    ends⟩ := denotes.fields
  have stops : ∀ c ∈ tail.head?, c.isDigit = false := by
    rcases ends with rfl | rfl
    · simp
    · simp
  have number {text : Str} {n : Nat} (numeral : Numeral text n) (small : n < 2 ^ 31) :
      atoi text = n := by simpa using atoi_numeral numeral small [] (by simp)
  have colour (x : UInt8) : x.toNat < 2 ^ 31 := Nat.lt_of_lt_of_le x.toNat_lt (by decide)
  rw [ChatPacket.fromString_eq, split, ChatPacket.ofFields,
    number codeNumeral (Nat.lt_of_le_of_lt codeRange (by decide)),
    number rNumeral (colour p.r), number gNumeral (colour p.g),
    atoi_numeral bNumeral (colour p.b) tail stops, ChatPacket.ofInt_toNat16,
    ChatPacket.ofInt_toNat8, ChatPacket.ofInt_toNat8, ChatPacket.ofInt_toNat8]

/-- For every string: `FromString` and `IsValid` tell whether it is well-formed, and read its
packet if it is, if and only if six fields in it are between five delimiters, with numerals in
range for numbers. -/
theorem fromString_exact_iff (s : Str) : Exact s ↔ Strict s := by
  constructor
  · intro exact code username message r g b split
    have accepted : (ChatPacket.fromString s).isSome = true := by
      rw [ChatPacket.fromString_eq, split]
      rfl
    obtain ⟨p, denotes⟩ := exact.accepts.mp accepted
    obtain ⟨code', r', g', b', tail, split', single, codeNumeral, codeRange, rNumeral, gNumeral,
      bNumeral, ends⟩ := denotes.fields
    -- the splitter finds the fields of a well-formed string
    rw [split] at split'
    cases split'
    have colour (x : UInt8) : x.toNat ≤ 255 := Nat.le_of_lt_succ x.toNat_lt
    refine ⟨single, ⟨_, codeRange, codeNumeral⟩, ⟨_, colour p.r, rNumeral⟩,
      ⟨_, colour p.g, gNumeral⟩, ?_⟩
    rcases ends with rfl | rfl
    · exact .inl (by simpa using ⟨_, colour p.b, bNumeral⟩)
    · exact .inr ⟨b', rfl, _, colour p.b, bNumeral⟩
  · intro strict
    by_cases six : (pieces delim s).length = 6
    · obtain ⟨p, denotes⟩ := exists_denotes strict six
      have read := denotes.fromString
      have accepted : (ChatPacket.fromString s).isSome = true := by rw [read]; rfl
      refine ⟨iff_of_true accepted ⟨p, denotes⟩, fun _ => Denotes.fromString,
        iff_of_true ?_ accepted⟩
      obtain ⟨_, _, _, _, _, _, _, _, codeRange, _⟩ := denotes.fields
      -- no numeral in range is the invalid code
      rw [ChatPacket.ofString, read, Option.getD_some, ChatPacket.isValid, decide_eq_true_eq]
      intro invalid
      rw [invalid] at codeRange
      exact absurd codeRange (by decide)
    · -- what is rejected is not well-formed, and leaves the invalid code
      have rejected := ChatPacket.fromString_none_iff.mpr six
      have none : ¬(ChatPacket.fromString s).isSome = true := by rw [rejected]; decide
      have malformed (p : ChatPacket) : ¬Denotes s p := by
        intro denotes
        rw [denotes.fromString] at rejected
        cases rejected
      refine ⟨iff_of_false none fun ⟨p, denotes⟩ => malformed p denotes,
        fun p denotes => absurd denotes (malformed p), iff_of_false ?_ none⟩
      rw [ChatPacket.ofString, rejected]
      decide

end

/-- A code that is no numeral is accepted as the code of a user-list entry. -/
theorem fromString_garbled : ∃ s : Str, '\x00' ∉ s ∧ ¬@Exact lp64 s := by
  refine ⟨"abc`u`m`1`2`3".toList, by decide, fun exact => ?_⟩
  obtain ⟨p, denotes⟩ := (@Exact.accepts lp64 _ exact).mp (by decide)
  obtain ⟨code, r, g, b, tail, split, -, codeNumeral, -⟩ := denotes.fields
  have first : some code = some "abc".toList := by
    have head := congrArg List.head? split
    rw [List.head?_cons] at head
    rw [← head]
    decide
  cases first
  exact absurd (codeNumeral.digits 'a' (by decide)) (by decide)

end Properties
end MeepBot
