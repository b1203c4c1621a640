import Mathlib.Data.List.Chain
import Mathlib.Data.List.TakeWhile
import MeepBot.Library.SqlText

/-!
# Characters

How the bytes of a text are read as characters. A lead byte takes all the continuation bytes behind
it, however many they are; numbers that are not taken for characters become the replacement
character; a continuation byte that no lead byte takes stands for itself. So two texts may be read
as the same characters, and a text may be part of another one without being read as part of it.
-/

namespace Sql

/-- A byte `10xxxxxx`. -/
def continues (b : Char) : Bool := decide (b.toNat / 64 = 2)

/-- The bits of a lead byte that belong to the number of its character. -/
def leadBits (b : Nat) : Nat :=
  if b < 0xE0 then b - 0xC0
  else if b < 0xF0 then b - 0xE0
  else if b < 0xF8 then b - 0xF0
  else if b < 0xFC then b - 0xF8
  else if b < 0xFE then b - 0xFC
  else 0

/-- The number with the bits of a continuation byte behind it, as an `unsigned`. -/
def shifted (v : Nat) (b : Char) : Nat := (v * 64 + b.toNat % 64) % 2 ^ 32

/-- The number of the character that is read. What could be written with one byte, surrogates and
the two numbers at the end of the plane are replaced. -/
def replaced (v : Nat) : Nat := if v < 0x80 ∨ v / 2 ^ 11 = 27 ∨ v / 2 = 0x7FFF then 0xFFFD else v

/-- The characters of some bytes, behind those of a character with this number so far. -/
def charactersFrom : Option Nat → Text → List Nat
  | opened, [] => opened.toList.map replaced
  | opened, b :: t =>
    if opened.isSome ∧ continues b = true then charactersFrom (opened.map (shifted · b)) t
    else opened.toList.map replaced ++
      if b.toNat < 0xC0 then b.toNat :: charactersFrom none t
      else charactersFrom (some (leadBits b.toNat)) t

/-- The characters of a text, which ends in front of its first zero. -/
def characters (t : Text) : List Nat :=
  charactersFrom none (t.takeWhile fun c => decide (c ≠ '\x00'))

/-! ### Reading -/

theorem le_replaced (v : Nat) : 0x80 ≤ replaced v := by
  unfold replaced
  split
  · decide
  · omega

theorem continues_of_ascii {b : Char} (ascii : b.toNat < 0x80) : continues b = false := by
  simp only [continues, decide_eq_false_iff_not]
  omega

theorem charactersFrom_none_cons (b : Char) (t : Text) : charactersFrom none (b :: t) =
    if b.toNat < 0xC0 then b.toNat :: charactersFrom none t
    else charactersFrom (some (leadBits b.toNat)) t := by
  rw [charactersFrom]
  exact if_neg (by simp)

theorem charactersFrom_some_cons (v : Nat) (b : Char) (t : Text) :
    charactersFrom (some v) (b :: t) =
      if continues b = true then charactersFrom (some (shifted v b)) t
      else replaced v :: charactersFrom none (b :: t) := by
  rw [charactersFrom_none_cons, charactersFrom]
  exact if_congr (by simp) rfl rfl

/-- What is behind a byte that begins a character is read by itself. -/
theorem charactersFrom_append (opened : Option Nat) (a t : Text)
    (begins : ∀ b ∈ t.head?, continues b = false) :
    charactersFrom opened (a ++ t) = charactersFrom opened a ++ charactersFrom none t := by
  induction a generalizing opened with
  | nil =>
    cases opened with
    | none => rfl
    | some v =>
      cases t with
      | nil => rfl
      | cons b t =>
        rw [List.nil_append, charactersFrom_some_cons, if_neg (by simp [begins b rfl])]
        rfl
  | cons c a ih =>
    have fresh : charactersFrom none (c :: a ++ t) =
        charactersFrom none (c :: a) ++ charactersFrom none t := by
      rw [List.cons_append, charactersFrom_none_cons, charactersFrom_none_cons]
      split
      · rw [ih, List.cons_append]
      · exact ih _
    cases opened with
    | none => exact fresh
    | some v =>
      rw [List.cons_append, charactersFrom_some_cons, charactersFrom_some_cons]
      split
      · exact ih _
      · rw [← List.cons_append, fresh, List.cons_append]

/-- A character that is being read has a number above those of ASCII. -/
theorem charactersFrom_some (v : Nat) (t : Text) :
    ∃ w rest, charactersFrom (some v) t = replaced w :: rest := by
  induction t generalizing v with
  | nil => exact ⟨v, [], rfl⟩
  | cons b t ih =>
    rw [charactersFrom_some_cons]
    split
    · exact ih _
    · exact ⟨v, _, rfl⟩

/-- Characters of ASCII are bytes of the text. -/
theorem ascii_prefix {us post : List Nat} (ascii : ∀ x ∈ us, x < 0x80) {t : Text}
    (read : charactersFrom none t = us ++ post) :
    ∃ u b, t = u ++ b ∧ u.map Char.toNat = us := by
  induction us generalizing t with
  | nil => exact ⟨[], t, rfl, rfl⟩
  | cons x us ih =>
    cases t with
    | nil => cases read
    | cons b t =>
      rw [charactersFrom_none_cons] at read
      split at read
      · obtain ⟨same, later⟩ := List.cons_eq_cons.mp read
        obtain ⟨u, rest, rfl, numbers⟩ := ih (fun y member => ascii y (by simp [member])) later
        exact ⟨b :: u, rest, rfl, List.cons_eq_cons.mpr ⟨same, numbers⟩⟩
      · obtain ⟨w, rest, first⟩ := charactersFrom_some (leadBits b.toNat) t
        rw [first] at read
        have small := ascii x (by simp)
        have large := le_replaced w
        have same := (List.cons_eq_cons.mp read).1
        omega

/-- Characters of ASCII in a row are bytes in a row. -/
theorem ascii_infix {us post : List Nat} (ascii : ∀ x ∈ us, x < 0x80) (nonempty : us ≠ [])
    {pre : List Nat} {opened : Option Nat} {t : Text}
    (read : charactersFrom opened t = pre ++ (us ++ post)) :
    ∃ a u b, t = a ++ (u ++ b) ∧ u.map Char.toNat = us := by
  obtain ⟨x, us, rfl⟩ := List.exists_cons_of_ne_nil nonempty
  -- a character that is being read is none of them
  have opens {v : Nat} {t : Text} {pre : List Nat}
      (read : charactersFrom (some v) t = pre ++ (x :: us ++ post)) : pre ≠ [] := by
    rintro rfl
    obtain ⟨w, rest, first⟩ := charactersFrom_some v t
    rw [first] at read
    have small := ascii x (by simp)
    have large := le_replaced w
    have same := (List.cons_eq_cons.mp read).1
    omega
  induction t generalizing opened pre with
  | nil =>
    cases opened with
    | none => simp [charactersFrom] at read
    | some v =>
      obtain ⟨y, pre, rfl⟩ := List.exists_cons_of_ne_nil (opens read)
      simp [charactersFrom] at read
  | cons b t ih =>
    have fresh {pre : List Nat} (read : charactersFrom none (b :: t) = pre ++ (x :: us ++ post)) :
        ∃ a u rest, b :: t = a ++ (u ++ rest) ∧ u.map Char.toNat = x :: us := by
      cases pre with
      | nil =>
        obtain ⟨u, rest, whole, numbers⟩ := ascii_prefix ascii read
        exact ⟨[], u, rest, whole, numbers⟩
      | cons y pre =>
        rw [charactersFrom_none_cons] at read
        split at read
        · obtain ⟨a, u, rest, rfl, numbers⟩ := ih (List.cons_eq_cons.mp read).2
          exact ⟨b :: a, u, rest, rfl, numbers⟩
        · obtain ⟨a, u, rest, rfl, numbers⟩ := ih read
          exact ⟨b :: a, u, rest, rfl, numbers⟩
    cases opened with
    | none => exact fresh read
    | some v =>
      obtain ⟨y, pre, rfl⟩ := List.exists_cons_of_ne_nil (opens read)
      rw [charactersFrom_some_cons] at read
      split at read
      · obtain ⟨a, u, rest, rfl, numbers⟩ := ih read
        exact ⟨b :: a, u, rest, rfl, numbers⟩
      · exact fresh (List.cons_eq_cons.mp read).2

theorem characters_of_clean {t : Text} (clean : '\x00' ∉ t) :
    characters t = charactersFrom none t := by
  have whole : t.takeWhile (fun c => decide (c ≠ '\x00')) = t := by
    apply List.takeWhile_eq_self_iff.mpr
    intro c member
    rw [decide_eq_true_eq]
    rintro rfl
    exact clean member
  rw [characters, whole]

/-- Bytes of ASCII are read as themselves. -/
theorem charactersFrom_ascii {u : Text} (ascii : ∀ c ∈ u, c.toNat < 0x80) (t : Text) :
    charactersFrom none (u ++ t) = u.map Char.toNat ++ charactersFrom none t := by
  induction u with
  | nil => rfl
  | cons c u ih =>
    have small := ascii c (by simp)
    rw [List.cons_append, charactersFrom_none_cons, if_pos (by omega),
      ih fun d member => ascii d (by simp [member])]
    rfl

/-- A character of ASCII is a byte of the text. -/
theorem mem_of_ascii {c : Char} (ascii : c.toNat < 0x80) {t : Text}
    (member : c.toNat ∈ charactersFrom none t) : c ∈ t := by
  obtain ⟨pre, post, read⟩ := List.append_of_mem member
  have one : ∀ x ∈ [c.toNat], x < 0x80 := by simpa using ascii
  obtain ⟨a, u, b, rfl, numbers⟩ := ascii_infix one (by simp) read
  obtain ⟨d, rfl, same⟩ := List.map_eq_singleton_iff.mp numbers
  simp [Char.toNat_inj.mp same]

/-- A lead byte makes one character more at most. -/
theorem length_charactersFrom_some_le (v : Nat) (t : Text) :
    (charactersFrom (some v) t).length ≤ (charactersFrom none t).length + 1 := by
  induction t generalizing v with
  | nil => exact Nat.le_refl 1
  | cons b t ih =>
    rw [charactersFrom_some_cons]
    split
    next goes =>
      have low : b.toNat < 0xC0 := by
        rw [continues, decide_eq_true_eq] at goes
        omega
      rw [charactersFrom_none_cons, if_pos low, List.length_cons]
      exact (ih _).trans (Nat.le_add_right _ 1)
    next => exact Nat.le_refl _

/-- It makes none at all if it takes a byte that would stand for itself. -/
theorem charactersFrom_some_cases (v : Nat) (t : Text) :
    charactersFrom (some v) t = replaced v :: charactersFrom none t ∨
      (charactersFrom (some v) t).length ≤ (charactersFrom none t).length := by
  cases t with
  | nil => exact .inl rfl
  | cons b t =>
    rw [charactersFrom_some_cons]
    split
    next goes =>
      right
      have low : b.toNat < 0xC0 := by
        rw [continues, decide_eq_true_eq] at goes
        omega
      rw [charactersFrom_none_cons, if_pos low, List.length_cons]
      exact length_charactersFrom_some_le _ _
    next => exact .inl rfl

/-! ### Spelling -/

/-- A number that is read as itself. -/
def Readable (v : Nat) : Prop := v < 0x80 ∨ (replaced v = v ∧ v < 2 ^ 32)

theorem readable_replaced {v : Nat} (small : v < 2 ^ 32) : Readable (replaced v) := by
  right
  by_cases wrong : v < 0x80 ∨ v / 2 ^ 11 = 27 ∨ v / 2 = 0x7FFF
  · have same : replaced v = 0xFFFD := if_pos wrong
    rw [same]
    decide
  · have same : replaced v = v := if_neg wrong
    rw [same]
    exact ⟨same, small⟩

theorem leadBits_lt (b : Nat) : leadBits b < 2 ^ 32 := by
  unfold leadBits
  repeat' split
  all_goals omega

theorem readable_charactersFrom {opened : Option Nat} (small : ∀ v ∈ opened, v < 2 ^ 32)
    (t : Text) : ∀ v ∈ charactersFrom opened t, Readable v := by
  induction t generalizing opened with
  | nil =>
    cases opened with
    | none => simp [charactersFrom]
    | some v =>
      intro w member
      rw [List.mem_singleton.mp member]
      exact readable_replaced (small v rfl)
  | cons b t ih =>
    have fresh : ∀ v ∈ charactersFrom none (b :: t), Readable v := by
      rw [charactersFrom_none_cons]
      split
      next byte =>
        intro v member
        rcases List.mem_cons.mp member with rfl | later
        · by_cases ascii : b.toNat < 0x80
          · exact .inl ascii
          · exact .inr ⟨if_neg (by omega), by omega⟩
        · exact ih (by simp) v later
      · exact ih (by rintro v ⟨⟩; exact leadBits_lt _)
    cases opened with
    | none => exact fresh
    | some v =>
      rw [charactersFrom_some_cons]
      split
      · exact ih (by rintro w ⟨⟩; exact Nat.mod_lt _ (by decide))
      · intro w member
        rcases List.mem_cons.mp member with rfl | later
        · exact readable_replaced (small v rfl)
        · exact fresh w later

/-- A continuation byte with the last bits of a number. -/
def continuation (v : Nat) : Char := Char.ofNat (0x80 + v % 64)

theorem toNat_ofNat {n : Nat} (small : n < 0xD800) : (Char.ofNat n).toNat = n := by
  have valid : n.isValidChar := .inl small
  rw [Char.ofNat, dif_pos valid]
  rfl

theorem toNat_continuation (v : Nat) : (continuation v).toNat = 0x80 + v % 64 :=
  toNat_ofNat (by omega)

theorem continues_continuation (v : Nat) : continues (continuation v) = true := by
  rw [continues, toNat_continuation, decide_eq_true_eq]
  omega

/-- The last bits of a number in continuation bytes. -/
def digits : Nat → Nat → Text
  | 0, _ => []
  | n + 1, v => digits n (v / 64) ++ [continuation v]

theorem charactersFrom_digits (n : Nat) {v : Nat} (small : v < 2 ^ 32) (t : Text) :
    charactersFrom (some (v / 64 ^ n)) (digits n v ++ t) = charactersFrom (some v) t := by
  induction n generalizing v t with
  | zero => simp [digits]
  | succ n ih =>
    have front : v / 64 ^ (n + 1) = v / 64 / 64 ^ n := by
      rw [Nat.div_div_eq_div_mul, Nat.pow_succ']
    have last : shifted (v / 64) (continuation v) = v := by
      rw [shifted, toNat_continuation]
      omega
    rw [front, digits, List.append_assoc, List.singleton_append, ih (by omega),
      charactersFrom_some_cons, if_pos (continues_continuation v), last]

/-- A character in six continuation bytes behind a lead byte without bits. -/
def spelled (lead : Char) (v : Nat) : Text :=
  if v < 0x80 then [Char.ofNat v] else lead :: digits 6 v

/-- The text that is read as some characters, all of them with the same lead byte. -/
def spelling (lead : Char) (vs : List Nat) : Text := vs.flatMap (spelled lead)

/-- A lead byte that can stand in front of six continuation bytes. -/
def Leads (lead : Char) : Prop := 0xC0 ≤ lead.toNat ∧ leadBits lead.toNat = 0

instance (lead : Char) : Decidable (Leads lead) := inferInstanceAs (Decidable (_ ∧ _))

theorem not_continues_of_leads {lead : Char} (leads : Leads lead) : continues lead = false := by
  have large := leads.1
  rw [continues, decide_eq_false_iff_not]
  omega

section
variable {lead : Char} (leads : Leads lead)
include leads

/-- Every character begins with a byte that goes on no other one. -/
theorem spelled_eq_cons (v : Nat) : ∃ b t, spelled lead v = b :: t ∧ continues b = false := by
  unfold spelled
  split
  next ascii =>
    refine ⟨_, [], rfl, continues_of_ascii ?_⟩
    rwa [toNat_ofNat (by omega)]
  next => exact ⟨lead, digits 6 v, rfl, not_continues_of_leads leads⟩

theorem spelling_begins (vs : List Nat) : ∀ b ∈ (spelling lead vs).head?, continues b = false := by
  cases vs with
  | nil => rintro b ⟨⟩
  | cons v vs =>
    obtain ⟨c, t, shape, begins⟩ := spelled_eq_cons leads v
    rw [spelling, List.flatMap_cons, shape]
    rintro b ⟨⟩
    exact begins

theorem charactersFrom_spelled {v : Nat} (readable : Readable v) :
    charactersFrom none (spelled lead v) = [v] := by
  unfold spelled
  split
  next ascii =>
    rw [charactersFrom_none_cons, toNat_ofNat (by omega), if_pos (by omega)]
    rfl
  next large =>
    obtain ⟨same, small⟩ := readable.resolve_left large
    have begins : leadBits lead.toNat = v / 64 ^ 6 := by rw [leads.2]; omega
    have read := charactersFrom_digits 6 small []
    rw [charactersFrom_none_cons, if_neg (by have := leads.1; omega), begins,
      ← List.append_nil (digits 6 v), read, charactersFrom, Option.toList_some, List.map_singleton,
      same]

/-- The spelling of some characters is read as them. -/
theorem charactersFrom_spelling {vs : List Nat} (readable : ∀ v ∈ vs, Readable v) :
    charactersFrom none (spelling lead vs) = vs := by
  induction vs with
  | nil => rfl
  | cons v vs ih =>
    have split : spelling lead (v :: vs) = spelled lead v ++ spelling lead vs := List.flatMap_cons
    rw [split, charactersFrom_append _ _ _ (spelling_begins leads vs),
      charactersFrom_spelled leads (readable v (by simp)),
      ih fun w member => readable w (by simp [member])]
    rfl

end

theorem mem_digits {n v : Nat} {b : Char} (member : b ∈ digits n v) : continues b = true := by
  induction n generalizing v with
  | zero => cases member
  | succ n ih =>
    rcases List.mem_append.mp member with before | last
    · exact ih before
    · rw [List.mem_singleton.mp last]
      exact continues_continuation v

/-- The bytes of a spelling: those of ASCII, the lead byte and continuation bytes. -/
theorem mem_spelling {lead b : Char} {vs : List Nat} (member : b ∈ spelling lead vs) :
    (b.toNat < 0x80 ∧ b.toNat ∈ vs) ∨ b = lead ∨ continues b = true := by
  obtain ⟨v, among, inside⟩ := List.mem_flatMap.mp member
  unfold spelled at inside
  split at inside
  next ascii =>
    rw [List.mem_singleton.mp inside, toNat_ofNat (by omega)]
    exact .inl ⟨ascii, among⟩
  next =>
    rcases List.mem_cons.mp inside with rfl | later
    · exact .inr (.inl rfl)
    · exact .inr (.inr (mem_digits later))

/-- No continuation byte stands right behind a byte of ASCII. -/
def Attached (t : Text) : Prop := t.IsChain fun x y => x.toNat < 0x80 → continues y = false

theorem attached_spelling {lead : Char} (leads : Leads lead) (vs : List Nat) :
    Attached (spelling lead vs) := by
  induction vs with
  | nil => exact List.isChain_nil
  | cons v vs ih =>
    have split : spelling lead (v :: vs) = spelled lead v ++ spelling lead vs := List.flatMap_cons
    rw [split]
    refine List.isChain_append.mpr ⟨?_, ih, fun x _ y first _ => spelling_begins leads vs y first⟩
    unfold spelled
    split
    · exact List.isChain_singleton _
    · -- no byte of such a character is one of ASCII
      apply List.Pairwise.isChain
      apply List.pairwise_of_forall_mem_list
      intro x member y _ ascii
      have large := leads.1
      rcases List.mem_cons.mp member with rfl | later
      · omega
      · have goes := mem_digits later
        rw [continues, decide_eq_true_eq] at goes
        omega

/-- Bytes that could only be continuation bytes are bytes of ASCII. -/
theorem ascii_of_attached {c : Char} {t : Text} (attached : Attached (c :: t))
    (first : continues c = false) (low : ∀ b ∈ c :: t, b.toNat < 0xC0) :
    ∀ b ∈ c :: t, b.toNat < 0x80 := by
  have ascii : c.toNat < 0x80 := by
    have bound := low c (by simp)
    rw [continues, decide_eq_false_iff_not] at first
    omega
  induction t generalizing c with
  | nil => simpa using ascii
  | cons d t ih =>
    obtain ⟨next, rest⟩ := List.isChain_cons_cons.mp attached
    have later := ih rest (next ascii) (fun b member => low b (by simp [member]))
    intro b member
    rcases List.mem_cons.mp member with rfl | among
    · exact ascii
    · refine later ?_ b among
      have bound := low d (by simp)
      have starts := next ascii
      rw [continues, decide_eq_false_iff_not] at starts
      omega

end Sql
