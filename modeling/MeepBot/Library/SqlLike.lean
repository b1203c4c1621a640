import Mathlib.Data.List.Forall2
import Mathlib.Data.List.Infix
import MeepBot.Library.Characters

/-!
# Patterns

What a `LIKE` pattern matches, character by character, and how that compares with what contains the
text that the pattern looks for.

* `like_iff_contains`: a text is found just where it is contained, in all texts, if and only if it
  is not too long and of ASCII characters that are no wildcards.
-/

namespace Sql

/-- Lower case, for the letters of ASCII alone. -/
def fold (c : Nat) : Nat := if 0x41 ≤ c ∧ c ≤ 0x5A then c + 32 else c

/-- A percent sign matches any characters, an underscore any one, and everything else itself in any
letter case. -/
def accepts : List Nat → List Nat → Bool
  | [], t => t.isEmpty
  | c :: p, t =>
    if c = 0x25 then t.tails.any (accepts p)
    else match t with
      | [] => false
      | x :: t => decide (c = 0x5F ∨ fold c = fold x) && accepts p t

/-- The longest pattern that is not too complex. -/
def maxPattern : Nat := 50000

/-- `LIKE`. A pattern that is too complex is an error instead, for the first row that is looked at;
here it matches no row, and there is no other row in either case. -/
def like (p t : Text) : Bool :=
  decide (p.length ≤ maxPattern) && accepts (characters p) (characters t)

/-! ### Matching characters -/

/-- A percent sign skips any part of the text. -/
theorem accepts_percent {p t : List Nat} :
    accepts (0x25 :: p) t = true ↔ ∃ u, u <:+ t ∧ accepts p u = true := by
  simp only [accepts, if_true, List.any_eq_true, List.mem_tails]

/-- A character of a pattern can stand for another one. -/
def Covers (c x : Nat) : Prop := c = 0x25 ∨ c = 0x5F ∨ fold c = fold x

/-- Every character can stand for itself, in any letter case. -/
theorem covers_of_fold {p u : List Nat} (same : p.map fold = u.map fold) :
    List.Forall₂ Covers p u := by
  have equal : List.Forall₂ (· = ·) (p.map fold) (u.map fold) := by
    rw [List.forall₂_eq_eq_eq]
    exact same
  rw [List.forall₂_map_left_iff, List.forall₂_map_right_iff] at equal
  exact equal.imp fun _ _ folds => .inr (.inr folds)

/-- A pattern matches what its characters can stand for, whatever follows. -/
theorem accepts_of_covers {p u : List Nat} (covers : List.Forall₂ Covers p u) (v : List Nat) :
    accepts (p ++ [0x25]) (u ++ v) = true := by
  induction covers with
  | nil => exact accepts_percent.mpr ⟨[], List.nil_suffix, rfl⟩
  | @cons c x p u first _ ih =>
    by_cases percent : c = 0x25
    · subst percent
      exact accepts_percent.mpr ⟨u ++ v, List.suffix_cons x (u ++ v), ih⟩
    · have one : c = 0x5F ∨ fold c = fold x := first.resolve_left percent
      simp only [List.cons_append, accepts, if_neg percent, one, decide_true, Bool.true_and, ih]

/-- A pattern without wildcards matches nothing but itself, in any letter case. -/
theorem accepts_literal {p t : List Nat} (literal : ∀ c ∈ p, c ≠ 0x25 ∧ c ≠ 0x5F)
    (matched : accepts (p ++ [0x25]) t = true) :
    ∃ u v, t = u ++ v ∧ p.map fold = u.map fold := by
  induction p generalizing t with
  | nil => exact ⟨[], t, rfl, rfl⟩
  | cons c p ih =>
    obtain ⟨percent, underscore⟩ := literal c (by simp)
    cases t with
    | nil => simp [accepts, percent] at matched
    | cons x t =>
      simp only [List.cons_append, accepts, if_neg percent, underscore, false_or,
        Bool.and_eq_true, decide_eq_true_eq] at matched
      obtain ⟨u, v, rfl, same⟩ := ih (fun d member => literal d (by simp [member])) matched.2
      exact ⟨x :: u, v, rfl, List.cons_eq_cons.mpr ⟨matched.1, same⟩⟩

/-! ### Containment -/

/-- A text as it is compared. -/
def folded (t : Text) : List Nat := t.map fun c => fold c.toNat

/-- The pattern that looks for a text. -/
def anywhere (p : Text) : Text := '%' :: p ++ ['%']

/-- A text that `LIKE` can look for: not too long, and of ASCII characters that are no wildcards. -/
def Literal (p : Text) : Prop :=
  p.length + 2 ≤ maxPattern ∧ ∀ c ∈ p, c.toNat < 0x80 ∧ c ≠ '%' ∧ c ≠ '_'

theorem folded_infix_iff {p t : Text} :
    folded p <:+: folded t ↔ ∃ pre u v, t = pre ++ (u ++ v) ∧ folded p = folded u := by
  constructor
  · rintro ⟨pre, post, shape⟩
    obtain ⟨front, v, rfl, first, -⟩ := List.map_eq_append_iff.mp shape.symm
    obtain ⟨pre, u, rfl, -, same⟩ := List.map_eq_append_iff.mp first
    exact ⟨pre, u, v, List.append_assoc _ _ _, same.symm⟩
  · rintro ⟨pre, u, v, rfl, same⟩
    rw [same, folded, folded, List.map_append, List.map_append, ← List.append_assoc]
    exact List.infix_append _ _ _

theorem characters_anywhere {p : Text} (clean : '\x00' ∉ p) :
    characters (anywhere p) = 0x25 :: (characters p ++ [0x25]) := by
  have cleaner : '\x00' ∉ anywhere p := by simp [anywhere, clean]
  rw [characters_of_clean cleaner, characters_of_clean clean, anywhere, List.cons_append,
    charactersFrom_none_cons, if_pos (by decide), charactersFrom_append _ _ _ (by simp; decide)]
  rfl

theorem like_anywhere {p : Text} (clean : '\x00' ∉ p) (t : Text) :
    like (anywhere p) t = true ↔ p.length + 2 ≤ maxPattern ∧
      ∃ u, u <:+ characters t ∧ accepts (characters p ++ [0x25]) u = true := by
  have length : (anywhere p).length = p.length + 2 := by simp [anywhere]
  rw [like, Bool.and_eq_true, decide_eq_true_eq, length, characters_anywhere clean,
    accepts_percent]

theorem fold_lt_iff (c : Nat) : fold c < 0x80 ↔ c < 0x80 := by
  unfold fold
  split <;> omega

/-- What is compared as ASCII is ASCII. -/
theorem ascii_of_folded {p u : Text} (same : folded p = folded u)
    (ascii : ∀ c ∈ p, c.toNat < 0x80) : ∀ c ∈ u, c.toNat < 0x80 := by
  intro c member
  have among : fold c.toNat ∈ folded p := by
    rw [same]
    exact List.mem_map_of_mem member
  obtain ⟨d, there, equal⟩ := List.mem_map.mp among
  rw [← fold_lt_iff, ← equal, fold_lt_iff]
  exact ascii d there

/-- For a text that `LIKE` can look for, matching is containment. -/
theorem like_of_literal {p : Text} (literal : Literal p) (cleanP : '\x00' ∉ p) {t : Text}
    (clean : '\x00' ∉ t) : like (anywhere p) t = true ↔ folded p <:+: folded t := by
  obtain ⟨short, plain⟩ := literal
  have ascii : ∀ c ∈ p, c.toNat < 0x80 := fun c member => (plain c member).1
  have pattern : characters p = p.map Char.toNat := by
    have read := charactersFrom_ascii ascii []
    rw [List.append_nil] at read
    rw [characters_of_clean cleanP, read]
    exact List.append_nil _
  rw [like_anywhere cleanP, and_iff_right short, characters_of_clean clean, pattern]
  constructor
  · rintro ⟨_, ⟨pre, read⟩, matched⟩
    have wildcards : ∀ c ∈ p.map Char.toNat, c ≠ 0x25 ∧ c ≠ 0x5F := by
      intro n member
      obtain ⟨c, among, rfl⟩ := List.mem_map.mp member
      obtain ⟨-, percent, underscore⟩ := plain c among
      exact ⟨fun same => percent (Char.toNat_inj.mp same),
        fun same => underscore (Char.toNat_inj.mp same)⟩
    obtain ⟨us, post, rfl, same⟩ := accepts_literal wildcards matched
    rw [List.map_map] at same
    by_cases empty : us = []
    · rw [empty] at same
      have none : folded p = [] := same
      rw [none]
      exact List.nil_infix
    · have small : ∀ x ∈ us, x < 0x80 := by
        intro x member
        have among : fold x ∈ us.map fold := List.mem_map_of_mem member
        rw [← same] at among
        obtain ⟨c, there, equal⟩ := List.mem_map.mp among
        rw [← fold_lt_iff, ← equal, Function.comp_apply, fold_lt_iff]
        exact ascii c there
      obtain ⟨a, u, b, rfl, numbers⟩ := ascii_infix small empty read.symm
      refine folded_infix_iff.mpr ⟨a, u, b, rfl, ?_⟩
      rw [← numbers, List.map_map] at same
      exact same
  · intro contains
    obtain ⟨pre, u, v, rfl, same⟩ := folded_infix_iff.mp contains
    have small := ascii_of_folded same ascii
    have covers : List.Forall₂ Covers (p.map Char.toNat) (u.map Char.toNat) := by
      apply covers_of_fold
      rw [List.map_map, List.map_map]
      exact same
    -- the text is read on from the part that is looked for
    obtain ⟨front, rest, read⟩ : ∃ front rest,
        charactersFrom none (pre ++ (u ++ v)) = front ++ (u.map Char.toNat ++ rest) := by
      cases u with
      | nil => exact ⟨[], _, rfl⟩
      | cons c u =>
        refine ⟨charactersFrom none pre, charactersFrom none v, ?_⟩
        rw [charactersFrom_append _ _ _ ?_, charactersFrom_ascii small]
        rintro b ⟨⟩
        exact continues_of_ascii (small c (by simp))
    rw [read]
    exact ⟨_, List.suffix_append _ _, accepts_of_covers covers _⟩

/-! ### Texts that tell matching and containment apart -/

/-- Letter case does not matter to the order of the bytes. -/
theorem attached_iff {t : Text} :
    Attached t ↔ (folded t).IsChain fun x y => x < 0x80 → ¬y / 64 = 2 := by
  rw [folded, List.isChain_map, Attached]
  have same (y : Char) : fold y.toNat / 64 = y.toNat / 64 := by
    unfold fold
    split <;> omega
  simp only [fold_lt_iff, same, continues, decide_eq_false_iff_not]

section
variable {p : Text} (clean : '\x00' ∉ p)
include clean

/-- The characters of a text match themselves, however they are spelled. -/
theorem like_spelling (short : p.length + 2 ≤ maxPattern) {lead : Char} (leads : Leads lead) :
    '\x00' ∉ spelling lead (characters p) ∧
      like (anywhere p) (spelling lead (characters p)) = true := by
  have readable : ∀ v ∈ characters p, Readable v := readable_charactersFrom (by simp) _
  have cleaner : '\x00' ∉ spelling lead (characters p) := by
    intro member
    rcases mem_spelling member with ⟨-, zero⟩ | same | goes
    · rw [characters_of_clean clean] at zero
      exact clean (mem_of_ascii (by decide) zero)
    · have large := leads.1
      rw [← same] at large
      exact absurd large (by decide)
    · exact absurd goes (by decide)
  refine ⟨cleaner, (like_anywhere clean _).mpr ⟨short, characters p, ?_, ?_⟩⟩
  · rw [characters_of_clean cleaner, charactersFrom_spelling leads readable]
  · have whole := accepts_of_covers (covers_of_fold (p := characters p) rfl) []
    rwa [List.append_nil] at whole

/-- A pattern that is too complex does not find itself. -/
theorem apart_of_long (long : maxPattern < p.length + 2) :
    ¬(like (anywhere p) p = true ↔ folded p <:+: folded p) := by
  intro same
  have found := (like_anywhere clean p).mp (same.mpr (List.infix_refl _))
  omega

/-- A wildcard finds a letter. -/
theorem apart_of_wildcard (short : p.length + 2 ≤ maxPattern) {c : Char} (member : c ∈ p)
    (wild : c = '%' ∨ c = '_') :
    ∃ t, '\x00' ∉ t ∧ ¬(like (anywhere p) t = true ↔ folded p <:+: folded t) := by
  obtain ⟨a, b, rfl⟩ := List.append_of_mem member
  have cleaner : '\x00' ∉ a ++ 'x' :: b := by
    simp only [List.mem_append, List.mem_cons, not_or] at clean ⊢
    exact ⟨clean.1, by decide, clean.2.2⟩
  have ascii : c.toNat < 0x80 := by rcases wild with rfl | rfl <;> decide
  refine ⟨a ++ 'x' :: b, cleaner, fun same => ?_⟩
  have read (d : Char) (small : d.toNat < 0x80) : charactersFrom none (a ++ d :: b) =
      charactersFrom none a ++ d.toNat :: charactersFrom none b := by
    rw [charactersFrom_append _ _ _ (by rintro x ⟨⟩; exact continues_of_ascii small),
      charactersFrom_none_cons, if_pos (by omega)]
  have found : like (anywhere (a ++ c :: b)) (a ++ 'x' :: b) = true := by
    refine (like_anywhere clean _).mpr ⟨short, _, List.suffix_refl _, ?_⟩
    rw [characters_of_clean clean, characters_of_clean cleaner, read c ascii, read 'x' (by decide)]
    have covers : List.Forall₂ Covers (charactersFrom none a ++ c.toNat :: charactersFrom none b)
        (charactersFrom none a ++ 'x'.toNat :: charactersFrom none b) := by
      apply List.rel_append (covers_of_fold rfl)
      refine .cons ?_ (covers_of_fold rfl)
      rcases wild with rfl | rfl
      · exact .inl rfl
      · exact .inr (.inl rfl)
    have matched := accepts_of_covers covers []
    rwa [List.append_nil] at matched
  -- both texts have the same length, so one contains the other only if they are the same
  have equal := (same.mp found).eq_of_length (by simp [folded])
  rw [folded, folded, List.map_append, List.map_append] at equal
  have here := (List.cons_eq_cons.mp (List.append_cancel_left equal)).1
  rcases wild with rfl | rfl
  · exact absurd here (by decide)
  · exact absurd here (by decide)

/-- A character with a lead byte can be spelled with another one. -/
theorem apart_of_lead (short : p.length + 2 ≤ maxPattern) {b : Char} (member : b ∈ p)
    (large : 0xC0 ≤ b.toNat) :
    ∃ t, '\x00' ∉ t ∧ ¬(like (anywhere p) t = true ↔ folded p <:+: folded t) := by
  obtain ⟨lead, leads, other⟩ : ∃ lead, Leads lead ∧ lead ≠ b := by
    by_cases same : '\xc0' = b
    · exact ⟨'\xe0', by decide, by rw [← same]; decide⟩
    · exact ⟨'\xc0', by decide, same⟩
  obtain ⟨cleaner, found⟩ := like_spelling clean short leads
  refine ⟨_, cleaner, fun same => ?_⟩
  have among : fold b.toNat ∈ folded (spelling lead (characters p)) :=
    (same.mp found).subset (List.mem_map_of_mem member)
  obtain ⟨x, there, equal⟩ := List.mem_map.mp among
  have own : x = b := by
    apply Char.toNat_inj.mp
    unfold fold at equal
    split at equal <;> split at equal <;> omega
  subst own
  rcases mem_spelling there with ⟨ascii, -⟩ | lead' | goes
  · omega
  · exact other lead'.symm
  · rw [continues, decide_eq_true_eq] at goes
    omega

/-- A continuation byte at the start of a text goes on a character in front of it. -/
theorem apart_of_start (plain : ∀ c ∈ p, c ≠ '%' ∧ c ≠ '_') {c : Char} {t : Text}
    (shape : p = c :: t) (goes : continues c = true) :
    '\x00' ∉ '\xc0' :: p ∧
      ¬(like (anywhere p) ('\xc0' :: p) = true ↔ folded p <:+: folded ('\xc0' :: p)) := by
  have cleaner : '\x00' ∉ '\xc0' :: p := by simp [clean]
  refine ⟨cleaner, fun same => ?_⟩
  obtain ⟨-, _, ⟨front, read⟩, matched⟩ :=
    (like_anywhere clean _).mp (same.mpr (List.suffix_cons _ _).isInfix)
  have value := goes
  rw [continues, decide_eq_true_eq] at value
  -- the characters that are looked for, and those of the text
  have pattern : characters p = c.toNat :: charactersFrom none t := by
    rw [characters_of_clean clean, shape, charactersFrom_none_cons, if_pos (by omega)]
  have text : characters ('\xc0' :: p) = charactersFrom (some (shifted 0 c)) t := by
    rw [characters_of_clean cleaner, shape, charactersFrom_none_cons, if_neg (by decide),
      charactersFrom_some_cons]
    exact if_pos goes
  have wildcards : ∀ n ∈ characters p, n ≠ 0x25 ∧ n ≠ 0x5F := by
    rw [characters_of_clean clean]
    intro n member
    constructor
    · rintro rfl
      exact (plain '%' (mem_of_ascii (by decide) member)).1 rfl
    · rintro rfl
      exact (plain '_' (mem_of_ascii (by decide) member)).2 rfl
  obtain ⟨us, post, rfl, equal⟩ := accepts_literal wildcards matched
  have length := congrArg List.length read
  have count := congrArg List.length equal
  rw [text] at read length
  simp only [pattern, List.length_append, List.length_map, List.length_cons] at length count
  rcases charactersFrom_some_cases (shifted 0 c) t with whole | short
  · -- as many characters, but the first one is no byte that stands for itself
    rw [whole, List.length_cons] at length
    obtain rfl : front = [] := List.length_eq_zero_iff.mp (by omega)
    obtain rfl : post = [] := List.length_eq_zero_iff.mp (by omega)
    rw [List.nil_append, List.append_nil, whole] at read
    rw [pattern, read, List.map_cons, List.map_cons] at equal
    have first := (List.cons_eq_cons.mp equal).1
    have small : shifted 0 c < 0x80 := by
      unfold shifted
      omega
    rw [replaced, if_pos (.inl small)] at first
    unfold fold at first
    split at first <;> split at first <;> omega
  · omega

/-- A continuation byte that stands for itself can be spelled with a lead byte. -/
theorem apart_of_attached (short : p.length + 2 ≤ maxPattern) (loose : ¬Attached p) :
    ∃ t, '\x00' ∉ t ∧ ¬(like (anywhere p) t = true ↔ folded p <:+: folded t) := by
  have leads : Leads '\xc0' := by decide
  obtain ⟨cleaner, found⟩ := like_spelling clean short leads
  refine ⟨_, cleaner, fun same => loose ?_⟩
  -- every part of a text in which each of them has a lead byte is such a text
  obtain ⟨before, after, whole⟩ := same.mp found
  have chain := attached_iff.mp (attached_spelling leads (characters p))
  rw [← whole] at chain
  exact attached_iff.mpr chain.left_of_append.right_of_append

/-- Matching is containment in all texts exactly for the texts that `LIKE` can look for. -/
theorem like_iff_contains :
    (∀ t, '\x00' ∉ t → (like (anywhere p) t = true ↔ folded p <:+: folded t)) ↔ Literal p := by
  constructor
  · intro same
    have agree {t : Text} : ¬('\x00' ∉ t ∧
        ¬(like (anywhere p) t = true ↔ folded p <:+: folded t)) :=
      fun ⟨cleaner, apart⟩ => apart (same t cleaner)
    have short : p.length + 2 ≤ maxPattern := by
      by_contra long
      exact apart_of_long clean (not_le.mp long) (same p clean)
    have plain : ∀ c ∈ p, c ≠ '%' ∧ c ≠ '_' := by
      intro c member
      by_contra wild
      obtain ⟨t, apart⟩ := apart_of_wildcard clean short member (by
        rwa [not_and_or, not_not, not_not] at wild)
      exact agree apart
    have low : ∀ b ∈ p, b.toNat < 0xC0 := by
      intro b member
      by_contra large
      obtain ⟨t, apart⟩ := apart_of_lead clean short member (not_lt.mp large)
      exact agree apart
    have attached : Attached p := by
      by_contra loose
      obtain ⟨t, apart⟩ := apart_of_attached clean short loose
      exact agree apart
    refine ⟨short, fun c member => ⟨?_, plain c member⟩⟩
    cases shape : p with
    | nil =>
      rw [shape] at member
      cases member
    | cons d t =>
      have first : continues d = false := by
        rw [← Bool.not_eq_true]
        intro goes
        exact agree (apart_of_start clean plain shape goes)
      rw [shape] at attached low member
      exact ascii_of_attached attached first low c member
  · intro literal t cleaner
    exact like_of_literal literal clean cleaner

end

end Sql
