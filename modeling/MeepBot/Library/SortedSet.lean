import Mathlib.Order.Lattice
import Mathlib.Data.List.Perm.Basic

/-!
# Sets as strictly sorted lists

The representation of an ordered set by the list of its elements in ascending order, each
once. Traversal order is the list's; membership is all an observer can learn from it. A list
with distinct keys becomes strictly sorted by its keys.
-/

/-- An ascending list, so that equal sets are equal lists. -/
structure SortedSet (α : Type) [LinearOrder α] where
  elems : List α
  sorted : elems.Pairwise (· < ·)

namespace SortedSet

variable {α : Type} [LinearOrder α]

instance : Membership α (SortedSet α) := ⟨fun s a => a ∈ s.elems⟩

theorem mem_def (s : SortedSet α) (a : α) : a ∈ s ↔ a ∈ s.elems := Iff.rfl

/-- The set without elements. -/
def empty : SortedSet α := ⟨[], List.Pairwise.nil⟩

/-- Put an element at its place in an ascending list, unless it is there. -/
def insertInto (a : α) : List α → List α
  | [] => [a]
  | b :: l => if a < b then a :: b :: l else if a = b then b :: l else b :: insertInto a l

theorem mem_insertInto (a x : α) (l : List α) : x ∈ insertInto a l ↔ x = a ∨ x ∈ l := by
  induction l with
  | nil => simp [insertInto]
  | cons b l ih =>
    simp only [insertInto]
    split
    · simp
    · split
      next equal => simp [equal]
      next => simp only [List.mem_cons, ih]; tauto

theorem insertInto_sorted (a : α) (l : List α) (sorted : l.Pairwise (· < ·)) :
    (insertInto a l).Pairwise (· < ·) := by
  induction l with
  | nil => simp [insertInto]
  | cons b l ih =>
    rw [List.pairwise_cons] at sorted
    simp only [insertInto]
    split
    next below =>
      refine List.pairwise_cons.mpr ⟨fun x hx => ?_, List.pairwise_cons.mpr sorted⟩
      rcases List.mem_cons.mp hx with rfl | later
      · exact below
      · exact below.trans (sorted.1 x later)
    next notBelow =>
      split
      · exact List.pairwise_cons.mpr sorted
      next different =>
        refine List.pairwise_cons.mpr ⟨fun x hx => ?_, ih sorted.2⟩
        rcases (mem_insertInto a x l).mp hx with rfl | later
        · exact lt_of_le_of_ne (not_lt.mp notBelow) (Ne.symm different)
        · exact sorted.1 x later

/-- Add an element; a set that has it stays as it is. -/
def insert (s : SortedSet α) (a : α) : SortedSet α :=
  ⟨insertInto a s.elems, insertInto_sorted a s.elems s.sorted⟩

/-- Take an element out; a set without it stays as it is. -/
def erase (s : SortedSet α) (a : α) : SortedSet α :=
  ⟨s.elems.filter fun b => decide (b ≠ a), s.sorted.sublist List.filter_sublist⟩

/-- The number of elements. -/
def size (s : SortedSet α) : Nat := s.elems.length

@[simp] theorem not_mem_empty (a : α) : a ∉ (empty : SortedSet α) := List.not_mem_nil

@[simp] theorem mem_insert (s : SortedSet α) (a x : α) : x ∈ s.insert a ↔ x = a ∨ x ∈ s :=
  mem_insertInto a x s.elems

@[simp] theorem mem_erase (s : SortedSet α) (a x : α) : x ∈ s.erase a ↔ x ∈ s ∧ x ≠ a := by
  simp [mem_def, erase]

/-! ### The only element with a property -/

/-- An element that is the only one of the set with a property. -/
structure Only (s : SortedSet α) (P : α → Prop) (a : α) : Prop where
  mem : a ∈ s
  holds : P a
  unique : ∀ b ∈ s, P b → b = a

theorem only_congr {s : SortedSet α} {P Q : α → Prop} (agree : ∀ a ∈ s, (P a ↔ Q a)) (a : α) :
    s.Only P a ↔ s.Only Q a := by
  constructor
  · exact fun only => ⟨only.mem, (agree a only.mem).mp only.holds,
      fun b member holds => only.unique b member ((agree b member).mpr holds)⟩
  · exact fun only => ⟨only.mem, (agree a only.mem).mpr only.holds,
      fun b member holds => only.unique b member ((agree b member).mp holds)⟩

omit [LinearOrder α] in
/-- A count that stops at two tells whether there is exactly one. -/
theorem capped_count_eq_one_iff (p : α → Bool) (l : List α) :
    l.foldl (fun (count : Nat) a => if count < 2 ∧ p a then count + 1 else count) 0 = 1 ↔
      l.countP p = 1 := by
  have capped (n : Nat) (low : n ≤ 2) :
      l.foldl (fun (count : Nat) a => if count < 2 ∧ p a then count + 1 else count) n =
        min 2 (n + l.countP p) := by
    induction l generalizing n with
    | nil => simp [low]
    | cons a l ih =>
      rw [List.foldl_cons, List.countP_cons]
      split
      next counts =>
        rw [ih (n + 1) (by omega), if_pos counts.2]
        congr 1
        omega
      next skips =>
        rw [ih n low]
        by_cases here : p a = true
        · -- two have been counted
          have full : n = 2 := by
            have : ¬n < 2 := fun room => skips ⟨room, here⟩
            omega
          omega
        · rw [if_neg here]
          rfl
  rw [capped 0 (by omega)]
  omega

/-- Where exactly one element passes a test, it is the first that does. -/
theorem only_iff_find (s : SortedSet α) (p : α → Bool) (a : α) :
    s.Only (fun b => p b = true) a ↔ s.elems.countP p = 1 ∧ s.elems.find? p = some a := by
  constructor
  · intro only
    have nodup : s.elems.Nodup := s.sorted.imp fun below => below.ne
    have same : s.elems.filter p = [a] := by
      refine List.perm_singleton.mp ((List.perm_ext_iff_of_nodup (nodup.filter p) (by simp)).mpr
        fun b => ?_)
      rw [List.mem_filter, List.mem_singleton]
      constructor
      · exact fun ⟨member, passes⟩ => only.unique b member passes
      · rintro rfl
        exact ⟨only.mem, only.holds⟩
    rw [List.countP_eq_length_filter, ← List.head?_filter, same]
    exact ⟨rfl, rfl⟩
  · rintro ⟨one, found⟩
    refine ⟨List.mem_of_find?_eq_some found, List.find?_some found, fun b member passes => ?_⟩
    rw [List.countP_eq_length_filter, List.length_eq_one_iff] at one
    obtain ⟨c, single⟩ := one
    have among (x : α) (member : x ∈ s.elems) (passes : p x = true) : x = c := by
      rw [← List.mem_singleton, ← single]
      exact List.mem_filter.mpr ⟨member, passes⟩
    rw [among b member passes,
      among a (List.mem_of_find?_eq_some found) (List.find?_some found)]

end SortedSet

/-! ### Sorting by a key -/

namespace List

variable {α κ : Type} [LinearOrder κ]

/-- Sort by a key, elements of one key in the order they come in. -/
def sortBy (key : α → κ) (l : List α) : List α := l.mergeSort fun a b => decide (key a ≤ key b)

theorem mem_sortBy {key : α → κ} {l : List α} {a : α} : a ∈ l.sortBy key ↔ a ∈ l := mem_mergeSort

theorem sortBy_perm (key : α → κ) (l : List α) : (l.sortBy key).Perm l := mergeSort_perm l _

theorem sortBy_sorted (key : α → κ) (l : List α) :
    (l.sortBy key).Pairwise fun a b => key a ≤ key b := by
  have transitive (a b c : α) (first : decide (key a ≤ key b)) (second : decide (key b ≤ key c)) :
      decide (key a ≤ key c) := by
    rw [decide_eq_true_eq] at first second ⊢
    exact first.trans second
  have total (a b : α) : decide (key a ≤ key b) || decide (key b ≤ key a) := by
    simpa using le_total (key a) (key b)
  exact (pairwise_mergeSort transitive total l).imp fun le => by simpa using le

/-- Where no two elements have the same key, the order is strict. -/
theorem sortBy_strict {key : α → κ} {l : List α} (unique : (l.map key).Nodup) :
    (l.sortBy key).Pairwise fun a b => key a < key b := by
  have apart : (l.sortBy key).Pairwise fun a b => key a ≠ key b :=
    pairwise_map.mp (((sortBy_perm key l).map key).nodup_iff.mpr unique)
  exact (sortBy_sorted key l).imp₂ (fun _ _ le ne => lt_of_le_of_ne le ne) apart

end List
