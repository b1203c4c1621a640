import Mathlib.Algebra.Order.BigOperators.Group.List
import Mathlib.Algebra.Order.Group.Nat
import Mathlib.Data.List.TakeWhile

/-!
# Delimited sequences

The maximal non-empty runs of a list between occurrences of a delimiter. A tokenizer that
collapses repeated delimiters returns exactly these; the lemmas say how they behave
under concatenation, which is what a reader needs when a stream is cut and glued.
-/

variable {α : Type} [DecidableEq α]

/-- The maximal non-empty delimiter-free runs of `s`, in order. -/
def pieces (d : α) (s : List α) : List (List α) := (s.splitOn d).filter (· ≠ [])

namespace Pieces

@[simp] theorem nil (d : α) : pieces d [] = [] := rfl

theorem append_cons (d : α) (u v : List α) : pieces d (u ++ d :: v) = pieces d u ++ pieces d v := by
  simp only [pieces, List.splitOn_append_cons_self, List.filter_append]

@[simp] theorem cons_self (d : α) (v : List α) : pieces d (d :: v) = pieces d v := by
  simpa using append_cons d [] v

@[simp] theorem append_self (d : α) (u : List α) : pieces d (u ++ [d]) = pieces d u := by
  simpa using append_cons d u []

theorem of_not_mem (d : α) (s : List α) (free : d ∉ s) (nonempty : s ≠ []) : pieces d s = [s] := by
  simp [pieces, List.splitOn_eq_singleton free, nonempty]

/-- A free run is one piece, or none where it is empty. -/
theorem of_free (d : α) (s : List α) (free : d ∉ s) :
    pieces d s = if s = [] then [] else [s] := by
  split
  next empty => rw [empty, nil]
  next nonempty => exact of_not_mem d s free nonempty

theorem mem_of_free {d : α} {s piece : List α} (free : d ∉ s) (member : piece ∈ pieces d s) :
    piece = s ∧ s ≠ [] := by
  rw [of_free d s free] at member
  split at member
  next => cases member
  next nonempty => exact ⟨List.mem_singleton.mp member, nonempty⟩

theorem length_of_free (d : α) (s : List α) (free : d ∉ s) : (pieces d s).length ≤ 1 := by
  rw [of_free d s free]
  split
  · exact Nat.zero_le 1
  · exact Nat.le_refl 1

/-- A free run followed by a delimiter is the first piece. -/
theorem run_cons (d : α) (s v : List α) (free : d ∉ s) (nonempty : s ≠ []) :
    pieces d (s ++ d :: v) = s :: pieces d v := by
  rw [append_cons, of_not_mem d s free nonempty, List.singleton_append]

/-- Concatenation distributes over the pieces wherever a delimiter stands at the joint. -/
theorem append_of_boundary (d : α) (u v : List α)
    (boundary : (∃ u', u = u' ++ [d]) ∨ ∃ v', v = d :: v') :
    pieces d (u ++ v) = pieces d u ++ pieces d v := by
  rcases boundary with ⟨u', rfl⟩ | ⟨v', rfl⟩
  · rw [List.append_assoc, List.singleton_append, append_cons, append_self]
  · rw [append_cons, cons_self]

/-- Induction along the delimiters of a list. -/
theorem run_induction {motive : List α → Prop} (d : α)
    (free : ∀ s, d ∉ s → motive s)
    (step : ∀ u v, d ∉ u → motive v → motive (u ++ d :: v)) (s : List α) : motive s := by
  induction n : s.length using Nat.strong_induction_on generalizing s with
  | _ n ih =>
    by_cases present : d ∈ s
    · obtain ⟨u, v, rfl, hu⟩ := List.eq_append_cons_of_mem present
      exact step u v hu (ih v.length (by simp at n; omega) v rfl)
    · exact free s present

/-- What follows a second piece does not change the first one. -/
theorem head?_append (d : α) (u v : List α) (two : 2 ≤ (pieces d u).length) :
    (pieces d (u ++ v)).head? = (pieces d u).head? := by
  induction u using run_induction d with
  | free u hu => exact absurd two (Nat.not_le.mpr (Nat.lt_succ_of_le (length_of_free d u hu)))
  | step u w hu ih =>
    rw [List.append_assoc, List.cons_append, append_cons, append_cons] at *
    by_cases nonempty : u = []
    · simp only [nonempty, nil, List.nil_append] at two ⊢
      exact ih two
    · rw [of_not_mem d u hu nonempty]
      rfl

/-- Delimiters in front of the text produce nothing. -/
theorem dropWhile_delim (d : α) (s : List α) :
    pieces d (s.dropWhile fun c => decide (c = d)) = pieces d s := by
  induction s with
  | nil => rfl
  | cons c s ih =>
    by_cases h : c = d
    · subst h
      simpa using ih
    · simp [h]

/-- What remains of a text after its leading delimiters is the first piece, up to the next
delimiter, and the rest. -/
theorem cons_of_ne (d c : α) (s : List α) (other : c ≠ d) :
    pieces d (c :: s) = ((c :: s).takeWhile fun x => decide (x ≠ d)) ::
      pieces d ((c :: s).dropWhile fun x => decide (x ≠ d)) := by
  have free : d ∉ (c :: s).takeWhile fun x => decide (x ≠ d) := by
    intro member
    simpa using List.mem_takeWhile_imp member
  have nonempty : ((c :: s).takeWhile fun x => decide (x ≠ d)) ≠ [] := by simp [other]
  have whole := List.takeWhile_append_dropWhile (p := fun x => decide (x ≠ d)) (l := c :: s)
  calc pieces d (c :: s)
      = pieces d (((c :: s).takeWhile fun x => decide (x ≠ d)) ++
          (c :: s).dropWhile fun x => decide (x ≠ d)) := by rw [whole]
    _ = _ := by
      cases rest : (c :: s).dropWhile fun x => decide (x ≠ d) with
      | nil => rw [List.append_nil, of_not_mem d _ free nonempty, nil]
      | cons y ys =>
        -- the run stops at a delimiter
        have stop := List.head?_dropWhile_not (fun x => decide (x ≠ d)) (c :: s)
        rw [rest] at stop
        have atDelim : y = d := by simpa using stop
        rw [atDelim, run_cons d _ ys free nonempty, cons_self]

/-- A free run behind a delimiter is a piece of its own. -/
theorem append_free_of_boundary (d : α) (s t : List α) (free : d ∉ t) (nonempty : t ≠ [])
    (boundary : s = [] ∨ ∃ u, s = u ++ [d]) : pieces d (s ++ t) = pieces d s ++ [t] := by
  rcases boundary with rfl | ⟨u, rfl⟩
  · simp [of_not_mem d t free nonempty]
  · rw [append_of_boundary d (u ++ [d]) t (.inl ⟨u, rfl⟩), of_not_mem d t free nonempty]

/-- A free run behind anything else prolongs the last piece. -/
theorem append_free_of_run (d c : α) (u t : List α) (other : c ≠ d) (free : d ∉ t) :
    ∃ init last, pieces d (u ++ [c]) = init ++ [last] ∧
      pieces d (u ++ [c] ++ t) = init ++ [last ++ t] := by
  induction u using run_induction d with
  | free u hu =>
    have joined : d ∉ u ++ [c] := by simp [hu, Ne.symm other]
    refine ⟨[], u ++ [c], ?_, ?_⟩
    · rw [of_not_mem d _ joined (by simp), List.nil_append]
    · rw [of_not_mem d _ (by simp [hu, Ne.symm other, free]) (by simp), List.nil_append]
  | step u v hu ih =>
    obtain ⟨init, last, short, long⟩ := ih
    refine ⟨pieces d u ++ init, last, ?_, ?_⟩
    · rw [List.append_assoc, List.cons_append, append_cons, short, List.append_assoc]
    · simp only [List.append_assoc, List.cons_append] at long ⊢
      rw [append_cons, long]

/-- Every piece is a non-empty delimiter-free run of elements of the list. -/
theorem spec (d : α) (s piece : List α) (member : piece ∈ pieces d s) :
    piece ≠ [] ∧ d ∉ piece ∧ ∀ c ∈ piece, c ∈ s := by
  induction s using run_induction d with
  | free s hs =>
    obtain ⟨rfl, nonempty⟩ := mem_of_free hs member
    exact ⟨nonempty, hs, fun _ h => h⟩
  | step u v hu ih =>
    rw [append_cons, List.mem_append] at member
    rcases member with first | later
    · obtain ⟨rfl, nonempty⟩ := mem_of_free hu first
      exact ⟨nonempty, hu, fun c h => List.mem_append_left _ h⟩
    · obtain ⟨h1, h2, h3⟩ := ih later
      exact ⟨h1, h2, fun c h => List.mem_append_right _ (List.mem_cons_of_mem _ (h3 c h))⟩

theorem isInfix (d : α) (s piece : List α) (member : piece ∈ pieces d s) : piece <:+: s := by
  induction s using run_induction d with
  | free s hs =>
    obtain ⟨rfl, -⟩ := mem_of_free hs member
    exact List.infix_refl _
  | step u v hu ih =>
    rw [append_cons, List.mem_append] at member
    rcases member with first | later
    · obtain ⟨rfl, -⟩ := mem_of_free hu first
      exact (List.prefix_append _ (d :: v)).isInfix
    · exact (ih later).trans ((List.suffix_cons d v).trans (List.suffix_append u _)).isInfix

/-- The pieces are what is left of a text without its delimiters. -/
theorem flatten (d : α) (s : List α) : (pieces d s).flatten = s.filter fun c => decide (c ≠ d) := by
  have run (u : List α) (hu : d ∉ u) : (pieces d u).flatten = u.filter fun c => decide (c ≠ d) := by
    have kept : u.filter (fun c => decide (c ≠ d)) = u := by
      rw [List.filter_eq_self]
      rintro c member
      have : c ≠ d := by rintro rfl; exact hu member
      simpa using this
    rw [kept, of_free d u hu]
    split
    next empty => rw [empty, List.flatten_nil]
    next => exact List.flatten_singleton
  induction s using run_induction d with
  | free s hs => exact run s hs
  | step u v hu ih =>
    rw [append_cons, List.flatten_append, List.filter_append, run u hu, ih, List.filter_cons_of_neg]
    simp

/-- There is at most one piece more than there are delimiters. -/
theorem length_le_count (d : α) (s : List α) : (pieces d s).length ≤ s.count d + 1 := by
  induction s using run_induction d with
  | free s hs => exact (length_of_free d s hs).trans (Nat.le_add_left 1 _)
  | step u v hu ih =>
    have first := length_of_free d u hu
    rw [append_cons, List.length_append, List.count_append, List.count_cons_self]
    omega

/-- Delimiters alone have no pieces, and change nothing in front of a text. -/
theorem blank_append (d : α) {gap : List α} (blank : ∀ c ∈ gap, c = d) (s : List α) :
    pieces d (gap ++ s) = pieces d s := by
  induction gap with
  | nil => rfl
  | cons c gap ih =>
    rw [blank c (by simp), List.cons_append, cons_self]
    exact ih fun c member => blank c (by simp [member])

/-- Non-empty free runs glued by single delimiters are recovered exactly. -/
theorem intercalate (d : α) (runs : List (List α)) (free : ∀ r ∈ runs, r ≠ [] ∧ d ∉ r) :
    pieces d ([d].intercalate runs) = runs := by
  by_cases h : runs = []
  · simp [h]
  · rw [pieces, List.splitOn_intercalate d (fun r hr => (free r hr).2) h, List.filter_eq_self]
    intro r hr
    simpa using (free r hr).1

/-- A list with single delimiters only, and none at its ends, is glued together from its
pieces. -/
theorem intercalate_of_count (d : α) (s : List α) (single : (pieces d s).length = s.count d + 1) :
    [d].intercalate (pieces d s) = s := by
  induction s using run_induction d with
  | free s hs =>
    have nonempty : s ≠ [] := by
      rintro rfl
      cases single
    rw [of_not_mem d s hs nonempty, List.intercalate_singleton]
  | step u v hu ih =>
    -- with one piece more than delimiters none of the runs is empty, so nothing is collapsed
    have later := length_le_count d v
    rw [append_cons, List.length_append, List.count_append, List.count_cons_self,
      List.count_eq_zero.mpr hu] at single
    have nonempty : u ≠ [] := by
      rintro rfl
      rw [nil, List.length_nil] at single
      omega
    rw [of_not_mem d u hu nonempty, List.length_singleton] at single
    rw [run_cons d u v hu nonempty]
    obtain ⟨first, rest, shape⟩ := List.exists_cons_of_length_pos (l := pieces d v) (by omega)
    have glued := ih (by omega)
    rw [shape] at glued ⊢
    rw [List.intercalate_cons_cons, glued, List.append_assoc, List.singleton_append]

/-- Free runs are glued with one delimiter less than there are runs. -/
theorem count_intercalate (d : α) (runs : List (List α)) (free : ∀ r ∈ runs, d ∉ r) :
    ([d].intercalate runs).count d = runs.length - 1 := by
  induction runs with
  | nil => simp [List.intercalate_nil]
  | cons r runs ih =>
    have first : r.count d = 0 := List.count_eq_zero.mpr (free r (by simp))
    have rest := ih fun r h => free r (by simp [h])
    rcases runs with _ | ⟨q, runs⟩
    · rw [List.intercalate_singleton, first]
      rfl
    · rw [List.intercalate_cons_cons, List.count_append, List.count_append, first, rest,
        List.count_singleton_self]
      simp only [List.length_cons]
      omega

/-! ### Maximal runs -/

/-- The maximal non-empty runs of a list, told without a computation: a list is a gap made of
delimiters, or a gap, a run, and a rest that does not prolong the run. -/
inductive MaximalRuns (d : α) : List α → List (List α) → Prop
  | blank {gap : List α} (blank : ∀ c ∈ gap, c = d) : MaximalRuns d gap []
  | run (gap rest : List α) {run : List α} {runs : List (List α)} (blank : ∀ c ∈ gap, c = d)
      (nonempty : run ≠ []) (free : d ∉ run) (stops : ∀ c ∈ rest.head?, c = d)
      (later : MaximalRuns d rest runs) : MaximalRuns d (gap ++ (run ++ rest)) (run :: runs)

omit [DecidableEq α] in
theorem MaximalRuns.cons_delim {d : α} {s : List α} {runs : List (List α)}
    (h : MaximalRuns d s runs) : MaximalRuns d (d :: s) runs := by
  cases h with
  | blank blank => exact .blank (by simpa using blank)
  | @run gap rest run runs blank nonempty free stops later =>
    exact .run (d :: gap) rest (by simpa using blank) nonempty free stops later

/-- The pieces are the maximal runs, and there are no others. -/
theorem maximalRuns_iff {d : α} {s : List α} {runs : List (List α)} :
    MaximalRuns d s runs ↔ pieces d s = runs := by
  constructor
  · intro maximal
    induction maximal with
    | @blank gap blank => simpa using blank_append d blank []
    | @run gap rest run runs blank nonempty free stops later ih =>
      rw [blank_append d blank]
      rcases rest with _ | ⟨c, rest⟩
      · rw [List.append_nil, of_not_mem d run free nonempty, ← ih, nil]
      · have delim : c = d := stops c rfl
        rw [delim, run_cons d run rest free nonempty, ← ih, delim, cons_self]
  · rintro rfl
    induction s using run_induction d with
    | free s hs =>
      rw [of_free d s hs]
      split
      next empty => exact empty ▸ .blank (by simp)
      next nonempty =>
        have only := MaximalRuns.run [] [] (by simp) nonempty hs (by simp)
          (.blank (by simp))
        simpa using only
    | step u v hu ih =>
      rw [append_cons, of_free d u hu]
      split
      next empty => simpa [empty] using ih.cons_delim
      next nonempty =>
        exact .run [] _ (by simp) nonempty hu (by simp) ih.cons_delim

/-! ### Gluing -/

omit [DecidableEq α] in
/-- Lists that are no longer than their counterparts, with the same concatenation, are the
counterparts. -/
theorem eq_of_flatten_eq {ι : Type} {f g : ι → List α} (l : List ι)
    (le : ∀ i ∈ l, (f i).length ≤ (g i).length)
    (same : (l.map f).flatten = (l.map g).flatten) : ∀ i ∈ l, f i = g i := by
  induction l with
  | nil => simp
  | cons i l ih =>
    have tail : ((l.map f).flatten).length ≤ ((l.map g).flatten).length := by
      simp only [List.length_flatten, List.map_map]
      exact List.sum_le_sum fun j h => le j (by simp [h])
    have head := le i (by simp)
    simp only [List.map_cons, List.flatten_cons] at same
    have total := congrArg List.length same
    simp only [List.length_append] at total
    obtain ⟨first, rest⟩ := List.append_inj same (by omega)
    intro j member
    rcases List.mem_cons.mp member with rfl | later
    · exact first
    · exact ih (fun k h => le k (by simp [h])) rest j later

end Pieces
