import MeepBot.Library.Effect
import MeepBot.Library.Run

/-!
# Programs that talk

A program that works on one part of the state, its view, and puts things out. What is put out
changes the rest of the state and is never read again. So the view alone tells what the program
returns, which view it leaves, and what it puts out: two states with the same view cannot be told
apart by it.
-/

namespace Output

open Effect

variable {σ V U ε α β : Type}

/-- The view of a state, and outputs that leave it alone. -/
structure Device (σ V U : Type) where
  view : σ → V
  put : V → σ → σ
  emit : U → σ → σ
  view_put : ∀ v s, view (put v s) = v
  put_put : ∀ v v' s, put v (put v' s) = put v s
  put_view : ∀ s, put (view s) s = s
  put_emit : ∀ v u s, put v (emit u s) = emit u (put v s)

namespace Device

variable (d : Device σ V U)

theorem view_emit (u : U) (s : σ) : d.view (d.emit u s) = d.view s := by
  have same := d.put_emit (d.view s) u s
  rw [d.put_view] at same
  rw [← same, d.view_put]

/-- Put out one thing after the other. -/
def emits (us : List U) (s : σ) : σ := us.foldl (fun s u => d.emit u s) s

theorem emits_append (us us' : List U) (s : σ) :
    d.emits (us ++ us') s = d.emits us' (d.emits us s) := List.foldl_append

theorem view_emits (us : List U) (s : σ) : d.view (d.emits us s) = d.view s := by
  induction us generalizing s with
  | nil => rfl
  | cons u us ih => exact (ih _).trans (d.view_emit u s)

theorem put_emits (v : V) (us : List U) (s : σ) :
    d.put v (d.emits us s) = d.emits us (d.put v s) := by
  induction us generalizing s with
  | nil => rfl
  | cons u us ih =>
    have first := ih (d.emit u s)
    rw [d.put_emit] at first
    exact first

end Device

/-! ### Programs -/

section
variable (d : Device σ V U) (allowed : U → Prop)

/-- On the states of a view, the program returns one result, leaves one view, and puts the same
things out, which are allowed. -/
def Talks (m : Program σ ε α) : Prop :=
  ∀ v, ∃ r v' us, (∀ u ∈ us, allowed u) ∧ ∀ s, d.view s = v → m s = (r, d.emits us (d.put v' s))

/-- The same of a function on states. -/
def Steps (f : σ → σ) : Prop :=
  ∀ v, ∃ v' us, (∀ u ∈ us, allowed u) ∧ ∀ s, d.view s = v → f s = d.emits us (d.put v' s)

end

variable {d : Device σ V U} {allowed : U → Prop}

namespace Talks

theorem returns (a : α) : Talks d allowed (pure a : Program σ ε α) := by
  refine fun v => ⟨.ok a, v, [], by simp, fun s view => ?_⟩
  rw [← view, d.put_view]
  rfl

theorem fails (e : ε) : Talks d allowed (throw e : Program σ ε α) := by
  refine fun v => ⟨.error e, v, [], by simp, fun s view => ?_⟩
  rw [← view, d.put_view]
  rfl

/-- A question about the view. -/
theorem query {f : σ → α} (g : V → α) (reads : ∀ s, f s = g (d.view s)) :
    Talks d allowed (Effect.query f : Program σ ε α) := by
  refine fun v => ⟨.ok (g v), v, [], by simp, fun s view => ?_⟩
  rw [query_apply, reads, view, ← view, d.put_view]
  rfl

/-- An operation on the view. -/
theorem act {f : σ → α × σ} (g : V → α × V)
    (works : ∀ s, f s = ((g (d.view s)).1, d.put (g (d.view s)).2 s)) :
    Talks d allowed (Effect.act f : Program σ ε α) := by
  refine fun v => ⟨.ok (g v).1, (g v).2, [], by simp, fun s view => ?_⟩
  rw [act_apply, works, view]
  rfl

theorem change {f : σ → σ} (steps : Steps d allowed f) :
    Talks d allowed (Effect.change f : Program σ ε Unit) := by
  intro v
  obtain ⟨v', us, ok, same⟩ := steps v
  exact ⟨.ok (), v', us, ok, fun s view => by rw [change_apply, same s view]⟩

theorem bind {m : Program σ ε α} {f : α → Program σ ε β} (first : Talks d allowed m)
    (next : ∀ a, Talks d allowed (f a)) : Talks d allowed (m >>= f) := by
  intro v
  obtain ⟨r, v', us, ok, same⟩ := first v
  rcases r with e | a
  · refine ⟨.error e, v', us, ok, fun s view => ?_⟩
    rw [bind_apply, same s view]
  · obtain ⟨r', v'', us', ok', same'⟩ := next a v'
    refine ⟨r', v'', us ++ us', by simpa [or_imp, forall_and] using ⟨ok, ok'⟩, fun s view => ?_⟩
    -- the second part works on the view the first one leaves, and before its outputs
    have between : d.view (d.emits us (d.put v' s)) = v' := by rw [d.view_emits, d.view_put]
    rw [bind_apply, same s view]
    simp only [same' _ between, d.emits_append, d.put_emits, d.put_put]

theorem ite {c : Prop} [Decidable c] {m n : Program σ ε α} (yes : c → Talks d allowed m)
    (no : ¬c → Talks d allowed n) : Talks d allowed (if c then m else n) := by
  by_cases h : c
  · rw [if_pos h]
    exact yes h
  · rw [if_neg h]
    exact no h

/-- The view decides which program it is. -/
theorem choose {m : Program σ ε α}
    (chooses : ∀ v, ∃ n, Talks d allowed n ∧ ∀ s, d.view s = v → m s = n s) :
    Talks d allowed m := by
  intro v
  obtain ⟨n, talks, chosen⟩ := chooses v
  obtain ⟨r, v', us, ok, same⟩ := talks v
  exact ⟨r, v', us, ok, fun s view => by rw [chosen s view, same s view]⟩

end Talks

/-! ### Steps -/

namespace Steps

theorem id : Steps d allowed fun s => s :=
  fun v => ⟨v, [], by simp, fun s view => by rw [← view, d.put_view]; rfl⟩

theorem emit {u : U} (ok : allowed u) : Steps d allowed (d.emit u) :=
  fun v => ⟨v, [u], by simpa using ok, fun s view => by rw [← view, d.put_view]; rfl⟩

theorem put (v : V) : Steps d allowed (d.put v) := fun _ => ⟨v, [], by simp, fun _ _ => rfl⟩

theorem comp {f g : σ → σ} (second : Steps d allowed g) (first : Steps d allowed f) :
    Steps d allowed fun s => g (f s) := by
  intro v
  obtain ⟨v', us, ok, same⟩ := first v
  obtain ⟨v'', us', ok', same'⟩ := second v'
  refine ⟨v'', us ++ us', by simpa [or_imp, forall_and] using ⟨ok, ok'⟩, fun s view => ?_⟩
  have between : d.view (d.emits us (d.put v' s)) = v' := by rw [d.view_emits, d.view_put]
  simp only [same s view, same' _ between, d.emits_append, d.put_emits, d.put_put]

/-- The view decides which step it is. -/
theorem choose {f : σ → σ}
    (chooses : ∀ v, ∃ g, Steps d allowed g ∧ ∀ s, d.view s = v → f s = g s) :
    Steps d allowed f := by
  intro v
  obtain ⟨g, steps, chosen⟩ := chooses v
  obtain ⟨v', us, ok, same⟩ := steps v
  exact ⟨v', us, ok, fun s view => by rw [chosen s view, same s view]⟩

/-- A change of the view. -/
theorem change {f : σ → σ} (g : V → V) (works : ∀ s, f s = d.put (g (d.view s)) s) :
    Steps d allowed f :=
  choose fun v => ⟨d.put (g v), put (g v), fun s view => by rw [works, view]⟩

/-- A step behind a program, by what the program returns. -/
theorem behind {m : Program σ ε α} {next : Except ε α → σ → σ} (talks : Talks d allowed m)
    (steps : ∀ r, Steps d allowed (next r)) :
    Steps d allowed fun s => next (m s).1 (m s).2 := by
  intro v
  obtain ⟨r, v', us, ok, same⟩ := talks v
  obtain ⟨v'', us', ok', same'⟩ := steps r v'
  refine ⟨v'', us ++ us', by simpa [or_imp, forall_and] using ⟨ok, ok'⟩, fun s view => ?_⟩
  have between : d.view (d.emits us (d.put v' s)) = v' := by rw [d.view_emits, d.view_put]
  simp only [same s view, same' _ between, d.emits_append, d.put_emits, d.put_put]

theorem mono {f : σ → σ} {more : U → Prop} (steps : Steps d allowed f)
    (weaker : ∀ u, allowed u → more u) : Steps d more f := by
  intro v
  obtain ⟨v', us, ok, same⟩ := steps v
  exact ⟨v', us, fun u member => weaker u (ok u member), same⟩

/-- A run of such steps. -/
theorem run {ι : Type} {step : σ → ι → σ} (steps : ∀ i, Steps d allowed (step · i))
    (inputs : List ι) : Steps d allowed (Run.run step inputs) := by
  induction inputs with
  | nil => exact id
  | cons i inputs ih => exact comp (g := Run.run step inputs) ih (steps i)

/-- States with one view keep one view. -/
theorem view_eq {f : σ → σ} (steps : Steps d allowed f) {s t : σ} (same : d.view s = d.view t) :
    d.view (f s) = d.view (f t) := by
  obtain ⟨v', us, -, works⟩ := steps (d.view t)
  rw [works s same, works t rfl, d.view_emits, d.view_emits, d.view_put, d.view_put]

end Steps
end Output
