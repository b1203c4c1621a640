import MeepBot.Loader

/-!
# Loading

What becomes of the member `L` and of error texts over any sequence of calls.

* `loading_iff`: every call does what it should exactly when every directory that is loaded can be
  read and every error that is reported has a text.
-/

namespace MeepBot
namespace Properties

open Effect Loader

/-! ### Calls -/

/-- A call of one of the functions that touch `L`, with what it meets. -/
inductive Call where
  | openLua (o : LoadOutcome) (responds : Bool)
  | closeLua
  | reloadLua (o : LoadOutcome) (responds : Bool)
  | respond (line : Str) (mayReload : Bool) (o : LoadOutcome) (responds : Bool) (reply : Reply)

namespace Call

/-- The state a call leaves. -/
def step (s : Loader) : Call → Loader
  | openLua o responds => (Loader.openLua o responds s).2
  | closeLua => (Loader.closeLua s).2
  | reloadLua o responds => (Loader.reloadLua o responds s).2
  | respond line mayReload o responds reply =>
    (Loader.respond line mayReload o responds reply s).2

end Call

/-- Loading succeeds with an open state where the scripts have run, and fails with an error text
and without a state where they have not; it never ends in a fault. -/
def Opens (o : LoadOutcome) : Except Fault (Bool × Option Str) × Loader → Prop
  | (.ok (true, _), t) => o.ret = true ∧ ∃ h l, Holds t h l
  | (.ok (false, err), t) => o.ret = false ∧ err.isSome = true ∧ t.L = none
  | (.error _, _) => False

/-- What a call should do. -/
def Correct (s : Loader) : Call → Prop
  | .openLua o responds => Opens o (openLua o responds s)
  | .closeLua => ∃ t, closeLua s = (.ok (), t) ∧ t.L = none
  | .reloadLua o responds => Opens o (reloadLua o responds s)
  | .respond line mayReload o responds reply =>
    ∃ ret t, respond line mayReload o responds reply s = (.ok ret, t) ∧ Valid t ∧
      (line = "!reload".toList → mayReload = true → ret = o.ret ∧ t.L.isSome = o.ret)

/-- Where the scripts' `Respond` fails, its error has a text. -/
def Answered : Reply → Prop
  | .returned _ => True
  | .failed err _ => err.isSome = true

/-- Whatever the call loads or runs from this state ends in a way that can be told. -/
def Tellable (s : Loader) : Call → Prop
  | .openLua o _ => o.Told
  | .closeLua => True
  | .reloadLua o _ => o.Told
  | .respond line mayReload o _ reply =>
    if line = "!reload".toList then mayReload = true → o.Told
    else ∀ h ∈ s.L, ∀ l ∈ s.state? h, l.responds = true → Answered reply

/-! ### Single calls -/

theorem openLua_opens {o : LoadOutcome} (told : o.Told) (s : Loader) (responds : Bool) :
    Opens o (openLua o responds s) := by
  cases o with
  | unreadable => exact told.elim
  | ran values =>
    obtain ⟨t, h, holds, result⟩ := openLua_ran values s responds
    rw [result]
    exact ⟨rfl, h, _, holds⟩
  | failed values err =>
    obtain ⟨err, rfl⟩ := Option.isSome_iff_exists.mp told
    obtain ⟨t, null, result⟩ := openLua_failed values err s responds
    rw [result]
    exact ⟨rfl, rfl, null⟩

theorem openLua_opens_iff (s : Loader) (o : LoadOutcome) (responds : Bool) :
    Opens o (openLua o responds s) ↔ o.Told := by
  refine ⟨fun opens => ?_, fun told => openLua_opens told s responds⟩
  by_contra mute
  obtain ⟨t, fault⟩ := openLua_mute mute s responds
  rw [fault] at opens
  exact opens

/-- The two ways in which loading does what it should. -/
theorem opens_cases {o : LoadOutcome} {result : Except Fault (Bool × Option Str) × Loader}
    (opens : Opens o result) :
    (o.ret = true ∧ ∃ err t h l, result = (.ok (true, err), t) ∧ Holds t h l) ∨
      (o.ret = false ∧ ∃ err t, result = (.ok (false, err), t) ∧ t.L = none) := by
  rcases result with ⟨fault | ⟨ok, err⟩, t⟩
  · exact opens.elim
  · cases ok with
    | true =>
      obtain ⟨ran, h, l, holds⟩ := opens
      exact .inl ⟨ran, err, t, h, l, rfl, holds⟩
    | false =>
      obtain ⟨failed, -, null⟩ := opens
      exact .inr ⟨failed, err, t, rfl, null⟩

/-- After loading has succeeded or failed as it should the pointer is valid. -/
theorem valid_of_opens {o : LoadOutcome} {result : Except Fault (Bool × Option Str) × Loader}
    (opens : Opens o result) : Valid result.2 := by
  rcases opens_cases opens with ⟨-, err, t, h, l, rfl, holds⟩ | ⟨-, err, t, rfl, null⟩
  · exact holds.valid
  · exact valid_of_null null

theorem reloadLua_opens_iff {s : Loader} (valid : Valid s) (o : LoadOutcome) (responds : Bool) :
    Opens o (reloadLua o responds s) ↔ o.Told := by
  obtain ⟨t, same⟩ := reloadLua_eq valid o responds
  rw [same]
  exact openLua_opens_iff t o responds

/-- A reload by way of `Respond` does what `ReloadLua` does. -/
theorem respond_reload_iff {s : Loader} (valid : Valid s) (mayReload : Bool) (o : LoadOutcome)
    (responds : Bool) (reply : Reply) :
    Correct s (.respond "!reload".toList mayReload o responds reply) ↔
      (mayReload = true → o.Told) := by
  cases mayReload with
  | false =>
    apply iff_of_true
    · exact ⟨false, s, rfl, valid, fun _ no => by cases no⟩
    · intro no
      cases no
  | true =>
    have result : respond "!reload".toList true o responds reply s =
        (reloadLua o responds >>= fun ret => pure ret.1) s := rfl
    obtain ⟨t, same⟩ := reloadLua_eq valid o responds
    simp only [Correct, result, forall_const]
    constructor
    · rintro ⟨ret, t', returned, -⟩
      by_contra mute
      obtain ⟨t'', fault⟩ := openLua_mute mute t responds
      rw [bind_apply, same, fault] at returned
      cases returned
    · intro told
      rw [bind_apply, same]
      rcases opens_cases (openLua_opens told t responds) with
        ⟨ran, err, t', h, l, loaded, holds⟩ | ⟨failed, err, t', loaded, null⟩
      · rw [loaded]
        exact ⟨true, t', rfl, holds.valid, ran.symm, by rw [holds.pointer, ran]; rfl⟩
      · rw [loaded]
        exact ⟨false, t', rfl, valid_of_null null, failed.symm, by rw [null, failed]; rfl⟩

/-- Any other line is answered, unless an error without a text is to be reported. -/
theorem respond_other_iff {s : Loader} (valid : Valid s) {line : Str}
    (other : line ≠ "!reload".toList) (mayReload : Bool) (o : LoadOutcome) (responds : Bool)
    (reply : Reply) :
    Correct s (.respond line mayReload o responds reply) ↔
      ∀ h ∈ s.L, ∀ l ∈ s.state? h, l.responds = true → Answered reply := by
  have correct {ret : Bool} {t : Loader} (valid : Valid t)
      (result : respond line mayReload o responds reply s = (.ok ret, t)) :
      Correct s (.respond line mayReload o responds reply) :=
    ⟨ret, t, result, valid, fun reload => absurd reload other⟩
  rcases valid.cases with null | ⟨h, l, holds⟩
  · apply iff_of_true
    · exact correct valid (respond_null other null mayReload o responds reply)
    · rw [null]
      rintro _ ⟨⟩
  · have only : (∀ h ∈ s.L, ∀ l ∈ s.state? h, l.responds = true → Answered reply) ↔
        (l.responds = true → Answered reply) := by
      simp [holds.pointer, holds.isOpen]
    rw [only]
    cases works : l.responds with
    | false =>
      obtain ⟨t, kept, result⟩ := respond_broken other holds works mayReload o responds reply
      exact iff_of_true (correct kept result) (by rintro ⟨⟩)
    | true =>
      cases reply with
      | returned after =>
        obtain ⟨t, kept, result⟩ := respond_returned other holds works mayReload o responds after
        exact iff_of_true (correct kept result) fun _ => trivial
      | failed err after =>
        cases err with
        | some err =>
          obtain ⟨t, kept, result⟩ :=
            respond_failed other holds works mayReload o responds after err
          exact iff_of_true (correct kept result) fun _ => rfl
        | none =>
          obtain ⟨t, fault⟩ := respond_mute other holds works mayReload o responds after
          apply iff_of_false
          · rintro ⟨ret, t', returned, -⟩
            rw [fault] at returned
            cases returned
          · exact fun answered => Bool.false_ne_true (answered rfl)

/-! ### Runs -/

/-- In a state with a valid pointer, a call does what it should exactly if what it meets can be
told. -/
theorem correct_iff_tellable (s : Loader) (c : Call) (valid : Valid s) :
    Correct s c ↔ Tellable s c := by
  cases c with
  | openLua o responds => exact openLua_opens_iff s o responds
  | closeLua =>
    obtain ⟨t, null, closed⟩ := closeLua_eq valid
    exact iff_of_true ⟨t, closed, null⟩ trivial
  | reloadLua o responds => exact reloadLua_opens_iff valid o responds
  | respond line mayReload o responds reply =>
    by_cases reload : line = "!reload".toList
    · rw [Tellable, if_pos reload, reload]
      exact respond_reload_iff valid mayReload o responds reply
    · rw [Tellable, if_neg reload]
      exact respond_other_iff valid reload mayReload o responds reply

theorem valid_step (s : Loader) (c : Call) (correct : Correct s c) : Valid (c.step s) := by
  cases c with
  | openLua o responds => exact valid_of_opens correct
  | closeLua =>
    obtain ⟨t, closed, null⟩ := correct
    rw [Call.step, closed]
    exact valid_of_null null
  | reloadLua o responds => exact valid_of_opens correct
  | respond line mayReload o responds reply =>
    obtain ⟨ret, t, result, kept, -⟩ := correct
    rw [Call.step, result]
    exact kept

/-- For every sequence of calls, every outcome of every load and every reply of the scripts: each
call does what it should, loading succeeds with an open state or fails with an error text and
without a state, no text is read where there is none and no state is touched that is closed,
exactly when in each call the directory loaded can be read, and an error to be reported has a
text. -/
theorem loading_iff (calls : List Call) :
    Run.Along Call.step Correct calls Loader.initial ↔
      Run.Along Call.step Tellable calls Loader.initial :=
  Run.along_iff correct_iff_tellable (fun s c _ => valid_step s c) calls Loader.initial
    valid_initial

/-- The directory cannot be read: an error text is taken from an empty stack. -/
theorem loading_fails :
    (Loader.openLua .unreadable false Loader.initial).1 = .error .noMessage ∧
      ¬Run.Along Call.step Correct [.openLua .unreadable false] Loader.initial :=
  ⟨rfl, fun along => along.1⟩

end Properties
end MeepBot
