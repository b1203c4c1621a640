import MeepBot.Library.Effect
import MeepBot.Library.Run
import MeepBot.HandlePacket
import MeepBot.LuaUtil

/-!
# Loading the scripts

The life of the member `L`: `OpenLua`, `CloseLua`, `ReloadLua` and `Respond` on the states of Lua
that are open. Of a state only the texts on its stack are kept, and whether `MeepBot.Respond` is a
function. A call stops where the text of an error is read and there is none, or where a state is
touched that is closed.
-/

namespace MeepBot

/-- How loading the scripts ends, and what it leaves on the stack. -/
inductive LoadOutcome where
  /-- the directory cannot be read -/
  | unreadable
  /-- all scripts have run, and returned some values -/
  | ran (values : List (Option Str))
  /-- a script has failed, behind others that returned some values -/
  | failed (values : List (Option Str)) (err : Option Str)

namespace LoadOutcome

/-- The value `RunScriptsFromDir` returns. -/
def ret : LoadOutcome → Bool
  | ran _ => true
  | _ => false

/-- What is left on top of the stack. -/
def left : LoadOutcome → List (Option Str)
  | unreadable => []
  | ran values => values
  | failed values err => err :: values

/-- The directory can be read, and where a script fails its error has a text. -/
def Told : LoadOutcome → Prop
  | unreadable => False
  | ran _ => True
  | failed _ err => err.isSome = true

end LoadOutcome

/-- The loop over the entries has an outcome of its scripts. -/
theorem LuaUtil.runScripts_outcome (dofile : Str → Ran) (path : Str) (entries : List Dirent)
    (stack : List (Option Str)) : ∃ o : LoadOutcome, o ≠ .unreadable ∧
      (LuaUtil.runScripts dofile path entries stack).ret = o.ret ∧
      (LuaUtil.runScripts dofile path entries stack).stack = o.left ++ stack := by
  induction entries generalizing stack with
  | nil => exact ⟨.ran [], by simp, rfl, rfl⟩
  | cons e entries ih =>
    rw [runScripts]
    simp only
    split
    · exact ih stack
    · split
      next err outcome => exact ⟨.failed [] err, by simp, rfl, rfl⟩
      next values outcome =>
        -- the values returned stay below what the others leave
        obtain ⟨o, readable, ret, left⟩ := ih (values.reverse ++ stack)
        cases o with
        | unreadable => exact absurd rfl readable
        | ran more =>
          refine ⟨.ran (more ++ values.reverse), by simp, ret, ?_⟩
          simp [left, LoadOutcome.left]
        | failed more err =>
          refine ⟨.failed (more ++ values.reverse) err, by simp, ret, ?_⟩
          simp [left, LoadOutcome.left]

/-- Whatever the directory holds and the scripts do, loading has an outcome. -/
theorem LuaUtil.runScriptsFromDir_outcome (dofile : Str → Ran) (path : Str)
    (dir : Option (List Dirent)) (stack : List (Option Str)) : ∃ o : LoadOutcome,
      (o = .unreadable ↔ dir = none) ∧
      (LuaUtil.runScriptsFromDir dofile path dir stack).ret = o.ret ∧
      (LuaUtil.runScriptsFromDir dofile path dir stack).stack = o.left ++ stack := by
  cases dir with
  | none => exact ⟨.unreadable, by simp, rfl, rfl⟩
  | some entries =>
    obtain ⟨o, readable, result⟩ :=
      runScripts_outcome dofile path (entries.sortBy Dirent.name) stack
    exact ⟨o, by simp [readable], result⟩

/-- An open `lua_State`: the texts of the values on its stack, the top first, and whether
`MeepBot.Respond` is a function. -/
structure LuaState where
  stack : List (Option Str)
  responds : Bool

/-- The states that have been opened, nothing where one has been closed, and the member `L`. -/
structure Loader where
  states : List (Option LuaState)
  L : Option Nat

/-- What no call should come to. -/
inductive Fault where
  /-- the text of an error is read where there is none, and a null pointer is taken for it -/
  | noMessage
  /-- a state that is closed is used or closed -/
  | closedState
  deriving DecidableEq

namespace Loader

open Effect

abbrev LoaderM := Program Loader Fault

/-- `MeepBot()` -/
def initial : Loader := ⟨[], none⟩

/-- The state behind a pointer, while it is open. -/
def state? (s : Loader) (h : Nat) : Option LuaState := s.states[h]?.join

/-! ### States of Lua -/

/-- `LuaUtil::Open` -/
def luaOpen : LoaderM Nat :=
  act fun s => (s.states.length, { s with states := s.states ++ [some ⟨[], false⟩] })

/-- A call of the library on a state. -/
def onState {α : Type} (h : Nat) (f : LuaState → α × LuaState) : LoaderM α := fun s =>
  match s.state? h with
  | some l => (.ok (f l).1, { s with states := s.states.set h (some (f l).2) })
  | none => (.error .closedState, s)

/-- `LuaUtil::Close` -/
def luaClose (h : Nat) : LoaderM Unit := fun s =>
  match s.state? h with
  | some _ => (.ok (), { s with states := s.states.set h none })
  | none => (.error .closedState, s)

/-- A string made of `lua_tostring( L, -1 )`. -/
def errorText (h : Nat) : LoaderM Str := do
  let top ← onState h fun l => (l.stack.head?.join, l)
  match top with
  | some err => pure err
  | none => throw .noMessage

/-- `Register` fills the global tables and leaves an empty stack. -/
def register (h : Nat) : LoaderM Unit := onState h fun l => ((), { l with stack := [] })

/-- `RunScriptsFromDir`, when it ends in a given way and the scripts have or have not made
`MeepBot.Respond` a function. -/
def runScriptsFromDir (h : Nat) (o : LoadOutcome) (responds : Bool) : LoaderM Bool :=
  onState h fun l => (o.ret, ⟨o.left ++ l.stack, responds⟩)

/-! ### The member functions -/

def closeLua : LoaderM Unit := do
  let L ← query Loader.L
  match L with
  | none => pure ()
  | some h => do
    luaClose h
    change fun s => { s with L := none }

/-- The value returned, and the error text where it is set. -/
def openLua (o : LoadOutcome) (responds : Bool) : LoaderM (Bool × Option Str) := do
  let h ← luaOpen
  -- a state that is already open stays open, without a pointer to it
  change fun s => { s with L := some h }
  register h
  let ok ← runScriptsFromDir h o responds
  if ok then pure (true, none)
  else do
    let err ← errorText h
    closeLua
    pure (false, some err)

def reloadLua (o : LoadOutcome) (responds : Bool) : LoaderM (Bool × Option Str) := do
  closeLua
  openLua o responds

/-- How the call of the scripts' `Respond` ends, and what has become of `MeepBot.Respond`. -/
inductive Reply where
  | returned (responds : Bool)
  | failed (err : Option Str) (responds : Bool)

/-- `MeepBot_LuaBindings::Respond( L, … )`, for a user who may or may not reload. -/
def respond (line : Str) (mayReload : Bool) (o : LoadOutcome) (responds : Bool) (reply : Reply) :
    LoaderM Bool := do
  -- the pointer is passed by value
  let L ← query Loader.L
  if line = "!reload".toList then
    if mayReload then do
      let ret ← reloadLua o responds
      pure ret.1
    else pure false
  else match L with
    | none => pure false
    | some h => do
      -- the global table and its field are pushed
      let isFunction ← onState h fun l => (l.responds, { l with stack := none :: none :: l.stack })
      if !isFunction then do
        closeLua
        pure false
      else match reply with
        | .returned responds => do
          onState h fun _ => ((), ⟨[], responds⟩)
          pure true
        | .failed err responds => do
          onState h fun l => ((), ⟨err :: l.stack.tail, responds⟩)
          let _ ← errorText h
          onState h fun l => ((), { l with stack := [] })
          pure false

/-! ### What each of them does -/

/-- The pointer is to an open state, which is `l`. -/
structure Holds (s : Loader) (h : Nat) (l : LuaState) : Prop where
  pointer : s.L = some h
  isOpen : s.state? h = some l

/-- The pointer, if there is one, is to an open state. -/
def Valid (s : Loader) : Prop := ∀ h ∈ s.L, ∃ l, s.state? h = some l

theorem valid_initial : Valid initial := by
  rintro h ⟨⟩

theorem valid_of_null {s : Loader} (null : s.L = none) : Valid s := by
  intro h held
  rw [null] at held
  cases held

theorem Holds.valid {s : Loader} {h : Nat} {l : LuaState} (holds : Holds s h l) : Valid s := by
  intro h' held
  obtain rfl : h = h' := Option.some_inj.mp (holds.pointer.symm.trans held)
  exact ⟨l, holds.isOpen⟩

/-- The pointer is null, or it holds a state. -/
theorem Valid.cases {s : Loader} (valid : Valid s) : s.L = none ∨ ∃ h l, Holds s h l := by
  cases held : s.L with
  | none => exact .inl rfl
  | some h =>
    obtain ⟨l, isOpen⟩ := valid h held
    exact .inr ⟨h, l, held, isOpen⟩

/-- A call of the library on the state that is held replaces it. -/
theorem onState_holds {α : Type} {s : Loader} {h : Nat} {l : LuaState} (holds : Holds s h l)
    (f : LuaState → α × LuaState) :
    ∃ t, Holds t h (f l).2 ∧ onState h f s = (.ok (f l).1, t) := by
  have inside : h < s.states.length := by
    by_contra outside
    have isOpen := holds.isOpen
    rw [state?, List.getElem?_eq_none (not_lt.mp outside)] at isOpen
    cases isOpen
  refine ⟨{ s with states := s.states.set h (some (f l).2) }, ⟨holds.pointer, ?_⟩, ?_⟩
  · simp [state?, inside]
  · rw [onState, holds.isOpen]

/-- Closing is safe and leaves no pointer. -/
theorem closeLua_eq {s : Loader} (valid : Valid s) :
    ∃ t, t.L = none ∧ closeLua s = (.ok (), t) := by
  rcases valid.cases with null | ⟨h, l, holds⟩
  · refine ⟨s, null, ?_⟩
    simp only [closeLua, query_bind, null]
    rfl
  · have closed : luaClose h s = (.ok (), { s with states := s.states.set h none }) := by
      rw [luaClose, holds.isOpen]
    refine ⟨⟨s.states.set h none, none⟩, rfl, ?_⟩
    simp only [closeLua, query_bind, holds.pointer]
    rw [bind_ok closed]
    rfl

/-- The text on top of the stack is read, -/
theorem errorText_some {s : Loader} {h : Nat} {l : LuaState} (holds : Holds s h l) {err : Str}
    (top : l.stack.head? = some (some err)) :
    ∃ t, Holds t h l ∧ errorText h s = (.ok err, t) := by
  obtain ⟨t, held, read⟩ := onState_holds holds fun l => (l.stack.head?.join, l)
  refine ⟨t, held, ?_⟩
  rw [errorText, bind_ok read, top]
  rfl

/-- also where nothing is on the stack, or a value without a text. -/
theorem errorText_none {s : Loader} {h : Nat} {l : LuaState} (holds : Holds s h l)
    (top : l.stack.head?.join = none) : ∃ t, errorText h s = (.error .noMessage, t) := by
  obtain ⟨t, held, read⟩ := onState_holds holds fun l => (l.stack.head?.join, l)
  refine ⟨t, ?_⟩
  rw [errorText, bind_ok read, top]
  rfl

/-! ### Loading -/

/-- Up to the end of loading, `OpenLua` works on a new state, whatever was open before. -/
theorem openLua_loaded (s : Loader) (o : LoadOutcome) (responds : Bool) :
    ∃ t h, Holds t h ⟨o.left, responds⟩ ∧
      openLua o responds s = (if o.ret then pure (true, none)
        else do
          let err ← errorText h
          closeLua
          pure (false, some err) : LoaderM (Bool × Option Str)) t := by
  obtain ⟨opened, new⟩ : ∃ opened : Loader,
      opened = ⟨s.states ++ [some ⟨[], false⟩], some s.states.length⟩ := ⟨_, rfl⟩
  have holds : Holds opened s.states.length ⟨[], false⟩ := by
    rw [new]
    exact ⟨rfl, by simp [state?]⟩
  obtain ⟨filled, holds, registered⟩ := onState_holds holds fun l => ((), { l with stack := [] })
  obtain ⟨t, holds, loaded⟩ := onState_holds holds fun l => (o.ret, ⟨o.left ++ l.stack, responds⟩)
  rw [List.append_nil] at holds
  refine ⟨t, s.states.length, holds, ?_⟩
  simp only [openLua, luaOpen, act_bind, change_bind]
  rw [← new, register, bind_ok registered, runScriptsFromDir, bind_ok loaded]

/-- Where all scripts have run the new state is open. -/
theorem openLua_ran (values : List (Option Str)) (s : Loader) (responds : Bool) :
    ∃ t h, Holds t h ⟨values, responds⟩ ∧
      openLua (.ran values) responds s = (.ok (true, none), t) := by
  obtain ⟨t, h, holds, result⟩ := openLua_loaded s (.ran values) responds
  exact ⟨t, h, holds, result⟩

/-- Where a script has failed with a text it is closed again. -/
theorem openLua_failed (values : List (Option Str)) (err : Str) (s : Loader) (responds : Bool) :
    ∃ t, t.L = none ∧
      openLua (.failed values (some err)) responds s = (.ok (false, some err), t) := by
  obtain ⟨t, h, holds, result⟩ := openLua_loaded s (.failed values (some err)) responds
  obtain ⟨t, holds, read⟩ := errorText_some holds rfl
  obtain ⟨t, null, closed⟩ := closeLua_eq holds.valid
  have failed : ¬(LoadOutcome.failed values (some err)).ret = true := Bool.false_ne_true
  refine ⟨t, null, ?_⟩
  rw [result, if_neg failed, bind_ok read, bind_ok closed]
  rfl

/-- Where there is no text one is read all the same. -/
theorem openLua_mute {o : LoadOutcome} (mute : ¬o.Told) (s : Loader) (responds : Bool) :
    ∃ t, openLua o responds s = (.error .noMessage, t) := by
  obtain ⟨t, h, holds, result⟩ := openLua_loaded s o responds
  have failed : ¬o.ret = true := by
    cases o with
    | ran values => exact absurd trivial mute
    | _ => exact Bool.false_ne_true
  have nothing : o.left.head?.join = none := by
    cases o with
    | unreadable => rfl
    | ran values => exact absurd trivial mute
    | failed values err => exact Option.not_isSome_iff_eq_none.mp mute
  obtain ⟨t, read⟩ := errorText_none holds nothing
  refine ⟨t, ?_⟩
  rw [result, if_neg failed, bind_apply, read]

theorem reloadLua_eq {s : Loader} (valid : Valid s) (o : LoadOutcome) (responds : Bool) :
    ∃ t, reloadLua o responds s = openLua o responds t := by
  obtain ⟨t, -, closed⟩ := closeLua_eq valid
  exact ⟨t, bind_ok closed⟩

/-! ### A line that is not the reload command -/

section
variable {s : Loader} {line : Str} (other : line ≠ "!reload".toList)
include other

theorem respond_null (null : s.L = none) (mayReload : Bool) (o : LoadOutcome) (responds : Bool)
    (reply : Reply) : respond line mayReload o responds reply s = (.ok false, s) := by
  simp only [respond, query_bind, if_neg other, null]
  rfl

variable {h : Nat} {l : LuaState} (holds : Holds s h l)
include holds

/-- Where `Respond` of the scripts is not a function, the state is closed. -/
theorem respond_broken (broken : l.responds = false) (mayReload : Bool) (o : LoadOutcome)
    (responds : Bool) (reply : Reply) :
    ∃ t, Valid t ∧ respond line mayReload o responds reply s = (.ok false, t) := by
  obtain ⟨t, holds', asked⟩ := onState_holds holds fun l =>
    (l.responds, { l with stack := none :: none :: l.stack })
  obtain ⟨t, null, closed⟩ := closeLua_eq holds'.valid
  refine ⟨t, valid_of_null null, ?_⟩
  simp only [respond, query_bind, if_neg other, holds.pointer]
  rw [bind_ok asked, broken, Bool.not_false, if_pos rfl, bind_ok closed]
  rfl

/-- Where it returns, the stack is cleaned. -/
theorem respond_returned (works : l.responds = true) (mayReload : Bool) (o : LoadOutcome)
    (responds after : Bool) :
    ∃ t, Valid t ∧ respond line mayReload o responds (.returned after) s = (.ok true, t) := by
  obtain ⟨t, holds', asked⟩ := onState_holds holds fun l =>
    (l.responds, { l with stack := none :: none :: l.stack })
  obtain ⟨t, holds', cleaned⟩ := onState_holds holds' fun _ => ((), (⟨[], after⟩ : LuaState))
  refine ⟨t, holds'.valid, ?_⟩
  simp only [respond, query_bind, if_neg other, holds.pointer]
  rw [bind_ok asked, works, if_neg (by simp), bind_ok cleaned]
  rfl

/-- Where it fails with a text, this is reported and the stack is cleaned. -/
theorem respond_failed (works : l.responds = true) (mayReload : Bool) (o : LoadOutcome)
    (responds after : Bool) (err : Str) : ∃ t, Valid t ∧
      respond line mayReload o responds (.failed (some err) after) s = (.ok false, t) := by
  obtain ⟨t, holds', asked⟩ := onState_holds holds fun l =>
    (l.responds, { l with stack := none :: none :: l.stack })
  obtain ⟨t, holds', called⟩ := onState_holds holds' fun l =>
    ((), (⟨some err :: l.stack.tail, after⟩ : LuaState))
  obtain ⟨t, holds', read⟩ := errorText_some holds' rfl
  obtain ⟨t, holds', cleaned⟩ := onState_holds holds' fun l => ((), { l with stack := [] })
  refine ⟨t, holds'.valid, ?_⟩
  simp only [respond, query_bind, if_neg other, holds.pointer]
  rw [bind_ok asked, works, if_neg (by simp), bind_ok called, bind_ok read, bind_ok cleaned]
  rfl

/-- Where it fails without one, there is nothing to report. -/
theorem respond_mute (works : l.responds = true) (mayReload : Bool) (o : LoadOutcome)
    (responds after : Bool) : ∃ t,
      respond line mayReload o responds (.failed none after) s = (.error .noMessage, t) := by
  obtain ⟨t, holds', asked⟩ := onState_holds holds fun l =>
    (l.responds, { l with stack := none :: none :: l.stack })
  obtain ⟨t, holds', called⟩ := onState_holds holds' fun l =>
    ((), (⟨none :: l.stack.tail, after⟩ : LuaState))
  obtain ⟨t, read⟩ := errorText_none holds' rfl
  refine ⟨t, ?_⟩
  simp only [respond, query_bind, if_neg other, holds.pointer]
  rw [bind_ok asked, works, if_neg (by simp), bind_ok called, bind_apply, read]

end

/-! ### The bot's view -/

/-- What the bot is told of loading. A failure without a text is like a directory that cannot be
read: the null pointer taken for a text ends the process. -/
def seen : LoadOutcome → ScriptsOutcome
  | .ran _ => .ran
  | .failed _ (some err) => .failed err
  | .failed _ none => .unreadable
  | .unreadable => .unreadable

/-- `ReloadLua` of the bot does what the states of Lua make of it: it ends the process where a text
is missing, and otherwise returns the same and has scripts exactly where there is an open state. -/
theorem reloadLua_bot {s : Loader} (valid : Valid s) {b : Bot} {o : LoadOutcome}
    (same : b.world.reloads.head.1 = seen o) (responds : Bool) :
    match reloadLua o responds s with
    | (.ok (true, _), t) => b.reloadLua.1 = some (.ok ()) ∧ b.reloadLua.2.lua.isSome = true ∧
        t.L.isSome = true
    | (.ok (false, err), t) => (∃ text, err = some text ∧ b.reloadLua.1 = some (.error text)) ∧
        b.reloadLua.2.lua = none ∧ t.L = none
    | (.error fault, _) => fault = .noMessage ∧ b.reloadLua.1 = none := by
  obtain ⟨t, reload⟩ := reloadLua_eq valid o responds
  rw [reload, Bot.reloadLua, Bot.reloadLuaUnder, same]
  cases o with
  | unreadable =>
    obtain ⟨t', result⟩ := openLua_mute (o := .unreadable) id t responds
    rw [result]
    exact ⟨rfl, rfl⟩
  | ran values =>
    obtain ⟨t', h, holds, result⟩ := openLua_ran values t responds
    rw [result]
    exact ⟨rfl, rfl, by rw [holds.pointer]; rfl⟩
  | failed values err =>
    cases err with
    | none =>
      obtain ⟨t', result⟩ := openLua_mute (o := .failed values none) Bool.false_ne_true t responds
      rw [result]
      exact ⟨rfl, rfl⟩
    | some err =>
      obtain ⟨t', null, result⟩ := openLua_failed values err t responds
      rw [result]
      exact ⟨⟨err, rfl, rfl⟩, rfl, null⟩

end Loader
end MeepBot
