import MeepBot.Library.Effect
import MeepBot.Lua

/-!
# The stack of a `lua_State`

The functions of Lua's C interface that the bot calls, as the manual of Lua 5.1 describes them,
for tables without metatables. A running function has a stack of its own, whose last value has
the index -1; tables and functions are objects that the values on it point to. To use an index at
which there is no value is a fault here, as are the errors that no protected call catches.

`F` is the type of the functions written in C, and `H` the state they work on besides Lua's.
-/

namespace MeepBot

/-- What an identity stands for. -/
inductive LuaObject (F : Type) where
  | table (fields : LuaValue → LuaValue)
  /-- a function written in C -/
  | function (f : F)
  /-- a function of a script -/
  | closure
  /-- a thread or a piece of user data -/
  | other

/-- `lua_Number` as a text; the format is the platform's. -/
class NumberText where
  number2str : LuaNumber → Str

namespace LuaValue

/-- The string a value is taken for. -/
def asText [NumberText] : LuaValue → Option Str
  | string s => some s
  | number x => some (NumberText.number2str x)
  | _ => none

/-- The number a value is taken for. -/
def asNumber : LuaValue → Option LuaNumber
  | number x => some x
  | string s => LuaNumber.tonumber (cstr s)
  | _ => none

end LuaValue

/-- A `lua_State` as the running C function sees it. -/
structure LuaStack (F H : Type) where
  /-- The last value comes first. -/
  stack : List LuaValue
  objects : Nat → LuaObject F
  /-- The identity of the next object that is made. -/
  next : Nat
  host : H

/-- How C code on the stack goes wrong. -/
inductive LuaFault where
  /-- There is no value at the index, or a number is none of those a type has: nothing is known
  of what happens. -/
  | undefined
  /-- An assertion fails. -/
  | assertion
  | error (msg : Str)
  | signal (name : Str)
  deriving DecidableEq

/-- C code on a `lua_State`. -/
abbrev LuaC (F H α : Type) := Effect.Program (LuaStack F H) LuaFault α

namespace LuaStack

variable {F H : Type}

/-- `LUA_GLOBALSINDEX` -/
def globalsIndex : Int := -10002

/-- `LUA_REGISTRYINDEX` -/
def registryIndex : Int := -10000

/-- The identities of the tables behind these two. -/
def globalsTable : Nat := 0
def registryTable : Nat := 1

/-- The value at an index: a place counted from the bottom or from the top, or a table that is
not on the stack. -/
def value (s : LuaStack F H) (idx : Int) : Option LuaValue :=
  if idx = globalsIndex then some (.object globalsTable)
  else if idx = registryIndex then some (.object registryTable)
  else if idx < 0 then s.stack[(-idx).toNat - 1]?
  else if 0 < idx then s.stack.reverse[idx.toNat - 1]?
  else none

def push (s : LuaStack F H) (v : LuaValue) : LuaStack F H := { s with stack := v :: s.stack }

/-- The state with another table in the place of the object `id`. -/
def setTable (s : LuaStack F H) (id : Nat) (fields : LuaValue → LuaValue) : LuaStack F H :=
  { s with objects := Function.update s.objects id (.table fields) }

/-- The state with one more object. -/
def alloc (s : LuaStack F H) (o : LuaObject F) : LuaStack F H :=
  { s with objects := Function.update s.objects s.next o, next := s.next + 1 }

theorem objects_setTable_self (s : LuaStack F H) (id : Nat) (fields : LuaValue → LuaValue) :
    (s.setTable id fields).objects id = .table fields := Function.update_self id _ s.objects

theorem objects_setTable_of_ne (s : LuaStack F H) {id j : Nat} (apart : j ≠ id)
    (fields : LuaValue → LuaValue) : (s.setTable id fields).objects j = s.objects j :=
  Function.update_of_ne apart _ s.objects

theorem setTable_setTable (s : LuaStack F H) (id : Nat) (fields fields' : LuaValue → LuaValue) :
    (s.setTable id fields).setTable id fields' = s.setTable id fields' :=
  congrArg (fun o => { s with objects := o }) (Function.update_idem _ _ s.objects)

theorem objects_alloc_self (s : LuaStack F H) (o : LuaObject F) :
    (s.alloc o).objects s.next = o := Function.update_self s.next _ s.objects

theorem objects_alloc_of_lt (s : LuaStack F H) {j : Nat} (old : j < s.next) (o : LuaObject F) :
    (s.alloc o).objects j = s.objects j := Function.update_of_ne (Nat.ne_of_lt old) _ s.objects

/-- The fields of an object, if it is a table. -/
def fields (s : LuaStack F H) (id : Nat) : Option (LuaValue → LuaValue) :=
  match s.objects id with
  | .table fields => some fields
  | _ => none

/-- The state with another value at a place counted from the top. -/
def write (s : LuaStack F H) (idx : Int) (v : LuaValue) : LuaStack F H :=
  { s with stack := s.stack.set ((-idx).toNat - 1) v }

/-- The table a value points to. -/
def tableOf (s : LuaStack F H) : LuaValue → Option (Nat × (LuaValue → LuaValue))
  | .object id => (s.fields id).map (id, ·)
  | _ => none

end LuaStack

namespace LuaC

open Effect LuaStack

variable {F H : Type}

/-! ### The stack -/

def getTop : LuaC F H Nat := query fun s => s.stack.length

/-- A number of values from the bottom on is left, with `nil` where there were fewer; or, for a
negative index, the last ones are taken away. -/
def setTop (idx : Int) : LuaC F H Unit := do
  let top ← getTop
  if 0 ≤ idx then
    change fun s =>
      { s with stack := List.replicate (idx.toNat - top) .nil ++ s.stack.drop (top - idx.toNat) }
  else if (-idx).toNat - 1 ≤ top then
    change fun s => { s with stack := s.stack.drop ((-idx).toNat - 1) }
  else throw .undefined

/-- A macro: `lua_settop( L, -(n)-1 )`. -/
def pop (n : Int) : LuaC F H Unit := setTop (-n - 1)

def at_ (idx : Int) : LuaC F H LuaValue := do
  match ← query fun s => s.value idx with
  | some v => pure v
  | none => throw .undefined

def push (v : LuaValue) : LuaC F H Unit := change fun s => s.push v

def pushNil : LuaC F H Unit := push .nil

def pushString (s : Str) : LuaC F H Unit := push (.string s)

def pushNumber (x : LuaNumber) : LuaC F H Unit := push (.number x)

def pushBoolean (b : Bool) : LuaC F H Unit := push (.boolean b)

/-- The last value, which is taken away. -/
def take : LuaC F H LuaValue := do
  let v ← at_ (-1)
  pop 1
  pure v

def assert (holds : Bool) : LuaC F H Unit := if holds then pure () else throw .assertion

/-! ### Values -/

def isNil (idx : Int) : LuaC F H Bool := do pure (decide ((← at_ idx) = .nil))

def isTable (idx : Int) : LuaC F H Bool := do
  let v ← at_ idx
  query fun s => (s.tableOf v).isSome

def toBoolean (idx : Int) : LuaC F H Bool := do pure (← at_ idx).truthy

/-- Whether the value is a number, or a string that reads as one. -/
def isNumber (idx : Int) : LuaC F H Bool := do pure (← at_ idx).asNumber.isSome

/-- A value that is not a number, nor reads as one, gives zero. -/
def toNumber (idx : Int) : LuaC F H LuaNumber := do pure ((← at_ idx).asNumber.getD (.ofNat 0))

section
variable [NumberText]

/-- Whether the value is a string or a number. -/
def isString (idx : Int) : LuaC F H Bool := do pure (← at_ idx).asText.isSome

/-- The value as a C string, or a null pointer; a number on the stack becomes a string there. -/
def luaToString (idx : Int) : LuaC F H (Option Str) := do
  let v ← at_ idx
  match v.asText with
  | some text => do
    change fun s => s.write idx (.string text)
    pure (some (cstr text))
  | none => pure none

end

/-! ### Tables -/

def newObject (o : LuaObject F) : LuaC F H Nat := act fun s => (s.next, s.alloc o)

def newTable : LuaC F H Unit := do push (.object (← newObject (.table fun _ => .nil)))

def pushCFunction (f : F) : LuaC F H Unit := do push (.object (← newObject (.function f)))

/-- A value that is not a table has no fields. -/
def table (v : LuaValue) : LuaC F H (Nat × (LuaValue → LuaValue)) := do
  match ← query fun s => s.tableOf v with
  | some t => pure t
  | none => throw (.error "attempt to index a value".toList)

def getField (idx : Int) (k : Str) : LuaC F H Unit := do
  let (_, fields) ← table (← at_ idx)
  push (fields (.string k))

/-- `t[key] = v`, where `key` and `v` are the last two values and are taken away. -/
def setTable (idx : Int) : LuaC F H Unit := do
  let t ← at_ idx
  let v ← take
  let key ← take
  let (id, fields) ← table t
  if key = .nil ∨ key = .number .nan then throw (.error "table index is nil or NaN".toList)
  else change fun s => s.setTable id (Function.update fields key v)

def setField (idx : Int) (k : Str) : LuaC F H Unit := do
  let t ← at_ idx
  let v ← take
  let (id, fields) ← table t
  change fun s => s.setTable id (Function.update fields (.string k) v)

def getGlobal (k : Str) : LuaC F H Unit := getField globalsIndex k

def setGlobal (k : Str) : LuaC F H Unit := setField globalsIndex k

/-! ### Libraries -/

/-- `_LOADED` of the registry: the libraries by name. -/
def loaded : Str := "_LOADED".toList

/-- The table of a library: the one that is loaded under the name, else the global one, else a new
one. -/
def library (libname : Str) : LuaC F H Nat := do
  let (_, registry) ← table (.object registryTable)
  let (l, known) ← table (registry (.string loaded))
  match ← query fun s => s.tableOf (known (.string libname)) with
  | some (id, _) => pure id
  | none => do
    let (_, globals) ← table (.object globalsTable)
    let id ← match ← query fun s => s.tableOf (globals (.string libname)) with
      | some (id, _) => pure id
      | none =>
        if globals (.string libname) = .nil then do
          let id ← newObject (.table fun _ => .nil)
          change fun s => s.setTable globalsTable
            (Function.update globals (.string libname) (.object id))
          pure id
        else throw (.error ("name conflict for module '".toList ++ libname ++ "'".toList))
    change fun s => s.setTable l (Function.update known (.string libname) (.object id))
    pure id

/-- The functions of a list become fields of the table on top. -/
def setFunctions : List (Str × F) → LuaC F H Unit
  | [] => pure ()
  | (name, f) :: rest => do
    pushCFunction f
    setField (-2) name
    setFunctions rest

/-- `luaL_register`; the table of the library is left on the stack. -/
def luaLRegister (libname : Str) (l : List (Str × F)) : LuaC F H Unit := do
  push (.object (← library libname))
  setFunctions l

/-! ### Calls -/

/-- A function written in C runs on a stack of its own, with the arguments on it. It returns how
many of the last values are its results. -/
def call (body : LuaC F H Nat) (args : List LuaValue) : LuaC F H (List LuaValue) := fun s =>
  match body { s with stack := args.reverse } with
  | (.ok n, s') => (.ok (s'.stack.take n).reverse, { s' with stack := s.stack })
  | (.error fault, s') => (.error fault, { s' with stack := s.stack })

/-! ### What the operations do -/

section
variable {vs : List LuaValue} {o : Nat → LuaObject F} {n : Nat} {h : H}

theorem value_last (v : LuaValue) :
    (⟨v :: vs, o, n, h⟩ : LuaStack F H).value (-1) = some v := rfl

theorem value_second (v w : LuaValue) :
    (⟨w :: v :: vs, o, n, h⟩ : LuaStack F H).value (-2) = some v := rfl

theorem value_third (v w x : LuaValue) :
    (⟨x :: w :: v :: vs, o, n, h⟩ : LuaStack F H).value (-3) = some v := rfl

theorem take_apply (v : LuaValue) :
    (take : LuaC F H LuaValue) ⟨v :: vs, o, n, h⟩ = (.ok v, ⟨vs, o, n, h⟩) := rfl

/-- To pop -1 values is to leave none. -/
theorem pop_all (s : LuaStack F H) : pop (-1) s = (.ok (), { s with stack := [] }) := by
  have resized : pop (-1) s = (.ok (), { s with
      stack := List.replicate (0 - s.stack.length) .nil ++ s.stack.drop (s.stack.length - 0) }) :=
    rfl
  rw [resized, Nat.zero_sub, Nat.sub_zero, List.drop_length]
  rfl

/-- To pop -2 values is to leave one. -/
theorem pop_to_one (v w : LuaValue) :
    (pop (-2) : LuaC F H Unit) ⟨[w, v], o, n, h⟩ = (.ok (), ⟨[v], o, n, h⟩) := rfl

end

theorem getTop_apply (s : LuaStack F H) : getTop s = (.ok s.stack.length, s) := rfl

theorem assertEmpty_apply {s : LuaStack F H} (empty : s.stack = []) :
    (do assert ((← getTop) = 0) : LuaC F H Unit) s = (.ok (), s) := by
  rw [bind_ok (getTop_apply s), empty]
  rfl

theorem assertEmpty_bind {α : Type} {s : LuaStack F H} (empty : s.stack = [])
    (rest : Unit → LuaC F H α) :
    (do let top ← getTop; let u ← assert (top = 0); rest u : LuaC F H α) s = rest () s := by
  rw [bind_ok (getTop_apply s), empty]
  rfl

theorem push_apply (v : LuaValue) (s : LuaStack F H) : push v s = (.ok (), s.push v) := rfl

theorem pushString_apply (k : Str) (s : LuaStack F H) :
    pushString k s = (.ok (), s.push (.string k)) := rfl

theorem pushNil_apply (s : LuaStack F H) : pushNil s = (.ok (), s.push .nil) := rfl

theorem pushCFunction_apply (f : F) (s : LuaStack F H) :
    pushCFunction f s = (.ok (), (s.alloc (.function f)).push (.object s.next)) := rfl

theorem newTable_apply (s : LuaStack F H) :
    newTable s = (.ok (), (s.alloc (.table fun _ => .nil)).push (.object s.next)) := rfl

section
variable {s : LuaStack F H} {idx : Int} {id : Nat} {fields : LuaValue → LuaValue}

theorem at_apply {v : LuaValue} (there : s.value idx = some v) : at_ idx s = (.ok v, s) := by
  rw [at_, query_bind, there]
  rfl

theorem isNil_apply {v : LuaValue} (there : s.value idx = some v) :
    isNil idx s = (.ok (decide (v = .nil)), s) := by
  rw [isNil, bind_ok (at_apply there)]
  rfl

theorem isTable_apply {v : LuaValue} (there : s.value idx = some v) :
    isTable idx s = (.ok (s.tableOf v).isSome, s) := by
  rw [isTable, bind_ok (at_apply there)]
  rfl

theorem assertNil_bind {α : Type} (there : s.value idx = some .nil) (rest : Unit → LuaC F H α) :
    (do let b ← isNil idx; let u ← assert b; rest u : LuaC F H α) s = rest () s := by
  rw [bind_ok (isNil_apply there)]
  rfl

theorem tableOf_table (object : s.objects id = .table fields) :
    s.tableOf (.object id) = some (id, fields) := by
  rw [tableOf, LuaStack.fields, object]
  rfl

theorem assertTable_bind {α : Type} (there : s.value idx = some (.object id))
    (object : s.objects id = .table fields) (rest : Unit → LuaC F H α) :
    (do let b ← isTable idx; let u ← assert b; rest u : LuaC F H α) s = rest () s := by
  rw [bind_ok (isTable_apply there), tableOf_table object]
  rfl

theorem of_tableOf {v : LuaValue} (found : s.tableOf v = some (id, fields)) :
    v = .object id ∧ s.objects id = .table fields := by
  cases v with
  | object j =>
    rw [tableOf, LuaStack.fields] at found
    cases object : s.objects j with
    | table known =>
      rw [object] at found
      cases found
      exact ⟨rfl, object⟩
    | function | closure | other =>
      rw [object] at found
      cases found
  | _ => cases found

theorem table_apply (object : s.objects id = .table fields) :
    table (.object id) s = (.ok (id, fields), s) := by
  rw [table, query_bind, tableOf_table object]
  rfl

theorem getField_apply (there : s.value idx = some (.object id))
    (object : s.objects id = .table fields) (k : Str) :
    getField idx k s = (.ok (), s.push (fields (.string k))) := by
  rw [getField, bind_ok (at_apply there), bind_ok (table_apply object)]
  rfl

theorem getGlobal_apply (object : s.objects globalsTable = .table fields) (k : Str) :
    getGlobal k s = (.ok (), s.push (fields (.string k))) :=
  getField_apply rfl object k

end

section
variable {vs : List LuaValue} {o : Nat → LuaObject F} {n : Nat} {h : H} {idx : Int} {id : Nat}
  {fields : LuaValue → LuaValue} {k : Str} {v : LuaValue}

theorem setTable_apply
    (there : (⟨v :: .string k :: vs, o, n, h⟩ : LuaStack F H).value idx = some (.object id))
    (object : o id = .table fields) :
    setTable idx ⟨v :: .string k :: vs, o, n, h⟩ = (.ok (),
      (⟨vs, o, n, h⟩ : LuaStack F H).setTable id (Function.update fields (.string k) v)) := by
  have key : ¬(LuaValue.string k = .nil ∨ LuaValue.string k = .number .nan) := by simp
  rw [setTable, bind_ok (at_apply there), bind_ok (take_apply v), bind_ok (take_apply _),
    bind_ok (table_apply object)]
  simp only [if_neg key]
  rfl

theorem setField_apply
    (there : (⟨v :: vs, o, n, h⟩ : LuaStack F H).value idx = some (.object id))
    (object : o id = .table fields) :
    setField idx k ⟨v :: vs, o, n, h⟩ = (.ok (),
      (⟨vs, o, n, h⟩ : LuaStack F H).setTable id (Function.update fields (.string k) v)) := by
  rw [setField, bind_ok (at_apply there), bind_ok (take_apply v), bind_ok (table_apply object)]
  rfl

end

end LuaC
end MeepBot
