import MeepBot.Natives

/-!
# Registration

What `Register` makes of a `lua_State`.

* `register_builds`: on a fresh one its assertions hold, and it leaves the tables the scripts use.
* `register_iff`: it can be done once only.

The state is followed through `Sees`, what the globals and the loaded libraries are, `Extends`, what
objects stay as they are, and `Provides`, what is in a table.
-/

namespace MeepBot
namespace Properties

open Effect LuaC LuaStack Natives

variable {F H : Type}

/-! ### Reading a state -/

/-- The two tables that `luaL_register` looks names up in: the globals `g`, and the libraries `d`,
which is the object `l`. -/
structure Sees (s : LuaStack F H) (l : Nat) (g d : LuaValue → LuaValue) : Prop where
  globals : s.objects globalsTable = .table g
  registry : ∃ r, s.objects registryTable = .table r ∧ r (.string loaded) = .object l
  libraries : s.objects l = .table d
  apart : l ≠ globalsTable ∧ l ≠ registryTable
  old : globalsTable < s.next ∧ registryTable < s.next ∧ l < s.next

/-- A later state: the objects are the same, but for those that are `touched`. -/
structure Extends (touched : Nat → Prop) (s s' : LuaStack F H) : Prop where
  host : s'.host = s.host
  next : s.next ≤ s'.next
  others : ∀ id < s.next, ¬touched id → s'.objects id = s.objects id

theorem Extends.trans {touched : Nat → Prop} {s s' s'' : LuaStack F H}
    (first : Extends touched s s') (second : Extends touched s' s'') : Extends touched s s'' where
  host := second.host.trans first.host
  next := first.next.trans second.next
  others id old spared :=
    (second.others id (old.trans_le first.next) spared).trans (first.others id old spared)

theorem Extends.mono {touched touched' : Nat → Prop} {s s' : LuaStack F H}
    (extends_ : Extends touched s s') (more : ∀ id < s.next, touched id → touched' id) :
    Extends touched' s s' where
  host := extends_.host
  next := extends_.next
  others id old spared := extends_.others id old fun here => spared (more id old here)

theorem Extends.of_same {touched : Nat → Prop} {s s' : LuaStack F H}
    (objects : s'.objects = s.objects) (next : s'.next = s.next) (host : s'.host = s.host) :
    Extends touched s s' :=
  ⟨host, next.ge, fun _ _ _ => by rw [objects]⟩

theorem Sees.keep {touched : Nat → Prop} {s s' : LuaStack F H} {l : Nat} {g d : LuaValue → LuaValue}
    (sees : Sees s l g d) (extends_ : Extends touched s s') (spared : ¬touched globalsTable)
    (spared' : ¬touched registryTable) (spared'' : ¬touched l) : Sees s' l g d := by
  obtain ⟨old_globals, old_registry, old_l⟩ := sees.old
  obtain ⟨r, registry, place⟩ := sees.registry
  have grown := extends_.next
  refine ⟨?_, ⟨r, ?_, place⟩, ?_, sees.apart, by omega, by omega, by omega⟩
  · rw [extends_.others _ old_globals spared, sees.globals]
  · rw [extends_.others _ old_registry spared', registry]
  · rw [extends_.others _ old_l spared'', sees.libraries]

theorem Sees.stack {s : LuaStack F H} {l : Nat} {g d : LuaValue → LuaValue} (sees : Sees s l g d)
    (vs : List LuaValue) : Sees { s with stack := vs } l g d :=
  ⟨sees.globals, sees.registry, sees.libraries, sees.apart, sees.old⟩

/-- Other globals. -/
theorem Sees.assign {s : LuaStack F H} {l : Nat} {g d : LuaValue → LuaValue} (sees : Sees s l g d)
    (g' : LuaValue → LuaValue) : Sees (s.setTable globalsTable g') l g' d := by
  obtain ⟨r, registry, place⟩ := sees.registry
  refine ⟨objects_setTable_self _ _ _, ⟨r, ?_, place⟩, ?_, sees.apart, sees.old⟩
  · rw [objects_setTable_of_ne _ (by decide), registry]
  · rw [objects_setTable_of_ne _ sees.apart.1, sees.libraries]

theorem Extends.assign (s : LuaStack F H) (g : LuaValue → LuaValue) :
    Extends (· = globalsTable) s (s.setTable globalsTable g) :=
  ⟨rfl, le_refl _, fun _ _ spared => objects_setTable_of_ne s spared _⟩

/-- The object is a table with these functions and these tables in it, and nothing else. -/
structure Provides (s : LuaStack F H) (id : Nat) (funcs : List (Str × F))
    (tables : List (Str × Nat)) (fields : LuaValue → LuaValue) : Prop where
  object : s.objects id = .table fields
  old : id < s.next
  function : ∀ p ∈ funcs, ∃ c < s.next, fields (.string p.1) = .object c ∧
    s.objects c = .function p.2
  table : ∀ p ∈ tables, fields (.string p.1) = .object p.2
  nothing : ∀ key, (∀ name ∈ funcs.map Prod.fst ++ tables.map Prod.fst, key ≠ .string name) →
    fields key = .nil

theorem Provides.stack {s : LuaStack F H} {id : Nat} {funcs : List (Str × F)}
    {tables : List (Str × Nat)} {fields : LuaValue → LuaValue}
    (provides : Provides s id funcs tables fields) (vs : List LuaValue) :
    Provides { s with stack := vs } id funcs tables fields :=
  ⟨provides.object, provides.old, provides.function, provides.table, provides.nothing⟩

/-- Where only tables are touched, functions stay what they are. -/
theorem Extends.function {touched : Nat → Prop} {s s' : LuaStack F H}
    (extends_ : Extends touched s s') (tables : ∀ j, touched j → ∃ f, s.objects j = .table f)
    {c : Nat} (old : c < s.next) {f : F} (function : s.objects c = .function f) :
    s'.objects c = .function f := by
  rw [extends_.others c old, function]
  intro here
  obtain ⟨fields, table⟩ := tables c here
  rw [function] at table
  cases table

theorem Provides.keep {touched : Nat → Prop} {s s' : LuaStack F H} {id : Nat}
    {funcs : List (Str × F)} {tables : List (Str × Nat)} {fields : LuaValue → LuaValue}
    (provides : Provides s id funcs tables fields) (extends_ : Extends touched s s')
    (others : ∀ j, touched j → ∃ f, s.objects j = .table f) (spared : ¬touched id) :
    Provides s' id funcs tables fields := by
  refine ⟨?_, provides.old.trans_le extends_.next, ?_, provides.table, provides.nothing⟩
  · rw [extends_.others id provides.old spared, provides.object]
  · intro p member
    obtain ⟨c, old, field, function⟩ := provides.function p member
    exact ⟨c, old.trans_le extends_.next, field, extends_.function others old function⟩

/-- One more table, under a name that nothing has. -/
theorem Provides.add {touched : Nat → Prop} {s s' : LuaStack F H} {id t : Nat} {name : Str}
    {funcs : List (Str × F)} {tables : List (Str × Nat)} {fields : LuaValue → LuaValue}
    (provides : Provides s id funcs tables fields) (extends_ : Extends touched s s')
    (others : ∀ j, touched j → ∃ f, s.objects j = .table f)
    (new : ∀ other ∈ funcs.map Prod.fst ++ tables.map Prod.fst, name ≠ other)
    (object : s'.objects id = .table (Function.update fields (.string name) (.object t))) :
    Provides s' id funcs (tables ++ [(name, t)])
      (Function.update fields (.string name) (.object t)) := by
  have unnamed (key : LuaValue) (other : key ≠ .string name) :
      Function.update fields (.string name) (.object t) key = fields key :=
    Function.update_of_ne other _ _
  have apart {other : Str} (member : other ∈ funcs.map Prod.fst ++ tables.map Prod.fst) :
      LuaValue.string other ≠ .string name := fun same => new other member (by cases same; rfl)
  refine ⟨object, provides.old.trans_le extends_.next, ?_, ?_, ?_⟩
  · intro p member
    obtain ⟨c, old, field, function⟩ := provides.function p member
    refine ⟨c, old.trans_le extends_.next, ?_, extends_.function others old function⟩
    rw [unnamed _ (apart (List.mem_append_left _ (List.mem_map_of_mem member))), field]
  · intro p member
    rcases List.mem_append.mp member with member | last
    · rw [unnamed _ (apart (List.mem_append_right _ (List.mem_map_of_mem member))),
        provides.table p member]
    · obtain rfl := List.mem_singleton.mp last
      exact Function.update_self _ _ _
  · intro key others
    rw [List.map_append, ← List.append_assoc] at others
    rw [unnamed key (others name (by simp))]
    exact provides.nothing key fun known member => others known (List.mem_append_left _ member)

/-! ### A list of functions -/

/-- The functions are put into the table on top, each as an object of its own. -/
theorem setFunctions_spec {vs : List LuaValue} {id : Nat} {fields : LuaValue → LuaValue}
    (l : List (Str × F)) (distinct : (l.map Prod.fst).Nodup) (s : LuaStack F H)
    (top : s.stack = .object id :: vs) (object : s.objects id = .table fields)
    (old : id < s.next) :
    ∃ s' fields', setFunctions l s = (.ok (), s') ∧ s'.stack = s.stack ∧
      Extends (· = id) s s' ∧ s'.objects id = .table fields' ∧
      (∀ p ∈ l, ∃ c < s'.next, s.next ≤ c ∧ fields' (.string p.1) = .object c ∧
        s'.objects c = .function p.2) ∧
      ∀ key, (∀ name ∈ l.map Prod.fst, key ≠ .string name) → fields' key = fields key := by
  induction l generalizing s fields with
  | nil =>
    exact ⟨s, fields, rfl, rfl, ⟨rfl, le_refl _, fun _ _ _ => rfl⟩, object,
      fun p none => absurd none List.not_mem_nil, fun _ _ => rfl⟩
  | cons p l ih =>
    obtain ⟨name, f⟩ := p
    obtain ⟨new, distinct⟩ := List.nodup_cons.mp distinct
    obtain ⟨stack, o, n, h⟩ := s
    obtain rfl : stack = _ := top
    have apart : id ≠ n := Nat.ne_of_lt old
    -- the object `n` is the function; its field comes next
    let made : LuaStack F H := ⟨.object id :: vs, Function.update o n (.function f), n + 1, h⟩
    have kept : made.objects id = .table fields := (Function.update_of_ne apart _ _).trans object
    let t := made.setTable id (Function.update fields (.string name) (.object n))
    have step : setFunctions ((name, f) :: l) ⟨.object id :: vs, o, n, h⟩ = setFunctions l t := by
      rw [setFunctions, bind_ok (pushCFunction_apply _ _)]
      exact bind_ok (setField_apply rfl kept)
    have function : t.objects n = .function f := by
      rw [show t.objects n = made.objects n from Function.update_of_ne apart.symm _ _]
      exact Function.update_self n _ o
    obtain ⟨s', fields', runs, stack, grown, table, functions, others⟩ :=
      ih distinct t rfl (Function.update_self id _ _) (Nat.lt_succ_of_lt old)
    refine ⟨s', fields', step.trans runs, stack, ⟨grown.host, Nat.le_of_succ_le grown.next, ?_⟩,
      table, ?_, ?_⟩
    · intro j below spared
      rw [grown.others j (Nat.lt_succ_of_lt below) spared]
      refine (Function.update_of_ne spared _ _).trans ?_
      exact Function.update_of_ne (Nat.ne_of_lt below) _ _
    · intro p member
      rcases List.mem_cons.mp member with rfl | member
      · refine ⟨n, grown.next, le_refl n, ?_, ?_⟩
        · rw [others _ fun other there same => new (by cases same; exact there)]
          exact Function.update_self _ _ _
        · rw [grown.others n (Nat.lt_succ_self n) apart.symm, function]
      · obtain ⟨c, below, above, field, object⟩ := functions p member
        exact ⟨c, below, Nat.le_of_succ_le above, field, object⟩
    · intro key unnamed
      rw [others key fun other there => unnamed other (List.mem_cons_of_mem _ there)]
      exact Function.update_of_ne (unnamed name List.mem_cons_self) _ _

/-! ### `luaL_register` -/

/-- What `library` does where no library is loaded under the name: it makes one if the name is
free. -/
theorem library_new {s : LuaStack F H} {l : Nat} {g d : LuaValue → LuaValue} {name : Str}
    (sees : Sees s l g d) (unknown : s.tableOf (d (.string name)) = none)
    (free : g (.string name) = .nil) :
    ∃ s', library name s = (.ok s.next, s') ∧ s'.stack = s.stack ∧
      Sees s' l (Function.update g (.string name) (.object s.next))
        (Function.update d (.string name) (.object s.next)) ∧
      Extends (fun id => id = globalsTable ∨ id = l) s s' ∧ s.next < s'.next ∧
      s'.objects s.next = .table fun _ => .nil := by
  obtain ⟨r, registry, place⟩ := sees.registry
  obtain ⟨ne_globals, ne_registry⟩ := sees.apart
  obtain ⟨old_globals, old_registry, old_l⟩ := sees.old
  let s' := ((s.alloc (.table fun _ => .nil)).setTable globalsTable
    (Function.update g (.string name) (.object s.next))).setTable l
    (Function.update d (.string name) (.object s.next))
  have runs : library name s = (.ok s.next, s') := by
    rw [library, bind_ok (table_apply registry)]
    simp only [place]
    rw [bind_ok (table_apply sees.libraries)]
    simp only [query_bind, unknown]
    rw [bind_ok (table_apply sees.globals)]
    simp only [query_bind, free, if_true]
    rfl
  have others (id : Nat) (below : id < s.next) (not_globals : id ≠ globalsTable) (not_l : id ≠ l) :
      s'.objects id = s.objects id := by
    rw [objects_setTable_of_ne _ not_l, objects_setTable_of_ne _ not_globals,
      objects_alloc_of_lt _ below]
  refine ⟨s', runs, rfl, ?_, ?_, Nat.lt_succ_self _, ?_⟩
  · refine ⟨?_, ⟨r, ?_, place⟩, objects_setTable_self _ _ _, sees.apart, ?_⟩
    · rw [objects_setTable_of_ne _ ne_globals.symm, objects_setTable_self]
    · rw [others _ old_registry (by decide) ne_registry.symm, registry]
    · exact ⟨Nat.lt_succ_of_lt old_globals, Nat.lt_succ_of_lt old_registry, Nat.lt_succ_of_lt old_l⟩
  · refine ⟨rfl, Nat.le_succ _, fun id below spared => ?_⟩
    exact others id below (fun here => spared (.inl here)) fun here => spared (.inr here)
  · rw [objects_setTable_of_ne _ (Nat.ne_of_gt old_l),
      objects_setTable_of_ne _ (Nat.ne_of_gt old_globals), objects_alloc_self]

/-- `luaL_register` where no library is loaded under the name, and the name is free. -/
theorem luaLRegister_new {s : LuaStack F H} {l : Nat} {g d : LuaValue → LuaValue} {name : Str}
    {funcs : List (Str × F)} (distinct : (funcs.map Prod.fst).Nodup) (sees : Sees s l g d)
    (unknown : s.tableOf (d (.string name)) = none) (free : g (.string name) = .nil) :
    ∃ s' fields, luaLRegister name funcs s = (.ok (), s') ∧
      s'.stack = .object s.next :: s.stack ∧
      Sees s' l (Function.update g (.string name) (.object s.next))
        (Function.update d (.string name) (.object s.next)) ∧
      Extends (fun id => id = globalsTable ∨ id = l) s s' ∧
      Provides s' s.next funcs [] fields := by
  obtain ⟨made, found, stack, sees', grown, below, object⟩ := library_new sees unknown free
  obtain ⟨old_globals, old_registry, old_l⟩ := sees.old
  obtain ⟨s', fields, runs, stack', filled, table, functions, others⟩ :=
    setFunctions_spec funcs distinct (made.push (.object s.next)) rfl object below
  have pushed : Extends (· = s.next) made (made.push (.object s.next)) := .of_same rfl rfl rfl
  have kept := pushed.trans filled
  refine ⟨s', fields, ?_, ?_, ?_, ?_, ?_⟩
  · rw [luaLRegister, bind_ok found]
    exact runs
  · rw [stack', ← stack]
    rfl
  · exact sees'.keep kept (Nat.ne_of_lt old_globals) (Nat.ne_of_lt old_registry)
      (Nat.ne_of_lt old_l)
  · refine ⟨kept.host.trans grown.host, grown.next.trans kept.next, fun id old spared => ?_⟩
    rw [kept.others id (old.trans below) (Nat.ne_of_lt old), grown.others id old spared]
  · refine ⟨table, below.trans_le kept.next, ?_, fun p none => absurd none List.not_mem_nil, ?_⟩
    · intro p member
      obtain ⟨c, inside, -, field, function⟩ := functions p member
      exact ⟨c, inside, field, function⟩
    · intro key unnamed
      exact others key fun name member => unnamed name (List.mem_append_left _ member)

/-- Where a library is loaded under the name, `library` finds it, and the global stays as it is. -/
theorem library_found {s : LuaStack F H} {l id : Nat} {g d fields : LuaValue → LuaValue}
    {name : Str} (sees : Sees s l g d) (known : s.tableOf (d (.string name)) = some (id, fields)) :
    library name s = (.ok id, s) := by
  obtain ⟨r, registry, place⟩ := sees.registry
  rw [library, bind_ok (table_apply registry)]
  simp only [place]
  rw [bind_ok (table_apply sees.libraries)]
  simp only [query_bind, known]
  rfl

/-! ### `RegisterTable` -/

/-- Between two calls of `RegisterTable`: `MeepBot` is a global table with its functions and some
tables. -/
structure Ready (s : LuaStack CFunction H) (l : Nat) (g d : LuaValue → LuaValue) (m : Nat)
    (tables : List (Str × Nat)) (fields : LuaValue → LuaValue) : Prop where
  empty : s.stack = []
  sees : Sees s l g d
  here : g (.string meepBot) = .object m
  provides : Provides s m botFuncs tables fields
  apart : m ≠ globalsTable ∧ m ≠ registryTable ∧ m ≠ l

/-- The tables that registering one more may change. -/
def Touched (l m id : Nat) : Prop := id = globalsTable ∨ id = l ∨ id = m

theorem Ready.touched {s : LuaStack CFunction H} {l m : Nat} {g d fields : LuaValue → LuaValue}
    {tables : List (Str × Nat)} (ready : Ready s l g d m tables fields) (j : Nat)
    (touched : Touched l m j) : ∃ f, s.objects j = .table f := by
  rcases touched with rfl | rfl | rfl
  · exact ⟨_, ready.sees.globals⟩
  · exact ⟨_, ready.sees.libraries⟩
  · exact ⟨_, ready.provides.object⟩

theorem expectFree_apply {s : LuaStack CFunction H} {l m : Nat} {g d fields : LuaValue → LuaValue}
    {tables : List (Str × Nat)} (ready : Ready s l g d m tables fields) {name : Str}
    (new : fields (.string name) = .nil) :
    expectFree name s = (.ok (), { s with stack := [.object m] }) := by
  obtain ⟨stack, o, n, h⟩ := s
  obtain rfl : stack = [] := ready.empty
  have object : o m = .table fields := ready.provides.object
  have global : getGlobal meepBot ⟨[], o, n, h⟩ = (.ok (), ⟨[.object m], o, n, h⟩) := by
    rw [getGlobal_apply ready.sees.globals, ready.here]
    rfl
  have field : getField (-1) name ⟨[.object m], o, n, h⟩ =
      (.ok (), ⟨[.nil, .object m], o, n, h⟩) := by
    rw [getField_apply rfl object, new]
    rfl
  rw [expectFree, assertEmpty_bind rfl, bind_ok global, assertTable_bind rfl object, bind_ok field,
    assertNil_bind rfl]
  exact pop_to_one _ _

theorem setKeyNil_apply {s : LuaStack CFunction H} {g : LuaValue → LuaValue}
    (globals : s.objects globalsTable = .table g) (name : Str) :
    setKeyNil name globalsIndex s =
      (.ok (), s.setTable globalsTable (Function.update g (.string name) .nil)) := by
  rw [setKeyNil, bind_ok (pushString_apply _ _), bind_ok (pushNil_apply _)]
  exact setTable_apply rfl globals

/-- The new table has the identity that was free, and is a global. -/
theorem makeGlobal_spec {s : LuaStack CFunction H} {l : Nat} {g d : LuaValue → LuaValue}
    (sees : Sees s l g d) {name : Str} (free : g (.string name) = .nil)
    (unknown : d (.string name) = .nil) {reg : Option (List (Str × CFunction))}
    (distinct : ((reg.getD []).map Prod.fst).Nodup) :
    ∃ s' d' fields, makeGlobal name reg s = (.ok (), s') ∧
      Sees s' l (Function.update g (.string name) (.object s.next)) d' ∧
      (∀ key, key ≠ .string name → d' key = d key) ∧
      Extends (fun id => id = globalsTable ∨ id = l) s s' ∧
      Provides s' s.next (reg.getD []) [] fields := by
  cases reg with
  | none =>
    obtain ⟨old_globals, old_registry, old_l⟩ := sees.old
    let made := s.alloc (.table fun _ => .nil)
    have grown : Extends (fun _ => False) s made :=
      ⟨rfl, Nat.le_succ _, fun id old _ => objects_alloc_of_lt s old _⟩
    have sees' := sees.keep grown not_false not_false not_false
    refine ⟨made.setTable globalsTable (Function.update g (.string name) (.object s.next)), d,
      fun _ => .nil, ?_, sees'.assign _, fun _ _ => rfl, ?_, ?_⟩
    · rw [makeGlobal, bind_ok (pushString_apply _ _), bind_ok (newTable_apply _)]
      exact setTable_apply rfl sees'.globals
    · refine ⟨rfl, Nat.le_succ _, fun id old spared => ?_⟩
      rw [objects_setTable_of_ne _ fun here => spared (.inl here), objects_alloc_of_lt _ old]
    · refine ⟨?_, Nat.lt_succ_self _, fun p none => absurd none List.not_mem_nil,
        fun p none => absurd none List.not_mem_nil, fun _ _ => rfl⟩
      rw [objects_setTable_of_ne _ (Nat.ne_of_gt old_globals), objects_alloc_self]
  | some funcs =>
    obtain ⟨made, fields, runs, stack, sees', grown, provides⟩ :=
      luaLRegister_new distinct sees (by rw [unknown]; rfl) free
    change luaLRegister name funcs s = _ at runs
    refine ⟨{ made with stack := [] }, _, fields, ?_, sees'.stack [], ?_,
      ⟨grown.host, grown.next, grown.others⟩, provides.stack []⟩
    · rw [makeGlobal, bind_ok runs, bind_ok (pop_all made)]
      exact assertEmpty_apply rfl
    · intro key other
      exact Function.update_of_ne other _ _

/-- The global is moved into `MeepBot`. -/
theorem moveGlobal_apply {s : LuaStack CFunction H} {l m : Nat} {g d fields : LuaValue → LuaValue}
    (sees : Sees s l g d) (here : g (.string meepBot) = .object m)
    (object : s.objects m = .table fields) (apart : m ≠ globalsTable) (name : Str) :
    moveGlobal name s = (.ok (),
      (({ s with stack := [] }).setTable m
        (Function.update fields (.string name) (g (.string name)))).setTable globalsTable
          (Function.update g (.string name) .nil)) := by
  let moved := s.setTable m (Function.update fields (.string name) (g (.string name)))
  have global : getGlobal name ((s.push (.object m)).push (.string name)) =
      (.ok (), ((s.push (.object m)).push (.string name)).push (g (.string name))) :=
    getGlobal_apply (sees.stack _).globals name
  have assigned : LuaC.setTable (-3)
      (((s.push (.object m)).push (.string name)).push (g (.string name))) =
      (.ok (), moved.push (.object m)) :=
    setTable_apply (value_third _ _ _) object
  have globals : ({ moved with stack := [] } : LuaStack CFunction H).objects globalsTable =
      .table g := (objects_setTable_of_ne s apart.symm _).trans sees.globals
  rw [moveGlobal, bind_ok (getGlobal_apply sees.globals _), here, bind_ok (pushString_apply _ _),
    bind_ok global, bind_ok assigned, bind_ok (pop_all _)]
  exact (bind_ok (setKeyNil_apply globals name)).trans (assertEmpty_apply rfl)

/-- `RegisterTable` puts one more table into `MeepBot`, and leaves the globals as they are. -/
theorem registerTable_spec {s : LuaStack CFunction H} {l m : Nat} {g d fields : LuaValue → LuaValue}
    {tables : List (Str × Nat)} (ready : Ready s l g d m tables fields) {name : Str}
    (new : ∀ other ∈ botFuncs.map Prod.fst ++ tables.map Prod.fst, name ≠ other)
    (named : name ≠ meepBot) (free : g (.string name) = .nil) (unknown : d (.string name) = .nil)
    {reg : Option (List (Str × CFunction))} (distinct : ((reg.getD []).map Prod.fst).Nodup) :
    ∃ s' d' fields', registerTable name reg s = (.ok (), s') ∧
      Ready s' l g d' m (tables ++ [(name, s.next)])
        (Function.update fields (.string name) (.object s.next)) ∧
      (∀ key, key ≠ .string name → d' key = d key) ∧ Extends (Touched l m) s s' ∧
      Provides s' s.next (reg.getD []) [] fields' := by
  obtain ⟨ne_globals, ne_registry, ne_l⟩ := ready.apart
  obtain ⟨old_globals, old_registry, old_l⟩ := ready.sees.old
  have missing : fields (.string name) = .nil :=
    ready.provides.nothing _ fun other member same => new other member (by cases same; rfl)
  have expected := expectFree_apply ready missing
  obtain ⟨made, d', fields', makes, sees, same, grown, provides⟩ :=
    makeGlobal_spec (ready.sees.stack [.object m]) free unknown distinct
  let g' := Function.update g (.string name) (.object s.next)
  replace sees : Sees made l g' d' := sees
  have here : g' (.string meepBot) = .object m := by
    rw [← ready.here]
    exact Function.update_of_ne (fun same => named (by cases same; rfl)) _ _
  have object : made.objects m = .table fields := by
    rw [grown.others m ready.provides.old (not_or.mpr ⟨ne_globals, ne_l⟩)]
    exact ready.provides.object
  have moves := moveGlobal_apply sees here object ne_globals name
  have moved : g' (.string name) = .object s.next := Function.update_self _ _ _
  have cleared : Function.update g' (.string name) .nil = g := by
    rw [Function.update_idem, ← free, Function.update_eq_self]
  rw [moved, cleared] at moves
  let filled := ({ made with stack := [] } : LuaStack CFunction H).setTable m
    (Function.update fields (.string name) (.object s.next))
  let s' := filled.setTable globalsTable g
  have later : Extends (fun id => id = globalsTable ∨ id = m) made s' := by
    refine ⟨rfl, le_refl _, fun id _ spared => ?_⟩
    rw [objects_setTable_of_ne _ fun here => spared (.inl here),
      objects_setTable_of_ne _ fun here => spared (.inr here)]
  have ends : Extends (Touched l m) s s' := by
    refine ⟨later.host.trans grown.host, grown.next.trans later.next, fun id old spared => ?_⟩
    obtain ⟨not_globals, not_rest⟩ := not_or.mp spared
    obtain ⟨not_l, not_m⟩ := not_or.mp not_rest
    rw [later.others id (old.trans_le grown.next) (not_or.mpr ⟨not_globals, not_m⟩)]
    exact grown.others id old (not_or.mpr ⟨not_globals, not_l⟩)
  refine ⟨s', d', fields', ?_, ⟨rfl, ?_, ready.here, ?_, ready.apart⟩, same, ends, ?_⟩
  · rw [registerTable, bind_ok expected, bind_ok makes]
    exact moves
  · have into : Extends (· = m) made filled :=
      ⟨rfl, le_refl _, fun id _ spared => objects_setTable_of_ne _ spared _⟩
    exact (sees.keep into ne_globals.symm ne_registry.symm ne_l.symm).assign g
  · refine ready.provides.add ends ready.touched new ?_
    exact (objects_setTable_of_ne _ ne_globals _).trans (objects_setTable_self _ _ _)
  · refine provides.keep later ?_ ?_
    · rintro j (rfl | rfl)
      · exact ⟨_, sees.globals⟩
      · exact ⟨_, object⟩
    · exact not_or.mpr ⟨Nat.ne_of_gt old_globals, Nat.ne_of_gt ready.provides.old⟩

/-- The names under which tables can be registered, with distinct functions in them. -/
structure Registrable (g d : LuaValue → LuaValue) (tables : List (Str × Nat))
    (regs : List (Str × Option (List (Str × CFunction)))) : Prop where
  distinct : (regs.map Prod.fst).Nodup
  new : ∀ p ∈ regs, ∀ other ∈ botFuncs.map Prod.fst ++ tables.map Prod.fst, p.1 ≠ other
  named : ∀ p ∈ regs, p.1 ≠ meepBot
  free : ∀ p ∈ regs, g (.string p.1) = .nil
  unknown : ∀ p ∈ regs, d (.string p.1) = .nil
  functions : ∀ p ∈ regs, ((p.2.getD []).map Prod.fst).Nodup

/-- Table by table, `MeepBot` gets all of them. -/
theorem registerTables_spec {l m : Nat} {g : LuaValue → LuaValue}
    (regs : List (Str × Option (List (Str × CFunction)))) {s : LuaStack CFunction H}
    {d fields : LuaValue → LuaValue} {tables : List (Str × Nat)}
    (ready : Ready s l g d m tables fields) (can : Registrable g d tables regs) :
    ∃ s' d' fields' more, registerTables regs s = (.ok (), s') ∧
      Ready s' l g d' m (tables ++ more) fields' ∧ Extends (Touched l m) s s' ∧
      (∀ key, (∀ p ∈ regs, key ≠ .string p.1) → d' key = d key) ∧
      List.Forall₂ (fun p q => q.1 = p.1 ∧ s.next ≤ q.2 ∧
        ∃ fields, Provides s' q.2 (p.2.getD []) [] fields) regs more := by
  induction regs generalizing s d fields tables with
  | nil =>
    refine ⟨s, d, fields, [], rfl, ?_, .of_same rfl rfl rfl, fun _ _ => rfl, .nil⟩
    rw [List.append_nil]
    exact ready
  | cons p regs ih =>
    obtain ⟨name, reg⟩ := p
    have first : (name, reg) ∈ (name, reg) :: regs := List.mem_cons_self
    have later {q : Str × Option (List (Str × CFunction))} (member : q ∈ regs) :
        q ∈ (name, reg) :: regs := List.mem_cons_of_mem _ member
    obtain ⟨apart, distinct⟩ := List.nodup_cons.mp can.distinct
    obtain ⟨made, d', fields', runs, ready', same, grown, provides⟩ :=
      registerTable_spec ready (can.new _ first) (can.named _ first) (can.free _ first)
        (can.unknown _ first) (can.functions _ first)
    have differ {q : Str × Option (List (Str × CFunction))} (member : q ∈ regs) : q.1 ≠ name := by
      intro same
      have known : q.1 ∈ regs.map Prod.fst := List.mem_map_of_mem member
      rw [same] at known
      exact apart known
    have rest : Registrable g d' (tables ++ [(name, s.next)]) regs := by
      refine ⟨distinct, ?_, fun q member => can.named q (later member),
        fun q member => can.free q (later member), ?_,
        fun q member => can.functions q (later member)⟩
      · intro q member other known
        rw [List.map_append, ← List.append_assoc] at known
        rcases List.mem_append.mp known with known | last
        · exact can.new q (later member) other known
        · rw [List.mem_singleton.mp last]
          exact differ member
      · intro q member
        rw [same _ fun here => differ member (by cases here; rfl), can.unknown q (later member)]
    obtain ⟨s', d'', fields'', more, runs', ready'', grown', same', provided⟩ := ih ready' rest
    have kept : Provides s' s.next (reg.getD []) [] fields' := by
      refine provides.keep grown' ready'.touched ?_
      rintro (here | here | here)
      · exact Nat.ne_of_gt ready.sees.old.1 here
      · exact Nat.ne_of_gt ready.sees.old.2.2 here
      · exact Nat.ne_of_gt ready.provides.old here
    refine ⟨s', d'', fields'', (name, s.next) :: more, ?_, ?_, grown.trans grown', ?_, ?_⟩
    · rw [registerTables, bind_ok runs]
      exact runs'
    · rw [List.append_cons]
      exact ready''
    · intro key others
      rw [same' key fun q member => others q (later member), same key (others _ first)]
    · refine .cons ⟨rfl, le_refl _, fields', kept⟩ (provided.imp ?_)
      rintro q r ⟨name, above, provides⟩
      exact ⟨name, grown.next.trans above, provides⟩

/-! ### `Register` -/

/-- The globals after a list of constants. -/
def withEnum (g : LuaValue → LuaValue) (l : List (Str × LuaValue)) : LuaValue → LuaValue :=
  l.foldl (fun g p => Function.update g (.string p.1) p.2) g

theorem registerGlobalEnum_spec {l : Nat} {d : LuaValue → LuaValue}
    (constants : List (Str × LuaValue)) {s : LuaStack CFunction H} {g : LuaValue → LuaValue}
    (sees : Sees s l g d) :
    ∃ s', registerGlobalEnum constants s = (.ok (), s') ∧ s'.stack = s.stack ∧
      Sees s' l (withEnum g constants) d ∧ Extends (· = globalsTable) s s' := by
  induction constants generalizing s g with
  | nil => exact ⟨s, rfl, rfl, sees, .of_same rfl rfl rfl⟩
  | cons p constants ih =>
    obtain ⟨name, value⟩ := p
    let t := s.setTable globalsTable (Function.update g (.string name) value)
    have step : registerGlobalEnum ((name, value) :: constants) s =
        registerGlobalEnum constants t := by
      rw [registerGlobalEnum, bind_ok (push_apply _ _)]
      exact bind_ok (setField_apply rfl sees.globals)
    obtain ⟨s', runs, stack, sees', changed⟩ := ih (sees.assign _)
    exact ⟨s', step.trans runs, stack, sees', (Extends.assign s _).trans changed⟩

theorem withEnum_of_ne {g : LuaValue → LuaValue} {constants : List (Str × LuaValue)}
    {key : LuaValue} (other : ∀ p ∈ constants, key ≠ .string p.1) :
    withEnum g constants key = g key := by
  induction constants generalizing g with
  | nil => rfl
  | cons p constants ih =>
    refine (ih fun q member => other q (List.mem_cons_of_mem _ member)).trans ?_
    exact Function.update_of_ne (other p List.mem_cons_self) _ _

theorem withEnum_mem {g : LuaValue → LuaValue} {constants : List (Str × LuaValue)}
    (distinct : (constants.map Prod.fst).Nodup) {p : Str × LuaValue} (member : p ∈ constants) :
    withEnum g constants (.string p.1) = p.2 := by
  induction constants generalizing g with
  | nil => exact absurd member List.not_mem_nil
  | cons q constants ih =>
    obtain ⟨new, distinct⟩ := List.nodup_cons.mp distinct
    rcases List.mem_cons.mp member with rfl | member
    · change withEnum (Function.update g (.string p.1) p.2) constants (.string p.1) = p.2
      rw [withEnum_of_ne, Function.update_self]
      intro r there same
      rw [LuaValue.string.inj same] at new
      exact new (List.mem_map_of_mem there)
    · exact ih distinct member

/-- A global `MeepBot` is removed, and the stack is empty. -/
theorem removeMeepBot_apply {s : LuaStack CFunction H} {l : Nat} {g d : LuaValue → LuaValue}
    (sees : Sees s l g d) :
    removeMeepBot s = (.ok (), ({ s with stack := [] } : LuaStack CFunction H).setTable globalsTable
      (Function.update g (.string meepBot) .nil)) := by
  rw [removeMeepBot, bind_ok (getGlobal_apply sees.globals _), bind_ok (isNil_apply rfl),
    bind_ok (pop_all _)]
  by_cases absent : g (.string meepBot) = .nil
  · have same : Function.update g (.string meepBot) .nil = g := by
      rw [← absent, Function.update_eq_self]
    have objects : Function.update s.objects globalsTable (.table g) = s.objects := by
      rw [← sees.globals, Function.update_eq_self]
    simp only [absent, decide_true, if_true, same, LuaStack.setTable, objects]
    rfl
  · simp only [absent, decide_false, Bool.false_eq_true, if_false]
    exact setKeyNil_apply (sees.stack []).globals meepBot

/-- `Register` on a state without a library `MeepBot`. -/
theorem register_spec {s : LuaStack CFunction H} {l : Nat} {g d : LuaValue → LuaValue}
    (sees : Sees s l g d) (unloaded : s.tableOf (d (.string meepBot)) = none)
    (free : ∀ p ∈ subtables, g (.string p.1) = .nil ∧ d (.string p.1) = .nil) :
    ∃ s' d' m tables fields, Natives.register s = (.ok (), s') ∧ s'.stack = [] ∧
      Sees s' l (withEnum (Function.update g (.string meepBot) (.object m))
        (luaPacketTypes ++ luaAccessTypes)) d' ∧
      d' (.string meepBot) = .object m ∧ Provides s' m botFuncs tables fields ∧
      List.Forall₂ (fun p q => q.1 = p.1 ∧ ∃ fields, Provides s' q.2 (p.2.getD []) [] fields)
        subtables tables ∧
      Extends (fun id => id = globalsTable ∨ id = l) s s' := by
  let cleared := ({ s with stack := [] } : LuaStack CFunction H).setTable globalsTable
    (Function.update g (.string meepBot) .nil)
  have sees₁ : Sees cleared l (Function.update g (.string meepBot) .nil) d :=
    (sees.stack []).assign _
  have unloaded₁ : cleared.tableOf (d (.string meepBot)) = none := by
    cases place : d (.string meepBot) with
    | object id =>
      have apart : id ≠ globalsTable := by
        rintro rfl
        rw [place, tableOf_table sees.globals] at unloaded
        cases unloaded
      rw [place] at unloaded
      simp only [tableOf, LuaStack.fields] at unloaded ⊢
      rw [objects_setTable_of_ne _ apart]
      exact unloaded
    | _ => rfl
  have free₁ : Function.update g (.string meepBot) .nil (.string meepBot) = .nil :=
    Function.update_self _ _ _
  have distinct : (botFuncs.map Prod.fst).Nodup := by decide
  obtain ⟨made, fields, registers, -, sees₂, grown, provides⟩ :=
    luaLRegister_new distinct sees₁ unloaded₁ free₁
  rw [Function.update_idem] at sees₂
  have named : ∀ p ∈ subtables, p.1 ≠ meepBot := by decide
  have other {p : Str × Option (List (Str × CFunction))} (member : p ∈ subtables) :
      LuaValue.string p.1 ≠ .string meepBot := fun same => named p member (LuaValue.string.inj same)
  have apart : cleared.next ≠ globalsTable ∧ cleared.next ≠ registryTable ∧ cleared.next ≠ l :=
    ⟨Nat.ne_of_gt sees.old.1, Nat.ne_of_gt sees.old.2.1, Nat.ne_of_gt sees.old.2.2⟩
  have ready : Ready { made with stack := [] } l _ _ cleared.next [] fields :=
    ⟨rfl, sees₂.stack [], Function.update_self _ _ _, provides.stack [], apart⟩
  have can : Registrable (Function.update g (.string meepBot) (.object cleared.next))
      (Function.update d (.string meepBot) (.object cleared.next)) [] subtables := by
    refine ⟨by decide, by decide, named, fun p member => ?_, fun p member => ?_, by decide⟩
    · rw [Function.update_of_ne (other member), (free p member).1]
    · rw [Function.update_of_ne (other member), (free p member).2]
  obtain ⟨filled, d', fields', tables, fills, ready', grown', same, provided⟩ :=
    registerTables_spec subtables ready can
  obtain ⟨typed, types, stack, sees₃, changed⟩ :=
    registerGlobalEnum_spec luaPacketTypes ready'.sees
  obtain ⟨s', levels, stack', sees₄, changed'⟩ := registerGlobalEnum_spec luaAccessTypes sees₃
  have constants : Extends (· = globalsTable) filled s' := changed.trans changed'
  have table (j : Nat) (here : j = globalsTable) : ∃ f, filled.objects j = .table f :=
    here ▸ ⟨_, ready'.sees.globals⟩
  refine ⟨s', d', cleared.next, tables, fields', ?_, ?_, ?_, ?_, ?_, ?_, ?_⟩
  · rw [Natives.register, bind_ok (removeMeepBot_apply sees), bind_ok registers,
      bind_ok (pop_all _), bind_ok fills, bind_ok types]
    exact levels
  · rw [stack', stack, ready'.empty]
  · rw [withEnum, List.foldl_append]
    exact sees₄
  · rw [same _ fun p member here => other member here.symm]
    exact Function.update_self _ _ _
  · exact ready'.provides.keep constants table apart.1
  · refine provided.imp ?_
    rintro p q ⟨name, above, fields, provides⟩
    have above' : cleared.next ≤ q.2 := grown.next.trans above
    exact ⟨name, fields, provides.keep constants table
      (Nat.ne_of_gt (sees.old.1.trans_le above'))⟩
  · have start : Extends (Touched l cleared.next) s cleared :=
      ⟨rfl, le_refl _, fun _ _ spared =>
        objects_setTable_of_ne _ (fun here => spared (.inl here)) _⟩
    have first : Extends (Touched l cleared.next) cleared made :=
      grown.mono fun _ _ here => here.imp_right Or.inl
    have popped : Extends (Touched l cleared.next) made { made with stack := [] } :=
      .of_same rfl rfl rfl
    have last : Extends (Touched l cleared.next) filled s' :=
      constants.mono fun _ _ here => Or.inl here
    refine (((start.trans first).trans (popped.trans grown')).trans last).mono ?_
    -- the table `MeepBot` is new
    rintro id old (here | here | here)
    · exact .inl here
    · exact .inr here
    · exact absurd here (Nat.ne_of_lt old)

/-- `RegisterTable` insists on a global `MeepBot`. -/
theorem registerTable_fails {s : LuaStack CFunction H} {g : LuaValue → LuaValue}
    (empty : s.stack = []) (globals : s.objects globalsTable = .table g)
    (absent : g (.string meepBot) = .nil) (name : Str)
    (reg : Option (List (Str × CFunction))) :
    registerTable name reg s = (.error .assertion, s.push .nil) := by
  refine bind_error ?_
  rw [expectFree, assertEmpty_bind empty, bind_ok (getGlobal_apply globals _), absent,
    bind_ok (isTable_apply rfl)]
  rfl

/-- A library `MeepBot` is found again, and no global is made for it. -/
theorem register_fails {s : LuaStack CFunction H} {l id : Nat} {g d known : LuaValue → LuaValue}
    (sees : Sees s l g d) (there : s.tableOf (d (.string meepBot)) = some (id, known))
    (old : id < s.next) : (Natives.register s).1 = .error .assertion := by
  let cleared := ({ s with stack := [] } : LuaStack CFunction H).setTable globalsTable
    (Function.update g (.string meepBot) .nil)
  have sees₁ : Sees cleared l (Function.update g (.string meepBot) .nil) d :=
    (sees.stack []).assign _
  have free₁ : Function.update g (.string meepBot) .nil (.string meepBot) = .nil :=
    Function.update_self _ _ _
  obtain ⟨place, object⟩ := of_tableOf there
  -- the library may even be the table of the globals itself
  have object₁ : ∃ known, cleared.objects id = .table known := by
    by_cases same : id = globalsTable
    · exact ⟨_, same ▸ sees₁.globals⟩
    · exact ⟨known, (objects_setTable_of_ne _ same _).trans object⟩
  obtain ⟨known, object₁⟩ := object₁
  have found : library meepBot cleared = (.ok id, cleared) :=
    library_found sees₁ (by rw [place]; exact tableOf_table object₁)
  have distinct : (botFuncs.map Prod.fst).Nodup := by decide
  obtain ⟨made, fields, fills, -, grown, table, -, others⟩ :=
    setFunctions_spec botFuncs distinct (cleared.push (.object id)) rfl object₁ old
  have globals : ∃ g', made.objects globalsTable = .table g' ∧ g' (.string meepBot) = .nil := by
    by_cases same : id = globalsTable
    · subst same
      have cleared_globals := object₁.symm.trans sees₁.globals
      cases cleared_globals
      exact ⟨fields, table, (others _ (by decide)).trans free₁⟩
    · exact ⟨_, (grown.others _ sees.old.1 (Ne.symm same)).trans sees₁.globals, free₁⟩
  obtain ⟨g', globals, absent⟩ := globals
  have fails := registerTable_fails (s := { made with stack := [] }) rfl globals absent
    "Users".toList (some userFuncs)
  have registers : luaLRegister meepBot botFuncs cleared = (.ok (), made) := by
    rw [luaLRegister, bind_ok found]
    exact fills
  have tables : registerTables subtables { made with stack := [] } = _ := bind_error fails
  rw [Natives.register, bind_ok (removeMeepBot_apply sees), bind_ok registers,
    bind_ok (pop_all _), bind_error tables]

/-- Where no library `MeepBot` is loaded and the names of its subtables are free, every assertion
of `Register` holds. It leaves an empty stack and one more global table, with the functions written
in C and the subtables with theirs; the other globals are the constants and those of before, and of
the old objects only the table of the loaded libraries has changed with them. -/
theorem register_builds {s : LuaStack CFunction H} {l : Nat} {g d : LuaValue → LuaValue}
    (sees : Sees s l g d) (unloaded : s.tableOf (d (.string meepBot)) = none)
    (free : ∀ p ∈ subtables, g (.string p.1) = .nil ∧ d (.string p.1) = .nil) :
    ∃ s' g' m tables fields, Natives.register s = (.ok (), s') ∧ s'.stack = [] ∧
      s'.host = s.host ∧ s'.objects globalsTable = .table g' ∧
      g' (.string meepBot) = .object m ∧ Provides s' m botFuncs tables fields ∧
      List.Forall₂ (fun p q => q.1 = p.1 ∧ ∃ fields, Provides s' q.2 (p.2.getD []) [] fields)
        subtables tables ∧
      (∀ p ∈ luaPacketTypes ++ luaAccessTypes, g' (.string p.1) = p.2) ∧
      (∀ key, key ≠ .string meepBot →
        (∀ p ∈ luaPacketTypes ++ luaAccessTypes, key ≠ .string p.1) → g' key = g key) ∧
      ∀ id < s.next, id ≠ globalsTable → id ≠ l → s'.objects id = s.objects id := by
  obtain ⟨s', d', m, tables, fields, runs, stack, sees', -, provides, subtables, grown⟩ :=
    register_spec sees unloaded free
  refine ⟨s', _, m, tables, fields, runs, stack, grown.host, sees'.globals, ?_, provides, subtables,
    fun p member => withEnum_mem (by decide) member, fun key other constant => ?_,
    fun id old not_globals not_l => grown.others id old (not_or.mpr ⟨not_globals, not_l⟩)⟩
  · rw [withEnum_of_ne fun p member same => ?_, Function.update_self]
    have named : ∀ p ∈ luaPacketTypes ++ luaAccessTypes, meepBot ≠ p.1 := by decide
    exact named p member (LuaValue.string.inj same)
  · rw [withEnum_of_ne constant, Function.update_of_ne other]

/-- A state in which only the base library is open, without its functions. -/
def bare : LuaStack CFunction Unit where
  stack := [.nil]
  objects
    | 0 => .table fun key => if key = .string "_G".toList then .object 0 else .nil
    | 1 => .table fun key => if key = .string loaded then .object 2 else .nil
    | 2 => .table fun key => if key = .string "_G".toList then .object 0 else .nil
    | _ => .other
  next := 3
  host := ()

theorem bare_sees : ∃ g d, Sees bare 2 g d ∧ g (.string "_G".toList) = .object 0 ∧
    bare.tableOf (d (.string meepBot)) = none ∧
    ∀ p ∈ subtables, g (.string p.1) = .nil ∧ d (.string p.1) = .nil :=
  ⟨_, _, ⟨rfl, ⟨_, rfl, by decide⟩, rfl, by decide, by decide⟩, by decide, by decide, by decide⟩

theorem register_builds_bare : ∃ s' g' m, Natives.register bare = (.ok (), s') ∧ s'.stack = [] ∧
    s'.objects globalsTable = .table g' ∧ g' (.string meepBot) = .object m ∧
    g' (.string "LEVEL_ADMIN".toList) = .level .admin ∧ g' (.string "_G".toList) = .object 0 := by
  obtain ⟨g, d, sees, base, unloaded, free⟩ := bare_sees
  obtain ⟨s', g', m, tables, fields, runs, stack, -, globals, place, -, -, constants, others, -⟩ :=
    register_builds sees unloaded free
  refine ⟨s', g', m, runs, stack, globals, place, ?_, ?_⟩
  · exact constants ("LEVEL_ADMIN".toList, .level .admin) (by decide)
  · rw [others _ (by decide) (by decide), base]

/-- Where the names of the subtables are free, `Register` succeeds if and only if no library
`MeepBot` is loaded. So it never does twice: the second call removes the global, gets the loaded
library back without a global, and fails. -/
theorem register_iff {s : LuaStack CFunction H} {l : Nat} {g d : LuaValue → LuaValue}
    (sees : Sees s l g d) (free : ∀ p ∈ subtables, g (.string p.1) = .nil ∧ d (.string p.1) = .nil)
    (old : ∀ id known, s.objects id = .table known → id < s.next) :
    ((∃ s', Natives.register s = (.ok (), s')) ↔ s.tableOf (d (.string meepBot)) = none) ∧
      ∀ s', Natives.register s = (.ok (), s') → (Natives.register s').1 = .error .assertion := by
  have only : (∃ s', Natives.register s = (.ok (), s')) →
      s.tableOf (d (.string meepBot)) = none := by
    rintro ⟨s', succeeds⟩
    cases there : s.tableOf (d (.string meepBot)) with
    | none => rfl
    | some t =>
      have fails := register_fails sees there (old _ _ (of_tableOf there).2)
      rw [succeeds] at fails
      cases fails
  refine ⟨⟨only, fun unloaded => ?_⟩, fun s' succeeds => ?_⟩
  · obtain ⟨s', -, -, -, -, runs, -⟩ := register_spec sees unloaded free
    exact ⟨s', runs⟩
  · obtain ⟨s'', d', m, tables, fields, runs, -, sees', place, provides, -⟩ :=
      register_spec sees (only ⟨s', succeeds⟩) free
    obtain rfl : s'' = s' := by
      rw [succeeds] at runs
      cases runs
      rfl
    exact register_fails sees' (by rw [place]; exact tableOf_table provides.object) provides.old

theorem register_iff_bare : (Natives.register bare).1 = .ok () ∧
    (Natives.register (Natives.register bare).2).1 = .error .assertion := by
  obtain ⟨g, d, sees, -, unloaded, free⟩ := bare_sees
  have old : ∀ id known, bare.objects id = .table known → id < bare.next := by
    intro id known object
    by_contra unused
    obtain ⟨k, rfl⟩ := Nat.exists_eq_add_of_le' (Nat.le_of_not_lt unused)
    cases object
  obtain ⟨succeeds, again⟩ := register_iff sees free old
  obtain ⟨s', runs⟩ := succeeds.mpr unloaded
  rw [runs]
  exact ⟨rfl, again s' runs⟩

end Properties
end MeepBot
