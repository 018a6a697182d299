import GatewayMapping.Proofs.Method.Effects

/-!
# Methods step by step

A call that fails has no heap after it (`MethodResult`), so nothing can be said about what it did
to the containers before it failed. Here a method is a sequence of steps on one heap in which
every container is changed in place: an argument is taken for what it has to be, a position is
looked at, an item is added. When a step fails the heap stays as the steps before it left it.

A call step by step comes to the same as the call in one (`Method.perform_run`): the value and the
heap are the same, and where there is an error the heap is the one at the beginning.

## Main definitions

* `HeapSteps`: computations on a heap that keep it when they fail.
* `Method.perform`: a method call step by step.

## Main results

* `Method.perform_run`: a call step by step is the call, and no step before a failing one changes
  a container.
-/

namespace GatewayMapping

/-- A computation on a heap. When it fails the heap is kept as it is by then. -/
abbrev HeapSteps := EStateM MethodError Heap

namespace HeapSteps

variable {α : Type}

/-- A check of what is known, without a look at the heap. -/
def check : Except MethodError α → HeapSteps α
  | .ok a => pure a
  | .error e => throw e

/-- Looks something up in the heap. -/
def look (f : Heap → α) : HeapSteps α := return f (← get)

/-- Changes the items of a list in place. -/
def changeItems (ref : ListRef) (change : List Value → List Value) : HeapSteps Unit :=
  modify fun h => h.setItems ref (change (h.items ref))

/-- Changes the members of a map in place. -/
def changeMembers (ref : MapRef) (change : OrderedMap Value → OrderedMap Value) :
    HeapSteps Unit :=
  modify fun h => h.setMembers ref (change (h.members ref))

/-- Makes a new list. -/
def newList (items : List Value) : HeapSteps Value := modifyGet (·.newList items)

/-- Makes a new map. -/
def newMap (members : OrderedMap Value) : HeapSteps Value := modifyGet (·.newMap members)

/-- An argument that has to be an integer. -/
def intArg : Value → HeapSteps Int64
  | .int i => pure i
  | _ => throw .notFound

/-- An argument that has to be a list. -/
def listArg : Value → HeapSteps ListRef
  | .list ref => pure ref
  | _ => throw .notFound

/-- An argument that has to be a map. -/
def mapArg : Value → HeapSteps MapRef
  | .map ref => pure ref
  | _ => throw .notFound

end HeapSteps

open HeapSteps

/-! ### The steps of the methods -/

/-- The steps in which the first item that equals a value is taken out. -/
def ListMethod.removeFirst (ref : ListRef) (v : Value) : HeapSteps Value := do
  match ← look fun h => find? h (h.items ref) v with
  | some i =>
    changeItems ref (·.eraseIdx i)
    return .bool true
  | none => return .bool false

/-- The steps of a method of lists. -/
def ListMethod.steps (ref : ListRef) (m : ListMethod) (args : List Value) : HeapSteps Value := do
  let size ← look fun h => (h.items ref).length
  match m, args with
  | .size, [] => return .int (.ofNat size)
  | .isEmpty, [] => look fun h => .bool (h.items ref).isEmpty
  | .toString, [] => look fun h => .string (h.text (.list ref))
  | .get, [i] =>
    let i ← check (position (← intArg i) size size)
    look fun h => (h.items ref)[i]?.getD .null
  | .contains, [v] => look fun h => .bool (find? h (h.items ref) v).isSome
  | .indexOf, [v] =>
    look fun h => match find? h (h.items ref) v with
      | some i => .int (.ofNat i)
      | none => .int (-1)
  | .add, [v] =>
    changeItems ref (· ++ [v])
    return .bool true
  | .add, [i, v] =>
    let i ← check (position (← intArg i) (size + 1) size)
    changeItems ref fun items => items.take i ++ v :: items.drop i
    return .string ""
  | .set, [i, v] =>
    let i ← check (position (← intArg i) size size)
    let old ← look fun h => (h.items ref)[i]?.getD .null
    changeItems ref (·.set i v)
    return old
  | .remove, [.int i] =>
    let i ← check (position i size size)
    let old ← look fun h => (h.items ref)[i]?.getD .null
    changeItems ref (·.eraseIdx i)
    return old
  | .remove, [v] => removeFirst ref v
  | .addAll, [other] =>
    let other ← listArg other
    -- The items are all taken before the first one is added: the two lists may be the same.
    let new ← look (·.items other)
    new.forM fun v => changeItems ref (· ++ [v])
    return .bool !new.isEmpty
  | .clear, [] =>
    changeItems ref fun _ => []
    return .string ""
  | .subList, [first, last] =>
    let first ← intArg first
    let last ← intArg last
    if 0 ≤ first ∧ first ≤ last ∧ last.toInt ≤ size then
      newList (← look fun h => ((h.items ref).take last.toInt.toNat).drop first.toInt.toNat)
    else throw (.failed (.subList first.toInt last.toInt size))
  | _, _ => throw .notFound

/-- New maps, one after the other, each with the key and the value of a member. -/
def MapMethod.entrySteps : Fields Value → HeapSteps (List Value)
  | [] => return []
  | (key, v) :: rest => do
    let entry ← newMap (.ofList [("key", .string key), ("value", v)])
    return entry :: (← entrySteps rest)

/-- The steps of a method of maps. -/
def MapMethod.steps (ref : MapRef) (m : MapMethod) (args : List Value) : HeapSteps Value := do
  match m, args with
  | .size, [] => look fun h => .int (.ofNat (h.members ref).size)
  | .isEmpty, [] => look fun h => .bool (h.members ref).entries.isEmpty
  | .toString, [] => look fun h => .string (h.text (.map ref))
  | .get, [key] => look fun h => ((h.members ref).get? (h.text key)).getD .null
  | .containsKey, [key] => look fun h => .bool ((h.members ref).contains (h.text key))
  | .containsValue, [v] =>
    look fun h => .bool ((h.members ref).values.any fun x => h.looselyEqual x v)
  | .put, [key, v] =>
    let key ← look (·.text key)
    let old ← look fun h => ((h.members ref).get? key).getD .null
    changeMembers ref (·.insert key v)
    return old
  | .remove, [key] =>
    let key ← look (·.text key)
    let old ← look fun h => ((h.members ref).get? key).getD .null
    changeMembers ref (·.erase key)
    return old
  | .putAll, [other] =>
    let other ← mapArg other
    let new ← look fun h => (h.members other).entries
    new.forM fun entry => changeMembers ref (·.insert entry.1 entry.2)
    return .string ""
  | .clear, [] =>
    changeMembers ref fun _ => .empty
    return .string ""
  | .keySet, [] => newList (← look fun h => (h.members ref).keys.map .string)
  | .values, [] => newList (← look fun h => (h.members ref).values)
  | .entrySet, [] => newList (← entrySteps (← look fun h => (h.members ref).entries))
  | _, _ => throw .notFound

/-- The steps of a method of strings. -/
def StringMethod.steps (s : String) : StringMethod → List Value → HeapSteps Value
  | .split, [.string text] => do
    let p ← check (patternOf text)
    newList ((dropFinalEmpty (p.split s.toList)).map fun piece => .string (.ofList piece))
  | m, args => check (scalar s m args)

namespace Method

/-- The result of a call with the heap in which it leaves the containers. A call that failed
leaves them as they were. -/
def outcome (h : Heap) : MethodResult → EStateM.Result MethodError Heap Value
  | .ok (v, h') => .ok v h'
  | .error e => .error e h

/-- A method that only looks at the heap. -/
def lookOnly (run : Heap → MethodResult) : HeapSteps Value := do
  let (v, _) ← check (run (← get))
  return v

/-- The steps of a method found by its name, or the answer that there is none. -/
def orNotFoundSteps {μ : Type} (m? : Option μ) (steps : μ → List Value → HeapSteps Value)
    (args : List Value) : HeapSteps Value :=
  match m? with
  | some m => steps m args
  | none => throw .notFound

/-- Calls a method of a value step by step. A call of a host object is a single step. -/
def perform (hosts : Hosts) (target : Value) (method : String) (args : List Value) :
    HeapSteps Value :=
  match target with
  | .null => throw .notFound
  | .bool b => lookOnly fun h => ofBool h b method args
  | .int _ | .float _ => lookOnly fun h => ofNumber h target method args
  | .string s => orNotFoundSteps (StringMethod.named? method) (StringMethod.steps s) args
  | .list ref => orNotFoundSteps (ListMethod.named? method) (ListMethod.steps ref) args
  | .map ref => orNotFoundSteps (MapMethod.named? method) (MapMethod.steps ref) args
  | .object _ => fun h => outcome h (invoke hosts h target method args)

end Method

/-! ### Changes one after the other -/

namespace Heap

variable (h : Heap)

/-! A reference need not be one of the heap. What is put into a list that is not there is lost. -/

theorem setItems_items (ref : ListRef) : h.setItems ref (h.items ref) = h := by
  obtain ⟨lists, maps⟩ := h
  by_cases hr : ref.index < lists.size
  · simp [setItems, Heap.items, Array.setIfInBounds, hr]
  · simp [setItems, Array.setIfInBounds, hr]

/-- Of two changes of a list, the second one has the items of the first to work on. -/
theorem setItems_changed (ref : ListRef) (items : List Value)
    (change : List Value → List Value) :
    (h.setItems ref items).setItems ref (change ((h.setItems ref items).items ref)) =
      h.setItems ref (change items) := by
  by_cases hr : ref.index < h.lists.size
  · simp [setItems, Heap.items, hr]
  · simp [setItems, Array.setIfInBounds, hr]

theorem setMembers_members (ref : MapRef) : h.setMembers ref (h.members ref) = h := by
  obtain ⟨lists, maps⟩ := h
  by_cases hr : ref.index < maps.size
  · simp [setMembers, Heap.members, Array.setIfInBounds, hr]
  · simp [setMembers, Array.setIfInBounds, hr]

/-- Of two changes of a map, the second one has the members of the first to work on. -/
theorem setMembers_changed (ref : MapRef) (members : OrderedMap Value)
    (change : OrderedMap Value → OrderedMap Value) :
    (h.setMembers ref members).setMembers ref
        (change ((h.setMembers ref members).members ref)) =
      h.setMembers ref (change members) := by
  by_cases hr : ref.index < h.maps.size
  · simp [setMembers, Heap.members, hr]
  · simp [setMembers, Array.setIfInBounds, hr]

end Heap

namespace HeapSteps

/-- Items that are added one after the other stand behind the old ones in their order. -/
theorem run_forM_add (h : Heap) (ref : ListRef) (new : List Value) :
    (new.forM fun v => changeItems ref (· ++ [v])).run h =
      .ok () (h.setItems ref (h.items ref ++ new)) := by
  induction new generalizing h with
  | nil =>
    rw [List.append_nil, h.setItems_items]
    rfl
  | cons v new ih =>
    calc
      _ = (new.forM fun v => changeItems ref (· ++ [v])).run
            (h.setItems ref (h.items ref ++ [v])) := rfl
      _ = _ := by
        rw [ih, h.setItems_changed ref _ (· ++ new), List.append_assoc, List.singleton_append]

/-- Members that are put in one after the other are put in as a whole. -/
theorem run_forM_insert (h : Heap) (ref : MapRef) (new : Fields Value) :
    (new.forM fun entry => changeMembers ref (·.insert entry.1 entry.2)).run h =
      .ok () (h.setMembers ref ((h.members ref).insertAll new)) := by
  induction new generalizing h with
  | nil =>
    calc
      _ = EStateM.Result.ok () h := rfl
      _ = .ok () (h.setMembers ref (h.members ref)) := by rw [h.setMembers_members]
  | cons entry new ih =>
    calc
      _ = (new.forM fun entry => changeMembers ref (·.insert entry.1 entry.2)).run
            (h.setMembers ref ((h.members ref).insert entry.1 entry.2)) := rfl
      _ = .ok () (h.setMembers ref
            (((h.members ref).insert entry.1 entry.2).insertAll new)) := by
        rw [ih, h.setMembers_changed ref _ (·.insertAll new)]

end HeapSteps

/-! ### Step by step and in one -/

section

variable {α : Type} {h : Heap}

/-- A check comes to the same in a method step by step and in one if what follows it does. -/
theorem HeapSteps.run_check_bind {x : Except MethodError α} {f : α → HeapSteps Value}
    {g : α → MethodResult} (hf : ∀ a, (f a).run h = Method.outcome h (g a)) :
    (check x >>= f).run h = Method.outcome h (x >>= g) := by
  cases x with
  | ok a => exact hf a
  | error e => rfl

theorem HeapSteps.run_ite {c : Prop} [Decidable c] {x y : HeapSteps Value} {r r' : MethodResult}
    (hx : x.run h = Method.outcome h r) (hy : y.run h = Method.outcome h r') :
    (if c then x else y).run h = Method.outcome h (if c then r else r') := by
  split
  · exact hx
  · exact hy

theorem ListMethod.run_removeFirst (ref : ListRef) (v : Value) :
    (removeFirst ref v).run h =
      Method.outcome h (.ok (match find? h (h.items ref) v with
        | some i => (.bool true, h.setItems ref ((h.items ref).eraseIdx i))
        | none => (.bool false, h))) := by
  change EStateM.run (match find? h (h.items ref) v with | some i => _ | none => _) h = _
  cases find? h (h.items ref) v with
  | none => rfl
  | some i => rfl

/-- All items of a list are added, also to the list itself. -/
theorem ListMethod.run_addAll (ref other : ListRef) :
    (steps ref .addAll [.list other]).run h =
      Method.outcome h (run h ref .addAll [.list other]) := by
  let new := h.items other
  calc
    _ = (do new.forM fun v => changeItems ref (· ++ [v])
            return .bool !new.isEmpty : HeapSteps Value).run h := rfl
    _ = .ok (.bool !new.isEmpty) (h.setItems ref (h.items ref ++ new)) := by
      rw [EStateM.run_bind, run_forM_add]
      rfl

/-- A method of lists is its steps. The cases are those of the arguments: with the wrong number of
them, or with one of the wrong kind, no method is found either way. -/
theorem ListMethod.run_steps (ref : ListRef) (m : ListMethod) (args : List Value) :
    (steps ref m args).run h = Method.outcome h (run h ref m args) := by
  cases m with
  | size | isEmpty | toString | clear =>
    cases args with
    | nil => rfl
    | cons a args => rfl
  | contains | indexOf =>
    rcases args with _ | ⟨a, _ | ⟨b, args⟩⟩
    · rfl
    · rfl
    · rfl
  | get =>
    rcases args with _ | ⟨a, _ | ⟨b, args⟩⟩
    · rfl
    · cases a with
      | int i => exact run_check_bind fun i => rfl
      | _ => rfl
    · cases a <;> rfl
  | add =>
    rcases args with _ | ⟨a, _ | ⟨b, _ | ⟨c, args⟩⟩⟩
    · rfl
    · rfl
    · cases a with
      | int i => exact run_check_bind fun i => rfl
      | _ => rfl
    · cases a <;> rfl
  | set =>
    rcases args with _ | ⟨a, _ | ⟨b, _ | ⟨c, args⟩⟩⟩
    · rfl
    · cases a <;> rfl
    · cases a with
      | int i => exact run_check_bind fun i => rfl
      | _ => rfl
    · cases a <;> rfl
  | remove =>
    rcases args with _ | ⟨a, _ | ⟨b, args⟩⟩
    · rfl
    · cases a with
      | int i => exact run_check_bind fun i => rfl
      | _ => exact run_removeFirst ref _
    · cases a <;> rfl
  | addAll =>
    rcases args with _ | ⟨a, _ | ⟨b, args⟩⟩
    · rfl
    · cases a with
      | list other => exact run_addAll ref other
      | _ => rfl
    · cases a <;> rfl
  | subList =>
    rcases args with _ | ⟨a, _ | ⟨b, _ | ⟨c, args⟩⟩⟩
    · rfl
    · cases a <;> rfl
    · cases a with
      | int first =>
        cases b with
        | int last => exact run_ite rfl rfl
        | _ => rfl
      | _ => rfl
    · cases a with
      | int first => cases b <;> rfl
      | _ => rfl

/-- All members of a map are put in, also into the map itself. -/
theorem MapMethod.run_putAll (ref other : MapRef) :
    (steps ref .putAll [.map other]).run h =
      Method.outcome h (run h ref .putAll [.map other]) := by
  let new := (h.members other).entries
  calc
    _ = (do new.forM fun entry => changeMembers ref (·.insert entry.1 entry.2)
            return .string "" : HeapSteps Value).run h := rfl
    _ = .ok (.string "") (h.setMembers ref ((h.members ref).insertAll new)) := by
      rw [EStateM.run_bind, run_forM_insert]
      rfl

/-- The maps of an entry set are made one after the other. -/
theorem MapMethod.run_entrySteps (h : Heap) (fields : Fields Value) :
    (entrySteps fields).run h = .ok (newEntries h fields).1 (newEntries h fields).2 := by
  induction fields generalizing h with
  | nil => rfl
  | cons field rest ih =>
    obtain ⟨key, v⟩ := field
    let entry := h.newMap (.ofList [("key", .string key), ("value", v)])
    calc
      _ = (do return entry.1 :: (← entrySteps rest) : HeapSteps (List Value)).run entry.2 := rfl
      _ = _ := by
        rw [EStateM.run_bind, ih]
        rfl

theorem MapMethod.run_entrySet (ref : MapRef) :
    (steps ref .entrySet []).run h = Method.outcome h (run h ref .entrySet []) := by
  calc
    _ = (entrySteps (h.members ref).entries >>= newList).run h := rfl
    _ = _ := by
      rw [EStateM.run_bind, run_entrySteps]
      rfl

/-- A method of maps is its steps. -/
theorem MapMethod.run_steps (ref : MapRef) (m : MapMethod) (args : List Value) :
    (steps ref m args).run h = Method.outcome h (run h ref m args) := by
  cases m with
  | size | isEmpty | toString | clear | keySet | values =>
    cases args with
    | nil => rfl
    | cons a args => rfl
  | get | containsKey | containsValue | remove =>
    rcases args with _ | ⟨a, _ | ⟨b, args⟩⟩
    · rfl
    · rfl
    · rfl
  | put =>
    rcases args with _ | ⟨a, _ | ⟨b, _ | ⟨c, args⟩⟩⟩
    · rfl
    · rfl
    · rfl
    · rfl
  | putAll =>
    rcases args with _ | ⟨a, _ | ⟨b, args⟩⟩
    · rfl
    · cases a with
      | map other => exact run_putAll ref other
      | _ => rfl
    · cases a <;> rfl
  | entrySet =>
    cases args with
    | nil => exact run_entrySet ref
    | cons a args => rfl

/-- A method of strings is its steps. -/
theorem StringMethod.run_steps (s : String) (m : StringMethod) (args : List Value) :
    (steps s m args).run h = Method.outcome h (run h s m args) := by
  fun_cases run h s m args with
  | case1 text => exact run_check_bind fun p => rfl
  | case2 m args hsplit =>
    rw [steps.eq_2 s m args hsplit]
    cases scalar s m args with
    | ok v => rfl
    | error e => rfl

namespace Method

/-- A method that leaves the heap as it is may as well only look at it. -/
theorem run_lookOnly {run : Heap → MethodResult} (hrun : (run h).EndsIn (· = h)) :
    (lookOnly run).run h = outcome h (run h) := by
  change EStateM.run (check (run h) >>= fun r => pure r.1) h = _
  cases hr : run h with
  | error e => rfl
  | ok r =>
    obtain ⟨v, h'⟩ := r
    rw [hrun hr]
    rfl

theorem run_orNotFoundSteps {μ : Type} {steps : μ → List Value → HeapSteps Value}
    {run : μ → List Value → MethodResult}
    (hsteps : ∀ m args, (steps m args).run h = outcome h (run m args)) (m? : Option μ)
    (args : List Value) :
    (orNotFoundSteps m? steps args).run h = outcome h (orNotFound m? run args) := by
  cases m? with
  | none => rfl
  | some m => exact hsteps m args

/-- **Step by step and in one.** A call step by step has the value and the heap of the call, and
where the call fails no step has changed a container before. -/
theorem perform_run (hosts : Hosts) (target : Value) (method : String) (args : List Value) :
    (perform hosts target method args).run h =
      outcome h (invoke hosts h target method args) := by
  cases target with
  | null => rfl
  | bool b => exact run_lookOnly (ofBool_same b method args)
  | int n => exact run_lookOnly (ofNumber_same (.int n) method args)
  | float x => exact run_lookOnly (ofNumber_same (.float x) method args)
  | string s => exact run_orNotFoundSteps (StringMethod.run_steps s) _ args
  | list ref => exact run_orNotFoundSteps (ListMethod.run_steps ref) _ args
  | map ref => exact run_orNotFoundSteps (MapMethod.run_steps ref) _ args
  | object ref => rfl

end Method

end

end GatewayMapping
