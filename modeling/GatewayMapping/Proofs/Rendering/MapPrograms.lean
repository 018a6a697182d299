import GatewayMapping.Proofs.Method.Slots
import GatewayMapping.Proofs.Rendering.Refinement
import GatewayMapping.Proofs.Value.Closed

/-!
# Programs that change maps

A program makes maps from documents, from the members that are written down and from the entries of
other maps, and it changes them by the methods of maps and by assignments to their members. Whatever
it did before, its maps are finite maps whose keys have an order (`MapProgram.maps_in_order`). A key
that is bound again keeps its place, a new one goes last, and the others keep their order when one
is taken out. What the methods of maps say about the entries is told from one list of them.

A map may be changed by itself: the entries that `putAll` puts in are the ones the other map has
before, which may be the same map. And a map may hold itself, so nothing is assumed of the texts
that stand for keys.

A change is put into a map that is there. This is the invariant of the programs: their values, and
all that their containers hold, refer to containers that have been made (`MapProgram.intact`).

## Main definitions

* `OrderedMap.Binds`, `OrderedMap.Unbinds`, `OrderedMap.BindsAll`: the changes of a map.
* `MapProgram`: the values and containers that a program may have.
* `ReadersShow`: what the methods that read a map say about its entries.
* `MapsInOrder`: what every method and every assignment does to the maps of a program.

## Main results

* `MapProgram.intact`: no reference of a program leads nowhere.
* `MapProgram.maps_in_order`: the maps of a program are finite maps in order.
-/

namespace GatewayMapping

open Heap (ChangesOnly Closed Extends Keeps scalarTree?)
open Template (Reference Render Scene State)

/-! ### Changes -/

namespace OrderedMap

variable {α : Type}

/-- A key is bound: it keeps its place if it is there, and goes last if not. -/
structure Binds (key : String) (v : α) (m m' : OrderedMap α) : Prop where
  keys : m'.keys = if key ∈ m.keys then m.keys else m.keys ++ [key]
  get? : ∀ x, m'.get? x = if key = x then some v else m.get? x

/-- A key is taken out, and the others keep their order. -/
structure Unbinds (key : String) (m m' : OrderedMap α) : Prop where
  keys : m'.keys = m.keys.filter (· ≠ key)
  get? : ∀ x, m'.get? x = if key = x then none else m.get? x

/-- The members of another map are put in: the keys that are there keep their places, and the new
ones go last in the order of the other map. -/
structure BindsAll (other m m' : OrderedMap α) : Prop where
  keys : m'.keys = m.keys ++ other.keys.filter (· ∉ m.keys)
  get? : ∀ x, m'.get? x = (other.get? x).or (m.get? x)

/-- All keys are taken out. -/
def Clears (_m m' : OrderedMap α) : Prop := m' = empty

theorem binds_insert (m : OrderedMap α) (key : String) (v : α) : Binds key v m (m.insert key v) :=
  ⟨m.keys_insert key v, m.get?_insert key v⟩

theorem unbinds_erase (m : OrderedMap α) (key : String) : Unbinds key m (m.erase key) :=
  ⟨m.keys_erase key, m.get?_erase key⟩

theorem bindsAll_insertAll (m other : OrderedMap α) :
    BindsAll other m (m.insertAll other.entries) :=
  ⟨m.keys_insertAll other, m.get?_insertAll other⟩

end OrderedMap

open OrderedMap (Binds BindsAll Clears Unbinds)

/-- One map is changed, and all other containers are as they were. -/
structure Heap.ChangesMap (change : OrderedMap Value → OrderedMap Value → Prop) (ref : MapRef)
    (h h' : Heap) : Prop where
  change : change (h.members ref) (h'.members ref)
  others : ChangesOnly (· = .map ref) h h'

/-- Other contents of a map are a change of it. -/
theorem Heap.changesMap_setMembers {change : OrderedMap Value → OrderedMap Value → Prop}
    {h : Heap} {ref : MapRef} (href : (Value.map ref).Within h) {members : OrderedMap Value}
    (hchange : change (h.members ref) members) :
    ChangesMap change ref h (h.setMembers ref members) where
  change := by rwa [members_setMembers href]
  others := @ChangesOnly.setMembers (· = .map ref) h ref rfl members

/-! ### Programs -/

/-- The values that a program has, and its containers, at some time of its run. -/
inductive MapProgram (hosts : Hosts) : List Value → Heap → Prop
  | start : MapProgram hosts [] .empty
  | scalar {vs h v t} (hp : MapProgram hosts vs h) (hv : scalarTree? v = some t) :
      MapProgram hosts (v :: vs) h
  | document {vs h} (hp : MapProgram hosts vs h) (j : Json) :
      MapProgram hosts ((h.ofJson j).1 :: vs) (h.ofJson j).2
  | literal {vs h} {fields : Fields Value} (hp : MapProgram hosts vs h)
      (hfields : ∀ entry ∈ fields, entry.2 ∈ vs) :
      MapProgram hosts ((h.newMap (.ofList fields)).1 :: vs) (h.newMap (.ofList fields)).2
  | item {vs h ref v} (hp : MapProgram hosts vs h) (href : .list ref ∈ vs)
      (hv : v ∈ h.items ref) : MapProgram hosts (v :: vs) h
  | call {vs h ref args v h'} {name : String} (hp : MapProgram hosts vs h)
      (href : .map ref ∈ vs) (hargs : ∀ a ∈ args, a ∈ vs)
      (hcall : Method.invoke hosts h (.map ref) name args = .ok (v, h')) :
      MapProgram hosts (v :: vs) h'
  | assign {vs ref key new} {st st' : State} {scene : Scene} {target : Reference} {path : String}
      (hp : MapProgram hosts vs st.heap) (href : .map ref ∈ vs) (hnew : new ∈ vs)
      (hstore : Render.Succeeds (Render.store scene target path (.map ref) key new) st () st') :
      MapProgram hosts vs st'.heap

/-! ### No reference leads nowhere -/

variable {hosts : Hosts} {h : Heap} {ref : MapRef}

theorem MapMethod.closed_newEntries {h : Heap} (hh : h.Closed) : (fields : Fields Value) →
    (∀ entry ∈ fields, entry.2.Within h) → (newEntries h fields).2.Closed ∧
      ∀ v ∈ (newEntries h fields).1, v.Within (newEntries h fields).2
  | [], _ => ⟨hh, List.forall_mem_nil _⟩
  | (key, v) :: fields, hfields => by
      obtain ⟨hv, hfields⟩ := List.forall_mem_cons.mp hfields
      have hentry : Keeps h (h.newMap (.ofList [("key", .string key), ("value", v)])) := by
        refine .newMap hh fun entry hentry => ?_
        rcases List.mem_cons.mp hentry with rfl | hentry
        · trivial
        · exact List.mem_singleton.mp hentry ▸ hv
      have hrest := closed_newEntries hentry.closed fields fun entry hentry' =>
        (hfields entry hentry').mono hentry.lists_le hentry.maps_le
      have hgrows := extends_newEntries
        (h.newMap (.ofList [("key", .string key), ("value", v)])).2 fields
      exact ⟨hrest.1, List.forall_mem_cons.mpr ⟨hgrows.within hentry.within, hrest.2⟩⟩

/-- A member of a map, or null in its place. -/
theorem Heap.Closed.within_get? (hh : h.Closed) (ref : MapRef) (key : String) :
    (((h.members ref).get? key).getD .null).Within h := by
  cases hkey : (h.members ref).get? key with
  | none => trivial
  | some v => exact hh.members ref _ (OrderedMap.get?_eq_some_iff.mp hkey)

/-- A method of maps makes a value of what is there. -/
theorem MapMethod.keeps_run (hh : h.Closed) {m : MapMethod} {args : List Value}
    (hargs : ∀ a ∈ args, a.Within h) {r : Value × Heap} (hrun : run h ref m args = .ok r) :
    Keeps h r := by
  have hmembers := hh.members ref
  unfold run at hrun
  dsimp only at hrun
  split at hrun <;> cases hrun
  case h_1 | h_2 | h_3 | h_5 | h_6 => exact .same hh trivial
  case h_4 key => exact .same hh (hh.within_get? ref _)
  case h_7 key v =>
    have hv : v.Within h := hargs v (by simp)
    exact .setMembers hh (hh.within_get? ref _) ref (Fields.forall_mem_insert hmembers _ hv)
  case h_8 key =>
    exact .setMembers hh (hh.within_get? ref _) ref fun entry hentry =>
      hmembers entry (Fields.mem_of_mem_erase hentry)
  case h_9 other =>
    have hv : (Value.string "").Within h := trivial
    exact .setMembers hh hv ref (Fields.forall_mem_insertAll hmembers (hh.members other))
  case h_10 =>
    have hv : (Value.string "").Within h := trivial
    exact .setMembers hh hv ref (List.forall_mem_nil _)
  case h_11 =>
    refine .newList hh fun v hv => ?_
    obtain ⟨key, -, rfl⟩ := List.mem_map.mp hv
    trivial
  case h_12 =>
    refine .newList hh fun v hv => ?_
    obtain ⟨entry, hentry, rfl⟩ := List.mem_map.mp hv
    exact hmembers entry hentry
  case h_13 =>
    obtain ⟨hclosed, hentries⟩ := closed_newEntries hh (h.members ref).entries hmembers
    exact .of_extends (hclosed.newList hentries) (Keeps.newList hclosed hentries).within
      ((extends_newEntries h _).trans (.newList _ _))

theorem invoke_map_keeps (hh : h.Closed) {name : String} {args : List Value}
    (hargs : ∀ a ∈ args, a.Within h) {r : Value × Heap}
    (hcall : Method.invoke hosts h (.map ref) name args = .ok r) : Keeps h r := by
  rw [Method.invoke] at hcall
  cases hname : MapMethod.named? name with
  | none =>
    rw [hname] at hcall
    cases hcall
  | some m =>
    rw [hname] at hcall
    exact MapMethod.keeps_run hh hargs hcall

/-- The values that a program has are within the heap after a step that made another one. -/
theorem Heap.Keeps.intact {vs : List Value} (hvs : ∀ v ∈ vs, v.Within h) {r : Value × Heap}
    (hr : Keeps h r) : r.2.Closed ∧ ∀ v ∈ r.1 :: vs, v.Within r.2 :=
  ⟨hr.closed, List.forall_mem_cons.mpr
    ⟨hr.within, fun v hv => (hvs v hv).mono hr.lists_le hr.maps_le⟩⟩

/-- **No reference of a program leads nowhere.** -/
theorem MapProgram.intact {vs : List Value} (hp : MapProgram hosts vs h) :
    h.Closed ∧ ∀ v ∈ vs, v.Within h := by
  induction hp with
  | start => exact ⟨Heap.closed_empty, List.forall_mem_nil _⟩
  | @scalar vs h v t hp hv ih =>
    have hwithin : v.Within h := by
      cases v with
      | list ref | map ref => cases hv
      | _ => trivial
    exact (Keeps.same ih.1 hwithin).intact ih.2
  | document hp j ih => exact (Heap.keeps_ofJson ih.1 j).intact ih.2
  | literal hp hfields ih =>
    refine (Keeps.newMap ih.1 ?_).intact ih.2
    exact Fields.forall_mem_insertAll (List.forall_mem_nil _) fun entry hentry =>
      ih.2 _ (hfields entry hentry)
  | item hp href hv ih => exact (Keeps.same ih.1 (ih.1.items _ _ hv)).intact ih.2
  | @call vs h ref args v h' name hp href hargs hcall ih =>
    have hkeeps : Keeps h (v, h') :=
      invoke_map_keeps ih.1 (fun a ha => ih.2 a (hargs a ha)) hcall
    exact hkeeps.intact ih.2
  | @assign vs ref key new st st' scene target path hp href hnew hstore ih =>
    obtain rfl : _ = st' := (Prod.mk.inj hstore).2
    have hmembers : ∀ entry ∈ ((st.heap.members ref).insert (st.heap.text key) new).entries,
        entry.2.Within st.heap :=
      Fields.forall_mem_insert (ih.1.members ref) _ (ih.2 new hnew)
    have hkeeps := Keeps.setMembers ih.1 (ih.2 _ href) ref hmembers
    exact ⟨hkeeps.closed, fun v hv => (ih.2 v hv).mono hkeeps.lists_le hkeeps.maps_le⟩

/-! ### What reading methods say -/

/-- The map of an entry, which has its key and its value. -/
def IsEntry (h : Heap) (v : Value) (entry : String × Value) : Prop :=
  ∃ ref, v = .map ref ∧ (h.members ref).entries = [("key", .string entry.1), ("value", entry.2)]

/-- What the methods that read a map say: they all tell of these entries, in their order. -/
structure ReadersShow (hosts : Hosts) (h : Heap) (ref : MapRef) (entries : Fields Value) :
    Prop where
  distinct : entries.keys.Nodup
  keySet : ∃ keys h', Method.invoke hosts h (.map ref) "keySet" [] = .ok (.list keys, h') ∧
    h.Extends h' ∧ h'.items keys = entries.keys.map .string
  values : ∃ values h', Method.invoke hosts h (.map ref) "values" [] = .ok (.list values, h') ∧
    h.Extends h' ∧ h'.items values = entries.values
  entrySet : ∃ items h', Method.invoke hosts h (.map ref) "entrySet" [] = .ok (.list items, h') ∧
    h.Extends h' ∧ List.Forall₂ (IsEntry h') (h'.items items) entries
  size : Method.invoke hosts h (.map ref) "size" [] = .ok (.int (.ofNat entries.length), h)
  /-- A value that is no string stands for its text. -/
  get : ∀ key, ∃ v, Method.invoke hosts h (.map ref) "get" [key] = .ok (v, h) ∧
    ((h.text key, v) ∈ entries ∨ h.text key ∉ entries.keys ∧ v = .null)
  containsKey : ∀ key, Method.invoke hosts h (.map ref) "containsKey" [key] =
    .ok (.bool (decide (h.text key ∈ entries.keys)), h)

theorem MapMethod.isEntry_newEntries (h : Heap) {h' : Heap} : (fields : Fields Value) →
    (newEntries h fields).2.Extends h' →
      List.Forall₂ (IsEntry h') (newEntries h fields).1 fields
  | [], _ => .nil
  | (key, v) :: fields, hgrows => by
      have hentry : IsEntry h' (h.newMap (.ofList [("key", .string key), ("value", v)])).1
          (key, v) := by
        have hnew : (h.newMap (.ofList [("key", .string key), ("value", v)])).2.Extends h' :=
          (extends_newEntries _ fields).trans hgrows
        have hmembers := (hnew.members ⟨h.maps.size⟩ (by simp [Heap.newMap])).trans
          (Heap.members_newMap h _)
        have hkeys : (Fields.keys [("key", .string key), ("value", v)]).Nodup := by
          simp [Fields.keys]
        exact ⟨⟨h.maps.size⟩, rfl, by rw [hmembers, OrderedMap.entries_ofList hkeys]⟩
      exact .cons hentry (isEntry_newEntries _ fields hgrows)

theorem readersShow (hosts : Hosts) (h : Heap) (ref : MapRef) :
    ReadersShow hosts h ref (h.members ref).entries where
  distinct := (h.members ref).nodup_keys
  keySet := ⟨_, _, rfl, .newList _ _, Heap.items_newList _ _⟩
  values := ⟨_, _, rfl, .newList _ _, Heap.items_newList _ _⟩
  entrySet := by
    have hgrows := MapMethod.extends_newEntries h (h.members ref).entries
    have hnew := Extends.newList (MapMethod.newEntries h (h.members ref).entries).2
      (MapMethod.newEntries h (h.members ref).entries).1
    refine ⟨_, _, rfl, hgrows.trans hnew, ?_⟩
    have hitems := Heap.items_newList (MapMethod.newEntries h (h.members ref).entries).2
      (MapMethod.newEntries h (h.members ref).entries).1
    exact hitems.symm ▸ MapMethod.isEntry_newEntries h _ hnew
  size := rfl
  get key := by
    refine ⟨_, rfl, ?_⟩
    cases hkey : (h.members ref).get? (h.text key) with
    | none => exact .inr ⟨OrderedMap.get?_eq_none_iff.mp hkey, rfl⟩
    | some v => exact .inl (OrderedMap.get?_eq_some_iff.mp hkey)
  containsKey key := by
    change Except.ok (Value.bool ((h.members ref).contains (h.text key)), h) = _
    rw [OrderedMap.contains_eq_decide]
    rfl

/-! ### Maps in order -/

/-- What every method and every assignment does to the maps of a program, and what the methods that
read them say. -/
structure MapsInOrder (hosts : Hosts) (vs : List Value) (h : Heap) : Prop where
  distinct : ∀ ref, (h.members ref).keys.Nodup
  /-- A map that is made binds its members one after the other. -/
  made : ∀ (fields : Fields Value) key new,
    Binds key new (.ofList fields) (.ofList (fields ++ [(key, new)]))
  assign : ∀ (scene : Scene) (target : Reference) (path : String) (st : State) (ref : MapRef)
    (key new : Value), st.heap = h → .map ref ∈ vs → ∃ h',
      Render.Succeeds (Render.store scene target path (.map ref) key new) st ()
        { st with heap := h' } ∧
      h.ChangesMap (Binds (h.text key) new) ref h'
  put : ∀ ref key new, .map ref ∈ vs → ∃ old h',
    Method.invoke hosts h (.map ref) "put" [key, new] = .ok (old, h') ∧
      h.ChangesMap (Binds (h.text key) new) ref h'
  remove : ∀ ref key, .map ref ∈ vs → ∃ old h',
    Method.invoke hosts h (.map ref) "remove" [key] = .ok (old, h') ∧
      h.ChangesMap (Unbinds (h.text key)) ref h'
  putAll : ∀ ref other, .map ref ∈ vs → ∃ v h',
    Method.invoke hosts h (.map ref) "putAll" [.map other] = .ok (v, h') ∧
      h.ChangesMap (BindsAll (h.members other)) ref h'
  clear : ∀ ref, .map ref ∈ vs → ∃ v h',
    Method.invoke hosts h (.map ref) "clear" [] = .ok (v, h') ∧ h.ChangesMap Clears ref h'
  readers : ∀ ref, .map ref ∈ vs → ReadersShow hosts h ref (h.members ref).entries

/-- **The maps of a program are finite maps whose keys are in order.** -/
theorem MapProgram.maps_in_order (hosts : Hosts) {vs : List Value} {h : Heap}
    (hp : MapProgram hosts vs h) : MapsInOrder hosts vs h := by
  obtain ⟨-, hwithin⟩ := hp.intact
  constructor
  case distinct => exact fun ref => (h.members ref).nodup_keys
  case made =>
    intro fields key new
    rw [OrderedMap.ofList_concat]
    exact OrderedMap.binds_insert _ key new
  case assign =>
    rintro scene target path st ref key new rfl href
    exact ⟨_, rfl, Heap.changesMap_setMembers (hwithin _ href) (OrderedMap.binds_insert _ _ new)⟩
  case put =>
    intro ref key new href
    exact ⟨_, _, rfl, Heap.changesMap_setMembers (hwithin _ href) (OrderedMap.binds_insert _ _ new)⟩
  case remove =>
    intro ref key href
    exact ⟨_, _, rfl, Heap.changesMap_setMembers (hwithin _ href) (OrderedMap.unbinds_erase _ _)⟩
  case putAll =>
    intro ref other href
    exact ⟨_, _, rfl, Heap.changesMap_setMembers (hwithin _ href)
      (OrderedMap.bindsAll_insertAll _ (h.members other))⟩
  case clear =>
    intro ref href
    exact ⟨_, _, rfl, Heap.changesMap_setMembers (hwithin _ href) rfl⟩
  case readers => exact fun ref _ => readersShow hosts h ref

/-- A map puts itself and its own members into itself, and loses its first key. -/
theorem maps_in_order_aliased : ∃ vs h, MapProgram [] vs h ∧ .map ⟨0⟩ ∈ vs ∧
    (h.members ⟨0⟩).entries = [("b", .map ⟨0⟩)] ∧ MapsInOrder [] vs h := by
  let made : Heap := ⟨#[], #[.ofList [("a", .string "a")]]⟩
  let filled : Heap := ⟨#[], #[.ofList [("a", .string "a"), ("b", .map ⟨0⟩)]]⟩
  let left : Heap := ⟨#[], #[.ofList [("b", .map ⟨0⟩)]]⟩
  have hput : Method.invoke [] made (.map ⟨0⟩) "put" [.string "b", .map ⟨0⟩] =
      .ok (.null, filled) := rfl
  have hputAll : Method.invoke [] filled (.map ⟨0⟩) "putAll" [.map ⟨0⟩] =
      .ok (.string "", filled) := rfl
  have hremove : Method.invoke [] filled (.map ⟨0⟩) "remove" [.string "a"] =
      .ok (.string "a", left) := rfl
  have hmade : MapProgram [] [.map ⟨0⟩, .string "b", .string "a"] made :=
    .literal (.scalar (.scalar .start rfl) rfl) (by simp)
  have hfilled : MapProgram [] [.string "", .null, .map ⟨0⟩, .string "b", .string "a"] filled :=
    .call (.call hmade (by simp) (by simp) hput) (by simp) (by simp) hputAll
  have hleft := hfilled.call (by simp) (by simp) hremove
  exact ⟨_, _, hleft, by simp, rfl, hleft.maps_in_order⟩

end GatewayMapping
