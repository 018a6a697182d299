import GatewayMapping.Method.Invoke
import GatewayMapping.Proofs.Value.JsonRoundTrip

/-!
# What methods do to the containers

A method that has a value makes new lists and maps, or it puts other contents into the list or map
that it is called on (`Method.Effect`). It does not do both, and it takes no container away. Only a
few methods put other contents into their target (`ListMethod.changes`, `MapMethod.changes`). Of
the methods of host objects this is an assumption: they may only make new containers.

## Main definitions

* `Method.Effect`: what a call may do to the containers.
* `ListMethod.changes`, `MapMethod.changes`: the methods that are there to change their target.
* `HostObject.OnlyExtends`: the methods of a host object change no container.

## Main results

* `Method.invoke_effect`: the effect of any call.
-/

namespace GatewayMapping

open Heap (Extends)

/-! ### New containers -/

namespace Heap

mutual

/-- The value of a document is made of new containers. -/
theorem extends_ofJson (h : Heap) : (j : Json) → Extends h (ofJson h j).2
  | .null | .bool _ | .float _ | .string _ => .refl h
  | .int n => by
      rw [ofJson]
      split
      · exact .refl h
      · exact .refl h
  | .array items => (extends_ofJsonItems h items).trans (.newList _ _)
  | .object fields => (extends_ofJsonMembers h fields).trans (.newMap _ _)

theorem extends_ofJsonItems (h : Heap) : (items : List Json) → Extends h (ofJsonItems h items).2
  | [] => .refl h
  | j :: items => (extends_ofJson h j).trans (extends_ofJsonItems _ items)

theorem extends_ofJsonMembers (h : Heap) :
    (fields : List (String × Json)) → Extends h (ofJsonMembers h fields).2
  | [] => .refl h
  | (_, j) :: fields => (extends_ofJson h j).trans (extends_ofJsonMembers _ fields)

end

end Heap

/-! ### Effects -/

/-- The containers after a call: there are new ones, or the target has other contents. -/
inductive Method.Effect (target : Value) (h : Heap) : Heap → Prop
  | grow {h' : Heap} (hh' : Extends h h') : Effect target h h'
  | setItems {ref : ListRef} (ht : target = .list ref) (items : List Value) :
      Effect target h (h.setItems ref items)
  | setMembers {ref : MapRef} (ht : target = .map ref) (members : OrderedMap Value) :
      Effect target h (h.setMembers ref members)

/-- If there is a value, the containers after the call are as described. -/
def MethodResult.EndsIn (P : Heap → Prop) (r : MethodResult) : Prop :=
  ∀ ⦃v : Value⦄ ⦃h : Heap⦄, r = .ok (v, h) → P h

namespace MethodResult.EndsIn

variable {P Q : Heap → Prop} {h : Heap}

theorem ok {v : Value} (hP : P h) : EndsIn P (.ok (v, h)) := by
  rintro _ _ ⟨⟩
  exact hP

theorem error (e : MethodError) : EndsIn P (.error e) := nofun

theorem bind {α : Type} (x : Except MethodError α) {f : α → MethodResult}
    (hf : ∀ a, EndsIn P (f a)) : EndsIn P (x >>= f) := by
  cases x with
  | error e => exact error e
  | ok a => exact hf a

theorem mono {r : MethodResult} (hr : EndsIn P r) (hPQ : ∀ h, P h → Q h) : EndsIn Q r :=
  fun _ h hv => hPQ h (hr hv)

theorem ite {c : Prop} [Decidable c] {r r' : MethodResult} (hr : EndsIn P r)
    (hr' : EndsIn P r') : EndsIn P (if c then r else r') := by
  split
  · exact hr
  · exact hr'

end MethodResult.EndsIn

open MethodResult (EndsIn)

/-- The methods of the object may make new containers and change none. -/
def HostObject.OnlyExtends (host : HostObject) : Prop :=
  ∀ h method args, EndsIn (Extends h) (host.invoke h method args)

/-! ### Methods of one kind of value -/

variable {h : Heap}

theorem StringMethod.run_extends (s : String) (m : StringMethod) (args : List Value) :
    EndsIn (Extends h) (StringMethod.run h s m args) := by
  unfold StringMethod.run
  split
  · exact .bind _ fun p => .ok (.newList _ _)
  · exact .bind _ fun v => .ok (.refl h)

/-- Whether a method is there to change lists. -/
def ListMethod.changes : ListMethod → Bool
  | .add | .set | .remove | .addAll | .clear => true
  | _ => false

/-- What a method of lists may do to the containers. -/
inductive ListMethod.Effect (ref : ListRef) (m : ListMethod) (h : Heap) : Heap → Prop
  | grow {h' : Heap} (hh' : Extends h h') : Effect ref m h h'
  | setItems (hm : m.changes) (items : List Value) : Effect ref m h (h.setItems ref items)

theorem ListMethod.run_ownEffect (ref : ListRef) (m : ListMethod) (args : List Value) :
    EndsIn (ListMethod.Effect ref m h) (ListMethod.run h ref m args) := by
  have hsame : ListMethod.Effect ref m h h := .grow (.refl h)
  have hnone : EndsIn (ListMethod.Effect ref m h) (.error .notFound) := .error _
  cases m with
  | size | isEmpty | toString =>
    cases args with
    | nil => exact .ok hsame
    | cons a args => exact hnone
  | clear =>
    cases args with
    | nil => exact .ok (.setItems rfl [])
    | cons a args => exact hnone
  | contains | indexOf =>
    rcases args with _ | ⟨a, _ | ⟨b, args⟩⟩
    · exact hnone
    · exact .ok hsame
    · exact hnone
  | get =>
    rcases args with _ | ⟨a, _ | ⟨b, args⟩⟩
    · exact hnone
    · cases a with
      | int i => exact .bind _ fun i => .ok hsame
      | _ => exact hnone
    · cases a <;> exact hnone
  | add =>
    rcases args with _ | ⟨a, _ | ⟨b, _ | ⟨c, args⟩⟩⟩
    · exact hnone
    · exact .ok (.setItems rfl _)
    · cases a with
      | int i => exact .bind _ fun i => .ok (.setItems rfl _)
      | _ => exact hnone
    · cases a <;> exact hnone
  | set =>
    rcases args with _ | ⟨a, _ | ⟨b, _ | ⟨c, args⟩⟩⟩
    · exact hnone
    · cases a <;> exact hnone
    · cases a with
      | int i => exact .bind _ fun i => .ok (.setItems rfl _)
      | _ => exact hnone
    · cases a <;> exact hnone
  | remove =>
    rcases args with _ | ⟨a, _ | ⟨b, args⟩⟩
    · exact hnone
    · cases a with
      | int i => exact .bind _ fun i => .ok (.setItems rfl _)
      | _ =>
        unfold ListMethod.run
        dsimp only
        split
        · exact .ok (.setItems rfl _)
        · exact .ok hsame
    · cases a <;> exact hnone
  | addAll =>
    rcases args with _ | ⟨a, _ | ⟨b, args⟩⟩
    · exact hnone
    · cases a with
      | list other => exact .ok (.setItems rfl _)
      | _ => exact hnone
    · cases a <;> exact hnone
  | subList =>
    rcases args with _ | ⟨a, _ | ⟨b, _ | ⟨c, args⟩⟩⟩
    · exact hnone
    · cases a <;> exact hnone
    · cases a with
      | int first =>
        cases b with
        | int last => exact .ite (.ok (.grow (.newList h _))) (.error _)
        | _ => exact hnone
      | _ => exact hnone
    · cases a with
      | int first => cases b <;> exact hnone
      | _ => exact hnone

theorem ListMethod.run_effect (ref : ListRef) (m : ListMethod) (args : List Value) :
    EndsIn (Method.Effect (.list ref) h) (ListMethod.run h ref m args) := by
  refine (run_ownEffect ref m args).mono fun h' he => ?_
  cases he with
  | grow hh' => exact .grow hh'
  | setItems _ items => exact .setItems rfl items

/-- A method of lists that is not there to change them only makes new lists. -/
theorem ListMethod.run_extends (ref : ListRef) {m : ListMethod} (hm : m.changes = false)
    (args : List Value) : EndsIn (Extends h) (ListMethod.run h ref m args) := by
  refine (run_ownEffect ref m args).mono fun h' he => ?_
  cases he with
  | grow hh' => exact hh'
  | setItems hchanges _ => exact absurd hchanges (by simp [hm])

theorem MapMethod.extends_newEntries (h : Heap) :
    (fields : Fields Value) → Extends h (MapMethod.newEntries h fields).2
  | [] => .refl h
  | (_, _) :: fields => (Extends.newMap h _).trans (extends_newEntries _ fields)

/-- Whether a method is there to change maps. -/
def MapMethod.changes : MapMethod → Bool
  | .put | .remove | .putAll | .clear => true
  | _ => false

/-- What a method of maps may do to the containers. -/
inductive MapMethod.Effect (ref : MapRef) (m : MapMethod) (h : Heap) : Heap → Prop
  | grow {h' : Heap} (hh' : Extends h h') : Effect ref m h h'
  | setMembers (hm : m.changes) (members : OrderedMap Value) :
      Effect ref m h (h.setMembers ref members)

theorem MapMethod.run_ownEffect (ref : MapRef) (m : MapMethod) (args : List Value) :
    EndsIn (MapMethod.Effect ref m h) (MapMethod.run h ref m args) := by
  unfold MapMethod.run
  dsimp only
  split
  case h_1 | h_2 | h_3 | h_4 | h_5 | h_6 => exact .ok (.grow (.refl h))
  case h_7 | h_8 | h_9 | h_10 => exact .ok (.setMembers rfl _)
  case h_11 | h_12 => exact .ok (.grow (.newList h _))
  case h_13 => exact .ok (.grow ((extends_newEntries h _).trans (.newList _ _)))
  case h_14 => exact .error _

theorem MapMethod.run_effect (ref : MapRef) (m : MapMethod) (args : List Value) :
    EndsIn (Method.Effect (.map ref) h) (MapMethod.run h ref m args) := by
  refine (run_ownEffect ref m args).mono fun h' he => ?_
  cases he with
  | grow hh' => exact .grow hh'
  | setMembers _ members => exact .setMembers rfl members

/-- A method of maps that is not there to change them only makes new containers. -/
theorem MapMethod.run_extends (ref : MapRef) {m : MapMethod} (hm : m.changes = false)
    (args : List Value) : EndsIn (Extends h) (MapMethod.run h ref m args) := by
  refine (run_ownEffect ref m args).mono fun h' he => ?_
  cases he with
  | grow hh' => exact hh'
  | setMembers hchanges _ => exact absurd hchanges (by simp [hm])

/-! ### Methods of any value -/

theorem Method.ofNumber_same (target : Value) (method : String) (args : List Value) :
    EndsIn (· = h) (Method.ofNumber h target method args) := by
  unfold Method.ofNumber
  split
  case h_7 =>
    split
    · exact .ok rfl
    · exact .error _
  case h_8 => exact .error _
  all_goals exact .ok rfl

theorem Method.ofBool_same (b : Bool) (method : String) (args : List Value) :
    EndsIn (· = h) (Method.ofBool h b method args) := by
  unfold Method.ofBool
  split
  case h_4 => exact .error _
  all_goals exact .ok rfl

theorem Method.orNotFound_endsIn {μ : Type} {P : Heap → Prop} {m? : Option μ}
    {run : μ → List Value → MethodResult} {args : List Value}
    (hrun : ∀ m, m? = some m → EndsIn P (run m args)) :
    EndsIn P (Method.orNotFound m? run args) := by
  cases m? with
  | none => exact .error _
  | some m => exact hrun m rfl

/-- **A call changes its target at most.** Where it has a value there are new containers, or the
list or map that it is a method of has other contents. -/
theorem Method.invoke_effect {hosts : Hosts} (hhosts : ∀ host ∈ hosts, host.OnlyExtends)
    (target : Value) (method : String) (args : List Value) :
    EndsIn (Method.Effect target h) (Method.invoke hosts h target method args) := by
  have hsame (h' : Heap) (hh' : h' = h) : Method.Effect target h h' := .grow (hh' ▸ .refl h)
  cases target with
  | null => exact .error _
  | bool b => exact (ofBool_same b method args).mono hsame
  | int n => exact (ofNumber_same (.int n) method args).mono hsame
  | float x => exact (ofNumber_same (.float x) method args).mono hsame
  | string s =>
    exact orNotFound_endsIn fun m _ => (StringMethod.run_extends s m args).mono fun _ => .grow
  | list ref => exact orNotFound_endsIn fun m _ => ListMethod.run_effect ref m args
  | map ref => exact orNotFound_endsIn fun m _ => MapMethod.run_effect ref m args
  | object ref =>
    refine orNotFound_endsIn fun host hhost => ?_
    exact (hhosts host (List.mem_of_getElem? hhost) h method args).mono fun _ => .grow

/-- No call takes a container away. -/
theorem Method.Effect.size_le {target : Value} {h' : Heap} (he : Method.Effect target h h') :
    h.lists.size ≤ h'.lists.size ∧ h.maps.size ≤ h'.maps.size := by
  cases he with
  | grow hh' => exact ⟨hh'.lists_le, hh'.maps_le⟩
  | setItems _ items => exact ⟨by simp [Heap.setItems], Nat.le_refl _⟩
  | setMembers _ members => exact ⟨Nat.le_refl _, by simp [Heap.setMembers]⟩

end GatewayMapping
