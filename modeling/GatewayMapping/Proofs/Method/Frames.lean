import GatewayMapping.Proofs.Method.Steps

/-!
# What method calls leave alone

A call that fails leaves every container as it was, whichever of its steps fails. A call that has
a value may have made new containers. Of the others it has changed at most the one it is called
on, and that one only with a method that is there to change it. This holds for all arguments, also
for those that are the target itself: `$l.addAll($l)` has its items from before the first of them
is added. Host objects are left out, whose methods are given from outside.

## Main definitions

* `Heap.ChangesOnly`: the containers that may have other contents in a later heap.
* `Method.MayChange`: the container that a method with a given name may change.

## Main results

* `Method.invoke_changesOnly`: a call with a value changes what its method may change.
* `Method.perform_framed`: a call that fails changes nothing, and one with a value changes what
  its method may change.
-/

namespace GatewayMapping

open Heap (Extends)
open MethodResult (EndsIn)

/-! ### Heaps that differ in some containers -/

namespace Heap

/-- The second heap has the containers of the first one and may have more. Only those that are
named have other contents in it. -/
structure ChangesOnly (changed : Container → Prop) (h h' : Heap) : Prop where
  lists_le : h.lists.size ≤ h'.lists.size
  maps_le : h.maps.size ≤ h'.maps.size
  items : ∀ ref : ListRef, ref.index < h.lists.size → ¬changed (.list ref) →
    h'.items ref = h.items ref
  members : ∀ ref : MapRef, ref.index < h.maps.size → ¬changed (.map ref) →
    h'.members ref = h.members ref

namespace ChangesOnly

variable {changed : Container → Prop} {h h' : Heap}

theorem of_extends (hh' : Extends h h') : ChangesOnly changed h h' where
  lists_le := hh'.lists_le
  maps_le := hh'.maps_le
  items ref hr _ := hh'.items ref hr
  members ref hr _ := hh'.members ref hr

theorem setItems {ref : ListRef} (hc : changed (.list ref)) (items : List Value) :
    ChangesOnly changed h (h.setItems ref items) where
  lists_le := by simp [Heap.setItems]
  maps_le := Nat.le_refl _
  items other _ hother := by
    have hne : ref.index ≠ other.index := by
      intro heq
      obtain rfl : ref = other := congrArg ListRef.mk heq
      exact hother hc
    simp [Heap.setItems, Heap.items, Array.getElem?_setIfInBounds_ne hne]
  members _ _ _ := rfl

theorem setMembers {ref : MapRef} (hc : changed (.map ref)) (members : OrderedMap Value) :
    ChangesOnly changed h (h.setMembers ref members) where
  lists_le := Nat.le_refl _
  maps_le := by simp [Heap.setMembers]
  items _ _ _ := rfl
  members other _ hother := by
    have hne : ref.index ≠ other.index := by
      intro heq
      obtain rfl : ref = other := congrArg MapRef.mk heq
      exact hother hc
    simp [Heap.setMembers, Heap.members, Array.getElem?_setIfInBounds_ne hne]

end ChangesOnly
end Heap

open Heap (ChangesOnly)

/-! ### Methods that are there to change -/

/-- The list or map that a value refers to. -/
def Value.container? : Value → Option Container
  | .list ref => some (.list ref)
  | .map ref => some (.map ref)
  | _ => none

/-- The names of the methods that change the value they are called on. -/
def Value.changingMethods : Value → List String
  | .list _ => ["add", "set", "remove", "addAll", "clear"]
  | .map _ => ["put", "remove", "putAll", "clear"]
  | _ => []

/-- A method may change a container if this is its target and the method is there to change it. -/
def Method.MayChange (target : Value) (method : String) (c : Container) : Prop :=
  target.container? = some c ∧ method ∈ target.changingMethods

variable {h h' : Heap} {method : String}

/-- What a call does to its target is a change if its method is there to change it. -/
theorem Method.Effect.changesOnly {target : Value} (he : Method.Effect target h h')
    (hmethod : method ∈ target.changingMethods) :
    ChangesOnly (Method.MayChange target method) h h' := by
  cases he with
  | grow hh' => exact .of_extends hh'
  | setItems ht items => exact .setItems ⟨ht ▸ rfl, hmethod⟩ items
  | setMembers ht members => exact .setMembers ⟨ht ▸ rfl, hmethod⟩ members

/-- The methods that change lists have the names that say so. -/
theorem ListMethod.mem_changingMethods (ref : ListRef) {m : ListMethod}
    (hm : named? method = some m) (hchanges : m.changes) :
    method ∈ (Value.list ref).changingMethods := by
  unfold named? at hm
  split at hm <;> cases hm <;> simp [changes, Value.changingMethods] at hchanges ⊢

/-- The methods that change maps have the names that say so. -/
theorem MapMethod.mem_changingMethods (ref : MapRef) {m : MapMethod}
    (hm : named? method = some m) (hchanges : m.changes) :
    method ∈ (Value.map ref).changingMethods := by
  unfold named? at hm
  split at hm <;> cases hm <;> simp [changes, Value.changingMethods] at hchanges ⊢

namespace Method

/-- A call with a value changes the contents of its target at most, and those only with a method
that is there to change them. -/
theorem invoke_changesOnly (hosts : Hosts) {target : Value}
    (htarget : ∀ ref, target ≠ .object ref) (args : List Value) :
    EndsIn (ChangesOnly (MayChange target method) h) (invoke hosts h target method args) := by
  have hgrow (h' : Heap) (hh' : Extends h h') : ChangesOnly (MayChange target method) h h' :=
    .of_extends hh'
  have hsame (h' : Heap) (hh' : h' = h) : ChangesOnly (MayChange target method) h h' :=
    hgrow h' (hh' ▸ .refl h)
  cases target with
  | null => exact .error _
  | bool b => exact (ofBool_same b method args).mono hsame
  | int n => exact (ofNumber_same (.int n) method args).mono hsame
  | float x => exact (ofNumber_same (.float x) method args).mono hsame
  | string s => exact orNotFound_endsIn fun m _ => (StringMethod.run_extends s m args).mono hgrow
  | list ref =>
    refine orNotFound_endsIn fun m hm => ?_
    cases hchanges : m.changes with
    | true =>
      have hmethod := ListMethod.mem_changingMethods ref hm hchanges
      exact (ListMethod.run_effect ref m args).mono fun _ he => he.changesOnly hmethod
    | false => exact (ListMethod.run_extends ref hchanges args).mono hgrow
  | map ref =>
    refine orNotFound_endsIn fun m hm => ?_
    cases hchanges : m.changes with
    | true =>
      have hmethod := MapMethod.mem_changingMethods ref hm hchanges
      exact (MapMethod.run_effect ref m args).mono fun _ he => he.changesOnly hmethod
    | false => exact (MapMethod.run_extends ref hchanges args).mono hgrow
  | object ref => exact absurd rfl (htarget ref)

/-- **A call that fails changes nothing, and one that has a value changes its target at most.**
Step by step, a call of a value that is no host object ends with the error of the call and the
containers it began with, or with its value and its containers. Then there may be new containers,
and of the others only the target may have other contents, after `add`, `set`, `remove`, `addAll`
and `clear` of a list and after `put`, `remove`, `putAll` and `clear` of a map. -/
theorem perform_framed (hosts : Hosts) (h : Heap) {target : Value}
    (htarget : ∀ ref, target ≠ .object ref) (method : String) (args : List Value) :
    match (perform hosts target method args).run h with
    | .error e h' => invoke hosts h target method args = .error e ∧ h' = h
    | .ok v h' => invoke hosts h target method args = .ok (v, h') ∧
        ChangesOnly (MayChange target method) h h' := by
  rw [perform_run]
  cases hcall : invoke hosts h target method args with
  | error e => exact ⟨rfl, rfl⟩
  | ok r =>
    obtain ⟨v, h'⟩ := r
    exact ⟨rfl, invoke_changesOnly hosts htarget args hcall⟩

/-- A list is added to itself. Behind the end of the list nothing is added. -/
theorem perform_framed_self :
    let l : Value := .list ⟨0⟩
    let h : Heap := { lists := #[[.int 1, .string "a"], []], maps := #[] }
    let h' : Heap := { lists := #[[.int 1, .string "a", .int 1, .string "a"], []], maps := #[] }
    (∀ ref, l ≠ .object ref) ∧
      (perform [] l "addAll" [l]).run h = .ok (.bool true) h' ∧
      invoke [] h l "addAll" [l] = .ok (.bool true, h') ∧
      ChangesOnly (MayChange l "addAll") h h' ∧
      (perform [] l "add" [.int 3, l]).run h = .error (.failed (.item 3 2)) h ∧
      invoke [] h l "add" [.int 3, l] = .error (.failed (.item 3 2)) := by
  intro l h h'
  have hl : ∀ ref, l ≠ .object ref := fun _ => nofun
  have hrun : (perform [] l "addAll" [l]).run h = .ok (.bool true) h' := by rfl
  have hframe := perform_framed [] h hl "addAll" [l]
  rw [hrun] at hframe
  have hrun' : (perform [] l "add" [.int 3, l]).run h = .error (.failed (.item 3 2)) h := by rfl
  have hfail := perform_framed [] h hl "add" [.int 3, l]
  rw [hrun'] at hfail
  exact ⟨hl, hrun, hframe.1, hframe.2, hrun', hfail.1⟩

end Method
end GatewayMapping
