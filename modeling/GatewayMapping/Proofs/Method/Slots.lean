import GatewayMapping.Proofs.Method.Frames
import GatewayMapping.Proofs.OrderedMap

/-!
# Slots of containers

A list has a slot at each of its indexes, and a map has one under each of its keys, in their order.
Putting a value into a slot leaves all other slots as they are, and so it does all other containers;
a map gets a new slot at its end for a key that it does not have (`Heap.stored_put`).

The methods `put` of maps and `set` of lists put a value into a slot, and `get` finds it there. Maps
and lists find it at an index, and maps as a property.

## Main definitions

* `Slot`: a key or an index.
* `Heap.slots`, `Heap.at?`: the slots of a container and what is in them.
* `Heap.put`: the heap with another value in a slot.
* `Heap.Stored`: the second heap has a value in a slot and is like the first one otherwise.

## Main results

* `Heap.stored_put`: putting a value into a slot stores it there.
* `Heap.Fits.invoke_setter`, `Heap.Fits.invoke_get`: the methods that do this.
-/

namespace GatewayMapping

/-- A place in a container: a key of a map, or an index of a list. -/
inductive Slot where
  | key (k : String)
  | index (i : Nat)
  deriving DecidableEq, Repr

namespace Slot

/-- The value that means the slot as an index or as an argument of methods. -/
def value : Slot → Value
  | key k => .string k
  | index i => .int (.ofNat i)

/-- The method that puts a value into the slot. -/
def setter : Slot → String
  | key _ => "put"
  | index _ => "set"

theorem key_injective : Function.Injective key := fun _ _ h => Slot.key.inj h

end Slot

/-- The value that refers to a container. -/
def Container.value : Container → Value
  | .list ref => .list ref
  | .map ref => .map ref

theorem Container.isNull_value (c : Container) : c.value.isNull = false := by
  cases c <;> rfl

theorem ListMethod.position_ofNat {i size : Nat} (hi : i < size) (hbits : i < 2 ^ 63)
    (length : Nat) : position (.ofNat i) size length = .ok i := by
  have hint : (Int64.ofNat i).toInt = i := Int64.toInt_ofNat_of_lt hbits
  rw [position, hint, if_pos ⟨Int.natCast_nonneg i, Int.ofNat_lt.mpr hi⟩, Int.toNat_natCast]

namespace Heap

/-! ### Slots and what is in them -/

/-- The slots of a container in their order. -/
def slots (h : Heap) : Container → List Slot
  | .list ref => (List.range (h.items ref).length).map .index
  | .map ref => (h.members ref).keys.map .key

/-- What is in a slot of a container. -/
def at? (h : Heap) : Container → Slot → Option Value
  | .list ref, .index i => (h.items ref)[i]?
  | .map ref, .key k => (h.members ref).get? k
  | _, _ => none

/-- Puts a value into a slot of a container. -/
def put (h : Heap) : Container → Slot → Value → Heap
  | .list ref, .index i, v => h.setItems ref ((h.items ref).set i v)
  | .map ref, .key k, v => h.setMembers ref ((h.members ref).insert k v)
  | _, _, _ => h

/-- The heap has the container, and a value can be put into the slot: under any key of a map, and at
an index of a list that is an integer of 64 bits. -/
inductive Fits (h : Heap) : Container → Slot → Prop
  | key {ref : MapRef} {k : String} (href : ref.index < h.maps.size) : Fits h (.map ref) (.key k)
  | index {ref : ListRef} {i : Nat} (hi : i < (h.items ref).length) (hbits : i < 2 ^ 63) :
      Fits h (.list ref) (.index i)

/-- The second heap is the first one with a value in a slot of a container. -/
structure Stored (c : Container) (s : Slot) (v : Value) (h h' : Heap) : Prop where
  /-- The value is in the slot. -/
  value : h'.at? c s = some v
  /-- The other slots of the container have kept what was in them. -/
  others : ∀ s', s' ≠ s → h'.at? c s' = h.at? c s'
  /-- The slots have kept their order, and a new one is the last. -/
  order : h'.slots c = if s ∈ h.slots c then h.slots c else h.slots c ++ [s]
  /-- The other containers have kept their contents. -/
  frame : ChangesOnly (c = ·) h h'
  /-- There are no new containers. -/
  size : h'.lists.size = h.lists.size ∧ h'.maps.size = h.maps.size

variable {h : Heap} {c : Container} {s : Slot} {v : Value}

theorem members_setMembers {ref : MapRef} (href : ref.index < h.maps.size)
    (members : OrderedMap Value) : (h.setMembers ref members).members ref = members := by
  simp [setMembers, Heap.members, href]

theorem lt_size_of_lt_length {ref : ListRef} {i : Nat} (hi : i < (h.items ref).length) :
    ref.index < h.lists.size := by
  by_contra hsize
  have hnone : h.lists[ref.index]? = none := by simpa using hsize
  rw [Heap.items, hnone] at hi
  exact absurd hi (Nat.not_lt_zero i)

theorem items_setItems {ref : ListRef} (href : ref.index < h.lists.size) (items : List Value) :
    (h.setItems ref items).items ref = items := by
  simp [setItems, Heap.items, href]

/-- A value that is put into a slot is stored there. -/
theorem stored_put (hs : h.Fits c s) (v : Value) : Stored c s v h (h.put c s v) := by
  cases hs with
  | @key ref k href =>
    have hmembers := members_setMembers href ((h.members ref).insert k v)
    refine ⟨?_, fun s' hs' => ?_, ?_, .setMembers rfl _, rfl, by simp [put, setMembers]⟩
    · rw [put, at?, hmembers, OrderedMap.get?_insert, if_pos rfl]
    · cases s' with
      | key k' =>
        have hne : k ≠ k' := fun heq => hs' (heq ▸ rfl)
        rw [put, at?, hmembers, OrderedMap.get?_insert, if_neg hne, at?]
      | index i => rfl
    · have hkeys : ((h.members ref).insert k v).keys = _ := Fields.keys_insert _ k v
      have hmem : Slot.key k ∈ (h.members ref).keys.map .key ↔ k ∈ (h.members ref).keys :=
        List.mem_map_of_injective Slot.key_injective
      simp only [put, slots, hmembers, hkeys, hmem]
      exact (apply_ite (List.map Slot.key) _ _ _).trans (by rw [List.map_append]; rfl)
  | @index ref i hi _ =>
    have hitems := items_setItems (lt_size_of_lt_length hi) ((h.items ref).set i v)
    refine ⟨?_, fun s' hs' => ?_, ?_, .setItems rfl _, by simp [put, setItems], rfl⟩
    · rw [put, at?, hitems, List.getElem?_set_self hi]
    · cases s' with
      | key k => rfl
      | index j =>
        have hne : i ≠ j := fun heq => hs' (heq ▸ rfl)
        rw [put, at?, hitems, List.getElem?_set_ne hne, at?]
    · have hmem : Slot.index i ∈ h.slots (.list ref) :=
        List.mem_map.mpr ⟨i, List.mem_range.mpr hi, rfl⟩
      rw [if_pos hmem, put, slots, slots, hitems, List.length_set]

theorem Fits.put (hs : h.Fits c s) (v : Value) : (h.put c s v).Fits c s := by
  cases hs with
  | key href => exact .key (by simpa [Heap.put, setMembers] using href)
  | index hi hbits =>
    refine .index ?_ hbits
    rw [Heap.put, items_setItems (lt_size_of_lt_length hi), List.length_set]
    exact hi

/-! ### Methods of slots -/

/-- The method of lists that assignments call. -/
theorem run_set {ref : ListRef} {i : Nat} (hi : i < (h.items ref).length) (hbits : i < 2 ^ 63)
    (v : Value) : ∃ old, ListMethod.run h ref .set [(Slot.index i).value, v] =
      .ok (old, h.put (.list ref) (.index i) v) := by
  refine ⟨(h.items ref)[i]?.getD .null, ?_⟩
  change (ListMethod.position (.ofNat i) (h.items ref).length (h.items ref).length >>= _) = _
  rw [ListMethod.position_ofNat hi hbits]
  rfl

namespace Fits

theorem invoke_setter (hs : h.Fits c s) (hosts : Hosts) (v : Value) :
    ∃ old, Method.invoke hosts h c.value s.setter [s.value, v] = .ok (old, h.put c s v) := by
  cases hs with
  | key => exact ⟨_, rfl⟩
  | index hi hbits => exact run_set hi hbits v

theorem invoke_get (hs : h.Fits c s) (hosts : Hosts) (hv : h.at? c s = some v) :
    Method.invoke hosts h c.value "get" [s.value] = .ok (v, h) := by
  cases hs with
  | @key ref k =>
    change Except.ok (((h.members ref).get? k).getD .null, h) = _
    rw [show (h.members ref).get? k = some v from hv]
    rfl
  | @index ref i hi hbits =>
    change (ListMethod.position (.ofNat i) (h.items ref).length (h.items ref).length >>= _) = _
    rw [ListMethod.position_ofNat hi hbits]
    change Except.ok ((h.items ref)[i]?.getD .null, h) = _
    rw [show (h.items ref)[i]? = some v from hv]
    rfl

theorem index_eq (hs : h.Fits c s) (hosts : Hosts) (hv : h.at? c s = some v) :
    Method.index hosts h c.value s.value = .ok (v, h) := by
  have hget := hs.invoke_get hosts hv
  cases hs with
  | key => exact hget
  | index => exact hget

end Fits

theorem property_eq {ref : MapRef} {k : String} (hosts : Hosts)
    (hv : h.at? (.map ref) (.key k) = some v) :
    Method.property hosts h (.map ref) k = .ok (v, h) := by
  rw [Method.property, show (h.members ref).get? k = some v from hv]
  rfl

end Heap
end GatewayMapping
