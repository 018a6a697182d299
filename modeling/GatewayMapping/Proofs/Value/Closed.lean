import GatewayMapping.Proofs.Method.Effects

/-!
# References that lead somewhere

A value refers to a list or map that has been made, and so does everything that lists and maps
hold (`Heap.Closed`). New containers with such contents keep it so, and other contents do, too.

In a heap of this kind the tree of a value is made of containers that are there, and new ones are
no part of it. So a value keeps its tree and its text while only new containers are made
(`Heap.text_of_extends`).

## Main definitions

* `Value.Within`: the value refers to nothing that the heap does not have.
* `Heap.Closed`: the contents of all containers are of this kind.

## Main results

* `Heap.text_of_extends`: the text of a value does not change while new containers are made.
-/

namespace GatewayMapping

/-- The container that the value refers to, if it does, is one of the heap. -/
def Value.Within (h : Heap) : Value → Prop
  | .list ref => (Container.list ref).Within h
  | .map ref => (Container.map ref).Within h
  | _ => True

theorem Value.Within.mono {h h' : Heap} {v : Value} (hv : v.Within h)
    (hlists : h.lists.size ≤ h'.lists.size) (hmaps : h.maps.size ≤ h'.maps.size) :
    v.Within h' := by
  cases v with
  | list ref => exact Nat.lt_of_lt_of_le hv hlists
  | map ref => exact Nat.lt_of_lt_of_le hv hmaps
  | _ => trivial

namespace Heap

variable {h h' : Heap}

/-- All containers hold nothing but what the heap has. -/
structure Closed (h : Heap) : Prop where
  items : ∀ ref, ∀ v ∈ h.items ref, v.Within h
  members : ∀ ref, ∀ entry ∈ (h.members ref).entries, entry.2.Within h

/-- Whether all references lead somewhere is seen from the contents in turn. -/
theorem closed_iff : h.Closed ↔ (∀ items ∈ h.lists.toList, ∀ v ∈ items, v.Within h) ∧
    ∀ members ∈ h.maps.toList, ∀ entry ∈ members.entries, entry.2.Within h := by
  constructor
  · intro hh
    refine ⟨fun items hitems => ?_, fun members hmembers => ?_⟩
    · obtain ⟨i, hi⟩ := List.mem_iff_getElem?.mp hitems
      have hwithin := hh.items ⟨i⟩
      rwa [Heap.items, ← Array.getElem?_toList, hi] at hwithin
    · obtain ⟨i, hi⟩ := List.mem_iff_getElem?.mp hmembers
      have hwithin := hh.members ⟨i⟩
      rwa [Heap.members, ← Array.getElem?_toList, hi] at hwithin
  · rintro ⟨hlists, hmaps⟩
    refine ⟨fun ref => ?_, fun ref => ?_⟩
    · rw [Heap.items, ← Array.getElem?_toList]
      cases hi : h.lists.toList[ref.index]? with
      | none => exact List.forall_mem_nil _
      | some items => exact hlists items (List.mem_of_getElem? hi)
    · rw [Heap.members, ← Array.getElem?_toList]
      cases hi : h.maps.toList[ref.index]? with
      | none => exact List.forall_mem_nil _
      | some members => exact hmaps members (List.mem_of_getElem? hi)

instance (h : Heap) : (v : Value) → Decidable (v.Within h)
  | .list ref => inferInstanceAs (Decidable (ref.index < h.lists.size))
  | .map ref => inferInstanceAs (Decidable (ref.index < h.maps.size))
  | .null | .bool _ | .int _ | .float _ | .string _ | .object _ => .isTrue trivial

instance (h : Heap) : Decidable h.Closed := decidable_of_iff _ closed_iff.symm

theorem closed_empty : Closed empty := closed_iff.mpr ⟨List.forall_mem_nil _, List.forall_mem_nil _⟩

namespace Extends

variable (hh' : h.Extends h')
include hh'

theorem within {v : Value} (hv : v.Within h) : v.Within h' := hv.mono hh'.lists_le hh'.maps_le

end Extends

/-! ### New and other contents -/

namespace Closed

variable (hh : h.Closed)
include hh

theorem newList {items : List Value} (hitems : ∀ v ∈ items, v.Within h) :
    (h.newList items).2.Closed := by
  have hgrows := Extends.newList h items
  refine ⟨fun ref v hv => hgrows.within ?_, fun ref entry hentry => ?_⟩
  · rw [Heap.items, Heap.newList, Array.getElem?_push] at hv
    split at hv
    · exact hitems v hv
    · exact hh.items ref v hv
  · exact hgrows.within (hh.members ref entry hentry)

theorem newMap {members : OrderedMap Value}
    (hmembers : ∀ entry ∈ members.entries, entry.2.Within h) : (h.newMap members).2.Closed := by
  have hgrows := Extends.newMap h members
  refine ⟨fun ref v hv => ?_, fun ref entry hentry => hgrows.within ?_⟩
  · exact hgrows.within (hh.items ref v hv)
  · rw [Heap.members, Heap.newMap, Array.getElem?_push] at hentry
    split at hentry
    · exact hmembers entry hentry
    · exact hh.members ref entry hentry

theorem setMembers (ref : MapRef) {members : OrderedMap Value}
    (hmembers : ∀ entry ∈ members.entries, entry.2.Within h) :
    (h.setMembers ref members).Closed := by
  have hsame {v : Value} (hv : v.Within h) : v.Within (h.setMembers ref members) :=
    hv.mono (Nat.le_refl _) (Nat.le_of_eq Array.size_setIfInBounds.symm)
  refine ⟨fun ref' v hv => hsame (hh.items ref' v hv), fun ref' entry hentry => hsame ?_⟩
  rw [Heap.members, Heap.setMembers, Array.getElem?_setIfInBounds] at hentry
  split at hentry
  · split at hentry
    · exact hmembers entry hentry
    · cases hentry
  · exact hh.members ref' entry hentry

end Closed

/-! ### Values that are made -/

/-- After a step that made a value there are all containers that there were, and no reference leads
nowhere. -/
structure Keeps (h : Heap) (r : Value × Heap) : Prop where
  closed : r.2.Closed
  within : r.1.Within r.2
  lists_le : h.lists.size ≤ r.2.lists.size
  maps_le : h.maps.size ≤ r.2.maps.size

namespace Keeps

theorem same (hh : h.Closed) {v : Value} (hv : v.Within h) : Keeps h (v, h) :=
  ⟨hh, hv, Nat.le_refl _, Nat.le_refl _⟩

theorem of_extends (hclosed : h'.Closed) {v : Value} (hv : v.Within h') (hh' : h.Extends h') :
    Keeps h (v, h') :=
  ⟨hclosed, hv, hh'.lists_le, hh'.maps_le⟩

theorem newList (hh : h.Closed) {items : List Value} (hitems : ∀ v ∈ items, v.Within h) :
    Keeps h (h.newList items) :=
  .of_extends (hh.newList hitems) (by simp [Value.Within, Container.Within, Heap.newList])
    (.newList h items)

theorem newMap (hh : h.Closed) {members : OrderedMap Value}
    (hmembers : ∀ entry ∈ members.entries, entry.2.Within h) : Keeps h (h.newMap members) :=
  .of_extends (hh.newMap hmembers) (by simp [Value.Within, Container.Within, Heap.newMap])
    (.newMap h members)

theorem setMembers (hh : h.Closed) {v : Value} (hv : v.Within h) (ref : MapRef)
    {members : OrderedMap Value} (hmembers : ∀ entry ∈ members.entries, entry.2.Within h) :
    Keeps h (v, h.setMembers ref members) := by
  have hmaps : h.maps.size = (h.setMembers ref members).maps.size :=
    Array.size_setIfInBounds.symm
  exact ⟨hh.setMembers ref hmembers, hv.mono (Nat.le_refl _) (Nat.le_of_eq hmaps),
    Nat.le_refl _, Nat.le_of_eq hmaps⟩

end Keeps

mutual

/-- The value of a document holds nothing but what was made for it. -/
theorem keeps_ofJson {h : Heap} (hh : h.Closed) : (j : Json) → Keeps h (ofJson h j)
  | .null | .bool _ | .float _ | .string _ => .same hh trivial
  | .int n => by
      rw [ofJson]
      split <;> exact .same hh trivial
  | .array items => by
      have hitems := closed_ofJsonItems hh items
      have hgrows := (extends_ofJsonItems h items).trans (.newList _ (ofJsonItems h items).1)
      exact .of_extends (hitems.1.newList hitems.2) (Keeps.newList hitems.1 hitems.2).within hgrows
  | .object fields => by
      have hfields := closed_ofJsonMembers hh fields
      have hmembers : ∀ entry ∈ (OrderedMap.ofList (ofJsonMembers h fields).1).entries,
          entry.2.Within (ofJsonMembers h fields).2 :=
        Fields.forall_mem_insertAll (List.forall_mem_nil _) hfields.2
      have hgrows := (extends_ofJsonMembers h fields).trans
        (.newMap _ (.ofList (ofJsonMembers h fields).1))
      exact .of_extends (hfields.1.newMap hmembers) (Keeps.newMap hfields.1 hmembers).within hgrows

theorem closed_ofJsonItems {h : Heap} (hh : h.Closed) : (items : List Json) →
    (ofJsonItems h items).2.Closed ∧
      ∀ v ∈ (ofJsonItems h items).1, v.Within (ofJsonItems h items).2
  | [] => ⟨hh, List.forall_mem_nil _⟩
  | j :: items => by
      have hj := keeps_ofJson hh j
      have hitems := closed_ofJsonItems hj.closed items
      have hgrows := extends_ofJsonItems (ofJson h j).2 items
      exact ⟨hitems.1, List.forall_mem_cons.mpr ⟨hgrows.within hj.within, hitems.2⟩⟩

theorem closed_ofJsonMembers {h : Heap} (hh : h.Closed) : (fields : List (String × Json)) →
    (ofJsonMembers h fields).2.Closed ∧
      ∀ entry ∈ (ofJsonMembers h fields).1, entry.2.Within (ofJsonMembers h fields).2
  | [] => ⟨hh, List.forall_mem_nil _⟩
  | (_, j) :: fields => by
      have hj := keeps_ofJson hh j
      have hfields := closed_ofJsonMembers hj.closed fields
      have hgrows := extends_ofJsonMembers (ofJson h j).2 fields
      exact ⟨hfields.1, List.forall_mem_cons.mpr ⟨hgrows.within hj.within, hfields.2⟩⟩

end

/-! ### Trees and texts -/

mutual

theorem Unfolds.of_extends (hh : h.Closed) (hh' : h.Extends h') {opened : List Container}
    {v : Value} {t : Tree} (hv : v.Within h) : h.Unfolds opened v t → h'.Unfolds opened v t
  | .scalar ht => .scalar ht
  | .listAgain hopen => .listAgain hopen
  | .items hopen hts => .items hopen (hh'.items _ hv ▸ hts.of_extends hh hh' (hh.items _))
  | .mapAgain hopen => .mapAgain hopen
  | .members hopen hms =>
      .members hopen (hh'.members _ hv ▸ hms.of_extends hh hh' (hh.members _))

theorem UnfoldsItems.of_extends (hh : h.Closed) (hh' : h.Extends h') {opened : List Container}
    {vs : List Value} {ts : List Tree} (hvs : ∀ v ∈ vs, v.Within h) :
    h.UnfoldsItems opened vs ts → h'.UnfoldsItems opened vs ts
  | .nil => .nil
  | .cons ht hts =>
      .cons (ht.of_extends hh hh' (List.forall_mem_cons.mp hvs).1)
        (hts.of_extends hh hh' (List.forall_mem_cons.mp hvs).2)

theorem UnfoldsMembers.of_extends (hh : h.Closed) (hh' : h.Extends h') {opened : List Container}
    {vs : Fields Value} {ms : Fields Tree} (hvs : ∀ entry ∈ vs, entry.2.Within h) :
    h.UnfoldsMembers opened vs ms → h'.UnfoldsMembers opened vs ms
  | .nil => .nil
  | .cons ht hms =>
      .cons (ht.of_extends hh hh' (List.forall_mem_cons.mp hvs).1)
        (hms.of_extends hh hh' (List.forall_mem_cons.mp hvs).2)

end

/-- A value keeps its text while new containers are made. -/
theorem text_of_extends (hh : h.Closed) (hh' : h.Extends h') {v : Value} (hv : v.Within h) :
    h'.text v = h.text v := by
  have hrun := ((unfolds_iff h v _).mpr rfl).of_extends hh hh' hv
  rw [text, text, (unfolds_iff h' v _).mp hrun]

end Heap
end GatewayMapping
