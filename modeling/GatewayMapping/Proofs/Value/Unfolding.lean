import Mathlib.Data.Finset.Card
import Mathlib.Data.Finset.Sum
import GatewayMapping.Proofs.OrderedMap
import GatewayMapping.Proofs.Value.Bisimilarity
import GatewayMapping.Value.Tree

/-!
# Unfolding as a traversal

The traversal of a value keeps the lists and maps that it is inside of, cuts one that it meets
again, and leaves each of them behind when it is through. `Heap.Unfolds` is that traversal without
a bound on its depth: a derivation is a finite run with its tree. A value has one tree at most
(`Heap.Unfolds.unique`).

The containers that a run is inside of are different ones, and all of them but the innermost have
parts, so they are containers of the heap. Hence `Heap.tree` never uses its budget up, and the
traversal of every value ends with it (`Heap.unfolds_iff`).

## Main definitions

* `Heap.Unfolds`: the runs of the traversal.

## Main results

* `Heap.unfolds_iff`: the traversal ends with the tree of the value and with no other.
-/

namespace GatewayMapping

/-- A container that the heap has. -/
def Container.Within (h : Heap) : Container → Prop
  | .list ref => ref.index < h.lists.size
  | .map ref => ref.index < h.maps.size

/-- The place of a container among the lists or among the maps. -/
private def Container.place : Container → Nat ⊕ Nat
  | .list ref => .inl ref.index
  | .map ref => .inr ref.index

private theorem Container.place_injective : Function.Injective Container.place := by
  rintro (⟨⟨i⟩⟩ | ⟨⟨i⟩⟩) (⟨⟨j⟩⟩ | ⟨⟨j⟩⟩) heq <;> simp_all [Container.place]

namespace Heap

variable {h : Heap}

/-! ### Runs of the traversal -/

/-- The tree of a value that is no list and no map. -/
def scalarTree? : Value → Option Tree
  | .null => some .null
  | .bool b => some (.bool b)
  | .int n => some (.int n)
  | .float x => some (.float x)
  | .string s => some (.string s)
  | .object ref => some (.object ref.typeName)
  | .list _ => none
  | .map _ => none

mutual
/-- A run of the traversal of a value inside the containers `opened`, with its tree. -/
inductive Unfolds (h : Heap) : List Container → Value → Tree → Prop
  | scalar {opened v t} (ht : scalarTree? v = some t) : Unfolds h opened v t
  | listAgain {opened ref} (hopen : .list ref ∈ opened) : Unfolds h opened (.list ref) .listAgain
  | items {opened ref ts} (hopen : .list ref ∉ opened)
      (hts : UnfoldsItems h (.list ref :: opened) (h.items ref) ts) :
      Unfolds h opened (.list ref) (.list ts)
  | mapAgain {opened ref} (hopen : .map ref ∈ opened) : Unfolds h opened (.map ref) .mapAgain
  | members {opened ref ms} (hopen : .map ref ∉ opened)
      (hms : UnfoldsMembers h (.map ref :: opened) (h.members ref).entries ms) :
      Unfolds h opened (.map ref) (.map ms)

/-- A run of the traversal of values in turn. -/
inductive UnfoldsItems (h : Heap) : List Container → List Value → List Tree → Prop
  | nil {opened} : UnfoldsItems h opened [] []
  | cons {opened v vs t ts} (ht : Unfolds h opened v t) (hts : UnfoldsItems h opened vs ts) :
      UnfoldsItems h opened (v :: vs) (t :: ts)

/-- A run of the traversal of named values in turn. -/
inductive UnfoldsMembers (h : Heap) : List Container → Fields Value → Fields Tree → Prop
  | nil {opened} : UnfoldsMembers h opened [] []
  | cons {opened key v vs t ms} (ht : Unfolds h opened v t) (hms : UnfoldsMembers h opened vs ms) :
      UnfoldsMembers h opened ((key, v) :: vs) ((key, t) :: ms)
end

mutual
/-- A value has one tree at most. -/
theorem Unfolds.unique {opened : List Container} {v : Value} {t t' : Tree} :
    h.Unfolds opened v t → h.Unfolds opened v t' → t = t'
  | .scalar ht, .scalar ht' => Option.some.inj (ht.symm.trans ht')
  | .listAgain _, .listAgain _ => rfl
  | .listAgain hopen, .items hopen' _ => absurd hopen hopen'
  | .items hopen _, .listAgain hopen' => absurd hopen' hopen
  | .items _ hts, .items _ hts' => congrArg Tree.list (hts.unique hts')
  | .mapAgain _, .mapAgain _ => rfl
  | .mapAgain hopen, .members hopen' _ => absurd hopen hopen'
  | .members hopen _, .mapAgain hopen' => absurd hopen' hopen
  | .members _ hms, .members _ hms' => congrArg Tree.map (hms.unique hms')

theorem UnfoldsItems.unique {opened : List Container} {vs : List Value} {ts ts' : List Tree} :
    h.UnfoldsItems opened vs ts → h.UnfoldsItems opened vs ts' → ts = ts'
  | .nil, .nil => rfl
  | .cons ht hts, .cons ht' hts' => congrArg₂ List.cons (ht.unique ht') (hts.unique hts')

theorem UnfoldsMembers.unique {opened : List Container} {vs : Fields Value}
    {ms ms' : Fields Tree} :
    h.UnfoldsMembers opened vs ms → h.UnfoldsMembers opened vs ms' → ms = ms'
  | .nil, .nil => rfl
  | .cons ht hms, .cons ht' hms' =>
      congrArg₂ List.cons (congrArg (Prod.mk _) (ht.unique ht')) (hms.unique hms')
end

/-- The members of a tree have the names of the members of the map. -/
theorem UnfoldsMembers.keys_eq {opened : List Container} {vs : Fields Value} {ms : Fields Tree} :
    h.UnfoldsMembers opened vs ms → ms.keys = vs.keys
  | .nil => rfl
  | .cons _ hms => congrArg (List.cons _) hms.keys_eq

/-! ### The budget -/

/-- There are no more different containers than the heap has. -/
theorem length_le_size {opened : List Container} (hnodup : opened.Nodup)
    (hwithin : ∀ c ∈ opened, c.Within h) : opened.length ≤ h.size := by
  let places := (Finset.range h.lists.size).disjSum (Finset.range h.maps.size)
  have hmem : ∀ c ∈ opened.toFinset, c.place ∈ places := by
    intro c hc
    have hc := hwithin c (List.mem_toFinset.mp hc)
    cases c <;> simpa [places, Container.place, Container.Within] using hc
  calc opened.length = opened.toFinset.card := (List.toFinset_card_of_nodup hnodup).symm
    _ ≤ places.card := Finset.card_le_card_of_injOn _ hmem Container.place_injective.injOn
    _ = h.size := by simp [places, size]

/-- Runs for items make a run for all of them. -/
theorem unfoldsItems_map {opened : List Container} {f : Value → Tree} :
    ∀ vs : List Value, (∀ v ∈ vs, h.Unfolds opened v (f v)) → h.UnfoldsItems opened vs (vs.map f)
  | [], _ => .nil
  | v :: vs, hf =>
      .cons (hf v List.mem_cons_self)
        (unfoldsItems_map vs fun v hv => hf v (List.mem_cons_of_mem _ hv))

/-- Runs for members make a run for all of them. -/
theorem unfoldsMembers_mapValues {opened : List Container} {f : Value → Tree} :
    ∀ vs : Fields Value, (∀ entry ∈ vs, h.Unfolds opened entry.2 (f entry.2)) →
      h.UnfoldsMembers opened vs (vs.mapValues f)
  | [], _ => .nil
  | entry :: vs, hf =>
      .cons (hf entry List.mem_cons_self)
        (unfoldsMembers_mapValues vs fun v hv => hf v (List.mem_cons_of_mem _ hv))

/-- Unfolding within a budget is a run, if the budget and the containers around together are more
than the heap has. -/
theorem unfolds_unfold {budget : Nat} {opened : List Container} (v : Value)
    (hnodup : opened.Nodup) (hwithin : ∀ c ∈ opened, c.Within h)
    (hbudget : h.size < budget + opened.length) :
    h.Unfolds opened v (h.unfold budget opened v) := by
  induction budget generalizing opened v with
  | zero =>
    have := length_le_size hnodup hwithin
    omega
  | succ budget ih =>
    have hparts : ∀ {c : Container} (v : Value), c ∉ opened → c.Within h →
        h.Unfolds (c :: opened) v (h.unfold budget (c :: opened) v) := by
      intro c v hopen hc
      refine ih v (List.nodup_cons.mpr ⟨hopen, hnodup⟩)
        (List.forall_mem_cons.mpr ⟨hc, hwithin⟩) ?_
      rw [List.length_cons]
      omega
    cases v
    case list ref =>
      rw [unfold]
      split
      · next hopen => exact .listAgain hopen
      · next hopen =>
        exact .items hopen <| unfoldsItems_map _ fun v hv =>
          hparts v hopen (lt_size_of_mem_items hv)
    case map ref =>
      rw [unfold]
      split
      · next hopen => exact .mapAgain hopen
      · next hopen =>
        exact .members hopen <| unfoldsMembers_mapValues _ fun entry hentry =>
          hparts entry.2 hopen
            (lt_size_of_get?_members (OrderedMap.get?_eq_some_iff.mpr hentry))
    all_goals exact .scalar rfl

/-- **The traversal of a value ends with its tree**, and with no other one. -/
theorem unfolds_iff (h : Heap) (v : Value) (t : Tree) : h.Unfolds [] v t ↔ t = h.tree v := by
  have hrun : h.Unfolds [] v (h.tree v) := by
    refine unfolds_unfold v List.nodup_nil (fun _ hc => nomatch hc) ?_
    rw [List.length_nil]
    omega
  exact ⟨fun ht => ht.unique hrun, fun ht => ht ▸ hrun⟩

end Heap
end GatewayMapping
