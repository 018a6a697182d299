import GatewayMapping.Method.Invoke
import GatewayMapping.Proofs.Value.Equality

/-!
# Both equalities are symmetric

The comparison of two values walks along the parts of the first one and takes a pair that is under
comparison further up as equal. With its values exchanged it walks along the parts of the other,
inside the exchanged pairs, and gives the same answer (`Heap.equalWithin_swap`). That does not rest
on the values: they may lie inside themselves and hold NaN, on which the comparison is not even
reflexive. It rests on one step alone, in which two lists have their items side by side, and of two
maps with as many members each has the keys of the other.

The equality of templates follows, and with it that the methods that look for an equal item or
member do not depend on the side of the value they look for.

## Main results

* `Heap.equal_comm`: equality by structure is symmetric.
* `Heap.looselyEqual_symmetric_nullSafe`: so is the equality of templates, and null is equal to
  null only.
-/

namespace GatewayMapping

namespace Heap

variable {h : Heap}

/-! ### Equality by structure -/

/-- The pair with its containers exchanged. -/
def OpenPair.swap : OpenPair → OpenPair
  | .lists a b => .lists b a
  | .maps a b => .maps b a

theorem OpenPair.swap_injective : Function.Injective OpenPair.swap := by
  rintro (⟨a, b⟩ | ⟨a, b⟩) (⟨c, d⟩ | ⟨c, d⟩) heq <;> simp_all [OpenPair.swap]

theorem OpenPair.lists_mem_swap_iff {opened : List OpenPair} {a b : ListRef} :
    .lists b a ∈ opened.map OpenPair.swap ↔ .lists a b ∈ opened :=
  List.mem_map_of_injective (a := .lists a b) OpenPair.swap_injective

theorem OpenPair.maps_mem_swap_iff {opened : List OpenPair} {a b : MapRef} :
    .maps b a ∈ opened.map OpenPair.swap ↔ .maps a b ∈ opened :=
  List.mem_map_of_injective (a := .maps a b) OpenPair.swap_injective

/-- All pairs have a second value that the first one compares with. -/
private theorem all_elim_iff {f : Value → Value → Bool} {ps : List (Value × Option Value)} :
    (ps.all fun p => p.2.elim false (f p.1)) = true ↔
      ∀ p ∈ ps, ∃ y, p.2 = some y ∧ f p.1 y = true := by
  rw [List.all_eq_true]
  refine forall₂_congr fun p _ => ?_
  obtain ⟨x, _ | y⟩ := p <;> simp

/-- Two lists are equal if they are one list, if they are under comparison, or if they match. -/
theorem equalWithin_lists_iff {budget : Nat} {opened : List OpenPair} {a b : ListRef} :
    h.equalWithin (budget + 1) opened (.list a) (.list b) = true ↔
      a = b ∨ ((h.items a).length = (h.items b).length ∧ .lists a b ∈ opened) ∨
        h.Match (fun x y => h.equalWithin budget (.lists a b :: opened) x y = true)
          (.list a) (.list b) := by
  rw [equalWithin_lists, match_lists_iff, ← and_or_left, ← all_elim_iff]
  simp only [Bool.or_eq_true, Bool.and_eq_true, beq_iff_eq, decide_eq_true_eq]

/-- Two maps are equal if they are one map, if they are under comparison, or if they match. -/
theorem equalWithin_maps_iff {budget : Nat} {opened : List OpenPair} {a b : MapRef} :
    h.equalWithin (budget + 1) opened (.map a) (.map b) = true ↔
      a = b ∨ ((h.members a).size = (h.members b).size ∧ .maps a b ∈ opened) ∨
        h.Match (fun x y => h.equalWithin budget (.maps a b :: opened) x y = true)
          (.map a) (.map b) := by
  rw [equalWithin_maps, match_maps_iff, ← and_or_left, ← all_elim_iff]
  simp only [Bool.or_eq_true, Bool.and_eq_true, beq_iff_eq, decide_eq_true_eq]

/-- Values match along a relation as the exchanged values do along its flip. -/
theorem match_swap_iff {R S : Value → Value → Prop} {a b : Value} (hRS : ∀ x y, R y x ↔ S x y) :
    h.Match R b a ↔ h.Match S a b :=
  ⟨fun hba => hba.flip.mono fun x y => (hRS x y).mp,
    fun hab => hab.flip.mono fun y x => (hRS x y).mpr⟩

theorem float_beq_comm (x y : Float) : (x == y) = (y == x) :=
  Bool.eq_iff_iff.mpr ⟨float_beq_symm, float_beq_symm⟩

/-- With its values exchanged and inside the exchanged pairs, the comparison gives the same
answer. -/
theorem equalWithin_swap (budget : Nat) (opened : List OpenPair) (x y : Value) :
    h.equalWithin budget (opened.map OpenPair.swap) y x = h.equalWithin budget opened x y := by
  induction budget generalizing opened x y with
  | zero =>
    cases x <;> cases y
    case float.float x y => exact float_beq_comm y x
    all_goals first | rfl | exact Bool.beq_comm
  | succ budget ih =>
    have hparts (p : OpenPair) {a b : Value} :
        h.Match (fun y x => h.equalWithin budget (p.swap :: opened.map .swap) y x = true) b a ↔
          h.Match (fun x y => h.equalWithin budget (p :: opened) x y = true) a b :=
      match_swap_iff fun x y => by rw [← ih (p :: opened) x y, List.map_cons]
    cases x <;> cases y
    case list.list a b =>
      rw [Bool.eq_iff_iff, equalWithin_lists_iff, equalWithin_lists_iff, ← hparts (.lists a b),
        OpenPair.lists_mem_swap_iff, eq_comm (a := b), eq_comm (a := (h.items b).length)]
      rfl
    case map.map a b =>
      rw [Bool.eq_iff_iff, equalWithin_maps_iff, equalWithin_maps_iff, ← hparts (.maps a b),
        OpenPair.maps_mem_swap_iff, eq_comm (a := b), eq_comm (a := (h.members b).size)]
      rfl
    case float.float x y => exact float_beq_comm y x
    all_goals first | rfl | exact Bool.beq_comm

/-- **Equality by structure is symmetric.** -/
theorem equal_comm (h : Heap) (a b : Value) : h.equal a b = h.equal b a :=
  equalWithin_swap _ [] b a

/-! ### The equality of templates -/

/-- The equality of templates is symmetric. -/
theorem looselyEqual_comm (h : Heap) (a b : Value) : h.looselyEqual a b = h.looselyEqual b a := by
  cases a <;> cases b
  case list.list a b => exact h.equal_comm (.list a) (.list b)
  case map.map a b => exact h.equal_comm (.map a) (.map b)
  case int.int m n => exact float_beq_comm _ _
  case int.float m y => exact float_beq_comm _ _
  case float.int x n => exact float_beq_comm _ _
  case float.float x y => exact float_beq_comm _ _
  all_goals first | rfl | exact Bool.beq_comm

/-- Null is equal to null only. -/
theorem null_looselyEqual_iff {b : Value} : h.looselyEqual .null b = true ↔ b = .null := by
  cases b <;> simp [looselyEqual]

/-- **The equality of templates is symmetric and safe for null.** This holds on every heap, with
containers inside themselves and with NaN among the values. Two lists or two maps are compared by
structure, which is symmetric too. So `contains` and `indexOf` of lists and `containsValue` of
maps answer the same with the value they look for on either side. -/
theorem looselyEqual_symmetric_nullSafe (h : Heap) :
    (∀ a b, h.looselyEqual a b = h.looselyEqual b a) ∧
    (∀ b, h.looselyEqual .null b = true ↔ b = .null) ∧
    (∀ a, h.looselyEqual a .null = true ↔ a = .null) ∧
    (∀ a b, h.looselyEqual (.list a) (.list b) = h.equal (.list a) (.list b)) ∧
    (∀ a b, h.looselyEqual (.map a) (.map b) = h.equal (.map a) (.map b)) ∧
    (∀ a b, h.equal a b = h.equal b a) ∧
    (∀ hosts ref v,
      Method.invoke hosts h (.list ref) "contains" [v] =
          .ok (.bool ((h.items ref).any fun x => h.looselyEqual x v), h) ∧
        Method.invoke hosts h (.list ref) "contains" [v] =
          .ok (.bool ((h.items ref).any fun x => h.looselyEqual v x), h)) ∧
    (∀ hosts ref v,
      Method.invoke hosts h (.list ref) "indexOf" [v] =
          .ok (.int (((h.items ref).findIdx? fun x => h.looselyEqual x v).elim (-1) .ofNat), h) ∧
        Method.invoke hosts h (.list ref) "indexOf" [v] =
          .ok (.int (((h.items ref).findIdx? fun x => h.looselyEqual v x).elim (-1) .ofNat), h)) ∧
    (∀ hosts ref v,
      Method.invoke hosts h (.map ref) "containsValue" [v] =
          .ok (.bool ((h.members ref).values.any fun x => h.looselyEqual x v), h) ∧
        Method.invoke hosts h (.map ref) "containsValue" [v] =
          .ok (.bool ((h.members ref).values.any fun x => h.looselyEqual v x), h)) := by
  have hnull {b : Value} : h.looselyEqual .null b = true ↔ b = .null := null_looselyEqual_iff
  have hcontains (hosts : Hosts) (ref : ListRef) (v : Value) :
      Method.invoke hosts h (.list ref) "contains" [v] =
        .ok (.bool ((h.items ref).any fun x => h.looselyEqual x v), h) := by
    rw [← List.findIdx?_isSome]
    rfl
  have hindexOf (hosts : Hosts) (ref : ListRef) (v : Value) :
      Method.invoke hosts h (.list ref) "indexOf" [v] =
        .ok (.int (((h.items ref).findIdx? fun x => h.looselyEqual x v).elim (-1) .ofNat), h) := by
    change ListMethod.run h ref .indexOf [v] =
      .ok (.int ((ListMethod.find? h (h.items ref) v).elim (-1) .ofNat), h)
    unfold ListMethod.run
    dsimp only
    cases ListMethod.find? h (h.items ref) v <;> rfl
  refine ⟨h.looselyEqual_comm, fun b => hnull, fun a => ?_, fun _ _ => rfl, fun _ _ => rfl,
    h.equal_comm, fun hosts ref v => ⟨hcontains hosts ref v, ?_⟩,
    fun hosts ref v => ⟨hindexOf hosts ref v, ?_⟩, fun hosts ref v => ⟨rfl, ?_⟩⟩
  · rw [h.looselyEqual_comm, hnull]
  · simp only [hcontains, h.looselyEqual_comm v]
  · simp only [hindexOf, h.looselyEqual_comm v]
  · simp only [h.looselyEqual_comm v]
    rfl

end Heap

end GatewayMapping
