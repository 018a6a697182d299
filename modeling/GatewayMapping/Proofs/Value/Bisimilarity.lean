import Mathlib
import GatewayMapping.Value.Basic

/-!
# Bisimilar values

Lists and maps are shared and may lie inside themselves, so two values are told apart by walking
along their parts and in no other way. A *bisimulation* relates scalars of one kind that are
equal, lists item by item, maps key by key whatever the order of the keys, and host objects to
themselves. Two values are *bisimilar* when some bisimulation relates them.

Bisimilarity is also what is left when two values cannot be told apart in any number of steps
(`Heap.bisimilar_iff_forall_agree`). It is symmetric and transitive, and reflexive on the values
from which no NaN can be reached.

## Main definitions

* `Heap.Match`: one step of the comparison of two values.
* `Heap.Bisimilar`, `Heap.Agree`: agreement in all steps, and in a number of steps.
* `Heap.NaNFree`: no NaN can be reached from a value.
-/

namespace GatewayMapping

/-! ### Equality of doubles -/

section Doubles

open Float.Model (UnpackedFloat)

private theorem compare_self {a : UnpackedFloat} (h : a.isNaN = false) :
    a.compare a = some .eq := by
  cases a with
  | infinity s => cases s <;> rfl
  | notANumber => cases h
  | zero s => rfl
  | finite s m e hm => cases s <;> simp [UnpackedFloat.compare]

private theorem compare_symm {a b : UnpackedFloat} (h : a.compare b = some .eq) :
    b.compare a = some .eq := by
  rcases a with (_ | _) | _ | _ | ⟨_ | _, m, e, hm⟩ <;>
    rcases b with (_ | _) | _ | _ | ⟨_ | _, n, f, hn⟩ <;> simp_all [UnpackedFloat.compare]

private theorem compare_trans {a b c : UnpackedFloat} (hab : a.compare b = some .eq)
    (hbc : b.compare c = some .eq) : a.compare c = some .eq := by
  rcases a with (_ | _) | _ | _ | ⟨_ | _, m, e, hm⟩ <;>
    rcases b with (_ | _) | _ | _ | ⟨_ | _, n, f, hn⟩ <;>
      rcases c with (_ | _) | _ | _ | ⟨_ | _, k, g, hk⟩ <;> simp_all [UnpackedFloat.compare]

private theorem float_beq_iff {x y : Float} :
    (x == y) = true ↔ x.toModel.unpack.compare y.toModel.unpack = some .eq := by
  change (x.toModel.unpack.compare y.toModel.unpack == some .eq) = true ↔ _
  exact beq_iff_eq

/-- Every double but NaN equals itself. -/
theorem float_beq_self {x : Float} (h : x.isNaN = false) : (x == x) = true :=
  float_beq_iff.mpr (compare_self h)

/-- Equal doubles are not in order. -/
theorem not_float_lt_of_beq {x y : Float} (h : (x == y) = true) : ¬x < y := by
  intro hlt
  have hcompare : x.toModel.unpack.compare y.toModel.unpack = some .lt :=
    beq_iff_eq.mp (of_decide_eq_true hlt)
  rw [float_beq_iff.mp h] at hcompare
  cases hcompare

theorem float_beq_symm {x y : Float} (h : (x == y) = true) : (y == x) = true :=
  float_beq_iff.mpr (compare_symm (float_beq_iff.mp h))

theorem float_beq_trans {x y z : Float} (hxy : (x == y) = true) (hyz : (y == z) = true) :
    (x == z) = true :=
  float_beq_iff.mpr (compare_trans (float_beq_iff.mp hxy) (float_beq_iff.mp hyz))

end Doubles

namespace Heap

variable {h : Heap} {R S : Value → Value → Prop}

/-! ### Bisimulations -/

/-- Two values match along `R`: they are equal scalars of one kind, lists with related items,
maps with the same keys and related members, or one host object. -/
def Match (h : Heap) (R : Value → Value → Prop) : Value → Value → Prop
  | .null, .null => True
  | .bool a, .bool b => a = b
  | .int m, .int n => m = n
  | .float x, .float y => (x == y) = true
  | .string s, .string t => s = t
  | .list a, .list b => List.Forall₂ R (h.items a) (h.items b)
  | .map a, .map b => ∀ key, Option.Rel R ((h.members a).get? key) ((h.members b).get? key)
  | .object a, .object b => a = b
  | _, _ => False

/-- Some relation that relates only values that match along it relates `a` and `b`. -/
def Bisimilar (h : Heap) (a b : Value) : Prop :=
  ∃ R : Value → Value → Prop, (∀ x y, R x y → h.Match R x y) ∧ R a b

/-- The values cannot be told apart in a number of steps. -/
def Agree (h : Heap) : Nat → Value → Value → Prop
  | 0 => fun _ _ => True
  | n + 1 => h.Match (h.Agree n)

private theorem rel_mono (hRS : ∀ x y, R x y → S x y) {x? y? : Option Value}
    (hxy : Option.Rel R x? y?) : Option.Rel S x? y? := by
  cases hxy with
  | some hr => exact .some (hRS _ _ hr)
  | none => exact .none

private theorem rel_flip {x? y? : Option Value} (hxy : Option.Rel R x? y?) :
    Option.Rel (fun x y => R y x) y? x? := by
  cases hxy with
  | some hr => exact .some hr
  | none => exact .none

private theorem rel_comp {x? y? z? : Option Value} (hxy : Option.Rel R x? y?)
    (hyz : Option.Rel S y? z?) : Option.Rel (Relation.Comp R S) x? z? := by
  cases hxy with
  | some hr =>
    cases hyz with
    | some hs => exact .some ⟨_, hr, hs⟩
  | none =>
    cases hyz with
    | none => exact .none

private theorem rel_forall {P : Nat → Value → Value → Prop} {x? y? : Option Value}
    (hxy : ∀ n, Option.Rel (P n) x? y?) : Option.Rel (fun x y => ∀ n, P n x y) x? y? := by
  rcases x? with _ | x <;> rcases y? with _ | y
  · exact .none
  · cases hxy 0
  · cases hxy 0
  · refine .some fun n => ?_
    cases hxy n with
    | some hr => exact hr

private theorem forall₂_comp {xs ys zs : List Value} (hxy : List.Forall₂ R xs ys)
    (hyz : List.Forall₂ S ys zs) : List.Forall₂ (Relation.Comp R S) xs zs := by
  induction hxy generalizing zs with
  | nil =>
    cases hyz
    exact .nil
  | cons hr _ ih =>
    cases hyz with
    | cons hs hrest => exact .cons ⟨_, hr, hs⟩ (ih hrest)

theorem Match.mono (hRS : ∀ x y, R x y → S x y) {a b : Value} (hab : h.Match R a b) :
    h.Match S a b := by
  cases a <;> cases b <;> simp only [Match] at hab ⊢
  case bool.bool => exact hab
  case int.int => exact hab
  case float.float => exact hab
  case string.string => exact hab
  case list.list => exact hab.imp hRS
  case map.map => exact fun key => rel_mono hRS (hab key)
  case object.object => exact hab

/-- The flip of a relation matches the flips of values. -/
theorem Match.flip {a b : Value} (hab : h.Match R a b) :
    h.Match (fun x y => R y x) b a := by
  cases a <;> cases b <;> simp only [Match] at hab ⊢
  case bool.bool => exact hab.symm
  case int.int => exact hab.symm
  case float.float => exact float_beq_symm hab
  case string.string => exact hab.symm
  case list.list => exact hab.flip
  case map.map => exact fun key => rel_flip (hab key)
  case object.object => exact hab.symm

/-- Relations after one another match values after one another. -/
theorem Match.comp {a b c : Value} (hab : h.Match R a b) (hbc : h.Match S b c) :
    h.Match (Relation.Comp R S) a c := by
  cases a <;> cases b <;> simp only [Match] at hab <;> cases c <;> simp only [Match] at hbc ⊢
  case bool.bool.bool => exact hab.trans hbc
  case int.int.int => exact hab.trans hbc
  case float.float.float => exact float_beq_trans hab hbc
  case string.string.string => exact hab.trans hbc
  case list.list.list => exact forall₂_comp hab hbc
  case map.map.map => exact fun key => rel_comp (hab key) (hbc key)
  case object.object.object => exact hab.trans hbc

/-! ### Bisimilarity -/

/-- Bisimilarity is a bisimulation. -/
theorem Bisimilar.match {a b : Value} (hab : h.Bisimilar a b) : h.Match h.Bisimilar a b := by
  obtain ⟨R, hR, hab⟩ := hab
  exact (hR a b hab).mono fun x y hxy => ⟨R, hR, hxy⟩

theorem Bisimilar.symm {a b : Value} (hab : h.Bisimilar a b) : h.Bisimilar b a := by
  obtain ⟨R, hR, hab⟩ := hab
  exact ⟨fun x y => R y x, fun x y hxy => (hR y x hxy).flip, hab⟩

theorem Bisimilar.trans {a b c : Value} (hab : h.Bisimilar a b) (hbc : h.Bisimilar b c) :
    h.Bisimilar a c := by
  obtain ⟨R, hR, hab⟩ := hab
  obtain ⟨S, hS, hbc⟩ := hbc
  refine ⟨Relation.Comp R S, ?_, b, hab, hbc⟩
  rintro x z ⟨y, hxy, hyz⟩
  exact (hR x y hxy).comp (hS y z hyz)

/-- What cannot be told apart in one more step cannot be told apart. -/
theorem Agree.of_succ {n : Nat} {a b : Value} (hab : h.Agree (n + 1) a b) : h.Agree n a b := by
  induction n generalizing a b with
  | zero => trivial
  | succ n ih => exact Match.mono (fun _ _ => ih) hab

theorem Bisimilar.agree {a b : Value} (hab : h.Bisimilar a b) (n : Nat) : h.Agree n a b := by
  induction n generalizing a b with
  | zero => trivial
  | succ n ih => exact hab.match.mono fun _ _ => ih

/-- Values that agree in any number of steps match along that agreement. The parts of a value are
reached in one way only, so they agree in any number of steps as well. -/
theorem match_of_forall_agree {a b : Value} (hab : ∀ n, h.Agree n a b) :
    h.Match (fun x y => ∀ n, h.Agree n x y) a b := by
  have hstep : ∀ n, h.Match (h.Agree n) a b := fun n => hab (n + 1)
  cases a <;> cases b <;> simp only [Match, forall_const] at hstep ⊢
  case bool.bool => exact hstep
  case int.int => exact hstep
  case float.float => exact hstep
  case string.string => exact hstep
  case list.list =>
    refine List.forall₂_iff_get.mpr ⟨(hstep 0).length_eq, fun i hi hj n => ?_⟩
    exact (hstep n).get hi hj
  case map.map => exact fun key => rel_forall fun n => hstep n key
  case object.object => exact hstep

/-- **Bisimilarity is agreement in every number of steps.** -/
theorem bisimilar_iff_forall_agree {a b : Value} :
    h.Bisimilar a b ↔ ∀ n, h.Agree n a b :=
  ⟨fun hab n => hab.agree n, fun hab => ⟨_, fun _ _ => match_of_forall_agree, hab⟩⟩

/-! ### Parts of values -/

/-- Only a list of the heap has items. -/
theorem lt_size_of_mem_items {ref : ListRef} {x : Value} (hx : x ∈ h.items ref) :
    ref.index < h.lists.size := by
  by_contra hge
  rw [items, Array.getElem?_eq_none (Nat.le_of_not_lt hge)] at hx
  cases hx

/-- Only a map of the heap has members. -/
theorem lt_size_of_get?_members {ref : MapRef} {key : String} {x : Value}
    (hx : (h.members ref).get? key = some x) : ref.index < h.maps.size := by
  by_contra hge
  rw [members, Array.getElem?_eq_none (Nat.le_of_not_lt hge)] at hx
  cases hx

/-- One value is an item or a member of another one. -/
inductive Holds (h : Heap) : Value → Value → Prop
  | item {ref : ListRef} {x : Value} (hx : x ∈ h.items ref) : Holds h (.list ref) x
  | member {ref : MapRef} {key : String} {x : Value} (hx : (h.members ref).get? key = some x) :
      Holds h (.map ref) x

/-- A property that the parts of a value take over holds of all that can be reached from it. -/
theorem of_reach {P : Value → Prop} (hholds : ∀ x y, P x → h.Holds x y → P y) {a x : Value}
    (ha : P a) (hx : Relation.ReflTransGen h.Holds a x) : P x := by
  induction hx with
  | refl => exact ha
  | tail _ hstep ih => exact hholds _ _ ih hstep

/-! ### Values without NaN -/

/-- No NaN can be reached from a value. -/
def NaNFree (h : Heap) (a : Value) : Prop :=
  ∀ x : Float, Relation.ReflTransGen h.Holds a (.float x) → x.isNaN = false

theorem NaNFree.of_holds {a x : Value} (ha : h.NaNFree a) (hx : h.Holds a x) : h.NaNFree x :=
  fun y hy => ha y (.head hx hy)

/-- Values with a property that their parts take over have no NaN if no NaN has the property. -/
theorem NaNFree.of_closed {P : Value → Prop} (hholds : ∀ x y, P x → h.Holds x y → P y)
    (hfloat : ∀ x : Float, P (.float x) → x.isNaN = false) {a : Value} (ha : P a) :
    h.NaNFree a :=
  fun x hx => hfloat x (of_reach hholds ha hx)

/-- A value without NaN is bisimilar to itself. -/
theorem NaNFree.bisimilar_self {a : Value} (ha : h.NaNFree a) : h.Bisimilar a a := by
  refine ⟨fun x y => x = y ∧ h.NaNFree x, ?_, rfl, ha⟩
  rintro x _ ⟨rfl, hx⟩
  cases x with
  | null => trivial
  | float x => exact float_beq_self (hx x .refl)
  | list ref => exact List.forall₂_same.mpr fun y hy => ⟨rfl, hx.of_holds (.item hy)⟩
  | map ref =>
    intro key
    cases hy : (h.members ref).get? key with
    | none => exact .none
    | some y => exact .some ⟨rfl, hx.of_holds (.member hy)⟩
  | _ => rfl

end Heap
end GatewayMapping
