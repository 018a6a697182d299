import Mathlib.Data.Finset.Card
import Mathlib.Data.Finset.Prod
import Mathlib.Data.Finset.Sum
import GatewayMapping.Proofs.OrderedMap
import GatewayMapping.Proofs.Value.Bisimilarity
import GatewayMapping.Value.Equality

/-!
# Equality decides bisimilarity

The comparison of two values follows their parts and takes a pair of containers that is under
comparison further up as equal. `Heap.Compares` is that comparison without a bound on its depth:
a derivation is a finite run with its answer. The pairs under comparison are different ones, and
all of them but the last have parts, so `Heap.equal` never uses its budget up and answers as the
run does (`Heap.compares_equal`).

The pairs taken as equal are no harm. If the pairs under comparison agree in `n` steps and a run
answers `true`, then its two values agree in `n` steps: for `n + 1` steps their parts have to
agree in `n`, inside the pairs above and the pair of the values itself, and that this pair agrees
in `n` steps is the statement for `n`. At the outermost pair nothing is under comparison, so the
values agree in any number of steps.

## Main definitions

* `Heap.Compares`: the runs of the comparison.

## Main results

* `Heap.compares_equal`: `Heap.equal` has a run.
* `Heap.equal_decides_bisimilarity`: on values without NaN it decides bisimilarity.
-/

namespace GatewayMapping.Heap

variable {h : Heap}

/-! ### Runs of the comparison -/

/-- The answer for two values that are not two lists or two maps. -/
def plainEqual? : Value → Value → Option Bool
  | .null, .null => some true
  | .bool a, .bool b => some (a == b)
  | .int m, .int n => some (m == n)
  | .float x, .float y => some (x == y)
  | .string s, .string t => some (s == t)
  | .object a, .object b => some (a == b)
  | .list _, .list _ => none
  | .map _, .map _ => none
  | _, _ => some false

/-- The items of two lists, side by side. -/
def itemPairs (h : Heap) (a b : ListRef) : List (Value × Option Value) :=
  ((h.items a).zip (h.items b)).map fun (x, y) => (x, some y)

/-- The members of a map, each with the member of the other map under its key. -/
def memberPairs (h : Heap) (a b : MapRef) : List (Value × Option Value) :=
  (h.members a).entries.map fun (key, x) => (x, (h.members b).get? key)

mutual
/-- A run of the comparison of two values inside the pairs `opened`, with its answer. -/
inductive Compares (h : Heap) : List OpenPair → Value → Value → Bool → Prop
  | plain {opened x y r} (hr : plainEqual? x y = some r) : Compares h opened x y r
  | sameList {opened a} : Compares h opened (.list a) (.list a) true
  | listLengths {opened a b} (hne : a ≠ b) (hlen : (h.items a).length ≠ (h.items b).length) :
      Compares h opened (.list a) (.list b) false
  | openLists {opened a b} (hne : a ≠ b) (hlen : (h.items a).length = (h.items b).length)
      (hopen : .lists a b ∈ opened) : Compares h opened (.list a) (.list b) true
  | items {opened a b r} (hne : a ≠ b) (hlen : (h.items a).length = (h.items b).length)
      (hopen : .lists a b ∉ opened)
      (hr : ComparesAll h (.lists a b :: opened) (h.itemPairs a b) r) :
      Compares h opened (.list a) (.list b) r
  | sameMap {opened a} : Compares h opened (.map a) (.map a) true
  | mapSizes {opened a b} (hne : a ≠ b) (hsize : (h.members a).size ≠ (h.members b).size) :
      Compares h opened (.map a) (.map b) false
  | openMaps {opened a b} (hne : a ≠ b) (hsize : (h.members a).size = (h.members b).size)
      (hopen : .maps a b ∈ opened) : Compares h opened (.map a) (.map b) true
  | members {opened a b r} (hne : a ≠ b) (hsize : (h.members a).size = (h.members b).size)
      (hopen : .maps a b ∉ opened)
      (hr : ComparesAll h (.maps a b :: opened) (h.memberPairs a b) r) :
      Compares h opened (.map a) (.map b) r

/-- A run of the comparison of pairs in turn, up to the first that differs. -/
inductive ComparesAll (h : Heap) : List OpenPair → List (Value × Option Value) → Bool → Prop
  | nil {opened} : ComparesAll h opened [] true
  | missing {opened x rest} : ComparesAll h opened ((x, none) :: rest) false
  | differ {opened x y rest} (hx : Compares h opened x y false) :
      ComparesAll h opened ((x, some y) :: rest) false
  | agree {opened x y rest r} (hx : Compares h opened x y true)
      (hrest : ComparesAll h opened rest r) : ComparesAll h opened ((x, some y) :: rest) r
end

/-! ### The answers of runs -/

/-- The values of a pair under comparison are related. -/
def OpenPair.Related (R : Value → Value → Prop) : OpenPair → Prop
  | .lists a b => R (.list a) (.list b)
  | .maps a b => R (.map a) (.map b)

theorem match_of_plainEqual? {R : Value → Value → Prop} {x y : Value}
    (hr : plainEqual? x y = some true) : h.Match R x y := by
  cases x <;> cases y <;> simp_all [plainEqual?, Match]

theorem plainEqual?_of_match {R : Value → Value → Prop} {x y : Value} {r : Bool}
    (hr : plainEqual? x y = some r) (hxy : h.Match R x y) : r = true := by
  cases x <;> cases y <;> simp_all [plainEqual?, Match]

/-- Lists match when they have one length and their items match side by side. -/
theorem match_lists_iff {R : Value → Value → Prop} {a b : ListRef} :
    h.Match R (.list a) (.list b) ↔ (h.items a).length = (h.items b).length ∧
      ∀ p ∈ h.itemPairs a b, ∃ y, p.2 = some y ∧ R p.1 y := by
  rw [Match, List.forall₂_iff_zip]
  refine and_congr_right fun _ => ⟨?_, ?_⟩
  · intro hzip p hp
    obtain ⟨⟨x, y⟩, hxy, rfl⟩ := List.mem_map.mp hp
    exact ⟨y, rfl, hzip hxy⟩
  · intro hall x y hxy
    obtain ⟨y', hy', hr⟩ := hall (x, some y) (List.mem_map.mpr ⟨(x, y), hxy, rfl⟩)
    obtain rfl := Option.some.inj hy'
    exact hr

theorem size_eq_of_match {R : Value → Value → Prop} {a b : MapRef}
    (hab : h.Match R (.map a) (.map b)) : (h.members a).size = (h.members b).size := by
  refine OrderedMap.size_eq_of_keys fun key => ?_
  have hkey : Option.Rel R _ _ := hab key
  rw [OrderedMap.mem_keys_iff, OrderedMap.mem_keys_iff]
  generalize (h.members a).get? key = x?, (h.members b).get? key = y? at hkey ⊢
  cases hkey with
  | some _ => exact ⟨fun _ => ⟨_, rfl⟩, fun _ => ⟨_, rfl⟩⟩
  | none => rfl

/-- Maps match when they have one size and every member of the first has its match in the
second. -/
theorem match_maps_iff {R : Value → Value → Prop} {a b : MapRef} :
    h.Match R (.map a) (.map b) ↔ (h.members a).size = (h.members b).size ∧
      ∀ p ∈ h.memberPairs a b, ∃ y, p.2 = some y ∧ R p.1 y := by
  constructor
  · refine fun hab => ⟨size_eq_of_match hab, fun p hp => ?_⟩
    obtain ⟨⟨key, x⟩, hx, rfl⟩ := List.mem_map.mp hp
    have hkey : Option.Rel R _ _ := hab key
    rw [OrderedMap.get?_eq_some_iff.mpr hx] at hkey
    change ∃ y, (h.members b).get? key = some y ∧ R x y
    cases hy : (h.members b).get? key with
    | none =>
      rw [hy] at hkey
      cases hkey
    | some y =>
      rw [hy] at hkey
      cases hkey with
      | some hr => exact ⟨y, rfl, hr⟩
  · rintro ⟨hsize, hall⟩ key
    have hmember : ∀ key x, (h.members a).get? key = some x →
        ∃ y, (h.members b).get? key = some y ∧ R x y := fun key x hx =>
      hall (x, _) (List.mem_map.mpr ⟨(key, x), OrderedMap.get?_eq_some_iff.mp hx, rfl⟩)
    cases hx : (h.members a).get? key with
    | some x =>
      obtain ⟨y, hy, hr⟩ := hmember key x hx
      rw [hy]
      exact .some hr
    | none =>
      have hkeys : ∀ key ∈ (h.members a).keys, key ∈ (h.members b).keys := fun key hkey => by
        obtain ⟨x, hx⟩ := OrderedMap.mem_keys_iff.mp hkey
        obtain ⟨y, hy, -⟩ := hmember key x hx
        exact OrderedMap.mem_keys_iff.mpr ⟨y, hy⟩
      have hb : (h.members b).get? key = none := OrderedMap.get?_eq_none_iff.mpr fun hkey =>
        OrderedMap.get?_eq_none_iff.mp hx (OrderedMap.mem_keys_of_size_eq hsize hkeys hkey)
      rw [hb]
      exact .none

/-! ### What a run decides -/

mutual

/-- If a run answers `true` and the pairs under comparison agree in `n` steps, so do its values.
The pair of the values itself is under comparison among their parts; that it agrees in fewer steps
is the statement for fewer steps. -/
theorem Compares.agree_of_true {opened : List OpenPair} {x y : Value} {r : Bool} :
    h.Compares opened x y r → r = true → h.NaNFree x → ∀ n : Nat,
      (∀ p ∈ opened, p.Related (h.Agree n)) → h.Agree n x y
  | .plain hr, htrue, _, n, _ => by
      cases n with
      | zero => trivial
      | succ n =>
        rw [htrue] at hr
        exact match_of_plainEqual? hr
  | .sameList, _, hx, n, _ => hx.bisimilar_self.agree n
  | .listLengths _ _, htrue, _, _, _ => nomatch htrue
  | .openLists _ _ hopen, _, _, _, hopened => hopened _ hopen
  | .items _ hlen _ hr, htrue, hx, n, hopened => by
      induction n with
      | zero => trivial
      | succ n ih =>
        have hfewer : ∀ p ∈ opened, p.Related (h.Agree n) := fun p hp => by
          cases p <;> exact (hopened _ hp).of_succ
        have hself := ih hfewer
        refine match_lists_iff.mpr ⟨hlen, hr.agree_of_true htrue ?_ n ?_⟩
        · intro p hp
          obtain ⟨⟨x, y⟩, hxy, rfl⟩ := List.mem_map.mp hp
          exact hx.of_holds (.item (List.of_mem_zip hxy).1)
        · exact List.forall_mem_cons.mpr ⟨hself, hfewer⟩
  | .sameMap, _, hx, n, _ => hx.bisimilar_self.agree n
  | .mapSizes _ _, htrue, _, _, _ => nomatch htrue
  | .openMaps _ _ hopen, _, _, _, hopened => hopened _ hopen
  | .members _ hsize _ hr, htrue, hx, n, hopened => by
      induction n with
      | zero => trivial
      | succ n ih =>
        have hfewer : ∀ p ∈ opened, p.Related (h.Agree n) := fun p hp => by
          cases p <;> exact (hopened _ hp).of_succ
        have hself := ih hfewer
        refine match_maps_iff.mpr ⟨hsize, hr.agree_of_true htrue ?_ n ?_⟩
        · intro p hp
          obtain ⟨⟨key, x⟩, hkey, rfl⟩ := List.mem_map.mp hp
          exact hx.of_holds (.member (OrderedMap.get?_eq_some_iff.mpr hkey))
        · exact List.forall_mem_cons.mpr ⟨hself, hfewer⟩

theorem ComparesAll.agree_of_true {opened : List OpenPair} {ps : List (Value × Option Value)}
    {r : Bool} :
    h.ComparesAll opened ps r → r = true → (∀ p ∈ ps, h.NaNFree p.1) → ∀ n : Nat,
      (∀ p ∈ opened, p.Related (h.Agree n)) → ∀ p ∈ ps, ∃ y, p.2 = some y ∧ h.Agree n p.1 y
  | .nil, _, _, _, _ => fun _ hp => nomatch hp
  | .missing, htrue, _, _, _ => nomatch htrue
  | .differ _, htrue, _, _, _ => nomatch htrue
  | .agree hx hrest, htrue, hps, n, hopened =>
      have ⟨hp, hps⟩ := List.forall_mem_cons.mp hps
      List.forall_mem_cons.mpr
        ⟨⟨_, rfl, hx.agree_of_true rfl hp n hopened⟩, hrest.agree_of_true htrue hps n hopened⟩

end

mutual

/-- A run on bisimilar values answers `true`, whatever is under comparison. -/
theorem Compares.true_of_bisimilar {opened : List OpenPair} {x y : Value} {r : Bool} :
    h.Compares opened x y r → h.Bisimilar x y → r = true
  | .plain hr, hxy => plainEqual?_of_match hr hxy.match
  | .sameList, _ => rfl
  | .listLengths _ hlen, hxy => absurd (match_lists_iff.mp hxy.match).1 hlen
  | .openLists _ _ _, _ => rfl
  | .items _ _ _ hr, hxy => hr.true_of_bisimilar (match_lists_iff.mp hxy.match).2
  | .sameMap, _ => rfl
  | .mapSizes _ hsize, hxy => absurd (match_maps_iff.mp hxy.match).1 hsize
  | .openMaps _ _ _, _ => rfl
  | .members _ _ _ hr, hxy => hr.true_of_bisimilar (match_maps_iff.mp hxy.match).2

theorem ComparesAll.true_of_bisimilar {opened : List OpenPair}
    {ps : List (Value × Option Value)} {r : Bool} :
    h.ComparesAll opened ps r → (∀ p ∈ ps, ∃ y, p.2 = some y ∧ h.Bisimilar p.1 y) → r = true
  | .nil, _ => rfl
  | .missing, hps => by
      obtain ⟨y, hy, -⟩ := hps _ List.mem_cons_self
      cases hy
  | .differ hx, hps => by
      obtain ⟨y, hy, hxy⟩ := hps _ List.mem_cons_self
      obtain rfl := Option.some.inj hy
      exact hx.true_of_bisimilar hxy
  | .agree _ hrest, hps => hrest.true_of_bisimilar fun p hp => hps p (List.mem_cons_of_mem _ hp)

end

/-- A run with nothing under comparison decides bisimilarity of values without NaN. -/
theorem Compares.eq_true_iff_bisimilar {x y : Value} {r : Bool} (hr : h.Compares [] x y r)
    (hx : h.NaNFree x) : r = true ↔ h.Bisimilar x y := by
  constructor
  · intro htrue
    exact bisimilar_iff_forall_agree.mpr fun n =>
      hr.agree_of_true htrue hx n fun _ hp => nomatch hp
  · exact hr.true_of_bisimilar

/-! ### The budget -/

/-- A pair of containers that the heap has. -/
def OpenPair.Within (h : Heap) : OpenPair → Prop
  | .lists a b => a.index < h.lists.size ∧ b.index < h.lists.size
  | .maps a b => a.index < h.maps.size ∧ b.index < h.maps.size

/-- The number of pairs of lists and pairs of maps. -/
def pairCount (h : Heap) : Nat := h.lists.size * h.lists.size + h.maps.size * h.maps.size

/-- The places of the containers of a pair. -/
private def OpenPair.places : OpenPair → Nat × Nat ⊕ Nat × Nat
  | .lists a b => .inl (a.index, b.index)
  | .maps a b => .inr (a.index, b.index)

private theorem OpenPair.places_injective : Function.Injective OpenPair.places := by
  rintro (⟨⟨i⟩, ⟨j⟩⟩ | ⟨⟨i⟩, ⟨j⟩⟩) (⟨⟨k⟩, ⟨l⟩⟩ | ⟨⟨k⟩, ⟨l⟩⟩) heq <;> simp_all [OpenPair.places]

/-- There are no more different pairs than the heap has. -/
theorem length_le_pairCount {opened : List OpenPair} (hnodup : opened.Nodup)
    (hwithin : ∀ p ∈ opened, p.Within h) : opened.length ≤ h.pairCount := by
  let indices (n : Nat) : Finset (Nat × Nat) := Finset.range n ×ˢ Finset.range n
  let places := (indices h.lists.size).disjSum (indices h.maps.size)
  have hmem : ∀ p ∈ opened.toFinset, p.places ∈ places := by
    intro p hp
    have hp := hwithin p (List.mem_toFinset.mp hp)
    cases p <;> simpa [places, indices, OpenPair.places, OpenPair.Within] using hp
  calc opened.length = opened.toFinset.card := (List.toFinset_card_of_nodup hnodup).symm
    _ ≤ places.card :=
      Finset.card_le_card_of_injOn _ hmem OpenPair.places_injective.injOn
    _ = h.pairCount := by simp [places, indices, pairCount]

theorem within_of_mem_itemPairs {a b : ListRef} {x y : Value}
    (hp : (x, some y) ∈ h.itemPairs a b) : (OpenPair.lists a b).Within h := by
  obtain ⟨⟨x, y⟩, hxy, heq⟩ := List.mem_map.mp hp
  exact ⟨lt_size_of_mem_items (List.of_mem_zip hxy).1, lt_size_of_mem_items (List.of_mem_zip hxy).2⟩

theorem within_of_mem_memberPairs {a b : MapRef} {x y : Value}
    (hp : (x, some y) ∈ h.memberPairs a b) : (OpenPair.maps a b).Within h := by
  obtain ⟨⟨key, x⟩, hx, heq⟩ := List.mem_map.mp hp
  exact ⟨lt_size_of_get?_members (OrderedMap.get?_eq_some_iff.mpr hx),
    lt_size_of_get?_members (Prod.mk.inj heq).2⟩

theorem equalWithin_lists {budget : Nat} {opened : List OpenPair} {a b : ListRef} :
    h.equalWithin (budget + 1) opened (.list a) (.list b) =
      (a == b || ((h.items a).length == (h.items b).length &&
        (decide (.lists a b ∈ opened) || (h.itemPairs a b).all fun p =>
          p.2.elim false (h.equalWithin budget (.lists a b :: opened) p.1)))) := by
  rw [equalWithin, itemPairs, List.all_map]
  rfl

theorem equalWithin_maps {budget : Nat} {opened : List OpenPair} {a b : MapRef} :
    h.equalWithin (budget + 1) opened (.map a) (.map b) =
      (a == b || ((h.members a).size == (h.members b).size &&
        (decide (.maps a b ∈ opened) || (h.memberPairs a b).all fun p =>
          p.2.elim false (h.equalWithin budget (.maps a b :: opened) p.1)))) := by
  rw [equalWithin, memberPairs, List.all_map]
  congr! 4
  funext ⟨key, x⟩
  dsimp only [Function.comp_apply]
  cases (h.members b).get? key <;> rfl

/-- Runs for the pairs make a run for all of them. -/
theorem comparesAll_all {opened : List OpenPair} (f : Value → Value → Bool) :
    ∀ ps : List (Value × Option Value),
      (∀ x y, (x, some y) ∈ ps → h.Compares opened x y (f x y)) →
        h.ComparesAll opened ps (ps.all fun p => p.2.elim false (f p.1))
  | [], _ => .nil
  | (x, none) :: rest, _ => .missing
  | (x, some y) :: rest, hf => by
      have hx := hf x y List.mem_cons_self
      have hrest := comparesAll_all f rest fun x y hp => hf x y (List.mem_cons_of_mem _ hp)
      rw [List.all_cons, Option.elim_some]
      cases hxy : f x y with
      | false =>
        rw [hxy] at hx
        exact .differ hx
      | true =>
        rw [hxy] at hx
        exact .agree hx hrest

/-- The comparison of two lists is a run, if the one of their items is. -/
theorem compares_lists {opened : List OpenPair} {a b : ListRef} {answer : Bool}
    (hitems : .lists a b ∉ opened →
      h.ComparesAll (.lists a b :: opened) (h.itemPairs a b) answer) :
    h.Compares opened (.list a) (.list b)
      (a == b || ((h.items a).length == (h.items b).length &&
        (decide (.lists a b ∈ opened) || answer))) := by
  by_cases hne : a = b
  · subst hne
    rw [beq_self_eq_true, Bool.true_or]
    exact .sameList
  rw [beq_false_of_ne hne, Bool.false_or]
  by_cases hlen : (h.items a).length = (h.items b).length
  · rw [beq_iff_eq.mpr hlen, Bool.true_and]
    by_cases hopen : .lists a b ∈ opened
    · rw [decide_eq_true hopen, Bool.true_or]
      exact .openLists hne hlen hopen
    · rw [decide_eq_false hopen, Bool.false_or]
      exact .items hne hlen hopen (hitems hopen)
  · rw [beq_false_of_ne hlen, Bool.false_and]
    exact .listLengths hne hlen

/-- The comparison of two maps is a run, if the one of their members is. -/
theorem compares_maps {opened : List OpenPair} {a b : MapRef} {answer : Bool}
    (hmembers : .maps a b ∉ opened →
      h.ComparesAll (.maps a b :: opened) (h.memberPairs a b) answer) :
    h.Compares opened (.map a) (.map b)
      (a == b || ((h.members a).size == (h.members b).size &&
        (decide (.maps a b ∈ opened) || answer))) := by
  by_cases hne : a = b
  · subst hne
    rw [beq_self_eq_true, Bool.true_or]
    exact .sameMap
  rw [beq_false_of_ne hne, Bool.false_or]
  by_cases hsize : (h.members a).size = (h.members b).size
  · rw [beq_iff_eq.mpr hsize, Bool.true_and]
    by_cases hopen : .maps a b ∈ opened
    · rw [decide_eq_true hopen, Bool.true_or]
      exact .openMaps hne hsize hopen
    · rw [decide_eq_false hopen, Bool.false_or]
      exact .members hne hsize hopen (hmembers hopen)
  · rw [beq_false_of_ne hsize, Bool.false_and]
    exact .mapSizes hne hsize

/-- The comparison within a budget is a run, if the budget and the pairs under comparison
together are more than there are pairs. -/
theorem compares_equalWithin {budget : Nat} {opened : List OpenPair} (x y : Value)
    (hnodup : opened.Nodup) (hwithin : ∀ p ∈ opened, p.Within h)
    (hbudget : h.pairCount < budget + opened.length) :
    h.Compares opened x y (h.equalWithin budget opened x y) := by
  induction budget generalizing opened x y with
  | zero =>
    have := length_le_pairCount hnodup hwithin
    omega
  | succ budget ih =>
    have hparts : ∀ {p : OpenPair} {x y : Value}, p ∉ opened → p.Within h →
        h.Compares (p :: opened) x y (h.equalWithin budget (p :: opened) x y) := by
      intro p x y hopen hp
      refine ih x y (List.nodup_cons.mpr ⟨hopen, hnodup⟩)
        (List.forall_mem_cons.mpr ⟨hp, hwithin⟩) ?_
      rw [List.length_cons]
      omega
    cases x <;> cases y
    case list.list a b =>
      rw [equalWithin_lists]
      exact compares_lists fun hopen => comparesAll_all _ _ fun x y hp =>
        hparts hopen (within_of_mem_itemPairs hp)
    case map.map a b =>
      rw [equalWithin_maps]
      exact compares_maps fun hopen => comparesAll_all _ _ fun x y hp =>
        hparts hopen (within_of_mem_memberPairs hp)
    all_goals exact .plain rfl

/-- **The comparison of two values is a run.** -/
theorem compares_equal (h : Heap) (x y : Value) : h.Compares [] x y (h.equal x y) := by
  refine compares_equalWithin x y List.nodup_nil (fun _ hp => nomatch hp) ?_
  rw [pairCount, List.length_nil]
  omega

/-! ### Equality -/

/-- **Equality decides bisimilarity.** On every heap the comparison of two values comes to an
end with what a run answers, and on values from which no NaN can be reached it answers `true` for
bisimilar values only and for all of them. It is an equivalence on them. -/
theorem equal_decides_bisimilarity (h : Heap) :
    (∀ a b, h.Compares [] a b (h.equal a b)) ∧
    (∀ a b, h.NaNFree a → h.NaNFree b → (h.equal a b = true ↔ h.Bisimilar a b)) ∧
    (∀ a, h.NaNFree a → h.equal a a = true) ∧
    (∀ a b, h.NaNFree a → h.NaNFree b → h.equal a b = true → h.equal b a = true) ∧
    (∀ a b c, h.NaNFree a → h.NaNFree b → h.NaNFree c →
      h.equal a b = true → h.equal b c = true → h.equal a c = true) := by
  have hiff : ∀ {a b}, h.NaNFree a → (h.equal a b = true ↔ h.Bisimilar a b) := fun ha =>
    (h.compares_equal _ _).eq_true_iff_bisimilar ha
  refine ⟨h.compares_equal, fun a b ha _ => hiff ha, fun a ha => ?_, fun a b ha hb hab => ?_,
    fun a b c ha hb _ hab hbc => ?_⟩
  · exact (hiff ha).mpr ha.bisimilar_self
  · exact (hiff hb).mpr ((hiff ha).mp hab).symm
  · exact (hiff ha).mpr (((hiff ha).mp hab).trans ((hiff hb).mp hbc))

/-- Two lists that hold themselves, each beside a map with the same members in its own order. -/
theorem equal_decides_bisimilarity_cyclic :
    let h : Heap := {
      lists := #[[.list ⟨0⟩, .map ⟨0⟩], [.list ⟨1⟩, .map ⟨1⟩]]
      maps := #[.ofList [("x", .int 1), ("y", .null)], .ofList [("y", .null), ("x", .int 1)]] }
    h.NaNFree (.list ⟨0⟩) ∧ h.NaNFree (.list ⟨1⟩) ∧ h.equal (.list ⟨0⟩) (.list ⟨1⟩) = true ∧
      h.Bisimilar (.list ⟨0⟩) (.list ⟨1⟩) ∧ h.equal (.list ⟨1⟩) (.list ⟨0⟩) = true := by
  intro h
  have hholds : ∀ x y, (∀ z, x ≠ .float z) → h.Holds x y → ∀ z, y ≠ .float z := by
    rintro _ _ - (@⟨⟨_ | _ | i⟩, _, hy⟩ | @⟨⟨_ | _ | i⟩, key, _, hy⟩) z rfl
    · simp [h, items] at hy
    · simp [h, items] at hy
    · simp [h, items] at hy
    · have hmem : (key, Value.float z) ∈ [("x", Value.int 1), ("y", .null)] :=
        Fields.mem_of_get?_eq_some hy
      simp at hmem
    · have hmem : (key, Value.float z) ∈ [("y", Value.null), ("x", .int 1)] :=
        Fields.mem_of_get?_eq_some hy
      simp at hmem
    · have hmem : (key, Value.float z) ∈ [] := Fields.mem_of_get?_eq_some hy
      cases hmem
  have hfree : ∀ ref, h.NaNFree (.list ref) := fun ref =>
    .of_closed hholds (fun x hx => absurd rfl (hx x)) fun _ h => Value.noConfusion h
  have heq : h.equal (.list ⟨0⟩) (.list ⟨1⟩) = true := by decide +kernel
  obtain ⟨-, hiff, -, hsymm, -⟩ := equal_decides_bisimilarity h
  exact ⟨hfree ⟨0⟩, hfree ⟨1⟩, heq, (hiff _ _ (hfree ⟨0⟩) (hfree ⟨1⟩)).mp heq,
    hsymm _ _ (hfree ⟨0⟩) (hfree ⟨1⟩) heq⟩

end GatewayMapping.Heap
