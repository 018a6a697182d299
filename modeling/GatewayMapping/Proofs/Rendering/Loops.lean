import GatewayMapping.Proofs.Rendering.Failures

/-!
# The variables of loops

A loop takes three variables over while it runs: its own one, and the two that tell about the
round. It makes them unbound one after the other, keeping what each was bound to, and when it ends
without an error it gives them back in the same order.

This works for any names that are taken, as long as no name is taken twice
(`get?_of_takeAll_of_restoreAll`). A name that is taken twice is found unbound the second time, and
this is what it is given back last. The own variable of a loop may be named like one of the other
two. The loop then loses what it was bound to, and is right about the other one
(`get?_of_loop_succeeds`).

## Main definitions

* `Render.loopNames`: the variables that a loop takes over.
* `Value.IsCollection`: what loops go over.

## Main results

* `Render.get?_of_takeAll_of_restoreAll`: what is found after names are taken and given back.
* `Render.forEach_restores_iff`: the loops that restore the variables that they take over.
-/

namespace GatewayMapping

/-- A value that a loop goes over. Over any other there are no rounds. -/
def Value.IsCollection : Value → Prop
  | .list _ | .map _ => True
  | _ => False

namespace Template.Render

variable {st st₁ st₂ st' : State}

/-! ### Taking variables and giving them back -/

theorem get?_of_restore_succeeds {name : String} {v? : Option Value}
    (h : Succeeds (restore name v?) st () st') (x : String) :
    st'.scope.get? x = if name = x then v? else st.scope.get? x := by
  obtain ⟨_, hrestore, hget⟩ := restore_succeeds name v? st
  obtain rfl := (Prod.mk.inj (h.symm.trans hrestore)).2
  exact hget x

/-- Whatever happens in between, a name that is taken once has its value again when it is given
back, a name that is taken more often is unbound, and no other changes. -/
theorem get?_of_takeAll_of_restoreAll {names : List String}
    {saved : List (String × Option Value)} (htake : Succeeds (takeAll names) st saved st₁)
    (hrestore : Succeeds (restoreAll saved) st₂ () st') (x : String) :
    st'.scope.get? x =
      if names.count x = 0 then st₂.scope.get? x
      else if names.count x = 1 then st.scope.get? x
      else none := by
  induction names generalizing st saved st₂ with
  | nil =>
    cases htake
    cases hrestore
    rfl
  | cons name names ih =>
    obtain ⟨v?, _, hlookup, htake⟩ := succeeds_bind_iff.mp htake
    obtain ⟨_, erased, herase, htake⟩ := succeeds_bind_iff.mp htake
    obtain ⟨rest, _, hrest, hsaved⟩ := succeeds_bind_iff.mp htake
    cases hlookup
    cases herase
    cases hsaved
    obtain ⟨_, restored, hfirst, hothers⟩ := succeeds_bind_iff.mp hrestore
    rw [ih hrest hothers, get?_of_restore_succeeds hfirst, OrderedMap.get?_erase]
    by_cases hx : name = x
    · subst hx
      rw [List.count_cons_self, if_pos rfl, if_pos rfl, if_neg (Nat.succ_ne_zero _), ite_self]
      by_cases hcount : names.count name = 0
      · rw [if_pos hcount, if_pos (by omega)]
      · rw [if_neg hcount, if_neg (by omega)]
    · rw [List.count_cons_of_ne hx, if_neg hx, if_neg hx]

/-! ### Loops -/

/-- The variables that a loop takes over, in the order in which it takes them. -/
def loopNames (loopVariable : String) : List String := [loopVariable, roundName, counterName]

instance (name : String) : Decidable (IsRoundVariable name) :=
  inferInstanceAs (Decidable (name = roundName ∨ name = counterName))

/-- Only the own variable of a loop may be taken twice. -/
theorem count_loopNames {loopVariable x : String} (hx : x ∈ loopNames loopVariable) :
    (loopNames loopVariable).count x = 1 ↔
      ¬(x = loopVariable ∧ IsRoundVariable loopVariable) := by
  have hne : roundName ≠ counterName := by decide
  simp only [loopNames, List.mem_cons, List.not_mem_nil, or_false] at hx
  simp only [loopNames, IsRoundVariable, List.count_cons, List.count_nil, beq_iff_eq]
  by_cases hround : loopVariable = roundName
  · subst hround
    rcases hx with rfl | rfl | rfl <;> simp [hne, hne.symm]
  · by_cases hcounter : loopVariable = counterName
    · subst hcounter
      rcases hx with rfl | rfl | rfl <;> simp [hne, hne.symm]
    · rcases hx with rfl | rfl | rfl <;>
        simp [hne, hne.symm, hround, hcounter, Ne.symm hround, Ne.symm hcounter]

/-- A loop over a collection takes variables over, goes through its rounds and gives the variables
back. -/
theorem loop_succeeds {loopVariable : String} {collection : Value} {body : Render Output}
    {o : Output} (hcollection : collection.IsCollection)
    (h : Succeeds (loop loopVariable collection body) st o st') :
    ∃ saved st₁ st₂, Succeeds (takeAll (loopNames loopVariable)) st saved st₁ ∧
      Succeeds (restoreAll saved) st₂ () st' := by
  obtain ⟨heap, _, hheap, h⟩ := succeeds_bind_iff.mp h
  cases hheap
  have hrun {items : List Value} (h : Succeeds (do
      let saved ← takeAll (loopNames loopVariable)
      let o ← rounds loopVariable body 0 items
      restoreAll saved
      return o) st o st') :
      ∃ saved st₁ st₂, Succeeds (takeAll (loopNames loopVariable)) st saved st₁ ∧
        Succeeds (restoreAll saved) st₂ () st' := by
    obtain ⟨saved, st₁, htake, h⟩ := succeeds_bind_iff.mp h
    obtain ⟨_, st₂, -, h⟩ := succeeds_bind_iff.mp h
    obtain ⟨_, _, hrestore, h⟩ := succeeds_bind_iff.mp h
    cases h
    exact ⟨saved, st₁, st₂, htake, hrestore⟩
  cases collection with
  | list ref => exact hrun h
  | map ref => exact hrun h
  | _ => exact hcollection.elim

/-- After a loop over a collection its own variable is unbound if it is taken twice, and all three
are found as before otherwise. -/
theorem get?_of_loop_succeeds {loopVariable : String} {collection : Value}
    {body : Render Output} {o : Output} (hcollection : collection.IsCollection)
    (h : Succeeds (loop loopVariable collection body) st o st') {x : String}
    (hx : x ∈ loopNames loopVariable) :
    st'.scope.get? x =
      if x = loopVariable ∧ IsRoundVariable loopVariable then none else st.scope.get? x := by
  obtain ⟨saved, st₁, st₂, htake, hrestore⟩ := loop_succeeds hcollection h
  have hcount : (loopNames loopVariable).count x ≠ 0 := by
    rwa [ne_eq, List.count_eq_zero, not_not]
  rw [get?_of_takeAll_of_restoreAll htake hrestore, if_neg hcount]
  simp only [count_loopNames hx, ite_not]

theorem loop_succeeds_of_not_isCollection {loopVariable : String} {collection : Value}
    {body : Render Output} {o : Output} (hcollection : ¬collection.IsCollection)
    (h : Succeeds (loop loopVariable collection body) st o st') : st' = st := by
  obtain ⟨_, _, hheap, h⟩ := succeeds_bind_iff.mp h
  cases hheap
  cases collection with
  | list ref => exact absurd trivial hcollection
  | map ref => exact absurd trivial hcollection
  | _ =>
    cases h
    rfl

/-- **Loops restore what they take over**, whatever their bodies do and in whichever of the three
ways they end, unless their own variable is named like one that tells about the round and was bound
before. What was bound before is seen where the collection has been computed. -/
theorem forEach_restores_iff {scene : Scene} {loopVariable : String} {items : Expr}
    {body : List Node} {position : Position} {o : Output}
    (h : Succeeds (node scene (.forEach loopVariable items body position)) st o st') :
    ∃ collection before, Succeeds (expr scene items) st collection before ∧
      ((∀ x ∈ loopNames loopVariable, st'.scope.get? x = before.scope.get? x) ↔
        ¬(collection.IsCollection ∧ IsRoundVariable loopVariable ∧
          (before.scope.get? loopVariable).isSome)) := by
  rw [node] at h
  obtain ⟨collection, before, hitems, hloop⟩ := succeeds_bind_iff.mp h
  refine ⟨collection, before, hitems, ?_⟩
  by_cases hcollection : collection.IsCollection
  · have hget := fun x => get?_of_loop_succeeds (x := x) hcollection hloop
    constructor
    · rintro hrestored ⟨-, hround, hbound⟩
      have hown : loopVariable ∈ loopNames loopVariable := List.mem_cons_self
      rw [← hrestored _ hown, hget _ hown, if_pos ⟨rfl, hround⟩] at hbound
      exact absurd hbound (by decide)
    · intro hlost x hx
      rw [hget x hx]
      split
      · next hcoincides =>
        obtain ⟨rfl, hround⟩ := hcoincides
        have hunbound := fun hbound => hlost ⟨hcollection, hround, hbound⟩
        exact (Option.not_isSome_iff_eq_none.mp hunbound).symm
      · rfl
  · rw [loop_succeeds_of_not_isCollection hcollection hloop]
    exact ⟨fun _ h => hcollection h.1, fun _ _ _ => rfl⟩

/-- A loop whose body goes through a loop of the same variable, binds all three variables and
leaves. -/
theorem forEach_restores_iff_nested :
    let scene : Scene := ⟨{}, [], "t", none⟩
    let x : Reference := .mk "x" [] false "$x" ⟨2, 1⟩
    let counter : Reference := .mk counterName [] false "$velocityCount" ⟨3, 1⟩
    let body : List Node :=
      [.forEach "x" (.map [(.string "k", .int 2)]) [.assign x (.int 3) ⟨2, 1⟩] ⟨2, 1⟩,
        .assign counter (.string "none") ⟨3, 1⟩, .reference x, .leave ⟨3, 9⟩]
    let loop : Node := .forEach "x" (.list [.int 5, .int 6]) body ⟨1, 1⟩
    let st : State := ⟨.empty, .ofList [("x", .int 1), (counterName, .int 7)]⟩
    ∃ st', Succeeds (node scene loop) st (.ofText "5") st' ∧
      st'.scope.get? "x" = some (.int 1) ∧ st'.scope.get? roundName = none ∧
      st'.scope.get? counterName = some (.int 7) := by
  intro scene x counter body loop st
  have hrun : Succeeds (node scene loop) st (.ofText "5") ((node scene loop).run.run st).2 :=
    succeeds_of_toOption (by decide +kernel)
  obtain ⟨collection, before, hitems, hiff⟩ := forEach_restores_iff hrun
  cases hitems
  have hrestored := hiff.mpr fun h => absurd h.2.1 (by decide)
  simp only [loopNames, List.forall_mem_cons] at hrestored
  obtain ⟨hx, hround, hcounter, -⟩ := hrestored
  exact ⟨_, hrun, hx, hround, hcounter⟩

/-- A loop over the variable that counts the rounds makes it unbound. -/
theorem exists_forEach_not_restoring :
    ∃ scene loopVariable items body position st collection before o st',
      Succeeds (expr scene items) st collection before ∧ collection.IsCollection ∧
      Succeeds (node scene (.forEach loopVariable items body position)) st o st' ∧
      ¬∀ x ∈ loopNames loopVariable, st'.scope.get? x = before.scope.get? x := by
  let scene : Scene := ⟨{}, [], "t", none⟩
  let loop : Node := .forEach counterName (.list [.int 1]) [] ⟨1, 1⟩
  let st : State := ⟨.empty, .ofList [(counterName, .int 7)]⟩
  let before : State := ⟨(st.heap.newList [.int 1]).2, st.scope⟩
  let st' : State := ((node scene loop).run.run st).2
  have hrun : Succeeds (node scene loop) st (.ofText "") st' :=
    succeeds_of_toOption (by decide +kernel)
  have hlost : st'.scope.get? counterName = none := by decide +kernel
  refine ⟨scene, counterName, .list [.int 1], [], ⟨1, 1⟩, st, .list ⟨0⟩, before, _, st', rfl,
    trivial, hrun, fun h => ?_⟩
  exact absurd (hlost.symm.trans (h counterName List.mem_cons_self)) (by decide)

end Template.Render

end GatewayMapping
