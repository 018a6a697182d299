import GatewayMapping.Proofs.Rendering.Permissiveness

/-!
# Conditions and expressions

A condition is not evaluated like other expressions. The operators that join conditions are gone
through once more for it, and a variable without a path may be unbound in it. What these rules
leave out is the value of the expression, of which a condition keeps only whether it is true.

Where the expression has a value, the condition holds exactly if this value is true, and both leave
the same state. Where references may be unbound, a condition is the truth of its expression in all
cases, errors included (`condition_of_expr`). Both are instances of one induction over the
condition, which carries any simulation of renderings from bare references to all conditions
(`truth_related`).

## Main definitions

* `Render.truth`: whether the value of a computation is true.
* `sameRendering`: equality as a simulation.

## Main results

* `Render.truth_related`: the truth of an expression is related to the condition.
* `Render.condition_of_expr`: conditions agree with expressions.
-/

namespace GatewayMapping

/-- Of the two truth values only `true` counts as true. -/
@[simp] theorem Value.isTruthy_bool (b : Bool) : (Value.bool b).isTruthy = b := by
  cases b <;> rfl

namespace Template

/-- Equality is a simulation. -/
def sameRendering : Simulation Id Id where
  Rel x y := x = y
  pure _ := rfl
  bind hxy hfg := by rw [hxy, funext hfg]
  throw _ := rfl
  get := rfl
  modify _ := rfl

namespace Render

variable {scene : Scene}

/-- Whether the value of a computation is true. -/
def truth (x : Render Value) : Render Bool := return (← x).isTruthy

/-! ### The operators of conditions -/

theorem truth_not (e : Expr) (position : Position) :
    truth (expr scene (.unary .not e position)) =
      (truth (expr scene e) >>= fun b => pure !b) := by
  rw [expr, truth, truth, bind_assoc, bind_assoc]
  simp only [pure_bind, Value.isTruthy_bool]

theorem truth_and (left right : Expr) (position : Position) :
    truth (expr scene (.binary .and left right position)) =
      (truth (expr scene left) >>= fun b =>
        if b then truth (expr scene right) else pure false) := by
  rw [expr, truth, truth, bind_assoc, bind_assoc]
  refine bind_congr fun v => ?_
  rw [pure_bind]
  cases v.isTruthy with
  | true => simp only [if_true, truth, bind_assoc, pure_bind, Value.isTruthy_bool]
  | false => rfl

theorem truth_or (left right : Expr) (position : Position) :
    truth (expr scene (.binary .or left right position)) =
      (truth (expr scene left) >>= fun b =>
        if b then pure true else truth (expr scene right)) := by
  rw [expr, truth, truth, bind_assoc, bind_assoc]
  refine bind_congr fun v => ?_
  rw [pure_bind]
  cases v.isTruthy with
  | true => rfl
  | false =>
    simp only [Bool.false_eq_true, if_false, truth, bind_assoc, pure_bind, Value.isTruthy_bool]

/-! ### Variables -/

/-- Whether the value of a bare variable is true, if it has one. -/
theorem truth_bare (name : String) (quiet : Bool) (literal : String) (position : Position) :
    truth (expr scene (.reference (.mk name [] quiet literal position))) =
      (lookup? name >>= fun v? =>
        match v? with
        | some v => pure v.isTruthy
        | none =>
          if scene.config.strict then fail scene position (.undefined name literal)
          else pure false) := by
  rw [expr, reference, truth, bind_assoc]
  simp only [walk, pure_bind]
  rw [root, bind_assoc]
  refine bind_congr fun v? => ?_
  cases v? with
  | some v => rfl
  | none =>
    dsimp only
    split
    · rfl
    · rfl

/-! ### All conditions -/

/-- A simulation that relates the truth of bare variables to their conditions relates the truth of
every expression to its condition. -/
theorem truth_related (S : Simulation Id Id) (hrefl : ∀ x : Render Bool, S.Rel x x)
    (hbare : ∀ name quiet literal position,
      S.Rel (truth (expr scene (.reference (.mk name [] quiet literal position))))
        (condition scene (.reference (.mk name [] quiet literal position)))) :
    (e : Expr) → S.Rel (truth (expr scene e)) (condition scene e)
  | .reference (.mk name [] quiet literal position) => hbare name quiet literal position
  | .unary .not e position => by
      rw [truth_not, condition, holds]
      exact S.bind_pure (truth_related S hrefl hbare e) _
  | .binary op left right position => by
      cases op with
      | and =>
        rw [truth_and, condition, holds]
        refine S.bind (truth_related S hrefl hbare left) fun b => ?_
        cases b with
        | true => exact truth_related S hrefl hbare right
        | false => exact S.pure _
      | or =>
        rw [truth_or, condition, holds]
        refine S.bind (truth_related S hrefl hbare left) fun b => ?_
        cases b with
        | true => exact S.pure _
        | false => exact truth_related S hrefl hbare right
      | _ => exact hrefl _
  | .reference (.mk _ (_ :: _) _ _ _) => hrefl _
  | .unary .negate _ _ => hrefl _
  | .null => hrefl _
  | .bool _ => hrefl _
  | .int _ => hrefl _
  | .float _ => hrefl _
  | .string _ => hrefl _
  | .interpolated _ => hrefl _
  | .list _ => hrefl _
  | .range _ _ => hrefl _
  | .map _ => hrefl _

/-- An unbound variable makes an expression fail where references are strict, and otherwise the
value is null. In a condition it is not true, either way. -/
theorem truth_refines_condition (e : Expr) :
    Refines (truth (expr scene e)) (condition scene e) := by
  refine truth_related refinement .refl (fun name quiet literal position => ?_) e
  rw [truth_bare]
  refine Refines.bind_left _ fun v? => ?_
  cases v? with
  | some v => exact .refl _
  | none =>
    dsimp only
    split
    · exact .fail scene _ _ _
    · exact .refl _

theorem truth_eq_condition (hstrict : scene.config.strict = false) (e : Expr) :
    truth (expr scene e) = condition scene e := by
  refine truth_related sameRendering (fun _ => rfl) (fun name quiet literal position => ?_) e
  rw [truth_bare]
  refine bind_congr fun v? => ?_
  cases v? with
  | some v => rfl
  | none =>
    rw [hstrict]
    rfl

/-- **Conditions agree with expressions.** Where an expression has a value, it holds as a condition
exactly if the value is true, and it leaves the same variables and containers. Where references may
be unbound, the two end alike from every state: with the same error in the same state if there is
one. -/
theorem condition_of_expr (scene : Scene) (e : Expr) (st : State) :
    (∀ v st', (expr scene e).run.run st = (.ok v, st') →
      (condition scene e).run.run st = (.ok v.isTruthy, st')) ∧
    (scene.config.strict = false → (condition scene e).run.run st =
      (((expr scene e).run.run st).1.map Value.isTruthy, ((expr scene e).run.run st).2)) := by
  constructor
  · intro v st' h
    exact truth_refines_condition e st v.isTruthy st' (succeeds_bind_iff.mpr ⟨v, st', h, rfl⟩)
  · intro hstrict
    rw [← truth_eq_condition hstrict, truth, run_bind]
    rcases (expr scene e).run.run st with ⟨e | v, st'⟩
    · rfl
    · rfl

/-- A condition that adds to a list and then looks at its size. -/
theorem condition_of_expr_adding :
    let scene : Scene := ⟨{}, [], "t", none⟩
    let call (method : String) (args : List Expr) : Expr :=
      .reference (.mk "l" [.method method args] false ("$l." ++ method) .start)
    let e : Expr := .binary .or (.unary .not (call "add" [.int 7]) .start)
      (.binary .lt (call "size" []) (.int 2) .start) .start
    let st : State := ⟨{ lists := #[[]] }, .ofList [("l", .list ⟨0⟩)]⟩
    let st' : State := ⟨{ lists := #[[.int 7]] }, st.scope⟩
    (expr scene e).run.run st = (.ok (.bool true), st') ∧
      (condition scene e).run.run st = (.ok true, st') := by
  intro scene call e st st'
  have h : (expr scene e).run.run st = (.ok (.bool true), st') :=
    Prod.ext (eq_ok_of_toOption (by decide +kernel)) (by decide +kernel)
  exact ⟨h, (condition_of_expr scene e st).1 _ _ h⟩

end Render
end Template
end GatewayMapping
