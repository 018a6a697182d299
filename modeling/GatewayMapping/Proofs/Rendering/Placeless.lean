import GatewayMapping.Proofs.Rendering.Refinement
import GatewayMapping.Proofs.Syntax.Unplaced

/-!
# Rendering does not look at places

Places are read by failures only. So nodes that are the same but for their places succeed in the
same cases, with the same output in the same state (`Render.nodes_agrees_of_unplaced`): each of
them renders like what is left of it when its places are forgotten, one construct of the syntax
after the other. Literals are kept, since they are what an unbound reference renders.

## Main definitions

* `Render.Agrees`: two computations succeed in the same cases.

## Main results

* `Render.nodes_agrees_of_unplaced`: nodes render alike wherever they stand.
-/

namespace GatewayMapping.Template.Render

variable {α β : Type}

/-- The computations succeed from the same states, with the same value in the same state. -/
def Agrees (x y : Render α) : Prop := ∀ st a st', Succeeds x st a st' ↔ Succeeds y st a st'

namespace Agrees

theorem refl (x : Render α) : Agrees x x := fun _ _ _ => Iff.rfl

theorem symm {x y : Render α} (h : Agrees x y) : Agrees y x := fun st a st' => (h st a st').symm

theorem trans {x y z : Render α} (h : Agrees x y) (h' : Agrees y z) : Agrees x z :=
  fun st a st' => (h st a st').trans (h' st a st')

theorem of_eq {x y : Render α} (h : x = y) : Agrees x y := h ▸ refl x

theorem bind {x y : Render α} {f g : α → Render β} (hxy : Agrees x y)
    (hfg : ∀ a, Agrees (f a) (g a)) : Agrees (x >>= f) (y >>= g) := by
  intro st b st''
  rw [succeeds_bind_iff, succeeds_bind_iff]
  exact exists_congr fun a => exists_congr fun st' =>
    and_congr (hxy st a st') (hfg a st' b st'')

/-- Computations that go on in the same way. -/
theorem bind_right {x y : Render α} (hxy : Agrees x y) (f : α → Render β) :
    Agrees (x >>= f) (y >>= f) :=
  hxy.bind fun a => refl (f a)

/-- Computations that begin in the same way. -/
theorem bind_left (x : Render α) {f g : α → Render β} (hfg : ∀ a, Agrees (f a) (g a)) :
    Agrees (x >>= f) (x >>= g) :=
  (refl x).bind hfg

/-- Failures agree, whatever they are. -/
theorem fail (scene : Scene) (position position' : Position) (fault fault' : RenderFault) :
    Agrees (Render.fail scene position fault : Render α) (Render.fail scene position' fault') :=
  fun _ _ _ => iff_of_false (not_succeeds_fail _ _ _ _ _ _) (not_succeeds_fail _ _ _ _ _ _)

theorem ite {c : Prop} [Decidable c] {x x' y y' : Render α} (hx : Agrees x x')
    (hy : Agrees y y') : Agrees (if c then x else y) (if c then x' else y') := by
  split
  · exact hx
  · exact hy

end Agrees

/-! ### What may fail -/

section

variable (s : Scene) (r r' : Reference)

theorem settle_agrees (path : String) (member : Member) (typeName : String)
    (call : Heap → MethodResult) :
    Agrees (settle s r path member typeName call) (settle s r' path member typeName call) := by
  refine .bind_left _ fun heap => ?_
  rcases call heap with (_ | fault) | ⟨v, heap'⟩
  · exact .ite (.fail s _ _ _ _) (.refl _)
  · exact .fail s _ _ _ _
  · exact .refl _

theorem root_agrees (h : r.name = r'.name) : Agrees (root s r) (root s r') := by
  unfold root
  rw [h]
  refine .bind_left _ fun v? => ?_
  cases v? with
  | none => exact .ite (.fail s _ _ _ _) (.refl _)
  | some v => exact .refl _

theorem onNull_agrees (path : String) (member : Member) :
    Agrees (onNull s r path member) (onNull s r' path member) :=
  .ite (.fail s _ _ _ _) (.refl _)

theorem store_agrees (path : String) (parent key new : Value) :
    Agrees (store s r path parent key new) (store s r' path parent key new) := by
  cases parent with
  | map ref => exact .refl _
  | list ref =>
    refine .bind_left _ fun heap => ?_
    rcases ListMethod.run heap ref .set [key, new] with (_ | fault) | ⟨v, heap'⟩
    · exact .fail s _ _ _ _
    · exact .fail s _ _ _ _
    · exact .refl _
  | null => exact .ite (.refl _) (.fail s _ _ _ _)
  | _ => exact .fail s _ _ _ _

variable (position position' : Position)

theorem negation_agrees (v : Value) (e e' : Expr) :
    Agrees (negation s position v e) (negation s position' v e') :=
  .ite (.fail s _ _ _ _) (.refl _)

theorem nullOperation_agrees (op : BinaryOp) (a : Value) (left right left' right' : Expr) :
    Agrees (nullOperation s op position a left right)
      (nullOperation s op position' a left' right') :=
  .ite (.fail s _ _ _ _) (.refl _)

/-- A comparison fails where two values do not compare. -/
private theorem compared_agrees (op : BinaryOp) (a b : Value) :
    Agrees
      (match a.compare? b with
        | some o => return Value.bool (Value.agrees op o)
        | none => fail s position (.notComparable a.typeName b.typeName op))
      (match a.compare? b with
        | some o => return Value.bool (Value.agrees op o)
        | none => fail s position' (.notComparable a.typeName b.typeName op)) := by
  cases a.compare? b with
  | none => exact .fail s _ _ _ _
  | some o => exact .refl _

theorem literalOf_unplaced (e : Expr) : literalOf (e.unplaced id) = literalOf e := by
  cases e with
  | reference r => cases r; rfl
  | _ => rfl

theorem operandText_unplaced (v : Value) (e : Expr) :
    (operandText v (e.unplaced id) : Render String) = operandText v e := by
  cases v with
  | null => exact congrArg pure (literalOf_unplaced e)
  | _ => rfl

theorem operation_agrees (op : BinaryOp) (a b : Value) (left right : Expr) :
    Agrees (operation s op position a b (left.unplaced id) (right.unplaced id))
      (operation s op position' a b left right) := by
  unfold operation
  rw [operandText_unplaced, operandText_unplaced]
  split
  · exact .refl _
  · exact .refl _
  · refine .ite (.refl _) (.ite (nullOperation_agrees s _ _ op a _ _ _ _) ?_)
    cases op with
    | lt => exact compared_agrees s _ _ _ a b
    | le => exact compared_agrees s _ _ _ a b
    | gt => exact compared_agrees s _ _ _ a b
    | ge => exact compared_agrees s _ _ _ a b
    | _ => exact .refl _

theorem resource_agrees (e : Expr) (v : Value) :
    Agrees (resource s position (e.unplaced id) v) (resource s position' e v) := by
  unfold resource
  rw [operandText_unplaced]
  refine .bind_left _ fun name => ?_
  cases s.config.resources.get? name with
  | none => exact .fail s _ _ _ _
  | some source => exact .refl _

end

/-! ### Rounds -/

theorem rounds_agrees (loopVariable : String) {body body' : Render Output}
    (h : Agrees body body') : (index : Nat) → (items : List Value) →
      Agrees (rounds loopVariable body index items) (rounds loopVariable body' index items)
  | _, [] => .refl _
  | index, item :: items => by
      rw [rounds, rounds]
      refine .bind_left _ fun _ => h.bind fun o => ?_
      cases o.flow with
      | goOn => exact (rounds_agrees loopVariable h (index + 1) items).bind_right _
      | leave => exact .refl _
      | stop => exact .refl _

theorem loop_agrees (loopVariable : String) (collection : Value) {body body' : Render Output}
    (h : Agrees body body') :
    Agrees (loop loopVariable collection body) (loop loopVariable collection body') := by
  refine .bind_left _ fun heap => ?_
  cases collection with
  | list ref => exact .bind_left _ fun saved => (rounds_agrees loopVariable h 0 _).bind_right _
  | map ref => exact .bind_left _ fun saved => (rounds_agrees loopVariable h 0 _).bind_right _
  | _ => exact .refl _

/-! ### The whole syntax -/

/-- Before its last segment the path of a target is walked. -/
theorem assignAt_cons_cons (s : Scene) (new : Value) (target : Reference) (sg sg' : Segment)
    (ss : List Segment) (v : Value) (path : String) :
    assignAt s new target (sg :: sg' :: ss) v path =
      (step s target sg v path >>= fun p => assignAt s new target (sg' :: ss) p.1 p.2) := by
  simp only [assignAt]

mutual

theorem nodes_unplaced (s : Scene) :
    (ns : List Node) → Agrees (nodes s (unplacedNodes id ns)) (nodes s ns)
  | [] => .refl _
  | n :: ns => by
      rw [unplacedNodes, nodes, nodes]
      refine (node_unplaced s n).bind fun o => ?_
      cases o.flow with
      | goOn => exact (nodes_unplaced s ns).bind_right _
      | _ => exact .refl _
termination_by structural x => x

theorem node_unplaced (s : Scene) : (n : Node) → Agrees (node s (n.unplaced id)) (node s n)
  | .text _ => .refl _
  | .reference r => by
      rw [Node.unplaced, node, node]
      have hr := reference_unplaced s r
      cases r
      exact hr.bind_right _
  | .assign target value _ => by
      rw [Node.unplaced, node, node]
      refine (expr_unplaced s value).bind fun v => ?_
      cases v with
      | null => exact .refl _
      | _ => exact (assign_unplaced s _ target).bind_right _
  | .conditional bs none _ => by
      rw [Node.unplaced, node, node]
      exact branches_unplaced s (.refl _) bs
  | .conditional bs (some ns) _ => by
      rw [Node.unplaced, node, node]
      exact branches_unplaced s (nodes_unplaced s ns) bs
  | .forEach loopVariable items body _ => by
      rw [Node.unplaced, node, node]
      exact (expr_unplaced s items).bind fun v =>
        loop_agrees loopVariable v (nodes_unplaced s body)
  | .leave _ => .refl _
  | .stop _ => .refl _
  | .parse e position => by
      rw [Node.unplaced, node, node]
      cases s.inner? with
      | none => exact .fail s _ _ _ _
      | some inner =>
        exact (expr_unplaced s e).bind fun v => (resource_agrees s _ _ e v).bind_right _
  | .insert e position => by
      rw [Node.unplaced, node, node]
      exact (expr_unplaced s e).bind fun v => (resource_agrees s _ _ e v).bind_right _
termination_by structural x => x

theorem branches_unplaced (s : Scene) {last last' : Render Output} (hlast : Agrees last last') :
    (bs : List (Expr × List Node)) →
      Agrees (branches s last (unplacedBranches id bs)) (branches s last' bs)
  | [] => hlast
  | (e, body) :: bs => by
      rw [unplacedBranches, branches, branches]
      refine (holds_unplaced s e (expr_unplaced s e)).bind fun b => ?_
      cases b with
      | true => exact nodes_unplaced s body
      | false => exact branches_unplaced s hlast bs
termination_by structural x => x

theorem holds_unplaced (s : Scene) : (e : Expr) → {value value' : Render Value} →
    Agrees value value' → Agrees (holds s (e.unplaced id) value) (holds s e value')
  | .reference (.mk name [] _ _ _), _, _, _ => .refl _
  | .unary .not e _, _, _, _ => by
      rw [Expr.unplaced, holds, holds]
      exact (holds_unplaced s e (expr_unplaced s e)).bind_right _
  | .binary op left right _, _, _, hv => by
      cases op with
      | and =>
        rw [Expr.unplaced, holds, holds]
        refine (holds_unplaced s left (expr_unplaced s left)).bind fun b => ?_
        cases b with
        | true => exact holds_unplaced s right (expr_unplaced s right)
        | false => exact .refl _
      | or =>
        rw [Expr.unplaced, holds, holds]
        refine (holds_unplaced s left (expr_unplaced s left)).bind fun b => ?_
        cases b with
        | true => exact .refl _
        | false => exact holds_unplaced s right (expr_unplaced s right)
      | _ => exact hv.bind_right _
  | .reference (.mk _ (_ :: _) _ _ _), _, _, hv => hv.bind_right _
  | .unary .negate _ _, _, _, hv => hv.bind_right _
  | .null, _, _, hv => hv.bind_right _
  | .bool _, _, _, hv => hv.bind_right _
  | .int _, _, _, hv => hv.bind_right _
  | .float _, _, _, hv => hv.bind_right _
  | .string _, _, _, hv => hv.bind_right _
  | .interpolated _, _, _, hv => hv.bind_right _
  | .list _, _, _, hv => hv.bind_right _
  | .range _ _, _, _, hv => hv.bind_right _
  | .map _, _, _, hv => hv.bind_right _
termination_by structural x _ _ _ => x

theorem reference_unplaced (s : Scene) :
    (r : Reference) → Agrees (reference s (r.unplaced id)) (reference s r)
  | .mk _ segments _ _ _ => by
      rw [Reference.unplaced, reference, reference]
      refine .bind (root_agrees s _ _ rfl) fun v => ?_
      exact (walk_unplaced s _ _ segments v _).bind_right _
termination_by structural x => x

theorem walk_unplaced (s : Scene) (r r' : Reference) : (ss : List Segment) → (v : Value) →
    (path : String) → Agrees (walk s r (unplacedSegments id ss) v path) (walk s r' ss v path)
  | [], _, _ => .refl _
  | sg :: ss, v, path => by
      rw [unplacedSegments, walk, walk]
      exact (step_unplaced s r r' sg v path).bind fun p => walk_unplaced s r r' ss p.1 p.2
termination_by structural x _ _ => x

theorem step_unplaced (s : Scene) (r r' : Reference) : (sg : Segment) → (v : Value) →
    (path : String) → Agrees (step s r (sg.unplaced id) v path) (step s r' sg v path)
  | .property name, v, path => by
      rw [Segment.unplaced, step, step]
      exact .ite (onNull_agrees s r r' path _) ((settle_agrees s r r' path _ _ _).bind_right _)
  | .method name args, v, path => by
      rw [Segment.unplaced, step, step]
      exact .ite (onNull_agrees s r r' path _) ((exprs_unplaced s args).bind fun vs =>
        (settle_agrees s r r' path _ _ _).bind_right _)
  | .index e, v, path => by
      rw [Segment.unplaced, step, step]
      exact .ite (onNull_agrees s r r' path _) ((expr_unplaced s e).bind fun i =>
        .bind_left _ fun shown => (settle_agrees s r r' path _ _ _).bind_right _)
termination_by structural x _ _ => x

theorem assign_unplaced (s : Scene) (new : Value) :
    (r : Reference) → Agrees (assign s new (r.unplaced id)) (assign s new r)
  | .mk _ [] _ _ _ => .refl _
  | .mk _ (sg :: ss) _ _ _ => by
      simp only [Reference.unplaced, unplacedSegments, assign]
      exact .bind (root_agrees s _ _ rfl) fun v => assignAt_unplaced s new _ _ (sg :: ss) v _
termination_by structural x => x

theorem assignAt_unplaced (s : Scene) (new : Value) (target target' : Reference) :
    (ss : List Segment) → (v : Value) → (path : String) →
      Agrees (assignAt s new target (unplacedSegments id ss) v path)
        (assignAt s new target' ss v path)
  | [], _, _ => .refl _
  | [.property _], parent, path => store_agrees s target target' path parent _ new
  | [.index e], parent, path => by
      rw [unplacedSegments, unplacedSegments, Segment.unplaced, assignAt, assignAt]
      exact (expr_unplaced s e).bind fun key => store_agrees s target target' path parent key new
  | [.method _ _], _, _ => .fail s _ _ _ _
  | sg :: sg' :: ss, v, path => by
      rw [unplacedSegments, unplacedSegments, assignAt_cons_cons, assignAt_cons_cons]
      exact (step_unplaced s target target' sg v path).bind fun p =>
        assignAt_unplaced s new target target' (sg' :: ss) p.1 p.2
termination_by structural x _ _ => x

theorem exprs_unplaced (s : Scene) :
    (es : List Expr) → Agrees (exprs s (unplacedExprs id es)) (exprs s es)
  | [] => .refl _
  | e :: es => by
      rw [unplacedExprs, exprs, exprs]
      exact (expr_unplaced s e).bind fun v => (exprs_unplaced s es).bind_right _
termination_by structural x => x

theorem entries_unplaced (s : Scene) :
    (es : List (Expr × Expr)) → Agrees (entries s (unplacedEntries id es)) (entries s es)
  | [] => .refl _
  | (k, e) :: rest => by
      rw [unplacedEntries, entries, entries]
      exact (expr_unplaced s k).bind fun key => .bind_left _ fun name =>
        (expr_unplaced s e).bind fun v => (entries_unplaced s rest).bind_right _
termination_by structural x => x

theorem expr_unplaced (s : Scene) : (e : Expr) → Agrees (expr s (e.unplaced id)) (expr s e)
  | .null => .refl _
  | .bool _ => .refl _
  | .int _ => .refl _
  | .float _ => .refl _
  | .string _ => .refl _
  | .interpolated ns => by
      rw [Expr.unplaced, expr, expr]
      exact (nodes_unplaced s ns).bind_right _
  | .list items => by
      rw [Expr.unplaced, expr, expr]
      exact (exprs_unplaced s items).bind_right _
  | .range first last => by
      rw [Expr.unplaced, expr, expr]
      exact (expr_unplaced s first).bind fun a => (expr_unplaced s last).bind_right _
  | .map es => by
      rw [Expr.unplaced, expr, expr]
      exact (entries_unplaced s es).bind_right _
  | .reference r => by
      rw [Expr.unplaced, expr, expr]
      exact reference_unplaced s r
  | .unary .not e _ => by
      rw [Expr.unplaced, expr, expr]
      exact (expr_unplaced s e).bind_right _
  | .unary .negate e _ => by
      rw [Expr.unplaced, expr, expr]
      exact (expr_unplaced s e).bind fun v => negation_agrees s _ _ v _ e
  | .binary op left right _ => by
      cases op with
      | and =>
        rw [Expr.unplaced, expr, expr]
        refine (expr_unplaced s left).bind fun v => ?_
        cases v.isTruthy with
        | true => exact (expr_unplaced s right).bind_right _
        | false => exact .refl _
      | or =>
        rw [Expr.unplaced, expr, expr]
        refine (expr_unplaced s left).bind fun v => ?_
        cases v.isTruthy with
        | true => exact .refl _
        | false => exact (expr_unplaced s right).bind_right _
      | _ =>
        exact (expr_unplaced s left).bind fun a => (expr_unplaced s right).bind fun b =>
          operation_agrees s _ _ _ a b left right
termination_by structural x => x

end

/-- Nodes that are the same but for their places render alike. -/
theorem nodes_agrees_of_unplaced (s : Scene) {ns ns' : List Node}
    (h : ns.map (Node.unplaced id) = ns'.map (Node.unplaced id)) :
    Agrees (nodes s ns) (nodes s ns') := by
  rw [← unplacedNodes_eq_map, ← unplacedNodes_eq_map] at h
  have hns := nodes_unplaced s ns
  rw [h] at hns
  exact hns.symm.trans (nodes_unplaced s ns')

end GatewayMapping.Template.Render
