import GatewayMapping.Proofs.Rendering.Walks

/-!
# Simulations of renderings

Rendering is written over any monad, and the same template may be rendered in two scenes, over two
monads even. A *simulation* relates computations over the one to computations over the other: it
holds between the same values and between the same accesses to the state, and it goes through
sequences (`Simulation`). If it holds between what the two scenes are asked for as well
(`Simulation.Scenes`), then it is a walk over any template (`Simulation.Scenes.walk`), and holds
between the renderings of any nodes in them. Scenes that differ in how they render resources only
are asked for the same (`Simulation.Alike.scenes`).

## Main definitions

* `Simulation`, `Simulation.Scenes`, `Simulation.Alike`.

## Main results

* `Simulation.loop`: loops over the same items are related if their bodies are.
* `Simulation.Scenes.nodes`: rendering nodes is related.
* `Simulation.Alike.scenes`: scenes that differ in how they render resources only.
-/

namespace GatewayMapping.Template

open Render

/-- A relation between computations over two monads that goes through sequences and holds between
the same values, the same errors and the same accesses to the state. -/
structure Simulation (m n : Type → Type) [Monad m] [Monad n] where
  Rel {α : Type} : RenderT m α → RenderT n α → Prop
  pure {α : Type} (a : α) : Rel (pure a) (pure a)
  bind {α β : Type} {x : RenderT m α} {y : RenderT n α} {f : α → RenderT m β}
    {g : α → RenderT n β} (hxy : Rel x y) (hfg : ∀ a, Rel (f a) (g a)) : Rel (x >>= f) (y >>= g)
  throw {α : Type} (e : RenderError) : Rel (throw e : RenderT m α) (throw e)
  get : Rel get get
  modify (f : State → State) : Rel (modify f) (modify f)

namespace Simulation

variable {m n : Type → Type} [Monad m] [Monad n] {α β : Type} (S : Simulation m n)

/-- What the scenes are asked for is related. Parsed resources are compared as nodes, since one
scene may render them where the other one fails. -/
structure Scenes (s : Scene m) (s' : Scene n) : Prop where
  hosts : s'.hosts = s.hosts
  fail {α : Type} (position : Position) (fault : RenderFault) :
    S.Rel (Render.fail s position fault : RenderT m α) (Render.fail s' position fault)
  settle (r : Reference) (path : String) (member : Member) (typeName : String)
    (call : Heap → MethodResult) :
    S.Rel (Render.settle s r path member typeName call)
      (Render.settle s' r path member typeName call)
  root (r : Reference) : S.Rel (Render.root s r) (Render.root s' r)
  onNull (r : Reference) (path : String) (member : Member) :
    S.Rel (Render.onNull s r path member) (Render.onNull s' r path member)
  store (target : Reference) (path : String) (parent key new : Value) :
    S.Rel (Render.store s target path parent key new) (Render.store s' target path parent key new)
  negation (position : Position) (v : Value) (e : Expr) :
    S.Rel (Render.negation s position v e) (Render.negation s' position v e)
  operation (op : BinaryOp) (position : Position) (a b : Value) (left right : Expr) :
    S.Rel (Render.operation s op position a b left right)
      (Render.operation s' op position a b left right)
  resource (position : Position) (e : Expr) (v : Value) :
    S.Rel (Render.resource s position e v) (Render.resource s' position e v)
  parse (e : Expr) (position : Position) (he : S.Rel (Render.expr s e) (Render.expr s' e)) :
    S.Rel (Render.node s (.parse e position)) (Render.node s' (.parse e position))

/-! ### Accesses to the state -/

/-- Computations that go on in the same way from the same value. -/
theorem bind_pure {x : RenderT m α} {y : RenderT n α} (hxy : S.Rel x y) (f : α → β) :
    S.Rel (x >>= fun a => Pure.pure (f a)) (y >>= fun a => Pure.pure (f a)) :=
  S.bind hxy fun a => S.pure (f a)

theorem ofHeap (f : Heap → α) : S.Rel (Render.ofHeap f) (Render.ofHeap f) :=
  S.bind_pure S.get _

theorem onHeap (f : Heap → α × Heap) : S.Rel (Render.onHeap f) (Render.onHeap f) :=
  S.bind S.get fun _ => S.bind (S.modify _) fun _ => S.pure _

theorem lookup? (name : String) : S.Rel (Render.lookup? name) (Render.lookup? name) :=
  S.bind_pure S.get _

theorem restore (name : String) (v? : Option Value) :
    S.Rel (Render.restore name v?) (Render.restore name v?) := by
  cases v? with
  | none => exact S.modify _
  | some v => exact S.modify _

theorem takeAll : (names : List String) → S.Rel (Render.takeAll names) (Render.takeAll names)
  | [] => S.pure _
  | name :: names =>
      S.bind (S.lookup? name) fun _ => S.bind (S.modify _) fun _ =>
        S.bind_pure (takeAll names) _

theorem restoreAll : (saved : List (String × Option Value)) →
    S.Rel (Render.restoreAll saved) (Render.restoreAll saved)
  | [] => S.pure _
  | (name, v?) :: saved => S.bind (S.restore name v?) fun _ => restoreAll saved

/-! ### Loops -/

theorem beginRound (loopVariable : String) (index : Nat) (item : Value) (isLast : Bool) :
    S.Rel (Render.beginRound loopVariable index item isLast)
      (Render.beginRound loopVariable index item isLast) :=
  S.bind (S.modify _) fun _ => S.bind (S.onHeap _) fun _ => S.bind (S.modify _) fun _ => S.modify _

/-- The rounds of a loop are related as its body is. -/
theorem rounds (loopVariable : String) {body : RenderT m Output} {body' : RenderT n Output}
    (h : S.Rel body body') : (index : Nat) → (items : List Value) →
      S.Rel (Render.rounds loopVariable body index items)
        (Render.rounds loopVariable body' index items)
  | _, [] => S.pure _
  | index, item :: items => by
      rw [Render.rounds, Render.rounds]
      refine S.bind (S.beginRound loopVariable index item _) fun _ => S.bind h fun o => ?_
      cases o.flow with
      | goOn => exact S.bind_pure (rounds loopVariable h (index + 1) items) _
      | leave => exact S.pure _
      | stop => exact S.pure _

/-- A loop is related as its body is. -/
theorem loop (loopVariable : String) (collection : Value) {body : RenderT m Output}
    {body' : RenderT n Output} (h : S.Rel body body') :
    S.Rel (Render.loop loopVariable collection body)
      (Render.loop loopVariable collection body') := by
  refine S.bind (S.ofHeap id) fun heap => ?_
  have hrun (items : List Value) :
      S.Rel (do
        let saved ← Render.takeAll [loopVariable, roundName, counterName]
        let o ← Render.rounds loopVariable body 0 items
        Render.restoreAll saved
        return o)
      (do
        let saved ← Render.takeAll [loopVariable, roundName, counterName]
        let o ← Render.rounds loopVariable body' 0 items
        Render.restoreAll saved
        return o) :=
    S.bind (S.takeAll _) fun saved => S.bind (S.rounds loopVariable h 0 items) fun _ =>
      S.bind_pure (S.restoreAll saved) _
  cases collection with
  | list ref => exact hrun _
  | map ref => exact hrun _
  | _ => exact S.pure _

namespace Scenes

variable {S} {s : Scene m} {s' : Scene n}

/-- A simulation that holds between what the scenes are asked for is a walk over any template. -/
def walk (h : S.Scenes s s') : Walk s s' (fun _ => True) (fun _ => True) where
  Rel := S.Rel
  Along _ := S.Rel
  pure := S.pure
  bind := S.bind
  along := id
  bindAlong := S.bind
  ofHeap := S.ofHeap
  lookup? := S.lookup?
  newList _ := S.onHeap _
  newMap _ := S.onHeap _
  setVariable _ _ := S.modify _
  loop _ collection _ _ hbody := S.loop _ collection hbody
  root _ _ _ hfg := S.bind (h.root _) hfg
  onNull _ _ _ path := h.onNull _ path _
  settle _ _ _ path typeName _ _ := h.hosts ▸ h.settle _ path _ typeName _
  store _ := h.store _
  assignToMethod _ := h.fail _ _
  negation := h.negation
  operation := h.operation
  resource := h.resource
  parse := h.parse

/-- Rendering nodes is related. -/
theorem nodes (h : S.Scenes s s') (ns : List Node) :
    S.Rel (Render.nodes s ns) (Render.nodes s' ns) :=
  h.walk.nodes ns ⟨fun _ _ => trivial, fun _ _ => trivial⟩

end Scenes

/-! ### Scenes that render resources in different ways -/

/-- The scenes render resources in related ways, or none of them does, and agree in all else. -/
structure Alike (s : Scene m) (s' : Scene n) : Prop where
  config : s'.config = s.config
  hosts : s'.hosts = s.hosts
  template : s'.template = s.template
  inner : Option.Rel (fun render render' => ∀ name ns, S.Rel (render name ns) (render' name ns))
    s.inner? s'.inner?

namespace Alike

variable {S} {s : Scene m} {s' : Scene n}

theorem fail (h : S.Alike s s') (position : Position) (fault : RenderFault) :
    S.Rel (Render.fail s position fault : RenderT m α) (Render.fail s' position fault) := by
  rw [Render.fail, Render.fail, h.template]
  exact S.throw _

/-- A check that is made in strict scenes only, and otherwise gives a value. -/
theorem ite_strict (h : S.Alike s s') (position : Position) (fault : RenderFault) (a : α) :
    S.Rel (if s.config.strict then Render.fail s position fault else Pure.pure a)
      (if s'.config.strict then Render.fail s' position fault else Pure.pure a) := by
  rw [h.config]
  split
  · exact h.fail position fault
  · exact S.pure a

theorem settle (h : S.Alike s s') (r : Reference) (path : String) (member : Member)
    (typeName : String) (call : Heap → MethodResult) :
    S.Rel (Render.settle s r path member typeName call)
      (Render.settle s' r path member typeName call) := by
  refine S.bind (S.ofHeap id) fun heap => ?_
  rcases call heap with (_ | fault) | ⟨v, heap'⟩
  · exact h.ite_strict _ _ _
  · exact h.fail _ _
  · exact S.bind (S.modify _) fun _ => S.pure v

theorem root (h : S.Alike s s') (r : Reference) : S.Rel (Render.root s r) (Render.root s' r) := by
  refine S.bind (S.lookup? r.name) fun v? => ?_
  cases v? with
  | none => exact h.ite_strict _ _ _
  | some v => exact S.pure v

theorem store (h : S.Alike s s') (target : Reference) (path : String) (parent key new : Value) :
    S.Rel (Render.store s target path parent key new)
      (Render.store s' target path parent key new) := by
  cases parent with
  | map ref => exact S.modify _
  | list ref =>
    refine S.bind (S.ofHeap id) fun heap => ?_
    rcases ListMethod.run heap ref .set [key, new] with (_ | fault) | ⟨v, heap'⟩
    · exact h.fail _ _
    · exact h.fail _ _
    · exact S.modify _
  | null =>
    simp only [Render.store, h.config]
    split
    · exact S.pure _
    · exact h.fail _ _
  | _ => exact h.fail _ _

theorem negation (h : S.Alike s s') (position : Position) (v : Value) (e : Expr) :
    S.Rel (Render.negation s position v e) (Render.negation s' position v e) := by
  unfold Render.negation
  rw [h.config]
  split
  · exact h.fail _ _
  · exact S.pure _

theorem operandText (v : Value) (e : Expr) :
    S.Rel (Render.operandText v e) (Render.operandText v e) := by
  cases v with
  | null => exact S.pure _
  | _ => exact S.ofHeap fun heap => heap.text _

theorem nullOperation (h : S.Alike s s') (op : BinaryOp) (position : Position) (a : Value)
    (left right : Expr) :
    S.Rel (Render.nullOperation s op position a left right)
      (Render.nullOperation s' op position a left right) := by
  unfold Render.nullOperation
  rw [h.config]
  split
  · exact h.fail _ _
  · cases op <;> exact S.pure _

/-- A comparison fails where two values do not compare. -/
private theorem compared (h : S.Alike s s') (op : BinaryOp) (position : Position) (a b : Value) :
    S.Rel
      (match a.compare? b with
        | some o => Pure.pure (Value.bool (Value.agrees op o))
        | none => Render.fail s position (.notComparable a.typeName b.typeName op))
      (match a.compare? b with
        | some o => Pure.pure (Value.bool (Value.agrees op o))
        | none => Render.fail s' position (.notComparable a.typeName b.typeName op)) := by
  cases a.compare? b with
  | none => exact h.fail _ _
  | some o => exact S.pure _

theorem operation (h : S.Alike s s') (op : BinaryOp) (position : Position) (a b : Value)
    (left right : Expr) :
    S.Rel (Render.operation s op position a b left right)
      (Render.operation s' op position a b left right) := by
  unfold Render.operation
  split
  · exact S.bind_pure (S.ofHeap _) _
  · exact S.bind_pure (S.ofHeap _) _
  · split
    · exact S.bind (operandText a left) fun _ => S.bind_pure (operandText b right) _
    · split
      · exact h.nullOperation op position a left right
      · cases op with
        | lt => exact h.compared _ _ _ _
        | le => exact h.compared _ _ _ _
        | gt => exact h.compared _ _ _ _
        | ge => exact h.compared _ _ _ _
        | _ => exact S.pure _

theorem resource (h : S.Alike s s') (position : Position) (e : Expr) (v : Value) :
    S.Rel (Render.resource s position e v) (Render.resource s' position e v) := by
  refine S.bind (operandText v e) fun name => ?_
  rw [h.config]
  cases s.config.resources.get? name with
  | none => exact h.fail _ _
  | some source => exact S.pure _

theorem parsed {render : String → List Node → RenderT m Output}
    {render' : String → List Node → RenderT n Output}
    (h : ∀ name ns, S.Rel (render name ns) (render' name ns)) (name source : String) :
    S.Rel (Render.parsed render name source) (Render.parsed render' name source) := by
  unfold Render.parsed
  cases Template.parse source with
  | error e => exact S.throw _
  | ok ns => exact S.bind_pure (h name ns) _

theorem parse (h : S.Alike s s') (e : Expr) (position : Position)
    (he : S.Rel (Render.expr s e) (Render.expr s' e)) :
    S.Rel (Render.node s (.parse e position)) (Render.node s' (.parse e position)) := by
  rw [Render.node, Render.node]
  have hinner := h.inner
  revert hinner
  cases s.inner? <;> cases s'.inner? <;> intro hinner <;> cases hinner
  · rw [h.config]
    exact h.fail _ _
  · next hrender =>
    exact S.bind he fun v => S.bind (h.resource position e v) fun p => parsed hrender p.1 p.2

/-- Scenes that differ in how they render resources only are asked for the same. -/
theorem scenes (h : S.Alike s s') : S.Scenes s s' where
  hosts := h.hosts
  fail := h.fail
  settle := h.settle
  root := h.root
  onNull r _ _ := h.ite_strict r.position _ _
  store := h.store
  negation := h.negation
  operation := h.operation
  resource := h.resource
  parse := h.parse

end Alike
end Simulation

end GatewayMapping.Template
