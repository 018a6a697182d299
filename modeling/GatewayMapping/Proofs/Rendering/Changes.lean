import Mathlib.Logic.Relation
import GatewayMapping.Proofs.OrderedMap
import GatewayMapping.Proofs.Rendering.Refinement
import GatewayMapping.Proofs.Rendering.Walks

/-!
# The changes that rendering makes

Whatever a template does to the variables and the containers is a sequence of small changes: a
variable is bound or made unbound, a list or a map is made, a map gets a member, a method is
called (`State.Change`). The variables that change are those that the template or a resource binds
somewhere, and the two that tell about the rounds of a loop (`Config.Binds`). Where rendering
fails, the changes up to the failure have been made.

So what a change keeps, rendering keeps. The first use of it is that every other variable has the
value that it had before (`scope_evaluate_of_not_binds`).

The relation is an overapproximation: a change need not be one that a template can bring about.

## Main definitions

* `State.Change`, `State.Reaches`: the changes and their sequences.
* `Render.Moves`: computations that make such changes only.
* `Config.Binds`: the variables that a rendering may bind.

## Main results

* `Render.nodes_moves`: rendering nodes makes such changes only.
* `reaches_evaluate`: so does rendering a source.
* `scope_evaluate_of_not_binds`: the variables that rendering leaves alone.
-/

namespace GatewayMapping.Template

/-! ### Changes -/

/-- A change of one variable, which is one of `bound`, or of the containers. -/
inductive State.Change (hosts : Hosts) (bound : String → Prop) (st : State) : State → Prop
  | bind {name : String} (h : bound name) (v : Value) :
      Change hosts bound st { st with scope := st.scope.insert name v }
  | unbind {name : String} (h : bound name) :
      Change hosts bound st { st with scope := st.scope.erase name }
  | newList (items : List Value) :
      Change hosts bound st { st with heap := (st.heap.newList items).2 }
  | newMap (members : OrderedMap Value) :
      Change hosts bound st { st with heap := (st.heap.newMap members).2 }
  | setMember (ref : MapRef) (key : String) (v : Value) :
      Change hosts bound st
        { st with heap := st.heap.setMembers ref ((st.heap.members ref).insert key v) }
  | call {target v : Value} {method : String} {args : List Value} {heap : Heap}
      (h : Method.invoke hosts st.heap target method args = .ok (v, heap)) :
      Change hosts bound st { st with heap := heap }

/-- A state after any number of changes. -/
def State.Reaches (hosts : Hosts) (bound : String → Prop) : State → State → Prop :=
  Relation.ReflTransGen (State.Change hosts bound)

section

variable {hosts : Hosts} {bound bound' : String → Prop} {st st' : State}

theorem State.Change.mono (hle : ∀ name, bound name → bound' name)
    (h : st.Change hosts bound st') : st.Change hosts bound' st' := by
  cases h with
  | bind h v => exact .bind (hle _ h) v
  | unbind h => exact .unbind (hle _ h)
  | newList items => exact .newList items
  | newMap members => exact .newMap members
  | setMember ref key v => exact .setMember ref key v
  | call h => exact .call h

theorem State.Reaches.mono (hle : ∀ name, bound name → bound' name)
    (h : State.Reaches hosts bound st st') : State.Reaches hosts bound' st st' := by
  induction h with
  | refl => exact .refl
  | tail _ hc ih => exact ih.tail (hc.mono hle)

/-- A change leaves the variables alone that it may not bind. -/
theorem State.Change.get?_scope (h : st.Change hosts bound st') {name : String}
    (hname : ¬bound name) : st'.scope.get? name = st.scope.get? name := by
  have hne {x : String} (hx : bound x) : x ≠ name := fun he => hname (he ▸ hx)
  cases h with
  | bind hbound v => exact (OrderedMap.get?_insert ..).trans (if_neg (hne hbound))
  | unbind hbound => exact (OrderedMap.get?_erase ..).trans (if_neg (hne hbound))
  | _ => rfl

theorem State.Reaches.get?_scope (h : State.Reaches hosts bound st st') {name : String}
    (hname : ¬bound name) : st'.scope.get? name = st.scope.get? name := by
  induction h with
  | refl => rfl
  | tail _ hc ih => exact (hc.get?_scope hname).trans ih

end

namespace Render

variable {α β : Type} {hosts : Hosts} {bound : String → Prop}

/-- Wherever the computation ends, it comes there by changes. -/
def Moves (hosts : Hosts) (bound : String → Prop) (x : Render α) : Prop :=
  ∀ st, State.Reaches hosts bound st (x.run.run st).2

namespace Moves

theorem pure (a : α) : Moves hosts bound (Pure.pure a) := fun _ => .refl

/-- What follows a computation may rely on its value being one that the computation gives. -/
theorem bind_of_succeeds {x : Render α} {f : α → Render β} (hx : Moves hosts bound x)
    (hf : ∀ st a st', Succeeds x st a st' → Moves hosts bound (f a)) :
    Moves hosts bound (x >>= f) := by
  intro st
  have hxst := hx st
  rw [run_bind]
  rcases hrun : x.run.run st with ⟨e | a, st'⟩
  · rw [hrun] at hxst
    exact hxst
  · rw [hrun] at hxst
    exact hxst.trans (hf st a st' hrun st')

theorem bind {x : Render α} {f : α → Render β} (hx : Moves hosts bound x)
    (hf : ∀ a, Moves hosts bound (f a)) : Moves hosts bound (x >>= f) :=
  hx.bind_of_succeeds fun _ a _ _ => hf a

theorem bind_pure {x : Render α} (hx : Moves hosts bound x) (f : α → β) :
    Moves hosts bound (x >>= fun a => Pure.pure (f a)) :=
  hx.bind fun a => pure (f a)

theorem ite {c : Prop} [Decidable c] {x y : Render α} (hx : Moves hosts bound x)
    (hy : Moves hosts bound y) : Moves hosts bound (if c then x else y) := by
  split
  · exact hx
  · exact hy

theorem throw (e : RenderError) : Moves hosts bound (throw e : Render α) := fun _ => .refl

theorem fail (s : Scene) (position : Position) (fault : RenderFault) :
    Moves hosts bound (Render.fail s position fault : Render α) := fun _ => .refl

theorem ofHeap (f : Heap → α) : Moves hosts bound (Render.ofHeap f) := fun _ => .refl

theorem lookup? (name : String) : Moves hosts bound (Render.lookup? name) := fun _ => .refl

theorem newList (items : List Value) :
    Moves hosts bound (Render.onHeap fun h => h.newList items) :=
  fun _ => .single (.newList items)

theorem newMap (members : OrderedMap Value) :
    Moves hosts bound (Render.onHeap fun h => h.newMap members) :=
  fun _ => .single (.newMap members)

theorem setVariable {name : String} (h : bound name) (v : Value) :
    Moves hosts bound (Render.setVariable name v) :=
  fun _ => .single (.bind h v)

theorem eraseVariable {name : String} (h : bound name) :
    Moves hosts bound (Render.eraseVariable name) :=
  fun _ => .single (.unbind h)

end Moves

/-! ### Loops -/

theorem restore_moves {name : String} (h : bound name) (v? : Option Value) :
    Moves hosts bound (restore name v?) := by
  cases v? with
  | none => exact .eraseVariable h
  | some v => exact .setVariable h v

theorem takeAll_moves : (names : List String) → (∀ name ∈ names, bound name) →
    Moves hosts bound (takeAll names)
  | [], _ => .pure _
  | name :: names, h => by
      obtain ⟨hname, hnames⟩ := List.forall_mem_cons.mp h
      exact (Moves.lookup? name).bind fun _ => (Moves.eraseVariable hname).bind fun _ =>
        (takeAll_moves names hnames).bind_pure _

theorem restoreAll_moves : (saved : List (String × Option Value)) →
    (∀ p ∈ saved, bound p.1) → Moves hosts bound (restoreAll saved)
  | [], _ => .pure _
  | (name, v?) :: saved, h => by
      obtain ⟨hname, hsaved⟩ := List.forall_mem_cons.mp h
      exact (restore_moves hname v?).bind fun _ => restoreAll_moves saved hsaved

/-- What is given back are the variables that were taken. -/
theorem mem_of_takeAll_succeeds {names : List String} {st st' : State}
    {saved : List (String × Option Value)} (h : Succeeds (takeAll names) st saved st') :
    ∀ p ∈ saved, p.1 ∈ names := by
  induction names generalizing st st' saved with
  | nil =>
    cases h
    exact nofun
  | cons name names ih =>
    obtain ⟨v?, _, -, h⟩ := succeeds_bind_iff.mp h
    obtain ⟨_, _, -, h⟩ := succeeds_bind_iff.mp h
    obtain ⟨rest, _, hrest, h⟩ := succeeds_bind_iff.mp h
    cases h
    rintro p (_ | ⟨_, hp⟩)
    · exact List.mem_cons_self
    · exact List.mem_cons_of_mem _ (ih hrest p hp)

section

variable (hround : bound roundName) (hcounter : bound counterName)

include hround hcounter

theorem beginRound_moves {loopVariable : String} (h : bound loopVariable) (index : Nat)
    (item : Value) (isLast : Bool) :
    Moves hosts bound (beginRound loopVariable index item isLast) :=
  (Moves.setVariable h item).bind fun _ => (Moves.newMap _).bind fun _ =>
    (Moves.setVariable hround _).bind fun _ => .setVariable hcounter _

theorem rounds_moves {loopVariable : String} (h : bound loopVariable) {body : Render Output}
    (hbody : Moves hosts bound body) : (index : Nat) → (items : List Value) →
      Moves hosts bound (rounds loopVariable body index items)
  | _, [] => .pure _
  | index, item :: items => by
      rw [rounds]
      refine (beginRound_moves hround hcounter h index item _).bind fun _ => hbody.bind fun o => ?_
      cases o.flow with
      | goOn => exact (rounds_moves h hbody (index + 1) items).bind_pure _
      | leave => exact .pure _
      | stop => exact .pure _

theorem loop_moves {loopVariable : String} (h : bound loopVariable) (collection : Value)
    {body : Render Output} (hbody : Moves hosts bound body) :
    Moves hosts bound (loop loopVariable collection body) := by
  have hnames : ∀ name ∈ [loopVariable, roundName, counterName], bound name := by
    simp only [List.forall_mem_cons]
    exact ⟨h, hround, hcounter, nofun⟩
  have hrun (items : List Value) : Moves hosts bound (do
      let saved ← takeAll [loopVariable, roundName, counterName]
      let o ← rounds loopVariable body 0 items
      restoreAll saved
      return o) := by
    refine (takeAll_moves _ hnames).bind_of_succeeds fun _ saved _ hsaved => ?_
    refine (rounds_moves hround hcounter h hbody 0 items).bind fun o => ?_
    exact (restoreAll_moves saved fun p hp =>
      hnames p.1 (mem_of_takeAll_succeeds hsaved p hp)).bind_pure _
  refine (Moves.ofHeap _).bind fun heap => ?_
  cases collection with
  | list ref => exact hrun _
  | map ref => exact hrun _
  | _ => exact .pure _

end

/-! ### References and operators -/

section

variable (s : Scene)

theorem root_moves (r : Reference) : Moves hosts bound (root s r) := by
  refine (Moves.lookup? _).bind fun v? => ?_
  cases v? with
  | none => exact .ite (.fail s _ _) (.pure _)
  | some v => exact .pure _

theorem onNull_moves (r : Reference) (path : String) (member : Member) :
    Moves hosts bound (onNull s r path member) :=
  .ite (.fail s _ _) (.pure _)

/-- Of what leads to the value of a member, only a method changes the containers. -/
theorem settle_moves (r : Reference) (path : String) (member : Member) (typeName : String)
    {call : Heap → MethodResult}
    (h : ∀ heap v heap', call heap = .ok (v, heap') → heap' = heap ∨
      ∃ target method args v', Method.invoke hosts heap target method args = .ok (v', heap')) :
    Moves hosts bound (settle s r path member typeName call) := by
  intro st
  have hheap : (ofHeap id : Render Heap).run.run st = (.ok st.heap, st) := rfl
  rw [settle, run_bind, hheap]
  dsimp only
  rcases hcall : call st.heap with (_ | fault) | ⟨v, heap⟩
  · exact Moves.ite (.fail s _ _) (.pure _) st
  · exact Moves.fail s _ _ st
  · obtain rfl | ⟨target, method, args, v', hv'⟩ := h _ _ _ hcall
    · exact .refl
    · exact .single (.call hv')

theorem property_eq_ok {target v : Value} {heap heap' : Heap} {name : String}
    (h : Method.property hosts heap target name = .ok (v, heap')) : heap' = heap ∨
      ∃ target method args v', Method.invoke hosts heap target method args = .ok (v', heap') := by
  unfold Method.property at h
  split at h
  · cases h
  · cases h
    exact .inl rfl
  · rw [Method.getter] at h
    split at h
    · exact .inr ⟨_, _, _, _, h⟩
    · exact .inr ⟨_, _, _, _, h⟩

theorem index_eq_ok {target i v : Value} {heap heap' : Heap}
    (h : Method.index hosts heap target i = .ok (v, heap')) : heap' = heap ∨
      ∃ target method args v', Method.invoke hosts heap target method args = .ok (v', heap') := by
  unfold Method.index at h
  split at h
  · cases h
    exact .inl rfl
  · exact .inr ⟨_, _, _, _, h⟩
  · exact .inr ⟨_, _, _, _, h⟩
  · cases h

/-- What leads to the value of a member is a call, or leaves the containers as they are. -/
theorem heap_eq_of_memberCall {call : Hosts → Heap → MethodResult} (hcall : MemberCall call) {v : Value}
    {heap heap' : Heap} (h : call hosts heap = .ok (v, heap')) : heap' = heap ∨
      ∃ target method args v', Method.invoke hosts heap target method args = .ok (v', heap') := by
  cases hcall with
  | property => exact property_eq_ok h
  | method => exact .inr ⟨_, _, _, _, h⟩
  | index => exact index_eq_ok h

theorem store_moves (target : Reference) (path : String) (parent key new : Value) :
    Moves hosts bound (store s target path parent key new) := by
  cases parent with
  | map ref => exact fun st => .single (.setMember ref (st.heap.text key) new)
  | list ref =>
    intro st
    have hheap : (ofHeap id : Render Heap).run.run st = (.ok st.heap, st) := rfl
    have hset : Method.invoke hosts st.heap (.list ref) "set" [key, new] =
        ListMethod.run st.heap ref .set [key, new] := rfl
    rw [store, run_bind, hheap]
    dsimp only
    rcases hrun : ListMethod.run st.heap ref .set [key, new] with (_ | fault) | ⟨v, heap⟩
    · exact Moves.fail s _ _ st
    · exact Moves.fail s _ _ st
    · exact .single (.call (hset.trans hrun))
  | null => exact .ite (.pure _) (.fail s _ _)
  | _ => exact .fail s _ _

theorem negation_moves (position : Position) (v : Value) (e : Expr) :
    Moves hosts bound (negation s position v e) :=
  .ite (.fail s _ _) (.pure _)

theorem operandText_moves (v : Value) (e : Expr) : Moves hosts bound (operandText v e) := by
  cases v with
  | null => exact .pure _
  | _ => exact .ofHeap fun heap => heap.text _

theorem nullOperation_moves (op : BinaryOp) (position : Position) (a : Value)
    (left right : Expr) : Moves hosts bound (nullOperation s op position a left right) := by
  refine .ite (.fail s _ _) ?_
  cases op <;> exact .pure _

/-- A comparison fails where two values do not compare. -/
private theorem compared_moves (op : BinaryOp) (position : Position) (a b : Value) :
    Moves hosts bound
      (match a.compare? b with
        | some o => Pure.pure (Value.bool (Value.agrees op o))
        | none => fail s position (.notComparable a.typeName b.typeName op)) := by
  cases a.compare? b with
  | none => exact .fail s _ _
  | some o => exact .pure _

theorem operation_moves (op : BinaryOp) (position : Position) (a b : Value)
    (left right : Expr) : Moves hosts bound (operation s op position a b left right) := by
  unfold operation
  split
  · exact (Moves.ofHeap _).bind_pure _
  · exact (Moves.ofHeap _).bind_pure _
  · refine .ite ?_ (.ite (nullOperation_moves s op position a left right) ?_)
    · exact (operandText_moves a left).bind fun _ => (operandText_moves b right).bind_pure _
    · cases op with
      | lt => exact compared_moves s _ _ _ _
      | le => exact compared_moves s _ _ _ _
      | gt => exact compared_moves s _ _ _ _
      | ge => exact compared_moves s _ _ _ _
      | _ => exact .pure _

theorem resource_moves (position : Position) (e : Expr) (v : Value) :
    Moves hosts bound (resource s position e v) := by
  refine (operandText_moves v e).bind fun name => ?_
  cases s.config.resources.get? name with
  | none => exact .fail s _ _
  | some source => exact .pure _

theorem parsed_moves {inner : String → List Node → Render Output} {name source : String}
    (h : ∀ ns, parse source = .ok ns → Moves hosts bound (inner name ns)) :
    Moves hosts bound (parsed inner name source) := by
  unfold parsed
  cases hparse : parse source with
  | error e => exact .throw _
  | ok ns => exact (h ns hparse).bind_pure _

end

/-! ### The whole syntax -/

/-- In a scene loops may bind the variables that tell about their rounds, and resources are
rendered by changes. -/
structure Confined (bound : String → Prop) (s : Scene) : Prop where
  round : bound roundName
  counter : bound counterName
  inner : ∀ inner ∈ s.inner?, ∀ name source ns, s.config.resources.get? name = some source →
    parse source = .ok ns → Moves s.hosts bound (inner name ns)

section

variable {s : Scene}

/-- What a scene is asked for makes changes of the variables only that may be bound. -/
def Confined.walk (h : Confined bound s) : Walk s s (fun _ => True) bound where
  Rel x _ := Moves s.hosts bound x
  Along _ x _ := Moves s.hosts bound x
  pure := .pure
  bind hx hf := hx.bind hf
  along := id
  bindAlong hx hf := hx.bind hf
  ofHeap := .ofHeap
  lookup? := .lookup?
  newList := .newList
  newMap := .newMap
  setVariable := .setVariable
  loop hname collection _ _ hbody := loop_moves h.round h.counter hname collection hbody
  root _ _ _ hf := (root_moves s _).bind hf
  onNull _ _ _ path := onNull_moves s _ path _
  settle _ _ _ path typeName _ hcall :=
    settle_moves s _ path _ typeName fun _ _ _ => heap_eq_of_memberCall hcall
  store _ path parent key new := store_moves s _ path parent key new
  assignToMethod r := .fail s r.position _
  negation := negation_moves s
  operation := operation_moves s
  resource := resource_moves s
  parse e position he := by
    rw [node]
    cases hinner : s.inner? with
    | none => exact .fail s _ _
    | some inner =>
      refine Moves.bind he fun v =>
        (resource_moves s position e v).bind_of_succeeds fun _ p _ hp => ?_
      exact parsed_moves fun ns hparse =>
        h.inner inner hinner p.1 p.2 ns (get?_of_resource_succeeds hp) hparse

/-- Rendering nodes makes changes of their variables only. -/
theorem nodes_moves (h : Confined bound s) (ns : List Node)
    (hbound : ∀ name ∈ nodesBoundNames ns, bound name) : Moves s.hosts bound (nodes s ns) :=
  h.walk.nodes ns ⟨fun _ _ => trivial, hbound⟩

end

end Render

/-! ### Templates -/

/-- The variable is bound somewhere in a source or in a resource of the configuration, or it is
one of the two that tell about the rounds of loops. -/
def Config.Binds (config : Config) (source : String) (name : String) : Prop :=
  name = Render.roundName ∨ name = Render.counterName ∨
    ∃ src ns, (src = source ∨ ∃ resource, config.resources.get? resource = some src) ∧
      parse src = .ok ns ∧ name ∈ nodesBoundNames ns

section

variable (config : Config) (hosts : Hosts) (template source : String)

open Render (Moves)

/-- The depth counts the resources that may still be opened, each of which is rendered in a scene
with one fewer. -/
theorem renderWithin_moves : (depth : Nat) → (template : String) → (ns : List Node) →
    (∀ name ∈ nodesBoundNames ns, config.Binds source name) →
      Moves hosts (config.Binds source) (renderWithin config hosts depth template ns)
  | 0, template, ns, hbound => by
      refine Render.nodes_moves (s := ⟨config, hosts, template, none⟩)
        ⟨.inl rfl, .inr (.inl rfl), ?_⟩ ns hbound
      rintro _ ⟨⟩
  | depth + 1, template, ns, hbound => by
      refine Render.nodes_moves
        (s := ⟨config, hosts, template, some (renderWithin config hosts depth)⟩)
        ⟨.inl rfl, .inr (.inl rfl), ?_⟩ ns hbound
      rintro _ ⟨⟩ name src ns' hsrc hparse
      exact renderWithin_moves depth name ns' fun x hx =>
        .inr (.inr ⟨src, ns', .inr ⟨name, hsrc⟩, hparse, hx⟩)

/-- Rendering a source, up to its end or its failure, is a sequence of changes. -/
theorem reaches_evaluate (st : State) :
    State.Reaches hosts (config.Binds source) st
      ((evaluate config hosts template source).run.run st).2 := by
  refine (?_ : Moves hosts (config.Binds source) (evaluate config hosts template source)) st
  unfold evaluate
  cases hparse : parse source with
  | error e => exact .throw _
  | ok ns =>
    exact (renderWithin_moves config hosts source config.maxDepth template ns
      fun x hx => .inr (.inr ⟨source, ns, .inl rfl, hparse, hx⟩)).bind_pure _

/-- **Rendering leaves the other variables alone.** A variable that neither the source nor a
resource binds, and that does not tell about the rounds of loops, is found after the rendering
exactly as before it, whether the rendering succeeds or fails. -/
theorem scope_evaluate_of_not_binds (st : State) {name : String}
    (hname : ¬config.Binds source name) :
    ((evaluate config hosts template source).run.run st).2.scope.get? name =
      st.scope.get? name :=
  (reaches_evaluate config hosts template source st).get?_scope hname

end

/-- A loop that fails in its first round, in a resource: its own variable keeps the item, and a
variable that is bound nowhere keeps its map. -/
theorem scope_evaluate_of_not_binds_failing :
    let config : Config := { resources := .ofList [("r", "#set($y = \"#set($w = 1)$x\")$missing")] }
    let source := "#foreach($x in [7])#parse('r')#end"
    let st : State := ⟨{ maps := #[.empty] }, .ofList [("x", .int 1), ("z", .map ⟨0⟩)]⟩
    let st' := ((evaluate config [] "main" source).run.run st).2
    ¬config.Binds source "z" ∧ st'.scope.get? "x" = some (.int 7) ∧
      st'.scope.get? "z" = some (.map ⟨0⟩) := by
  intro config source st st'
  have hsource : (parse source).toOption.map nodesBoundNames = some ["x"] := by decide +kernel
  have hresource : (parse "#set($y = \"#set($w = 1)$x\")$missing").toOption.map nodesBoundNames =
      some ["y", "w"] := by
    decide +kernel
  have hbinds : ¬config.Binds source "z" := by
    rintro (hround | hcounter | ⟨src, ns, rfl | ⟨name, hsrc⟩, hparse, hname⟩)
    · exact absurd hround (by decide)
    · exact absurd hcounter (by decide)
    · rw [hparse] at hsource
      rw [Option.some.inj hsource] at hname
      exact absurd hname (by decide)
    · change (if "r" = name then some _ else none) = some src at hsrc
      split_ifs at hsrc
      obtain rfl := Option.some.inj hsrc
      rw [hparse] at hresource
      rw [Option.some.inj hresource] at hname
      exact absurd hname (by decide)
  have hx : st'.scope.get? "x" = some (.int 7) := by decide +kernel
  exact ⟨hbinds, hx, scope_evaluate_of_not_binds config [] "main" source st hbinds⟩

end GatewayMapping.Template
