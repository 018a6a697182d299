import GatewayMapping.Proofs.Syntax.BoundNames
import GatewayMapping.Proofs.Syntax.References
import GatewayMapping.Template.Render

/-!
# Walks over templates

Rendering goes from node to node and asks its scene for what the nodes need: the value of a
variable, the call of a method, the end of a template by a fault. A relation between renderings in
two scenes, over two monads even, that goes through sequences and holds between all that the scenes
are asked for holds between the renderings of any nodes. A `Walk` is such a relation, and
`Walk.nodes` is the proof, through every node, expression and step of a path.

What is said of the renderings in one scene only is a relation that does not look at its second
argument.

A relation may hold only if the references of a template, and the variables that it binds, are as
they should be (`Admitted`). And while the path of a reference is followed, another relation may
hold in its place: by then the value of the variable has been found (`Walk.Along`).

## Main definitions

* `Walk`: a relation that holds between all that two scenes are asked for.
* `Admitted`: the references and the bound variables of a part are as they should be.
* `MemberCall`: the calls that lead to the value of a member.

## Main results

* `Walk.nodes`: the relation holds between the renderings of nodes.
-/

namespace GatewayMapping.Template

/-! ### What is asked for -/

/-- The references and the bound variables of a part of a template are as they should be. -/
structure Admitted (reference : Reference → Prop) (binding : String → Prop)
    (refs : List Reference) (names : List String) : Prop where
  refs : ∀ r ∈ refs, reference r
  names : ∀ name ∈ names, binding name

theorem Admitted.append {reference : Reference → Prop} {binding : String → Prop}
    {refs refs' : List Reference} {names names' : List String}
    (h : Admitted reference binding (refs ++ refs') (names ++ names')) :
    Admitted reference binding refs names ∧ Admitted reference binding refs' names' := by
  obtain ⟨hrefs, hrefs'⟩ := List.forall_mem_append.mp h.refs
  obtain ⟨hnames, hnames'⟩ := List.forall_mem_append.mp h.names
  exact ⟨⟨hrefs, hnames⟩, ⟨hrefs', hnames'⟩⟩

/-- The member that a step of a path asks for. -/
def Segment.member : Segment → Member
  | .property name => .property name
  | .method name _ => .method name
  | .index _ => .index

/-- A call that leads to the value of a member of a value. -/
inductive MemberCall : (Hosts → Heap → MethodResult) → Prop
  | property (v : Value) (name : String) :
      MemberCall fun hosts heap => Method.property hosts heap v name
  | method (v : Value) (name : String) (args : List Value) :
      MemberCall fun hosts heap => Method.invoke hosts heap v name args
  | index (v i : Value) : MemberCall fun hosts heap => Method.index hosts heap v i

/-- A relation between renderings in two scenes that holds between all that they are asked for, if
the references and the bound variables of the template are as they should be. -/
structure Walk {m n : Type → Type} [Monad m] [Monad n] (s : Scene m) (s' : Scene n)
    (reference : Reference → Prop) (binding : String → Prop) where
  Rel {α : Type} : RenderT m α → RenderT n α → Prop
  /-- The relation while the path of a reference is followed. -/
  Along {α : Type} : Reference → RenderT m α → RenderT n α → Prop
  pure {α : Type} (a : α) : Rel (pure a) (pure a)
  bind {α β : Type} {x : RenderT m α} {y : RenderT n α} {f : α → RenderT m β}
    {g : α → RenderT n β} (hxy : Rel x y) (hfg : ∀ a, Rel (f a) (g a)) : Rel (x >>= f) (y >>= g)
  along {α : Type} {r : Reference} {x : RenderT m α} {y : RenderT n α} (hxy : Rel x y) :
    Along r x y
  bindAlong {α β : Type} {r : Reference} {x : RenderT m α} {y : RenderT n α}
    {f : α → RenderT m β} {g : α → RenderT n β} (hxy : Along r x y)
    (hfg : ∀ a, Along r (f a) (g a)) : Along r (x >>= f) (y >>= g)
  ofHeap {α : Type} (f : Heap → α) : Rel (Render.ofHeap f) (Render.ofHeap f)
  lookup? (name : String) : Rel (Render.lookup? name) (Render.lookup? name)
  newList (items : List Value) :
    Rel (Render.onHeap (·.newList items)) (Render.onHeap (·.newList items))
  newMap (members : OrderedMap Value) :
    Rel (Render.onHeap (·.newMap members)) (Render.onHeap (·.newMap members))
  setVariable {name : String} (h : binding name) (v : Value) :
    Rel (Render.setVariable name v) (Render.setVariable name v)
  loop {name : String} (h : binding name) (collection : Value) {body : RenderT m Output}
    {body' : RenderT n Output} (hbody : Rel body body') :
    Rel (Render.loop name collection body) (Render.loop name collection body')
  root {α : Type} {r : Reference} (hr : reference r) {f : Value → RenderT m α}
    {g : Value → RenderT n α} (hfg : ∀ v, Along r (f v) (g v)) :
    Rel (Render.root s r >>= f) (Render.root s' r >>= g)
  onNull {r : Reference} (hr : reference r) {sg : Segment} (hsg : sg ∈ r.segments)
    (path : String) : Along r (Render.onNull s r path sg.member) (Render.onNull s' r path sg.member)
  settle {r : Reference} (hr : reference r) {sg : Segment} (hsg : sg ∈ r.segments)
    (path typeName : String) {call : Hosts → Heap → MethodResult} (hcall : MemberCall call) :
    Along r (Render.settle s r path sg.member typeName (call s.hosts))
      (Render.settle s' r path sg.member typeName (call s'.hosts))
  store {r : Reference} (hr : reference r) (path : String) (parent key new : Value) :
    Along r (Render.store s r path parent key new) (Render.store s' r path parent key new)
  assignToMethod (r : Reference) :
    Rel (Render.fail s r.position (.assignToMethod r.literal) : RenderT m Unit)
      (Render.fail s' r.position (.assignToMethod r.literal))
  negation (position : Position) (v : Value) (e : Expr) :
    Rel (Render.negation s position v e) (Render.negation s' position v e)
  operation (op : BinaryOp) (position : Position) (a b : Value) (left right : Expr) :
    Rel (Render.operation s op position a b left right)
      (Render.operation s' op position a b left right)
  resource (position : Position) (e : Expr) (v : Value) :
    Rel (Render.resource s position e v) (Render.resource s' position e v)
  /-- The scenes may differ in how they render a resource. -/
  parse (e : Expr) (position : Position) (he : Rel (Render.expr s e) (Render.expr s' e)) :
    Rel (Render.node s (.parse e position)) (Render.node s' (.parse e position))

namespace Walk

variable {m n : Type → Type} [Monad m] [Monad n] {s : Scene m} {s' : Scene n}
  {reference : Reference → Prop} {binding : String → Prop} {α β : Type}

/-- Computations that go on in the same way from the same value. -/
theorem bind_pure (W : Walk s s' reference binding) {x : RenderT m α} {y : RenderT n α}
    (hxy : W.Rel x y) (f : α → β) :
    W.Rel (x >>= fun a => Pure.pure (f a)) (y >>= fun a => Pure.pure (f a)) :=
  W.bind hxy fun a => W.pure (f a)

theorem bindAlong_pure (W : Walk s s' reference binding) {r : Reference} {x : RenderT m α}
    {y : RenderT n α} (hxy : W.Along r x y) (f : α → β) :
    W.Along r (x >>= fun a => Pure.pure (f a)) (y >>= fun a => Pure.pure (f a)) :=
  W.bindAlong hxy fun a => W.along (W.pure (f a))

theorem range (W : Walk s s' reference binding) (first last : Value) :
    W.Rel (Render.range first last) (Render.range first last) := by
  unfold Render.range
  split
  · exact W.newList _
  · exact W.pure _

/-! ### The whole syntax -/

mutual

/-- **The relation holds between the renderings of nodes.** -/
theorem nodes (W : Walk s s' reference binding) : (ns : List Node) →
    Admitted reference binding (nodesReferences ns) (nodesBoundNames ns) →
      W.Rel (Render.nodes s ns) (Render.nodes s' ns)
  | [], _ => W.pure _
  | n :: ns, h => by
      obtain ⟨hn, hns⟩ := h.append
      rw [Render.nodes, Render.nodes]
      refine W.bind (node W n hn) fun o => ?_
      cases o.flow with
      | goOn => exact W.bind_pure (nodes W ns hns) _
      | _ => exact W.pure _
termination_by structural x => x

theorem node (W : Walk s s' reference binding) : (n : Node) →
    Admitted reference binding n.references n.boundNames →
      W.Rel (Render.node s n) (Render.node s' n)
  | .text _, _ => W.pure _
  | .reference r, h => by
      rw [Render.node, Render.node]
      refine W.bind (value W r h) fun v => ?_
      cases v with
      | null => exact W.pure _
      | _ => exact W.bind_pure (W.ofHeap _) _
  | .assign target e _, h => by
      obtain ⟨hown, hnames⟩ := List.forall_mem_append.mp h.names
      obtain ⟨htarget, he⟩ := Admitted.append ⟨h.refs, hnames⟩
      rw [Render.node, Render.node]
      refine W.bind (expr W e he) fun v => ?_
      cases v with
      | null => exact W.pure _
      | _ => exact W.bind_pure (assign W _ target hown htarget) _
  | .conditional bs none _, h => by
      rw [Render.node, Render.node]
      exact branches W (W.pure _) bs h
  | .conditional bs (some ns) _, h => by
      obtain ⟨hbs, hns⟩ := h.append
      rw [Render.node, Render.node]
      exact branches W (nodes W ns hns) bs hbs
  | .forEach name items body _, h => by
      obtain ⟨hname, hnames⟩ := List.forall_mem_cons.mp h.names
      obtain ⟨hitems, hbody⟩ := Admitted.append ⟨h.refs, hnames⟩
      rw [Render.node, Render.node]
      exact W.bind (expr W items hitems) fun v => W.loop hname v (nodes W body hbody)
  | .leave _, _ => W.pure _
  | .stop _, _ => W.pure _
  | .parse e position, h => W.parse e position (expr W e h)
  | .insert e position, h => by
      rw [Render.node, Render.node]
      exact W.bind (expr W e h) fun v => W.bind_pure (W.resource position e v) _
termination_by structural x => x

theorem branches (W : Walk s s' reference binding) {last : RenderT m Output}
    {last' : RenderT n Output} (hlast : W.Rel last last') : (bs : List (Expr × List Node)) →
      Admitted reference binding (branchesReferences bs) (branchesBoundNames bs) →
        W.Rel (Render.branches s last bs) (Render.branches s' last' bs)
  | [], _ => hlast
  | (e, body) :: bs, h => by
      obtain ⟨he, h⟩ := h.append
      obtain ⟨hbody, hbs⟩ := h.append
      rw [Render.branches, Render.branches]
      refine W.bind (holds W e he (expr W e he)) fun b => ?_
      cases b with
      | true => exact nodes W body hbody
      | false => exact branches W hlast bs hbs
termination_by structural x => x

theorem holds (W : Walk s s' reference binding) : (e : Expr) →
    Admitted reference binding e.references e.boundNames → {x : RenderT m Value} →
      {y : RenderT n Value} → W.Rel x y → W.Rel (Render.holds s e x) (Render.holds s' e y)
  | .reference (.mk name [] _ _ _), _, _, _, _ => W.bind_pure (W.lookup? name) _
  | .unary .not e _, h, _, _, _ => by
      rw [Render.holds, Render.holds]
      exact W.bind_pure (holds W e h (expr W e h)) _
  | .binary op left right _, h, _, _, hxy => by
      obtain ⟨hleft, hright⟩ := h.append
      cases op with
      | and =>
        rw [Render.holds, Render.holds]
        refine W.bind (holds W left hleft (expr W left hleft)) fun b => ?_
        cases b with
        | true => exact holds W right hright (expr W right hright)
        | false => exact W.pure _
      | or =>
        rw [Render.holds, Render.holds]
        refine W.bind (holds W left hleft (expr W left hleft)) fun b => ?_
        cases b with
        | true => exact W.pure _
        | false => exact holds W right hright (expr W right hright)
      | _ => exact W.bind_pure hxy _
  | .reference (.mk _ (_ :: _) _ _ _), _, _, _, hxy => W.bind_pure hxy _
  | .unary .negate _ _, _, _, _, hxy => W.bind_pure hxy _
  | .null, _, _, _, hxy => W.bind_pure hxy _
  | .bool _, _, _, _, hxy => W.bind_pure hxy _
  | .int _, _, _, _, hxy => W.bind_pure hxy _
  | .float _, _, _, _, hxy => W.bind_pure hxy _
  | .string _, _, _, _, hxy => W.bind_pure hxy _
  | .interpolated _, _, _, _, hxy => W.bind_pure hxy _
  | .list _, _, _, _, hxy => W.bind_pure hxy _
  | .range _ _, _, _, _, hxy => W.bind_pure hxy _
  | .map _, _, _, _, hxy => W.bind_pure hxy _
termination_by structural x _ _ _ _ => x

/-- The value of a reference. -/
theorem value (W : Walk s s' reference binding) : (r : Reference) →
    Admitted reference binding r.references r.boundNames →
      W.Rel (Render.reference s r) (Render.reference s' r)
  | .mk _ segments _ _ _, h => by
      obtain ⟨hr, hrefs⟩ := List.forall_mem_cons.mp h.refs
      rw [Render.reference, Render.reference]
      exact W.root hr fun v => W.bindAlong_pure
        (path W hr segments (fun _ hsg => hsg) ⟨hrefs, h.names⟩ v _) _
termination_by structural x => x

/-- The path of a reference. -/
theorem path (W : Walk s s' reference binding) {r : Reference} (hr : reference r) :
    (ss : List Segment) → (∀ sg ∈ ss, sg ∈ r.segments) →
      Admitted reference binding (segmentsReferences ss) (segmentsBoundNames ss) →
        (v : Value) → (path : String) →
          W.Along r (Render.walk s r ss v path) (Render.walk s' r ss v path)
  | [], _, _, _, _ => W.along (W.pure _)
  | sg :: ss, hss, h, v, text => by
      obtain ⟨hsg, hss⟩ := List.forall_mem_cons.mp hss
      obtain ⟨hfirst, hrest⟩ := h.append
      rw [Render.walk, Render.walk]
      exact W.bindAlong (step W hr sg hsg hfirst v text) fun p =>
        path W hr ss hss hrest p.1 p.2
termination_by structural x _ _ _ _ => x

theorem step (W : Walk s s' reference binding) {r : Reference} (hr : reference r) :
    (sg : Segment) → sg ∈ r.segments →
      Admitted reference binding sg.references sg.boundNames → (v : Value) → (path : String) →
        W.Along r (Render.step s r sg v path) (Render.step s' r sg v path)
  | .property name, hsg, _, v, path => by
      rw [Render.step, Render.step]
      split
      · exact W.onNull hr hsg path
      · exact W.bindAlong_pure (W.settle hr hsg path _ (.property v name)) _
  | .method name args, hsg, h, v, path => by
      rw [Render.step, Render.step]
      split
      · exact W.onNull hr hsg path
      · exact W.bindAlong (W.along (exprs W args h)) fun vs =>
          W.bindAlong_pure (W.settle hr hsg path _ (.method v name vs)) _
  | .index e, hsg, h, v, path => by
      rw [Render.step, Render.step]
      split
      · exact W.onNull hr hsg path
      · exact W.bindAlong (W.along (expr W e h)) fun i => W.bindAlong (W.along (W.ofHeap _))
          fun shown => W.bindAlong_pure (W.settle hr hsg path _ (.index v i)) _
termination_by structural x _ _ _ _ => x

theorem assign (W : Walk s s' reference binding) (new : Value) : (r : Reference) →
    (∀ name ∈ r.ownNames, binding name) →
      Admitted reference binding r.references r.boundNames →
        W.Rel (Render.assign s new r) (Render.assign s' new r)
  | .mk _ [] _ _ _, hown, _ => W.setVariable (hown _ List.mem_cons_self) _
  | .mk _ (sg :: ss) _ _ _, _, h => by
      obtain ⟨hr, hrefs⟩ := List.forall_mem_cons.mp h.refs
      simp only [Render.assign]
      exact W.root hr fun v =>
        assignAt W new hr (sg :: ss) (fun _ hsg => hsg) ⟨hrefs, h.names⟩ v _
termination_by structural x => x

theorem assignAt (W : Walk s s' reference binding) (new : Value) {r : Reference}
    (hr : reference r) : (ss : List Segment) → (∀ sg ∈ ss, sg ∈ r.segments) →
      Admitted reference binding (segmentsReferences ss) (segmentsBoundNames ss) →
        (v : Value) → (path : String) →
          W.Along r (Render.assignAt s new r ss v path) (Render.assignAt s' new r ss v path)
  | [], _, _, _, _ => W.along (W.pure _)
  | [.property _], _, _, parent, path => W.store hr path parent _ new
  | [.index e], _, h, parent, path => by
      obtain ⟨he, -⟩ := h.append
      rw [Render.assignAt, Render.assignAt]
      exact W.bindAlong (W.along (expr W e he)) fun key => W.store hr path parent key new
  | [.method _ _], _, _, _, _ => W.along (W.assignToMethod r)
  | sg :: sg' :: ss, hss, h, v, path => by
      obtain ⟨hsg, hss⟩ := List.forall_mem_cons.mp hss
      obtain ⟨hfirst, hrest⟩ := h.append
      simp only [Render.assignAt]
      exact W.bindAlong (step W hr sg hsg hfirst v path) fun p =>
        assignAt W new hr (sg' :: ss) hss hrest p.1 p.2
termination_by structural x _ _ _ _ => x

theorem exprs (W : Walk s s' reference binding) : (es : List Expr) →
    Admitted reference binding (exprsReferences es) (exprsBoundNames es) →
      W.Rel (Render.exprs s es) (Render.exprs s' es)
  | [], _ => W.pure _
  | e :: es, h => by
      obtain ⟨he, hes⟩ := h.append
      rw [Render.exprs, Render.exprs]
      exact W.bind (expr W e he) fun v => W.bind_pure (exprs W es hes) _
termination_by structural x => x

theorem entries (W : Walk s s' reference binding) : (es : List (Expr × Expr)) →
    Admitted reference binding (entriesReferences es) (entriesBoundNames es) →
      W.Rel (Render.entries s es) (Render.entries s' es)
  | [], _ => W.pure _
  | (k, e) :: rest, h => by
      obtain ⟨hk, h⟩ := h.append
      obtain ⟨he, hrest⟩ := h.append
      rw [Render.entries, Render.entries]
      exact W.bind (expr W k hk) fun key => W.bind (W.ofHeap _) fun name =>
        W.bind (expr W e he) fun v => W.bind_pure (entries W rest hrest) _
termination_by structural x => x

theorem expr (W : Walk s s' reference binding) : (e : Expr) →
    Admitted reference binding e.references e.boundNames →
      W.Rel (Render.expr s e) (Render.expr s' e)
  | .null, _ => W.pure _
  | .bool _, _ => W.pure _
  | .int _, _ => W.pure _
  | .float _, _ => W.pure _
  | .string _, _ => W.pure _
  | .interpolated ns, h => by
      rw [Render.expr, Render.expr]
      exact W.bind_pure (nodes W ns h) _
  | .list items, h => by
      rw [Render.expr, Render.expr]
      exact W.bind (exprs W items h) fun vs => W.newList vs
  | .range first last, h => by
      obtain ⟨hfirst, hlast⟩ := h.append
      rw [Render.expr, Render.expr]
      exact W.bind (expr W first hfirst) fun a => W.bind (expr W last hlast) fun b => W.range a b
  | .map es, h => by
      rw [Render.expr, Render.expr]
      exact W.bind (entries W es h) fun members => W.newMap _
  | .reference r, h => by
      rw [Render.expr, Render.expr]
      exact value W r h
  | .unary .not e _, h => by
      rw [Render.expr, Render.expr]
      exact W.bind_pure (expr W e h) _
  | .unary .negate e position, h => by
      rw [Render.expr, Render.expr]
      exact W.bind (expr W e h) fun v => W.negation position v e
  | .binary op left right position, h => by
      obtain ⟨hleft, hright⟩ := h.append
      cases op with
      | and =>
        rw [Render.expr, Render.expr]
        refine W.bind (expr W left hleft) fun v => ?_
        cases v.isTruthy with
        | true => exact W.bind_pure (expr W right hright) _
        | false => exact W.pure _
      | or =>
        rw [Render.expr, Render.expr]
        refine W.bind (expr W left hleft) fun v => ?_
        cases v.isTruthy with
        | true => exact W.pure _
        | false => exact W.bind_pure (expr W right hright) _
      | _ =>
        exact W.bind (expr W left hleft) fun a => W.bind (expr W right hright) fun b =>
          W.operation _ position a b left right
termination_by structural x => x

end

end Walk

end GatewayMapping.Template
