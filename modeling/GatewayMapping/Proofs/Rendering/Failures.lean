import GatewayMapping.Proofs.OrderedMap
import GatewayMapping.Proofs.Reading.ReferencePlaces
import GatewayMapping.Proofs.Rendering.Refinement
import GatewayMapping.Proofs.Rendering.Walks

/-!
# The references behind failures

With strict references, a failure of an invocation comes from a reference of the template that it
names (`evaluate_explained`). Either the variable of this reference is unbound where rendering
stops, or a path from it cannot be followed, and then the variable is still bound.

A loop takes the variables that tell about a round away from the loop around it, and does not give
them back if one of them is its own variable. Nothing is known of these two.

## Main definitions

* `State.Holds`: a variable is bound, or is one that loops take away.
* `Explained`: an error together with the reference behind it.
* `Render.Explains`: computations whose failures are explained.

## Main results

* `Render.nodes_explains`: rendering nodes is explained by their references.
* `evaluate_explained`: so is rendering a source.
-/

namespace GatewayMapping.Template

/-- The member that a path could not be followed to. -/
def PathFault.member : PathFault → Member
  | .onNull _ member => member
  | .noMember _ member _ => member
  | .failed _ member _ _ => member

/-- Whether a variable tells about the round of a loop. -/
def IsRoundVariable (name : String) : Prop := name = Render.roundName ∨ name = Render.counterName

/-- The variable is bound, or is one that loops take away. -/
def State.Holds (st : State) (name : String) : Prop :=
  IsRoundVariable name ∨ (st.scope.get? name).isSome

/-- What is held in a state is held in another one. -/
def State.Keeps (st st' : State) : Prop := ∀ name, st.Holds name → st'.Holds name

/-- What an error of rendering in a state comes from. An invocation that fails has a reference
behind it, whose place and literal it shows. -/
inductive Explained (refs : String → Reference → Prop) (e : RenderError) (st : State) : Prop
  | other (hkind : ∀ reference cause, e.fault.kind ≠ .invocation reference cause)
  | undefined (r : Reference) (href : refs e.template r) (hplace : e.position = r.position)
      (hfault : e.fault = .undefined r.name r.literal) (hscope : st.scope.get? r.name = none)
  | path (r : Reference) (fault : PathFault) (href : refs e.template r)
      (hplace : e.position = r.position) (hfault : e.fault = .path fault r.literal)
      (hword : IsWord fault.member.name) (hscope : st.Holds r.name)

/-- The members that the path of a reference asks for have words for names. -/
theorem Reference.HasWords.member {r : Reference} (h : r.HasWords) {sg : Segment}
    (hsg : sg ∈ r.segments) : IsWord sg.member.name := by
  cases sg with
  | property name => exact h.path _ hsg name rfl
  | method name args => exact h.path _ hsg name rfl
  | index i => exact show IsWord "get" by decide

namespace Render

variable {α β : Type} {refs : String → Reference → Prop} {held : List String}

/-- Where variables are held, the computation keeps them, or fails with an error that has a
reference behind it. -/
def Explains (refs : String → Reference → Prop) (held : List String) (x : Render α) : Prop :=
  ∀ st : State, (∀ name ∈ held, st.Holds name) →
    match x.run.run st with
    | (.ok _, st') => st.Keeps st'
    | (.error e, st') => Explained refs e st'

namespace Explains

theorem pure (a : α) : Explains refs held (Pure.pure a) := fun _ _ _ h => h

/-- What follows a computation may rely on its value being one that the computation gives. -/
theorem bind_of_succeeds {x : Render α} {f : α → Render β} (hx : Explains refs held x)
    (hf : ∀ st a st', Succeeds x st a st' → Explains refs held (f a)) :
    Explains refs held (x >>= f) := by
  intro st hst
  have hxst := hx st hst
  rw [run_bind]
  rcases hrun : x.run.run st with ⟨e | a, st'⟩
  · rw [hrun] at hxst
    exact hxst
  · rw [hrun] at hxst
    have hfst := hf st a st' hrun st' fun name hname => hxst name (hst name hname)
    dsimp only
    rcases hrun' : (f a).run.run st' with ⟨e | b, st''⟩
    · rw [hrun'] at hfst
      exact hfst
    · rw [hrun'] at hfst
      exact fun name hname => hfst name (hxst name hname)

theorem bind {x : Render α} {f : α → Render β} (hx : Explains refs held x)
    (hf : ∀ a, Explains refs held (f a)) : Explains refs held (x >>= f) :=
  hx.bind_of_succeeds fun _ a _ _ => hf a

theorem bind_pure {x : Render α} (hx : Explains refs held x) (f : α → β) :
    Explains refs held (x >>= fun a => Pure.pure (f a)) :=
  hx.bind fun a => pure (f a)

/-- What needs nothing held is explained where something is. -/
theorem mono {x : Render α} (hx : Explains refs [] x) : Explains refs held x :=
  fun st _ => hx st nofun

theorem ite {c : Prop} [Decidable c] {x y : Render α} (hx : Explains refs held x)
    (hy : Explains refs held y) : Explains refs held (if c then x else y) := by
  split
  · exact hx
  · exact hy

/-! ### The primitives of rendering -/

theorem ofHeap (f : Heap → α) : Explains refs held (ofHeap f) := fun _ _ _ h => h

theorem onHeap (f : Heap → α × Heap) : Explains refs held (onHeap f) := fun _ _ _ h => h

theorem lookup? (name : String) : Explains refs held (lookup? name) := fun _ _ _ h => h

/-- A change of the heap alone. -/
theorem modifyHeap (f : State → Heap) :
    Explains refs held (modify fun st => { st with heap := f st } : Render Unit) :=
  fun _ _ _ h => h

theorem setVariable (name : String) (v : Value) :
    Explains refs held (setVariable name v) := by
  intro st _ x hx
  refine hx.imp_right fun hbound => ?_
  change ((st.scope.insert name v).get? x).isSome = true
  rw [OrderedMap.get?_insert]
  split
  · rfl
  · exact hbound

/-- A failure that is not one of an invocation. -/
theorem fail (s : Scene) (position : Position) {fault : RenderFault}
    (h : ∀ reference cause, fault.kind ≠ .invocation reference cause) :
    Explains refs held (fail s position fault : Render α) :=
  fun _ _ => .other h

/-- A path from a reference that cannot be followed, where its variable is held. -/
theorem fail_path {s : Scene} {r : Reference} (href : refs s.template r) {fault : PathFault}
    (hword : IsWord fault.member.name) :
    Explains refs [r.name] (Render.fail s r.position (.path fault r.literal) : Render α) :=
  fun _ hst => .path r fault href rfl rfl hword (hst _ List.mem_cons_self)

end Explains

/-! ### Loops -/

theorem beginRound_explains (loopVariable : String) (index : Nat) (item : Value)
    (isLast : Bool) : Explains refs held (beginRound loopVariable index item isLast) :=
  (Explains.setVariable _ _).bind fun _ => (Explains.onHeap _).bind fun _ =>
    (Explains.setVariable _ _).bind fun _ => .setVariable _ _

/-- Every round binds the variable of the loop, and none makes a variable unbound. -/
theorem rounds_explains (loopVariable : String) {body : Render Output}
    (h : Explains refs held body) : (index : Nat) → (items : List Value) →
      Explains refs held (rounds loopVariable body index items)
  | _, [] => .pure _
  | index, item :: items => by
      rw [rounds]
      refine (beginRound_explains _ _ _ _).bind fun _ => h.bind fun o => ?_
      cases o.flow with
      | goOn => exact (rounds_explains loopVariable h (index + 1) items).bind_pure _
      | leave => exact .pure _
      | stop => exact .pure _

/-- What a variable is given back is found under it. -/
theorem restore_succeeds (name : String) (v? : Option Value) (st : State) :
    ∃ st', Succeeds (restore name v?) st () st' ∧
      ∀ x, st'.scope.get? x = if name = x then v? else st.scope.get? x := by
  cases v? with
  | none => exact ⟨_, rfl, fun x => OrderedMap.get?_erase st.scope name x⟩
  | some v => exact ⟨_, rfl, fun x => OrderedMap.get?_insert st.scope name v x⟩

/-- The variables of a loop are given back, its own one before those of the round, so that all that
is held at the end was held before the loop or after its rounds. -/
theorem restoreAll_succeeds (loopVariable : String) (v? round? counter? : Option Value)
    (st : State) :
    ∃ st', Succeeds (restoreAll [(loopVariable, v?), (roundName, round?),
        (counterName, counter?)]) st () st' ∧
      ∀ x, ¬IsRoundVariable x →
        st'.scope.get? x = if loopVariable = x then v? else st.scope.get? x := by
  obtain ⟨st₁, hrun₁, hget₁⟩ := restore_succeeds loopVariable v? st
  obtain ⟨st₂, hrun₂, hget₂⟩ := restore_succeeds roundName round? st₁
  obtain ⟨st₃, hrun₃, hget₃⟩ := restore_succeeds counterName counter? st₂
  refine ⟨st₃, ?_, fun x hx => ?_⟩
  · exact succeeds_bind_iff.mpr ⟨(), st₁, hrun₁, succeeds_bind_iff.mpr ⟨(), st₂, hrun₂,
      succeeds_bind_iff.mpr ⟨(), st₃, hrun₃, rfl⟩⟩⟩
  · obtain ⟨hround, hcounter⟩ := not_or.mp hx
    rw [hget₃, if_neg (Ne.symm hcounter), hget₂, if_neg (Ne.symm hround), hget₁]

/-- Without the variables of a loop, all others are found as before. -/
theorem takeAll_succeeds (loopVariable : String) (st : State) :
    ∃ round? counter? st',
      Succeeds (takeAll [loopVariable, roundName, counterName]) st
        [(loopVariable, st.scope.get? loopVariable), (roundName, round?),
          (counterName, counter?)] st' ∧
      ∀ x, ¬IsRoundVariable x →
        st'.scope.get? x = if loopVariable = x then none else st.scope.get? x := by
  refine ⟨_, _, _, rfl, fun x hx => ?_⟩
  obtain ⟨hround, hcounter⟩ := not_or.mp hx
  change (((st.scope.erase loopVariable).erase roundName).erase counterName).get? x = _
  rw [OrderedMap.get?_erase, if_neg (Ne.symm hcounter), OrderedMap.get?_erase,
    if_neg (Ne.symm hround), OrderedMap.get?_erase]

/-- A loop gives its variable back. -/
theorem loop_explains (loopVariable : String) (collection : Value) {body : Render Output}
    (h : Explains refs [] body) : Explains refs held (loop loopVariable collection body) := by
  have hrun (items : List Value) : Explains refs held (do
      let saved ← takeAll [loopVariable, roundName, counterName]
      let o ← rounds loopVariable body 0 items
      restoreAll saved
      return o) := by
    intro st _
    obtain ⟨round?, counter?, st₁, htake, hget₁⟩ := takeAll_succeeds loopVariable st
    have hrounds := rounds_explains loopVariable h 0 items st₁ nofun
    rw [Succeeds] at htake
    rw [run_bind, htake]
    dsimp only
    rw [run_bind]
    rcases hrun : (rounds loopVariable body 0 items).run.run st₁ with ⟨e | o, st₂⟩
    · rw [hrun] at hrounds
      exact hrounds
    · rw [hrun] at hrounds
      obtain ⟨st₃, hrestore, hget₃⟩ :=
        restoreAll_succeeds loopVariable (st.scope.get? loopVariable) round? counter? st₂
      rw [Succeeds] at hrestore
      dsimp only
      rw [run_bind, hrestore]
      intro x hx
      by_cases hround : IsRoundVariable x
      · exact .inl hround
      · have hbound := hx.resolve_left hround
        refine .inr ?_
        rw [hget₃ x hround]
        split
        · next hname => rwa [hname]
        · next hname =>
          have hx₁ : st₁.Holds x := .inr (by rwa [hget₁ x hround, if_neg hname])
          exact (hrounds x hx₁).resolve_left hround
  refine (Explains.ofHeap _).bind fun heap => ?_
  cases collection with
  | list ref => exact hrun _
  | map ref => exact hrun _
  | _ => exact .pure _

/-! ### Scenes -/

/-- In a scene with strict references the references of templates have words for names, and what
renders a resource is explained by the references of the resource. -/
structure Explanatory (refs : String → Reference → Prop) (s : Scene) : Prop where
  strict : s.config.strict = true
  words : ∀ {template r}, refs template r → r.HasWords
  inner : ∀ inner ∈ s.inner?, ∀ name source ns, s.config.resources.get? name = some source →
    parse source = .ok ns → Explains refs [] (inner name ns)

section

variable {s : Scene} {r : Reference}

/-- With strict references the value of a variable is found, or it is an error that there is
none. -/
theorem run_root (hstrict : s.config.strict = true) (st : State) :
    (root s r).run.run st =
      (match st.scope.get? r.name with
        | some v => .ok v
        | none => .error ⟨s.template, r.position, .undefined r.name r.literal⟩, st) := by
  rw [root, run_bind]
  change (match st.scope.get? r.name with
    | some v => (Pure.pure v : Render Value)
    | none => if s.config.strict then _ else _).run.run st = _
  cases st.scope.get? r.name with
  | none =>
    rw [if_pos hstrict]
    rfl
  | some v => rfl

/-- Where references are strict, what follows a reference may rely on its variable. -/
theorem root_bind_explains (h : Explanatory refs s) (hr : refs s.template r)
    {f : Value → Render β} (hf : ∀ v, Explains refs [r.name] (f v)) :
    Explains refs held (root s r >>= f) := by
  intro st _
  rw [run_bind, run_root h.strict]
  cases hv : st.scope.get? r.name with
  | none => exact .undefined r hr rfl rfl hv
  | some v =>
    refine hf v st fun name hname => ?_
    obtain rfl := List.mem_singleton.mp hname
    exact .inr (by rw [hv]; rfl)

theorem onNull_explains (hr : refs s.template r) (path : String) {member : Member}
    (hword : IsWord member.name) : Explains refs [r.name] (onNull s r path member) :=
  .ite (.fail_path hr hword) (.pure _)

theorem settle_explains (hr : refs s.template r) (path : String) {member : Member}
    (hword : IsWord member.name) (typeName : String) (call : Heap → MethodResult) :
    Explains refs [r.name] (settle s r path member typeName call) := by
  refine (Explains.ofHeap _).bind fun heap => ?_
  rcases call heap with (_ | fault) | ⟨v, heap'⟩
  · exact .ite (.fail_path hr hword) (.pure _)
  · exact .fail_path hr hword
  · exact (Explains.modifyHeap _).bind_pure _

theorem store_explains (hr : refs s.template r) (path : String) (parent key new : Value) :
    Explains refs [r.name] (store s r path parent key new) := by
  cases parent with
  | map ref => exact .modifyHeap _
  | list ref =>
    refine (Explains.ofHeap _).bind fun heap => ?_
    rcases ListMethod.run heap ref .set [key, new] with (_ | fault) | ⟨v, heap'⟩
    · exact .fail s _ nofun
    · exact .fail_path hr (show IsWord "set" by decide)
    · exact .modifyHeap _
  | null => exact .ite (.pure _) (.fail s _ nofun)
  | _ => exact .fail s _ nofun

theorem negation_explains (s : Scene) (position : Position) (v : Value) (e : Expr) :
    Explains refs held (negation s position v e) :=
  .ite (.fail s _ nofun) (.pure _)

theorem operandText_explains (v : Value) (e : Expr) :
    Explains refs held (operandText v e) := by
  cases v with
  | null => exact .pure _
  | _ => exact .ofHeap fun heap => heap.text _

theorem nullOperation_explains (s : Scene) (op : BinaryOp) (position : Position) (a : Value)
    (left right : Expr) : Explains refs held (nullOperation s op position a left right) := by
  refine .ite (.fail s _ nofun) ?_
  cases op <;> exact .pure _

/-- A comparison fails where two values do not compare. -/
private theorem compared_explains (s : Scene) (op : BinaryOp) (position : Position)
    (a b : Value) : Explains refs held
      (match a.compare? b with
        | some o => Pure.pure (Value.bool (Value.agrees op o))
        | none => fail s position (.notComparable a.typeName b.typeName op)) := by
  cases a.compare? b with
  | none => exact .fail s _ nofun
  | some o => exact .pure _

theorem operation_explains (s : Scene) (op : BinaryOp) (position : Position) (a b : Value)
    (left right : Expr) : Explains refs held (operation s op position a b left right) := by
  unfold operation
  split
  · exact (Explains.ofHeap _).bind_pure _
  · exact (Explains.ofHeap _).bind_pure _
  · refine .ite ?_ (.ite (nullOperation_explains s op position a left right) ?_)
    · exact (operandText_explains a left).bind fun _ =>
        (operandText_explains b right).bind_pure _
    · cases op with
      | lt => exact compared_explains s _ _ _ _
      | le => exact compared_explains s _ _ _ _
      | gt => exact compared_explains s _ _ _ _
      | ge => exact compared_explains s _ _ _ _
      | _ => exact .pure _

theorem resource_explains (s : Scene) (position : Position) (e : Expr) (v : Value) :
    Explains refs held (resource s position e v) := by
  refine (operandText_explains v e).bind fun name => ?_
  cases s.config.resources.get? name with
  | none => exact .fail s _ nofun
  | some source => exact .pure _

theorem parsed_explains {inner : String → List Node → Render Output} {name source : String}
    (h : ∀ ns, parse source = .ok ns → Explains refs held (inner name ns)) :
    Explains refs held (parsed inner name source) := by
  unfold parsed
  cases hparse : parse source with
  | error e => exact fun _ _ => .other nofun
  | ok ns => exact (h ns hparse).bind_pure _

end

/-! ### The whole syntax -/

section

variable {s : Scene}

/-- What a scene is asked for is explained by the references of its template. While the path of a
reference is followed its variable is held. -/
def Explanatory.walk (h : Explanatory refs s) : Walk s s (refs s.template) (fun _ => True) where
  Rel x _ := Explains refs [] x
  Along r x _ := Explains refs [r.name] x
  pure := .pure
  bind hx hf := hx.bind hf
  along := .mono
  bindAlong hx hf := hx.bind hf
  ofHeap := .ofHeap
  lookup? := .lookup?
  newList _ := .onHeap _
  newMap _ := .onHeap _
  setVariable _ := .setVariable _
  loop _ collection _ _ hbody := loop_explains _ collection hbody
  root hr _ _ hf := root_bind_explains h hr hf
  onNull hr _ hsg path := onNull_explains hr path ((h.words hr).member hsg)
  settle hr _ hsg path typeName _ _ :=
    settle_explains hr path ((h.words hr).member hsg) typeName _
  store hr := store_explains hr
  assignToMethod _ := .fail s _ nofun
  negation := negation_explains s
  operation := operation_explains s
  resource := resource_explains s
  parse e position he := by
    rw [node]
    cases hinner : s.inner? with
    | none => exact .fail s _ nofun
    | some inner =>
      refine Explains.bind he fun v =>
        (resource_explains s position e v).bind_of_succeeds fun _ p _ hp => ?_
      exact parsed_explains fun ns hparse =>
        h.inner inner hinner p.1 p.2 ns (get?_of_resource_succeeds hp) hparse

/-- Rendering nodes is explained by their references. -/
theorem nodes_explains (h : Explanatory refs s) (ns : List Node)
    (hrefs : ∀ r ∈ nodesReferences ns, refs s.template r) : Explains refs [] (nodes s ns) :=
  h.walk.nodes ns ⟨hrefs, fun _ _ => trivial⟩

end

end Render

/-! ### Templates -/

/-- The reference is one of a template, whose source is given, or of a resource of this name. -/
def Config.HasReference (config : Config) (template source : String) (name : String)
    (r : Reference) : Prop :=
  ∃ src ns, (name = template ∧ src = source ∨ config.resources.get? name = some src) ∧
    parse src = .ok ns ∧ r ∈ nodesReferences ns

theorem Config.HasReference.words {config : Config} {template source name : String}
    {r : Reference} (h : config.HasReference template source name r) : r.HasWords := by
  obtain ⟨src, ns, -, hparse, hr⟩ := h
  exact (allStand_of_parse hparse r hr).2

open Render (Explains)

section

variable {config : Config} (hstrict : config.strict = true) (hosts : Hosts)
  (template source : String)

include hstrict

/-- The depth counts the resources that may still be opened, each of which is rendered in a scene
with one fewer. -/
theorem renderWithin_explains : (depth : Nat) → (name : String) → (ns : List Node) →
    (∀ r ∈ nodesReferences ns, config.HasReference template source name r) →
      Explains (config.HasReference template source) [] (renderWithin config hosts depth name ns)
  | 0, _, ns, hrefs => by
      refine Render.nodes_explains ⟨hstrict, Config.HasReference.words, ?_⟩ ns hrefs
      rintro _ ⟨⟩
  | depth + 1, _, ns, hrefs => by
      refine Render.nodes_explains ⟨hstrict, Config.HasReference.words, ?_⟩ ns hrefs
      rintro _ ⟨⟩ name src ns' hsrc hparse
      exact renderWithin_explains depth name ns' fun r hr => ⟨src, ns', .inr hsrc, hparse, hr⟩

theorem evaluate_explains :
    Explains (config.HasReference template source) [] (evaluate config hosts template source) := by
  unfold evaluate
  cases hparse : parse source with
  | error e => exact fun _ _ => .other nofun
  | ok ns =>
    exact (renderWithin_explains hstrict hosts template source config.maxDepth template ns
      fun r hr => ⟨source, ns, .inl ⟨rfl, rfl⟩, hparse, hr⟩).bind_pure _

/-- **Failures and references.** With strict references, an error of rendering a source is none of
an invocation, or has a reference of its template behind it. -/
theorem evaluate_explained {st st' : State} {e : RenderError}
    (h : (evaluate config hosts template source).run.run st = (.error e, st')) :
    Explained (config.HasReference template source) e st' := by
  have hst := evaluate_explains hstrict hosts template source st nofun
  rw [h] at hst
  exact hst

end

/-- A loop whose own variable is `$foreach` leaves it unbound, although it was bound before. -/
example :
    ((evaluate {} [] "main" "#set($foreach = 1)#foreach($foreach in [])#end").run.run
      default).2.scope.get? "foreach" = none := by
  decide +kernel

end GatewayMapping.Template
