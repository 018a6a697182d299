import Mathlib
import GatewayMapping.Proofs.Rendering.Refinement
import GatewayMapping.Proofs.Rendering.Simulation

/-!
# Permissive configurations

A configuration permits all that another one permits when it is not stricter, when resources may
lie as deep inside one another, and when it has the resources of the other
(`Config.Permits`). Rendering under such a configuration succeeds wherever rendering under the
other one does, with the same text, variables and containers: the checks that the two differ in
can only fail.

Refinement is a simulation between the *scenes* of the two renderings (`Scene.Permits`). It goes
from a resource to the template around it by induction on the depth that is left. The names of the
templates may differ, since they are read by failures only.

## Main definitions

* `Config.Permits`, `Scene.Permits`.

## Main results

* `Render.nodes_refines`: rendering nodes refines along the scenes.
* `render_succeeds_of_permits`: rendering refines along the configurations.
-/

namespace GatewayMapping.Template

/-- What succeeds under `c` is to succeed under `c'`: it is not stricter, allows resources as
deep inside one another, and has every resource of `c` with the same source. -/
structure Config.Permits (c c' : Config) : Prop where
  strict : c'.strict = false ∨ c'.strict = c.strict
  depth : c.maxDepth ≤ c'.maxDepth
  resources : ∀ name source, c.resources.get? name = some source →
    c'.resources.get? name = some source

/-- What succeeds in the scene `s` is to succeed in `s'`. A scene in which no resource may be
parsed is permitted by any. -/
structure Scene.Permits (s s' : Scene) : Prop where
  hosts : s'.hosts = s.hosts
  strict : s'.config.strict = false ∨ s'.config.strict = s.config.strict
  resources : ∀ name source, s.config.resources.get? name = some source →
    s'.config.resources.get? name = some source
  inner : ∀ render, s.inner? = some render → ∃ render', s'.inner? = some render' ∧
    ∀ name ns, Render.Refines (render name ns) (render' name ns)

namespace Render

variable {s s' : Scene}

/-! ### Checks -/

/-- A check that is made in strict scenes only, and otherwise gives `x`. -/
theorem refines_ite_strict {α : Type} (h : s.Permits s') (position position' : Position)
    (fault fault' : RenderFault) (x : Render α) :
    Refines (if s.config.strict then fail s position fault else x)
      (if s'.config.strict then fail s' position' fault' else x) := by
  rcases Bool.eq_false_or_eq_true s.config.strict with hs | hs
  · rw [if_pos hs]
    exact Refines.fail s position fault _
  · have hs' : s'.config.strict = false := h.strict.elim id fun he => he.trans hs
    rw [hs, hs']
    exact Refines.refl _

theorem settle_refines (h : s.Permits s') (r : Reference) (path : String) (member : Member)
    (typeName : String) (call : Heap → MethodResult) :
    Refines (settle s r path member typeName call) (settle s' r path member typeName call) := by
  refine Refines.bind_left _ fun heap => ?_
  rcases call heap with (_ | fault) | ⟨v, heap'⟩
  · exact refines_ite_strict h _ _ _ _ _
  · exact Refines.fail s _ _ _
  · exact Refines.refl _

theorem root_refines (h : s.Permits s') (r : Reference) : Refines (root s r) (root s' r) := by
  refine Refines.bind_left _ fun v? => ?_
  cases v? with
  | none => exact refines_ite_strict h _ _ _ _ _
  | some v => exact Refines.refl _

theorem onNull_refines (h : s.Permits s') (r : Reference) (path : String) (member : Member) :
    Refines (onNull s r path member) (onNull s' r path member) :=
  refines_ite_strict h _ _ _ _ _

/-- Where the strict scene assigns, it does so to a list or a map, as the other scene does. -/
theorem store_refines (h : s.Permits s') (target : Reference) (path : String)
    (parent key new : Value) :
    Refines (store s target path parent key new) (store s' target path parent key new) := by
  cases parent with
  | map ref => exact Refines.refl _
  | list ref =>
    refine Refines.bind_left _ fun heap => ?_
    rcases ListMethod.run heap ref .set [key, new] with (_ | fault) | ⟨v, heap'⟩
    · exact Refines.fail s _ _ _
    · exact Refines.fail s _ _ _
    · exact Refines.refl _
  | null =>
    simp only [store, Value.isNull, Bool.true_and, Bool.not_eq_true', ← Bool.not_eq_true, ite_not]
    exact refines_ite_strict h _ _ _ _ _
  | _ => exact Refines.fail s _ _ _

theorem negation_refines (h : s.Permits s') (position : Position) (v : Value) (e : Expr) :
    Refines (negation s position v e) (negation s' position v e) := by
  unfold negation
  cases v.isNull with
  | false => exact Refines.refl _
  | true => exact refines_ite_strict h _ _ _ _ _

theorem nullOperation_refines (h : s.Permits s') (op : BinaryOp) (position : Position)
    (a : Value) (left right : Expr) :
    Refines (nullOperation s op position a left right)
      (nullOperation s' op position a left right) :=
  refines_ite_strict h _ _ _ _ _

/-- A comparison fails in both scenes where two values do not compare. -/
private theorem compared_refines (op : BinaryOp) (position : Position) (a b : Value) :
    Refines
      (match a.compare? b with
        | some o => return Value.bool (Value.agrees op o)
        | none => fail s position (.notComparable a.typeName b.typeName op))
      (match a.compare? b with
        | some o => return Value.bool (Value.agrees op o)
        | none => fail s' position (.notComparable a.typeName b.typeName op)) := by
  cases a.compare? b with
  | none => exact Refines.fail s _ _ _
  | some o => exact Refines.refl _

theorem operation_refines (h : s.Permits s') (op : BinaryOp) (position : Position)
    (a b : Value) (left right : Expr) :
    Refines (operation s op position a b left right)
      (operation s' op position a b left right) := by
  unfold operation
  split
  · exact Refines.refl _
  · exact Refines.refl _
  · split
    · exact Refines.refl _
    · split
      · exact nullOperation_refines h op position a left right
      · cases op with
        | lt => exact compared_refines _ _ _ _
        | le => exact compared_refines _ _ _ _
        | gt => exact compared_refines _ _ _ _
        | ge => exact compared_refines _ _ _ _
        | _ => exact Refines.refl _

theorem resource_refines (h : s.Permits s') (position : Position) (e : Expr) (v : Value) :
    Refines (resource s position e v) (resource s' position e v) := by
  refine Refines.bind_left _ fun name => ?_
  cases hname : s.config.resources.get? name with
  | none => exact Refines.fail s _ _ _
  | some source =>
    rw [h.resources name source hname]
    exact Refines.refl _

theorem parsed_refines {inner inner' : String → List Node → Render Output}
    (h : ∀ name ns, Refines (inner name ns) (inner' name ns)) (name source : String) :
    Refines (parsed inner name source) (parsed inner' name source) := by
  unfold parsed
  cases Template.parse source with
  | error e => exact Refines.refl _
  | ok ns => exact (h name ns).bind_right _

/-! ### The simulation -/

/-- Refinement is a simulation. -/
def refinement : Simulation Id Id where
  Rel := Refines
  pure a := Refines.refl (pure a)
  bind := Refines.bind
  throw e := Refines.refl (throw e)
  get := Refines.refl get
  modify f := Refines.refl (modify f)

/-- What a scene is asked for refines to what one that permits more is asked for. -/
theorem scenes_of_permits (h : s.Permits s') : refinement.Scenes s s' where
  hosts := h.hosts
  fail position fault := Refines.fail s position fault _
  settle := settle_refines h
  root := root_refines h
  onNull := onNull_refines h
  store := store_refines h
  negation := negation_refines h
  operation := operation_refines h
  resource := resource_refines h
  parse e position he := by
    rw [node, node]
    cases hi : s.inner? with
    | none => exact Refines.fail s _ _ _
    | some inner =>
      obtain ⟨inner', hi', hinner⟩ := h.inner inner hi
      rw [hi']
      refine he.bind fun v => ?_
      exact (resource_refines h position e v).bind fun p => parsed_refines hinner p.1 p.2

/-- Rendering nodes refines along the scenes. -/
theorem nodes_refines (h : s.Permits s') (ns : List Node) : Refines (nodes s ns) (nodes s' ns) :=
  (scenes_of_permits h).nodes ns

end Render

/-! ### Configurations -/

open Render

/-- With more depth left, nodes render as with less, whatever the template is called. The depth that
the configurations allow does not matter then, except in what a failure says. -/
theorem renderWithin_refines_of_resources {c c' : Config}
    (hstrict : c'.strict = false ∨ c'.strict = c.strict)
    (hresources : ∀ name source, c.resources.get? name = some source →
      c'.resources.get? name = some source)
    (hosts : Hosts) (template template' : String) {depth depth' : Nat} (hd : depth ≤ depth')
    (ns : List Node) :
    Refines (renderWithin c hosts depth template ns)
      (renderWithin c' hosts depth' template' ns) := by
  induction depth generalizing template template' depth' ns with
  | zero =>
    have hnone : ∀ inner?' : Option (String → List Node → Render Output),
        Scene.Permits ⟨c, hosts, template, none⟩ ⟨c', hosts, template', inner?'⟩ :=
      fun _ => ⟨rfl, hstrict, hresources, fun _ hi => absurd hi (Option.some_ne_none _).symm⟩
    cases depth' with
    | zero => exact nodes_refines (hnone _) ns
    | succ depth' => exact nodes_refines (hnone _) ns
  | succ depth ih =>
    cases depth' with
    | zero => exact absurd hd (Nat.not_succ_le_zero depth)
    | succ depth' =>
      have hpermits : Scene.Permits ⟨c, hosts, template, some (renderWithin c hosts depth)⟩
          ⟨c', hosts, template', some (renderWithin c' hosts depth')⟩ := by
        refine ⟨rfl, hstrict, hresources, fun render hr => ?_⟩
        obtain rfl := Option.some.inj hr
        exact ⟨_, rfl, fun name ns => ih name name (Nat.le_of_succ_le_succ hd) ns⟩
      exact nodes_refines hpermits ns

theorem renderWithin_refines {c c' : Config} (h : c.Permits c') (hosts : Hosts)
    (template template' : String) {depth depth' : Nat} (hd : depth ≤ depth') (ns : List Node) :
    Refines (renderWithin c hosts depth template ns)
      (renderWithin c' hosts depth' template' ns) :=
  renderWithin_refines_of_resources h.strict h.resources hosts template template' hd ns

/-- **Permissive configurations keep what renders.** Where rendering a source, or the nodes of a
template, succeeds under a configuration, it succeeds under any configuration that permits as
much, with the same text and with the same variables and containers at the end. -/
theorem render_succeeds_of_permits {c c' : Config} (h : c.Permits c') (hosts : Hosts)
    (template : String) (st st' : State) (text : String) :
    (∀ ns, (render c hosts template ns).run.run st = (.ok text, st') →
      (render c' hosts template ns).run.run st = (.ok text, st')) ∧
    (∀ source, (evaluate c hosts template source).run.run st = (.ok text, st') →
      (evaluate c' hosts template source).run.run st = (.ok text, st')) := by
  have hrender : ∀ ns, Refines (render c hosts template ns) (render c' hosts template ns) :=
    fun ns => (renderWithin_refines h hosts template template h.depth ns).bind_right _
  refine ⟨fun ns => hrender ns st text st', fun source => ?_⟩
  unfold evaluate
  cases Template.parse source with
  | ok ns => exact hrender ns st text st'
  | error e => exact fun hs => absurd hs (not_succeeds_throw _ st text st')

/-- A resource that the strict configuration finds at its last depth renders in the same way
where references may be unbound and more is allowed. -/
theorem render_succeeds_of_permits_parsed :
    let c : Config := { strict := true, resources := .ofList [("r", "[$x]")], maxDepth := 1 }
    let c' : Config :=
      { strict := false, resources := .ofList [("q", "?"), ("r", "[$x]")], maxDepth := 3 }
    let st : State := ⟨.empty, .ofList [("x", .int 7)]⟩
    c.Permits c' ∧ (evaluate c [] "t" "#parse('r')$x").run.run st = (.ok "[7]7", st) ∧
      (evaluate c' [] "t" "#parse('r')$x").run.run st = (.ok "[7]7", st) := by
  intro c c' st
  have h : c.Permits c' := by
    refine ⟨.inl rfl, by decide, fun name source hr => ?_⟩
    change (if "r" = name then some "[$x]" else none) = some source at hr
    change (if "q" = name then some "?" else if "r" = name then some "[$x]" else none) = some source
    split_ifs at hr with hname
    · subst hname
      exact hr
  have hs : (evaluate c [] "t" "#parse('r')$x").run.run st = (.ok "[7]7", st) := by cbv
  exact ⟨h, hs, (render_succeeds_of_permits h [] "t" st st "[7]7").2 _ hs⟩

end GatewayMapping.Template
