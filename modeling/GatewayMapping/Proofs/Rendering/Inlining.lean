import GatewayMapping.Proofs.Printing.NodesRoundTrip
import GatewayMapping.Proofs.Printing.SingleNodes
import GatewayMapping.Proofs.Rendering.Permissiveness
import GatewayMapping.Proofs.Rendering.Placeless

/-!
# Parsing a resource is rendering its source

A template that consists of one `#parse` renders what the source of the resource renders when one
resource fewer may lie inside another. The two renderings have other names for the template and
other depths at every resource inside the resource, which failures alone look at, and a `#stop` or
`#break` that ends the resource early ends the template with it.

## Main definitions

* `parseSource`: the source that parses a resource.
* `evaluateWithin`: renders a source with a depth that is left.

## Main results

* `parse_parseSource`: how such a source is read.
* `evaluate_parseSource`: what it renders.
-/

namespace GatewayMapping.Template

open Read (Yields)
open Grammar Render

/-! ### The source -/

/-- The source that parses the resource with a name. -/
def parseSource (name : String) : String := "#parse('" ++ name ++ "')"

theorem toList_parseSource (name : String) :
    (parseSource name).toList =
      '#' :: (Directive.parse.word ++ '(' :: ('\'' :: (name.toList ++ ['\'']) ++ [')'])) := by
  simp [parseSource, Directive.word]

/-- A name in single quotes is an argument. -/
theorem argumentText_name {name : String} (h : '\'' ∉ name.toList) :
    ArgumentText noLiteral (.string name) ('\'' :: (name.toList ++ ['\''])) := by
  have hwritten : Written 0 (.string name) ('\'' :: (name.toList ++ ['\''])) := by
    have hstring := Written.string (k := 0) (s := name)
    rwa [doubled_eq_self h] at hstring
  exact WrittenAfterBlanks.argumentText (.mk .nil hwritten)

/-- The directive adds one node to an empty draft, wherever the name is read. -/
theorem step_parse_yields {name : String} {n : Nat} {cs : List Char}
    (harg : ArgumentText noLiteral (.string name) cs) (hn : cs.length < n) :
    Yields (step (Inner.upTo n) .empty) ('#' :: (Directive.parse.word ++ '(' :: (cs ++ [')'])))
      fun s left => (∃ node, s = .goOn (Draft.empty.add node) ∧
        ∃ position, node = .parse (.string name) position) ∧ left = [] := by
  refine step_directive_yields .parse fun position indent => ?_
  refine .seq ((argument_yields harg hn .parse).mono fun e left he => ?_)
  obtain ⟨he, rfl⟩ := he
  obtain rfl := Expr.eq_string_of_unplaced he
  exact .seq (gobble_empty_yields indent (.pure ⟨⟨_, rfl, position, rfl⟩, rfl⟩))

/-- The source is one directive. -/
theorem parse_parseSource {name : String} (h : '\'' ∉ name.toList) :
    ∃ position, parse (parseSource name) = .ok [.parse (.string name) position] := by
  have hlength : ('\'' :: (name.toList ++ ['\''])).length < (parseSource name).toList.length := by
    simp [toList_parseSource, Directive.word]
  have hstep := step_parse_yields (argumentText_name h) hlength
  rw [← toList_parseSource] at hstep
  obtain ⟨_, hparse, position, rfl⟩ :=
    parse_single (P := fun node => ∃ position, node = .parse (.string name) position) hstep
  exact ⟨position, hparse⟩

/-! ### Rendering it -/

/-- Renders a source, where resources may lie in one another to a depth. -/
def evaluateWithin (config : Config) (hosts : Hosts) (depth : Nat) (template source : String) :
    Render String :=
  match parse source with
  | .ok ns => return (← renderWithin config hosts depth template ns).text
  | .error e => throw (e.inTemplate template)

/-- With more depth left, a source renders as with less, whatever the template is called. -/
theorem evaluateWithin_refines (c c' : Config) (hstrict : c'.strict = c.strict)
    (hresources : c'.resources = c.resources) (hosts : Hosts) (template template' source : String)
    {depth depth' : Nat} (hd : depth ≤ depth') :
    Refines (evaluateWithin c hosts depth template source)
      (evaluateWithin c' hosts depth' template' source) := by
  unfold evaluateWithin
  cases parse source with
  | error e => exact fun st a st' h => absurd h (not_succeeds_throw _ st a st')
  | ok ns =>
    have hresources' : ∀ name source, c.resources.get? name = some source →
        c'.resources.get? name = some source := fun _ _ h => hresources ▸ h
    exact (renderWithin_refines_of_resources (.inr hstrict) hresources' hosts template template' hd
      ns).bind_right _

/-- One `#parse` renders what the source of the resource renders with the depth that is left. -/
theorem render_parse_agrees {config : Config} (hosts : Hosts) (template : String) {depth : Nat}
    (hdepth : config.maxDepth = depth + 1) {name source : String}
    (hsource : config.resources.get? name = some source) (position : Position) :
    Agrees (render config hosts template [.parse (.string name) position])
      (evaluateWithin config hosts depth name source) := by
  have htext : (operandText (.string name) (.string name) : Render String) = return name := rfl
  rw [render, hdepth, renderWithin, nodes, node, Render.expr, evaluateWithin]
  simp only [pure_bind, resource, htext, hsource, parsed]
  cases parse source with
  | error e =>
    intro st a st'
    refine iff_of_false (fun h => ?_) (not_succeeds_throw _ _ _ _)
    obtain ⟨_, _, h, -⟩ := succeeds_bind_iff.mp h
    obtain ⟨_, _, h, -⟩ := succeeds_bind_iff.mp h
    exact not_succeeds_throw _ _ _ _ h
  | ok ns =>
    refine .of_eq ?_
    simp only [bind_assoc, pure_bind]
    refine congrArg _ (funext fun o => ?_)
    by_cases hflow : o.flow = .stop
    · rw [if_pos hflow]
      rfl
    · rw [if_neg hflow]
      simp only [nodes, pure_bind, Output.before, Output.ofText, String.append_empty]

/-- A template that consists of a `#parse` renders if the resource does with the depth that is
left. -/
theorem evaluate_parseSource_succeeds_iff {config : Config} (hosts : Hosts)
    (template template' : String) {name source : String} (hquote : '\'' ∉ name.toList)
    (hsource : config.resources.get? name = some source) (st st' : State) (text : String) :
    Succeeds (evaluate config hosts template (parseSource name)) st text st' ↔
      ∃ depth, config.maxDepth = depth + 1 ∧
        Succeeds (evaluateWithin config hosts depth template' source) st text st' := by
  obtain ⟨position, hparse⟩ := parse_parseSource hquote
  have hrename (depth : Nat) (template template' : String) :
      Refines (evaluateWithin config hosts depth template source)
        (evaluateWithin config hosts depth template' source) :=
    evaluateWithin_refines config config rfl rfl hosts _ _ source (Nat.le_refl depth)
  have hrender : evaluate config hosts template (parseSource name) =
      render config hosts template [.parse (.string name) position] := by
    rw [evaluate, hparse]
  rw [hrender]
  cases hdepth : config.maxDepth with
  | zero =>
    refine iff_of_false (fun h => ?_) ?_
    · rw [render, hdepth] at h
      obtain ⟨_, _, h, -⟩ := succeeds_bind_iff.mp h
      obtain ⟨_, _, h, -⟩ := succeeds_bind_iff.mp h
      exact not_succeeds_fail _ _ _ _ _ _ h
    · rintro ⟨_, h, _⟩
      exact absurd h (Nat.succ_ne_zero _).symm
  | succ depth =>
    refine (render_parse_agrees hosts template hdepth hsource position st text st').trans ?_
    constructor
    · exact fun h => ⟨depth, rfl, hrename depth _ _ st text st' h⟩
    · rintro ⟨_, hd, h⟩
      obtain rfl := Nat.succ.inj hd
      exact hrename depth _ _ st text st' h

/-- **Parsing a resource is inlining.** A template that consists of the `#parse` of a resource
renders exactly if the source of the resource does when resources may lie in one another one less
deep, with the same text and with the same variables and containers at the end. So where it
renders, the source of the resource renders in the same way under the configuration itself. -/
theorem evaluate_parseSource (config : Config) (hosts : Hosts) (template template' : String)
    {name source : String} (hquote : '\'' ∉ name.toList)
    (hsource : config.resources.get? name = some source) (st st' : State) (text : String) :
    ((evaluate config hosts template (parseSource name)).run.run st = (.ok text, st') ↔
      0 < config.maxDepth ∧
        (evaluate { config with maxDepth := config.maxDepth - 1 } hosts template' source).run.run st
          = (.ok text, st')) ∧
    ((evaluate config hosts template (parseSource name)).run.run st = (.ok text, st') →
      (evaluate config hosts template' source).run.run st = (.ok text, st')) := by
  have hiff :=
    evaluate_parseSource_succeeds_iff hosts template template' hquote hsource st st' text
  -- The depth that is left is the depth of the other configuration.
  have hwithin (depth : Nat) :
      Succeeds (evaluateWithin config hosts depth template' source) st text st' ↔
        Succeeds (evaluate { config with maxDepth := depth } hosts template' source) st text st' :=
    let c : Config := { config with maxDepth := depth }
    ⟨evaluateWithin_refines config c rfl rfl hosts _ _ source (Nat.le_refl depth) st text st',
      evaluateWithin_refines c config rfl rfl hosts _ _ source (Nat.le_refl depth) st text st'⟩
  refine ⟨hiff.trans ⟨?_, ?_⟩, fun h => ?_⟩
  · rintro ⟨depth, hdepth, h⟩
    rw [hdepth]
    exact ⟨Nat.succ_pos depth, (hwithin depth).mp h⟩
  · rintro ⟨hpos, h⟩
    exact ⟨_, (Nat.sub_add_cancel hpos).symm, (hwithin _).mpr h⟩
  · obtain ⟨depth, hdepth, h⟩ := hiff.mp h
    exact evaluateWithin_refines config config rfl rfl hosts template' template' source
      (hdepth ▸ Nat.le_succ depth) st text st' h

/-- A resource that binds a variable, parses another one that ends early, and stops. -/
theorem evaluate_parseSource_nested :
    let source := "#set($x = 1)#parse('inner')$x#stop lost"
    let config : Config :=
      { strict := true, resources := .ofList [("outer", source), ("inner", "<#break lost")],
        maxDepth := 2 }
    let st : State := ⟨.empty, .empty⟩
    let st' : State := ⟨.empty, .ofList [("x", .int 1)]⟩
    '\'' ∉ "outer".toList ∧ config.resources.get? "outer" = some source ∧
      (evaluate config [] "t" (parseSource "outer")).run.run st = (.ok "<1", st') ∧
      (evaluate config [] "u" source).run.run st = (.ok "<1", st') := by
  intro source config st st'
  have hquote : '\'' ∉ "outer".toList := by decide
  have hsource : config.resources.get? "outer" = some source := rfl
  have hinlining := evaluate_parseSource config [] "t" "u" hquote hsource st st' "<1"
  let run := (evaluate { config with maxDepth := 1 } [] "u" source).run.run st
  have htext : run.1.toOption = some "<1" := by decide +kernel
  have hrun : run = (.ok "<1", st') := by
    refine Prod.ext ?_ (by decide +kernel)
    cases h : run.1 with
    | error e => simp [h, Except.toOption] at htext
    | ok text => simpa [h, Except.toOption] using htext
  have hparse := hinlining.1.mpr ⟨by decide, hrun⟩
  exact ⟨hquote, hsource, hparse, hinlining.2 hparse⟩

end GatewayMapping.Template
