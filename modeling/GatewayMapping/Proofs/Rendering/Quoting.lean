import GatewayMapping.Proofs.OrderedMap
import GatewayMapping.Proofs.Printing.DoubleQuotes
import GatewayMapping.Proofs.Rendering.Placeless

/-!
# Rendering templates in double quotes

The value of double quotes is what the template inside them renders: the quotes are read where the
template is and hold the same nodes, places apart, and rendering does not look at places. How the
template ends, by `#stop` or by leaving a loop, is lost at the end of the quotes.

## Main results

* `evaluate_quotedSource`: a source that assigns a source in double quotes to a variable and
  renders the variable does what the source in the quotes does.
-/

namespace GatewayMapping.Template

open Render

/-- Nothing begins in a content that is kept as it stands. -/
theorem not_isMark_of_not_contains {cs : List Char}
    (h : ¬(cs.contains '$' || cs.contains '#') = true) : ∀ c ∈ cs, isMark c = false := by
  intro c hc
  by_contra hmark
  rw [Bool.not_eq_false, isMark, Bool.or_eq_true, decide_eq_true_iff, decide_eq_true_iff] at hmark
  refine h (Bool.or_eq_true_iff.mpr ?_)
  obtain rfl | rfl := hmark
  · exact .inl (List.contains_iff_mem.mpr hc)
  · exact .inr (List.contains_iff_mem.mpr hc)

/-- A text that is read as a text renders as it stands. -/
theorem nodes_finish_append (scene : Scene) (cs : List Char) :
    Render.nodes scene (Draft.empty.append cs).finish =
      (return .ofText (String.ofList cs) : Render Output) := by
  by_cases hcs : cs = []
  · subst hcs
    rfl
  · rw [Draft.finish_append rfl hcs]
    simp only [Draft.empty, Draft.finish, Draft.closed, List.isEmpty_nil, if_true, List.reverse_nil,
      List.nil_append, nodes, node, pure_bind, Output.ofText, Output.before, String.append_empty]

/-- Where a source is read, it is read from the quotes as well, as an expression whose value is
what the source renders. -/
theorem quotedExpr_of_parse {source : String} {limit : Nat}
    (hlimit : source.toList.length ≤ limit) (base : Position) {ns : List Node}
    (h : parse source = .ok ns) :
    ∃ e, quotedExpr (Inner.upTo limit) source.toList base = .ok e ∧ ∀ scene : Scene,
      Agrees (expr scene e) (do return .string (← nodes scene ns).text) := by
  rw [parse_eq_nodesAt] at h
  rw [quotedExpr]
  split
  · obtain ⟨ns', hns', heq⟩ := nodesAt_relocated (Nat.le_refl _) hlimit .start base h
    refine ⟨.interpolated ns', by rw [hns']; rfl, fun scene => ?_⟩
    rw [expr]
    exact (nodes_agrees_of_unplaced scene heq.symm).bind_right _
  · rename_i hmarks
    have hplain := not_isMark_of_not_contains hmarks
    obtain ⟨ns', hns', heq⟩ := nodesAt_relocated (Nat.le_refl _) (Nat.le_succ _) .start .start h
    obtain rfl := Except.ok.inj ((nodesAt_plain hplain (Nat.le_refl _) .start).symm.trans hns')
    refine ⟨_, rfl, fun scene => ?_⟩
    rw [expr]
    have hnodes := (nodes_agrees_of_unplaced scene heq).bind_right
      fun o => (return .string o.text : Render Value)
    rw [nodes_finish_append, pure_bind] at hnodes
    exact hnodes.symm

/-- Where the quotes are read, the source in them is. -/
theorem parse_of_quotedExpr {source : String} {limit : Nat}
    (hlimit : source.toList.length ≤ limit) (base : Position) {e : Expr}
    (h : quotedExpr (Inner.upTo limit) source.toList base = .ok e) :
    ∃ ns, parse source = .ok ns := by
  rw [quotedExpr] at h
  split at h
  · cases hnodes : nodesAt (Inner.upTo limit) source.toList base with
    | error err =>
      rw [hnodes] at h
      cases h
    | ok ns =>
      obtain ⟨ns', hns', -⟩ := nodesAt_relocated hlimit (Nat.le_refl _) base .start hnodes
      exact ⟨ns', hns'⟩
  · rename_i hmarks
    obtain ⟨ns', hns', -⟩ := nodesAt_relocated (Nat.le_succ _) (Nat.le_refl _) .start .start
      (nodesAt_plain (not_isMark_of_not_contains hmarks) (Nat.le_refl _) .start)
    exact ⟨ns', hns'⟩

/-- A variable has the value that it was just given. -/
theorem setVariable_lookup? {β : Type} (name : String) (v : Value) (f : Option Value → Render β) :
    (do setVariable name v; let v? ← lookup? name; f v?) = (do setVariable name v; f (some v)) := by
  refine funext fun st => ?_
  change f ((st.scope.insert name v).get? name) _ = f (some v) _
  rw [OrderedMap.get?_insert, if_pos rfl]

/-- An assignment to a variable and the variable. -/
theorem nodes_assigned (scene : Scene) (name literal literal' : String) (p p' p'' : Position)
    (e : Expr) {x : Render String} (hx : Agrees (expr scene e) (do return .string (← x))) :
    Agrees (nodes scene
        [.assign (.mk name [] false literal p) e p', .reference (.mk name [] false literal' p'')])
      (do
        let text ← x
        setVariable name (.string text)
        return .ofText text) := by
  have hassign : Agrees (node scene (.assign (.mk name [] false literal p) e p')) (do
      let text ← x
      setVariable name (.string text)
      return .ofText "") := by
    rw [node]
    refine (hx.bind_right _).trans (.of_eq ?_)
    simp only [bind_assoc, pure_bind, assign]
  rw [nodes]
  refine (hassign.bind_right _).trans ?_
  simp only [bind_assoc, pure_bind]
  refine .bind_left x fun text => .of_eq ?_
  have htext : (ofHeap fun h => h.text (.string text) : Render String) = return text := rfl
  simp only [Output.ofText, nodes, node, reference, root, walk, bind_assoc, pure_bind]
  refine (setVariable_lookup? name _ _).trans ?_
  simp only [pure_bind, htext, Output.before, String.append_empty, String.empty_append]

/-- Within any depth nodes are rendered in some scene. -/
theorem renderWithin_eq_nodes (config : Config) (hosts : Hosts) (depth : Nat) (template : String) :
    ∃ scene : Scene, scene.config = config ∧
      ∀ ns, renderWithin config hosts depth template ns = Render.nodes scene ns := by
  cases depth with
  | zero => exact ⟨_, rfl, fun _ => rfl⟩
  | succ depth => exact ⟨_, rfl, fun _ => rfl⟩

theorem evaluate_quotedSource_agrees (config : Config) (hosts : Hosts)
    (template source : String) :
    Agrees (evaluate config hosts template (quotedSource source)) (do
      let text ← evaluate config hosts template source
      setVariable "s" (.string text)
      return text) := by
  obtain ⟨limit, base, literal, p, p', p'', hlimit, hquoted⟩ := parse_quotedSource source
  unfold evaluate
  rw [hquoted]
  cases hparse : parse source with
  | error err =>
    cases he : quotedExpr (Inner.upTo limit) source.toList base with
    | ok e =>
      obtain ⟨ns, hns⟩ := parse_of_quotedExpr hlimit base he
      rw [hparse] at hns
      cases hns
    | error err' =>
      intro st text st'
      refine iff_of_false (not_succeeds_throw _ st text st') fun h => ?_
      obtain ⟨_, _, hthrow, -⟩ := succeeds_bind_iff.mp h
      exact not_succeeds_throw _ _ _ _ hthrow
  | ok ns =>
    obtain ⟨e, he, hvalue⟩ := quotedExpr_of_parse hlimit base hparse
    obtain ⟨scene, -, hscene⟩ := renderWithin_eq_nodes config hosts config.maxDepth template
    have hassigned := nodes_assigned scene "s" literal "$s" p p' p'' e
      (x := do return (← nodes scene ns).text) (by simpa using hvalue scene)
    rw [he]
    change Agrees (render config hosts template _) (do
      let text ← render config hosts template ns
      setVariable "s" (.string text)
      return text)
    rw [render, render, hscene, hscene]
    refine (hassigned.bind_right _).trans (.of_eq ?_)
    simp only [bind_assoc, pure_bind, Output.ofText]

/-- **Double quotes hold a template.** The source that assigns a source in double quotes, with
every double quote of it doubled, to a variable and then renders the variable succeeds from a state
exactly if the source itself does, with the same text. It leaves what the source leaves, with the
text bound to the variable. -/
theorem evaluate_quotedSource (config : Config) (hosts : Hosts) (template source : String)
    (st st'' : State) (text : String) :
    (evaluate config hosts template (quotedSource source)).run.run st = (.ok text, st'') ↔
      ∃ st', (evaluate config hosts template source).run.run st = (.ok text, st') ∧
        st'' = { st' with scope := st'.scope.insert "s" (.string text) } := by
  refine (evaluate_quotedSource_agrees config hosts template source st text st'').trans ?_
  rw [succeeds_bind_iff]
  constructor
  · rintro ⟨text', st', htext, hset⟩
    obtain ⟨_, _, ⟨⟩, ⟨⟩⟩ := succeeds_bind_iff.mp hset
    exact ⟨st', htext, rfl⟩
  · rintro ⟨st', htext, rfl⟩
    exact ⟨text, st', htext, rfl⟩

end GatewayMapping.Template
