import GatewayMapping.Proofs.Rendering.Quoting
import GatewayMapping.Proofs.Text.Occurrences

/-!
# Texts written literally

Any text can be written so that it is read as itself. A backslash keeps `$` and `#` from beginning
anything, and of the backslashes before it two are written for one (`escapedSource`). A verbatim
block needs no backslashes, but holds no text in which its closing mark occurs (`verbatimSource`).

Nothing of such a text depends on the configuration, on the variables or on the host objects, so it
renders as itself everywhere.

## Main results

* `escaped_run`: what is written for a run of backslashes before `$` or `#`.
* `literal_sources`: both sources are read as the text and render as it.
-/

namespace GatewayMapping.Template

open Grammar
open Read (Yields)

/-- The source of a text with a backslash before each `$` and `#`, and two for each backslash right
before them. -/
def escapedSource (text : String) : String := String.ofList (escaped false 0 text.toList)

/-- The mark at the end of a verbatim block. -/
def closingMark : List Char := [']', ']', '#']

/-- The source of a text in a verbatim block. -/
def verbatimSource (text : String) : String :=
  String.ofList ('#' :: '[' :: '[' :: (text.toList ++ closingMark))

/-- What is read of a text that stands for itself: nothing, if it is empty. -/
def literalNodes (text : String) : List Node := if text = "" then [] else [.text text]

theorem finish_append_toList (text : String) :
    (Draft.empty.append text.toList).finish = literalNodes text := by
  rw [literalNodes]
  split
  · subst text
    rfl
  · have hcs : text.toList ≠ [] := by simpa using ‹¬text = ""›
    rw [Draft.finish_append rfl hcs, String.ofList_toList]
    rfl

/-! ### Backslashes -/

theorem escaped_slashes (followed : Bool) (run n : Nat) (cs : List Char) :
    escaped followed run (List.replicate n '\\' ++ cs) = escaped followed (run + n) cs := by
  induction n generalizing run with
  | zero => rfl
  | succ n ih =>
    rw [List.replicate_succ, List.cons_append, escaped, if_pos rfl, ih, Nat.add_right_comm,
      Nat.add_assoc]

/-- A run of backslashes ends before any other character. -/
theorem escaped_append {followed : Bool} {cs : List Char} {c : Char} (hc : c ≠ '\\') (run : Nat)
    (ds : List Char) : escaped followed run (cs ++ c :: ds) =
      escaped followed run (cs ++ [c]) ++ escaped followed 0 ds := by
  have hnil : escaped followed 0 [] = [] := by cases followed <;> rfl
  induction cs generalizing run with
  | nil =>
    rw [List.nil_append, List.nil_append, escaped, escaped, if_neg hc, if_neg hc, hnil]
    split <;> rw [List.append_assoc] <;> rfl
  | cons b cs ih =>
    rw [List.cons_append, List.cons_append, escaped, escaped, ih, ih]
    split
    · rfl
    · split <;> rw [List.append_assoc] <;> rfl

/-- Before `$` or `#`, a run of backslashes is doubled and one more is written. -/
theorem escaped_run {followed : Bool} {cs : List Char} (hcs : cs.getLast? ≠ some '\\') (n : Nat)
    {c : Char} (hc : isMark c = true) (ds : List Char) :
    escaped followed 0 (cs ++ (List.replicate n '\\' ++ c :: ds)) =
      escaped followed 0 cs ++ (List.replicate (2 * n + 1) '\\' ++ c :: escaped followed 0 ds) := by
  have hslash : c ≠ '\\' := by
    rintro rfl
    cases hc
  have hmark : escaped followed 0 (List.replicate n '\\' ++ c :: ds) =
      List.replicate (2 * n + 1) '\\' ++ c :: escaped followed 0 ds := by
    rw [escaped_slashes, Nat.zero_add, escaped, if_neg hslash, if_pos hc]
  rw [← hmark]
  rcases List.eq_nil_or_concat cs with rfl | ⟨cs, b, rfl⟩
  · cases followed <;> rfl
  · rw [List.concat_eq_append] at hcs ⊢
    have hb : b ≠ '\\' := by simpa using hcs
    rw [List.append_assoc, List.singleton_append, escaped_append hb]

/-- **A text with backslashes before `$` and `#` is read as the text.** -/
theorem parse_escapedSource (text : String) :
    parse (escapedSource text) = .ok (literalNodes text) := by
  rw [parse_eq_nodesAt, escapedSource, String.toList_ofList,
    nodesAt_agree (Nat.le_refl _) (Nat.le_succ _), nodesAt_escaped _ (Nat.le_refl _),
    finish_append_toList]

/-! ### Verbatim blocks -/

theorem indexOf?_closingMark {cs : List Char} (h : ¬closingMark <:+: cs) :
    Text.indexOf? closingMark (cs ++ closingMark) = some cs.length := by
  have hself : ∀ k < closingMark.length, 0 < k → ¬closingMark.drop k <+: closingMark := by decide
  simpa using Text.indexOf?_append_self hself h []

/-- A verbatim block is read as what it holds. -/
theorem verbatim_yields {d : Draft} {cs : List Char} (h : ¬closingMark <:+: cs)
    {Q : Draft → List Char → Prop} (hQ : Q (d.append cs) []) :
    Yields (verbatim d) ('#' :: '[' :: '[' :: (cs ++ closingMark)) Q := by
  have hfound : Text.indexOf? [']', ']', '#'] (cs ++ closingMark) = some cs.length :=
    indexOf?_closingMark h
  have hend : (cs ++ closingMark).drop (cs.length + 3) = [] := by simp [closingMark]
  refine .seq (.rest ?_)
  simp only [List.drop_succ_cons, List.drop_zero, hfound]
  refine .seq (.skip (.pure ?_))
  rw [List.take_left, List.drop_succ_cons, List.drop_succ_cons, List.drop_succ_cons, hend]
  exact hQ

/-- **A text in a verbatim block is read as the text**, if the closing mark does not occur in it. -/
theorem parse_verbatimSource {text : String} (h : ¬closingMark <:+: text.toList) :
    parse (verbatimSource text) = .ok (literalNodes text) := by
  have hread (n : Nat) : Yields (Inner.upTo (n + 1)).block
      ('#' :: '[' :: '[' :: (text.toList ++ closingMark))
      fun b _ => b = ⟨literalNodes text, .endOfText⟩ := by
    refine blockFrom_step (.seq (.peek? (.seq (.rest (.seq (verbatim_yields h (.pure ?_)))))))
    exact fun cur hcur => ⟨_, cur, blockFrom_of_nil hcur _ _ _, by rw [finish_append_toList]⟩
  rw [parse_eq_nodesAt, verbatimSource, String.toList_ofList,
    nodesAt_agree (Nat.le_refl _) (Nat.le_succ _), nodesAt_of_yields (hread _)]

/-! ### Rendering -/

theorem evaluate_of_literalNodes (config : Config) (hosts : Hosts) (template : String)
    {source text : String} (h : parse source = .ok (literalNodes text)) :
    evaluate config hosts template source = return text := by
  obtain ⟨scene, -, hscene⟩ := renderWithin_eq_nodes config hosts config.maxDepth template
  have hnodes : Render.nodes scene (literalNodes text) = return .ofText text := by
    rw [← finish_append_toList, nodes_finish_append, String.ofList_toList]
  rw [evaluate, h]
  change render config hosts template (literalNodes text) = _
  rw [render, hscene, hnodes, pure_bind]
  rfl

/-- **Any text can be written literally.** With backslashes it is read as the text alone and renders
as it under every configuration, with any host objects and from any state, which it leaves as it
is. In a verbatim block it is read as the text alone if the closing mark does not occur in it. -/
theorem literal_sources (text : String) :
    parse (escapedSource text) = .ok (literalNodes text) ∧
      (∀ (config : Config) (hosts : Hosts) (template : String) (st : State),
        (evaluate config hosts template (escapedSource text)).run.run st = (.ok text, st)) ∧
      (¬closingMark <:+: text.toList →
        parse (verbatimSource text) = .ok (literalNodes text)) := by
  refine ⟨parse_escapedSource text, fun config hosts template st => ?_, parse_verbatimSource⟩
  rw [evaluate_of_literalNodes config hosts template (parse_escapedSource text)]
  rfl

/-- A text with single and double backslashes, adjacent marks, a closing mark that is not complete
and a backslash at its end. -/
theorem literal_sources_marks :
    let text := "\\\\$\\x$#set(]]$]#\\"
    escapedSource text = "\\\\\\\\\\$\\x\\$\\#set(]]\\$]\\#\\" ∧
      parse (escapedSource text) = .ok [.text text] ∧
      (evaluate {} [] "t" (escapedSource text)).run.run ⟨.empty, .empty⟩ =
        (.ok text, ⟨.empty, .empty⟩) ∧
      ¬closingMark <:+: text.toList ∧ parse (verbatimSource text) = .ok [.text text] := by
  intro text
  have hmark : ¬closingMark <:+: text.toList := by decide
  obtain ⟨hparse, hrender, hverbatim⟩ := literal_sources text
  exact ⟨by decide +kernel, hparse, hrender _ _ _ _, hmark, hverbatim hmark⟩

end GatewayMapping.Template
