import Mathlib
import GatewayMapping.Gateway.Simulator
import GatewayMapping.Proofs.Reading.Integers
import GatewayMapping.Proofs.Rendering.Failures
import GatewayMapping.Proofs.Text.Occurrences
import GatewayMapping.Proofs.Text.Pieces

/-!
# The kinds of diagnostics

An invocation that fails is an error of references if its text or its cause has the words that mark
one. A variable that is unbound gives a text that has them. Where a path cannot be followed, they
are there only if a text has them that the error quotes: the name of the template, the path walked
so far, the name of a type or a pattern (`Diagnostic.speaks_path_iff`). What the error says itself
separates these texts, and the names of members have no blanks.

## Main definitions

* `Diagnostic.Speaks`: a text has the words that mark an error of references.
* `Template.PathFault.quoted`, `MethodFault.quoted`: the texts that come from the data.

## Main results

* `Diagnostic.ofReport_of_invocation`: the diagnostic of an invocation that fails.
-/

namespace GatewayMapping

/-- The texts from the data that the wording of a fault quotes. -/
def MethodFault.quoted : MethodFault → List String
  | .pattern text => [text]
  | _ => []

/-- The texts from the data that the wordings of a fault and of its cause quote. -/
def Template.PathFault.quoted : Template.PathFault → List String
  | .onNull path _ => [path]
  | .noMember path _ typeName => [path, typeName]
  | .failed path _ typeName fault => path :: typeName :: fault.quoted

namespace Gateway.Diagnostic

open Template (PathFault RenderError RenderFault Report IsWord Member)

/-! ### Texts that speak of an undefined reference -/

/-- The text has the words that mark an error of references. -/
def Speaks (cs : List Char) : Prop := undefinedWords.toList <:+: cs

theorem speaksOfUndefined_iff {s : String} : speaksOfUndefined s = true ↔ Speaks s.toList :=
  Text.occursIn_iff

/-- What the wordings of errors and of their causes say between the texts from the data. -/
def fixedTexts : List String :=
  [" at ", "[line ", ", column ", "]", " (property)", "()", "begin ", ", end ", ", length ",
    "index ", "Index ", " out of bounds for length ", "fromIndex ", ", toIndex ", ", size ",
    "invalid regular expression '", "'", ".", "Object '", "' does not contain property '",
    "' does not contain method ", "Attempted to access '", "' on a null value", ": ", " is null",
    ": no matching member on ", "Invocation of method '", "' on ", " threw exception"]

theorem separates_fixedTexts :
    ∀ s ∈ fixedTexts, Text.Separates undefinedWords.toList s.toList := by
  decide +kernel

variable {xs ys : List Char}

/-- A fixed text joins texts without giving rise to the words. -/
theorem speaks_join_iff (s : String) (h : s ∈ fixedTexts) :
    Speaks (xs ++ (s.toList ++ ys)) ↔ Speaks xs ∨ Speaks ys :=
  Text.infix_join_iff (separates_fixedTexts s h)

/-- A text without one of the letters does not have the words. -/
theorem not_speaks {c : Char} (hc : c ∈ undefinedWords.toList) (h : c ∉ xs) : ¬Speaks xs :=
  fun hspeaks => h (hspeaks.subset hc)

theorem not_speaks_nil : ¬Speaks [] := not_speaks (c := ' ') (by decide) List.not_mem_nil

theorem speaks_lead_iff (s : String) (h : s ∈ fixedTexts) :
    Speaks (s.toList ++ ys) ↔ Speaks ys := by
  have hjoin : Speaks ([] ++ (s.toList ++ ys)) ↔ _ := speaks_join_iff s h
  rwa [List.nil_append, or_iff_right not_speaks_nil] at hjoin

theorem speaks_trail_iff (s : String) (h : s ∈ fixedTexts) :
    Speaks (xs ++ s.toList) ↔ Speaks xs := by
  have hjoin : Speaks (xs ++ (s.toList ++ [])) ↔ _ := speaks_join_iff s h
  rwa [List.append_nil, or_iff_left not_speaks_nil] at hjoin

theorem not_speaks_word {s : String} (h : IsWord s) : ¬Speaks s.toList :=
  not_speaks (c := ' ') (by decide) fun hblank => absurd (h ' ' hblank) (by decide)

theorem not_speaks_int (n : Int) : ¬Speaks (toString n).toList := by
  refine not_speaks (c := 'r') (by decide) fun hr => ?_
  rcases isDigit_or_minus_of_mem_toString hr with h | h <;> exact absurd h (by decide)

theorem not_speaks_nat (n : Nat) : ¬Speaks (toString n).toList := not_speaks_int n

/-- The place of an error does not have the words. -/
theorem speaks_text_iff (r : Report) :
    Speaks r.text.toList ↔ Speaks r.message.toList ∨ Speaks r.template.toList := by
  simp only [Report.text, String.toList_append, List.append_assoc]
  rw [speaks_join_iff " at " (by simp [fixedTexts]),
    speaks_join_iff "[line " (by simp [fixedTexts]),
    speaks_join_iff ", column " (by simp [fixedTexts]),
    speaks_trail_iff "]" (by simp [fixedTexts]), or_iff_left (not_speaks_nat _),
    or_iff_left (not_speaks_nat _)]

/-! ### The wordings of faults -/

theorem not_speaks_label {member : Member} (h : IsWord member.name) :
    ¬Speaks member.label.toList := by
  cases member with
  | property name =>
    rw [Member.label, String.toList_append, speaks_trail_iff " (property)" (by simp [fixedTexts])]
    exact not_speaks_word h
  | method name =>
    rw [Member.label, String.toList_append, speaks_trail_iff "()" (by simp [fixedTexts])]
    exact not_speaks_word h
  | index => exact not_speaks (c := ' ') (by decide) (by decide)

/-- Of the faults of methods only those of patterns quote a text. -/
theorem speaks_methodFault_iff (fault : MethodFault) :
    Speaks fault.message.toList ↔ ∃ text ∈ fault.quoted, Speaks text.toList := by
  have hint (n : Int) := iff_false_intro (not_speaks_int n)
  unfold MethodFault.message
  cases fault with
  | substring first last length =>
    simp only [MethodFault.quoted, String.toList_append, List.append_assoc]
    rw [speaks_lead_iff "begin " (by simp [fixedTexts]),
      speaks_join_iff ", end " (by simp [fixedTexts]),
      speaks_join_iff ", length " (by simp [fixedTexts]), hint, hint, hint]
    simp
  | character index length =>
    simp only [MethodFault.quoted, String.toList_append, List.append_assoc]
    rw [speaks_lead_iff "index " (by simp [fixedTexts]),
      speaks_join_iff ", length " (by simp [fixedTexts]), hint, hint]
    simp
  | item index length =>
    simp only [MethodFault.quoted, String.toList_append, List.append_assoc]
    rw [speaks_lead_iff "Index " (by simp [fixedTexts]),
      speaks_join_iff " out of bounds for length " (by simp [fixedTexts]), hint, hint]
    simp
  | subList first last length =>
    simp only [MethodFault.quoted, String.toList_append, List.append_assoc]
    rw [speaks_lead_iff "fromIndex " (by simp [fixedTexts]),
      speaks_join_iff ", toIndex " (by simp [fixedTexts]),
      speaks_join_iff ", size " (by simp [fixedTexts]), hint, hint, hint]
    simp
  | pattern text =>
    have hend : ¬Speaks ": regex parse error".toList :=
      not_speaks (c := 'f') (by decide) (by decide)
    have hquote : "': regex parse error" = "'" ++ ": regex parse error" := rfl
    simp only [hquote, MethodFault.quoted, String.toList_append, List.append_assoc]
    rw [speaks_lead_iff "invalid regular expression '" (by simp [fixedTexts]),
      speaks_join_iff "'" (by simp [fixedTexts]), or_iff_left hend]
    simp

/-- The cause of a fault begins with the path and the member that it does not lead to. -/
theorem speaks_cause_iff {path : String} {member : Member} (h : IsWord member.name)
    (s : String) (hs : s ∈ fixedTexts) :
    Speaks (path.toList ++ (".".toList ++ (member.label.toList ++ (s.toList ++ xs)))) ↔
      Speaks path.toList ∨ Speaks xs := by
  rw [speaks_join_iff "." (by simp [fixedTexts]), speaks_join_iff s hs,
    or_iff_right (not_speaks_label h)]

theorem speaks_noMember_iff {path typeName : String} {member : Member} (h : IsWord member.name) :
    Speaks (PathFault.noMember path member typeName).message.toList ↔ Speaks typeName.toList := by
  unfold PathFault.message
  cases member with
  | property name =>
    simp only [String.toList_append, List.append_assoc]
    rw [speaks_lead_iff "Object '" (by simp [fixedTexts]),
      speaks_join_iff "' does not contain property '" (by simp [fixedTexts]),
      speaks_trail_iff "'" (by simp [fixedTexts])]
    exact or_iff_left (not_speaks_word h)
  | _ =>
    simp only [String.toList_append, List.append_assoc]
    rw [speaks_lead_iff "Object '" (by simp [fixedTexts]),
      speaks_join_iff "' does not contain method " (by simp [fixedTexts])]
    exact or_iff_left (not_speaks_label h)

/-- The words are in the wording of a fault or in the one of its cause only if a text has them that
these quote. -/
theorem speaks_path_iff {fault : PathFault} (h : IsWord fault.member.name) :
    Speaks fault.message.toList ∨ Speaks fault.causeText.toList ↔
      ∃ text ∈ fault.quoted, Speaks text.toList := by
  cases fault with
  | onNull path member =>
    change IsWord member.name at h
    unfold PathFault.message PathFault.causeText
    simp only [PathFault.quoted, String.toList_append, List.append_assoc]
    rw [speaks_lead_iff "Attempted to access '" (by simp [fixedTexts]),
      speaks_trail_iff "' on a null value" (by simp [fixedTexts]), or_iff_right (not_speaks_word h),
      speaks_cause_iff h ": " (by simp [fixedTexts]),
      speaks_trail_iff " is null" (by simp [fixedTexts])]
    simp
  | noMember path member typeName =>
    change IsWord member.name at h
    rw [speaks_noMember_iff h]
    unfold PathFault.causeText
    simp only [PathFault.quoted, String.toList_append, List.append_assoc]
    rw [speaks_cause_iff h ": no matching member on " (by simp [fixedTexts])]
    simp [or_left_comm]
  | failed path member typeName fault =>
    change IsWord member.name at h
    unfold PathFault.message PathFault.causeText
    simp only [PathFault.quoted, String.toList_append, List.append_assoc]
    rw [speaks_lead_iff "Invocation of method '" (by simp [fixedTexts]),
      speaks_join_iff "' on " (by simp [fixedTexts]),
      speaks_trail_iff " threw exception" (by simp [fixedTexts]), or_iff_right (not_speaks_word h),
      speaks_cause_iff h ": " (by simp [fixedTexts]), speaks_methodFault_iff]
    simp [or_left_comm]

/-! ### Diagnostics of invocations -/

theorem not_blank_of_isNameChar {c : Char} (h : Template.isNameChar c = true) :
    Text.isBlank c = false := by
  have hrange : 48 ≤ c.toNat ∧ c.toNat ≤ 122 := by
    simp only [Template.isNameChar, Char.isAlphanum, Char.isAlpha, Char.isUpper, Char.isLower,
      Char.isDigit, Bool.or_eq_true, Bool.and_eq_true, decide_eq_true_eq, UInt32.le_iff_toNat_le,
      ge_iff_le] at h
    rcases h with ((⟨h₁, h₂⟩ | ⟨h₁, h₂⟩) | ⟨h₁, h₂⟩) | rfl
    · exact ⟨Nat.le_trans (by decide) h₁, Nat.le_trans h₂ (by decide)⟩
    · exact ⟨Nat.le_trans (by decide) h₁, Nat.le_trans h₂ (by decide)⟩
    · exact ⟨Nat.le_trans (by decide) h₁, Nat.le_trans h₂ (by decide)⟩
    · decide
  simp only [Text.isBlank, Text.blankRanges, List.any_cons, List.any_nil, Bool.or_eq_false_iff,
    Bool.and_eq_false_iff, decide_eq_false_iff_not, and_true]
  omega

/-- A name is found after the first `$` of a text, up to a character that it does not have. -/
theorem nameUpTo?_eq_some {last : Char} {s : String} {front name rest : List Char}
    (hs : s.toList = front ++ '$' :: (name ++ last :: rest)) (hfront : '$' ∉ front)
    (hlast : last ∉ '$' :: name) (hblank : ∀ c ∈ name, Text.isBlank c = false) :
    nameUpTo? last s = some (String.ofList ('$' :: name)) := by
  have hdrop : s.toList.dropWhile (· ≠ '$') = ('$' :: name) ++ last :: rest := by
    have hne (c : Char) (hc : c ∈ front) : decide (c ≠ '$') = true :=
      decide_eq_true (ne_of_mem_of_not_mem hc hfront)
    rw [hs, List.dropWhile_append_of_pos hne, List.dropWhile_cons_of_neg (by simp)]
    rfl
  have htake : (('$' :: name) ++ last :: rest).takeWhile (· ≠ last) = '$' :: name := by
    have hne (c : Char) (hc : c ∈ '$' :: name) : decide (c ≠ last) = true :=
      decide_eq_true (ne_of_mem_of_not_mem hc hlast)
    rw [List.takeWhile_append_of_pos hne, List.takeWhile_cons_of_neg (by simp), List.append_nil]
  have htrim : Text.trimWhere Text.isBlank ('$' :: name) = '$' :: name :=
    Text.trimWhere_eq_self_of_forall (List.forall_mem_cons.mpr ⟨by decide, hblank⟩)
  rw [nameUpTo?, hdrop]
  dsimp only [List.cons_append]
  rw [← List.cons_append, htake, htrim]

section

variable {r : Report} {reference : String} {cause : Option String}

/-- Whatever it is about, an invocation that fails is shown with its line. -/
theorem line_of_invocation (h : r.kind = .invocation reference cause) (mode : Mode) :
    (ofReport r mode).line = some r.position.line := by
  rw [ofReport, h]
  dsimp only
  split <;> rfl

/-- The kind of an invocation that fails is found from its text and its cause. -/
theorem kind_of_invocation (h : r.kind = .invocation reference cause) (mode : Mode) :
    (ofReport r mode).kind = if speaksOfUndefined r.text || cause.any speaksOfUndefined
      then .referenceError else .methodError := by
  rw [ofReport, h]
  dsimp only
  split <;> rfl

theorem context_of_invocation (h : r.kind = .invocation reference cause)
    (hspeaks : speaksOfUndefined r.text = true) (mode : Mode) :
    (ofReport r mode).context = variableContext (about mode "Reference error" r) := by
  rw [ofReport, h]
  dsimp only
  rw [hspeaks]
  rfl

end

/-- The first `$` of the message about an unbound variable is the one before its name. -/
theorem variableContext_of_undefined {r : Report} {name : String} (hname : IsWord name)
    (h : r.message = "Variable $" ++ name ++ " reference is not defined") (mode : Mode) :
    variableContext (about mode "Reference error" r) = some ("Variable: $" ++ name) := by
  have hfront : '$' ∉ ("Reference error in " ++ mode.name ++ " template: Variable ").toList := by
    cases mode <;> decide
  have htext : (about mode "Reference error" r).toList =
      ("Reference error in " ++ mode.name ++ " template: Variable ").toList ++ '$' ::
        (name.toList ++ ' ' :: ("reference is not defined at ".toList ++ (r.template.toList ++
          ("[line " ++ toString r.position.line ++ ", column " ++ toString r.position.column ++
            "]").toList))) := by
    simp [about, Report.text, h, String.toList_append]
  have hlast : ' ' ∉ '$' :: name.toList := fun hmem =>
    (List.mem_cons.mp hmem).elim (by decide) fun hblank => absurd (hname ' ' hblank) (by decide)
  rw [variableContext, nameUpTo?_eq_some htext hfront hlast fun c hc =>
    not_blank_of_isNameChar (hname c hc), Option.map_some]
  refine congrArg some (String.toList_inj.mp ?_)
  simp

/-- An unbound variable is told of by its name. -/
theorem ofReport_of_undefined {e : RenderError} {name reference : String}
    (h : e.fault = .undefined name reference) (hname : IsWord name) (mode : Mode) :
    (ofReport e.report mode).kind = .referenceError ∧
      (ofReport e.report mode).context = some ("Variable: $" ++ name) := by
  have hkind : e.report.kind = .invocation reference none := congrArg RenderFault.kind h
  have hmessage : e.report.message = "Variable $" ++ name ++ " reference is not defined" :=
    congrArg RenderFault.message h
  have hwords : e.report.message.toList =
      ("Variable $" ++ name ++ " ").toList ++ undefinedWords.toList := by
    rw [hmessage]
    simp [undefinedWords, String.toList_append]
  have hspeaks : speaksOfUndefined e.report.text = true := by
    rw [speaksOfUndefined_iff, speaks_text_iff, hwords]
    exact .inl (List.suffix_append _ _).isInfix
  refine ⟨?_, ?_⟩
  · rw [kind_of_invocation hkind, hspeaks]
    rfl
  · rw [context_of_invocation hkind hspeaks]
    exact variableContext_of_undefined hname hmessage mode

/-- A path that cannot be followed is told of by the texts that are quoted. -/
theorem kind_of_path {e : RenderError} {fault : PathFault} {reference : String}
    (h : e.fault = .path fault reference) (hword : IsWord fault.member.name) (mode : Mode) :
    (ofReport e.report mode).kind =
      if speaksOfUndefined e.template || fault.quoted.any speaksOfUndefined then .referenceError
      else .methodError := by
  have hkind : e.report.kind = .invocation reference (some fault.causeText) :=
    congrArg RenderFault.kind h
  have hmessage : e.report.message = fault.message := congrArg RenderFault.message h
  have htemplate : e.report.template = e.template := rfl
  have hspeaks : (speaksOfUndefined e.report.text || speaksOfUndefined fault.causeText) =
      (speaksOfUndefined e.template || fault.quoted.any speaksOfUndefined) := by
    rw [Bool.eq_iff_iff, Bool.or_eq_true, Bool.or_eq_true, List.any_eq_true]
    simp only [speaksOfUndefined_iff]
    rw [speaks_text_iff, hmessage, htemplate, or_right_comm, speaks_path_iff hword, or_comm]
  rw [kind_of_invocation hkind, Option.any_some, hspeaks]

/-- **The diagnostic of an invocation that fails.** With strict references it has the line of a
reference of the template that failed. If the variable of this reference is unbound, it is an error
of references that shows the variable. Otherwise a path from the variable could not be followed, and
it is an error of methods, unless the name of the template or a text that is quoted has the words
that mark an error of references. -/
theorem ofReport_of_invocation {config : Template.Config} (hstrict : config.strict = true)
    (hosts : Hosts) (mode : Mode) (source : String) {st st' : Template.State} {e : RenderError}
    (h : (Template.evaluate config hosts mode.templateName source).run.run st = (.error e, st'))
    {reference : String} {cause : Option String}
    (hkind : e.report.kind = .invocation reference cause) :
    ∃ r, config.HasReference mode.templateName source e.template r ∧
      e.position = r.position ∧ reference = r.literal ∧
      (ofReport e.report mode).line = some r.position.line ∧
      ((st'.scope.get? r.name = none ∧ (ofReport e.report mode).kind = .referenceError ∧
          (ofReport e.report mode).context = some ("Variable: $" ++ r.name)) ∨
        ∃ fault, e.fault = .path fault r.literal ∧ st'.Holds r.name ∧
          (ofReport e.report mode).kind =
            if speaksOfUndefined e.template || fault.quoted.any speaksOfUndefined
            then .referenceError else .methodError) := by
  have hline {position : Template.Position} (hplace : e.position = position) :
      (ofReport e.report mode).line = some position.line :=
    hplace ▸ line_of_invocation hkind mode
  have hliteral {literal : String} {cause' : Option String}
      (hfault : e.fault.kind = .invocation literal cause') : reference = literal :=
    (Report.Kind.invocation.inj (hkind.symm.trans hfault)).1
  cases Template.evaluate_explained hstrict hosts mode.templateName source h with
  | other hother => exact absurd hkind (hother reference cause)
  | undefined r href hplace hfault hscope =>
    exact ⟨r, href, hplace, hliteral (congrArg RenderFault.kind hfault), hline hplace,
      .inl ⟨hscope, ofReport_of_undefined hfault href.words.name mode⟩⟩
  | path r fault href hplace hfault hword hscope =>
    exact ⟨r, href, hplace, hliteral (congrArg RenderFault.kind hfault), hline hplace,
      .inr ⟨fault, hfault, hscope, kind_of_path hfault hword mode⟩⟩

/-- A variable that a template has not bound is told of where it stands. -/
theorem ofReport_of_invocation_unbound :
    let source := "a\n#if(true)$b.c#end"
    let e : RenderError := ⟨"requestTemplate", ⟨2, 10⟩, .undefined "b" "$b.c"⟩
    ({} : Template.Config).strict = true ∧
      (Template.evaluate {} [] Mode.request.templateName source).run.run default =
        (.error e, default) ∧
      e.report.kind = .invocation "$b.c" none ∧
      ∃ r, Template.Config.HasReference {} Mode.request.templateName source e.template r ∧
        e.position = r.position ∧ "$b.c" = r.literal ∧
        (ofReport e.report .request).line = some r.position.line ∧
        (((default : Template.State).scope.get? r.name = none ∧
            (ofReport e.report .request).kind = .referenceError ∧
            (ofReport e.report .request).context = some ("Variable: $" ++ r.name)) ∨
          ∃ fault, e.fault = .path fault r.literal ∧ (default : Template.State).Holds r.name ∧
            (ofReport e.report .request).kind =
              if speaksOfUndefined e.template || fault.quoted.any speaksOfUndefined
              then .referenceError else .methodError) := by
  intro source e
  have hrun : (Template.evaluate {} [] Mode.request.templateName source).run.run default =
      (.error e, default) := by
    cbv
  exact ⟨rfl, hrun, rfl, ofReport_of_invocation rfl [] .request source hrun rfl⟩

/-- A key with the words makes an error of references of a path from a variable that is bound. -/
theorem exists_referenceError_of_bound :
    ∃ source ns e st', Template.parse source = .ok ns ∧
      (∀ r ∈ Template.nodesReferences ns, r.name = "m") ∧
      (Template.evaluate {} [] Mode.request.templateName source).run.run default =
        (.error e, st') ∧
      (∃ reference cause, e.report.kind = .invocation reference cause) ∧
      (st'.scope.get? "m").isSome ∧ (ofReport e.report .request).kind = .referenceError := by
  let literal := "$m[\"reference is not defined\"].x"
  let r : Template.Reference :=
    .mk "m" [.index (.string "reference is not defined"), .property "x"] false literal ⟨1, 14⟩
  let path := "$m[reference is not defined]"
  refine ⟨"#set($m = \x7b\x7d)$m[\"reference is not defined\"].x",
    [.assign (.mk "m" [] false "$m" ⟨1, 6⟩) (.map []) ⟨1, 1⟩, .reference r],
    ⟨"requestTemplate", ⟨1, 14⟩, .path (.onNull path (.property "x")) literal⟩,
    ⟨⟨#[], #[.empty]⟩, .ofList [("m", .map ⟨0⟩)]⟩, by cbv, ?_, by cbv, ⟨_, _, rfl⟩, by cbv,
    by decide +kernel⟩
  simp [r, Template.Node.references, Template.Reference.references, Template.Expr.references,
    Template.entriesReferences, Template.nodesReferences, Template.segmentsReferences,
    Template.Segment.references, Template.Reference.name]

end Gateway.Diagnostic
end GatewayMapping
