import GatewayMapping.Template.Render

/-!
# Refinement of renderings

A rendering *succeeds* from a state when it ends with a value in a state, and it *refines to*
another one when that one succeeds with the same value and state wherever the first does
(`Render.Refines`). A failure refines to anything, so a check that can only fail may be dropped.

Refinement is closed under sequencing (`Render.Refines.bind`).

## Main definitions

* `Render.Succeeds`, `Render.Refines`.
-/

namespace GatewayMapping.Template.Render

variable {α β : Type}

/-! ### Success -/

/-- From the state `st` the computation ends with the value `a` in the state `st'`. -/
def Succeeds (x : Render α) (st : State) (a : α) (st' : State) : Prop :=
  x.run.run st = (.ok a, st')

theorem eq_ok_of_toOption {ε : Type} {x : Except ε α} {a : α} (h : x.toOption = some a) :
    x = .ok a := by
  cases x with
  | error e => cases h
  | ok b => rw [Option.some.inj h]

theorem succeeds_of_toOption {x : Render α} {st : State} {a : α}
    (h : (x.run.run st).1.toOption = some a) : Succeeds x st a (x.run.run st).2 :=
  Prod.ext (eq_ok_of_toOption h) rfl

/-- A sequence ends where its first part does, or else where the second one does. -/
theorem run_bind (x : Render α) (f : α → Render β) (st : State) :
    (x >>= f).run.run st = match x.run.run st with
      | (.ok a, st') => (f a).run.run st'
      | (.error e, st') => (.error e, st') := by
  change (ExceptT.bindCont f (x st).1) (x st).2 = _
  rcases hx : x st with ⟨_ | a, st'⟩
  · simp only [ExceptT.run, StateT.run, hx]
    rfl
  · simp only [ExceptT.run, StateT.run, hx]
    rfl

/-- A sequence succeeds when both of its parts do. -/
theorem succeeds_bind_iff {x : Render α} {f : α → Render β} {st st'' : State} {b : β} :
    Succeeds (x >>= f) st b st'' ↔
      ∃ a st', Succeeds x st a st' ∧ Succeeds (f a) st' b st'' := by
  constructor
  · intro h
    rw [Succeeds, run_bind] at h
    rcases hx : x.run.run st with ⟨e | a, st'⟩
    · rw [hx] at h
      cases h
    · rw [hx] at h
      exact ⟨a, st', hx, h⟩
  · rintro ⟨a, st', hx, hf⟩
    rw [Succeeds] at hx
    rw [Succeeds, run_bind, hx]
    exact hf

theorem not_succeeds_fail (scene : Scene) (position : Position) (fault : RenderFault)
    (st : State) (a : α) (st' : State) : ¬Succeeds (fail scene position fault) st a st' := by
  intro h
  cases h

theorem not_succeeds_throw (e : RenderError) (st : State) (a : α) (st' : State) :
    ¬Succeeds (throw e) st a st' := by
  intro h
  cases h

/-- A resource that is found is one of the configuration. -/
theorem get?_of_resource_succeeds {s : Scene} {position : Position} {e : Expr} {v : Value}
    {st st' : State} {p : String × String} (h : Succeeds (resource s position e v) st p st') :
    s.config.resources.get? p.1 = some p.2 := by
  obtain ⟨name, _, -, h⟩ := succeeds_bind_iff.mp h
  cases hname : s.config.resources.get? name with
  | none =>
    rw [hname] at h
    exact absurd h (not_succeeds_fail _ _ _ _ _ _)
  | some source =>
    rw [hname] at h
    cases h
    exact hname

section

variable {scene : Scene} {r : Reference} {st : State} {v : Value}

/-- A variable that is bound has its value. -/
theorem succeeds_root (h : st.scope.get? r.name = some v) : Succeeds (root scene r) st v st := by
  have hlookup : Succeeds (lookup? r.name) st (some v) st := by
    rw [← h]
    rfl
  exact succeeds_bind_iff.mpr ⟨_, _, hlookup, rfl⟩

/-- A method call that has a value leaves its heap. -/
theorem succeeds_settle {call : Heap → MethodResult} {h : Heap} (hcall : call st.heap = .ok (v, h))
    (path : String) (member : Member) (typeName : String) :
    Succeeds (settle scene r path member typeName call) st v { st with heap := h } := by
  have hheap : Succeeds (ofHeap id) st st.heap st := rfl
  refine succeeds_bind_iff.mpr ⟨_, _, hheap, ?_⟩
  rw [hcall]
  rfl

variable {name : String} {quiet : Bool} {literal : String} {position : Position}

/-- A variable has its value as an expression, too. -/
theorem succeeds_variable (h : st.scope.get? name = some v) :
    Succeeds (expr scene (.reference (.mk name [] quiet literal position))) st v st :=
  succeeds_bind_iff.mpr ⟨_, _, succeeds_root h, rfl⟩

/-- A reference of one step has the value that the step leads to. -/
theorem succeeds_reference {s : Segment} {path : String} {v' : Value} {st' : State}
    (hname : st.scope.get? name = some v)
    (hstep : Succeeds (step scene (.mk name [s] quiet literal position) s v ("$" ++ name)) st
      (v', path) st') :
    Succeeds (reference scene (.mk name [s] quiet literal position)) st v' st' :=
  succeeds_bind_iff.mpr ⟨_, _, succeeds_root hname,
    succeeds_bind_iff.mpr ⟨_, _, succeeds_bind_iff.mpr ⟨_, _, hstep, rfl⟩, rfl⟩⟩

/-- A method is called with the values of its arguments. -/
theorem succeeds_step_method (path : String) {method : String} {args : List Expr}
    {vs : List Value} {v' : Value} {st' : State} {h : Heap} (hnull : v.isNull = false)
    (hargs : Succeeds (exprs scene args) st vs st')
    (hcall : Method.invoke scene.hosts st'.heap v method vs = .ok (v', h)) :
    Succeeds (step scene r (.method method args) v path) st (v', path ++ "." ++ method)
      { st' with heap := h } := by
  rw [step, hnull, if_neg Bool.false_ne_true]
  exact succeeds_bind_iff.mpr ⟨_, _, hargs,
    succeeds_bind_iff.mpr ⟨_, _, succeeds_settle hcall _ _ _, rfl⟩⟩

end

/-! ### Refinement -/

/-- Wherever `x` succeeds, `y` succeeds with the same value and state. -/
def Refines (x y : Render α) : Prop :=
  ∀ st a st', Succeeds x st a st' → Succeeds y st a st'

namespace Refines

theorem refl (x : Render α) : Refines x x := fun _ _ _ h => h

theorem bind {x y : Render α} {f g : α → Render β} (hxy : Refines x y)
    (hfg : ∀ a, Refines (f a) (g a)) : Refines (x >>= f) (y >>= g) := by
  intro st b st'' h
  obtain ⟨a, st', hx, hf⟩ := succeeds_bind_iff.mp h
  exact succeeds_bind_iff.mpr ⟨a, st', hxy st a st' hx, hfg a st' b st'' hf⟩

/-- Computations that go on in the same way. -/
theorem bind_right {x y : Render α} (hxy : Refines x y) (f : α → Render β) :
    Refines (x >>= f) (y >>= f) :=
  hxy.bind fun a => refl (f a)

/-- Computations that begin in the same way. -/
theorem bind_left (x : Render α) {f g : α → Render β} (hfg : ∀ a, Refines (f a) (g a)) :
    Refines (x >>= f) (x >>= g) :=
  (refl x).bind hfg

theorem fail (scene : Scene) (position : Position) (fault : RenderFault) (y : Render α) :
    Refines (Render.fail scene position fault) y :=
  fun st a st' h => absurd h (not_succeeds_fail scene position fault st a st')

end Refines

end GatewayMapping.Template.Render
