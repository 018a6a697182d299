import GatewayMapping.Gateway.Bindings
import GatewayMapping.Proofs.Method.Effects
import GatewayMapping.Proofs.Rendering.Changes

/-!
# Parameters are seen under all their names

A template sees the parameters of a message as the maps `$path`, `$query` and `$header`, and
through `$input` as well. The object behind `$input` holds references to the same three maps, and
it cannot be changed. So whatever a template does, to the variables or to the containers, the
parameters that this object gives are what the three maps hold at that time: the variables may be
bound to something else, but the maps are still there, since no change takes a container away.

## Main definitions

* `ReadsParameters`: an object gives the parameters out of three maps in a state.

## Main results

* `State.Reaches.maps_le`: the maps of a state are there in every state reached from it.
* `readsParameters_of_reaches`: in all states that are reached from the bindings of a message, the
  object that was bound to `$input` reads the maps that were bound with it.
-/

namespace GatewayMapping

open Heap (Extends)
open MethodResult (EndsIn)

/-! ### Containers stay -/

namespace Template

variable {hosts : Hosts} {bound : String → Prop} {st st' : State}

theorem State.Change.maps_le (hhosts : ∀ host ∈ hosts, host.OnlyExtends)
    (h : st.Change hosts bound st') : st.heap.maps.size ≤ st'.heap.maps.size := by
  cases h with
  | bind h v => exact Nat.le_refl _
  | unbind h => exact Nat.le_refl _
  | newList items => exact (Extends.newList _ items).maps_le
  | newMap members => exact (Extends.newMap _ members).maps_le
  | setMember ref key v => simp [Heap.setMembers]
  | call h => exact (Method.invoke_effect hhosts _ _ _ h).size_le.2

/-- No rendering takes a map away. -/
theorem State.Reaches.maps_le (hhosts : ∀ host ∈ hosts, host.OnlyExtends)
    (h : State.Reaches hosts bound st st') : st.heap.maps.size ≤ st'.heap.maps.size := by
  induction h with
  | refl => exact Nat.le_refl _
  | tail _ hc ih => exact Nat.le_trans ih (hc.maps_le hhosts)

end Template

namespace Gateway

/-! ### The objects of templates -/

theorem Tool.extends_ofJsonText (h : Heap) (s : String) : Extends h (ofJsonText h s).2 := by
  unfold ofJsonText
  split
  · exact .refl h
  · split
    · exact h.extends_ofJson _
    · exact h.extends_ofJson _
    · exact .refl h

theorem Tool.extends_run (h : Heap) (s : String) (tool : Tool) : Extends h (tool.run h s).2 := by
  cases tool with
  | parseJson => exact extends_ofJsonText h s
  | _ => exact .refl h

theorem Tool.onlyExtends_host : Tool.host.OnlyExtends := by
  intro h method args
  change EndsIn _ (Tool.invoke h method args)
  unfold Tool.invoke
  split
  · exact .ok (.refl h)
  · exact .ok (extends_run h _ _)
  · exact .error _

theorem Body.extends_valueOf (h : Heap) (j? : Option Json) : Extends h (Body.valueOf h j?).2 := by
  cases j? with
  | none => exact .refl h
  | some j => exact h.extends_ofJson j

theorem Input.onlyExtends_host (input : Input) : input.host.OnlyExtends := by
  intro h method args
  change EndsIn _ (input.invoke h method args)
  unfold Input.invoke
  split
  case h_3 => exact .ok (.newMap h _)
  case h_8 => exact .ok (Body.extends_valueOf h _)
  case h_10 => exact .error _
  all_goals exact .ok (.refl h)

theorem onlyExtends_hosts (input : Input) : ∀ host ∈ hosts input, host.OnlyExtends :=
  List.forall_mem_cons.mpr ⟨input.onlyExtends_host,
    List.forall_mem_singleton.mpr Tool.onlyExtends_host⟩

/-! ### Parameters -/

/-- The object gives the parameters out of three maps, each of which is there: a parameter of a
name is the value under the name in the first of the maps that has the name now, and all
parameters are a new map of these very maps. -/
structure ReadsParameters (hosts : Hosts) (object : Value) (path query header : MapRef)
    (st : Template.State) : Prop where
  exist : ∀ ref ∈ [path, query, header], ref.index < st.heap.maps.size
  one : ∀ name, Method.invoke hosts st.heap object "params" [.string name] =
    .ok (([path, query, header].findSome? fun ref => (st.heap.members ref).get? name).getD .null,
      st.heap)
  all : ∃ ref heap, Method.invoke hosts st.heap object "params" [] = .ok (.map ref, heap) ∧
    Extends st.heap heap ∧ (heap.members ref).get? "path" = some (.map path) ∧
    (heap.members ref).get? "querystring" = some (.map query) ∧
    (heap.members ref).get? "header" = some (.map header)

/-- The object of a message reads its own maps wherever they are. -/
theorem Input.readsParameters (input : Input) {st : Template.State}
    (h : ∀ ref ∈ [input.path, input.query, input.header], ref.index < st.heap.maps.size) :
    ReadsParameters (hosts input) (.object inputRef) input.path input.query input.header st where
  exist := h
  one name := by
    have hinvoke : Method.invoke (hosts input) st.heap (.object inputRef) "params" [.string name] =
        .ok (input.param st.heap name, st.heap) := rfl
    rw [hinvoke, Input.param, List.head?_filterMap]
  all := by
    have hmembers : (input.params st.heap).2.members ⟨st.heap.maps.size⟩ = _ :=
      Heap.members_newMap st.heap _
    refine ⟨⟨st.heap.maps.size⟩, (input.params st.heap).2, rfl, .newMap _ _, ?_⟩
    rw [hmembers]
    exact ⟨rfl, rfl, rfl⟩

/-! ### Bindings -/

section

variable (message : Http.Message) (context : Context) (mode : Mode)

/-- The heap with the maps of the parameters only. -/
def parameterHeap : Heap :=
  let (_, h) := Bindings.newTexts .empty (Bindings.visible mode message.headers)
  let (_, h) := Bindings.newTexts h (Bindings.visible mode message.pathParams)
  (Bindings.newTexts h (Bindings.visible mode message.query)).2

theorem extends_parameterHeap : Extends (parameterHeap message mode)
    (Bindings.ofMessage message context mode).state.heap := by
  let seen := Bindings.contextOf message context mode
  let parsed := (Tool.ofJsonText (parameterHeap message mode) message.body).2
  have hbody : Extends (parameterHeap message mode) parsed := Tool.extends_ofJsonText _ _
  have hcontext := parsed.extends_ofJson seen.contextJson
  exact (hbody.trans hcontext).trans (Heap.extends_ofJson _ seen.stageVariablesJson)

/-- What is bound to the variables of the parameters: the first maps of the heap. -/
structure BindsParameters (b : Bindings) : Prop where
  input : b.state.scope.get? "input" = some (.object inputRef)
  path : b.state.scope.get? "path" = some (.map b.input.path) ∧ b.input.path = ⟨1⟩
  query : b.state.scope.get? "query" = some (.map b.input.query) ∧ b.input.query = ⟨2⟩
  header : b.state.scope.get? "header" = some (.map b.input.header) ∧ b.input.header = ⟨0⟩
  size : 3 ≤ b.state.heap.maps.size

theorem bindsParameters_ofMessage : BindsParameters (Bindings.ofMessage message context mode) where
  input := rfl
  path := ⟨rfl, rfl⟩
  query := ⟨rfl, rfl⟩
  header := ⟨rfl, rfl⟩
  size := by
    refine Nat.le_trans ?_ (extends_parameterHeap message context mode).maps_le
    simp [parameterHeap, Bindings.newTexts, Heap.newMap, Heap.empty]

end

/-- **The parameters stay in sync.** Whatever templates have done to the variables and to the
containers since the bindings of a message were made, the object that was bound to `$input` gives
the parameters out of the three maps that were bound to `$path`, `$query` and `$header`, as they
are now. The states that are reached are closed under rendering any template, whether it succeeds
or fails. -/
theorem readsParameters_of_reaches (message : Http.Message) (context : Context) (mode : Mode) :
    let b := Bindings.ofMessage message context mode
    ∃ object path query header, b.state.scope.get? "input" = some object ∧
      b.state.scope.get? "path" = some (.map path) ∧
      b.state.scope.get? "query" = some (.map query) ∧
      b.state.scope.get? "header" = some (.map header) ∧ [path, query, header].Nodup ∧
      (∀ config template source st,
        Template.State.Reaches (hosts b.input) (fun _ => True) b.state st →
          Template.State.Reaches (hosts b.input) (fun _ => True) b.state
            ((Template.evaluate config (hosts b.input) template source).run.run st).2) ∧
      ∀ st, Template.State.Reaches (hosts b.input) (fun _ => True) b.state st →
        ReadsParameters (hosts b.input) object path query header st := by
  intro b
  have hb : BindsParameters b := bindsParameters_ofMessage message context mode
  have hmaps : [b.input.path, b.input.query, b.input.header] = [⟨1⟩, ⟨2⟩, ⟨0⟩] := by
    rw [hb.path.2, hb.query.2, hb.header.2]
  refine ⟨_, _, _, _, hb.input, hb.path.1, hb.query.1, hb.header.1, by rw [hmaps]; decide, ?_, ?_⟩
  · intro config template source st h
    exact h.trans ((Template.reaches_evaluate config _ template source st).mono fun _ _ => trivial)
  · intro st h
    have hsize := Nat.le_trans hb.size (h.maps_le (onlyExtends_hosts b.input))
    refine b.input.readsParameters ?_
    rw [hmaps]
    simp only [List.forall_mem_cons]
    exact ⟨by omega, by omega, by omega, List.forall_mem_nil _⟩

/-- A template that takes a parameter of the path away, binds `$query` to a number and gives the
headers a new one: the next parameter of the name comes from the query. -/
theorem readsParameters_of_reaches_rebound :
    let message : Http.Message :=
      { method := some "GET", path := "/", query := .ofList [("id", "q")],
        headers := .ofList [("id", "h")], pathParams := .ofList [("id", "p")], body := "" }
    let b := Bindings.ofMessage message .empty .request
    let st := ((Template.evaluate {} (hosts b.input) "t"
      "$path.remove('id')#set($query = 1)$header.put('k', 'new')").run.run b.state).2
    Template.State.Reaches (hosts b.input) (fun _ => True) b.state st ∧
      st.scope.get? "query" = some (.int 1) ∧ ∃ object,
        b.state.scope.get? "input" = some object ∧
        Method.invoke (hosts b.input) st.heap object "params" [.string "id"] =
          .ok (.string "q", st.heap) ∧
        Method.invoke (hosts b.input) st.heap object "params" [.string "k"] =
          .ok (.string "new", st.heap) := by
  intro message b st
  obtain ⟨object, path, query, header, hinput, hpath, hquery, hheader, -, hclosed, hreads⟩ :=
    readsParameters_of_reaches message .empty .request
  have hst : Template.State.Reaches (hosts b.input) (fun _ => True) b.state st :=
    hclosed {} "t" _ b.state .refl
  have hparams := hreads st hst
  obtain rfl : MapRef.mk 1 = path := Value.map.inj (Option.some.inj hpath)
  obtain rfl : MapRef.mk 2 = query := Value.map.inj (Option.some.inj hquery)
  obtain rfl : MapRef.mk 0 = header := Value.map.inj (Option.some.inj hheader)
  have hid : ([⟨1⟩, ⟨2⟩, ⟨0⟩].findSome? fun ref => (st.heap.members ref).get? "id") =
      some (.string "q") := by decide +kernel
  have hk : ([⟨1⟩, ⟨2⟩, ⟨0⟩].findSome? fun ref => (st.heap.members ref).get? "k") =
      some (.string "new") := by decide +kernel
  have hone := hparams.one "id"
  have hother := hparams.one "k"
  rw [hid] at hone
  rw [hk] at hother
  exact ⟨hst, by decide +kernel, object, hinput, hone, hother⟩

end Gateway
end GatewayMapping
