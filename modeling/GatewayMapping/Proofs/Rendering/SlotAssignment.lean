import GatewayMapping.Proofs.Method.Slots
import GatewayMapping.Proofs.Printing.SingleNodes
import GatewayMapping.Proofs.Rendering.Quoting

/-!
# Assigning to slots of containers

A template puts the value of a variable into a slot of a container with an assignment, whose target
ends with a property or an index, or with the method `put` of maps or `set` of lists. It finds what
is in a slot as a property, at an index or with the method `get`. A property has to be a name,
whereas a key in single quotes may be any text without them.

All ways to put a value into a slot leave the same state, and all ways to refer to the slot then
find the value (`assignment_eq_method`). The container may be known by several variables, and the
value may refer to the container itself.

## Main definitions

* `Slot.IsWritten`, `Slot.IsStep`: how a slot is written.
* `Assigns`, `Selects`: the sources that put a value into a slot, and those that refer to one.
* `Puts`, `Gets`: the nodes and references that these are read as.
* `ResolvesTo`: the value of a source that is a reference.

## Main results

* `Assigns.parse`, `Selects.parse`: how the sources are read.
* `Render.succeeds_puts`, `Render.succeeds_gets`: what they do.
* `assignment_eq_method`: assignments and methods do the same.
-/

namespace GatewayMapping

open Template

/-! ### Texts of slots -/

namespace Slot

/-- The expression that means the slot as an index or as an argument of methods. -/
def expr : Slot → Expr
  | key k => .string k
  | index i => .int (.ofNat i)

/-- The text of a slot: a key in single quotes, or the digits of an index. -/
inductive IsWritten : Slot → String → Prop
  | key {k : String} (hk : '\'' ∉ k.toList) : IsWritten (key k) ("'" ++ k ++ "'")
  | index {ds : String} (hne : ds ≠ "") (hds : ∀ d ∈ ds.toList, d.isDigit = true) :
      IsWritten (index (Json.Read.digitsValue ds.toList)) ds

/-- The text of a step to a slot: a property that is its key, or its text in brackets. -/
inductive IsStep : Slot → String → Prop
  | property {k : String} (hk : IsName k) : IsStep (key k) ("." ++ k)
  | subscript {s : Slot} {text : String} (ht : s.IsWritten text) : IsStep s ("[" ++ text ++ "]")

/-- A step to a slot. -/
inductive Leads : Slot → Segment → Prop
  | property {k : String} : Leads (key k) (.property k)
  | subscript {s : Slot} : Leads s (.index s.expr)

variable {h : Heap} {c : Container} {s : Slot} {text : String}

/-- The text of a slot is read as what means the slot. -/
theorem IsWritten.reads (ht : s.IsWritten text) (hs : h.Fits c s) :
    ReadsItem innerExpr (Expr.unplaced noLiteral) s.expr text.toList := by
  cases ht with
  | @key k hk =>
    have hstring := ReadsPrimary.string (s := k)
    rw [doubled_eq_self hk] at hstring
    have htext : ("'" ++ k ++ "'").toList = '\'' :: (k.toList ++ ['\'']) := by simp
    rw [htext]
    exact hstring.readsItem rfl rfl (by decide) (by decide) .nil
  | index hne hds =>
    have hne' : text.toList ≠ [] := by simpa using hne
    cases hs with
    | index _ hbits =>
      obtain ⟨d, ds, hcons⟩ := List.exists_cons_of_ne_nil hne'
      obtain ⟨hblank, hunary, hcloser⟩ := not_mem_of_isDigit (hds d (hcons ▸ List.mem_cons_self))
      exact (ReadsPrimary.digits hne' hds hbits).readsItem hcons hblank hunary hcloser .nil

/-- The text of a step to a slot is read as one. -/
theorem IsStep.reads (ht : s.IsStep text) (hs : h.Fits c s) :
    ∃ sg, s.Leads sg ∧ ReadsPath [sg] text.toList := by
  cases ht with
  | @property k hk =>
    have htext : ("." ++ k).toList = '.' :: (k.toList ++ []) := by simp
    exact ⟨_, .property, htext ▸ .property hk .nil⟩
  | @subscript s text ht =>
    have htext' : ("[" ++ text ++ "]").toList = '[' :: (text.toList ++ [']']) := by simp
    exact ⟨_, .subscript, htext' ▸ .index (ht.reads hs) .nil⟩

/-- What is read as what means a slot means it. -/
theorem eq_expr_of_unplaced {e : Expr} (he : e.unplaced noLiteral = s.expr.unplaced noLiteral) :
    e = s.expr := by
  cases s with
  | key k => exact Expr.eq_string_of_unplaced he
  | index i => exact Expr.eq_int_of_unplaced he

/-- What is read as a step to a slot is this step. -/
theorem Leads.eq_of_unplaced {sg sg' : Segment} (hsg : s.Leads sg)
    (heq : sg'.unplaced noLiteral = sg.unplaced noLiteral) : sg' = sg := by
  cases hsg with
  | property => exact Segment.eq_property_of_unplaced heq
  | subscript =>
    obtain ⟨e, rfl, he⟩ := Segment.exists_index_of_unplaced heq
    rw [eq_expr_of_unplaced he]

theorem isName_setter (s : Slot) : IsName s.setter := by
  have hput : IsName "put" := ⟨'p', ['u', 't'], rfl, rfl, List.all_eq_true.mp rfl⟩
  have hset : IsName "set" := ⟨'s', ['e', 't'], rfl, rfl, List.all_eq_true.mp rfl⟩
  cases s with
  | key k => exact hput
  | index i => exact hset

end Slot

namespace Template

open Render

/-! ### Sources -/

/-- A source puts the value of `y` into a slot of the container that `x` refers to. -/
inductive Assigns (x y : String) : Slot → String → Prop
  | assign {s : Slot} {text : String} (ht : s.IsStep text) :
      Assigns x y s ("#set($" ++ x ++ text ++ " = $" ++ y ++ ")")
  | method {s : Slot} {text : String} (ht : s.IsWritten text) :
      Assigns x y s ("$" ++ x ++ "." ++ s.setter ++ "(" ++ text ++ ", $" ++ y ++ ")")

/-- A source refers to a slot of the container that `z` refers to. -/
inductive Selects (z : String) : Slot → String → Prop
  | path {s : Slot} {text : String} (ht : s.IsStep text) : Selects z s ("$" ++ z ++ text)
  | method {s : Slot} {text : String} (ht : s.IsWritten text) :
      Selects z s ("$" ++ z ++ ".get(" ++ text ++ ")")

/-- A node puts the value of `y` into a slot of the container that `x` refers to. -/
inductive Puts (x y : String) : Slot → Node → Prop
  | assign {s : Slot} {sg : Segment} (hsg : s.Leads sg) (l l' : String) (p p' p'' : Position) :
      Puts x y s (.assign (.mk x [sg] false l p) (.reference (.mk y [] false l' p')) p'')
  | method (s : Slot) (l l' : String) (p p' : Position) :
      Puts x y s (.reference
        (.mk x [.method s.setter [s.expr, .reference (.mk y [] false l' p')]] false l p))

/-- A reference leads to a slot of the container that `z` refers to. -/
inductive Gets (z : String) : Slot → Reference → Prop
  | path {s : Slot} {sg : Segment} (hsg : s.Leads sg) (l : String) (p : Position) :
      Gets z s (.mk z [sg] false l p)
  | method (s : Slot) (l : String) (p : Position) :
      Gets z s (.mk z [.method "get" [s.expr]] false l p)

variable {h : Heap} {c : Container} {s : Slot} {x y z source : String}

/-- A variable is read as an item after a blank. -/
theorem readsItem_variable (hy : IsName y) :
    ReadsItem innerExpr (Expr.unplaced noLiteral) (.reference (.mk y [] false "" .start))
      (' ' :: '$' :: y.toList) := by
  have hvariable : ReadsPrimary (.reference (.mk y [] false "" .start)) _ := .variable hy
  have hblank : Blanks [' '] := BlankRun.blank.2
  exact hvariable.readsItem rfl rfl (by decide) (by decide) hblank

/-- A reference whose path is read as one step has one step. -/
theorem exists_step_of_unplaced {r : Reference} {sg : Segment}
    (hr : r.unplaced noLiteral = (Reference.mk x [sg] false "" .start).unplaced noLiteral) :
    ∃ sg' l p, r = .mk x [sg'] false l p ∧ sg'.unplaced noLiteral = sg.unplaced noLiteral := by
  obtain ⟨path, l, p, rfl, hpath⟩ := Reference.exists_of_unplaced hr
  obtain ⟨sg', rfl, hsg⟩ := List.map_eq_singleton_iff.mp hpath
  exact ⟨sg', l, p, rfl, hsg⟩

/-- What is read as a variable is a variable. -/
theorem exists_variable_of_unplaced {e : Expr} (he : e.unplaced noLiteral =
      (Expr.reference (.mk y [] false "" .start)).unplaced noLiteral) :
    ∃ l p, e = .reference (.mk y [] false l p) := by
  obtain ⟨r, rfl, hr⟩ := Expr.exists_reference_of_unplaced he
  obtain ⟨path, l, p, rfl, hpath⟩ := Reference.exists_of_unplaced hr
  obtain rfl := List.map_eq_nil_iff.mp hpath
  exact ⟨l, p, rfl⟩

/-- A source that refers to a slot is read as a reference that leads to it. -/
theorem Selects.parse (hsource : Selects z s source) (hz : IsName z) (hs : h.Fits c s) :
    ∃ r, parse source = .ok [.reference r] ∧ Gets z s r := by
  cases hsource with
  | @path text ht =>
    obtain ⟨sg, hsg, hpath⟩ := ht.reads hs
    have htext : ("$" ++ z ++ text).toList = '$' :: (z.toList ++ text.toList) := by simp
    obtain ⟨r, hparse, hr⟩ := parse_reference hz hpath htext
    obtain ⟨sg', l, p, rfl, heq⟩ := exists_step_of_unplaced hr
    exact ⟨_, hparse, hsg.eq_of_unplaced heq ▸ .path hsg l p⟩
  | @method text ht =>
    have hget : IsName "get" := ⟨'g', ['e', 't'], rfl, rfl, List.all_eq_true.mp rfl⟩
    have hpath := ReadsPath.method hget (.cons (ht.reads hs) .nil) .nil
    have htext : ("$" ++ z ++ ".get(" ++ text ++ ")").toList =
        '$' :: (z.toList ++ '.' :: ("get".toList ++ '(' :: (text.toList ++ [] ++ [')']))) := by
      simp
    obtain ⟨r, hparse, hr⟩ := parse_reference hz hpath htext
    obtain ⟨sg, l, p, rfl, heq⟩ := exists_step_of_unplaced hr
    obtain ⟨args, rfl, hargs⟩ := Segment.exists_method_of_unplaced heq
    obtain ⟨e, rfl, he⟩ := List.map_eq_singleton_iff.mp hargs
    exact ⟨_, hparse, Slot.eq_expr_of_unplaced he ▸ .method s l p⟩

/-- A source that puts a value into a slot is read as a node that does. -/
theorem Assigns.parse (hsource : Assigns x y s source) (hx : IsName x) (hy : IsName y)
    (hs : h.Fits c s) : ∃ n, parse source = .ok [n] ∧ Puts x y s n := by
  have hvalue := readsItem_variable hy
  cases hsource with
  | @assign text ht =>
    obtain ⟨sg, hsg, hpath⟩ := ht.reads hs
    have htext : ("#set($" ++ x ++ text ++ " = $" ++ y ++ ")").toList = "#set($".toList ++
        (x.toList ++ (text.toList ++ (" = ".toList ++ ('$' :: y.toList ++ [')'])))) := by
      simp
    obtain ⟨target, value, p, hparse, htarget, hvalue⟩ := parse_assign hx hpath hvalue htext
    obtain ⟨sg', l, p', rfl, heq⟩ := exists_step_of_unplaced htarget
    obtain ⟨l', p'', rfl⟩ := exists_variable_of_unplaced hvalue
    exact ⟨_, hparse, hsg.eq_of_unplaced heq ▸ .assign hsg l l' p' p'' p⟩
  | @method text ht =>
    have hargs := ReadsItems.cons (ht.reads hs) (.cons hvalue .nil)
    have hpath := ReadsPath.method s.isName_setter hargs .nil
    have htext : ("$" ++ x ++ "." ++ s.setter ++ "(" ++ text ++ ", $" ++ y ++ ")").toList =
        '$' :: (x.toList ++ '.' :: (s.setter.toList ++ '(' ::
          (text.toList ++ ',' :: (' ' :: '$' :: y.toList ++ []) ++ [')']))) := by
      simp
    obtain ⟨r, hparse, hr⟩ := parse_reference hx hpath htext
    obtain ⟨sg', l, p, rfl, heq⟩ := exists_step_of_unplaced hr
    obtain ⟨args, rfl, hargs⟩ := Segment.exists_method_of_unplaced heq
    obtain ⟨e, es, rfl, he, hes⟩ := List.map_eq_cons_iff.mp hargs
    obtain ⟨e', rfl, he'⟩ := List.map_eq_singleton_iff.mp hes
    obtain ⟨l', p', rfl⟩ := exists_variable_of_unplaced he'
    exact ⟨_, hparse, Slot.eq_expr_of_unplaced he ▸ .method s l l' p p'⟩

/-! ### Rendering them -/

variable {scene : Scene} {st : State} {v : Value}

namespace Render

/-- What means a slot has the value that means it. -/
theorem succeeds_slot (scene : Scene) (st : State) (s : Slot) :
    Succeeds (expr scene s.expr) st s.value st := by
  cases s <;> rfl

variable (r : Reference) (path : String)

/-- A step to a slot leads to the value that is in it. -/
theorem succeeds_step_of_leads {sg : Segment} (hsg : s.Leads sg) (hs : st.heap.Fits c s)
    (hv : st.heap.at? c s = some v) :
    ∃ path', Succeeds (step scene r sg c.value path) st (v, path') st := by
  cases hsg with
  | property =>
    cases hs with
    | key =>
      have hproperty := Heap.property_eq scene.hosts hv
      exact ⟨_, succeeds_bind_iff.mpr ⟨_, _, succeeds_settle hproperty _ _ _, rfl⟩⟩
  | subscript =>
    rw [step, Container.isNull_value, if_neg Bool.false_ne_true]
    have hindex := hs.index_eq scene.hosts hv
    exact ⟨_, succeeds_bind_iff.mpr ⟨_, _, succeeds_slot scene st s,
      succeeds_bind_iff.mpr ⟨_, _, rfl,
        succeeds_bind_iff.mpr ⟨_, _, succeeds_settle hindex _ _ _, rfl⟩⟩⟩⟩

variable {r} in
/-- A reference that leads to a slot has the value that is in it. -/
theorem succeeds_gets (hr : Gets z s r) (hz : st.scope.get? z = some c.value)
    (hs : st.heap.Fits c s) (hv : st.heap.at? c s = some v) :
    Succeeds (reference scene r) st v st := by
  cases hr with
  | path hsg =>
    obtain ⟨path, hstep⟩ := succeeds_step_of_leads _ _ hsg hs hv
    exact succeeds_reference hz hstep
  | method =>
    have hargs : Succeeds (exprs scene [s.expr]) st [s.value] st :=
      succeeds_bind_iff.mpr ⟨_, _, succeeds_slot scene st s, rfl⟩
    exact succeeds_reference hz
      (succeeds_step_method _ c.isNull_value hargs (hs.invoke_get scene.hosts hv))

/-- An assignment stores a value in a slot. -/
theorem succeeds_store (hs : st.heap.Fits c s) (v : Value) :
    Succeeds (store scene r path c.value s.value v) st ()
      { st with heap := st.heap.put c s v } := by
  cases hs with
  | key => rfl
  | @index ref i hi hbits =>
    obtain ⟨old, hrun⟩ := Heap.run_set hi hbits v
    have hheap : Succeeds (ofHeap id) st st.heap st := rfl
    refine succeeds_bind_iff.mpr ⟨_, _, hheap, ?_⟩
    rw [hrun]
    rfl

theorem succeeds_assign {sg : Segment} (hsg : s.Leads sg) (hx : st.scope.get? x = some c.value)
    (hs : st.heap.Fits c s) (v : Value) (l : String) (p : Position) :
    Succeeds (assign scene v (.mk x [sg] false l p)) st ()
      { st with heap := st.heap.put c s v } := by
  refine succeeds_bind_iff.mpr ⟨_, _, succeeds_root hx, ?_⟩
  cases hsg with
  | property => exact succeeds_store _ _ hs v
  | subscript =>
    exact succeeds_bind_iff.mpr ⟨_, _, succeeds_slot scene st s, succeeds_store _ _ hs v⟩

/-- A reference renders something wherever it has a value. -/
theorem exists_succeeds_node {r : Reference} {st' : State}
    (hr : Succeeds (reference scene r) st v st') :
    ∃ text, Succeeds (node scene (.reference r)) st (.ofText text) st' := by
  cases v with
  | null => exact ⟨_, succeeds_bind_iff.mpr ⟨_, _, hr, rfl⟩⟩
  | _ => exact ⟨_, succeeds_bind_iff.mpr ⟨_, _, hr, rfl⟩⟩

/-- A node that puts a value into a slot renders something and leaves the value there. -/
theorem succeeds_puts {n : Node} (hn : Puts x y s n) (hx : st.scope.get? x = some c.value)
    (hy : st.scope.get? y = some v) (hnull : v ≠ .null) (hs : st.heap.Fits c s) :
    ∃ text, Succeeds (node scene n) st (.ofText text)
      { st with heap := st.heap.put c s v } := by
  cases hn with
  | assign hsg =>
    refine ⟨"", succeeds_bind_iff.mpr ⟨_, _, succeeds_variable hy, ?_⟩⟩
    cases v with
    | null => exact absurd rfl hnull
    | _ => exact succeeds_bind_iff.mpr ⟨_, _, succeeds_assign hsg hx hs _ _ _, rfl⟩
  | method l l' p p' =>
    have hargs : Succeeds (exprs scene [s.expr, .reference (.mk y [] false l' p')]) st
        [s.value, v] st :=
      succeeds_bind_iff.mpr ⟨_, _, succeeds_slot scene st s, succeeds_bind_iff.mpr
        ⟨_, _, succeeds_bind_iff.mpr ⟨_, _, succeeds_variable hy, rfl⟩, rfl⟩⟩
    obtain ⟨old, hcall⟩ := hs.invoke_setter scene.hosts v
    exact exists_succeeds_node
      (succeeds_reference hx (succeeds_step_method _ c.isNull_value hargs hcall))

end Render

/-- A source is rendered like its nodes in some scene. -/
theorem exists_scene_of_evaluate_nodes (config : Config) (hosts : Hosts) (template : String) :
    ∃ scene : Scene, ∀ {source ns st text st'}, parse source = .ok ns →
      Succeeds (nodes scene ns) st (.ofText text) st' →
        Succeeds (evaluate config hosts template source) st text st' := by
  obtain ⟨scene, -, hscene⟩ := renderWithin_eq_nodes config hosts config.maxDepth template
  refine ⟨scene, fun {source ns st text st'} hparse hnodes => ?_⟩
  rw [evaluate, hparse]
  change Succeeds (render config hosts template ns) st text st'
  rw [render, hscene]
  exact succeeds_bind_iff.mpr ⟨_, _, hnodes, rfl⟩

/-- A source of one node is rendered like the node in some scene. -/
theorem exists_scene_of_evaluate (config : Config) (hosts : Hosts) (template : String) :
    ∃ scene : Scene, ∀ {source n st text st'}, parse source = .ok [n] →
      Succeeds (node scene n) st (.ofText text) st' →
        Succeeds (evaluate config hosts template source) st text st' := by
  obtain ⟨scene, hscene⟩ := exists_scene_of_evaluate_nodes config hosts template
  refine ⟨scene, fun {source n st text st'} hparse hnode => hscene hparse ?_⟩
  have hempty : Output.before text (.ofText "") = .ofText text :=
    congrArg Output.ofText String.append_empty
  rw [nodes, ← hempty]
  exact succeeds_bind_iff.mpr ⟨_, _, hnode, rfl⟩

/-- A source of one node renders something and leaves what the node leaves. -/
theorem exists_evaluate_of_node {n : Node} {st' : State} (hparse : parse source = .ok [n])
    (hn : ∀ scene : Scene, ∃ text, Succeeds (node scene n) st (.ofText text) st')
    (config : Config) (hosts : Hosts) (template : String) :
    ∃ text, (evaluate config hosts template source).run.run st = (.ok text, st') := by
  obtain ⟨scene, hscene⟩ := exists_scene_of_evaluate config hosts template
  obtain ⟨text, hnode⟩ := hn scene
  exact ⟨text, hscene hparse hnode⟩

/-- The source is a reference with this value, and finding the value changes nothing. -/
def ResolvesTo (source : String) (st : State) (v : Value) : Prop :=
  ∃ r, parse source = .ok [.reference r] ∧ ∀ scene : Scene, Succeeds (reference scene r) st v st

/-- **Assigning to a slot of a container is calling its method.** Let `x` refer to a container and
`y` have a value other than null. The assignment to a property or at an index and the call of `put`
or `set` then leave the same state. In it the value is in the slot, also if it refers to the
container itself, and all three ways to refer to the slot find it there through every variable that
refers to the container. Other slots, their order, other containers and the variables stay. -/
theorem assignment_eq_method (config : Config) (hosts : Hosts) (template : String)
    (hx : IsName x) (hy : IsName y) (hc : st.scope.get? x = some c.value)
    (hv : st.scope.get? y = some v) (hnull : v ≠ .null) (hs : st.heap.Fits c s) :
    ∃ h', Heap.Stored c s v st.heap h' ∧
      (∀ source, Assigns x y s source → ∃ text,
        (evaluate config hosts template source).run.run st = (.ok text, ⟨h', st.scope⟩)) ∧
      ∀ z, IsName z → st.scope.get? z = some c.value → ∀ source, Selects z s source →
        ResolvesTo source ⟨h', st.scope⟩ v := by
  refine ⟨st.heap.put c s v, Heap.stored_put hs v, fun source hsource => ?_,
    fun z hz hcz source hsource => ?_⟩
  · obtain ⟨n, hparse, hn⟩ := hsource.parse hx hy hs
    exact exists_evaluate_of_node hparse (fun _ => succeeds_puts hn hc hv hnull hs) _ _ _
  · obtain ⟨r, hparse, hr⟩ := hsource.parse hz hs
    exact ⟨r, hparse, fun _ => succeeds_gets hr hcz (hs.put v) (Heap.stored_put hs v).value⟩

/-- A map is put into itself, under a new key and through two variables. -/
theorem assignment_eq_method_self :
    let m : Container := .map ⟨0⟩
    let st : State := ⟨{ maps := #[.ofList [("a", .int 1)]] },
      .ofList [("m", m.value), ("n", m.value)]⟩
    IsName "m" ∧ IsName "n" ∧ st.scope.get? "m" = some m.value ∧
      st.scope.get? "n" = some m.value ∧ m.value ≠ .null ∧ st.heap.Fits m (.key "self") ∧
      ∃ h', Heap.Stored m (.key "self") m.value st.heap h' ∧
        (∃ text, (evaluate {} [] "t" "#set($m.self = $n)").run.run st =
          (.ok text, ⟨h', st.scope⟩)) ∧
        (∃ text, (evaluate {} [] "t" "$m.put('self', $n)").run.run st =
          (.ok text, ⟨h', st.scope⟩)) ∧
        ResolvesTo "$n['self']" ⟨h', st.scope⟩ m.value := by
  intro m st
  have hm : IsName "m" := ⟨'m', [], rfl, rfl, nofun⟩
  have hn : IsName "n" := ⟨'n', [], rfl, rfl, nofun⟩
  have hself : IsName "self" := ⟨'s', ['e', 'l', 'f'], rfl, rfl, List.all_eq_true.mp rfl⟩
  have hkey : (Slot.key "self").IsWritten ("'" ++ "self" ++ "'") := .key (by decide)
  have hfits : st.heap.Fits m (.key "self") := .key Nat.zero_lt_one
  obtain ⟨h', hstored, hassign, hselect⟩ :=
    assignment_eq_method {} [] "t" hm hn (rfl : st.scope.get? "m" = some m.value)
      (rfl : st.scope.get? "n" = some m.value) nofun hfits
  exact ⟨hm, hn, rfl, rfl, nofun, hfits, h', hstored, hassign _ (.assign (.property hself)),
    hassign _ (.method hkey), hselect "n" hn rfl _ (.path (.subscript hkey))⟩

end Template
end GatewayMapping
