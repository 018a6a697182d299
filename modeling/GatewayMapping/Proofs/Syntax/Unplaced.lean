import GatewayMapping.Template.SyntaxError

/-!
# Syntax without places

Reading a text at another place of a source gives the same nodes with other places in them. What
the nodes have in common is left when every place is replaced by one and the same; `Node.unplaced`
does this. The literal of a reference is the text that it was read from, and `unplaced` changes it
by a given function: the identity keeps the literals, a constant function forgets them too.

## Main definitions

* `Expr.unplaced`, `Reference.unplaced`, `Segment.unplaced`, `Node.unplaced`.
* `SyntaxFault.unplaced`: why a source is no template, without the places in the reason.
-/

namespace GatewayMapping.Template

mutual

/-- A node without its places, with literals changed by `lit`. -/
def Node.unplaced (lit : String → String) : Node → Node
  | .text s => .text s
  | .reference r => .reference (r.unplaced lit)
  | .assign target value _ => .assign (target.unplaced lit) (value.unplaced lit) .start
  | .conditional branches none _ => .conditional (unplacedBranches lit branches) none .start
  | .conditional branches (some ns) _ =>
    .conditional (unplacedBranches lit branches) (some (unplacedNodes lit ns)) .start
  | .forEach loopVariable items body _ =>
    .forEach loopVariable (items.unplaced lit) (unplacedNodes lit body) .start
  | .leave _ => .leave .start
  | .stop _ => .stop .start
  | .parse name _ => .parse (name.unplaced lit) .start
  | .insert name _ => .insert (name.unplaced lit) .start

def unplacedNodes (lit : String → String) : List Node → List Node
  | [] => []
  | n :: ns => n.unplaced lit :: unplacedNodes lit ns

def unplacedBranches (lit : String → String) :
    List (Expr × List Node) → List (Expr × List Node)
  | [] => []
  | (condition, ns) :: branches =>
    (condition.unplaced lit, unplacedNodes lit ns) :: unplacedBranches lit branches

/-- A reference without its places, with literals changed by `lit`. -/
def Reference.unplaced (lit : String → String) : Reference → Reference
  | .mk name segments quiet literal _ =>
    .mk name (unplacedSegments lit segments) quiet (lit literal) .start

def unplacedSegments (lit : String → String) : List Segment → List Segment
  | [] => []
  | s :: segments => s.unplaced lit :: unplacedSegments lit segments

/-- A step of a path without its places, with literals changed by `lit`. -/
def Segment.unplaced (lit : String → String) : Segment → Segment
  | .property name => .property name
  | .method name args => .method name (unplacedExprs lit args)
  | .index i => .index (i.unplaced lit)

def unplacedExprs (lit : String → String) : List Expr → List Expr
  | [] => []
  | e :: es => e.unplaced lit :: unplacedExprs lit es

def unplacedEntries (lit : String → String) : List (Expr × Expr) → List (Expr × Expr)
  | [] => []
  | (key, value) :: entries =>
    (key.unplaced lit, value.unplaced lit) :: unplacedEntries lit entries

/-- An expression without its places, with literals changed by `lit`. -/
def Expr.unplaced (lit : String → String) : Expr → Expr
  | .null => .null
  | .bool b => .bool b
  | .int n => .int n
  | .float x => .float x
  | .string s => .string s
  | .interpolated nodes => .interpolated (unplacedNodes lit nodes)
  | .list items => .list (unplacedExprs lit items)
  | .range first last => .range (first.unplaced lit) (last.unplaced lit)
  | .map entries => .map (unplacedEntries lit entries)
  | .reference r => .reference (r.unplaced lit)
  | .unary op operand _ => .unary op (operand.unplaced lit) .start
  | .binary op left right _ => .binary op (left.unplaced lit) (right.unplaced lit) .start

end

variable (lit : String → String)

@[simp] theorem unplacedNodes_eq_map (ns : List Node) :
    unplacedNodes lit ns = ns.map (Node.unplaced lit) := by
  induction ns with
  | nil => rfl
  | cons n ns ih => rw [unplacedNodes, ih, List.map_cons]

@[simp] theorem unplacedBranches_eq_map (branches : List (Expr × List Node)) :
    unplacedBranches lit branches =
      branches.map fun b => (b.1.unplaced lit, b.2.map (Node.unplaced lit)) := by
  induction branches with
  | nil => rfl
  | cons b branches ih =>
    rw [unplacedBranches, ih, unplacedNodes_eq_map, List.map_cons]

@[simp] theorem unplacedSegments_eq_map (segments : List Segment) :
    unplacedSegments lit segments = segments.map (Segment.unplaced lit) := by
  induction segments with
  | nil => rfl
  | cons s segments ih => rw [unplacedSegments, ih, List.map_cons]

@[simp] theorem unplacedExprs_eq_map (es : List Expr) :
    unplacedExprs lit es = es.map (Expr.unplaced lit) := by
  induction es with
  | nil => rfl
  | cons e es ih => rw [unplacedExprs, ih, List.map_cons]

@[simp] theorem unplacedEntries_eq_map (entries : List (Expr × Expr)) :
    unplacedEntries lit entries =
      entries.map fun e => (e.1.unplaced lit, e.2.unplaced lit) := by
  induction entries with
  | nil => rfl
  | cons e entries ih => rw [unplacedEntries, ih, List.map_cons]

theorem unplaced_conditional (branches : List (Expr × List Node))
    (otherwise : Option (List Node)) (position : Position) :
    (Node.conditional branches otherwise position).unplaced lit =
      .conditional (branches.map fun b => (b.1.unplaced lit, b.2.map (Node.unplaced lit)))
        (otherwise.map (List.map (Node.unplaced lit))) .start := by
  cases otherwise with
  | none => rw [Node.unplaced, unplacedBranches_eq_map, Option.map_none]
  | some ns =>
    rw [Node.unplaced, unplacedBranches_eq_map, unplacedNodes_eq_map, Option.map_some]

theorem Reference.name_unplaced (r : Reference) : (r.unplaced lit).name = r.name := by
  cases r
  rfl

theorem Reference.literal_unplaced (r : Reference) : (r.unplaced lit).literal = lit r.literal := by
  cases r
  rfl

theorem Reference.isBare_unplaced (r : Reference) : (r.unplaced lit).isBare = r.isBare := by
  obtain ⟨name, path, quiet, literal, position⟩ := r
  cases path <;> rfl

/-! ### Syntax that is the same but for its places -/

variable {lit}

attribute [local simp] Expr.unplaced Segment.unplaced Reference.unplaced

theorem Expr.eq_string_of_unplaced {e : Expr} {s : String}
    (h : e.unplaced lit = (Expr.string s).unplaced lit) : e = .string s := by
  cases e <;> simp at h
  rw [h]

theorem Expr.eq_int_of_unplaced {e : Expr} {n : Int64}
    (h : e.unplaced lit = (Expr.int n).unplaced lit) : e = .int n := by
  cases e <;> simp at h
  rw [h]

theorem Expr.eq_float_of_unplaced {e : Expr} {x : Float}
    (h : e.unplaced lit = (Expr.float x).unplaced lit) : e = .float x := by
  cases e <;> simp at h
  rw [h]

theorem Expr.exists_unary_of_unplaced {e operand : Expr} {op : UnaryOp} {position : Position}
    (h : e.unplaced lit = (Expr.unary op operand position).unplaced lit) :
    ∃ operand' position', e = .unary op operand' position' ∧
      operand'.unplaced lit = operand.unplaced lit := by
  cases e <;> simp at h
  obtain ⟨rfl, hoperand⟩ := h
  exact ⟨_, _, rfl, hoperand⟩

theorem Expr.exists_reference_of_unplaced {e : Expr} {r : Reference}
    (h : e.unplaced lit = (Expr.reference r).unplaced lit) :
    ∃ r', e = .reference r' ∧ r'.unplaced lit = r.unplaced lit := by
  cases e <;> simp at h
  exact ⟨_, rfl, h⟩

theorem Segment.eq_property_of_unplaced {s : Segment} {name : String}
    (h : s.unplaced lit = (Segment.property name).unplaced lit) : s = .property name := by
  cases s <;> simp at h
  rw [h]

theorem Segment.exists_index_of_unplaced {s : Segment} {i : Expr}
    (h : s.unplaced lit = (Segment.index i).unplaced lit) :
    ∃ i', s = .index i' ∧ i'.unplaced lit = i.unplaced lit := by
  cases s <;> simp at h
  exact ⟨_, rfl, h⟩

theorem Segment.exists_method_of_unplaced {s : Segment} {name : String} {args : List Expr}
    (h : s.unplaced lit = (Segment.method name args).unplaced lit) :
    ∃ args', s = .method name args' ∧
      args'.map (Expr.unplaced lit) = args.map (Expr.unplaced lit) := by
  cases s <;> simp at h
  exact ⟨_, by rw [h.1], h.2⟩

theorem Reference.exists_of_unplaced {r : Reference} {name : String} {path : List Segment}
    {quiet : Bool} {literal : String} {position : Position}
    (h : r.unplaced lit = (Reference.mk name path quiet literal position).unplaced lit) :
    ∃ path' literal' position', r = .mk name path' quiet literal' position' ∧
      path'.map (Segment.unplaced lit) = path.map (Segment.unplaced lit) := by
  obtain ⟨name', path', quiet', literal', position'⟩ := r
  simp at h
  obtain ⟨rfl, hpath, rfl, -⟩ := h
  exact ⟨path', literal', position', rfl, hpath⟩

/-! ### Faults -/

/-- What should stand at a place, without its places. -/
def Expected.unplaced : Expected → Expected
  | .finish directive _ => .finish directive .start
  | expected => expected

/-- A fault without its places, with literals changed by `lit`. -/
def SyntaxFault.unplaced (lit : String → String) : SyntaxFault → SyntaxFault
  | .unexpected found expected => .unexpected found expected.unplaced
  | .loopVariable literal => .loopVariable (lit literal)
  | fault => fault

end GatewayMapping.Template
