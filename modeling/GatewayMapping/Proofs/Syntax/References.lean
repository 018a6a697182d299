import GatewayMapping.Template.Reader

/-!
# The references of a template

A reference may stand as a node, as the target of an assignment and as an expression, and further
references may stand in the arguments and indexes of its path. `Node.references` lists them all,
those inside double-quoted strings included.

## Main definitions

* `Node.references`, `Reference.references`, `Segment.references`, `Expr.references`.
* `Reference.HasWords`: the names in a reference are made of the characters of names.
-/

namespace GatewayMapping.Template

mutual

/-- All references of a node. -/
def Node.references : Node → List Reference
  | .text _ => []
  | .reference r => r.references
  | .assign target value _ => target.references ++ value.references
  | .conditional branches none _ => branchesReferences branches
  | .conditional branches (some ns) _ => branchesReferences branches ++ nodesReferences ns
  | .forEach _ items body _ => items.references ++ nodesReferences body
  | .leave _ => []
  | .stop _ => []
  | .parse name _ => name.references
  | .insert name _ => name.references

def nodesReferences : List Node → List Reference
  | [] => []
  | n :: ns => n.references ++ nodesReferences ns

def branchesReferences : List (Expr × List Node) → List Reference
  | [] => []
  | (condition, ns) :: branches =>
    condition.references ++ (nodesReferences ns ++ branchesReferences branches)

/-- A reference and all references in its path. -/
def Reference.references : Reference → List Reference
  | .mk name segments quiet literal position =>
    .mk name segments quiet literal position :: segmentsReferences segments

def segmentsReferences : List Segment → List Reference
  | [] => []
  | s :: segments => s.references ++ segmentsReferences segments

/-- All references of a step of a path. -/
def Segment.references : Segment → List Reference
  | .property _ => []
  | .method _ args => exprsReferences args
  | .index i => i.references

def exprsReferences : List Expr → List Reference
  | [] => []
  | e :: es => e.references ++ exprsReferences es

def entriesReferences : List (Expr × Expr) → List Reference
  | [] => []
  | (key, value) :: entries => key.references ++ (value.references ++ entriesReferences entries)

/-- All references of an expression. -/
def Expr.references : Expr → List Reference
  | .null => []
  | .bool _ => []
  | .int _ => []
  | .float _ => []
  | .string _ => []
  | .interpolated nodes => nodesReferences nodes
  | .list items => exprsReferences items
  | .range first last => first.references ++ last.references
  | .map entries => entriesReferences entries
  | .reference r => r.references
  | .unary _ operand _ => operand.references
  | .binary _ left right _ => left.references ++ right.references

end

@[simp] theorem mem_nodesReferences {r : Reference} {ns : List Node} :
    r ∈ nodesReferences ns ↔ ∃ n ∈ ns, r ∈ n.references := by
  induction ns with
  | nil => simp [nodesReferences]
  | cons n ns ih => simp [nodesReferences, ih]

@[simp] theorem mem_branchesReferences {r : Reference} {branches : List (Expr × List Node)} :
    r ∈ branchesReferences branches ↔
      ∃ b ∈ branches, r ∈ b.1.references ∨ r ∈ nodesReferences b.2 := by
  induction branches with
  | nil => simp [branchesReferences]
  | cons b branches ih => simp [branchesReferences, ih, or_assoc]

@[simp] theorem mem_segmentsReferences {r : Reference} {segments : List Segment} :
    r ∈ segmentsReferences segments ↔ ∃ s ∈ segments, r ∈ s.references := by
  induction segments with
  | nil => simp [segmentsReferences]
  | cons s segments ih => simp [segmentsReferences, ih]

@[simp] theorem mem_exprsReferences {r : Reference} {es : List Expr} :
    r ∈ exprsReferences es ↔ ∃ e ∈ es, r ∈ e.references := by
  induction es with
  | nil => simp [exprsReferences]
  | cons e es ih => simp [exprsReferences, ih]

@[simp] theorem mem_entriesReferences {r : Reference} {entries : List (Expr × Expr)} :
    r ∈ entriesReferences entries ↔
      ∃ e ∈ entries, r ∈ e.1.references ∨ r ∈ e.2.references := by
  induction entries with
  | nil => simp [entriesReferences]
  | cons e entries ih => simp [entriesReferences, ih, or_assoc]

theorem mem_references_conditional {r : Reference} {branches : List (Expr × List Node)}
    {otherwise : Option (List Node)} {position : Position} :
    r ∈ (Node.conditional branches otherwise position).references ↔
      r ∈ branchesReferences branches ∨ ∃ ns ∈ otherwise, r ∈ nodesReferences ns := by
  cases otherwise with
  | none => simp [Node.references]
  | some ns => simp [Node.references]

/-! ### The names in a reference -/

/-- The text is made of the characters of names. -/
def IsWord (s : String) : Prop := ∀ c ∈ s.toList, isNameChar c = true

instance : DecidablePred IsWord := fun s =>
  decidable_of_iff (s.toList.all isNameChar = true) List.all_eq_true

/-- The name of the member that a step of a path asks for. -/
def Segment.name? : Segment → Option String
  | .property name => some name
  | .method name _ => some name
  | .index _ => none

/-- The members that a path asks for have names of words. -/
def WordPath (segments : List Segment) : Prop := ∀ s ∈ segments, ∀ name ∈ s.name?, IsWord name

/-- The names in a reference are made of the characters of names. -/
structure Reference.HasWords (r : Reference) : Prop where
  name : IsWord r.name
  path : WordPath r.segments

end GatewayMapping.Template
