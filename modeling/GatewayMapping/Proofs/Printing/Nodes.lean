import GatewayMapping.Proofs.Printing.Expression
import GatewayMapping.Proofs.Syntax.Unplaced
import GatewayMapping.Template.Block

/-!
# Nodes as texts

A list of nodes is printed node by node. In a text, `$` and `#` are written after a backslash, and
the backslashes before them are doubled, as are those before the next node. Directives
stand after an empty verbatim block, so that none begins a line and takes blanks or the end of its
line with it. References and the arguments of directives are printed as any texts that they are
read from, each by itself and with the limit for its own length.

Two texts side by side would be read as one, an empty text not at all. Lists where neither occurs
are *normal*.

## Main definitions

* `escaped`: what is printed for the characters of a text.
* `ReferenceText`, `ArgumentText`: a text that a reference or an argument is read from.
* `PrintedNode`, `PrintedNodes`, `PrintedRest`: what is printed for nodes.
* `Node.Normal`, `NormalNodes`: the nodes that can be told apart in what is printed.
-/

namespace GatewayMapping.Template

/-! ### Characters of a text -/

/-- Whether references, directives or comments begin with a character. -/
def isMark (c : Char) : Bool := c = '$' || c = '#'

/-- What is printed for the characters of a text after a run of backslashes that are not yet
printed. At the end of the text further nodes may follow. -/
def escaped (followed : Bool) : (run : Nat) → List Char → List Char
  | run, [] => List.replicate (if followed then 2 * run else run) '\\'
  | run, c :: cs =>
    if c = '\\' then escaped followed (run + 1) cs
    else if isMark c then
      List.replicate (2 * run + 1) '\\' ++ c :: escaped followed 0 cs
    else List.replicate run '\\' ++ c :: escaped followed 0 cs

/-! ### References and arguments -/

/-- The text begins with a dollar sign and a brace, and it is read to its end as the reference,
places and changes of literals by `lit` apart. -/
structure ReferenceText (lit : String → String) (r : Reference) (cs : List Char) : Prop where
  braced : ∃ (quiet : Bool) (rest : List Char),
    cs = '$' :: ((if quiet then ['!'] else []) ++ '\x7b' :: rest)
  read : ∃ r' cur', (Grammar.reference? (Inner.upTo cs.length)).run (.ofChars cs .start) =
    .ok (some r', cur') ∧ r'.unplaced lit = r.unplaced lit ∧ cur'.rest = []

/-- The text is read as the expression, places and changes of literals by `lit` apart, up to a
closing parenthesis after it. -/
def ArgumentText (lit : String → String) (e : Expr) (cs : List Char) : Prop :=
  ∃ e' cur', (Inner.upTo (cs.length + 1)).expr.run (.ofChars (cs ++ [')']) .start) =
    .ok (e', cur') ∧ e'.unplaced lit = e.unplaced lit ∧ cur'.rest = [')']

/-! ### Nodes -/

/-- The empty verbatim block. -/
def separator : List Char := ['#', '[', '[', ']', ']', '#']

/-- A directive with arguments in parentheses. -/
def Directive.withArguments (d : Directive) (cs : List Char) : List Char :=
  separator ++ '#' :: (d.word ++ '(' :: (cs ++ [')']))

/-- A directive without arguments, in braces. -/
def Directive.bare (d : Directive) : List Char := separator ++ '#' :: '\x7b' :: (d.word ++ ['\x7d'])

mutual

/-- The text is printed for a node. -/
inductive PrintedNode (lit : String → String) : Node → List Char → Prop
  | reference {r cs} (hr : ReferenceText lit r cs) : PrintedNode lit (.reference r) cs
  | assign {target value position cs ds} (ht : ReferenceText lit target cs)
      (hv : ArgumentText lit value ds) :
      PrintedNode lit (.assign target value position)
        (Directive.assign.withArguments (cs ++ ' ' :: '=' :: ' ' :: ds))
  | conditional {condition ns branches otherwise position cs ds fs}
      (hc : ArgumentText lit condition cs) (hns : PrintedNodes lit true ns ds)
      (hrest : PrintedRest lit branches otherwise fs) :
      PrintedNode lit (.conditional ((condition, ns) :: branches) otherwise position)
        (Directive.ifThen.withArguments cs ++ (ds ++ fs))
  | forEach {name items ns position cs ds} (hname : IsName name)
      (hi : ArgumentText lit items cs) (hns : PrintedNodes lit true ns ds) :
      PrintedNode lit (.forEach name items ns position)
        (Directive.forEach.withArguments ('$' :: (name.toList ++ ' ' :: 'i' :: 'n' :: ' ' :: cs)) ++
          (ds ++ Directive.finish.bare))
  | leave {position} : PrintedNode lit (.leave position) Directive.leave.bare
  | stop {position} : PrintedNode lit (.stop position) Directive.stop.bare
  | parse {name position cs} (hn : ArgumentText lit name cs) :
      PrintedNode lit (.parse name position) (Directive.parse.withArguments cs)
  | insert {name position cs} (hn : ArgumentText lit name cs) :
      PrintedNode lit (.insert name position) (Directive.insert.withArguments cs)

/-- The text is printed for the nodes of a block, after which more may be printed. -/
inductive PrintedNodes (lit : String → String) : Bool → List Node → List Char → Prop
  | nil {followed} : PrintedNodes lit followed [] []
  | text {followed s ns cs} (hns : PrintedNodes lit followed ns cs) :
      PrintedNodes lit followed (.text s :: ns) (escaped (followed || !ns.isEmpty) 0 s.toList ++ cs)
  | cons {followed n ns cs ds} (hn : PrintedNode lit n cs) (hns : PrintedNodes lit followed ns ds) :
      PrintedNodes lit followed (n :: ns) (cs ++ ds)

/-- The text is printed for what follows the first branch of a condition. -/
inductive PrintedRest (lit : String → String) :
    List (Expr × List Node) → Option (List Node) → List Char → Prop
  | finish : PrintedRest lit [] none Directive.finish.bare
  | otherwise {ns cs} (hns : PrintedNodes lit true ns cs) :
      PrintedRest lit [] (some ns) (Directive.otherwise.bare ++ (cs ++ Directive.finish.bare))
  | elseIf {condition ns branches otherwise cs ds fs} (hc : ArgumentText lit condition cs)
      (hns : PrintedNodes lit true ns ds) (hrest : PrintedRest lit branches otherwise fs) :
      PrintedRest lit ((condition, ns) :: branches) otherwise
        (Directive.elseIf.withArguments cs ++ (ds ++ fs))

end

/-! ### Normal nodes -/

mutual

/-- In a normal node every condition has a branch, and the blocks are normal. -/
def Node.Normal : Node → Prop
  | .text _ => True
  | .reference _ => True
  | .assign _ _ _ => True
  | .conditional branches none _ => branches ≠ [] ∧ NormalBranches branches
  | .conditional branches (some ns) _ =>
    branches ≠ [] ∧ NormalBranches branches ∧ NormalNodes ns
  | .forEach _ _ ns _ => NormalNodes ns
  | .leave _ => True
  | .stop _ => True
  | .parse _ _ => True
  | .insert _ _ => True

/-- In a normal block no text is empty, and none stands beside another. -/
def NormalNodes : List Node → Prop
  | [] => True
  | n :: ns => (∀ s, n = .text s → s ≠ "" ∧ ∀ t, ns.head? ≠ some (.text t)) ∧ n.Normal ∧
    NormalNodes ns

def NormalBranches : List (Expr × List Node) → Prop
  | [] => True
  | (_, ns) :: branches => NormalNodes ns ∧ NormalBranches branches

end

end GatewayMapping.Template
