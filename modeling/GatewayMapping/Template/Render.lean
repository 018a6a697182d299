import GatewayMapping.Method.Invoke
import GatewayMapping.Template.Block
import GatewayMapping.Template.RenderError
import GatewayMapping.Value.Arithmetic

/-!
# Rendering

Rendering runs over the variables and the heap, which an error leaves as they are when it occurs.
With strict references a variable that is not bound, and a member of null or one that does not
exist, is an error; otherwise it is null.

`render` renders the nodes of a template. A resource that is parsed is rendered like a template of
its own, and the depth of such resources inside one another is bounded.
-/

namespace GatewayMapping.Template

/-- How templates are rendered. -/
structure Config where
  strict : Bool := true
  resources : OrderedMap String := .empty
  /-- How deep parsed resources may lie inside one another. -/
  maxDepth : Nat := 10
  deriving Inhabited

/-- What a template reads and changes. -/
structure State where
  heap : Heap
  /-- The variables with their values. -/
  scope : OrderedMap Value
  deriving DecidableEq, Repr, Inhabited

/-- A computation of a template over a monad. The state after an error is the one in which it
occurred. -/
abbrev RenderT (m : Type → Type) := ExceptT RenderError (StateT State m)

/-- A computation of a template with no other effects. -/
abbrev Render := RenderT Id

/-- How rendering goes on after a node. -/
inductive Flow where
  | goOn
  | leave
  | stop
  deriving DecidableEq, Repr, Inhabited

/-- What rendering gives. -/
structure Output where
  text : String
  flow : Flow
  deriving DecidableEq, Repr, Inhabited

/-- A text after which rendering goes on. -/
def Output.ofText (s : String) : Output := ⟨s, .goOn⟩

/-- A text before an output. -/
def Output.before (s : String) (o : Output) : Output := { o with text := s ++ o.text }

/-- What surrounds the nodes of a template. What else rendering does happens where resources are
rendered inside a template. -/
structure Scene (m : Type → Type := Id) where
  config : Config
  hosts : Hosts
  template : String
  /-- Renders a resource inside this template, unless it would lie too deep. -/
  inner? : Option (String → List Node → RenderT m Output)

namespace Render

variable {m : Type → Type} [Monad m]

/-- Stops with a fault. -/
def fail {α : Type} (scene : Scene m) (position : Position) (fault : RenderFault) : RenderT m α :=
  throw ⟨scene.template, position, fault⟩

/-- What a function makes of the heap. -/
def ofHeap {α : Type} (f : Heap → α) : RenderT m α := return f (← get).heap

/-- The value that a function makes with a change of the heap. -/
def onHeap {α : Type} (f : Heap → α × Heap) : RenderT m α := do
  let (x, h) := f (← get).heap
  modify fun st => { st with heap := h }
  return x

/-- The value of a variable. -/
def lookup? (name : String) : RenderT m (Option Value) := return (← get).scope.get? name

/-- Binds a variable. -/
def setVariable (name : String) (v : Value) : RenderT m Unit :=
  modify fun st => { st with scope := st.scope.insert name v }

/-- Makes a variable unbound. -/
def eraseVariable (name : String) : RenderT m Unit :=
  modify fun st => { st with scope := st.scope.erase name }

/-- Gives a variable back the value it had, or makes it unbound. -/
def restore (name : String) : Option Value → RenderT m Unit
  | some v => setVariable name v
  | none => eraseVariable name

/-- Makes variables unbound and gives back the values that they had. -/
def takeAll : List String → RenderT m (List (String × Option Value))
  | [] => return []
  | name :: names => do
    let v ← lookup? name
    eraseVariable name
    return (name, v) :: (← takeAll names)

/-- Gives variables back the values that they had. -/
def restoreAll : List (String × Option Value) → RenderT m Unit
  | [] => return ()
  | (name, v) :: rest => do
    restore name v
    restoreAll rest

/-! ### Loops -/

/-- The variable of a loop that counts its rounds. -/
def counterName : String := "velocityCount"

/-- The variable of a loop that tells about the round. -/
def roundName : String := "foreach"

/-- Binds the variables of a round. -/
def beginRound (loopVariable : String) (index : Nat) (item : Value) (isLast : Bool) :
    RenderT m Unit := do
  setVariable loopVariable item
  let round ← onHeap fun h => h.newMap (.ofList [
    ("index", .int (.ofNat index)), ("count", .int (.ofNat (index + 1))),
    ("hasNext", .bool !isLast), ("first", .bool (index = 0)), ("last", .bool isLast)])
  setVariable roundName round
  setVariable counterName (.int (.ofNat (index + 1)))

/-- Runs a body for each item in turn. -/
def rounds (loopVariable : String) (body : RenderT m Output) :
    (index : Nat) → List Value → RenderT m Output
  | _, [] => return .ofText ""
  | index, item :: items => do
    beginRound loopVariable index item items.isEmpty
    let o ← body
    match o.flow with
    | .goOn => return .before o.text (← rounds loopVariable body (index + 1) items)
    | .leave => return .ofText o.text
    | .stop => return o

/-- Runs a body for each item of a list or map as it is at the beginning. A loop that ends without
an error gives its variables back the values that they had before it. -/
def loop (loopVariable : String) (collection : Value) (body : RenderT m Output) :
    RenderT m Output := do
  let h ← ofHeap id
  let run (items : List Value) : RenderT m Output := do
    let saved ← takeAll [loopVariable, roundName, counterName]
    let o ← rounds loopVariable body 0 items
    restoreAll saved
    return o
  match collection with
  | .list ref => run (h.items ref)
  | .map ref => run (h.members ref).values
  | _ => return .ofText ""

/-! ### References -/

/-- Goes on after a method, which may have failed: to the value, or to null if no member fits and
references are not strict. -/
def settle (scene : Scene m) (r : Reference) (path : String) (member : Member) (typeName : String)
    (call : Heap → MethodResult) : RenderT m Value := do
  match call (← ofHeap id) with
  | .ok (v, h) =>
    modify fun st => { st with heap := h }
    return v
  | .error .notFound =>
    if scene.config.strict then
      fail scene r.position (.path (.noMember path member typeName) r.literal)
    else return .null
  | .error (.failed fault) =>
    fail scene r.position (.path (.failed path member typeName fault) r.literal)

/-- The value of the variable of a reference. -/
def root (scene : Scene m) (r : Reference) : RenderT m Value := do
  match ← lookup? r.name with
  | some v => return v
  | none =>
    if scene.config.strict then fail scene r.position (.undefined r.name r.literal)
    else return .null

/-- Finds null where a member is wanted. -/
def onNull (scene : Scene m) (r : Reference) (path : String) (member : Member) :
    RenderT m (Value × String) :=
  if scene.config.strict then
    fail scene r.position (.path (.onNull path member) r.literal)
  else return (.null, path)

/-- Puts a value under a key of a container that a target leads to. -/
def store (scene : Scene m) (target : Reference) (path : String) (parent key new : Value) :
    RenderT m Unit := do
  match parent with
  | .map ref =>
    modify fun st =>
      { st with
        heap := st.heap.setMembers ref ((st.heap.members ref).insert (st.heap.text key) new) }
  | .list ref =>
    match ListMethod.run (← ofHeap id) ref .set [key, new] with
    | .ok (_, h) => modify fun st => { st with heap := h }
    | .error (.failed fault) =>
      fail scene target.position
        (.path (.failed path (.method "set") parent.typeName fault) target.literal)
    | .error .notFound => fail scene target.position (.listIndex target.literal)
  | _ =>
    if parent.isNull && !scene.config.strict then return ()
    else fail scene target.position (.assignOn target.literal parent.typeName)

/-! ### Operators -/

/-- What stands for an operand that is null. -/
def literalOf : Expr → String
  | .reference r => r.literal
  | .string s => s
  | _ => "null"

/-- The text of an operand of a concatenation. -/
def operandText (v : Value) (e : Expr) : RenderT m String :=
  match v with
  | .null => return literalOf e
  | _ => ofHeap fun h => h.text v

/-- The value of the operator of opposites. -/
def negation (scene : Scene m) (position : Position) (v : Value) (e : Expr) : RenderT m Value :=
  if v.isNull && scene.config.strict then fail scene position (.nullOperand (literalOf e))
  else return v.negate

/-- The value of an operator one of whose operands is null. -/
def nullOperation (scene : Scene m) (op : BinaryOp) (position : Position) (a : Value)
    (left right : Expr) : RenderT m Value :=
  if scene.config.strict then
    fail scene position (.nullSide a.isNull (literalOf (if a.isNull then left else right)) op)
  else
    match op with
    | .lt | .le | .gt | .ge => return .bool false
    | _ => return .null

/-- The value of an operator of two operands that are evaluated both. -/
def operation (scene : Scene m) (op : BinaryOp) (position : Position) (a b : Value)
    (left right : Expr) : RenderT m Value := do
  match op with
  | .eq => return .bool (← ofHeap fun h => h.looselyEqual a b)
  | .ne => return .bool !(← ofHeap fun h => h.looselyEqual a b)
  | _ =>
    if op = .add && (a.string?.isSome || b.string?.isSome) then
      return .string ((← operandText a left) ++ (← operandText b right))
    else if a.isNull || b.isNull then nullOperation scene op position a left right
    else
      match op with
      | .lt | .le | .gt | .ge =>
        match a.compare? b with
        | some o => return .bool (Value.agrees op o)
        | none => fail scene position (.notComparable a.typeName b.typeName op)
      | _ => return Value.arithmetic op a b

/-- The list of the integers from one bound to another, or null if one of them is no integer. -/
def range (first last : Value) : RenderT m Value :=
  match first.rangeBound?, last.rangeBound? with
  | some m, some n => onHeap fun h => h.newList (Value.rangeItems m n)
  | _, _ => return .null

/-! ### Resources -/

/-- The source of a resource whose name an expression gives. -/
def resource (scene : Scene m) (position : Position) (e : Expr) (v : Value) :
    RenderT m (String × String) := do
  let name ← operandText v e
  match scene.config.resources.get? name with
  | some source => return (name, source)
  | none =>
    let reference := match e with
      | .reference r => some r.literal
      | _ => none
    fail scene position (.noResource name reference)

/-- Renders a parsed resource. What ends it early ends the template around it only if everything
is to stop. -/
def parsed (inner : String → List Node → RenderT m Output) (name source : String) :
    RenderT m Output := do
  match parse source with
  | .ok nodes =>
    let o ← inner name nodes
    return { o with flow := if o.flow = .stop then .stop else .goOn }
  | .error e => throw (e.inTemplate name)

/-! ### Nodes and expressions -/

mutual
/-- Renders nodes in turn. -/
def nodes (scene : Scene m) : List Node → RenderT m Output
  | [] => return .ofText ""
  | n :: ns => do
    let o ← node scene n
    match o.flow with
    | .goOn => return .before o.text (← nodes scene ns)
    | _ => return o
termination_by structural x => x

/-- Renders a node. -/
def node (scene : Scene m) : Node → RenderT m Output
  | .text s => return .ofText s
  | .reference r => do
    match ← reference scene r with
    | .null => return .ofText (if r.quiet then "" else r.literal)
    | v => return .ofText (← ofHeap fun h => h.text v)
  | .assign target value _ => do
    match ← expr scene value with
    | .null => return .ofText ""
    | v =>
      assign scene v target
      return .ofText ""
  | .conditional bs last _ => branches scene (otherwise scene last) bs
  | .forEach loopVariable items body _ => do
    loop loopVariable (← expr scene items) (nodes scene body)
  | .leave _ => return ⟨"", .leave⟩
  | .stop _ => return ⟨"", .stop⟩
  | .parse e position => do
    match scene.inner? with
    | none => fail scene position (.tooDeep scene.config.maxDepth)
    | some inner =>
      let (name, source) ← resource scene position e (← expr scene e)
      parsed inner name source
  | .insert e position => do
    return .ofText (← resource scene position e (← expr scene e)).2
termination_by structural x => x

/-- Renders what is to be rendered if no condition holds. -/
def otherwise (scene : Scene m) : Option (List Node) → RenderT m Output
  | some body => nodes scene body
  | none => return .ofText ""
termination_by structural x => x

/-- Renders the first branch whose condition holds, or else the last one. -/
def branches (scene : Scene m) (last : RenderT m Output) :
    List (Expr × List Node) → RenderT m Output
  | [] => last
  | (e, body) :: bs => do
    if ← holds scene e (expr scene e) then nodes scene body else branches scene last bs
termination_by structural x => x

/-- Whether a condition holds, where `value` is its value as an expression. A variable without a
path may be unbound here. -/
def holds (scene : Scene m) : Expr → (value : RenderT m Value) → RenderT m Bool
  | .reference (.mk name [] _ _ _), _ => return (← lookup? name).any Value.isTruthy
  | .unary .not e _, _ => return !(← holds scene e (expr scene e))
  | .binary .and left right _, _ => do
    if ← holds scene left (expr scene left) then holds scene right (expr scene right)
    else return false
  | .binary .or left right _, _ => do
    if ← holds scene left (expr scene left) then return true
    else holds scene right (expr scene right)
  | _, value => return (← value).isTruthy
termination_by structural x _ => x

/-- The value of a reference. -/
def reference (scene : Scene m) : Reference → RenderT m Value
  | .mk name segments quiet literal position => do
    let r := Reference.mk name segments quiet literal position
    let v ← root scene r
    return (← walk scene r segments v ("$" ++ name)).1
termination_by structural x => x

/-- The value at the end of a path, and the text of the path. -/
def walk (scene : Scene m) (r : Reference) :
    List Segment → Value → String → RenderT m (Value × String)
  | [], v, path => return (v, path)
  | s :: ss, v, path => do
    let (v, path) ← step scene r s v path
    walk scene r ss v path
termination_by structural x _ _ => x

/-- The value after a step of a path, and the text of the path with the step. -/
def step (scene : Scene m) (r : Reference) :
    Segment → Value → String → RenderT m (Value × String)
  | .property name, v, path => do
    if v.isNull then onNull scene r path (.property name)
    else
      let result ← settle scene r path (.property name) v.typeName fun h =>
        Method.property scene.hosts h v name
      return (result, path ++ "." ++ name)
  | .method name args, v, path => do
    if v.isNull then onNull scene r path (.method name)
    else
      let args ← exprs scene args
      let result ← settle scene r path (.method name) v.typeName fun h =>
        Method.invoke scene.hosts h v name args
      return (result, path ++ "." ++ name)
  | .index e, v, path => do
    if v.isNull then onNull scene r path .index
    else
      let i ← expr scene e
      let shown ← ofHeap fun h => h.text i
      let result ← settle scene r path .index v.typeName fun h =>
        Method.index scene.hosts h v i
      return (result, path ++ "[" ++ shown ++ "]")
termination_by structural x _ _ => x

/-- Assigns a value to a target. -/
def assign (scene : Scene m) (new : Value) : Reference → RenderT m Unit
  | .mk name [] _ _ _ => setVariable name new
  | .mk name segments quiet literal position => do
    let target := Reference.mk name segments quiet literal position
    let v ← root scene target
    assignAt scene new target segments v ("$" ++ name)
termination_by structural x => x

/-- Assigns a value to what the rest of a path leads to. -/
def assignAt (scene : Scene m) (new : Value) (target : Reference) :
    List Segment → Value → String → RenderT m Unit
  | [], _, _ => return ()
  | [.property name], parent, path => store scene target path parent (.string name) new
  | [.index e], parent, path => do store scene target path parent (← expr scene e) new
  | [.method _ _], _, _ => fail scene target.position (.assignToMethod target.literal)
  | s :: ss, v, path => do
    let (v, path) ← step scene target s v path
    assignAt scene new target ss v path
termination_by structural x _ _ => x

/-- The values of expressions. -/
def exprs (scene : Scene m) : List Expr → RenderT m (List Value)
  | [] => return []
  | e :: es => do
    let v ← expr scene e
    return v :: (← exprs scene es)
termination_by structural x => x

/-- The keys and values of the entries of a map. -/
def entries (scene : Scene m) : List (Expr × Expr) → RenderT m (Fields Value)
  | [] => return []
  | (k, e) :: rest => do
    let key ← expr scene k
    let key ← ofHeap fun h => h.text key
    let v ← expr scene e
    return (key, v) :: (← entries scene rest)
termination_by structural x => x

/-- The value of an expression. -/
def expr (scene : Scene m) : Expr → RenderT m Value
  | .null => return .null
  | .bool b => return .bool b
  | .int n => return .int n
  | .float x => return .float x
  | .string s => return .string s
  | .interpolated ns => return .string (← nodes scene ns).text
  | .list items => do
    let vs ← exprs scene items
    onHeap fun h => h.newList vs
  | .range first last => do
    let m ← expr scene first
    let n ← expr scene last
    range m n
  | .map es => do
    let members ← entries scene es
    onHeap fun h => h.newMap (.ofList members)
  | .reference r => reference scene r
  | .unary .not e _ => return .bool !(← expr scene e).isTruthy
  | .unary .negate e position => do negation scene position (← expr scene e) e
  | .binary .and left right _ => do
    if (← expr scene left).isTruthy then return .bool (← expr scene right).isTruthy
    else return .bool false
  | .binary .or left right _ => do
    if (← expr scene left).isTruthy then return .bool true
    else return .bool (← expr scene right).isTruthy
  | .binary op left right position => do
    let a ← expr scene left
    let b ← expr scene right
    operation scene op position a b left right
termination_by structural x => x
end

/-- Whether a condition holds. -/
def condition (scene : Scene m) (e : Expr) : RenderT m Bool := holds scene e (expr scene e)

end Render

/-- Renders the nodes of a template, inside which parsed resources may lie in one another to a
depth. -/
def renderWithin (config : Config) (hosts : Hosts) :
    (depth : Nat) → (template : String) → List Node → Render Output
  | 0, template, nodes => Render.nodes ⟨config, hosts, template, none⟩ nodes
  | depth + 1, template, nodes =>
    Render.nodes ⟨config, hosts, template, some (renderWithin config hosts depth)⟩ nodes

/-- Renders the nodes of a template. -/
def render (config : Config) (hosts : Hosts) (template : String) (nodes : List Node) :
    Render String :=
  return (← renderWithin config hosts config.maxDepth template nodes).text

/-- Renders a source. -/
def evaluate (config : Config) (hosts : Hosts) (template source : String) : Render String := do
  match parse source with
  | .ok nodes => render config hosts template nodes
  | .error e => throw (e.inTemplate template)

end GatewayMapping.Template
