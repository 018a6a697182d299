import GatewayMapping.JsonPath.Basic

/-!
# Paths as texts

A path is written with every step in brackets, two dots before a step that is taken from every
place below, and its function at the end. Names and strings stand in single quotes with a
backslash before each backslash and each single quote. In filters every sign of two operands has
a blank on either side, and parentheses stand only where the levels of the signs ask for them:
negation is tighter than `&&` and `&&` than `||`, and signs of one level group to the left.

`Step.IsPlain` are the steps that have such a text. Regular expressions, doubles, arrays and
objects as constants, and unions of fewer than two members are left out.

## Main definitions

* `Route.allSteps`: the steps of a path with the union at its end as a step.
* `stepsText`, `functionText`: the texts of steps and of a function after them.
* `PlainSteps`: the steps with such a text.
-/

namespace GatewayMapping.JsonPath

/-! ### Steps with the union at their end -/

namespace Route

/-- The steps of a path, of which the last may be a union of names. -/
def allSteps (r : Route) : List Step :=
  r.steps ++ (r.union.map fun names => Step.mk false (.names names)).toList

@[simp] theorem allSteps_ofSteps (ss : List Step) (fn : Option Function) :
    (ofSteps ss fn).allSteps = ss := by
  unfold ofSteps
  split
  · next names hlast =>
    obtain ⟨before, rfl⟩ := List.getLast?_eq_some_iff.mp hlast
    simp [allSteps, steps, union]
  · simp [allSteps, steps, union]

@[simp] theorem function_ofSteps (ss : List Step) (fn : Option Function) :
    (ofSteps ss fn).function = fn := by
  unfold ofSteps
  split <;> rfl

end Route

/-! ### Signs -/

/-- The sign of a comparison. -/
def CompareOp.sign : CompareOp → List Char
  | .eq => ['=', '=']
  | .ne => ['!', '=']
  | .lt => ['<']
  | .le => ['<', '=']
  | .gt => ['>']
  | .ge => ['>', '=']

/-- What joins two conditions. -/
inductive Connective where
  | or
  | and
  deriving DecidableEq, Repr

namespace Connective

/-- The sign between two conditions. -/
def sign : Connective → List Char
  | or => ['|', '|']
  | and => ['&', '&']

/-- The condition that two conditions are joined to. -/
def join : Connective → Filter → Filter → Filter
  | or => .or
  | and => .and

/-- The level of a sign, the looser one first. -/
def level : Connective → Nat
  | or => 0
  | and => 1

end Connective

/-- The level of the outermost sign of a condition; conditions that are not joined are tighter than
all signs between conditions. -/
def Filter.level : Filter → Nat
  | .or _ _ => Connective.or.level
  | .and _ _ => Connective.and.level
  | _ => 2

/-! ### Texts -/

/-- A text with a backslash before each backslash and each single quote. -/
def escaped : List Char → List Char
  | [] => []
  | c :: cs => if c = '\\' ∨ c = '\'' then '\\' :: c :: escaped cs else c :: escaped cs

/-- A text in single quotes. -/
def quotedText (s : String) : List Char := '\'' :: (escaped s.toList ++ ['\''])

/-- A whole number in decimal digits. -/
def integerText (i : Int64) : List Char := (toString i.toInt).toList

/-- A bound of a slice, which may be missing. -/
def boundText : Option Int64 → List Char
  | none => []
  | some i => integerText i

/-- Names with commas between them. -/
def namesText (names : List String) : List Char := [','].intercalate (names.map quotedText)

/-- A function after the steps, if there is one. -/
def functionText : Option Function → List Char
  | none => []
  | some f => '.' :: (f.name.toList ++ ['(', ')'])

/-- A constant; documents that are no plain constants have no text. -/
def constantText : Json → List Char
  | .null => ['n', 'u', 'l', 'l']
  | .bool true => ['t', 'r', 'u', 'e']
  | .bool false => ['f', 'a', 'l', 's', 'e']
  | .int n => (toString n).toList
  | .string s => quotedText s
  | _ => []

/-- The text of a condition of one level where another level is asked for: in parentheses if it is
too loose. -/
def atLevel (asked level : Nat) (cs : List Char) : List Char :=
  if level < asked then '(' :: (cs ++ [')']) else cs

/-- Two texts with a sign between blanks between them. -/
def around (sign left right : List Char) : List Char := left ++ ' ' :: (sign ++ ' ' :: right)

mutual

/-- What stands between the brackets of a step. -/
def Selector.text : Selector → List Char
  | .name name => quotedText name
  | .names names => namesText names
  | .wildcard => ['*']
  | .index i => integerText i
  | .indexes is => [','].intercalate (is.map integerText)
  | .slice first last => boundText first ++ ':' :: boundText last
  | .filter f => '?' :: '(' :: (f.text ++ [')'])

/-- A step in brackets. -/
def Step.text : Step → List Char
  | .mk deep selector => (if deep then ['.', '.'] else []) ++ '[' :: (selector.text ++ [']'])

/-- Steps one after the other. -/
def stepsText : List Step → List Char
  | [] => []
  | s :: ss => s.text ++ stepsText ss

/-- A path after its first sign. -/
def Route.text : Route → List Char
  | .mk steps none function => stepsText steps ++ functionText function
  | .mk steps (some names) function =>
    stepsText steps ++ ('[' :: (namesText names ++ [']']) ++ functionText function)

/-- An operand of a comparison. -/
def Operand.text : Operand → List Char
  | .path fromRoot route => (if fromRoot then '$' else '@') :: route.text
  | .literal j => constantText j
  | .pattern _ => []

/-- A condition. -/
def Filter.text : Filter → List Char
  | .or f g =>
    around Connective.or.sign (atLevel Connective.or.level f.level f.text)
      (atLevel (Connective.or.level + 1) g.level g.text)
  | .and f g =>
    around Connective.and.sign (atLevel Connective.and.level f.level f.text)
      (atLevel (Connective.and.level + 1) g.level g.text)
  | .not f => '!' :: atLevel 2 f.level f.text
  | .present operand => operand.text
  | .compare left op right => around op.sign left.text right.text
  | .matched _ _ => []

end

/-! ### What can be written -/

/-- Whether an operand is a path. -/
def Operand.isPath : Operand → Bool
  | .path _ _ => true
  | _ => false

/-- A constant that a filter compares with: a string, a whole number that 64 bits hold with a sign
or without, a truth value or nothing. -/
def IsPlainConstant : Json → Prop
  | .null | .bool _ | .string _ => True
  | .int n => -9223372036854775808 ≤ n ∧ n < 18446744073709551616
  | _ => False

mutual

/-- A selector whose unions have two members or more and whose filter is plain. -/
def Selector.IsPlain : Selector → Prop
  | .names names => 2 ≤ names.length
  | .indexes is => 2 ≤ is.length
  | .filter f => f.IsPlain
  | .name _ | .wildcard | .index _ | .slice _ _ => True

/-- A step with a plain selector. -/
def Step.IsPlain : Step → Prop
  | .mk _ selector => selector.IsPlain

/-- Steps that are all plain. -/
def PlainSteps : List Step → Prop
  | [] => True
  | s :: ss => s.IsPlain ∧ PlainSteps ss

/-- A path of plain steps, with the union at its end apart from them. -/
def Route.IsPlain : Route → Prop
  | .mk steps union function =>
    PlainSteps steps ∧ (∀ names, union = some names → 2 ≤ names.length) ∧
      Route.mk steps union function = .ofSteps (Route.mk steps union function).allSteps function

/-- A plain path or a plain constant. -/
def Operand.IsPlain : Operand → Prop
  | .path _ route => route.IsPlain
  | .literal j => IsPlainConstant j
  | .pattern _ => False

/-- A condition without regular expressions that asks for the presence of paths only. -/
def Filter.IsPlain : Filter → Prop
  | .or f g => f.IsPlain ∧ g.IsPlain
  | .and f g => f.IsPlain ∧ g.IsPlain
  | .not f => f.IsPlain
  | .present operand => operand.isPath = true ∧ operand.IsPlain
  | .compare left _ right => left.IsPlain ∧ right.IsPlain
  | .matched _ _ => False

end

/-! ### Texts of paths -/

theorem plainSteps_append {ss ss' : List Step} :
    PlainSteps (ss ++ ss') ↔ PlainSteps ss ∧ PlainSteps ss' := by
  induction ss with
  | nil => simp [PlainSteps]
  | cons s ss ih => rw [List.cons_append, PlainSteps, PlainSteps, ih, and_assoc]

theorem stepsText_append (ss ss' : List Step) :
    stepsText (ss ++ ss') = stepsText ss ++ stepsText ss' := by
  induction ss with
  | nil => rfl
  | cons s ss ih => rw [List.cons_append, stepsText, stepsText, ih, List.append_assoc]

/-- The union at the end of a path is written like a step. -/
theorem Route.text_eq (r : Route) : r.text = stepsText r.allSteps ++ functionText r.function := by
  obtain ⟨steps, union, fn⟩ := r
  cases union with
  | none => simp [Route.text, allSteps, Route.steps, Route.union, Route.function]
  | some names =>
    simp [Route.text, allSteps, Route.steps, Route.union, Route.function, stepsText_append,
      stepsText, Step.text, Selector.text]

/-- Plain steps are the steps of a plain path. -/
theorem Route.isPlain_ofSteps {ss : List Step} (h : PlainSteps ss) (fn : Option Function) :
    (ofSteps ss fn).IsPlain := by
  have hself : ofSteps ss fn = ofSteps (ofSteps ss fn).allSteps fn := by rw [allSteps_ofSteps]
  revert hself
  unfold ofSteps
  split
  · next names hlast =>
    intro hself
    obtain ⟨before, rfl⟩ := List.getLast?_eq_some_iff.mp hlast
    obtain ⟨hbefore, hunion, -⟩ := plainSteps_append.mp h
    rw [List.dropLast_concat] at hself ⊢
    exact ⟨hbefore, fun _ heq => Option.some.inj heq ▸ hunion, hself⟩
  · intro hself
    exact ⟨h, nofun, hself⟩

theorem Route.IsPlain.eq_ofSteps {r : Route} (h : r.IsPlain) :
    r = ofSteps r.allSteps r.function := by
  obtain ⟨steps, union, fn⟩ := r
  exact h.2.2

end GatewayMapping.JsonPath
