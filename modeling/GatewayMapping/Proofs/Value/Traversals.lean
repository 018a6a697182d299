import GatewayMapping.Proofs.Value.Unfolding

/-!
# Traversals with a stack

A value can be written without unfolding it first: its parts are written to the end of an output
one after the other, and the lists and maps around the current part are kept on a stack. What lies
on the stack already is cut, anything else is pushed before its first part and popped after its
last one. Its JSON form can be built in the same way. These are two traversals, each with a stack
of its own, and neither knows of a tree or of a bound on its depth.

A run of either one leaves the stack as it has found it. Hence both stand inside the same
containers at every part, they cut the same lists and maps (`Heap.Writes.converts`), and they come
to the text and the JSON form of the tree (`Heap.writes_iff`, `Heap.converts_iff`).

## Main definitions

* `Heap.Writes`: the runs that write a value to an output.
* `Heap.Converts`: the runs that build the JSON form of a value.

## Main results

* `Heap.writes_iff`, `Heap.converts_iff`: from an empty stack each traversal ends, with the text or
  the JSON form of the value and with nothing else.
* `Heap.Writes.converts`: from one stack, the two traversals cut the same lists and maps.
-/

namespace GatewayMapping

/-- What is written before a part of a list or map. -/
def separator (first : Bool) : String := if first then "" else ", "

/-- The parts of a list or map, as they are written from one of them on. -/
def separated : (first : Bool) → List String → String
  | _, [] => ""
  | first, s :: ss => separator first ++ s ++ separated false ss

namespace Tree

/-- A member as it is written. -/
def memberText (member : String × Tree) : String := member.1 ++ "=" ++ member.2.text

theorem textItems_cons_cons (t t' : Tree) (ts : List Tree) :
    textItems (t :: t' :: ts) = text t ++ ", " ++ textItems (t' :: ts) := rfl

theorem textMembers_cons_cons (key : String) (t : Tree) (m : String × Tree)
    (ms : List (String × Tree)) :
    textMembers ((key, t) :: m :: ms) = key ++ "=" ++ text t ++ ", " ++ textMembers (m :: ms) := rfl

theorem textItems_eq_separated : (ts : List Tree) → textItems ts = separated true (ts.map text)
  | [] => rfl
  | [t] => by simp [textItems, separated, separator]
  | t :: t' :: ts => by
      have hrest := textItems_eq_separated (t' :: ts)
      rw [textItems_cons_cons, hrest]
      simp [separated, separator, String.append_assoc]

theorem textMembers_eq_separated :
    (ms : List (String × Tree)) → textMembers ms = separated true (ms.map memberText)
  | [] => rfl
  | [(key, t)] => by simp [textMembers, separated, separator, memberText]
  | (key, t) :: (key', t') :: ms => by
      have hrest := textMembers_eq_separated ((key', t') :: ms)
      rw [textMembers_cons_cons, hrest]
      simp [separated, separator, memberText, String.append_assoc]

end Tree

namespace Heap

variable {h : Heap}

/-! ### Writing to an output -/

mutual
/-- A run that writes a value to the end of an output: the stack and the output before it, the
value, and the stack and the output after it. -/
inductive Writes (h : Heap) :
    List Container → String → Value → List Container → String → Prop
  | scalar {stack out v t} (ht : scalarTree? v = some t) :
      Writes h stack out v stack (out ++ t.text)
  | listAgain {stack out ref} (hopen : .list ref ∈ stack) :
      Writes h stack out (.list ref) stack (out ++ Tree.listAgainText)
  | items {stack out ref stack' out'} (hopen : .list ref ∉ stack)
      (hitems : WritesItems h true (.list ref :: stack) (out ++ "[") (h.items ref) stack' out') :
      Writes h stack out (.list ref) stack'.tail (out' ++ "]")
  | mapAgain {stack out ref} (hopen : .map ref ∈ stack) :
      Writes h stack out (.map ref) stack (out ++ Tree.mapAgainText)
  | members {stack out ref stack' out'} (hopen : .map ref ∉ stack)
      (hmembers : WritesMembers h true (.map ref :: stack) (out ++ "\x7b")
        (h.members ref).entries stack' out') :
      Writes h stack out (.map ref) stack'.tail (out' ++ "\x7d")

/-- A run that writes items in turn, the first one of a list or further ones. -/
inductive WritesItems (h : Heap) :
    Bool → List Container → String → List Value → List Container → String → Prop
  | nil {first stack out} : WritesItems h first stack out [] stack out
  | cons {first stack out v vs stack₁ out₁ stack₂ out₂}
      (hitem : Writes h stack (out ++ separator first) v stack₁ out₁)
      (hitems : WritesItems h false stack₁ out₁ vs stack₂ out₂) :
      WritesItems h first stack out (v :: vs) stack₂ out₂

/-- A run that writes members in turn, the first one of a map or further ones. -/
inductive WritesMembers (h : Heap) :
    Bool → List Container → String → Fields Value → List Container → String → Prop
  | nil {first stack out} : WritesMembers h first stack out [] stack out
  | cons {first stack out key v ms stack₁ out₁ stack₂ out₂}
      (hmember : Writes h stack (out ++ separator first ++ (key ++ "=")) v stack₁ out₁)
      (hmembers : WritesMembers h false stack₁ out₁ ms stack₂ out₂) :
      WritesMembers h first stack out ((key, v) :: ms) stack₂ out₂
end

mutual
/-- A run that writes a value leaves the stack as it was, and adds the text of the tree. -/
theorem Writes.unfolds {stack stack' : List Container} {out out' : String} {v : Value} :
    h.Writes stack out v stack' out' →
      ∃ t, h.Unfolds stack v t ∧ stack' = stack ∧ out' = out ++ t.text
  | .scalar ht => ⟨_, .scalar ht, rfl, rfl⟩
  | .listAgain hopen => ⟨_, .listAgain hopen, rfl, rfl⟩
  | .mapAgain hopen => ⟨_, .mapAgain hopen, rfl, rfl⟩
  | .items hopen hitems => by
      obtain ⟨ts, hts, hstack, hout⟩ := hitems.unfolds
      refine ⟨.list ts, .items hopen hts, congrArg List.tail hstack, ?_⟩
      rw [hout, Tree.text, Tree.textItems_eq_separated]
      simp only [String.append_assoc]
  | .members hopen hmembers => by
      obtain ⟨ms, hms, hstack, hout⟩ := hmembers.unfolds
      refine ⟨.map ms, .members hopen hms, congrArg List.tail hstack, ?_⟩
      rw [hout, Tree.text, Tree.textMembers_eq_separated]
      simp only [String.append_assoc]

theorem WritesItems.unfolds {first : Bool} {stack stack' : List Container} {out out' : String}
    {vs : List Value} : h.WritesItems first stack out vs stack' out' →
      ∃ ts, h.UnfoldsItems stack vs ts ∧ stack' = stack ∧
        out' = out ++ separated first (ts.map Tree.text)
  | .nil => ⟨[], .nil, rfl, (String.append_empty).symm⟩
  | .cons hitem hitems => by
      obtain ⟨t, ht, hstack₁, hout₁⟩ := hitem.unfolds
      obtain ⟨ts, hts, hstack₂, hout₂⟩ := hitems.unfolds
      refine ⟨t :: ts, .cons ht (hstack₁ ▸ hts), hstack₂.trans hstack₁, ?_⟩
      rw [hout₂, hout₁]
      simp only [List.map_cons, separated, String.append_assoc]

theorem WritesMembers.unfolds {first : Bool} {stack stack' : List Container}
    {out out' : String} {vs : Fields Value} : h.WritesMembers first stack out vs stack' out' →
      ∃ ms, h.UnfoldsMembers stack vs ms ∧ stack' = stack ∧
        out' = out ++ separated first (ms.map Tree.memberText)
  | .nil => ⟨[], .nil, rfl, (String.append_empty).symm⟩
  | .cons hmember hmembers => by
      obtain ⟨t, ht, hstack₁, hout₁⟩ := hmember.unfolds
      obtain ⟨ms, hms, hstack₂, hout₂⟩ := hmembers.unfolds
      refine ⟨(_, t) :: ms, .cons ht (hstack₁ ▸ hms), hstack₂.trans hstack₁, ?_⟩
      rw [hout₂, hout₁]
      simp only [List.map_cons, separated, Tree.memberText, String.append_assoc]
end

mutual
/-- A value that unfolds can be written, to any output. -/
theorem Unfolds.writes {stack : List Container} {v : Value} {t : Tree} :
    h.Unfolds stack v t → ∀ out, h.Writes stack out v stack (out ++ t.text)
  | .scalar ht, _ => .scalar ht
  | .listAgain hopen, _ => .listAgain hopen
  | .mapAgain hopen, _ => .mapAgain hopen
  | .items hopen hts, _ => by
      rw [Tree.text, Tree.textItems_eq_separated, ← String.append_assoc, ← String.append_assoc]
      exact .items hopen (hts.writes true _)
  | .members hopen hms, _ => by
      rw [Tree.text, Tree.textMembers_eq_separated, ← String.append_assoc, ← String.append_assoc]
      exact .members hopen (hms.writes true _)

theorem UnfoldsItems.writes {stack : List Container} {vs : List Value} {ts : List Tree} :
    h.UnfoldsItems stack vs ts → ∀ first out,
      h.WritesItems first stack out vs stack (out ++ separated first (ts.map Tree.text))
  | .nil, _, out => by
      rw [List.map_nil, separated, String.append_empty]
      exact .nil
  | .cons ht hts, first, out => by
      rw [List.map_cons, separated, ← String.append_assoc, ← String.append_assoc]
      exact .cons (ht.writes _) (hts.writes false _)

theorem UnfoldsMembers.writes {stack : List Container} {vs : Fields Value} {ms : Fields Tree} :
    h.UnfoldsMembers stack vs ms → ∀ first out,
      h.WritesMembers first stack out vs stack (out ++ separated first (ms.map Tree.memberText))
  | .nil, _, out => by
      rw [List.map_nil, separated, String.append_empty]
      exact .nil
  | .cons ht hms, first, out => by
      rw [List.map_cons, separated, Tree.memberText, ← String.append_assoc, ← String.append_assoc,
        ← String.append_assoc]
      exact .cons (ht.writes _) (hms.writes false _)
end

/-- **Writing a value ends with its text**, with the stack empty again, and with nothing else. -/
theorem writes_iff (h : Heap) (v : Value) (stack : List Container) (out : String) :
    h.Writes [] "" v stack out ↔ stack = [] ∧ out = h.text v := by
  constructor
  · intro hrun
    obtain ⟨t, ht, hstack, hout⟩ := hrun.unfolds
    rw [(h.unfolds_iff v t).mp ht, String.empty_append] at hout
    exact ⟨hstack, hout⟩
  · rintro ⟨rfl, rfl⟩
    have hrun := ((h.unfolds_iff v _).mpr rfl).writes ""
    rwa [String.empty_append] at hrun

/-! ### Building a document -/

mutual
/-- A run that builds the JSON form of a value: the stack before it, the value, the stack after it
and the document. -/
inductive Converts (h : Heap) : List Container → Value → List Container → Json → Prop
  | scalar {stack v t} (ht : scalarTree? v = some t) : Converts h stack v stack t.toJson
  | listAgain {stack ref} (hopen : .list ref ∈ stack) :
      Converts h stack (.list ref) stack (.string Tree.listAgainText)
  | items {stack ref stack' js} (hopen : .list ref ∉ stack)
      (hitems : ConvertsItems h (.list ref :: stack) (h.items ref) stack' js) :
      Converts h stack (.list ref) stack'.tail (.array js)
  | mapAgain {stack ref} (hopen : .map ref ∈ stack) :
      Converts h stack (.map ref) stack (.string Tree.mapAgainText)
  | members {stack ref stack' fields} (hopen : .map ref ∉ stack)
      (hmembers : ConvertsMembers h (.map ref :: stack) (h.members ref).entries stack' fields) :
      Converts h stack (.map ref) stack'.tail (.object fields)

/-- A run that builds the JSON forms of items in turn. -/
inductive ConvertsItems (h : Heap) :
    List Container → List Value → List Container → List Json → Prop
  | nil {stack} : ConvertsItems h stack [] stack []
  | cons {stack v vs stack₁ stack₂ j js} (hitem : Converts h stack v stack₁ j)
      (hitems : ConvertsItems h stack₁ vs stack₂ js) :
      ConvertsItems h stack (v :: vs) stack₂ (j :: js)

/-- A run that builds the JSON forms of members in turn. -/
inductive ConvertsMembers (h : Heap) :
    List Container → Fields Value → List Container → List (String × Json) → Prop
  | nil {stack} : ConvertsMembers h stack [] stack []
  | cons {stack key v ms stack₁ stack₂ j fields} (hmember : Converts h stack v stack₁ j)
      (hmembers : ConvertsMembers h stack₁ ms stack₂ fields) :
      ConvertsMembers h stack ((key, v) :: ms) stack₂ ((key, j) :: fields)
end

mutual
/-- A run that builds a document leaves the stack as it was, and builds the one of the tree. -/
theorem Converts.unfolds {stack stack' : List Container} {v : Value} {j : Json} :
    h.Converts stack v stack' j → ∃ t, h.Unfolds stack v t ∧ stack' = stack ∧ j = t.toJson
  | .scalar ht => ⟨_, .scalar ht, rfl, rfl⟩
  | .listAgain hopen => ⟨_, .listAgain hopen, rfl, rfl⟩
  | .mapAgain hopen => ⟨_, .mapAgain hopen, rfl, rfl⟩
  | .items hopen hitems => by
      obtain ⟨ts, hts, rfl, rfl⟩ := hitems.unfolds
      exact ⟨.list ts, .items hopen hts, rfl, rfl⟩
  | .members hopen hmembers => by
      obtain ⟨ms, hms, rfl, rfl⟩ := hmembers.unfolds
      exact ⟨.map ms, .members hopen hms, rfl, rfl⟩

theorem ConvertsItems.unfolds {stack stack' : List Container} {vs : List Value}
    {js : List Json} : h.ConvertsItems stack vs stack' js →
      ∃ ts, h.UnfoldsItems stack vs ts ∧ stack' = stack ∧ js = Tree.toJsonItems ts
  | .nil => ⟨[], .nil, rfl, rfl⟩
  | .cons hitem hitems => by
      obtain ⟨t, ht, rfl, rfl⟩ := hitem.unfolds
      obtain ⟨ts, hts, rfl, rfl⟩ := hitems.unfolds
      exact ⟨t :: ts, .cons ht hts, rfl, rfl⟩

theorem ConvertsMembers.unfolds {stack stack' : List Container} {vs : Fields Value}
    {fields : List (String × Json)} : h.ConvertsMembers stack vs stack' fields →
      ∃ ms, h.UnfoldsMembers stack vs ms ∧ stack' = stack ∧ fields = Tree.toJsonMembers ms
  | .nil => ⟨[], .nil, rfl, rfl⟩
  | .cons hmember hmembers => by
      obtain ⟨t, ht, rfl, rfl⟩ := hmember.unfolds
      obtain ⟨ms, hms, rfl, rfl⟩ := hmembers.unfolds
      exact ⟨(_, t) :: ms, .cons ht hms, rfl, rfl⟩
end

mutual
/-- The JSON form of a value that unfolds can be built. -/
theorem Unfolds.converts {stack : List Container} {v : Value} {t : Tree} :
    h.Unfolds stack v t → h.Converts stack v stack t.toJson
  | .scalar ht => .scalar ht
  | .listAgain hopen => .listAgain hopen
  | .mapAgain hopen => .mapAgain hopen
  | .items hopen hts => .items hopen hts.converts
  | .members hopen hms => .members hopen hms.converts

theorem UnfoldsItems.converts {stack : List Container} {vs : List Value} {ts : List Tree} :
    h.UnfoldsItems stack vs ts → h.ConvertsItems stack vs stack (Tree.toJsonItems ts)
  | .nil => .nil
  | .cons ht hts => .cons ht.converts hts.converts

theorem UnfoldsMembers.converts {stack : List Container} {vs : Fields Value}
    {ms : Fields Tree} :
    h.UnfoldsMembers stack vs ms → h.ConvertsMembers stack vs stack (Tree.toJsonMembers ms)
  | .nil => .nil
  | .cons ht hms => .cons ht.converts hms.converts
end

/-- **Building the document of a value ends with its JSON form**, with the stack empty again, and
with nothing else. -/
theorem converts_iff (h : Heap) (v : Value) (stack : List Container) (j : Json) :
    h.Converts [] v stack j ↔ stack = [] ∧ j = h.toJson v := by
  constructor
  · intro hrun
    obtain ⟨t, ht, hstack, hj⟩ := hrun.unfolds
    rw [(h.unfolds_iff v t).mp ht] at hj
    exact ⟨hstack, hj⟩
  · rintro ⟨rfl, rfl⟩
    exact ((h.unfolds_iff v _).mpr rfl).converts

/-! ### Both traversals -/

/-- **The two traversals cut the same lists and maps.** From one stack, a run that writes a value
and a run that builds its JSON form go along one tree, and both leave the stack as it was. -/
theorem Writes.converts {stack stack₁ stack₂ : List Container} {out out' : String} {v : Value}
    {j : Json} (hwrites : h.Writes stack out v stack₁ out')
    (hconverts : h.Converts stack v stack₂ j) :
    ∃ t, h.Unfolds stack v t ∧ stack₁ = stack ∧ stack₂ = stack ∧ out' = out ++ t.text ∧
      j = t.toJson := by
  obtain ⟨t, ht, hstack₁, hout⟩ := hwrites.unfolds
  obtain ⟨t', ht', hstack₂, hj⟩ := hconverts.unfolds
  obtain rfl := ht.unique ht'
  exact ⟨t, ht, hstack₁, hstack₂, hout, hj⟩

end Heap
end GatewayMapping
