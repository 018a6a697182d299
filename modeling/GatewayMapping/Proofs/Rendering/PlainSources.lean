import Mathlib
import GatewayMapping.Proofs.Rendering.Quoting
import GatewayMapping.Proofs.Rendering.Refinement

/-!
# Sources of texts and references

Without `#` there are no directives in a source, and without backslashes every character of it
stands for itself. Such a source is read as texts and references, and no character is lost: the
texts and the literals of the references are the source (`parse_keeps_characters`). A reference may
hold anything in its brackets, so this rests on its literal being all that its reader has taken.

Where no variable is bound and references are not strict, a reference renders its literal or, if it
is quiet, nothing, so the source renders as itself without its quiet references.

## Main definitions

* `Node.IsPlain`: texts and references.
* `Node.written`: what they were read from.

## Main results

* `parse_keeps_characters`: the nodes of such a source, and what they render.
-/

namespace GatewayMapping.Template

open Grammar
open Read (bind_eq_ok_iff)

/-! ### What nodes were read from -/

/-- A text, or a reference that is quiet exactly if an exclamation mark stands after its `$`. -/
inductive Node.IsPlain : Node → Prop
  | text (s : String) : IsPlain (.text s)
  | reference {r : Reference} (hquiet : r.quiet = true ↔ ['$', '!'] <+: r.literal.toList) :
      IsPlain (.reference r)

/-- The characters that a text or a reference was read from. -/
def Node.written : Node → List Char
  | .text s => s.toList
  | .reference r => r.literal.toList
  | _ => []

/-- Whether a node is a quiet reference. -/
def Node.isQuiet : Node → Bool
  | .reference r => r.quiet
  | _ => false

/-- The nodes are plain and were read from the characters. -/
structure Keeps (ns : List Node) (cs : List Char) : Prop where
  plain : ∀ n ∈ ns, n.IsPlain
  written : ns.flatMap Node.written = cs

namespace Draft

variable {d : Draft} {front : List Char}

theorem written_finish (d : Draft) :
    d.finish.flatMap Node.written = d.nodes.reverse.flatMap Node.written ++ d.text.reverse := by
  rw [finish, closed]
  split
  · next hnil => rw [List.isEmpty_iff.mp hnil, List.reverse_nil, List.append_nil]
  · rw [List.reverse_cons, List.flatMap_append, List.flatMap_singleton, Node.written,
      String.toList_ofList]

theorem keeps_empty : Keeps Draft.empty.finish [] := ⟨nofun, rfl⟩

theorem keeps_push (h : Keeps d.finish front) (c : Char) :
    Keeps (d.push c).finish (front ++ [c]) := by
  have hnodes : ∀ n ∈ d.nodes, n.IsPlain := fun n hn => h.plain n <| by
    rw [finish, closed]
    split
    · exact List.mem_reverse.mpr hn
    · exact List.mem_reverse.mpr (List.mem_cons_of_mem _ hn)
  constructor
  · intro n hn
    rcases List.mem_cons.mp (List.mem_reverse.mp hn) with rfl | hn
    · exact .text _
    · exact hnodes n hn
  · rw [written_finish]
    change d.nodes.reverse.flatMap Node.written ++ (c :: d.text).reverse = front ++ [c]
    rw [List.reverse_cons, ← List.append_assoc, ← written_finish, h.written]

theorem keeps_add (h : Keeps d.finish front) {node : Node} (hnode : node.IsPlain) :
    Keeps (d.add node).finish (front ++ node.written) := by
  have hfinish : (d.add node).finish = d.finish ++ [node] := List.reverse_cons
  rw [hfinish]
  constructor
  · intro n hn
    rcases List.mem_append.mp hn with hn | hn
    · exact h.plain n hn
    · rwa [List.mem_singleton.mp hn]
  · rw [List.flatMap_append, List.flatMap_singleton, h.written]

end Draft

/-! ### Reading -/

/-- The characters up to a later cursor are those that it no longer has. -/
theorem Cursor.upTo_append {cur later : Cursor} (h : later.rest <:+ cur.rest) :
    cur.upTo later ++ later.rest = cur.rest := by
  obtain ⟨taken, htaken⟩ := h
  rw [upTo, ← htaken, List.length_append, Nat.add_sub_cancel, List.take_left]

theorem quiet_of_sigil? {cs : List Char} {s : Sigil} (h : sigil? cs = some s) :
    s.quiet = true ↔ cs.head? = some '!' := by
  obtain ⟨-, h⟩ := Option.ite_none_right_eq_some.mp h
  cases h
  exact decide_eq_true_iff

section

variable {inner : Inner} (hinner : inner.Shrinks) {cur cur' : Cursor}
include hinner

/-- A reference records what its reader has taken, which is its sigil at least. -/
theorem referenceAfter_literal {s : Sigil} {r : Reference}
    (h : referenceAfter inner s cur = .ok (r, cur')) :
    r.literal = String.ofList (cur.upTo cur') ∧ r.quiet = s.quiet ∧
      cur'.rest <:+ cur.rest.drop s.length := by
  obtain ⟨_, _, ⟨⟩, h⟩ := bind_eq_ok_iff.mp h
  obtain ⟨_, _, ⟨⟩, h⟩ := bind_eq_ok_iff.mp h
  obtain ⟨name, cur₁, hname, h⟩ := bind_eq_ok_iff.mp h
  obtain ⟨path, cur₂, hpath, h⟩ := bind_eq_ok_iff.mp h
  have hleft : cur₂.rest <:+ cur.rest.drop s.length := by
    rw [← Cursor.rest_skip]
    exact (segments_shrinks hinner _ _ _ _ hpath).trans (Read.Shrinks.name _ _ _ hname)
  split at h
  · obtain ⟨_, cur₃, hclose, h⟩ := bind_eq_ok_iff.mp h
    cases h
    exact ⟨rfl, rfl, (Read.Shrinks.char _ _ _ _ _ hclose).trans hleft⟩
  · cases h
    exact ⟨rfl, rfl, hleft⟩

/-- The literal of a reference is what stands before what it leaves. -/
theorem reference?_keeps {tail : List Char} (hcur : cur.rest = '$' :: tail) {r : Reference}
    (h : reference? inner cur = .ok (some r, cur')) :
    r.literal.toList ++ cur'.rest = cur.rest ∧ Node.IsPlain (.reference r) := by
  obtain ⟨_, _, ⟨⟩, h⟩ := bind_eq_ok_iff.mp h
  rw [hcur, List.tail_cons] at h
  cases hsigil : sigil? tail with
  | none =>
    rw [hsigil] at h
    cases h
  | some s =>
    rw [hsigil] at h
    obtain ⟨_, _, hr, h⟩ := bind_eq_ok_iff.mp h
    cases h
    obtain ⟨hliteral, hquiet, hleft⟩ := referenceAfter_literal hinner hr
    have hkept : r.literal.toList ++ cur'.rest = cur.rest := by
      rw [hliteral, String.toList_ofList]
      exact Cursor.upTo_append (hleft.trans (List.drop_suffix _ _))
    refine ⟨hkept, .reference ?_⟩
    have hprefix : r.literal.toList <+: '$' :: tail := ⟨cur'.rest, hkept.trans hcur⟩
    rw [hquiet, quiet_of_sigil? hsigil]
    constructor
    · intro hmark
      obtain ⟨rest, rfl⟩ := List.head?_eq_some_iff.mp hmark
      -- The literal is at least as long as its sigil, of which the mark is a part.
      have hlength : 2 ≤ s.length := by
        rw [Sigil.length, (quiet_of_sigil? hsigil).mpr hmark]
        exact Nat.le_add_right 2 _
      have hle := hleft.length_le
      have hsum := congrArg List.length hkept
      rw [List.length_drop] at hle
      rw [List.length_append] at hsum
      rw [hcur, List.length_cons, List.length_cons] at hle hsum
      refine List.prefix_of_prefix_length_le ⟨rest, rfl⟩ hprefix ?_
      change 2 ≤ _
      omega
    · intro hmark
      obtain ⟨rest, hrest⟩ := hmark.trans hprefix
      rw [← (List.cons.inj hrest).2]
      rfl

/-- A part of a block adds to the draft what it takes, and the block ends where nothing is left. -/
theorem step_keeps {d : Draft} {front : List Char} (hd : Keeps d.finish front) {s : Grammar.Step}
    (hcs : ∀ c ∈ cur.rest, c ≠ '\\' ∧ c ≠ '#') (h : step inner d cur = .ok (s, cur')) :
    (cur.rest = [] ∧ s = .done ⟨d.finish, .endOfText⟩) ∨
      ∃ d' taken, s = .goOn d' ∧ taken ++ cur'.rest = cur.rest ∧
        Keeps d'.finish (front ++ taken) := by
  obtain ⟨_, _, ⟨⟩, h⟩ := bind_eq_ok_iff.mp h
  have hpush {c : Char} (hhead : cur.rest.head? = some c) :
      [c] ++ (cur.skip 1).rest = cur.rest ∧ Keeps (d.push c).finish (front ++ [c]) := by
    obtain ⟨tail, hrest⟩ := List.head?_eq_some_iff.mp hhead
    refine ⟨?_, Draft.keeps_push hd c⟩
    rw [Cursor.rest_skip, hrest]
    rfl
  generalize hhead : cur.rest.head? = c? at h
  split at h
  · cases h
    exact .inl ⟨List.head?_eq_none_iff.mp hhead, rfl⟩
  · exact absurd rfl (hcs _ (List.mem_of_head? hhead)).1
  · obtain ⟨r?, cur₁, hr, h⟩ := bind_eq_ok_iff.mp h
    cases r? with
    | some r =>
      cases h
      obtain ⟨tail, hrest⟩ := List.head?_eq_some_iff.mp hhead
      obtain ⟨hkept, hplain⟩ := reference?_keeps hinner hrest hr
      exact .inr ⟨_, _, rfl, hkept, Draft.keeps_add hd hplain⟩
    | none =>
      cases h
      obtain rfl := reference?_none hr
      exact .inr ⟨_, _, rfl, hpush hhead⟩
  · exact absurd rfl (hcs _ (List.mem_of_head? hhead)).2
  · cases h
    exact .inr ⟨_, _, rfl, hpush hhead⟩

/-- A block adds to the draft all that is left, and ends with the text. -/
theorem blockFrom_keeps : (limit : Nat) → {d : Draft} → {front : List Char} → {cur : Cursor} →
    {b : Block} → {cur' : Cursor} → Keeps d.finish front → cur.rest.length ≤ limit →
    (∀ c ∈ cur.rest, c ≠ '\\' ∧ c ≠ '#') → blockFrom inner limit d cur = .ok (b, cur') →
      b.ending = .endOfText ∧ Keeps b.nodes (front ++ cur.rest)
  | 0, _, front, cur, _, _, hd, hlimit, _, h => by
      cases h
      rw [List.eq_nil_of_length_eq_zero (Nat.le_zero.mp hlimit), List.append_nil]
      exact ⟨rfl, hd⟩
  | limit + 1, d, front, cur, b, cur', hd, hlimit, hcs, h => by
      obtain ⟨s, cur₁, hstep, h⟩ := bind_eq_ok_iff.mp h
      rcases step_keeps hinner hd hcs hstep with ⟨hnil, rfl⟩ | ⟨d', taken, rfl, htaken, hd'⟩
      · cases h
        rw [hnil, List.append_nil]
        exact ⟨rfl, hd⟩
      · have htakes := step_takes hinner d cur _ cur₁ hstep trivial
        have hcs₁ : ∀ c ∈ cur₁.rest, c ≠ '\\' ∧ c ≠ '#' := fun c hc =>
          hcs c (htaken ▸ List.mem_append_right taken hc)
        rw [← htaken, ← List.append_assoc]
        exact blockFrom_keeps limit hd' (by omega) hcs₁ h

end

/-- A source without backslashes and `#` is read as texts and references, and no character is
lost. -/
theorem keeps_of_parse {source : String} {ns : List Node}
    (hsource : ∀ c ∈ source.toList, c ≠ '\\' ∧ c ≠ '#') (h : parse source = .ok ns) :
    Keeps ns source.toList := by
  rw [parse_eq_nodesAt, nodesAt_agree (Nat.le_refl _) (Nat.le_succ _), nodesAt, StateT.run] at h
  cases hblock : (Inner.upTo (source.toList.length + 1)).block (.ofChars source.toList .start) with
  | error e =>
    rw [hblock] at h
    cases h
  | ok p =>
    rw [hblock] at h
    obtain ⟨⟨nodes, ending⟩, cur'⟩ := p
    have hlimit : (Cursor.ofChars source.toList .start).rest.length ≤
        (Inner.upTo source.toList.length).limit + 1 := by
      rw [Inner.limit_upTo]
      exact Nat.le_succ _
    obtain ⟨hending, hkeeps⟩ :=
      blockFrom_keeps (Inner.upTo_shrinks _) _ Draft.keeps_empty hlimit hsource hblock
    obtain rfl : ending = .endOfText := hending
    cases h
    exact hkeeps

/-! ### Rendering without variables -/

namespace Render

variable {scene : Scene} (hstrict : scene.config.strict = false)
include hstrict

/-- From null, a path leads to null. -/
theorem walk_null (r : Reference) : (ss : List Segment) → (path : String) →
    walk scene r ss .null path = (return (.null, path) : Render (Value × String))
  | [], path => by rw [walk]
  | s :: ss, path => by
      have hnull (member : Member) :
          onNull scene r path member = (return (.null, path) : Render (Value × String)) := by
        rw [onNull, hstrict]
        rfl
      have hstep : step scene r s .null path = (return (.null, path) : Render _) := by
        cases s <;> exact hnull _
      rw [walk, hstep, pure_bind]
      exact walk_null r ss path

/-- A reference whose variable is not bound is null. -/
theorem succeeds_reference_of_unbound {st : State} {r : Reference}
    (hr : st.scope.get? r.name = none) : Succeeds (reference scene r) st .null st := by
  obtain ⟨name, segments, quiet, literal, position⟩ := r
  have hlookup : Succeeds (lookup? name) st none st := by
    rw [← hr]
    rfl
  have hroot : Succeeds (root scene (.mk name segments quiet literal position)) st .null st := by
    refine succeeds_bind_iff.mpr ⟨_, _, hlookup, ?_⟩
    dsimp only
    rw [hstrict]
    rfl
  rw [reference]
  refine succeeds_bind_iff.mpr ⟨_, _, hroot, ?_⟩
  rw [walk_null hstrict]
  rfl

theorem succeeds_node_of_unbound {st : State} (hunbound : ∀ name, st.scope.get? name = none)
    {n : Node} (hn : n.IsPlain) :
    Succeeds (node scene n) st (.ofText (if n.isQuiet then "" else String.ofList n.written))
      st := by
  cases hn with
  | text s =>
    rw [node]
    change _ = (Except.ok (Output.ofText (String.ofList s.toList)), st)
    rw [String.ofList_toList]
    rfl
  | @reference r hquiet =>
    rw [node, Node.isQuiet, Node.written, String.ofList_toList]
    exact succeeds_bind_iff.mpr
      ⟨_, _, succeeds_reference_of_unbound hstrict (hunbound r.name), rfl⟩

/-- Plain nodes render what they were read from, without the quiet references. -/
theorem succeeds_nodes_of_unbound {st : State} (hunbound : ∀ name, st.scope.get? name = none) :
    {ns : List Node} → (∀ n ∈ ns, n.IsPlain) → Succeeds (nodes scene ns) st
      (.ofText (String.ofList ((ns.filter fun n => !n.isQuiet).flatMap Node.written))) st
  | [], _ => rfl
  | n :: ns, h => by
      obtain ⟨hn, hns⟩ := List.forall_mem_cons.mp h
      have hnode := succeeds_node_of_unbound hstrict hunbound hn
      have hrest := succeeds_nodes_of_unbound hunbound hns
      have htext : (if n.isQuiet then "" else String.ofList n.written) ++
          String.ofList ((ns.filter fun n => !n.isQuiet).flatMap Node.written) =
            String.ofList (((n :: ns).filter fun n => !n.isQuiet).flatMap Node.written) := by
        cases hquiet : n.isQuiet <;> simp [hquiet, String.ofList_append]
      rw [nodes, ← htext]
      exact succeeds_bind_iff.mpr ⟨_, _, hnode, succeeds_bind_iff.mpr ⟨_, _, hrest, rfl⟩⟩

end Render

/-- **The parser loses no characters.** A source without backslashes and `#` is read as texts and
references alone, and their texts and literals in order are the source. Where references are not
strict and no variable is bound, it renders as itself without its quiet references, from any heap
and with any host objects, and changes nothing. -/
theorem parse_keeps_characters {source : String} {ns : List Node}
    (hsource : ∀ c ∈ source.toList, c ≠ '\\' ∧ c ≠ '#') (h : parse source = .ok ns) :
    (∀ n ∈ ns, n.IsPlain) ∧ String.ofList (ns.flatMap Node.written) = source ∧
      ∀ (config : Config) (hosts : Hosts) (template : String) (heap : Heap),
        config.strict = false →
          (evaluate config hosts template source).run.run ⟨heap, .empty⟩ =
            (.ok (String.ofList ((ns.filter fun n => !n.isQuiet).flatMap Node.written)),
              ⟨heap, .empty⟩) := by
  obtain ⟨hplain, hwritten⟩ := keeps_of_parse hsource h
  refine ⟨hplain, ?_, fun config hosts template heap hstrict => ?_⟩
  · rw [hwritten, String.ofList_toList]
  · obtain ⟨scene, rfl, hscene⟩ := renderWithin_eq_nodes config hosts config.maxDepth template
    have hunbound (name : String) : (State.mk heap .empty).scope.get? name = none := rfl
    have hnodes := Render.succeeds_nodes_of_unbound hstrict hunbound hplain
    rw [evaluate, h]
    change (render scene.config hosts template ns).run.run _ = _
    rw [render, hscene]
    exact Render.succeeds_bind_iff.mpr ⟨_, _, hnodes, rfl⟩

/-- A `$` that begins nothing, and a quiet reference with a `$` and braces inside its quotes. -/
theorem parse_keeps_characters_quiet :
    let source := "$5 $!\x7bx.m('$y')[\"$z\x7d\"]\x7d $b.c!"
    let z : Reference := .mk "z" [] false "$z" ⟨1, 18⟩
    let x : Reference := .mk "x"
      [.method "m" [.string "$y"], .index (.interpolated [.reference z, .text "\x7d"])] true
      "$!\x7bx.m('$y')[\"$z\x7d\"]\x7d" ⟨1, 4⟩
    let b : Reference := .mk "b" [.property "c"] false "$b.c" ⟨1, 25⟩
    let ns : List Node := [.text "$5 ", .reference x, .text " ", .reference b, .text "!"]
    let config : Config := { strict := false }
    (∀ c ∈ source.toList, c ≠ '\\' ∧ c ≠ '#') ∧ parse source = .ok ns ∧ config.strict = false ∧
      (∀ n ∈ ns, n.IsPlain) ∧ String.ofList (ns.flatMap Node.written) = source ∧
      (evaluate config [] "t" source).run.run ⟨.empty, .empty⟩ =
        (.ok "$5  $b.c!", ⟨.empty, .empty⟩) := by
  intro source z x b ns config
  have hsource : ∀ c ∈ source.toList, c ≠ '\\' ∧ c ≠ '#' := by simp [source]
  have hparse : parse source = .ok ns := by cbv
  have hvisible : String.ofList ((ns.filter fun n => !n.isQuiet).flatMap Node.written) =
      "$5  $b.c!" := by decide +kernel
  obtain ⟨hplain, hwritten, hrender⟩ := parse_keeps_characters hsource hparse
  exact ⟨hsource, hparse, rfl, hplain, hwritten, hvisible ▸ hrender config [] "t" .empty rfl⟩

end GatewayMapping.Template
