import Mathlib
import GatewayMapping.Proofs.Printing.ExpressionRoundTrip
import GatewayMapping.Proofs.Printing.NodesReading

/-!
# Nodes are read back from what is printed for them

What is printed for a normal list of nodes is read as these nodes, their places apart. Texts,
references and directives may stand beside one another in any order, and blocks may be nested to
any depth: the proof goes along the way in which the text is put together, with one fact for each
kind of node.

## Main results

* `parse_printed`: a source that is printed for normal nodes is read as these nodes.
-/

namespace GatewayMapping.Template

open Read (Yields)
open Grammar

variable {lit : String → String} {cs : List Char}

/-! ### Beginnings of nodes -/

theorem BeginsNode.append (h : BeginsNode cs) (ds : List Char) : BeginsNode (cs ++ ds) := by
  obtain ⟨c, rest, rfl, hc⟩ := h
  exact ⟨c, rest ++ ds, rfl, hc⟩

theorem PrintedNode.begins {node cs} : PrintedNode lit node cs → BeginsNode cs
  | .reference hr =>
      have ⟨_, _, hcs⟩ := hr.braced
      ⟨'$', _, hcs, rfl⟩
  | .assign _ _ => Directive.begins_withArguments _ _
  | .conditional _ _ _ => (Directive.begins_withArguments _ _).append _
  | .forEach _ _ _ => (Directive.begins_withArguments _ _).append _
  | .leave => Directive.begins_bare _
  | .stop => Directive.begins_bare _
  | .parse _ => Directive.begins_withArguments _ _
  | .insert _ => Directive.begins_withArguments _ _

/-- What follows a text of a normal block is nothing or the beginning of another kind of node. -/
theorem PrintedNodes.begins {followed ns cs} : PrintedNodes lit followed ns cs →
    (∀ t, ns.head? ≠ some (.text t)) → if ns.isEmpty then cs = [] else BeginsNode cs
  | .nil, _ => rfl
  | .text _, h => absurd rfl (h _)
  | .cons hn _, _ => hn.begins.append _

theorem normal_conditional {branches : List (Expr × List Node)} {otherwise : Option (List Node)}
    {position : Position} (h : (Node.conditional branches otherwise position).Normal) :
    NormalBranches branches ∧ ∀ ns, otherwise = some ns → NormalNodes ns := by
  cases otherwise with
  | none => exact ⟨h.2, nofun⟩
  | some ns =>
    refine ⟨h.2.1, ?_⟩
    rintro _ ⟨⟩
    exact h.2.2

/-! ### Along the nodes -/

mutual

theorem PrintedNode.reads {node cs} : PrintedNode lit node cs → node.Normal → ReadsNode lit node cs
  | .reference hr, _ => .reference hr
  | .assign ht hv, _ => .assign ht hv
  | .conditional hc hns hrest, h =>
      have ⟨hbranches, hotherwise⟩ := normal_conditional h
      .conditional hc (hns.reads hbranches.1) (hrest.reads hbranches.2 hotherwise)
  | .forEach hname hi hns, h => .forEach hname hi (hns.reads h)
  | .leave, _ => .leave
  | .stop, _ => .stop
  | .parse hn, _ => .parse hn
  | .insert hn, _ => .insert hn

theorem PrintedNodes.reads {followed ns cs} :
    PrintedNodes lit followed ns cs → NormalNodes ns → ReadsNodes lit followed ns cs
  | .nil, _ => .nil
  | .text hns, ⟨htext, _, h⟩ =>
      have ⟨hs, hhead⟩ := htext _ rfl
      .text hs hhead (hns.begins hhead) (hns.reads h)
  | .cons hn hns, ⟨_, hnode, h⟩ => .cons (hn.reads hnode) (hns.reads h)

theorem PrintedRest.reads {branches otherwise cs} : PrintedRest lit branches otherwise cs →
    NormalBranches branches → (∀ ns, otherwise = some ns → NormalNodes ns) →
      ReadsRest lit branches otherwise cs
  | .finish, _, _ => .finish
  | .otherwise hns, _, h => .otherwise (hns.reads (h _ rfl))
  | .elseIf hc hns hrest, ⟨hbranch, hbranches⟩, h =>
      .elseIf hc (hns.reads hbranch) (hrest.reads hbranches h)

end

/-! ### The round trip -/

/-- The texts of a plain expression are texts of it as an argument, literals apart. -/
theorem WrittenAfterBlanks.argumentText {e : Expr} (h : WrittenAfterBlanks e cs) :
    ArgumentText noLiteral e cs := by
  have hfollows : Follows 0 [')'] := .close (by simp)
  obtain ⟨e', cur', hread, he', hrest⟩ :=
    (h.reads.reads (Nat.le_succ _) hfollows).1 (.ofChars (cs ++ [')']) .start) rfl
  exact ⟨e', cur', hread, he', hrest⟩

/-- Where nothing is left, a block ends with the text. -/
theorem blockFrom_nil {inner : Inner} {limit : Nat} {d : Draft} {Q : Block → List Char → Prop}
    (h : Q ⟨d.finish, .endOfText⟩ []) : Yields (blockFrom inner limit d) [] Q := by
  cases limit with
  | zero => exact .pure h
  | succ limit => exact blockFrom_step (.seq (.peek? (.pure h)))

/-- **Nodes are read back.** Parsing what is printed for a normal list of nodes succeeds and gives
nodes that differ from these in places only, and in the changes of literals by `lit`. With the
identity for `lit`, they differ in places only. -/
theorem parse_printed (lit : String → String) {ns : List Node} {cs : List Char}
    (hns : NormalNodes ns) (h : PrintedNodes lit false ns cs) :
    ∃ ns', parse (String.ofList cs) = .ok ns' ∧
      ns'.map (Node.unplaced lit) = ns.map (Node.unplaced lit) := by
  have hyields : Yields (Inner.upTo (cs.length + 1)).block (cs ++ []) fun b _ =>
      b.ending = .endOfText ∧ b.nodes.map (Node.unplaced lit) = ns.map (Node.unplaced lit) := by
    have hlength : (cs ++ []).length ≤ (Inner.upTo cs.length).limit + 1 := by
      rw [List.append_nil, Inner.limit_upTo]
      exact Nat.le_succ _
    refine h.reads hns (by simp) hlength rfl (fun hd => absurd rfl hd) fun d limit _ hd => ?_
    exact blockFrom_nil ⟨rfl, hd⟩
  obtain ⟨b, cur, hread, hending, hnodes⟩ :=
    hyields (.ofChars cs .start) (List.append_nil cs).symm
  have hagree := (Inner.upTo_agree (Nat.le_refl cs.length) (Nat.le_succ cs.length)).block
    (.ofChars cs .start) (Nat.le_refl _)
  have hrun : (Inner.upTo cs.length).block.run (.ofChars cs .start) = .ok (b, cur) :=
    hagree.trans hread
  refine ⟨b.nodes, ?_, hnodes⟩
  rw [parse, String.toList_ofList, hrun]
  change b.whole = _
  rw [Block.whole, hending]

/-- Backslashes before a dollar sign, before a directive and at the end of the source, and a
condition with an empty block inside a loop. -/
theorem parse_printed_nested :
    let x : Reference := .mk "x" [] false "$\x7bx\x7d" .start
    let condition : Node :=
      .conditional [(.bool true, [.text "\\", .leave .start])] (some []) .start
    let ns : List Node :=
      [.text "a\\$", .reference x, .forEach "i" (.list []) [condition] .start, .text "\\"]
    let cs := ("a\\\\\\$$\x7bx\x7d#[[]]##foreach($i in [])#[[]]##if(true)" ++
      "\\\\#[[]]##\x7bbreak\x7d#[[]]##\x7belse\x7d#[[]]##\x7bend\x7d#[[]]##\x7bend\x7d\\").toList
    NormalNodes ns ∧ PrintedNodes id false ns cs ∧
      ∃ ns', parse (String.ofList cs) = .ok ns' ∧
        ns'.map (Node.unplaced id) = ns.map (Node.unplaced id) := by
  intro x condition ns cs
  have hx : ReferenceText id x "$\x7bx\x7d".toList :=
    ⟨⟨false, _, rfl⟩, _, _, by cbv, by cbv, by cbv⟩
  have htrue : ArgumentText id (.bool true) "true".toList := ⟨_, _, by cbv, by cbv, by cbv⟩
  have hlist : ArgumentText id (.list []) "[]".toList := ⟨_, _, by cbv, by cbv, by cbv⟩
  have hi : IsName "i" := ⟨'i', [], rfl, rfl, by simp⟩
  have hprinted : PrintedNodes id false ns cs :=
    .text (.cons (.reference hx) (.cons (.forEach hi hlist
      (.cons (.conditional htrue (.text (.cons .leave .nil)) (.otherwise .nil)) .nil))
        (.text .nil)))
  have hns : NormalNodes ns := by
    simp [ns, condition, NormalNodes, Node.Normal, NormalBranches]
  exact ⟨hns, hprinted, parse_printed id hns hprinted⟩

end GatewayMapping.Template
