import GatewayMapping.Proofs.Printing.ExpressionReading
import GatewayMapping.Proofs.Printing.Nodes
import GatewayMapping.Proofs.Reading.Limit
import GatewayMapping.Proofs.Reading.Relocation

/-!
# Reading the parts of what is printed

References and arguments are printed as texts that they are read from, each by itself. Inside a
source the readers have other limits, they stand at other places, and more text follows. None of
this matters: limits that suffice all give the same (`Inner.upTo_agree`), and a closing bracket
guards a text against what follows (`Inner.upTo_tracks`).

The characters of a text are read one by one, the backslashes as runs.

## Main results

* `ReferenceText.yields`, `ArgumentText.yields`: references and arguments are read inside a source.
* `escaped_yields`: the characters of a text are read from what is printed for them.
-/

namespace GatewayMapping.Template

open Read (Yields bind_eq_ok_iff)
open Grammar

variable {α β : Type} {lit : String → String} {n limit : Nat} {cs : List Char}

/-! ### Blanks before an expression -/

/-- The reader passes over blanks first. -/
def Read.SkipsBlanks (r : Read α) : Prop := ∀ cur, r (cur.skipWhile isExprBlank) = r cur

namespace Read.SkipsBlanks

theorem bind {x : Read α} (hx : SkipsBlanks x) (f : α → Read β) : SkipsBlanks (x >>= f) := by
  intro cur
  change (x (cur.skipWhile isExprBlank) >>= fun p => f p.1 p.2) = (x cur >>= fun p => f p.1 p.2)
  rw [hx cur]

theorem skipBlanks (f : Unit → Read β) : SkipsBlanks (Read.skipBlanks >>= f) := by
  intro cur
  change f () ((cur.skipWhile isExprBlank).skipWhile isExprBlank) =
    f () (cur.skipWhile isExprBlank)
  rw [Cursor.skipWhile_skipWhile]

theorem expr (inner : Inner) : SkipsBlanks (Grammar.expr inner) := by
  have hlevels : ∀ levels : List (List BinaryOp), SkipsBlanks
      (levels.foldr (level (inner.limit + 1)) (unary inner (inner.limit + 1))) := by
    intro levels
    induction levels with
    | nil => exact .skipBlanks _
    | cons ops levels ih => exact ih.bind _
  exact hlevels levels

theorem yields {r : Read α} (h : SkipsBlanks r) {b : Char} (hb : isExprBlank b = true)
    {Q : α → List Char → Prop} (hcs : Yields r cs Q) : Yields r (b :: cs) Q := by
  rintro ⟨_, position, indent⟩ rfl
  have hnext := hcs (Cursor.next ⟨b :: cs, position, indent⟩) rfl
  rw [← h] at hnext ⊢
  have hskip : (⟨b :: cs, position, indent⟩ : Cursor).skipWhile isExprBlank =
      (Cursor.next ⟨b :: cs, position, indent⟩).skipWhile isExprBlank := by
    rw [Cursor.skipWhile, List.takeWhile_cons_of_pos hb]
    rfl
  rwa [hskip]

end Read.SkipsBlanks

/-! ### Arguments and references -/

/-- An argument is read inside a source. -/
theorem ArgumentText.yields {e : Expr} (h : ArgumentText lit e cs) (hn : cs.length < n)
    (tail : List Char) :
    Yields (Inner.upTo n).expr (cs ++ ')' :: tail)
      fun e' left => e'.unplaced lit = e.unplaced lit ∧ left = ')' :: tail := by
  intro cur hcur
  obtain ⟨e', cur', hread, he', hrest⟩ := h
  have hagree := (Inner.upTo_agree (Nat.le_refl (cs.length + 1)) hn).expr
    (.ofChars (cs ++ [')']) .start) (by simp [Cursor.ofChars])
  have hread : (Inner.upTo n).expr (.ofChars (cs ++ [')']) .start) = .ok (e', cur') :=
    hagree.symm.trans hread
  have hext : (Cursor.ofChars (cs ++ [')']) .start).Extends [] tail False cur :=
    .of_append (by rw [hcur]; exact (List.append_cons cs ')' tail)) nofun
  have hguard : Guarded [] tail cur'.rest := .inr ⟨[')'], ⟨')', List.mem_cons_self, rfl⟩, hrest⟩
  obtain ⟨e'', cur'', hread', heq, hext'⟩ :=
    ((Inner.upTo_tracks lit n).expr [] tail False).follows hext hread hguard
  refine ⟨e'', cur'', hread', heq.symm.trans he', ?_⟩
  rw [hext'.rest_append, hrest]
  rfl

theorem char_eq_ok_iff {c : Char} {expected : Expected} {cur cur' : Cursor} :
    Read.char c expected cur = .ok ((), cur') ↔ cur.rest = c :: cur'.rest ∧ cur' = cur.skip 1 := by
  constructor
  · intro h
    obtain ⟨_, _, ⟨⟩, h⟩ := bind_eq_ok_iff.mp h
    split at h
    · rename_i hhead
      cases h
      obtain ⟨rest, hrest⟩ := List.head?_eq_some_iff.mp hhead
      rw [Cursor.rest_skip, hrest]
      exact ⟨rfl, rfl⟩
    · cases h
  · rintro ⟨hrest, rfl⟩
    refine bind_eq_ok_iff.mpr ⟨_, cur, rfl, ?_⟩
    rw [hrest, List.head?_cons, if_pos rfl]
    rfl

/-- Reads the name and the path of a reference. -/
def nameAndPath (inner : Inner) (s : Sigil) : Read (String × List Segment) := do
  Read.skip s.length
  let name ← Read.name
  return (name, ← segments inner (inner.limit + 1))

theorem nameAndPath_tracks {inner : Inner} (hi : inner.Tracks lit) (s : Sigil)
    {extra : List Char} {indented : Prop} :
    Read.Tracks lit [] extra indented
      (InvImage Eq fun p : String × List Segment => (p.1, p.2.map (Segment.unplaced lit)))
      (nameAndPath inner s) (nameAndPath inner s) :=
  (Read.Tracks.skip _).bind_eq fun _ => Read.Tracks.name.bind_eq fun _ =>
    (segments_tracks hi _).bind_on fun _ _ hpath => .pure (Prod.ext rfl hpath)

/-- A reference in braces is read from a name and a path with a brace after them. -/
theorem referenceAfter_eq_ok_iff {inner : Inner} {s : Sigil} (hs : s.braced = true)
    {r : Reference} {cur cur' : Cursor} :
    referenceAfter inner s cur = .ok (r, cur') ↔ ∃ name path cur₁,
      nameAndPath inner s cur = .ok ((name, path), cur₁) ∧
      (cur₁.rest = '\x7d' :: cur'.rest ∧ cur' = cur₁.skip 1) ∧
      r = .mk name path s.quiet (String.ofList (cur.upTo cur')) cur.position := by
  constructor
  · intro h
    obtain ⟨_, _, ⟨⟩, h⟩ := bind_eq_ok_iff.mp h
    obtain ⟨_, _, hskip, h⟩ := bind_eq_ok_iff.mp h
    obtain ⟨name, _, hname, h⟩ := bind_eq_ok_iff.mp h
    obtain ⟨path, cur₁, hpath, h⟩ := bind_eq_ok_iff.mp h
    rw [if_pos hs] at h
    obtain ⟨_, _, hchar, h⟩ := bind_eq_ok_iff.mp h
    obtain ⟨_, _, ⟨⟩, h⟩ := bind_eq_ok_iff.mp h
    cases h
    exact ⟨name, path, cur₁, bind_eq_ok_iff.mpr ⟨_, _, hskip, bind_eq_ok_iff.mpr ⟨_, _, hname,
      bind_eq_ok_iff.mpr ⟨_, _, hpath, rfl⟩⟩⟩, char_eq_ok_iff.mp hchar, rfl⟩
  · rintro ⟨name, path, cur₁, h, hchar, rfl⟩
    obtain ⟨_, _, hskip, h⟩ := bind_eq_ok_iff.mp h
    obtain ⟨_, _, hname, h⟩ := bind_eq_ok_iff.mp h
    obtain ⟨_, _, hpath, h⟩ := bind_eq_ok_iff.mp h
    cases h
    refine bind_eq_ok_iff.mpr ⟨_, _, rfl, bind_eq_ok_iff.mpr ⟨_, _, hskip,
      bind_eq_ok_iff.mpr ⟨_, _, hname, bind_eq_ok_iff.mpr ⟨_, _, hpath, ?_⟩⟩⟩⟩
    rw [if_pos hs]
    exact bind_eq_ok_iff.mpr ⟨_, _, char_eq_ok_iff.mpr hchar, rfl⟩

/-- A reference in braces that is read to the end of a text is read from it before further
text. -/
theorem referenceAfter_follows {inner : Inner} (hi : inner.Tracks lit) {s : Sigil}
    (hs : s.braced = true) {extra : List Char} {cur cur₁ cur' : Cursor}
    (hext : cur.Extends [] extra False cur') {r : Reference}
    (h : referenceAfter inner s cur = .ok (r, cur₁)) (hend : cur₁.rest = []) :
    ∃ r' cur₁', referenceAfter inner s cur' = .ok (r', cur₁') ∧ r'.unplaced lit = r.unplaced lit ∧
      cur₁'.rest = extra := by
  obtain ⟨name, path, cur₂, hread, ⟨hbrace, rfl⟩, rfl⟩ := (referenceAfter_eq_ok_iff hs).mp h
  rw [hend] at hbrace
  -- Before its last brace the reference is guarded by it.
  have hguard : Guarded [] extra cur₂.rest :=
    .inr ⟨['\x7d'], ⟨'\x7d', List.mem_cons_self, rfl⟩, hbrace⟩
  obtain ⟨⟨name', path'⟩, cur₂', hread', heq, hext₂⟩ :=
    (nameAndPath_tracks hi s).follows hext hread hguard
  have hext₃ := hext₂.skip 1 (.inr (by rw [hbrace]; exact Nat.le_refl 1))
  have hbrace' : cur₂'.rest = '\x7d' :: (cur₂'.skip 1).rest := by
    rw [Cursor.rest_skip, hext₂.rest_append, hbrace]
    rfl
  have hrest : (cur₂'.skip 1).rest = extra := by
    rw [hext₃.rest_append, hend, List.nil_append]
  refine ⟨_, _, (referenceAfter_eq_ok_iff hs).mpr ⟨name', path', cur₂', hread',
    ⟨hbrace', rfl⟩, rfl⟩, ?_, hrest⟩
  obtain ⟨rfl, hpath⟩ := Prod.mk.inj heq
  simp only [Reference.unplaced, unplacedSegments_eq_map, hpath, hext.upTo hext₃]

/-- A reference is read inside a source. -/
theorem ReferenceText.yields {r : Reference} (h : ReferenceText lit r cs) (hn : cs.length ≤ n + 1)
    (tail : List Char) :
    Yields (reference? (Inner.upTo n)) (cs ++ tail)
      fun r? left => (∃ r', r? = some r' ∧ r'.unplaced lit = r.unplaced lit) ∧ left = tail := by
  intro cur hcur
  obtain ⟨⟨quiet, rest, hcs⟩, r', cur', hread, hr', hrest⟩ := h
  have hagree := reference?_agree (Inner.upTo_agree (n := cs.length - 1) (Nat.sub_le _ 1)
    (by omega : cs.length - 1 ≤ n)) (.ofChars cs .start) (by simp [Cursor.ofChars]; omega)
  have hread : reference? (Inner.upTo n) (.ofChars cs .start) = .ok (some r', cur') :=
    hagree.symm.trans hread
  have hsigil (rest : List Char) : sigil? ((if quiet then ['!'] else []) ++ '\x7b' :: rest) =
      if rest.head?.any isNameStart then some ⟨quiet, true⟩ else none := by
    cases quiet <;> rfl
  obtain ⟨_, _, ⟨⟩, hread⟩ := bind_eq_ok_iff.mp hread
  rw [show (Cursor.ofChars cs .start).rest = cs from rfl, hcs, List.tail_cons, hsigil] at hread
  by_cases hstart : rest.head?.any isNameStart
  · rw [if_pos hstart] at hread
    obtain ⟨_, _, hafter, heq⟩ := bind_eq_ok_iff.mp hread
    cases heq
    have hext : (Cursor.ofChars cs .start).Extends [] tail False cur := .of_append hcur nofun
    rw [← hcs] at hafter
    obtain ⟨r'', cur'', hafter', heq, hrest'⟩ :=
      referenceAfter_follows (Inner.upTo_tracks lit n) rfl hext hafter hrest
    have hstart' : (rest ++ tail).head?.any isNameStart := by
      cases rest with
      | nil => cases hstart
      | cons c rest => exact hstart
    refine ⟨some r'', cur'', bind_eq_ok_iff.mpr ⟨cur.rest, cur, rfl, ?_⟩,
      ⟨r'', rfl, heq.trans hr'⟩, hrest'⟩
    rw [hcur, hcs, List.cons_append, List.tail_cons, List.append_assoc, List.cons_append, hsigil,
      if_pos hstart']
    exact bind_eq_ok_iff.mpr ⟨r'', cur'', hafter', rfl⟩
  · rw [if_neg hstart] at hread
    cases hread

/-- A name with a dollar sign before it is read as a variable. -/
theorem variable_yields {name : String} (hname : IsName name) (rest : List Char) :
    Yields (reference (Inner.upTo n)) ('$' :: (name.toList ++ ' ' :: rest))
      fun r left => r.name = name ∧ r.isBare = true ∧ left = ' ' :: rest := by
  have hread := reference_yields_of_sigil ⟨false, false⟩ "" .start hname .nil (Nat.zero_le n)
    (EndsPath.cons (by decide) : EndsPath (' ' :: rest))
  refine hread.mono fun r left hr => ⟨?_, ?_, hr.2⟩
  · rw [← Reference.name_unplaced noLiteral, hr.1]
    rfl
  · rw [← Reference.isBare_unplaced noLiteral, hr.1]
    rfl

/-! ### Texts -/

/-- What stands after the nodes of a block: the beginning of a further node, or nothing. -/
def GoesOn (followed : Bool) (tail : List Char) : Prop :=
  if followed then ∃ c rest, tail = c :: rest ∧ isMark c = true else tail = []

namespace Draft

variable (d : Draft)

theorem append_append (cs ds : List Char) : (d.append cs).append ds = d.append (cs ++ ds) := by
  rw [append, append, append, List.reverse_append, List.append_assoc]

theorem push_eq_append (c : Char) : d.push c = d.append [c] := rfl

end Draft

theorem span_slashes (m : Nat) (hcs : cs.head? ≠ some '\\') :
    (List.replicate m '\\' ++ cs).takeWhile (· = '\\') = List.replicate m '\\' ∧
      (List.replicate m '\\' ++ cs).dropWhile (· = '\\') = cs := by
  have hall : ∀ c ∈ List.replicate m '\\', decide (c = '\\') = true := fun c hc =>
    decide_eq_true (List.eq_of_mem_replicate hc)
  rw [List.takeWhile_append_of_pos hall, List.dropWhile_append_of_pos hall]
  cases cs with
  | nil => exact ⟨List.append_nil _, rfl⟩
  | cons c cs =>
    have hc : c ≠ '\\' := fun h => hcs (congrArg some h)
    simp [hc]

theorem ne_slash_of_isMark {c : Char} (h : isMark c = true) : c ≠ '\\' := by
  rintro rfl
  cases h

/-- Backslashes before `$` or `#` are read by pairs. -/
theorem escape_mark {d : Draft} {m : Nat} {c : Char} (hc : isMark c = true)
    {Q : Draft → List Char → Prop}
    (h : if m % 2 = 1 then Q (d.append (List.replicate (m / 2) '\\' ++ [c])) cs
      else Q (d.append (List.replicate (m / 2) '\\')) (c :: cs)) :
    Yields (escape d) (List.replicate m '\\' ++ c :: cs) Q := by
  have hhead : (c :: cs).head? ≠ some '\\' := fun heq =>
    ne_slash_of_isMark hc (Option.some.inj heq)
  obtain ⟨htake, hdrop⟩ := span_slashes m hhead
  refine .seq (.takeWhile (.seq (.peek? ?_)))
  rw [htake, hdrop]
  change Yields (if isMark c = true then _ else _) _ _
  rw [if_pos hc, List.length_replicate]
  by_cases hm : m % 2 = 1
  · rw [if_pos hm] at h
    rw [if_pos hm]
    refine .seq (.skip (.pure ?_))
    rw [Draft.push_eq_append, Draft.append_append]
    exact h
  · rw [if_neg hm] at h
    rw [if_neg hm]
    exact .pure h

/-- Other backslashes are read as they stand. -/
theorem escape_plain {d : Draft} {m : Nat}
    (hcs : ∀ c, cs.head? = some c → c ≠ '\\' ∧ isMark c = false) {Q : Draft → List Char → Prop}
    (h : Q (d.append (List.replicate m '\\')) cs) :
    Yields (escape d) (List.replicate m '\\' ++ cs) Q := by
  have hhead : cs.head? ≠ some '\\' := fun heq => (hcs _ heq).1 rfl
  obtain ⟨htake, hdrop⟩ := span_slashes m hhead
  refine .seq (.takeWhile (.seq (.peek? ?_)))
  rw [htake, hdrop]
  cases cs with
  | nil => exact .pure h
  | cons c cs =>
    change Yields (if isMark c = true then _ else _) _ _
    rw [(hcs c rfl).2, if_neg Bool.false_ne_true]
    exact .pure h

theorem blockFrom_escape {inner : Inner} {d : Draft} {Q : Block → List Char → Prop} {m : Nat}
    (h : Yields (escape d) (List.replicate (m + 1) '\\' ++ cs)
      fun d' left => Yields (blockFrom inner limit d') left Q) :
    Yields (blockFrom inner (limit + 1) d) (List.replicate (m + 1) '\\' ++ cs) Q :=
  .seq (.seq (.peek? (.seq (h.mono fun _ _ hd => .pure hd))))

theorem blockFrom_push {inner : Inner} {d : Draft} {Q : Block → List Char → Prop} {c : Char}
    (hslash : c ≠ '\\') (hmark : isMark c = false)
    (h : Yields (blockFrom inner limit (d.push c)) cs Q) :
    Yields (blockFrom inner (limit + 1) d) (c :: cs) Q := by
  refine .seq (.seq (.peek? ?_))
  rw [List.head?_cons]
  split <;> rename_i heq <;> cases heq
  · exact absurd rfl hslash
  · cases hmark
  · cases hmark
  · exact .seq (.skip (.pure h))

section

variable {inner : Inner} {followed : Bool} {tail : List Char} {Q : Block → List Char → Prop}
  {d : Draft} {run : Nat}

/-- The backslashes at the end of a text are read from what is printed for them. -/
theorem escaped_nil_yields (htail : GoesOn followed tail)
    (hlimit : (escaped followed run [] ++ tail).length ≤ limit)
    (h : ∀ limit', tail.length ≤ limit' →
      Yields (blockFrom inner limit' (d.append (List.replicate run '\\'))) tail Q) :
    Yields (blockFrom inner limit d) (escaped followed run [] ++ tail) Q := by
  rw [escaped] at hlimit ⊢
  rw [List.length_append, List.length_replicate] at hlimit
  cases run with
  | zero =>
    have hnone : (if followed then 2 * 0 else 0) = 0 := by cases followed <;> rfl
    rw [hnone]
    exact h limit (by omega)
  | succ run =>
    have hpos : run + 1 ≤ if followed then 2 * (run + 1) else run + 1 := by split <;> omega
    obtain ⟨limit, rfl⟩ := Nat.exists_eq_add_one_of_ne_zero (by omega : limit ≠ 0)
    have hread := h limit (by omega)
    cases followed with
    | true =>
      obtain ⟨c, rest, rfl, hc⟩ := htail
      refine blockFrom_escape (m := 2 * run + 1) (escape_mark hc ?_)
      rw [if_neg (by omega), (by omega : (2 * run + 1 + 1) / 2 = run + 1)]
      exact hread
    | false =>
      obtain rfl : tail = [] := htail
      exact blockFrom_escape (escape_plain (fun _ hc => by cases hc) hread)

/-- Backslashes and the `$` or `#` after them are read from what is printed for them. -/
theorem escaped_mark_yields {c : Char} (hc : isMark c = true)
    (h : Yields (blockFrom inner limit (d.append (List.replicate run '\\' ++ [c]))) cs Q) :
    Yields (blockFrom inner (limit + 1) d) (List.replicate (2 * run + 1) '\\' ++ c :: cs) Q := by
  refine blockFrom_escape (escape_mark hc ?_)
  rw [if_pos (by omega), (by omega : (2 * run + 1) / 2 = run)]
  exact h

/-- Backslashes and another character after them are read as they stand. -/
theorem escaped_plain_yields {c : Char} (hslash : c ≠ '\\') (hmark : isMark c = false)
    (h : ∀ limit', limit ≤ limit' + (run + 1) →
      Yields (blockFrom inner limit' (d.append (List.replicate run '\\' ++ [c]))) cs Q)
    (hlimit : run + 1 ≤ limit) :
    Yields (blockFrom inner limit d) (List.replicate run '\\' ++ c :: cs) Q := by
  cases run with
  | zero =>
    obtain ⟨limit, rfl⟩ := Nat.exists_eq_add_one_of_ne_zero (by omega : limit ≠ 0)
    exact blockFrom_push hslash hmark (h limit (by omega))
  | succ run =>
    obtain ⟨limit, rfl⟩ : ∃ l, limit = l + 2 := ⟨limit - 2, by omega⟩
    have hhead : ∀ d, (c :: cs).head? = some d → d ≠ '\\' ∧ isMark d = false := by
      rintro d ⟨⟩
      exact ⟨hslash, hmark⟩
    refine blockFrom_escape (escape_plain hhead (blockFrom_push hslash hmark ?_))
    rw [Draft.push_eq_append, Draft.append_append]
    exact h limit (by omega)

/-- The characters of a text are read from what is printed for them. -/
theorem escaped_yields (htail : GoesOn followed tail) : (cs : List Char) → (run : Nat) →
    {limit : Nat} → {d : Draft} → (escaped followed run cs ++ tail).length ≤ limit →
      (∀ limit', tail.length ≤ limit' →
        Yields (blockFrom inner limit' (d.append (List.replicate run '\\' ++ cs))) tail Q) →
      Yields (blockFrom inner limit d) (escaped followed run cs ++ tail) Q
  | [], run, limit, d, hlimit, h => by
      simp only [List.append_nil] at h
      exact escaped_nil_yields htail hlimit h
  | c :: cs, run, limit, d, hlimit, h => by
      by_cases hslash : c = '\\'
      · subst hslash
        rw [escaped, if_pos rfl] at hlimit ⊢
        refine escaped_yields htail cs (run + 1) hlimit fun limit' hl => ?_
        rw [List.replicate_succ', List.append_assoc]
        exact h limit' hl
      · have hnext {limit} (hl : (escaped followed 0 cs ++ tail).length ≤ limit) :
            Yields (blockFrom inner limit (d.append (List.replicate run '\\' ++ [c])))
              (escaped followed 0 cs ++ tail) Q := by
          refine escaped_yields htail cs 0 hl fun limit' hl' => ?_
          rw [Draft.append_append, List.append_assoc]
          exact h limit' hl'
        rw [escaped, if_neg hslash] at hlimit ⊢
        cases hmark : isMark c with
        | true =>
          rw [hmark, if_pos rfl, List.append_assoc, List.length_append] at hlimit
          rw [if_pos rfl, List.append_assoc]
          simp only [List.length_replicate, List.cons_append, List.length_cons] at hlimit
          obtain ⟨limit, rfl⟩ := Nat.exists_eq_add_one_of_ne_zero (by omega : limit ≠ 0)
          exact escaped_mark_yields hmark (hnext (by omega))
        | false =>
          rw [hmark, if_neg Bool.false_ne_true, List.append_assoc, List.length_append] at hlimit
          rw [if_neg Bool.false_ne_true, List.append_assoc]
          simp only [List.length_replicate, List.cons_append, List.length_cons] at hlimit
          exact escaped_plain_yields hslash hmark (fun limit' hl => hnext (by omega)) (by omega)

end

end GatewayMapping.Template
