import GatewayMapping.Proofs.Printing.ExpressionReading

/-!
# Expressions are read back from their texts

An expression has many texts: blanks may be added, operators may be signs or words. From each of
them it is read back, its places and the literals of its references apart. The proof goes along
the way in which the text is built up, and uses one fact on each form of an expression.

## Main results

* `written_reads`: an expression has a text, and from all its texts it is read back.
-/

namespace GatewayMapping.Template

open Read (Yields)
open Grammar

variable {k : Nat} {e : Expr} {cs : List Char}

/-! ### Beginnings of texts -/

/-- The characters that operators of one operand begin with. -/
def unaryStarts : List Char := ['!', '-', 'n']

/-- Without an operator outside brackets, a text is read the same at all levels. -/
theorem ReadsPrimary.parses (h : ReadsPrimary e cs) {c : Char} {rest : List Char}
    (hcs : cs = c :: rest) (hblank : isExprBlank c = false) (hunary : c ∉ unaryStarts)
    (hk : k ≤ unaryLevel) : Parses k e cs := by
  simp only [unaryStarts, List.mem_cons, List.not_mem_nil, or_false, not_or] at hunary
  obtain ⟨hnot, hnegate, hn⟩ := hunary
  have hword (tail : List Char) : Read.beginsWithWord ['n', 'o', 't'] (cs ++ tail) = false := by
    rw [hcs, Read.beginsWithWord, List.cons_append, List.isPrefixOf,
      beq_false_of_ne (Ne.symm hn)]
    rfl
  have hne : cs ≠ [] := hcs ▸ List.cons_ne_nil c rest
  exact (h.readsAt hcs hblank hnot hnegate hword).parses.loosen hne (Nat.le_refl _) hk

theorem ReadsPrimary.readsItem (h : ReadsPrimary e cs) {c : Char} {rest : List Char}
    (hcs : cs = c :: rest) (hblank : isExprBlank c = false) (hunary : c ∉ unaryStarts)
    (hcloser : c ∉ closers) {bs : List Char} (hbs : Blanks bs) :
    ReadsItem innerExpr (Expr.unplaced noLiteral) e (bs ++ cs) :=
  (h.parses hcs hblank hunary (Nat.zero_le _)).readsItem ⟨c, rest, hcs, hblank, hcloser⟩ hbs

theorem ReadsPrimary.constant {word : List Char}
    (hword : word = ['t', 'r', 'u', 'e'] ∧ e = .bool true ∨
      word = ['f', 'a', 'l', 's', 'e'] ∧ e = .bool false ∨
      word = ['n', 'u', 'l', 'l'] ∧ e = .null) : ReadsPrimary e word := by
  intro n _ tail htail
  have hyields := (constant_yields htail hword).mono fun e' left he' =>
    (⟨congrArg _ he'.1, he'.2⟩ : e'.unplaced noLiteral = e.unplaced noLiteral ∧ left = tail)
  refine .seq (.skipWhile (.seq (.peek? ?_)))
  rcases hword with ⟨rfl, -⟩ | ⟨rfl, -⟩ | ⟨rfl, -⟩ <;> exact hyields

theorem not_mem_of_isDigit {c : Char} (hc : c.isDigit = true) :
    isExprBlank c = false ∧ c ∉ unaryStarts ∧ c ∉ closers := by
  have hne {d : Char} (hd : d.isDigit = false) : c ≠ d := by
    rintro rfl
    rw [hc] at hd
    cases hd
  refine ⟨?_, ?_, ?_⟩
  · simp only [isExprBlank, Bool.or_eq_false_iff, decide_eq_false_iff_not]
    exact ⟨⟨⟨hne rfl, hne rfl⟩, hne rfl⟩, hne rfl⟩
  · simp only [unaryStarts, List.mem_cons, List.not_mem_nil, or_false, not_or]
    exact ⟨hne rfl, hne rfl, hne rfl⟩
  · simp only [closers, List.mem_cons, List.not_mem_nil, or_false, not_or]
    exact ⟨hne rfl, hne rfl, hne rfl⟩

theorem UnaryOp.Spelled.starts {op : UnaryOp} (h : op.Spelled cs) : Starts cs := by
  obtain rfl | ⟨-, rfl⟩ := h
  · cases op <;> exact ⟨_, _, rfl, rfl, by simp [closers]⟩
  · exact ⟨_, _, rfl, rfl, by simp [closers]⟩

theorem Starts.append (h : Starts cs) (ds : List Char) : Starts (cs ++ ds) := by
  obtain ⟨c, rest, rfl, hc⟩ := h
  exact ⟨c, rest ++ ds, rfl, hc⟩

/-- No text of an expression begins with a blank or with a character that closes brackets. -/
theorem Written.starts {k e cs} : Written k e cs → Starts cs
  | .null => ⟨_, _, rfl, rfl, by decide⟩
  | .true => ⟨_, _, rfl, rfl, by decide⟩
  | .false => ⟨_, _, rfl, rfl, by decide⟩
  | .int _ => by
      obtain ⟨c, rest, hcs, hc⟩ := toDigits_head _
      obtain ⟨hblank, -, hcloser⟩ := not_mem_of_isDigit hc
      exact ⟨c, rest, hcs, hblank, hcloser⟩
  | .string => ⟨_, _, rfl, rfl, by decide⟩
  | .list _ => ⟨_, _, rfl, rfl, by decide⟩
  | .range _ _ => ⟨_, _, rfl, rfl, by decide⟩
  | .map _ => ⟨_, _, rfl, rfl, by decide⟩
  | .reference _ _ => ⟨_, _, rfl, rfl, by decide⟩
  | .unary hs _ _ => hs.starts.append _
  | .binary _ hleft _ _ _ _ => hleft.starts.append _
  | .paren _ _ => ⟨_, _, rfl, rfl, by decide⟩

/-! ### Along a text -/

mutual

theorem Written.parses {k e cs} : Written k e cs → k ≤ unaryLevel → Parses k e cs
  | .null, hk =>
      have h := ReadsPrimary.constant (.inr (.inr ⟨rfl, rfl⟩))
      (h.readsAt rfl rfl (by simp) (by simp) fun _ => rfl).parses.loosen
        (List.cons_ne_nil _ _) (Nat.le_refl _) hk
  | .true, hk =>
      have h := ReadsPrimary.constant (.inl ⟨rfl, rfl⟩)
      h.parses rfl rfl (by simp [unaryStarts]) hk
  | .false, hk =>
      have h := ReadsPrimary.constant (.inr (.inl ⟨rfl, rfl⟩))
      h.parses rfl rfl (by simp [unaryStarts]) hk
  | .int hm, hk =>
      have ⟨_, _, hcs, hc⟩ := toDigits_head _
      have ⟨hblank, hunary, _⟩ := not_mem_of_isDigit hc
      (ReadsPrimary.int hm).parses hcs hblank hunary hk
  | .string, hk => ReadsPrimary.string.parses rfl rfl (by simp [unaryStarts]) hk
  | .list hes, hk => (ReadsPrimary.list hes.reads).parses rfl rfl (by simp [unaryStarts]) hk
  | .range hfirst hlast, hk =>
      (ReadsPrimary.range hfirst.reads hlast.reads).parses rfl rfl (by simp [unaryStarts]) hk
  | .map hentries, hk => (ReadsPrimary.map hentries.reads).parses rfl rfl (by simp [unaryStarts]) hk
  | .reference hname hpath, hk =>
      (ReadsPrimary.reference hname hpath.reads).parses rfl rfl (by simp [unaryStarts]) hk
  | .unary hs hbs hoperand, hk =>
      have h := hoperand.parses (Nat.le_refl _)
      (ReadsAt.unary hs hbs h.reads).parses.loosen (hs.starts.append _).ne_nil (Nat.le_refl _) hk
  | .binary hlevel hleft hbs hs hbs' hright, _ =>
      have hop := BinaryOp.level_lt _
      have hl := (hleft.parses (Nat.le_of_lt hop)).spine hop
      have hr := (hright.parses hop).reads
      ((hl.binary hbs hs hbs' hr).parses hop (hleft.starts.append _).ne_nil).loosen
        (hleft.starts.append _).ne_nil (Nat.le_of_lt hop) hlevel
  | .paren _ h, hk => (ReadsPrimary.paren h.reads).parses rfl rfl (by simp [unaryStarts]) hk

theorem WrittenAfterBlanks.reads {e cs} :
    WrittenAfterBlanks e cs → ReadsItem innerExpr (Expr.unplaced noLiteral) e cs
  | .mk hbs h => (h.parses (Nat.zero_le _)).readsItem h.starts hbs

theorem WrittenItems.reads {es cs} :
    WrittenItems es cs → ReadsItems innerExpr (Expr.unplaced noLiteral) es cs
  | .nil => .nil
  | .cons h hes => .cons h.reads hes.reads

theorem WrittenMoreItems.reads {es cs} :
    WrittenMoreItems es cs → ReadsMore innerExpr (Expr.unplaced noLiteral) es cs
  | .nil => .nil
  | .cons h hes => .cons h.reads hes.reads

theorem WrittenEntry.reads {entry cs} : WrittenEntry entry cs →
    ReadsItem innerEntry (fun e => (e.1.unplaced noLiteral, e.2.unplaced noLiteral)) entry cs
  | .mk hkey hvalue => hkey.reads.entry hvalue.reads

theorem WrittenEntries.reads {entries cs} : WrittenEntries entries cs →
    ReadsItems innerEntry (fun e => (e.1.unplaced noLiteral, e.2.unplaced noLiteral)) entries cs
  | .nil => .nil
  | .cons h hes => .cons h.reads hes.reads

theorem WrittenMoreEntries.reads {entries cs} : WrittenMoreEntries entries cs →
    ReadsMore innerEntry (fun e => (e.1.unplaced noLiteral, e.2.unplaced noLiteral)) entries cs
  | .nil => .nil
  | .cons h hes => .cons h.reads hes.reads

theorem WrittenPath.reads {path cs} : WrittenPath path cs → ReadsPath path cs
  | .nil => .nil
  | .property hname hpath => hpath.reads.property hname
  | .method hname hargs hpath => .method hname hargs.reads hpath.reads
  | .index hi hpath => .index hi.reads hpath.reads

end

/-! ### The round trip -/

/-- **Expressions are read back from their texts.** A plain expression has a text at every level.
From each of its texts, with a closing parenthesis after it, an expression is read that is the
same but for places and literals, and the parenthesis is left with all that follows it. -/
theorem written_reads (e : Expr) (he : e.IsPlain) :
    (∀ k, ∃ cs, Written k e cs) ∧
      ∀ cs, WrittenAfterBlanks e cs → ∀ (limit : Nat) (cur : Cursor) (tail : List Char),
        cs.length ≤ limit → cur.rest = cs ++ ')' :: tail →
          ∃ e' cur', (Inner.upTo limit).expr cur = .ok (e', cur') ∧
            e'.unplaced noLiteral = e.unplaced noLiteral ∧ cur'.rest = ')' :: tail := by
  refine ⟨exists_written e he, fun cs hcs limit cur tail hlimit hcur => ?_⟩
  obtain ⟨e', cur', hread, heq, hrest⟩ :=
    (hcs.reads.reads hlimit (.close (by simp) : Follows 0 (')' :: tail))).1 cur hcur
  exact ⟨e', cur', hread, heq, hrest⟩

/-- A sum in parentheses, a word for an operator, and a call with a quote in its argument. -/
theorem written_reads_grouped :
    let sum : Expr := .binary .add (.int 1) (.int 2) .start
    let call : Expr := .reference (.mk "a" [.method "f" [.string "it's"]] true "" .start)
    let product : Expr := .binary .mul sum (.unary .negate call .start) .start
    let e : Expr := .binary .ne product .null .start
    let cs := " (1 + 2) * - $!\x7ba.f('it''s')\x7d ne null".toList
    e.IsPlain ∧ WrittenAfterBlanks e cs ∧
      ∃ e' cur', (Inner.upTo 40).expr (.ofChars (cs ++ [')']) .start) = .ok (e', cur') ∧
        e'.unplaced noLiteral = e.unplaced noLiteral ∧ cur'.rest = [')'] := by
  intro sum call product e cs
  have ha : IsName "a" := ⟨'a', [], rfl, rfl, nofun⟩
  have hf : IsName "f" := ⟨'f', [], rfl, rfl, nofun⟩
  have h₁ : 0 ≤ (1 : Int64).toInt := by decide
  have h₂ : 0 ≤ (2 : Int64).toInt := by decide
  have he : e.IsPlain := ⟨⟨⟨h₁, h₂⟩, ha, ⟨hf, trivial, trivial⟩, trivial⟩, trivial⟩
  have hsum : Written BinaryOp.mul.level sum "(1 + 2)".toList :=
    .paren (by decide) (.mk .nil (.binary (Nat.zero_le _) (.int h₁) .blank (.inl rfl) .blank
      (.int h₂)))
  have hcall : Written unaryLevel call "$!\x7ba.f('it''s')\x7d".toList :=
    .reference ha (.method hf (.cons (.mk .nil .string) .nil) .nil)
  have hproduct : Written BinaryOp.ne.level product "(1 + 2) * - $!\x7ba.f('it''s')\x7d".toList :=
    .binary (by decide) hsum .blank (.inl rfl) .blank (.unary (.inl rfl) .blank hcall)
  have hcs : WrittenAfterBlanks e cs :=
    .mk BlankRun.blank.2 (.binary (Nat.zero_le _) hproduct .blank (.inr rfl) .blank .null)
  exact ⟨he, hcs, (written_reads e he).2 cs hcs 40 _ [] (by decide) rfl⟩

end GatewayMapping.Template
