import GatewayMapping.Proofs.Reading.Places

/-!
# Tables of lines

The place of a cursor changes with every character. It can also be looked up: a table of the indexes
at which the lines of a text begin is in order, so the line of an index is found by halving the
table, and the column is the distance from the beginning of the line. Both ways lead to the same
place (`LineTable.place_of_index`).

The search in the table ends at the index itself, if a line begins there, or else where it would
have to be put in. It could not be put in before the first line, which begins at zero, so there is
always a line to step back to.

## Main definitions

* `LineTable`: where the lines of a text begin, with the place of the text.
* `LineTable.search`: the search by halving.
* `LineTable.position?`: the place that is looked up, with every subtraction checked.
* `Position.Precedes`: the order in which places are read.

## Main results

* `Position.afterAll_eq`: line and column of a place, told from the characters before it.
* `LineTable.search_eq`: where the search ends.
* `LineTable.place_of_index`: the place of an index.
-/

namespace GatewayMapping.Template

/-! ### Places -/

namespace Position

/-- The place comes before the other one in reading order. -/
def Precedes (p q : Position) : Prop := p.line < q.line ∨ p.line = q.line ∧ p.column < q.column

variable {p q r : Position}

theorem Precedes.trans (hpq : p.Precedes q) (hqr : q.Precedes r) : p.Precedes r := by
  unfold Precedes at *
  omega

theorem not_precedes_self (p : Position) : ¬p.Precedes p := by
  unfold Precedes
  omega

theorem Precedes.ne (h : p.Precedes q) : p ≠ q := fun heq => q.not_precedes_self (heq ▸ h)

theorem Precedes.asymm (h : p.Precedes q) : ¬q.Precedes p := fun h' =>
  p.not_precedes_self (h.trans h')

theorem precedes_after (p : Position) (c : Char) : p.Precedes (p.after c) := by
  by_cases hc : c = '\n'
  · rw [hc, after_lineFeed]
    exact .inl (Nat.lt_succ_self _)
  · rw [after_of_ne p hc]
    exact .inr ⟨rfl, Nat.lt_succ_self _⟩

/-- Characters move a place on. -/
theorem precedes_afterAll (p : Position) {cs : List Char} (h : cs ≠ []) :
    p.Precedes (p.afterAll cs) := by
  induction cs using List.reverseRecOn with
  | nil => exact absurd rfl h
  | append_singleton cs c ih =>
    rw [afterAll_concat]
    by_cases hcs : cs = []
    · rw [hcs]
      exact precedes_after p c
    · exact (ih hcs).trans (precedes_after _ c)

/-- A place after some characters is as many lines on as they have line feeds. Its column is told
from the characters after the last line feed, or from all if there is none. -/
theorem afterAll_eq (p : Position) (cs : List Char) :
    p.afterAll cs = ⟨p.line + cs.count '\n',
      if '\n' ∈ cs then 1 + (lastLine cs).length else p.column + cs.length⟩ := by
  induction cs using List.reverseRecOn with
  | nil => rfl
  | append_singleton cs c ih =>
    rw [afterAll_concat, ih, lastLine_concat, List.count_append, List.count_singleton]
    by_cases hc : c = '\n'
    · rw [hc, after_lineFeed, if_pos rfl, if_pos (List.mem_append_right cs List.mem_cons_self)]
      rfl
    · have hmem : '\n' ∈ cs ++ [c] ↔ '\n' ∈ cs := by
        rw [List.mem_append, List.mem_singleton, or_iff_left (Ne.symm hc)]
      rw [after_of_ne _ hc, if_neg hc, if_neg (mt beq_iff_eq.mp hc)]
      simp only [hmem, List.length_append, List.length_singleton]
      split_ifs <;> rfl

/-- Of two places in a text the one of the lesser index comes first. -/
theorem afterAll_take_precedes (p : Position) {cs : List Char} {i j : Nat} (hij : i < j)
    (hj : j ≤ cs.length) : (p.afterAll (cs.take i)).Precedes (p.afterAll (cs.take j)) := by
  have hsplit : cs.take j = cs.take i ++ (cs.drop i).take (j - i) := by
    rw [← List.take_add, Nat.add_sub_cancel' (Nat.le_of_lt hij)]
  have hne : (cs.drop i).take (j - i) ≠ [] := by
    apply List.ne_nil_of_length_pos
    rw [List.length_take, List.length_drop]
    omega
  rw [hsplit, afterAll_append]
  exact precedes_afterAll _ hne

end Position

theorem lastLine_of_not_mem {cs : List Char} (h : '\n' ∉ cs) : lastLine cs = cs := by
  induction cs using List.reverseRecOn with
  | nil => rfl
  | append_singleton cs c ih =>
    rw [List.mem_append, List.mem_singleton, not_or] at h
    rw [lastLine_concat, if_neg (Ne.symm h.2), ih h.1]

theorem length_lastLine_le (cs : List Char) : (lastLine cs).length ≤ cs.length := by
  rw [lastLine, List.length_reverse, ← cs.length_reverse]
  exact (List.takeWhile_prefix _).length_le

/-! ### Tables -/

/-- Where the lines of a text begin, as indexes in order, and the place of the text. -/
structure LineTable where
  starts : Array Nat
  base : Position

namespace LineTable

/-- The indexes at which lines begin in a text, which stands at an index itself. -/
def startsFrom : (index : Nat) → List Char → List Nat
  | _, [] => []
  | index, c :: cs =>
    if c = '\n' then (index + 1) :: startsFrom (index + 1) cs else startsFrom (index + 1) cs

/-- The table of a text that begins at `base`. -/
def ofChars (cs : List Char) (base : Position) : LineTable := ⟨(0 :: startsFrom 0 cs).toArray, base⟩

/-- Looks for a number in the part of an array from `low` up to `high`, which has to be in order:
the index of the number, or else the index where it would have to be put in. -/
def search (starts : Array Nat) (target low high : Nat) (hhigh : high ≤ starts.size) :
    Except Nat Nat :=
  if hlow : low < high then
    let middle := low + (high - low) / 2
    if starts[middle] = target then .ok middle
    else if starts[middle] < target then search starts target (middle + 1) high hhigh
    else search starts target low middle (by omega)
  else .error low
termination_by high - low

/-- The difference of two numbers, if it is one. -/
def difference? (m n : Nat) : Option Nat := if n ≤ m then some (m - n) else none

/-- The line that an index is in, counted from zero: the one that begins there, or else the one
before. -/
def line? (t : LineTable) (index : Nat) : Option Nat :=
  match search t.starts index 0 t.starts.size (Nat.le_refl _) with
  | .ok line => some line
  | .error next => difference? next 1

/-- The place of an index. There is none if the table has no line for it, or if a subtraction goes
below zero. -/
def position? (t : LineTable) (index : Nat) : Option Position := do
  let line ← t.line? index
  let start ← t.starts[line]?
  let column := (← difference? index start) + 1
  if line = 0 then return ⟨t.base.line, ← difference? (t.base.column + column) 1⟩
  else return ⟨t.base.line + line, column⟩

/-! ### The beginnings of lines -/

theorem startsFrom_append (i : Nat) (cs ds : List Char) :
    startsFrom i (cs ++ ds) = startsFrom i cs ++ startsFrom (i + cs.length) ds := by
  induction cs generalizing i with
  | nil => rfl
  | cons c cs ih =>
    rw [List.cons_append, startsFrom, startsFrom, ih, List.length_cons, Nat.add_right_comm i 1,
      ← Nat.add_assoc]
    split <;> rfl

theorem length_startsFrom (i : Nat) (cs : List Char) :
    (startsFrom i cs).length = cs.count '\n' := by
  induction cs generalizing i with
  | nil => rfl
  | cons c cs ih =>
    rw [startsFrom]
    by_cases hc : c = '\n'
    · rw [if_pos hc, hc, List.count_cons_self, List.length_cons, ih]
    · rw [if_neg hc, List.count_cons_of_ne hc, ih]

theorem mem_startsFrom_bounds {i s : Nat} {cs : List Char} (h : s ∈ startsFrom i cs) :
    i < s ∧ s ≤ i + cs.length := by
  induction cs generalizing i with
  | nil => cases h
  | cons c cs ih =>
    rw [List.length_cons]
    rw [startsFrom] at h
    split at h
    · rcases List.mem_cons.mp h with rfl | h
      · omega
      · have := ih h
        omega
    · have := ih h
      omega

theorem pairwise_startsFrom (i : Nat) (cs : List Char) :
    (startsFrom i cs).Pairwise (· < ·) := by
  induction cs generalizing i with
  | nil => exact .nil
  | cons c cs ih =>
    rw [startsFrom]
    split
    · exact .cons (fun s hs => (mem_startsFrom_bounds hs).1) (ih _)
    · exact ih _

/-- The last line begins before the characters that are in it. -/
theorem getLast?_starts (cs : List Char) :
    (0 :: startsFrom 0 cs).getLast? = some (cs.length - (lastLine cs).length) := by
  induction cs using List.reverseRecOn with
  | nil => rfl
  | append_singleton cs c ih =>
    have hle := length_lastLine_le cs
    rw [startsFrom_append, lastLine_concat, startsFrom, List.length_append, List.length_singleton]
    by_cases hc : c = '\n'
    · rw [if_pos hc, if_pos hc, ← List.cons_append, List.getLast?_append, startsFrom, Nat.zero_add]
      rfl
    · rw [if_neg hc, if_neg hc, startsFrom, List.append_nil, ih, List.length_append,
        List.length_singleton, Nat.add_sub_add_right]

/-! ### Looking places up -/

section

variable {starts : Array Nat} {target n : Nat}

/-- In an array in which exactly the first `n` numbers are not greater than the one looked for, and
only the last of these can be equal to it, the search ends at that one or after it. -/
theorem search_eq (hle : ∀ j (hj : j < starts.size), starts[j] ≤ target ↔ j < n)
    (heq : ∀ j (hj : j < starts.size), starts[j] = target → j + 1 = n) {low high : Nat}
    (hhigh : high ≤ starts.size) (hlow : low ≤ n) (hn : n ≤ high) :
    search starts target low high hhigh = .error n ∨
      ∃ k, search starts target low high hhigh = .ok k ∧ k + 1 = n := by
  induction low, high, hhigh using search.induct starts target with
  | case1 low high hhigh h middle hmiddle =>
    rw [search, dif_pos h, if_pos hmiddle]
    exact .inr ⟨middle, rfl, heq middle _ hmiddle⟩
  | case2 low high hhigh h middle hne hlt ih =>
    have hmiddle := (hle middle (by omega)).mp (Nat.le_of_lt hlt)
    rw [search, dif_pos h, if_neg hne, if_pos hlt]
    exact ih hmiddle hn
  | case3 low high hhigh h middle hne hnlt ih =>
    have hmiddle := mt (hle middle (by omega)).mpr (by omega)
    rw [search, dif_pos h, if_neg hne, if_neg hnlt]
    exact ih hlow (Nat.le_of_not_lt hmiddle)
  | case4 low high hhigh h =>
    rw [search, dif_neg h]
    exact .inl (congrArg Except.error (by omega))

theorem line?_eq {t : LineTable} {i : Nat} (hpos : 0 < n) (hsize : n ≤ t.starts.size)
    (hle : ∀ j (hj : j < t.starts.size), t.starts[j] ≤ i ↔ j < n)
    (heq : ∀ j (hj : j < t.starts.size), t.starts[j] = i → j + 1 = n) :
    t.line? i = some (n - 1) := by
  rw [line?]
  rcases search_eq hle heq (Nat.le_refl _) (Nat.zero_le n) hsize with h | ⟨k, h, rfl⟩
  · rw [h]
    exact if_pos hpos
  · rw [h]
    rfl

end

section

variable {cs : List Char} {base : Position} {i : Nat}

/-- The table is made of the lines that begin by an index and those that begin after it. -/
theorem starts_split (hi : i ≤ cs.length) : (ofChars cs base).starts.toList =
    (0 :: startsFrom 0 (cs.take i)) ++ startsFrom i (cs.drop i) := by
  have h := startsFrom_append 0 (cs.take i) (cs.drop i)
  rw [List.take_append_drop, Nat.zero_add, List.length_take_of_le hi] at h
  exact congrArg (0 :: ·) h

theorem length_starts_take (cs : List Char) (i : Nat) :
    (0 :: startsFrom 0 (cs.take i)).length = (cs.take i).count '\n' + 1 := by
  rw [List.length_cons, length_startsFrom]

/-- As many lines begin by an index as there are line feeds before it, and one more. -/
theorem starts_le_iff (hi : i ≤ cs.length) {j : Nat} (hj : j < (ofChars cs base).starts.size) :
    (ofChars cs base).starts[j] ≤ i ↔ j < (cs.take i).count '\n' + 1 := by
  rw [← Array.getElem_toList, List.getElem_of_eq (starts_split hi), ← length_starts_take]
  by_cases h : j < (0 :: startsFrom 0 (cs.take i)).length
  · rw [List.getElem_append_left h]
    refine iff_of_true ?_ h
    rcases List.mem_cons.mp (List.getElem_mem h) with hzero | hmem
    · rw [hzero]
      exact Nat.zero_le i
    · have hbounds := (mem_startsFrom_bounds hmem).2
      rwa [Nat.zero_add, List.length_take_of_le hi] at hbounds
  · rw [List.getElem_append_right (Nat.le_of_not_lt h)]
    exact iff_of_false (Nat.not_le_of_lt (mem_startsFrom_bounds (List.getElem_mem _)).1) h

theorem size_starts (hi : i ≤ cs.length) : (ofChars cs base).starts.size =
    (cs.take i).count '\n' + 1 + (startsFrom i (cs.drop i)).length := by
  rw [← Array.length_toList, starts_split hi, List.length_append, length_starts_take]

/-- Lines begin at different indexes, so of those that begin by an index only the last one can begin
there. -/
theorem eq_of_starts_eq (hi : i ≤ cs.length) {j : Nat} (hj : j < (ofChars cs base).starts.size)
    (h : (ofChars cs base).starts[j] = i) : j + 1 = (cs.take i).count '\n' + 1 := by
  have hlt := (starts_le_iff hi hj).mp (Nat.le_of_eq h)
  by_contra hne
  have hnext : j + 1 < (ofChars cs base).starts.size := by
    rw [size_starts hi]
    omega
  have hle := (starts_le_iff hi hnext).mpr (by omega)
  have hpairwise : (0 :: startsFrom 0 cs).Pairwise (· < ·) :=
    .cons (fun s hs => (mem_startsFrom_bounds hs).1) (pairwise_startsFrom 0 cs)
  have hstep : (ofChars cs base).starts[j] < (ofChars cs base).starts[j + 1] :=
    List.pairwise_iff_getElem.mp hpairwise j (j + 1) hj hnext (Nat.lt_succ_self j)
  omega

theorem line?_ofChars (hi : i ≤ cs.length) :
    (ofChars cs base).line? i = some ((cs.take i).count '\n') := by
  have hsize : (cs.take i).count '\n' + 1 ≤ (ofChars cs base).starts.size := by
    rw [size_starts hi]
    exact Nat.le_add_right _ _
  exact line?_eq (Nat.succ_pos _) hsize (fun j hj => starts_le_iff hi hj)
    (fun j hj => eq_of_starts_eq hi hj)

/-- The line of an index begins before the characters that are in it by the index. -/
theorem starts_line (hi : i ≤ cs.length) :
    (ofChars cs base).starts[(cs.take i).count '\n']? =
      some (i - (lastLine (cs.take i)).length) := by
  have hlast := getLast?_starts (cs.take i)
  rw [List.getLast?_eq_getElem?, length_starts_take, Nat.add_sub_cancel,
    List.length_take_of_le hi] at hlast
  have hlt : (cs.take i).count '\n' < (0 :: startsFrom 0 (cs.take i)).length := by
    rw [length_starts_take]
    exact Nat.lt_succ_self _
  rw [← Array.getElem?_toList, starts_split hi, List.getElem?_append_left hlt, hlast]

/-- The place that is looked up is the one after the characters before the index. -/
theorem position?_ofChars (hi : i ≤ cs.length) :
    (ofChars cs base).position? i = some (base.afterAll (cs.take i)) := by
  have hle := length_lastLine_le (cs.take i)
  rw [List.length_take_of_le hi] at hle
  have hcolumn : difference? i (i - (lastLine (cs.take i)).length) =
      some (lastLine (cs.take i)).length := by
    rw [difference?, if_pos (Nat.sub_le _ _), Nat.sub_sub_self hle]
  simp only [position?, line?_ofChars hi, starts_line hi, hcolumn, Option.bind_eq_bind,
    Option.bind_some]
  rw [Position.afterAll_eq, List.length_take_of_le hi]
  by_cases h : '\n' ∈ cs.take i
  · rw [if_neg (Nat.pos_iff_ne_zero.mp (List.count_pos_iff.mpr h)), if_pos h, Nat.add_comm 1]
    rfl
  · have hbase : difference? (base.column + (i + 1)) 1 = some (base.column + i) :=
      if_pos (Nat.le_add_left 1 _)
    rw [if_pos (List.count_eq_zero.mpr h), if_neg h, lastLine_of_not_mem h,
      List.length_take_of_le hi, List.count_eq_zero.mpr h]
    change (difference? (base.column + (i + 1)) 1).bind _ = _
    rw [hbase]
    rfl

end

/-- **The place of an index.** A cursor and a table of lines lead to the same place. It is as many
lines on as there are line feeds before the index. Its column is told from the characters after the
last line feed, or from all if there is none. The places of different indexes are different ones,
and are in the order of the indexes. -/
theorem place_of_index (cs : List Char) (base : Position) (i : Nat) (hi : i ≤ cs.length) :
    let place (k : Nat) : Position := ((Cursor.ofChars cs base).skip k).position
    (ofChars cs base).position? i = some (place i) ∧
      (place i).line = base.line + (cs.take i).count '\n' ∧
      (place i).column =
        (if '\n' ∈ cs.take i then 1 + (lastLine (cs.take i)).length else base.column + i) ∧
      ∀ j ≤ cs.length, ((place i).Precedes (place j) ↔ i < j) ∧ (place i = place j ↔ i = j) := by
  intro place
  have hplace (k : Nat) : place k = base.afterAll (cs.take k) := Cursor.position_skip k _
  simp only [hplace]
  refine ⟨position?_ofChars hi, ?_, ?_, fun j hj => ?_⟩
  · rw [Position.afterAll_eq]
  · rw [Position.afterAll_eq, List.length_take_of_le hi]
  · rcases Nat.lt_trichotomy i j with hlt | rfl | hgt
    · have h := base.afterAll_take_precedes hlt hj
      exact ⟨iff_of_true h hlt, iff_of_false h.ne (Nat.ne_of_lt hlt)⟩
    · exact ⟨iff_of_false (Position.not_precedes_self _) (Nat.lt_irrefl i), iff_of_true rfl rfl⟩
    · have h := base.afterAll_take_precedes hgt hi
      exact ⟨iff_of_false h.asymm (Nat.lt_asymm hgt), iff_of_false h.ne.symm (Nat.ne_of_gt hgt)⟩

/-- Indexes at a line feed, behind it and at the end of a text that begins in the middle of a
line. -/
theorem place_of_index_lines :
    ∃ (cs : List Char) (base : Position), cs = "ab\n\nc".toList ∧ base = ⟨3, 8⟩ ∧
      4 ≤ cs.length ∧
      (List.range 6).map (ofChars cs base).position? =
        [some ⟨3, 8⟩, some ⟨3, 9⟩, some ⟨3, 10⟩, some ⟨4, 1⟩, some ⟨5, 1⟩, some ⟨5, 2⟩] ∧
      (ofChars cs base).position? 4 = some ((Cursor.ofChars cs base).skip 4).position := by
  have hi : 4 ≤ "ab\n\nc".toList.length := by decide
  refine ⟨_, _, rfl, rfl, hi, ?_, (place_of_index "ab\n\nc".toList ⟨3, 8⟩ 4 hi).1⟩
  decide +kernel

end LineTable
end GatewayMapping.Template
