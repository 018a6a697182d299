import GatewayMapping.Text.Blank
import GatewayMapping.Text.Search

/-!
# Cutting and trimming texts

Cutting a text at every separator is `List.splitOn`, so pieces without separators that are joined
again are the pieces that come back (`Text.splitAt_join`). A text that has been trimmed has no
character of the class at either end.
-/

namespace GatewayMapping.Text

/-! ### Pieces -/

theorem splitAt_eq_splitOn (separator : Char) (cs : List Char) :
    splitAt separator cs = cs.splitOn separator := by
  induction cs with
  | nil => rfl
  | cons c cs ih =>
    rw [splitAt, List.splitOn_cons_eq_if_modifyHead, ← ih]
    by_cases hc : c = separator
    · rw [if_pos hc, if_pos (beq_iff_eq.mpr hc)]
    · rw [if_neg hc, if_neg (mt beq_iff_eq.mp hc)]
      cases hcs : splitAt separator cs with
      | nil => exact absurd (ih ▸ hcs) (List.splitOn_ne_nil separator cs)
      | cons piece pieces => rfl

theorem splitAt_ne_nil (separator : Char) (cs : List Char) : splitAt separator cs ≠ [] := by
  rw [splitAt_eq_splitOn]
  exact List.splitOn_ne_nil separator cs

/-- There is one piece more than there are separators. -/
theorem length_splitAt (separator : Char) (cs : List Char) :
    (splitAt separator cs).length = cs.count separator + 1 := by
  induction cs with
  | nil => rfl
  | cons c cs ih =>
    rw [splitAt]
    by_cases hc : c = separator
    · rw [if_pos hc, hc, List.count_cons_self, List.length_cons, ih]
    · rw [if_neg hc, List.count_cons_of_ne hc]
      cases hcs : splitAt separator cs with
      | nil => exact absurd hcs (splitAt_ne_nil separator cs)
      | cons piece pieces => rw [← ih, hcs, List.length_cons, List.length_cons]

/-- Joined again, the pieces of a text are the text. -/
theorem join_splitAt (separator : Char) (cs : List Char) :
    [separator].intercalate (splitAt separator cs) = cs := by
  rw [splitAt_eq_splitOn, List.intercalate_splitOn]

/-- Pieces joined by a separator that none of them holds are cut into the same pieces. -/
theorem splitAt_join {separator : Char} {pieces : List (List Char)} (hne : pieces ≠ [])
    (h : ∀ piece ∈ pieces, separator ∉ piece) :
    splitAt separator ([separator].intercalate pieces) = pieces := by
  rw [splitAt_eq_splitOn]
  exact List.splitOn_intercalate separator h hne

/-- No piece holds a separator. -/
theorem not_mem_of_mem_splitAt {separator : Char} {cs piece : List Char}
    (h : piece ∈ splitAt separator cs) : separator ∉ piece := by
  induction cs generalizing piece with
  | nil =>
    obtain rfl := List.mem_singleton.mp h
    exact List.not_mem_nil
  | cons c cs ih =>
    rw [splitAt] at h
    split at h
    · rcases List.mem_cons.mp h with rfl | hrest
      · exact List.not_mem_nil
      · exact ih hrest
    · next hc =>
      cases hcs : splitAt separator cs with
      | nil => exact absurd hcs (splitAt_ne_nil separator cs)
      | cons first rest =>
        rw [hcs] at h
        rcases List.mem_cons.mp h with rfl | hrest
        · have hfirst : separator ∉ first := ih (hcs ▸ List.mem_cons_self)
          simpa [Ne.symm hc] using hfirst
        · exact ih (hcs ▸ List.mem_cons_of_mem first hrest)

/-- The characters of joined pieces. -/
theorem mem_join {separator c : Char} {pieces : List (List Char)}
    (h : c ∈ [separator].intercalate pieces) : c = separator ∨ ∃ piece ∈ pieces, c ∈ piece := by
  induction pieces with
  | nil => cases h
  | cons piece pieces ih =>
    by_cases hne : pieces = []
    · subst hne
      rw [List.intercalate_singleton] at h
      exact .inr ⟨piece, List.mem_cons_self, h⟩
    · rw [List.intercalate_cons_of_ne_nil hne, List.mem_append, List.mem_append,
        List.mem_singleton] at h
      rcases h with (hpiece | hsep) | hrest
      · exact .inr ⟨piece, List.mem_cons_self, hpiece⟩
      · exact .inl hsep
      · exact (ih hrest).imp_right fun ⟨l, hl, hc⟩ => ⟨l, List.mem_cons_of_mem _ hl, hc⟩

/-- All pieces of a text are empty exactly if it holds nothing but separators. -/
theorem forall_splitOn_eq_nil_iff (separator : Char) (cs : List Char) :
    (∀ piece ∈ cs.splitOn separator, piece = []) ↔ ∀ c ∈ cs, c = separator := by
  constructor
  · intro h c hc
    have hjoin : [separator].intercalate (cs.splitOn separator) = cs :=
      List.intercalate_splitOn separator
    rw [← hjoin] at hc
    refine (mem_join hc).resolve_right ?_
    rintro ⟨piece, hpiece, hmem⟩
    rw [h piece hpiece] at hmem
    cases hmem
  · intro h
    induction cs with
    | nil => simp
    | cons c cs ih =>
      obtain ⟨rfl, hcs⟩ := List.forall_mem_cons.mp h
      rw [← List.nil_append (c :: cs), List.splitOn_append_cons_self_of_not_mem List.not_mem_nil]
      exact List.forall_mem_cons.mpr ⟨rfl, ih hcs⟩

/-- The first piece of a text is what stands before its first separator. -/
theorem exists_splitOn_eq (separator : Char) (cs : List Char) :
    ∃ rest, cs.splitOn separator = cs.takeWhile (· ≠ separator) :: rest := by
  have htake {before : List Char} (h : separator ∉ before) (after : List Char) :
      (before ++ after).takeWhile (· ≠ separator) = before ++ after.takeWhile (· ≠ separator) :=
    List.takeWhile_append_of_pos fun c hc => decide_eq_true (ne_of_mem_of_not_mem hc h)
  by_cases hmem : separator ∈ cs
  · obtain ⟨before, after, rfl, hbefore⟩ := List.eq_append_cons_of_mem hmem
    refine ⟨after.splitOn separator, ?_⟩
    rw [List.splitOn_append_cons_self_of_not_mem hbefore, htake hbefore,
      List.takeWhile_cons_of_neg (by simp), List.append_nil]
  · have hall := htake hmem []
    rw [List.append_nil, List.takeWhile_nil, List.append_nil] at hall
    exact ⟨[], by rw [List.splitOn_eq_singleton hmem, hall]⟩

/-- A text is cut at its first separator. -/
theorem cutAt?_append_cons {separator : Char} {before : List Char} (h : separator ∉ before)
    (after : List Char) :
    cutAt? separator (before ++ separator :: after) = some (before, after) := by
  induction before with
  | nil => rw [List.nil_append, cutAt?, if_pos rfl]
  | cons c before ih =>
    obtain ⟨hc, hbefore⟩ := not_or.mp (mt List.mem_cons.mpr h)
    rw [List.cons_append, cutAt?, if_neg (Ne.symm hc), ih hbefore]
    rfl

theorem cutAt?_eq_none {separator : Char} {cs : List Char} (h : separator ∉ cs) :
    cutAt? separator cs = none := by
  induction cs with
  | nil => rfl
  | cons c cs ih =>
    obtain ⟨hc, hcs⟩ := not_or.mp (mt List.mem_cons.mpr h)
    rw [cutAt?, if_neg (Ne.symm hc), ih hcs]
    rfl

/-! ### Trimmed texts -/

variable {p : Char → Bool}

theorem trimWhere_cons_of_pos {c : Char} (hc : p c = true) (cs : List Char) :
    trimWhere p (c :: cs) = trimWhere p cs := by
  rw [trimWhere, List.dropWhile_cons_of_pos hc, trimWhere]

/-- Characters of the class at the end of a text make no difference to its trim. -/
theorem trimWhere_append_of_forall {ds : List Char} (h : ∀ c ∈ ds, p c = true) (cs : List Char) :
    trimWhere p (cs ++ ds) = trimWhere p cs := by
  rw [trimWhere, trimWhere, List.dropWhile_append]
  split
  · next hcs =>
    have hds : (ds ++ []).dropWhile p = [] := List.dropWhile_append_of_pos h
    rw [List.append_nil] at hds
    rw [hds, List.isEmpty_iff.mp hcs]
  · have hreverse : ∀ c ∈ ds.reverse, p c = true := fun c hc => h c (List.mem_reverse.mp hc)
    rw [List.reverse_append, List.dropWhile_append_of_pos hreverse]

private theorem dropWhile_eq_self {cs : List Char} (h : ∀ c, cs.head? = some c → p c = false) :
    cs.dropWhile p = cs := by
  cases cs with
  | nil => rfl
  | cons c cs => exact List.dropWhile_cons_of_neg (Bool.eq_false_iff.mp (h c rfl))

/-- A text with no character of the class at either end is its own trim. -/
theorem trimWhere_eq_self {cs : List Char} (hhead : ∀ c, cs.head? = some c → p c = false)
    (hlast : ∀ c, cs.getLast? = some c → p c = false) : trimWhere p cs = cs := by
  rw [trimWhere, dropWhile_eq_self hhead,
    dropWhile_eq_self fun c hc => hlast c (List.head?_reverse ▸ hc), List.reverse_reverse]

/-- So is a text without any. -/
theorem trimWhere_eq_self_of_forall {cs : List Char} (h : ∀ c ∈ cs, p c = false) :
    trimWhere p cs = cs :=
  trimWhere_eq_self (fun c hc => h c (List.mem_of_head? hc))
    fun c hc => h c (List.mem_of_getLast? hc)

/-- A trimmed text does not end in a character of the class. -/
theorem not_of_getLast?_trimWhere {cs : List Char} {c : Char}
    (h : (trimWhere p cs).getLast? = some c) : p c = false := by
  rw [trimWhere, List.getLast?_reverse] at h
  have hhead := List.head?_dropWhile_not p (cs.dropWhile p).reverse
  rw [h] at hhead
  simpa using hhead

/-- A trimmed text does not begin with a character of the class: what is left after the drop at
the front either keeps its first character or is dropped as a whole. -/
theorem not_of_head?_trimWhere {cs : List Char} {c : Char}
    (h : (trimWhere p cs).head? = some c) : p c = false := by
  have hhead := List.head?_dropWhile_not p cs
  obtain ⟨dropped, hdropped⟩ := List.dropWhile_suffix p (l := (cs.dropWhile p).reverse)
  have hsplit : cs.dropWhile p = trimWhere p cs ++ dropped.reverse := by
    rw [trimWhere, ← List.reverse_append, hdropped, List.reverse_reverse]
  rw [hsplit, List.head?_append, h] at hhead
  simpa using hhead

/-- A text that is its own trim. -/
theorem trimWhere_toList {s : String} (h : trim s = s) : trimWhere isBlank s.toList = s.toList :=
  calc trimWhere isBlank s.toList = (trim s).toList := String.toList_ofList.symm
    _ = s.toList := by rw [h]

/-- A text that is its own trim does not end in white space. -/
theorem not_blank_of_getLast? {s : String} (h : trim s = s) {c : Char}
    (hc : s.toList.getLast? = some c) : isBlank c = false :=
  not_of_getLast?_trimWhere (trimWhere_toList h ▸ hc)

/-- A text that is its own trim does not begin with white space. -/
theorem not_blank_of_head? {s : String} (h : trim s = s) {c : Char}
    (hc : s.toList.head? = some c) : isBlank c = false :=
  not_of_head?_trimWhere (trimWhere_toList h ▸ hc)

end GatewayMapping.Text
