import Mathlib.Data.List.DropRight
import GatewayMapping.Proofs.Http.MessageRoundTrip

/-!
# When a text is a message

The first line of a text decides whether it is a message, whatever follows: a space has to stand in
it, and after it something else than spaces. All other texts are malformed, except those with
nothing but ends of lines, which are empty (`Http.Message.parse_outcome`). The empty text has one
line, so it is malformed.

Empty pieces are dropped at the end of the lines and at the end of the words of the first line, so
what is left of a list of pieces is known from the pieces that are not empty
(`Http.Message.dropFinalEmpty_cons`).

## Main definitions

* `Http.Message.firstLine`: the line that decides.
* `Http.Message.HasTarget`, `Http.Message.OnlyLineEnds`: the texts that are read, and those that are
  empty.

## Main results

* `Http.Message.parse_outcome`: what reading a text comes to.
-/

namespace GatewayMapping.Http.Message

open Text (splitAt splitAt_eq_splitOn)

/-- The first line of a text, without a carriage return at its end. -/
def firstLine (cs : List Char) : List Char := dropReturn (cs.takeWhile (· ≠ '\n'))

/-- A space stands in the line, and after it, immediately or later, something else. -/
def HasTarget (line : List Char) : Prop :=
  ∃ before after, line = before ++ ' ' :: after ∧ ∃ c ∈ after, c ≠ ' '

/-- The text is not empty, but all its lines are, a carriage return at the end of each apart. -/
def OnlyLineEnds (cs : List Char) : Prop :=
  cs ≠ [] ∧ ∀ line ∈ cs.splitOn '\n', line = [] ∨ line = ['\r']

/-! ### Pieces that are left -/

theorem dropFinalEmpty_eq_nil_iff {ls : List (List Char)} :
    dropFinalEmpty ls = [] ↔ ∀ piece ∈ ls, piece = [] := by
  change ls.rdropWhile List.isEmpty = [] ↔ _
  simp only [List.rdropWhile_eq_nil_iff, List.isEmpty_iff]

/-- A piece is kept if it is not empty or one after it is kept. -/
theorem dropFinalEmpty_cons (piece : List Char) (ls : List (List Char)) :
    dropFinalEmpty (piece :: ls) =
      if piece = [] ∧ dropFinalEmpty ls = [] then [] else piece :: dropFinalEmpty ls := by
  rw [dropFinalEmpty, dropFinalEmpty, List.reverse_cons, List.dropWhile_append]
  cases hls : ls.reverse.dropWhile List.isEmpty with
  | nil => cases piece <;> rfl
  | cons last rest => simp

/-- At least two pieces are left exactly if one after the first is not empty. -/
theorem exists_dropFinalEmpty_eq_iff (first : List Char) {ls : List (List Char)} :
    (∃ second rest, dropFinalEmpty (first :: ls) = first :: second :: rest) ↔
      ∃ piece ∈ ls, piece ≠ [] := by
  rw [dropFinalEmpty_cons]
  constructor
  · rintro ⟨second, rest, h⟩
    by_contra! hls
    rw [dropFinalEmpty_eq_nil_iff.mpr hls] at h
    split at h <;> cases h
  · rintro ⟨piece, hpiece, hne⟩
    have hls : dropFinalEmpty ls ≠ [] := fun hnil =>
      hne (dropFinalEmpty_eq_nil_iff.mp hnil piece hpiece)
    obtain ⟨second, rest, hrest⟩ := List.exists_cons_of_ne_nil hls
    exact ⟨second, rest, by rw [if_neg fun hnil => hls hnil.2, hrest]⟩

/-! ### Words -/

/-- It is enough to look behind the first space. -/
theorem hasTarget_append_cons {before after : List Char} (h : ' ' ∉ before) :
    HasTarget (before ++ ' ' :: after) ↔ ∃ c ∈ after, c ≠ ' ' := by
  refine ⟨?_, fun hafter => ⟨before, after, rfl, hafter⟩⟩
  rintro ⟨before', after', heq, c, hc, hne⟩
  refine ⟨c, ?_, hne⟩
  -- The space that is known of is the first one or a later one.
  rcases List.append_eq_append_iff.mp heq with ⟨_ | ⟨b, between⟩, -, hafter⟩ |
    ⟨_ | ⟨b, between⟩, hbefore, hafter⟩
  · obtain ⟨-, rfl⟩ := List.cons.inj hafter
    exact hc
  · obtain ⟨-, rfl⟩ := List.cons.inj hafter
    exact List.mem_append_right between (List.mem_cons_of_mem ' ' hc)
  · obtain ⟨-, rfl⟩ := List.cons.inj hafter
    exact hc
  · obtain ⟨rfl, -⟩ := List.cons.inj hafter
    exact absurd (hbefore ▸ List.mem_append_right before' List.mem_cons_self) h

/-- A line is cut into two words or more, empty ones among them, exactly if it has a target. -/
theorem exists_pieces_eq_iff {line : List Char} :
    (∃ first second rest, pieces ' ' line = first :: second :: rest) ↔ HasTarget line := by
  by_cases hspace : ' ' ∈ line
  · obtain ⟨before, after, rfl, hbefore⟩ := List.eq_append_cons_of_mem hspace
    have hne : ¬(before ++ ' ' :: after).isEmpty = true := by simp
    rw [hasTarget_append_cons hbefore, pieces, if_neg hne, splitAt_eq_splitOn,
      List.splitOn_append_cons_self_of_not_mem hbefore]
    have hafter : (∃ piece ∈ after.splitOn ' ', piece ≠ []) ↔ ∃ c ∈ after, c ≠ ' ' := by
      simpa using not_congr (Text.forall_splitOn_eq_nil_iff ' ' after)
    rw [← hafter, ← exists_dropFinalEmpty_eq_iff before]
    constructor
    · rintro ⟨first, second, rest, h⟩
      rw [dropFinalEmpty_cons] at h ⊢
      split at h
      · cases h
      · obtain ⟨rfl, hrest⟩ := List.cons.inj h
        exact ⟨second, rest, by rw [if_neg ‹_›, hrest]⟩
    · rintro ⟨second, rest, h⟩
      exact ⟨before, second, rest, h⟩
  · refine iff_of_false ?_ ?_
    · rintro ⟨first, second, rest, h⟩
      rw [pieces, splitAt_eq_splitOn, List.splitOn_eq_singleton hspace, dropFinalEmpty_cons] at h
      split at h
      · cases h
      · split at h <;> cases h
    · rintro ⟨before, after, rfl, -⟩
      exact hspace (List.mem_append_right before List.mem_cons_self)

/-! ### Lines -/

theorem dropReturn_eq_nil_iff {line : List Char} :
    dropReturn line = [] ↔ line = [] ∨ line = ['\r'] := by
  rw [dropReturn]
  split
  · next hlast =>
    obtain ⟨start, rfl⟩ := List.getLast?_eq_some_iff.mp hlast
    simp
  · next hlast =>
    refine ⟨.inl, ?_⟩
    rintro (rfl | rfl)
    · rfl
    · exact absurd rfl hlast

/-- No line is left of a text with nothing but ends of lines. Of any other one the first line is
left. -/
theorem lines_cases (cs : List Char) :
    OnlyLineEnds cs ∧ lines cs = [] ∨
      ¬OnlyLineEnds cs ∧ ∃ rest, lines cs = firstLine cs :: rest := by
  -- The empty text is cut into one line, which is kept though it is empty.
  rcases eq_or_ne cs [] with rfl | hne
  · exact .inr ⟨fun h => h.1 rfl, [], rfl⟩
  have hnil : (∀ piece ∈ (cs.splitOn '\n').map dropReturn, piece = []) ↔ OnlyLineEnds cs := by
    rw [List.forall_mem_map, OnlyLineEnds]
    simp only [dropReturn_eq_nil_iff, ne_eq, hne, not_false_eq_true, true_and]
  rw [lines, if_neg (mt List.isEmpty_iff.mp hne), splitAt_eq_splitOn]
  by_cases hends : OnlyLineEnds cs
  · exact .inl ⟨hends, dropFinalEmpty_eq_nil_iff.mpr (hnil.mpr hends)⟩
  · refine .inr ⟨hends, ?_⟩
    have hleft : dropFinalEmpty ((cs.splitOn '\n').map dropReturn) ≠ [] :=
      fun h => hends (hnil.mp (dropFinalEmpty_eq_nil_iff.mp h))
    obtain ⟨rest, hrest⟩ := Text.exists_splitOn_eq '\n' cs
    rw [hrest, List.map_cons, dropFinalEmpty_cons] at hleft ⊢
    split at hleft
    · exact absurd rfl hleft
    · next hkept => exact ⟨_, by rw [if_neg hkept, firstLine]⟩

/-- A text with nothing but ends of lines has no target in its first line. -/
theorem OnlyLineEnds.not_hasTarget {cs : List Char} (h : OnlyLineEnds cs) :
    ¬HasTarget (firstLine cs) := by
  obtain ⟨rest, hrest⟩ := Text.exists_splitOn_eq '\n' cs
  have hfirst := h.2 _ (hrest ▸ List.mem_cons_self)
  rw [firstLine, dropReturn_eq_nil_iff.mpr hfirst]
  rintro ⟨before, after, heq, -⟩
  exact List.append_ne_nil_of_right_ne_nil before (List.cons_ne_nil ' ' after) heq.symm

/-! ### Reading -/

/-- **When a text is a message.** Reading a text succeeds exactly if its first line has a target,
finds it empty exactly if it has nothing but ends of lines, and in all other cases finds its first
line malformed. -/
theorem parse_outcome (raw : String) :
    ((∃ m, parse raw = .ok m) ↔ HasTarget (firstLine raw.toList)) ∧
      (parse raw = .error .empty ↔ OnlyLineEnds raw.toList) ∧
      ∀ line, parse raw = .error (.malformed line) ↔
        ¬HasTarget (firstLine raw.toList) ∧ ¬OnlyLineEnds raw.toList ∧
          line = String.ofList (firstLine raw.toList) := by
  rcases lines_cases raw.toList with ⟨hends, hlines⟩ | ⟨hends, rest, hlines⟩
  · have hparse : parse raw = .error .empty := by rw [parse, hlines]
    rw [hparse]
    exact ⟨iff_of_false (by simp) hends.not_hasTarget, iff_of_true rfl hends,
      fun line => iff_of_false (by simp) fun h => h.2.1 hends⟩
  rw [← exists_pieces_eq_iff]
  by_cases hpieces : ∃ first second rest,
      pieces ' ' (firstLine raw.toList) = first :: second :: rest
  · obtain ⟨m, hparse⟩ : ∃ m, parse raw = .ok m := by
      obtain ⟨method, target, others, h⟩ := hpieces
      rw [parse, hlines]
      dsimp only
      rw [h]
      exact ⟨_, rfl⟩
    rw [hparse]
    exact ⟨iff_of_true ⟨m, rfl⟩ hpieces, iff_of_false (by simp) hends,
      fun line => iff_of_false (by simp) fun h => h.1 hpieces⟩
  · have hparse : parse raw = .error (.malformed (String.ofList (firstLine raw.toList))) := by
      rw [parse, hlines]
      dsimp only
      split
      · next method target others h => exact absurd ⟨method, target, others, h⟩ hpieces
      · rfl
    rw [hparse]
    refine ⟨iff_of_false (by simp) hpieces, iff_of_false (by simp) hends, fun line => ?_⟩
    constructor
    · rintro ⟨⟩
      exact ⟨hpieces, hends, rfl⟩
    · rintro ⟨-, -, rfl⟩
      rfl

end GatewayMapping.Http.Message
