import GatewayMapping.Proofs.Http.Acceptance

/-!
# The head and the body of a message

A head is the first line of a message and its headers, no line of which is blank. What follows a
head after an empty line is the body, whatever it looks like: nothing of it gets into the headers,
and it loses nothing but white space at its ends and a carriage return at the end of each of its
lines (`Http.Message.parse_append_body`).

The lines of the head and the body together are the lines of the head, an empty one and the lines of
the body. Empty lines are dropped at the end of all of them. They are lines of the body or the one
before it, and white space at the end of the body is trimmed anyway.

## Main definitions

* `Http.Message.withoutReturns`: a text without the carriage returns at the ends of its lines.

## Main results

* `Http.Message.parse_append_body`: a message is read from a head and a body.
-/

namespace GatewayMapping.Http.Message

open Text (isBlank splitAt splitAt_eq_splitOn)

/-- A text with one carriage return less before each line feed and at the end. -/
def withoutReturns : List Char → List Char
  | [] => []
  | c :: cs =>
    if c = '\r' ∧ (cs = [] ∨ cs.head? = some '\n') then withoutReturns cs
    else c :: withoutReturns cs

/-- A line that holds something else than white space. -/
def IsFilled (line : List Char) : Prop := ∃ c ∈ line, isBlank c = false

/-! ### Carriage returns -/

theorem dropReturn_cons (c : Char) (line : List Char) :
    dropReturn (c :: line) = if c = '\r' ∧ line = [] then [] else c :: dropReturn line := by
  rw [dropReturn, dropReturn]
  cases line with
  | nil => by_cases hc : c = '\r' <;> simp [hc]
  | cons d line =>
    rw [List.getLast?_cons_cons, if_neg (by simp : ¬(c = '\r' ∧ d :: line = []))]
    split <;> rfl

/-- Without its carriage returns, a text is its lines without theirs. -/
theorem withoutReturns_eq_join (cs : List Char) :
    withoutReturns cs = ['\n'].intercalate ((cs.splitOn '\n').map dropReturn) := by
  induction cs with
  | nil => rfl
  | cons c cs ih =>
    obtain ⟨rest, hrest⟩ := Text.exists_splitOn_eq '\n' cs
    rw [withoutReturns, List.splitOn_cons_eq_if_modifyHead, ih]
    by_cases hc : c = '\n'
    · have hne : (cs.splitOn '\n').map dropReturn ≠ [] :=
        mt List.map_eq_nil_iff.mp (List.splitOn_ne_nil '\n' cs)
      rw [if_neg (by simp [hc]), if_pos (beq_iff_eq.mpr hc), List.map_cons,
        List.intercalate_cons_of_ne_nil hne, hc]
      rfl
    · have hfirst : cs.takeWhile (· ≠ '\n') = [] ↔ cs = [] ∨ cs.head? = some '\n' := by
        cases cs with
        | nil => simp
        | cons d cs => simp [List.takeWhile_cons]
      rw [if_neg (mt beq_iff_eq.mp hc), hrest, List.modifyHead_cons, List.map_cons, List.map_cons,
        dropReturn_cons]
      -- A carriage return is dropped where it is the last character of its line.
      by_cases hreturn : c = '\r' ∧ (cs = [] ∨ cs.head? = some '\n')
      · rw [if_pos hreturn, if_pos (hreturn.imp_right hfirst.mpr), hfirst.mpr hreturn.2]
        rfl
      · rw [if_neg hreturn, if_neg (mt (And.imp_right hfirst.mp) hreturn),
          List.intercalate_cons_cons_left]

/-- A carriage return is white space, so a filled line is still filled without it. -/
theorem IsFilled.dropReturn {line : List Char} (h : IsFilled line) :
    IsFilled (dropReturn line) := by
  obtain ⟨c, hc, hblank⟩ := h
  refine ⟨c, ?_, hblank⟩
  rw [Message.dropReturn]
  split
  · next hlast =>
    obtain ⟨start, rfl⟩ := List.getLast?_eq_some_iff.mp hlast
    rw [List.dropLast_concat]
    refine (List.mem_append.mp hc).resolve_right fun hend => ?_
    rw [List.mem_singleton.mp hend] at hblank
    exact absurd hblank (by decide)
  · exact hc

theorem IsFilled.ne_nil {line : List Char} (h : IsFilled line) : line ≠ [] := by
  obtain ⟨c, hc, -⟩ := h
  exact List.ne_nil_of_mem hc

/-! ### Lines of a head and a body -/

/-- Pieces that are not empty are kept, whatever follows. -/
theorem dropFinalEmpty_append_of_forall {ls : List (List Char)} (h : ∀ line ∈ ls, line ≠ [])
    (rest : List (List Char)) : dropFinalEmpty (ls ++ rest) = ls ++ dropFinalEmpty rest := by
  induction ls with
  | nil => rfl
  | cons line ls ih =>
    obtain ⟨hline, hls⟩ := List.forall_mem_cons.mp h
    rw [List.cons_append, dropFinalEmpty_cons, if_neg fun hnil => hline hnil.1, ih hls,
      List.cons_append]

/-- Without the empty lines at its end, a text has lost line feeds at its end. -/
theorem exists_join_dropFinalEmpty (ls : List (List Char)) :
    ∃ feeds, (∀ c ∈ feeds, c = '\n') ∧
      ['\n'].intercalate ls = ['\n'].intercalate (dropFinalEmpty ls) ++ feeds := by
  induction ls with
  | nil => exact ⟨[], nofun, rfl⟩
  | cons line ls ih =>
    obtain ⟨feeds, hfeeds, hjoin⟩ := ih
    -- The last line has no line feed after it, so nothing is lost with it.
    by_cases hls : ls = []
    · refine ⟨[], nofun, ?_⟩
      rw [hls, dropFinalEmpty_cons]
      split
      · next hline =>
        rw [hline.1]
        rfl
      · rw [List.append_nil]
        rfl
    rw [List.intercalate_cons_of_ne_nil hls, hjoin, dropFinalEmpty_cons]
    by_cases hleft : dropFinalEmpty ls = []
    · refine ⟨'\n' :: feeds, List.forall_mem_cons.mpr ⟨rfl, hfeeds⟩, ?_⟩
      rw [hleft]
      split
      · next hline =>
        rw [hline.1]
        rfl
      · rw [List.intercalate_singleton, List.intercalate_nil, List.append_assoc]
        rfl
    · refine ⟨feeds, hfeeds, ?_⟩
      rw [if_neg fun hnil => hleft hnil.2, List.intercalate_cons_of_ne_nil hleft]
      simp only [List.append_assoc]

/-- The lines of a body, of which the empty ones at the end are dropped, are joined to the body
without white space at its ends. -/
theorem bodyOf_dropFinalEmpty (body : String) :
    bodyOf (dropFinalEmpty ((body.toList.splitOn '\n').map dropReturn)) =
      Text.trim (String.ofList (withoutReturns body.toList)) := by
  obtain ⟨feeds, hfeeds, hjoin⟩ :=
    exists_join_dropFinalEmpty ((body.toList.splitOn '\n').map dropReturn)
  have hblank : ∀ c ∈ feeds, isBlank c = true := by
    intro c hc
    rw [hfeeds c hc]
    rfl
  rw [bodyOf, joinLines_eq, Text.trim, String.toList_ofList, withoutReturns_eq_join, hjoin,
    Text.trimWhere_append_of_forall hblank]

section

variable {head : String} (hlines : ∀ line ∈ head.toList.splitOn '\n', IsFilled line)
include hlines

/-- All lines of a head are kept, and before the lines of a body stands an empty one if any of them
is kept. -/
theorem lines_head_append (body : String) :
    ∃ ls, (∀ line ∈ ls, IsFilled line) ∧ lines head.toList = ls ∧
      lines (head ++ "\n\n" ++ body).toList =
        ls ++ dropFinalEmpty ([] :: (body.toList.splitOn '\n').map dropReturn) := by
  have hfilled : ∀ line ∈ (head.toList.splitOn '\n').map dropReturn, IsFilled line := by
    intro line hline
    obtain ⟨line, hmem, rfl⟩ := List.mem_map.mp hline
    exact (hlines line hmem).dropReturn
  have hkept := dropFinalEmpty_append_of_forall fun line hline => (hfilled line hline).ne_nil
  have hhead : ¬head.toList.isEmpty = true := by
    intro hnil
    rw [List.isEmpty_iff.mp hnil] at hlines
    exact (hlines [] List.mem_cons_self).ne_nil rfl
  have hraw : (head ++ "\n\n" ++ body).toList = head.toList ++ '\n' :: ('\n' :: body.toList) := by
    simp
  refine ⟨_, hfilled, ?_, ?_⟩
  · have hnil := hkept []
    rw [List.append_nil] at hnil
    rw [lines, if_neg hhead, splitAt_eq_splitOn, hnil]
    exact List.append_nil _
  · have hempty : ('\n' :: body.toList).splitOn '\n' = [] :: body.toList.splitOn '\n' :=
      List.splitOn_append_cons_self_of_not_mem List.not_mem_nil body.toList
    rw [hraw, lines, if_neg (by simp), splitAt_eq_splitOn, List.splitOn_append_cons_self, hempty,
      List.map_append, List.map_cons, hkept]
    rfl

end

/-! ### Reading a head and a body -/

/-- The lines before the first blank one are the head, and only the body depends on the others. -/
theorem parse_of_lines_append {head raw : String} {m : Message} {ls tail : List (List Char)}
    (hls : ∀ line ∈ ls, IsFilled line) (htail : ∀ line ∈ tail.head?, line = [])
    (hhead : lines head.toList = ls) (hraw : lines raw.toList = ls ++ tail)
    (h : parse head = .ok m) :
    parse raw = .ok { m with body := bodyOf tail.tail } ∧ m.body = "" := by
  have hblank : tail.takeWhile (fun line => !line.all isBlank) = [] ∧
      tail.dropWhile (fun line => !line.all isBlank) = tail := by
    cases tail with
    | nil => exact ⟨rfl, rfl⟩
    | cons line tail =>
      obtain rfl := htail line rfl
      exact ⟨rfl, rfl⟩
  rw [parse, hhead] at h
  rw [parse, hraw]
  cases ls with
  | nil => cases h
  | cons requestLine rest =>
    have hrest : ∀ line ∈ rest, (!line.all isBlank) = true := by
      intro line hline
      obtain ⟨c, hc, hc'⟩ := hls line (List.mem_cons_of_mem _ hline)
      rw [Bool.not_eq_true', List.all_eq_false]
      exact ⟨c, hc, by simp [hc']⟩
    have htake : rest.takeWhile (fun line => !line.all isBlank) = rest := by
      rw [← List.append_nil rest, List.takeWhile_append_of_pos hrest, List.takeWhile_nil]
    have hdrop : rest.dropWhile (fun line => !line.all isBlank) = [] := by
      rw [← List.append_nil rest, List.dropWhile_append_of_pos hrest, List.dropWhile_nil]
    rw [List.cons_append]
    dsimp only at h ⊢
    split at h
    · cases h
      rw [List.takeWhile_append_of_pos hrest, List.dropWhile_append_of_pos hrest, hblank.1,
        hblank.2, List.append_nil, htake, hdrop]
      exact ⟨rfl, rfl⟩
    · cases h

/-- **The head and the body do not interfere.** A head that is read as a message and is followed by
an empty line and a body is read as the same message with that body, less a carriage return at the
end of each line and the white space at its ends. By itself the head has the empty body. -/
theorem parse_append_body {head : String} {m : Message}
    (hlines : ∀ line ∈ head.toList.splitOn '\n', IsFilled line) (h : parse head = .ok m)
    (body : String) :
    parse (head ++ "\n\n" ++ body) =
        .ok { m with body := Text.trim (String.ofList (withoutReturns body.toList)) } ∧
      m.body = "" := by
  obtain ⟨ls, hls, hhead, hraw⟩ := lines_head_append hlines body
  have htail : ∀ line ∈ (dropFinalEmpty
      ([] :: (body.toList.splitOn '\n').map dropReturn)).head?, line = [] := by
    intro line hline
    rw [dropFinalEmpty_cons] at hline
    split at hline
    · cases hline
    · cases hline
      rfl
  have hbody : (dropFinalEmpty ([] :: (body.toList.splitOn '\n').map dropReturn)).tail =
      dropFinalEmpty ((body.toList.splitOn '\n').map dropReturn) := by
    rw [dropFinalEmpty_cons]
    split
    · next hnil =>
      rw [hnil.2]
      rfl
    · rfl
  have hparse := parse_of_lines_append hls htail hhead hraw h
  rwa [hbody, bodyOf_dropFinalEmpty] at hparse

/-- A body that begins with a blank line and goes on like a header, after a head with a header of
that name. -/
theorem parse_append_body_like_header :
    let head := "PUT /x?a=1 HTTP/1.1\r\nHost: here"
    let m : Message := {
      method := some "PUT", path := "/x", query := .ofList [("a", "1")]
      headers := .ofList [("Host", "here")], pathParams := .empty, body := "" }
    let body := "\r\nHost: there\r\n\n 7\r\r\n8\r\n"
    (∀ line ∈ head.toList.splitOn '\n', IsFilled line) ∧ parse head = .ok m ∧
      Text.trim (String.ofList (withoutReturns body.toList)) = "Host: there\n\n 7\r\n8" ∧
      parse (head ++ "\n\n" ++ body) =
        .ok { m with body := Text.trim (String.ofList (withoutReturns body.toList)) } ∧
      m.body = "" := by
  intro head m body
  have hlines : ∀ line ∈ head.toList.splitOn '\n', IsFilled line := by
    have hall : (head.toList.splitOn '\n').all (·.any fun c => !isBlank c) = true := by
      decide +kernel
    simpa [IsFilled] using hall
  have hparse : parse head = .ok m := by decide +kernel
  exact ⟨hlines, hparse, by decide +kernel, parse_append_body hlines hparse body⟩

end GatewayMapping.Http.Message
