import GatewayMapping.Http.Reader
import GatewayMapping.Proofs.OrderedMap
import GatewayMapping.Proofs.Text.Pieces

/-!
# Messages written and read

A message is written with its method and target on the first line, a line for each header, an
empty line and the body, where all lines end in a line feed or all of them in a carriage return
and a line feed. Reading the text gives the message back (`Http.Message.parse_write`).

The reader takes carriage returns from the ends of lines and drops empty lines at the end of the
text. The first does no harm as no line of the message ends in a carriage return itself; the
second only reaches past the body, or, if the body is empty, up to the last header.

## Main definitions

* `Http.Message.write`: the text of a message.
* `Http.Message.Writable`: the messages that a text can write.

## Main results

* `Http.Message.parse_write`: they are read from their texts.
-/

namespace GatewayMapping.Http

open Text (isBlank splitAt splitAt_eq_splitOn)

/-- What ends the lines of a text. -/
inductive LineEnd where
  | lf
  | crlf
  deriving DecidableEq, Repr

/-- The characters that end a line. -/
def LineEnd.chars : LineEnd → List Char
  | .lf => ['\n']
  | .crlf => ['\r', '\n']

/-- A text with the end of a line for every line feed. -/
def LineEnd.apply (e : LineEnd) (cs : List Char) : List Char :=
  cs.flatMap fun c => if c = '\n' then e.chars else [c]

namespace Message

/-! ### Writing -/

/-- A query pair as it stands in a target. -/
def queryPairText (pair : String × String) : List Char := pair.1.toList ++ '=' :: pair.2.toList

/-- The path, and the query after a question mark if there is one. -/
def targetText (m : Message) : List Char :=
  m.path.toList ++
    if m.query.entries.isEmpty then []
    else '?' :: ['&'].intercalate (m.query.entries.map queryPairText)

/-- The method and the target. -/
def requestLine (m : Message) : List Char := (m.method.getD "").toList ++ ' ' :: m.targetText

/-- A header as a line. -/
def headerLine (header : String × String) : List Char :=
  header.1.toList ++ ':' :: ' ' :: header.2.toList

/-- The text of a message with line feeds only. The last line of the body may be without an
end. -/
def text (m : Message) (closed : Bool) : List Char :=
  m.requestLine ++ '\n' :: ((m.headers.entries.map headerLine).flatMap (· ++ ['\n']) ++
    '\n' :: (m.body.toList ++ if closed then ['\n'] else []))

/-- The text of a message whose lines end in one way. -/
def write (m : Message) (e : LineEnd) (closed : Bool) : String :=
  String.ofList (e.apply (m.text closed))

/-! ### What can be written -/

/-- A text that is not empty and has no white space. -/
def IsToken (s : String) : Prop := s ≠ "" ∧ ∀ c ∈ s.toList, isBlank c = false

/-- A query pair that ends neither its own key nor the target. -/
structure WritablePair (pair : String × String) : Prop where
  key : ∀ c ∈ pair.1.toList, c ≠ '&' ∧ c ≠ '=' ∧ isBlank c = false
  value : ∀ c ∈ pair.2.toList, c ≠ '&' ∧ isBlank c = false

/-- A header that stays on its line and has no white space at the ends of its parts. -/
structure WritableHeader (header : String × String) : Prop where
  name_ne : header.1 ≠ ""
  name : ∀ c ∈ header.1.toList, c ≠ ':' ∧ c ≠ '\n'
  name_trim : Text.trim header.1 = header.1
  value : '\n' ∉ header.2.toList
  value_trim : Text.trim header.2 = header.2

/-- A message that a text can write. Path parameters are no part of the text. -/
structure Writable (m : Message) : Prop where
  method : ∃ method, m.method = some method ∧ IsToken method
  path : IsToken m.path
  path_mark : '?' ∉ m.path.toList
  query : ∀ pair ∈ m.query.entries, WritablePair pair
  headers : ∀ header ∈ m.headers.entries, WritableHeader header
  pathParams : m.pathParams = .empty
  body_trim : Text.trim m.body = m.body
  body_returns : ¬['\r', '\n'] <:+: m.body.toList

/-! ### Lines -/

variable {e : LineEnd} {m : Message}

private theorem apply_eq_self {line : List Char} (h : '\n' ∉ line) : e.apply line = line := by
  induction line with
  | nil => rfl
  | cons c line ih =>
    obtain ⟨hc, hline⟩ := not_or.mp (mt List.mem_cons.mpr h)
    rw [LineEnd.apply, List.flatMap_cons, if_neg (Ne.symm hc)]
    exact congrArg (c :: ·) (ih hline)

private theorem apply_append_cons {line : List Char} (h : '\n' ∉ line) (rest : List Char) :
    e.apply (line ++ '\n' :: rest) = line ++ (e.chars ++ e.apply rest) := by
  rw [LineEnd.apply, List.flatMap_append, List.flatMap_cons, if_pos rfl]
  exact congrArg (· ++ (e.chars ++ e.apply rest)) (apply_eq_self h)

theorem dropReturn_append (line : List Char) : dropReturn (line ++ ['\r']) = line := by
  rw [dropReturn, if_pos List.getLast?_concat, List.dropLast_concat]

theorem dropReturn_eq_self {line : List Char} (h : line.getLast? ≠ some '\r') :
    dropReturn line = line :=
  if_neg h

/-- Lines that do not end in a carriage return are found again, whichever way they end. -/
theorem splitAt_apply {ls : List (List Char)} (hne : ls ≠ [])
    (hfeed : ∀ line ∈ ls, '\n' ∉ line) (hreturn : ∀ line ∈ ls, line.getLast? ≠ some '\r') :
    (splitAt '\n' (e.apply (['\n'].intercalate ls))).map dropReturn = ls := by
  induction ls with
  | nil => exact absurd rfl hne
  | cons line ls ih =>
    have hline := hfeed line List.mem_cons_self
    have hend := hreturn line List.mem_cons_self
    cases ls with
    | nil =>
      rw [List.intercalate_singleton, apply_eq_self hline, splitAt_eq_splitOn,
        List.splitOn_eq_singleton hline, List.map_singleton, dropReturn_eq_self hend]
    | cons next ls =>
      have hrest := ih (List.cons_ne_nil next ls) (fun l hl => hfeed l (List.mem_cons_of_mem _ hl))
        fun l hl => hreturn l (List.mem_cons_of_mem _ hl)
      rw [splitAt_eq_splitOn] at hrest ⊢
      rw [List.intercalate_cons_cons, List.append_assoc, List.singleton_append,
        apply_append_cons hline]
      cases e with
      | lf =>
        rw [LineEnd.chars, List.singleton_append, List.splitOn_append_cons_self_of_not_mem hline,
          List.map_cons, dropReturn_eq_self hend, hrest]
      | crlf =>
        have hcr : '\n' ∉ line ++ ['\r'] := by simpa using hline
        rw [LineEnd.chars, List.cons_append, List.singleton_append, List.append_cons,
          List.splitOn_append_cons_self_of_not_mem hcr, List.map_cons, dropReturn_append, hrest]

/-- A piece that is not empty stops the drop of empty pieces. -/
theorem dropFinalEmpty_append (ls : List (List Char)) {last : List Char} (h : last ≠ []) :
    dropFinalEmpty (ls ++ [last]) = ls ++ [last] := by
  have hlast : ¬last.isEmpty = true := mt List.isEmpty_iff.mp h
  rw [dropFinalEmpty, List.reverse_concat, List.dropWhile_cons_of_neg hlast, List.reverse_cons,
    List.reverse_reverse]

theorem dropFinalEmpty_eq_self {ls : List (List Char)} (hne : ls ≠ []) (h : ls.getLast hne ≠ []) :
    dropFinalEmpty ls = ls := by
  have happend := dropFinalEmpty_append ls.dropLast h
  rwa [List.dropLast_concat_getLast hne] at happend

theorem dropFinalEmpty_append_nil (ls : List (List Char)) :
    dropFinalEmpty (ls ++ [[]]) = dropFinalEmpty ls := by
  rw [dropFinalEmpty, List.reverse_concat, List.dropWhile_cons_of_pos rfl, dropFinalEmpty]

/-! ### The lines of a message -/

/-- The lines of a message up to the empty one. -/
def headLines (m : Message) : List (List Char) :=
  m.requestLine :: m.headers.entries.map headerLine

/-- All lines of a message, with an empty one after a body whose last line ends. -/
def allLines (m : Message) (closed : Bool) : List (List Char) :=
  m.headLines ++ [] :: (splitAt '\n' m.body.toList ++ if closed then [[]] else [])

/-- Lines joined to others are ended lines before them. -/
private theorem join_append (ls : List (List Char)) {rest : List (List Char)} (hne : rest ≠ []) :
    ['\n'].intercalate (ls ++ rest) =
      ls.flatMap (· ++ ['\n']) ++ ['\n'].intercalate rest := by
  induction ls with
  | nil => rfl
  | cons line ls ih =>
    rw [List.cons_append,
      List.intercalate_cons_of_ne_nil (List.append_ne_nil_of_right_ne_nil ls hne), ih,
      List.flatMap_cons, List.append_assoc (line ++ ['\n'])]

private theorem splitAt_body (m : Message) (closed : Bool) :
    splitAt '\n' (m.body.toList ++ if closed then ['\n'] else []) =
      splitAt '\n' m.body.toList ++ if closed then [[]] else [] := by
  cases closed with
  | false => simp
  | true => simp [splitAt_eq_splitOn, List.splitOn_append_cons_self]

theorem text_eq_join (m : Message) (closed : Bool) :
    m.text closed = ['\n'].intercalate (m.allLines closed) := by
  have hbody (cs : List Char) : ['\n'].intercalate ([] :: splitAt '\n' cs) = '\n' :: cs := by
    calc ['\n'].intercalate ([[]] ++ splitAt '\n' cs)
      _ = ['\n'] ++ ['\n'].intercalate (splitAt '\n' cs) :=
        join_append [[]] (Text.splitAt_ne_nil '\n' cs)
      _ = '\n' :: cs := by rw [Text.join_splitAt, List.singleton_append]
  rw [allLines, ← splitAt_body, join_append _ (List.cons_ne_nil _ _), hbody, headLines,
    List.flatMap_cons, text]
  simp only [List.append_assoc, List.cons_append, List.nil_append]

/-- A line among joined lines is the last one, or a line feed follows it. -/
private theorem line_of_mem {ls : List (List Char)} {line : List Char} (h : line ∈ ls) :
    line <:+ ['\n'].intercalate ls ∨ line ++ ['\n'] <:+: ['\n'].intercalate ls := by
  obtain ⟨before, after, rfl⟩ := List.append_of_mem h
  rw [join_append before (List.cons_ne_nil line after)]
  cases after with
  | nil =>
    rw [List.intercalate_singleton]
    exact .inl (List.suffix_append _ line)
  | cons next after =>
    rw [List.intercalate_cons_cons]
    have hline : line ++ ['\n'] <+: line ++ ['\n'] ++ ['\n'].intercalate (next :: after) :=
      List.prefix_append _ _
    exact .inr (hline.isInfix.trans (List.suffix_append _ _).isInfix)

/-- A trimmed text without carriage returns before line feeds has no line that ends in one. -/
private theorem body_line {s : String} (htrim : Text.trim s = s)
    (hreturns : ¬['\r', '\n'] <:+: s.toList) {line : List Char}
    (h : line ∈ splitAt '\n' s.toList) : line.getLast? ≠ some '\r' := by
  intro hlast
  obtain ⟨start, rfl⟩ := List.getLast?_eq_some_iff.mp hlast
  have hline := line_of_mem h
  rw [Text.join_splitAt] at hline
  rcases hline with hsuffix | hinfix
  · have hend : s.toList.getLast? = some '\r' := by
      obtain ⟨before, hbefore⟩ := hsuffix
      rw [← hbefore, ← List.append_assoc, List.getLast?_concat]
    exact absurd (Text.not_blank_of_getLast? htrim hend) (by decide)
  · refine hreturns (List.IsInfix.trans ?_ hinfix)
    rw [List.append_assoc]
    exact (List.suffix_append start _).isInfix

namespace Writable

variable (h : m.Writable)
include h

/-- No character of a target is white space. -/
theorem not_blank_of_mem_target {c : Char} (hc : c ∈ m.targetText) : isBlank c = false := by
  rw [targetText, List.mem_append] at hc
  rcases hc with hpath | hquery
  · exact h.path.2 c hpath
  split at hquery
  · cases hquery
  rcases List.mem_cons.mp hquery with rfl | hpairs
  · rfl
  rcases Text.mem_join hpairs with rfl | ⟨_, htext, hc⟩
  · rfl
  obtain ⟨pair, hpair, rfl⟩ := List.mem_map.mp htext
  rcases List.mem_append.mp hc with hkey | hvalue
  · exact ((h.query pair hpair).key c hkey).2.2
  rcases List.mem_cons.mp hvalue with rfl | hvalue
  · rfl
  · exact ((h.query pair hpair).value c hvalue).2

theorem targetText_ne_nil : m.targetText ≠ [] := by
  rw [targetText]
  exact List.append_ne_nil_of_left_ne_nil (mt String.toList_eq_nil_iff.mp h.path.1) _

/-- The request line has no line feed, and a character of the target stands at its end. -/
theorem requestLine_feed : '\n' ∉ m.requestLine := by
  obtain ⟨method, hm, hmethod⟩ := h.method
  rw [requestLine, hm, List.mem_append, List.mem_cons]
  rintro (hc | hc | hc)
  · exact absurd (hmethod.2 _ hc) (by decide)
  · cases hc
  · exact absurd (h.not_blank_of_mem_target hc) (by decide)

theorem requestLine_return : m.requestLine.getLast? ≠ some '\r' := by
  have hne := h.targetText_ne_nil
  rw [requestLine, List.append_cons, List.getLast?_append, List.getLast?_eq_some_getLast hne,
    Option.some_or]
  intro hlast
  have hmem : '\r' ∈ m.targetText := Option.some.inj hlast ▸ List.getLast_mem hne
  exact absurd (h.not_blank_of_mem_target hmem) (by decide)

end Writable

theorem WritableHeader.feed {header : String × String} (h : WritableHeader header) :
    '\n' ∉ headerLine header := by
  rw [headerLine, List.mem_append, List.mem_cons, List.mem_cons]
  rintro (hc | hc | hc | hc)
  · exact (h.name _ hc).2 rfl
  · cases hc
  · cases hc
  · exact h.value hc

theorem WritableHeader.return {header : String × String} (h : WritableHeader header) :
    (headerLine header).getLast? ≠ some '\r' := by
  rw [headerLine, List.append_cons, List.append_cons, List.getLast?_append]
  cases hlast : header.2.toList.getLast? with
  | none => simp
  | some c =>
    rw [Option.some_or]
    rintro ⟨⟩
    exact absurd (Text.not_blank_of_getLast? h.value_trim hlast) (by decide)

/-- The first character of its name shows that a header line is no blank line. -/
theorem WritableHeader.exists_cons {header : String × String} (h : WritableHeader header) :
    ∃ c name, header.1.toList = c :: name ∧ isBlank c = false := by
  obtain ⟨c, name, hname⟩ := List.exists_cons_of_ne_nil (mt String.toList_eq_nil_iff.mp h.name_ne)
  exact ⟨c, name, hname, Text.not_blank_of_head? h.name_trim (by rw [hname, List.head?_cons])⟩

theorem WritableHeader.not_all_blank {header : String × String} (h : WritableHeader header) :
    (headerLine header).all isBlank = false := by
  obtain ⟨c, name, hname, hc⟩ := h.exists_cons
  rw [headerLine, hname, List.cons_append, List.all_cons, hc, Bool.false_and]

/-! ### Reading the parts -/

private theorem join_ne_nil (separator : Char) {ls : List (List Char)} (hne : ls ≠ [])
    (h : ∀ piece ∈ ls, piece ≠ []) : ¬([separator].intercalate ls).isEmpty = true := by
  obtain ⟨piece, ls, rfl⟩ := List.exists_cons_of_ne_nil hne
  have hpiece := h piece List.mem_cons_self
  refine mt List.isEmpty_iff.mp ?_
  by_cases hls : ls = []
  · rwa [hls, List.intercalate_singleton]
  · rw [List.intercalate_cons_of_ne_nil hls, List.append_assoc]
    exact List.append_ne_nil_of_left_ne_nil hpiece _

/-- Pieces that are not empty are found again when they have been joined. -/
theorem pieces_join {separator : Char} {ls : List (List Char)} (hne : ls ≠ [])
    (h : ∀ piece ∈ ls, piece ≠ [] ∧ separator ∉ piece) :
    pieces separator ([separator].intercalate ls) = ls := by
  have hjoin := join_ne_nil separator hne fun piece hp => (h piece hp).1
  rw [pieces, if_neg hjoin, Text.splitAt_join hne fun piece hp => (h piece hp).2]
  exact dropFinalEmpty_eq_self hne (h _ (List.getLast_mem hne)).1

/-- The request line is cut into the method and the target. -/
theorem pieces_requestLine (h : m.Writable) {method : String} (hm : m.method = some method) :
    pieces ' ' m.requestLine = [method.toList, m.targetText] := by
  obtain ⟨_, hm', hmethod⟩ := h.method
  obtain rfl := Option.some.inj (hm.symm.trans hm')
  have hjoin : m.requestLine = [' '].intercalate [method.toList, m.targetText] := by
    rw [requestLine, hm, List.intercalate_cons_cons, List.intercalate_singleton, List.append_assoc]
    rfl
  rw [hjoin]
  refine pieces_join (List.cons_ne_nil _ _) fun piece hp => ?_
  rcases List.mem_pair.mp hp with rfl | rfl
  · exact ⟨mt String.toList_eq_nil_iff.mp hmethod.1,
      fun hc => absurd (hmethod.2 _ hc) (by decide)⟩
  · exact ⟨h.targetText_ne_nil, fun hc => absurd (h.not_blank_of_mem_target hc) (by decide)⟩

theorem queryPair_queryPairText {pair : String × String} (h : WritablePair pair) :
    queryPair (queryPairText pair) = pair := by
  have hkey : '=' ∉ pair.1.toList := fun hmem => (h.key _ hmem).2.1 rfl
  rw [queryPair, queryPairText, Text.cutAt?_append_cons hkey]
  simp only [String.ofList_toList]

theorem parseHeader?_headerLine {header : String × String} (h : WritableHeader header) :
    parseHeader? (headerLine header) = some header := by
  obtain ⟨c, name, hname, -⟩ := h.exists_cons
  have hcolon : ':' ∉ header.1.toList := fun hmem => (h.name _ hmem).1 rfl
  rw [parseHeader?, headerLine, Text.cutAt?_append_cons hcolon, hname]
  dsimp only
  rw [← hname, Text.trimWhere_cons_of_pos rfl, Text.trimWhere_toList h.name_trim,
    Text.trimWhere_toList h.value_trim, String.ofList_toList, String.ofList_toList]

private theorem queryPairText_ne_nil (pair : String × String) : queryPairText pair ≠ [] :=
  List.append_ne_nil_of_right_ne_nil _ (List.cons_ne_nil '=' _)

theorem WritablePair.text_mark {pair : String × String} (h : WritablePair pair) :
    '&' ∉ queryPairText pair := by
  rw [queryPairText, List.mem_append, List.mem_cons]
  rintro (hc | hc | hc)
  · exact (h.key _ hc).1 rfl
  · cases hc
  · exact (h.value _ hc).1 rfl

/-- The pairs of a query are read in their order. -/
theorem parseQuery_join {query : OrderedMap String} (h : ∀ pair ∈ query.entries, WritablePair pair)
    (hne : query.entries ≠ []) :
    parseQuery (['&'].intercalate (query.entries.map queryPairText)) = query := by
  have hmap : query.entries.map queryPairText ≠ [] := mt List.map_eq_nil_iff.mp hne
  have htexts : ∀ text ∈ query.entries.map queryPairText, text ≠ [] ∧ '&' ∉ text := by
    intro text htext
    obtain ⟨pair, hpair, rfl⟩ := List.mem_map.mp htext
    exact ⟨queryPairText_ne_nil pair, (h pair hpair).text_mark⟩
  have hpairs : (query.entries.map queryPairText).map queryPair = query.entries := by
    rw [List.map_map]
    exact (List.map_congr_left fun pair hp => queryPair_queryPairText (h pair hp)).trans
      (List.map_id _)
  have hjoin := join_ne_nil '&' hmap fun text ht => (htexts text ht).1
  rw [parseQuery, if_neg hjoin, pieces_join hmap htexts, hpairs, OrderedMap.ofList_entries]

/-- The target is cut into the path and the query, which is empty if the map is. -/
theorem splitTarget_targetText (h : m.Writable) :
    (splitTarget m.targetText).1 = m.path.toList ∧
      parseQuery (splitTarget m.targetText).2 = m.query := by
  rw [targetText]
  split
  · next hnil =>
    rw [List.append_nil, splitTarget, Text.cutAt?_eq_none h.path_mark, Option.getD_none]
    refine ⟨rfl, OrderedMap.eq_of_entries ?_⟩
    exact (List.isEmpty_iff.mp hnil).symm
  · next hne =>
    rw [splitTarget, Text.cutAt?_append_cons h.path_mark, Option.getD_some]
    exact ⟨rfl, parseQuery_join h.query (mt List.isEmpty_iff.mpr hne)⟩

/-! ### Reading a message -/

theorem mem_allLines {closed : Bool} {line : List Char} (h : line ∈ m.allLines closed) :
    line = m.requestLine ∨ (∃ header ∈ m.headers.entries, headerLine header = line) ∨ line = [] ∨
      line ∈ splitAt '\n' m.body.toList := by
  rw [allLines, headLines, List.cons_append, List.mem_cons, List.mem_append, List.mem_cons,
    List.mem_append, List.mem_map] at h
  refine h.imp_right (Or.imp_right (Or.elim · .inl (Or.elim · .inr fun hclosing => .inl ?_)))
  cases closed with
  | false => cases hclosing
  | true => exact List.mem_singleton.mp hclosing

namespace Writable

variable (h : m.Writable)
include h

/-- No line of a message holds a line feed. -/
theorem allLines_feed (closed : Bool) : ∀ line ∈ m.allLines closed, '\n' ∉ line := by
  intro line hline
  rcases mem_allLines hline with rfl | ⟨header, hheader, rfl⟩ | rfl | hbody
  · exact h.requestLine_feed
  · exact (h.headers header hheader).feed
  · exact List.not_mem_nil
  · exact Text.not_mem_of_mem_splitAt hbody

/-- No line of a message ends in a carriage return. -/
theorem allLines_return (closed : Bool) :
    ∀ line ∈ m.allLines closed, line.getLast? ≠ some '\r' := by
  intro line hline
  rcases mem_allLines hline with rfl | ⟨header, hheader, rfl⟩ | rfl | hbody
  · exact h.requestLine_return
  · exact (h.headers header hheader).return
  · nofun
  · exact body_line h.body_trim h.body_returns hbody

/-- A body that is not empty does not end in an empty line: the line feed before that line would
be its last character. -/
theorem getLast_body (hbody : m.body ≠ "") (hne : splitAt '\n' m.body.toList ≠ []) :
    (splitAt '\n' m.body.toList).getLast hne ≠ [] := by
  intro hnil
  have hsplit := List.dropLast_concat_getLast hne
  generalize (splitAt '\n' m.body.toList).dropLast = before at hsplit
  have hjoin := Text.join_splitAt '\n' m.body.toList
  rw [← hsplit, hnil, join_append _ (List.cons_ne_nil [] []), List.intercalate_singleton,
    List.append_nil] at hjoin
  rcases List.eq_nil_or_concat before with rfl | ⟨before, line, rfl⟩
  · exact hbody (String.toList_eq_nil_iff.mp hjoin.symm)
  · rw [List.concat_eq_append, List.flatMap_append, List.flatMap_singleton,
      ← List.append_assoc] at hjoin
    have hlast : m.body.toList.getLast? = some '\n' := by rw [← hjoin, List.getLast?_concat]
    exact absurd (Text.not_blank_of_getLast? h.body_trim hlast) (by decide)

end Writable

theorem getLast_headLines (m : Message) (hne : m.headLines ≠ []) :
    m.headLines.getLast hne ≠ [] := by
  have hmem := List.getLast_mem hne
  generalize m.headLines.getLast hne = last at hmem ⊢
  rcases List.mem_cons.mp hmem with rfl | hheader
  · exact List.append_ne_nil_of_right_ne_nil _ (List.cons_ne_nil _ _)
  · obtain ⟨header, -, rfl⟩ := List.mem_map.mp hheader
    exact List.append_ne_nil_of_right_ne_nil _ (List.cons_ne_nil _ _)

/-- The empty lines at the end are dropped: all behind the headers, if there is no body. -/
theorem dropFinalEmpty_allLines (h : m.Writable) (closed : Bool) :
    dropFinalEmpty (m.allLines closed) =
      m.headLines ++ if m.body = "" then [] else [] :: splitAt '\n' m.body.toList := by
  have hclosing : dropFinalEmpty (m.allLines closed) =
      dropFinalEmpty (m.headLines ++ [] :: splitAt '\n' m.body.toList) := by
    cases closed with
    | false => rw [allLines, if_neg Bool.false_ne_true, List.append_nil]
    | true =>
      rw [allLines, if_pos rfl, ← List.cons_append, ← List.append_assoc, dropFinalEmpty_append_nil]
  rw [hclosing]
  split
  · next hempty =>
    have hhead := dropFinalEmpty_eq_self (List.cons_ne_nil _ _) (m.getLast_headLines _)
    rw [hempty, List.append_nil, List.append_cons]
    exact (dropFinalEmpty_append_nil _).trans ((dropFinalEmpty_append_nil _).trans hhead)
  · next hbody =>
    have hne : splitAt '\n' m.body.toList ≠ [] := Text.splitAt_ne_nil '\n' _
    refine dropFinalEmpty_eq_self
      (List.append_ne_nil_of_right_ne_nil _ (List.cons_ne_nil _ _)) ?_
    rw [List.getLast_append_of_ne_nil _ (List.cons_ne_nil _ _), List.getLast_cons hne]
    exact h.getLast_body hbody hne

theorem lines_write (h : m.Writable) (e : LineEnd) (closed : Bool) :
    lines (m.write e closed).toList =
      m.headLines ++ if m.body = "" then [] else [] :: splitAt '\n' m.body.toList := by
  have hne : m.allLines closed ≠ [] := List.cons_ne_nil _ _
  have hnonempty : ¬(e.apply (m.text closed)).isEmpty = true := by
    rw [text, apply_append_cons h.requestLine_feed, List.isEmpty_iff, List.append_eq_nil_iff]
    exact fun hnil => List.append_ne_nil_of_right_ne_nil _ (List.cons_ne_nil _ _) hnil.1
  rw [write, String.toList_ofList, lines, if_neg hnonempty, text_eq_join,
    splitAt_apply hne (h.allLines_feed closed) (h.allLines_return closed),
    dropFinalEmpty_allLines h]

theorem joinLines_eq (ls : List (List Char)) : joinLines ls = ['\n'].intercalate ls := by
  induction ls with
  | nil => rfl
  | cons line ls ih =>
    cases ls with
    | nil => rw [joinLines, List.intercalate_singleton]
    | cons next ls =>
      rw [joinLines, ih, List.intercalate_cons_cons, List.append_assoc, List.singleton_append]
      exact List.cons_ne_nil next ls

/-- The lines of the body are joined to the body. -/
theorem bodyOf_splitAt (h : m.Writable) : bodyOf (splitAt '\n' m.body.toList) = m.body := by
  rw [bodyOf, joinLines_eq, Text.join_splitAt, Text.trimWhere_toList h.body_trim,
    String.ofList_toList]

/-- Up to the blank line stand the headers, and behind it the body. -/
theorem split_headerLines (h : m.Writable) {isHeaderLine : List Char → Bool}
    (hp : ∀ line, isHeaderLine line = !line.all isBlank) {rest : List (List Char)}
    (hrest : rest = m.headers.entries.map headerLine ++
      if m.body = "" then [] else [] :: splitAt '\n' m.body.toList) :
    (rest.takeWhile isHeaderLine).filterMap parseHeader? = m.headers.entries ∧
      bodyOf (rest.dropWhile isHeaderLine).tail = m.body := by
  have hheaders : ∀ line ∈ m.headers.entries.map headerLine, isHeaderLine line = true := by
    intro line hline
    obtain ⟨header, hheader, rfl⟩ := List.mem_map.mp hline
    rw [hp, (h.headers header hheader).not_all_blank, Bool.not_false]
  have hparse : (m.headers.entries.map headerLine).filterMap parseHeader? = m.headers.entries := by
    rw [List.filterMap_map]
    exact (List.filterMap_congr fun header hheader =>
      parseHeader?_headerLine (h.headers header hheader)).trans List.filterMap_some
  rw [hrest, List.takeWhile_append_of_pos hheaders, List.dropWhile_append_of_pos hheaders]
  split
  · next hempty =>
    rw [List.takeWhile_nil, List.append_nil, hempty]
    exact ⟨hparse, rfl⟩
  · have hblank : ¬isHeaderLine [] = true := by rw [hp]; nofun
    rw [List.takeWhile_cons_of_neg hblank, List.dropWhile_cons_of_neg hblank, List.append_nil]
    exact ⟨hparse, bodyOf_splitAt h⟩

/-- **A message that is written is read as itself**, whichever way its lines end. -/
theorem parse_write (m : Message) (h : m.Writable) (e : LineEnd) (closed : Bool) :
    parse (m.write e closed) = .ok m := by
  obtain ⟨method, hm, -⟩ := h.method
  obtain ⟨hpath, hquery⟩ := splitTarget_targetText h
  obtain ⟨hheaders, hbody⟩ := split_headerLines h (fun _ => rfl) rfl
  rw [parse, lines_write h, headLines, List.cons_append]
  dsimp only
  rw [pieces_requestLine h hm]
  dsimp only
  rw [hpath, hquery, hheaders, hbody, OrderedMap.ofList_entries, ← h.pathParams,
    String.ofList_toList, String.ofList_toList, ← hm]

/-- A property of all characters of a list, where it is decided for each of them in turn. -/
private theorem forall_mem_of_all {p : Char → Prop} [DecidablePred p] {cs : List Char}
    (h : cs.all (p ·) = true) : ∀ c ∈ cs, p c :=
  fun c hc => of_decide_eq_true (List.all_eq_true.mp h c hc)

/-- A message with an empty query value, an empty header and an empty line in its body. -/
theorem parse_write_crlf :
    let m : Message := {
      method := some "POST", path := "/orders/7", query := .ofList [("page", "2"), ("tag", "")]
      headers := .ofList [("Accept", "text/html; q=0.5"), ("X-Empty", "")]
      pathParams := .empty, body := "first\n\nthird: last" }
    m.Writable ∧
      m.write .crlf true = "POST /orders/7?page=2&tag=\r\nAccept: text/html; q=0.5\r\n" ++
        "X-Empty: \r\n\r\nfirst\r\n\r\nthird: last\r\n" ∧
      parse (m.write .crlf true) = .ok m := by
  intro m
  have h : m.Writable := {
    method := ⟨"POST", rfl, by decide +kernel, forall_mem_of_all (by decide +kernel)⟩
    path := ⟨by decide +kernel, forall_mem_of_all (by decide +kernel)⟩
    path_mark := by decide +kernel
    query := by
      intro pair hpair
      rcases List.mem_pair.mp hpair with rfl | rfl
      · exact ⟨forall_mem_of_all (by decide +kernel), forall_mem_of_all (by decide +kernel)⟩
      · exact ⟨forall_mem_of_all (by decide +kernel), forall_mem_of_all (by decide +kernel)⟩
    headers := by
      intro header hheader
      rcases List.mem_pair.mp hheader with rfl | rfl
      · exact ⟨by decide +kernel, forall_mem_of_all (by decide +kernel), by decide +kernel,
          by decide +kernel, by decide +kernel⟩
      · exact ⟨by decide +kernel, forall_mem_of_all (by decide +kernel), by decide +kernel,
          by decide +kernel, by decide +kernel⟩
    pathParams := rfl
    body_trim := by decide +kernel
    body_returns := by decide +kernel }
  exact ⟨h, by decide +kernel, parse_write m h .crlf true⟩

end Message
end GatewayMapping.Http
