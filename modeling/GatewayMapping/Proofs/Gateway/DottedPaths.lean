import Mathlib.Data.List.DropRight
import GatewayMapping.Gateway.Body
import GatewayMapping.Proofs.JsonPath.RoundTrip
import GatewayMapping.Proofs.Text.Pieces

/-!
# Dotted paths are JSON paths

A body is looked into in two ways. A dotted path is cut at its dots and each piece is taken apart
by itself; a JSON path is read from left to right into steps, which are taken one after the other.
A path that is written with plain names and with indexes after them is both, and it leads to the
same place in both ways (`Body.dottedValue_eq_pathValue`).

Both lookups are compared with the definite steps that the path is written for
(`DottedPath.route`). The steps of a piece are those of its name and of its index, so the places
that the pieces lead to are the places of the steps put together.

## Main definitions

* `PlainName`, `DottedPath`: the names and the paths that are written alike.
* `DottedPath.route`: the steps of such a path.

## Main results

* `Body.dotted?_text`, `Body.find_text`: what the two lookups find.
* `Body.dottedValue_eq_pathValue`: both give one value.
-/

namespace GatewayMapping.Gateway

open Text (isBlank)

/-! ### Paths that are written alike -/

/-- A name that needs no quotes in a JSON path and stays in one piece when a path is cut at its
dots. -/
structure PlainName where
  text : String
  ne_nil : text.toList ≠ []
  not_blank : ∀ c ∈ text.toList, isBlank c = false
  not_star : text.toList.head? ≠ some '*'
  not_sign : ∀ c ∈ text.toList,
    c ∉ ['.', '[', ']', '(', ')', '=', '!', '<', '>', '&', '|', ',', '~']

/-- An index that fits into 32 bits with a sign. -/
abbrev PathIndex := Fin 2147483648

/-- A name with the index after it, if there is one. -/
structure DottedStep where
  name : PlainName
  index : Option PathIndex

/-- A path of names between dots, before which an index of the document itself may stand. -/
structure DottedPath where
  first : Option PathIndex
  steps : List DottedStep

/-- An index in brackets, in decimal digits. -/
def indexText : Option PathIndex → List Char
  | none => []
  | some i => '[' :: (Nat.toDigits 10 i ++ [']'])

/-- The steps of an index. -/
def indexRoute : Option PathIndex → List JsonPath.Step
  | none => []
  | some i => [.mk false (.index (Int64.ofNat i))]

namespace DottedStep

/-- What stands between two dots. -/
def piece (s : DottedStep) : List Char := s.name.text.toList ++ indexText s.index

/-- The steps of a name and of the index after it. -/
def route (s : DottedStep) : List JsonPath.Step :=
  .mk false (.name s.name.text) :: indexRoute s.index

end DottedStep

namespace DottedPath

/-- A path after the sign of the root. -/
def tail (p : DottedPath) : List Char :=
  indexText p.first ++ p.steps.flatMap fun s => '.' :: s.piece

/-- The text of a path. -/
def text (p : DottedPath) : String := String.ofList ('$' :: p.tail)

/-- The steps of a path. -/
def route (p : DottedPath) : List JsonPath.Step :=
  indexRoute p.first ++ p.steps.flatMap DottedStep.route

end DottedPath

/-! ### Names and indexes -/

namespace PlainName

variable (n : PlainName)

theorem not_mem {c : Char}
    (hc : c ∈ ['.', '[', ']', '(', ')', '=', '!', '<', '>', '&', '|', ',', '~']) :
    c ∉ n.text.toList :=
  fun h => n.not_sign c h hc

/-- A plain name is read to its end. -/
theorem not_endsName {c : Char} (hc : c ∈ n.text.toList) :
    JsonPath.Read.endsName c = false := by
  have hblank : c ≠ ' ' := by
    rintro rfl
    exact absurd (n.not_blank ' ' hc) (by decide)
  have hsign := n.not_sign c hc
  simp only [List.mem_cons, List.not_mem_nil, or_false, not_or] at hsign
  simp [JsonPath.Read.endsName, hsign, hblank]

end PlainName

theorem indexText_toDigits (i : PathIndex) :
    JsonPath.integerText (Int64.ofNat i) = Nat.toDigits 10 i := by
  have hint : (Int64.ofNat i).toInt = (i : Nat) := Int64.toInt_ofNat_of_lt (by omega)
  rw [JsonPath.integerText, hint, toList_toString_int, if_neg (by omega), Int.natAbs_natCast]

theorem toDigits_not_mem (i : PathIndex) {c : Char} (hc : c.isDigit = false) :
    c ∉ Nat.toDigits 10 i := by
  intro h
  rw [isDigit_of_mem_toDigits h] at hc
  cases hc

/-- An index is read from its digits. -/
theorem index?_toDigits (i : PathIndex) : Body.index? (Nat.toDigits 10 i) = some i.val := by
  have hvalue : Text.wholeNumber? (Nat.toDigits 10 i) = some (i.val : Int) := by
    have hread := Text.wholeNumber?_toString (i.val : Int)
    rwa [toList_toString_int, if_neg (by omega), Int.natAbs_natCast] at hread
  rw [Body.index?, hvalue, Option.bind_some, if_pos (by omega), Int.toNat_natCast]

theorem dot_not_mem_indexText (index : Option PathIndex) : '.' ∉ indexText index := by
  cases index with
  | none => exact List.not_mem_nil
  | some i => simp [indexText, toDigits_not_mem i (c := '.') rfl]

theorem DottedStep.dot_not_mem (s : DottedStep) : '.' ∉ s.piece := by
  rw [piece, List.mem_append, not_or]
  exact ⟨s.name.not_mem (by decide), dot_not_mem_indexText s.index⟩

theorem DottedStep.piece_ne_nil (s : DottedStep) : s.piece ≠ [] :=
  List.append_ne_nil_of_left_ne_nil s.name.ne_nil _

/-! ### Places -/

/-- The place of steps after others. -/
theorem target?_append (ss ss' : List JsonPath.Step) (j : Json) :
    JsonPath.target? (ss ++ ss') j = (JsonPath.target? ss j).bind (JsonPath.target? ss') := by
  induction ss generalizing j with
  | nil => rfl
  | cons s ss ih =>
    rw [List.cons_append, JsonPath.target?, JsonPath.target?, Option.bind_assoc]
    exact congrArg _ (funext ih)

/-- An index that is not negative means the position of its number. -/
theorem position?_ofNat (length : Nat) (i : PathIndex) :
    JsonPath.position? length (Int64.ofNat i) = if i < length then some i.val else none := by
  have hint : (Int64.ofNat i).toInt = (i : Nat) := Int64.toInt_ofNat_of_lt (by omega)
  unfold JsonPath.position?
  simp only [hint, if_neg (Int.not_lt.mpr (Int.natCast_nonneg _)), Int.natCast_nonneg, true_and,
    Int.ofNat_lt, Int.toNat_natCast]

/-- An index leads to an item of an array. -/
theorem target?_index (i : PathIndex) (j : Json) :
    JsonPath.target? (indexRoute (some i)) j = j.items?.bind fun items => items[i.val]? := by
  rw [indexRoute, JsonPath.target?]
  cases j with
  | array items =>
    rw [JsonPath.Step.target?, position?_ofNat, Json.items?, Option.bind_some]
    by_cases hlt : i.val < items.length
    · rw [if_pos hlt, Option.bind_some, List.getElem?_eq_getElem hlt]
      rfl
    · rw [if_neg hlt, List.getElem?_eq_none (Nat.le_of_not_lt hlt)]
      rfl
  | _ => rfl

namespace Body

/-! ### Pieces -/

/-- A text that ends with an index in brackets is a name with this index. -/
theorem part?_index {name : List Char} (h : '[' ∉ name) (i : PathIndex) :
    part? (name ++ indexText (some i)) = some (.index (String.ofList name) i) := by
  have hname : (name ++ indexText (some i)).takeWhile (· ≠ '[') = name := by
    rw [indexText, List.takeWhile_append_of_pos fun c hc => by
      simpa using fun heq : c = '[' => h (heq ▸ hc)]
    simp
  have hlast : (name ++ indexText (some i)).getLast? = some ']' := by
    rw [indexText, ← List.cons_append, ← List.append_assoc, List.getLast?_concat]
  have hdigits : ((name ++ indexText (some i)).drop (name.length + 1)).dropLast =
      Nat.toDigits 10 i := by
    rw [indexText, List.drop_append, List.drop_of_length_le (Nat.le_succ _)]
    simp
  have hbracket : (name ++ indexText (some i)).contains '[' = true := by simp [indexText]
  rw [part?, hname, hlast, hbracket, if_pos (by decide), hdigits, index?_toDigits]
  rfl

theorem part?_name (n : PlainName) : part? n.text.toList = some (.name n.text) := by
  have hbracket : n.text.toList.contains '[' = false := by
    simpa using n.not_mem (c := '[') (by decide)
  rw [part?, hbracket, Bool.and_false, if_neg (by decide), String.ofList_toList]

/-- A piece leads to the place of its steps. -/
theorem target?_piece (s : DottedStep) (j : Json) :
    ((part? s.piece).bind fun part => part.target? j) = JsonPath.target? s.route j := by
  obtain ⟨n, _ | i⟩ := s
  · rw [DottedStep.piece, indexText, List.append_nil, part?_name, Option.bind_some]
    change j.member? n.text = (j.member? n.text).bind some
    rw [Option.bind_fun_some]
  · have hne : n.text ≠ "" := fun h => n.ne_nil (by rw [h]; rfl)
    have hroute : JsonPath.target? (DottedStep.mk n (some i)).route j =
        (j.member? n.text).bind (JsonPath.target? (indexRoute (some i))) := rfl
    rw [DottedStep.piece, part?_index (n.not_mem (by decide)), Option.bind_some,
      String.ofList_toList, hroute, Part.target?, Option.bind_assoc]
    · exact congrArg _ (funext fun x => (target?_index i x).symm)
    · exact hne

theorem target?_firstPiece (i : PathIndex) (j : Json) :
    ((part? (indexText (some i))).bind fun part => part.target? j) =
      JsonPath.target? (indexRoute (some i)) j := by
  have hnil : '[' ∉ ([] : List Char) := List.not_mem_nil
  have hpart := part?_index hnil i
  rw [List.nil_append] at hpart
  rw [hpart, Option.bind_some, target?_index]
  rfl

/-- Pieces one after the other lead to the place of all their steps. -/
theorem walk?_pieces (steps : List DottedStep) (j : Json) :
    walk? (steps.map DottedStep.piece) j =
      JsonPath.target? (steps.flatMap DottedStep.route) j := by
  induction steps generalizing j with
  | nil => rfl
  | cons s steps ih =>
    rw [List.map_cons, walk?, target?_piece, List.flatMap_cons, target?_append]
    exact congrArg _ (funext ih)

/-! ### Cutting a path -/

/-- Pieces with a dot before each but the first are cut into the same pieces. -/
theorem pieces_flatMap {first : List Char} (hfirst : '.' ∉ first) (steps : List DottedStep) :
    pieces (first ++ steps.flatMap fun s => '.' :: s.piece) =
      first :: steps.map DottedStep.piece := by
  have hjoin : ∀ (first : List Char) (steps : List DottedStep),
      first ++ (steps.flatMap fun s => '.' :: s.piece) =
        ['.'].intercalate (first :: steps.map DottedStep.piece) := by
    intro first steps
    induction steps generalizing first with
    | nil => simp
    | cons s steps ih =>
      rw [List.flatMap_cons, List.map_cons, List.intercalate_cons_of_ne_nil (List.cons_ne_nil _ _),
        ← ih, List.cons_append, List.append_assoc, List.singleton_append]
  have hdots : ∀ piece ∈ first :: steps.map DottedStep.piece, '.' ∉ piece := by
    intro piece hpiece
    rcases List.mem_cons.mp hpiece with rfl | hrest
    · exact hfirst
    · obtain ⟨s, -, rfl⟩ := List.mem_map.mp hrest
      exact s.dot_not_mem
  have hlast : (steps.map DottedStep.piece).rdropWhile List.isEmpty =
      steps.map DottedStep.piece := by
    refine List.rdropWhile_eq_self_iff.mpr fun hne => ?_
    obtain ⟨s, -, hs⟩ := List.mem_map.mp (List.getLast_mem hne)
    rw [← hs, List.isEmpty_iff]
    exact s.piece_ne_nil
  rw [pieces, hjoin, Text.splitAt_join (List.cons_ne_nil _ _) hdots]
  exact congrArg (List.cons first) hlast

/-- A dotted path leads to the place of its steps. -/
theorem dotted?_text (b : Body) (p : DottedPath) :
    b.dotted? p.text = b.document.bind (JsonPath.target? p.route) := by
  have hcut {cs : List Char} (hne : cs ≠ [])
      (hwalk : ∀ j, walk? (pieces (withoutRoot ('$' :: cs))) j = JsonPath.target? p.route j) :
      b.dotted? (String.ofList ('$' :: cs)) = b.document.bind (JsonPath.target? p.route) := by
    rw [dotted?, String.toList_ofList, if_neg (by nofun),
      if_neg fun h => hne (List.cons.inj h).2]
    exact congrArg _ (funext hwalk)
  obtain ⟨_ | i, steps⟩ := p
  · cases steps with
    | nil =>
      change b.document = b.document.bind some
      rw [Option.bind_fun_some]
    | cons s steps =>
      refine hcut (List.cons_ne_nil _ _) fun j => ?_
      change walk? (pieces (s.piece ++ steps.flatMap fun s => '.' :: s.piece)) j = _
      rw [pieces_flatMap s.dot_not_mem]
      exact walk?_pieces (s :: steps) j
  · refine hcut (List.cons_ne_nil _ _) fun j => ?_
    change walk? (pieces (indexText (some i) ++ steps.flatMap fun s => '.' :: s.piece)) j = _
    rw [pieces_flatMap (dot_not_mem_indexText (some i)), walk?, target?_firstPiece,
      DottedPath.route, target?_append]
    exact congrArg _ (funext (walk?_pieces steps))

end Body

/-! ### Steps -/

section

open JsonPath JsonPath.Read

/-- A text after which the name before it has ended and steps may go on. -/
def EndsName (cs : List Char) : Prop := ∀ c, cs.head? = some c → c = '.' ∨ c = '['

/-- A text is read as steps, and reading goes on with what follows them. The text ends a name
that stands before it, unless it is empty. -/
structure ReadsAs (cs : List Char) (ss : List JsonPath.Step) : Prop where
  length_le : ss.length ≤ cs.length
  endsName : ∀ ⦃tail⦄, EndsName tail → EndsName (cs ++ tail)
  reads : ∀ ⦃l limit : Nat⦄ ⦃tail left : List Char⦄ ⦃more : List JsonPath.Step⦄
    ⦃fn : Option Function⦄, cs.length ≤ l → cs.length ≤ limit → EndsName tail →
      steps false (filterUpTo l) (limit - ss.length) tail = .ok ((more, fn), left) →
        steps false (filterUpTo l) limit (cs ++ tail) = .ok ((ss ++ more, fn), left)

theorem EndsName.cons {c : Char} (h : c = '.' ∨ c = '[') (cs : List Char) : EndsName (c :: cs) :=
  fun _ hd => Option.some.inj hd ▸ h

theorem ReadsAs.nil : ReadsAs [] [] where
  length_le := Nat.le_refl 0
  endsName _ h := h
  reads _ _ _ _ _ _ _ _ _ h := h

theorem ReadsAs.append {cs cs' : List Char} {ss ss' : List JsonPath.Step} (h : ReadsAs cs ss)
    (h' : ReadsAs cs' ss') : ReadsAs (cs ++ cs') (ss ++ ss') where
  length_le := by
    rw [List.length_append, List.length_append]
    exact Nat.add_le_add h.length_le h'.length_le
  endsName tail htail := by
    rw [List.append_assoc]
    exact h.endsName (h'.endsName htail)
  reads l limit tail left more fn hl hlimit htail hmore := by
    have hlength := h.length_le
    rw [List.length_append] at hl hlimit hmore
    rw [List.append_assoc, List.append_assoc]
    refine h.reads (by omega) (by omega) (h'.endsName htail) ?_
    exact h'.reads (by omega) (by omega) htail (by rwa [Nat.sub_sub])

theorem ReadsAs.index (index : Option PathIndex) :
    ReadsAs (indexText index) (indexRoute index) := by
  cases index with
  | none => exact .nil
  | some i =>
    have hread : ReadsSteps (indexRoute (some i)) := (ReadsSelector.index _).step false
    have htext : stepsText (indexRoute (some i)) = indexText (some i) := by
      simp [indexRoute, stepsText, Step.text, Selector.text, indexText_toDigits, indexText]
    refine ⟨Nat.succ_le_succ (Nat.zero_le _), fun tail _ => .cons (.inr rfl) _, ?_⟩
    intro l limit tail left more fn hl hlimit _ hmore
    rw [← htext] at hl hlimit ⊢
    exact hread hl hlimit hmore

/-- A plain name is read up to its end. -/
theorem name_plain (n : PlainName) {tail : List Char} (htail : EndsName tail) :
    Read.name (n.text.toList ++ tail) = .ok (n.text, tail) := by
  have hname : ∀ c ∈ n.text.toList, !endsName c := fun c hc => by rw [n.not_endsName hc]; rfl
  have hends : tail.takeWhile (fun c => !endsName c) = [] ∧
      tail.dropWhile (fun c => !endsName c) = tail := by
    cases tail with
    | nil => exact ⟨rfl, rfl⟩
    | cons c cs => rcases htail c rfl with rfl | rfl <;> exact ⟨rfl, rfl⟩
  have htake : Read.takeWhile (fun c => !endsName c) (n.text.toList ++ tail) =
      .ok (n.text.toList, tail) := by
    rw [Read.takeWhile, List.takeWhile_append_of_pos hname, List.dropWhile_append_of_pos hname,
      hends.1, hends.2, List.append_nil]
  rw [Read.name, bind_eq_of_ok htake, String.ofList_toList]
  rfl

/-- A choice between a star and anything else. -/
private theorem not_star_eq {α : Type} {c : Char} (h : c ≠ '*') (star : α)
    (other : Option Char → α) :
    (match some c with
      | some '*' => star
      | c? => other c?) = other (some c) := by
  split
  · next heq => exact absurd (Option.some.inj heq) h
  · rfl

/-- A name after a dot is a step. -/
theorem steps_name (n : PlainName) {filter : Read Filter} {limit : Nat} {tail left : List Char}
    {more : List JsonPath.Step} {fn : Option Function} (htail : EndsName tail)
    (hmore : steps false filter limit tail = .ok ((more, fn), left)) :
    steps false filter (limit + 1) ('.' :: n.text.toList ++ tail) =
      .ok ((.mk false (.name n.text) :: more, fn), left) := by
  obtain ⟨c, cs, hcs⟩ := List.exists_cons_of_ne_nil n.ne_nil
  have hdot : c ≠ '.' := by
    rintro rfl
    exact n.not_mem (c := '.') (by decide) (hcs ▸ List.mem_cons_self)
  have hstar : c ≠ '*' := by
    rintro rfl
    exact n.not_star (by rw [hcs]; rfl)
  have hname : Read.name (c :: (cs ++ tail)) = .ok (n.text, tail) := by
    rw [← List.cons_append, ← hcs]
    exact name_plain n htail
  have hempty : n.text.isEmpty = false :=
    Bool.eq_false_iff.mpr fun h => n.ne_nil (by rw [String.isEmpty_iff.mp h]; rfl)
  have hcall : tail.head? ≠ some '(' := by
    intro h
    rcases htail '(' h with heq | heq <;> exact absurd heq (by decide)
  have hpeek (c : Char) (cs : List Char) : peek? (c :: cs) = .ok (some c, c :: cs) := rfl
  -- No second dot follows the first one.
  have hsingle (f : Bool → Read (List JsonPath.Step × Option Function)) :
      (skip 1 >>= fun _ => sign ['.'] >>= f) ('.' :: c :: (cs ++ tail)) =
        f false (c :: (cs ++ tail)) :=
    bind_eq_of_ok (sign_false fun h => hdot (List.cons_prefix_cons.mp h).1.symm) f
  rw [hcs, List.cons_append, List.cons_append, steps, bind_eq_of_ok (hpeek '.' _)]
  refine (hsingle _).trans ?_
  rw [bind_eq_of_ok (hpeek c _)]
  refine (congrFun (not_star_eq hstar _ _) _).trans ?_
  rw [Bool.and_false, if_neg (by decide), bind_eq_of_ok hname, hempty, if_neg (by decide),
    bind_eq_of_ok (show peek? tail = .ok (tail.head?, tail) from rfl), if_neg hcall]
  exact bind_eq_of_ok hmore _

theorem ReadsAs.name (n : PlainName) :
    ReadsAs ('.' :: n.text.toList) [.mk false (.name n.text)] where
  length_le := Nat.succ_le_succ (Nat.zero_le _)
  endsName tail _ := .cons (.inl rfl) _
  reads l limit tail left more fn _ hlimit htail hmore := by
    obtain ⟨limit, rfl⟩ : ∃ k, limit = k + 1 := by
      rw [List.length_cons] at hlimit
      exact ⟨limit - 1, by omega⟩
    exact steps_name n htail hmore

theorem ReadsAs.steps : (steps : List DottedStep) →
    ReadsAs (steps.flatMap fun s => '.' :: s.piece) (steps.flatMap DottedStep.route)
  | [] => .nil
  | s :: steps => by
      rw [List.flatMap_cons, List.flatMap_cons]
      exact ((ReadsAs.name s.name).append (.index s.index)).append (ReadsAs.steps steps)

/-- The text of a path is read as its steps. -/
theorem DottedPath.reads (p : DottedPath) : ReadsAs p.tail p.route :=
  (ReadsAs.index p.first).append (.steps p.steps)

/-! ### Whole paths -/

theorem DottedPath.not_blank (p : DottedPath) {c : Char} (hc : c ∈ p.tail) : isBlank c = false := by
  have hindex {index : Option PathIndex} {c : Char} (hc : c ∈ indexText index) :
      isBlank c = false := by
    cases index with
    | none => cases hc
    | some i =>
      simp only [indexText, List.mem_cons, List.mem_append, List.not_mem_nil, or_false] at hc
      rcases hc with rfl | hdigit | rfl
      · rfl
      · exact not_blank_of_isDigit (isDigit_of_mem_toDigits hdigit)
      · rfl
  rcases List.mem_append.mp hc with hfirst | hsteps
  · exact hindex hfirst
  · obtain ⟨s, -, hs⟩ := List.mem_flatMap.mp hsteps
    rcases List.mem_cons.mp hs with rfl | hpiece
    · rfl
    · rcases List.mem_append.mp hpiece with hname | hi
      · exact s.name.not_blank c hname
      · exact hindex hi

theorem DottedPath.isDefinite (p : DottedPath) : ∀ s ∈ p.route, s.isDefinite = true := by
  have hindex {index : Option PathIndex} {s : JsonPath.Step} (hs : s ∈ indexRoute index) :
      s.isDefinite = true := by
    cases index with
    | none => cases hs
    | some i =>
      obtain rfl := List.mem_singleton.mp hs
      rfl
  intro s hs
  rcases List.mem_append.mp hs with hfirst | hsteps
  · exact hindex hfirst
  · obtain ⟨d, -, hd⟩ := List.mem_flatMap.mp hsteps
    rcases List.mem_cons.mp hd with rfl | hi
    · rfl
    · exact hindex hi

/-- A definite path has no union of names at its end. -/
theorem ofSteps_of_isDefinite {ss : List JsonPath.Step} (h : ∀ s ∈ ss, s.isDefinite = true)
    (fn : Option Function) : Route.ofSteps ss fn = .mk ss none fn := by
  unfold Route.ofSteps
  split
  · next names hlast => cases h _ (List.mem_of_getLast? hlast)
  · rfl

/-- The text of a path is a JSON path of its steps. -/
theorem DottedPath.parse_text (p : DottedPath) :
    JsonPath.parse p.text = .ok ⟨p.text, .mk p.route none none⟩ := by
  have hnil : EndsName [] := nofun
  have hread := p.reads.reads (Nat.le_refl _) (Nat.le_refl _) hnil (steps_end (.nil false))
  have hroute : Read.route false (filterUpTo p.tail.length) p.tail.length p.tail =
      .ok (.mk p.route none none, []) := by
    rw [List.append_nil, List.append_nil] at hread
    rw [Read.route, bind_eq_of_ok hread]
    exact congrArg (fun r => Except.ok (r, [])) (ofSteps_of_isDefinite p.isDefinite none)
  have htrim : Text.trimWhere isBlank ('$' :: p.tail) = '$' :: p.tail := by
    refine Text.trimWhere_eq_self_of_forall fun c hc => ?_
    rcases List.mem_cons.mp hc with rfl | htail
    · rfl
    · exact p.not_blank htail
  unfold JsonPath.parse
  simp only [DottedPath.text, String.toList_ofList, htrim]
  rw [if_neg (by simp)]
  have hrooted : rooted ('$' :: p.tail) = '$' :: p.tail := rfl
  rw [hrooted, List.tail_cons]
  simp only [StateT.run, hroute]

end

namespace Body

/-- A JSON path of plain names and indexes leads to the place of its steps. -/
theorem find_text (b : Body) (p : DottedPath) :
    (b.find p.text).toOption = b.document.bind (JsonPath.target? p.route) := by
  obtain ⟨text, _ | document⟩ := b
  · rfl
  · have hsteps : p.route.all JsonPath.Step.isDefinite = true := List.all_eq_true.mpr p.isDefinite
    have hfind : (Body.mk text (some document)).find p.text =
        JsonPath.evaluate ⟨p.text, .mk p.route none none⟩ document := by
      change (JsonPath.parse p.text >>= fun path => path.evaluate document) = _
      rw [p.parse_text]
      rfl
    have htarget : (JsonPath.Route.mk p.route none none).target? document document =
        JsonPath.target? p.route document := by
      unfold JsonPath.Route.target?
      rw [if_pos hsteps]
      cases JsonPath.target? p.route document <;> rfl
    rw [hfind, JsonPath.evaluate, htarget, Option.bind_some]
    cases JsonPath.target? p.route document <;> rfl

/-- A path of plain names and indexes gives one value as a dotted path and as a JSON path, which
is that of the place of its steps, or null where they lead to no place. -/
theorem dottedValue_eq_pathValue (b : Body) (h : Heap) (p : DottedPath) :
    b.dottedValue h p.text = b.pathValue h p.text ∧
      b.pathValue h p.text = valueOf h (b.document.bind (JsonPath.target? p.route)) := by
  have hpath : b.pathValue h p.text = valueOf h (b.document.bind (JsonPath.target? p.route)) := by
    rw [pathValue, find_text]
  refine ⟨?_, hpath⟩
  rw [hpath, dottedValue, dotted?_text]

end Body
end GatewayMapping.Gateway
