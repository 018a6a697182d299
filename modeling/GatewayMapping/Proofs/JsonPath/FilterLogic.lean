import Mathlib
import GatewayMapping.Proofs.JsonPath.Filters
import GatewayMapping.Proofs.JsonPath.Locality
import GatewayMapping.Proofs.JsonPath.RoundTrip

/-!
# Negations and connectives of filters

A text that is read as a filter is read as the same filter in parentheses, whatever follows them
(`ReadsAsFilter.before_paren`). So the negation of the text, and two texts with a sign between them,
are read as filters again, and what they select are the positions that the operands of the sign
tell: an item that lacks what is compared, or that cannot be compared, counts as one that the filter
does not hold of.

## Main definitions

* `ReadsAsFilter`: the texts that stand for a filter between the parentheses of a path.
* `Filter.positions`: the positions of an array at which a filter holds.
* `SelectsAt`: the path that a text writes selects the items at some positions.

## Main results

* `ReadsAsFilter.not`, `ReadsAsFilter.join`: texts under signs.
* `filters_by_position`: negations select the other positions, connectives what both or either
  select.
-/

namespace GatewayMapping.JsonPath

open Read
open Text (isBlank)

/-! ### Texts of filters -/

/-- The text of the path of a filter. -/
def filterText (f : String) : String := "$[?(" ++ f ++ ")]"

/-- The text of this path after the sign of the root. -/
def filterRest (f : String) : List Char := '[' :: '?' :: '(' :: (f.toList ++ [')', ']'])

/-- The text of the negation of a filter. -/
def negatedText (f : String) : String := "!(" ++ f ++ ")"

/-- Two texts of filters in parentheses with a sign between them. -/
def joinedText (c : Connective) (f g : String) : String :=
  "(" ++ f ++ ") " ++ String.ofList c.sign ++ " (" ++ g ++ ")"

/-- A text is read as a filter up to the closing parenthesis of its path. -/
def ReadsAsFilter (text : String) (f : Filter) : Prop :=
  ∃ left, filterUpTo (filterRest text).length (text.toList ++ [')', ']']) = .ok (f, left) ∧
    left.dropWhile isBlank = [')', ']']

/-- What the sign of a connective is between two texts. -/
theorem joinedText_eq (c : Connective) (f g : String) :
    joinedText c f g = match c with
      | .and => "(" ++ f ++ ") && (" ++ g ++ ")"
      | .or => "(" ++ f ++ ") || (" ++ g ++ ")" := by
  apply String.toList_inj.mp
  cases c <;> simp [joinedText, Connective.sign]

variable {text text' : String} {f g : Filter} {l k : Nat} {tail : List Char}

theorem filterText_eq (text : String) :
    filterText text = String.ofList ('$' :: filterRest text) := by
  apply String.toList_inj.mp
  simp [filterText, filterRest]

theorem length_filterRest (text : String) : (filterRest text).length = text.toList.length + 5 := by
  simp [filterRest]

/-- A filter is read before every closing parenthesis, where there is room for its path. -/
theorem ReadsAsFilter.before_paren (h : ReadsAsFilter text f) (hl : text.toList.length + 5 ≤ l)
    (tail : List Char) :
    ∃ left, filterUpTo l (text.toList ++ ')' :: tail) = .ok (f, left) ∧
      left.dropWhile isBlank = ')' :: tail := by
  obtain ⟨left, hread, hleft⟩ := h
  have hblank : ∀ b ∈ left.takeWhile isBlank, isBlank b = true := fun b hb =>
    List.mem_takeWhile_imp hb
  have hsplit : left = left.takeWhile isBlank ++ ')' :: [']'] := by
    rw [← hleft, List.takeWhile_append_dropWhile]
  rw [length_filterRest] at hread
  have hroom : (text.toList ++ ')' :: [']']).length ≤ text.toList.length + 5 := by
    rw [List.length_append, List.length_cons, List.length_singleton]
    omega
  rw [hsplit] at hread
  refine ⟨_, (filterUpTo_carries hl).reads hroom hread tail, ?_⟩
  rw [List.dropWhile_append_of_pos hblank, List.dropWhile_cons_of_neg (by decide)]

/-! ### Conditions in parentheses -/

/-- The text of a filter in parentheses. -/
def inParens (text : String) : List Char := '(' :: (text.toList ++ [')'])

/-- A condition in parentheses is as tight as one without signs. -/
theorem ReadsAsFilter.negations (h : ReadsAsFilter text f) (hl : text.toList.length + 5 ≤ l)
    (size limit : Nat) (tail : List Char) :
    ReadsBefore (negations (filterUpTo l) size (limit + 1)) f (inParens text) tail := by
  intro bs hbs
  obtain ⟨left, hread, hleft⟩ := h.before_paren hl tail
  have hskip : skipBlanks left = .ok ((), ')' :: tail) := by rw [skipBlanks, hleft]
  refine ⟨tail, ?_, rfl⟩
  rw [inParens, List.cons_append, List.append_assoc, Read.negations,
    bind_eq_of_ok (skipBlanks_append hbs rfl _)]
  change (do
    let f ← filterUpTo l
    skipBlanks
    char ')'
    return f) (text.toList ++ ')' :: tail) = _
  rw [bind_eq_of_ok hread, bind_eq_of_ok hskip]
  rfl

variable {cs cs' : List Char} {c : Connective}

/-- Where no sign of a level follows, its conditions are those of the next level. -/
theorem ReadsBefore.level (h : ReadsBefore (levelReader l (c.level + 1)) f cs tail)
    (htail : Follows c.level tail) : ReadsBefore (levelReader l c.level) f cs tail := by
  intro bs hbs
  obtain ⟨left, hread, hleft⟩ := h hbs
  refine ⟨left.dropWhile isBlank, ?_, by rw [List.dropWhile_idempotent, hleft]⟩
  rw [levelReader_level, bind_eq_of_ok hread, chain_end (hleft ▸ htail.not_sign)]

/-- Two conditions of the next level with the sign of a level between them. -/
theorem ReadsBefore.join
    (hf : ReadsBefore (levelReader l (c.level + 1)) f cs (' ' :: (c.sign ++ ' ' :: (cs' ++ tail))))
    (hg : ReadsBefore (levelReader l (c.level + 1)) g cs' tail) (hl : 0 < l)
    (htail : Follows c.level tail) :
    ReadsBefore (levelReader l c.level) (c.join f g) (around c.sign cs cs') tail := by
  intro bs hbs
  obtain ⟨mid, hread, hmid⟩ := hf hbs
  obtain ⟨left, hread', hleft⟩ := hg (List.forall_mem_singleton.mpr (rfl : isBlank ' ' = true))
  obtain ⟨l, rfl⟩ : ∃ n, l = n + 1 := ⟨l - 1, by omega⟩
  rw [c.dropWhile_sign] at hmid
  refine ⟨left.dropWhile isBlank, ?_, by rw [List.dropWhile_idempotent, hleft]⟩
  rw [around, List.append_assoc, List.cons_append, List.append_assoc, List.cons_append,
    levelReader_level, bind_eq_of_ok hread, chain_sign hmid hread',
    chain_end (hleft ▸ htail.not_sign)]

/-- What is read at the tightest level is read at every level. -/
theorem ReadsBefore.of_tightest (h : ReadsBefore (levelReader l 2) f cs tail)
    (htail : Follows k tail) (hk : k ≤ 2) : ReadsBefore (levelReader l k) f cs tail := by
  match k, hk with
  | 2, _ => exact h
  | 1, _ => exact h.level (c := .and) htail
  | 0, _ =>
    have hand := h.level (c := .and) (htail.mono (Nat.zero_le 1))
    exact hand.level (c := .or) htail

/-- A sign of negation before a condition that is no comparison of its own with it. -/
theorem ReadsBefore.not {filter : Read Filter} {size limit : Nat} {d : Char}
    (h : ReadsBefore (Read.negations filter size limit) f (d :: cs) tail) (hd : d ≠ '=') :
    ReadsBefore (Read.negations filter size (limit + 1)) (.not f) ('!' :: d :: cs) tail := by
  intro bs hbs
  obtain ⟨left, hread, hleft⟩ := h (List.forall_mem_nil _)
  refine ⟨left, ?_, hleft⟩
  rw [List.nil_append, List.cons_append] at hread
  rw [List.cons_append, List.cons_append, negations_not hbs hd, bind_eq_of_ok hread]
  rfl

/-! ### Filters under signs -/

/-- A text that is read at the loosest level is the text of a filter. -/
theorem ReadsBefore.readsAsFilter (hcs : text.toList = cs) (hl : cs.length + 4 = l)
    (h : ReadsBefore (levelReader l 0) f cs [')', ']']) : ReadsAsFilter text f := by
  subst hcs hl
  rw [ReadsAsFilter, length_filterRest]
  exact h (List.forall_mem_nil _)

/-- The negation of a text of a filter is the text of the negation. -/
theorem ReadsAsFilter.not (h : ReadsAsFilter text f) :
    ReadsAsFilter (negatedText text) (.not f) := by
  have htext : (negatedText text).toList = '!' :: inParens text := by
    simp [negatedText, inParens]
  obtain ⟨l, hl⟩ : ∃ l, text.toList.length + 6 = l := ⟨_, rfl⟩
  have hlength : ('!' :: inParens text).length + 4 = l + 1 := by
    simp only [inParens, List.length_append, List.length_cons, List.length_nil]
    omega
  have hparens : ReadsBefore (Read.negations (filterUpTo (l + 1)) (l + 2) (l + 1)) f
      (inParens text) [')', ']'] := h.negations (by omega) (l + 2) l _
  have hnot := hparens.not (by decide : '(' ≠ '=')
  exact ReadsBefore.readsAsFilter htext hlength (hnot.of_tightest .close (Nat.zero_le 2))

/-- Two texts of filters with a sign between them are a text of the filter that they are joined
to. -/
theorem ReadsAsFilter.join (c : Connective) (hf : ReadsAsFilter text f)
    (hg : ReadsAsFilter text' g) : ReadsAsFilter (joinedText c text text') (c.join f g) := by
  have htext : (joinedText c text text').toList =
      around c.sign (inParens text) (inParens text') := by
    simp [joinedText, around, inParens]
  obtain ⟨l, hlength⟩ : ∃ l, (around c.sign (inParens text) (inParens text')).length + 4 = l :=
    ⟨_, rfl⟩
  have hroom : text.toList.length + 5 ≤ l ∧ text'.toList.length + 5 ≤ l := by
    simp only [around, inParens, List.length_append, List.length_cons, List.length_nil] at hlength
    omega
  have hlevel : c.level + 1 ≤ 2 := by cases c <;> decide
  have hsign : Follows (c.level + 1) (' ' :: (c.sign ++ ' ' :: (inParens text' ++ [')', ']']))) :=
    .sign (Nat.lt_succ_self c.level)
  have hclose : Follows (c.level + 1) [')', ']'] := .close
  have hleft := (hf.negations hroom.1 (l + 1) l _).of_tightest hsign hlevel
  have hright := (hg.negations hroom.2 (l + 1) l _).of_tightest hclose hlevel
  have hjoin : ReadsBefore (levelReader l c.level) (c.join f g)
      (around c.sign (inParens text) (inParens text')) [')', ']'] :=
    hleft.join hright (by omega) .close
  refine ReadsBefore.readsAsFilter htext hlength ?_
  cases c with
  | or => exact hjoin
  | and => exact hjoin.level (c := .or) .close

/-! ### Paths of filters -/

theorem trimWhere_filterRest (text : String) :
    Text.trimWhere isBlank ('$' :: filterRest text) = '$' :: filterRest text := by
  refine Text.trimWhere_eq_self (fun c hc => ?_) fun c hc => ?_
  · obtain rfl : '$' = c := Option.some.inj hc
    rfl
  · have hlast : '$' :: filterRest text =
        '$' :: '[' :: '?' :: '(' :: (text.toList ++ [')']) ++ [']'] := by simp [filterRest]
    rw [hlast, List.getLast?_concat] at hc
    obtain rfl : ']' = c := Option.some.inj hc
    rfl

/-- Steps that are none leave the text. -/
theorem eq_of_steps_eq_nil {inFilter : Bool} {filter : Read Filter} {limit : Nat}
    {cs left : List Char}
    (h : steps inFilter filter limit cs = .ok (([], none), left)) : left = cs := by
  have hnext (s : Step) (limit : Nat) (cs : List Char) :
      (steps inFilter filter limit >>= fun p =>
        (pure (s :: p.1, p.2) : Read (List Step × Option Function))) cs ≠
          .ok (([], none), left) := by
    intro hs
    obtain ⟨p, mid, -, hp⟩ := bind_eq_ok_iff.mp hs
    cases hp
  cases limit with
  | zero =>
    cases h
    rfl
  | succ limit =>
    rw [steps] at h
    obtain ⟨c?, mid, hpeek, h⟩ := bind_eq_ok_iff.mp h
    split at h
    · -- After dots a place or a function is named.
      obtain ⟨_, _, -, h⟩ := bind_eq_ok_iff.mp h
      obtain ⟨deep, _, -, h⟩ := bind_eq_ok_iff.mp h
      obtain ⟨d?, _, -, h⟩ := bind_eq_ok_iff.mp h
      split at h
      · obtain ⟨_, _, -, h⟩ := bind_eq_ok_iff.mp h
        exact absurd h (hnext _ _ _)
      split at h
      · obtain ⟨_, _, -, h⟩ := bind_eq_ok_iff.mp h
        obtain ⟨s, _, -, h⟩ := bind_eq_ok_iff.mp h
        exact absurd h (hnext _ _ _)
      obtain ⟨name, _, -, h⟩ := bind_eq_ok_iff.mp h
      split at h
      · cases h
      obtain ⟨e?, _, -, h⟩ := bind_eq_ok_iff.mp h
      split at h
      · obtain ⟨f, _, -, h⟩ := bind_eq_ok_iff.mp h
        cases h
      · exact absurd h (hnext _ _ _)
    · obtain ⟨_, _, -, h⟩ := bind_eq_ok_iff.mp h
      obtain ⟨s, _, -, h⟩ := bind_eq_ok_iff.mp h
      exact absurd h (hnext _ _ _)
    · cases h
      exact (Prod.mk.inj (Except.ok.inj hpeek)).2.symm

theorem char_eq_ok_iff {c : Char} {cs left : List Char} {u : Unit} :
    char c cs = .ok (u, left) ↔ cs = c :: left := by
  constructor
  · intro h
    obtain ⟨d?, mid, hpeek, h⟩ := bind_eq_ok_iff.mp h
    cases hpeek
    split at h
    · next hhead =>
      obtain ⟨rest, rfl⟩ := List.head?_eq_some_iff.mp hhead
      exact congrArg (c :: ·) (Prod.mk.inj (Except.ok.inj h)).2
    · cases h
  · rintro rfl
    exact char_cons c left

/-- Reading the path of a text reads the text as a filter. -/
theorem steps_filterRest (filter : Read Filter) (limit : Nat) (text : String) :
    steps false filter (limit + 1) (filterRest text) =
      (filter >>= fun f => skipBlanks >>= fun _ => char ')' >>= fun _ => skipBlanks >>= fun _ =>
        char ']' >>= fun _ => steps false filter limit >>= fun p =>
          pure (Step.mk false (.filter f) :: p.1, p.2)) (text.toList ++ [')', ']']) := by
  change ((do
    let f ← filter
    skipBlanks
    char ')'
    closing (.filter f)) >>= fun s => steps false filter limit >>= fun p =>
      pure (Step.mk false s :: p.1, p.2)) (text.toList ++ [')', ']']) = _
  simp only [closing, bind_assoc, pure_bind]

/-- The end of the path follows the blanks after a filter. -/
theorem eq_of_paren_suffix {cs bs : List Char} (hbs : ∀ b ∈ bs, isBlank b = true)
    (h : ')' :: (bs ++ [']']) <:+ cs ++ [')', ']']) : bs = [] := by
  obtain ⟨before, h⟩ := h
  have hlast : before ++ ')' :: bs = cs ++ [')'] := by
    have hclosed : before ++ ')' :: bs ++ [']'] = cs ++ [')'] ++ [']'] := by
      rw [List.append_assoc, List.append_assoc]
      exact h
    exact List.append_cancel_right hclosed
  rcases bs.eq_nil_or_concat with rfl | ⟨bs, b, rfl⟩
  · rfl
  · rw [List.concat_eq_append, ← List.cons_append, ← List.append_assoc] at hlast
    obtain ⟨-, hb⟩ := List.append_inj' hlast rfl
    obtain rfl : b = ')' := (List.cons.inj hb).1
    exact absurd (hbs ')' (by simp)) (by decide)

theorem skipBlanks_eq_ok {u : Unit} {cs left : List Char} (h : skipBlanks cs = .ok (u, left)) :
    cs.dropWhile isBlank = left ∧ cs = cs.takeWhile isBlank ++ left := by
  obtain rfl := (Prod.mk.inj (Except.ok.inj h)).2
  exact ⟨rfl, List.takeWhile_append_dropWhile.symm⟩

/-- The path of a text consists of a filter exactly if the filter is read up to the closing
parenthesis. -/
theorem steps_filterRest_eq_ok_iff {filter : Read Filter} {limit : Nat}
    (hfilter : ∀ cs left a, filter cs = .ok (a, left) → left <:+ cs) :
    steps false filter (limit + 1) (filterRest text) =
        .ok (([.mk false (.filter f)], none), []) ↔
      ∃ left, filter (text.toList ++ [')', ']']) = .ok (f, left) ∧
        left.dropWhile isBlank = [')', ']'] := by
  rw [steps_filterRest]
  constructor
  · intro h
    obtain ⟨g, left, hread, h⟩ := bind_eq_ok_iff.mp h
    obtain ⟨_, d, hleft, h⟩ := bind_eq_ok_iff.mp h
    obtain ⟨_, mid, hparen, h⟩ := bind_eq_ok_iff.mp h
    obtain ⟨_, e, hmid, h⟩ := bind_eq_ok_iff.mp h
    obtain ⟨_, rest, hbracket, h⟩ := bind_eq_ok_iff.mp h
    obtain ⟨⟨ss, fn⟩, _, hend, h⟩ := bind_eq_ok_iff.mp h
    cases h
    obtain rfl : [] = rest := eq_of_steps_eq_nil hend
    obtain rfl := char_eq_ok_iff.mp hparen
    obtain rfl := char_eq_ok_iff.mp hbracket
    obtain ⟨hdrop, hleft⟩ := skipBlanks_eq_ok hleft
    obtain ⟨-, hmid⟩ := skipBlanks_eq_ok hmid
    have hsuffix : ')' :: mid <:+ text.toList ++ [')', ']'] :=
      (hdrop ▸ List.dropWhile_suffix isBlank).trans (hfilter _ _ _ hread)
    rw [hmid] at hsuffix
    have hblanks : mid.takeWhile isBlank = [] :=
      eq_of_paren_suffix (fun b hb => List.mem_takeWhile_imp hb) hsuffix
    rw [hblanks] at hmid
    exact ⟨left, hread, hdrop.trans (by rw [hmid]; rfl)⟩
  · rintro ⟨left, hread, hleft⟩
    have hskip : skipBlanks left = .ok ((), [')', ']']) := by rw [skipBlanks, hleft]
    rw [bind_eq_of_ok hread, bind_eq_of_ok hskip, bind_eq_of_ok (char_cons ')' _),
      bind_eq_of_ok (show skipBlanks [']'] = .ok ((), [']']) from rfl),
      bind_eq_of_ok (char_cons ']' _)]
    exact bind_eq_of_ok (steps_end (.nil false)) _

/-- A text is read as a filter exactly if its path consists of this filter. -/
theorem readsAsFilter_iff :
    ReadsAsFilter text f ↔
      parse (filterText text) = .ok (filterPath (filterText text) false f) := by
  have hsteps := @steps_filterRest_eq_ok_iff text f (filterUpTo (filterRest text).length)
    (text.toList.length + 4) (filterUpTo_carries (Nat.le_refl (filterRest text).length)).suffix
  rw [ReadsAsFilter, ← hsteps, filterText_eq, ← length_filterRest]
  exact (parse_eq_ok_iff (trimWhere_filterRest text)).symm

/-- Where no filter can be read, the path is not read. -/
theorem parse_filterText_eq_error {fault : Fault}
    (h : filterUpTo (filterRest text).length (text.toList ++ [')', ']']) = .error fault) :
    parse (filterText text) = .error (.invalid (filterText text) fault.flaw
      ((filterRest text).length + 1 - fault.left)) := by
  have hroute : Read.route false (filterUpTo (filterRest text).length) (filterRest text).length
      (filterRest text) = .error fault := by
    refine bind_eq_of_error ?_ _
    have hlimit : (filterRest text).length = text.toList.length + 4 + 1 := length_filterRest text
    have hsteps := (steps_filterRest (filterUpTo (filterRest text).length)
      (text.toList.length + 4) text).trans (bind_eq_of_error h _)
    rwa [← hlimit] at hsteps
  rw [filterText_eq, parse_rooted (trimWhere_filterRest text), hroute]
  rfl

/-! ### Selection by position -/

/-- The positions of an array at which a filter holds. -/
def Filter.positions (f : Filter) (items : List Json) : List Nat :=
  (List.range items.length).filter fun i => items[i]?.any (f.holds (.array items))

/-- The path that a text writes is read, and it selects from every array the items at some
positions, in their order. -/
structure SelectsAt (path : String) (positions : List Json → List Nat) : Prop where
  selects : ∃ p, parse path = .ok p ∧ ∀ items, ∃ found,
    p.evaluate (.array items) = .ok (.array found) ∧
      found.map some = (positions items).map (items[·]?)
  ascending items : (positions items).Pairwise (· < ·)

theorem map_some_filter_eq (p : Json → Bool) (items : List Json) :
    (items.filter p).map some =
      ((List.range items.length).filter fun i => items[i]?.any p).map (items[·]?) := by
  calc (items.filter p).map some
      = (items.map some).filter (Option.any p) := by
        rw [List.filter_map]
        rfl
    _ = _ := by
        rw [map_some_eq_map_range, List.filter_map]
        rfl

theorem ReadsAsFilter.selectsAt (h : ReadsAsFilter text f) :
    SelectsAt (filterText text) f.positions where
  selects := by
    refine ⟨_, readsAsFilter_iff.mp h, fun items => ⟨_, evaluate_filterPath .., ?_⟩⟩
    rw [nodes_filter_array, map_some_filter_eq, Filter.positions]
  ascending items := List.pairwise_lt_range.filter _

theorem mem_positions {items : List Json} {i : Nat} :
    i ∈ f.positions items ↔ ∃ h : i < items.length, f.holds (.array items) items[i] = true := by
  rw [Filter.positions, List.mem_filter, List.mem_range, Option.any_eq_true]
  constructor
  · rintro ⟨h, x, hx, hx'⟩
    obtain ⟨_, rfl⟩ := List.getElem?_eq_some_iff.mp hx
    exact ⟨h, hx'⟩
  · exact fun ⟨h, hholds⟩ => ⟨h, _, List.getElem?_eq_getElem h, hholds⟩

/-- A negation holds at the positions where the filter does not hold. -/
theorem positions_not (f : Filter) (items : List Json) :
    (Filter.not f).positions items =
      (List.range items.length).filter fun i => !items[i]?.any (f.holds (.array items)) := by
  refine List.filter_congr fun i hi => ?_
  rw [List.getElem?_eq_getElem (List.mem_range.mp hi), Option.any_some, Option.any_some,
    Filter.holds]

/-- **Filters under signs select by position**: wherever a text is read as a filter, its negation
selects the other items of every array, and two such texts with a sign between them select the
items that both select, and those that at least one selects. -/
theorem filters_by_position (hf : ReadsAsFilter text f) (hg : ReadsAsFilter text' g) :
    SelectsAt (filterText text) f.positions ∧ SelectsAt (filterText text') g.positions ∧
    (∃ others, SelectsAt (filterText ("!(" ++ text ++ ")")) others ∧ ∀ items,
      (∀ i < items.length, i ∈ others items ↔ i ∉ f.positions items) ∧
      (f.positions items).length + (others items).length = items.length) ∧
    (∃ both, SelectsAt (filterText ("(" ++ text ++ ") && (" ++ text' ++ ")")) both ∧
      ∀ items i, i ∈ both items ↔ i ∈ f.positions items ∧ i ∈ g.positions items) ∧
    (∃ either, SelectsAt (filterText ("(" ++ text ++ ") || (" ++ text' ++ ")")) either ∧
      ∀ items i, i ∈ either items ↔ i ∈ f.positions items ∨ i ∈ g.positions items) := by
  have hand := (hf.join .and hg).selectsAt
  have hor := (hf.join .or hg).selectsAt
  rw [joinedText_eq] at hand hor
  refine ⟨hf.selectsAt, hg.selectsAt, ⟨_, hf.not.selectsAt, fun items => ⟨?_, ?_⟩⟩,
    ⟨_, hand, fun items i => ?_⟩, ⟨_, hor, fun items i => ?_⟩⟩
  · intro i hi
    simp [mem_positions, hi, Filter.holds]
  · rw [positions_not, Filter.positions, ← List.length_eq_length_filter_add, List.length_range]
  · simp only [mem_positions, Connective.join, Filter.holds, Bool.and_eq_true]
    constructor
    · rintro ⟨h, hf, hg⟩
      exact ⟨⟨h, hf⟩, h, hg⟩
    · rintro ⟨⟨h, hf⟩, _, hg⟩
      exact ⟨h, hf, hg⟩
  · simp only [mem_positions, Connective.join, Filter.holds, Bool.or_eq_true]
    exact exists_or

/-- A comparison with a parenthesis and a bracket in quotes, and the presence of a path with a
filter of its own. -/
theorem filters_by_position_nested :
    let text := "@['a)]'] == \")\""
    let text' := " $[?(@.b[0])] "
    let path (ss : List Step) := Operand.path false (.ofSteps ss none)
    let f : Filter := .compare (path [.mk false (.name "a)]")]) .eq (.literal (.string ")"))
    let inner : Filter := .present (path [.mk false (.name "b"), .mk false (.index 0)])
    let g : Filter := .present (.path true (.ofSteps [.mk false (.filter inner)] none))
    ReadsAsFilter text f ∧ ReadsAsFilter text' g ∧
      ∃ others, SelectsAt (filterText ("!(" ++ text ++ ")")) others := by
  intro text text' path f inner g
  have hf : ReadsAsFilter text f := ⟨[')', ']'], by cbv, by rfl⟩
  have hg : ReadsAsFilter text' g := ⟨[')', ']'], by cbv, by rfl⟩
  obtain ⟨-, -, ⟨others, hothers, -⟩, -⟩ := filters_by_position hf hg
  exact ⟨hf, hg, others, hothers⟩

end GatewayMapping.JsonPath
