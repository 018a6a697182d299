import GatewayMapping.Proofs.JsonPath.FilterReading

/-!
# Paths are read from their texts

Every plain path is read from its text as the same steps with the same function
(`JsonPath.parse_pathText`). Steps hold filters and filters hold paths with steps of their own, so
the lemmas on the forms of selectors, operands and conditions are folded over the syntax at once.

Reading steps goes on after them with the steps that follow: what is proved of a list of steps
leaves open how far the limit of the loop reaches beyond it (`ReadsSteps`).

## Main results

* `parse_pathText`: plain paths are read back.
-/

namespace GatewayMapping.JsonPath

open Read
open Text (isBlank)

/-! ### Selectors -/

/-- A selector is read from its text up to the closing bracket. -/
def ReadsSelector (s : Selector) : Prop :=
  ∀ ⦃l limit : Nat⦄, s.text.length ≤ l → s.text.length ≤ limit → ∀ tail,
    bracket limit (filterUpTo l) (s.text ++ ']' :: tail) = .ok (s, tail)

theorem length_moreNamesText (names : List String) :
    names.length ≤ (moreNamesText names).length := by
  induction names with
  | nil => exact Nat.le_refl 0
  | cons name names ih =>
    rw [moreNamesText, List.flatMap_cons, List.length_append, ← moreNamesText, List.length_cons,
      List.length_cons]
    omega

theorem ReadsSelector.name (name : String) : ReadsSelector (.name name) :=
  fun l limit _ _ tail => @bracket_names limit (filterUpTo l) name [] (Nat.zero_le limit) tail

theorem ReadsSelector.names {names : List String} (h : 2 ≤ names.length) :
    ReadsSelector (.names names) := by
  intro l limit _ hlimit tail
  obtain ⟨first, second, rest, rfl⟩ : ∃ a b rest, names = a :: b :: rest := by
    match names, h with
    | a :: b :: rest, _ => exact ⟨a, b, rest, rfl⟩
  rw [Selector.text, namesText_cons] at hlimit ⊢
  rw [List.length_append] at hlimit
  have hmore := length_moreNamesText (second :: rest)
  rw [List.append_assoc]
  exact bracket_names first (by omega) tail

theorem ReadsSelector.wildcard : ReadsSelector .wildcard := fun _ _ _ _ _ => rfl

theorem ReadsSelector.slice (first last : Option Int64) : ReadsSelector (.slice first last) :=
  fun _ _ _ _ tail => bracket_slice first last tail

theorem ReadsSelector.index (i : Int64) : ReadsSelector (.index i) := by
  intro l limit _ _ tail
  have hread := @bracket_indexes limit (filterUpTo l) i [] tail
  rwa [List.map_singleton, List.intercalate_singleton] at hread

theorem ReadsSelector.indexes {is : List Int64} (h : 2 ≤ is.length) :
    ReadsSelector (.indexes is) := by
  intro l limit _ _ tail
  match is, h with
  | i :: j :: rest, _ => exact bracket_indexes i (j :: rest) tail

theorem ReadsFilter.selector {f : Filter} (h : ReadsFilter f) : ReadsSelector (.filter f) := by
  intro l limit hl _ tail
  have htext : (Selector.filter f).text = '?' :: '(' :: (f.text ++ [')']) := rfl
  rw [htext] at hl ⊢
  simp only [List.length_append, List.length_cons, List.length_nil] at hl
  obtain ⟨left, hread, hleft⟩ :=
    h.spine_text.filterUpTo h.starts.ne_nil (l := l) (by omega) (']' :: tail)
  rw [List.cons_append, List.cons_append, List.append_assoc]
  exact bracket_filter hread hleft

/-! ### Steps -/

/-- Reading steps goes on with what follows them. -/
def ReadsSteps (ss : List Step) : Prop :=
  ∀ ⦃inFilter : Bool⦄ ⦃l limit : Nat⦄ ⦃tail left : List Char⦄ ⦃more : List Step⦄
    ⦃fn : Option Function⦄, (stepsText ss).length ≤ l → (stepsText ss).length ≤ limit →
      steps inFilter (filterUpTo l) (limit - ss.length) tail = .ok ((more, fn), left) →
        steps inFilter (filterUpTo l) limit (stepsText ss ++ tail) = .ok ((ss ++ more, fn), left)

theorem length_le_stepsText (ss : List Step) : ss.length ≤ (stepsText ss).length := by
  induction ss with
  | nil => exact Nat.le_refl 0
  | cons s ss ih =>
    obtain ⟨deep, selector⟩ := s
    simp only [stepsText, Step.text, List.length_append, List.length_cons]
    omega

theorem ReadsSteps.nil : ReadsSteps [] := fun _ _ _ _ _ _ _ _ _ h => h

theorem ReadsSteps.append {ss ss' : List Step} (h : ReadsSteps ss) (h' : ReadsSteps ss') :
    ReadsSteps (ss ++ ss') := by
  intro inFilter l limit tail left more fn hl hlimit hmore
  have hlength := length_le_stepsText ss
  rw [stepsText_append] at hl hlimit ⊢
  rw [List.length_append] at hl hlimit hmore
  rw [List.append_assoc, List.append_assoc]
  refine h (by omega) (by omega) (h' (by omega) (by omega) ?_)
  rwa [Nat.sub_sub]

/-- A step in brackets, with or without dots before them. -/
theorem ReadsSelector.step {s : Selector} (h : ReadsSelector s) (deep : Bool) :
    ReadsSteps [.mk deep s] := by
  intro inFilter l limit tail left more fn hl hlimit hmore
  simp only [stepsText, Step.text, List.append_nil, List.length_append, List.length_cons,
    List.length_nil] at hl hlimit
  obtain ⟨limit, rfl⟩ : ∃ n, limit = n + 1 := ⟨limit - 1, by omega⟩
  have hbracket := h (l := l) (by omega) (by omega : _ ≤ limit) tail
  rw [List.length_singleton, Nat.add_sub_cancel] at hmore
  have hnext : (bracket limit (filterUpTo l) >>= fun s =>
      steps inFilter (filterUpTo l) limit >>= fun p => pure (Step.mk deep s :: p.1, p.2))
        (s.text ++ ']' :: tail) = .ok ((Step.mk deep s :: more, fn), left) := by
    rw [bind_eq_of_ok hbracket, bind_eq_of_ok hmore]
    rfl
  rw [stepsText, stepsText, List.append_nil, Step.text, List.append_assoc, List.cons_append,
    List.append_assoc, List.cons_append, List.nil_append, steps]
  cases deep with
  | false => exact hnext
  | true => exact hnext

/-! ### Functions and the ends of paths -/

/-- What may stand after a path: nothing that goes on with it, and in no filter anything at all. -/
structure EndsPath (inFilter : Bool) (tail : List Char) : Prop where
  dot : tail.head? ≠ some '.'
  bracket : tail.head? ≠ some '['
  outside : inFilter = false → tail = []

theorem EndsOperand.endsPath {tail : List Char} (h : EndsOperand tail) : EndsPath true tail := by
  obtain ⟨c, rest, rfl, hc⟩ := h
  rcases hc with rfl | rfl <;> exact ⟨by simp, by simp, nofun⟩

theorem EndsPath.nil (inFilter : Bool) : EndsPath inFilter [] := ⟨nofun, nofun, fun _ => rfl⟩

variable {inFilter : Bool} {filter : Read Filter} {limit : Nat} {tail : List Char}

theorem steps_end (h : EndsPath inFilter tail) :
    steps inFilter filter limit tail = .ok (([], none), tail) := by
  cases limit with
  | zero => rfl
  | succ limit =>
    rw [steps, bind_eq_of_ok (show peek? tail = .ok (tail.head?, tail) from rfl)]
    change _ = (pure ([], none) : Read (List Step × Option Function)) tail
    refine congrFun ?_ tail
    split
    · next heq => exact absurd heq h.dot
    · next heq => exact absurd heq h.bracket
    · rfl

theorem Function.named?_name (f : Function) : Function.named? f.name = some f := by
  cases f <;> rfl

theorem function_name (f : Function) (h : EndsPath inFilter tail) :
    function inFilter f.name ('(' :: ')' :: tail) = .ok (f, tail) := by
  have hend : (if inFilter then tail.head? ≠ some '.' && tail.head? ≠ some '['
      else tail.head?.isNone) = true := by
    cases inFilter with
    | true =>
      rw [if_pos rfl, Bool.and_eq_true, decide_eq_true_eq, decide_eq_true_eq]
      exact ⟨h.dot, h.bracket⟩
    | false =>
      rw [h.outside rfl]
      rfl
  rw [function, bind_eq_of_ok (show skip 1 ('(' :: ')' :: tail) = .ok ((), ')' :: tail) from rfl),
    bind_eq_of_ok (show skipBlanks (')' :: tail) = .ok ((), ')' :: tail) from rfl),
    bind_eq_of_ok (char_cons ')' tail), f.named?_name]
  dsimp only
  rw [bind_eq_of_ok (show peek? tail = .ok (tail.head?, tail) from rfl), if_pos hend]
  rfl

theorem name_function (f : Function) (rest : List Char) :
    name (f.name.toList ++ '(' :: rest) = .ok (f.name, '(' :: rest) := by
  cases f <;> rfl

theorem head_function (f : Function) :
    ∃ c cs, f.name.toList = c :: cs ∧ (c = 'l' ∨ c = 'm' ∨ c = 'a' ∨ c = 's') := by
  cases f <;> exact ⟨_, _, rfl, by decide⟩

/-- A function ends the steps. -/
theorem steps_function (f : Function) (h : EndsPath inFilter tail) :
    steps inFilter filter (limit + 1) (functionText (some f) ++ tail) =
      .ok (([], some f), tail) := by
  have hname := name_function f (')' :: tail)
  have hfunction := function_name f h
  have hread : (name >>= fun name =>
      if name.isEmpty then fail .noName
      else do
        if (← peek?) = some '(' then return ([], some (← function inFilter name))
        else
          let p ← steps inFilter filter limit
          return (.mk false (.name name) :: p.1, p.2) : Read (List Step × Option Function))
        (f.name.toList ++ '(' :: ')' :: tail) = .ok (([], some f), tail) := by
    rw [bind_eq_of_ok hname, if_neg (by cases f <;> decide),
      bind_eq_of_ok (show peek? ('(' :: ')' :: tail) = .ok (some '(', '(' :: ')' :: tail) from rfl),
      if_pos rfl, bind_eq_of_ok hfunction]
    rfl
  obtain ⟨c, cs, hcs, hc⟩ := head_function f
  rw [functionText, List.cons_append, List.append_assoc, steps]
  rw [hcs] at hread ⊢
  rcases hc with rfl | rfl | rfl | rfl <;> exact hread

/-- Steps with a function after them are read up to the end of the path. -/
theorem ReadsSteps.run {ss : List Step} (h : ReadsSteps ss) (fn : Option Function) {l : Nat}
    (hl : (stepsText ss ++ functionText fn).length ≤ l)
    (hlimit : (stepsText ss ++ functionText fn).length ≤ limit) (htail : EndsPath inFilter tail) :
    steps inFilter (filterUpTo l) limit (stepsText ss ++ functionText fn ++ tail) =
      .ok ((ss, fn), tail) := by
  have hlength := length_le_stepsText ss
  rw [List.length_append] at hl hlimit
  have hend : steps inFilter (filterUpTo l) (limit - ss.length) (functionText fn ++ tail) =
      .ok (([], fn), tail) := by
    cases fn with
    | none => exact steps_end htail
    | some f =>
      have hpos : 0 < (functionText (some f)).length := Nat.succ_pos _
      obtain ⟨n, hn⟩ : ∃ n, limit - ss.length = n + 1 := ⟨limit - ss.length - 1, by omega⟩
      rw [hn]
      exact steps_function f htail
  have hread := h (by omega) (by omega) hend
  rwa [List.append_nil, ← List.append_assoc] at hread

/-- A path in a filter is read with the union at its end. -/
theorem ReadsSteps.route {r : Route} (h : ReadsSteps r.allSteps) (hr : r.IsPlain) :
    ReadsRoute r := by
  intro l tail hl htail
  rw [r.text_eq] at hl ⊢
  rw [Read.route, bind_eq_of_ok (h.run r.function hl (Nat.le_succ_of_le hl) htail.endsPath)]
  exact congrArg (fun r => Except.ok (r, tail)) hr.eq_ofSteps.symm

/-! ### The whole syntax -/

mutual

theorem readsSelector : (s : Selector) → s.IsPlain → ReadsSelector s
  | .name name, _ => .name name
  | .names _, h => .names h
  | .wildcard, _ => .wildcard
  | .index i, _ => .index i
  | .indexes _, h => .indexes h
  | .slice first last, _ => .slice first last
  | .filter f, h => (readsFilter f h).selector

theorem readsStep : (s : Step) → s.IsPlain → ReadsSteps [s]
  | .mk deep selector, h => (readsSelector selector h).step deep

theorem readsSteps : (ss : List Step) → PlainSteps ss → ReadsSteps ss
  | [], _ => .nil
  | s :: ss, ⟨h, hs⟩ => (readsStep s h).append (readsSteps ss hs)

theorem readsRoute : (r : Route) → r.IsPlain → ReadsRoute r
  | .mk steps none _, h =>
      ReadsSteps.route ((readsSteps steps h.1).append .nil) h
  | .mk steps (some names) _, h =>
      ReadsSteps.route
        ((readsSteps steps h.1).append ((ReadsSelector.names (h.2.1 names rfl)).step false)) h

theorem readsOperand : (o : Operand) → o.IsPlain → ReadsOperand o
  | .path fromRoot r, h => (readsRoute r h).operand fromRoot
  | .literal _, h => .literal h
  | .pattern _, h => h.elim

theorem readsFilter : (f : Filter) → f.IsPlain → ReadsFilter f
  | .or f g, ⟨hf, hg⟩ => .joined .or (readsFilter f hf) (readsFilter g hg)
  | .and f g, ⟨hf, hg⟩ => .joined .and (readsFilter f hf) (readsFilter g hg)
  | .not f, h => .not (readsFilter f h)
  | .present (.path fromRoot r), ⟨_, h⟩ => .present (readsOperand (.path fromRoot r) h)
  | .present (.literal _), ⟨h, _⟩ => nomatch h
  | .present (.pattern _), ⟨h, _⟩ => nomatch h
  | .compare left op right, ⟨hleft, hright⟩ =>
      .compare op (readsOperand left hleft) (readsOperand right hright)
  | .matched _ _, h => h.elim

end

/-! ### Whole paths -/

/-- The text of a path from its root. -/
def pathText (ss : List Step) (fn : Option Function) : List Char :=
  '$' :: (stepsText ss ++ functionText fn)

theorem eq_of_getLast?_stepsText {ss : List Step} {c : Char}
    (h : (stepsText ss).getLast? = some c) : c = ']' := by
  induction ss with
  | nil => cases h
  | cons s ss ih =>
    obtain ⟨deep, selector⟩ := s
    rw [stepsText, List.getLast?_append] at h
    cases hss : (stepsText ss).getLast? with
    | some d =>
      rw [hss] at h
      exact ih (hss.trans h)
    | none =>
      have hlast : (Step.mk deep selector).text.getLast? = some ']' := by
        rw [Step.text, ← List.cons_append, ← List.append_assoc, List.getLast?_concat]
      rw [hss, hlast] at h
      exact (Option.some.inj h).symm

/-- The text of a path neither begins nor ends with a blank. -/
theorem trimWhere_pathText (ss : List Step) (fn : Option Function) :
    Text.trimWhere isBlank (pathText ss fn) = pathText ss fn := by
  refine Text.trimWhere_eq_self (fun c hc => ?_) fun c hc => ?_
  · obtain rfl : '$' = c := Option.some.inj hc
    rfl
  · have hend : c = '$' ∨ c = ']' ∨ c = ')' := by
      cases fn with
      | some f =>
        have htext : pathText ss (some f) =
            '$' :: (stepsText ss ++ '.' :: (f.name.toList ++ ['('])) ++ [')'] := by
          simp [pathText, functionText]
        rw [htext, List.getLast?_concat] at hc
        exact .inr (.inr (Option.some.inj hc).symm)
      | none =>
        rw [pathText, functionText, List.append_nil, List.getLast?_cons] at hc
        cases hss : (stepsText ss).getLast? with
        | none =>
          rw [hss] at hc
          exact .inl (Option.some.inj hc).symm
        | some d =>
          rw [hss] at hc
          exact .inr (.inl (eq_of_getLast?_stepsText (hss.trans hc)))
    rcases hend with rfl | rfl | rfl <;> rfl

/-- What a path with the sign of the root is read as, from what its rest is read as. -/
def rootedOutcome (rest : List Char) : Except Fault (Route × List Char) → Except Error JsonPath
  | .ok (r, []) => .ok ⟨String.ofList ('$' :: rest), r⟩
  | .ok (_, left) =>
    .error (.invalid (String.ofList ('$' :: rest)) .unexpected (rest.length + 1 - left.length))
  | .error f => .error (.invalid (String.ofList ('$' :: rest)) f.flaw (rest.length + 1 - f.left))

theorem parse_rooted {cs : List Char} (htrim : Text.trimWhere isBlank ('$' :: cs) = '$' :: cs) :
    parse (String.ofList ('$' :: cs)) =
      rootedOutcome cs (Read.route false (filterUpTo cs.length) cs.length cs) := by
  unfold parse
  simp only [String.toList_ofList, htrim]
  rw [if_neg (by nofun)]
  rfl

/-- A path with the sign of the root has the steps that the rest is read as. -/
theorem parse_eq_ok_iff {cs : List Char} {ss : List Step} {fn : Option Function}
    (htrim : Text.trimWhere isBlank ('$' :: cs) = '$' :: cs) :
    parse (String.ofList ('$' :: cs)) = .ok ⟨String.ofList ('$' :: cs), .ofSteps ss fn⟩ ↔
      steps false (filterUpTo cs.length) cs.length cs = .ok ((ss, fn), []) := by
  constructor
  · intro h
    rw [parse_rooted htrim, rootedOutcome.eq_def] at h
    split at h
    case h_1 r hroute =>
      obtain ⟨⟨ss', fn'⟩, left, hsteps, hr⟩ := bind_eq_ok_iff.mp hroute
      cases hr
      have hofSteps : Route.ofSteps ss' fn' = .ofSteps ss fn :=
        congrArg JsonPath.route (Except.ok.inj h)
      obtain rfl : ss' = ss := by simpa using congrArg Route.allSteps hofSteps
      obtain rfl : fn' = fn := by simpa using congrArg Route.function hofSteps
      exact hsteps
    all_goals cases h
  · intro h
    have hroute : Read.route false (filterUpTo cs.length) cs.length cs =
        .ok (.ofSteps ss fn, []) := by
      rw [Read.route, bind_eq_of_ok h]
      rfl
    rw [parse_rooted htrim, hroute]
    rfl

/-- Reading the text of plain steps gives the path of these steps. -/
theorem parse_plainSteps {ss : List Step} (h : PlainSteps ss) (fn : Option Function) :
    parse (String.ofList (pathText ss fn)) =
      .ok ⟨String.ofList (pathText ss fn), .ofSteps ss fn⟩ := by
  have hsteps := (readsSteps ss h).run fn (Nat.le_refl _) (Nat.le_refl _) (.nil false)
  rw [List.append_nil] at hsteps
  exact (parse_eq_ok_iff (trimWhere_pathText ss fn)).mpr hsteps

/-- A plain path is read from its text: the same steps, of which a union of names at the end is
kept apart, and the same function. -/
theorem parse_pathText {ss : List Step} (h : PlainSteps ss) (fn : Option Function) :
    parse (String.ofList (pathText ss fn)) =
        .ok ⟨String.ofList (pathText ss fn), .ofSteps ss fn⟩ ∧
      (Route.ofSteps ss fn).allSteps = ss ∧ (Route.ofSteps ss fn).function = fn :=
  ⟨parse_plainSteps h fn, Route.allSteps_ofSteps ss fn, Route.function_ofSteps ss fn⟩

/-- A filter after two dots, with a negated alternative and a quote inside a name, and a union of
names before the function. -/
theorem parse_pathText_filter :
    let price := [Step.mk false (.name "it's")]
    let kept := Filter.or (.present (.path false (.ofSteps price none)))
      (.compare (.literal (.int (-5))) .le (.path true (.ofSteps price (some .max))))
    let ss := [Step.mk true (.filter (.and (.not kept) kept)), .mk false (.names ["a", "b"])]
    let text := "$..[?(!(@['it\\'s'] || -5 <= $['it\\'s'].max()) && " ++
      "(@['it\\'s'] || -5 <= $['it\\'s'].max()))]['a','b'].length()"
    PlainSteps ss ∧ parse text = .ok ⟨text, .ofSteps ss (some .length)⟩ := by
  intro price kept ss text
  have hprice : PlainSteps price := ⟨trivial, trivial⟩
  have hkept : kept.IsPlain :=
    ⟨⟨rfl, Route.isPlain_ofSteps hprice none⟩, ⟨by decide, by decide⟩,
      Route.isPlain_ofSteps hprice (some .max)⟩
  have hplain : PlainSteps ss := ⟨⟨hkept, hkept⟩, Nat.le_refl 2, trivial⟩
  have htext : String.ofList (pathText ss (some .length)) = text := by decide +kernel
  exact ⟨hplain, htext ▸ (parse_pathText hplain (some .length)).1⟩

end GatewayMapping.JsonPath
