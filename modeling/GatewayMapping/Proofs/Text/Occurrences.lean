import Mathlib.Data.List.Infix
import Mathlib.Order.Bounds.Image
import GatewayMapping.Text.Search

/-!
# Occurrences of a text in another one

A text occurs in another one if it is an infix of it (`Text.occursIn_iff`). Searching from the front
finds the first of the positions where it begins, and searching from the back the last one
(`Text.indexOf?_spec`, `Text.lastIndexOf?_spec`); the empty text begins at every position, the
end included.

Where texts are joined, a text may also occur across the joint. A text between them that separates
them rules this out (`Text.infix_join_iff`), and whether it does is found by computing.

## Main definitions

* `Text.BeginsAt`: the positions at which a text begins in another one.
* `Text.FindsFirst`, `Text.FindsLast`: searches that find the first or the last place.
* `Text.Separates`: a text that no occurrence of another one reaches into.
-/

namespace GatewayMapping.Text

/-! ### Positions -/

section

variable {α : Type} {needle cs : List α} {n : Nat}

/-- The text begins at a position of the other one, which may be its end. -/
def BeginsAt (needle cs : List α) (n : Nat) : Prop := n ≤ cs.length ∧ needle <+: cs.drop n

/-- A search that finds the first place, if there is one. -/
def FindsFirst (places : Set Nat) : Option Nat → Prop
  | some n => IsLeast places n
  | none => places = ∅

/-- A search that finds the last place, if there is one. -/
def FindsLast (places : Set Nat) : Option Nat → Prop
  | some n => IsGreatest places n
  | none => places = ∅

/-- A search finds one place only. -/
theorem FindsFirst.eq {places : Set Nat} {r r' : Option Nat} (h : FindsFirst places r)
    (h' : FindsFirst places r') : r = r' := by
  cases r with
  | none =>
    cases r' with
    | none => rfl
    | some n' => exact absurd (h ▸ h'.1) (Set.notMem_empty n')
  | some n =>
    cases r' with
    | none => exact absurd (h' ▸ h.1) (Set.notMem_empty n)
    | some n' => exact congrArg some (h.unique h')

theorem FindsLast.eq {places : Set Nat} {r r' : Option Nat} (h : FindsLast places r)
    (h' : FindsLast places r') : r = r' := by
  cases r with
  | none =>
    cases r' with
    | none => rfl
    | some n' => exact absurd (h ▸ h'.1) (Set.notMem_empty n')
  | some n =>
    cases r' with
    | none => exact absurd (h' ▸ h.1) (Set.notMem_empty n)
    | some n' => exact congrArg some (h.unique h')

/-- Places that are counted in another way are found in the same order. -/
theorem FindsFirst.map {places : Set Nat} {r : Option Nat} {f : Nat → Nat} (hf : Monotone f)
    (h : FindsFirst places r) : FindsFirst (f '' places) (r.map f) := by
  cases r with
  | none => exact Set.image_eq_empty.mpr h
  | some n => exact hf.map_isLeast h

theorem FindsLast.map {places : Set Nat} {r : Option Nat} {f : Nat → Nat} (hf : Monotone f)
    (h : FindsLast places r) : FindsLast (f '' places) (r.map f) := by
  cases r with
  | none => exact Set.image_eq_empty.mpr h
  | some n => exact hf.map_isGreatest h

/-- A text begins where as many characters are the text. -/
theorem beginsAt_iff : BeginsAt needle cs n ↔
    n + needle.length ≤ cs.length ∧ (cs.take (n + needle.length)).drop n = needle := by
  rw [BeginsAt, List.prefix_iff_eq_take, List.take_drop, eq_comm (a := needle)]
  refine and_congr_left fun htaken => ⟨fun hn => ?_, fun hn => by omega⟩
  have hlength := congrArg List.length htaken
  rw [List.length_drop, List.length_take] at hlength
  omega

theorem beginsAt_zero : BeginsAt needle cs 0 ↔ needle <+: cs := and_iff_right (Nat.zero_le _)

theorem beginsAt_cons_succ {c : α} :
    BeginsAt needle (c :: cs) (n + 1) ↔ BeginsAt needle cs n := by
  rw [BeginsAt, BeginsAt, List.length_cons, Nat.succ_le_succ_iff, List.drop_succ_cons]

theorem beginsAt_drop {start : Nat} (hstart : start ≤ cs.length) :
    BeginsAt needle (cs.drop start) n ↔ BeginsAt needle cs (start + n) := by
  rw [BeginsAt, BeginsAt, List.length_drop, List.drop_drop]
  exact and_congr_left fun _ => by omega

/-! ### Searching -/

variable [DecidableEq α]

/-- Searching finds a text exactly where it is an infix. -/
theorem occursIn_iff : occursIn needle cs = true ↔ needle <:+: cs := by
  induction cs with
  | nil =>
    rw [occursIn, indexOf?, List.infix_nil]
    cases needle <;> simp
  | cons c cs ih =>
    rw [occursIn, indexOf?, List.infix_cons_iff, ← ih, occursIn]
    by_cases hprefix : needle <+: c :: cs
    · rw [if_pos (List.isPrefixOf_iff_prefix.mpr hprefix)]
      exact iff_of_true rfl (.inl hprefix)
    · rw [if_neg (mt List.isPrefixOf_iff_prefix.mp hprefix), Option.isSome_map,
        or_iff_right hprefix]

/-- A text that begins another one is found there first. -/
theorem indexOf?_eq_some_iff_of_prefix (h : needle <+: cs) :
    indexOf? needle cs = some n ↔ needle <+: cs.drop n ∧ ∀ k < n, ¬needle <+: cs.drop k := by
  have hfirst : indexOf? needle cs = some 0 := by
    cases cs <;> rw [indexOf?, if_pos (List.isPrefixOf_iff_prefix.mpr h)]
  rw [hfirst]
  constructor
  · rintro ⟨⟩
    exact ⟨h, nofun⟩
  · rintro ⟨-, hbefore⟩
    cases n with
    | zero => rfl
    | succ n => exact absurd h (hbefore 0 (Nat.succ_pos n))

/-- A text is found where it begins and begins nowhere before. -/
theorem indexOf?_eq_some_iff :
    indexOf? needle cs = some n ↔ needle <+: cs.drop n ∧ ∀ k < n, ¬needle <+: cs.drop k := by
  induction cs generalizing n with
  | nil =>
    by_cases hhead : needle <+: []
    · exact indexOf?_eq_some_iff_of_prefix hhead
    · rw [indexOf?, if_neg (mt List.isPrefixOf_iff_prefix.mp hhead), List.drop_nil]
      exact iff_of_false nofun fun h => hhead h.1
  | cons c cs ih =>
    by_cases hhead : needle <+: c :: cs
    · exact indexOf?_eq_some_iff_of_prefix hhead
    · rw [indexOf?, if_neg (mt List.isPrefixOf_iff_prefix.mp hhead)]
      cases n with
      | zero =>
        refine iff_of_false (fun h => ?_) fun h => hhead h.1
        obtain ⟨_, -, ⟨⟩⟩ := Option.map_eq_some_iff.mp h
      | succ n =>
        have hmap : (indexOf? needle cs).map (· + 1) = some (n + 1) ↔
            indexOf? needle cs = some n := by simp
        rw [hmap, ih, List.drop_succ_cons, Nat.forall_lt_succ_left]
        exact and_congr_right fun _ => (and_iff_right hhead).symm

/-- Whether a text is found inside a part of another one is seen from the part. -/
theorem indexOf?_append_iff (hn : n + needle.length ≤ cs.length) (rest : List α) :
    indexOf? needle (cs ++ rest) = some n ↔ indexOf? needle cs = some n := by
  have hbegins {k : Nat} (hk : k ≤ n) :
      needle <+: (cs ++ rest).drop k ↔ needle <+: cs.drop k := by
    rw [List.drop_append_of_le_length (by omega)]
    refine ⟨fun h => ?_, fun h => h.trans (List.prefix_append _ _)⟩
    refine List.prefix_of_prefix_length_le h (List.prefix_append _ _) ?_
    rw [List.length_drop]
    omega
  rw [indexOf?_eq_some_iff, indexOf?_eq_some_iff, hbegins (Nat.le_refl n)]
  exact and_congr_right fun _ => forall₂_congr fun k hk => not_congr (hbegins (Nat.le_of_lt hk))

theorem occursIn_iff_exists_beginsAt : occursIn needle cs = true ↔ ∃ n, BeginsAt needle cs n := by
  rw [occursIn_iff, List.infix_iff_prefix_suffix]
  constructor
  · rintro ⟨left, hprefix, hleft⟩
    exact ⟨_, Nat.sub_le _ _, List.suffix_iff_eq_drop.mp hleft ▸ hprefix⟩
  · rintro ⟨n, -, hprefix⟩
    exact ⟨cs.drop n, hprefix, List.drop_suffix n cs⟩

theorem occursIn_eq_false_iff : occursIn needle cs = false ↔ {n | BeginsAt needle cs n} = ∅ := by
  rw [← Bool.not_eq_true, occursIn_iff_exists_beginsAt, not_exists,
    Set.eq_empty_iff_forall_notMem]
  rfl

/-- Searching from the front finds the first position. -/
theorem indexOf?_spec (needle cs : List α) :
    FindsFirst {n | BeginsAt needle cs n} (indexOf? needle cs) := by
  cases hfound : indexOf? needle cs with
  | some n =>
    obtain ⟨hstarts, hbefore⟩ := indexOf?_eq_some_iff.mp hfound
    refine ⟨⟨?_, hstarts⟩, fun k hk => Nat.le_of_not_lt fun hlt => hbefore k hlt hk.2⟩
    by_contra hn
    rw [List.drop_eq_nil_of_le (Nat.le_of_not_le hn), List.prefix_nil] at hstarts
    exact hbefore 0 (by omega) (hstarts ▸ List.nil_prefix)
  | none => exact occursIn_eq_false_iff.mp (by rw [occursIn, hfound, Option.isSome_none])

/-- The empty text is found at the beginning. -/
theorem indexOf?_nil (cs : List α) : indexOf? [] cs = some 0 := by
  cases cs <;> rfl

/-- Searching from a position finds the first one that is not before it. -/
theorem indexOf?_drop_spec (needle : List α) {start : Nat} (hstart : start ≤ cs.length) :
    FindsFirst {n | BeginsAt needle cs n ∧ start ≤ n}
      ((indexOf? needle (cs.drop start)).map (start + ·)) := by
  have hback {k : Nat} (hk : BeginsAt needle cs k) (hle : start ≤ k) :
      BeginsAt needle (cs.drop start) (k - start) := by
    rw [beginsAt_drop hstart, Nat.add_sub_cancel' hle]
    exact hk
  have hspec := indexOf?_spec needle (cs.drop start)
  cases hfound : indexOf? needle (cs.drop start) with
  | some n =>
    obtain ⟨hn, hleast⟩ : IsLeast _ n := hfound ▸ hspec
    refine ⟨⟨(beginsAt_drop hstart).mp hn, Nat.le_add_right _ _⟩, fun k ⟨hk, hle⟩ => ?_⟩
    have hbefore : n ≤ k - start := hleast (hback hk hle)
    change start + n ≤ k
    omega
  | none =>
    have hnone : {n | BeginsAt needle (cs.drop start) n} = ∅ := by rwa [hfound] at hspec
    exact Set.eq_empty_of_forall_notMem fun k ⟨hk, hle⟩ =>
      Set.eq_empty_iff_forall_notMem.mp hnone _ (hback hk hle)

/-- Searching from the back finds the last position. -/
theorem lastIndexOf?_spec (needle cs : List α) :
    FindsLast {n | BeginsAt needle cs n} (lastIndexOf? needle cs) := by
  induction cs with
  | nil =>
    rw [lastIndexOf?]
    by_cases hprefix : needle <+: []
    · rw [if_pos (List.isPrefixOf_iff_prefix.mpr hprefix)]
      exact ⟨beginsAt_zero.mpr hprefix, fun k hk => hk.1⟩
    · rw [if_neg (mt List.isPrefixOf_iff_prefix.mp hprefix)]
      refine Set.eq_empty_of_forall_notMem fun n hn => ?_
      exact hprefix (List.drop_nil ▸ hn.2)
  | cons c cs ih =>
    rw [lastIndexOf?]
    cases hcs : lastIndexOf? needle cs with
    | some n =>
      obtain ⟨hn, hgreatest⟩ : IsGreatest _ n := hcs ▸ ih
      refine ⟨beginsAt_cons_succ.mpr hn, fun k hk => ?_⟩
      cases k with
      | zero => exact Nat.zero_le _
      | succ k => exact Nat.succ_le_succ (hgreatest (beginsAt_cons_succ.mp hk))
    | none =>
      have hnone : {n | BeginsAt needle cs n} = ∅ := by rwa [hcs] at ih
      rw [Set.eq_empty_iff_forall_notMem] at hnone
      by_cases hprefix : needle <+: c :: cs
      · simp only [if_pos (List.isPrefixOf_iff_prefix.mpr hprefix)]
        refine ⟨beginsAt_zero.mpr hprefix, fun k hk => ?_⟩
        cases k with
        | zero => exact Nat.le_refl 0
        | succ k => exact absurd (beginsAt_cons_succ.mp hk) (hnone k)
      · simp only [if_neg (mt List.isPrefixOf_iff_prefix.mp hprefix)]
        refine Set.eq_empty_of_forall_notMem fun n hn => ?_
        cases n with
        | zero => exact hprefix (beginsAt_zero.mp hn)
        | succ n => exact hnone n (beginsAt_cons_succ.mp hn)

/-- The empty text is found at the end. -/
theorem lastIndexOf?_nil (cs : List α) : lastIndexOf? [] cs = some cs.length := by
  induction cs with
  | nil => rfl
  | cons c cs ih => rw [lastIndexOf?, ih, List.length_cons]

end

section

/- No end of the text, itself apart, begins it again. -/
variable {needle : List Char} (hself : ∀ k < needle.length, 0 < k → ¬needle.drop k <+: needle)
include hself

/-- What does not begin a text does not begin before its end either when it follows. -/
theorem not_prefix_append_self {cs : List Char} (hcs : cs ≠ []) (h : ¬needle <+: cs)
    (rest : List Char) : ¬needle <+: cs ++ (needle ++ rest) := by
  intro hprefix
  rcases List.prefix_or_prefix_of_prefix hprefix (List.prefix_append _ _) with hin | ⟨t, rfl⟩
  · exact h hin
  · rw [List.prefix_append_right_inj] at hprefix
    have ht : t ≠ [] := by
      rintro rfl
      exact h (by simp)
    refine hself cs.length ?_ (List.length_pos_iff.mpr hcs) ?_
    · rw [List.length_append]
      exact Nat.lt_add_of_pos_right (List.length_pos_iff.mpr ht)
    · rw [List.drop_left]
      exact List.prefix_of_prefix_length_le hprefix (List.prefix_append _ rest)
        (by rw [List.length_append]; exact Nat.le_add_left _ _)

/-- After a text where it does not occur, it is found there first. -/
theorem indexOf?_append_self {cs : List Char} (h : ¬needle <:+: cs) (rest : List Char) :
    indexOf? needle (cs ++ (needle ++ rest)) = some cs.length := by
  induction cs with
  | nil =>
    obtain _ | ⟨c, needle⟩ := needle
    · exact absurd List.nil_infix h
    · rw [List.nil_append, List.cons_append, indexOf?, if_pos, List.length_nil]
      exact List.isPrefixOf_iff_prefix.mpr (List.prefix_append (c :: needle) rest)
  | cons c cs ih =>
    have hhere : ¬needle <+: c :: (cs ++ (needle ++ rest)) :=
      not_prefix_append_self hself (List.cons_ne_nil c cs) (mt List.IsPrefix.isInfix h) rest
    have hlater : ¬needle <:+: cs := fun hin => h (hin.trans (List.suffix_cons c cs).isInfix)
    rw [List.cons_append, indexOf?, if_neg (mt List.isPrefixOf_iff_prefix.mp hhere), ih hlater,
      Option.map_some, List.length_cons]

end

/-- No occurrence of `needle` in a text with `middle` in it has a character in common with
`middle`: neither is a part of the other, no beginning of `needle` ends `middle`, and no end of
`needle` begins `middle`. -/
structure Separates (needle middle : List Char) : Prop where
  not_inside : ¬needle <:+: middle
  not_around : ¬middle <:+: needle
  not_across : ∀ k < needle.length, 0 < k → ¬needle.take k <:+ middle ∧ ¬needle.drop k <+: middle

instance (needle middle : List Char) : Decidable (Separates needle middle) :=
  decidable_of_iff (¬needle <:+: middle ∧ ¬middle <:+: needle ∧
      ∀ k < needle.length, 0 < k → ¬needle.take k <:+ middle ∧ ¬needle.drop k <+: middle)
    ⟨fun h => ⟨h.1, h.2.1, h.2.2⟩, fun h => ⟨h.1, h.2, h.3⟩⟩

/-- However it is cut, the first part does not end `middle` and the second one does not begin it. -/
theorem Separates.not_cut {l₁ l₂ middle : List Char} (h : Separates (l₁ ++ l₂) middle)
    (h₁ : l₁ ≠ []) (h₂ : l₂ ≠ []) : ¬l₁ <:+ middle ∧ ¬l₂ <+: middle := by
  have hlength : l₁.length < (l₁ ++ l₂).length := by
    rw [List.length_append]
    exact Nat.lt_add_of_pos_right (List.length_pos_iff.mpr h₂)
  have hcut := h.not_across l₁.length hlength (List.length_pos_iff.mpr h₁)
  rwa [List.take_left, List.drop_left] at hcut

/-- A text occurs in two texts with a separating one between them where it occurs in one of
them. -/
theorem infix_join_iff {needle middle xs ys : List Char} (h : Separates needle middle) :
    needle <:+: xs ++ (middle ++ ys) ↔ needle <:+: xs ∨ needle <:+: ys := by
  constructor
  · intro hjoin
    rcases List.infix_append_iff_ne_nil.mp hjoin with
      hxs | hrest | ⟨l₁, l₂, h₁, h₂, rfl, -, hl₂⟩
    · exact .inl hxs
    · rcases List.infix_append_iff_ne_nil.mp hrest with
        hmiddle | hys | ⟨l₁, l₂, h₁, h₂, rfl, hl₁, -⟩
      · exact absurd hmiddle h.not_inside
      · exact .inr hys
      · exact absurd hl₁ (h.not_cut h₁ h₂).1
    · rcases List.prefix_or_prefix_of_prefix hl₂ (List.prefix_append middle ys) with hl₂ | hmiddle
      · exact absurd hl₂ (h.not_cut h₁ h₂).2
      · obtain ⟨t, rfl⟩ := hmiddle
        exact absurd ⟨l₁, t, List.append_assoc ..⟩ h.not_around
  · rintro (hxs | hys)
    · exact hxs.trans (List.prefix_append xs _).isInfix
    · exact hys.trans ((List.suffix_append middle ys).isInfix.trans
        (List.suffix_append xs _).isInfix)

end GatewayMapping.Text
