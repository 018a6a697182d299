import Mathlib.Algebra.GroupWithZero.Nat
import GatewayMapping.Method.Invoke
import GatewayMapping.Proofs.Text.ByteSearch

/-!
# Positions in strings

The methods of strings count characters from the front, and they agree with one another on what a
position is. The method `substring` says what stands between two positions; all others can be told
from it (`Method.string_positions_agree`). A string occurs where as many characters are that
string. So `indexOf` and `lastIndexOf` find the first and the last place with this `substring`, and
`startsWith` and `endsWith` compare it with the ends.

Texts are searched and cut by their bytes, and one character may have several of these. So a
position is turned into the byte where its character begins, and a byte that is found is turned
back (`StringMethod.charIndex_eq`, `StringMethod.charPosition_size_take`).

Positions are integers of 64 bits, and a string has fewer characters than these can count.

## Main definitions

* `Method.Gives`: the value of a call that leaves the containers alone.
* `Method.OccursAt`: the positions where a string occurs, by `substring`.
* `Method.StringPositionsAgree`: what the methods say about positions.

## Main results

* `Method.occursAt_iff`: where a string occurs.
* `Method.string_positions_agree`: the methods agree.
-/

namespace GatewayMapping

/-! ### Positions as integers -/

/-- The first of some positions, or -1 if there is none. -/
def IsFirst (places : Set Int64) (r : Int64) : Prop := IsLeast places r ∨ places = ∅ ∧ r = -1

/-- The last of some positions, or -1 if there is none. -/
def IsLast (places : Set Int64) (r : Int64) : Prop := IsGreatest places r ∨ places = ∅ ∧ r = -1

/-- Places as integers. -/
def positions (places : Set Nat) : Set Int64 := {i | ∃ k : Nat, i.toInt = k ∧ k ∈ places}

section

variable {places : Set Nat} {r : Int64}

section

variable {k : Nat} (hplaces : ∀ k ∈ places, k < 2 ^ 63)
include hplaces

theorem ofNat_mem_positions (hk : k ∈ places) : .ofNat k ∈ positions places :=
  ⟨k, Int64.toInt_ofNat_of_lt (hplaces k hk), hk⟩

theorem positions_eq_empty_iff : positions places = ∅ ↔ places = ∅ := by
  rw [Set.eq_empty_iff_forall_notMem, Set.eq_empty_iff_forall_notMem]
  constructor
  · exact fun h k hk => h (.ofNat k) (ofNat_mem_positions hplaces hk)
  · rintro h i ⟨k, -, hk⟩
    exact h k hk

theorem isLeast_positions (h : IsLeast places k) : IsLeast (positions places) (.ofNat k) := by
  refine ⟨ofNat_mem_positions hplaces h.1, fun i ⟨j, hj, hi⟩ => ?_⟩
  rw [Int64.le_iff_toInt_le, Int64.toInt_ofNat_of_lt (hplaces k h.1), hj]
  exact Int.ofNat_le.mpr (h.2 hi)

theorem isGreatest_positions (h : IsGreatest places k) :
    IsGreatest (positions places) (.ofNat k) := by
  refine ⟨ofNat_mem_positions hplaces h.1, fun i ⟨j, hj, hi⟩ => ?_⟩
  rw [Int64.le_iff_toInt_le, Int64.toInt_ofNat_of_lt (hplaces k h.1), hj]
  exact Int.ofNat_le.mpr (h.2 hi)

end

theorem neg_one_notMem_positions : -1 ∉ positions places := by
  rintro ⟨k, hk, -⟩
  have hint : (-1 : Int64).toInt = -1 := rfl
  omega

theorem IsFirst.eq_neg_one_iff (h : IsFirst (positions places) r) :
    r = -1 ↔ positions places = ∅ := by
  rcases h with ⟨hr, -⟩ | ⟨hempty, hr⟩
  · refine iff_of_false (fun heq => ?_) (Set.nonempty_of_mem hr).ne_empty
    exact neg_one_notMem_positions (heq ▸ hr)
  · exact iff_of_true hr hempty

theorem IsLast.eq_neg_one_iff (h : IsLast (positions places) r) :
    r = -1 ↔ positions places = ∅ := by
  rcases h with ⟨hr, -⟩ | ⟨hempty, hr⟩
  · refine iff_of_false (fun heq => ?_) (Set.nonempty_of_mem hr).ne_empty
    exact neg_one_notMem_positions (heq ▸ hr)
  · exact iff_of_true hr hempty

end

namespace StringMethod

open Text.Utf8 (size takeBytes_size_take dropBytes_size_take)

variable {cs : List Char}

theorem charIndex_eq (n : Nat) (cs : List Char) : charIndex n cs = size (cs.take n) := by
  induction n generalizing cs with
  | zero => cases cs <;> rfl
  | succ n ih =>
    cases cs with
    | nil => rfl
    | cons c cs => rw [charIndex, ih, List.take_succ_cons, size]

/-- A character is at the position of its byte. -/
theorem charPosition_size_take {k : Nat} (hk : k ≤ cs.length) :
    charPosition cs (size (cs.take k)) = k := by
  rw [charPosition, takeBytes_size_take, List.length_take_of_le hk]

theorem substringOf_eq_ok_iff (hcs : cs.length < 2 ^ 63) {b e : Int64} {v : Value} :
    substringOf cs b e = .ok v ↔ (0 ≤ b.toInt ∧ b.toInt ≤ e.toInt ∧ e.toInt ≤ cs.length) ∧
      v = .string (.ofList ((cs.take e.toInt.toNat).drop b.toInt.toNat)) := by
  have hlength : (Int64.ofNat cs.length).toInt = cs.length := Int64.toInt_ofNat_of_lt hcs
  rw [substringOf]
  simp only [Int64.le_iff_toInt_le, hlength, Int64.toInt_zero]
  split
  · next hb =>
    have htake : cs.take b.toInt.toNat = (cs.take e.toInt.toNat).take b.toInt.toNat := by
      rw [List.take_take, Nat.min_eq_left (by omega)]
    rw [charIndex_eq, charIndex_eq, takeBytes_size_take, htake, dropBytes_size_take,
      and_iff_right hb, Except.ok.injEq, eq_comm]
  · next hb => exact iff_of_false nofun fun h => hb h.1

/-- The character at a position is what stands between it and the next one. -/
theorem characterAt_eq_ok_iff {i : Int64} {v : Value} :
    characterAt cs i = .ok v ↔ (0 ≤ i.toInt ∧ i.toInt < cs.length) ∧
      v = .string (.ofList ((cs.take (i.toInt.toNat + 1)).drop i.toInt.toNat)) := by
  rw [characterAt]
  simp only [Int64.le_iff_toInt_le, Int64.toInt_zero]
  by_cases hi : 0 ≤ i.toInt ∧ i.toInt < cs.length
  · have hlt : i.toInt.toNat < cs.length := by omega
    have hone : (cs.take (i.toInt.toNat + 1)).drop i.toInt.toNat = [cs[i.toInt.toNat]] := by
      rw [List.drop_take, List.drop_eq_getElem_cons hlt, Nat.add_sub_cancel_left,
        List.take_succ_cons, List.take_zero]
    rw [if_pos hi.1, List.getElem?_eq_getElem hlt, and_iff_right hi, hone, Except.ok.injEq,
      eq_comm]
    rfl
  · have hnone : (if 0 ≤ i.toInt then cs[i.toInt.toNat]? else none) = none := by
      rw [ite_eq_right_iff]
      exact fun h => List.getElem?_eq_none (by omega)
    rw [hnone]
    exact iff_of_false nofun fun h => hi h.1

/-- A position to search from stands for the end of the string if it is behind it, and for the
beginning if it is before it. -/
theorem indexFrom?_eq (needle cs : List Char) (first : Int64) {start : Nat}
    (hstart : max 0 (min first.toInt cs.length) = start) :
    indexFrom? needle cs first = ((Text.indexOf? needle (cs.drop start)).map (start + ·)).map
      fun k => size (cs.take k) := by
  have hclamped : (if first < 0 then 0 else min first.toInt.toNat cs.length) = start := by
    simp only [Int64.lt_iff_toInt_lt, Int64.toInt_zero]
    split <;> omega
  have hsize (k : Nat) : size (cs.take start) + size ((cs.drop start).take k) =
      size (cs.take (start + k)) := by
    rw [← Text.Utf8.size_append, List.take_add]
  rw [indexFrom?, hclamped, charIndex_eq, dropBytes_size_take, Text.indexOf?_encode,
    Option.map_map, Option.map_map]
  exact congrArg (Option.map · _) (funext hsize)

section

variable {places : Set Nat} {found? : Option Nat}

/-- The first place that is found has the value of an integer. -/
theorem exists_isFirst (hcs : cs.length < 2 ^ 63) (hplaces : ∀ k ∈ places, k ≤ cs.length)
    (h : Text.FindsFirst places found?) :
    ∃ r, positionValue cs (found?.map fun k => size (cs.take k)) = .int r ∧
      IsFirst (positions places) r := by
  have hbound (k : Nat) (hk : k ∈ places) : k < 2 ^ 63 := Nat.lt_of_le_of_lt (hplaces k hk) hcs
  cases found? with
  | none => exact ⟨-1, rfl, .inr ⟨(positions_eq_empty_iff hbound).mpr h, rfl⟩⟩
  | some k =>
    refine ⟨.ofNat k, ?_, .inl (isLeast_positions hbound h)⟩
    rw [Option.map_some, positionValue, charPosition_size_take (hplaces k h.1)]

/-- The last place that is found has the value of an integer. -/
theorem exists_isLast (hcs : cs.length < 2 ^ 63) (hplaces : ∀ k ∈ places, k ≤ cs.length)
    (h : Text.FindsLast places found?) :
    ∃ r, positionValue cs (found?.map fun k => size (cs.take k)) = .int r ∧
      IsLast (positions places) r := by
  have hbound (k : Nat) (hk : k ∈ places) : k < 2 ^ 63 := Nat.lt_of_le_of_lt (hplaces k hk) hcs
  cases found? with
  | none => exact ⟨-1, rfl, .inr ⟨(positions_eq_empty_iff hbound).mpr h, rfl⟩⟩
  | some k =>
    refine ⟨.ofNat k, ?_, .inl (isGreatest_positions hbound h)⟩
    rw [Option.map_some, positionValue, charPosition_size_take (hplaces k h.1)]

end

end StringMethod

namespace Method

/-- The call has this value and leaves the containers as they are. -/
def Gives (hosts : Hosts) (h : Heap) (target : Value) (method : String) (args : List Value)
    (v : Value) : Prop :=
  invoke hosts h target method args = .ok (v, h)

/-- As many characters as `t` has are `t` at a position of `s`. -/
def OccursAt (hosts : Hosts) (h : Heap) (s t : String) (i : Int64) : Prop :=
  ∃ e : Int64, e.toInt = i.toInt + t.toList.length ∧
    Gives hosts h (.string s) "substring" [.int i, .int e] (.string t)

/-- What the methods of `s` say about positions, in `s` and of `t` in it. -/
structure StringPositionsAgree (hosts : Hosts) (h : Heap) (s t : String) : Prop where
  /-- The length is the number of characters. -/
  length : ∃ n : Int64, n.toInt = s.toList.length ∧ Gives hosts h (.string s) "length" [] (.int n)
  /-- The characters between two positions are there if these are in order and not behind the
  end. -/
  substring : ∀ (b e : Int64) (r : Value × Heap),
    invoke hosts h (.string s) "substring" [.int b, .int e] = .ok r ↔
      (0 ≤ b.toInt ∧ b.toInt ≤ e.toInt ∧ e.toInt ≤ s.toList.length) ∧
        r = (.string (.ofList ((s.toList.take e.toInt.toNat).drop b.toInt.toNat)), h)
  /-- Searching finds the first and the last place, and -1 if there is none. -/
  search : ∃ (found : Bool) (first last : Int64),
    Gives hosts h (.string s) "contains" [.string t] (.bool found) ∧
    Gives hosts h (.string s) "indexOf" [.string t] (.int first) ∧
    Gives hosts h (.string s) "lastIndexOf" [.string t] (.int last) ∧
    IsFirst {i | OccursAt hosts h s t i} first ∧ IsLast {i | OccursAt hosts h s t i} last ∧
    (first = -1 ↔ found = false) ∧ (last = -1 ↔ found = false)
  /-- Searching from a position finds the first place that is not before it, where a position
  before the beginning or behind the end stands for this one. -/
  searchFrom : ∀ k : Int64, ∃ first : Int64,
    Gives hosts h (.string s) "indexOf" [.string t, .int k] (.int first) ∧
    IsFirst {i | OccursAt hosts h s t i ∧ max 0 (min k.toInt s.toList.length) ≤ i.toInt} first
  /-- A string begins with what it has at its beginning. -/
  startsWith : ∃ b : Bool, Gives hosts h (.string s) "startsWith" [.string t] (.bool b) ∧
    (b = true ↔ t.toList.length ≤ s.toList.length ∧ OccursAt hosts h s t 0)
  /-- A string ends with what it has from as many characters before its end on. -/
  endsWith : ∃ b : Bool, Gives hosts h (.string s) "endsWith" [.string t] (.bool b) ∧
    (b = true ↔ t.toList.length ≤ s.toList.length ∧
      ∃ i : Int64, i.toInt = (s.toList.length - t.toList.length : Int) ∧
        Gives hosts h (.string s) "substring" [.int i] (.string t))
  /-- There is a character at the positions before the end, and it is what stands between the
  position and the next one. -/
  charAt : ∀ i : Int64,
    ((∃ r, invoke hosts h (.string s) "charAt" [.int i] = .ok r) ↔
      0 ≤ i.toInt ∧ i.toInt < s.toList.length) ∧
    ∀ v, Gives hosts h (.string s) "charAt" [.int i] v ↔
      ∃ e : Int64, e.toInt = i.toInt + 1 ∧ Gives hosts h (.string s) "substring" [.int i, .int e] v
  /-- What stands before a position and what stands from it on are the whole string. -/
  concat : ∀ k : Int64, 0 ≤ k.toInt → k.toInt ≤ s.toList.length → ∃ front back,
    Gives hosts h (.string s) "substring" [.int 0, .int k] (.string front) ∧
    Gives hosts h (.string s) "substring" [.int k] (.string back) ∧
    Gives hosts h (.string front) "concat" [.string back] (.string s)

variable {hosts : Hosts} {h : Heap} {s t : String}

/-- A method of strings other than `split` leaves the containers as they are. -/
theorem invoke_string_eq_ok_iff {name : String} {m : StringMethod}
    (hname : StringMethod.named? name = some m) (hm : m ≠ .split) {args : List Value}
    {r : Value × Heap} :
    invoke hosts h (.string s) name args = .ok r ↔
      StringMethod.scalar s m args = .ok r.1 ∧ r.2 = h := by
  have hrun : StringMethod.run h s m args = do
      return (← StringMethod.scalar s m args, h) := by
    unfold StringMethod.run
    split
    · exact absurd rfl hm
    · rfl
  rw [invoke, hname, orNotFound, hrun]
  obtain ⟨v, h'⟩ := r
  cases StringMethod.scalar s m args with
  | error e => exact iff_of_false nofun fun h => nomatch h.1
  | ok w => simp [pure, Except.pure, bind, Except.bind, eq_comm]

theorem gives_iff {name : String} {m : StringMethod} (hname : StringMethod.named? name = some m)
    (hm : m ≠ .split) {args : List Value} {v : Value} :
    Gives hosts h (.string s) name args v ↔ StringMethod.scalar s m args = .ok v := by
  rw [Gives, invoke_string_eq_ok_iff hname hm, and_iff_left rfl]

section

variable (hs : s.toList.length < 2 ^ 63)
include hs

theorem gives_substring_iff {b e : Int64} {v : Value} :
    Gives hosts h (.string s) "substring" [.int b, .int e] v ↔
      (0 ≤ b.toInt ∧ b.toInt ≤ e.toInt ∧ e.toInt ≤ s.toList.length) ∧
        v = .string (.ofList ((s.toList.take e.toInt.toNat).drop b.toInt.toNat)) := by
  rw [gives_iff (m := .substring) rfl (by decide), StringMethod.scalar,
    StringMethod.substringOf_eq_ok_iff hs]

/-- The characters from a position on. -/
theorem gives_substring_end_iff {b : Int64} {v : Value} :
    Gives hosts h (.string s) "substring" [.int b] v ↔
      (0 ≤ b.toInt ∧ b.toInt ≤ s.toList.length) ∧
        v = .string (.ofList (s.toList.drop b.toInt.toNat)) := by
  have hlength : (Int64.ofNat s.toList.length).toInt = s.toList.length :=
    Int64.toInt_ofNat_of_lt hs
  rw [gives_iff (m := .substring) rfl (by decide), StringMethod.scalar,
    StringMethod.substringOf_eq_ok_iff hs, hlength, Int.toNat_natCast, List.take_length,
    and_iff_left (Int.le_refl _)]

/-- A string occurs where it begins. -/
theorem occursAt_iff {i : Int64} :
    OccursAt hosts h s t i ↔ i ∈ positions {k | Text.BeginsAt t.toList s.toList k} := by
  constructor
  · rintro ⟨e, he, hgives⟩
    obtain ⟨⟨hi, -, hend⟩, htext⟩ := (gives_substring_iff hs).mp hgives
    obtain ⟨k, hk⟩ := Int.eq_ofNat_of_zero_le hi
    have hlast : e.toInt.toNat = k + t.toList.length := by omega
    have htaken := congrArg String.toList (Value.string.inj htext)
    rw [String.toList_ofList, hlast, hk, Int.toNat_natCast] at htaken
    exact ⟨k, hk, Text.beginsAt_iff.mpr ⟨by omega, htaken.symm⟩⟩
  · rintro ⟨k, hk, hbegins⟩
    obtain ⟨hend, htext⟩ := Text.beginsAt_iff.mp hbegins
    have hlast : (Int64.ofNat (k + t.toList.length)).toInt = (k + t.toList.length : Nat) :=
      Int64.toInt_ofNat_of_lt (by omega)
    refine ⟨.ofNat (k + t.toList.length), by omega, (gives_substring_iff hs).mpr ⟨by omega, ?_⟩⟩
    rw [hlast, hk, Int.toNat_natCast, Int.toNat_natCast, htext, String.ofList_toList]

theorem setOf_occursAt :
    {i | OccursAt hosts h s t i} = positions {k | Text.BeginsAt t.toList s.toList k} :=
  Set.ext fun _ => occursAt_iff hs

/-- The positions from one on where a string occurs. -/
theorem setOf_occursAt_from (start : Nat) :
    {i | OccursAt hosts h s t i ∧ (start : Int) ≤ i.toInt} =
      positions {k | Text.BeginsAt t.toList s.toList k ∧ start ≤ k} := by
  ext i
  constructor
  · rintro ⟨hi, hstart⟩
    obtain ⟨n, hn, hbegins⟩ := (occursAt_iff hs).mp hi
    exact ⟨n, hn, hbegins, by omega⟩
  · rintro ⟨n, hn, hbegins, hstart⟩
    exact ⟨(occursAt_iff hs).mpr ⟨n, hn, hbegins⟩, by omega⟩

theorem positions_beginsAt_eq_empty_iff :
    positions {k | Text.BeginsAt t.toList s.toList k} = ∅ ↔
      Text.occursIn t.toList s.toList = false := by
  rw [positions_eq_empty_iff fun k hk => Nat.lt_of_le_of_lt hk.1 hs, Text.occursIn_eq_false_iff]

section

variable (hosts h t)

/-- Searching from a position gives the first place from there on. -/
theorem exists_gives_indexOf_from (k : Int64) : ∃ first : Int64,
    Gives hosts h (.string s) "indexOf" [.string t, .int k] (.int first) ∧
    IsFirst {i | OccursAt hosts h s t i ∧ max 0 (min k.toInt s.toList.length) ≤ i.toInt} first := by
  obtain ⟨start, hstart⟩ : ∃ start : Nat, max 0 (min k.toInt s.toList.length) = start :=
    Int.eq_ofNat_of_zero_le (Int.le_max_left _ _)
  have hle : start ≤ s.toList.length := by omega
  obtain ⟨first, hfirst, hisFirst⟩ := StringMethod.exists_isFirst hs
    (fun n hn => hn.1.1) (Text.indexOf?_drop_spec t.toList hle)
  refine ⟨first, (gives_iff (m := .indexOf) rfl (by decide)).mpr ?_, ?_⟩
  · rw [StringMethod.scalar, StringMethod.indexFrom?_eq _ _ _ hstart, hfirst]
  · rwa [hstart, setOf_occursAt_from hs]

/-- Searching without a position is searching from the beginning. -/
theorem exists_gives_indexOf : ∃ first : Int64,
    Gives hosts h (.string s) "indexOf" [.string t] (.int first) ∧
    IsFirst {i | OccursAt hosts h s t i} first := by
  obtain ⟨first, hfirst, hisFirst⟩ := exists_gives_indexOf_from hosts h t hs 0
  rw [gives_iff (m := .indexOf) rfl (by decide)] at hfirst
  refine ⟨first, (gives_iff (m := .indexOf) rfl (by decide)).mpr hfirst, ?_⟩
  convert hisFirst using 1
  ext i
  refine (and_iff_left_of_imp fun hi => ?_).symm
  obtain ⟨n, hn, -⟩ := (occursAt_iff hs).mp hi
  rw [Int64.toInt_zero]
  omega

theorem exists_gives_lastIndexOf : ∃ last : Int64,
    Gives hosts h (.string s) "lastIndexOf" [.string t] (.int last) ∧
    IsLast {i | OccursAt hosts h s t i} last := by
  obtain ⟨last, hlast, hisLast⟩ := StringMethod.exists_isLast hs
    (fun n hn => hn.1) (Text.lastIndexOf?_spec t.toList s.toList)
  refine ⟨last, (gives_iff (m := .lastIndexOf) rfl (by decide)).mpr ?_, ?_⟩
  · rw [StringMethod.scalar, StringMethod.lastIndex?, Text.lastIndexOf?_encode, hlast]
  · rwa [setOf_occursAt hs]

end

/-- A string begins with another one if this stands at its beginning. -/
theorem isPrefixOf_iff_occursAt_zero :
    t.toList.isPrefixOf s.toList = true ↔
      t.toList.length ≤ s.toList.length ∧ OccursAt hosts h s t 0 := by
  rw [List.isPrefixOf_iff_prefix, occursAt_iff hs]
  constructor
  · intro hstarts
    exact ⟨hstarts.length_le, 0, rfl, Text.beginsAt_zero.mpr hstarts⟩
  · rintro ⟨-, k, hk, hbegins⟩
    obtain rfl : k = 0 := (Int.ofNat_eq_zero.mp hk.symm)
    exact Text.beginsAt_zero.mp hbegins

/-- A string ends with another one if this is what stands from as many characters before its end
on. -/
theorem isSuffixOf_iff_gives_substring :
    t.toList.isSuffixOf s.toList = true ↔ t.toList.length ≤ s.toList.length ∧
      ∃ i : Int64, i.toInt = (s.toList.length - t.toList.length : Int) ∧
        Gives hosts h (.string s) "substring" [.int i] (.string t) := by
  rw [List.isSuffixOf_iff_suffix]
  constructor
  · intro hsuffix
    have hle := hsuffix.length_le
    have hint : (Int64.ofNat (s.toList.length - t.toList.length)).toInt =
        (s.toList.length - t.toList.length : Nat) := Int64.toInt_ofNat_of_lt (by omega)
    refine ⟨hle, .ofNat (s.toList.length - t.toList.length), by omega,
      (gives_substring_end_iff hs).mpr ⟨by omega, ?_⟩⟩
    rw [hint, Int.toNat_natCast, ← List.suffix_iff_eq_drop.mp hsuffix, String.ofList_toList]
  · rintro ⟨hle, i, hi, hgives⟩
    obtain ⟨-, htext⟩ := (gives_substring_end_iff hs).mp hgives
    have hnat : i.toInt.toNat = s.toList.length - t.toList.length := by omega
    have hdrop := congrArg String.toList (Value.string.inj htext)
    rw [String.toList_ofList, hnat] at hdrop
    exact List.suffix_iff_eq_drop.mpr hdrop

/-- The character at a position, where there is one. -/
theorem gives_charAt_iff {i : Int64} {v : Value} :
    Gives hosts h (.string s) "charAt" [.int i] v ↔ ∃ e : Int64, e.toInt = i.toInt + 1 ∧
      Gives hosts h (.string s) "substring" [.int i, .int e] v := by
  rw [gives_iff (m := .charAt) rfl (by decide), StringMethod.scalar,
    StringMethod.characterAt_eq_ok_iff]
  simp only [gives_substring_iff hs]
  constructor
  · rintro ⟨hi, rfl⟩
    have hnext : (Int64.ofNat (i.toInt.toNat + 1)).toInt = (i.toInt.toNat + 1 : Nat) :=
      Int64.toInt_ofNat_of_lt (by omega)
    refine ⟨.ofNat (i.toInt.toNat + 1), by omega, by omega, ?_⟩
    rw [hnext, Int.toNat_natCast]
  · rintro ⟨e, he, hi, rfl⟩
    have hnext : e.toInt.toNat = i.toInt.toNat + 1 := by omega
    exact ⟨by omega, by rw [hnext]⟩

end

/-- **The methods of strings agree on positions.** -/
theorem string_positions_agree (hosts : Hosts) (h : Heap) (s t : String)
    (hs : s.toList.length < 2 ^ 63) : StringPositionsAgree hosts h s t := by
  constructor
  case length =>
    exact ⟨_, Int64.toInt_ofNat_of_lt hs, (gives_iff (m := .length) rfl (by decide)).mpr rfl⟩
  case substring =>
    rintro b e ⟨v, h'⟩
    rw [invoke_string_eq_ok_iff (m := .substring) rfl (by decide), StringMethod.scalar,
      StringMethod.substringOf_eq_ok_iff hs, Prod.mk.injEq, and_assoc]
  case search =>
    obtain ⟨first, hfirst, hisFirst⟩ := exists_gives_indexOf hosts h t hs
    obtain ⟨last, hlast, hisLast⟩ := exists_gives_lastIndexOf hosts h t hs
    refine ⟨_, first, last, (gives_iff (m := .contains) rfl (by decide)).mpr rfl, hfirst, hlast,
      hisFirst, hisLast, ?_⟩
    rw [setOf_occursAt hs] at hisFirst hisLast
    rw [hisFirst.eq_neg_one_iff, hisLast.eq_neg_one_iff, and_self]
    exact positions_beginsAt_eq_empty_iff hs
  case searchFrom => exact exists_gives_indexOf_from hosts h t hs
  case startsWith =>
    exact ⟨_, (gives_iff (m := .startsWith) rfl (by decide)).mpr rfl,
      isPrefixOf_iff_occursAt_zero hs⟩
  case endsWith =>
    exact ⟨_, (gives_iff (m := .endsWith) rfl (by decide)).mpr rfl,
      isSuffixOf_iff_gives_substring hs⟩
  case charAt =>
    refine fun i => ⟨⟨?_, fun hi => ?_⟩, fun v => gives_charAt_iff hs⟩
    · rintro ⟨r, hr⟩
      rw [invoke_string_eq_ok_iff (m := .charAt) rfl (by decide), StringMethod.scalar,
        StringMethod.characterAt_eq_ok_iff] at hr
      exact hr.1.1
    · have hchar := StringMethod.characterAt_eq_ok_iff.mpr ⟨hi, rfl⟩
      exact ⟨_, (gives_iff (h := h) (m := .charAt) rfl (by decide)).mpr hchar⟩
  case concat =>
    intro k hk hle
    refine ⟨_, _, (gives_substring_iff hs).mpr ⟨⟨Int.le_refl 0, hk, hle⟩, rfl⟩,
      (gives_substring_end_iff hs).mpr ⟨⟨hk, hle⟩, rfl⟩,
      (gives_iff (m := .concat) rfl (by decide)).mpr ?_⟩
    rw [StringMethod.scalar, ← String.ofList_append, Int64.toInt_zero, Int.toNat_zero,
      List.drop_zero, List.take_append_drop, String.ofList_toList]

/-- The string has characters of one to four bytes, and occurrences that overlap. -/
theorem string_positions_agree_mixed :
    ∃ s t : String, s.toList.map Char.utf8Size = [2, 3, 4, 1, 1, 1] ∧
      Gives [] .empty (.string s) "indexOf" [.string t] (.int 3) ∧
      Gives [] .empty (.string s) "lastIndexOf" [.string t] (.int 4) ∧
      s.toList.length < 2 ^ 63 ∧ StringPositionsAgree [] .empty s t := by
  have hlength : "é€😀aaa".toList.length < 2 ^ 63 := by decide
  exact ⟨"é€😀aaa", "aa", by decide, rfl, rfl, hlength,
    string_positions_agree [] .empty _ _ hlength⟩

end Method

end GatewayMapping
