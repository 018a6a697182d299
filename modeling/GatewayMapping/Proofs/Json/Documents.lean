import GatewayMapping.Json.Reader
import GatewayMapping.Proofs.Decimal.NotANumber
import GatewayMapping.Proofs.Json.CompactReading
import GatewayMapping.Proofs.JsonPath.Selection

/-!
# The documents that texts hold

A text can hold any nesting of arrays and objects, but not every tree of `Json`: its whole numbers
are those of 64 bits with a sign or without, since every other number is a double, and a key that
an object repeats takes the place of the earlier one. Such documents are *well-formed*
(`Json.wellFormed_of_parse`).

A well-formed document without doubles is plain, with the number of arrays and objects inside one
another as its depth (`Json.WellFormed.isPlain`).

## Main definitions

* `Json.WellFormed`: 64 bits hold the whole numbers, and no object has a key twice.
* `Json.depth`: how many arrays and objects lie inside one another.
* `Json.Read.Gives`: what a reader gives has a property.

## Main results

* `Json.wellFormed_of_parse`: what is read from a text is well-formed.
-/

namespace GatewayMapping.Json

open JsonPath (IsPartOf isPartOf_of_mem_items)

/-- Whole numbers are those of 64 bits, with a sign or without, and no object has a key twice. -/
inductive WellFormed : Json → Prop
  | null : WellFormed .null
  | bool (b : Bool) : WellFormed (.bool b)
  | int {n : Int} (hmin : -2 ^ 63 ≤ n) (hmax : n < 2 ^ 64) : WellFormed (.int n)
  | float (x : Float) : WellFormed (.float x)
  | string (s : String) : WellFormed (.string s)
  | array {items : List Json} (h : ∀ j ∈ items, WellFormed j) : WellFormed (.array items)
  | object {fields : Fields Json} (hkeys : fields.keys.Nodup)
      (h : ∀ f ∈ fields, WellFormed f.2) : WellFormed (.object fields)

mutual
/-- How many arrays and objects lie inside one another. -/
def depth : Json → Nat
  | .array items => depthOfItems items + 1
  | .object fields => depthOfMembers fields + 1
  | _ => 0

/-- The greatest depth of an item. -/
def depthOfItems : List Json → Nat
  | [] => 0
  | x :: xs => max (depth x) (depthOfItems xs)

/-- The greatest depth of a member. -/
def depthOfMembers : List (String × Json) → Nat
  | [] => 0
  | (_, x) :: fs => max (depth x) (depthOfMembers fs)
end

theorem depth_le_depthOfItems {items : List Json} {j : Json} (h : j ∈ items) :
    j.depth ≤ depthOfItems items := by
  induction items with
  | nil => cases h
  | cons x xs ih =>
    rw [depthOfItems]
    rcases List.mem_cons.mp h with rfl | hmem
    · exact Nat.le_max_left _ _
    · exact Nat.le_trans (ih hmem) (Nat.le_max_right _ _)

theorem depth_le_depthOfMembers {fields : Fields Json} {f : String × Json} (h : f ∈ fields) :
    f.2.depth ≤ depthOfMembers fields := by
  induction fields with
  | nil => cases h
  | cons field fields ih =>
    rw [depthOfMembers]
    rcases List.mem_cons.mp h with rfl | hmem
    · exact Nat.le_max_left _ _
    · exact Nat.le_trans (ih hmem) (Nat.le_max_right _ _)

theorem isPartOf_of_mem_members {fields : Fields Json} {f : String × Json} (h : f ∈ fields) :
    IsPartOf f.2 (.object fields) :=
  .of_mem_held (List.mem_map.mpr ⟨f, h, rfl⟩)

/-- A well-formed document without doubles is plain. -/
theorem WellFormed.isPlain {j : Json} (h : j.WellFormed) (hwhole : ∀ x, ¬IsPartOf (.float x) j)
    {n : Nat} (hdepth : j.depth ≤ n) : IsPlain n j := by
  induction h generalizing n with
  | null => exact .null
  | bool b => exact .bool b
  | int hmin hmax => exact .int hmin hmax
  | float x => exact absurd (.refl _) (hwhole x)
  | string s => exact .string s
  | @array items h ih =>
    rw [depth] at hdepth
    obtain ⟨n, rfl⟩ := Nat.exists_eq_add_one_of_ne_zero (Nat.ne_zero_of_lt hdepth)
    refine .array fun j hj => ih j hj (fun x hx => ?_) ?_
    · exact hwhole x (hx.trans (isPartOf_of_mem_items hj))
    · exact Nat.le_trans (depth_le_depthOfItems hj) (Nat.le_of_succ_le_succ hdepth)
  | @object fields hkeys h ih =>
    rw [depth] at hdepth
    obtain ⟨n, rfl⟩ := Nat.exists_eq_add_one_of_ne_zero (Nat.ne_zero_of_lt hdepth)
    refine .object hkeys fun f hf => ih f hf (fun x hx => ?_) ?_
    · exact hwhole x (hx.trans (isPartOf_of_mem_members hf))
    · exact Nat.le_trans (depth_le_depthOfMembers hf) (Nat.le_of_succ_le_succ hdepth)

/-! ### Numbers -/

/-- What the text of a number holds: a whole number of 64 bits, with a sign or without, or a double
other than NaN. -/
inductive IsNumber : Json → Prop
  | int {n : Int} (hmin : -2 ^ 63 ≤ n) (hmax : n < 2 ^ 64) : IsNumber (.int n)
  | float {x : Float} (h : x.isNaN = false) : IsNumber (.float x)

theorem IsNumber.wellFormed {j : Json} (h : IsNumber j) : j.WellFormed := by
  cases h with
  | int hmin hmax => exact .int hmin hmax
  | float h => exact .float _

/-- The value of a number is never NaN. -/
theorem IsNumber.exists_number? {j : Json} (h : IsNumber j) :
    ∃ x, j.number? = some x ∧ x.isNaN = false := by
  cases h with
  | int hmin hmax => exact ⟨_, rfl, Decimal.isNaN_ofWhole _⟩
  | float h => exact ⟨_, rfl, h⟩

theorem isNaN_zero (negative : Bool) :
    (if negative then -0.0 else (0.0 : Float)).isNaN = false := by
  have hzero : (0.0 : Float).isNaN = false := Decimal.isNaN_ofScientific ..
  split
  · exact Decimal.isNaN_neg hzero
  · exact hzero

theorem isNaN_nearestDouble? {significand : Nat} {exponent : Int} {x : Float}
    (h : Read.nearestDouble? significand exponent = some x) : x.isNaN = false := by
  have hzero := isNaN_zero false
  unfold Read.nearestDouble? at h
  extract_lets size y at h
  have hy : y.isNaN = false := by
    dsimp only [y]
    split
    · exact Decimal.isNaN_ofScientific ..
    · exact Decimal.isNaN_ofScientific ..
  clear_value y
  split at h
  · exact Option.some.inj h ▸ hzero
  split at h
  · cases h
  split at h
  · exact Option.some.inj h ▸ hzero
  split at h
  · cases h
  · exact Option.some.inj h ▸ hy

/-! ### What readers give -/

namespace Read

variable {α β : Type} {P : α → Prop} {Q : β → Prop}

/-- What the reader gives, wherever it succeeds, has the property. -/
def Gives (P : α → Prop) (r : Read α) : Prop := ∀ cs a rest, r cs = .ok (a, rest) → P a

namespace Gives

theorem pure {a : α} (h : P a) : Gives P (pure a) := by
  rintro cs _ _ ⟨⟩
  exact h

theorem bind {x : Read α} {f : α → Read β} (hx : Gives P x) (hf : ∀ a, P a → Gives Q (f a)) :
    Gives Q (x >>= f) := by
  intro cs b rest h
  change Except.bind (x cs) (fun p => f p.1 p.2) = _ at h
  cases hxa : x cs with
  | error e =>
    rw [hxa] at h
    cases h
  | ok p =>
    rw [hxa] at h
    exact hf p.1 (hx cs p.1 p.2 hxa) p.2 b rest h

/-- What comes before does not matter. -/
theorem seq {x : Read α} {f : α → Read β} (hf : ∀ a, Gives Q (f a)) : Gives Q (x >>= f) :=
  bind (P := fun _ => True) (fun _ _ _ _ => trivial) fun a _ => hf a

theorem imp {P' : α → Prop} {x : Read α} (hx : Gives P x) (h : ∀ a, P a → P' a) : Gives P' x :=
  fun cs a rest hread => h a (hx cs a rest hread)

theorem failHere (flaw : Flaw) : Gives P (failHere flaw) := by
  rintro cs _ _ ⟨⟩

theorem failNext (flaw : Flaw) : Gives P (failNext flaw) := by
  rintro cs _ _ ⟨⟩

theorem ite {c : Prop} [Decidable c] {x y : Read α} (hx : c → Gives P x) (hy : ¬c → Gives P y) :
    Gives P (if c then x else y) := by
  split
  · exact hx ‹c›
  · exact hy ‹¬c›

end Gives

open Gives (seq)

/-! ### Numbers and words -/

theorem double_isNumber (negative : Bool) (significand : Nat) (e : Int) :
    Gives IsNumber (double negative significand e) := by
  unfold double
  split
  · next x hx =>
    have hx := isNaN_nearestDouble? hx
    cases negative with
    | true => exact .pure (.float (Decimal.isNaN_neg hx))
    | false => exact .pure (.float hx)
  · exact .failHere _

theorem whole_isNumber (negative : Bool) (n : Nat) : Gives IsNumber (whole negative n) := by
  have hmin : Nat.pow 2 63 = 2 ^ 63 := rfl
  have hmax : Nat.pow 2 64 = 2 ^ 64 := rfl
  rw [whole]
  refine .ite (fun _ => .ite (fun h => .pure ?_) fun _ => double_isNumber _ _ _)
    fun _ => .ite (fun h => .pure ?_) fun _ => double_isNumber _ _ _
  · rw [Bool.and_eq_true, decide_eq_true_eq, decide_eq_true_eq, hmin] at h
    exact .int (by omega) (by omega)
  · rw [hmax] at h
    exact .int (by omega) (by omega)

theorem exponent_isNumber (negative : Bool) (significand : Nat) (scale : Int) :
    Gives IsNumber (exponent negative significand scale) := by
  refine seq fun _ => seq fun sign => ?_
  extract_lets digits
  have hdigits (u : Unit) : Gives IsNumber (digits u) := by
    refine seq fun c? => ?_
    cases c? with
    | none => exact .failHere _
    | some c =>
      refine .ite (fun _ => seq fun n => .ite (fun _ => .ite (fun _ => .failHere _) fun _ => ?_)
        fun _ => .ite (fun _ => double_isNumber _ _ _) fun _ => double_isNumber _ _ _)
        fun _ => .failNext _
      exact seq fun _ => .pure (.float (isNaN_zero negative))
  exact .ite (fun _ => seq hdigits) fun _ => hdigits ()

theorem fraction_isNumber (negative : Bool) (ds : List Char) :
    Gives IsNumber (fraction negative ds) := by
  refine seq fun _ => seq fun digits => .ite (fun _ => seq fun c? => ?_) fun _ => seq fun c? => ?_
  · cases c? with
    | none => exact .failNext _
    | some c => exact .failNext _
  · split
    · exact exponent_isNumber _ _ _
    · exact exponent_isNumber _ _ _
    · exact double_isNumber _ _ _

theorem number_isNumber (negative : Bool) : Gives IsNumber (number negative) := by
  refine seq fun c? => ?_
  cases c? with
  | none => exact .failHere _
  | some c =>
    refine .ite (fun _ => seq fun ds => seq fun d? => ?_) fun _ => .failNext _
    split
    · exact fraction_isNumber _ _
    · exact exponent_isNumber _ _ _
    · exact exponent_isNumber _ _ _
    · exact .ite (fun _ => .failNext _) fun _ => whole_isNumber _ _
    · exact whole_isNumber _ _

theorem word_gives {P : Json → Prop} {value : Json} (h : P value) :
    (cs : List Char) → Gives P (word cs value)
  | [] => .pure h
  | c :: cs => by
      refine seq fun c? => ?_
      cases c? with
      | none => exact .failHere _
      | some d => exact .ite (fun _ => seq fun _ => word_gives h cs) fun _ => .failNext _

/-! ### Arrays and objects -/

section

variable {item : Read Json} {P : Json → Prop} (hitem : Gives P item)
include hitem

theorem itemsAfter_gives : (fuel : Nat) → Gives (∀ j ∈ ·, P j) (itemsAfter item fuel)
  | 0 => .failHere _
  | fuel + 1 => by
      refine seq fun c? => ?_
      split
      · exact .failNext _
      · exact seq fun _ => .pure (List.forall_mem_nil _)
      · refine seq fun _ => seq fun d? => ?_
        split
        · exact .failNext _
        · exact .failNext _
        · exact hitem.bind fun j hj => (itemsAfter_gives fuel).bind fun js hjs =>
            .pure (List.forall_mem_cons.mpr ⟨hj, hjs⟩)
      · exact .failNext _

theorem items_gives : Gives (∀ j ∈ ·, P j) (items item) := by
  refine seq fun c? => ?_
  split
  · exact .failNext _
  · exact seq fun _ => .pure (List.forall_mem_nil _)
  · exact hitem.bind fun j hj => seq fun cs => (itemsAfter_gives hitem _).bind fun js hjs =>
      .pure (List.forall_mem_cons.mpr ⟨hj, hjs⟩)

theorem member_gives : Gives (fun f : String × Json => P f.2) (member item) := by
  refine seq fun key => seq fun c? => ?_
  split
  · exact .failNext _
  · exact seq fun _ => hitem.bind fun j hj => .pure hj
  · exact .failNext _

theorem membersAfter_gives : (fuel : Nat) →
    Gives (fun fs : Fields Json => ∀ f ∈ fs, P f.2) (membersAfter item fuel)
  | 0 => .failHere _
  | fuel + 1 => by
      refine seq fun c? => ?_
      split
      · exact .failNext _
      · exact seq fun _ => .pure (List.forall_mem_nil _)
      · refine seq fun _ => seq fun d? => ?_
        split
        · exact .failNext _
        · exact (member_gives hitem).bind fun f hf => (membersAfter_gives fuel).bind fun fs hfs =>
            .pure (List.forall_mem_cons.mpr ⟨hf, hfs⟩)
        · exact .failNext _
        · exact .failNext _
      · exact .failNext _

theorem members_gives : Gives (fun fs : Fields Json => ∀ f ∈ fs, P f.2) (members item) := by
  refine seq fun c? => ?_
  split
  · exact .failNext _
  · exact seq fun _ => .pure (List.forall_mem_nil _)
  · exact (member_gives hitem).bind fun f hf => seq fun cs =>
      (membersAfter_gives hitem _).bind fun fs hfs => .pure (List.forall_mem_cons.mpr ⟨hf, hfs⟩)
  · exact .failNext _

end

/-! ### Documents -/

theorem valueWith_wellFormed {nested : Option (Read Json)}
    (h : ∀ item, nested = some item → Gives WellFormed item) :
    Gives WellFormed (valueWith nested) := by
  refine seq fun c? => ?_
  split
  · exact .failNext _
  · exact seq fun _ => word_gives .null _
  · exact seq fun _ => word_gives (.bool true) _
  · exact seq fun _ => word_gives (.bool false) _
  · exact seq fun _ => (number_isNumber true).imp fun _ => IsNumber.wellFormed
  · exact seq fun s => .pure (.string s)
  · cases nested with
    | none => exact .failNext _
    | some item =>
      exact seq fun _ => (items_gives (h item rfl)).bind fun items hitems => .pure (.array hitems)
  · cases nested with
    | none => exact .failNext _
    | some item =>
      refine seq fun _ => (members_gives (h item rfl)).bind fun fields hfields => .pure ?_
      have hnil : (Fields.keys ([] : Fields Json)).Nodup := List.nodup_nil
      exact .object (Fields.nodup_keys_insertAll hnil _)
        (Fields.forall_mem_insertAll (List.forall_mem_nil _) hfields)
  · exact .ite (fun _ => (number_isNumber false).imp fun _ => IsNumber.wellFormed)
      fun _ => .failNext _

theorem value_wellFormed : (depth : Nat) → Gives WellFormed (value depth)
  | 0 => valueWith_wellFormed nofun
  | depth + 1 => valueWith_wellFormed fun _ hitem => Option.some.inj hitem ▸ value_wellFormed depth

end Read

/-- **What is read from a text is well-formed.** -/
theorem wellFormed_of_parse {text : String} {j : Json} (h : parse text = .ok j) :
    j.WellFormed := by
  have hdocument : Read.Gives WellFormed Read.document :=
    (Read.value_wellFormed greatestDepth).bind fun _ hj => .seq fun _ => .pure hj
  rw [parse] at h
  cases hread : Read.document text.toList with
  | error fault =>
    rw [hread] at h
    cases h
  | ok p =>
    rw [hread] at h
    cases h
    exact hdocument _ _ _ hread

end GatewayMapping.Json
