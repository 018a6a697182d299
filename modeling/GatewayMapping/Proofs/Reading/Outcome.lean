import GatewayMapping.Proofs.Reading.Progress

/-!
# What is read from a text

`Read.Yields` says that a reader succeeds wherever a text is left, and what its result and the
rest then are. The rules for sequences run from the front: what follows a token is asked of the
text after the token.

## Main definitions

* `Read.Yields`: a reader succeeds on a text, with a result and a rest that are as described.
-/

namespace GatewayMapping.Template

/-- Characters of a class that have been passed over are not passed over again. -/
theorem Cursor.skipWhile_skipWhile (p : Char → Bool) (cur : Cursor) :
    (cur.skipWhile p).skipWhile p = cur.skipWhile p := by
  have hnone : (cur.rest.dropWhile p).takeWhile p = [] := by
    cases hrest : cur.rest.dropWhile p with
    | nil => rfl
    | cons c cs =>
      have hc := List.head?_dropWhile_not p cur.rest
      rw [hrest] at hc
      exact List.takeWhile_cons_of_neg (by simpa using hc)
  rw [skipWhile, rest_skipWhile, hnone]
  rfl

namespace Read

variable {α β : Type}

/-- Wherever `cs` is left, the reader succeeds, and `Q` holds of its result and of what it
leaves. -/
def Yields (r : Read α) (cs : List Char) (Q : α → List Char → Prop) : Prop :=
  ∀ cur : Cursor, cur.rest = cs → ∃ a cur', r cur = .ok (a, cur') ∧ Q a cur'.rest

namespace Yields

variable {cs : List Char} {P Q : α → List Char → Prop} {S : β → List Char → Prop}

theorem mono {r : Read α} (h : Yields r cs P) (hPQ : ∀ a left, P a left → Q a left) :
    Yields r cs Q := by
  intro cur hcur
  obtain ⟨a, cur', hr, hP⟩ := h cur hcur
  exact ⟨a, cur', hr, hPQ a cur'.rest hP⟩

theorem pure {a : α} (h : Q a cs) : Yields (pure a) cs Q :=
  fun cur hcur => ⟨a, cur, rfl, hcur ▸ h⟩

/-- A sequence, with what its second part does as the description of its first part. -/
theorem seq {x : Read α} {f : α → Read β}
    (h : Yields x cs fun a left => Yields (f a) left S) : Yields (x >>= f) cs S := by
  intro cur hcur
  obtain ⟨a, cur', hxa, hf⟩ := h cur hcur
  obtain ⟨b, cur'', hfb, hS⟩ := hf cur' rfl
  exact ⟨b, cur'', bind_eq_ok_iff.mpr ⟨a, cur', hxa, hfb⟩, hS⟩

theorem get {Q : Cursor → List Char → Prop} (h : ∀ cur : Cursor, cur.rest = cs → Q cur cs) :
    Yields get cs Q :=
  fun cur hcur => ⟨cur, cur, rfl, hcur.symm ▸ h cur hcur⟩

theorem here {Q : Position → List Char → Prop} (h : ∀ p, Q p cs) : Yields here cs Q :=
  fun cur hcur => ⟨cur.position, cur, rfl, hcur.symm ▸ h cur.position⟩

theorem rest {Q : List Char → List Char → Prop} (h : Q cs cs) : Yields rest cs Q := by
  rintro cur rfl
  exact ⟨cur.rest, cur, rfl, h⟩

theorem peek? {Q : Option Char → List Char → Prop} (h : Q cs.head? cs) : Yields peek? cs Q := by
  rintro cur rfl
  exact ⟨cur.rest.head?, cur, rfl, h⟩

theorem skip {n : Nat} {Q : Unit → List Char → Prop} (h : Q () (cs.drop n)) :
    Yields (skip n) cs Q := by
  rintro cur rfl
  exact ⟨(), cur.skip n, rfl, (Cursor.rest_skip n cur).symm ▸ h⟩

theorem takeWhile {p : Char → Bool} {Q : List Char → List Char → Prop}
    (h : Q (cs.takeWhile p) (cs.dropWhile p)) : Yields (takeWhile p) cs Q := by
  rintro cur rfl
  exact ⟨_, cur.skipWhile p, rfl, (Cursor.rest_skipWhile p cur).symm ▸ h⟩

theorem skipWhile {p : Char → Bool} {Q : Unit → List Char → Prop} (h : Q () (cs.dropWhile p)) :
    Yields (skipWhile p) cs Q := by
  rintro cur rfl
  exact ⟨(), cur.skipWhile p, rfl, (Cursor.rest_skipWhile p cur).symm ▸ h⟩

/-- What begins by passing over a class of characters may find them passed over already. -/
theorem of_dropWhile {p : Char → Bool} {f : Unit → Read β}
    (h : Yields (Read.skipWhile p >>= f) (cs.dropWhile p) S) :
    Yields (Read.skipWhile p >>= f) cs S := by
  rintro cur rfl
  obtain ⟨b, cur', hb, hS⟩ := h (cur.skipWhile p) (Cursor.rest_skipWhile p cur)
  refine ⟨b, cur', ?_, hS⟩
  obtain ⟨_, _, ⟨⟩, hb⟩ := bind_eq_ok_iff.mp hb
  rw [Cursor.skipWhile_skipWhile] at hb
  exact bind_eq_ok_iff.mpr ⟨(), cur.skipWhile p, rfl, hb⟩

theorem char {c : Char} {expected : Expected} {Q : Unit → List Char → Prop} (h : Q () cs) :
    Yields (char c expected) (c :: cs) Q := by
  refine .seq (.peek? ?_)
  rw [List.head?_cons, if_pos rfl]
  exact .skip h

theorem sign_true {token : List Char} {Q : Bool → List Char → Prop}
    (hpre : token.isPrefixOf cs = true) (h : Q true (cs.drop token.length)) :
    Yields (sign token) cs Q := by
  refine .seq (.rest ?_)
  rw [if_pos hpre]
  exact .seq (.skip (.pure h))

theorem sign_false {token : List Char} {Q : Bool → List Char → Prop}
    (hpre : token.isPrefixOf cs = false) (h : Q false cs) : Yields (sign token) cs Q := by
  refine .seq (.rest ?_)
  rw [hpre, if_neg Bool.false_ne_true]
  exact .pure h

theorem wholeWord_true {word : List Char} {Q : Bool → List Char → Prop}
    (hpre : beginsWithWord word cs = true) (h : Q true (cs.drop word.length)) :
    Yields (wholeWord word) cs Q := by
  refine .seq (.rest ?_)
  rw [if_pos hpre]
  exact .seq (.skip (.pure h))

theorem wholeWord_false {word : List Char} {Q : Bool → List Char → Prop}
    (hpre : beginsWithWord word cs = false) (h : Q false cs) :
    Yields (wholeWord word) cs Q := by
  refine .seq (.rest ?_)
  rw [hpre, if_neg Bool.false_ne_true]
  exact .pure h

theorem quoted {quote c : Char} {content : List Char} {k : Nat} {Q : List Char → List Char → Prop}
    (hq : quotedContent? quote cs = some (content, k)) (h : Q content (cs.drop k)) :
    Yields (quoted quote) (c :: cs) Q := by
  refine .seq (.rest ?_)
  rw [List.tail_cons, hq]
  exact .seq (.skip (.pure h))

end Yields
end Read
end GatewayMapping.Template
