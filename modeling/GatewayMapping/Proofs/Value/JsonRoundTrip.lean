import GatewayMapping.Proofs.Value.Traversals
import GatewayMapping.Value.OfJson

/-!
# Values through JSON

The JSON form of a value is made into a value again with new lists and maps. They hold nothing but
one another, each only what was made before it, so the new value unfolds to the tree of the old
one, in which a host object, or a container inside itself, has become its text. These texts are
what stands for them in an output anyway, so the two values are written alike
(`Heap.text_ofJson_toJson`). A number that is not finite has no JSON form, so none may be reached.

The traversal that writes a value and the one that builds its JSON form both go along its tree
(`Heap.writes_iff`, `Heap.converts_iff`), so all of this can be said of the tree.

## Main definitions

* `Heap.FiniteFrom`: only finite doubles can be reached from a value.
* `Heap.Builds`: a heap and a value in it, made from another heap, unfold to a tree.

## Main results

* `Heap.Unfolds.builds_ofJson`: the JSON form of a tree builds the tree with texts.
* `Heap.text_ofJson_toJson`: a value and the value of its JSON form are written alike.
-/

namespace GatewayMapping

/-! ### Trees of documents -/

namespace Tree

mutual
/-- The tree in which host objects and containers inside themselves are strings. -/
def withTexts : Tree → Tree
  | .null => .null
  | .bool b => .bool b
  | .int n => .int n
  | .float x => .float x
  | .string s => .string s
  | .list items => .list (withTextsItems items)
  | .map members => .map (withTextsMembers members)
  | .object typeName => .string (objectText typeName)
  | .listAgain => .string listAgainText
  | .mapAgain => .string mapAgainText

def withTextsItems : List Tree → List Tree
  | [] => []
  | t :: ts => withTexts t :: withTextsItems ts

def withTextsMembers : List (String × Tree) → List (String × Tree)
  | [] => []
  | (key, t) :: ms => (key, withTexts t) :: withTextsMembers ms
end

mutual
/-- Strings are written as they are. -/
theorem text_withTexts : (t : Tree) → t.withTexts.text = t.text
  | .null | .bool _ | .int _ | .float _ | .string _ | .object _ | .listAgain | .mapAgain => rfl
  | .list items => by rw [withTexts, text, text, textItems_withTexts items]
  | .map members => by rw [withTexts, text, text, textMembers_withTexts members]

theorem textItems_withTexts : (ts : List Tree) → textItems (withTextsItems ts) = textItems ts
  | [] => rfl
  | [t] => text_withTexts t
  | t :: t' :: ts => by
      have hrest := textItems_withTexts (t' :: ts)
      rw [withTextsItems] at hrest
      rw [withTextsItems, withTextsItems, textItems_cons_cons, text_withTexts t, hrest,
        ← textItems_cons_cons]

theorem textMembers_withTexts :
    (ms : List (String × Tree)) → textMembers (withTextsMembers ms) = textMembers ms
  | [] => rfl
  | [(key, t)] => congrArg (key ++ "=" ++ ·) (text_withTexts t)
  | (key, t) :: (key', t') :: ms => by
      have hrest := textMembers_withTexts ((key', t') :: ms)
      rw [withTextsMembers] at hrest
      rw [withTextsMembers, withTextsMembers, textMembers_cons_cons, text_withTexts t, hrest,
        ← textMembers_cons_cons]
end

theorem keys_withTextsMembers :
    (ms : Fields Tree) → Fields.keys (withTextsMembers ms) = ms.keys
  | [] => rfl
  | (key, _) :: ms => congrArg (key :: ·) (keys_withTextsMembers ms)

end Tree

namespace Heap

variable {h : Heap}

/-! ### Heaps that grow -/

/-- The second heap has the containers of the first one and may have more. -/
structure Extends (h h' : Heap) : Prop where
  lists_le : h.lists.size ≤ h'.lists.size
  maps_le : h.maps.size ≤ h'.maps.size
  items : ∀ ref : ListRef, ref.index < h.lists.size → h'.items ref = h.items ref
  members : ∀ ref : MapRef, ref.index < h.maps.size → h'.members ref = h.members ref

namespace Extends

theorem refl (h : Heap) : Extends h h :=
  ⟨Nat.le_refl _, Nat.le_refl _, fun _ _ => rfl, fun _ _ => rfl⟩

theorem trans {h h' h'' : Heap} (hh' : Extends h h') (hh'' : Extends h' h'') : Extends h h'' where
  lists_le := Nat.le_trans hh'.lists_le hh''.lists_le
  maps_le := Nat.le_trans hh'.maps_le hh''.maps_le
  items ref hr := (hh''.items ref (Nat.lt_of_lt_of_le hr hh'.lists_le)).trans (hh'.items ref hr)
  members ref hr :=
    (hh''.members ref (Nat.lt_of_lt_of_le hr hh'.maps_le)).trans (hh'.members ref hr)

theorem newList (h : Heap) (items : List Value) : Extends h (h.newList items).2 where
  lists_le := by simp [Heap.newList]
  maps_le := Nat.le_refl _
  items ref hr := by simp [Heap.newList, Heap.items, Array.getElem?_push, Nat.ne_of_lt hr]
  members _ _ := rfl

theorem newMap (h : Heap) (members : OrderedMap Value) : Extends h (h.newMap members).2 where
  lists_le := Nat.le_refl _
  maps_le := by simp [Heap.newMap]
  items _ _ := rfl
  members ref hr := by simp [Heap.newMap, Heap.members, Array.getElem?_push, Nat.ne_of_lt hr]

/-- A container that the greater heap does not have is none of the smaller one. -/
theorem not_within {h h' : Heap} (hh' : Extends h h') {c : Container} (hc : ¬c.Within h') :
    ¬c.Within h := by
  cases c with
  | list ref => exact fun hr => hc (Nat.lt_of_lt_of_le hr hh'.lists_le)
  | map ref => exact fun hr => hc (Nat.lt_of_lt_of_le hr hh'.maps_le)

end Extends

theorem items_newList (h : Heap) (items : List Value) :
    (h.newList items).2.items ⟨h.lists.size⟩ = items := by
  simp [newList, Heap.items]

theorem members_newMap (h : Heap) (members : OrderedMap Value) :
    (h.newMap members).2.members ⟨h.maps.size⟩ = members := by
  simp [newMap, Heap.members]

/-! ### Values of documents -/

/-- The heap `h` has been extended, and in it and all further extensions the traversal `run` ends
with the tree, inside containers that were not there. -/
def Builds {α β : Type} (run : Heap → List Container → α → β → Prop) (h : Heap) (r : α × Heap)
    (t : β) : Prop :=
  h.Extends r.2 ∧ ∀ h', r.2.Extends h' → ∀ opened, (∀ c ∈ opened, ¬c.Within r.2) →
    run h' opened r.1 t

/-- A scalar builds itself. -/
theorem builds_scalar (h : Heap) {v : Value} {t : Tree} (ht : scalarTree? v = some t) :
    Builds Unfolds h (v, h) t :=
  ⟨.refl h, fun _ _ _ _ => .scalar ht⟩

theorem Builds.consItem {r : Value × Heap} {rs : List Value × Heap} {t : Tree} {ts : List Tree}
    (hr : Builds Unfolds h r t) (hrs : Builds UnfoldsItems r.2 rs ts) :
    Builds UnfoldsItems h (r.1 :: rs.1, rs.2) (t :: ts) :=
  ⟨hr.1.trans hrs.1, fun h' hh' opened hopened =>
    .cons (hr.2 h' (hrs.1.trans hh') opened fun c hc => hrs.1.not_within (hopened c hc))
      (hrs.2 h' hh' opened hopened)⟩

theorem Builds.consMember {r : Value × Heap} {rs : Fields Value × Heap} {t : Tree}
    {ms : Fields Tree} (key : String) (hr : Builds Unfolds h r t)
    (hrs : Builds UnfoldsMembers r.2 rs ms) :
    Builds UnfoldsMembers h ((key, r.1) :: rs.1, rs.2) ((key, t) :: ms) :=
  ⟨hr.1.trans hrs.1, fun h' hh' opened hopened =>
    .cons (hr.2 h' (hrs.1.trans hh') opened fun c hc => hrs.1.not_within (hopened c hc))
      (hrs.2 h' hh' opened hopened)⟩

/-- A new list builds the list of what its items build. -/
theorem Builds.newList {r : List Value × Heap} {ts : List Tree} (hr : Builds UnfoldsItems h r ts) :
    Builds Unfolds h (r.2.newList r.1) (.list ts) := by
  have hgrows := Extends.newList r.2 r.1
  refine ⟨hr.1.trans hgrows, fun h' hh' opened hopened => ?_⟩
  have hnew : ¬(Container.list ⟨r.2.lists.size⟩).Within r.2 := Nat.lt_irrefl _
  have hwithin : (Container.list ⟨r.2.lists.size⟩).Within (r.2.newList r.1).2 := by
    simp [Container.Within, Heap.newList]
  have hitems : h'.items ⟨r.2.lists.size⟩ = r.1 :=
    (hh'.items _ hwithin).trans (items_newList r.2 r.1)
  refine .items (fun hmem => hopened _ hmem hwithin) ?_
  rw [hitems]
  exact hr.2 h' (hgrows.trans hh') _
    (List.forall_mem_cons.mpr ⟨hnew, fun c hc => hgrows.not_within (hopened c hc)⟩)

/-- A new map builds the map of what its members build. -/
theorem Builds.newMap {r : Fields Value × Heap} {ms : Fields Tree}
    (hr : Builds UnfoldsMembers h r ms) (hms : ms.keys.Nodup) :
    Builds Unfolds h (r.2.newMap (.ofList r.1)) (.map ms) := by
  have hgrows := Extends.newMap r.2 (.ofList r.1)
  have hkeys : r.1.keys.Nodup := (hr.2 r.2 (.refl _) [] (List.forall_mem_nil _)).keys_eq ▸ hms
  refine ⟨hr.1.trans hgrows, fun h' hh' opened hopened => ?_⟩
  have hnew : ¬(Container.map ⟨r.2.maps.size⟩).Within r.2 := Nat.lt_irrefl _
  have hwithin : (Container.map ⟨r.2.maps.size⟩).Within (r.2.newMap (.ofList r.1)).2 := by
    simp [Container.Within, Heap.newMap]
  have hmembers : h'.members ⟨r.2.maps.size⟩ = .ofList r.1 :=
    (hh'.members _ hwithin).trans (members_newMap r.2 _)
  refine .members (fun hmem => hopened _ hmem hwithin) ?_
  rw [hmembers, OrderedMap.entries_ofList hkeys]
  exact hr.2 h' (hgrows.trans hh') _
    (List.forall_mem_cons.mpr ⟨hnew, fun c hc => hgrows.not_within (hopened c hc)⟩)

/-! ### The round trip -/

/-- Only finite doubles can be reached from a value. -/
def FiniteFrom (h : Heap) (v : Value) : Prop :=
  ∀ x : Float, Relation.ReflTransGen h.Holds v (.float x) → x.isFinite = true

theorem FiniteFrom.of_holds {v w : Value} (hv : h.FiniteFrom v) (hw : h.Holds v w) :
    h.FiniteFrom w :=
  fun x hx => hv x (.head hw hx)

/-- The JSON form of a scalar. -/
theorem builds_ofJson_scalar (h₀ : Heap) {v : Value} {t : Tree} (ht : scalarTree? v = some t)
    (hv : h.FiniteFrom v) : Builds Unfolds h₀ (h₀.ofJson t.toJson) t.withTexts := by
  cases v
  case int n =>
    cases ht
    rw [Tree.toJson, ofJson, int64?_toInt]
    exact builds_scalar h₀ rfl
  case float x =>
    cases ht
    rw [Tree.toJson, if_pos (hv x .refl), ofJson]
    exact builds_scalar h₀ rfl
  all_goals
    cases ht
    try exact builds_scalar h₀ rfl

mutual
/-- The JSON form of a tree that a run has built the tree with texts. -/
theorem Unfolds.builds_ofJson {opened : List Container} {v : Value} {t : Tree} :
    h.Unfolds opened v t → h.FiniteFrom v → ∀ h₀ : Heap,
      Builds Unfolds h₀ (h₀.ofJson t.toJson) t.withTexts
  | .scalar ht, hv, h₀ => builds_ofJson_scalar h₀ ht hv
  | .listAgain _, _, h₀ => builds_scalar h₀ rfl
  | .mapAgain _, _, h₀ => builds_scalar h₀ rfl
  | .items _ hts, hv, h₀ => by
      rw [Tree.toJson, ofJson, Tree.withTexts]
      exact (hts.builds_ofJson (fun x hx => hv.of_holds (.item hx)) h₀).newList
  | .members _ hms, hv, h₀ => by
      rw [Tree.toJson, ofJson, Tree.withTexts]
      have hentries : ∀ entry ∈ (h.members _).entries, h.FiniteFrom entry.2 := fun _ hentry =>
        hv.of_holds (.member (OrderedMap.get?_eq_some_iff.mpr hentry))
      refine (hms.builds_ofJson hentries h₀).newMap ?_
      rw [Tree.keys_withTextsMembers, hms.keys_eq]
      exact OrderedMap.nodup_keys _

theorem UnfoldsItems.builds_ofJson {opened : List Container} {vs : List Value} {ts : List Tree} :
    h.UnfoldsItems opened vs ts → (∀ v ∈ vs, h.FiniteFrom v) → ∀ h₀ : Heap,
      Builds UnfoldsItems h₀ (h₀.ofJsonItems (Tree.toJsonItems ts)) (Tree.withTextsItems ts)
  | .nil, _, h₀ => ⟨.refl h₀, fun _ _ _ _ => .nil⟩
  | .cons ht hts, hvs, h₀ =>
      have ⟨hv, hvs⟩ := List.forall_mem_cons.mp hvs
      (ht.builds_ofJson hv h₀).consItem (hts.builds_ofJson hvs _)

theorem UnfoldsMembers.builds_ofJson {opened : List Container} {vs : Fields Value}
    {ms : Fields Tree} :
    h.UnfoldsMembers opened vs ms → (∀ entry ∈ vs, h.FiniteFrom entry.2) → ∀ h₀ : Heap,
      Builds UnfoldsMembers h₀ (h₀.ofJsonMembers (Tree.toJsonMembers ms)) (Tree.withTextsMembers ms)
  | .nil, _, h₀ => ⟨.refl h₀, fun _ _ _ _ => .nil⟩
  | .cons ht hms, hvs, h₀ =>
      have ⟨hv, hvs⟩ := List.forall_mem_cons.mp hvs
      (ht.builds_ofJson hv h₀).consMember _ (hms.builds_ofJson hvs _)
end

/-- **A value and the value of its JSON form are written alike.** The traversal of the value ends
with one tree, whose text and JSON form are those of the value, and the value that is made of the
JSON form on any heap has the same text. -/
theorem text_ofJson_toJson (h h₀ : Heap) (v : Value) (hv : h.FiniteFrom v) :
    ∃ t, (∀ t', h.Unfolds [] v t' ↔ t' = t) ∧ h.text v = t.text ∧ h.toJson v = t.toJson ∧
      (h₀.ofJson (h.toJson v)).2.text (h₀.ofJson (h.toJson v)).1 = t.text := by
  have hrun : h.Unfolds [] v (h.tree v) := (h.unfolds_iff v _).mpr rfl
  have hbuilt := (hrun.builds_ofJson hv h₀).2 _ (.refl _) [] (List.forall_mem_nil _)
  have htree := (unfolds_iff _ _ _).mp hbuilt
  refine ⟨h.tree v, h.unfolds_iff v, rfl, rfl, ?_⟩
  exact (congrArg Tree.text htree.symm).trans (Tree.text_withTexts _)

/-- A list that lies inside itself, by way of a map, and holds another list twice. -/
theorem text_ofJson_toJson_cyclic :
    let h : Heap := {
      lists := #[[.map ⟨0⟩, .list ⟨1⟩, .list ⟨1⟩], [.float 2.5, .null]]
      maps := #[.ofList [("self", .list ⟨0⟩), ("n", .int (-7)), ("host", .object ⟨0, "Input"⟩)]] }
    let r := Heap.empty.ofJson (h.toJson (.list ⟨0⟩))
    h.FiniteFrom (.list ⟨0⟩) ∧
      h.text (.list ⟨0⟩) = "[\x7bself=(this Collection), n=-7, host=Input@object\x7d, " ++
        "[2.5, null], [2.5, null]]" ∧
      r.2.text r.1 = h.text (.list ⟨0⟩) := by
  intro h r
  have hholds : ∀ v w, (∀ x, v = .float x → x.isFinite = true) → h.Holds v w →
      ∀ x, w = .float x → x.isFinite = true := by
    rintro _ _ - (@⟨⟨_ | _ | i⟩, _, hw⟩ | @⟨⟨_ | i⟩, key, _, hw⟩) x rfl
    · simp [h, items] at hw
    · have hx : x = 2.5 := by simpa [h, items] using hw
      rw [hx]
      decide +kernel
    · simp [h, items] at hw
    · have hmem := Fields.mem_of_get?_eq_some hw
      change (key, Value.float x) ∈ [("self", Value.list ⟨0⟩), ("n", .int (-7)),
        ("host", .object ⟨0, "Input"⟩)] at hmem
      simp at hmem
    · have hmem : (key, Value.float x) ∈ [] := Fields.mem_of_get?_eq_some hw
      cases hmem
  have hfinite : h.FiniteFrom (.list ⟨0⟩) := fun x hx =>
    of_reach hholds (fun _ heq => Value.noConfusion heq) hx x rfl
  obtain ⟨t, -, ht, -, hr⟩ := text_ofJson_toJson h .empty (.list ⟨0⟩) hfinite
  exact ⟨hfinite, by decide +kernel, hr.trans ht.symm⟩

end Heap
end GatewayMapping
