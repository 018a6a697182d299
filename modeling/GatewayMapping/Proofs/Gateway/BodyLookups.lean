import GatewayMapping.Gateway.Accessors
import GatewayMapping.Proofs.Json.Documents
import GatewayMapping.Proofs.JsonPath.PlainResults
import GatewayMapping.Proofs.JsonPath.RoundTrip

/-!
# The two lookups of a path in a body

`$input.json` gives what a path leads to as a JSON text, and `$input.path` as a value. The text is
one of the document that the value is made of: read again, it gives that document. Doubles are left
out, whose texts this module says nothing about, and strings that look like an object or an array,
which are given as they are.

A text is read to the depth of 127, and the array of what a path selects is one level deeper than
what it selects from, so the body may be 126 levels deep.

## Main definitions

* `Gateway.IsBracketed`: the strings that begin and end like an object or an array.
* `Gateway.Shows`: a text and a value are those of a document.

## Main results

* `Gateway.Input.invoke_json_path`: both lookups tell of the same document.
-/

namespace GatewayMapping.Gateway

open JsonPath (IsPartOf)

/-- A string begins and ends with the brackets of an object, or with those of an array. -/
def IsBracketed (s : String) : Prop :=
  (['\x7b'] <+: s.toList ∧ ['\x7d'] <:+ s.toList) ∨ (['['] <+: s.toList ∧ [']'] <:+ s.toList)

/-- A document is told by a text and by a value. A bracketed string is told by itself, and any other
document by a text that it is read from, if it is no double and no count beyond 64 bits. -/
structure Shows (h : Heap) (j : Json) (text : String) (value : Value × Heap) : Prop where
  value : value = h.ofJson j
  bracketed : ∀ s, j = .string s → IsBracketed s → text = s
  compact : (∀ s, j = .string s → ¬IsBracketed s) → text = j.compact
  parse : (∀ s, j = .string s → ¬IsBracketed s) → (∀ x, j ≠ .float x) →
    (∀ count : Nat, j = .int count → count < 2 ^ 64) →
    Json.parse text = .ok j

namespace Input

theorem isBetween_iff (first last : Char) (s : String) :
    isBetween first last s = true ↔ [first] <+: s.toList ∧ [last] <:+ s.toList := by
  rw [isBetween, Bool.and_eq_true, decide_eq_true_eq, decide_eq_true_eq,
    List.singleton_prefix_iff_head?_eq_some, List.singleton_suffix_iff_getLast?_eq_some]

theorem looksLikeJson_iff (s : String) : looksLikeJson s = true ↔ IsBracketed s := by
  rw [looksLikeJson, Bool.or_eq_true, isBetween_iff, isBetween_iff, IsBracketed]

/-- The text of what a path leads to. -/
theorem json_of_find {input : Input} {expression : String} {j : Json}
    (h : input.body.find expression = .ok j) :
    (∀ s, j = .string s → IsBracketed s → input.json expression = s) ∧
      ((∀ s, j = .string s → ¬IsBracketed s) → input.json expression = j.compact) := by
  cases j with
  | string s =>
    rw [json, h]
    dsimp only
    refine ⟨fun t ht hbracketed => ?_, fun hplain => ?_⟩
    · cases ht
      exact if_pos ((looksLikeJson_iff s).mpr hbracketed)
    · exact if_neg fun hlooks => hplain s rfl ((looksLikeJson_iff s).mp hlooks)
  | _ =>
    rw [json, h]
    exact ⟨nofun, fun _ => rfl⟩

/-- Where a path leads to nothing, both lookups give null. -/
theorem lookups_of_not_found {input : Input} {expression : String}
    (h : ∀ j, input.body.find expression ≠ .ok j) (heap : Heap) :
    input.json expression = "null" ∧ input.body.pathValue heap expression = (.null, heap) := by
  cases hfind : input.body.find expression with
  | error e => exact ⟨by rw [json, hfind], by rw [Body.pathValue, hfind]; rfl⟩
  | ok j => exact absurd hfind (h j)

/-- In a plain body the text and the value of a path are those of what it leads to. -/
theorem shows_of_find {input : Input} {d : Json} (hd : Json.IsPlain 126 d) {expression : String}
    {j : Json} (hdocument : input.body.document = some d)
    (hfind : JsonPath.find d expression = .ok j) (h : Heap) :
    Shows h j (input.json expression) (input.body.pathValue h expression) := by
  have hbody : input.body.find expression = .ok j := by
    rw [Body.find, hdocument]
    exact hfind
  obtain ⟨hbracketed, hcompact⟩ := json_of_find hbody
  refine ⟨?_, hbracketed, hcompact, fun hplain hdouble hcount => ?_⟩
  · rw [Body.pathValue, hbody]
    rfl
  · rw [hcompact hplain]
    exact Json.parse_compact (hd.of_find hfind hdouble hcount)

/-- **The two lookups of a path tell of the same document.** If the body is no document, or nothing
comes of the path, `json` gives the text null and `path` gives null. Otherwise `json` gives a text
and `path` the value of what the path leads to. -/
theorem invoke_json_path (h₀ : Heap) (text : String) (path query header : MapRef)
    (hbody : ∀ d, Json.parse text = .ok d → (∀ x, ¬IsPartOf (.float x) d) ∧ d.depth ≤ 126)
    (h : Heap) (expression : String) :
    let input := (ofBody h₀ text path query header).1
    ∃ shown value h',
      input.invoke h "json" [.string expression] = .ok (.string shown, h) ∧
      input.invoke h "path" [.string expression] = .ok (value, h') ∧
      (∀ d j, Json.parse text = .ok d → JsonPath.find d expression = .ok j →
        Shows h j shown (value, h')) ∧
      ((∀ d j, Json.parse text = .ok d → JsonPath.find d expression ≠ .ok j) →
        shown = "null" ∧ value = .null ∧ h' = h) := by
  intro input
  have hdocument : input.body.document = (Json.parse text).toOption := rfl
  refine ⟨_, _, _, rfl, rfl, fun d j hparse hfind => ?_, fun hmissing => ?_⟩
  · obtain ⟨hwhole, hdepth⟩ := hbody d hparse
    have hplain := (Json.wellFormed_of_parse hparse).isPlain hwhole hdepth
    exact shows_of_find hplain (by rw [hdocument, hparse]; rfl) hfind h
  · have hnone : ∀ j, input.body.find expression ≠ .ok j := by
      intro j hfind
      rw [Body.find, hdocument] at hfind
      cases hparse : Json.parse text with
      | error e =>
        rw [hparse] at hfind
        cases hfind
      | ok d =>
        rw [hparse] at hfind
        exact hmissing d j hparse hfind
    obtain ⟨hjson, hpath⟩ := lookups_of_not_found hnone h
    exact ⟨hjson, congrArg Prod.fst hpath, congrArg Prod.snd hpath⟩

/-- All members of a name: a number, and a bracketed string with a quote in it. -/
theorem invoke_json_path_deep :
    let text := "\x7b\"a\":[5,\x7b\"k\":\"\x7b\\\"\x7d\"\x7d],\"k\":-18\x7d"
    let d : Json := .object
      [("a", .array [.int 5, .object [("k", .string "\x7b\"\x7d")]]), ("k", .int (-18))]
    let input := (ofBody .empty text ⟨0⟩ ⟨1⟩ ⟨2⟩).1
    let j : Json := .array [.int (-18), .string "\x7b\"\x7d"]
    (∀ d', Json.parse text = .ok d' → (∀ x, ¬IsPartOf (.float x) d') ∧ d'.depth ≤ 126) ∧
      Json.parse text = .ok d ∧ ∃ value h',
        input.invoke .empty "json" [.string "$..['k']"] =
          .ok (.string "[-18,\"\x7b\\\"\x7d\"]", .empty) ∧
        input.invoke .empty "path" [.string "$..['k']"] = .ok (value, h') ∧
        Json.parse "[-18,\"\x7b\\\"\x7d\"]" = .ok j ∧ (value, h') = Heap.empty.ofJson j := by
  intro text d input j
  have htext : text = d.compact := by decide +kernel
  have hcompact : j.compact = "[-18,\"\x7b\\\"\x7d\"]" := by decide +kernel
  have hfind : JsonPath.find d "$..['k']" = .ok j := by
    have hplain : JsonPath.PlainSteps [.mk true (.name "k")] := ⟨trivial, trivial⟩
    have hpath : String.ofList (JsonPath.pathText [.mk true (.name "k")] none) = "$..['k']" := by
      decide +kernel
    have hparse := JsonPath.parse_plainSteps hplain none
    rw [hpath] at hparse
    rw [JsonPath.find, hparse]
    rfl
  have hwhole : ∀ x, ¬IsPartOf (.float x) d := by
    intro x hx
    simpa [d, JsonPath.descendants, JsonPath.descendantsOfItems, JsonPath.descendantsOfMembers]
      using hx.mem_descendants
  have hplain : Json.IsPlain Json.greatestDepth d := by
    refine Json.WellFormed.isPlain (.object (by decide) ?_) hwhole (by decide)
    simp only [List.forall_mem_cons]
    refine ⟨.array ?_, .int (by omega) (by omega), List.forall_mem_nil _⟩
    simp only [List.forall_mem_cons]
    exact ⟨.int (by omega) (by omega),
      .object (by decide) (List.forall_mem_singleton.mpr (.string _)), List.forall_mem_nil _⟩
  have hparse : Json.parse text = .ok d := htext ▸ Json.parse_compact hplain
  have hbody : ∀ d', Json.parse text = .ok d' → (∀ x, ¬IsPartOf (.float x) d') ∧
      d'.depth ≤ 126 := by
    intro d' hd'
    obtain rfl : d = d' := Except.ok.inj (hparse.symm.trans hd')
    exact ⟨hwhole, by decide⟩
  obtain ⟨shown, value, h', hjson, hpath, hshows, -⟩ :=
    invoke_json_path .empty text ⟨0⟩ ⟨1⟩ ⟨2⟩ hbody .empty "$..['k']"
  have hj := hshows d j hparse hfind
  have hstring : ∀ s, j = .string s → ¬IsBracketed s := fun _ heq => Json.noConfusion heq
  have hdouble : ∀ x, j ≠ .float x := fun _ heq => Json.noConfusion heq
  have hcount : ∀ count : Nat, j = .int count → count < 2 ^ 64 := fun _ heq => Json.noConfusion heq
  obtain rfl : shown = "[-18,\"\x7b\\\"\x7d\"]" := (hj.compact hstring).trans hcompact
  exact ⟨hbody, hparse, value, h', hjson, hpath, hj.parse hstring hdouble hcount, hj.value⟩

end Input
end GatewayMapping.Gateway
