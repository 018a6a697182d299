/-!
# Ordered maps

A map from strings that remembers the order in which its keys were first put in. A key that is
put again keeps its place and takes the new value; a key that is taken out leaves the order of
the others as it was.

`Fields` holds the operations on bare lists of pairs, which is what a JSON object is made of.
`OrderedMap` adds the fact that no key occurs twice.
-/

namespace GatewayMapping

/-- A list of named members. -/
abbrev Fields (α : Type) := List (String × α)

namespace Fields

variable {α β : Type}

/-- The names, in order. -/
def keys (fs : Fields α) : List String := fs.map (·.1)

/-- The members without their names, in order. -/
def values (fs : Fields α) : List α := fs.map (·.2)

/-- The first member of that name. -/
def get? : Fields α → String → Option α
  | [], _ => none
  | (k, v) :: fs, key => if k = key then some v else get? fs key

/-- Sets a member: in place when the name is there already, at the end when it is new. -/
def insert : Fields α → String → α → Fields α
  | [], key, value => [(key, value)]
  | (k, v) :: fs, key, value =>
    if k = key then (k, value) :: fs else (k, v) :: insert fs key value

/-- Takes the first member of that name out. -/
def erase : Fields α → String → Fields α
  | [], _ => []
  | (k, v) :: fs, key => if k = key then fs else (k, v) :: erase fs key

/-- Puts the members of the second list into the first, one after the other. -/
def insertAll (fs new : Fields α) : Fields α :=
  new.foldl (fun acc entry => acc.insert entry.1 entry.2) fs

/-- Replaces every member, keeping the names. -/
def mapValues (f : α → β) (fs : Fields α) : Fields β := fs.map fun entry => (entry.1, f entry.2)

@[simp] theorem keys_nil : keys ([] : Fields α) = [] := rfl

@[simp] theorem keys_cons (entry : String × α) (fs : Fields α) :
    keys (entry :: fs) = entry.1 :: keys fs := rfl

theorem mem_keys_insert {fs : Fields α} {key x : String} {value : α} :
    x ∈ keys (insert fs key value) ↔ x ∈ keys fs ∨ x = key := by
  induction fs with
  | nil => simp [insert]
  | cons entry fs ih =>
    obtain ⟨k, v⟩ := entry
    by_cases h : k = key
    · simp only [insert, h, if_true, keys_cons, List.mem_cons]
      grind
    · simp only [insert, h, if_false, keys_cons, List.mem_cons, ih, or_assoc]

theorem nodup_keys_insert {fs : Fields α} (h : (keys fs).Nodup) (key : String) (value : α) :
    (keys (insert fs key value)).Nodup := by
  induction fs with
  | nil => simp [insert]
  | cons entry fs ih =>
    obtain ⟨k, v⟩ := entry
    simp only [keys_cons, List.nodup_cons] at h
    by_cases hk : k = key
    · simpa only [insert, hk, if_true, keys_cons, List.nodup_cons] using hk ▸ h
    · simp only [insert, hk, if_false, keys_cons, List.nodup_cons, mem_keys_insert]
      exact ⟨fun hm => hm.elim h.1 id, ih h.2⟩

theorem mem_keys_of_mem_keys_erase {fs : Fields α} {key x : String}
    (h : x ∈ keys (erase fs key)) : x ∈ keys fs := by
  induction fs with
  | nil => exact h
  | cons entry fs ih =>
    obtain ⟨k, v⟩ := entry
    by_cases hk : k = key
    · simp only [erase, hk, if_true] at h
      exact List.mem_cons_of_mem _ h
    · simp only [erase, hk, if_false, keys_cons, List.mem_cons] at h ⊢
      exact h.imp_right ih

theorem nodup_keys_erase {fs : Fields α} (h : (keys fs).Nodup) (key : String) :
    (keys (erase fs key)).Nodup := by
  induction fs with
  | nil => exact h
  | cons entry fs ih =>
    obtain ⟨k, v⟩ := entry
    simp only [keys_cons, List.nodup_cons] at h
    by_cases hk : k = key
    · simpa only [erase, hk, if_true] using h.2
    · simp only [erase, hk, if_false, keys_cons, List.nodup_cons]
      exact ⟨fun hm => h.1 (mem_keys_of_mem_keys_erase hm), ih h.2⟩

theorem nodup_keys_insertAll {fs : Fields α} (h : (keys fs).Nodup) (new : Fields α) :
    (keys (insertAll fs new)).Nodup := by
  induction new generalizing fs with
  | nil => exact h
  | cons entry new ih => exact ih (nodup_keys_insert h entry.1 entry.2)

end Fields

/-- Named members in order, no name twice. -/
structure OrderedMap (α : Type) where
  entries : Fields α
  nodup_keys : entries.keys.Nodup := by simp

namespace OrderedMap

variable {α β : Type}

/-- The map without members. -/
def empty : OrderedMap α := { entries := [] }

instance : Inhabited (OrderedMap α) := ⟨empty⟩

instance [DecidableEq α] : DecidableEq (OrderedMap α) := fun a b =>
  decidable_of_iff (a.entries = b.entries) (by cases a; cases b; simp)

instance [Repr α] : Repr (OrderedMap α) := ⟨fun m n => reprPrec m.entries n⟩

/-- The member stored under a key. -/
def get? (m : OrderedMap α) (key : String) : Option α := m.entries.get? key

/-- Whether a key is bound. -/
def contains (m : OrderedMap α) (key : String) : Bool := (m.get? key).isSome

/-- The number of members. -/
def size (m : OrderedMap α) : Nat := m.entries.length

/-- The keys, in order. -/
def keys (m : OrderedMap α) : List String := m.entries.keys

/-- The members, in the order of their keys. -/
def values (m : OrderedMap α) : List α := m.entries.values

/-- Binds a key: a bound key keeps its place, a new one goes last. -/
def insert (m : OrderedMap α) (key : String) (value : α) : OrderedMap α :=
  ⟨m.entries.insert key value, Fields.nodup_keys_insert m.nodup_keys key value⟩

/-- Unbinds a key; the others keep their order. -/
def erase (m : OrderedMap α) (key : String) : OrderedMap α :=
  ⟨m.entries.erase key, Fields.nodup_keys_erase m.nodup_keys key⟩

/-- Binds every pair of a list, one after the other. -/
def insertAll (m : OrderedMap α) (new : Fields α) : OrderedMap α :=
  ⟨m.entries.insertAll new, Fields.nodup_keys_insertAll m.nodup_keys new⟩

/-- The map that binds the pairs of a list, one after the other. -/
def ofList (entries : Fields α) : OrderedMap α := empty.insertAll entries

end OrderedMap
end GatewayMapping
