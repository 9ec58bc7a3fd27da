import RungLogic.Proofs.Tables
import RungLogic.Proofs.Text.Feeds
import RungLogic.Proofs.Workspace.Paths
import RungLogic.Workspace

/-!
Files that are written and read. A file that has been written is there and holds what was written;
the directories on the way to it stay, and no directory takes its place.
-/

set_option autoImplicit false
set_option relaxedAutoImplicit false

namespace RungLogic

namespace Workspace

variable {w : Workspace}

/-- A file stands at that path and holds that text. -/
structure Holds (w : Workspace) (path text : String) : Prop where
  reached : w.wayFault? (way (Path.parts path)) = none
  noDirectory : w.isDirectory (Path.parts path) = false
  found : w.files.value? ("/".intercalate (Path.parts path)) = some text
  clear : w.garbled.value? ("/".intercalate (Path.parts path)) = none

/-- A file can be written at that path. -/
structure Writable (w : Workspace) (path : String) : Prop where
  reached : w.wayFault? (way (Path.parts path)) = none
  noDirectory : w.isDirectory (Path.parts path) = false

private theorem wayFault?_eq_none_iff (ways : List (List String)) :
    w.wayFault? ways = none ↔
      ∀ parts ∈ ways, w.isFile parts = false ∧ w.isDirectory parts = true := by
  induction ways with
  | nil => simp [wayFault?]
  | cons parts rest ih =>
    unfold wayFault?
    cases file : w.isFile parts <;> cases directory : w.isDirectory parts <;>
      simp [file, directory, ih]

theorem Holds.read {path text : String} (h : w.Holds path text) :
    w.read path = .ok (Text.readText text) := by
  simp [Workspace.read, h.reached, h.noDirectory, h.found, h.clear]

theorem Holds.isFile {path text : String} (h : w.Holds path text) :
    w.isFile (Path.parts path) = true := by
  rw [Workspace.isFile, Table.has_eq_isSome, h.found]
  rfl

def withFile (w : Workspace) (path text : String) : Workspace :=
  { w with
    files := w.files.put ("/".intercalate (Path.parts path)) text
    garbled := w.garbled.filter fun f => f.1 ≠ "/".intercalate (Path.parts path) }

theorem Writable.write {path : String} (h : w.Writable path) (text : String) :
    w.write path text = .ok (w.withFile path text) := by
  simp [Workspace.write, h.reached, h.noDirectory, withFile]

theorem Holds.writable {path text : String} (h : w.Holds path text) : w.Writable path :=
  ⟨h.reached, h.noDirectory⟩

theorem Writable.ne_empty {path : String} (h : w.Writable path) : path ≠ "" := by
  rintro rfl
  cases h.noDirectory

private theorem isDirectory_withFile (path text : String) (parts : List String) :
    (w.withFile path text).isDirectory parts = true ↔
      w.isDirectory parts = true ∨
        (parts.isPrefixOf (Path.parts path) = true ∧ Path.parts path ≠ parts) := by
  have key := Path.parts_intercalate (Path.proper_parts path)
  have through (files : Table String) :
      (files.any fun f => parts.isPrefixOf (Path.parts f.1) && Path.parts f.1 ≠ parts) = true ↔
        ∃ name ∈ files.names, parts.isPrefixOf (Path.parts name) = true ∧
          Path.parts name ≠ parts := by
    simp [List.any_eq_true, Table.names]
  simp only [isDirectory, withFile, Bool.or_eq_true, through, Table.mem_names_put]
  constructor
  · rintro (old | ⟨name, rfl | old, below⟩)
    · exact .inl (.inl old)
    · rw [key] at below
      exact .inr below
    · exact .inl (.inr ⟨name, old, below⟩)
  · rintro ((old | ⟨name, old, below⟩) | below)
    · exact .inl old
    · exact .inr ⟨name, .inr old, below⟩
    · rw [← key] at below
      exact .inr ⟨_, .inl rfl, by rwa [key] at below ⊢⟩

private theorem isFile_withFile (path text : String) {parts : List String}
    (proper : Path.Proper parts) :
    (w.withFile path text).isFile parts = true ↔
      w.isFile parts = true ∨ parts = Path.parts path := by
  simp only [isFile, withFile, Table.has_iff, Table.mem_names_put]
  have name : "/".intercalate parts = "/".intercalate (Path.parts path) ↔
      parts = Path.parts path := by
    constructor
    · intro same
      have both := congrArg Path.parts same
      rwa [Path.parts_intercalate proper,
        Path.parts_intercalate (Path.proper_parts path)] at both
    · intro same
      rw [same]
  rw [name, or_comm]

private theorem value?_filter_ne (name : String) (t : Table String) :
    Table.value? name (t.filter fun f => f.1 ≠ name) = none := by
  induction t with
  | nil => rfl
  | cons f rest ih =>
    by_cases same : f.1 = name
    · rw [List.filter_cons_of_neg (by simp [same])]
      exact ih
    · rw [List.filter_cons_of_pos (by simp [same]), Table.value?, if_neg same]
      exact ih

theorem Writable.holds {path : String} (h : w.Writable path) (text : String) :
    (w.withFile path text).Holds path text := by
  refine ⟨?_, ?_, ?_, ?_⟩
  · rw [wayFault?_eq_none_iff]
    intro parts hparts
    have before := (wayFault?_eq_none_iff _).mp h.reached parts hparts
    obtain ⟨k, hk, rfl⟩ := List.mem_map.mp hparts
    have short : k < (Path.parts path).length := List.mem_range.mp hk
    have other : (Path.parts path).take k ≠ Path.parts path := by
      intro same
      have lengths := congrArg List.length same
      rw [List.length_take] at lengths
      omega
    constructor
    · rw [Bool.eq_false_iff, ne_eq, isFile_withFile path text ((Path.proper_parts path).take k)]
      simp [before.1, other]
    · rw [isDirectory_withFile]
      exact .inl before.2
  · rw [Bool.eq_false_iff, ne_eq, isDirectory_withFile]
    simp [h.noDirectory]
  · exact Table.value?_put_self _ _ _
  · exact value?_filter_ne _ _

theorem Holds.normal {path text : String} (h : w.Holds path text) :
    w.Holds (Path.normal path) text := by
  have same := Path.parts_normal path
  exact ⟨by rw [same]; exact h.reached, by rw [same]; exact h.noDirectory,
    by rw [same]; exact h.found, by rw [same]; exact h.clear⟩

theorem withFile_normal (path text : String) :
    w.withFile (Path.normal path) text = w.withFile path text := by
  rw [withFile, Path.parts_normal, withFile]

theorem Writable.normal {path : String} (h : w.Writable path) : w.Writable (Path.normal path) := by
  have same := Path.parts_normal path
  exact ⟨by rw [same]; exact h.reached, by rw [same]; exact h.noDirectory⟩

end Workspace

end RungLogic
