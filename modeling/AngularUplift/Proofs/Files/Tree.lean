import AngularUplift.Files.Tree
import AngularUplift.Proofs.Text.Line
import Mathlib.Data.List.Basic

/-!
# Places in a file tree

A path that can be followed leads to the place that its parts spell out. Writing a file changes nothing at other
places, and making folders changes no file at all.

## Main definitions

* `Path.place`: the place that a path spells out.

## Main statements

* `Path.parts_parse_append`, `Path.place_append`: the parts of a path with a slash in it, and its place below a
  folder.
* `FileTree.locate_eq_ok`: a path leads to the place that it spells out, if anywhere.
* `FileTree.octets?_write`: the files of a tree after one is written.
* `FileTree.files_makeFolder`: the files of a tree after folders are made.
-/

namespace AngularUplift

namespace Path

/-- The place that a path, read from inside `cwd`, spells out. -/
def place (cwd path : Path) : List Text := (cwd.append path).parts.foldl step []

/-- The parts of a path with a slash in it. -/
theorem parts_parse_append (text other : Text) :
    (parse (text ++ '/' :: other)).parts = (parse text).parts ++ (parse other).parts := by
  simp only [parse, Text.fields_append_separator, List.filter_append]

/-- A name without slashes is one part. -/
theorem parts_parse_name {name : Text} (hslash : '/' ∉ name) (hempty : name ≠ []) (hdot : name ≠ ['.']) :
    (parse name).parts = [name] := by
  simp [parse, Text.fields_eq_singleton hslash, hempty, hdot]

/-- A name without slashes is one part or none. -/
theorem mem_parts_parse {name part : Text} (hslash : '/' ∉ name) (h : part ∈ (parse name).parts) : part = name := by
  rw [parse, Text.fields_eq_singleton hslash] at h
  exact List.mem_singleton.1 (List.mem_filter.1 h).1

/-- Parts that do not lead upwards are added to a place. -/
theorem foldl_step {parts : List Text} (h : txt ".." ∉ parts) (place : List Text) :
    parts.foldl step place = place ++ parts := by
  induction parts generalizing place with
  | nil => simp
  | cons part parts ih =>
    obtain ⟨hpart, hparts⟩ := not_or.1 (mt List.mem_cons.2 h)
    have hstep : step place part = place ++ [part] := if_neg (Ne.symm hpart)
    rw [List.foldl_cons, hstep, ih hparts, List.append_assoc]
    rfl

/-- The place of a path below a folder that does not lead upwards. -/
theorem place_append (root : Path) {path : Path} (hanchor : path.anchor = []) (hup : txt ".." ∉ path.parts) :
    place root (root.append path) = place root root ++ path.parts := by
  have hrelative : path.isAbsolute = false := by simp [isAbsolute, hanchor]
  have hbelow : root.append path = { root with parts := root.parts ++ path.parts } := by
    simp [append, hrelative]
  have hparts : (root.append (root.append path)).parts = (root.append root).parts ++ path.parts := by
    rw [hbelow]
    -- Read from inside itself, an absolute path stays as it is, and a relative one leads down once more.
    cases habsolute : root.isAbsolute with
    | true =>
      have hsame : ({ root with parts := root.parts ++ path.parts } : Path).isAbsolute = true := habsolute
      rw [append, hsame, append, habsolute]
      rfl
    | false =>
      have hsame : ({ root with parts := root.parts ++ path.parts } : Path).isAbsolute = false := habsolute
      rw [append, hsame, append, habsolute]
      simp
  rw [place, place, hparts, List.foldl_append, foldl_step hup]

end Path

namespace FileTree

/-- Two steps one after the other succeed when each of them does. -/
theorem exists_of_bind_eq_ok {α β : Type} {step : Except Fault α} {next : α → Except Fault β} {value : β}
    (h : step >>= next = .ok value) : ∃ found, step = .ok found ∧ next found = .ok value := by
  cases step with
  | error fault => exact nomatch h
  | ok found => exact ⟨found, rfl, h⟩

/-- Parts that can be followed are followed one step after the other. -/
theorem follow_eq_ok {tree : FileTree} {shown : Text} {start parts place : List Text}
    (h : tree.follow shown start parts = .ok place) : place = parts.foldl Path.step start := by
  induction parts generalizing start with
  | nil => exact (Except.ok.inj h).symm
  | cons part parts ih =>
    have hup : txt ".." = ['.', '.'] := rfl
    rw [follow] at h
    rw [List.foldl_cons, Path.step, ← hup]
    -- The checks on the way can only stop the path, they never turn it.
    split at h
    · exact nomatch h
    · split at h
      · next hpart =>
        rw [if_pos hpart]
        exact ih h
      · next hpart =>
        rw [if_neg hpart]
        split at h
        · exact nomatch h
        · exact ih h

/-- A path leads to the place that it spells out, if it leads anywhere. -/
theorem locate_eq_ok {tree : FileTree} {cwd path : Path} {place : List Text}
    (h : tree.locate cwd path = .ok place) : place = Path.place cwd path := by
  rw [locate] at h
  split at h
  · exact nomatch h
  · split at h
    · exact nomatch h
    · exact follow_eq_ok h

/-- Setting the file at a place leaves the files at other places as they are. -/
theorem lookup_setFile {place other : List Text} (hne : other ≠ place) (octets : List UInt8)
    (files : List (List Text × List UInt8)) : (setFile place octets files).lookup other = files.lookup other := by
  have hbeq : (other == place) = false := beq_eq_false_iff_ne.2 hne
  induction files with
  | nil => simp [setFile, List.lookup_cons, hbeq]
  | cons entry files ih =>
    obtain ⟨file, old⟩ := entry
    rw [setFile]
    split
    · -- The file is replaced where it stands, and is passed over both before and after.
      next hfile =>
      subst hfile
      simp [List.lookup_cons, hbeq]
    · rw [List.lookup_cons, List.lookup_cons, ih]

/-- Writing a file leaves the files at other places than its own as they are. -/
theorem octets?_write {tree written : FileTree} {cwd path : Path} {octets : List UInt8}
    (h : tree.write cwd path octets = .ok written) {place : List Text} (hne : place ≠ Path.place cwd path) :
    written.octets? place = tree.octets? place := by
  obtain ⟨found, hfound, hwritten⟩ := exists_of_bind_eq_ok h
  split at hwritten
  · exact nomatch hwritten
  · obtain rfl := Except.ok.inj hwritten
    rw [locate_eq_ok hfound]
    exact lookup_setFile hne octets tree.files

theorem files_addFolder {tree made : FileTree} {cwd path : Path} (h : tree.addFolder cwd path = .ok made) :
    made.files = tree.files := by
  obtain ⟨found, -, hmade⟩ := exists_of_bind_eq_ok h
  split at hmade
  · exact nomatch hmade
  · obtain rfl := Except.ok.inj hmade
    rfl

theorem orPresent_eq_ok {tree made : FileTree} {cwd path : Path} {fault : Fault}
    (h : tree.orPresent cwd path fault = .ok made) : made = tree := by
  rw [orPresent] at h
  split at h
  · exact nomatch h
  · obtain ⟨present, -, hmade⟩ := exists_of_bind_eq_ok h
    split at hmade
    · exact (Except.ok.inj hmade).symm
    · exact nomatch hmade

/-- Making a folder and those above it changes no file. -/
theorem files_makeFolders {cwd : Path} {fuel : Nat} {tree made : FileTree} {path : Path}
    (h : makeFolders cwd fuel tree path = .ok made) : made.files = tree.files := by
  induction fuel generalizing tree made path with
  | zero => exact files_addFolder h
  | succ fuel ih =>
    rw [makeFolders] at h
    split at h
    · next hadded =>
      obtain rfl := Except.ok.inj h
      exact files_addFolder hadded
    · -- The folder above has to be made first.
      split at h
      · exact nomatch h
      · obtain ⟨above, habove, hmade⟩ := exists_of_bind_eq_ok h
        split at hmade
        · next hadded =>
          obtain rfl := Except.ok.inj hmade
          exact (files_addFolder hadded).trans (ih habove)
        · exact nomatch hmade
        · rw [orPresent_eq_ok hmade]
          exact ih habove
    · rw [orPresent_eq_ok h]

/-- Making a folder and those above it changes no file. -/
theorem files_makeFolder {tree made : FileTree} {cwd path : Path} (h : tree.makeFolder cwd path = .ok made) :
    made.files = tree.files :=
  files_makeFolders h

end FileTree

end AngularUplift
