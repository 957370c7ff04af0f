import AngularUplift.Files.Discovery
import AngularUplift.Proofs.Files.Tree
import Mathlib.Algebra.GroupWithZero.Nat
import Mathlib.Algebra.Order.BigOperators.Group.List
import Mathlib.Algebra.Order.Group.Nat
import Mathlib.Tactic.MkIffOfInductiveProp

/-!
# Following paths to files

A path can be followed as long as what lies on the way is a folder. In a tree whose files lead downwards, the files
below a folder that was reached can all be reached, so a walk through the tree comes to an end without a fault. What
remains are the limits on the length of names and paths.

## Main definitions

* `Path.below`: a path with more parts.
* `Path.Fits`: a path within the limits of a file system.
* `FileTree.IsSound`: files are no folders, and they lead downwards.
* `FileTree.Reaches`: a path within the limits, as are the files of the tree below it.
* `FileTree.Houses`: a folder that a path leads to, with files that can be reached.

## Main statements

* `Path.Fits.of_sublist`: leaving out parts keeps a path within the limits.
* `FileTree.follow_toward`: the way to a file can be followed.
* `FileTree.sourcePaths_total`: the scripts below a path can be listed.
* `FileTree.exists_houses`: every script that is listed lies in a folder that can be reached.
-/

namespace AngularUplift

/-! ### The length of a path -/

theorem Utf8.encode_append (text other : Text) :
    Utf8.encode (text ++ other) = Utf8.encode text ++ Utf8.encode other :=
  List.flatMap_append

/-- The octets of parts and of the slash after each of them. -/
def joinedOctets (parts : List Text) : Nat := (parts.map fun part => (Utf8.encode part).length + 1).sum

theorem joinedOctets_le {parts others : List Text} (h : parts.Sublist others) :
    joinedOctets parts ≤ joinedOctets others :=
  (h.map _).sum_le_sum fun _ _ => Nat.zero_le _

theorem length_encode_join {parts : List Text} (h : parts ≠ []) :
    (Utf8.encode (Text.join ['/'] parts)).length + 1 = joinedOctets parts := by
  have hslash : (Utf8.encode ['/']).length = 1 := rfl
  fun_induction Text.join ['/'] parts with
  | case1 => exact absurd rfl h
  | case2 part => simp [joinedOctets]
  | case3 part next rest ih =>
    have hrest := ih (List.cons_ne_nil _ _)
    simp only [Utf8.encode_append, List.length_append, hslash]
    simp only [joinedOctets, List.map_cons, List.sum_cons] at hrest ⊢
    omega

namespace Path

/-- A path with more parts. -/
def below (path : Path) (parts : List Text) : Path := { path with parts := path.parts ++ parts }

theorem below_below (path : Path) (parts others : List Text) :
    (path.below parts).below others = path.below (parts ++ others) := by
  simp [below]

theorem parent_below (path : Path) (name : Text) : (path.below [name]).parent = path := by
  simp [below, parent]

/-- A path within the limits of a file system. -/
@[mk_iff]
structure Fits (path : Path) : Prop where
  /-- There are no null characters. -/
  hasNull : path.hasNull = false
  /-- The names are not too long. -/
  name : ∀ part ∈ path.parts, (Utf8.encode part).length ≤ FileTree.longestName
  /-- The path is not too long. -/
  display : (Utf8.encode path.display).length ≤ FileTree.longestPath

instance (path : Path) : Decidable path.Fits := decidable_of_iff _ (fits_iff path).symm

/-- Leaving out parts makes a path no longer. The path without parts is shown by a dot if it is relative. -/
theorem length_display_le {inner outer : Path} (hanchor : inner.anchor = outer.anchor)
    (hparts : inner.parts.Sublist outer.parts) :
    (Utf8.encode inner.display).length ≤ max 1 (Utf8.encode outer.display).length := by
  rw [display, display, ← hanchor]
  by_cases hinner : inner.parts = []
  · rw [hinner]
    by_cases hrelative : inner.anchor = []
    · have hdot : (Utf8.encode ['.']).length = 1 := rfl
      simp [hrelative, hdot]
    · simp [hrelative, Text.join, Utf8.encode_append]
  · have houter : outer.parts ≠ [] := fun hnil => hinner (List.sublist_nil.1 (hnil ▸ hparts))
    have hle := joinedOctets_le hparts
    have hinnerLength := length_encode_join hinner
    have houterLength := length_encode_join houter
    have hinnerShown : (inner.anchor.isEmpty && inner.parts.isEmpty) = false := by simp [hinner]
    have houterShown : (inner.anchor.isEmpty && outer.parts.isEmpty) = false := by simp [houter]
    rw [hinnerShown, houterShown]
    simp only [Bool.false_eq_true, if_false, Utf8.encode_append, List.length_append]
    omega

/-- Leaving out parts keeps a path within the limits. -/
theorem Fits.of_sublist {inner outer : Path} (h : outer.Fits) (hanchor : inner.anchor = outer.anchor)
    (hparts : inner.parts.Sublist outer.parts) : inner.Fits where
  hasNull := by
    rw [Path.hasNull, List.any_eq_false]
    intro part hpart
    exact List.any_eq_false.1 h.hasNull part (hparts.subset hpart)
  name part hpart := h.name part (hparts.subset hpart)
  display := by
    have hlimit : 1 ≤ FileTree.longestPath := by decide
    exact (length_display_le hanchor hparts).trans (max_le hlimit h.display)

end Path

namespace FileTree

/-! ### Files and the folders above them -/

theorem isBelow_iff {inner outer : List Text} : isBelow inner outer ↔ ∃ rest, rest ≠ [] ∧ inner = outer ++ rest := by
  rw [isBelow, Bool.and_eq_true, decide_eq_true_iff, List.isPrefixOf_iff_prefix]
  constructor
  · rintro ⟨hlength, rest, rfl⟩
    refine ⟨rest, ?_, rfl⟩
    rintro rfl
    simp at hlength
  · rintro ⟨rest, hrest, rfl⟩
    exact ⟨by simpa using List.length_pos_iff.2 hrest, List.prefix_append _ _⟩

/-- The places of the files. -/
def places (tree : FileTree) : List (List Text) := tree.files.map (·.1)

theorem isSome_octets?_iff {tree : FileTree} {place : List Text} :
    (tree.octets? place).isSome ↔ place ∈ tree.places := by
  rw [octets?, Option.isSome_iff_ne_none, ne_eq, List.lookup_eq_none_iff, places]
  simp

theorem mem_filesBelow {tree : FileTree} {place parts : List Text} :
    parts ∈ tree.filesBelow place ↔ parts ≠ [] ∧ place ++ parts ∈ tree.places := by
  rw [filesBelow, List.mem_filterMap]
  constructor
  · rintro ⟨⟨file, octets⟩, hfile, hparts⟩
    obtain ⟨hbelow, hdrop⟩ := Option.ite_none_right_eq_some.1 hparts
    obtain ⟨rest, hrest, rfl⟩ := isBelow_iff.1 hbelow
    rw [List.drop_left] at hdrop
    obtain rfl := Option.some.inj hdrop
    exact ⟨hrest, List.mem_map.2 ⟨_, hfile, rfl⟩⟩
  · rintro ⟨hparts, hplace⟩
    obtain ⟨⟨file, octets⟩, hfile, rfl⟩ := List.mem_map.1 hplace
    refine ⟨_, hfile, ?_⟩
    have hbelow : isBelow (place ++ parts) place := isBelow_iff.2 ⟨parts, hparts, rfl⟩
    simp only [hbelow, if_true, List.drop_left]

theorem hasFolder_of_mem_places {tree : FileTree} {place rest : List Text} (hrest : rest ≠ [])
    (h : place ++ rest ∈ tree.places) : tree.hasFolder place = true := by
  obtain ⟨⟨file, octets⟩, hfile, hplace⟩ := List.mem_map.1 h
  rw [hasFolder, Bool.or_eq_true]
  exact Or.inr (List.any_eq_true.2 ⟨_, hfile, isBelow_iff.2 ⟨rest, hrest, hplace⟩⟩)

/-- What a folder lies in is a folder. -/
theorem hasFolder_dropLast {tree : FileTree} {place : List Text} (h : tree.hasFolder place = true) :
    tree.hasFolder place.dropLast = true := by
  rcases List.eq_nil_or_concat place with rfl | ⟨front, name, rfl⟩
  · exact h
  · have hup : ∀ {folder : List Text}, isBelow folder (front ++ [name]) → isBelow folder front := by
      intro folder hfolder
      obtain ⟨rest, -, rfl⟩ := isBelow_iff.1 hfolder
      exact isBelow_iff.2 ⟨name :: rest, List.cons_ne_nil _ _, by simp⟩
    have hself : isBelow (front ++ [name]) front := isBelow_iff.2 ⟨[name], List.cons_ne_nil _ _, rfl⟩
    rw [List.concat_eq_append] at h ⊢
    rw [List.dropLast_concat]
    rw [hasFolder, Bool.or_eq_true, List.any_eq_true, List.any_eq_true] at h ⊢
    rcases h with ⟨folder, hfolder, hat⟩ | ⟨entry, hentry, hbelow⟩
    · refine Or.inl ⟨folder, hfolder, ?_⟩
      rw [Bool.or_eq_true] at hat ⊢
      rcases hat with heq | hbelow
      · exact Or.inr (beq_iff_eq.1 heq ▸ hself)
      · exact Or.inr (hup hbelow)
    · exact Or.inr ⟨entry, hentry, hup hbelow⟩

/-- A tree in which files are no folders, and in which they lead downwards. -/
@[mk_iff]
structure IsSound (tree : FileTree) : Prop where
  /-- The tree has a root. -/
  root : tree.hasFolder [] = true
  /-- No file is a folder. -/
  apart : ∀ place ∈ tree.places, tree.hasFolder place = false
  /-- Files lead downwards. -/
  down : ∀ place ∈ tree.places, txt ".." ∉ place

instance (tree : FileTree) : Decidable tree.IsSound :=
  decidable_of_iff (tree.hasFolder [] = true ∧
      tree.places.all (fun place => !tree.hasFolder place && !place.contains (txt "..")) = true) <| by
    simp [isSound_iff, forall_and]

/-! ### Following parts -/

/-- A part can be followed out of a folder, and its name must not be too long. -/
theorem follow_cons_eq_ok {tree : FileTree} {shown part : Text} {start parts place : List Text} :
    tree.follow shown start (part :: parts) = .ok place ↔
      tree.hasFolder start = true ∧ (part = txt ".." ∨ (Utf8.encode part).length ≤ longestName) ∧
        tree.follow shown (Path.step start part) parts = .ok place := by
  have hup : txt ".." = ['.', '.'] := rfl
  rw [follow, Path.step, ← hup]
  by_cases hfolder : tree.hasFolder start = true
  · by_cases hpart : part = txt ".."
    · simp [hfolder, hpart]
    · by_cases hlong : longestName < (Utf8.encode part).length
      · simp [hfolder, hpart, hlong]
      · simp [hfolder, hpart, hlong, Nat.not_lt.1 hlong]
  · simp [hfolder]

/-- Whether parts can be followed does not depend on what a fault would show. -/
theorem follow_shown {tree : FileTree} {shown : Text} {start parts place : List Text} (other : Text)
    (h : tree.follow shown start parts = .ok place) : tree.follow other start parts = .ok place := by
  induction parts generalizing start with
  | nil => exact h
  | cons part parts ih =>
    obtain ⟨hfolder, hname, hrest⟩ := follow_cons_eq_ok.1 h
    exact follow_cons_eq_ok.2 ⟨hfolder, hname, ih hrest⟩

theorem follow_append_eq_ok {tree : FileTree} {shown : Text} {start front back place : List Text} :
    tree.follow shown start (front ++ back) = .ok place ↔
      ∃ mid, tree.follow shown start front = .ok mid ∧ tree.follow shown mid back = .ok place := by
  induction front generalizing start with
  | nil =>
    constructor
    · intro h
      exact ⟨start, rfl, h⟩
    · rintro ⟨mid, hmid, h⟩
      obtain rfl := Except.ok.inj hmid
      exact h
  | cons part front ih =>
    simp only [List.cons_append, follow_cons_eq_ok, ih]
    constructor
    · rintro ⟨hfolder, hname, mid, hmid, h⟩
      exact ⟨mid, ⟨hfolder, hname, hmid⟩, h⟩
    · rintro ⟨mid, ⟨hfolder, hname, hmid⟩, h⟩
      exact ⟨hfolder, hname, mid, hmid, h⟩

/-- The way to a file can be followed. -/
theorem follow_toward {tree : FileTree} (shown : Text) {place parts rest : List Text}
    (hfile : place ++ parts ++ rest ∈ tree.places) (hdown : txt ".." ∉ parts)
    (hname : ∀ part ∈ parts, (Utf8.encode part).length ≤ longestName) :
    tree.follow shown place parts = .ok (place ++ parts) := by
  induction parts generalizing place with
  | nil => rw [follow, List.append_nil]
  | cons part parts ih =>
    have hfolder : tree.hasFolder place = true :=
      hasFolder_of_mem_places (List.cons_ne_nil part (parts ++ rest)) (by simpa using hfile)
    have hpart : part ≠ txt ".." := fun heq => hdown (heq ▸ List.mem_cons_self)
    have hstep : Path.step place part = place ++ [part] := if_neg hpart
    have hbehind : place ++ [part] ++ parts ++ rest ∈ tree.places := by simpa using hfile
    have hrest := ih hbehind (fun hmem => hdown (List.mem_cons_of_mem _ hmem))
      (fun other hother => hname other (List.mem_cons_of_mem _ hother))
    rw [List.append_cons, follow_cons_eq_ok, hstep]
    exact ⟨hfolder, Or.inr (hname part List.mem_cons_self), hrest⟩

/-- Names that are not too long lead somewhere or to something that is missing. -/
theorem follow_missing {tree : FileTree} {shown : Text} {start parts : List Text} {fault : Fault}
    (hname : ∀ part ∈ parts, (Utf8.encode part).length ≤ longestName)
    (h : tree.follow shown start parts = .error fault) :
    fault = .notDirectory shown ∨ fault = .noSuchFile shown := by
  induction parts generalizing start with
  | nil => exact nomatch h
  | cons part parts ih =>
    have hshort := Nat.not_lt.2 (hname part List.mem_cons_self)
    have hrest := fun other hother => hname other (List.mem_cons_of_mem part hother)
    rw [follow, if_neg hshort] at h
    split at h
    · obtain rfl := Except.error.inj h
      split
      · exact Or.inl rfl
      · exact Or.inr rfl
    · split at h
      · exact ih hrest h
      · exact ih hrest h

/-- A path within the limits is followed from the root on. -/
theorem locate_of_fits {tree : FileTree} {path : Path} (h : path.Fits) :
    tree.locate {} path = tree.follow path.display [] path.parts := by
  have happend : (({} : Path).append path).parts = path.parts := by
    rw [Path.append]
    split
    · rfl
    · rfl
  rw [locate, h.hasNull, if_neg (by decide), if_neg (Nat.not_lt.2 h.display), happend]

/-! ### Walking through a tree -/

/-- A path within the limits, as are the files of the tree below it. -/
def Reaches (tree : FileTree) (base : Path) : Prop :=
  base.Fits ∧ ∀ file ∈ tree.places, (base.below file).Fits

instance (tree : FileTree) (base : Path) : Decidable (tree.Reaches base) := inferInstanceAs (Decidable (_ ∧ _))

theorem Reaches.fits {tree : FileTree} {base path : Path} (h : tree.Reaches base) {file : List Text}
    (hfile : file ∈ tree.places) (hanchor : path.anchor = base.anchor)
    (hparts : path.parts.Sublist (base.parts ++ file)) : path.Fits :=
  (h.2 file hfile).of_sublist hanchor hparts

/-- A folder that a path leads to, with files whose paths are within the limits. -/
structure Houses (tree : FileTree) (folder : Path) (place : List Text) : Prop where
  /-- The path leads to the place. -/
  locate_eq : tree.locate {} folder = .ok place
  /-- There is a folder. -/
  hasFolder : tree.hasFolder place = true
  /-- The paths of its files are within the limits. -/
  fits : ∀ name, place ++ [name] ∈ tree.places → (folder.below [name]).Fits

/-- The files in a folder that a path leads to can be reached. -/
theorem Houses.locate_below {tree : FileTree} {folder : Path} {place : List Text} (h : tree.Houses folder place)
    (hsound : tree.IsSound) {name : Text} (hfile : place ++ [name] ∈ tree.places) :
    tree.locate {} (folder.below [name]) = .ok (place ++ [name]) := by
  have hfits := h.fits name hfile
  have hfolder : folder.Fits := hfits.of_sublist rfl (List.sublist_append_left _ _)
  have hway := h.locate_eq
  rw [locate_of_fits hfolder] at hway
  rw [locate_of_fits hfits]
  have hdown : txt ".." ∉ [name] := fun hmem => hsound.down _ hfile (List.mem_append_right _ hmem)
  have hname := fun part hpart => hfits.name part (List.mem_append_right _ hpart)
  rw [← List.append_nil (place ++ [name])] at hfile
  exact follow_append_eq_ok.2 ⟨place, follow_shown _ hway, follow_toward _ hfile hdown hname⟩

theorem Houses.sourceText {tree : FileTree} {folder : Path} {place : List Text} (h : tree.Houses folder place)
    (hsound : tree.IsSound) {name : Text} (hfile : place ++ [name] ∈ tree.places) :
    ∃ text, sourceText tree (folder.below [name]) = .ok text := by
  obtain ⟨octets, hoctets⟩ := Option.isSome_iff_exists.1 (isSome_octets?_iff.2 hfile)
  refine ⟨Utf8.readLenient octets, ?_⟩
  rw [AngularUplift.sourceText, read, h.locate_below hsound hfile]
  simp [hoctets, bind, Except.bind, pure, Except.pure, Functor.map, Except.map]

theorem Houses.fileNames {tree : FileTree} {folder : Path} {place : List Text} (h : tree.Houses folder place) :
    ∃ names, tree.fileNames {} folder = .ok names ∧ ∀ name ∈ names, place ++ [name] ∈ tree.places := by
  rw [FileTree.fileNames, h.locate_eq]
  simp only [bind, Except.bind, h.hasFolder, if_true]
  refine ⟨_, rfl, ?_⟩
  intro name hname
  rw [List.mem_mergeSort, List.mem_filterMap] at hname
  obtain ⟨parts, hparts, hsome⟩ := hname
  split at hsome
  · obtain rfl := Option.some.inj hsome
    exact (mem_filesBelow.1 hparts).2
  · exact nomatch hsome

theorem check_of_fits {tree : FileTree} {path : Path} (h : path.Fits) (holds : List Text → Bool) :
    (∃ place, tree.locate {} path = .ok place ∧ tree.check {} path holds = .ok (holds place)) ∨
    (∃ fault, tree.locate {} path = .error fault ∧ fault ≠ .nullInPath ∧ tree.check {} path holds = .ok false) := by
  rw [check]
  cases hlocate : tree.locate {} path with
  | ok place => exact Or.inl ⟨place, rfl, rfl⟩
  | error fault =>
    rw [locate_of_fits h] at hlocate
    rcases follow_missing h.name hlocate with rfl | rfl
    · exact Or.inr ⟨_, rfl, nofun, rfl⟩
    · exact Or.inr ⟨_, rfl, nofun, rfl⟩

/-- The scripts below a path can be listed. They are the path itself, if there is a file, or files below the folder
that it leads to. -/
theorem sourcePaths_total {tree : FileTree} (exclude : List Text) {base : Path} (h : base.Fits) :
    ∃ scripts, sourcePaths tree exclude base = .ok scripts ∧ ∀ path ∈ scripts, ∃ place,
      tree.locate {} base = .ok place ∧
        (path = base ∧ place ∈ tree.places ∨ ∃ parts ∈ tree.filesBelow place, path = base.below parts) := by
  rw [sourcePaths, isFile]
  rcases check_of_fits h fun place => (tree.octets? place).isSome with
    ⟨place, hlocate, hcheck⟩ | ⟨fault, hlocate, hnull, hcheck⟩
  · rw [hcheck, hlocate]
    simp only [bind, Except.bind]
    split
    · next hfile =>
      refine ⟨[base], rfl, ?_⟩
      intro path hpath
      exact ⟨place, rfl, Or.inl ⟨List.mem_singleton.1 hpath, isSome_octets?_iff.1 hfile⟩⟩
    · refine ⟨_, rfl, ?_⟩
      intro path hpath
      obtain ⟨parts, hparts, rfl⟩ := List.mem_map.1 hpath
      have hwalked := List.mem_mergeSort.1 (List.mem_filter.1 hparts).1
      exact ⟨place, rfl, Or.inr ⟨parts, (List.mem_filter.1 hwalked).1, rfl⟩⟩
  · rw [hcheck, hlocate]
    simp only [bind, Except.bind, Bool.false_eq_true, if_false]
    exact ⟨[], rfl, nofun⟩

/-- A path to a file lies in a folder that can be reached. -/
theorem exists_houses_of_mem_places {tree : FileTree} (hsound : tree.IsSound) {base : Path} (hreach : tree.Reaches base)
    {place : List Text} (hlocate : tree.locate {} base = .ok place) (hfile : place ∈ tree.places) :
    ∃ folder mid name, base = folder.below [name] ∧ tree.Houses folder mid ∧ mid ++ [name] ∈ tree.places := by
  have happart := hsound.apart place hfile
  rw [locate_of_fits hreach.1] at hlocate
  rcases List.eq_nil_or_concat base.parts with hnil | ⟨front, last, hparts⟩
  · -- The root is a folder.
    rw [hnil] at hlocate
    obtain rfl := Except.ok.inj hlocate
    exact absurd hsound.root (by simp [happart])
  · rw [List.concat_eq_append] at hparts
    rw [hparts] at hlocate
    obtain ⟨mid, hmid, hlast⟩ := follow_append_eq_ok.1 hlocate
    obtain ⟨hfolder, -, hplace⟩ := follow_cons_eq_ok.1 hlast
    obtain rfl := Except.ok.inj hplace
    have hbase : base = Path.below { base with parts := front } [last] := by simp [Path.below, ← hparts]
    rw [Path.step] at hfile happart
    split at hfile
    · -- A step upwards leads from a folder to a folder.
      next hup =>
      rw [if_pos hup, hasFolder_dropLast hfolder] at happart
      cases happart
    · refine ⟨{ base with parts := front }, mid, last, hbase, ?_, hfile⟩
      have hfits : ({ base with parts := front } : Path).Fits :=
        hreach.1.of_sublist rfl (hparts ▸ List.sublist_append_left _ _)
      refine ⟨?_, hfolder, ?_⟩
      · rw [locate_of_fits hfits]
        exact follow_shown _ hmid
      · intro name hname
        have hfront : front.Sublist base.parts := hparts ▸ List.sublist_append_left _ _
        exact hreach.fits hname rfl (hfront.append (List.sublist_append_right _ _))

/-- A file below a path lies in a folder that can be reached. -/
theorem exists_houses_of_mem_filesBelow {tree : FileTree} (hsound : tree.IsSound) {base : Path}
    (hreach : tree.Reaches base) {place parts : List Text} (hlocate : tree.locate {} base = .ok place)
    (hparts : parts ∈ tree.filesBelow place) :
    ∃ folder mid name, base.below parts = folder.below [name] ∧ tree.Houses folder mid ∧
      mid ++ [name] ∈ tree.places := by
  obtain ⟨hne, hfile⟩ := mem_filesBelow.1 hparts
  obtain ⟨front, name, rfl⟩ := (List.eq_nil_or_concat parts).resolve_left hne
  rw [List.concat_eq_append] at hfile ⊢
  rw [← List.append_assoc] at hfile
  refine ⟨base.below front, place ++ front, name, (Path.below_below base front [name]).symm, ?_, hfile⟩
  have hbelow : ∀ other, place ++ front ++ [other] ∈ tree.places → ((base.below front).below [other]).Fits := by
    intro other hother
    refine hreach.fits hother rfl ?_
    rw [Path.below_below, List.append_assoc]
    exact (List.Sublist.refl base.parts).append (List.sublist_append_right _ _)
  have hfits : (base.below front).Fits := (hbelow name hfile).of_sublist rfl (List.sublist_append_left _ _)
  have hdown : txt ".." ∉ front := by
    intro hmem
    exact hsound.down _ hfile (List.mem_append_left _ (List.mem_append_right _ hmem))
  have hname := fun part hpart => hfits.name part (List.mem_append_right base.parts hpart)
  refine ⟨?_, hasFolder_of_mem_places (List.cons_ne_nil name []) hfile, hbelow⟩
  rw [locate_of_fits hreach.1] at hlocate
  rw [locate_of_fits hfits]
  exact follow_append_eq_ok.2 ⟨place, follow_shown _ hlocate, follow_toward _ hfile hdown hname⟩

/-- The scripts below a path can be listed, and they all lie in folders that can be reached. -/
theorem exists_houses {tree : FileTree} (hsound : tree.IsSound) (exclude : List Text) {base : Path}
    (hreach : tree.Reaches base) :
    ∃ scripts, sourcePaths tree exclude base = .ok scripts ∧ ∀ path ∈ scripts, ∃ folder place name,
      path = folder.below [name] ∧ tree.Houses folder place ∧ place ++ [name] ∈ tree.places := by
  obtain ⟨scripts, hscripts, hpaths⟩ := sourcePaths_total exclude hreach.1
  refine ⟨scripts, hscripts, ?_⟩
  intro path hpath
  obtain ⟨place, hlocate, ⟨rfl, hfile⟩ | ⟨parts, hparts, rfl⟩⟩ := hpaths path hpath
  · exact exists_houses_of_mem_places hsound hreach hlocate hfile
  · exact exists_houses_of_mem_filesBelow hsound hreach hlocate hparts

end FileTree

end AngularUplift
