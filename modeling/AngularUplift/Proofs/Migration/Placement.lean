import AngularUplift.Proofs.Files.Tree
import AngularUplift.Proofs.Migration.Naming

/-!
# No generated file is replaced

A batch writes the files of its sources one after the other, and a file that stands where an earlier one stood
replaces it without a word. Files are named by keys and not by the folders of their sources, so this does happen to
sources of one kind that share a key, and to no others.

## Main definitions

* `Batch.placeOf`: where a generated file is written.
* `IsPlainKey`: a key that names a file and leads nowhere else.
* `Batch.NamedApart`: two sources that share no key.

## Main statements

* `Batch.placeOf_defaultPath`, `Batch.shared_key_of_placeOf_eq`: the place of a file, and files at one place.
* `Batch.octets?_step`, `Batch.octets?_foldl_step`: what a source, and what several, leave alone.
* `Batch.octets?_run`: what a source has written is there at the end of a batch.
* `Batch.no_artifact_replaced`: paths and files of different sources.
-/

namespace AngularUplift

/-! ### Places of files -/

/-- A key that names a file in a folder and leads nowhere else. -/
structure IsPlainKey (key : Text) : Prop where
  /-- It is a single name. -/
  no_slash : '/' ∉ key
  /-- It is not the name for the folder above. -/
  not_up : key ≠ txt ".."

instance (key : Text) : Decidable (IsPlainKey key) :=
  decidable_of_iff ('/' ∉ key ∧ key ≠ txt "..") ⟨fun h => ⟨h.1, h.2⟩, fun h => ⟨h.no_slash, h.not_up⟩⟩

namespace ConstructKind

theorem suffix_plain {kind : ConstructKind} {suffix : Text} (h : suffix ∈ kind.suffixes) :
    '/' ∉ suffix ∧ suffix ≠ [] ∧ suffix ≠ ['.'] := by
  have hall : ∀ kind : ConstructKind, ∀ suffix ∈ kind.suffixes, '/' ∉ suffix ∧ suffix ≠ [] ∧ suffix ≠ ['.'] := by
    intro kind
    cases kind <;> decide
  exact hall kind suffix h

/-- The default folders of files are relative paths of two parts, neither of which leads upwards. -/
theorem parts_defaultFolder {kind : ConstructKind} (h : kind ≠ .spec) :
    (∀ rest, Path.anchorOf (kind.defaultFolder ++ rest) = []) ∧
      (Path.parse kind.defaultFolder).parts.length = 2 ∧
      txt ".." ∉ (Path.parse kind.defaultFolder).parts := by
  refine ⟨fun rest => ?_, ?_⟩
  · cases kind <;> first | rfl | exact absurd rfl h
  · revert h
    cases kind <;> decide

theorem ne_spec_of_mem_suffixes {kind : ConstructKind} {suffix : Text} (h : suffix ∈ kind.suffixes) :
    kind ≠ .spec := by
  rintro rfl
  exact absurd h List.not_mem_nil

theorem eq_of_parts_eq {kind other : ConstructKind}
    (h : (Path.parse kind.defaultFolder).parts = (Path.parse other.defaultFolder).parts) : kind = other := by
  revert h
  cases kind <;> cases other <;> decide

/-- The first two parts of a path in a default folder tell the kind. -/
theorem eq_of_parts_append_eq {kind other : ConstructKind} {rest rest' : List Text} (hkind : kind ≠ .spec)
    (hother : other ≠ .spec)
    (h : (Path.parse kind.defaultFolder).parts ++ rest = (Path.parse other.defaultFolder).parts ++ rest') :
    kind = other ∧ rest = rest' := by
  have hlength : (Path.parse kind.defaultFolder).parts.length = (Path.parse other.defaultFolder).parts.length :=
    (parts_defaultFolder hkind).2.1.trans (parts_defaultFolder hother).2.1.symm
  obtain ⟨hfolder, hrest⟩ := List.append_inj h hlength
  exact ⟨eq_of_parts_eq hfolder, hrest⟩

/-- The name of a file with a plain key is one part, and leads neither upwards nor to another folder. -/
theorem parts_name {kind : ConstructKind} {key suffix : Text} (hkey : IsPlainKey key)
    (hsuffix : suffix ∈ kind.suffixes) :
    (Path.parse (key ++ '.' :: suffix)).parts = [key ++ '.' :: suffix] ∧ key ++ '.' :: suffix ≠ txt ".." := by
  obtain ⟨hslash, hempty, hdot⟩ := suffix_plain hsuffix
  have hlong : ∀ short : Text, short.length ≤ 1 → key ++ '.' :: suffix ≠ short := by
    rintro short hshort rfl
    have := List.length_pos_iff.2 hempty
    simp at hshort
    omega
  refine ⟨Path.parts_parse_name ?_ (hlong [] (by simp)) (hlong ['.'] (by simp)), fun hup => ?_⟩
  · simpa [hkey.no_slash] using hslash
  · -- Only a suffix of one dot would make two dots of a name.
    have hlength := congrArg List.length hup
    have hpos := List.length_pos_iff.2 hempty
    have htwo : (txt "..").length = 2 := rfl
    simp only [List.length_append, List.length_cons, htwo] at hlength
    have hnone : key = [] := List.length_eq_zero_iff.1 (by omega)
    subst hnone
    exact hdot (List.cons.inj hup).2

end ConstructKind

namespace Batch

/-- The place of a generated file below a folder. -/
def placeOf (root : Path) (made : Artifact) : List Text := Path.place root (root.append (Path.parse made.path))

theorem placeOf_defaultPath (root : Path) {kind : ConstructKind} {key suffix : Text} {made : Artifact}
    (hkey : IsPlainKey key) (hsuffix : suffix ∈ kind.suffixes) (hmade : made.path = kind.defaultPath key suffix) :
    placeOf root made = Path.place root root ++
      ((Path.parse kind.defaultFolder).parts ++ ((Path.parse key).parts ++ [key ++ '.' :: suffix])) := by
  obtain ⟨hanchor, -, hfolder⟩ :=
    ConstructKind.parts_defaultFolder (ConstructKind.ne_spec_of_mem_suffixes hsuffix)
  obtain ⟨hname, hup⟩ := ConstructKind.parts_name hkey hsuffix
  have hparts : (Path.parse made.path).parts =
      (Path.parse kind.defaultFolder).parts ++ ((Path.parse key).parts ++ [key ++ '.' :: suffix]) := by
    rw [hmade, ConstructKind.defaultPath, Path.parts_parse_append, Path.parts_parse_append, hname]
  rw [placeOf, Path.place_append root, hparts]
  · rw [hmade]
    exact hanchor _
  · rw [hparts]
    -- Neither the folder nor the key nor the name leads upwards.
    simp only [List.mem_append, List.mem_singleton, not_or]
    refine ⟨hfolder, fun hmem => ?_, Ne.symm hup⟩
    exact hkey.not_up (Path.mem_parts_parse hkey.no_slash hmem).symm

/-- Files of two sources that stand at the same place are of sources of the same kind that share a key. -/
theorem shared_key_of_placeOf_eq {settings : Settings} (h : settings.DefaultPlaces) {root : Path}
    {source other : Source} (hplain : ∀ key ∈ source.namingKeys, IsPlainKey key)
    (hplain' : ∀ key ∈ other.namingKeys, IsPlainKey key) {made made' : Artifact}
    (hmade : made ∈ produced settings source) (hmade' : made' ∈ produced settings other)
    (hplace : placeOf root made = placeOf root made') :
    source.kind = other.kind ∧ ∃ key ∈ source.namingKeys, key ∈ other.namingKeys := by
  obtain ⟨output, houtput, key, hkey, suffix, hsuffix, heq⟩ := path_of_mem_produced hmade
  obtain ⟨output', houtput', key', hkey', suffix', hsuffix', heq'⟩ := path_of_mem_produced hmade'
  rw [h.artifactPath_eq houtput] at heq
  rw [h.artifactPath_eq houtput'] at heq'
  rw [placeOf_defaultPath root (hplain key hkey) hsuffix heq,
    placeOf_defaultPath root (hplain' key' hkey') hsuffix' heq', List.append_cancel_left_eq] at hplace
  -- The first two parts tell the kind, and the last one tells the key.
  obtain ⟨hkind, hrest⟩ := ConstructKind.eq_of_parts_append_eq (ConstructKind.ne_spec_of_mem_suffixes hsuffix)
    (ConstructKind.ne_spec_of_mem_suffixes hsuffix') hplace
  refine ⟨hkind, key, hkey, ?_⟩
  rw [← hkind] at hsuffix'
  have hname := List.cons.inj (List.append_inj_right' hrest rfl)
  rw [(ConstructKind.name_inj hsuffix hsuffix' hname.1).1]
  exact hkey'

theorem placeOf_ne_constantsFile {settings : Settings} (h : settings.DefaultPlaces) {root : Path} {source : Source}
    (hplain : ∀ key ∈ source.namingKeys, IsPlainKey key) {made gathered : Artifact} {constants : List Variable}
    (hmade : made ∈ produced settings source)
    (hgathered : gathered ∈ Migration.constantsFile settings constants) :
    placeOf root made ≠ placeOf root gathered := by
  obtain ⟨output, houtput, key, hkey, suffix, hsuffix, heq⟩ := path_of_mem_produced hmade
  rw [h.artifactPath_eq houtput] at heq
  rw [Migration.constantsFile] at hgathered
  split at hgathered
  · exact absurd hgathered List.not_mem_nil
  · obtain rfl := List.mem_singleton.1 hgathered
    obtain ⟨hfolder, -⟩ := h.sections .constant _ rfl
    intro hplace
    -- The file of the constants stands right in the folder of their kind.
    have hfile : placeOf root ⟨settings.constants.generatedFolder ++ ['/'] ++ settings.constants.generatedFile,
        constantsSource constants⟩ = Path.place root root ++
          ((Path.parse ConstructKind.constant.defaultFolder).parts ++ [txt "constants.ts"]) := by
      rw [placeOf, hfolder, h.constantsFile]
      change Path.place root (root.append (Path.parse
        (ConstructKind.constant.defaultFolder ++ ['/'] ++ Settings.unset.constants.generatedFile))) = _
      exact Path.place_append root rfl (by decide)
    rw [placeOf_defaultPath root (hplain key hkey) hsuffix heq, hfile, List.append_cancel_left_eq] at hplace
    obtain ⟨hkind, -⟩ := ConstructKind.eq_of_parts_append_eq (ConstructKind.ne_spec_of_mem_suffixes hsuffix)
      (by decide) hplace
    rw [hkind] at hsuffix
    exact absurd hsuffix List.not_mem_nil

end Batch

/-! ### What a batch leaves alone -/

namespace Batch

variable {root : Path} {place : List Text}

theorem octets?_emitOne (s : State) {made : Artifact} (h : place ≠ placeOf root made) :
    (emitOne (.folder root) s made).1.tree.octets? place = s.tree.octets? place := by
  simp only [emitOne]
  split
  · rfl
  · next folders hfolders =>
    have hkept : folders.octets? place = s.tree.octets? place := by
      rw [FileTree.octets?, FileTree.octets?, FileTree.files_makeFolder hfolders]
    split
    · exact hkept
    · next written hwritten => exact (FileTree.octets?_write hwritten h).trans hkept

theorem octets?_emit (s : State) {artifacts : List Artifact} (h : ∀ made ∈ artifacts, place ≠ placeOf root made) :
    (emit (.folder root) s artifacts).1.tree.octets? place = s.tree.octets? place := by
  induction artifacts generalizing s with
  | nil => rfl
  | cons made artifacts ih =>
    obtain ⟨hmade, hartifacts⟩ := List.forall_mem_cons.1 h
    have hone := octets?_emitOne s hmade
    rw [emit]
    split
    · next next hnext =>
      rw [hnext] at hone
      exact (ih next hartifacts).trans hone
    · next next fault hnext =>
      rw [hnext] at hone
      exact hone

theorem octets?_attempt (path : Option Path) (kind : ConstructKind) {work : Migration (List Artifact)} {s : State}
    (h : ∀ artifacts, (work.runFrom s.journal).1 = .ok artifacts → ∀ made ∈ artifacts, place ≠ placeOf root made) :
    (attempt (.folder root) path kind work s).tree.octets? place = s.tree.octets? place := by
  unfold attempt
  generalize work.runFrom s.journal = ran at h
  obtain ⟨outcome, journal⟩ := ran
  cases outcome with
  | error fault => rfl
  | ok artifacts =>
    have hemit := octets?_emit { s with journal } (h artifacts rfl)
    dsimp only
    split
    · next final hfinal =>
      rw [hfinal] at hemit
      exact hemit
    · next final fault hfinal =>
      rw [hfinal] at hemit
      exact hemit

theorem octets?_step (settings : Settings) (kinds : List ConstructKind) (s : State) {source : Source}
    (h : ∀ made ∈ produced settings source, place ≠ placeOf root made) :
    (step settings kinds (.folder root) s source).tree.octets? place = s.tree.octets? place := by
  unfold step
  split
  · refine octets?_attempt _ _ fun artifacts hartifacts => ?_
    rw [(runFrom_migrate settings source _).1] at hartifacts
    rwa [produced, hartifacts] at h
  · rfl

theorem octets?_foldl_step (settings : Settings) (kinds : List ConstructKind) (s : State) {sources : List Source}
    (h : ∀ source ∈ sources, ∀ made ∈ produced settings source, place ≠ placeOf root made) :
    (sources.foldl (step settings kinds (.folder root)) s).tree.octets? place = s.tree.octets? place := by
  induction sources generalizing s with
  | nil => rfl
  | cons source sources ih =>
    obtain ⟨hsource, hsources⟩ := List.forall_mem_cons.1 h
    rw [List.foldl_cons]
    exact (ih _ hsources).trans (octets?_step settings kinds s hsource)

theorem octets?_foldl_finish (settings : Settings) (kinds : List ConstructKind) (s : State)
    (h : ∀ constants, ∀ made ∈ Migration.constantsFile settings constants, place ≠ placeOf root made) :
    (kinds.foldl (fun s kind => attempt (.folder root) none kind (finish settings kind) s) s).tree.octets? place =
      s.tree.octets? place := by
  induction kinds generalizing s with
  | nil => rfl
  | cons kind kinds ih =>
    rw [List.foldl_cons]
    refine (ih _).trans (octets?_attempt _ _ fun artifacts hartifacts made hmade => ?_)
    -- Constants are gathered at the end of their kind, and no other kind has files to gather.
    rw [finish] at hartifacts
    split at hartifacts
    · rw [(Migration.runFrom_gatherConstants settings _).1] at hartifacts
      obtain rfl := Except.ok.inj hartifacts
      exact h _ made hmade
    · obtain rfl := Except.ok.inj hartifacts
      exact absurd hmade List.not_mem_nil

/-! ### No file is replaced -/

/-- The state in which a batch begins with its sources. -/
def started (journal : Journal) (tree : FileTree) (sources : List Source) : State :=
  ({ journal, tree } : State).info (txt "Migrating " ++ Text.ofNat sources.length ++ txt " source file(s)")

/-- Two sources whose files are named apart: they are of different kinds, or they share no key. -/
def NamedApart (source other : Source) : Prop :=
  source.kind = other.kind → ∀ key ∈ source.namingKeys, key ∉ other.namingKeys

instance (source other : Source) : Decidable (NamedApart source other) :=
  inferInstanceAs (Decidable (_ → _))

theorem NamedApart.symm {source other : Source} (h : NamedApart source other) : NamedApart other source :=
  fun hkind key hkey hkey' => h hkind.symm key hkey' hkey

/-- What a source has written is still there when the batch has come to its end. -/
theorem octets?_run {settings : Settings} (hsettings : settings.DefaultPlaces) {sources : List Source}
    (happart : sources.Pairwise NamedApart)
    (hplain : ∀ source ∈ sources, ∀ key ∈ source.namingKeys, IsPlainKey key) (kinds : List ConstructKind)
    (root : Path) (journal : Journal) (tree : FileTree) {before after : List Source} {source : Source}
    (hordered : ordered sources = before ++ source :: after) {made : Artifact}
    (hmade : made ∈ produced settings source) :
    (run settings kinds (.folder root) journal tree sources).tree.octets? (placeOf root made) =
      ((before ++ [source]).foldl (step settings kinds (.folder root)) (started journal tree sources)).tree.octets?
        (placeOf root made) := by
  -- The order of a batch only rearranges its sources, and being named apart does not depend on the order.
  have hperm : (before ++ source :: after).Perm sources := hordered ▸ List.mergeSort_perm sources _
  have hpairwise := (hperm.pairwise_iff NamedApart.symm).2 happart
  have hkeys : ∀ other ∈ before ++ source :: after, ∀ key ∈ other.namingKeys, IsPlainKey key :=
    fun other hother => hplain other (hperm.mem_iff.1 hother)
  have hsource := hkeys source (List.mem_append_right before List.mem_cons_self)
  have hsplit : before ++ source :: after = (before ++ [source]) ++ after := by simp
  -- Later sources write elsewhere, and so does the end of the constants.
  have hlater : ∀ other ∈ after, ∀ made' ∈ produced settings other, placeOf root made ≠ placeOf root made' := by
    intro other hother made' hmade' hplace
    have hrest := (List.pairwise_append.1 hpairwise).2.1
    have happart := (List.pairwise_cons.1 hrest).1 other hother
    have hother' := hkeys other (List.mem_append_right before (List.mem_cons_of_mem source hother))
    obtain ⟨hkind, key, hkey, hkey'⟩ := shared_key_of_placeOf_eq hsettings hsource hother' hmade hmade' hplace
    exact happart hkind key hkey hkey'
  have hconstants : ∀ constants, ∀ gathered ∈ Migration.constantsFile settings constants,
      placeOf root made ≠ placeOf root gathered :=
    fun constants gathered hgathered => placeOf_ne_constantsFile hsettings hsource hmade hgathered
  refine (octets?_foldl_finish settings (ConstructKind.migrationOrder.filter kinds.elem) _ hconstants).trans ?_
  rw [hordered, hsplit, List.foldl_append]
  exact octets?_foldl_step settings kinds _ hlater

/-- With the default folders, and sources of which no two of the same kind share a key, the files of two sources
never have the same path, nor has any of them that of the constants. Where the keys are plain, no file that a source
has written is changed by what comes after it in a batch. -/
theorem no_artifact_replaced {settings : Settings} (hsettings : settings.DefaultPlaces) {sources : List Source}
    (happart : sources.Pairwise NamedApart) :
    (sources.Pairwise fun source other => ∀ made ∈ produced settings source, ∀ made' ∈ produced settings other,
      made.path ≠ made'.path) ∧
    (∀ source ∈ sources, ∀ made ∈ produced settings source,
      ∀ constants, ∀ file ∈ Migration.constantsFile settings constants, made.path ≠ file.path) ∧
    ((∀ source ∈ sources, ∀ key ∈ source.namingKeys, IsPlainKey key) →
      ∀ kinds root journal tree before source after, ordered sources = before ++ source :: after →
      ∀ made ∈ produced settings source,
        (run settings kinds (.folder root) journal tree sources).tree.octets? (placeOf root made) =
          ((before ++ [source]).foldl (step settings kinds (.folder root))
            (started journal tree sources)).tree.octets? (placeOf root made)) := by
  refine ⟨?_, ?_, ?_⟩
  · refine happart.imp fun happart made hmade made' hmade' hpath => ?_
    obtain ⟨hkind, key, hkey, hkey'⟩ := shared_key_of_path_eq hsettings hmade hmade' hpath
    exact happart hkind key hkey hkey'
  · intro source _ made hmade constants file hfile
    exact path_ne_constantsFile hsettings hmade hfile
  · intro hplain kinds root journal tree before source after hordered made hmade
    exact octets?_run hsettings happart hplain kinds root journal tree hordered hmade

/-- A file that registers a service, in a folder and under a name. -/
def serviceFile (folder name : Text) : Source :=
  .make (Path.parse (folder ++ ['/'] ++ name ++ txt ".service.js"))
    (txt "angular.module('shop').service('" ++ name ++ txt "', function () \x7b this.on = 1; \x7d);") .service [] []

theorem no_artifact_replaced_services :
    let user := serviceFile (txt "a") (txt "user")
    let cart := serviceFile (txt "b") (txt "cart")
    (produced { root := {} } user).length = 2 ∧ (produced { root := {} } cart).length = 2 ∧
    [user, cart].Pairwise (fun source other => ∀ made ∈ produced { root := {} } source,
      ∀ made' ∈ produced { root := {} } other, made.path ≠ made'.path) ∧
    ∀ made ∈ produced { root := {} } user,
      (run { root := {} } [.service] (.folder { anchor := ['/'] }) {} {} [user, cart]).tree.octets?
          (placeOf { anchor := ['/'] } made) =
        (([] ++ [user]).foldl (step { root := {} } [.service] (.folder { anchor := ['/'] }))
          (started {} {} [user, cart])).tree.octets? (placeOf { anchor := ['/'] } made) := by
  intro user cart
  have happart : [user, cart].Pairwise NamedApart := by decide +kernel
  have hplain : ∀ source ∈ [user, cart], ∀ key ∈ source.namingKeys, IsPlainKey key := by decide +kernel
  have hordered : ordered [user, cart] = [] ++ user :: [cart] := by
    rw [ordered_eq]
    decide +kernel
  obtain ⟨hpaths, -, hrun⟩ := no_artifact_replaced (Settings.defaultPlaces_unset {}) happart
  refine ⟨by decide +kernel, by decide +kernel, hpaths, ?_⟩
  exact hrun hplain [.service] { anchor := ['/'] } {} {} [] user [cart] hordered

/-- Files are named without their folders, so that two services of one name in different folders collide. -/
theorem services_of_one_name_collide :
    (serviceFile (txt "a") (txt "user")).path ≠ (serviceFile (txt "b") (txt "user")).path ∧
    (produced { root := {} } (serviceFile (txt "a") (txt "user"))).map (·.path) =
      [txt "generated/services/user/user.service.ts", txt "generated/services/user/user.module.ts"] ∧
    (produced { root := {} } (serviceFile (txt "b") (txt "user"))).map (·.path) =
      [txt "generated/services/user/user.service.ts", txt "generated/services/user/user.module.ts"] := by
  decide +kernel

end Batch

end AngularUplift
