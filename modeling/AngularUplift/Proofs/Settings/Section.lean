import AngularUplift.Log
import AngularUplift.Proofs.Settings.Display

/-!
# Which options a section accepts

A section is set up from a mapping, entry by entry, and the first entry that is refused ends it. Every entry that is
not refused sets the field that its key declares and nothing else. But a section answers to more names than its fields:
the rule for naming files can be exchanged for a text, and some names are accepted without effect. And what is no switch
is set to a text, which a value with too long an integer in it has not.

## Main definitions

* `SectionKind`: the four kinds of section, with the options, the fields and the output of each.
* `SectionKind.configured`: a section with the fields that a mapping names set, and the others as they were.
* `SectionKind.Refuses`: which entries are refused, and as what.

## Main statements

* `SectionKind.configures_options`: every option sets the field of its key and nothing else.
* `SectionKind.applyOption_spec`, `SectionKind.applySection_cases`: what an entry and what a mapping does to a section.
* `SectionKind.applySection_declared`: which mappings are refused as wrong settings, and what the others lead to.
-/

namespace AngularUplift

/-! ### Chosen values -/

section Chosen

variable {α : Type} {entries rest : List (Text × Datum)} {key : Text} {value : Datum}

/-- A mapping with texts as keys. -/
def textEntries (entries : List (Text × Datum)) : List (Datum × Datum) :=
  entries.map fun entry => (.text entry.1, entry.2)

/-- The value that a mapping has for a key, or the default where it has none. -/
def chosen (convert : Datum → Option α) (entries : List (Text × Datum)) (key : String) (default : α) : α :=
  ((entries.lookup (txt key)).bind convert).getD default

/-- The text that a mapping has for a key, or the default. -/
def chosenText : List (Text × Datum) → String → Text → Text := chosen fun value => (optionText value).toOption

/-- The switch that a mapping has for a key, or the default. -/
def chosenSwitch : List (Text × Datum) → String → Bool → Bool := chosen settingSwitch?

/-- The entries of a mapping with different keys may be taken one after the other. -/
theorem chosen_cons (convert : Datum → Option α) (hkey : key ∉ rest.map Prod.fst) (name : String) (default : α) :
    chosen convert ((key, value) :: rest) name default =
      chosen convert rest name (chosen convert [(key, value)] name default) := by
  by_cases hname : txt name = key
  · have hrest : rest.lookup key = none := by
      rw [List.lookup_eq_none_iff]
      intro entry hentry
      rw [bne_iff_ne]
      rintro rfl
      exact hkey (List.mem_map_of_mem hentry)
    simp [chosen, hname, hrest]
  · simp [chosen, List.lookup_cons, beq_eq_false_iff_ne.2 hname]

/-- What has another key stays. -/
theorem chosen_other (convert : Datum → Option α) {name : String} (hne : key ≠ txt name) (default : α) :
    chosen convert [(key, value)] name default = default := by
  simp [chosen, List.lookup_cons, beq_eq_false_iff_ne.2 hne.symm]

/-- What a text is set to. -/
theorem chosenText_self {text : Text} (h : optionText value = .ok text) (key : String) (default : Text) :
    chosenText [(txt key, value)] key default = text := by
  simp [chosenText, chosen, h, Except.toOption]

/-- What a switch is set to. -/
theorem chosenSwitch_self {on : Bool} (h : settingSwitch? value = some on) (key : String) (default : Bool) :
    chosenSwitch [(txt key, value)] key default = on := by
  simp [chosenSwitch, chosen, h]

end Chosen

/-! ### Configured sections -/

/-- What every section has, with the fields that a mapping names set. A text for the rule for naming files overrides
the rule. -/
def OutputSettings.configured (entries : List (Text × Datum)) (s : OutputSettings) : OutputSettings where
  generatedFolder := chosenText entries "generated_folder" s.generatedFolder
  generatedPrefix := chosenText entries "generated_prefix" s.generatedPrefix
  output := chosenSwitch entries "output" s.output
  namingOverridden := entries.any (·.1 == txt "filename") || s.namingOverridden

/-- A section of classes with the fields that a mapping names set. -/
def ClassSettings.configured (entries : List (Text × Datum)) (s : ClassSettings) : ClassSettings where
  toOutputSettings := s.toOutputSettings.configured entries
  insertInjections := chosenSwitch entries "insert_injections" s.insertInjections
  downgrade := chosenSwitch entries "downgrade" s.downgrade

/-- The section of directives with the fields that a mapping names set. -/
def DirectiveSettings.configured (entries : List (Text × Datum)) (s : DirectiveSettings) : DirectiveSettings where
  toOutputSettings := s.toOutputSettings.configured entries
  generateUndeclaredWarning := chosenSwitch entries "generate_undeclared_warning" s.generateUndeclaredWarning
  updateRemovedInjectedBindings :=
    chosenSwitch entries "update_removed_injected_bindings" s.updateRemovedInjectedBindings
  upgrade := chosenSwitch entries "upgrade" s.upgrade

/-- The section of constants with the fields that a mapping names set. -/
def ConstantSettings.configured (entries : List (Text × Datum)) (s : ConstantSettings) : ConstantSettings where
  toOutputSettings := s.toOutputSettings.configured entries
  generatedFile := chosenText entries "generated_file" s.generatedFile

/-- A kind of section. -/
inductive SectionKind where
  /-- The sections of attribute directives and of filters, which have nothing of their own. -/
  | plain
  /-- The sections of components, of controllers and of services. -/
  | classes
  /-- The section of directives. -/
  | directives
  /-- The section of constants. -/
  | constants

namespace SectionKind

/-- The sections of a kind. -/
def Section : SectionKind → Type
  | plain => OutputSettings
  | classes => ClassSettings
  | directives => DirectiveSettings
  | constants => ConstantSettings

/-- The options of a section. -/
def options : (kind : SectionKind) → List (SettingsOption kind.Section)
  | plain => OutputSettings.options
  | classes => ClassSettings.options
  | directives => DirectiveSettings.options
  | constants => ConstantSettings.options

/-- What every section has. -/
def output : (kind : SectionKind) → kind.Section → OutputSettings
  | plain => id
  | classes => ClassSettings.toOutputSettings
  | directives => DirectiveSettings.toOutputSettings
  | constants => ConstantSettings.toOutputSettings

/-- The section with the fields that a mapping names set. -/
def configured : (kind : SectionKind) → List (Text × Datum) → kind.Section → kind.Section
  | plain => OutputSettings.configured
  | classes => ClassSettings.configured
  | directives => DirectiveSettings.configured
  | constants => ConstantSettings.configured

/-- The declared fields that are texts. -/
def textFields (kind : SectionKind) : List Text :=
  [txt "generated_folder", txt "generated_prefix"] ++
    match kind with
    | constants => [txt "generated_file"]
    | _ => []

/-- The declared fields that are switches. -/
def switchFields (kind : SectionKind) : List Text :=
  [txt "output"] ++
    match kind with
    | plain | constants => []
    | classes => [txt "insert_injections", txt "downgrade"]
    | directives =>
      [txt "generate_undeclared_warning", txt "update_removed_injected_bindings", txt "upgrade"]

end SectionKind

/-! ### What an option does -/

namespace SettingsOption

variable {σ τ : Type}

/-- Why the option of a key cannot be set to a value: a switch is set only to what says on or off, and anything else only
to what is writable. -/
def misfit? (isSwitch : Bool) (key : Text) (value : Datum) : Option Fault :=
  if isSwitch then if settingSwitch? value = none then some (.notBoolean key) else none
  else if value.IsWritable then none
  else some (.value .integerTooLong)

/-- An option sets up a section as the given function does with a mapping of the one entry, unless the value does not
fit. -/
def Configures (o : SettingsOption σ) (isSwitch : Bool) (configured : List (Text × Datum) → σ → σ) : Prop :=
  ∀ value s, o.set value s = (misfit? isSwitch o.key value).elim (.ok (configured [(o.key, value)] s)) .error

variable {configured : List (Text × Datum) → σ → σ} {isSwitch : Bool}

/-- A text is set to what is writable. -/
theorem configures_ofText {key : String} {put : Text → σ → σ} (hswitch : ¬isSwitch)
    (h : ∀ value text s, optionText value = .ok text → put text s = configured [(txt key, value)] s) :
    (ofText key put).Configures isSwitch configured := by
  intro value s
  rw [misfit?, if_neg hswitch]
  split
  · next hwritable =>
    obtain ⟨text, htext⟩ := (shown_optionText value).1 hwritable
    simp only [ofText, htext, Option.elim_none, ← h value text s htext]
    rfl
  · next hlong =>
    simp only [ofText, (shown_optionText value).2 hlong, Option.elim_some]
    rfl

/-- A switch is set to what says on or off. -/
theorem configures_ofSwitch {key : String} {put : Bool → σ → σ} (hswitch : isSwitch)
    (h : ∀ value on s, settingSwitch? value = some on → put on s = configured [(txt key, value)] s) :
    (ofSwitch key put).Configures isSwitch configured := by
  intro value s
  rw [misfit?, if_pos hswitch]
  cases hvalue : settingSwitch? value with
  | none => simp only [ofSwitch, hvalue, if_true, Option.elim_some]
  | some on => simp only [ofSwitch, hvalue, reduceCtorEq, if_false, Option.elim_none, ← h value on s hvalue]

/-- An option of a part does to a section what it does to the part. -/
theorem Configures.within {o : SettingsOption τ} {get : σ → τ} {put : τ → σ → σ}
    {part : List (Text × Datum) → τ → τ} (ho : o.Configures isSwitch part)
    (h : ∀ value s, put (part [(o.key, value)] (get s)) s = configured [(o.key, value)] s) :
    (o.within get put).Configures isSwitch configured := by
  intro value s
  simp only [SettingsOption.within, ho value (get s)]
  cases misfit? isSwitch o.key value with
  | none => exact congrArg Except.ok (h value s)
  | some fault => rfl

end SettingsOption

namespace SectionKind

/-- The options that every section has set the field of their key. -/
theorem configures_output (kind : SectionKind) :
    ∀ o ∈ OutputSettings.options, o.Configures (kind.switchFields.elem o.key) OutputSettings.configured := by
  simp only [OutputSettings.options, List.forall_mem_cons]
  refine ⟨SettingsOption.configures_ofText ?_ fun value text s h => ?_,
    SettingsOption.configures_ofText ?_ fun value text s h => ?_,
    SettingsOption.configures_ofSwitch ?_ fun value on s h => ?_,
    SettingsOption.configures_ofText ?_ fun _ _ _ _ => rfl, List.forall_mem_nil _⟩
  · cases kind <;> decide
  · rw [OutputSettings.configured, chosenText_self h]
    rfl
  · cases kind <;> decide
  · rw [OutputSettings.configured, chosenText_self h]
    rfl
  · cases kind <;> decide
  · simp only [OutputSettings.configured, chosenSwitch_self h]
    rfl
  · cases kind <;> decide

/-- With the options of its own a section has only options that set the field of their key, when the options that every
section has leave its own fields as they are. -/
theorem configures_extended {σ : Type} {get : σ → OutputSettings} {put : OutputSettings → σ → σ}
    {own : List (SettingsOption σ)} {configured : List (Text × Datum) → σ → σ} (kind : SectionKind)
    (houtput : ∀ o ∈ OutputSettings.options, ∀ value s,
      put (OutputSettings.configured [(o.key, value)] (get s)) s = configured [(o.key, value)] s)
    (hown : ∀ o ∈ own, o.Configures (kind.switchFields.elem o.key) configured) :
    ∀ o ∈ OutputSettings.options.map (.within get put) ++ own, o.Configures (kind.switchFields.elem o.key) configured :=
  List.forall_mem_append.2
    ⟨List.forall_mem_map.2 fun o ho => (kind.configures_output o ho).within (houtput o ho), hown⟩

/-- The options of a section of classes set the field of their key. -/
theorem configures_classes :
    ∀ o ∈ ClassSettings.options, o.Configures (classes.switchFields.elem o.key) ClassSettings.configured := by
  have hother : ∀ o ∈ OutputSettings.options, o.key ≠ txt "insert_injections" ∧ o.key ≠ txt "downgrade" := by decide
  refine classes.configures_extended (fun o ho value s => ?_) ?_
  · obtain ⟨hinsert, hdowngrade⟩ := hother o ho
    rw [ClassSettings.configured, chosenSwitch, chosen_other _ hinsert, chosen_other _ hdowngrade]
  · simp only [List.forall_mem_cons]
    refine ⟨SettingsOption.configures_ofSwitch (by decide) fun value on s h => ?_,
      SettingsOption.configures_ofSwitch (by decide) fun value on s h => ?_, List.forall_mem_nil _⟩
    · rw [ClassSettings.configured, chosenSwitch_self h]
      rfl
    · rw [ClassSettings.configured, chosenSwitch_self h]
      rfl

/-- The options of the section of directives set the field of their key. -/
theorem configures_directives :
    ∀ o ∈ DirectiveSettings.options, o.Configures (directives.switchFields.elem o.key) DirectiveSettings.configured := by
  have hother : ∀ o ∈ OutputSettings.options, o.key ≠ txt "generate_undeclared_warning" ∧
      o.key ≠ txt "update_removed_injected_bindings" ∧ o.key ≠ txt "upgrade" := by decide
  refine directives.configures_extended (fun o ho value s => ?_) ?_
  · obtain ⟨hwarning, hupdate, hupgrade⟩ := hother o ho
    rw [DirectiveSettings.configured, chosenSwitch, chosen_other _ hwarning, chosen_other _ hupdate,
      chosen_other _ hupgrade]
  · simp only [List.forall_mem_cons]
    refine ⟨SettingsOption.configures_ofSwitch (by decide) fun value on s h => ?_,
      SettingsOption.configures_ofSwitch (by decide) fun value on s h => ?_,
      SettingsOption.configures_ofSwitch (by decide) fun value on s h => ?_, List.forall_mem_nil _⟩
    · rw [DirectiveSettings.configured, chosenSwitch_self h]
      rfl
    · rw [DirectiveSettings.configured, chosenSwitch_self h]
      rfl
    · rw [DirectiveSettings.configured, chosenSwitch_self h]
      rfl

/-- The options of the section of constants set the field of their key. -/
theorem configures_constants :
    ∀ o ∈ ConstantSettings.options, o.Configures (constants.switchFields.elem o.key) ConstantSettings.configured := by
  have hother : ∀ o ∈ OutputSettings.options, o.key ≠ txt "generated_file" := by decide
  refine constants.configures_extended (fun o ho value s => ?_) ?_
  · rw [ConstantSettings.configured, chosenText, chosen_other _ (hother o ho)]
  · simp only [List.forall_mem_cons]
    refine ⟨SettingsOption.configures_ofText (by decide) fun value text s h => ?_, List.forall_mem_nil _⟩
    rw [ConstantSettings.configured, chosenText_self h]
    rfl

/-- Every option of a section sets the field of its key and nothing else, to any value that fits. -/
theorem configures_options (kind : SectionKind) :
    ∀ o ∈ kind.options, o.Configures (kind.switchFields.elem o.key) kind.configured := by
  cases kind with
  | plain => exact plain.configures_output
  | classes => exact configures_classes
  | directives => exact configures_directives
  | constants => exact configures_constants

/-! ### What an entry does -/

/-- The declared fields of a section. -/
def fields (kind : SectionKind) : List Text := kind.textFields ++ kind.switchFields

/-- The options of a section are its fields and the rule for naming files. -/
theorem keys_options_perm (kind : SectionKind) :
    (kind.options.map (·.key)).Perm (txt "filename" :: kind.fields) := by
  cases kind <;> decide

/-- A mapping that names no field and not the rule for naming files leaves a section as it is. -/
theorem configured_other (kind : SectionKind) {key : Text} {value : Datum}
    (hkey : ∀ name ∈ txt "filename" :: kind.fields, key ≠ name) (s : kind.Section) :
    kind.configured [(key, value)] s = s := by
  have houtput : ∀ s : OutputSettings, s.configured [(key, value)] = s := by
    intro s
    have hnaming : [(key, value)].any (·.1 == txt "filename") = false := by simp [hkey _ List.mem_cons_self]
    rw [OutputSettings.configured, chosenText, chosenSwitch, chosen_other _ (hkey _ (by cases kind <;> decide)),
      chosen_other _ (hkey _ (by cases kind <;> decide)), chosen_other _ (hkey _ (by cases kind <;> decide)), hnaming,
      Bool.false_or]
  cases kind with
  | plain => exact houtput s
  | classes =>
    have hclass : ∀ s : ClassSettings, s.configured [(key, value)] = s := fun s => by
      rw [ClassSettings.configured, houtput, chosenSwitch, chosen_other _ (hkey _ (by decide)),
        chosen_other _ (hkey _ (by decide))]
    exact hclass s
  | directives =>
    have hdirective : ∀ s : DirectiveSettings, s.configured [(key, value)] = s := fun s => by
      rw [DirectiveSettings.configured, houtput, chosenSwitch, chosen_other _ (hkey _ (by decide)),
        chosen_other _ (hkey _ (by decide)), chosen_other _ (hkey _ (by decide))]
    exact hdirective s
  | constants =>
    have hconstant : ∀ s : ConstantSettings, s.configured [(key, value)] = s := fun s => by
      rw [ConstantSettings.configured, houtput, chosenText, chosen_other _ (hkey _ (by decide))]
    exact hconstant s

end SectionKind

/-- The names of the parts of a section that no text can be set to. -/
def fixedNames : List Text := [txt "__class__", txt "__dict__", txt "__weakref__"]

/-- The names that a section answers to without having such a field. -/
def undeclaredNames : List Text := txt "filename" :: (fixedNames ++ inertNames)

/-- The fixed parts are named by their names. -/
theorem FixedPart.isSome_ofName?_iff {name : Text} : (ofName? name).isSome ↔ name ∈ fixedNames := by
  rw [ofName?, fixedNames]
  split
  · next h => simp [h]
  · split
    · next h => simp [h]
    · split
      · next h => simp [h]
      · next hclass hdict hweak => simp [hclass, hdict, hweak]

namespace SectionKind

/-- An entry is refused, and as what: its key is no field and no other name of the section, it is a switch and the value
says neither on nor off, it is no switch and the value has too long an integer in it, or it is the name of a part that no
text can be set to. -/
inductive Refuses (kind : SectionKind) : (entry : Text × Datum) → (fault : Fault) → Prop
  /-- There is nothing of this name. -/
  | unknown {key : Text} {value : Datum} (hfield : key ∉ kind.fields) (hname : key ∉ undeclaredNames) :
      Refuses kind (key, value) (.unknownOption key)
  /-- A switch is not set to on or off. -/
  | notSwitch {key : Text} {value : Datum} (hswitch : key ∈ kind.switchFields) (hvalue : settingSwitch? value = none) :
      Refuses kind (key, value) (.notBoolean key)
  /-- A text, or another name of the section, is set to a value that cannot be written. -/
  | unwritable {key : Text} {value : Datum} (hname : key ∈ kind.textFields ∨ key ∈ undeclaredNames)
      (hvalue : ¬value.IsWritable) : Refuses kind (key, value) (.value .integerTooLong)
  /-- A fixed part is set. -/
  | fixed {key : Text} {value : Datum} {part : FixedPart} (hpart : FixedPart.ofName? key = some part)
      (hvalue : value.IsWritable) : Refuses kind (key, value) (.fixedPart part)

/-- An entry is accepted when it is not refused. -/
def Accepts (kind : SectionKind) (entry : Text × Datum) : Prop := ∀ fault, ¬kind.Refuses entry fault

/-- No field has the name of something else. -/
theorem notMem_undeclaredNames (kind : SectionKind) : ∀ key ∈ kind.fields, key ∉ undeclaredNames := by
  cases kind <;> decide

/-- The rule for naming files is no other name of a section and no switch. -/
theorem filename_notMem (kind : SectionKind) :
    txt "filename" ∉ fixedNames ++ inertNames ∧ txt "filename" ∉ kind.switchFields := by
  cases kind <;> decide

/-- No text is a switch. -/
theorem notMem_switchFields (kind : SectionKind) : ∀ key ∈ kind.textFields, key ∉ kind.switchFields := by
  cases kind <;> decide

/-- The fault of an entry that is refused. -/
def refusal? (kind : SectionKind) (key : Text) (value : Datum) : Option Fault :=
  if (txt "filename" :: kind.fields).elem key then SettingsOption.misfit? (kind.switchFields.elem key) key value
  else if (fixedNames ++ inertNames).elem key then
    if value.IsWritable then (FixedPart.ofName? key).map .fixedPart else some (.value .integerTooLong)
  else some (.unknownOption key)

section Refusal

variable {kind : SectionKind} {key : Text} {value : Datum}

/-- A field, or the rule for naming files, refuses what does not fit. -/
theorem refusal?_of_mem (hkey : key ∈ txt "filename" :: kind.fields) :
    kind.refusal? key value = SettingsOption.misfit? (kind.switchFields.elem key) key value :=
  if_pos (List.elem_iff.2 hkey)

/-- A text, or the rule for naming files, refuses what cannot be written. -/
theorem refusal?_of_text (hkey : key ∈ txt "filename" :: kind.textFields) :
    kind.refusal? key value = if value.IsWritable then none else some (.value .integerTooLong) := by
  have hmem : key ∈ txt "filename" :: kind.fields := List.cons_subset_cons _ (List.subset_append_left _ _) hkey
  have hswitch : kind.switchFields.elem key = false := by
    rw [← Bool.not_eq_true, List.elem_iff]
    rcases List.mem_cons.1 hkey with rfl | htext
    · exact kind.filename_notMem.2
    · exact kind.notMem_switchFields key htext
  rw [refusal?_of_mem hmem, hswitch]
  rfl

/-- A switch refuses what says neither on nor off. -/
theorem refusal?_of_switch (hkey : key ∈ kind.switchFields) :
    kind.refusal? key value = if settingSwitch? value = none then some (.notBoolean key) else none := by
  have hmem : key ∈ txt "filename" :: kind.fields := List.mem_cons_of_mem _ (List.mem_append_right _ hkey)
  rw [refusal?_of_mem hmem, List.elem_iff.2 hkey]
  rfl

/-- Of the other names of a section each refuses what cannot be written, and a fixed part refuses everything. -/
theorem refusal?_of_name (hkey : key ∈ fixedNames ++ inertNames) :
    kind.refusal? key value =
      if value.IsWritable then (FixedPart.ofName? key).map .fixedPart else some (.value .integerTooLong) := by
  have hother : key ∉ txt "filename" :: kind.fields := by
    intro hmem
    rcases List.mem_cons.1 hmem with rfl | hfield
    · exact kind.filename_notMem.1 hkey
    · exact kind.notMem_undeclaredNames key hfield (List.mem_cons_of_mem _ hkey)
  rw [refusal?, if_neg (mt List.elem_iff.1 hother), if_pos (List.elem_iff.2 hkey)]

/-- What is no name of a section is refused. -/
theorem refusal?_of_unknown (hfield : key ∉ kind.fields) (hname : key ∉ undeclaredNames) :
    kind.refusal? key value = some (.unknownOption key) := by
  rw [undeclaredNames, List.mem_cons, not_or] at hname
  rw [refusal?, if_neg (mt List.elem_iff.1 (mt List.mem_cons.1 (not_or.2 ⟨hname.1, hfield⟩))),
    if_neg (mt List.elem_iff.1 hname.2)]

/-- An entry is refused as its fault says. -/
theorem refuses_iff {fault : Fault} : kind.Refuses (key, value) fault ↔ kind.refusal? key value = some fault := by
  constructor
  · intro h
    cases h with
    | unknown hfield hname => exact refusal?_of_unknown hfield hname
    | notSwitch hswitch hvalue => rw [refusal?_of_switch hswitch, if_pos hvalue]
    | unwritable hname hvalue =>
      rcases hname with htext | hname
      · rw [refusal?_of_text (List.mem_cons_of_mem _ htext), if_neg hvalue]
      · rcases List.mem_cons.1 hname with rfl | hname
        · rw [refusal?_of_text List.mem_cons_self, if_neg hvalue]
        · rw [refusal?_of_name hname, if_neg hvalue]
    | fixed hpart hvalue =>
      have hname := FixedPart.isSome_ofName?_iff.1 (Option.isSome_of_eq_some hpart)
      rw [refusal?_of_name (List.mem_append_left _ hname), if_pos hvalue, hpart, Option.map_some]
  · intro h
    -- A key is a switch, a text or the rule for naming files, another name, or nothing of these.
    by_cases hswitch : key ∈ kind.switchFields
    · rw [refusal?_of_switch hswitch] at h
      obtain ⟨hvalue, hfault⟩ := Option.ite_none_right_eq_some.1 h
      exact Option.some.inj hfault ▸ .notSwitch hswitch hvalue
    by_cases htext : key ∈ txt "filename" :: kind.textFields
    · rw [refusal?_of_text htext] at h
      obtain ⟨hvalue, hfault⟩ := Option.ite_none_left_eq_some.1 h
      refine Option.some.inj hfault ▸ .unwritable ?_ hvalue
      rcases List.mem_cons.1 htext with rfl | htext
      · exact .inr List.mem_cons_self
      · exact .inl htext
    by_cases hname : key ∈ fixedNames ++ inertNames
    · rw [refusal?_of_name hname] at h
      split at h
      · next hvalue =>
        obtain ⟨part, hpart, rfl⟩ := Option.map_eq_some_iff.1 h
        exact .fixed hpart hvalue
      · next hvalue => exact Option.some.inj h ▸ .unwritable (.inr (List.mem_cons_of_mem _ hname)) hvalue
    · rw [List.mem_cons, not_or] at htext
      have hfield : key ∉ kind.fields := mt List.mem_append.1 (not_or.2 ⟨htext.2, hswitch⟩)
      have hundeclared : key ∉ undeclaredNames := mt List.mem_cons.1 (not_or.2 ⟨htext.1, hname⟩)
      rw [refusal?_of_unknown hfield hundeclared] at h
      exact Option.some.inj h ▸ .unknown hfield hundeclared

/-- An entry is accepted when it has no fault. -/
theorem accepts_iff : kind.Accepts (key, value) ↔ kind.refusal? key value = none := by
  simp only [Accepts, refuses_iff, Option.eq_none_iff_forall_ne_some, ne_eq]

end Refusal

/-- An entry with a fault ends the section, and any other one sets what it names. -/
theorem applyOption_eq (kind : SectionKind) (s : kind.Section) (key : Text) (value : Datum) :
    applyOption kind.options s (.text key, value) =
      (kind.refusal? key value).elim (.ok (kind.configured [(key, value)] s)) .error := by
  by_cases hkey : key ∈ txt "filename" :: kind.fields
  · rw [refusal?_of_mem hkey]
    -- The option that is found may be any of this key, as each does what its key says.
    cases hfind : kind.options.find? (·.key == key) with
    | none =>
      obtain ⟨o, ho, rfl⟩ := List.mem_map.1 (kind.keys_options_perm.mem_iff.2 hkey)
      exact absurd (beq_self_eq_true o.key) (List.find?_eq_none.1 hfind o ho)
    | some o =>
      obtain rfl : o.key = key := by simpa using List.find?_some hfind
      have hset : applyOption kind.options s (.text o.key, value) = o.set value s := by simp only [applyOption, hfind]
      rw [hset]
      exact kind.configures_options o (List.mem_of_find?_eq_some hfind) value s
  · have hfind : kind.options.find? (·.key == key) = none := by
      rw [List.find?_eq_none]
      intro o ho heq
      obtain rfl : o.key = key := by simpa using heq
      exact hkey (kind.keys_options_perm.mem_iff.1 (List.mem_map_of_mem ho))
    have hpart : (FixedPart.ofName? key).isSome ↔ key ∈ fixedNames := FixedPart.isSome_ofName?_iff
    rw [kind.configured_other (List.forall_mem_ne.2 hkey)]
    -- The value is converted first, whatever other name it is for.
    cases hname : FixedPart.ofName? key with
    | some part =>
      rw [refusal?_of_name (List.mem_append_left _ (hpart.1 (hname ▸ rfl))), hname]
      simp only [applyOption, hfind, hname, optionText_bind]
      split
      · rfl
      · rfl
    | none =>
      simp only [applyOption, hfind, hname, optionText_bind]
      split
      · next hinert =>
        rw [refusal?_of_name (List.mem_append_right _ (List.elem_iff.1 hinert)), hname]
        split
        · rfl
        · rfl
      · next hinert =>
        have hfixed : key ∉ fixedNames := fun hmem => by simpa [hname] using hpart.2 hmem
        rw [List.mem_cons, not_or] at hkey
        rw [refusal?_of_unknown hkey.2]
        · rfl
        · rw [undeclaredNames, List.mem_cons, List.mem_append, not_or, not_or]
          exact ⟨hkey.1, hfixed, mt List.elem_iff.2 hinert⟩

/-- An entry that is refused ends the section, and any other one sets what it names. -/
theorem applyOption_spec (kind : SectionKind) (s : kind.Section) (entry : Text × Datum) :
    (∃ fault, kind.Refuses entry fault ∧ applyOption kind.options s (.text entry.1, entry.2) = .error fault) ∨
      (kind.Accepts entry ∧ applyOption kind.options s (.text entry.1, entry.2) = .ok (kind.configured [entry] s)) := by
  obtain ⟨key, value⟩ := entry
  rw [kind.applyOption_eq]
  cases hrefusal : kind.refusal? key value with
  | none => exact .inr ⟨accepts_iff.2 hrefusal, rfl⟩
  | some fault => exact .inl ⟨fault, refuses_iff.2 hrefusal, rfl⟩

/-- An entry is refused as one thing only. -/
theorem Refuses.unique {kind : SectionKind} {entry : Text × Datum} {fault other : Fault}
    (h : kind.Refuses entry fault) (hother : kind.Refuses entry other) : fault = other :=
  Option.some.inj ((refuses_iff.1 h).symm.trans (refuses_iff.1 hother))

/-! ### What a mapping does -/

/-- The entries of a mapping with different keys may be taken one after the other. -/
theorem configured_cons (kind : SectionKind) {entry : Text × Datum} {rest : List (Text × Datum)}
    (hkey : entry.1 ∉ rest.map Prod.fst) (s : kind.Section) :
    kind.configured (entry :: rest) s = kind.configured rest (kind.configured [entry] s) := by
  obtain ⟨key, value⟩ := entry
  -- Each field is set by itself; only whether the rule is overridden is asked of all entries.
  have hchosen : ∀ {α : Type} (convert : Datum → Option α) (name : String) (default : α),
      chosen convert ((key, value) :: rest) name default =
        chosen convert rest name (chosen convert [(key, value)] name default) :=
    fun convert => chosen_cons convert hkey
  have houtput : ∀ s : OutputSettings, s.configured ((key, value) :: rest) =
      (s.configured [(key, value)]).configured rest := by
    intro s
    have hnaming : (((key, value) :: rest).any (·.1 == txt "filename") || s.namingOverridden) =
        (rest.any (·.1 == txt "filename") || ([(key, value)].any (·.1 == txt "filename") || s.namingOverridden)) := by
      rw [List.any_cons, List.any_cons, List.any_nil, Bool.or_false, Bool.or_left_comm, Bool.or_assoc]
    rw [OutputSettings.configured, chosenText, chosenSwitch, hchosen, hchosen, hchosen, hnaming]
    rfl
  cases kind with
  | plain => exact houtput s
  | classes =>
    have hclass : ∀ s : ClassSettings, s.configured ((key, value) :: rest) =
        (s.configured [(key, value)]).configured rest := fun s => by
      rw [ClassSettings.configured, houtput, chosenSwitch, hchosen, hchosen]
      rfl
    exact hclass s
  | directives =>
    have hdirective : ∀ s : DirectiveSettings, s.configured ((key, value) :: rest) =
        (s.configured [(key, value)]).configured rest := fun s => by
      rw [DirectiveSettings.configured, houtput, chosenSwitch, hchosen, hchosen, hchosen]
      rfl
    exact hdirective s
  | constants =>
    have hconstant : ∀ s : ConstantSettings, s.configured ((key, value) :: rest) =
        (s.configured [(key, value)]).configured rest := fun s => by
      rw [ConstantSettings.configured, houtput, chosenText, hchosen]
      rfl
    exact hconstant s

/-- A mapping is refused at its first entry that is refused, and otherwise sets what it names. -/
theorem applySection_cases (kind : SectionKind) (s : kind.Section) {entries : List (Text × Datum)}
    (hkeys : (entries.map Prod.fst).Nodup) :
    (∃ before entry after fault, entries = before ++ entry :: after ∧ (∀ earlier ∈ before, kind.Accepts earlier) ∧
        kind.Refuses entry fault ∧
        applySection kind.options s (textEntries entries) = .error fault) ∨
      ((∀ entry ∈ entries, kind.Accepts entry) ∧
        applySection kind.options s (textEntries entries) =
          .ok (kind.configured entries s)) := by
  induction entries generalizing s with
  | nil =>
    refine .inr ⟨List.forall_mem_nil _, ?_⟩
    cases kind <;> rfl
  | cons entry rest ih =>
    rw [List.map_cons, List.nodup_cons] at hkeys
    obtain ⟨hkey, hrest⟩ := hkeys
    have hstep : applySection kind.options s (textEntries (entry :: rest)) =
        applyOption kind.options s (.text entry.1, entry.2) >>= fun next =>
          applySection kind.options next (textEntries rest) := List.foldlM_cons
    rw [hstep]
    obtain ⟨fault, hrefused, hset⟩ | ⟨haccepted, hset⟩ := kind.applyOption_spec s entry
    · rw [hset]
      exact .inl ⟨[], entry, rest, fault, rfl, List.forall_mem_nil _, hrefused, rfl⟩
    · rw [hset]
      obtain ⟨before, stop, after, fault, rfl, hbefore, hrefused, hend⟩ | ⟨hall, hend⟩ :=
        ih (kind.configured [entry] s) hrest
      · exact .inl ⟨entry :: before, stop, after, fault, rfl, List.forall_mem_cons.2 ⟨haccepted, hbefore⟩, hrefused,
          hend⟩
      · -- No later entry has the key of this one, so its field stays as it was set.
        refine .inr ⟨List.forall_mem_cons.2 ⟨haccepted, hall⟩, ?_⟩
        rw [kind.configured_cons hkey]
        exact hend

/-- There is one first entry that is refused. -/
theorem eq_of_first {kind : SectionKind} {before after front back : List (Text × Datum)} {entry other : Text × Datum}
    {fault otherFault : Fault} (hsplit : before ++ entry :: after = front ++ other :: back)
    (hbefore : ∀ earlier ∈ before, kind.Accepts earlier) (hentry : kind.Refuses entry fault)
    (hfront : ∀ earlier ∈ front, kind.Accepts earlier) (hother : kind.Refuses other otherFault) :
    fault = otherFault := by
  -- If one of the two came first, it would be among the accepted entries before the other.
  obtain rfl : entry = other := by
    rcases List.append_eq_append_iff.1 hsplit with ⟨more, rfl, hmore⟩ | ⟨more, rfl, hmore⟩
    · cases more with
      | nil => exact (List.cons.inj hmore).1
      | cons first more =>
        obtain ⟨rfl, -⟩ := List.cons.inj hmore
        exact absurd hentry (hfront entry (List.mem_append_right before List.mem_cons_self) fault)
    · cases more with
      | nil => exact (List.cons.inj hmore).1.symm
      | cons first more =>
        obtain ⟨rfl, -⟩ := List.cons.inj hmore
        exact absurd hother (hbefore other (List.mem_append_right front List.mem_cons_self) otherFault)
  exact hentry.unique hother

/-- A section goes on to have the configured output. -/
theorem output_configured (kind : SectionKind) (entries : List (Text × Datum)) (s : kind.Section) :
    kind.output (kind.configured entries s) = (kind.output s).configured entries := by
  cases kind <;> rfl

/-- The names of files in a section whose rule for naming them a mapping may override. -/
theorem fileName_configured (kind : SectionKind) (entries : List (Text × Datum)) {s : kind.Section}
    (hs : (kind.output s).namingOverridden = false) (key suffix : Text) :
    (kind.output (kind.configured entries s)).fileName key suffix =
      if txt "filename" ∈ entries.map Prod.fst then .error .fileNamingOverridden
      else .ok (key ++ (kind.output (kind.configured entries s)).generatedPrefix ++ ['.'] ++ suffix) := by
  have hnaming : (kind.output (kind.configured entries s)).namingOverridden = true ↔
      txt "filename" ∈ entries.map Prod.fst := by
    rw [output_configured, OutputSettings.configured, hs]
    simp
  rw [OutputSettings.fileName]
  simp only [hnaming]

/-- An entry whose key is no other name of the section is refused as a wrong setting, when it does not set a text to what
cannot be written. -/
theorem Refuses.category {kind : SectionKind} {entry : Text × Datum} {fault : Fault} (h : kind.Refuses entry fault)
    (hname : entry.1 ∉ undeclaredNames) (htext : entry.1 ∈ kind.textFields → entry.2.IsWritable) :
    fault.category = txt "ConfigError" := by
  cases h with
  | unknown => rfl
  | notSwitch => rfl
  | unwritable hkey hvalue => exact absurd (htext (hkey.resolve_right hname)) hvalue
  | fixed hpart =>
    have hfixed := FixedPart.isSome_ofName?_iff.1 (Option.isSome_of_eq_some hpart)
    exact absurd (List.mem_cons_of_mem _ (List.mem_append_left _ hfixed)) hname

/-- An entry whose key is no other name of the section, and that does not set a text to what cannot be written, is refused
when it names no field or a switch is not set to on or off. -/
theorem exists_refuses_iff (kind : SectionKind) {entry : Text × Datum} (hname : entry.1 ∉ undeclaredNames)
    (htext : entry.1 ∈ kind.textFields → entry.2.IsWritable) :
    (∃ fault, kind.Refuses entry fault) ↔
      entry.1 ∉ kind.fields ∨ entry.1 ∈ kind.switchFields ∧ settingSwitch? entry.2 = none := by
  constructor
  · rintro ⟨fault, hfield | ⟨hswitch, hvalue⟩ | ⟨hkey, hvalue⟩ | hpart⟩
    · exact .inl hfield
    · exact .inr ⟨hswitch, hvalue⟩
    · exact absurd (htext (hkey.resolve_right hname)) hvalue
    · have hfixed := FixedPart.isSome_ofName?_iff.1 (Option.isSome_of_eq_some hpart)
      exact absurd (List.mem_cons_of_mem _ (List.mem_append_left _ hfixed)) hname
  · rintro (hfield | ⟨hswitch, hvalue⟩)
    · exact ⟨_, .unknown hfield hname⟩
    · exact ⟨_, .notSwitch hswitch hvalue⟩

/-- A mapping is refused as the first of its entries that is refused. -/
theorem applySection_eq_error_iff (kind : SectionKind) (s : kind.Section) {entries : List (Text × Datum)}
    (hkeys : (entries.map Prod.fst).Nodup) (fault : Fault) :
    applySection kind.options s (textEntries entries) = .error fault ↔
      ∃ before entry after, entries = before ++ entry :: after ∧ (∀ earlier ∈ before, kind.Accepts earlier) ∧
        kind.Refuses entry fault := by
  obtain ⟨before, entry, after, found, hsplit, hbefore, hrefused, hend⟩ | ⟨hall, hend⟩ :=
    kind.applySection_cases s hkeys
  · rw [hend]
    constructor
    · intro hfault
      obtain rfl := Except.error.inj hfault
      exact ⟨before, entry, after, hsplit, hbefore, hrefused⟩
    · rintro ⟨front, other, back, hother, hfront, hstop⟩
      rw [eq_of_first (hsplit.symm.trans hother) hbefore hrefused hfront hstop]
  · rw [hend]
    constructor
    · intro hfault
      cases hfault
    · rintro ⟨front, other, back, rfl, -, hstop⟩
      exact absurd hstop (hall other (List.mem_append_right front List.mem_cons_self) fault)

/-- A mapping of which no entry is refused sets what it names. -/
theorem applySection_eq_ok (kind : SectionKind) (s : kind.Section) {entries : List (Text × Datum)}
    (hkeys : (entries.map Prod.fst).Nodup) (hall : ∀ entry ∈ entries, kind.Accepts entry) :
    applySection kind.options s (textEntries entries) = .ok (kind.configured entries s) := by
  obtain ⟨before, entry, after, fault, rfl, -, hrefused, -⟩ | ⟨-, hend⟩ := kind.applySection_cases s hkeys
  · exact absurd hrefused (hall entry (List.mem_append_right before List.mem_cons_self) fault)
  · exact hend

/-- A mapping with different keys is refused as the first of its entries that is refused. Without the names that a
section answers to beside its fields, and with values that can be written for its texts, it is refused as wrong settings
exactly when it names something that is no field or sets a switch to neither on nor off. When no entry is refused, every
field that is named has the converted value and the others are as they were, and files are named by the rule, unless the
rule was named itself. -/
theorem applySection_declared (kind : SectionKind) (s : kind.Section) (entries : List (Text × Datum))
    (hs : (kind.output s).namingOverridden = false) (hkeys : (entries.map Prod.fst).Nodup) :
    let result := applySection kind.options s (textEntries entries)
    (∀ fault, result = .error fault ↔ ∃ before entry after, entries = before ++ entry :: after ∧
      (∀ earlier ∈ before, kind.Accepts earlier) ∧ kind.Refuses entry fault) ∧
    ((∀ entry ∈ entries, entry.1 ∉ undeclaredNames ∧ (entry.1 ∈ kind.textFields → entry.2.IsWritable)) →
      ((∃ fault, result = .error fault ∧ fault.category = txt "ConfigError") ↔
        ∃ entry ∈ entries, entry.1 ∉ kind.fields ∨ entry.1 ∈ kind.switchFields ∧ settingSwitch? entry.2 = none)) ∧
    ((∀ entry ∈ entries, kind.Accepts entry) → result = .ok (kind.configured entries s) ∧
      ∀ key suffix, (kind.output (kind.configured entries s)).fileName key suffix =
        if txt "filename" ∈ entries.map Prod.fst then .error .fileNamingOverridden
        else .ok (key ++ (kind.output (kind.configured entries s)).generatedPrefix ++ ['.'] ++ suffix)) := by
  intro result
  have hfirst := kind.applySection_eq_error_iff s hkeys
  refine ⟨hfirst, fun hnames => ⟨?_, ?_⟩, fun hall =>
    ⟨kind.applySection_eq_ok s hkeys hall, kind.fileName_configured entries hs⟩⟩
  · rintro ⟨fault, hresult, -⟩
    obtain ⟨before, entry, after, rfl, -, hrefused⟩ := (hfirst fault).1 hresult
    have hmem : entry ∈ before ++ entry :: after := List.mem_append_right before List.mem_cons_self
    exact ⟨entry, hmem, (kind.exists_refuses_iff (hnames entry hmem).1 (hnames entry hmem).2).1 ⟨fault, hrefused⟩⟩
  · rintro ⟨entry, hmem, hwrong⟩
    obtain ⟨fault, hrefused⟩ := (kind.exists_refuses_iff (hnames entry hmem).1 (hnames entry hmem).2).2 hwrong
    -- The mapping ends at its first refused entry, which may be another than this one.
    obtain ⟨before, stop, after, found, rfl, -, hfound, hend⟩ | ⟨hall, -⟩ := kind.applySection_cases s hkeys
    · obtain ⟨hname, htext⟩ := hnames stop (List.mem_append_right before List.mem_cons_self)
      exact ⟨found, hend, hfound.category hname htext⟩
    · exact absurd hrefused (hall entry hmem fault)

/-- The section of components with an addition to the names of files and with classes registered for legacy code. -/
theorem applySection_declared_components :
    applySection ClassSettings.options { generatedFolder := txt "generated/components" }
        (textEntries [(txt "generated_prefix", .text (txt " .new ")), (txt "downgrade", .bool true)]) =
      .ok { generatedFolder := txt "generated/components", generatedPrefix := txt ".new", downgrade := true } := by
  have haccepts : ∀ entry ∈ [(txt "generated_prefix", Datum.text (txt " .new ")), (txt "downgrade", .bool true)],
      classes.Accepts entry := by
    intro entry hentry
    have hfault : ∀ entry ∈ [(txt "generated_prefix", Datum.text (txt " .new ")), (txt "downgrade", .bool true)],
        classes.refusal? entry.1 entry.2 = none := by
      decide
    exact accepts_iff.2 (hfault entry hentry)
  exact ((applySection_declared classes { generatedFolder := txt "generated/components" } _ rfl (by decide)).2.2
    haccepts).1

/-- The rule for naming files is no field, but a text for it is accepted, and then no file can be named. -/
theorem naming_rule_accepted :
    txt "filename" ∉ classes.fields ∧
      applySection ClassSettings.options { generatedFolder := txt "generated/components" }
          (textEntries [(txt "filename", .text (txt "x"))]) =
        .ok { generatedFolder := txt "generated/components", namingOverridden := true } ∧
      OutputSettings.fileName { generatedFolder := txt "generated/components", namingOverridden := true }
          (txt "users") (txt "component.ts") = .error .fileNamingOverridden :=
  ⟨by decide, rfl, rfl⟩

end SectionKind

end AngularUplift
