import AngularUplift.Datum
import AngularUplift.Settings.Basic
import AngularUplift.Text.Case

/-!
# Settings from data

Settings are given as a mapping. Each section is a mapping of options; an option is a text or a switch. Unknown
options are refused, and so is anything for a switch that says neither on nor off.

## Main definitions

* `SettingsOption`: an option of a section, with the way it is set.
* `applySection`: a section with the options of a mapping set, in order.
* `Settings.ofData`: the settings that data describe.
-/

namespace AngularUplift

/-! ### Values of options -/

/-- A value as a text without white space at its ends; nothing, when no text is left. -/
def settingText? : Datum → Except Fault (Option Text)
  | .null => .ok none
  | .text t => .ok (if (Text.trim t).isEmpty then none else some (Text.trim t))
  | value => (some <$> value.display).mapError .value

/-- The text that an option is set to: none is the empty one. -/
def optionText (value : Datum) : Except Fault Text := (·.getD []) <$> settingText? value

/-- The words for on. -/
def onWords : List Text := [txt "true", txt "yes", txt "1", txt "on"]

/-- The words for off. -/
def offWords : List Text := [txt "false", txt "no", txt "0", txt "off"]

/-- A value as a switch. -/
def settingSwitch? : Datum → Option Bool
  | .bool value => some value
  | .text t =>
    let word := Text.toLower (Text.trim t)
    if onWords.elem word then some true else if offWords.elem word then some false else none
  | _ => none

/-- An item of a list of texts; nothing, when it is null. -/
def itemText? : Datum → Except ValueFault (Option Text)
  | .null => .ok none
  | value => some <$> value.display

/-- A value as a list of texts: a list, or one text, or nothing. -/
def settingTexts : Datum → Except Fault (List Text)
  | .text t => .ok [t]
  | .list items => (items.filterMapM itemText?).mapError .value
  | _ => .ok []

/-- The entries of a value that is a mapping. -/
def settingEntries : Datum → List (Datum × Datum)
  | .mapping entries => entries
  | _ => []

/-! ### Sections -/

/-- An option of a section. -/
structure SettingsOption (σ : Type) where
  /-- The key that it is set by. -/
  key : Text
  /-- The section with the option set to a value. -/
  set : Datum → σ → Except Fault σ

namespace SettingsOption

/-- An option that is a text. -/
def ofText {σ : Type} (key : String) (put : Text → σ → σ) : SettingsOption σ where
  key := txt key
  set := fun value s => (put · s) <$> optionText value

/-- An option that is a switch. -/
def ofSwitch {σ : Type} (key : String) (put : Bool → σ → σ) : SettingsOption σ where
  key := txt key
  set := fun value s =>
    match settingSwitch? value with
    | some on => .ok (put on s)
    | none => .error (.notBoolean (txt key))

/-- An option of a part of a section, as an option of the section. -/
def within {σ τ : Type} (get : σ → τ) (put : τ → σ → σ) (o : SettingsOption τ) : SettingsOption σ where
  key := o.key
  set := fun value s => do
    let part ← o.set value (get s)
    return put part s

end SettingsOption

/-- The options that every section has. Naming files is a rule and no option, but it can be overridden. -/
def OutputSettings.options : List (SettingsOption OutputSettings) :=
  [.ofText "generated_folder" fun value s => { s with generatedFolder := value },
    .ofText "generated_prefix" fun value s => { s with generatedPrefix := value },
    .ofSwitch "output" fun on s => { s with output := on },
    .ofText "filename" fun _ s => { s with namingOverridden := true }]

/-- The options of a section of classes. -/
def ClassSettings.options : List (SettingsOption ClassSettings) :=
  OutputSettings.options.map
    (.within ClassSettings.toOutputSettings fun part s => { s with toOutputSettings := part }) ++
  [.ofSwitch "insert_injections" fun on s => { s with insertInjections := on },
    .ofSwitch "downgrade" fun on s => { s with downgrade := on }]

/-- The options of the section of directives. -/
def DirectiveSettings.options : List (SettingsOption DirectiveSettings) :=
  OutputSettings.options.map
    (.within DirectiveSettings.toOutputSettings fun part s => { s with toOutputSettings := part }) ++
  [.ofSwitch "generate_undeclared_warning" fun on s => { s with generateUndeclaredWarning := on },
    .ofSwitch "update_removed_injected_bindings" fun on s => { s with updateRemovedInjectedBindings := on },
    .ofSwitch "upgrade" fun on s => { s with upgrade := on }]

/-- The options of the section of constants. -/
def ConstantSettings.options : List (SettingsOption ConstantSettings) :=
  OutputSettings.options.map
    (.within ConstantSettings.toOutputSettings fun part s => { s with toOutputSettings := part }) ++
  [.ofText "generated_file" fun value s => { s with generatedFile := value }]

/-- The names that every section answers to without having an option. Setting one of them has no effect. -/
def inertNames : List Text :=
  [txt "__annotations__", txt "__dataclass_fields__", txt "__dataclass_params__", txt "__delattr__",
    txt "__dir__", txt "__doc__", txt "__eq__", txt "__format__", txt "__ge__", txt "__getattribute__",
    txt "__getstate__", txt "__gt__", txt "__hash__", txt "__init__", txt "__init_subclass__", txt "__le__",
    txt "__lt__", txt "__match_args__", txt "__module__", txt "__ne__", txt "__new__", txt "__reduce__",
    txt "__reduce_ex__", txt "__repr__", txt "__setattr__", txt "__sizeof__", txt "__str__",
    txt "__subclasshook__"]

/-- The part of a section that a name stands for and that no text can be set to. -/
def FixedPart.ofName? (name : Text) : Option FixedPart :=
  if name = txt "__class__" then some .type
  else if name = txt "__dict__" then some .contents
  else if name = txt "__weakref__" then some .references
  else none

/-- A section with the option of a key set. -/
def applyOption {σ : Type} (options : List (SettingsOption σ)) (s : σ) (entry : Datum × Datum) :
    Except Fault σ :=
  match entry.1 with
  | .text key =>
    match options.find? (·.key == key), FixedPart.ofName? key with
    | some o, _ => o.set entry.2 s
    | none, some part => do
      let _ ← optionText entry.2
      throw (.fixedPart part)
    | none, none =>
      if inertNames.elem key then do
        let _ ← optionText entry.2
        return s
      else .error (.unknownOption key)
  | key => .error (.optionNameNotText key.typeName)

/-- A section with the options of a mapping set, in order. The first fault ends it. -/
def applySection {σ : Type} (options : List (SettingsOption σ)) (s : σ) (entries : List (Datum × Datum)) :
    Except Fault σ :=
  entries.foldlM (applyOption options) s

/-! ### All settings -/

namespace Settings

/-- The settings that a mapping describes. -/
def ofMapping (root : Path) (data : Datum) : Except Fault Settings := do
  let get (key : String) : Datum := (data.get? (txt key)).getD .null
  let defaults : Settings := { root }
  let moduleName ← settingText? (get "module_name")
  let outputDir ← (← settingText? (get "output_dir")).mapM fun dir => root.resolved (Path.parse dir)
  return {
    defaults with
    moduleName := moduleName.getD defaults.moduleName
    outputDir
    excludePaths := ← settingTexts (get "exclude_paths")
    components :=
      ← applySection ClassSettings.options defaults.components (settingEntries (get "components"))
    controllers :=
      ← applySection ClassSettings.options defaults.controllers (settingEntries (get "controllers"))
    directives :=
      ← applySection DirectiveSettings.options defaults.directives (settingEntries (get "directives"))
    attributeDirectives :=
      ← applySection OutputSettings.options defaults.attributeDirectives
        (settingEntries (get "attribute_directives"))
    services := ← applySection ClassSettings.options defaults.services (settingEntries (get "services"))
    filters := ← applySection OutputSettings.options defaults.filters (settingEntries (get "filters"))
    constants :=
      ← applySection ConstantSettings.options defaults.constants (settingEntries (get "constants"))
    i18n := ((settingSwitch? (((get "i18n").get? (txt "generate")).getD .null))).getD false }

/-- The settings that data describe; data that say nothing are an empty mapping. -/
def ofData (root : Path) (data : Datum) : Except Fault Settings :=
  if data.isVacant then .ok { root }
  else
    match data with
    | .mapping _ => ofMapping root data
    | _ => .error .settingsNotMapping

end Settings

end AngularUplift
