import AngularUplift.Calendar
import AngularUplift.Construct.Kind
import AngularUplift.Text.Quoted
import AngularUplift.Text.Replacement

/-!
# Faults

Everything that can stop an analysis, a migration or the reading of settings, as causes. The words for a
cause are in `Fault.message` and nowhere else.
-/

namespace AngularUplift

/-- A part of a settings section that is no option and cannot be set to a text. -/
inductive FixedPart where
  /-- The type of the section. -/
  | type
  /-- The options of the section, taken together. -/
  | contents
  /-- The references to the section. -/
  | references
deriving DecidableEq, Repr

/-- The words for setting a part of a section that cannot be set to a text. -/
def FixedPart.message : FixedPart → Text
  | .type => txt "__class__ must be set to a class, not 'str' object"
  | .contents => txt "__dict__ must be set to a dictionary, not a 'str'"
  | .references => txt "attribute '__weakref__' of 'ConstructConfig' objects is not writable"

/-- Why a value is not what it was declared to be. -/
inductive ValueFault where
  /-- There is no such day or moment. -/
  | calendar (fault : CalendarFault)
  /-- The text has not the form of a moment. -/
  | notMoment
  /-- The text is no integer in the base. -/
  | notInteger (base : Nat) (text : Text)
  /-- The numeral has too many digits. -/
  | tooManyDigits (count : Nat)
  /-- The numeral of the integer would have too many digits. -/
  | integerTooLong
  /-- The text is no real number. -/
  | notReal (text : Text)
  /-- The text of a number is empty. -/
  | emptyNumeral
  /-- The word says neither on nor off. -/
  | notTruthWord (word : Text)
  /-- There is no code point of this number. -/
  | beyondLastCodePoint
  /-- The number of a code point is beyond all bounds. -/
  | codePointTooGreat
deriving DecidableEq, Repr

/-- The words for a value that is not what it was declared to be. -/
def ValueFault.message : ValueFault → Text
  | .calendar fault => fault.message
  | .notMoment => txt "'NoneType' object has no attribute 'groupdict'"
  | .notInteger base text =>
    txt "invalid literal for int() with base " ++ Text.ofNat base ++ txt ": " ++ Text.quoted text
  | .tooManyDigits count =>
    txt "Exceeds the limit (4300 digits) for integer string conversion: value has " ++ Text.ofNat count ++
      txt " digits; use sys.set_int_max_str_digits() to increase the limit"
  | .integerTooLong =>
    txt "Exceeds the limit (4300 digits) for integer string conversion; use sys.set_int_max_str_digits() to increase " ++
      txt "the limit"
  | .notReal text => txt "could not convert string to float: " ++ Text.quoted text
  | .emptyNumeral => txt "string index out of range"
  | .notTruthWord word => Text.quoted word
  | .beyondLastCodePoint => txt "chr() arg not in range(0x110000)"
  | .codePointTooGreat => txt "Python int too large to convert to C int"

/-- A reason why something could not be done. -/
inductive Fault where
  /-- The delimiter that should open at `start` is not there or has no balancing close. -/
  | unbalanced (opening : Char) (start : Int)
  /-- No pair of delimiters opens with this text. -/
  | unsupportedDelimiter (opening : Text)
  /-- A variable was given no name. -/
  | emptyVariableName
  /-- A renaming was given no alias. -/
  | noAlias
  /-- A renaming was asked to rename to one of its own aliases. -/
  | targetIsAlias (target : Text)
  /-- The new name of a renaming denotes no replacement. -/
  | replacement (fault : ReplacementFault)
  /-- No analysis is registered under these names. -/
  | unknownAnalyses (names : List Text)
  /-- No construct kind has this name. -/
  | unknownKind (name : Text)
  /-- A test tree holds a node of no known category. -/
  | unsupportedTestNode
  /-- A source file has no registration of the kind it was taken for. -/
  | noRegistration (construct path : Text)
  /-- Constructs of this kind are not migrated on their own. -/
  | notMigratable (kind : ConstructKind)
  /-- The settings are not a mapping. -/
  | settingsNotMapping
  /-- The settings file cannot be read as YAML. -/
  | settingsUnreadable (file : Text)
  /-- A settings section has no such option. -/
  | unknownOption (key : Text)
  /-- The name of an option is no text but a value of another type. -/
  | optionNameNotText (typeName : Text)
  /-- The part of a section that an option names cannot be set to a text. -/
  | fixedPart (part : FixedPart)
  /-- An option that is on or off was given something else. -/
  | notBoolean (key : Text)
  /-- There is no settings section for this kind. -/
  | noSection (kind : Text)
  /-- The rule that names generated files was overridden by a text. -/
  | fileNamingOverridden
  /-- A value of the settings is not what it was declared to be. -/
  | value (fault : ValueFault)
  /-- A file that must be valid UTF-8 is not. -/
  | notUtf8
  /-- A folder was needed where a path leads through a file. -/
  | notDirectory (path : Text)
  /-- A file was needed where there is a folder. -/
  | isDirectory (path : Text)
  /-- A folder was needed where there is a file. -/
  | fileExists (path : Text)
  /-- There is nothing at a path. -/
  | noSuchFile (path : Text)
  /-- A name in a path is too long. -/
  | nameTooLong (path : Text)
  /-- A path holds a null character. -/
  | nullInPath
  /-- There is no such user, and so no home folder. -/
  | noHome
deriving DecidableEq, Repr

/-- The name of the settings file. -/
def settingsFileName : Text := txt ".ngmigrate.yml"

/-- The words for a fault. -/
def Fault.message : Fault → Text
  | .unbalanced opening start =>
    txt "Unbalanced '" ++ [opening] ++ txt "' opened at index " ++ Text.ofInt start
  | .unsupportedDelimiter opening => txt "Unsupported delimiter '" ++ opening ++ txt "'"
  | .emptyVariableName => txt "Variable name must not be empty"
  | .noAlias => txt "At least one alias is required"
  | .targetIsAlias target => txt "Target '" ++ target ++ txt "' cannot also be an alias"
  | .unknownAnalyses names =>
    txt "Unknown analyzers requested: " ++ Text.join (txt ", ") names
  | .replacement fault => fault.message
  | .unknownKind name => Text.quoted name ++ txt " is not a valid ConstructKind"
  | .unsupportedTestNode => txt "Unsupported test node: UnitTestNode"
  | .noRegistration construct path =>
    txt "No " ++ construct ++ txt " registration found in " ++ path
  | .notMigratable kind => txt "No mover for construct kind '" ++ kind.label ++ txt "'"
  | .settingsNotMapping => settingsFileName ++ txt " must contain a mapping at the root"
  | .settingsUnreadable file => txt "Failed to parse " ++ file
  | .unknownOption key => txt "Unknown option '" ++ key ++ txt "' in " ++ settingsFileName
  | .optionNameNotText typeName => txt "attribute name must be string, not '" ++ typeName ++ txt "'"
  | .fixedPart part => part.message
  | .notBoolean key => txt "Option '" ++ key ++ txt "' expects a boolean"
  | .noSection kind => txt "No configuration section for construct kind '" ++ kind ++ txt "'"
  | .fileNamingOverridden => txt "'str' object is not callable"
  | .value fault => fault.message
  | .notUtf8 => txt "The file is not valid UTF-8"
  | .notDirectory path => txt "[Errno 20] Not a directory: " ++ Text.quoted path
  | .isDirectory path => txt "[Errno 21] Is a directory: " ++ Text.quoted path
  | .fileExists path => txt "[Errno 17] File exists: " ++ Text.quoted path
  | .noSuchFile path => txt "[Errno 2] No such file or directory: " ++ Text.quoted path
  | .nameTooLong path => txt "[Errno 36] File name too long: " ++ Text.quoted path
  | .nullInPath => txt "embedded null byte"
  | .noHome => txt "Could not determine home directory."

end AngularUplift
