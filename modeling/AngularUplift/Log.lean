import AngularUplift.Fault

/-!
# Log records

What a run tells about its progress. A record belongs to an area of the program and has a level; the console
shows records from a level on, and a run log keeps all of them.
-/

namespace AngularUplift

/-- How important a log record is. -/
inductive LogLevel where
  /-- Details for troubleshooting. -/
  | debug
  /-- Progress. -/
  | info
  /-- Something that may need attention. -/
  | warning
  /-- A failure. -/
  | error
deriving DecidableEq, Repr

/-- The word for a level. -/
def LogLevel.label : LogLevel → Text
  | .debug => txt "DEBUG"
  | .info => txt "INFO"
  | .warning => txt "WARNING"
  | .error => txt "ERROR"

/-- One message of a run. -/
structure LogRecord where
  /-- How important it is. -/
  level : LogLevel
  /-- The area of the program it comes from. -/
  area : Text
  /-- What it says. -/
  message : Text
  /-- The fault whose trace follows the message. -/
  trace : Option Fault := none
deriving DecidableEq, Repr

/-- The name under which a value that is not what it was declared to be is shown in traces. -/
def ValueFault.category : ValueFault → Text
  | .notMoment => txt "AttributeError"
  | .emptyNumeral => txt "IndexError"
  | .notTruthWord _ => txt "KeyError"
  | .codePointTooGreat => txt "OverflowError"
  | .calendar _ | .notInteger .. | .tooManyDigits _ | .integerTooLong | .notReal _ | .beyondLastCodePoint =>
    txt "ValueError"

/-- The name under which a fault is shown in traces. -/
def Fault.category : Fault → Text
  | .unbalanced .. => txt "DelimiterMismatchError"
  | .unsupportedDelimiter _ | .emptyVariableName | .noAlias | .targetIsAlias _
  | .unknownAnalyses _ | .unknownKind _ | .nullInPath => txt "ValueError"
  | .replacement (.flawed ..) => txt "error"
  | .replacement (.unknownGroup _) => txt "IndexError"
  | .unsupportedTestNode | .fileNamingOverridden | .optionNameNotText _ | .fixedPart .type
  | .fixedPart .contents => txt "TypeError"
  | .fixedPart .references => txt "AttributeError"
  | .value fault => fault.category
  | .noRegistration .. | .notMigratable _ => txt "MigrationError"
  | .settingsNotMapping | .settingsUnreadable _ | .unknownOption _ | .notBoolean _
  | .noSection _ => txt "ConfigError"
  | .notUtf8 => txt "UnicodeDecodeError"
  | .notDirectory _ => txt "NotADirectoryError"
  | .isDirectory _ => txt "IsADirectoryError"
  | .fileExists _ => txt "FileExistsError"
  | .noSuchFile _ => txt "FileNotFoundError"
  | .nameTooLong _ => txt "OSError"
  | .noHome => txt "RuntimeError"

namespace LogRecord

/-- A message for troubleshooting. -/
def debug (area message : Text) : LogRecord := ⟨.debug, area, message, none⟩

/-- A message on progress. -/
def info (area message : Text) : LogRecord := ⟨.info, area, message, none⟩

/-- The message with the trace of its fault on a line of its own. -/
def body (record : LogRecord) : Text :=
  match record.trace with
  | none => record.message
  | some fault => record.message ++ txt "\n<TRACEBACK " ++ fault.category ++ txt ">"

/-- The line that the console shows. -/
def consoleLine (record : LogRecord) : Text :=
  txt "[ngmigrate] " ++ record.level.label ++ [' '] ++ record.body ++ ['\n']

/-- The line that a run log keeps, after the time of the run. -/
def runLogLine (time : Text) (record : LogRecord) : Text :=
  time ++ [' '] ++ record.level.label ++ txt " ngmigrate." ++ record.area ++ txt ": " ++ record.body ++
    ['\n']

end LogRecord

/-- A computation that writes log records and may fail. What it wrote before a failure stays written. -/
abbrev Logged (α : Type) := ExceptT Fault (StateM (List LogRecord)) α

namespace Logged

/-- Writes records. -/
def tell (records : List LogRecord) : Logged Unit := modify (· ++ records)

/-- A computation that writes nothing. -/
def ofExcept {α : Type} : Except Fault α → Logged α
  | .ok value => pure value
  | .error fault => throw fault

/-- The outcome of a computation and what it wrote. -/
def runFrom {α : Type} (records : List LogRecord) (work : Logged α) : Except Fault α × List LogRecord :=
  Id.run (work.run.run records)

/-- The outcome of a computation, without what it wrote. -/
def outcome {α : Type} (work : Logged α) : Except Fault α := (work.runFrom []).1

end Logged

end AngularUplift
