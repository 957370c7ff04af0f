import AngularUplift.Fault

/-!
# Tokens of YAML

A YAML text is a sequence of tokens. Some of them are not written but follow from the indentation: the beginning
and the end of a list or mapping in block form, and the mark of a key that is only known by the colon after it.
-/

namespace AngularUplift.Yaml

/-- Why a text cannot be read. -/
inductive Refusal where
  /-- It is not well formed. -/
  | malformed
  /-- It holds a value that is not what it was declared to be. -/
  | invalid (fault : ValueFault)
deriving DecidableEq, Repr

/-- A tag as it is written: the handle, if there is one, and what follows it. -/
structure WrittenTag where
  /-- The handle with its exclamation marks. -/
  handle : Option Text
  /-- What follows the handle. -/
  suffix : Text
deriving DecidableEq, Repr

/-- A token. -/
inductive Token where
  /-- The end of the text. -/
  | finish
  /-- A directive with the version that the text is written for. -/
  | version (major : Nat)
  /-- A directive that lets a handle stand for the beginning of tags. -/
  | tagHandle (handle beginning : Text)
  /-- A directive that says nothing here. -/
  | otherDirective
  /-- The beginning of a document. -/
  | documentStart
  /-- The end of a document. -/
  | documentStop
  /-- The beginning of a list in block form. -/
  | blockListStart
  /-- The beginning of a mapping in block form. -/
  | blockMappingStart
  /-- The end of a list or mapping in block form. -/
  | blockStop
  /-- An opening bracket. -/
  | openBracket
  /-- A closing bracket. -/
  | closeBracket
  /-- An opening brace. -/
  | openBrace
  /-- A closing brace. -/
  | closeBrace
  /-- The dash of an item. -/
  | dash
  /-- A comma. -/
  | comma
  /-- The mark of a key. -/
  | keyMark
  /-- The mark of a value. -/
  | valueMark
  /-- A reference to what has an anchor. -/
  | reference (name : Text)
  /-- An anchor. -/
  | anchor (name : Text)
  /-- A tag. -/
  | tag (written : WrittenTag)
  /-- A scalar, plain or in quotes or in block form. -/
  | scalar (text : Text) (plain : Bool)
  /-- What could not be cut into tokens. -/
  | refused (refusal : Refusal)
deriving DecidableEq, Repr

end AngularUplift.Yaml
