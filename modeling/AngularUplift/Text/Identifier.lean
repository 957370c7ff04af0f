import AngularUplift.Text.Class
import AngularUplift.Text.Case

/-!
# Spellings of a name

A construct is registered under a camel-case name, selected and filed under a dashed one, and its class
is named in Pascal case: `myWidget`, `my-widget`, `MyWidget`.
-/

namespace AngularUplift.Text

/-- An ASCII capital after a dash, in lower case; any other character as it is. -/
def dashCapital (c : Char) : Text := if 'A' ≤ c && c ≤ 'Z' then ['-', c.toLower] else [c]

/-- The dashed spelling: `myWidget` becomes `my-widget`. -/
def camelToDash (name : Text) : Text := (decapitalise name).flatMap dashCapital

/-- The camel-case spelling: a dash, underscore or dot goes, and the ASCII letter or digit after it is
put in upper case. Before any other character these three marks stay. -/
def dashToCamel : Text → Text
  | [] => []
  | [c] => [c]
  | c :: d :: rest =>
    if (c == '-' || c == '_' || c == '.') && (isLatin d || isDecimal d) then
      d.toUpper :: dashToCamel rest
    else c :: dashToCamel (d :: rest)

/-- The Pascal-case spelling: the camel-case spelling with its first character in upper case. -/
def pascalCase (name : Text) : Text := capitalise (dashToCamel name)

end AngularUplift.Text
