import AngularUplift.Yaml.Scalar

/-!
# Nodes of YAML

A document is a tree of scalars, lists and mappings, each with a tag that says what it is. A plain scalar without
a tag gets the tag of the form that it has.

## Main definitions

* `Yaml.Tag`, `Yaml.Tag.ofName`: what a node is.
* `Yaml.plainTag`: the tag of a plain scalar.
* `Yaml.MomentParts`: the parts of a day or a moment as they are written.
* `Yaml.Node`: a node.
-/

namespace AngularUplift.Yaml

/-- What a node is. -/
inductive Tag where
  /-- The absence of a value. -/
  | null
  /-- A truth value. -/
  | bool
  /-- An integer. -/
  | int
  /-- A real number. -/
  | float
  /-- A day or a moment. -/
  | moment
  /-- A text. -/
  | text
  /-- Octets. -/
  | binary
  /-- A list. -/
  | list
  /-- A mapping. -/
  | mapping
  /-- The key under which other mappings are merged into a mapping. -/
  | merge
  /-- The key under which a mapping has its plain value. -/
  | value
  /-- Something else. -/
  | other
deriving DecidableEq, Repr

/-- The tag of a name. -/
def Tag.ofName (name : Text) : Tag :=
  match (txt "tag:yaml.org,2002:").after? name with
  | none => .other
  | some word =>
    if word = txt "null" then .null
    else if word = txt "bool" then .bool
    else if word = txt "int" then .int
    else if word = txt "float" then .float
    else if word = txt "timestamp" then .moment
    else if word = txt "str" then .text
    else if word = txt "binary" then .binary
    else if word = txt "seq" then .list
    else if word = txt "map" then .mapping
    else if word = txt "merge" then .merge
    else if word = txt "value" then .value
    else .other

/-! ### Plain scalars -/

/-- The words for the absence of a value. -/
def nullWords : List Text := [[], txt "~", txt "null", txt "Null", txt "NULL"]

/-- The words for truth values. -/
def truthWords : List Text :=
  [txt "yes", txt "no", txt "true", txt "false", txt "on", txt "off"]

/-- Whether a text is one of the words, in lower case, capitalised or in upper case. -/
def isWordOf (words : List Text) (text : Text) : Bool :=
  words.any fun word =>
    let capital := word.map Char.toUpper
    text == word || text == capital.take 1 ++ word.drop 1 || text == capital

/-- A text without the sign that it begins with. -/
def unsigned (text : Text) : Text :=
  match text with
  | '-' :: rest => rest
  | '+' :: rest => rest
  | text => text

/-- Whether a text is a decimal digit and then digits and underscores. -/
def isDigits : Text → Bool
  | [] => false
  | c :: rest => isDecimal c && rest.all fun d => isDecimal d || d == '_'

/-- Whether a text is one or two digits of minutes or seconds. -/
def isSixtieth : Text → Bool
  | [c] => isDecimal c
  | [c, d] => '0' ≤ c && c ≤ '5' && isDecimal d
  | _ => false

/-- Whether a text is an integer: binary, octal, decimal, hexadecimal, or in hours, minutes and seconds. -/
def isIntegerForm (text : Text) : Bool :=
  let isOctal (c : Char) : Bool := '0' ≤ c && c ≤ '7'
  match unsigned text with
  | ['0'] => true
  | '0' :: 'b' :: rest => !rest.isEmpty && rest.all fun c => c == '0' || c == '1' || c == '_'
  | '0' :: 'x' :: rest => !rest.isEmpty && rest.all fun c => (Literal.hexDigit? c).isSome || c == '_'
  | '0' :: rest => rest.all fun c => isOctal c || c == '_'
  | text =>
    match text.fields ':' with
    | [] => false
    | first :: others => isDigits first && others.all isSixtieth

/-- Whether a text is the digits after the point of a real number, with an exponent or without. -/
def isFraction (text : Text) : Bool :=
  let isDigit (c : Char) : Bool := isDecimal c || c == '_'
  match text.dropWhile isDigit with
  | [] => true
  | c :: rest =>
    (c == 'e' || c == 'E') &&
      match rest with
      | sign :: digits => (sign == '-' || sign == '+') && !digits.isEmpty && digits.all isDecimal
      | [] => false

/-- Whether a text is a real number: with a point, in hours, minutes and seconds with a point, or one of the words
for what is no number. -/
def isRealForm (text : Text) : Bool :=
  let whole := (unsigned text).takeWhile (· != '.')
  let fraction := ((unsigned text).dropWhile (· != '.')).drop 1
  let hasPoint := (unsigned text).elem '.'
  let isInfinity := [txt "inf", txt "Inf", txt "INF"].elem fraction
  let isNotNumber := [txt "nan", txt "NaN", txt "NAN"].elem fraction
  hasPoint &&
    if whole.isEmpty then
      isInfinity ||
        (text.head? == some '.' && (isNotNumber || (fraction.head?.any isDecimal && isFraction fraction)))
    else
      match Text.fields ':' whole with
      | [digits] => isDigits digits && isFraction fraction
      | first :: others =>
        isDigits first && others.all isSixtieth && fraction.all fun c => isDecimal c || c == '_'
      | [] => false

/-! ### Moments -/

/-- The parts of a day or a moment as they are written. -/
structure MomentParts where
  /-- The year. -/
  year : Text
  /-- The month. -/
  month : Text
  /-- The day. -/
  day : Text
  /-- The hour, minute and second, the digits of the fraction, and the distance from universal time. -/
  time : Option (Text × Text × Text × Text × Option Text)
deriving DecidableEq, Repr

/-- Between `least` and `most` digits that a text begins with, and the text after them. -/
def digitsOf (least most : Nat) (text : Text) : Option (Text × Text) :=
  let digits := (text.take most).takeWhile isDecimal
  if digits.length < least then none else some (digits, text.drop digits.length)

/-- What follows a character that a text begins with. -/
def afterChar? (c : Char) (text : Text) : Option Text := Text.after? [c] text

/-- Whether a text is a distance from universal time: a sign and hours, with minutes or without. -/
def isOffset : Text → Bool
  | [] => false
  | sign :: text =>
    (sign == '+' || sign == '-') &&
      match digitsOf 1 2 text with
      | none => false
      | some (_, []) => true
      | some (_, rest) => ((afterChar? ':' rest).bind (digitsOf 2 2)).any (·.2.isEmpty)

/-- The time of a day, from after its mark on. -/
def timeParts? (text : Text) : Option (Text × Text × Text × Text × Option Text) := do
  let (hour, rest) ← digitsOf 1 2 text
  let (minute, rest) ← digitsOf 2 2 (← afterChar? ':' rest)
  let (second, rest) ← digitsOf 2 2 (← afterChar? ':' rest)
  let (fraction, rest) := match rest with
    | '.' :: rest => (rest.takeWhile isDecimal, rest.dropWhile isDecimal)
    | rest => ([], rest)
  if rest.isEmpty then return (hour, minute, second, fraction, none)
  let zone := rest.dropWhile isGap
  if zone = ['Z'] ∨ isOffset zone then return (hour, minute, second, fraction, some zone) else none

/-- The parts of a day or a moment. -/
def momentParts? (text : Text) : Option MomentParts := do
  let (year, rest) ← digitsOf 4 4 text
  let (month, rest) ← digitsOf 1 2 (← afterChar? '-' rest)
  let (day, rest) ← digitsOf 1 2 (← afterChar? '-' rest)
  match rest with
  | [] => return ⟨year, month, day, none⟩
  | c :: rest =>
    if c = 'T' ∨ c = 't' then return ⟨year, month, day, some (← timeParts? rest)⟩
    else if isGap c then return ⟨year, month, day, some (← timeParts? (rest.dropWhile isGap))⟩
    else none

/-- Whether a plain text is a day or a moment. A day alone has two digits for the month and two for the day. -/
def isMomentForm (text : Text) : Bool :=
  match momentParts? text with
  | none => false
  | some parts => parts.time.isSome || (parts.month.length == 2 && parts.day.length == 2)

/-- The tag of a plain scalar. -/
def plainTag (text : Text) : Tag :=
  if isWordOf truthWords text then .bool
  else if isRealForm text then .float
  else if isIntegerForm text then .int
  else if text = txt "<<" then .merge
  else if nullWords.elem text then .null
  else if isMomentForm text then .moment
  else if text = ['='] then .value
  else .text

/-! ### Nodes -/

/-- A node of a document. -/
inductive Node where
  /-- A scalar. -/
  | scalar (tag : Tag) (text : Text)
  /-- A list. -/
  | list (tag : Tag) (items : List Node)
  /-- A mapping. -/
  | mapping (tag : Tag) (entries : List (Node × Node))
deriving Repr

end AngularUplift.Yaml
