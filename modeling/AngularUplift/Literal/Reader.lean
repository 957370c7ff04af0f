import AngularUplift.Literal.Basic
import AngularUplift.Text.Numeral
import AngularUplift.Text.Reader

/-!
# Reading literals

The literals that are read are those of JSON with four liberties: strings may stand in single quotes, where
`\'` is one more escape; keys may be bare words; a comma may stand before a closing bracket or brace; and the
words `true`, `false` and `null` are keys when a colon follows. Everything else, in particular every
expression, is refused. White space between tokens is space, tab, line feed and carriage return.

A source is a sequence of code points. Only a string can hold halves of surrogate pairs, as themselves or as escapes;
all other tokens are made of characters.

## Main definitions

* `Literal.readNumber`, `Literal.readWord`: the tokens that are made of characters.
* `Literal.scanString`, `Literal.scanValue`: strings and the values of the grammar.
* `Literal.parseSource?`, `Literal.parse?`: a source, and a text, that is one literal, with white space around it.
-/

namespace AngularUplift.Literal

/-- White space between tokens. -/
def isSpace (c : Char) : Bool := c == ' ' || c == '\t' || c == '\n' || c == '\r'

/-! ### Escapes -/

/-- The value of a hexadecimal digit. -/
def hexDigit? (c : Char) : Option Nat :=
  if isDecimal c then some (c.toNat - '0'.toNat)
  else if 'a' ≤ c && c ≤ 'f' then some (c.toNat - 'a'.toNat + 10)
  else if 'A' ≤ c && c ≤ 'F' then some (c.toNat - 'A'.toNat + 10)
  else none

/-- The value of four hexadecimal digits. -/
def hexUnit? (a b c d : Char) : Option Nat := do
  let a ← hexDigit? a
  let b ← hexDigit? b
  let c ← hexDigit? c
  let d ← hexDigit? d
  return ((a * 16 + b) * 16 + c) * 16 + d

/-- The code point that a one-letter escape stands for in a string with the given quotation marks. -/
def escape? (quote c : Char) : Option Nat :=
  match c with
  | '"' => some 0x22
  | '\\' => some 0x5C
  | '/' => some 0x2F
  | 'b' => some 0x08
  | 'f' => some 0x0C
  | 'n' => some 0x0A
  | 'r' => some 0x0D
  | 't' => some 0x09
  | '\'' => if quote = '\'' then some 0x27 else none
  | _ => none

/-! ### Numbers -/

/-- The number that ASCII digits stand for. -/
def ofDigits (digits : Text) : Nat := digits.foldl (fun n c => n * 10 + (c.toNat - '0'.toNat)) 0

/-- The integer digits of a number: a zero, or digits that do not begin with one. -/
def readWhole : Text → Option (Text × Text)
  | [] => none
  | c :: rest =>
    if c = '0' then some (['0'], rest)
    else if isDecimal c then some (c :: rest.takeWhile isDecimal, rest.dropWhile isDecimal)
    else none

/-- The digits after a decimal point, or none when the text does not begin with a fraction. -/
def readFraction (source : Text) : Text × Text :=
  match source with
  | '.' :: rest =>
    if (rest.takeWhile isDecimal).isEmpty then ([], source)
    else (rest.takeWhile isDecimal, rest.dropWhile isDecimal)
  | _ => ([], source)

/-- The exponent, or none when the text does not begin with one. -/
def readExponent (source : Text) : Option (Int × Text) :=
  match source with
  | [] => none
  | c :: rest =>
    if c = 'e' ∨ c = 'E' then
      let (negative, rest) :=
        match rest with
        | '-' :: rest => (true, rest)
        | '+' :: rest => (false, rest)
        | rest => (false, rest)
      let digits := rest.takeWhile isDecimal
      if digits.isEmpty then none
      else some (if negative then -(ofDigits digits : Int) else ofDigits digits, rest.dropWhile isDecimal)
    else none

/-- A number: an integer without a fraction or an exponent, and otherwise a floating-point number. -/
def readNumber (source : Text) : Option (Literal × Text) := do
  let (negative, unsigned) :=
    match source with
    | '-' :: rest => (true, rest)
    | source => (false, source)
  let (whole, afterWhole) ← readWhole unsigned
  let (fraction, afterFraction) := readFraction afterWhole
  match fraction, readExponent afterFraction with
  | [], none =>
    if mostDigits < whole.length then none
    else return (.int (if negative then -(ofDigits whole : Int) else ofDigits whole), afterFraction)
  | fraction, exponent =>
    let (exponent, rest) := exponent.getD (0, afterFraction)
    return (.float (.ofDecimal negative (ofDigits (whole ++ fraction)) (exponent - fraction.length)), rest)

/-! ### Words -/

/-- Whether a character can begin a bare word. -/
def isWordStart (c : Char) : Bool := isLetter c || c == '_' || c == '$'

/-- Whether a character can continue a bare word. -/
def isWordPart (c : Char) : Bool := isLetterOrNumeral c || c == '_' || c == '$'

/-- A bare word. -/
def readWord : Text → Option (Text × Text)
  | [] => none
  | c :: rest =>
    if isWordStart c then some (c :: rest.takeWhile isWordPart, rest.dropWhile isWordPart) else none

/-- The value of a keyword. -/
def keyword? (word : Text) : Option Literal :=
  if word = txt "true" then some (.bool true)
  else if word = txt "false" then some (.bool false)
  else if word = txt "null" then some .null
  else none

/-! ### Sources -/

/-- What a reader of texts finds at the beginning of a source. No half is a part of it. -/
def scanText {α : Type} (read : Text → Option (α × Text)) (source : List CodePoint) : Option (α × List CodePoint) :=
  (read (CodePoint.chars source)).map fun (found, rest) =>
    (found, CodePoint.ofText rest ++ CodePoint.afterChars source)

/-- The source without the white space it begins with. -/
def scanSpace (source : List CodePoint) : List CodePoint := source.dropWhile (CodePoint.is isSpace)

/-- A code point of a string, as it was written. -/
inductive StringPart where
  /-- A code point that stands for itself. -/
  | plain (point : CodePoint)
  /-- A code point that an escape stands for. -/
  | escaped (point : CodePoint)
deriving DecidableEq, Repr

/-- The code point. -/
def StringPart.point : StringPart → CodePoint
  | .plain point => point
  | .escaped point => point

/-- The code points of a string. Halves that belong together are one character, but only when both are escaped. -/
def joinParts : List StringPart → List CodePoint
  | [] => []
  | .escaped first :: .escaped second :: rest =>
    match CodePoint.joined? first second with
    | some c => .char c :: joinParts rest
    | none => first :: joinParts (.escaped second :: rest)
  | part :: rest => part.point :: joinParts rest

/-- The parts of a string up to its closing mark, and the source after it. Control characters have to be escaped. -/
def scanParts (quote : Char) : List CodePoint → Option (List StringPart × List CodePoint)
  | [] => none
  | .char '\\' :: .char 'u' :: .char a :: .char b :: .char c :: .char d :: rest => do
    let unit ← hexUnit? a b c d
    let (parts, rest) ← scanParts quote rest
    return (.escaped (.ofNat unit) :: parts, rest)
  | .char '\\' :: .char c :: rest => do
    let code ← escape? quote c
    let (parts, rest) ← scanParts quote rest
    return (.escaped (.ofNat code) :: parts, rest)
  | point :: rest =>
    if point = .char quote then some ([], rest)
    else if point.is fun c => c == '\\' || c.toNat < 0x20 then none
    else do
      let (parts, rest) ← scanParts quote rest
      return (.plain point :: parts, rest)

/-- A string in single or double quotation marks. -/
def scanString (source : List CodePoint) : Option (List CodePoint × List CodePoint) :=
  match source with
  | .char quote :: rest =>
    if isPlainQuote quote then (scanParts quote rest).map fun (parts, rest) => (joinParts parts, rest) else none
  | _ => none

/-- A key of a record with the colon after it. -/
def scanKey (source : List CodePoint) : Option (List CodePoint × List CodePoint) := do
  let word := (scanText readWord source).map (Prod.map CodePoint.ofText id)
  let (key, rest) ← (scanString source).or word
  match scanSpace rest with
  | .char ':' :: rest => return (key, rest)
  | _ => none

/-- The source after a closing delimiter, which may have a comma before it. -/
def scanClose (closing : Char) (source : List CodePoint) : Option (List CodePoint) :=
  match scanSpace source with
  | [] => none
  | point :: rest =>
    if point = .char closing then some rest
    else if point = .char ',' then
      match scanSpace rest with
      | [] => none
      | point :: rest => if point = .char closing then some rest else none
    else none

/-- The source after a comma. -/
def scanComma (source : List CodePoint) : Option (List CodePoint) :=
  match scanSpace source with
  | .char ',' :: rest => some rest
  | _ => none

mutual

/-- A value and the source after it. -/
def scanValue : (fuel : Nat) → List CodePoint → Option (Literal × List CodePoint)
  | 0, _ => none
  | fuel + 1, source =>
    match scanSpace source with
    | .char c :: rest =>
      if c = '[' then
        match scanClose ']' rest with
        | some rest => some (.list [], rest)
        | none => (scanItems fuel rest).map fun (items, rest) => (.list items, rest)
      else if c = '{' then
        match scanClose '}' rest with
        | some rest => some (.record [], rest)
        | none => (scanFields fuel [] rest).map fun (fields, rest) => (.record fields, rest)
      else if isPlainQuote c then
        (scanString (.char c :: rest)).map fun (value, rest) => (.string value, rest)
      else if isWordStart c then do
        let (word, rest) ← scanText readWord (.char c :: rest)
        let value ← keyword? word
        return (value, rest)
      else scanText readNumber (.char c :: rest)
    | _ => none

/-- The items of a list that has at least one, and the source after the list. -/
def scanItems : (fuel : Nat) → List CodePoint → Option (List Literal × List CodePoint)
  | 0, _ => none
  | fuel + 1, source => do
    let (item, rest) ← scanValue fuel source
    match scanClose ']' rest with
    | some rest => return ([item], rest)
    | none => do
      let rest ← scanComma rest
      let (items, rest) ← scanItems fuel rest
      return (item :: items, rest)

/-- The fields of a record that has at least one more, put into those already read, and the source after the
record. -/
def scanFields : (fuel : Nat) → List (List CodePoint × Literal) → List CodePoint →
    Option (List (List CodePoint × Literal) × List CodePoint)
  | 0, _, _ => none
  | fuel + 1, fields, source => do
    let (key, rest) ← scanKey (scanSpace source)
    let (value, rest) ← scanValue fuel rest
    let fields := setField key value fields
    match scanClose '}' rest with
    | some rest => return (fields, rest)
    | none => do
      let rest ← scanComma rest
      scanFields fuel fields rest

end

/-- The literal that a source is, with white space around it. Every level of nesting takes a character and uses
two steps of the fuel, so the fuel never runs out. -/
def parseSource? (source : List CodePoint) : Option Literal := do
  let (value, rest) ← scanValue (2 * source.length + 2) source
  if (scanSpace rest).isEmpty then return value else none

/-- The literal that a text is. -/
def parse? (source : Text) : Option Literal := parseSource? (CodePoint.ofText source)

end AngularUplift.Literal
