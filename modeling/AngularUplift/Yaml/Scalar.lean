import AngularUplift.Literal.Reader
import AngularUplift.Yaml.Character
import AngularUplift.Yaml.Token

/-!
# Scalars of YAML

A scalar is written in one of three ways: plain, in quotes, or in block form after a bar or an angle bracket. Over
several lines a plain or quoted scalar is folded: a single line break becomes a space, and of several the first
is dropped.

## Main definitions

* `Yaml.readPlain`: a plain scalar.
* `Yaml.readQuoted`: a scalar in quotes.
* `Yaml.readBlock`: a scalar in block form.
-/

namespace AngularUplift.Yaml

/-- What a line break and the line breaks after it are folded to. -/
def folded (first : Char) (others : Text) : Text :=
  if breakChar first ≠ '\n' then breakChar first :: others
  else if others.isEmpty then [' ']
  else others

/-! ### Plain scalars -/

/-- How many characters a plain scalar goes on without white space. It ends before a colon that marks a value,
and inside brackets and braces also before their marks. -/
def plainLength (inFlow : Bool) : Text → Nat
  | [] => 0
  | c :: rest =>
    if isWhite c || (c == ':' && rest.head?.all fun d => isWhite d || (inFlow && isFlowMark d)) ||
        (inFlow && (isFlowMark c || c == '?')) then 0
    else plainLength inFlow rest + 1

/-- The line breaks that follow a line break inside a plain scalar, and the text after them. There are none when
a mark between documents comes. -/
def plainBreaks : Text → Option Text × Text
  | [] => (some [], [])
  | c :: rest =>
    if c = ' ' then plainBreaks rest
    else if isBreak c then
      if isAnyDocumentMark rest then (none, rest)
      else
        let (others, rest) := plainBreaks rest
        (others.map (breakChar c :: ·), rest)
    else (some [], c :: rest)

/-- What follows a part of a plain scalar. -/
structure PlainGap where
  /-- What the white space stands for, if the scalar can go on after it. -/
  text : Option Text
  /-- The text after the white space. -/
  rest : Text
  /-- Whether there is a line break in it. -/
  crossesLine : Bool

/-- The white space after a part of a plain scalar. -/
def plainGap (text : Text) : PlainGap :=
  let spaces := text.takeWhile (· == ' ')
  match text.dropWhile (· == ' ') with
  | [] => ⟨if spaces.isEmpty then none else some spaces, [], false⟩
  | c :: rest =>
    if isBreak c then
      if isAnyDocumentMark rest then ⟨none, rest, true⟩
      else
        let (others, rest) := plainBreaks rest
        ⟨others.map (folded c), rest, true⟩
    else ⟨if spaces.isEmpty then none else some spaces, c :: rest, false⟩

/-- A plain scalar: what it stands for, the place after it, and whether the white space after it, which belongs
to it, has a line break. -/
structure PlainScalar where
  /-- What it stands for. -/
  text : Text
  /-- The place after it. -/
  cursor : Cursor
  /-- Whether there is a line break after its last part. -/
  crossesLine : Bool

/-- A plain scalar, part by part. Outside brackets and braces it goes on only in columns from `margin` on. -/
def plainFrom (inFlow : Bool) (margin : Nat) : (fuel : Nat) → PlainScalar → (gap : Text) → PlainScalar
  | 0, scalar, _ => scalar
  | fuel + 1, scalar, gap =>
    let count := if scalar.cursor.rest.head? = some '#' then 0 else plainLength inFlow scalar.cursor.rest
    if count = 0 then scalar
    else
      let text := scalar.text ++ gap ++ scalar.cursor.rest.take count
      let cursor := scalar.cursor.forward count
      let found := plainGap cursor.rest
      let scalar : PlainScalar := ⟨text, cursor.upTo found.rest, found.crossesLine⟩
      match found.text with
      | none => scalar
      | some gap =>
        if found.rest.head? = some '#' ∨ (!inFlow ∧ scalar.cursor.column < margin) then scalar
        else plainFrom inFlow margin fuel scalar gap

/-- The plain scalar at a place. -/
def readPlain (inFlow : Bool) (margin : Nat) (cursor : Cursor) : PlainScalar :=
  plainFrom inFlow margin cursor.rest.length ⟨[], cursor, false⟩ []

/-! ### Quoted scalars -/

/-- The line breaks that follow a line break inside a quoted scalar, and the text after them. A mark between
documents may not begin a line. -/
def quotedBreaks : (lineStart : Bool) → Text → Option (Text × Text)
  | _, [] => some ([], [])
  | lineStart, c :: rest =>
    if lineStart && isAnyDocumentMark (c :: rest) then none
    else if isGap c then quotedBreaks false rest
    else if isBreak c then (quotedBreaks true rest).map fun (others, rest) => (breakChar c :: others, rest)
    else some ([], c :: rest)

/-- The code point that a backslash and a character stand for. -/
def escapeCode? (c : Char) : Option Nat :=
  match c with
  | '0' => some 0x00
  | 'a' => some 0x07
  | 'b' => some 0x08
  | 't' => some 0x09
  | '\t' => some 0x09
  | 'n' => some 0x0A
  | 'v' => some 0x0B
  | 'f' => some 0x0C
  | 'r' => some 0x0D
  | 'e' => some 0x1B
  | ' ' => some 0x20
  | '"' => some 0x22
  | '\\' => some 0x5C
  | '/' => some 0x2F
  | 'N' => some 0x85
  | '_' => some 0xA0
  | 'L' => some 0x2028
  | 'P' => some 0x2029
  | _ => none

/-- How many hexadecimal digits follow a backslash and a letter. -/
def escapeWidth? (c : Char) : Option Nat :=
  if c = 'x' then some 2 else if c = 'u' then some 4 else if c = 'U' then some 8 else none

/-- The code point of hexadecimal digits. -/
def codeOf (digits : Text) : Except Refusal CodePoint :=
  match digits.mapM Literal.hexDigit? with
  | none => .error .malformed
  | some values =>
    let code := Text.ofDigits 16 values
    if 0x80000000 ≤ code then .error (.invalid .codePointTooGreat)
    else if 0x10FFFF < code then .error (.invalid .beyondLastCodePoint)
    else .ok (.ofNat code)

/-- The rest of a quoted scalar from after its opening mark on; `fuel` bounds the number of its parts. -/
def quotedFrom (double : Bool) : (fuel : Nat) → Text → Except Refusal (List CodePoint × Text)
  | 0, _ => .error .malformed
  | _ + 1, [] => .error .malformed
  | fuel + 1, c :: rest => do
    let quote := if double then '"' else '\''
    if c = quote then
      match double, rest with
      | false, '\'' :: rest =>
        let (points, rest) ← quotedFrom double fuel rest
        return (.char '\'' :: points, rest)
      | _, rest => return ([], rest)
    else if double && c == '\\' then
      match rest with
      | [] => throw .malformed
      | d :: rest =>
        match escapeCode? d, escapeWidth? d with
        | some code, _ =>
          let (points, rest) ← quotedFrom double fuel rest
          return (.ofNat code :: points, rest)
        | none, some width =>
          if rest.length < width then throw .malformed
          let point ← codeOf (rest.take width)
          let (points, rest) ← quotedFrom double fuel (rest.drop width)
          return (point :: points, rest)
        | none, none =>
          if isBreak d then
            match quotedBreaks true rest with
            | none => throw .malformed
            | some (others, rest) =>
              let (points, rest) ← quotedFrom double fuel rest
              return (CodePoint.ofText others ++ points, rest)
          else throw .malformed
    else if isWhite c then
      let spaces := (c :: rest).takeWhile isGap
      match (c :: rest).dropWhile isGap with
      | [] => throw .malformed
      | d :: after =>
        if isBreak d then
          match quotedBreaks true after with
          | none => throw .malformed
          | some (others, after) =>
            let (points, after) ← quotedFrom double fuel after
            return (CodePoint.ofText (folded d others) ++ points, after)
        else
          let (points, after) ← quotedFrom double fuel (d :: after)
          return (CodePoint.ofText spaces ++ points, after)
    else
      let (points, rest) ← quotedFrom double fuel rest
      return (.char c :: points, rest)

/-- A scalar in quotes, from after its opening mark on, and the text after it. -/
def readQuoted (double : Bool) (text : Text) : Except Refusal (Text × Text) := do
  let (points, rest) ← quotedFrom double (text.length + 1) text
  return (CodePoint.toText (CodePoint.pair points), rest)

/-! ### Block scalars -/

/-- What becomes of the line breaks at the end of a scalar in block form. -/
inductive Chomping where
  /-- One of them is kept. -/
  | clip
  /-- None is kept. -/
  | strip
  /-- All are kept. -/
  | keep
deriving DecidableEq, Repr

/-- The first line of a scalar in block form. -/
structure BlockHeader where
  /-- What becomes of the last line breaks. -/
  chomping : Chomping := .clip
  /-- By how much the scalar is indented, if that is said. -/
  increment : Option Nat := none
deriving DecidableEq, Repr

/-- The chomping that a character stands for. -/
def chomping? (c : Char) : Option Chomping :=
  if c = '+' then some .keep else if c = '-' then some .strip else none

/-- The increment that a character stands for. -/
def increment? (c : Char) : Option Nat :=
  if isDecimal c then some (c.toNat - '0'.toNat) else none

/-- The indicators after the mark of a scalar in block form, in either order, and the text after them. -/
def readIndicators (text : Text) : BlockHeader × Text :=
  match text with
  | [] => ({}, [])
  | c :: rest =>
    match chomping? c, increment? c with
    | some chomping, _ =>
      match rest.head?.bind increment? with
      | some increment => ({ chomping, increment := some increment }, rest.drop 1)
      | none => ({ chomping }, rest)
    | none, some increment =>
      match rest.head?.bind chomping? with
      | some chomping => ({ chomping, increment := some increment }, rest.drop 1)
      | none => ({ increment := some increment }, rest)
    | none, none => ({}, text)

/-- The text after what is left of a line that may hold only a comment. -/
def afterComment? (text : Text) : Option Text :=
  let rest := text.dropWhile (· == ' ')
  let rest := if rest.head? = some '#' then rest.dropWhile (!isBreak ·) else rest
  match rest with
  | [] => some []
  | c :: rest => if isBreak c then some rest else none

/-- The header of a scalar in block form, from after its mark on, and the text from the next line on. -/
def readHeader (text : Text) : Option (BlockHeader × Text) := do
  let (header, rest) := readIndicators text
  if header.increment = some 0 then none
  if rest.head?.all fun c => c == ' ' || isBreak c then
    let rest ← afterComment? rest
    return (header, rest)
  else none

/-- The empty lines that a scalar in block form begins with: their breaks, the greatest column of any of them or
of the line after them, and the text from the first character that is no space. -/
def leadingLines : (column : Nat) → Text → Text × Nat × Text
  | column, [] => ([], column, [])
  | column, c :: rest =>
    if c = ' ' then leadingLines (column + 1) rest
    else if isBreak c then
      let (breaks, most, rest) := leadingLines 0 rest
      (breakChar c :: breaks, max column most, rest)
    else ([], column, c :: rest)

/-- The empty lines between two lines of a scalar that is indented by `indent`: their breaks, and the column and
the text after them and the indentation of the next line. -/
def emptyLines (indent : Nat) : (column : Nat) → Text → Text × Nat × Text
  | column, [] => ([], column, [])
  | column, c :: rest =>
    if c = ' ' ∧ column < indent then emptyLines indent (column + 1) rest
    else if isBreak c then
      let (breaks, column, rest) := emptyLines indent 0 rest
      (breakChar c :: breaks, column, rest)
    else ([], column, c :: rest)

/-- The lines of a scalar in block form. -/
structure BlockLines where
  /-- The lines, with what stands between them. -/
  text : Text
  /-- The line break after the last line. -/
  lastBreak : Text
  /-- The line breaks of the empty lines after it. -/
  emptyBreaks : Text
  /-- The text after the scalar. -/
  rest : Text

/-- The lines of a scalar in block form that is indented by `indent`, from after the indentation of a line on and
given the breaks of the empty lines before; `fuel` bounds the number of lines. -/
def blockLines (isFolded : Bool) (indent : Nat) : (fuel : Nat) → (breaks : Text) → Text → BlockLines
  | 0, breaks, text => ⟨[], [], breaks, text⟩
  | fuel + 1, breaks, text =>
    let line := text.takeWhile (!isBreak ·)
    match text.dropWhile (!isBreak ·) with
    | [] => ⟨breaks ++ line, [], [], []⟩
    | c :: rest =>
      let (next, column, rest) := emptyLines indent 0 rest
      if column = indent ∧ !rest.isEmpty then
        let isText (text : Text) : Bool := !(text.head?.any isGap)
        let between :=
          if isFolded && breakChar c == '\n' && isText text && isText rest then
            if next.isEmpty then [' '] else []
          else [breakChar c]
        let more := blockLines isFolded indent fuel next rest
        { more with text := breaks ++ line ++ between ++ more.text }
      else ⟨breaks ++ line, [breakChar c], next, rest⟩

/-- A scalar in block form, from after its mark on, and the text after it. It is indented at least by `least`. -/
def readBlock (isFolded : Bool) (least : Nat) (text : Text) : Option (Text × Text) := do
  let (header, start) ← readHeader text
  let (breaks, indent, column, rest) := match header.increment with
    | none =>
      let (breaks, most, rest) := leadingLines 0 start
      let lastLine := (start.take (start.length - rest.length)).reverse.takeWhile (· == ' ')
      (breaks, max least most, lastLine.length, rest)
    | some increment =>
      let indent := least + increment - 1
      let (breaks, column, rest) := emptyLines indent 0 start
      (breaks, indent, column, rest)
  let lines :=
    if column = indent ∧ !rest.isEmpty then blockLines isFolded indent rest.length breaks rest
    else ⟨[], [], breaks, rest⟩
  let ending := match header.chomping with
    | .strip => []
    | .clip => lines.lastBreak
    | .keep => lines.lastBreak ++ lines.emptyBreaks
  return (lines.text ++ ending, lines.rest)

end AngularUplift.Yaml
