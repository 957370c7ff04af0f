import AngularUplift.Files.Utf8
import AngularUplift.Yaml.Scalar

/-!
# Cutting YAML into tokens

A text is cut into tokens from the left. What a token is depends on how deep it stands in brackets and braces, on
the indentation of the lists and mappings in block form around it, and on whether a key may begin there. A key is
only known by the colon after it, on the same line and not too far away; until then it is a candidate.

## Main definitions

* `Yaml.Lexer`: the tokens so far, the place in the text, and what the next token depends on.
* `Yaml.Lexer.step`: one token more.
* `Yaml.tokens`: the tokens of a text.
-/

namespace AngularUplift.Yaml

/-- What may turn out to be a key. -/
structure KeyCandidate where
  /-- How many tokens come before it. -/
  place : Nat
  /-- Whether it has to be a key. -/
  isRequired : Bool
  /-- Where it begins. -/
  cursor : Cursor
deriving DecidableEq, Repr

/-- A text that is being cut into tokens. -/
structure Lexer where
  /-- The place in the text. -/
  cursor : Cursor
  /-- The tokens so far, the last one first. -/
  found : List Token := []
  /-- How many brackets and braces are open. -/
  depth : Nat := 0
  /-- The least column of what is part of the innermost list or mapping in block form. -/
  margin : Nat := 0
  /-- The margins of those around it. -/
  margins : List Nat := []
  /-- Whether a key may begin here. -/
  allowsKey : Bool := true
  /-- The candidates, with their depths. -/
  candidates : List (Nat × KeyCandidate) := []
deriving DecidableEq, Repr

namespace Lexer

/-- A step of cutting. -/
abbrev Step := Except Refusal Lexer

/-- The lexer with one token more. -/
def emit (token : Token) (l : Lexer) : Lexer := { l with found := token :: l.found }

/-- The lexer after a number of characters. -/
def forward (count : Nat) (l : Lexer) : Lexer := { l with cursor := l.cursor.forward count }

/-- The lexer with the rest of its text. -/
def upTo (rest : Text) (l : Lexer) : Lexer := { l with cursor := l.cursor.upTo rest }

/-- Whether the lexer is inside brackets or braces. -/
def inFlow (l : Lexer) : Bool := l.depth != 0

/-! ### Candidates for keys -/

/-- A key is at most this many characters away from its colon. -/
def longestKey : Nat := 1024

/-- Whether it is too late for a candidate to be a key. -/
def isStale (l : Lexer) (candidate : KeyCandidate) : Bool :=
  candidate.cursor.line != l.cursor.line || longestKey < l.cursor.index - candidate.cursor.index

/-- The lexer without the candidates for which it is too late. -/
def dropStale (l : Lexer) : Step :=
  if l.candidates.any fun (_, candidate) => candidate.isRequired && l.isStale candidate then
    .error .malformed
  else .ok { l with candidates := l.candidates.filter fun (_, candidate) => !l.isStale candidate }

/-- The lexer without the candidate of the current depth. -/
def dropCandidate (l : Lexer) : Step :=
  if (l.candidates.lookup l.depth).any (·.isRequired) then .error .malformed
  else .ok { l with candidates := l.candidates.filter fun (depth, _) => depth != l.depth }

/-- The lexer with what comes next as a candidate, where a key may begin. -/
def saveCandidate (l : Lexer) : Step := do
  if l.allowsKey then
    let l ← l.dropCandidate
    let candidate : KeyCandidate :=
      { place := l.found.length
        isRequired := !l.inFlow && l.margin == l.cursor.column + 1
        cursor := l.cursor }
    return { l with candidates := (l.depth, candidate) :: l.candidates }
  else return l

/-! ### Indentation -/

/-- The margins after all lists and mappings in block form end whose margin is greater than `least`, and how many
of them end. -/
def closeBlocks (least : Nat) : (margin : Nat) → (margins : List Nat) → Nat × Nat × List Nat
  | margin, [] => (0, margin, [])
  | margin, outer :: margins =>
    if least < margin then
      let (count, margin, margins) := closeBlocks least outer margins
      (count + 1, margin, margins)
    else (0, margin, outer :: margins)

/-- The lexer after all lists and mappings in block form end whose margin is greater than `least`. Inside brackets
and braces none ends. -/
def unwind (least : Nat) (l : Lexer) : Lexer :=
  if l.inFlow then l
  else
    let (count, margin, margins) := closeBlocks least l.margin l.margins
    { l with margin, margins, found := List.replicate count .blockStop ++ l.found }

/-- The lexer with a list or mapping in block form at a column, and whether it is a new one. -/
def indentTo (column : Nat) (l : Lexer) : Bool × Lexer :=
  if l.margin < column + 1 then (true, { l with margin := column + 1, margins := l.margin :: l.margins })
  else (false, l)

/-- The lexer at an item, a key or a value in block form, where one may begin. -/
def enterBlock (start : Token) (l : Lexer) : Step :=
  if l.inFlow then .ok l
  else if !l.allowsKey then .error .malformed
  else
    let (isNew, l) := l.indentTo l.cursor.column
    .ok (if isNew then l.emit start else l)

/-! ### White space -/

/-- How many characters of white space and comments a text begins with, and whether there is a line break among
them. -/
def spaceLength : (inComment : Bool) → Text → Nat × Bool
  | _, [] => (0, false)
  | inComment, c :: rest =>
    if isBreak c then ((spaceLength false rest).1 + 1, true)
    else if inComment || c == ' ' || c == '#' then
      let (count, crossesLine) := spaceLength (inComment || c == '#') rest
      (count + 1, crossesLine)
    else (0, false)

/-- The lexer at the next token. -/
def skipSpace (l : Lexer) : Lexer :=
  let l := if l.cursor.index = 0 ∧ l.cursor.rest.head? = some orderMark then l.forward 1 else l
  let (count, crossesLine) := spaceLength false l.cursor.rest
  { l.forward count with allowsKey := l.allowsKey || (crossesLine && !l.inFlow) }

/-! ### Tokens of several characters -/

/-- The number of digits that a text begins with, and the text after them. -/
def number? (text : Text) : Option (Nat × Text) :=
  let digits := text.takeWhile isDecimal
  if digits.isEmpty then none
  else some (Text.ofDigits 10 (digits.map fun c => c.toNat - '0'.toNat), text.dropWhile isDecimal)

/-- Whether a directive may end here. -/
def endsDirective (text : Text) : Bool := text.head?.all fun c => c == ' ' || isBreak c

/-- The version of a directive, and the text after it. -/
def version? (text : Text) : Option (Token × Text) := do
  let (major, rest) ← number? (text.dropWhile (· == ' '))
  match rest with
  | '.' :: rest =>
    let (_, rest) ← number? rest
    if endsDirective rest then some (.version major, rest) else none
  | _ => none

/-- The handle of a tag, and the text after it. -/
def handle? : Text → Option (Text × Text)
  | '!' :: rest =>
    if rest.head? = some ' ' then some (['!'], rest)
    else
      match rest.dropWhile isHandleChar with
      | '!' :: after => some (['!'] ++ rest.takeWhile isHandleChar ++ ['!'], after)
      | _ => none
  | _ => none

/-- The octets that a text begins with, each written with a percent sign and two hexadecimal digits. -/
def percentOctets : Text → Option (List UInt8 × Text)
  | '%' :: a :: b :: rest => do
    let high ← Literal.hexDigit? a
    let low ← Literal.hexDigit? b
    let (octets, rest) ← percentOctets rest
    return (UInt8.ofNat (16 * high + low) :: octets, rest)
  | '%' :: _ => none
  | rest => some ([], rest)

/-- The characters of a tag that a text begins with, and the text after them; `fuel` bounds their number. -/
def tagText? : (fuel : Nat) → Text → Option (Text × Text)
  | 0, text => some ([], text)
  | _ + 1, [] => some ([], [])
  | fuel + 1, c :: rest =>
    if !isTagChar c then some ([], c :: rest)
    else if c = '%' then do
      let (octets, rest) ← percentOctets (c :: rest)
      let decoded ← (Utf8.decode octets).mapM id
      let (more, rest) ← tagText? fuel rest
      return (decoded ++ more, rest)
    else (tagText? fuel rest).map fun (more, rest) => (c :: more, rest)

/-- The characters of a tag, of which there is at least one, and the text after them. -/
def tagSuffix? (text : Text) : Option (Text × Text) :=
  (tagText? text.length text).filter fun (suffix, _) => !suffix.isEmpty

/-- The handle of a directive with what it stands for, and the text after it. -/
def tagHandle? (text : Text) : Option (Token × Text) := do
  let (handle, rest) ← handle? (text.dropWhile (· == ' '))
  if rest.head? = some ' ' then
    let (beginning, rest) ← tagSuffix? (rest.dropWhile (· == ' '))
    if endsDirective rest then some (.tagHandle handle beginning, rest) else none
  else none

/-- A directive, from after its percent sign on, and the text from the next line on. -/
def directive? (text : Text) : Option (Token × Text) := do
  let name := text.takeWhile isHandleChar
  let rest := text.dropWhile isHandleChar
  if name.isEmpty ∨ !endsDirective rest then none
  let (token, rest) ←
    if name = txt "YAML" then version? rest
    else if name = txt "TAG" then tagHandle? rest
    else some (.otherDirective, rest.dropWhile (!isBreak ·))
  let rest ← afterComment? rest
  return (token, rest)

/-- The name of an anchor or a reference, and the text after it. -/
def anchorName? (text : Text) : Option (Text × Text) :=
  let name := text.takeWhile isHandleChar
  let rest := text.dropWhile isHandleChar
  if name.isEmpty then none
  else if rest.head?.all fun c => isWhite c || (txt "?:,]\x7d%@`").elem c then some (name, rest)
  else none

/-- A tag, from after its exclamation mark on, and the text after it. -/
def tag? (text : Text) : Option (WrittenTag × Text) := do
  let (written, rest) ← match text with
    | '<' :: rest => do
      let (suffix, rest) ← tagSuffix? rest
      if rest.head? = some '>' then some (⟨none, suffix⟩, rest.drop 1) else none
    | text =>
      if text.head?.all isWhite then some (⟨none, ['!']⟩, text)
      else if (text.takeWhile fun c => c != ' ' && !isBreak c).elem '!' then do
        let (handle, rest) ← handle? ('!' :: text)
        let (suffix, rest) ← tagSuffix? rest
        some (⟨some handle, suffix⟩, rest)
      else do
        let (suffix, rest) ← tagSuffix? text
        some (⟨some ['!'], suffix⟩, rest)
  if rest.head?.all fun c => c == ' ' || isBreak c then some (written, rest) else none

/-! ### Steps -/

/-- Cuts off a token that is not part of a list or mapping: a directive or a mark between documents. -/
def outside (l : Lexer) : Step := do
  let l := l.unwind 0
  let l ← l.dropCandidate
  return { l with allowsKey := false }

/-- Cuts off an opening bracket or brace. -/
def enterFlow (token : Token) (l : Lexer) : Step := do
  let l ← l.saveCandidate
  return { (l.forward 1).emit token with depth := l.depth + 1, allowsKey := true }

/-- Cuts off a closing bracket or brace, of which there are no more than opening ones. -/
def leaveFlow (token : Token) (l : Lexer) : Step := do
  let l ← l.dropCandidate
  if l.depth = 0 then throw .malformed
  return { (l.forward 1).emit token with depth := l.depth - 1, allowsKey := false }

/-- Cuts off a comma. -/
def comma (l : Lexer) : Step := do
  let l ← l.dropCandidate
  return { (l.forward 1).emit .comma with allowsKey := true }

/-- Cuts off the dash of an item. -/
def dash (l : Lexer) : Step := do
  let l ← l.enterBlock .blockListStart
  let l ← l.dropCandidate
  return { (l.forward 1).emit .dash with allowsKey := true }

/-- Cuts off the mark of a key. -/
def keyMark (l : Lexer) : Step := do
  let l ← l.enterBlock .blockMappingStart
  let l ← l.dropCandidate
  return { (l.forward 1).emit .keyMark with allowsKey := !l.inFlow }

/-- The lexer with tokens put in where a number of tokens come before. -/
def insertAt (place : Nat) (tokens : List Token) (l : Lexer) : Lexer :=
  let later := l.found.length - place
  { l with found := l.found.take later ++ tokens.reverse ++ l.found.drop later }

/-- Cuts off the mark of a value. The candidate before it, if there is one, is its key. -/
def valueMark (l : Lexer) : Step := do
  match l.candidates.lookup l.depth with
  | some candidate =>
    let l := { l with candidates := l.candidates.filter fun (depth, _) => depth != l.depth }
    let (isNew, l) := if l.inFlow then (false, l) else l.indentTo candidate.cursor.column
    let l := l.insertAt candidate.place (if isNew then [.blockMappingStart, .keyMark] else [.keyMark])
    return { (l.forward 1).emit .valueMark with allowsKey := false }
  | none =>
    let l ← l.enterBlock .blockMappingStart
    let l ← l.dropCandidate
    return { (l.forward 1).emit .valueMark with allowsKey := !l.inFlow }

/-- Cuts off a token that may be a key or belong to one. -/
def within (l : Lexer) (token : Option (Token × Text)) : Step := do
  let l ← l.saveCandidate
  match token with
  | none => throw .malformed
  | some (token, rest) => return { (l.upTo rest).emit token with allowsKey := false }

/-- Cuts off a scalar in quotes. -/
def quoted (double : Bool) (l : Lexer) : Step := do
  let l ← l.saveCandidate
  let (text, rest) ← readQuoted double (l.cursor.rest.drop 1)
  return { (l.upTo rest).emit (.scalar text false) with allowsKey := false }

/-- Cuts off a scalar in block form. -/
def block (isFolded : Bool) (l : Lexer) : Step := do
  let l ← l.dropCandidate
  match readBlock isFolded (max l.margin 1) (l.cursor.rest.drop 1) with
  | none => throw .malformed
  | some (text, rest) => return { (l.upTo rest).emit (.scalar text false) with allowsKey := true }

/-- Cuts off a plain scalar. -/
def plain (l : Lexer) : Step := do
  let l ← l.saveCandidate
  let scalar := readPlain l.inFlow l.margin l.cursor
  return { l.emit (.scalar scalar.text true) with cursor := scalar.cursor, allowsKey := scalar.crossesLine }

/-- The characters that a plain scalar cannot begin with, or only when no white space follows. -/
def isIndicator (c : Char) : Bool := (txt "-?:,[]\x7b\x7d#&*!|>'\"%@`").elem c

/-- Whether a plain scalar begins here. -/
def startsPlain (l : Lexer) (c : Char) (rest : Text) : Bool :=
  !(isWhite c || isIndicator c) ||
    (!(rest.head?.all isWhite) && (c == '-' || (!l.inFlow && (c == '?' || c == ':'))))

/-- Cuts off the token that begins with a character. -/
def token (l : Lexer) (c : Char) (rest : Text) : Step :=
  let spaced := rest.head?.all isWhite
  let atStart := l.cursor.column == 0
  if c == '%' && atStart then do
    let l ← l.outside
    match directive? rest with
    | none => throw .malformed
    | some (token, rest) => return (l.upTo rest).emit token
  else if atStart && isDocumentMark '-' (c :: rest) then
    (fun l => (forward 3 l).emit .documentStart) <$> l.outside
  else if atStart && isDocumentMark '.' (c :: rest) then
    (fun l => (forward 3 l).emit .documentStop) <$> l.outside
  else if c == '[' then l.enterFlow .openBracket
  else if c == '{' then l.enterFlow .openBrace
  else if c == ']' then l.leaveFlow .closeBracket
  else if c == '}' then l.leaveFlow .closeBrace
  else if c == ',' then l.comma
  else if c == '-' && spaced then l.dash
  else if c == '?' && (l.inFlow || spaced) then l.keyMark
  else if c == ':' && (l.inFlow || spaced) then l.valueMark
  else if c == '*' then l.within ((anchorName? rest).map fun (name, rest) => (.reference name, rest))
  else if c == '&' then l.within ((anchorName? rest).map fun (name, rest) => (.anchor name, rest))
  else if c == '!' then l.within ((tag? rest).map fun (written, rest) => (.tag written, rest))
  else if (c == '|' || c == '>') && !l.inFlow then l.block (c == '>')
  else if c == '\'' || c == '"' then l.quoted (c == '"')
  else if l.startsPlain c rest then l.plain
  else .error .malformed

/-- One token more. -/
def step (l : Lexer) : Step := do
  let l ← l.skipSpace.dropStale
  let l := l.unwind (l.cursor.column + 1)
  match l.cursor.rest with
  | [] =>
    let l ← l.outside
    return l.emit .finish
  | c :: rest => l.token c rest

/-- The tokens that are settled: those before the first candidate. -/
def settled (l : Lexer) : List Token :=
  match l.dropStale with
  | .error _ => l.found.reverse
  | .ok l =>
    let place := l.candidates.foldl (fun least (_, candidate) => min least candidate.place) l.found.length
    l.found.reverse.take place

/-- The tokens up to the end of the text, or up to what cannot be cut into tokens; `fuel` bounds the number of
steps. -/
def run : (fuel : Nat) → Lexer → List Token
  | 0, l => l.found.reverse ++ [.refused .malformed]
  | fuel + 1, l =>
    match l.step with
    | .error refusal => l.settled ++ [.refused refusal]
    | .ok next => if next.found.head? = some .finish then next.found.reverse else run fuel next

end Lexer

/-- The tokens of a text. Every step but the last one takes at least one character. -/
def tokens (text : Text) : List Token :=
  if text.all isPrintable then Lexer.run (text.length + 1) { cursor := { rest := text } }
  else [.refused .malformed]

end AngularUplift.Yaml
