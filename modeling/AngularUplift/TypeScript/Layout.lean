import AngularUplift.Text.Class
import AngularUplift.Text.Delimiter

/-!
# Layout of generated code

Generated code is laid out again line by line: every line is indented by the brackets that are open before it,
runs of blank lines become one, and blank lines at the beginning, at the end and after an opening bracket go.
The content of the lines and their order stay.

A line that opens several brackets at once, such as `foo(function () {`, adds a single level of indentation,
which the matching closing brackets remove again.

## Main definitions

* `LineScan`, `scanLine`: the brackets of a line, outside string literals and comments.
* `LayoutState`, `LayoutState.step`: the lines laid out so far, and the effect of one more line.
* `layout`: the laid-out code.
-/

namespace AngularUplift

/-- What the brackets of a line do to the indentation. -/
structure LineScan where
  /-- Closing brackets before anything else. -/
  leading : Nat := 0
  /-- Opening brackets. -/
  opened : Nat := 0
  /-- Closing brackets after something else. -/
  closed : Nat := 0
  /-- Whether the line leaves a block comment open. -/
  inComment : Bool := false
deriving DecidableEq, Repr

/-- Where the scan of a line stands. -/
inductive LineState where
  /-- In code; the flag tells whether only closing brackets and white space came so far. -/
  | code (atStart : Bool)
  /-- In a string literal. -/
  | literal (atStart : Bool) (quote : Char)
  /-- In a string literal, after a backslash. -/
  | escaped (atStart : Bool) (quote : Char)
  /-- In a block comment of which this many more characters are passed over. -/
  | comment (atStart : Bool) (left : Nat)
deriving DecidableEq, Repr

/-- The effect of a line from a state of the scan. A line comment ends the scan, and so does a block comment that
the line does not close. -/
def scanLineFrom (counts : LineScan) : LineState → Text → LineScan
  | _, [] => counts
  | .comment atStart (left + 1), _ :: cs =>
    scanLineFrom counts (if left = 0 then .code atStart else .comment atStart left) cs
  | .escaped atStart quote, _ :: cs => scanLineFrom counts (.literal atStart quote) cs
  | .literal atStart quote, c :: cs =>
    scanLineFrom counts
      (if c = '\\' then .escaped atStart quote
       else if c = quote then .code atStart
       else .literal atStart quote) cs
  | .comment atStart 0, _ :: cs => scanLineFrom counts (.code atStart) cs
  | .code atStart, c :: cs =>
    if Text.startsWith (c :: cs) (txt "//") then counts
    else if Text.startsWith (c :: cs) (txt "/*") then
      match Text.indexOf? (txt "*/") (cs.drop 1) with
      | none => { counts with inComment := true }
      -- Two characters of the opening mark, the content and two of the closing mark, less this one.
      | some n => scanLineFrom counts (.comment atStart (n + 3)) cs
    else
      let counts :=
        if isClosing c then
          if atStart then { counts with leading := counts.leading + 1 }
          else { counts with closed := counts.closed + 1 }
        else if isOpening c then { counts with opened := counts.opened + 1 }
        else counts
      let atStart := atStart && (isClosing c || isBlank c)
      scanLineFrom counts (if isQuote c then .literal atStart c else .code atStart) cs

/-- The effect of a line that begins outside a block comment. -/
def scanLine (line : Text) : LineScan := scanLineFrom {} (.code true) line

/-- The levels of indentation, innermost first, after closing some brackets. Each level counts the brackets that
opened it and goes when the last of them is closed. -/
def closeLevels (count : Nat) : List Nat → List Nat
  | [] => []
  | level :: rest =>
    if count = 0 then level :: rest
    else if count < level then (level - count) :: rest
    else closeLevels (count - level) rest

/-- The lines laid out so far and what the next line depends on. -/
structure LayoutState where
  /-- The lines laid out so far, last first. -/
  output : List Text := []
  /-- The open levels of indentation, innermost first. -/
  levels : List Nat := []
  /-- Whether a block comment is open. -/
  inComment : Bool := false
  /-- Whether the last line was a blank one that was kept. -/
  previousBlank : Bool := false
deriving DecidableEq, Repr

/-- Whether a line ends with an opening bracket. -/
def endsOpen (line : Text) : Bool := line.getLast?.any isOpening

namespace LayoutState

/-- The indentation of the current level. -/
def margin (state : LayoutState) (indent : Text) : Text :=
  (List.replicate state.levels.length indent).flatten

/-- The effect of a blank line: it stays unless it would come first, after another one or after an opening
bracket. -/
def blankLine (state : LayoutState) : LayoutState :=
  match state.output with
  | [] => state
  | last :: _ =>
    if state.previousBlank || endsOpen last then state
    else { state with output := [] :: state.output, previousBlank := true }

/-- The effect of a line inside a block comment: lines that begin with a star are put one space to the right. -/
def commentLine (indent : Text) (state : LayoutState) (line : Text) : LayoutState :=
  let star := if line.startsWith ['*'] then [' '] else []
  { state with
    output := (state.margin indent ++ star ++ line) :: state.output
    inComment := !line.contains (txt "*/")
    previousBlank := false }

/-- The effect of a line of code. Closing brackets at its beginning act before it is indented, and take away a
blank line before it. -/
def codeLine (indent : Text) (state : LayoutState) (line : Text) : LayoutState :=
  let scan := scanLine line
  let outer := { state with levels := closeLevels scan.leading state.levels }
  let output :=
    match state.output with
    | [] :: rest => if scan.leading = 0 then state.output else rest
    | output => output
  { output := (outer.margin indent ++ line) :: output
    levels :=
      if scan.closed < scan.opened then (scan.opened - scan.closed) :: outer.levels
      else closeLevels (scan.closed - scan.opened) outer.levels
    inComment := scan.inComment
    previousBlank := false }

/-- The effect of one more line. -/
def step (indent : Text) (state : LayoutState) (line : Text) : LayoutState :=
  match Text.trim line with
  | [] => state.blankLine
  | content => if state.inComment then state.commentLine indent content else state.codeLine indent content

end LayoutState

/-- The code laid out with the given indentation. It ends with one line break. -/
def layoutWith (indent code : Text) : Text :=
  let state := (Text.normaliseBreaks code).lines.foldl (LayoutState.step indent) {}
  Text.join ['\n'] (state.output.dropWhile (·.isEmpty)).reverse ++ ['\n']

/-- The code laid out with two spaces for each level. -/
def layout (code : Text) : Text := layoutWith (txt "  ") code

end AngularUplift
