import AngularUplift.Text.Class

/-!
# Comments

Cutting source text into code, line comments and block comments. A comment mark inside a string literal is
code, `//` directly after `:` or a backslash belongs to an address or an escaped slash, and a block comment
that is never closed is code.

## Main definitions

* `Lexeme`: a character of code, a line comment or a block comment.
* `Lexeme.scan`: the lexemes of a text, which make up the whole of it.
* `stripComments`, `blockComments`: the code without its comments, and the block comments.
-/

namespace AngularUplift

/-- A piece of source text, as far as comments are concerned. -/
inductive Lexeme where
  /-- A character of code. -/
  | code (c : Char)
  /-- A line comment, without the line break after it. -/
  | lineComment (text : Text)
  /-- A block comment with its marks. -/
  | blockComment (text : Text)
deriving DecidableEq, Repr

/-- Where the scan stands. -/
inductive CommentState where
  /-- In plain code, after the given character. -/
  | plain (previous : Option Char)
  /-- In a string literal that the given mark will close. -/
  | literal (quote : Char)
  /-- In a string literal, after a backslash. -/
  | escaped (quote : Char)
  /-- In a comment of which this many more characters are passed over. -/
  | inside (left : Nat)
deriving DecidableEq, Repr

namespace Lexeme

/-- The text of a lexeme. -/
def source : Lexeme → Text
  | .code c => [c]
  | .lineComment text => text
  | .blockComment text => text

/-- A block comment at the beginning of a text. -/
def blockCommentAt? : Text → Option Text
  | '/' :: '*' :: rest => (Text.indexOf? (txt "*/") rest).map fun n => '/' :: '*' :: rest.take (n + 2)
  | _ => none

/-- A line comment at the beginning of a text, given the character before it. -/
def lineCommentAt? (previous : Option Char) : Text → Option Text
  | '/' :: '/' :: rest =>
    if previous == some ':' || previous == some '\\' then none
    else some ('/' :: '/' :: rest.takeWhile fun c => c != '\r' && c != '\n')
  | _ => none

/-- The lexemes of a text from a state of the scan. -/
def scanFrom : CommentState → Text → List Lexeme
  | _, [] => []
  | .inside (left + 1), c :: cs =>
    -- The character after a comment stands directly after the comment's last character.
    scanFrom (if left = 0 then .plain (some c) else .inside left) cs
  | .escaped quote, c :: cs => .code c :: scanFrom (.literal quote) cs
  | .literal quote, c :: cs =>
    .code c :: scanFrom
      (if c = '\\' then .escaped quote else if c = quote then .plain (some c) else .literal quote) cs
  | .inside 0, c :: cs => .code c :: scanFrom (.plain (some c)) cs
  | .plain previous, c :: cs =>
    if isQuote c then .code c :: scanFrom (.literal c) cs
    else
      match blockCommentAt? (c :: cs) with
      | some comment => .blockComment comment :: scanFrom (.inside (comment.length - 1)) cs
      | none =>
        match lineCommentAt? previous (c :: cs) with
        | some comment => .lineComment comment :: scanFrom (.inside (comment.length - 1)) cs
        | none => .code c :: scanFrom (.plain (some c)) cs

/-- The lexemes of a text. -/
def scan (text : Text) : List Lexeme := scanFrom (.plain none) text

/-- The character of a code lexeme. -/
def code? : Lexeme → Option Char
  | .code c => some c
  | _ => none

/-- The text of a block comment. -/
def blockComment? : Lexeme → Option Text
  | .blockComment text => some text
  | _ => none

end Lexeme

namespace Text

/-- The text without its comments. -/
def stripComments (text : Text) : Text := (Lexeme.scan text).filterMap Lexeme.code?

/-- The block comments of a text, in order. -/
def blockComments (text : Text) : List Text := (Lexeme.scan text).filterMap Lexeme.blockComment?

end Text

end AngularUplift
