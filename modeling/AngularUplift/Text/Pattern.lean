import AngularUplift.Text.Reader

/-!
# Occurrences of a pattern

A pattern says what may stand to the left of an occurrence and how an occurrence is read. Scanning a text
for a pattern cuts it into pieces: the occurrences, taken from the left and not overlapping, and the
characters between them. Everything else here is read off those pieces.

## Main definitions

* `Pattern`: a left context and a reader.
* `Pattern.pieces`: the text cut into occurrences and single characters.
* `Pattern.occurrences`, `Pattern.find?`: where the occurrences are.
* `Pattern.replace`: the text with every occurrence exchanged.

## Main statements

* `Pattern.source_pieces`: the pieces put together again are the text.
-/

namespace AngularUplift

/-- What may stand to the left of an occurrence, and how an occurrence is read. -/
structure Pattern (α : Type) where
  /-- Decides, from the characters before a position, nearest first, and the text from that position on,
  whether an occurrence may begin there. -/
  left : Text → Text → Bool
  /-- Reads an occurrence. -/
  read : Reader α

/-- An occurrence of a pattern in a text. -/
structure Occurrence (α : Type) where
  /-- The position of its first character. -/
  start : Nat
  /-- The position just past its last character. -/
  stop : Nat
  /-- What was read. -/
  value : α
deriving Repr

/-- A piece of a text that was scanned for a pattern. -/
inductive Piece (α : Type) where
  /-- A character outside every occurrence. -/
  | plain (c : Char)
  /-- An occurrence. -/
  | found (text : Text) (value : α)

/-- The text a piece was cut from. -/
def Piece.source {α : Type} : Piece α → Text
  | .plain c => [c]
  | .found text _ => text

/-! ### Left contexts -/

/-- Any left context. -/
def anywhere (_ _ : Text) : Bool := true

/-- No character of the class stands directly before. -/
def notAfter (p : Char → Bool) (before _ : Text) : Bool := !(before.head?.any p)

/-- The beginning of a line. -/
def lineStart (before _ : Text) : Bool := before.head?.all (· == '\n')

/-- A word begins or ends here: exactly one of the two neighbouring characters is a word character. -/
def wordEdge (before after : Text) : Bool := (before.head?.any isWord) != (after.head?.any isWord)

/-- The characters after which a name is part of a longer name or a member of something else. -/
def isMemberContext (c : Char) : Bool := isName c || c == '.'

/-- A name that begins here is a whole name and no member. -/
def freeName : Text → Text → Bool := notAfter isMemberContext

namespace Pattern

variable {α β : Type}

/-- An occurrence that begins here: its length and what was read. -/
def at? (p : Pattern α) (before after : Text) : Option (Nat × α) :=
  if p.left before after then
    (p.read after).map fun (value, rest) => (after.length - rest.length, value)
  else none

/-- The pieces of a text, given the characters before it and how many characters of the last occurrence
are still to be passed over. An empty occurrence is recorded and the character after it is a piece of
its own. -/
def piecesFrom (p : Pattern α) (before : Text) : (skip : Nat) → Text → List (Piece α)
  | _ + 1, [] => []
  | 0, [] =>
    match p.at? before [] with
    | some (_, value) => [.found [] value]
    | none => []
  | skip + 1, c :: cs => piecesFrom p (c :: before) skip cs
  | 0, c :: cs =>
    match p.at? before (c :: cs) with
    | none => .plain c :: piecesFrom p (c :: before) 0 cs
    | some (0, value) => .found [] value :: .plain c :: piecesFrom p (c :: before) 0 cs
    | some (n + 1, value) => .found (c :: cs.take n) value :: piecesFrom p (c :: before) n cs

/-- The text cut into occurrences and the characters between them. -/
def pieces (p : Pattern α) (text : Text) : List (Piece α) := piecesFrom p [] 0 text

/-- The occurrences among pieces that begin at a position. -/
def locate (position : Nat) : List (Piece α) → List (Occurrence α)
  | [] => []
  | .plain _ :: rest => locate (position + 1) rest
  | .found text value :: rest =>
    ⟨position, position + text.length, value⟩ :: locate (position + text.length) rest

/-- The occurrences in a text, from the left and not overlapping. -/
def occurrences (p : Pattern α) (text : Text) : List (Occurrence α) := locate 0 (p.pieces text)

/-- The first occurrence that begins at or after position `least`, given the characters before the text and
their number. -/
def findFrom (p : Pattern α) (least : Nat) (before : Text) (position : Nat) :
    Text → Option (Occurrence α)
  | [] =>
    if position < least then none
    else (p.at? before []).map fun (n, value) => ⟨position, position + n, value⟩
  | c :: cs =>
    match (if position < least then none else p.at? before (c :: cs)) with
    | some (n, value) => some ⟨position, position + n, value⟩
    | none => findFrom p least (c :: before) (position + 1) cs

/-- The first occurrence in a text. -/
def find? (p : Pattern α) (text : Text) : Option (Occurrence α) := findFrom p 0 [] 0 text

/-- Whether the pattern occurs. -/
def occursIn (p : Pattern α) (text : Text) : Bool := (p.find? text).isSome

/-- An occurrence that begins at the given position. -/
def foundAt? (p : Pattern α) (text : Text) (position : Nat) : Option (Occurrence α) :=
  if text.length < position then none
  else
    (p.at? (text.take position).reverse (text.drop position)).map fun (n, value) =>
      ⟨position, position + n, value⟩

/-- What becomes of a piece when occurrences are exchanged. -/
def exchange (f : Text → α → Text) : Piece α → Text
  | .plain c => [c]
  | .found text value => f text value

/-- The text with every occurrence exchanged for what `f` makes of its text and value. -/
def replaceWith (p : Pattern α) (f : Text → α → Text) (text : Text) : Text :=
  (p.pieces text).flatMap (exchange f)

/-- The text with every occurrence exchanged for a fixed text. -/
def replace (p : Pattern α) (replacement : Text) (text : Text) : Text :=
  p.replaceWith (fun _ _ => replacement) text

/-- The text from a position on, with the occurrences in it exchanged for what `f` makes of them. -/
def splice (f : Occurrence α → Text) (text : Text) (position : Nat) : List (Occurrence α) → Text
  | [] => text.drop position
  | found :: rest => text.slice position found.start ++ f found ++ splice f text found.stop rest

/-- The text with every occurrence exchanged for what `f` makes of it and of the place where it stands. -/
def replaceFound (p : Pattern α) (f : Occurrence α → Text) (text : Text) : Text :=
  splice f text 0 (p.occurrences text)

/-- The text without the occurrences. -/
def erase (p : Pattern α) (text : Text) : Text := p.replace [] text

/-- The text without the first occurrence. -/
def eraseFirst (p : Pattern α) (text : Text) : Text :=
  match p.find? text with
  | none => text
  | some found => text.take found.start ++ text.drop found.stop

/-- The pieces of a text, put together, are what remains of it after the characters passed over. -/
theorem source_piecesFrom (p : Pattern α) (before : Text) (skip : Nat) (text : Text) :
    (p.piecesFrom before skip text).flatMap Piece.source = text.drop skip := by
  induction text generalizing before skip with
  | nil =>
    cases skip with
    | zero =>
      simp only [piecesFrom, List.drop_nil]
      split <;> simp [Piece.source]
    | succ n => simp [piecesFrom]
  | cons c cs ih =>
    cases skip with
    | zero =>
      rw [piecesFrom.eq_def]
      simp only
      split
      · simp [Piece.source, ih]
      · simp [Piece.source, ih]
      · simp [Piece.source, ih, List.take_append_drop]
    | succ n => simp [piecesFrom, ih]

/-- The pieces of a text, put together again, are the text. -/
theorem source_pieces (p : Pattern α) (text : Text) :
    (p.pieces text).flatMap Piece.source = text := by
  simp [pieces, source_piecesFrom]

end Pattern

end AngularUplift
