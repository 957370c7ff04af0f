import AngularUplift.Literal.Reader
import AngularUplift.Proofs.Text.Comment

/-!
# What string literals denote

A string literal in quotation marks denotes a string, which is a sequence of code units of UTF-16. Between the marks a
character stands for itself, unless it comes after a backslash: then it may be the letter of an escape, the beginning of
a code in octal or hexadecimal digits, or the end of a line, which counts for nothing.

An escape is always longer than what it stands for. So a literal denotes what is written between its marks exactly when
there is no backslash among it.

## Main definitions

* `Text.units`: the code units of a text.
* `StringLiteral.Escape`, `StringLiteral.Inside`: what stands after a backslash and between the marks, with its value.
* `StringLiteral.Denotes`: a literal with its value.

## Main statements

* `StringLiteral.Inside.inLiteral`: what stands between the marks does not close the literal.
* `StringLiteral.Inside.eq_units_or_length_lt`: when the value is what is written.
* `StringLiteral.Inside.count_le`: no parenthesis that is written gets lost.
-/

namespace AngularUplift

/-! ### Code units -/

/-- The code units of a code point. -/
def pointUnits (point : Nat) : List Nat :=
  if point < 0x10000 then [point]
  else [0xD800 + (point - 0x10000) / 0x400, 0xDC00 + (point - 0x10000) % 0x400]

/-- There are one or two code units for a code point. -/
theorem length_pointUnits (point : Nat) : 1 ≤ (pointUnits point).length ∧ (pointUnits point).length ≤ 2 := by
  rw [pointUnits]
  split <;> simp

namespace Text

/-- The code units of a text. -/
def units (text : Text) : List Nat := text.flatMap fun c => pointUnits c.toNat

theorem units_cons (c : Char) (text : Text) : units (c :: text) = pointUnits c.toNat ++ units text :=
  List.flatMap_cons

theorem units_append (text other : Text) : units (text ++ other) = units text ++ units other := List.flatMap_append

/-- There are at least as many code units as characters. -/
theorem length_le_length_units (text : Text) : text.length ≤ (units text).length := by
  induction text with
  | nil => exact le_rfl
  | cons c text ih =>
    have hpoint := (length_pointUnits c.toNat).1
    rw [units_cons, List.length_append, List.length_cons]
    omega

/-- The code unit of a closing parenthesis belongs to no other character. -/
theorem count_pointUnits (c : Char) : (pointUnits c.toNat).count 0x29 = [c].count ')' := by
  rw [List.count_singleton]
  have hcode : c.toNat = 0x29 ↔ c = ')' := ⟨fun h => Char.toNat_inj.1 h, fun h => h ▸ rfl⟩
  rw [pointUnits]
  split
  · rw [List.count_singleton]
    simp only [beq_iff_eq, hcode]
  · next hlarge =>
    have hne : c ≠ ')' := fun heq => hlarge (by rw [hcode.2 heq]; decide)
    rw [if_neg (by simpa using hne), List.count_eq_zero]
    simp only [List.mem_cons, List.not_mem_nil, or_false, not_or]
    omega

theorem count_units (text : Text) : (units text).count 0x29 = text.count ')' := by
  induction text with
  | nil => rfl
  | cons c text ih =>
    rw [units_cons, List.count_append, count_pointUnits, ih, ← List.count_append, List.singleton_append]

end Text

namespace StringLiteral

open Literal (hexDigit?)

/-! ### Escapes -/

/-- An octal digit. -/
def isOctal (c : Char) : Bool := '0' ≤ c && c ≤ '7'

/-- The number with the given octal digits. -/
def ofOctal (digits : Text) : Nat := digits.foldl (fun n c => n * 8 + (c.toNat - '0'.toNat)) 0

/-- The number with the given hexadecimal digits. -/
def ofHex? (digits : Text) : Option Nat := digits.foldlM (fun n c => (hexDigit? c).map (n * 16 + ·)) 0

/-- The code of the control character that a letter stands for after a backslash. -/
def controlLetter? (c : Char) : Option Nat :=
  match c with
  | 'b' => some 0x08
  | 't' => some 0x09
  | 'n' => some 0x0A
  | 'v' => some 0x0B
  | 'f' => some 0x0C
  | 'r' => some 0x0D
  | _ => none

/-- A character at which a line of source code ends. -/
def endsLine (c : Char) : Bool := c == '\n' || c == '\r' || c.toNat == 0x2028 || c.toNat == 0x2029

/-- A character that stands for itself after a backslash. -/
def isPlainEscape (c : Char) : Bool :=
  (controlLetter? c).isNone && !isOctal c && c != 'x' && c != 'u' && !endsLine c

/-- What may be written after a backslash, up to the character that comes next, and the code units that it stands
for. -/
inductive Escape : (written : Text) → (next : Option Char) → (value : List Nat) → Prop
  /-- A letter for a control character. -/
  | control {c : Char} {code : Nat} (next : Option Char) (hcode : controlLetter? c = some code) : Escape [c] next [code]
  /-- A character that stands for itself, such as a quotation mark. -/
  | plain {c : Char} (next : Option Char) (hplain : isPlainEscape c = true) : Escape [c] next (pointUnits c.toNat)
  /-- A code unit below 256 in octal digits, of which there are as many as possible, but at most three. -/
  | octal {digits : Text} {next : Option Char} (hne : digits ≠ []) (hdigits : ∀ c ∈ digits, isOctal c)
      (hlength : digits.length ≤ 3) (hsmall : ofOctal digits < 256)
      (hmost : ∀ c ∈ next, isOctal c → digits.length = 3 ∨ 256 ≤ ofOctal (digits ++ [c])) :
      Escape digits next [ofOctal digits]
  /-- A code unit in two hexadecimal digits. -/
  | hex {a b : Char} {unit : Nat} (next : Option Char) (hunit : ofHex? [a, b] = some unit) :
      Escape ['x', a, b] next [unit]
  /-- A code unit in four hexadecimal digits. -/
  | unit {a b c d : Char} {unit : Nat} (next : Option Char) (hunit : ofHex? [a, b, c, d] = some unit) :
      Escape ['u', a, b, c, d] next [unit]
  /-- A code point in hexadecimal digits between braces. -/
  | point {digits : Text} {point : Nat} (next : Option Char) (hne : digits ≠ []) (hpoint : ofHex? digits = some point)
      (hle : point ≤ 0x10FFFF) : Escape ('u' :: '{' :: (digits ++ ['}'])) next (pointUnits point)
  /-- The end of a line, which stands for nothing. -/
  | line {c : Char} {next : Option Char} (hline : endsLine c = true) (hnext : c = '\r' → next ≠ some '\n') :
      Escape [c] next []
  /-- An end of a line in two characters. -/
  | lineFeed (next : Option Char) : Escape ['\r', '\n'] next []

/-- What may stand between the quotation marks of a literal, and the code units that it stands for. -/
inductive Inside (quote : Char) : Text → List Nat → Prop
  /-- Nothing. -/
  | nil : Inside quote [] []
  /-- A character that stands for itself. -/
  | character {c : Char} {text : Text} {value : List Nat} (hquote : c ≠ quote) (hslash : c ≠ '\\')
      (hline : c ≠ '\n' ∧ c ≠ '\r') (hrest : Inside quote text value) :
      Inside quote (c :: text) (pointUnits c.toNat ++ value)
  /-- An escape. -/
  | escape {written text : Text} {value more : List Nat} (hescape : Escape written text.head? value)
      (hrest : Inside quote text more) : Inside quote ('\\' :: (written ++ text)) (value ++ more)

/-- A literal in single or double quotation marks, and the string that it denotes. -/
inductive Denotes : Text → List Nat → Prop
  /-- What stands between two marks. -/
  | quoted {quote : Char} {inside : Text} {value : List Nat} (hquote : isPlainQuote quote = true)
      (hinside : Inside quote inside value) : Denotes (quote :: (inside ++ [quote])) value

/-! ### What is written in an escape -/

/-- A character of a code, that is of an escape after its first character. -/
def isCodePart (c : Char) : Bool := (hexDigit? c).isSome || c == '{' || c == '}' || c == '\n'

theorem isCodePart_of_isOctal {c : Char} (h : isOctal c = true) : isCodePart c = true := by
  have hdecimal : isDecimal c = true := by
    simp only [isOctal, isDecimal, Bool.and_eq_true, decide_eq_true_eq] at h ⊢
    have hle : '7' ≤ '9' := by decide
    exact ⟨h.1, Char.le_trans h.2 hle⟩
  simp [isCodePart, hexDigit?, hdecimal]

/-- A number in hexadecimal digits is made of such digits. -/
theorem isSome_of_foldlM {digits : Text} {start value : Nat}
    (h : digits.foldlM (fun n c => (hexDigit? c).map (n * 16 + ·)) start = some value) :
    ∀ c ∈ digits, (hexDigit? c).isSome := by
  induction digits generalizing start with
  | nil => exact List.forall_mem_nil _
  | cons c digits ih =>
    rw [List.foldlM_cons, Option.bind_eq_bind, Option.bind_eq_some_iff] at h
    obtain ⟨n, hn, hrest⟩ := h
    obtain ⟨digit, hdigit, -⟩ := Option.map_eq_some_iff.1 hn
    exact List.forall_mem_cons.2 ⟨by rw [hdigit]; rfl, ih hrest⟩

theorem isCodePart_of_ofHex? {digits : Text} {value : Nat} (h : ofHex? digits = some value) :
    ∀ c ∈ digits, isCodePart c = true := by
  intro c hc
  rw [isCodePart, isSome_of_foldlM h c hc]
  rfl

/-- An escape is a character with code after it. -/
theorem Escape.exists_cons {written : Text} {next : Option Char} {value : List Nat} (h : Escape written next value) :
    ∃ c code, written = c :: code ∧ ∀ d ∈ code, isCodePart d = true := by
  cases h with
  | control | plain | line => exact ⟨_, [], rfl, List.forall_mem_nil _⟩
  | octal hne hdigits =>
    obtain ⟨c, code, rfl⟩ := List.exists_cons_of_ne_nil hne
    exact ⟨c, code, rfl, fun d hd => isCodePart_of_isOctal (hdigits d (List.mem_cons_of_mem c hd))⟩
  | hex _ hunit => exact ⟨_, _, rfl, isCodePart_of_ofHex? hunit⟩
  | unit _ hunit => exact ⟨_, _, rfl, isCodePart_of_ofHex? hunit⟩
  | point _ _ hpoint =>
    refine ⟨_, _, rfl, List.forall_mem_cons.2 ⟨rfl, List.forall_mem_append.2 ⟨isCodePart_of_ofHex? hpoint, ?_⟩⟩⟩
    exact List.forall_mem_singleton.2 rfl
  | lineFeed => exact ⟨_, _, rfl, List.forall_mem_singleton.2 rfl⟩

/-- An escape is longer than what it stands for. -/
theorem Escape.length_le {written : Text} {next : Option Char} {value : List Nat} (h : Escape written next value) :
    value.length ≤ (Text.units written).length := by
  have hwritten := Text.length_le_length_units written
  cases h with
  | plain => simp [Text.units]
  | point _ hne =>
    have hpoint := (length_pointUnits ‹_›).2
    simp only [List.length_cons, List.length_append] at hwritten
    omega
  | octal hne =>
    have hpos := List.length_pos_iff.2 hne
    exact hpos.trans_le hwritten
  | _ => simp at hwritten ⊢; try omega

/-- A character that stands for itself after a backslash is a whole escape. -/
theorem Escape.eq_of_isPlainEscape {c : Char} {code : Text} {next : Option Char} {value : List Nat}
    (h : Escape (c :: code) next value) (hplain : isPlainEscape c = true) :
    code = [] ∧ value = pointUnits c.toNat := by
  simp only [isPlainEscape, Bool.and_eq_true, Bool.not_eq_true', bne_iff_ne, Option.isNone_iff_eq_none] at hplain
  obtain ⟨⟨⟨⟨hletter, hoctal⟩, hx⟩, hu⟩, hline⟩ := hplain
  cases h with
  | control _ hcode => rw [hletter] at hcode; cases hcode
  | plain => exact ⟨rfl, rfl⟩
  | octal _ hdigits => rw [hdigits c List.mem_cons_self] at hoctal; cases hoctal
  | hex => exact absurd rfl hx
  | unit | point => exact absurd rfl hu
  | line hends => rw [hends] at hline; cases hline
  | lineFeed => cases hline

/-- Characters of a code are no closing parentheses. -/
theorem notMem_of_isCodePart {code : Text} (h : ∀ d ∈ code, isCodePart d = true) : ')' ∉ code :=
  fun hmem => absurd (h _ hmem) (by decide)

/-- Only a parenthesis itself is written with a closing parenthesis. -/
theorem Escape.eq_or_notMem {written : Text} {next : Option Char} {value : List Nat} (h : Escape written next value) :
    (∃ c : Char, written = [c] ∧ value = pointUnits c.toNat) ∨ ')' ∉ written := by
  cases h with
  | plain => exact .inl ⟨_, rfl, rfl⟩
  | control _ hcode =>
    refine .inr fun hmem => ?_
    obtain rfl := List.mem_singleton.1 hmem
    cases hcode
  | octal _ hdigits => exact .inr (notMem_of_isCodePart fun d hd => isCodePart_of_isOctal (hdigits d hd))
  | hex _ hunit => exact .inr (List.not_mem_cons_of_ne_of_not_mem (by decide)
      (notMem_of_isCodePart (isCodePart_of_ofHex? hunit)))
  | unit _ hunit => exact .inr (List.not_mem_cons_of_ne_of_not_mem (by decide)
      (notMem_of_isCodePart (isCodePart_of_ofHex? hunit)))
  | point _ _ hpoint =>
    refine .inr (List.not_mem_cons_of_ne_of_not_mem (by decide) (notMem_of_isCodePart ?_))
    refine List.forall_mem_cons.2 ⟨rfl, List.forall_mem_append.2 ⟨isCodePart_of_ofHex? hpoint, ?_⟩⟩
    exact List.forall_mem_singleton.2 rfl
  | line hline =>
    refine .inr fun hmem => ?_
    obtain rfl := List.mem_singleton.1 hmem
    exact absurd hline (by decide)
  | lineFeed => exact .inr (by decide)

/-- An escape stands for the closing parenthesis that is written in it. -/
theorem Escape.count_le {written : Text} {next : Option Char} {value : List Nat} (h : Escape written next value) :
    written.count ')' ≤ value.count 0x29 := by
  rcases h.eq_or_notMem with ⟨c, rfl, rfl⟩ | hnone
  · exact (Text.count_pointUnits c).ge
  · rw [List.count_eq_zero.2 hnone]
    exact Nat.zero_le _

/-! ### What is written in a literal -/

/-- A code does not close the literal that it stands in. -/
theorem inLiteral_append_code {quote : Char} {code text : Text} (hquote : isPlainQuote quote = true)
    (hcode : ∀ d ∈ code, isCodePart d = true) (h : InLiteral quote text) : InLiteral quote (code ++ text) := by
  induction code with
  | nil => exact h
  | cons d code ih =>
    obtain ⟨hd, hrest⟩ := List.forall_mem_cons.1 hcode
    refine .plain ?_ ?_ (ih hrest)
    · rintro rfl
      simp only [isPlainQuote, Bool.or_eq_true, beq_iff_eq] at hquote
      rcases hquote with rfl | rfl
      all_goals exact absurd hd (by decide)
    · rintro rfl
      exact absurd hd (by decide)

namespace Inside

variable {quote : Char} {inside : Text} {value : List Nat}

/-- What stands between the marks of a literal does not close it. -/
theorem inLiteral (hquote : isPlainQuote quote = true) (h : Inside quote inside value) : InLiteral quote inside := by
  induction h with
  | nil => exact .nil
  | character hne hslash _ _ ih => exact .plain hne hslash ih
  | @escape written text _ _ hescape hrest ih =>
    obtain ⟨c, code, rfl, hcode⟩ := hescape.exists_cons
    exact .escape c (inLiteral_append_code hquote hcode ih)

/-- A literal denotes what is written between its marks, unless there is a backslash among it. Then it denotes something
shorter. -/
theorem eq_units_or_length_lt (h : Inside quote inside value) :
    ('\\' ∉ inside ∧ value = Text.units inside) ∨
      ('\\' ∈ inside ∧ value.length < (Text.units inside).length) := by
  induction h with
  | nil => exact .inl ⟨List.not_mem_nil, rfl⟩
  | @character c text value _ hslash _ _ ih =>
    rw [Text.units_cons]
    refine ih.imp ?_ ?_
    · rintro ⟨hnone, rfl⟩
      exact ⟨List.not_mem_cons_of_ne_of_not_mem hslash.symm hnone, rfl⟩
    · rintro ⟨hmem, hlt⟩
      refine ⟨List.mem_cons_of_mem c hmem, ?_⟩
      rw [List.length_append, List.length_append]
      omega
  | @escape written text value more hescape _ ih =>
    have hwritten := hescape.length_le
    have hmark := (length_pointUnits '\\'.toNat).1
    refine .inr ⟨List.mem_cons_self, ?_⟩
    have hmore : more.length ≤ (Text.units text).length := by
      rcases ih with ⟨-, rfl⟩ | ⟨-, hlt⟩
      · exact le_rfl
      · exact hlt.le
    rw [Text.units_cons, Text.units_append, List.length_append, List.length_append, List.length_append]
    omega

/-- No line ends in a literal without a backslash. -/
theorem breaks_notMem (h : Inside quote inside value) (hnone : '\\' ∉ inside) : '\n' ∉ inside ∧ '\r' ∉ inside := by
  induction h with
  | nil => exact ⟨List.not_mem_nil, List.not_mem_nil⟩
  | character _ _ hline _ ih =>
    obtain ⟨hlines, hreturns⟩ := ih fun hmem => hnone (List.mem_cons_of_mem _ hmem)
    exact ⟨List.not_mem_cons_of_ne_of_not_mem hline.1.symm hlines,
      List.not_mem_cons_of_ne_of_not_mem hline.2.symm hreturns⟩
  | escape => exact absurd List.mem_cons_self hnone

/-- A literal denotes a string with the closing parentheses that are written between its marks. -/
theorem count_le (h : Inside quote inside value) : inside.count ')' ≤ value.count 0x29 := by
  induction h with
  | nil => exact le_rfl
  | @character c text value _ _ _ _ ih =>
    rw [← List.singleton_append, List.count_append, List.count_append, Text.count_pointUnits]
    omega
  | escape hescape _ ih =>
    have hwritten := hescape.count_le
    rw [List.count_cons_of_ne (by decide), List.count_append, List.count_append]
    omega

end Inside

end StringLiteral

end AngularUplift
