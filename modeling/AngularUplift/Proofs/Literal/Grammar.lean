import AngularUplift.Literal.Reader

/-!
# The grammar of literals

Which texts are literals, and what they stand for, said without a reader:

```text
value    ::= true | false | null | number | string | [ elements ] | { fields }
item     ::= space value space
elements ::= space | item | item , elements | space , elements
field    ::= space key space : item
key      ::= word | string
fields   ::= space | field | field , fields
```

An element of an array is ended by a comma, which the last one may lack. In the last form of `elements` there is
nothing before the comma: this is an elision, an element without a value, so an array with an elision stands for no
list of values. Neither does a comma between braces without a field before it have a meaning. A dialect says which
liberties that go beyond this are taken: a comma that stands alone between brackets or braces and counts for nothing,
bare words as keys that are no identifiers, and keys that set no field of an object.

Integers stand for the number with their digits, and other numbers for the nearest floating-point number. A repeated
key of a record keeps its first place and has its last value.

## Main definitions

* `Literal.Dialect`: the liberties; `Dialect.orderly`, `Dialect.javaScript`, `Dialect.tolerant`.
* `Literal.StringForm`, `Literal.NumberForm`, `Literal.KeyForm`: the tokens.
* `Literal.IsRecord`: the record that written fields stand for.
* `Literal.Phrase`, `Literal.Spells`: the phrases of the grammar, and the texts that spell them.
-/

namespace AngularUplift.Literal

/-- Nothing but white space between tokens. -/
def Spacing (text : Text) : Prop := ∀ c ∈ text, isSpace c

/-! ### Strings -/

/-- The inside of a string between the given quotation marks, and the code points that it stands for. -/
inductive Inside (quote : Char) : Text → List CodePoint → Prop
  /-- Nothing. -/
  | nil : Inside quote [] []
  /-- A character that is neither the mark nor a backslash nor a control character. -/
  | char {c : Char} {text : Text} {points : List CodePoint} (hquote : c ≠ quote) (hslash : c ≠ '\\')
      (hprinted : 0x20 ≤ c.toNat) (rest : Inside quote text points) : Inside quote (c :: text) (.char c :: points)
  /-- An escape of one letter. -/
  | letter {letter : Char} {code : Nat} {text : Text} {points : List CodePoint}
      (hescape : escape? quote letter = some code) (rest : Inside quote text points) :
      Inside quote ('\\' :: letter :: text) (.ofNat code :: points)
  /-- An escape of four hexadecimal digits. -/
  | unit {a b c d : Char} {unit : Nat} {text : Text} {points : List CodePoint}
      (hunit : hexUnit? a b c d = some unit) (rest : Inside quote text points) :
      Inside quote ('\\' :: 'u' :: a :: b :: c :: d :: text) (.ofNat unit :: points)

/-- A string in single or double quotation marks; the halves of a character that are escaped one by one make the
character. -/
inductive StringForm : Text → List CodePoint → Prop
  /-- The inside between two marks. -/
  | quoted {quote : Char} {body : Text} {points : List CodePoint} (hquote : isPlainQuote quote)
      (hinside : Inside quote body points) : StringForm (quote :: (body ++ [quote])) (CodePoint.pair points)

/-! ### Numbers -/

/-- The digits of a number without a sign: a zero, or digits that do not begin with one. -/
def IsWhole (digits : Text) : Prop :=
  digits ≠ [] ∧ (∀ c ∈ digits, isDecimal c) ∧ (digits.head? = some '0' → digits = ['0'])

/-- A minus sign or none. -/
def sign (negative : Bool) : Text := if negative then ['-'] else []

/-- A number with a sign. -/
def signed (negative : Bool) (n : Nat) : Int := if negative then -n else n

/-- Digits after a decimal point, or nothing when there are none. -/
def fractionText (digits : Text) : Text := if digits.isEmpty then [] else '.' :: digits

/-- The exponent of a number, which may be left out. -/
inductive ExponentForm : Text → Int → Prop
  /-- No exponent. -/
  | absent : ExponentForm [] 0
  /-- An exponent without a sign. -/
  | plain {mark : Char} {digits : Text} (hmark : mark = 'e' ∨ mark = 'E') (hne : digits ≠ [])
      (hdigits : ∀ c ∈ digits, isDecimal c) : ExponentForm (mark :: digits) (ofDigits digits)
  /-- An exponent with a plus sign. -/
  | plus {mark : Char} {digits : Text} (hmark : mark = 'e' ∨ mark = 'E') (hne : digits ≠ [])
      (hdigits : ∀ c ∈ digits, isDecimal c) : ExponentForm (mark :: '+' :: digits) (ofDigits digits)
  /-- An exponent with a minus sign. -/
  | minus {mark : Char} {digits : Text} (hmark : mark = 'e' ∨ mark = 'E') (hne : digits ≠ [])
      (hdigits : ∀ c ∈ digits, isDecimal c) : ExponentForm (mark :: '-' :: digits) (-(ofDigits digits : Int))

/-- A number: an integer that is not too long, or a number with a fraction or an exponent. -/
inductive NumberForm : Text → Literal → Prop
  /-- An integer. -/
  | int (negative : Bool) {whole : Text} (hwhole : IsWhole whole) (hlength : whole.length ≤ mostDigits) :
      NumberForm (sign negative ++ whole) (.int (signed negative (ofDigits whole)))
  /-- A number with a fraction, an exponent or both. -/
  | float (negative : Bool) {whole fraction exponent : Text} {power : Int} (hwhole : IsWhole whole)
      (hfraction : ∀ c ∈ fraction, isDecimal c) (hexponent : ExponentForm exponent power)
      (hne : fraction ≠ [] ∨ exponent ≠ []) :
      NumberForm (sign negative ++ (whole ++ (fractionText fraction ++ exponent)))
        (.float (.ofDecimal negative (ofDigits (whole ++ fraction)) (power - fraction.length)))

/-! ### Dialects -/

/-- The numerals above U+007F that can stand in an identifier and are no decimal digits, as inclusive ranges. -/
def identifierNumerals : List (Nat × Nat) :=
  [(0x1369, 0x1371), (0x16EE, 0x16F0), (0x19DA, 0x19DA), (0x2160, 0x2182), (0x2185, 0x2188), (0x3007, 0x3007),
    (0x3021, 0x3029), (0x3038, 0x303A), (0xA6E6, 0xA6EF), (0x10140, 0x10174), (0x10341, 0x10341),
    (0x1034A, 0x1034A), (0x103D1, 0x103D5), (0x12400, 0x1246E)]

/-- Whether a letter or numeral can stand in an identifier. Of the letters only the vertical tilde cannot; of the
numerals superscripts, fractions and signs for numbers cannot. -/
def isIdentifierPart (c : Char) : Bool :=
  isWordStart c && c.toNat != 0x2E2F || (decimalDigit? c).isSome || inRanges identifierNumerals c.toNat

/-- What a dialect allows. -/
structure Dialect where
  /-- The bare words that can be keys. -/
  word : Text → Prop
  /-- The keys that a field can have. -/
  key : List CodePoint → Prop
  /-- Whether a comma may stand alone between brackets or braces. -/
  loneComma : Prop

/-- No comma stands alone; every word and every key is allowed. -/
def Dialect.orderly : Dialect := ⟨fun _ => True, fun _ => True, False⟩

/-- Everything is allowed. -/
def Dialect.tolerant : Dialect := ⟨fun _ => True, fun _ => True, True⟩

/-- Literals of JavaScript: no comma stands alone, a bare word is an identifier, and no key is `__proto__`, which
would set the prototype of an object and no field of it. An integer is compared by the number that its digits stand for;
that JavaScript rounds it beyond 2⁵³ and tells `-0` from `0` is left out. -/
def Dialect.javaScript : Dialect where
  word word := ∀ c ∈ word, isIdentifierPart c
  key key := key ≠ CodePoint.ofText (txt "__proto__")
  loneComma := False

/-! ### Phrases -/

/-- A bare word. -/
def IsWord (word : Text) : Prop :=
  ∃ first rest, word = first :: rest ∧ isWordStart first ∧ ∀ c ∈ rest, isWordPart c

/-- A key of a record: a bare word or a string. -/
inductive KeyForm (d : Dialect) : Text → List CodePoint → Prop
  /-- A bare word. -/
  | word {word : Text} (hword : IsWord word) (hallowed : d.word word) : KeyForm d word (CodePoint.ofText word)
  /-- A string. -/
  | string {text : Text} {points : List CodePoint} (hstring : StringForm text points) : KeyForm d text points

/-- What a text can spell. -/
inductive Phrase where
  /-- A value. -/
  | value (value : Literal)
  /-- A value with white space around it. -/
  | item (value : Literal)
  /-- The elements of an array; an elision has no value. -/
  | elements (items : List (Option Literal))
  /-- A key with its value. -/
  | field (key : List CodePoint) (value : Literal)
  /-- The fields of an object as they are written. -/
  | fields (fields : List (List CodePoint × Literal))

/-- The record that the fields of an object stand for as they are written: it has every key once, in the order of the
first occurrences, and with the value of the last one. -/
def IsRecord (fields record : List (List CodePoint × Literal)) : Prop :=
  record.map (·.1) = (fields.map (·.1)).eraseDups ∧ ∀ key, record.lookup key = fields.reverse.lookup key

/-- The texts that spell the phrases of the grammar in a dialect. -/
inductive Spells (d : Dialect) : Text → Phrase → Prop
  /-- One of the words with a value. -/
  | keyword {word : Text} {value : Literal} (hword : keyword? word = some value) : Spells d word (.value value)
  /-- A number. -/
  | number {text : Text} {value : Literal} (hnumber : NumberForm text value) : Spells d text (.value value)
  /-- A string. -/
  | string {text : Text} {points : List CodePoint} (hstring : StringForm text points) :
      Spells d text (.value (.string points))
  /-- An array whose elements all have values. -/
  | array {body : Text} {items : List Literal} (hbody : Spells d body (.elements (items.map some))) :
      Spells d ('[' :: (body ++ [']'])) (.value (.list items))
  /-- An object. -/
  | object {body : Text} {fields record : List (List CodePoint × Literal)} (hbody : Spells d body (.fields fields))
      (hrecord : IsRecord fields record) : Spells d ('{' :: (body ++ ['}'])) (.value (.record record))
  /-- A comma alone between brackets. -/
  | loneArray {before after : Text} (hallowed : d.loneComma) (hbefore : Spacing before) (hafter : Spacing after) :
      Spells d ('[' :: (before ++ ',' :: (after ++ [']']))) (.value (.list []))
  /-- A comma alone between braces. -/
  | loneObject {before after : Text} (hallowed : d.loneComma) (hbefore : Spacing before) (hafter : Spacing after) :
      Spells d ('{' :: (before ++ ',' :: (after ++ ['}']))) (.value (.record []))
  /-- A value with white space around it. -/
  | item {before text after : Text} {value : Literal} (hbefore : Spacing before) (hvalue : Spells d text (.value value))
      (hafter : Spacing after) : Spells d (before ++ (text ++ after)) (.item value)
  /-- No element. -/
  | noElement {gap : Text} (hgap : Spacing gap) : Spells d gap (.elements [])
  /-- The last element without a comma. -/
  | lastElement {text : Text} {value : Literal} (hitem : Spells d text (.item value)) :
      Spells d text (.elements [some value])
  /-- An element, its comma and more elements. -/
  | element {text more : Text} {value : Literal} {items : List (Option Literal)} (hitem : Spells d text (.item value))
      (hmore : Spells d more (.elements items)) : Spells d (text ++ ',' :: more) (.elements (some value :: items))
  /-- An elision and more elements. -/
  | elision {gap more : Text} {items : List (Option Literal)} (hgap : Spacing gap)
      (hmore : Spells d more (.elements items)) : Spells d (gap ++ ',' :: more) (.elements (none :: items))
  /-- A key, a colon and a value. -/
  | field {before name gap text : Text} {key : List CodePoint} {value : Literal} (hbefore : Spacing before)
      (hname : KeyForm d name key) (hkey : d.key key) (hgap : Spacing gap) (hitem : Spells d text (.item value)) :
      Spells d (before ++ (name ++ (gap ++ ':' :: text))) (.field key value)
  /-- No field. -/
  | noField {gap : Text} (hgap : Spacing gap) : Spells d gap (.fields [])
  /-- The last field without a comma. -/
  | lastField {text : Text} {key : List CodePoint} {value : Literal} (hfield : Spells d text (.field key value)) :
      Spells d text (.fields [(key, value)])
  /-- A field, its comma and more fields. -/
  | nextField {text more : Text} {key : List CodePoint} {value : Literal} {fields : List (List CodePoint × Literal)}
      (hfield : Spells d text (.field key value)) (hmore : Spells d more (.fields fields)) :
      Spells d (text ++ ',' :: more) (.fields ((key, value) :: fields))

end AngularUplift.Literal
