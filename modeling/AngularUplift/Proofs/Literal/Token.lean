import AngularUplift.Proofs.Literal.TextReader

/-!
# Reading back strings and integers

A string or an integer that was written is read back as it was, whatever follows it. Characters above U+FFFF are
written as two escapes and read as two halves, which become one character again when the string is complete. So do two
halves that stood next to each other in double quotes, where they are escaped as well; in single quotes they stand for
themselves.

## Main definitions

* `CodePoint.units`: what the escapes of a code point are read as.
* `Literal.Closed`: what can follow a number or a word without being read as a part of it.

## Main statements

* `CodePoint.pair_flatMap_units`: putting halves together undoes the split into halves.
* `Literal.readString_doubleQuoted`: a double-quoted string is read back, with its halves put together.
* `Literal.scanString_singleQuoted`: a string in single quotes is read back as it was.
* `Literal.readNumber_ofInt`: an integer is read back when it is not too long.
-/

namespace AngularUplift

/-! ### Halves -/

namespace CodePoint

/-- What the escapes of a code point are read as: two halves for a character above U+FFFF, and otherwise the code
point itself. -/
def units : CodePoint → List CodePoint
  | .char c =>
    if c.toNat < 0x10000 then [.char c]
    else [ofNat (0xD800 + (c.toNat - 0x10000) / 0x400), ofNat (0xDC00 + (c.toNat - 0x10000) % 0x400)]
  | .half unit => [.half unit]

/-- The number of a character is that of no half. -/
theorem toNat_range (c : Char) : c.toNat < 0xD800 ∨ 0xDFFF < c.toNat ∧ c.toNat < 0x110000 := c.valid

/-- A character is the code point of its number. -/
theorem ofNat_toNat_char (c : Char) : ofNat c.toNat = .char c := by
  have hrange := toNat_range c
  rw [ofNat, if_neg (by omega), Char.ofNat_toNat]

/-- A half is the code point of its number. -/
theorem ofNat_half {unit : Nat} (h : unit < 0x800) : ofNat (0xD800 + unit) = .half ⟨unit, h⟩ := by
  rw [ofNat, if_pos (by omega), Nat.add_sub_cancel_left]
  exact congrArg half (Fin.ext (Nat.mod_eq_of_lt h))

/-- The first half of a character above U+FFFF. -/
theorem ofNat_firstHalf (c : Char) :
    ∃ unit : Fin 0x800, ofNat (0xD800 + (c.toNat - 0x10000) / 0x400) = .half unit ∧
      unit.val = (c.toNat - 0x10000) / 0x400 ∧ unit.val < 0x400 := by
  have hrange := toNat_range c
  have hunit : (c.toNat - 0x10000) / 0x400 < 0x400 := by omega
  exact ⟨_, ofNat_half (Nat.lt_trans hunit (by decide)), rfl, hunit⟩

/-- The two halves of a character above U+FFFF make it. -/
theorem joined?_halves {c : Char} (h : 0x10000 ≤ c.toNat) :
    joined? (ofNat (0xD800 + (c.toNat - 0x10000) / 0x400)) (ofNat (0xDC00 + (c.toNat - 0x10000) % 0x400)) =
      some c := by
  obtain ⟨high, hhigh, hvalue, hlt⟩ := ofNat_firstHalf c
  have hlow : ofNat (0xDC00 + (c.toNat - 0x10000) % 0x400) =
      .half ⟨0x400 + (c.toNat - 0x10000) % 0x400, by omega⟩ := by
    rw [← ofNat_half, ← Nat.add_assoc]
  rw [hhigh, hlow, joined?, if_pos ⟨hlt, Nat.le_add_right ..⟩]
  have hcode : 0x10000 + high.val * 0x400 + (0x400 + (c.toNat - 0x10000) % 0x400 - 0x400) = c.toNat := by
    omega
  rw [hcode, Char.ofNat_toNat]

/-- What a half is read before is not its second half, unless it was one already. -/
theorem joined?_half_units {unit : Fin 0x800} {point : CodePoint}
    (h : joined? (.half unit) point = none) {rest : List CodePoint} {second : CodePoint}
    (hsecond : second ∈ (point.units ++ rest).head?) : joined? (.half unit) second = none := by
  cases point with
  | half low =>
    obtain rfl : half low = second := by simpa [units] using hsecond
    exact h
  | char c =>
    rw [units] at hsecond
    split at hsecond
    · obtain rfl : char c = second := by simpa using hsecond
      rfl
    · -- A character above U+FFFF begins with a first half.
      obtain ⟨high, hhigh, -, hlt⟩ := ofNat_firstHalf c
      obtain rfl : half high = second := by simpa [hhigh] using hsecond
      rw [joined?, if_neg (by omega)]

/-- The units of a character become the character again. -/
theorem pair_units_char (c : Char) (points : List CodePoint) :
    pair (units (.char c) ++ points) = .char c :: pair points := by
  rw [units]
  split
  · exact pair_cons fun _ _ => rfl
  · next hbig => rw [List.cons_append, List.cons_append, List.nil_append, pair, joined?_halves (by omega)]

/-- Putting halves together undoes the split of characters into halves. -/
theorem pair_flatMap_units (points : List CodePoint) : pair (points.flatMap units) = pair points := by
  fun_induction pair points with
  | case1 => rfl
  | case2 point =>
    cases point with
    | char c => exact pair_units_char c []
    | half unit => rfl
  | case3 first second rest c hjoined ih =>
    -- Only two halves belong together, and these are read as they are.
    cases first with
    | char c => exact absurd hjoined (by simp [joined?])
    | half high =>
      cases second with
      | char c => exact absurd hjoined (by simp [joined?])
      | half low =>
        rw [List.flatMap_cons, List.flatMap_cons, units, units, List.singleton_append,
          List.singleton_append, pair, hjoined, ih]
  | case4 first second rest hjoined ih =>
    rw [List.flatMap_cons, ← ih]
    cases first with
    | char c => exact pair_units_char c _
    | half unit => exact pair_cons fun _ hsecond => joined?_half_units hjoined hsecond

end CodePoint

namespace Literal

/-! ### Strings -/

/-- A hexadecimal digit is read back. -/
theorem hexDigit?_hexDigit (n : Nat) : hexDigit? (hexDigit n) = some (n % 16) := by
  have hdigits : ∀ digit < 16, hexDigit? (Nat.digitChar digit) = some digit := by decide
  exact hdigits (n % 16) (Nat.mod_lt n (by decide))

/-- Four hexadecimal digits are read back. -/
theorem hexUnit?_hexDigit {unit : Nat} (h : unit < 0x10000) :
    hexUnit? (hexDigit (unit / 4096)) (hexDigit (unit / 256)) (hexDigit (unit / 16)) (hexDigit unit) =
      some unit := by
  simp only [hexUnit?, hexDigit?_hexDigit, Option.bind_eq_bind, Option.bind_some, Option.pure_def,
    Option.some.injEq]
  omega

/-- An escape with four digits is read as the code point of its number. -/
theorem readPoints_unitEscape (quote : Char) {unit : Nat} (h : unit < 0x10000) (rest : Text) :
    readPoints quote (unitEscape unit ++ rest) =
      (readPoints quote rest).map fun read => (CodePoint.ofNat unit :: read.1, read.2) := by
  simp only [unitEscape, List.cons_append, List.nil_append, readPoints, hexUnit?_hexDigit h]
  cases readPoints quote rest <;> rfl

/-- An escape of one letter is read as the code point that it stands for. -/
theorem readPoints_escape {quote letter : Char} {code : Nat} (h : escape? quote letter = some code)
    (rest : Text) :
    readPoints quote ('\\' :: letter :: rest) =
      (readPoints quote rest).map fun read => (CodePoint.ofNat code :: read.1, read.2) := by
  -- The letter `u` stands for no character, so the longer form of escape is not meant.
  have hletter : letter ≠ 'u' := by
    rintro rfl
    exact absurd h (by simp [escape?])
  rw [readPoints]
  · rw [h]
    cases readPoints quote rest <;> rfl
  · exact fun _ _ _ _ _ heq => absurd heq hletter

/-- A character that needs no escape is read as it is. -/
theorem readPoints_char {quote c : Char} (hquote : c ≠ quote) (hslash : c ≠ '\\') (hcontrol : 0x20 ≤ c.toNat)
    (rest : Text) :
    readPoints quote (c :: rest) =
      (readPoints quote rest).map fun read => (CodePoint.char c :: read.1, read.2) := by
  rw [readPoints]
  · rw [if_neg hquote, if_neg (by simp [hslash, hcontrol])]
    cases readPoints quote rest <;> rfl
  · exact fun _ _ _ _ _ heq => absurd heq hslash
  · exact fun _ _ heq => absurd heq hslash

/-- The closing mark ends a string. -/
theorem readPoints_quote {quote : Char} (hquote : quote ≠ '\\') (rest : Text) :
    readPoints quote (quote :: rest) = some ([], rest) := by
  rw [readPoints]
  · exact if_pos rfl
  · exact fun _ _ _ _ _ heq => absurd heq hquote
  · exact fun _ _ heq => absurd heq hquote

/-- A character that has an escape of one letter is read back. -/
theorem readPoints_letter {quote letter c : Char} (h : escape? quote letter = some c.toNat) (rest : Text) :
    readPoints quote ('\\' :: letter :: rest) =
      (readPoints quote rest).map fun read => (CodePoint.char c :: read.1, read.2) := by
  rw [readPoints_escape h, CodePoint.ofNat_toNat_char]

/-- A character inside double quotes is read as its units. -/
theorem readPoints_escapeChar (c : Char) (rest : Text) :
    readPoints '"' (escapeChar c ++ rest) =
      (readPoints '"' rest).map fun read => (CodePoint.units (.char c) ++ read.1, read.2) := by
  by_cases hbig : 0x10000 ≤ c.toNat
  · -- Above U+FFFF none of the characters with a form of their own is meant, and two escapes are left.
    have hne : ∀ d : Char, d.toNat < 0x10000 → c ≠ d := by
      rintro d hd rfl
      exact Nat.not_lt.2 hbig hd
    have hrange := CodePoint.toNat_range c
    have hescape : escapeChar c = unitEscape (0xD800 + (c.toNat - 0x10000) / 0x400) ++
        unitEscape (0xDC00 + (c.toNat - 0x10000) % 0x400) := by
      rw [escapeChar, if_neg (hne _ (by decide)), if_neg (hne _ (by decide)), if_neg (hne _ (by decide)),
        if_neg (hne _ (by decide)), if_neg (hne _ (by decide)), if_neg (by omega), if_neg (by omega),
        if_neg (by omega), if_neg (by omega)]
    rw [hescape, List.append_assoc, readPoints_unitEscape _ (by omega), readPoints_unitEscape _ (by omega),
      CodePoint.units, if_neg (by omega), Option.map_map]
    rfl
  · -- Below U+10000 the cases are those of the printer: an escape of one letter, the character itself, four digits.
    rw [CodePoint.units, if_pos (by omega), escapeChar]
    split
    · next h => exact readPoints_letter (by rw [h]; rfl) rest
    split
    · next h => exact readPoints_letter (by rw [h]; rfl) rest
    split
    · next h => exact readPoints_letter (by rw [h]; rfl) rest
    split
    · next h => exact readPoints_letter (by rw [h]; rfl) rest
    split
    · next h => exact readPoints_letter (by rw [h]; rfl) rest
    split
    · next h => exact readPoints_letter (by rw [h]; rfl) rest
    split
    · next h => exact readPoints_letter (by rw [h]; rfl) rest
    split
    · next hquote hslash _ _ _ _ _ hprinted => exact readPoints_char hquote hslash hprinted.1 rest
    · rw [if_pos (by omega), readPoints_unitEscape _ (by omega), CodePoint.ofNat_toNat_char]
      rfl

/-- A code point inside double quotes is read as its units. -/
theorem readPoints_escapePoint (point : CodePoint) (rest : Text) :
    readPoints '"' (escapePoint point ++ rest) =
      (readPoints '"' rest).map fun read => (point.units ++ read.1, read.2) := by
  cases point with
  | char c => exact readPoints_escapeChar c rest
  | half unit =>
    rw [escapePoint, readPoints_unitEscape _ (by omega), CodePoint.ofNat_half unit.isLt]
    rfl

/-- The code points of a double-quoted string are read as their units. -/
theorem readPoints_doubleQuoted (points : List CodePoint) (rest : Text) :
    readPoints '"' (points.flatMap escapePoint ++ '"' :: rest) = some (points.flatMap CodePoint.units, rest) := by
  induction points with
  | nil => exact readPoints_quote (by decide) rest
  | cons point points ih =>
    rw [List.flatMap_cons, List.append_assoc, readPoints_escapePoint, ih, List.flatMap_cons]
    rfl

/-- A double-quoted string is read back with its halves put together, whatever follows it. -/
theorem readString_doubleQuoted (points : List CodePoint) (rest : Text) :
    readString (doubleQuoted points ++ rest) = some (CodePoint.pair points, rest) := by
  rw [doubleQuoted, List.append_assoc, List.append_assoc, List.singleton_append, readString, if_pos (by decide),
    List.singleton_append, readPoints_doubleQuoted, Option.map_some]
  simp only [CodePoint.pair_flatMap_units]

/-- A string without control characters other than line feeds. -/
def IsQuotable (points : List CodePoint) : Prop := ∀ c, .char c ∈ points → 0x20 ≤ c.toNat ∨ c = '\n'

/-- An escape of one letter in a source. -/
theorem scanParts_letter {quote letter c : Char} (h : escape? quote letter = some c.toNat) (rest : List CodePoint) :
    scanParts quote (.char '\\' :: .char letter :: rest) = do
      let (parts, rest) ← scanParts quote rest
      return (.escaped (.char c) :: parts, rest) := by
  have hletter : letter ≠ 'u' := by
    rintro rfl
    exact absurd h (by simp [escape?])
  rw [scanParts.eq_3 quote letter rest fun _ _ _ _ _ _ hu => hletter hu, h, ← CodePoint.ofNat_toNat_char]
  rfl

/-- A code point that stands for itself in a source. -/
theorem scanParts_plain {quote : Char} {point : CodePoint} (hquote : point ≠ .char quote)
    (hplain : point.is (fun c => c == '\\' || c.toNat < 0x20) = false) (rest : List CodePoint) :
    scanParts quote (point :: rest) = do
      let (parts, rest) ← scanParts quote rest
      return (.plain point :: parts, rest) := by
  have hslash : point ≠ .char '\\' := by
    rintro rfl
    exact absurd hplain (by decide)
  rw [scanParts.eq_4 quote point rest (fun _ _ _ _ _ heq => absurd heq hslash) fun _ _ heq => absurd heq hslash,
    if_neg hquote, if_neg (by rw [hplain]; decide)]

/-- A code point in single quotes is read as it is, and a half of it is not escaped. -/
theorem scanParts_singleQuotedPoint {point : CodePoint} (h : ∀ c, point = .char c → 0x20 ≤ c.toNat ∨ c = '\n')
    (rest : List CodePoint) :
    ∃ part : StringPart, part.point = point ∧ (∀ unit, part ≠ .escaped (.half unit)) ∧
      scanParts '\'' (singleQuotedPoint point ++ rest) = do
        let (parts, rest) ← scanParts '\'' rest
        return (part :: parts, rest) := by
  cases point with
  | half unit =>
    have hquote : CodePoint.half unit ≠ .char '\'' := nofun
    exact ⟨.plain (.half unit), rfl, nofun, scanParts_plain hquote rfl rest⟩
  | char c =>
    -- A backslash, a quotation mark and a line feed are escaped by a letter, and everything else stands for itself.
    have hletter : ∀ {letter}, singleQuotedChar c = ['\\', letter] → escape? '\'' letter = some c.toNat →
        ∃ part : StringPart, part.point = .char c ∧ (∀ unit, part ≠ .escaped (.half unit)) ∧
          scanParts '\'' (singleQuotedPoint (.char c) ++ rest) = do
            let (parts, rest) ← scanParts '\'' rest
            return (part :: parts, rest) := by
      intro letter hchar hescape
      refine ⟨.escaped (.char c), rfl, nofun, ?_⟩
      rw [singleQuotedPoint, hchar]
      exact scanParts_letter hescape rest
    by_cases hslash : c = '\\'
    · exact hletter (by rw [hslash]; rfl) (by rw [hslash]; rfl)
    by_cases hquote : c = '\''
    · exact hletter (by rw [hquote]; rfl) (by rw [hquote]; rfl)
    by_cases hbreak : c = '\n'
    · exact hletter (by rw [hbreak]; rfl) (by rw [hbreak]; rfl)
    · have hchar : singleQuotedChar c = [c] := by
        rw [singleQuotedChar, if_neg hslash, if_neg hquote, if_neg hbreak]
      have hprinted := (h c rfl).resolve_right hbreak
      refine ⟨.plain (.char c), rfl, nofun, ?_⟩
      rw [singleQuotedPoint, hchar]
      exact scanParts_plain (by simpa using hquote) (by simp [CodePoint.is, hslash, hprinted]) rest

/-- The code points in single quotes are read as they are, and no half of them is escaped. -/
theorem scanParts_singleQuoted {points : List CodePoint} (h : IsQuotable points) (rest : List CodePoint) :
    ∃ parts : List StringPart, parts.map StringPart.point = points ∧
      (∀ part ∈ parts, ∀ unit, part ≠ .escaped (.half unit)) ∧
      scanParts '\'' (points.flatMap singleQuotedPoint ++ .char '\'' :: rest) = some (parts, rest) := by
  induction points with
  | nil => exact ⟨[], rfl, List.forall_mem_nil _, rfl⟩
  | cons point points ih =>
    obtain ⟨parts, rfl, hparts, hscan⟩ := ih fun c hc => h c (List.mem_cons_of_mem _ hc)
    obtain ⟨part, rfl, hpart, hone⟩ := scanParts_singleQuotedPoint (fun c hc => h c (hc ▸ List.mem_cons_self))
      ((parts.map StringPart.point).flatMap singleQuotedPoint ++ .char '\'' :: rest)
    refine ⟨part :: parts, rfl, List.forall_mem_cons.2 ⟨hpart, hparts⟩, ?_⟩
    rw [List.flatMap_cons, List.append_assoc, hone, hscan]
    rfl

/-- Where no half is escaped, none is put together with another one. -/
theorem joinParts_of_no_escaped_half {parts : List StringPart} (h : ∀ part ∈ parts, ∀ unit, part ≠ .escaped (.half unit)) :
    joinParts parts = parts.map StringPart.point := by
  fun_induction joinParts parts with
  | case1 => rfl
  | case2 first second rest c hjoined ih =>
    -- Halves are put together only when both are escaped.
    obtain ⟨high, low, rfl, -⟩ := CodePoint.exists_of_joined? hjoined
    exact absurd rfl (h _ List.mem_cons_self high)
  | case3 first second rest hjoined ih =>
    rw [ih (List.forall_mem_cons.1 h).2]
    rfl
  | case4 part rest _ ih => rw [ih (List.forall_mem_cons.1 h).2, List.map_cons]

/-- A string in single quotes without control characters other than line feeds is read back. -/
theorem scanString_singleQuoted {points : List CodePoint} (h : IsQuotable points) (rest : List CodePoint) :
    scanString (.char '\'' :: (points.flatMap singleQuotedPoint ++ .char '\'' :: rest)) = some (points, rest) := by
  obtain ⟨parts, rfl, hparts, hscan⟩ := scanParts_singleQuoted h rest
  rw [scanString, if_pos (by decide), hscan, Option.map_some]
  simp only [joinParts_of_no_escaped_half hparts]

/-! ### Integers -/

/-- What can follow a number or a word without being read as a part of it. -/
def Closed (rest : Text) : Prop := ∀ c ∈ rest.head?, c = ',' ∨ c = ']' ∨ c = '}'

/-- No character of a class without the closing marks begins what follows a number or a word. -/
theorem Closed.not_of_mem_head {rest : Text} (h : Closed rest) {p : Char → Bool} (hcomma : p ',' = false)
    (hbracket : p ']' = false) (hbrace : p '}' = false) : ∀ c ∈ rest.head?, p c = false := by
  intro c hc
  rcases h c hc with rfl | rfl | rfl
  · exact hcomma
  · exact hbracket
  · exact hbrace

/-- A run of characters of a class ends where the class ends. -/
theorem takeWhile_append_of_head {p : Char → Bool} {word rest : Text} (hword : ∀ c ∈ word, p c)
    (hrest : ∀ c ∈ rest.head?, p c = false) :
    (word ++ rest).takeWhile p = word ∧ (word ++ rest).dropWhile p = rest := by
  rw [List.takeWhile_append_of_pos hword, List.dropWhile_append_of_pos hword]
  cases rest with
  | nil => exact ⟨List.append_nil word, rfl⟩
  | cons c rest =>
    have hc : ¬p c := by simp [hrest c rfl]
    rw [List.takeWhile_cons_of_neg hc, List.dropWhile_cons_of_neg hc, List.append_nil]
    exact ⟨rfl, rfl⟩

/-- The decimal digits of a number are digits. -/
theorem isDecimal_of_mem_ofNat {n : Nat} {c : Char} (h : c ∈ Text.ofNat n) : isDecimal c :=
  Nat.isDigit_of_mem_toDigits (by decide) (by decide) h

/-- The decimal digits of a number stand for it. -/
theorem ofDigits_ofNat (n : Nat) : ofDigits (Text.ofNat n) = n := by
  have h := Nat.ofDigitChars_ten_toDigits (n := n)
  simp only [Nat.ofDigitChars_eq_foldl, Nat.mul_comm 10] at h
  exact h

/-- Only zero begins with the digit zero. -/
theorem head_ofNat_ne_zero {n : Nat} (h : 0 < n) : (Text.ofNat n).head? ≠ some '0' := by
  -- The first digit of a number with more than one digit is that of its tenth.
  induction n using Nat.strongRecOn with
  | ind n ih =>
    rw [Text.ofNat]
    by_cases hsmall : n < 10
    · have hdigits : ∀ digit < 10, 0 < digit → Nat.digitChar digit ≠ '0' := by decide
      rw [Nat.toDigits_of_lt_base hsmall, List.head?_cons]
      exact fun heq => hdigits n hsmall h (Option.some.inj heq)
    · rw [Nat.toDigits_of_base_le (by decide) (by omega), List.head?_append]
      intro heq
      rcases Option.or_eq_some_iff.1 heq with hhead | ⟨hnone, -⟩
      · exact ih (n / 10) (by omega) (by omega) hhead
      · exact absurd (List.head?_eq_none_iff.1 hnone) Nat.toDigits_ne_nil

/-- The digits of a number are read back. -/
theorem readWhole_ofNat (n : Nat) {rest : Text} (hrest : Closed rest) :
    readWhole (Text.ofNat n ++ rest) = some (Text.ofNat n, rest) := by
  rcases Nat.eq_zero_or_pos n with rfl | hpos
  · rfl
  · have hhead := head_ofNat_ne_zero hpos
    have hdigits : ∀ c ∈ Text.ofNat n, isDecimal c := fun c => isDecimal_of_mem_ofNat
    cases hn : Text.ofNat n with
    | nil => exact absurd hn Nat.toDigits_ne_nil
    | cons c digits =>
      rw [hn] at hhead hdigits
      obtain ⟨hc, htail⟩ := List.forall_mem_cons.1 hdigits
      obtain ⟨htake, hdrop⟩ := takeWhile_append_of_head htail
        (hrest.not_of_mem_head (by decide) (by decide) (by decide))
      rw [List.cons_append, readWhole, if_neg (fun heq => hhead (congrArg some heq)), if_pos hc, htake, hdrop]

/-- Nothing that closes a number is read as a fraction. -/
theorem readFraction_closed {rest : Text} (hrest : Closed rest) : readFraction rest = ([], rest) := by
  unfold readFraction
  split
  · exact absurd (hrest '.' rfl) (by decide)
  · rfl

/-- Nothing that closes a number is read as an exponent. -/
theorem readExponent_closed {rest : Text} (hrest : Closed rest) : readExponent rest = none := by
  cases rest with
  | nil => rfl
  | cons c rest =>
    have hc : ¬(c = 'e' ∨ c = 'E') := by
      rintro (rfl | rfl)
      · exact absurd (hrest 'e' rfl) (by decide)
      · exact absurd (hrest 'E' rfl) (by decide)
    unfold readExponent
    exact if_neg hc

/-- An integer that is not too long is read back. -/
theorem readNumber_ofInt {n : Int} (h : (Text.ofNat n.natAbs).length ≤ mostDigits) {rest : Text}
    (hrest : Closed rest) : readNumber (Text.ofInt n ++ rest) = some (.int n, rest) := by
  have hwhole := readWhole_ofNat n.natAbs hrest
  have hlength := Nat.not_lt.2 h
  rw [Text.ofInt]
  split
  · next hneg =>
    rw [List.cons_append, readNumber]
    simp only [hwhole, readFraction_closed hrest, readExponent_closed hrest, Option.bind_eq_bind,
      Option.bind_some, ofDigits_ofNat, if_neg hlength, if_true]
    rw [Int.ofNat_natAbs_of_nonpos (Int.le_of_lt hneg), Int.neg_neg]
    rfl
  · next hneg =>
    unfold readNumber
    split
    next negative unsigned hsign =>
      split at hsign
      · -- The digits of a number do not begin with a minus sign.
        next tail hminus =>
        rw [hminus, readWhole, if_neg (by decide), if_neg (by decide)] at hwhole
        exact absurd hwhole (by simp)
      · obtain ⟨rfl, rfl⟩ := Prod.mk.inj hsign
        simp only [hwhole, readFraction_closed hrest, readExponent_closed hrest, Option.bind_eq_bind,
          Option.bind_some, ofDigits_ofNat, if_neg hlength, Bool.false_eq_true, if_false]
        rw [Int.natAbs_of_nonneg (Int.not_lt.1 hneg)]
        rfl

end Literal

end AngularUplift
