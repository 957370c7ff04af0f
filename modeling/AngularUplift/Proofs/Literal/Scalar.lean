import AngularUplift.Proofs.Literal.Grammar
import AngularUplift.Proofs.Literal.Token
import Mathlib.Data.List.TakeWhile

/-!
# Reading the tokens of literals

The readers of strings, numbers and words read exactly the forms of the grammar. What is read has such a form; and a
text of such a form is read, for numbers and words in front of anything that cannot be a part of them.

## Main definitions

* `Literal.Apart`: what can follow a value.

## Main statements

* `Literal.readString_eq_some_iff`: strings.
* `Literal.numberForm_of_readNumber`, `Literal.NumberForm.readNumber_append`: numbers.
* `Literal.isWord_of_readWord`, `Literal.IsWord.readWord_append`: words.
-/

namespace AngularUplift.Literal

/-- What can follow a value: white space, a comma or the end of the list or record that it is in. -/
def Apart (rest : Text) : Prop := ∀ c ∈ rest.head?, isSpace c ∨ c = ',' ∨ c = ']' ∨ c = '}'

/-- The characters that can follow a value. -/
def followers : List Char := [' ', '\t', '\n', '\r', ',', ']', '}']

/-- What follows a value begins with no character of a class without the characters that can follow one. -/
theorem Apart.isFalse {rest : Text} (h : Apart rest) {p : Char → Bool} (hp : followers.all (!p ·)) :
    ∀ c ∈ rest.head?, p c = false := by
  intro c hc
  have hmem : c ∈ followers := by
    rcases h c hc with hspace | rfl | rfl | rfl
    · simp only [isSpace, Bool.or_eq_true, beq_iff_eq] at hspace
      rcases hspace with ((rfl | rfl) | rfl) | rfl <;> decide
    · decide
    · decide
    · decide
  simpa using List.all_eq_true.1 hp c hmem

/-- White space before what can follow a value can follow it too. -/
theorem Apart.append {gap rest : Text} (hgap : Spacing gap) (hrest : Apart rest) : Apart (gap ++ rest) := by
  cases gap with
  | nil => exact hrest
  | cons c gap =>
    intro d hd
    obtain rfl : c = d := Option.some.inj hd
    exact Or.inl (hgap c List.mem_cons_self)

/-! ### Strings -/

/-- The quotation marks are no backslashes. -/
theorem ne_slash_of_isPlainQuote {quote : Char} (h : isPlainQuote quote) : quote ≠ '\\' := by
  rintro rfl
  exact absurd h (by decide)

/-- The inside of a string is read up to the closing mark. -/
theorem Inside.readPoints_append {quote : Char} (hquote : quote ≠ '\\') {body : Text} {points : List CodePoint}
    (h : Inside quote body points) (rest : Text) :
    readPoints quote (body ++ quote :: rest) = some (points, rest) := by
  induction h with
  | nil => exact readPoints_quote hquote rest
  | char hne hslash hprinted _ ih => rw [List.cons_append, readPoints_char hne hslash hprinted, ih, Option.map_some]
  | letter hescape _ ih => rw [List.cons_append, List.cons_append, readPoints_escape hescape, ih, Option.map_some]
  | unit hunit _ ih =>
    simp only [List.cons_append, readPoints, hunit, ih]
    rfl

/-- What is read up to the closing mark is the inside of a string. -/
theorem inside_of_readPoints {quote : Char} {source rest : Text} {points : List CodePoint}
    (h : readPoints quote source = some (points, rest)) :
    ∃ body, source = body ++ quote :: rest ∧ Inside quote body points := by
  fun_induction readPoints quote source generalizing points with
  | case1 => exact absurd h (by simp)
  | case2 a b c d source ih =>
    obtain ⟨unit, hunit, h⟩ := Option.bind_eq_some_iff.1 h
    obtain ⟨⟨more, left⟩, hmore, h⟩ := Option.bind_eq_some_iff.1 h
    obtain ⟨rfl, rfl⟩ := Prod.mk.inj (Option.some.inj h)
    obtain ⟨body, rfl, hbody⟩ := ih hmore
    exact ⟨'\\' :: 'u' :: a :: b :: c :: d :: body, rfl, .unit hunit hbody⟩
  | case3 letter source _ ih =>
    obtain ⟨code, hescape, h⟩ := Option.bind_eq_some_iff.1 h
    obtain ⟨⟨more, left⟩, hmore, h⟩ := Option.bind_eq_some_iff.1 h
    obtain ⟨rfl, rfl⟩ := Prod.mk.inj (Option.some.inj h)
    obtain ⟨body, rfl, hbody⟩ := ih hmore
    exact ⟨'\\' :: letter :: body, rfl, .letter hescape hbody⟩
  | case4 source =>
    obtain ⟨rfl, rfl⟩ := Prod.mk.inj (Option.some.inj h)
    exact ⟨[], rfl, .nil⟩
  | case5 => exact absurd h (by simp)
  | case6 c source _ _ hne hplain ih =>
    obtain ⟨⟨more, left⟩, hmore, h⟩ := Option.bind_eq_some_iff.1 h
    obtain ⟨rfl, rfl⟩ := Prod.mk.inj (Option.some.inj h)
    obtain ⟨body, rfl, hbody⟩ := ih hmore
    rw [not_or, Nat.not_lt] at hplain
    exact ⟨c :: body, rfl, .char hne hplain.1 hplain.2 hbody⟩

/-- A string is read exactly where a text begins with one. -/
theorem readString_eq_some_iff {source rest : Text} {points : List CodePoint} :
    readString source = some (points, rest) ↔ ∃ text, StringForm text points ∧ source = text ++ rest := by
  constructor
  · intro h
    cases source with
    | nil => exact absurd h (by simp [readString])
    | cons quote source =>
      rw [readString, Option.ite_none_right_eq_some] at h
      obtain ⟨hquote, h⟩ := h
      obtain ⟨⟨read, left⟩, hread, heq⟩ := Option.map_eq_some_iff.1 h
      obtain ⟨rfl, rfl⟩ := Prod.mk.inj heq
      obtain ⟨body, rfl, hinside⟩ := inside_of_readPoints hread
      exact ⟨quote :: (body ++ [quote]), .quoted hquote hinside, by simp⟩
  · rintro ⟨text, ⟨hquote, hinside⟩, rfl⟩
    rw [List.cons_append, List.append_assoc, List.singleton_append, readString, if_pos hquote,
      hinside.readPoints_append (ne_slash_of_isPlainQuote hquote), Option.map_some]

/-! ### Words -/

/-- A word is read as far as it goes. -/
theorem IsWord.readWord_append {word rest : Text} (h : IsWord word)
    (hrest : ∀ c ∈ rest.head?, isWordPart c = false) : readWord (word ++ rest) = some (word, rest) := by
  obtain ⟨first, tail, rfl, hfirst, htail⟩ := h
  obtain ⟨htake, hdrop⟩ := takeWhile_append_of_head htail hrest
  rw [List.cons_append, readWord, if_pos hfirst, htake, hdrop]

/-- What is read as a word is one. -/
theorem isWord_of_readWord {source word rest : Text} (h : readWord source = some (word, rest)) :
    IsWord word ∧ source = word ++ rest := by
  cases source with
  | nil => exact absurd h (by simp [readWord])
  | cons c source =>
    rw [readWord, Option.ite_none_right_eq_some] at h
    obtain ⟨hstart, h⟩ := h
    obtain ⟨rfl, rfl⟩ := Prod.mk.inj (Option.some.inj h)
    refine ⟨⟨c, _, rfl, hstart, fun d hd => List.mem_takeWhile_imp hd⟩, ?_⟩
    rw [List.cons_append, List.takeWhile_append_dropWhile]

/-! ### Numbers -/

/-- The digits of an integer are read as far as they go. -/
theorem IsWhole.readWhole_append {digits rest : Text} (h : IsWhole digits)
    (hrest : ∀ c ∈ rest.head?, isDecimal c = false) : readWhole (digits ++ rest) = some (digits, rest) := by
  obtain ⟨hne, hdigits, hzero⟩ := h
  obtain ⟨c, tail, rfl⟩ := List.exists_cons_of_ne_nil hne
  rw [List.cons_append, readWhole]
  by_cases hc : c = '0'
  · obtain ⟨-, rfl⟩ := List.cons.inj (hzero (congrArg some hc))
    rw [if_pos hc, hc, List.nil_append]
  · obtain ⟨hfirst, htail⟩ := List.forall_mem_cons.1 hdigits
    obtain ⟨htake, hdrop⟩ := takeWhile_append_of_head htail hrest
    rw [if_neg hc, if_pos hfirst, htake, hdrop]

/-- What is read as the digits of an integer are such digits. -/
theorem isWhole_of_readWhole {source digits rest : Text} (h : readWhole source = some (digits, rest)) :
    IsWhole digits ∧ source = digits ++ rest := by
  cases source with
  | nil => exact absurd h (by simp [readWhole])
  | cons c source =>
    rw [readWhole] at h
    split at h
    · next hc =>
      obtain ⟨rfl, rfl⟩ := Prod.mk.inj (Option.some.inj h)
      exact ⟨⟨by simp, List.forall_mem_singleton.2 rfl, fun _ => rfl⟩, by rw [hc]; rfl⟩
    · next hc =>
      rw [Option.ite_none_right_eq_some] at h
      obtain ⟨hfirst, h⟩ := h
      obtain ⟨rfl, rfl⟩ := Prod.mk.inj (Option.some.inj h)
      refine ⟨⟨by simp, List.forall_mem_cons.2 ⟨hfirst, fun d hd => List.mem_takeWhile_imp hd⟩,
        fun heq => absurd (Option.some.inj heq) hc⟩, ?_⟩
      rw [List.cons_append, List.takeWhile_append_dropWhile]

/-- A fraction is read as far as it goes. -/
theorem readFraction_append {digits rest : Text} (hdigits : ∀ c ∈ digits, isDecimal c)
    (hrest : ∀ c ∈ rest.head?, isDecimal c = false ∧ c ≠ '.') :
    readFraction (fractionText digits ++ rest) = (digits, rest) := by
  obtain ⟨htake, hdrop⟩ := takeWhile_append_of_head hdigits fun c hc => (hrest c hc).1
  cases digits with
  | nil =>
    cases rest with
    | nil => rfl
    | cons c rest =>
      have hpoint := (hrest c rfl).2
      simp [fractionText, readFraction, hpoint]
  | cons d digits =>
    show readFraction ('.' :: (d :: digits ++ rest)) = _
    simp only [readFraction, htake, hdrop]
    rfl

/-- What is read as a fraction is one. -/
theorem fractionText_of_readFraction {source digits rest : Text} (h : readFraction source = (digits, rest)) :
    (∀ c ∈ digits, isDecimal c) ∧ source = fractionText digits ++ rest := by
  unfold readFraction at h
  split at h
  · next tail =>
    split at h
    · obtain ⟨rfl, rfl⟩ := Prod.mk.inj h
      exact ⟨by simp, rfl⟩
    · next hne =>
      obtain ⟨rfl, rfl⟩ := Prod.mk.inj h
      refine ⟨fun c hc => List.mem_takeWhile_imp hc, ?_⟩
      rw [fractionText, if_neg hne, List.cons_append, List.takeWhile_append_dropWhile]
  · obtain ⟨rfl, rfl⟩ := Prod.mk.inj h
    exact ⟨by simp, rfl⟩

/-- The digits of an exponent, and the number that they stand for with a sign. -/
def readPower (negative : Bool) (source : Text) : Option (Int × Text) :=
  if (source.takeWhile isDecimal).isEmpty then none
  else some (signed negative (ofDigits (source.takeWhile isDecimal)), source.dropWhile isDecimal)

/-- After a minus sign comes a negative exponent. -/
theorem readExponent_minus {mark : Char} (hmark : mark = 'e' ∨ mark = 'E') (source : Text) :
    readExponent (mark :: '-' :: source) = readPower true source :=
  if_pos hmark

/-- After a plus sign comes a positive exponent. -/
theorem readExponent_plus {mark : Char} (hmark : mark = 'e' ∨ mark = 'E') (source : Text) :
    readExponent (mark :: '+' :: source) = readPower false source :=
  if_pos hmark

/-- An exponent without a sign is positive. -/
theorem readExponent_plain {mark : Char} (hmark : mark = 'e' ∨ mark = 'E') {source : Text}
    (hsign : ∀ c ∈ source.head?, c ≠ '-' ∧ c ≠ '+') : readExponent (mark :: source) = readPower false source := by
  unfold readExponent
  dsimp only
  rw [if_pos hmark]
  split
  · exact absurd rfl (hsign '-' rfl).1
  · exact absurd rfl (hsign '+' rfl).2
  · rfl

/-- The digits of an exponent are read as far as they go. -/
theorem readPower_append {digits rest : Text} (negative : Bool) (hne : digits ≠ []) (hdigits : ∀ c ∈ digits, isDecimal c)
    (hrest : ∀ c ∈ rest.head?, isDecimal c = false) :
    readPower negative (digits ++ rest) = some (signed negative (ofDigits digits), rest) := by
  obtain ⟨htake, hdrop⟩ := takeWhile_append_of_head hdigits hrest
  rw [readPower, htake, hdrop, if_neg (by simpa using hne)]

/-- What is read as the digits of an exponent are digits. -/
theorem digits_of_readPower {negative : Bool} {source rest : Text} {power : Int}
    (h : readPower negative source = some (power, rest)) :
    ∃ digits, digits ≠ [] ∧ (∀ c ∈ digits, isDecimal c) ∧ power = signed negative (ofDigits digits) ∧
      source = digits ++ rest := by
  rw [readPower, Option.ite_none_left_eq_some] at h
  obtain ⟨hne, h⟩ := h
  obtain ⟨rfl, rfl⟩ := Prod.mk.inj (Option.some.inj h)
  exact ⟨source.takeWhile isDecimal, by simpa using hne, fun c hc => List.mem_takeWhile_imp hc, rfl,
    List.takeWhile_append_dropWhile.symm⟩

/-- An exponent is read as far as it goes. -/
theorem ExponentForm.readExponent_append {text rest : Text} {power : Int} (h : ExponentForm text power)
    (hne : text ≠ []) (hrest : ∀ c ∈ rest.head?, isDecimal c = false) :
    readExponent (text ++ rest) = some (power, rest) := by
  cases h with
  | absent => exact absurd rfl hne
  | @plain mark digits hmark hsome hdigits =>
    rw [List.cons_append, readExponent_plain hmark, readPower_append false hsome hdigits hrest]
    · rfl
    · -- A digit is neither of the two signs.
      obtain ⟨first, tail, rfl⟩ := List.exists_cons_of_ne_nil hsome
      intro c hc
      obtain rfl : first = c := Option.some.inj hc
      have hfirst := hdigits first List.mem_cons_self
      constructor
      · rintro rfl
        exact absurd hfirst (by decide)
      · rintro rfl
        exact absurd hfirst (by decide)
  | plus hmark hsome hdigits =>
    rw [List.cons_append, List.cons_append, readExponent_plus hmark]
    exact readPower_append false hsome hdigits hrest
  | minus hmark hsome hdigits =>
    rw [List.cons_append, List.cons_append, readExponent_minus hmark]
    exact readPower_append true hsome hdigits hrest

/-- No exponent is read where none begins. -/
theorem readExponent_eq_none {rest : Text} (hrest : ∀ c ∈ rest.head?, c ≠ 'e' ∧ c ≠ 'E') :
    readExponent rest = none := by
  cases rest with
  | nil => rfl
  | cons c rest =>
    unfold readExponent
    exact if_neg (not_or.2 (hrest c rfl))

/-- What is read as an exponent is one. -/
theorem exponentForm_of_readExponent {source rest : Text} {power : Int} (h : readExponent source = some (power, rest)) :
    ∃ text, ExponentForm text power ∧ text ≠ [] ∧ source = text ++ rest := by
  cases source with
  | nil => exact absurd h (by simp [readExponent])
  | cons mark source =>
    have hmark : mark = 'e' ∨ mark = 'E' := by
      by_contra hnot
      rw [not_or] at hnot
      rw [readExponent_eq_none (by simpa using hnot)] at h
      exact absurd h (by simp)
    by_cases hminus : ∃ rest, source = '-' :: rest
    · obtain ⟨source, rfl⟩ := hminus
      rw [readExponent_minus hmark] at h
      obtain ⟨digits, hne, hdigits, rfl, rfl⟩ := digits_of_readPower h
      exact ⟨mark :: '-' :: digits, .minus hmark hne hdigits, by simp, rfl⟩
    by_cases hplus : ∃ rest, source = '+' :: rest
    · obtain ⟨source, rfl⟩ := hplus
      rw [readExponent_plus hmark] at h
      obtain ⟨digits, hne, hdigits, rfl, rfl⟩ := digits_of_readPower h
      exact ⟨mark :: '+' :: digits, .plus hmark hne hdigits, by simp, rfl⟩
    · have hsign : ∀ c ∈ source.head?, c ≠ '-' ∧ c ≠ '+' := by
        intro c hc
        obtain ⟨rest, rfl⟩ := List.head?_eq_some_iff.1 hc
        exact ⟨fun heq => hminus ⟨rest, by rw [heq]⟩, fun heq => hplus ⟨rest, by rw [heq]⟩⟩
      rw [readExponent_plain hmark hsign] at h
      obtain ⟨digits, hne, hdigits, rfl, rfl⟩ := digits_of_readPower h
      exact ⟨mark :: digits, .plain hmark hne hdigits, by simp, rfl⟩

/-- A number without a sign, read as one with the given sign. -/
def readUnsigned (negative : Bool) (unsigned : Text) : Option (Literal × Text) := do
  let (whole, afterWhole) ← readWhole unsigned
  let (fraction, afterFraction) := readFraction afterWhole
  match fraction, readExponent afterFraction with
  | [], none =>
    if mostDigits < whole.length then none
    else return (.int (signed negative (ofDigits whole)), afterFraction)
  | fraction, exponent =>
    let (exponent, rest) := exponent.getD (0, afterFraction)
    return (.float (.ofDecimal negative (ofDigits (whole ++ fraction)) (exponent - fraction.length)), rest)

/-- After a minus sign comes a negative number. -/
theorem readNumber_minus (source : Text) : readNumber ('-' :: source) = readUnsigned true source := rfl

/-- A number without a sign is positive. -/
theorem readNumber_plain {source : Text} (hsign : ∀ c ∈ source.head?, c ≠ '-') :
    readNumber source = readUnsigned false source := by
  unfold readNumber
  split
  next negative unsigned hsplit =>
    split at hsplit
    · exact absurd rfl (hsign '-' rfl)
    · obtain ⟨rfl, rfl⟩ := Prod.mk.inj hsplit
      rfl

/-- A number is an integer when it has neither a fraction nor an exponent. -/
theorem readUnsigned_eq {negative : Bool} {source whole afterWhole fraction rest : Text}
    (hwhole : readWhole source = some (whole, afterWhole)) (hfraction : readFraction afterWhole = (fraction, rest)) :
    readUnsigned negative source =
      match readExponent rest with
      | some (power, left) =>
        some (.float (.ofDecimal negative (ofDigits (whole ++ fraction)) (power - fraction.length)), left)
      | none =>
        if fraction ≠ [] then
          some (.float (.ofDecimal negative (ofDigits (whole ++ fraction)) (0 - fraction.length)), rest)
        else if mostDigits < whole.length then none
        else some (.int (signed negative (ofDigits whole)), rest) := by
  rw [readUnsigned, hwhole]
  simp only [Option.bind_eq_bind, Option.bind_some]
  rw [hfraction]
  cases hexponent : readExponent rest with
  | some exponent => cases fraction <;> rfl
  | none => cases fraction <;> rfl

/-- A number with a sign is read as a number without one, and gets the sign. -/
theorem readNumber_sign (negative : Bool) {unsigned : Text} (hsign : ∀ c ∈ unsigned.head?, c ≠ '-') :
    readNumber (sign negative ++ unsigned) = readUnsigned negative unsigned := by
  cases negative with
  | false => exact readNumber_plain hsign
  | true => exact readNumber_minus unsigned

/-- The digits of an integer do not begin with a minus sign. -/
theorem IsWhole.head_ne_minus {digits : Text} (h : IsWhole digits) (rest : Text) :
    ∀ c ∈ (digits ++ rest).head?, c ≠ '-' := by
  obtain ⟨first, tail, rfl⟩ := List.exists_cons_of_ne_nil h.1
  rintro c hc rfl
  obtain rfl : first = '-' := Option.some.inj hc
  exact absurd (h.2.1 '-' List.mem_cons_self) (by decide)

/-- Neither an exponent nor what can follow a number continues the digits before it. -/
theorem ExponentForm.head_append {text rest : Text} {power : Int} (h : ExponentForm text power) (hrest : Apart rest) :
    ∀ c ∈ (text ++ rest).head?, isDecimal c = false ∧ c ≠ '.' := by
  have hmarks : ∀ mark : Char, mark = 'e' ∨ mark = 'E' → isDecimal mark = false ∧ mark ≠ '.' := by
    rintro mark (rfl | rfl) <;> decide
  intro c hc
  cases h with
  | absent =>
    have hpoint := hrest.isFalse (p := (· == '.')) (by decide) c hc
    exact ⟨hrest.isFalse (by decide) c hc, by simpa using hpoint⟩
  | plain hmark => exact hmarks c (Option.some.inj hc ▸ hmark)
  | plus hmark => exact hmarks c (Option.some.inj hc ▸ hmark)
  | minus hmark => exact hmarks c (Option.some.inj hc ▸ hmark)

/-- Neither a fraction nor what follows it continues the digits before it. -/
theorem head_fractionText_append {digits rest : Text} (hrest : ∀ c ∈ rest.head?, isDecimal c = false) :
    ∀ c ∈ (fractionText digits ++ rest).head?, isDecimal c = false := by
  cases digits with
  | nil => exact hrest
  | cons d digits =>
    intro c hc
    obtain rfl : '.' = c := Option.some.inj hc
    decide

/-- Nothing that can follow a number is read as an exponent. -/
theorem Apart.readExponent_eq_none {rest : Text} (h : Apart rest) : readExponent rest = none := by
  refine Literal.readExponent_eq_none fun c hc => ⟨?_, ?_⟩
  · rintro rfl
    exact absurd (h.isFalse (p := isWordStart) (by decide) 'e' hc) (by decide)
  · rintro rfl
    exact absurd (h.isFalse (p := isWordStart) (by decide) 'E' hc) (by decide)

/-- A number is read as far as it goes, in front of anything that can follow it. -/
theorem NumberForm.readNumber_append {text rest : Text} {value : Literal} (h : NumberForm text value)
    (hrest : Apart rest) : readNumber (text ++ rest) = some (value, rest) := by
  cases h with
  | int negative hwhole hlength =>
    have hwholeRead := hwhole.readWhole_append (hrest.isFalse (p := isDecimal) (by decide))
    have hfractionRead : readFraction (fractionText [] ++ rest) = ([], rest) :=
      readFraction_append (List.forall_mem_nil _) (ExponentForm.absent.head_append hrest)
    rw [List.append_assoc, readNumber_sign negative (hwhole.head_ne_minus _),
      readUnsigned_eq hwholeRead hfractionRead, hrest.readExponent_eq_none]
    simp only [ne_eq, not_true_eq_false, if_false, if_neg (Nat.not_lt.2 hlength)]
  | @float negative whole fraction exponent power hwhole hfraction hexponent hne =>
    have hhead := hexponent.head_append hrest
    have hwholeRead := hwhole.readWhole_append
      (head_fractionText_append fun c hc => (hhead c hc).1 : ∀ c ∈ (fractionText fraction ++ (exponent ++ rest)).head?, _)
    rw [List.append_assoc, List.append_assoc, List.append_assoc, readNumber_sign negative (hwhole.head_ne_minus _),
      readUnsigned_eq hwholeRead (readFraction_append hfraction hhead)]
    by_cases hexponentNe : exponent = []
    · -- Without an exponent there is a fraction.
      subst hexponentNe
      obtain rfl : power = 0 := by
        cases hexponent
        rfl
      rw [List.nil_append, hrest.readExponent_eq_none]
      exact if_pos (hne.resolve_right (by simp))
    · rw [hexponent.readExponent_append hexponentNe (hrest.isFalse (p := isDecimal) (by decide))]

/-- What is read as a number without a sign is one. -/
theorem numberForm_of_readUnsigned {negative : Bool} {source rest : Text} {value : Literal}
    (h : readUnsigned negative source = some (value, rest)) :
    ∃ text, NumberForm (sign negative ++ text) value ∧ source = text ++ rest := by
  obtain ⟨⟨whole, afterWhole⟩, hwholeRead, -⟩ := Option.bind_eq_some_iff.1 h
  obtain ⟨hwhole, rfl⟩ := isWhole_of_readWhole hwholeRead
  obtain ⟨⟨fraction, afterFraction⟩, hfractionRead⟩ : ∃ parts, readFraction afterWhole = parts := ⟨_, rfl⟩
  obtain ⟨hfraction, rfl⟩ := fractionText_of_readFraction hfractionRead
  rw [readUnsigned_eq hwholeRead hfractionRead] at h
  split at h
  · next power left hexponentRead =>
    obtain ⟨rfl, rfl⟩ := Prod.mk.inj (Option.some.inj h)
    obtain ⟨exponent, hexponent, hne, rfl⟩ := exponentForm_of_readExponent hexponentRead
    exact ⟨whole ++ (fractionText fraction ++ exponent), .float negative hwhole hfraction hexponent (Or.inr hne),
      by simp⟩
  · split at h
    · next hne =>
      obtain ⟨rfl, rfl⟩ := Prod.mk.inj (Option.some.inj h)
      exact ⟨whole ++ (fractionText fraction ++ []), .float negative hwhole hfraction .absent (Or.inl hne), by simp⟩
    · next hnil =>
      rw [Option.ite_none_left_eq_some] at h
      obtain ⟨hlength, h⟩ := h
      obtain ⟨rfl, rfl⟩ := Prod.mk.inj (Option.some.inj h)
      obtain rfl : fraction = [] := not_not.1 hnil
      exact ⟨whole, .int negative hwhole (Nat.not_lt.1 hlength), rfl⟩

/-- What is read as a number is one. -/
theorem numberForm_of_readNumber {source rest : Text} {value : Literal} (h : readNumber source = some (value, rest)) :
    ∃ text, NumberForm text value ∧ source = text ++ rest := by
  by_cases hminus : ∃ unsigned, source = '-' :: unsigned
  · obtain ⟨unsigned, rfl⟩ := hminus
    rw [readNumber_minus] at h
    obtain ⟨text, hform, rfl⟩ := numberForm_of_readUnsigned h
    exact ⟨sign true ++ text, hform, rfl⟩
  · have hsign : ∀ c ∈ source.head?, c ≠ '-' := by
      rintro c hc rfl
      obtain ⟨unsigned, rfl⟩ := List.head?_eq_some_iff.1 hc
      exact hminus ⟨unsigned, rfl⟩
    rw [readNumber_plain hsign] at h
    obtain ⟨text, hform, rfl⟩ := numberForm_of_readUnsigned h
    exact ⟨sign false ++ text, hform, rfl⟩

end AngularUplift.Literal
