import AngularUplift.Member
import AngularUplift.Proofs.Text.CodePoint

/-!
# Reading literals from texts

A text is a source without halves of surrogate pairs, and the reader of literals needs no code points there: it takes
characters off the beginning of a text and hands on a text. That reader is defined here, with the same cases, and the
reader of sources does on the code points of a text what it does on the text. Facts about texts are then proved with
characters alone.

## Main definitions

* `Literal.readString`, `Literal.readValue`: the tokens and the values of the grammar, read from a text.
* `Literal.onSource`: what is read from a text, with the code points of what is left.

## Main statements

* `Literal.scanString_ofText`, `Literal.scan_ofText`: reading a text as a source.
* `Literal.parse?_eq_readValue`, `Literal.classify_eq`: a text that is one literal, and its classification.
-/

namespace AngularUplift

namespace Literal

/-! ### The reader of texts -/

/-- The text without the white space it begins with. -/
def skipSpace (text : Text) : Text := text.dropWhile isSpace

/-- The code points of a string up to its closing mark, and the text after it. Control characters have to be
escaped. -/
def readPoints (quote : Char) : Text → Option (List CodePoint × Text)
  | [] => none
  | '\\' :: 'u' :: a :: b :: c :: d :: rest => do
    let unit ← hexUnit? a b c d
    let (points, rest) ← readPoints quote rest
    return (.ofNat unit :: points, rest)
  | '\\' :: c :: rest => do
    let code ← escape? quote c
    let (points, rest) ← readPoints quote rest
    return (.ofNat code :: points, rest)
  | c :: rest =>
    if c = quote then some ([], rest)
    else if c = '\\' ∨ c.toNat < 0x20 then none
    else do
      let (points, rest) ← readPoints quote rest
      return (.char c :: points, rest)

/-- A string in single or double quotation marks. -/
def readString : Text → Option (List CodePoint × Text)
  | [] => none
  | quote :: rest =>
    if isPlainQuote quote then
      (readPoints quote rest).map fun (points, rest) => (CodePoint.pair points, rest)
    else none

/-- A key of a record with the colon after it. -/
def readKey (source : Text) : Option (List CodePoint × Text) := do
  let word := (readWord source).map fun (word, rest) => (CodePoint.ofText word, rest)
  let (key, rest) ← (readString source).or word
  match skipSpace rest with
  | ':' :: rest => return (key, rest)
  | _ => none

/-- The text after a closing delimiter, which may have a comma before it. -/
def readClose (closing : Char) (source : Text) : Option Text :=
  match skipSpace source with
  | [] => none
  | c :: rest =>
    if c = closing then some rest
    else if c = ',' then
      match skipSpace rest with
      | [] => none
      | d :: rest => if d = closing then some rest else none
    else none

/-- The text after a comma. -/
def readComma (source : Text) : Option Text :=
  match skipSpace source with
  | ',' :: rest => some rest
  | _ => none

mutual

/-- A value and the text after it. -/
def readValue : (fuel : Nat) → Text → Option (Literal × Text)
  | 0, _ => none
  | fuel + 1, source =>
    match skipSpace source with
    | [] => none
    | c :: rest =>
      if c = '[' then
        match readClose ']' rest with
        | some rest => some (.list [], rest)
        | none => (readItems fuel rest).map fun (items, rest) => (.list items, rest)
      else if c = '{' then
        match readClose '}' rest with
        | some rest => some (.record [], rest)
        | none => (readFields fuel [] rest).map fun (fields, rest) => (.record fields, rest)
      else if isPlainQuote c then
        (readString (c :: rest)).map fun (value, rest) => (.string value, rest)
      else if isWordStart c then do
        let (word, rest) ← readWord (c :: rest)
        let value ← keyword? word
        return (value, rest)
      else readNumber (c :: rest)

/-- The items of a list that has at least one, and the text after the list. -/
def readItems : (fuel : Nat) → Text → Option (List Literal × Text)
  | 0, _ => none
  | fuel + 1, source => do
    let (item, rest) ← readValue fuel source
    match readClose ']' rest with
    | some rest => return ([item], rest)
    | none => do
      let rest ← readComma rest
      let (items, rest) ← readItems fuel rest
      return (item :: items, rest)

/-- The fields of a record that has at least one more, put into those already read, and the text after the
record. -/
def readFields : (fuel : Nat) → List (List CodePoint × Literal) → Text →
    Option (List (List CodePoint × Literal) × Text)
  | 0, _, _ => none
  | fuel + 1, fields, source => do
    let (key, rest) ← readKey (skipSpace source)
    let (value, rest) ← readValue fuel rest
    let fields := setField key value fields
    match readClose '}' rest with
    | some rest => return (fields, rest)
    | none => do
      let rest ← readComma rest
      readFields fuel fields rest

end

/-! ### Tokens -/

/-- What is read from a text, with the code points of what is left. -/
def onSource {α : Type} (result : Option (α × Text)) : Option (α × List CodePoint) :=
  result.map fun (found, rest) => (found, CodePoint.ofText rest)

/-- A token of characters is read from a source as from a text. -/
theorem scanText_ofText {α : Type} (read : Text → Option (α × Text)) (text : Text) :
    scanText read (CodePoint.ofText text) = onSource (read text) := by
  rw [scanText, CodePoint.chars_ofText, CodePoint.afterChars_ofText]
  simp only [List.append_nil]
  rfl

/-- White space is skipped in a source as in a text. -/
theorem scanSpace_ofText (text : Text) : scanSpace (CodePoint.ofText text) = CodePoint.ofText (skipSpace text) :=
  CodePoint.dropWhile_ofText isSpace text

/-- A closing delimiter is read from a source as from a text. -/
theorem scanClose_ofText (closing : Char) (text : Text) :
    scanClose closing (CodePoint.ofText text) = (readClose closing text).map CodePoint.ofText := by
  rw [scanClose, readClose, scanSpace_ofText]
  cases skipSpace text with
  | nil => rfl
  | cons c rest =>
    simp only [CodePoint.ofText_cons, CodePoint.char.injEq, scanSpace_ofText]
    split
    · rfl
    split
    · cases skipSpace rest with
      | nil => rfl
      | cons d rest =>
        simp only [CodePoint.ofText_cons, CodePoint.char.injEq]
        split
        · rfl
        · rfl
    · rfl

/-- A comma is read from a source as from a text. -/
theorem scanComma_ofText (text : Text) :
    scanComma (CodePoint.ofText text) = (readComma text).map CodePoint.ofText := by
  rw [scanComma, readComma, scanSpace_ofText]
  cases skipSpace text with
  | nil => rfl
  | cons c rest =>
    by_cases hc : c = ','
    · subst hc
      rfl
    · simp [CodePoint.ofText_cons, hc]

/-! ### Strings -/

/-- Parts of a string without halves that stand for themselves. -/
def Written (parts : List StringPart) : Prop := ∀ part ∈ parts, ∀ unit, part ≠ .plain (.half unit)

/-- Where no half stands for itself, all halves that belong together are put together. -/
theorem Written.joinParts_eq {parts : List StringPart} (h : Written parts) :
    joinParts parts = CodePoint.pair (parts.map StringPart.point) := by
  fun_induction joinParts parts with
  | case1 => rfl
  | case2 first second rest c hjoined ih =>
    obtain ⟨-, hrest⟩ := List.forall_mem_cons.1 (List.forall_mem_cons.1 h).2
    simp only [List.map_cons, StringPart.point, CodePoint.pair, hjoined, ih hrest]
  | case3 first second rest hjoined ih =>
    simp only [List.map_cons, StringPart.point, CodePoint.pair, hjoined, ih (List.forall_mem_cons.1 h).2]
  | case4 part rest hescaped ih =>
    obtain ⟨hpart, hrest⟩ := List.forall_mem_cons.1 h
    rw [ih hrest, List.map_cons, CodePoint.pair_cons]
    intro second hsecond
    -- Of two halves that belong together one would stand for itself, as not both are escaped.
    rw [Option.eq_none_iff_forall_ne_some]
    intro c hjoined
    obtain ⟨high, low, hfirst, rfl, -⟩ := CodePoint.exists_of_joined? hjoined
    cases part with
    | plain point => exact hpart high (congrArg StringPart.plain hfirst)
    | escaped point =>
      cases rest with
      | nil => exact absurd hsecond (by simp)
      | cons next rest =>
        have hpoint : next.point = .half low := by simpa using hsecond
        cases next with
        | plain other => exact (List.forall_mem_cons.1 hrest).1 low (congrArg StringPart.plain hpoint)
        | escaped other => exact hescaped point other rest rfl rfl

/-- The parts of a string are those of its code points, and no half of them stands for itself. -/
inductive SameParts : Option (List StringPart × List CodePoint) → Option (List CodePoint × Text) → Prop
  /-- There is no string. -/
  | none : SameParts none none
  /-- There is one. -/
  | some {parts : List StringPart} {rest : Text} (hwritten : Written parts) :
      SameParts (some (parts, CodePoint.ofText rest)) (some (parts.map StringPart.point, rest))

/-- One more part. -/
theorem SameParts.cons {scanned : Option (List StringPart × List CodePoint)} {read : Option (List CodePoint × Text)}
    (h : SameParts scanned read) {part : StringPart} (hpart : ∀ unit, part ≠ .plain (.half unit)) :
    SameParts (do
      let (parts, rest) ← scanned
      return (part :: parts, rest)) (do
      let (points, rest) ← read
      return (part.point :: points, rest)) := by
  cases h with
  | none => exact .none
  | some hwritten => exact .some (List.forall_mem_cons.2 ⟨hpart, hwritten⟩)

/-- A character of a string that begins no escape. -/
theorem scanParts_char (quote : Char) {c : Char} {rest : Text}
    (hescape : ∀ (letter : Char) (tail : Text), c = '\\' → rest = letter :: tail → False) :
    scanParts quote (CodePoint.ofText (c :: rest)) =
      if c = quote then some ([], CodePoint.ofText rest)
      else if c = '\\' ∨ c.toNat < 0x20 then none
      else do
        let (parts, rest) ← scanParts quote (CodePoint.ofText rest)
        return (.plain (.char c) :: parts, rest) := by
  -- What looks like an escape among the code points looks like one in the text.
  have hsource : ∀ (letter : Char) (points : List CodePoint), CodePoint.char c = .char '\\' →
      CodePoint.ofText rest = .char letter :: points → False := fun letter points hc hpoints =>
    hescape letter (CodePoint.chars points) (CodePoint.char.inj hc)
      ((CodePoint.chars_ofText rest).symm.trans (congrArg CodePoint.chars hpoints))
  rw [CodePoint.ofText_cons, scanParts.eq_4 quote _ _ (fun _ _ _ _ _ hc hpoints => hsource _ _ hc hpoints) hsource]
  simp only [CodePoint.char.injEq, CodePoint.is, Bool.or_eq_true, beq_iff_eq, decide_eq_true_eq]

/-- The inside of a string is read from a source as from a text. -/
theorem sameParts_ofText (quote : Char) (text : Text) :
    SameParts (scanParts quote (CodePoint.ofText text)) (readPoints quote text) := by
  have hescaped : ∀ point unit, StringPart.escaped point ≠ .plain (.half unit) := nofun
  fun_induction readPoints quote text with
  | case1 => exact .none
  | case2 a b c d rest ih =>
    simp only [CodePoint.ofText_cons, scanParts]
    cases hexUnit? a b c d with
    | none => exact .none
    | some unit => exact ih.cons (hescaped _)
  | case3 c rest hunit ih =>
    -- What has the form of the longer escape in the source has it in the text.
    rw [CodePoint.ofText_cons, CodePoint.ofText_cons, scanParts.eq_3 quote c _ fun a b d e points hpoints hletter =>
      hunit a b d e (CodePoint.chars points) hletter
        ((CodePoint.chars_ofText rest).symm.trans (congrArg CodePoint.chars hpoints))]
    cases escape? quote c with
    | none => exact .none
    | some code => exact ih.cons (hescaped _)
  | case4 rest _ hescape =>
    rw [scanParts_char quote hescape, if_pos rfl]
    exact .some (List.forall_mem_nil _)
  | case5 c rest _ hescape hquote hcontrol =>
    rw [scanParts_char quote hescape, if_neg hquote, if_pos hcontrol]
    exact .none
  | case6 c rest _ hescape hquote hcontrol ih =>
    rw [scanParts_char quote hescape, if_neg hquote, if_neg hcontrol]
    exact ih.cons fun unit hhalf => by cases hhalf

/-- A string is read from a source as from a text. -/
theorem scanString_ofText (text : Text) : scanString (CodePoint.ofText text) = onSource (readString text) := by
  cases text with
  | nil => rfl
  | cons quote rest =>
    rw [CodePoint.ofText_cons, scanString, readString]
    split
    · have hparts := sameParts_ofText quote rest
      revert hparts
      generalize scanParts quote (CodePoint.ofText rest) = scanned
      generalize readPoints quote rest = read
      rintro (_ | hwritten)
      · rfl
      · simp only [Option.map_some, hwritten.joinParts_eq, onSource]
    · rfl

/-! ### Values -/

/-- A key is read from a source as from a text. -/
theorem scanKey_ofText (text : Text) : scanKey (CodePoint.ofText text) = onSource (readKey text) := by
  have hkey : (scanString (CodePoint.ofText text)).or
      ((scanText readWord (CodePoint.ofText text)).map (Prod.map CodePoint.ofText id)) =
      onSource ((readString text).or ((readWord text).map fun (word, rest) => (CodePoint.ofText word, rest))) := by
    rw [scanString_ofText, scanText_ofText]
    cases readString text with
    | some => rfl
    | none => cases readWord text <;> rfl
  rw [scanKey, readKey, hkey]
  cases (readString text).or ((readWord text).map fun (word, rest) => (CodePoint.ofText word, rest)) with
  | none => rfl
  | some found =>
    simp only [onSource, Option.map_some, Option.bind_eq_bind, Option.bind_some, scanSpace_ofText]
    cases skipSpace found.2 with
    | nil => rfl
    | cons c rest =>
      by_cases hc : c = ':'
      · subst hc
        rfl
      · simp [CodePoint.ofText_cons, hc]

section Step

variable {fuel : Nat}

/-- A value is read from a source as from a text when the items and the fields in it are. -/
theorem scanValue_succ_ofText
    (hitems : ∀ text, scanItems fuel (CodePoint.ofText text) = onSource (readItems fuel text))
    (hfields : ∀ known text, scanFields fuel known (CodePoint.ofText text) = onSource (readFields fuel known text))
    (text : Text) : scanValue (fuel + 1) (CodePoint.ofText text) = onSource (readValue (fuel + 1) text) := by
  rw [scanValue, readValue, scanSpace_ofText]
  cases skipSpace text with
  | nil => rfl
  | cons c rest =>
    simp only [CodePoint.ofText_cons, scanClose_ofText, hitems, hfields]
    -- The cases of both readers are those of the first character.
    split
    · cases readClose ']' rest with
      | some => rfl
      | none => cases readItems fuel rest <;> rfl
    split
    · cases readClose '}' rest with
      | some => rfl
      | none => cases readFields fuel [] rest <;> rfl
    rw [← CodePoint.ofText_cons, scanString_ofText, scanText_ofText, scanText_ofText]
    split
    · cases readString (c :: rest) <;> rfl
    split
    · cases readWord (c :: rest) with
      | none => rfl
      | some found => cases hword : keyword? found.1 <;> simp [onSource, hword]
    · rfl

/-- Items are read from a source as from a text when the first one is and the others are. -/
theorem scanItems_succ_ofText
    (hvalue : ∀ text, scanValue fuel (CodePoint.ofText text) = onSource (readValue fuel text))
    (hitems : ∀ text, scanItems fuel (CodePoint.ofText text) = onSource (readItems fuel text))
    (text : Text) : scanItems (fuel + 1) (CodePoint.ofText text) = onSource (readItems (fuel + 1) text) := by
  rw [scanItems, readItems, hvalue]
  cases readValue fuel text with
  | none => rfl
  | some found =>
    simp only [onSource, Option.map_some, Option.bind_eq_bind, Option.bind_some, scanClose_ofText]
    cases readClose ']' found.2 with
    | some => rfl
    | none =>
      simp only [Option.map_none, scanComma_ofText]
      cases readComma found.2 with
      | none => rfl
      | some rest =>
        simp only [Option.map_some, Option.bind_some, hitems]
        cases readItems fuel rest <;> rfl

/-- Fields are read from a source as from a text when the value of the first one is and the others are. -/
theorem scanFields_succ_ofText
    (hvalue : ∀ text, scanValue fuel (CodePoint.ofText text) = onSource (readValue fuel text))
    (hfields : ∀ known text, scanFields fuel known (CodePoint.ofText text) = onSource (readFields fuel known text))
    (known : List (List CodePoint × Literal)) (text : Text) :
    scanFields (fuel + 1) known (CodePoint.ofText text) = onSource (readFields (fuel + 1) known text) := by
  rw [scanFields, readFields, scanSpace_ofText, scanKey_ofText]
  cases readKey (skipSpace text) with
  | none => rfl
  | some key =>
    simp only [onSource, Option.map_some, Option.bind_eq_bind, Option.bind_some, hvalue]
    cases readValue fuel key.2 with
    | none => rfl
    | some found =>
      simp only [Option.map_some, Option.bind_some, scanClose_ofText]
      cases readClose '}' found.2 with
      | some => rfl
      | none =>
        simp only [Option.map_none, scanComma_ofText]
        cases readComma found.2 with
        | none => rfl
        | some rest => exact hfields _ rest

end Step

/-- Values, items and fields are read from a source as from a text. -/
theorem scan_ofText (fuel : Nat) :
    (∀ text, scanValue fuel (CodePoint.ofText text) = onSource (readValue fuel text)) ∧
      (∀ text, scanItems fuel (CodePoint.ofText text) = onSource (readItems fuel text)) ∧
      ∀ known text, scanFields fuel known (CodePoint.ofText text) = onSource (readFields fuel known text) := by
  induction fuel with
  | zero => exact ⟨fun _ => rfl, fun _ => rfl, fun _ _ => rfl⟩
  | succ fuel ih =>
    obtain ⟨hvalue, hitems, hfields⟩ := ih
    exact ⟨scanValue_succ_ofText hitems hfields, scanItems_succ_ofText hvalue hitems,
      scanFields_succ_ofText hvalue hfields⟩

/-- A text that is one literal. -/
theorem parse?_eq_readValue (text : Text) :
    parse? text = (readValue (2 * text.length + 2) text).bind fun (value, rest) =>
      if (skipSpace rest).isEmpty then some value else none := by
  have hlength : (CodePoint.ofText text).length = text.length := List.length_map _
  rw [parse?, parseSource?, hlength, (scan_ofText _).1]
  cases readValue (2 * text.length + 2) text with
  | none => rfl
  | some found =>
    simp only [onSource, Option.map_some, Option.bind_eq_bind, Option.bind_some, scanSpace_ofText]
    cases skipSpace found.2 <;> rfl

/-! ### Classification -/

/-- A text is trimmed as its code points are. -/
theorem trimSource_ofText (text : Text) : trimSource (CodePoint.ofText text) = CodePoint.ofText (trimExpression text) := by
  rw [trimSource, CodePoint.trim_ofText, CodePoint.dropRightWhile_ofText, CodePoint.trim_ofText]
  rfl

/-- A text is classified as the literal that it is when it is trimmed. -/
theorem classify_eq (text : Text) :
    classify text =
      match parse? (trimExpression text) with
      | none => (.dynamic, none)
      | some .null => (.dynamic, none)
      | some value => (value.kind, some value) := by
  rw [classify, classifySource, trimSource_ofText]
  rfl

end Literal

end AngularUplift
