import AngularUplift.Proofs.Literal.Completeness

/-!
# Nothing but literals is read

Whatever is read as a value is a text that spells it, in the tolerant dialect. The readers of values, items and fields
call one another with less fuel, so what each of them reads is shown for a step more of fuel from what the others read.

The tolerant dialect goes beyond the literals of JavaScript. Every text that is read and yet is no such literal shows
one of the slips that make the difference: a comma with nothing before it, a key that is no identifier, or a key that
sets no field.

## Main definitions

* `Literal.ReadsValues`, `Literal.ReadsItems`, `Literal.ReadsFields`: what the readers read with some fuel.
* `Literal.Slip`, `Literal.HasSlip`: where the tolerant dialect goes beyond JavaScript.

## Main statements

* `Literal.reads`: the readers read the phrases of the grammar.
* `Literal.Spells.javaScript_or_hasSlip`: without a slip the tolerant dialect is JavaScript.
* `Literal.classify_sound`: what is classified as the value of a literal.
-/

namespace AngularUplift.Literal

variable {source rest text : Text}

/-! ### Marks -/

/-- A text is the white space that it begins with and what follows it. -/
theorem exists_spacing (source : Text) : ∃ gap, Spacing gap ∧ source = gap ++ skipSpace source :=
  ⟨source.takeWhile isSpace, fun _ hc => List.mem_takeWhile_imp hc, List.takeWhile_append_dropWhile.symm⟩

/-- What follows the white space at the beginning does not begin with white space. -/
theorem isSpace_of_skipSpace_eq_cons {c : Char} {tail : Text} (h : skipSpace source = c :: tail) :
    isSpace c = false := by
  have hhead : (source.dropWhile isSpace).head? = some c := by
    rw [← skipSpace, h, List.head?_cons]
  have hnot := List.head?_dropWhile_not isSpace source
  rw [hhead] at hnot
  simpa using hnot

/-- A comma is read after white space. -/
theorem eq_append_of_readComma (h : readComma source = some rest) :
    ∃ gap, Spacing gap ∧ source = gap ++ ',' :: rest := by
  obtain ⟨gap, hgap, heq⟩ := exists_spacing source
  rw [readComma] at h
  split at h
  · next tail hskip =>
    obtain rfl := Option.some.inj h
    exact ⟨gap, hgap, hskip ▸ heq⟩
  · exact absurd h (by simp)

/-- A closing delimiter is read after white space, or after white space, a comma and more white space. -/
theorem eq_append_of_readClose {closing : Char} (h : readClose closing source = some rest) :
    ∃ gap, Spacing gap ∧
      (source = gap ++ closing :: rest ∨
        ∃ after, Spacing after ∧ source = gap ++ ',' :: (after ++ closing :: rest)) := by
  obtain ⟨gap, hgap, heq⟩ := exists_spacing source
  refine ⟨gap, hgap, ?_⟩
  rw [readClose] at h
  split at h
  · exact absurd h (by simp)
  · next c tail hskip =>
    rw [hskip] at heq
    split at h
    · next hc =>
      obtain rfl := Option.some.inj h
      exact Or.inl (hc ▸ heq)
    · rw [Option.ite_none_right_eq_some] at h
      obtain ⟨rfl, h⟩ := h
      -- After the comma nothing but white space may stand before the delimiter.
      obtain ⟨after, hafter, htail⟩ := exists_spacing tail
      split at h
      · exact absurd h (by simp)
      · next d more hmore =>
        rw [Option.ite_none_right_eq_some] at h
        obtain ⟨rfl, h⟩ := h
        obtain rfl := Option.some.inj h
        exact Or.inr ⟨after, hafter, by rw [← hmore, ← htail, heq]⟩

/-- What is read as a key is one, with a colon after it. -/
theorem keyForm_of_readKey {key : List CodePoint} (h : readKey source = some (key, rest)) :
    ∃ name gap, KeyForm .tolerant name key ∧ Spacing gap ∧ source = name ++ (gap ++ ':' :: rest) := by
  obtain ⟨⟨found, after⟩, hname, h⟩ := Option.bind_eq_some_iff.1 h
  obtain ⟨gap, hgap, hafter⟩ := exists_spacing after
  have hcolon : found = key ∧ after = gap ++ ':' :: rest := by
    dsimp only at h
    split at h
    · next tail hskip =>
      obtain ⟨rfl, rfl⟩ := Prod.mk.inj (Option.some.inj h)
      exact ⟨rfl, hskip ▸ hafter⟩
    · exact absurd h (by simp)
  obtain ⟨rfl, rfl⟩ := hcolon
  rcases Option.or_eq_some_iff.1 hname with hstring | ⟨-, hword⟩
  · obtain ⟨name, hform, rfl⟩ := readString_eq_some_iff.1 hstring
    exact ⟨name, gap, .string hform, hgap, rfl⟩
  · obtain ⟨⟨word, left⟩, hread, heq⟩ := Option.map_eq_some_iff.1 hword
    obtain ⟨rfl, rfl⟩ := Prod.mk.inj heq
    obtain ⟨hform, rfl⟩ := isWord_of_readWord hread
    exact ⟨word, gap, .word hform trivial, hgap, rfl⟩

/-! ### What the readers read -/

/-- With this fuel every value that is read is spelled by the text before the rest. -/
def ReadsValues (fuel : Nat) : Prop :=
  ∀ {source rest : Text} {value : Literal}, readValue fuel source = some (value, rest) →
    ∃ gap text, Spacing gap ∧ Spells .tolerant text (.value value) ∧ source = gap ++ (text ++ rest)

/-- With this fuel all items that are read are spelled by the text before the bracket. -/
def ReadsItems (fuel : Nat) : Prop :=
  ∀ {source rest : Text} {items : List Literal}, readItems fuel source = some (items, rest) →
    ∃ text, Spells .tolerant text (.elements (items.map some)) ∧ source = text ++ ']' :: rest

/-- With this fuel all fields that are read are spelled by the text before the brace, and are set one after the
other. -/
def ReadsFields (fuel : Nat) : Prop :=
  ∀ {known record : List (List CodePoint × Literal)} {source rest : Text},
    readFields fuel known source = some (record, rest) →
      ∃ text fields, Spells .tolerant text (.fields fields) ∧ record = setFields known fields ∧
        source = text ++ '}' :: rest

/-- What is read at a bracket is an array. -/
theorem spells_of_readValue_bracket {fuel : Nat} (hitems : ReadsItems fuel) {value : Literal}
    (h : readValue (fuel + 1) ('[' :: source) = some (value, rest)) :
    ∃ text, Spells .tolerant text (.value value) ∧ '[' :: source = text ++ rest := by
  rw [readValue_bracket] at h
  split at h
  · next left hclose =>
    obtain ⟨rfl, rfl⟩ := Prod.mk.inj (Option.some.inj h)
    obtain ⟨gap, hgap, rfl | ⟨after, hafter, rfl⟩⟩ := eq_append_of_readClose hclose
    · -- Nothing stands between the brackets, or else a comma alone.
      exact ⟨'[' :: (gap ++ [']']), @Spells.array _ gap [] (.noElement hgap), by simp⟩
    · exact ⟨_, .loneArray trivial hgap hafter, by simp⟩
  · obtain ⟨⟨items, left⟩, hread, heq⟩ := Option.map_eq_some_iff.1 h
    obtain ⟨rfl, rfl⟩ := Prod.mk.inj heq
    obtain ⟨body, hbody, rfl⟩ := hitems hread
    exact ⟨'[' :: (body ++ [']']), .array hbody, by simp⟩

/-- What is read at a brace is an object. -/
theorem spells_of_readValue_brace {fuel : Nat} (hfields : ReadsFields fuel) {value : Literal}
    (h : readValue (fuel + 1) ('{' :: source) = some (value, rest)) :
    ∃ text, Spells .tolerant text (.value value) ∧ '{' :: source = text ++ rest := by
  rw [readValue_brace] at h
  split at h
  · next left hclose =>
    obtain ⟨rfl, rfl⟩ := Prod.mk.inj (Option.some.inj h)
    obtain ⟨gap, hgap, rfl | ⟨after, hafter, rfl⟩⟩ := eq_append_of_readClose hclose
    · exact ⟨'{' :: (gap ++ ['}']), .object (.noField hgap) (isRecord_setFields []).1, by simp⟩
    · exact ⟨_, .loneObject trivial hgap hafter, by simp⟩
  · obtain ⟨⟨record, left⟩, hread, heq⟩ := Option.map_eq_some_iff.1 h
    obtain ⟨rfl, rfl⟩ := Prod.mk.inj heq
    obtain ⟨body, fields, hbody, rfl, rfl⟩ := hfields hread
    exact ⟨'{' :: (body ++ ['}']), .object hbody (isRecord_setFields fields).1, by simp⟩

/-- The reader of values reads values when the readers of items and fields read theirs. -/
theorem readsValues_succ {fuel : Nat} (hitems : ReadsItems fuel) (hfields : ReadsFields fuel) :
    ReadsValues (fuel + 1) := by
  intro source rest value h
  obtain ⟨gap, hgap, heq⟩ := exists_spacing source
  suffices hspells : ∃ text, Spells .tolerant text (.value value) ∧ skipSpace source = text ++ rest by
    obtain ⟨text, htext, hskip⟩ := hspells
    exact ⟨gap, text, hgap, htext, hskip ▸ heq⟩
  rw [heq, readValue_append _ hgap] at h
  cases hskip : skipSpace source with
  | nil =>
    rw [hskip, readValue] at h
    exact absurd h (by simp [skipSpace])
  | cons c tail =>
    rw [hskip] at h
    -- The reader decides by the first character.
    by_cases hbracket : c = '['
    · subst hbracket
      exact spells_of_readValue_bracket hitems h
    by_cases hbrace : c = '{'
    · subst hbrace
      exact spells_of_readValue_brace hfields h
    by_cases hquote : isPlainQuote c
    · rw [readValue_quote hquote] at h
      obtain ⟨⟨points, left⟩, hread, heq⟩ := Option.map_eq_some_iff.1 h
      obtain ⟨rfl, rfl⟩ := Prod.mk.inj heq
      obtain ⟨text, hform, htext⟩ := readString_eq_some_iff.1 hread
      exact ⟨text, .string hform, htext⟩
    by_cases hword : isWordStart c
    · rw [readValue_word hword] at h
      obtain ⟨⟨word, left⟩, hread, h⟩ := Option.bind_eq_some_iff.1 h
      obtain ⟨found, hkeyword, heq⟩ := Option.map_eq_some_iff.1 h
      obtain ⟨rfl, rfl⟩ := Prod.mk.inj heq
      exact ⟨word, .keyword hkeyword, (isWord_of_readWord hread).2⟩
    · rw [readValue_other (isSpace_of_skipSpace_eq_cons hskip) (Bool.eq_false_iff.2 hquote)
        (Bool.eq_false_iff.2 hword) hbracket hbrace] at h
      obtain ⟨text, hform, htext⟩ := numberForm_of_readNumber h
      exact ⟨text, .number hform, htext⟩

/-- The reader of items reads one more item than with less fuel. -/
theorem readsItems_succ {fuel : Nat} (hvalues : ReadsValues fuel) (hitems : ReadsItems fuel) :
    ReadsItems (fuel + 1) := by
  intro source rest items h
  cases hread : readValue fuel source with
  | none =>
    rw [readItems, hread] at h
    exact absurd h (by simp)
  | some read =>
    obtain ⟨value, after⟩ := read
    obtain ⟨before, text, hbefore, htext, rfl⟩ := hvalues hread
    rw [readItems_step hread] at h
    split at h
    · next left hclose =>
      obtain ⟨rfl, rfl⟩ := Prod.mk.inj (Option.some.inj h)
      -- The last item may have a comma after it.
      obtain ⟨gap, hgap, rfl | ⟨more, hmore, rfl⟩⟩ := eq_append_of_readClose hclose
      · exact ⟨before ++ (text ++ gap), .lastElement (.item hbefore htext hgap), by simp⟩
      · exact ⟨(before ++ (text ++ gap)) ++ ',' :: more, .element (.item hbefore htext hgap) (.noElement hmore),
          by simp⟩
    · obtain ⟨left, hcomma, h⟩ := Option.bind_eq_some_iff.1 h
      obtain ⟨⟨others, last⟩, hothers, heq⟩ := Option.map_eq_some_iff.1 h
      obtain ⟨rfl, rfl⟩ := Prod.mk.inj heq
      obtain ⟨gap, hgap, rfl⟩ := eq_append_of_readComma hcomma
      obtain ⟨more, hmore, rfl⟩ := hitems hothers
      exact ⟨(before ++ (text ++ gap)) ++ ',' :: more, .element (.item hbefore htext hgap) hmore, by simp⟩

/-- The reader of fields reads one more field than with less fuel. -/
theorem readsFields_succ {fuel : Nat} (hvalues : ReadsValues fuel) (hfields : ReadsFields fuel) :
    ReadsFields (fuel + 1) := by
  intro known record source rest h
  obtain ⟨before, hbefore, hsource⟩ := exists_spacing source
  cases hname : readKey (skipSpace source) with
  | none =>
    rw [readFields, hname] at h
    exact absurd h (by simp)
  | some name =>
  obtain ⟨key, middle⟩ := name
  cases hread : readValue fuel middle with
  | none =>
    rw [readFields, hname] at h
    simp only [Option.bind_eq_bind, Option.bind_some, hread] at h
    exact absurd h (by simp)
  | some read =>
    obtain ⟨value, after⟩ := read
    obtain ⟨word, gap, hword, hgap, hskip⟩ := keyForm_of_readKey hname
    obtain ⟨space, text, hspace, htext, rfl⟩ := hvalues hread
    have hfield : ∀ {left : Text}, Spacing left →
        Spells .tolerant (before ++ (word ++ (gap ++ ':' :: (space ++ (text ++ left))))) (.field key value) :=
      fun hleft => .field hbefore hword trivial hgap (.item hspace htext hleft)
    rw [readFields_step hname hread] at h
    rw [hskip] at hsource
    split at h
    · next left hclose =>
      obtain ⟨rfl, rfl⟩ := Prod.mk.inj (Option.some.inj h)
      obtain ⟨last, hlast, rfl | ⟨more, hmore, rfl⟩⟩ := eq_append_of_readClose hclose
      · exact ⟨_, _, .lastField (hfield hlast), rfl, by simp [hsource]⟩
      · exact ⟨_, _, .nextField (hfield hlast) (.noField hmore), rfl, by simp [hsource]⟩
    · obtain ⟨left, hcomma, hothers⟩ := Option.bind_eq_some_iff.1 h
      obtain ⟨last, hlast, rfl⟩ := eq_append_of_readComma hcomma
      obtain ⟨more, fields, hmore, rfl, rfl⟩ := hfields hothers
      exact ⟨_, _, .nextField (hfield hlast) hmore, rfl, by simp [hsource]⟩

/-- Whatever the fuel, the readers read the phrases of the grammar. -/
theorem reads (fuel : Nat) : ReadsValues fuel ∧ ReadsItems fuel ∧ ReadsFields fuel := by
  induction fuel with
  | zero =>
    -- Without fuel nothing is read.
    refine ⟨fun h => ?_, fun h => ?_, fun h => ?_⟩
    · exact absurd h (by simp [readValue])
    · exact absurd h (by simp [readItems])
    · exact absurd h (by simp [readFields])
  | succ fuel ih =>
    obtain ⟨hvalues, hitems, hfields⟩ := ih
    exact ⟨readsValues_succ hitems hfields, readsItems_succ hvalues hitems, readsFields_succ hvalues hfields⟩

/-- A text without white space at its ends that is read as a value spells it. -/
theorem spells_of_parse? {value : Literal} (hfirst : ∀ c ∈ text.head?, isBlank c = false)
    (hlast : ∀ c ∈ text.getLast?, isBlank c = false) (h : parse? text = some value) :
    Spells .tolerant text (.value value) := by
  rw [parse?_eq_readValue] at h
  obtain ⟨⟨found, left⟩, hread, h⟩ := Option.bind_eq_some_iff.1 h
  rw [Option.ite_none_right_eq_some] at h
  obtain ⟨hempty, h⟩ := h
  obtain rfl := Option.some.inj h
  obtain ⟨gap, value, hgap, hvalue, heq⟩ := (reads _).1 hread
  -- White space before or after the value would stand at an end of the text.
  have hnospace : ∀ c, isBlank c = false → isSpace c → False := by
    intro c hblank hspace
    rw [isSpace_eq_false hblank] at hspace
    exact Bool.false_ne_true hspace
  have hgapNil : gap = [] := by
    cases gap with
    | nil => rfl
    | cons c gap => exact (hnospace c (hfirst c (by rw [heq]; rfl)) (hgap c List.mem_cons_self)).elim
  have hleftNil : left = [] := by
    obtain ⟨space, hspace, hleft⟩ := exists_spacing left
    rw [List.isEmpty_iff.1 hempty, List.append_nil] at hleft
    subst hleft
    by_contra hne
    have hend : text.getLast? = some (left.getLast hne) := by
      rw [heq, ← List.append_assoc, List.getLast?_append_of_ne_nil _ hne, List.getLast?_eq_getLast_of_ne_nil hne]
    exact hnospace _ (hlast _ hend) (hspace _ (List.getLast_mem hne))
  rw [heq, hgapNil, hleftNil, List.append_nil]
  exact hvalue

/-! ### Slips -/

/-- Where the tolerant dialect goes beyond the literals of JavaScript. -/
inductive Slip : Text → Prop
  /-- A comma alone between brackets: it is an elision, and so an element. -/
  | loneArray {before after : Text} (hbefore : Spacing before) (hafter : Spacing after) :
      Slip ('[' :: (before ++ ',' :: (after ++ [']'])))
  /-- A comma alone between braces: it is not allowed. -/
  | loneObject {before after : Text} (hbefore : Spacing before) (hafter : Spacing after) :
      Slip ('{' :: (before ++ ',' :: (after ++ ['}'])))
  /-- A bare word before a colon that is no identifier. -/
  | word {word gap : Text} (hword : IsWord word) (hnot : ∃ c ∈ word, isIdentifierPart c = false)
      (hgap : Spacing gap) : Slip (word ++ (gap ++ [':']))
  /-- The key that sets the prototype of an object, and no field of it. -/
  | prototype {name gap : Text} (hname : KeyForm .tolerant name (CodePoint.ofText (txt "__proto__")))
      (hgap : Spacing gap) : Slip (name ++ (gap ++ [':']))

/-- A slip is somewhere in the text. -/
def HasSlip (text : Text) : Prop := ∃ slip, Slip slip ∧ slip <:+: text

/-- A slip in a part of a text is one in the text. -/
theorem HasSlip.mono {part : Text} (h : HasSlip part) (hpart : part <:+: text) : HasSlip text := by
  obtain ⟨slip, hslip, hinfix⟩ := h
  exact ⟨slip, hslip, hinfix.trans hpart⟩

/-- A key is one in JavaScript, or there is a slip where its colon stands. -/
theorem KeyForm.javaScript_or_hasSlip {name gap : Text} {key : List CodePoint} (h : KeyForm .tolerant name key)
    (hgap : Spacing gap) :
    (KeyForm .javaScript name key ∧ Dialect.javaScript.key key) ∨ HasSlip (name ++ (gap ++ [':'])) := by
  -- The key that a name stands for decides first, whether it is written as a word or as a string.
  by_cases hkey : key = CodePoint.ofText (txt "__proto__")
  · subst hkey
    exact Or.inr ⟨_, .prototype h hgap, List.infix_rfl⟩
  cases h with
  | word hword _ =>
    by_cases hallowed : ∀ c ∈ name, isIdentifierPart c
    · exact Or.inl ⟨.word hword hallowed, hkey⟩
    · push Not at hallowed
      obtain ⟨c, hc, hnot⟩ := hallowed
      exact Or.inr ⟨_, .word hword ⟨c, hc, Bool.eq_false_iff.2 hnot⟩ hgap, List.infix_rfl⟩
  | string hstring => exact Or.inl ⟨.string hstring, hkey⟩

/-- Without a slip, what the tolerant dialect spells is spelled in JavaScript, and stands for the same. -/
theorem Spells.javaScript_or_hasSlip {phrase : Phrase} (h : Spells .tolerant text phrase) :
    Spells .javaScript text phrase ∨ HasSlip text := by
  -- A slip in a part of a phrase is one in the phrase, so only the phrases that are made of none have to be looked at.
  induction h with
  | keyword hword => exact Or.inl (.keyword hword)
  | number hnumber => exact Or.inl (.number hnumber)
  | string hstring => exact Or.inl (.string hstring)
  | @array body _ _ ih =>
    refine ih.imp .array fun hslip => hslip.mono ?_
    exact ⟨['['], [']'], rfl⟩
  | @object body _ _ _ hrecord ih =>
    refine ih.imp (fun hbody => .object hbody hrecord) fun hslip => hslip.mono ?_
    exact ⟨['{'], ['}'], rfl⟩
  | loneArray _ hbefore hafter => exact Or.inr ⟨_, .loneArray hbefore hafter, List.infix_rfl⟩
  | loneObject _ hbefore hafter => exact Or.inr ⟨_, .loneObject hbefore hafter, List.infix_rfl⟩
  | @item before text after _ hbefore _ hafter ih =>
    refine ih.imp (fun hvalue => .item hbefore hvalue hafter) fun hslip => hslip.mono ?_
    exact ⟨before, after, List.append_assoc before text after⟩
  | noElement hgap => exact Or.inl (.noElement hgap)
  | lastElement _ ih => exact ih.imp_left .lastElement
  | @element text more _ _ _ _ ihitem ihmore =>
    -- The first part decides; only when it is free of slips does the second one.
    rcases ihitem with hitem | hslip
    · refine ihmore.imp (.element hitem) fun hslip => hslip.mono ?_
      exact (List.suffix_cons ',' more).isInfix.trans (List.suffix_append text _).isInfix
    · exact Or.inr (hslip.mono (List.prefix_append text _).isInfix)
  | @elision gap more _ hgap _ ih =>
    refine ih.imp (.elision hgap) fun hslip => hslip.mono ?_
    exact (List.suffix_cons ',' more).isInfix.trans (List.suffix_append gap _).isInfix
  | @field before name gap text _ _ hbefore hname _ hgap _ ih =>
    rcases hname.javaScript_or_hasSlip hgap with ⟨hform, hkey⟩ | hslip
    · refine ih.imp (.field hbefore hform hkey hgap) fun hslip => hslip.mono ?_
      exact ⟨before ++ (name ++ (gap ++ [':'])), [], by simp⟩
    · exact Or.inr (hslip.mono ⟨before, text, by simp⟩)
  | noField hgap => exact Or.inl (.noField hgap)
  | lastField _ ih => exact ih.imp_left .lastField
  | @nextField text more _ _ _ _ _ ihfield ihmore =>
    rcases ihfield with hfield | hslip
    · refine ihmore.imp (.nextField hfield) fun hslip => hslip.mono ?_
      exact (List.suffix_cons ',' more).isInfix.trans (List.suffix_append text _).isInfix
    · exact Or.inr (hslip.mono (List.prefix_append text _).isInfix)

/-! ### Classifying a text -/

/-- What is not dynamic is a literal: without the white space around it and the semicolons after it, the text spells
the value that is handed out and no other one, and the kind is that of the value. In JavaScript the text spells this
value too, unless it shows a slip. -/
theorem classify_sound (h : (classify source).1 ≠ .dynamic) :
    ∃ value, classify source = (value.kind, some value) ∧ value ≠ .null ∧
      Spells .tolerant (trimExpression source) (.value value) ∧
      (∀ d other, Spells d (trimExpression source) (.value other) → other = value) ∧
      (Spells .javaScript (trimExpression source) (.value value) ∨ HasSlip (trimExpression source)) := by
  have hspells : ∀ value, parse? (trimExpression source) = some value →
      Spells .tolerant (trimExpression source) (.value value) :=
    fun value => spells_of_parse? (fun _ => Text.isBlank_head_trim) fun _ => Text.isBlank_getLast_trim
  cases hparse : parse? (trimExpression source) with
  | none =>
    rw [classify_eq, hparse] at h
    exact absurd rfl h
  | some value =>
    have hnull : value ≠ .null := by
      rintro rfl
      rw [classify_eq, hparse] at h
      exact absurd rfl h
    have hvalue := hspells value hparse
    refine ⟨value, ?_, hnull, hvalue, fun d other hother => ?_, hvalue.javaScript_or_hasSlip⟩
    · rw [classify_eq, hparse]
      cases value with
      | null => exact absurd rfl hnull
      | _ => rfl
    · -- Whatever the text spells is read from it.
      rw [hother.parse?_eq] at hparse
      exact Option.some.inj hparse

/-- A list with a record in it, between white space and a semicolon, is read as what it spells. -/
theorem classify_sound_nested :
    let source := txt " [1, \x7bb: 'x'\x7d,] ;"
    (classify source).1 = .array ∧ ∃ value, classify source = (value.kind, some value) ∧
      Spells .tolerant (txt "[1, \x7bb: 'x'\x7d,]") (.value value) := by
  intro source
  have hkind : (classify source).1 = .array := by decide +kernel
  have htrim : trimExpression source = txt "[1, \x7bb: 'x'\x7d,]" := by decide +kernel
  obtain ⟨value, hclassify, -, hspells, -⟩ := classify_sound (by rw [hkind]; decide : (classify source).1 ≠ .dynamic)
  exact ⟨hkind, value, hclassify, htrim ▸ hspells⟩

/-- Between delimiters with a comma there is more than white space. -/
theorem not_spacing_of_comma {opening closing : Char} {before after body : Text}
    (h : opening :: (before ++ ',' :: (after ++ [closing])) = opening :: (body ++ [closing])) : ¬Spacing body := by
  have htail := (List.cons.inj h).2
  rw [← List.cons_append, ← List.append_assoc] at htail
  obtain rfl : before ++ ',' :: after = body := List.append_cancel_right htail
  intro hspace
  exact absurd (hspace ',' (by simp)) (by decide)

/-- Where no comma may stand alone, a text with one between its brackets has no value. -/
theorem not_spells_loneArray {d : Dialect} (hcomma : ¬d.loneComma) {before after : Text} (hbefore : Spacing before)
    (hafter : Spacing after) (value : Literal) :
    ¬Spells d ('[' :: (before ++ ',' :: (after ++ [']']))) (.value value) := by
  intro h
  -- The reader takes the text for an empty list, so only a list without elements could be meant.
  have htolerant : Spells .tolerant ('[' :: (before ++ ',' :: (after ++ [']']))) (.value (.list [])) :=
    .loneArray trivial hbefore hafter
  obtain rfl : value = .list [] := Option.some.inj (h.parse?_eq.symm.trans htolerant.parse?_eq)
  generalize htext : '[' :: (before ++ ',' :: (after ++ [']'])) = text at h
  cases h with
  | keyword hword => rcases keyword_eq hword with rfl | rfl | rfl <;> exact absurd (List.cons.inj htext).1 (by decide)
  | number hnumber => cases hnumber
  | array hbody => exact not_spacing_of_comma htext hbody.spacing_elements
  | loneArray hallowed _ _ => exact hcomma hallowed

/-- Where no comma may stand alone, a text with one between its braces has no value. -/
theorem not_spells_loneObject {d : Dialect} (hcomma : ¬d.loneComma) {before after : Text} (hbefore : Spacing before)
    (hafter : Spacing after) (value : Literal) :
    ¬Spells d ('{' :: (before ++ ',' :: (after ++ ['}']))) (.value value) := by
  intro h
  have htolerant : Spells .tolerant ('{' :: (before ++ ',' :: (after ++ ['}']))) (.value (.record [])) :=
    .loneObject trivial hbefore hafter
  obtain rfl : value = .record [] := Option.some.inj (h.parse?_eq.symm.trans htolerant.parse?_eq)
  generalize htext : '{' :: (before ++ ',' :: (after ++ ['}'])) = text at h
  cases h with
  | keyword hword => rcases keyword_eq hword with rfl | rfl | rfl <;> exact absurd (List.cons.inj htext).1 (by decide)
  | number hnumber => cases hnumber
  | @object body fields _ hbody hrecord =>
    -- A record without keys is written without fields.
    have hfields : fields = [] := by
      refine List.eq_nil_iff_forall_not_mem.2 fun field hfield => ?_
      have hkey : field.1 ∈ (fields.map (·.1)).eraseDups := List.mem_eraseDups.2 (List.mem_map_of_mem hfield)
      rw [← hrecord.1] at hkey
      exact absurd hkey List.not_mem_nil
    subst hfields
    exact not_spacing_of_comma htext hbody.spacing_fields
  | loneObject hallowed _ _ => exact hcomma hallowed

/-- A comma alone between brackets or braces is read as nothing, although in JavaScript it is an element without a
value in the one case, and no literal in the other. -/
theorem lone_comma_classified :
    (classify (txt "[,]") = (.array, some (.list [])) ∧
      (∀ value, ¬Spells .javaScript (txt "[,]") (.value value)) ∧
      Spells .javaScript (txt ",") (.elements [none])) ∧
    (classify (txt "\x7b,\x7d") = (.record, some (.record [])) ∧
      ∀ value, ¬Spells .javaScript (txt "\x7b,\x7d") (.value value)) := by
  have hnone : Spacing [] := List.forall_mem_nil _
  refine ⟨⟨rfl, not_spells_loneArray id hnone hnone, .elision hnone (.noElement hnone)⟩, rfl, ?_⟩
  exact not_spells_loneObject id hnone hnone

end AngularUplift.Literal
