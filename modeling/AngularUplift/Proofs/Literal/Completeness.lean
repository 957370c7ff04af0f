import AngularUplift.Proofs.Literal.Step

/-!
# Every literal is read

Whatever text spells a value is read as this value, wherever it stands. The proof follows the grammar: each phrase is
read by its reader when its parts are, in front of anything that can follow it. Two steps of fuel for each character
are enough, so a text that is a literal as a whole is classified as its value, also with white space around it and
semicolons after it.

## Main definitions

* `Literal.ReadAs`: how a phrase is read.

## Main statements

* `Literal.Spells.readAs`: every phrase is read.
* `Literal.Spells.parse?_eq`: a text that spells a value is read as it.
* `Literal.classify_spelled`: the classification of a text that spells a value.
-/

namespace AngularUplift.Literal

variable {text : Text}

/-! ### Reading phrases -/

/-- How a phrase is read, given two steps of fuel for each character: a value and an item in front of anything that can
follow them, elements with the bracket after them, and fields with the brace. -/
def ReadAs (text : Text) : Phrase → Prop
  | .value value => ∀ (fuel : Nat) (rest : Text), 2 * text.length ≤ fuel → Apart rest →
      readValue fuel (text ++ rest) = some (value, rest)
  | .item value => ∃ after, Spacing after ∧ ∀ (fuel : Nat) (rest : Text), 2 * text.length ≤ fuel → Apart rest →
      readValue fuel (text ++ rest) = some (value, after ++ rest)
  | .elements items => ∀ values : List Literal, items = values.map some → values ≠ [] →
      ∀ (fuel : Nat) (rest : Text), 2 * text.length + 1 ≤ fuel →
        readItems fuel (text ++ ']' :: rest) = some (values, rest)
  | .field key value => ∃ after, Spacing after ∧ ∀ (fuel : Nat) (rest : Text), 2 * text.length ≤ fuel → Apart rest →
      ∃ middle, readKey (skipSpace (text ++ rest)) = some (key, middle) ∧
        readValue fuel middle = some (value, after ++ rest)
  | .fields fields => fields ≠ [] → ∀ (known : List (List CodePoint × Literal)) (fuel : Nat) (rest : Text),
      2 * text.length + 1 ≤ fuel → readFields fuel known (text ++ '}' :: rest) = some (setFields known fields, rest)

/-- A comma, a bracket and a brace can follow a value. -/
theorem apart_cons {mark : Char} (h : mark = ',' ∨ mark = ']' ∨ mark = '}') (rest : Text) : Apart (mark :: rest) :=
  fun _ hc => Or.inr (Option.some.inj hc ▸ h)

/-- A text that takes one step to read is read with the fuel for its first character. -/
theorem readAs_of_step {value : Literal} (hne : text ≠ [])
    (h : ∀ (fuel : Nat) (rest : Text), Apart rest → readValue (fuel + 1) (text ++ rest) = some (value, rest)) :
    ReadAs text (.value value) := by
  intro fuel rest hfuel hrest
  have hpos : 0 < text.length := List.length_pos_iff.2 hne
  obtain ⟨less, rfl⟩ : ∃ less, fuel = less + 1 := ⟨fuel - 1, by omega⟩
  exact h less rest hrest

/-- A keyword is read. -/
theorem readAs_keyword {word : Text} {value : Literal} (h : keyword? word = some value) :
    ReadAs word (.value value) := by
  have hword : IsWord word := by
    rcases keyword_eq h with rfl | rfl | rfl
    · exact ⟨'t', txt "rue", rfl, rfl, List.all_eq_true.1 (by decide)⟩
    · exact ⟨'f', txt "alse", rfl, rfl, List.all_eq_true.1 (by decide)⟩
    · exact ⟨'n', txt "ull", rfl, rfl, List.all_eq_true.1 (by decide)⟩
  refine readAs_of_step ?_ fun fuel rest hrest => ?_
  · obtain ⟨first, tail, rfl, -⟩ := hword
    exact List.cons_ne_nil first tail
  · have hread := hword.readWord_append (hrest.isFalse (p := isWordPart) (by decide))
    obtain ⟨first, tail, rfl, hfirst, -⟩ := hword
    rw [List.cons_append] at hread ⊢
    rw [readValue_word hfirst, hread, Option.bind_some]
    simp only [h, Option.map_some]

/-- A number is read. -/
theorem readAs_number {value : Literal} (h : NumberForm text value) : ReadAs text (.value value) := by
  obtain ⟨c, tail, rfl, hc⟩ := h.eq_cons
  obtain ⟨hblank, hquote, hword, hmarks⟩ := of_isIntPart hc
  simp only [List.mem_cons, not_or] at hmarks
  refine readAs_of_step (List.cons_ne_nil c tail) fun fuel rest hrest => ?_
  have hread := h.readNumber_append hrest
  rw [List.cons_append] at hread ⊢
  rw [readValue_other (isSpace_eq_false hblank) hquote hword hmarks.1 hmarks.2.1, hread]

/-- A string is read. -/
theorem readAs_string {points : List CodePoint} (h : StringForm text points) :
    ReadAs text (.value (.string points)) := by
  cases h with
  | @quoted quote body points hquote hinside =>
    refine readAs_of_step (List.cons_ne_nil _ _) fun fuel rest _ => ?_
    rw [List.cons_append, readValue_quote hquote, ← List.cons_append,
      readString_eq_some_iff.2 ⟨_, .quoted hquote hinside, rfl⟩, Option.map_some]

/-- An array is read when its elements are. -/
theorem readAs_array {d : Dialect} {body : Text} {items : List Literal}
    (hbody : Spells d body (.elements (items.map some))) (hread : ReadAs body (.elements (items.map some))) :
    ReadAs ('[' :: (body ++ [']'])) (.value (.list items)) := by
  intro fuel rest hfuel _
  simp only [List.length_cons, List.length_append, List.length_nil] at hfuel
  obtain ⟨fuel, rfl⟩ : ∃ less, fuel = less + 1 := ⟨fuel - 1, by omega⟩
  rw [List.cons_append, List.append_assoc, List.singleton_append, readValue_bracket]
  -- Without elements the bracket is closed at once; otherwise the first element keeps it open.
  cases items with
  | nil => rw [readClose_append_closing (Or.inl rfl) hbody.spacing_elements]
  | cons item items =>
    rw [(hbody.led_elements _).readClose_eq_none (Or.inl rfl),
      hread (item :: items) rfl (List.cons_ne_nil _ _) fuel rest (by omega)]
    rfl

/-- An object is read when its fields are. -/
theorem readAs_object {d : Dialect} {body : Text} {fields : List (List CodePoint × Literal)}
    (hbody : Spells d body (.fields fields)) (hread : ReadAs body (.fields fields)) :
    ReadAs ('{' :: (body ++ ['}'])) (.value (.record (setFields [] fields))) := by
  intro fuel rest hfuel _
  simp only [List.length_cons, List.length_append, List.length_nil] at hfuel
  obtain ⟨fuel, rfl⟩ : ∃ less, fuel = less + 1 := ⟨fuel - 1, by omega⟩
  rw [List.cons_append, List.append_assoc, List.singleton_append, readValue_brace]
  cases fields with
  | nil =>
    rw [readClose_append_closing (Or.inr rfl) hbody.spacing_fields]
    rfl
  | cons field fields =>
    rw [(hbody.led_fields _).readClose_eq_none (Or.inr rfl), hread (List.cons_ne_nil _ _) [] fuel rest (by omega)]
    rfl

/-- A comma alone between delimiters is dropped. -/
theorem readClose_lone {closing : Char} (hclosing : closing = ']' ∨ closing = '}') {before after : Text}
    (hbefore : Spacing before) (hafter : Spacing after) (rest : Text) :
    readClose closing (before ++ ',' :: (after ++ closing :: rest)) = some rest := by
  rw [readClose_append closing hbefore, readClose_comma_closing hclosing hafter]

/-- An element with a comma after it is read when it and the elements after it are. -/
theorem readAs_element {d : Dialect} {more : Text} {value : Literal} {items : List (Option Literal)}
    (hmore : Spells d more (.elements items)) (hitem : ReadAs text (.item value))
    (hread : ReadAs more (.elements items)) : ReadAs (text ++ ',' :: more) (.elements (some value :: items)) := by
  obtain ⟨after, hafter, hvalue⟩ := hitem
  intro values hvalues _ fuel rest hfuel
  obtain ⟨first, others, rfl, hfirst, rfl⟩ := List.map_eq_cons_iff.1 hvalues.symm
  obtain rfl := Option.some.inj hfirst
  simp only [List.length_cons, List.length_append] at hfuel
  obtain ⟨fuel, rfl⟩ : ∃ less, fuel = less + 1 := ⟨fuel - 1, by omega⟩
  rw [List.append_assoc, List.cons_append,
    readItems_step (hvalue fuel _ (by omega) (apart_cons (Or.inl rfl) _))]
  -- The comma ends the list when no element follows it.
  cases others with
  | nil => rw [readClose_lone (Or.inl rfl) hafter hmore.spacing_elements]
  | cons next others =>
    rw [readClose_append _ hafter, (hmore.led_elements _).readClose_comma (Or.inl rfl), readComma_append hafter,
      readComma_comma]
    simp only [Option.bind_some]
    rw [hread (next :: others) rfl (List.cons_ne_nil _ _) fuel rest (by omega)]
    rfl

/-- A field with a comma after it is read when it and the fields after it are. -/
theorem readAs_nextField {d : Dialect} {more : Text} {key : List CodePoint} {value : Literal}
    {fields : List (List CodePoint × Literal)} (hmore : Spells d more (.fields fields))
    (hfield : ReadAs text (.field key value)) (hread : ReadAs more (.fields fields)) :
    ReadAs (text ++ ',' :: more) (.fields ((key, value) :: fields)) := by
  obtain ⟨after, hafter, hstep⟩ := hfield
  intro _ known fuel rest hfuel
  simp only [List.length_cons, List.length_append] at hfuel
  obtain ⟨fuel, rfl⟩ : ∃ less, fuel = less + 1 := ⟨fuel - 1, by omega⟩
  rw [List.append_assoc, List.cons_append]
  obtain ⟨middle, hkey, hvalue⟩ := hstep fuel (',' :: (more ++ '}' :: rest)) (by omega) (apart_cons (Or.inl rfl) _)
  rw [readFields_step hkey hvalue]
  -- The field just read goes to the known ones, and the comma ends the record when no field follows it.
  cases fields with
  | nil =>
    rw [readClose_lone (Or.inr rfl) hafter hmore.spacing_fields]
    rfl
  | cons next fields =>
    rw [readClose_append _ hafter, (hmore.led_fields _).readClose_comma (Or.inr rfl), readComma_append hafter,
      readComma_comma]
    simp only [Option.bind_some]
    rw [hread (List.cons_ne_nil _ _) (setField key value known) fuel rest (by omega)]
    rfl

/-- Every phrase of the grammar is read as what it stands for. -/
theorem Spells.readAs {d : Dialect} {phrase : Phrase} (h : Spells d text phrase) : ReadAs text phrase := by
  -- The fuel that the induction needs is bounded by the lengths of the parts, which add up to that of the text.
  induction h with
  | keyword hword => exact readAs_keyword hword
  | number hnumber => exact readAs_number hnumber
  | string hstring => exact readAs_string hstring
  | array hbody ih => exact readAs_array hbody ih
  | object hbody hrecord ih => exact hrecord.eq_setFields ▸ readAs_object hbody ih
  | loneArray _ hbefore hafter =>
    refine readAs_of_step (List.cons_ne_nil _ _) fun fuel rest _ => ?_
    rw [List.cons_append, readValue_bracket, List.append_assoc, List.cons_append, List.append_assoc,
      List.singleton_append, readClose_lone (Or.inl rfl) hbefore hafter]
  | loneObject _ hbefore hafter =>
    refine readAs_of_step (List.cons_ne_nil _ _) fun fuel rest _ => ?_
    rw [List.cons_append, readValue_brace, List.append_assoc, List.cons_append, List.append_assoc,
      List.singleton_append, readClose_lone (Or.inr rfl) hbefore hafter]
  | @item before text after value hbefore _ hafter ih =>
    refine ⟨after, hafter, fun fuel rest hfuel hrest => ?_⟩
    simp only [List.length_append] at hfuel
    rw [List.append_assoc, readValue_append fuel hbefore, List.append_assoc]
    exact ih fuel (after ++ rest) (by omega) (.append hafter hrest)
  | noElement _ => exact fun values hvalues hne => absurd (List.map_eq_nil_iff.1 hvalues.symm) hne
  | lastElement _ ih =>
    obtain ⟨after, hafter, hvalue⟩ := ih
    intro values hvalues _ fuel rest hfuel
    obtain ⟨first, others, rfl, hfirst, hothers⟩ := List.map_eq_cons_iff.1 hvalues.symm
    obtain rfl := Option.some.inj hfirst
    obtain rfl := List.map_eq_nil_iff.1 hothers
    obtain ⟨fuel, rfl⟩ : ∃ less, fuel = less + 1 := ⟨fuel - 1, by omega⟩
    rw [readItems_step (hvalue fuel _ (by omega) (apart_cons (Or.inr (Or.inl rfl)) _)),
      readClose_append_closing (Or.inl rfl) hafter]
  | element _ hmore ihitem ihmore => exact readAs_element hmore ihitem ihmore
  | elision _ _ _ =>
    -- An elision is the value of no element.
    intro values hvalues
    obtain ⟨first, others, -, hfirst, -⟩ := List.map_eq_cons_iff.1 hvalues.symm
    exact absurd hfirst (Option.some_ne_none first)
  | @field before name gap text key value hbefore hname _ hgap _ ih =>
    obtain ⟨after, hafter, hvalue⟩ := ih
    refine ⟨after, hafter, fun fuel rest hfuel hrest => ⟨text ++ rest, ?_, hvalue fuel rest ?_ hrest⟩⟩
    · -- What the key leaves for the value begins right after the colon.
      rw [List.append_assoc, skipSpace_append hbefore, List.append_assoc, List.append_assoc, List.cons_append,
        (hname.opening _).skipSpace_eq, hname.readKey_append hgap]
    · simp only [List.length_append, List.length_cons] at hfuel
      omega
  | noField _ => exact fun hne => absurd rfl hne
  | lastField _ ih =>
    obtain ⟨after, hafter, hstep⟩ := ih
    intro _ known fuel rest hfuel
    obtain ⟨fuel, rfl⟩ : ∃ less, fuel = less + 1 := ⟨fuel - 1, by omega⟩
    obtain ⟨middle, hkey, hvalue⟩ := hstep fuel ('}' :: rest) (by omega) (apart_cons (Or.inr (Or.inr rfl)) _)
    rw [readFields_step hkey hvalue, readClose_append_closing (Or.inr rfl) hafter]
    rfl
  | nextField _ hmore ihfield ihmore => exact readAs_nextField hmore ihfield ihmore

/-- A text that spells a value is read as it. -/
theorem Spells.parse?_eq {d : Dialect} {value : Literal} (h : Spells d text (.value value)) :
    parse? text = some value := by
  have hread : readValue (2 * text.length + 2) (text ++ []) = some (value, []) :=
    h.readAs _ [] (by omega) (by simp [Apart])
  rw [List.append_nil] at hread
  rw [parse?_eq_readValue, hread]
  rfl

/-! ### Classifying a literal -/

/-- An exponent ends with digits. -/
theorem ExponentForm.eq_append_digits {power : Int} (h : ExponentForm text power) (hne : text ≠ []) :
    ∃ front digits, text = front ++ digits ∧ digits ≠ [] ∧ ∀ c ∈ digits, isDecimal c := by
  cases h with
  | absent => exact absurd rfl hne
  | @plain mark digits _ hsome hdigits => exact ⟨[mark], digits, rfl, hsome, hdigits⟩
  | @plus mark digits _ hsome hdigits => exact ⟨[mark, '+'], digits, rfl, hsome, hdigits⟩
  | @minus mark digits _ hsome hdigits => exact ⟨[mark, '-'], digits, rfl, hsome, hdigits⟩

/-- A number ends with digits. -/
theorem NumberForm.eq_append_digits {value : Literal} (h : NumberForm text value) :
    ∃ front digits, text = front ++ digits ∧ digits ≠ [] ∧ ∀ c ∈ digits, isDecimal c := by
  cases h with
  | int negative hwhole _ => exact ⟨sign negative, _, rfl, hwhole.1, hwhole.2.1⟩
  | @float negative whole fraction exponent power hwhole hfraction hexponent hne =>
    by_cases hnil : exponent = []
    · -- Without an exponent there is a fraction, and the number ends with it.
      have hsome : fraction ≠ [] := hne.resolve_right (not_not_intro hnil)
      refine ⟨sign negative ++ (whole ++ ['.']), fraction, ?_, hsome, hfraction⟩
      rw [hnil, List.append_nil, fractionText, if_neg (by simpa using hsome)]
      simp
    · obtain ⟨front, digits, rfl, hsome, hdigits⟩ := hexponent.eq_append_digits hnil
      exact ⟨sign negative ++ (whole ++ (fractionText fraction ++ front)), digits, by simp, hsome, hdigits⟩

/-- A value ends with neither white space nor a semicolon. -/
theorem Spells.getLast_value {d : Dialect} {value : Literal} (h : Spells d text (.value value)) :
    ∀ c ∈ text.getLast?, isBlank c = false ∧ c ≠ ';' := by
  -- All forms but numbers and keywords end with a mark of their own.
  have hmark : ∀ (front : Text) {mark : Char}, isBlank mark = false ∧ mark ≠ ';' →
      ∀ c ∈ (front ++ [mark]).getLast?, isBlank c = false ∧ c ≠ ';' := by
    intro front mark hplain c hc
    rw [List.getLast?_concat] at hc
    exact Option.some.inj hc ▸ hplain
  cases h with
  | keyword hword =>
    rcases keyword_eq hword with rfl | rfl | rfl
    · exact hmark (txt "tru") (by decide)
    · exact hmark (txt "fals") (by decide)
    · exact hmark (txt "nul") (by decide)
  | number hnumber =>
    obtain ⟨front, digits, rfl, hne, hdigits⟩ := hnumber.eq_append_digits
    intro c hc
    rw [List.getLast?_append_of_ne_nil front hne] at hc
    have hpart : isIntPart c := by rw [isIntPart, hdigits c (List.mem_of_getLast? hc), Bool.or_true]
    obtain ⟨hblank, -, -, hmarks⟩ := of_isIntPart hpart
    refine ⟨hblank, ?_⟩
    rintro rfl
    exact hmarks (by decide)
  | string hstring =>
    cases hstring with
    | @quoted quote body _ hquote _ =>
      obtain ⟨hblank, hmarks⟩ := of_isPlainQuote hquote
      refine hmark (quote :: body) ⟨hblank, ?_⟩
      rintro rfl
      exact hmarks (by decide)
  | @array body _ _ => exact hmark ('[' :: body) (by decide)
  | @object body _ _ _ _ => exact hmark ('{' :: body) (by decide)
  | @loneArray before after _ _ _ =>
    have hbracket := hmark ('[' :: (before ++ ',' :: after)) (show isBlank ']' = false ∧ ']' ≠ ';' by decide)
    rwa [List.cons_append, List.append_assoc, List.cons_append] at hbracket
  | @loneObject before after _ _ _ =>
    have hbrace := hmark ('{' :: (before ++ ',' :: after)) (show isBlank '}' = false ∧ '}' ≠ ';' by decide)
    rwa [List.cons_append, List.append_assoc, List.cons_append] at hbrace

/-- White space around a text goes, and so do semicolons after it, when the text neither begins nor ends with such
characters. -/
theorem trimExpression_append {before middle after : Text} (hne : text ≠ [])
    (hfirst : ∀ c ∈ text.head?, isBlank c = false) (hlast : ∀ c ∈ text.getLast?, isBlank c = false ∧ c ≠ ';')
    (hbefore : ∀ c ∈ before, isBlank c) (hmiddle : ∀ c ∈ middle, isBlank c) (hafter : ∀ c ∈ after, isBlank c)
    (n : Nat) : trimExpression (before ++ (text ++ (middle ++ (List.replicate n ';' ++ after)))) = text := by
  have htrim : Text.trim text = text := Text.trim_eq_self hfirst fun c hc => (hlast c hc).1
  have hassoc : text ++ (middle ++ (List.replicate n ';' ++ after)) =
      (text ++ middle ++ List.replicate n ';') ++ after := by simp
  rw [trimExpression, Text.trim_append_left hbefore, hassoc, Text.trim_append_right hafter]
  cases n with
  | zero =>
    rw [List.replicate_zero, List.append_nil, Text.trim_append_right hmiddle, htrim,
      Text.dropRightWhile_eq_self fun c hc => by simpa using (hlast c hc).2, htrim]
  | succ n =>
    -- The semicolons keep the white space before them until they are dropped themselves.
    have houter : Text.trim (text ++ middle ++ List.replicate (n + 1) ';') =
        text ++ middle ++ List.replicate (n + 1) ';' := by
      refine Text.trim_eq_self (fun c hc => ?_) fun c hc => ?_
      · rw [List.append_assoc, List.head?_append_of_ne_nil text hne] at hc
        exact hfirst c hc
      · rw [List.replicate_succ', ← List.append_assoc, List.getLast?_concat] at hc
        obtain rfl : ';' = c := Option.some.inj hc
        decide
    have hinner : ∀ c ∈ (text ++ middle).getLast?, (c == ';') = false := by
      intro c hc
      rw [beq_eq_false_iff_ne]
      rw [List.getLast?_append, Option.mem_def, Option.or_eq_some_iff] at hc
      rcases hc with hmid | ⟨-, htext⟩
      · rintro rfl
        exact absurd (hmiddle ';' (List.mem_of_getLast? hmid)) (by decide)
      · exact (hlast c htext).2
    have hsemicolons : ∀ c ∈ List.replicate (n + 1) ';', (c == ';') = true := by
      intro c hc
      rw [List.eq_of_mem_replicate hc, beq_self_eq_true]
    rw [houter, Text.dropRightWhile_append hsemicolons, Text.dropRightWhile_eq_self hinner, Text.trim_append_right hmiddle, htrim]

/-- A text that spells a value is not trimmed, and around it white space and semicolons are. -/
theorem Spells.trimExpression_eq {d : Dialect} {value : Literal} (h : Spells d text (.value value))
    {before middle after : Text} (hbefore : ∀ c ∈ before, isBlank c) (hmiddle : ∀ c ∈ middle, isBlank c)
    (hafter : ∀ c ∈ after, isBlank c) (n : Nat) :
    trimExpression (before ++ (text ++ (middle ++ (List.replicate n ';' ++ after)))) = text := by
  have hlast := h.getLast_value
  obtain ⟨first, rest, hcons, hblank, -⟩ := h.opening []
  rw [List.append_nil] at hcons
  subst hcons
  exact trimExpression_append (List.cons_ne_nil first rest) (fun c hc => Option.some.inj hc ▸ hblank) hlast hbefore
    hmiddle hafter n

/-- A text that spells a value is classified as this value and its kind, with any white space around it and any number
of semicolons after it. Only null is dynamic: it says nothing about the type. -/
theorem classify_spelled {value : Literal} (h : Spells .orderly text (.value value)) {before middle after : Text}
    (hbefore : ∀ c ∈ before, isBlank c) (hmiddle : ∀ c ∈ middle, isBlank c) (hafter : ∀ c ∈ after, isBlank c)
    (n : Nat) :
    let source := before ++ (text ++ (middle ++ (List.replicate n ';' ++ after)))
    (value = .null → classify source = (.dynamic, none)) ∧
      (value ≠ .null → classify source = (value.kind, some value)) := by
  intro source
  have htrim : trimExpression source = text := h.trimExpression_eq hbefore hmiddle hafter n
  constructor
  · rintro rfl
    rw [classify_eq, htrim, h.parse?_eq]
  · intro hnull
    rw [classify_eq, htrim, h.parse?_eq]
    cases value with
    | null => exact absurd rfl hnull
    | _ => rfl

/-- An object with bare, quoted and repeated keys, a nested array with a comma at its end and an escape in a string,
between white space and semicolons. -/
theorem classify_spelled_nested :
    let nested := Literal.record
      [(CodePoint.ofText (txt "a"), .null), (CodePoint.ofText (txt "b"), .text (txt "x'y"))]
    classify (txt "\t\x7b a: [-1, true,], 'b' : 'x\\'y', a: null\x7d ;;\n") = (.record, some nested) := by
  intro nested
  have hnone : Spacing [] := List.forall_mem_nil _
  have hspace : Spacing (txt " ") := List.forall_mem_singleton.2 rfl
  have hitem : ∀ {text : Text} {value : Literal}, Spells .orderly text (.value value) →
      Spells .orderly (' ' :: text) (.item value) := by
    intro text value hvalue
    have hitem := Spells.item hspace hvalue hnone
    rwa [List.append_nil] at hitem
  have hword : KeyForm .orderly (txt "a") (CodePoint.ofText (txt "a")) :=
    .word ⟨'a', [], rfl, rfl, List.forall_mem_nil _⟩ trivial
  have hname : StringForm (txt "'b'") (CodePoint.ofText (txt "b")) :=
    .quoted rfl (.char (by decide) (by decide) (by decide) .nil)
  have hinside : Inside '\'' (txt "x\\'y") [.char 'x', .ofNat 0x27, .char 'y'] :=
    .char (by decide) (by decide) (by decide) (.letter rfl (.char (by decide) (by decide) (by decide) .nil))
  have hstring : StringForm (txt "'x\\'y'") (CodePoint.ofText (txt "x'y")) := .quoted rfl hinside
  have htrue : Spells .orderly (txt "true") (.value (.bool true)) := .keyword rfl
  have hnull : Spells .orderly (txt "null") (.value .null) := .keyword rfl
  have hminus : Spells .orderly (txt "-1") (.value (.int (-1))) :=
    .number (@NumberForm.int true (txt "1") ⟨by decide, List.forall_mem_singleton.2 rfl, by decide⟩ (by decide))
  have hlist : Spells .orderly (txt "[-1, true,]") (.value (.list [.int (-1), .bool true])) :=
    @Spells.array _ (txt "-1, true,") _
      (@Spells.element _ (txt "-1") (txt " true,") _ _ (@Spells.item _ [] (txt "-1") [] _ hnone hminus hnone)
        (.element (hitem htrue) (.noElement hnone)))
  have hfields : Spells .orderly (txt " a: [-1, true,], 'b' : 'x\\'y', a: null") (.fields
      [(CodePoint.ofText (txt "a"), .list [.int (-1), .bool true]), (CodePoint.ofText (txt "b"), .text (txt "x'y")),
        (CodePoint.ofText (txt "a"), .null)]) :=
    .nextField (.field hspace hword trivial hnone (hitem hlist))
      (.nextField (.field hspace (.string hname) trivial hspace (hitem (.string hstring)))
        (.lastField (.field hspace hword trivial hnone (hitem hnull))))
  have hspells : Spells .orderly (txt "\x7b a: [-1, true,], 'b' : 'x\\'y', a: null\x7d") (.value nested) :=
    .object hfields (isRecord_setFields _).1
  exact (classify_spelled hspells (List.forall_mem_singleton.2 rfl) (List.forall_mem_singleton.2 rfl)
    (List.forall_mem_singleton.2 rfl) 2).2 (by simp [nested])

end AngularUplift.Literal
