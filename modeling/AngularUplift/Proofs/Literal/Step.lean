import AngularUplift.Proofs.Literal.RoundTrip
import AngularUplift.Proofs.Literal.Scalar
import AngularUplift.Proofs.Text.Line
import Mathlib.Data.List.Induction
import Mathlib.Data.List.Nodup

/-!
# Steps of the reader of literals

What the reader of values does at each kind of character, and how the phrases of the grammar begin, so that it takes
the right step at each of them. Fields are set one after the other while they are read, which makes the record that
they stand for.

## Main definitions

* `Literal.Led`: white space before the beginning of a value or a key.

## Main statements

* `Literal.Spells.opening`, `Literal.KeyForm.opening`: no phrase begins with a mark that stands after one.
* `Literal.readItems_step`, `Literal.readFields_step`: one round of the loops over items and fields.
* `Literal.isRecord_setFields`, `Literal.IsRecord.eq_setFields`: the record that is made.
-/

namespace AngularUplift.Literal

variable {gap text rest : Text}

/-! ### White space -/

/-- White space is skipped. -/
theorem skipSpace_append (h : Spacing gap) (text : Text) : skipSpace (gap ++ text) = skipSpace text :=
  List.dropWhile_append_of_pos h

/-- White space may stand before a closing delimiter. -/
theorem readClose_append (closing : Char) (h : Spacing gap) (text : Text) :
    readClose closing (gap ++ text) = readClose closing text := by
  rw [readClose, readClose, skipSpace_append h]

/-- White space may stand before a comma. -/
theorem readComma_append (h : Spacing gap) (text : Text) : readComma (gap ++ text) = readComma text := by
  rw [readComma, readComma, skipSpace_append h]

/-- White space may stand before a value. -/
theorem readValue_append (fuel : Nat) (h : Spacing gap) (text : Text) :
    readValue fuel (gap ++ text) = readValue fuel text := by
  cases fuel with
  | zero => rfl
  | succ fuel => rw [readValue, readValue, skipSpace_append h]

/-- A closing delimiter is read after white space. -/
theorem readClose_append_closing {closing : Char} (hclosing : closing = ']' ∨ closing = '}') (h : Spacing gap)
    (rest : Text) : readClose closing (gap ++ closing :: rest) = some rest := by
  rw [readClose_append closing h, readClose_closing hclosing]

/-- A comma before a closing delimiter is dropped with it. -/
theorem readClose_comma_closing {closing : Char} (hclosing : closing = ']' ∨ closing = '}') (h : Spacing gap)
    (rest : Text) : readClose closing (',' :: (gap ++ closing :: rest)) = some rest := by
  have hspace : skipSpace (gap ++ closing :: rest) = closing :: rest := by
    rw [skipSpace_append h, skipSpace_cons (by rcases hclosing with rfl | rfl <;> rfl)]
  rw [readClose, skipSpace_cons rfl]
  rcases hclosing with rfl | rfl
  · simp [hspace]
  · simp [hspace]

/-- A text in which only white space stands before the beginning of a value or a key. -/
def Led (source : Text) : Prop := Opening (skipSpace source)

/-- White space may stand before the beginning of a value or a key. -/
theorem Led.of_opening (hgap : Spacing gap) (h : Opening text) : Led (gap ++ text) := by
  rw [Led, skipSpace_append hgap, h.skipSpace_eq]
  exact h

/-- No closing delimiter is read before a value or a key. -/
theorem Led.readClose_eq_none {closing : Char} (h : Led text) (hclosing : closing = ']' ∨ closing = '}') :
    readClose closing text = none := by
  have hopening := readClose_opening hclosing h
  rwa [readClose, h.skipSpace_eq, ← readClose] at hopening

/-- A comma before a value or a key is not taken for one before a closing delimiter. -/
theorem Led.readClose_comma {closing : Char} (h : Led text) (hclosing : closing = ']' ∨ closing = '}') :
    readClose closing (',' :: text) = none := by
  have hmark : ',' ≠ closing := by rcases hclosing with rfl | rfl <;> decide
  obtain ⟨c, tail, hskip, -, hne⟩ := Opening.exists_ne h hclosing
  rw [readClose, skipSpace_cons rfl]
  simp only [hmark, if_false, if_true, hskip, hne]

/-! ### What phrases begin with -/

/-- A character that begins a bare word begins no other token and is no mark. -/
theorem of_isWordStart {c : Char} (h : isWordStart c) :
    isBlank c = false ∧ isPlainQuote c = false ∧ c ∉ ['[', '{', ',', ']', '}', ';'] := by
  -- White space belongs to no name, and every character that begins a word does.
  have hname : isName c := by
    simp only [isWordStart, Bool.or_eq_true, beq_iff_eq] at h
    simp only [isName, isWord, isLetterOrNumeral, Bool.or_eq_true, beq_iff_eq]
    rcases h with (hletter | rfl) | rfl
    · rw [isLetter] at hletter
      split
      · next hcode =>
        rw [if_pos hcode] at hletter
        simp [hletter]
      · next hcode =>
        rw [if_neg hcode] at hletter
        simp [hletter]
    · simp
    · simp
  refine ⟨?_, ?_, ?_⟩
  · rw [Bool.eq_false_iff]
    intro hblank
    rw [isName_of_isBlank hblank] at hname
    exact absurd hname (by decide)
  · rw [Bool.eq_false_iff]
    intro hquote
    simp only [isPlainQuote, Bool.or_eq_true, beq_iff_eq] at hquote
    rcases hquote with rfl | rfl <;> exact absurd h (by decide)
  · intro hmem
    have hmarks : ['[', '{', ',', ']', '}', ';'].all (!isWordStart ·) := by decide
    have hc := List.all_eq_true.1 hmarks c hmem
    rw [h] at hc
    exact absurd hc (by decide)

/-- A quotation mark is neither white space nor another mark. -/
theorem of_isPlainQuote {c : Char} (h : isPlainQuote c) :
    isBlank c = false ∧ c ∉ ['[', '{', ',', ']', '}', ';'] := by
  simp only [isPlainQuote, Bool.or_eq_true, beq_iff_eq] at h
  rcases h with rfl | rfl <;> decide

/-- A text begins like a value when its first character is neither white space nor one of some marks, among which are
those that stand after a value. -/
theorem opening_cons {c : Char} {marks : List Char} (hblank : isBlank c = false) (hc : c ∉ marks)
    (hmarks : [',', ']', '}'] ⊆ marks) (rest : Text) : Opening (c :: rest) := by
  refine ⟨c, rest, rfl, hblank, ?_, ?_, ?_⟩
  · rintro rfl
    exact hc (hmarks (by decide))
  · rintro rfl
    exact hc (hmarks (by decide))
  · rintro rfl
    exact hc (hmarks (by decide))

/-- A number begins with a digit or a minus sign. -/
theorem NumberForm.eq_cons {value : Literal} (h : NumberForm text value) :
    ∃ c tail, text = c :: tail ∧ isIntPart c := by
  have hsigned : ∀ negative whole (tail : Text), IsWhole whole →
      ∃ c rest, sign negative ++ (whole ++ tail) = c :: rest ∧ isIntPart c := by
    intro negative whole tail hwhole
    cases negative with
    | true => exact ⟨'-', whole ++ tail, rfl, rfl⟩
    | false =>
      obtain ⟨c, digits, rfl⟩ := List.exists_cons_of_ne_nil hwhole.1
      refine ⟨c, digits ++ tail, rfl, ?_⟩
      rw [isIntPart, hwhole.2.1 c List.mem_cons_self, Bool.or_true]
  cases h with
  | int negative hwhole _ =>
    have hcons := hsigned negative _ [] hwhole
    rwa [List.append_nil] at hcons
  | float negative hwhole _ _ _ => exact hsigned negative _ _ hwhole

/-- The words with a value. -/
theorem keyword_eq {word : Text} {value : Literal} (h : keyword? word = some value) :
    word = txt "true" ∨ word = txt "false" ∨ word = txt "null" := by
  by_contra hnot
  simp only [not_or] at hnot
  simp [keyword?, hnot] at h

/-- A string begins with a quotation mark. -/
theorem StringForm.opening {points : List CodePoint} (h : StringForm text points) (rest : Text) :
    Opening (text ++ rest) := by
  cases h with
  | quoted hquote _ =>
    obtain ⟨hblank, hmarks⟩ := of_isPlainQuote hquote
    exact opening_cons hblank hmarks (by decide) _

/-- A key begins neither with white space nor with a mark that stands after a value. -/
theorem KeyForm.opening {d : Dialect} {key : List CodePoint} (h : KeyForm d text key) (rest : Text) :
    Opening (text ++ rest) := by
  cases h with
  | word hword _ =>
    obtain ⟨first, tail, rfl, hfirst, -⟩ := hword
    obtain ⟨hblank, -, hmarks⟩ := of_isWordStart hfirst
    exact opening_cons hblank hmarks (by decide) _
  | string hstring => exact hstring.opening rest

/-- A value begins neither with white space nor with a mark that stands after a value. -/
theorem Spells.opening {d : Dialect} {value : Literal} (h : Spells d text (.value value)) (rest : Text) :
    Opening (text ++ rest) := by
  cases h with
  | keyword hword =>
    rcases keyword_eq hword with rfl | rfl | rfl
    · exact ⟨'t', _, rfl, by decide⟩
    · exact ⟨'f', _, rfl, by decide⟩
    · exact ⟨'n', _, rfl, by decide⟩
  | number hnumber =>
    obtain ⟨c, tail, rfl, hc⟩ := hnumber.eq_cons
    obtain ⟨hblank, -, -, hmarks⟩ := of_isIntPart hc
    exact opening_cons hblank hmarks (by decide) _
  | string hstring => exact hstring.opening rest
  | array _ => exact ⟨'[', _, rfl, by decide⟩
  | object _ _ => exact ⟨'{', _, rfl, by decide⟩
  | loneArray _ _ _ => exact ⟨'[', _, rfl, by decide⟩
  | loneObject _ _ _ => exact ⟨'{', _, rfl, by decide⟩

/-- Only white space stands before the value of an item. -/
theorem Spells.led_item {d : Dialect} {value : Literal} (h : Spells d text (.item value)) (rest : Text) :
    Led (text ++ rest) := by
  cases h with
  | item hbefore hvalue hafter =>
    rw [List.append_assoc, List.append_assoc]
    exact .of_opening hbefore (hvalue.opening _)

/-- Only white space stands before the value of the first element. -/
theorem Spells.led_elements {d : Dialect} {value : Literal} {items : List (Option Literal)}
    (h : Spells d text (.elements (some value :: items))) (rest : Text) : Led (text ++ rest) := by
  cases h with
  | lastElement hitem => exact hitem.led_item rest
  | element hitem _ =>
    rw [List.append_assoc]
    exact hitem.led_item _

/-- Only white space stands before a field. -/
theorem Spells.led_field {d : Dialect} {key : List CodePoint} {value : Literal} (h : Spells d text (.field key value))
    (rest : Text) : Led (text ++ rest) := by
  cases h with
  | field hbefore hname _ _ _ =>
    rw [List.append_assoc, List.append_assoc]
    exact .of_opening hbefore (hname.opening _)

/-- Only white space stands before the first field. -/
theorem Spells.led_fields {d : Dialect} {field : List CodePoint × Literal}
    {fields : List (List CodePoint × Literal)} (h : Spells d text (.fields (field :: fields))) (rest : Text) :
    Led (text ++ rest) := by
  cases h with
  | lastField hfield => exact hfield.led_field rest
  | nextField hfield _ =>
    rw [List.append_assoc]
    exact hfield.led_field _

/-- Where there is no element, there is only white space. -/
theorem Spells.spacing_elements {d : Dialect} (h : Spells d text (.elements [])) : Spacing text := by
  cases h with
  | noElement hgap => exact hgap

/-- Where there is no field, there is only white space. -/
theorem Spells.spacing_fields {d : Dialect} (h : Spells d text (.fields [])) : Spacing text := by
  cases h with
  | noField hgap => exact hgap

/-! ### Steps of the reader -/

/-- A bracket begins a list. -/
theorem readValue_bracket (fuel : Nat) (rest : Text) :
    readValue (fuel + 1) ('[' :: rest) =
      match readClose ']' rest with
      | some rest => some (.list [], rest)
      | none => (readItems fuel rest).map fun (items, rest) => (.list items, rest) := by
  rw [readValue, skipSpace_cons rfl]
  rfl

/-- A brace begins a record. -/
theorem readValue_brace (fuel : Nat) (rest : Text) :
    readValue (fuel + 1) ('{' :: rest) =
      match readClose '}' rest with
      | some rest => some (.record [], rest)
      | none => (readFields fuel [] rest).map fun (fields, rest) => (.record fields, rest) := by
  rw [readValue, skipSpace_cons rfl]
  rfl

/-- A letter begins a keyword. -/
theorem readValue_word {c : Char} (h : isWordStart c) (fuel : Nat) (rest : Text) :
    readValue (fuel + 1) (c :: rest) =
      (readWord (c :: rest)).bind fun (word, rest) => (keyword? word).map fun value => (value, rest) := by
  obtain ⟨hblank, hquote, hmarks⟩ := of_isWordStart h
  simp only [List.mem_cons, not_or] at hmarks
  rw [readValue, skipSpace_cons (isSpace_eq_false hblank)]
  simp only [hmarks.1, hmarks.2.1, hquote, h, if_true, if_false, Bool.false_eq_true]
  cases readWord (c :: rest) with
  | none => rfl
  | some read => cases hkeyword : keyword? read.1 <;> simp [hkeyword]

/-- What begins like no other value is read as a number. -/
theorem readValue_other {c : Char} (hspace : isSpace c = false) (hquote : isPlainQuote c = false)
    (hword : isWordStart c = false) (hbracket : c ≠ '[') (hbrace : c ≠ '{') (fuel : Nat) (rest : Text) :
    readValue (fuel + 1) (c :: rest) = readNumber (c :: rest) := by
  rw [readValue, skipSpace_cons hspace]
  simp only [hbracket, hbrace, hquote, hword, if_false, Bool.false_eq_true]

/-- After an item the list ends, or it goes on with a comma. -/
theorem readItems_step {fuel : Nat} {source after : Text} {value : Literal}
    (h : readValue fuel source = some (value, after)) :
    readItems (fuel + 1) source =
      match readClose ']' after with
      | some rest => some ([value], rest)
      | none => (readComma after).bind fun rest =>
        (readItems fuel rest).map fun (items, rest) => (value :: items, rest) := by
  rw [readItems, h]
  simp only [Option.bind_eq_bind, Option.bind_some]
  -- Both sides look at the same three readings, in the same order.
  cases readClose ']' after with
  | some rest => rfl
  | none =>
    cases readComma after with
    | none => rfl
    | some more =>
      simp only [Option.bind_some]
      cases readItems fuel more <;> rfl

/-- After a field the record ends, or it goes on with a comma. -/
theorem readFields_step {fuel : Nat} {known : List (List CodePoint × Literal)} {source middle after : Text}
    {key : List CodePoint} {value : Literal} (hkey : readKey (skipSpace source) = some (key, middle))
    (hvalue : readValue fuel middle = some (value, after)) :
    readFields (fuel + 1) known source =
      match readClose '}' after with
      | some rest => some (setField key value known, rest)
      | none => (readComma after).bind fun rest => readFields fuel (setField key value known) rest := by
  rw [readFields, hkey]
  simp only [Option.bind_eq_bind, Option.bind_some, hvalue]
  rfl

/-- A key is read with the colon after it. -/
theorem KeyForm.readKey_append {d : Dialect} {name : Text} {key : List CodePoint} (h : KeyForm d name key)
    (hgap : Spacing gap) (rest : Text) : readKey (name ++ (gap ++ ':' :: rest)) = some (key, rest) := by
  have hcolon : skipSpace (gap ++ ':' :: rest) = ':' :: rest := by
    rw [skipSpace_append hgap, skipSpace_cons rfl]
  cases h with
  | word hword _ =>
    -- A bare word ends where the white space or the colon after it begins.
    have hstop : ∀ c ∈ (gap ++ ':' :: rest).head?, isWordPart c = false := by
      intro c hc
      cases gap with
      | nil =>
        obtain rfl : ':' = c := Option.some.inj hc
        decide
      | cons space gap =>
        obtain rfl : space = c := Option.some.inj hc
        have hapart : Apart [space] := fun d hd => Or.inl (Option.some.inj hd ▸ hgap space List.mem_cons_self)
        exact hapart.isFalse (by decide) space rfl
    have hnone : readString (name ++ (gap ++ ':' :: rest)) = none := by
      obtain ⟨first, tail, rfl, hfirst, -⟩ := hword
      rw [List.cons_append, readString, (of_isWordStart hfirst).2.1]
      rfl
    rw [readKey, hnone, hword.readWord_append hstop]
    simp only [Option.map_some, Option.none_or, Option.bind_eq_bind, Option.bind_some, hcolon]
    rfl
  | string hstring =>
    rw [readKey, readString_eq_some_iff.2 ⟨name, hstring, rfl⟩]
    simp only [Option.some_or, Option.bind_eq_bind, Option.bind_some, hcolon]
    rfl

/-! ### Records -/

/-- A field that was set has its value, and the others keep theirs. -/
theorem lookup_setField (key : List CodePoint) (value : Literal) (known : List (List CodePoint × Literal))
    (other : List CodePoint) :
    (setField key value known).lookup other = ((key, value) :: known).lookup other := by
  induction known with
  | nil => rfl
  | cons field known ih =>
    obtain ⟨first, old⟩ := field
    rw [setField]
    by_cases heq : first = key
    · subst heq
      rw [if_pos rfl, List.lookup_cons, List.lookup_cons, List.lookup_cons]
      cases other == first <;> rfl
    · rw [if_neg heq, List.lookup_cons, ih, List.lookup_cons, List.lookup_cons, List.lookup_cons]
      -- Only one of the two keys can be the one that is looked up.
      by_cases hfirst : other = first
      · subst hfirst
        rw [beq_self_eq_true, beq_eq_false_iff_ne.2 heq]
      · rw [beq_eq_false_iff_ne.2 hfirst]

/-- Fields that are set one after the other make the record that they stand for. -/
theorem isRecord_setFields (fields : List (List CodePoint × Literal)) :
    IsRecord fields (setFields [] fields) ∧ ((setFields [] fields).map (·.1)).Nodup := by
  -- The last of the fields is set last, so the induction is from the right.
  induction fields using List.reverseRecOn with
  | nil => exact ⟨⟨rfl, fun _ => rfl⟩, List.nodup_nil⟩
  | append_singleton fields field ih =>
    obtain ⟨⟨hkeys, hlookup⟩, hnodup⟩ := ih
    have hstep : setFields [] (fields ++ [field]) = setField field.1 field.2 (setFields [] fields) :=
      List.foldl_append
    have hmem : field.1 ∈ (setFields [] fields).map (·.1) ↔ field.1 ∈ fields.map (·.1) := by
      rw [hkeys, List.mem_eraseDups]
    rw [hstep]
    refine ⟨⟨?_, fun key => ?_⟩, ?_⟩
    · -- A key comes last exactly when no field before had it, which is when it is kept as no duplicate.
      rw [keys_setField, hkeys, List.map_append, List.map_singleton, List.eraseDups_append, ← hkeys]
      congr 1
      by_cases hknown : field.1 ∈ fields.map (·.1)
      · rw [if_pos (hmem.2 hknown)]
        simp [List.removeAll, hknown]
      · rw [if_neg (mt hmem.1 hknown)]
        simp [List.removeAll, hknown, List.eraseDups_cons]
    · rw [lookup_setField, List.reverse_append, List.reverse_singleton, List.singleton_append, List.lookup_cons,
        List.lookup_cons, hlookup]
    · rw [keys_setField]
      split
      · rwa [List.append_nil]
      · next hnew =>
        rw [← List.concat_eq_append]
        exact hnodup.concat hnew

/-- A list of fields is known by its keys, none of which is repeated, and their values. -/
theorem eq_of_keys_of_lookup {fields others : List (List CodePoint × Literal)} (hnodup : (fields.map (·.1)).Nodup)
    (hkeys : others.map (·.1) = fields.map (·.1)) (hlookup : ∀ key, others.lookup key = fields.lookup key) :
    others = fields := by
  induction fields generalizing others with
  | nil => exact List.map_eq_nil_iff.1 hkeys
  | cons field fields ih =>
    obtain ⟨first, value⟩ := field
    obtain ⟨⟨key, other⟩, others, rfl, hkey, hrest⟩ := List.map_eq_cons_iff.1 hkeys
    obtain rfl : key = first := hkey
    rw [List.map_cons, List.nodup_cons] at hnodup
    have hvalue := hlookup key
    simp only [List.lookup_cons, beq_self_eq_true, Option.some.injEq] at hvalue
    subst hvalue
    congr 1
    refine ih hnodup.2 hrest fun k => ?_
    by_cases hk : k = key
    · -- The first key comes only once, so neither of the rests has a value for it.
      subst hk
      have hnone : ∀ list : List (List CodePoint × Literal), list.map (·.1) = fields.map (·.1) →
          list.lookup k = none := by
        intro list hlist
        rw [List.lookup_eq_none_iff]
        intro field hfield
        simp only [bne_iff_ne, ne_eq]
        rintro rfl
        exact hnodup.1 (hlist ▸ List.mem_map.2 ⟨field, hfield, rfl⟩)
      rw [hnone _ hrest, hnone _ rfl]
    · have hother := hlookup k
      rwa [List.lookup_cons, List.lookup_cons, beq_eq_false_iff_ne.2 hk] at hother

/-- The record that fields stand for is the one made by setting them one after the other. -/
theorem IsRecord.eq_setFields {fields record : List (List CodePoint × Literal)} (h : IsRecord fields record) :
    record = setFields [] fields := by
  obtain ⟨⟨hkeys, hlookup⟩, hnodup⟩ := isRecord_setFields fields
  exact eq_of_keys_of_lookup hnodup (h.1.trans hkeys.symm) fun key => (h.2 key).trans (hlookup key).symm

end AngularUplift.Literal
