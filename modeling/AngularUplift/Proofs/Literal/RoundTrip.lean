import AngularUplift.Proofs.Literal.Rejoined
import AngularUplift.Proofs.Literal.Token

/-!
# Reading back rendered values

A value that is written out as source code is classified as what it is: reading undoes writing. Inside a list or a
record this holds for every value without floating-point numbers, but the halves of a character that stand next to each
other are put together, as both are escaped. A string that is the whole literal is written in single quotes, in which
halves stand for themselves and control characters cannot stand.

## Main definitions

* `Literal.ReadBack`: values that are read back wherever they stand, with their halves put together.
* `Literal.reread`: what a value is read as when it is the whole literal.

## Main statements

* `Literal.readItems_jsonItems`, `Literal.readFields_jsonFields`: the items of a list and the fields of a record are
  read back when their values are.
* `Literal.Plain.readBack`: plain values are read back.
* `Literal.classify_source`: what a value is classified as that was written as source code, and when it is the same.
-/

namespace AngularUplift

namespace Literal

/-- A value that is read back wherever it stands, given two steps of fuel for each character of it. -/
def ReadBack (value : Literal) : Prop :=
  ∀ (fuel : Nat) (rest : Text), 2 * value.json.length ≤ fuel → Closed rest →
    readValue fuel (value.json ++ rest) = some (value.rejoined, rest)

/-! ### First and last characters -/

/-- A text that begins with neither white space nor a mark that stands after a value. -/
def Opening (source : Text) : Prop :=
  ∃ (c : Char) (rest : Text), source = c :: rest ∧ isBlank c = false ∧ c ≠ ',' ∧ c ≠ ']' ∧ c ≠ '}'

/-- White space between tokens is white space. -/
theorem isSpace_eq_false {c : Char} (h : isBlank c = false) : isSpace c = false := by
  rw [Bool.eq_false_iff]
  intro hspace
  simp only [isSpace, Bool.or_eq_true, beq_iff_eq] at hspace
  rcases hspace with ((rfl | rfl) | rfl) | rfl <;> exact absurd h (by decide)

/-- Whether a character begins or goes on in an integer. -/
def isIntPart (c : Char) : Bool := c == '-' || isDecimal c

/-- The characters of an integer are in no other class that the reader looks for. -/
theorem of_isIntPart {c : Char} (h : isIntPart c) :
    isBlank c = false ∧ isPlainQuote c = false ∧ isWordStart c = false ∧ c ∉ ['[', '{', ',', ']', '}', ';'] := by
  have hascii : ∀ code < 0x80, isIntPart (Char.ofNat code) →
      isBlank (Char.ofNat code) = false ∧ isPlainQuote (Char.ofNat code) = false ∧
        isWordStart (Char.ofNat code) = false ∧ Char.ofNat code ∉ ['[', '{', ',', ']', '}', ';'] := by
    decide
  have hcode : c.toNat < 0x80 := by
    simp only [isIntPart, isDecimal, Bool.or_eq_true, beq_iff_eq, Bool.and_eq_true, decide_eq_true_eq] at h
    rcases h with rfl | ⟨-, hnine⟩
    · decide
    · exact Nat.lt_of_le_of_lt hnine (by decide)
  have hc := hascii c.toNat hcode
  rw [Char.ofNat_toNat] at hc
  exact hc h

/-- An integer is made of such characters. -/
theorem isIntPart_of_mem_ofInt {n : Int} {c : Char} (h : c ∈ Text.ofInt n) : isIntPart c := by
  have hdigits : ∀ d ∈ Text.ofNat n.natAbs, isIntPart d := fun d hd => by
    rw [isIntPart, isDecimal_of_mem_ofNat hd, Bool.or_true]
  rw [Text.ofInt] at h
  split at h
  · rcases List.mem_cons.1 h with rfl | hmem
    · rfl
    · exact hdigits c hmem
  · exact hdigits c h

/-- An integer has a first character. -/
theorem ofInt_eq_cons (n : Int) : ∃ c rest, Text.ofInt n = c :: rest ∧ isIntPart c := by
  cases hn : Text.ofInt n with
  | nil =>
    rw [Text.ofInt] at hn
    split at hn
    · exact absurd hn (by simp)
    · exact absurd hn Nat.toDigits_ne_nil
  | cons c rest => exact ⟨c, rest, rfl, isIntPart_of_mem_ofInt (hn ▸ List.mem_cons_self)⟩

/-- A plain value begins with neither white space nor a mark that stands after a value. -/
theorem Plain.opening {value : Literal} (h : value.Plain) (rest : Text) : Opening (value.json ++ rest) := by
  cases h with
  | null => exact ⟨'n', _, rfl, by decide⟩
  | bool b =>
    cases b with
    | true => exact ⟨'t', _, rfl, by decide⟩
    | false => exact ⟨'f', _, rfl, by decide⟩
  | @int n hdigits =>
    obtain ⟨c, digits, hn, hc⟩ := ofInt_eq_cons n
    obtain ⟨hblank, -, -, hmarks⟩ := of_isIntPart hc
    rw [json, hn]
    simp only [List.mem_cons, not_or] at hmarks
    exact ⟨c, digits ++ rest, rfl, hblank, hmarks.2.2.1, hmarks.2.2.2.1, hmarks.2.2.2.2.1⟩
  | string points =>
    rw [json]
    exact ⟨'"', _, rfl, by decide⟩
  | list hitems =>
    rw [json]
    exact ⟨'[', _, rfl, by decide⟩
  | record hkeys hvalues =>
    rw [json]
    exact ⟨'{', _, rfl, by decide⟩

/-! ### Marks -/

/-- White space is not skipped where none is. -/
theorem skipSpace_cons {c : Char} (h : isSpace c = false) (rest : Text) : skipSpace (c :: rest) = c :: rest :=
  List.dropWhile_cons_of_neg (by simp [h])

/-- White space is not skipped before a value. -/
theorem Opening.skipSpace_eq {source : Text} (h : Opening source) : skipSpace source = source := by
  obtain ⟨c, rest, rfl, hblank, -⟩ := h
  exact skipSpace_cons (isSpace_eq_false hblank) rest

/-- What begins a value is neither a comma nor a closing delimiter. -/
theorem Opening.exists_ne {source : Text} (h : Opening source) {closing : Char}
    (hclosing : closing = ']' ∨ closing = '}') :
    ∃ c rest, source = c :: rest ∧ c ≠ ',' ∧ c ≠ closing := by
  obtain ⟨c, rest, rfl, -, hcomma, hbracket, hbrace⟩ := h
  refine ⟨c, rest, rfl, hcomma, ?_⟩
  rcases hclosing with rfl | rfl
  · exact hbracket
  · exact hbrace

/-- A closing delimiter is read. -/
theorem readClose_closing {closing : Char} (hclosing : closing = ']' ∨ closing = '}') (rest : Text) :
    readClose closing (closing :: rest) = some rest := by
  rcases hclosing with rfl | rfl <;> rfl

/-- No closing delimiter is read at the beginning of a value. -/
theorem readClose_opening {closing : Char} (hclosing : closing = ']' ∨ closing = '}') {source : Text}
    (h : Opening source) : readClose closing source = none := by
  rw [readClose, h.skipSpace_eq]
  obtain ⟨c, rest, rfl, hcomma, hne⟩ := h.exists_ne hclosing
  simp only [hne, hcomma, if_false]

/-- No closing delimiter is read at a comma that stands before a value. -/
theorem readClose_comma {closing : Char} (hclosing : closing = ']' ∨ closing = '}') {source : Text}
    (h : Opening source) : readClose closing (',' :: ' ' :: source) = none := by
  have hspace : skipSpace (' ' :: source) = source := h.skipSpace_eq
  have hmark : ',' ≠ closing := by rcases hclosing with rfl | rfl <;> decide
  rw [readClose, skipSpace_cons rfl]
  simp only [hmark, if_false, if_true, hspace]
  -- The comma could be one that stands before a closing delimiter, but a value follows it.
  obtain ⟨c, rest, rfl, -, hne⟩ := h.exists_ne hclosing
  simp only [hne, if_false]

/-- A comma is read. -/
theorem readComma_comma (rest : Text) : readComma (',' :: rest) = some rest := rfl

/-- A value may have a space before it. -/
theorem readValue_space (fuel : Nat) (source : Text) :
    readValue fuel (' ' :: source) = readValue fuel source := by
  cases fuel with
  | zero => rfl
  | succ fuel =>
    rw [readValue, readValue]
    rfl

/-- The items of a list may have a space before them. -/
theorem readItems_space (fuel : Nat) (source : Text) :
    readItems fuel (' ' :: source) = readItems fuel source := by
  cases fuel with
  | zero => rfl
  | succ fuel => rw [readItems, readItems, readValue_space]

/-- The fields of a record may have a space before them. -/
theorem readFields_space (fuel : Nat) (known : List (List CodePoint × Literal)) (source : Text) :
    readFields fuel known (' ' :: source) = readFields fuel known source := by
  cases fuel with
  | zero => rfl
  | succ fuel =>
    rw [readFields, readFields]
    rfl

/-! ### Scalars -/

/-- A keyword is read as its value. -/
theorem readValue_keyword {c : Char} {tail : Text} {value : Literal}
    (hc : isSpace c = false ∧ c ≠ '[' ∧ c ≠ '{' ∧ isPlainQuote c = false ∧ isWordStart c = true)
    (htail : tail.all isWordPart) (hvalue : keyword? (c :: tail) = some value) (fuel : Nat) {rest : Text}
    (hrest : Closed rest) : readValue (fuel + 1) (c :: tail ++ rest) = some (value, rest) := by
  obtain ⟨hspace, hbracket, hbrace, hquote, hstart⟩ := hc
  obtain ⟨htake, hdrop⟩ := takeWhile_append_of_head (List.all_eq_true.1 htail)
    (hrest.not_of_mem_head (by decide) (by decide) (by decide))
  rw [List.cons_append, readValue, skipSpace_cons hspace]
  simp only [hbracket, hbrace, hquote, hstart, if_true, if_false, Bool.false_eq_true, readWord, htake, hdrop,
    Option.bind_eq_bind, Option.bind_some, hvalue]
  rfl

/-- An integer that is not too long is read back. -/
theorem readValue_int {n : Int} (h : (Text.ofNat n.natAbs).length ≤ mostDigits) (fuel : Nat) {rest : Text}
    (hrest : Closed rest) : readValue (fuel + 1) (Text.ofInt n ++ rest) = some (.int n, rest) := by
  have hnumber := readNumber_ofInt h hrest
  obtain ⟨c, digits, hn, hc⟩ := ofInt_eq_cons n
  obtain ⟨hblank, hquote, hword, hmarks⟩ := of_isIntPart hc
  simp only [List.mem_cons, not_or] at hmarks
  rw [hn, List.cons_append] at hnumber ⊢
  rw [readValue, skipSpace_cons (isSpace_eq_false hblank)]
  simp only [hmarks.1, hmarks.2.1, hquote, hword, if_false, Bool.false_eq_true]
  exact hnumber

/-- A quotation mark begins a string. -/
theorem readValue_quote {quote : Char} (h : isPlainQuote quote) (fuel : Nat) (rest : Text) :
    readValue (fuel + 1) (quote :: rest) =
      (readString (quote :: rest)).map fun (value, rest) => (.string value, rest) := by
  simp only [isPlainQuote, Bool.or_eq_true, beq_iff_eq] at h
  rcases h with rfl | rfl
  · rw [readValue, skipSpace_cons rfl]
    rfl
  · rw [readValue, skipSpace_cons rfl]
    rfl

/-- A string is read back with its halves put together. -/
theorem readValue_string (value : List CodePoint) (fuel : Nat) (rest : Text) :
    readValue (fuel + 1) (doubleQuoted value ++ rest) = some (.string (CodePoint.pair value), rest) := by
  have hstring := readString_doubleQuoted value rest
  have hquoted : doubleQuoted value ++ rest = '"' :: (value.flatMap escapePoint ++ ['"'] ++ rest) := rfl
  rw [hquoted] at hstring ⊢
  rw [readValue_quote rfl, hstring, Option.map_some]

/-- A value that takes one step to read is read back. -/
theorem readBack_of_step {value : Literal} (hne : value.json ≠ [])
    (h : ∀ (fuel : Nat) (rest : Text), Closed rest →
      readValue (fuel + 1) (value.json ++ rest) = some (value.rejoined, rest)) : value.ReadBack := by
  intro fuel rest hfuel hrest
  have hpos : 0 < value.json.length := List.length_pos_iff.2 hne
  obtain ⟨less, rfl⟩ : ∃ less, fuel = less + 1 := ⟨fuel - 1, by omega⟩
  exact h less rest hrest

/-! ### Lists -/

/-- The items of a list begin with the first of them. -/
theorem opening_jsonItems {item : Literal} (h : item.Plain) (items : List Literal) (rest : Text) :
    Opening (jsonItems (item :: items) ++ rest) := by
  cases items with
  | nil => exact h.opening rest
  | cons next items =>
    rw [jsonItems, List.append_assoc, List.append_assoc]
    exact h.opening _

/-- The items of a list are read back when each of them is. -/
theorem readItems_jsonItems {items : List Literal} (hne : items ≠ []) (hplain : ∀ item ∈ items, item.Plain)
    (hread : ∀ item ∈ items, item.ReadBack) {fuel : Nat} (hfuel : 2 * (jsonItems items).length + 1 ≤ fuel)
    (rest : Text) : readItems fuel (jsonItems items ++ ']' :: rest) = some (rejoinedItems items, rest) := by
  induction items generalizing fuel with
  | nil => exact absurd rfl hne
  | cons item items ih =>
    obtain ⟨hitem, hitems⟩ := List.forall_mem_cons.1 hread
    obtain ⟨fuel, rfl⟩ : ∃ less, fuel = less + 1 := ⟨fuel - 1, by omega⟩
    -- The last item is followed by the bracket, every other one by a comma.
    cases items with
    | nil =>
      rw [jsonItems] at hfuel ⊢
      rw [readItems, hitem fuel (']' :: rest) (by omega) (by simp [Closed])]
      simp only [Option.bind_eq_bind, Option.bind_some, readClose_closing (Or.inl rfl)]
      rfl
    | cons next items =>
      have hopening := opening_jsonItems (hplain next (by simp)) items (']' :: rest)
      have hsource : jsonItems (item :: next :: items) ++ ']' :: rest =
          item.json ++ (',' :: ' ' :: (jsonItems (next :: items) ++ ']' :: rest)) := by
        rw [jsonItems, List.append_assoc, List.append_assoc]
        rfl
      have hmark : (txt ", ").length = 2 := rfl
      rw [jsonItems, List.length_append, List.length_append, hmark] at hfuel
      have hmore : readItems fuel (jsonItems (next :: items) ++ ']' :: rest) =
          some (rejoinedItems (next :: items), rest) :=
        ih (by simp) (List.forall_mem_cons.1 hplain).2 hitems (by omega)
      rw [hsource, readItems, hitem fuel _ (by omega) (by simp [Closed])]
      simp only [Option.bind_eq_bind, Option.bind_some, readClose_comma (Or.inl rfl) hopening,
        readComma_comma, readItems_space, hmore]
      rfl

/-- A list is read back when each of its items is. -/
theorem readBack_list {items : List Literal} (hplain : ∀ item ∈ items, item.Plain)
    (hread : ∀ item ∈ items, item.ReadBack) : (Literal.list items).ReadBack := by
  intro fuel rest hfuel _
  have hlength : (Literal.list items).json.length = (jsonItems items).length + 2 := by
    rw [json, List.length_append, List.length_append, List.length_singleton, List.length_singleton]
    omega
  have hsource : (Literal.list items).json ++ rest = '[' :: (jsonItems items ++ ']' :: rest) := by
    rw [json, List.append_assoc, List.append_assoc]
    rfl
  obtain ⟨fuel, rfl⟩ : ∃ less, fuel = less + 1 := ⟨fuel - 1, by omega⟩
  rw [hsource, readValue, skipSpace_cons rfl]
  simp only [if_true]
  cases items with
  | nil => rfl
  | cons item items =>
    have hopening := opening_jsonItems (hplain item List.mem_cons_self) items (']' :: rest)
    rw [readClose_opening (Or.inl rfl) hopening,
      readItems_jsonItems (by simp) hplain hread (by omega)]
    rfl

/-! ### Records -/

/-- A key in double quotes is read back with its halves put together. -/
theorem readKey_doubleQuoted (key : List CodePoint) (rest : Text) :
    readKey (doubleQuoted key ++ (':' :: rest)) = some (CodePoint.pair key, rest) := by
  rw [readKey, readString_doubleQuoted]
  rfl

/-- The fields of a record begin with a quotation mark. -/
theorem opening_jsonFields (field : List CodePoint × Literal) (fields : List (List CodePoint × Literal))
    (rest : Text) : Opening (jsonFields (field :: fields) ++ rest) := by
  cases fields with
  | nil =>
    rw [jsonFields]
    exact ⟨'"', _, rfl, by decide⟩
  | cons next fields =>
    rw [jsonFields]
    exact ⟨'"', _, rfl, by decide⟩

/-- One field of a record is read back, and then the record ends or goes on. -/
theorem readFields_field {key : List CodePoint} {value found : Literal} {known : List (List CodePoint × Literal)}
    {fuel : Nat} {after : Text} (hread : readValue fuel (value.json ++ after) = some (found, after)) :
    readFields (fuel + 1) known (doubleQuoted key ++ (':' :: ' ' :: (value.json ++ after))) =
      match readClose '}' after with
      | some rest => some (setField (CodePoint.pair key) found known, rest)
      | none => (readComma after).bind fun rest => readFields fuel (setField (CodePoint.pair key) found known) rest := by
  have hskip : ∀ tail, skipSpace (doubleQuoted key ++ tail) = doubleQuoted key ++ tail := fun _ => rfl
  rw [readFields, hskip, readKey_doubleQuoted]
  simp only [Option.bind_eq_bind, Option.bind_some, readValue_space, hread]
  rfl

/-- The fields of a record are read back and set after those already read, when each of their values is. -/
theorem readFields_jsonFields {known fields : List (List CodePoint × Literal)} (hne : fields ≠ [])
    (hread : ∀ field ∈ fields, field.2.ReadBack) {fuel : Nat}
    (hfuel : 2 * (jsonFields fields).length + 1 ≤ fuel) (rest : Text) :
    readFields fuel known (jsonFields fields ++ '}' :: rest) =
      some (setFields known (rejoinedFields fields), rest) := by
  -- Each field moves over to the known ones, so these vary along the induction.
  induction fields generalizing fuel known with
  | nil => exact absurd rfl hne
  | cons field fields ih =>
    obtain ⟨key, value⟩ := field
    obtain ⟨hfield, hfields⟩ := List.forall_mem_cons.1 hread
    obtain ⟨fuel, rfl⟩ : ∃ less, fuel = less + 1 := ⟨fuel - 1, by omega⟩
    have hmark : (txt ", ").length = 2 := rfl
    cases fields with
    | nil =>
      have hsource : jsonFields [(key, value)] ++ '}' :: rest =
          doubleQuoted key ++ (':' :: ' ' :: (value.json ++ '}' :: rest)) := by
        rw [jsonFields, List.append_assoc, List.append_assoc]
        rfl
      rw [jsonFields, List.length_append, List.length_append] at hfuel
      rw [hsource, readFields_field (hfield fuel _ (by simp only; omega) (by simp [Closed])),
        readClose_closing (Or.inr rfl)]
      rfl
    | cons next fields =>
      have hsource : jsonFields ((key, value) :: next :: fields) ++ '}' :: rest =
          doubleQuoted key ++ (':' :: ' ' :: (value.json ++ (',' :: ' ' ::
            (jsonFields (next :: fields) ++ '}' :: rest)))) := by
        rw [jsonFields, List.append_assoc, List.append_assoc, List.append_assoc, List.append_assoc]
        rfl
      rw [jsonFields, List.length_append, List.length_append, List.length_append, hmark] at hfuel
      rw [hsource, readFields_field (hfield fuel _ (by simp only; omega) (by simp [Closed])),
        readClose_comma (Or.inr rfl) (opening_jsonFields next fields _)]
      simp only [readComma_comma, Option.bind_some, readFields_space]
      exact ih (by simp) hfields (by omega)

/-- A record is read back when each of its values is. -/
theorem readBack_record {fields : List (List CodePoint × Literal)}
    (hread : ∀ field ∈ fields, field.2.ReadBack) : (Literal.record fields).ReadBack := by
  intro fuel rest hfuel _
  have hlength : (Literal.record fields).json.length = (jsonFields fields).length + 2 := by
    rw [json, List.length_append, List.length_append, List.length_singleton, List.length_singleton]
    omega
  have hsource : (Literal.record fields).json ++ rest = '{' :: (jsonFields fields ++ '}' :: rest) := by
    rw [json, List.append_assoc, List.append_assoc]
    rfl
  obtain ⟨fuel, rfl⟩ : ∃ less, fuel = less + 1 := ⟨fuel - 1, by omega⟩
  rw [hsource, readValue, skipSpace_cons rfl]
  simp only [show '{' ≠ '[' by decide, if_false, if_true]
  cases fields with
  | nil => rfl
  | cons field fields =>
    rw [readClose_opening (Or.inr rfl) (opening_jsonFields field fields _),
      readFields_jsonFields (by simp) hread (by omega)]
    rfl

/-! ### Whole literals -/

/-- Plain values are read back wherever they stand. -/
theorem Plain.readBack {value : Literal} (h : value.Plain) : value.ReadBack := by
  -- The fuel is at least one step, since every value has a first character.
  have hne : ∀ {value : Literal}, value.Plain → value.json ≠ [] := by
    intro value hplain hnil
    obtain ⟨c, rest, hcons, -⟩ := hplain.opening []
    rw [hnil] at hcons
    exact absurd hcons (by simp)
  induction h with
  | null =>
    exact readBack_of_step (hne .null) fun fuel rest hrest =>
      readValue_keyword (by decide) (by decide) rfl fuel hrest
  | bool b =>
    refine readBack_of_step (hne (.bool b)) fun fuel rest hrest => ?_
    cases b with
    | true => exact readValue_keyword (by decide) (by decide) rfl fuel hrest
    | false => exact readValue_keyword (by decide) (by decide) rfl fuel hrest
  | int hdigits =>
    refine readBack_of_step (hne (.int hdigits)) fun fuel rest hrest => ?_
    rw [json]
    exact readValue_int hdigits fuel hrest
  | string points =>
    refine readBack_of_step (hne (.string points)) fun fuel rest _ => ?_
    rw [json]
    exact readValue_string points fuel rest
  | list hitems ih => exact readBack_list hitems ih
  | record hkeys hvalues ih => exact readBack_record ih

/-- Plain values are read back when they are the whole text. -/
theorem Plain.parse?_json {value : Literal} (h : value.Plain) : parse? value.json = some value.rejoined := by
  have hread := h.readBack (2 * value.json.length + 2) [] (by omega) (by simp [Closed])
  rw [List.append_nil] at hread
  rw [parse?_eq_readValue, hread]
  rfl

/-- A value other than a string is written as it is inside another one. -/
theorem source_eq_json {value : Literal} (h : ∀ points, value ≠ .string points) :
    value.source = CodePoint.ofText value.json := by
  cases value with
  | string points => exact absurd rfl (h points)
  | _ => rfl

/-- A string without control characters other than line feeds is read back when it is the whole literal. -/
theorem parseSource?_string {points : List CodePoint} (h : IsQuotable points) :
    parseSource? (Literal.string points).source = some (.string points) := by
  have hstring : scanString (Literal.string points).source = some (points, []) := scanString_singleQuoted h []
  have hvalue : ∀ fuel, scanValue (fuel + 1) (Literal.string points).source = some (.string points, []) := by
    intro fuel
    rw [scanValue]
    exact congrArg (Option.map (Prod.map Literal.string id)) hstring
  rw [parseSource?, hvalue]
  rfl

/-- A text that neither begins nor ends with white space, and does not end with a semicolon, is no longer
trimmed. -/
theorem trimExpression_eq_self {text : Text} (hfirst : ∀ c ∈ text.head?, isBlank c = false)
    (hlast : ∀ c ∈ text.getLast?, isBlank c = false ∧ c ≠ ';') : trimExpression text = text := by
  have hdrop : ∀ (p : Char → Bool) (source : Text), (∀ c ∈ source.head?, p c = false) →
      source.dropWhile p = source :=
    fun p source hsource => (takeWhile_append_of_head (fun c hc => absurd hc List.not_mem_nil) hsource).2
  have hdropRight : ∀ p : Char → Bool, (∀ c ∈ text.getLast?, p c = false) →
      Text.dropRightWhile p text = text := by
    intro p hp
    rw [← List.head?_reverse] at hp
    rw [Text.dropRightWhile, hdrop p _ hp, List.reverse_reverse]
  have htrim : Text.trim text = text := by
    rw [Text.trim, Text.trimLeft, hdrop isBlank text hfirst, Text.trimRight,
      hdropRight isBlank fun c hc => (hlast c hc).1]
  rw [trimExpression, htrim, hdropRight _ fun c hc => by simp [(hlast c hc).2], htrim]

/-- A plain value ends with neither white space nor a semicolon. -/
theorem Plain.getLast_json {value : Literal} (h : value.Plain) :
    ∀ c ∈ value.json.getLast?, isBlank c = false ∧ c ≠ ';' := by
  intro c hc
  cases h with
  | null =>
    obtain rfl : 'l' = c := Option.some.inj hc
    decide
  | bool b =>
    cases b with
    | true =>
      obtain rfl : 'e' = c := Option.some.inj hc
      decide
    | false =>
      obtain rfl : 'e' = c := Option.some.inj hc
      decide
  | @int n hdigits =>
    rw [json] at hc
    obtain ⟨hblank, -, -, hmarks⟩ := of_isIntPart (isIntPart_of_mem_ofInt (List.mem_of_getLast? hc))
    simp only [List.mem_cons, not_or] at hmarks
    exact ⟨hblank, hmarks.2.2.2.2.2.1⟩
  | string points =>
    rw [json, doubleQuoted, List.getLast?_concat] at hc
    obtain rfl : '"' = c := Option.some.inj hc
    decide
  | list hitems =>
    rw [json, List.getLast?_concat] at hc
    obtain rfl : ']' = c := Option.some.inj hc
    decide
  | record hkeys hvalues =>
    rw [json, List.getLast?_concat] at hc
    obtain rfl : '}' = c := Option.some.inj hc
    decide

/-- A plain value is not trimmed. -/
theorem Plain.trimExpression_json {value : Literal} (h : value.Plain) :
    trimExpression value.json = value.json := by
  refine trimExpression_eq_self (fun c hc => ?_) h.getLast_json
  obtain ⟨first, rest, hcons, hblank, -⟩ := h.opening []
  rw [List.append_nil] at hcons
  rw [hcons] at hc
  exact Option.some.inj hc ▸ hblank

/-- Nothing in single quotes is trimmed. -/
theorem trimSource_string (points : List CodePoint) :
    trimSource (Literal.string points).source = (Literal.string points).source := by
  have hright : ∀ p : Char → Bool, p '\'' = false →
      CodePoint.dropRightWhile p (Literal.string points).source = (Literal.string points).source := by
    intro p hp
    have hlast : ¬CodePoint.is p (.char '\'') := by simp [CodePoint.is, hp]
    rw [CodePoint.dropRightWhile, source, List.reverse_append, List.reverse_singleton, List.singleton_append,
      List.dropWhile_cons_of_neg hlast, List.reverse_cons, List.reverse_reverse]
  have hleft : (Literal.string points).source.dropWhile (CodePoint.is isBlank) = (Literal.string points).source :=
    List.dropWhile_cons_of_neg (by decide)
  have htrim : CodePoint.trim (Literal.string points).source = (Literal.string points).source := by
    rw [CodePoint.trim, hleft, hright isBlank (by decide)]
  rw [trimSource, htrim, hright _ (by decide), htrim]

/-! ### Classification -/

/-- What a value is read as when it is the whole literal: a string is the same, and in any other value the halves that
stand next to each other are put together. -/
def reread : Literal → Literal
  | .string points => .string points
  | value => value.rejoined

/-- A value keeps its kind when its halves are put together. -/
theorem kind_rejoined (value : Literal) : value.rejoined.kind = value.kind := by
  cases value <;> rfl

/-- What is read as a value other than null is classified as that value. -/
theorem classifySource_of_parseSource? {source : List CodePoint} {value : Literal} (htrim : trimSource source = source)
    (hparse : parseSource? source = some value) (hnull : value ≠ .null) :
    classifySource source = (value.kind, some value) := by
  rw [classifySource, htrim, hparse]
  cases value with
  | null => exact absurd rfl hnull
  | _ => rfl

/-- A plain value that is neither null nor a string is classified with its halves put together. -/
theorem Plain.classifySource_eq {value : Literal} (hplain : value.Plain) (hnull : value ≠ .null)
    (hstring : ∀ points, value ≠ .string points) :
    classifySource value.source = (value.kind, some value.rejoined) := by
  have htrim : trimSource value.source = value.source := by
    rw [source_eq_json hstring, trimSource_ofText, hplain.trimExpression_json]
  have hparse : parseSource? value.source = some value.rejoined := by
    rw [source_eq_json hstring]
    exact hplain.parse?_json
  have hne : value.rejoined ≠ .null := by
    cases value with
    | null => exact absurd rfl hnull
    | _ => exact nofun
  rw [← kind_rejoined]
  exact classifySource_of_parseSource? htrim hparse hne

/-- A plain value other than null that is written as source code is classified by its kind, and as the value with the
halves that stand next to each other put together. When the value is itself a string, it may have no control characters
other than line feeds. It is classified as the value itself exactly when it is a string or when in no string and no key
in it a first half stands right before a second one. -/
theorem classify_source {value : Literal} (hplain : value.Plain) (hnull : value ≠ .null)
    (hquotable : ∀ points, value = .string points → IsQuotable points) :
    classifySource value.source = (value.kind, some value.reread) ∧
      (value.reread = value ↔
        (∃ points, value = .string points) ∨ ∀ points ∈ value.strings, ¬CodePoint.IsSplit points) := by
  -- Only a string is written differently on its own than inside another value.
  by_cases hstring : ∃ points, value = .string points
  · obtain ⟨points, rfl⟩ := hstring
    exact ⟨classifySource_of_parseSource? (trimSource_string points) (parseSource?_string (hquotable points rfl)) hnull,
      iff_of_true rfl (.inl ⟨points, rfl⟩)⟩
  · have hreread : value.reread = value.rejoined := by
      cases value with
      | string points => exact absurd ⟨points, rfl⟩ hstring
      | _ => rfl
    rw [hreread, hplain.rejoined_eq_self_iff, or_iff_right hstring]
    exact ⟨hplain.classifySource_eq hnull fun points heq => hstring ⟨points, heq⟩, Iff.rfl⟩

/-- A record in which both kinds of quotation mark, a backslash, a control character, a character above U+FFFF and halves
that do not belong together stand in nested strings, and a string with quotation marks, a backslash, a line feed and the
halves of a character. -/
theorem classify_source_nested :
    let items := [Literal.null, .int (-120), .text ['\'', '"', '\\', '\t', '😀'], .string [.half 0x600, .half 0x3D]]
    let nested := Literal.record
      [(CodePoint.ofText (txt "b c"), .list items), (CodePoint.ofText (txt "a"), .bool false)]
    let quoted := Literal.string (CodePoint.ofText (txt "it's \"a\\b\"\n") ++ [.half 0x3D, .half 0x600])
    classifySource nested.source = (.record, some nested) ∧ classifySource quoted.source = (.string, some quoted) := by
  intro items nested quoted
  have hitems : ∀ item ∈ items, item.Plain := by
    simp only [items, List.forall_mem_cons]
    exact ⟨.null, .int (by decide), .string _, .string _, List.forall_mem_nil _⟩
  have hnested : nested.Plain := by
    refine .record (by decide) ?_
    simp only [List.forall_mem_cons]
    exact ⟨.list hitems, .bool false, List.forall_mem_nil _⟩
  have hunsplit : ∀ points ∈ nested.strings, ¬CodePoint.IsSplit points := by
    simp only [← CodePoint.pair_eq_self_iff]
    decide
  have hquoted : quoted.Plain := .string _
  have hchars : (txt "it's \"a\\b\"\n").all fun c => 0x20 ≤ c.toNat ∨ c = '\n' := by decide
  have hquotable : IsQuotable (CodePoint.ofText (txt "it's \"a\\b\"\n") ++ [.half 0x3D, .half 0x600]) := by
    intro c hc
    have hmem : c ∈ txt "it's \"a\\b\"\n" := by simpa [CodePoint.ofText] using hc
    simpa using List.all_eq_true.1 hchars c hmem
  obtain ⟨hrecord, hsame⟩ := classify_source hnested (by simp [nested]) (by simp [nested])
  obtain ⟨hstring, -⟩ := classify_source hquoted (by simp [quoted]) fun points hpoints =>
    Literal.string.inj hpoints ▸ hquotable
  rw [hsame.2 (.inr hunsplit)] at hrecord
  exact ⟨hrecord, hstring⟩

/-- The two halves of a character come back as the character when they stand in a list, and as a key they count for the
same key as the character. -/
theorem split_halves_joined :
    let split := [CodePoint.half 0x3D, .half 0x600]
    let smile := CodePoint.ofText ['😀']
    let listed := Literal.list [.string split]
    let keyed := Literal.record [(split, .int 1), (smile, .int 2)]
    (listed.Plain ∧ classifySource listed.source = (.array, some (.list [.string smile])) ∧
        listed ≠ .list [.string smile]) ∧
      (keyed.Plain ∧ classifySource keyed.source = (.record, some (.record [(smile, .int 2)])) ∧
        keyed ≠ .record [(smile, .int 2)]) := by
  intro split smile listed keyed
  have hlisted : listed.Plain := .list (List.forall_mem_singleton.2 (.string split))
  have hkeyed : keyed.Plain := by
    refine .record (by decide) ?_
    simp only [List.forall_mem_cons]
    exact ⟨.int (by decide), .int (by decide), List.forall_mem_nil _⟩
  have hjoined : CodePoint.pair split = smile := by decide
  refine ⟨⟨hlisted, ?_, ?_⟩, hkeyed, ?_, ?_⟩
  · rw [hlisted.classifySource_eq (by simp [listed]) (by simp [listed])]
    rfl
  · simp [listed, split, smile, CodePoint.ofText]
  · rw [hkeyed.classifySource_eq (by simp [keyed]) (by simp [keyed])]
    rfl
  · simp [keyed]

end Literal

end AngularUplift
