import AngularUplift.Proofs.Text.Arguments
import AngularUplift.Proofs.Text.Comment
import AngularUplift.Registration.Call
import Mathlib.Data.Bool.AllAny

/-!
# The keys of a binding map

Bindings are an object literal of keys and quoted values. Its keys are read from its compact form, without comments and
white space, so that they do not depend on the layout: on whatever white space and comments stand between its tokens.
The scan for comments goes over the literals and leaves them whole, white space is taken away also inside of them, and
then only the commas between the bindings separate and only the first colon of a binding ends its key.

## Main definitions

* `SourceToken.isLayout`, `SourceToken.compact`: tokens between which a reader sees no difference, and what compaction
  leaves of the others.
* `isKeyChar`, `WrittenBinding`: a key, a quoted value and the marks they are written in.
* `mapTokens`: the tokens of an object literal of bindings.

## Main statements

* `compactBlock_sourceOf`: the compact form of a text that is written in tokens is that of its tokens without layout.
* `WrittenBinding.entryKey?_compact`: the key of a compact binding.
* `blockKeys_compactBlock`: the keys of an object literal in any layout.
-/

namespace AngularUplift

namespace SourceToken

/-! ### Layout -/

/-- White space or a comment. -/
def isLayout : SourceToken → Bool
  | .plain code _ => code.all isBlank
  | .literal .. => false
  | .blockComment .. => true
  | .lineComment .. => true

/-- What compaction leaves of a token. -/
def compact (token : SourceToken) : Text := token.code.filter (!isBlank ·)

/-- Compaction leaves nothing of layout. -/
theorem compact_of_isLayout {token : SourceToken} (h : token.isLayout = true) : token.compact = [] := by
  cases token with
  | plain code hcode =>
    refine List.filter_eq_nil_iff.2 fun c hc => ?_
    simp [List.all_eq_true.1 h c hc]
  | literal => cases h
  | blockComment => rfl
  | lineComment => rfl

/-- Compaction leaves of tokens what it leaves of those that are no layout. -/
theorem flatMap_compact_filter (tokens : List SourceToken) :
    (tokens.filter (!·.isLayout)).flatMap compact = tokens.flatMap compact := by
  induction tokens with
  | nil => rfl
  | cons token tokens ih =>
    by_cases hlayout : token.isLayout = true
    · rw [List.filter_cons_of_neg (by simp [hlayout]), List.flatMap_cons, compact_of_isLayout hlayout, ih,
        List.nil_append]
    · rw [List.filter_cons_of_pos (by simp [hlayout]), List.flatMap_cons, List.flatMap_cons, ih]

end SourceToken

namespace Registration

open SourceToken Text

/-- The compact form of a text that is written in tokens is that of its tokens without layout. -/
theorem compactBlock_sourceOf {tokens : List SourceToken} (h : Placed none tokens) :
    compactBlock (sourceOf tokens) = (tokens.filter (!·.isLayout)).flatMap compact := by
  have hlexemes : Lexeme.scan (sourceOf tokens) = tokens.flatMap lexemes := Lexeme.scanFrom_sourceOf h
  have hcode : stripComments (sourceOf tokens) = tokens.flatMap code := by
    rw [stripComments, hlexemes, List.filterMap_flatMap]
    simp only [filterMap_code?_lexemes]
  rw [compactBlock, hcode, List.filter_flatMap, flatMap_compact_filter]
  rfl

/-! ### Bindings -/

/-- Characters among which there is neither the mark nor a backslash may stand between the marks of a literal. -/
theorem inLiteral_of_forall {quote : Char} {inside : Text} (h : ∀ c ∈ inside, c ≠ quote ∧ c ≠ '\\') :
    InLiteral quote inside := by
  induction inside with
  | nil => exact .nil
  | cons c inside ih =>
    obtain ⟨⟨hquote, hslash⟩, hinside⟩ := List.forall_mem_cons.1 h
    exact .plain hquote hslash (ih hinside)

/-- A character that can stand in a key. The characters of an identifier are such characters, and so are those that
only some notions of an identifier admit: all but white space and the marks by which code is cut. -/
def isKeyChar (c : Char) : Bool :=
  !(isBlank c || isQuote c || isOpening c || isClosing c || [',', ':', '/', '\\'].elem c)

/-- A key and a quoted value, as they are written. -/
structure WrittenBinding where
  /-- The key. -/
  key : Text
  /-- The quotation mark on either side of the key, if it is quoted. -/
  keyQuote : Option {c : Char // isQuote c = true}
  /-- What stands between the marks of the value. -/
  value : Text
  /-- The quotation mark on either side of the value. -/
  valueQuote : {c : Char // isQuote c = true}
  /-- There is a key. -/
  key_ne_nil : key ≠ []
  /-- The key is made of the characters that can stand in one. -/
  isKeyChar_key : ∀ c ∈ key, isKeyChar c = true
  /-- In the value there is neither its mark nor a backslash. -/
  value_plain : ∀ c ∈ value, c ≠ valueQuote.val ∧ c ≠ '\\'

/-- A character of a key is none of the marks by which code is cut. -/
theorem isKeyChar_spec {c : Char} (h : isKeyChar c = true) :
    isBlank c = false ∧ isQuote c = false ∧ isOpening c = false ∧ isClosing c = false ∧
      c ≠ ',' ∧ c ≠ ':' ∧ c ≠ '/' ∧ c ≠ '\\' := by
  simpa [isKeyChar, and_assoc] using h

/-- A quotation mark is neither white space nor the colon after a key. -/
theorem isQuote_spec {c : Char} (h : isQuote c = true) : isBlank c = false ∧ c ≠ ':' := by
  simp only [isQuote, Bool.or_eq_true, beq_iff_eq] at h
  rcases h with (rfl | rfl) | rfl
  all_goals decide

/-- A single mark of code as a token. -/
def markToken (c : Char) (h : isQuote c = false ∧ c ≠ '/') : SourceToken := .plain [c] (List.forall_mem_singleton.2 h)

namespace WrittenBinding

variable (b : WrittenBinding)

theorem inLiteral_key (quote : {c : Char // isQuote c = true}) : InLiteral quote.val b.key := by
  refine inLiteral_of_forall fun c hc => ?_
  obtain ⟨-, hquote, -, -, -, -, -, hslash⟩ := isKeyChar_spec (b.isKeyChar_key c hc)
  refine ⟨?_, hslash⟩
  rintro rfl
  exact absurd quote.property (Bool.eq_false_iff.1 hquote)

/-- The key as a token. -/
def keyToken : SourceToken :=
  match b.keyQuote with
  | none => .plain b.key fun c hc =>
    have h := isKeyChar_spec (b.isKeyChar_key c hc)
    ⟨h.2.1, h.2.2.2.2.2.2.1⟩
  | some quote => .literal quote.val b.key quote.property (b.inLiteral_key quote)

/-- The tokens of a binding: its key, a colon and its value. -/
def tokens : List SourceToken :=
  [b.keyToken, markToken ':' (by decide),
    .literal b.valueQuote.val b.value b.valueQuote.property (inLiteral_of_forall b.value_plain)]

/-- The key as it is written. -/
def writtenKey : Text :=
  match b.keyQuote with
  | none => b.key
  | some quote => quote.val :: (b.key ++ [quote.val])

/-- What stands between the marks of the value without white space. -/
def bareValue : Text := b.value.filter (!isBlank ·)

/-- The binding without layout. -/
def compactText : Text := b.writtenKey ++ ':' :: b.valueQuote.val :: (b.bareValue ++ [b.valueQuote.val])

/-- A written key has neither white space nor a colon. -/
theorem writtenKey_spec : ∀ c ∈ b.writtenKey, isBlank c = false ∧ c ≠ ':' := by
  have hkey : ∀ c ∈ b.key, isBlank c = false ∧ c ≠ ':' := fun c hc =>
    have h := isKeyChar_spec (b.isKeyChar_key c hc)
    ⟨h.1, h.2.2.2.2.2.1⟩
  rw [writtenKey]
  split
  · exact hkey
  · next quote _ =>
    have hquote : isBlank quote.val = false ∧ quote.val ≠ ':' := isQuote_spec quote.property
    exact List.forall_mem_cons.2 ⟨hquote, List.forall_mem_append.2 ⟨hkey, List.forall_mem_singleton.2 hquote⟩⟩

/-- Compaction leaves of the key what is written. -/
theorem compact_keyToken : b.keyToken.compact = b.writtenKey := by
  have hsource : b.keyToken.code = b.writtenKey := by
    rw [keyToken, writtenKey]
    split <;> rfl
  rw [compact, hsource]
  exact List.filter_eq_self.2 fun c hc => by simp [(b.writtenKey_spec c hc).1]

/-- Compaction leaves of the tokens of a binding its compact text. -/
theorem flatMap_compact_tokens : b.tokens.flatMap compact = b.compactText := by
  have hquote : isBlank b.valueQuote.val = false := (isQuote_spec b.valueQuote.property).1
  simp only [tokens, List.flatMap_cons, List.flatMap_nil, List.append_nil, compact_keyToken, compactText]
  have hcolon : (markToken ':' (by decide)).compact = [':'] := by decide
  have hvalue : (literal b.valueQuote.val b.value b.valueQuote.property (inLiteral_of_forall b.value_plain)).compact =
      b.valueQuote.val :: (b.bareValue ++ [b.valueQuote.val]) := by
    simp [compact, code, source, bareValue, hquote]
  rw [hcolon, hvalue]
  rfl

/-- The key of a binding is read off its compact text. -/
theorem entryKey?_compactText : entryKey? b.compactText = some b.key := by
  have hcolon : b.compactText.elem ':' = true := by simp [compactText]
  -- There is no colon in a written key, so that the first one is the one behind it, whatever the value holds.
  have htake : b.compactText.takeWhile (· != ':') = b.writtenKey := by
    rw [compactText, List.takeWhile_append_of_pos fun c hc => by simp [(b.writtenKey_spec c hc).2],
      List.takeWhile_cons_of_neg (by simp), List.append_nil]
  have hunquote : unquote b.writtenKey = b.key := by
    have htrim : trim b.writtenKey = b.writtenKey :=
      trim_eq_self (fun c hc => (b.writtenKey_spec c (List.mem_of_mem_head? hc)).1)
        fun c hc => (b.writtenKey_spec c (List.mem_of_mem_getLast? hc)).1
    rw [unquote, htrim]
    cases hmark : b.keyQuote with
    | none =>
      obtain ⟨first, rest, hkey⟩ := List.exists_cons_of_ne_nil b.key_ne_nil
      have hfirst := (isKeyChar_spec (b.isKeyChar_key first (hkey ▸ List.mem_cons_self))).2.1
      simp [writtenKey, hmark, hkey, hfirst]
    | some quote => simp [writtenKey, hmark, quote.property]
  rw [entryKey?, if_pos hcolon, htake, hunquote]
  split
  · next hnil => exact absurd hnil b.key_ne_nil
  · rfl

/-- A scan goes over the compact text of a binding without meeting a comma that separates. -/
theorem whole_compactText : Whole b.compactText := by
  have hkey : Whole b.writtenKey := by
    rw [writtenKey]
    split
    · refine whole_of_forall fun c hc => ?_
      obtain ⟨-, hquote, hopening, hclosing, hcomma, -⟩ := isKeyChar_spec (b.isKeyChar_key c hc)
      exact ⟨hcomma, hquote, hopening, hclosing⟩
    · next quote _ => exact whole_literal quote.property (b.inLiteral_key quote)
  have hcolon : Whole [':'] := by decide
  -- Without its white space the value is a literal as before, since neither its mark nor a backslash came in.
  have hvalue : Whole (b.valueQuote.val :: (b.bareValue ++ [b.valueQuote.val])) :=
    whole_literal b.valueQuote.property
      (inLiteral_of_forall fun c hc => b.value_plain c (List.mem_of_mem_filter hc))
  exact hkey.append (hcolon.append hvalue)

/-- The compact text of a binding is trimmed. -/
theorem trimmed_compactText : Trimmed b.compactText := by
  have hblank : ∀ c ∈ b.compactText, isBlank c = false := by
    rw [← flatMap_compact_tokens]
    intro c hc
    obtain ⟨token, -, hmem⟩ := List.mem_flatMap.1 hc
    simpa using List.of_mem_filter hmem
  exact ⟨fun c hc => hblank c (List.mem_of_mem_head? hc), fun c hc => hblank c (List.mem_of_mem_getLast? hc)⟩

end WrittenBinding

/-! ### Maps of bindings -/

/-- The tokens between the braces of a map: its bindings with commas between them, and a comma after the last one if
there is a trailing comma. -/
def bodyTokens (trailing : Bool) : List WrittenBinding → List SourceToken
  | [] => []
  | [b] => b.tokens ++ if trailing then [markToken ',' (by decide)] else []
  | b :: next :: rest => b.tokens ++ markToken ',' (by decide) :: bodyTokens trailing (next :: rest)

/-- The tokens of an object literal of bindings. -/
def mapTokens (trailing : Bool) (bindings : List WrittenBinding) : List SourceToken :=
  markToken '{' (by decide) :: (bodyTokens trailing bindings ++ [markToken '}' (by decide)])

/-- Compaction leaves of a map the compact bindings with commas between them, and after a trailing comma nothing. -/
theorem flatMap_compact_bodyTokens (trailing : Bool) (bindings : List WrittenBinding) :
    ∃ last, (last = [] ∨ last = [[]]) ∧
      (bodyTokens trailing bindings).flatMap compact = join [','] (bindings.map (·.compactText) ++ last) := by
  have hcomma : (markToken ',' (by decide)).compact = [','] := by decide
  fun_induction bodyTokens trailing bindings with
  | case1 => exact ⟨[], .inl rfl, rfl⟩
  | case2 b =>
    cases trailing with
    | false => exact ⟨[], .inl rfl, by simp [b.flatMap_compact_tokens, join]⟩
    | true => exact ⟨[[]], .inr rfl, by simp [b.flatMap_compact_tokens, hcomma, join]⟩
  | case3 b next rest ih =>
    obtain ⟨last, hlast, hrest⟩ := ih
    refine ⟨last, hlast, ?_⟩
    rw [List.flatMap_append, List.flatMap_cons, b.flatMap_compact_tokens, hcomma, hrest]
    simp [join]

/-- The keys of the arguments that a compact map is split into. -/
theorem filterMap_splitArguments (trailing : Bool) (bindings : List WrittenBinding) :
    (splitArguments ((bodyTokens trailing bindings).flatMap compact)).filterMap entryKey? = bindings.map (·.key) := by
  cases bindings with
  | nil => rfl
  | cons b rest =>
    obtain ⟨last, hlast, hpieces⟩ := flatMap_compact_bodyTokens trailing (b :: rest)
    -- After a trailing comma there is one more argument, which is empty and has no key.
    have hempty : (∀ piece ∈ last, Whole piece ∧ Trimmed piece) ∧ last.filterMap entryKey? = [] := by
      rcases hlast with rfl | rfl
      all_goals decide
    have hwhole : ∀ piece ∈ (b :: rest).map (·.compactText) ++ last, Whole piece ∧ Trimmed piece := by
      refine List.forall_mem_append.2 ⟨fun piece hpiece => ?_, hempty.1⟩
      obtain ⟨binding, -, rfl⟩ := List.mem_map.1 hpiece
      exact ⟨binding.whole_compactText, binding.trimmed_compactText⟩
    have htrim := map_trim_eq_self fun piece hpiece => (hwhole piece hpiece).2
    have hsplit := splitArguments_join_comma (splits_of_whole (by simp) fun piece hpiece => (hwhole piece hpiece).1)
      (by rw [htrim]; simp [WrittenBinding.compactText])
    rw [hpieces, hsplit, htrim, List.filterMap_append, hempty.2, List.append_nil, List.filterMap_map]
    have hkeys : entryKey? ∘ (·.compactText) = some ∘ WrittenBinding.key :=
      funext fun binding => binding.entryKey?_compactText
    rw [hkeys, List.filterMap_eq_map]

/-- The keys of an object literal of bindings are read in order, with or without quotation marks around them, from a
text with any white space, block comments and line comments around and between its tokens, as long as each line comment
stands where it is one, neither after a colon nor after a backslash, and ends with its line. -/
theorem blockKeys_compactBlock {trailing : Bool} {bindings : List WrittenBinding} {tokens : List SourceToken}
    (hplaced : Placed none tokens) (htokens : tokens.filter (!·.isLayout) = mapTokens trailing bindings) :
    blockKeys (compactBlock (sourceOf tokens)) = bindings.map (·.key) := by
  have hopen : (markToken '{' (by decide)).compact = ['{'] := by decide
  have hclose : (markToken '}' (by decide)).compact = ['}'] := by decide
  have hcompact : compactBlock (sourceOf tokens) =
      '{' :: ((bodyTokens trailing bindings).flatMap compact ++ ['}']) := by
    rw [compactBlock_sourceOf hplaced, htokens, mapTokens, List.flatMap_cons, List.flatMap_append,
      List.flatMap_singleton, hopen, hclose]
    rfl
  rw [hcompact, blockKeys, if_pos (by rw [← List.cons_append, List.getLast?_concat]; rfl), List.dropLast_concat,
    filterMap_splitArguments]

/-- A map with comments that hold quotation marks, commas, colons and braces, with a value that holds a comment mark, a
colon and a comma, and with a trailing comma. -/
theorem blockKeys_compactBlock_commented :
    let text := txt "\x7b // it's \x7ba: 'b'\x7d,\n user /* : */ : /*,*/'a, //b:c' ,\r\n\t\"$on\":'<', \x7d"
    ∃ tokens bindings, Placed none tokens ∧ tokens.filter (!·.isLayout) = mapTokens true bindings ∧
      sourceOf tokens = text ∧ blockKeys (compactBlock text) = [txt "user", txt "$on"] := by
  intro text
  have hall : ∀ {p : Char → Prop} [DecidablePred p] {text : Text}, (text.all fun c => decide (p c)) = true →
      ∀ c ∈ text, p c := List.all_iff_forall_prop.1
  let bindings : List WrittenBinding :=
    [⟨txt "user", none, txt "a, //b:c", ⟨'\'', rfl⟩, by decide, hall rfl, hall rfl⟩,
      ⟨txt "$on", some ⟨'"', rfl⟩, ['<'], ⟨'\'', rfl⟩, by decide, hall rfl, hall rfl⟩]
  let tokens : List SourceToken :=
    [.plain ['{'] (hall rfl), .plain [' '] (hall rfl), .lineComment (txt " it's \x7ba: 'b'\x7d,") (hall rfl),
      .plain (txt "\n ") (hall rfl), .plain (txt "user") (hall rfl), .plain [' '] (hall rfl),
      .blockComment (txt " : ") (by decide), .plain [' '] (hall rfl), .plain [':'] (hall rfl), .plain [' '] (hall rfl),
      .blockComment [','] (by decide), .literal '\'' (txt "a, //b:c") rfl (inLiteral_of_forall (hall rfl)),
      .plain [' '] (hall rfl), .plain [','] (hall rfl), .plain (txt "\r\n\t") (hall rfl),
      .literal '"' (txt "$on") rfl (inLiteral_of_forall (hall rfl)), .plain [':'] (hall rfl),
      .literal '\'' ['<'] rfl (inLiteral_of_forall (hall rfl)), .plain [','] (hall rfl), .plain [' '] (hall rfl),
      .plain ['}'] (hall rfl)]
  have hplaced : Placed none tokens := by
    iterate 2 refine placed_cons_iff.2 ⟨by rintro _ _ ⟨⟩, ?_⟩
    refine placed_cons_iff.2 ⟨fun _ _ _ => ⟨?_, ?_⟩, ?_⟩
    · rintro c ⟨⟩
      decide
    · rintro c ⟨⟩
      decide
    iterate 18 refine placed_cons_iff.2 ⟨by rintro _ _ ⟨⟩, ?_⟩
    exact placed_nil _
  have htokens : tokens.filter (!·.isLayout) = mapTokens true bindings := rfl
  exact ⟨tokens, bindings, hplaced, htokens, rfl, blockKeys_compactBlock hplaced htokens⟩

end Registration

end AngularUplift
