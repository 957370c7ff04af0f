import AngularUplift.Proofs.Suite.Source
import AngularUplift.Proofs.Text.Line
import AngularUplift.Suite.Reader

/-!
# Reading a block

Where a written block stands in a text, reading it gives back its parts: its remark, its title, and the text on the
lines of its body. The lines before the block matter only in one respect: the last of them with content must not be
a comment.

## Main definitions

* `Text.EndsLine`: a text after which a line begins.
* `Uncommented`: a text whose last line with content holds no slash.

## Main statements

* `precedingComment_remark`: the comment above a written block is its remark.
* `Block.read_titled`, `Block.read_hook`: a written block is read back.
-/

namespace AngularUplift

/-! ### Lines before a block -/

namespace Text

/-- A text after which a line begins. -/
def EndsLine (text : Text) : Prop := ∀ c ∈ text.getLast?, c = '\n'

/-- A text whose last character is a line break, or that is empty. -/
theorem EndsLine.eq_nil_or {text : Text} (h : text.EndsLine) : text = [] ∨ ∃ front, text = front ++ ['\n'] := by
  rcases List.eq_nil_or_concat text with rfl | ⟨front, c, rfl⟩
  · exact .inl rfl
  · obtain rfl : c = '\n' := h c (by simp)
    exact .inr ⟨front, by simp⟩

/-- Lines that are ended, one after the other. -/
theorem EndsLine.append {text other : Text} (htext : text.EndsLine) (hother : other.EndsLine) :
    (text ++ other).EndsLine := by
  intro c hc
  rw [List.getLast?_append, Option.mem_def, Option.or_eq_some_iff] at hc
  rcases hc with hc | ⟨-, hc⟩
  · exact hother c hc
  · exact htext c hc

/-- Lines that are each ended. -/
theorem endsLine_unlines (texts : List Text) : (unlines texts).EndsLine := by
  induction texts with
  | nil => simp [unlines, EndsLine]
  | cons text texts ih =>
    have hline : (text ++ ['\n']).EndsLine := by simp [EndsLine]
    have hall := hline.append ih
    rwa [List.append_assoc, List.singleton_append, ← unlines_cons] at hall

/-- A line has no line break. -/
theorem lastIndexOf?_break_eq_none {line : Text} (h : '\n' ∉ line) : lastIndexOf? ['\n'] line = none := by
  induction line with
  | nil => rfl
  | cons c line ih =>
    obtain ⟨hc, hline⟩ := not_or.1 (mt List.mem_cons.2 h)
    rw [lastIndexOf?, ih hline]
    simp [startsWith, hc]

/-- The last line break of a text stands before its last line. -/
theorem lastIndexOf?_append_break {line : Text} (h : '\n' ∉ line) (front : Text) :
    lastIndexOf? ['\n'] (front ++ '\n' :: line) = some front.length := by
  induction front with
  | nil => simp [lastIndexOf?, lastIndexOf?_break_eq_none h, startsWith]
  | cons c front ih => simp [lastIndexOf?, ih]

/-- Where the last line of a text begins. -/
theorem lineStart_append {front line : Text} (hfront : front.EndsLine) (hline : '\n' ∉ line) :
    ((lastIndexOf? ['\n'] (front ++ line)).map (· + 1)).getD 0 = front.length := by
  rcases hfront.eq_nil_or with rfl | ⟨lines, rfl⟩
  · rw [List.nil_append, lastIndexOf?_break_eq_none hline]
    rfl
  · rw [List.append_assoc, List.singleton_append, lastIndexOf?_append_break hline]
    simp

/-- A text is made of lines that are ended, and a last line. -/
theorem exists_last_line (text : Text) : ∃ front line, text = front ++ line ∧ front.EndsLine ∧ '\n' ∉ line := by
  induction text with
  | nil => exact ⟨[], [], rfl, by simp [EndsLine], by simp⟩
  | cons c text ih =>
    obtain ⟨front, line, rfl, hfront, hline⟩ := ih
    -- The character is part of the last line only if no line ends after it.
    by_cases hc : front = [] ∧ c ≠ '\n'
    · obtain ⟨rfl, hc⟩ := hc
      exact ⟨[], c :: line, rfl, hfront, by simp [hline, Ne.symm hc]⟩
    · refine ⟨c :: front, line, rfl, ?_, hline⟩
      cases front with
      | nil => simpa [EndsLine] using hc
      | cons d front => simpa [EndsLine] using hfront

/-- Trimming the right end of a text with content keeps what stands before it. -/
theorem trimRight_append {last : Text} (h : ∃ c ∈ last, isBlank c = false) (front : Text) :
    trimRight (front ++ last) = front ++ trimRight last := by
  have hne : (last.reverse.dropWhile isBlank).isEmpty = false := by
    obtain ⟨c, hc, hblank⟩ := h
    rw [List.isEmpty_eq_false_iff]
    intro hnil
    have hall := List.dropWhile_eq_nil_iff.1 hnil c (List.mem_reverse.2 hc)
    simp [hblank] at hall
  rw [trimRight, dropRightWhile, List.reverse_append, List.dropWhile_append, hne]
  simp [trimRight, dropRightWhile]

/-- Trimming the right end of a text keeps only characters of it. -/
theorem mem_of_mem_trimRight {text : Text} {c : Char} (h : c ∈ trimRight text) : c ∈ text :=
  (List.rdropWhile_prefix ..).subset h

end Text

/-- A text whose last line with content holds no slash, and so no comment. -/
def Uncommented (text : Text) : Prop :=
  ∃ front last, text = front ++ last ∧ front.EndsLine ∧ '/' ∉ last ∧
    (front = [] ∨ ∃ c ∈ last, isBlank c = false)

/-- The empty text holds no comment. -/
theorem uncommented_nil : Uncommented [] := ⟨[], [], rfl, by simp [Text.EndsLine], List.not_mem_nil, .inl rfl⟩

/-- A text without slashes adds no comment. -/
theorem Uncommented.append {before text : Text} (h : Uncommented before) (hslash : '/' ∉ text) :
    Uncommented (before ++ text) := by
  obtain ⟨front, last, rfl, hfront, hlast, hcontent⟩ := h
  refine ⟨front, last ++ text, List.append_assoc .., hfront, ?_, hcontent.imp id ?_⟩
  · exact fun hmem => (List.mem_append.1 hmem).elim hlast hslash
  · rintro ⟨c, hc, hblank⟩
    exact ⟨c, List.mem_append_left text hc, hblank⟩

/-- The last line of a block is no comment. -/
theorem uncommented_blockText (before : Text) (remark : Option Remark) (category : TestCategory)
    (opening inner : Text) : Uncommented (before ++ blockText remark category opening inner) := by
  refine ⟨before ++ (Remark.line remark ++ (category.keyword ++ '(' :: (opening ++ (callbackHead ++
    '{' :: ('\n' :: inner ++ ['\n']))))), ['}', ')', ';'], ?_, ?_, by decide, .inr ⟨'}', by decide, rfl⟩⟩
  · simp [blockText, callback]
  · simp [Text.EndsLine, List.getLast?_append, List.getLast?_cons]

/-- The comment above a position is looked for on the last line with content before it, unless a block comment ends
there. -/
theorem precedingComment_eq {text front line : Text} {index : Nat}
    (htrim : Text.trimRight (text.take index) = front ++ line) (hfront : front.EndsLine) (hline : '\n' ∉ line)
    (hclose : (front ++ line).endsWith (txt "*/") = false) :
    precedingComment text index =
      if (Text.trimLeft line).startsWith (txt "//") then
        (Text.trimLeft line, front.length + (line.length - (Text.trimLeft line).length))
      else ([], index) := by
  rw [precedingComment]
  simp only [htrim, hclose, Text.lineStart_append hfront hline, List.drop_left]
  rfl

/-- A text that ends with the mark of a block comment ends with a slash. -/
theorem getLast?_of_endsWith {text : Text} (h : text.endsWith (txt "*/") = true) : text.getLast? = some '/' := by
  obtain ⟨front, rfl⟩ := List.isSuffixOf_iff_suffix.1 h
  rw [List.getLast?_append]
  rfl

/-- Nothing stands above a position without a comment. -/
theorem precedingComment_uncommented {before : Text} (h : Uncommented before) (after : Text) :
    precedingComment (before ++ after) before.length = ([], before.length) := by
  obtain ⟨front, last, rfl, hfront, hslash, hcontent⟩ := h
  -- Without the white space at its end the text still ends with something that holds no slash.
  obtain ⟨rest, htrim, hrest, hne⟩ : ∃ rest, Text.trimRight (front ++ last) = front ++ rest ∧ '/' ∉ rest ∧
      (front = [] ∨ rest ≠ []) := by
    refine ⟨Text.trimRight last, ?_, fun hmem => hslash (Text.mem_of_mem_trimRight hmem), ?_⟩
    · rcases hcontent with rfl | hcontent
      · rfl
      · exact Text.trimRight_append hcontent front
    · refine hcontent.imp id fun hcontent hnil => ?_
      obtain ⟨c, hc, hblank⟩ := hcontent
      have hall := List.rdropWhile_eq_nil_iff.1 hnil c hc
      simp [hblank] at hall
  obtain ⟨ended, line, rfl, hended, hline⟩ := Text.exists_last_line rest
  -- A block comment would end with a slash.
  have hclose : (front ++ ended ++ line).endsWith (txt "*/") = false := by
    refine Bool.eq_false_iff.2 fun hends => ?_
    have hlast := getLast?_of_endsWith hends
    rw [List.append_assoc, List.getLast?_append, Option.or_eq_some_iff] at hlast
    rcases hlast with hlast | ⟨hnone, hlast⟩
    · exact hrest (List.mem_of_getLast? hlast)
    · have hnil := List.getLast?_eq_none_iff.1 hnone
      rcases hne with rfl | hne
      · simp at hlast
      · exact hne hnil
  have htake : ((front ++ last) ++ after).take (front ++ last).length = front ++ last := List.take_left
  rw [precedingComment_eq (by rw [htake, htrim, List.append_assoc]) (hfront.append hended) hline hclose, if_neg]
  -- A line comment would begin with one.
  intro hstart
  obtain ⟨tail, htail⟩ := List.isPrefixOf_iff_prefix.1 hstart
  have hmem : '/' ∈ Text.trimLeft line := by
    rw [← htail]
    exact List.mem_cons_self
  exact hrest (List.mem_append_right ended ((List.dropWhile_sublist _).subset hmem))

/-- The comment of a remark: the comment mark, and what is left of the remark. -/
theorem trimRight_remark (remark : Remark) :
    ∃ rest, Text.trimRight (txt "// " ++ remark.text) = '/' :: '/' :: rest ∧ '/' ∉ rest ∧ '\n' ∉ rest := by
  have hplain : '/' ∉ ' ' :: remark.text ∧ '\n' ∉ ' ' :: remark.text := by
    constructor
    · refine List.not_mem_cons_of_ne_of_not_mem (by decide) fun hmem => ?_
      exact (remark.plain _ hmem).2.2.2.2.2.1 rfl
    · refine List.not_mem_cons_of_ne_of_not_mem (by decide) fun hmem => ?_
      exact (remark.plain _ hmem).2.2.2.2.2.2 rfl
  have hsplit : txt "// " ++ remark.text = ['/', '/'] ++ ' ' :: remark.text := rfl
  rw [hsplit]
  -- If the remark is blank, only the comment mark is left of its line.
  by_cases hcontent : ∃ c ∈ ' ' :: remark.text, isBlank c = false
  · refine ⟨Text.trimRight (' ' :: remark.text), Text.trimRight_append hcontent _, ?_, ?_⟩
    · exact fun hmem => hplain.1 (Text.mem_of_mem_trimRight hmem)
    · exact fun hmem => hplain.2 (Text.mem_of_mem_trimRight hmem)
  · have hblank : ∀ c ∈ ' ' :: remark.text, isBlank c := by
      intro c hc
      by_contra hnot
      exact hcontent ⟨c, hc, Bool.eq_false_iff.2 hnot⟩
    rw [Text.trimRight_append_right hblank]
    exact ⟨[], rfl, List.not_mem_nil, List.not_mem_nil⟩

/-- The comment above a written block is its remark. -/
theorem precedingComment_remark {before : Text} (hline : before.EndsLine) (h : Uncommented before)
    (remark : Option Remark) (after : Text) :
    precedingComment (before ++ (Remark.line remark ++ after)) (before.length + (Remark.line remark).length) =
      (Remark.comment remark, before.length) := by
  cases remark with
  | none => exact precedingComment_uncommented h after
  | some remark =>
    obtain ⟨rest, hcomment, hslash, hbreak⟩ := trimRight_remark remark
    have htake : (before ++ (Remark.line (some remark) ++ after)).take
        (before.length + (Remark.line (some remark)).length) = before ++ Remark.line (some remark) := by
      rw [← List.append_assoc, ← List.length_append, List.take_left]
    have htrim : Text.trimRight (before ++ Remark.line (some remark)) = before ++ '/' :: '/' :: rest := by
      have hcontent : ∃ c ∈ txt "// " ++ remark.text, isBlank c = false := ⟨'/', List.mem_cons_self, rfl⟩
      rw [Remark.line, ← List.append_assoc, Text.trimRight_append_right (List.forall_mem_singleton.2 rfl),
        Text.trimRight_append hcontent, hcomment]
    have hclose : (before ++ '/' :: '/' :: rest).endsWith (txt "*/") = false := by
      refine Bool.eq_false_iff.2 fun hends => ?_
      -- The line ends with the comment mark itself or with a character that is no slash.
      cases hrest : rest.getLast? with
      | none =>
        rw [List.getLast?_eq_none_iff.1 hrest] at hends
        obtain ⟨front, hfront⟩ := List.isSuffixOf_iff_suffix.1 hends
        exact absurd (List.append_inj' hfront rfl).2 (by decide)
      | some c =>
        have hlast := getLast?_of_endsWith hends
        have hall : before ++ '/' :: '/' :: rest = before ++ ['/', '/'] ++ rest := by simp
        rw [hall, List.getLast?_append, hrest] at hlast
        obtain rfl := Option.some.inj hlast
        exact hslash (List.mem_of_getLast? hrest)
    have hleft : Text.trimLeft ('/' :: '/' :: rest) = '/' :: '/' :: rest := rfl
    have hword : Remark.comment (some remark) = '/' :: '/' :: rest := hcomment
    have hstart : Text.startsWith ('/' :: '/' :: rest) (txt "//") = true := rfl
    rw [precedingComment_eq (by rw [htake, htrim]) hline (by simp [hbreak]) hclose, hleft, hword, if_pos hstart,
      Nat.sub_self, Nat.add_zero]

/-! ### Arguments of a block -/

namespace Text

/-- A piece of an argument list goes on with a character that does not separate. -/
theorem argumentPieces_cons {n : Nesting} {c : Char} {text first : Text} {rest : List Text}
    (h : ¬(c = ',' ∧ n.isTop = true)) (hpieces : argumentPieces (n.step c) text = first :: rest) :
    argumentPieces n (c :: text) = (c :: first) :: rest := by
  rw [argumentPieces, if_neg h, hpieces]

/-- A literal is part of one piece of an argument list. -/
theorem argumentPieces_literal {title rest first : Text} {pieces : List Text}
    (h : ∀ c ∈ title, c ≠ '\'' ∧ c ≠ '\\') (hpieces : argumentPieces {} rest = first :: pieces) :
    argumentPieces { quote := some '\'' } (title ++ '\'' :: rest) = (title ++ '\'' :: first) :: pieces := by
  induction title with
  | nil => exact argumentPieces_cons (by simp [Nesting.isTop]) hpieces
  | cons c title ih =>
    obtain ⟨⟨hquote, hescape⟩, htitle⟩ := List.forall_mem_cons.1 h
    have hstep : Nesting.step { quote := some '\'' } c = { quote := some '\'' } := by
      simp [Nesting.step, hescape, hquote]
    refine argumentPieces_cons (by simp [Nesting.isTop]) ?_
    rw [hstep]
    exact ih htitle

end Text

/-- A title neither ends its literal nor escapes the end of it. -/
theorem PlainTitle.stays_in_literal (title : PlainTitle) : ∀ c ∈ title.text, c ≠ '\'' ∧ c ≠ '\\' :=
  fun c hc => ⟨(title.plain c hc).1, (title.plain c hc).2.1⟩

/-- The title of a block is its first argument. -/
theorem unquote_splitArguments (title : PlainTitle) (rest : Text) :
    Text.unquote ((Text.splitArguments (title.argument ++ rest)).headD []) = title.text := by
  let literal : Text := '\'' :: (title.text ++ ['\''])
  have hliteral : Text.trim literal = literal := Text.trim_cons_append (by decide) (by decide) title.text
  have hpieces : Text.argumentPieces {} (title.argument ++ rest) =
      literal :: Text.argumentPieces {} (' ' :: rest) := by
    have hcomma : Text.argumentPieces {} (',' :: ' ' :: rest) = [] :: Text.argumentPieces {} (' ' :: rest) := rfl
    have hshape : title.argument ++ rest = '\'' :: (title.text ++ '\'' :: ',' :: ' ' :: rest) := by
      simp [PlainTitle.argument]
    rw [hshape]
    exact Text.argumentPieces_cons (by decide) (Text.argumentPieces_literal title.stays_in_literal hcomma)
  have hsplit : (Text.splitArguments (title.argument ++ rest)).headD [] = literal := by
    rw [Text.splitArguments, hpieces, List.map_cons, hliteral]
    rfl
  rw [hsplit, Text.unquote, hliteral]
  simp [literal, isQuote]

/-- A literal is passed over in the search for the brace of a callback. -/
theorem callbackBrace?_literal {title : Text} (h : ∀ c ∈ title, c ≠ '\'' ∧ c ≠ '\\') {previous : Char}
    (hprevious : previous ≠ '\\') (depth : Int) (rest : Text) :
    callbackBrace? depth (some '\'') previous (title ++ '\'' :: rest) =
      (callbackBrace? depth none '\'' rest).map (· + (title.length + 1)) := by
  induction title generalizing previous with
  | nil => simp [callbackBrace?, hprevious]
  | cons c title ih =>
    obtain ⟨⟨hquote, hescape⟩, htitle⟩ := List.forall_mem_cons.1 h
    rw [List.cons_append, callbackBrace?]
    simp only [hquote, false_and, if_false]
    rw [ih htitle hescape, Option.map_map]
    rfl

/-- The body of a callback begins with the first brace after its title. -/
theorem callbackBrace?_argument (title : PlainTitle) (rest : Text) :
    callbackBrace? 0 none '(' (title.argument ++ (callbackHead ++ '{' :: rest)) =
      some (title.argument.length + callbackHead.length) := by
  have hhead : callbackBrace? 0 none '\'' (',' :: ' ' :: (callbackHead ++ '{' :: rest)) =
      some (callbackHead.length + 2) := rfl
  have hshape : title.argument ++ (callbackHead ++ '{' :: rest) =
      '\'' :: (title.text ++ '\'' :: ',' :: ' ' :: (callbackHead ++ '{' :: rest)) := by
    simp [PlainTitle.argument]
  have hquote : isQuote '\'' = true := rfl
  rw [hshape, callbackBrace?, if_pos hquote, callbackBrace?_literal title.stays_in_literal (by decide),
    hhead]
  simp [PlainTitle.argument]
  omega

/-- A block ends with the semicolon after it. -/
theorem blockTrailerEnd_append (before rest : Text) :
    blockTrailerEnd (before ++ ';' :: rest) before.length = before.length + 1 := by
  have hdrop : ((before ++ ';' :: rest).drop before.length).dropWhile isGap = ';' :: rest := by
    rw [List.drop_left]
    rfl
  rw [blockTrailerEnd, hdrop]
  simp
  omega

/-! ### A written block -/

/-- The head of a written block that begins at a position. -/
def writtenHead (start : Nat) (remark : Option Remark) (category : TestCategory) : Occurrence Nat where
  start := start + (Remark.line remark).length
  stop := start + (Remark.line remark).length + (category.keyword.length + 1)
  value := 0

/-- A written block that begins at a position, without the body of its callback. -/
def writtenBlock (start : Nat) (remark : Option Remark) (category : TestCategory) (opening inner : Text) : Block where
  comment := Remark.comment remark
  start
  stop := start + (blockText remark category opening inner).length
  keywordStart := start + (Remark.line remark).length
  arguments := opening ++ callback inner
  title := Text.unquote ((Text.splitArguments (opening ++ callback inner)).headD [])
  bodyStart :=
    start + (Remark.line remark).length + category.keyword.length + 1 + (opening ++ callback inner).length
  body := []

/-- A written block with a title that begins at a position, with the lines of its body. -/
def titledBlock (start : Nat) (remark : Option Remark) (category : TestCategory) (title : PlainTitle) (inner : Text) :
    Block :=
  { writtenBlock start remark category title.argument inner with
    title := title.text
    bodyStart := start + (Remark.line remark).length +
      (category.keyword ++ '(' :: (title.argument ++ callbackHead ++ ['{'])).length
    body := '\n' :: inner ++ ['\n'] }

namespace Block

variable {before : Text} {category : TestCategory} {opening inner : Text}

/-- A written block is read up to its callback, whose body is looked for in blocks other than hooks. -/
theorem read_blockText (hline : before.EndsLine) (hcomment : Uncommented before) (remark : Option Remark)
    (hparens : Delimiter.paren.Balanced (opening ++ callback inner)) (rest : Text) :
    let text := before ++ (blockText remark category opening inner ++ rest)
    let block := writtenBlock before.length remark category opening inner
    let openIndex := before.length + (Remark.line remark).length + category.keyword.length
    Block.read category text (writtenHead before.length remark category) =
      if category = .beforeEach then .ok block
      else
        match callbackBrace? 0 none '(' (opening ++ callback inner) with
        | none => .ok block
        | some n => do
          let bodyEnd ← Delimiter.brace.close text (openIndex + 1 + n : Nat)
          return { block with
            bodyStart := openIndex + 1 + n + 1
            body := text.slice (openIndex + 1 + n + 1) bodyEnd } := by
  intro text block openIndex
  -- The opening parenthesis of the call, with the text before it.
  let front : Text := before ++ (Remark.line remark ++ category.keyword)
  have htext : text = front ++ '(' :: ((opening ++ callback inner) ++ ')' :: (';' :: rest)) := by
    simp [text, front, blockText]
  have hlength : front.length = openIndex := by
    simp only [front, openIndex, List.length_append, Nat.add_assoc]
  have habove : precedingComment text (before.length + (Remark.line remark).length) =
      (Remark.comment remark, before.length) := by
    have hsplit : text = before ++ (Remark.line remark ++
        (category.keyword ++ '(' :: (opening ++ callback inner ++ [')', ';']) ++ rest)) := by
      simp [text, blockText]
    rw [hsplit]
    exact precedingComment_remark hline hcomment remark _
  have hclose : Delimiter.paren.close text openIndex = .ok (openIndex + 1 + (opening ++ callback inner).length) := by
    rw [htext, ← hlength]
    exact Delimiter.close_append hparens front _
  have htrailer : blockTrailerEnd text (openIndex + 1 + (opening ++ callback inner).length + 1) = block.stop := by
    have hsplit : text = (front ++ '(' :: (opening ++ callback inner) ++ [')']) ++ ';' :: rest := by
      simp [htext]
    have hend : (front ++ '(' :: (opening ++ callback inner) ++ [')']).length =
        openIndex + 1 + (opening ++ callback inner).length + 1 := by
      simp [hlength]
      omega
    rw [hsplit, ← hend, blockTrailerEnd_append]
    simp [block, writtenBlock, blockText, front]
    omega
  have harguments : text.slice (openIndex + 1) (openIndex + 1 + (opening ++ callback inner).length) =
      opening ++ callback inner := by
    have hdrop : text.drop (openIndex + 1) = (opening ++ callback inner) ++ ')' :: ';' :: rest := by
      rw [htext, ← hlength, List.drop_append]
      simp
    exact Text.slice_eq_of_drop hdrop
  have hkeyword : (writtenHead before.length remark category).start +
      (writtenHead before.length remark category).value = before.length + (Remark.line remark).length := rfl
  have hopen : (writtenHead before.length remark category).stop - 1 = openIndex := by
    simp only [writtenHead, openIndex]
    omega
  simp only [Block.read, hkeyword, hopen, habove, hclose, htrailer, harguments, bind, Except.bind, pure, Except.pure]
  rfl

/-- A hook is read back. -/
theorem read_hook (hline : before.EndsLine) (hcomment : Uncommented before) (remark : Option Remark)
    (hinner : Delimiter.paren.Balanced inner) (rest : Text) :
    Block.read .beforeEach (before ++ (blockText remark .beforeEach [] inner ++ rest))
        (writtenHead before.length remark .beforeEach) =
      .ok (writtenBlock before.length remark .beforeEach [] inner) := by
  have hparens : Delimiter.paren.Balanced ([] ++ callback inner) := balanced_callback (by decide) hinner
  rw [read_blockText hline hcomment remark hparens rest, if_pos rfl]

/-- A block with a title is read back, with the lines of its body. -/
theorem read_titled (hline : before.EndsLine) (hcomment : Uncommented before) (remark : Option Remark)
    (hcategory : category ≠ .beforeEach) (title : PlainTitle) (hparens : Delimiter.paren.Balanced inner)
    (hbraces : Delimiter.brace.Balanced inner) (rest : Text) :
    Block.read category (before ++ (blockText remark category title.argument inner ++ rest))
        (writtenHead before.length remark category) =
      .ok (titledBlock before.length remark category title inner) := by
  have harguments : Delimiter.paren.Balanced (title.argument ++ callback inner) :=
    (title.balanced_argument (by decide)).append (balanced_callback (by decide) hparens)
  have hbrace : callbackBrace? 0 none '(' (title.argument ++ callback inner) =
      some (title.argument.length + callbackHead.length) := callbackBrace?_argument title _
  -- The brace of the callback, with the text before it.
  let front : Text := before ++ (Remark.line remark ++ (category.keyword ++ '(' :: (title.argument ++ callbackHead)))
  obtain ⟨text, hdef⟩ : ∃ text, before ++ (blockText remark category title.argument inner ++ rest) = text := ⟨_, rfl⟩
  have htext : text = front ++ '{' :: (('\n' :: inner ++ ['\n']) ++ '}' :: (')' :: ';' :: rest)) := by
    rw [← hdef]
    simp [front, blockText, callback]
  have hlength : before.length + (Remark.line remark).length + category.keyword.length + 1 +
      (title.argument.length + callbackHead.length) = front.length := by
    simp [front]
    omega
  have hlines : Delimiter.brace.Balanced ('\n' :: inner ++ ['\n']) := by
    have hbreak : Delimiter.brace.Balanced ['\n'] := .of_notMem (by decide) (by decide)
    exact (hbreak.append hbraces).append hbreak
  have hclose : Delimiter.brace.close text front.length =
      .ok (front.length + 1 + ('\n' :: inner ++ ['\n']).length) := by
    rw [htext]
    exact Delimiter.close_append hlines front _
  have hbody : text.slice (front.length + 1) (front.length + 1 + ('\n' :: inner ++ ['\n']).length) =
      '\n' :: inner ++ ['\n'] := by
    have hdrop : text.drop (front.length + 1) = ('\n' :: inner ++ ['\n']) ++ '}' :: ')' :: ';' :: rest := by
      rw [htext, List.drop_append]
      simp
    exact Text.slice_eq_of_drop hdrop
  have htitle : Text.unquote ((Text.splitArguments (title.argument ++ callback inner)).headD []) = title.text :=
    unquote_splitArguments title _
  rw [read_blockText hline hcomment remark harguments rest, if_neg hcategory, hbrace]
  simp only [hlength, hdef, hclose, bind, Except.bind, pure, Except.pure, hbody]
  -- The body begins after the brace.
  have hstart : front.length + 1 = before.length + (Remark.line remark).length +
      (category.keyword ++ '(' :: (title.argument ++ callbackHead ++ ['{'])).length := by
    simp [front]
    omega
  rw [hstart, titledBlock, writtenBlock, htitle]

end Block

end AngularUplift
