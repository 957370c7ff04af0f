import AngularUplift.Text.Class
import Mathlib.Data.List.DropRight
import Mathlib.Data.List.TakeWhile

/-!
# Lines and white space

Trimming takes away white space at the ends of a text and nothing else, and the lines of a text are the pieces
between its line breaks. The content of a text is its lines without their outer white space, with blank lines left
out.

## Main definitions

* `Text.content`: the trimmed lines of a text that are not blank.

## Main statements

* `Text.trim_append_left`, `Text.trim_append_right`: white space at the ends does not matter to trimming.
* `Text.lines_append_break`, `Text.lines_unlines`: the lines of a text that is put together from others.
-/

namespace AngularUplift

/-! ### White space -/

/-- Spaces and tabs are white space. -/
theorem isBlank_of_isGap {c : Char} (h : isGap c) : isBlank c := by
  rcases Bool.or_eq_true .. ▸ h with hspace | htab
  · rw [beq_iff_eq.1 hspace]
    decide
  · rw [beq_iff_eq.1 htab]
    decide

/-- Spaces and tabs are no line breaks. -/
theorem break_notMem_of_isGap {space : Text} (h : ∀ c ∈ space, isGap c) : '\n' ∉ space :=
  fun hmem => absurd (h _ hmem) (by decide)

/-- The code points of white space. -/
def blankCodes : List Nat :=
  [9, 10, 11, 12, 13, 28, 29, 30, 31, 32, 0x85, 0xA0, 0x1680, 0x2028, 0x2029, 0x202F, 0x205F, 0x3000] ++
    List.range' 0x2000 11

/-- White space is no part of a name. -/
theorem isName_of_isBlank {c : Char} (h : isBlank c) : isName c = false := by
  have hcodes : ∀ code ∈ blankCodes, isName (Char.ofNat code) = false := by decide +kernel
  -- The class is given by ranges of code points, so that membership is linear arithmetic.
  have hmem : c.toNat ∈ blankCodes := by
    simp only [isBlank] at h
    simp only [blankCodes, List.mem_append, List.mem_cons, List.not_mem_nil, List.mem_range'_1, or_false]
    split at h
    · simp only [Bool.or_eq_true, Bool.and_eq_true, decide_eq_true_eq] at h
      omega
    · simp only [Bool.or_eq_true, Bool.and_eq_true, decide_eq_true_eq, beq_iff_eq] at h
      omega
  have hc := hcodes _ hmem
  rwa [Char.ofNat_toNat] at hc

/-- No character of a name is white space. -/
theorem isBlank_of_isName {c : Char} (h : isName c) : isBlank c = false := by
  cases hblank : isBlank c with
  | false => rfl
  | true =>
    rw [isName_of_isBlank hblank] at h
    exact absurd h (by decide)

/-- What is no white space is no space or tab. -/
theorem isGap_of_isBlank {c : Char} (h : isBlank c = false) : isGap c = false := by
  cases hgap : isGap c with
  | false => rfl
  | true =>
    rw [isBlank_of_isGap hgap] at h
    exact absurd h (by decide)

/-- A single or double quotation mark is neither white space nor a mark by which arguments are cut. -/
theorem isPlainQuote_spec {quote : Char} (h : isPlainQuote quote = true) :
    isQuote quote = true ∧ isBlank quote = false ∧ quote ≠ ',' ∧ quote ≠ '(' ∧ quote ≠ ')' := by
  simp only [isPlainQuote, Bool.or_eq_true, beq_iff_eq] at h
  rcases h with rfl | rfl
  all_goals decide

/-- A character outside a class does not occur among characters of the class. -/
theorem notMem_of_class {p : Char → Bool} {text : Text} (h : ∀ d ∈ text, p d) {c : Char} (hc : p c = false) :
    c ∉ text := by
  intro hmem
  rw [h c hmem] at hc
  exact absurd hc (by decide)

namespace Text

/-! ### Trimming -/

/-- White space before a text goes when its left end is trimmed. -/
theorem trimLeft_append_left {space : Text} (h : ∀ c ∈ space, isBlank c) (text : Text) :
    trimLeft (space ++ text) = trimLeft text :=
  List.dropWhile_append_of_pos h

/-- What is dropped from the right end may as well not be there. -/
theorem dropRightWhile_append {p : Char → Bool} {tail : Text} (h : ∀ c ∈ tail, p c) (text : Text) :
    dropRightWhile p (text ++ tail) = dropRightWhile p text := by
  have hreverse : ∀ c ∈ tail.reverse, p c := fun c hc => h c (List.mem_reverse.1 hc)
  rw [dropRightWhile, List.reverse_append, List.dropWhile_append_of_pos hreverse, dropRightWhile]

/-- Nothing is dropped from the right end when the last character stays. -/
theorem dropRightWhile_eq_self {p : Char → Bool} {text : Text} (h : ∀ c ∈ text.getLast?, p c = false) :
    dropRightWhile p text = text := by
  refine List.rdropWhile_eq_self_iff.2 fun hne => ?_
  rw [h _ (List.getLast?_eq_getLast_of_ne_nil hne)]
  exact Bool.false_ne_true

/-- White space after a text goes when its right end is trimmed. -/
theorem trimRight_append_right {space : Text} (h : ∀ c ∈ space, isBlank c) (text : Text) :
    trimRight (text ++ space) = trimRight text :=
  dropRightWhile_append h text

theorem trim_append_left {space : Text} (h : ∀ c ∈ space, isBlank c) (text : Text) :
    trim (space ++ text) = trim text := by
  rw [trim, trimLeft_append_left h, trim]

theorem trim_append_right {space : Text} (h : ∀ c ∈ space, isBlank c) (text : Text) :
    trim (text ++ space) = trim text := by
  -- Trimming the left end passes over the text into the white space only if the text is blank.
  by_cases hblank : ∀ c ∈ text, isBlank c
  · have hall : trimLeft (text ++ space) = trimLeft text := by
      rw [trimLeft_append_left hblank, trimLeft, trimLeft, List.dropWhile_eq_nil_iff.2 h,
        List.dropWhile_eq_nil_iff.2 hblank]
    rw [trim, hall, trim]
  · have hkept : trimLeft (text ++ space) = trimLeft text ++ space := by
      have hne : (text.dropWhile isBlank).isEmpty = false := by
        rw [List.isEmpty_eq_false_iff]
        exact fun hnil => hblank (List.dropWhile_eq_nil_iff.1 hnil)
      rw [trimLeft, List.dropWhile_append, hne]
      rfl
    rw [trim, hkept, trimRight_append_right h, trim]

/-- Line breaks before and after a text go when it is trimmed. -/
theorem trim_between_breaks (text : Text) : trim ('\n' :: text ++ ['\n']) = trim text := by
  have hbreak : ∀ c ∈ ['\n'], isBlank c := List.forall_mem_singleton.2 rfl
  rw [trim_append_right hbreak, ← List.singleton_append, trim_append_left hbreak]

/-- A text that neither begins nor ends with white space is not trimmed. -/
theorem trim_eq_self {text : Text} (hfirst : ∀ c ∈ text.head?, isBlank c = false)
    (hlast : ∀ c ∈ text.getLast?, isBlank c = false) : trim text = text := by
  have hleft : trimLeft text = text := by
    cases text with
    | nil => rfl
    | cons c rest => exact List.dropWhile_cons_of_neg (by simp [hfirst c rfl])
  rw [trim, hleft]
  refine List.rdropWhile_eq_self_iff.2 fun hne => ?_
  have hblank := hlast _ (List.getLast?_eq_getLast_of_ne_nil hne)
  simp [hblank]

/-- A text between two visible characters is not trimmed. -/
theorem trim_cons_append {first last : Char} (hfirst : isBlank first = false) (hlast : isBlank last = false)
    (inner : Text) : trim (first :: (inner ++ [last])) = first :: (inner ++ [last]) := by
  refine trim_eq_self (fun c hc => ?_) fun c hc => ?_
  · exact Option.some.inj hc ▸ hfirst
  · rw [← List.cons_append, List.getLast?_concat] at hc
    exact Option.some.inj hc ▸ hlast

/-- A trimmed text does not begin with white space. -/
theorem isBlank_head_trim {text : Text} {c : Char} (h : c ∈ (trim text).head?) : isBlank c = false := by
  -- What is left after trimming the right end is the beginning of what was there before.
  have hleading : trim text <+: trimLeft text := List.rdropWhile_prefix ..
  obtain ⟨tail, htail⟩ := hleading
  have hhead : (text.dropWhile isBlank).head? = some c := by
    rw [← trimLeft, ← htail, List.head?_append, Option.mem_def.1 h, Option.some_or]
  have hnot := List.head?_dropWhile_not isBlank text
  rwa [hhead] at hnot

/-- A text whose right end is trimmed does not end with white space. -/
theorem isBlank_getLast_trimRight {text : Text} {c : Char} (h : c ∈ (trimRight text).getLast?) : isBlank c = false := by
  have hne : trimRight text ≠ [] := fun hnil => by simp [hnil] at h
  rw [List.getLast?_eq_getLast_of_ne_nil hne, Option.mem_some] at h
  have hnot := List.rdropWhile_last_not isBlank text hne
  rw [← h]
  exact Bool.eq_false_iff.2 hnot

/-- A trimmed text does not end with white space. -/
theorem isBlank_getLast_trim {text : Text} {c : Char} (h : c ∈ (trim text).getLast?) : isBlank c = false :=
  isBlank_getLast_trimRight h

/-- A text is what is left of it when its right end is trimmed, and white space. -/
theorem exists_trimRight (text : Text) : ∃ trail, text = trimRight text ++ trail ∧ ∀ c ∈ trail, isBlank c :=
  ⟨text.rtakeWhile isBlank, (List.rdropWhile_append_rtakeWhile ..).symm, fun _ hc => List.mem_rtakeWhile_imp hc⟩

@[simp]
theorem trim_trim (text : Text) : trim (trim text) = trim text :=
  trim_eq_self (fun _ => isBlank_head_trim) fun _ => isBlank_getLast_trim

/-- Trimming takes characters away and keeps the order of the others. -/
theorem trim_sublist (text : Text) : (trim text).Sublist text :=
  (List.rdropWhile_prefix ..).sublist.trans (List.dropWhile_sublist _)

/-- A trimmed text has only characters of the text. -/
theorem mem_of_mem_trim {text : Text} {c : Char} (h : c ∈ trim text) : c ∈ text :=
  (trim_sublist text).subset h

/-- A text is white space, the trimmed text, and white space. -/
theorem exists_trim (text : Text) :
    ∃ lead trail, text = lead ++ (trim text ++ trail) ∧ (∀ c ∈ lead, isBlank c) ∧ ∀ c ∈ trail, isBlank c := by
  obtain ⟨trail, hright, htrail⟩ := exists_trimRight (trimLeft text)
  refine ⟨text.takeWhile isBlank, trail, ?_, fun c hc => List.mem_takeWhile_imp hc, htrail⟩
  rw [trim, ← hright]
  exact List.takeWhile_append_dropWhile.symm

/-- Dropping characters from the left end keeps the characters of a class that none of them belongs to. -/
theorem filter_dropWhile {p q : Char → Bool} (h : ∀ c, p c = true → q c = false) (text : Text) :
    (text.dropWhile p).filter q = text.filter q := by
  induction text with
  | nil => rfl
  | cons c text ih =>
    by_cases hc : p c = true
    · rw [List.dropWhile_cons_of_pos hc, ih, List.filter_cons_of_neg (by simp [h c hc])]
    · rw [List.dropWhile_cons_of_neg hc]

theorem filter_dropRightWhile {p q : Char → Bool} (h : ∀ c, p c = true → q c = false) (text : Text) :
    (dropRightWhile p text).filter q = text.filter q := by
  rw [dropRightWhile, List.filter_reverse, filter_dropWhile h, List.filter_reverse, List.reverse_reverse]

/-- Trimming keeps the characters of a class without white space. -/
theorem filter_trim {q : Char → Bool} (h : ∀ c, isBlank c = true → q c = false) (text : Text) :
    (trim text).filter q = text.filter q := by
  rw [trim, trimRight, filter_dropRightWhile h, trimLeft, filter_dropWhile h]

/-! ### Lines -/

theorem fields_ne_nil (separator : Char) (text : Text) : fields separator text ≠ [] := by
  cases text with
  | nil => simp [fields]
  | cons c text =>
    rw [fields]
    split
    · simp
    · split <;> simp

/-- The fields of two texts with a separator between them are the fields of the one and of the other. -/
theorem fields_append_separator (separator : Char) (text other : Text) :
    fields separator (text ++ separator :: other) = fields separator text ++ fields separator other := by
  induction text with
  | nil => simp [fields]
  | cons c text ih =>
    rw [List.cons_append, fields, fields, ih]
    split
    · rfl
    · obtain ⟨first, rest, hfields⟩ := List.exists_cons_of_ne_nil (fields_ne_nil separator text)
      simp [hfields]

/-- A text without separators is one field. -/
theorem fields_eq_singleton {separator : Char} {text : Text} (h : separator ∉ text) :
    fields separator text = [text] := by
  induction text with
  | nil => rfl
  | cons c text ih =>
    obtain ⟨hc, htext⟩ := not_or.1 (mt List.mem_cons.2 h)
    rw [fields, if_neg (Ne.symm hc), ih htext]

/-- The lines of two texts with a line break between them are the lines of the one and of the other. -/
theorem lines_append_break (text other : Text) : lines (text ++ '\n' :: other) = lines text ++ lines other :=
  fields_append_separator '\n' text other

/-- A text without line breaks is one line. -/
theorem lines_eq_singleton {text : Text} (h : '\n' ∉ text) : lines text = [text] := fields_eq_singleton h

/-- No line holds a line break. -/
theorem break_notMem_of_mem_lines {text line : Text} (h : line ∈ lines text) : '\n' ∉ line := by
  induction text generalizing line with
  | nil => simp_all [lines, fields]
  | cons c text ih =>
    rw [lines, fields, ← lines] at h
    split at h
    · rcases List.mem_cons.1 h with rfl | hrest
      · simp
      · exact ih hrest
    · next hc =>
      obtain ⟨first, rest, hlines⟩ := List.exists_cons_of_ne_nil (fields_ne_nil '\n' text)
      rw [← lines] at hlines
      rw [hlines] at h ih
      -- The character joins the first line of the rest; the other lines are as they were.
      rcases List.mem_cons.1 h with rfl | hrest
      · have hfirst := ih List.mem_cons_self
        simp [Ne.symm hc, hfirst]
      · exact ih (List.mem_cons_of_mem _ hrest)

/-- What stands at the beginning of a text, without a character, stands before any place of the character. -/
theorem append_cons_eq_append {c : Char} {text rest front back : Text} (h : text ++ c :: rest = front ++ back)
    (hfront : c ∉ front) : ∃ middle, text = front ++ middle ∧ back = middle ++ c :: rest := by
  rcases List.append_eq_append_iff.1 h with ⟨middle, rfl, hback⟩ | ⟨middle, rfl, rfl⟩
  · cases middle with
    | nil => exact ⟨[], by simp, hback.symm⟩
    | cons d middle =>
      -- The front would reach over the character.
      obtain ⟨rfl, -⟩ := List.cons.inj hback
      simp at hfront
  · exact ⟨middle, rfl, rfl⟩

/-- The first of several lines that are each followed by a line break. -/
theorem unlines_cons (line : Text) (ls : List Text) : unlines (line :: ls) = line ++ '\n' :: unlines ls := by
  rw [unlines, List.flatMap_cons, List.append_assoc, List.singleton_append, unlines]

theorem unlines_append (ls others : List Text) : unlines (ls ++ others) = unlines ls ++ unlines others :=
  List.flatMap_append ..

/-- The lines of a text in which every line is followed by a line break: these lines, and an empty one. -/
theorem lines_unlines {ls : List Text} (h : ∀ line ∈ ls, '\n' ∉ line) : lines (unlines ls) = ls ++ [[]] := by
  induction ls with
  | nil => rfl
  | cons line ls ih =>
    obtain ⟨hline, hrest⟩ := List.forall_mem_cons.1 h
    rw [unlines_cons, lines_append_break, lines_eq_singleton hline, ih hrest, List.singleton_append,
      List.cons_append]

/-- Lines joined by line breaks, with one more line break after them. -/
theorem join_append_break {ls : List Text} (h : ls ≠ []) : join ['\n'] ls ++ ['\n'] = unlines ls := by
  induction ls with
  | nil => exact absurd rfl h
  | cons line ls ih =>
    cases ls with
    | nil => simp [join, unlines]
    | cons next rest =>
      have hrest := ih (List.cons_ne_nil next rest)
      rw [join, List.append_assoc, hrest, unlines_cons line, List.append_assoc, List.singleton_append]

/-- Lines joined by line breaks, the last one of them given on its own. -/
theorem join_concat (ls : List Text) (last : Text) : join ['\n'] (ls ++ [last]) = unlines ls ++ last := by
  induction ls with
  | nil => rfl
  | cons line ls ih =>
    obtain ⟨next, rest, hrest⟩ := List.exists_cons_of_ne_nil (List.concat_ne_nil last ls)
    rw [List.cons_append, hrest, join, ← hrest, ih, unlines_cons, List.append_assoc, List.append_assoc,
      List.singleton_append, List.cons_append]

/-- The first lines of several that are joined by line breaks. -/
theorem lines_join_append {front back : List Text} (hfront : ∀ line ∈ front, '\n' ∉ line) (hback : back ≠ []) :
    lines (join ['\n'] (front ++ back)) = front ++ lines (join ['\n'] back) := by
  induction front with
  | nil => rfl
  | cons line front ih =>
    obtain ⟨hline, hrest⟩ := List.forall_mem_cons.1 hfront
    obtain ⟨next, rest, hnext⟩ := List.exists_cons_of_ne_nil (List.append_ne_nil_of_right_ne_nil front hback)
    rw [List.cons_append, hnext, join, ← hnext, List.append_assoc, List.singleton_append, lines_append_break,
      lines_eq_singleton hline, ih hrest, List.singleton_append, List.cons_append]

/-- A line has only characters of its text. -/
theorem mem_of_mem_line {text line : Text} (hline : line ∈ lines text) {c : Char} (hc : c ∈ line) :
    c ∈ text := by
  induction text generalizing line with
  | nil => simp_all [lines, fields]
  | cons d text ih =>
    rw [lines, fields, ← lines] at hline
    split at hline
    · rcases List.mem_cons.1 hline with rfl | hrest
      · exact absurd hc List.not_mem_nil
      · exact List.mem_cons_of_mem d (ih hrest hc)
    · obtain ⟨first, rest, hlines⟩ := List.exists_cons_of_ne_nil (fields_ne_nil '\n' text)
      rw [← lines] at hlines
      rw [hlines] at hline ih
      rcases List.mem_cons.1 hline with rfl | hrest
      · rcases List.mem_cons.1 hc with rfl | hfirst
        · exact List.mem_cons_self
        · exact List.mem_cons_of_mem d (ih List.mem_cons_self hfirst)
      · exact List.mem_cons_of_mem d (ih (List.mem_cons_of_mem _ hrest) hc)

/-! ### Kinds of line break -/

/-- Line breaks are written without carriage returns. -/
theorem return_notMem_normaliseBreaks (text : Text) : '\r' ∉ normaliseBreaks text := by
  fun_induction normaliseBreaks text with
  | case1 => exact List.not_mem_nil
  | case2 rest ih => simpa using ih
  | case3 rest hrest ih => simpa using ih
  | case4 c rest hc hreturn ih =>
    rintro (_ | ⟨_, hmem⟩)
    · exact hreturn rfl
    · exact ih hmem

/-- A text without carriage returns has only one kind of line break. -/
theorem normaliseBreaks_eq_self {text : Text} (h : '\r' ∉ text) : normaliseBreaks text = text := by
  fun_induction normaliseBreaks text with
  | case1 => rfl
  | case2 rest ih => simp at h
  | case3 rest hrest ih => simp at h
  | case4 c rest hc hreturn ih =>
    rw [ih fun hmem => h (List.mem_cons_of_mem c hmem)]

/-- Two texts with a line feed between them, with all line breaks written alike. Where the first one ends with a
carriage return, the two characters become one line break. -/
theorem normaliseBreaks_append_break (text other : Text) :
    ∃ front, normaliseBreaks (text ++ '\n' :: other) = front ++ '\n' :: normaliseBreaks other ∧
      (normaliseBreaks text = front ∨ normaliseBreaks text = front ++ ['\n']) := by
  fun_induction normaliseBreaks text with
  | case1 => exact ⟨[], rfl, .inl rfl⟩
  | case2 rest ih =>
    obtain ⟨front, hwhole, hfirst⟩ := ih
    refine ⟨'\n' :: front, ?_, hfirst.imp (congrArg _) (congrArg _)⟩
    rw [List.cons_append, List.cons_append, normaliseBreaks, hwhole, List.cons_append]
  | case3 rest hrest ih =>
    obtain ⟨front, hwhole, hfirst⟩ := ih
    cases rest with
    | nil => exact ⟨[], rfl, .inr rfl⟩
    | cons c rest =>
      refine ⟨'\n' :: front, ?_, hfirst.imp (congrArg _) (congrArg _)⟩
      have hnext : ∀ tail, c :: (rest ++ '\n' :: other) = '\n' :: tail → False :=
        fun tail heq => hrest rest (by rw [(List.cons.inj heq).1])
      rw [List.cons_append, List.cons_append, normaliseBreaks.eq_3 _ hnext]
      rw [List.cons_append] at hwhole
      rw [hwhole, List.cons_append]
  | case4 c rest hc hreturn ih =>
    obtain ⟨front, hwhole, hfirst⟩ := ih
    refine ⟨c :: front, ?_, hfirst.imp (congrArg _) (congrArg _)⟩
    rw [List.cons_append, normaliseBreaks.eq_4 _ _ (fun _ heq => absurd heq hreturn) hreturn, hwhole,
      List.cons_append]

/-! ### Content -/

/-- The trimmed lines of those that are not blank. -/
def contentOf (ls : List Text) : List Text := (ls.map trim).filter (!·.isEmpty)

/-- The trimmed lines of a text that are not blank. -/
def content (text : Text) : List Text := contentOf text.lines

/-- A blank line before others adds no content. -/
theorem contentOf_cons_blank {line : Text} (h : trim line = []) (ls : List Text) :
    contentOf (line :: ls) = contentOf ls := by
  simp [contentOf, h]

/-- A line with content before others adds its content. -/
theorem contentOf_cons {line : Text} (h : trim line ≠ []) (ls : List Text) :
    contentOf (line :: ls) = trim line :: contentOf ls := by
  simp [contentOf, h]

theorem contentOf_append (ls others : List Text) :
    contentOf (ls ++ others) = contentOf ls ++ contentOf others := by
  simp [contentOf]

theorem contentOf_reverse (ls : List Text) : contentOf ls.reverse = (contentOf ls).reverse := by
  simp [contentOf]

theorem content_append_break (text other : Text) : content (text ++ '\n' :: other) = content text ++ content other := by
  rw [content, lines_append_break, contentOf_append, content, content]

end Text

end AngularUplift
