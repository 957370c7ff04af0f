import AngularUplift.Proofs.Suite.Block
import AngularUplift.Proofs.Suite.Termination
import AngularUplift.Proofs.Text.Arguments
import AngularUplift.Proofs.Text.Matching
import AngularUplift.Proofs.Text.StringLiteral
import AngularUplift.Proofs.TypeScript.ComponentClass
import AngularUplift.Suite.Printer

/-!
# What becomes of titles

The title of a block is read from the first of its arguments. The quotation marks of a literal are taken off it, but its
escapes stay as they are written, and when the title is written again every backslash gets another one before it. So the
literal that is written denotes what was written between the marks of the one that was read: the two denote the same
string exactly when there is no backslash among it. Before that, the arguments themselves are cut at the first
parenthesis that closes the block in the plain text, which may stand inside the literal.

## Main definitions

* `titleLiteral`: the literal that is written for a title.
* `titleOf`: the title that is read from the arguments of a block.
* `BeginsWithLiteral`: arguments of which the first is a string literal.
* `TitleSurvives`: the literals whose strings are kept.
* `Suite.TitleKept`: a round of a search in which a title is kept, or altered.

## Main statements

* `denotes_titleLiteral`: what the literal that is written denotes.
* `Block.title_of_read`: where the title of a block comes from.
* `denotes_titleOf_iff`: when the literal that is written denotes the string of the one that was read.
* `Suite.titles_kept`: the titles of a whole file.
* `Suite.escaped_title_altered`: a title with an escape does not denote what it did.
-/

namespace AngularUplift

open StringLiteral

/-! ### Writing a title -/

/-- The string literal that is written for a title. -/
def titleLiteral (title : Text) : Text := '\'' :: (quoteTitle title ++ ['\''])

theorem append_titleLiteral (front title back : Text) :
    front ++ ['\''] ++ quoteTitle title ++ '\'' :: back = front ++ titleLiteral title ++ back := by
  simp only [titleLiteral, List.append_assoc, List.cons_append, List.nil_append]

theorem blockHead_eq (keyword title : Text) :
    blockHead keyword title = keyword ++ ['('] ++ titleLiteral title ++ txt ", () => \x7b" := by
  have hopening : txt "('" = ['('] ++ ['\''] := rfl
  have hclosing : txt "', () => \x7b" = '\'' :: txt ", () => \x7b" := rfl
  rw [blockHead, hclosing, hopening, ← append_titleLiteral, ← List.append_assoc keyword]

theorem suiteHead_eq (suite : TestNode) :
    suiteHead suite = txt "describe(" ++ titleLiteral suite.title ++ txt ", function () \x7b" := by
  have hopening : txt "describe('" = txt "describe(" ++ ['\''] := rfl
  have hclosing : txt "', function () \x7b" = '\'' :: txt ", function () \x7b" := rfl
  unfold suiteHead
  simp only [hopening, hclosing]
  exact append_titleLiteral _ _ _

/-- To exchange one character is to exchange each of its occurrences. -/
theorem Text.replaceAll_singleton (c : Char) (replacement text : Text) :
    replaceAll text [c] replacement = text.flatMap fun d => if d = c then replacement else [d] := by
  induction text with
  | nil => rfl
  | cons d text ih =>
    rw [replaceAll] at ih ⊢
    rw [replaceFrom, List.flatMap_cons, List.length_singleton, ih]
    by_cases hd : d = c
    · subst hd
      simp [startsWith]
    · simp [startsWith, hd, Ne.symm hd]

/-- What is written for a character of a title. -/
def quoteChar (c : Char) : Text := if c = '\\' ∨ c = '\'' then ['\\', c] else [c]

theorem quoteTitle_eq_flatMap (title : Text) : quoteTitle title = title.flatMap quoteChar := by
  rw [quoteTitle, Text.replaceAll_singleton, Text.replaceAll_singleton, List.flatMap_assoc]
  congr 1
  funext c
  by_cases hslash : c = '\\'
  · subst hslash
    rfl
  · by_cases hquote : c = '\''
    · subst hquote
      rfl
    · simp [quoteChar, hslash, hquote]

/-- Nothing but backslashes is written besides the characters of a title. -/
theorem mem_of_mem_quoteTitle {c : Char} {title : Text} (h : c ∈ quoteTitle title) (hc : c ≠ '\\') : c ∈ title := by
  rw [quoteTitle_eq_flatMap] at h
  obtain ⟨d, hd, hmem⟩ := List.mem_flatMap.1 h
  rw [quoteChar] at hmem
  split at hmem
  · simp only [List.mem_cons, List.not_mem_nil, or_false] at hmem
    rcases hmem with rfl | rfl
    · exact absurd rfl hc
    · exact hd
  · rwa [List.mem_singleton.1 hmem]

/-- A character that is written between the marks of a literal denotes itself, unless it ends a line. -/
theorem inside_quoteChar_append_iff {c : Char} {text : Text} {value : List Nat} :
    Inside '\'' (quoteChar c ++ text) value ↔
      (c ≠ '\n' ∧ c ≠ '\r') ∧ ∃ more, value = pointUnits c.toNat ++ more ∧ Inside '\'' text more := by
  by_cases hescaped : c = '\\' ∨ c = '\''
  · have hplain : isPlainEscape c = true ∧ c ≠ '\n' ∧ c ≠ '\r' := by
      rcases hescaped with rfl | rfl
      all_goals decide
    rw [quoteChar, if_pos hescaped]
    refine ⟨fun h => ⟨hplain.2, ?_⟩, ?_⟩
    · generalize hsource : ['\\', c] ++ text = source at h
      cases h with
      | nil => cases hsource
      | character _ hslash => exact absurd (List.cons.inj hsource).1.symm hslash
      | @escape written rest value more hescape hrest =>
        obtain ⟨d, code, rfl, -⟩ := hescape.exists_cons
        simp only [List.cons_append, List.nil_append, List.cons.injEq, true_and] at hsource
        obtain ⟨rfl, rfl⟩ := hsource
        obtain ⟨rfl, rfl⟩ := hescape.eq_of_isPlainEscape hplain.1
        exact ⟨more, rfl, hrest⟩
    · rintro ⟨-, more, rfl, hrest⟩
      exact .escape (.plain _ hplain.1) hrest
  · rw [quoteChar, if_neg hescaped]
    obtain ⟨hslash, hquote⟩ := not_or.1 hescaped
    refine ⟨fun h => ?_, ?_⟩
    · cases h with
      | character _ _ hline hrest => exact ⟨hline, _, rfl, hrest⟩
      | escape => exact absurd rfl hslash
    · rintro ⟨hline, more, rfl, hrest⟩
      exact .character hquote hslash hline hrest

theorem inside_quoteTitle_iff {title : Text} {value : List Nat} :
    Inside '\'' (quoteTitle title) value ↔ ('\n' ∉ title ∧ '\r' ∉ title) ∧ value = Text.units title := by
  rw [quoteTitle_eq_flatMap]
  induction title generalizing value with
  | nil =>
    refine ⟨fun h => ?_, ?_⟩
    · cases h
      exact ⟨⟨List.not_mem_nil, List.not_mem_nil⟩, rfl⟩
    · rintro ⟨-, rfl⟩
      exact .nil
  | cons c title ih =>
    rw [List.flatMap_cons, inside_quoteChar_append_iff, Text.units_cons]
    simp only [ih, List.mem_cons, not_or]
    constructor
    · rintro ⟨⟨hline, hreturn⟩, more, rfl, ⟨hlines, hreturns⟩, rfl⟩
      exact ⟨⟨⟨hline.symm, hlines⟩, hreturn.symm, hreturns⟩, rfl⟩
    · rintro ⟨⟨⟨hline, hlines⟩, hreturn, hreturns⟩, rfl⟩
      exact ⟨⟨Ne.symm hline, Ne.symm hreturn⟩, _, rfl, ⟨hlines, hreturns⟩, rfl⟩

/-- The literal that is written for a title denotes the title as it is, and nothing at all when a line ends in the
title. -/
theorem denotes_titleLiteral {title : Text} {value : List Nat} :
    Denotes (titleLiteral title) value ↔ ('\n' ∉ title ∧ '\r' ∉ title) ∧ value = Text.units title := by
  rw [← inside_quoteTitle_iff]
  refine ⟨fun h => ?_, fun h => .quoted rfl h⟩
  rw [titleLiteral] at h
  generalize hsource : '\'' :: (quoteTitle title ++ ['\'']) = source at h
  obtain ⟨-, hinside⟩ := h
  obtain ⟨rfl, hrest⟩ := List.cons.inj hsource
  rwa [List.append_cancel_right hrest]

/-! ### Reading a title -/

/-- The title of a block, given what stands between its parentheses. -/
def titleOf (arguments : Text) : Text := Text.unquote ((Text.splitArguments arguments).headD [])

/-- The title of a block is read from what stands between its parenthesis and the one that closes it. -/
theorem Block.title_of_read {category : TestCategory} {text : Text} {found : Occurrence Nat} {block : Block}
    (hfind : category.head.find? text = some found) (h : Block.read category text found = .ok block) :
    ∃ n, Delimiter.paren.closeFrom 1 (text.drop found.stop) = some n ∧
      block.title = titleOf ((text.drop found.stop).take n) := by
  obtain ⟨hstop, -⟩ := TestCategory.keyword_lt_stop hfind
  obtain ⟨closeIndex, hclose, -, -, -, htitle, -⟩ := Block.parts_of_read h
  rw [Nat.sub_add_cancel (by omega)] at htitle
  rw [Delimiter.close, Int.toNat_natCast, Nat.sub_add_cancel (by omega)] at hclose
  split at hclose
  · split at hclose
    · next n hscan =>
      obtain rfl := Except.ok.inj hclose
      rw [Text.slice, List.drop_take, Nat.add_sub_cancel_left] at htitle
      exact ⟨n, hscan, htitle⟩
    · cases hclose
  · cases hclose

/-- The title is the first of the arguments without its quotation marks. -/
theorem titleOf_eq {arguments first : Text} {others : List Text}
    (h : Text.argumentPieces {} arguments = first :: others) : titleOf arguments = Text.unquote first := by
  have hunquote : Text.unquote (Text.trim first) = Text.unquote first := by
    rw [Text.unquote, Text.unquote, Text.trim_trim]
  rw [titleOf, ← hunquote, Text.splitArguments, h, List.map_cons]
  split
  · next hblank => rw [(List.cons.inj hblank).1]; rfl
  · rfl

/-- Taking quotation marks off leaves a part of a text. -/
theorem Text.unquote_sublist (text : Text) : (unquote text).Sublist text := by
  rw [unquote]
  refine List.Sublist.trans ?_ (trim_sublist text)
  split
  · next first rest hinner =>
    split
    · rw [hinner]
      exact (List.dropLast_sublist rest).trans (List.sublist_cons_self first rest)
    · exact List.Sublist.refl _
  · exact List.Sublist.refl _

/-- The first piece of an argument list is the beginning of it. -/
theorem Text.argumentPieces_prefix {n : Nesting} {text first : Text} {others : List Text}
    (h : argumentPieces n text = first :: others) : first <+: text := by
  induction text generalizing n first others with
  | nil => exact (List.cons.inj h).1 ▸ List.nil_prefix
  | cons c text ih =>
    rw [argumentPieces] at h
    split at h
    · exact (List.cons.inj h).1 ▸ List.nil_prefix
    · split at h
      · next hnil => exact absurd hnil (argumentPieces_ne_nil _ _)
      · next piece rest hpieces =>
        rw [← (List.cons.inj h).1]
        exact (List.prefix_cons_inj c).2 (ih hpieces)

/-- The title of a block is a part of what stands between its parentheses. -/
theorem titleOf_sublist (arguments : Text) : (titleOf arguments).Sublist arguments := by
  obtain ⟨first, others, hpieces⟩ := List.exists_cons_of_ne_nil (Text.argumentPieces_ne_nil {} arguments)
  rw [titleOf_eq hpieces]
  exact (Text.unquote_sublist first).trans (Text.argumentPieces_prefix hpieces).sublist

section Literal

variable {space gap inside : Text} {quote : Char} (hspace : ∀ c ∈ space, isBlank c) (hgap : ∀ c ∈ gap, isBlank c)
  (hquote : isPlainQuote quote = true) (hinside : InLiteral quote inside)

include hspace hgap hquote hinside

/-- A scan goes over a literal between white space without meeting a comma that separates. -/
theorem run_literal :
    Nesting.run {} (space ++ quote :: (inside ++ quote :: gap)) = {} ∧
      Nesting.Unsplit {} (space ++ quote :: (inside ++ quote :: gap)) := by
  have hsplit : space ++ quote :: (inside ++ quote :: gap) = space ++ (quote :: (inside ++ [quote]) ++ gap) := by simp
  have hliteral := Text.whole_literal (isPlainQuote_spec hquote).1 hinside
  have hwhole := (Text.whole_blank hspace).append (hliteral.append (Text.whole_blank hgap))
  rw [hsplit]
  exact ⟨Nesting.run_eq_of_isTop hwhole.isTop, hwhole.unsplit⟩

omit hgap hinside in
/-- Trimming what begins with a quotation mark after white space takes away that white space. -/
theorem trim_quoted (text : Text) : Text.trim (space ++ quote :: text) = Text.trimRight (quote :: text) := by
  have hmark : ¬isBlank quote = true := by simp [(isPlainQuote_spec hquote).2.1]
  rw [Text.trim_append_left hspace, Text.trim, Text.trimLeft, List.dropWhile_cons_of_neg hmark]

omit hinside in
/-- The title that is a literal between white space is what stands between its marks. -/
theorem unquote_literal : Text.unquote (space ++ quote :: (inside ++ quote :: gap)) = inside := by
  obtain ⟨hmark, hblank, -⟩ := isPlainQuote_spec hquote
  have htrim : Text.trim (space ++ quote :: (inside ++ quote :: gap)) = quote :: (inside ++ [quote]) := by
    have hsplit : quote :: (inside ++ quote :: gap) = (quote :: (inside ++ [quote])) ++ gap := by simp
    rw [trim_quoted hspace hquote, hsplit, Text.trimRight_append_right hgap]
    refine Text.dropRightWhile_eq_self fun c hc => ?_
    rw [← List.cons_append, List.getLast?_concat] at hc
    rw [← Option.some.inj hc, hblank]
  rw [Text.unquote, htrim]
  simp [hmark]

/-- The first argument of a call, when it is a literal: nothing comes after it, or a comma. -/
theorem titleOf_literal {rest : Text} (hrest : rest = [] ∨ ∃ more, rest = ',' :: more) :
    titleOf (space ++ quote :: (inside ++ quote :: gap) ++ rest) = inside := by
  obtain ⟨hrun, hunsplit⟩ := run_literal hspace hgap hquote hinside
  have hpieces : ∃ others, Text.argumentPieces {} (space ++ quote :: (inside ++ quote :: gap) ++ rest) =
      (space ++ quote :: (inside ++ quote :: gap)) :: others := by
    rcases hrest with rfl | ⟨more, rfl⟩
    · rw [List.append_nil]
      exact ⟨[], Text.argumentPieces_eq_singleton hunsplit⟩
    · exact ⟨_, Text.argumentPieces_append_comma hunsplit (by rw [hrun]; rfl) more⟩
  obtain ⟨others, hpieces⟩ := hpieces
  rw [titleOf_eq hpieces, unquote_literal hspace hgap hquote]

/-- A literal after which the first argument goes on: it stays in the title, with more than itself. -/
theorem length_units_titleOf (rest : Text) :
    (Text.units inside).length <
      (Text.units (titleOf (space ++ quote :: (inside ++ quote :: gap) ++ ')' :: rest))).length := by
  obtain ⟨hrun, hunsplit⟩ := run_literal hspace hgap hquote hinside
  obtain ⟨first, others, hfirst⟩ :=
    List.exists_cons_of_ne_nil (Text.argumentPieces_ne_nil (Nesting.step {} ')') rest)
  have hpieces := Text.argumentPieces_append hunsplit
    (by rw [hrun]; exact Text.argumentPieces_cons (by decide) hfirst)
  rw [titleOf_eq hpieces]
  -- Trimming leaves the parenthesis after the literal.
  have htail : Text.trimRight (')' :: first) ≠ [] := by
    intro hnil
    have hblank := List.rdropWhile_eq_nil_iff.1 hnil ')' List.mem_cons_self
    exact absurd hblank (by decide)
  have htrim : Text.trim (space ++ quote :: (inside ++ quote :: gap) ++ ')' :: first) =
      quote :: (inside ++ quote :: (gap ++ Text.trimRight (')' :: first))) := by
    have hsplit : quote :: (inside ++ quote :: gap) ++ ')' :: first =
        quote :: (inside ++ quote :: gap ++ ')' :: first) := rfl
    rw [List.append_assoc, hsplit, trim_quoted hspace hquote, ← hsplit,
      Text.trimRight_append ⟨')', List.mem_cons_self, by decide⟩]
    simp only [List.cons_append, List.append_assoc]
  rw [Text.unquote, htrim]
  have hpoint := (length_pointUnits quote.toNat).1
  dsimp only
  split
  · have hlast : quote :: (gap ++ Text.trimRight (')' :: first)) ≠ [] := List.cons_ne_nil _ _
    rw [List.dropLast_append_of_ne_nil hlast, List.dropLast_cons_of_ne_nil (by simp [htail]), Text.units_append,
      Text.units_cons]
    simp only [List.length_append]
    omega
  · rw [Text.units_cons, Text.units_append]
    simp only [List.length_append]
    omega

end Literal

/-! ### The literal that is read and the one that is written -/

/-- Arguments of which the first is a string literal: what stands between its marks, the string that it denotes, and the
comma or the parenthesis that comes after it. -/
inductive BeginsWithLiteral (inside : Text) (value : List Nat) (next : Char) : Text → Prop
  /-- The literal may have white space around it. -/
  | intro {space gap tail : Text} {quote : Char} (hspace : ∀ c ∈ space, isBlank c) (hgap : ∀ c ∈ gap, isBlank c)
      (hquote : isPlainQuote quote = true) (hinside : Inside quote inside value) (hnext : next = ',' ∨ next = ')') :
      BeginsWithLiteral inside value next (space ++ quote :: (inside ++ quote :: (gap ++ next :: tail)))

/-- What stands between the marks of a literal whose string is kept, given what comes after the literal. -/
structure TitleSurvives (inside : Text) (next : Char) : Prop where
  /-- There is no escape. -/
  unescaped : '\\' ∉ inside
  /-- No parenthesis in the literal closes the block. -/
  unclosed : Delimiter.paren.closeFrom 1 inside = none
  /-- When the title is the only argument, no parenthesis is left open in it. -/
  balanced : next = ')' → inside.count ')' = inside.count '('

/-- No beginning of a text that leaves a block open has more closing parentheses than opening ones. -/
theorem count_lt_of_closeFrom {text front : Text} (h : Delimiter.paren.closeFrom 1 text = none)
    (hfront : front <+: text) : front.count ')' < front.count '(' + 1 := by
  have hheight := Delimiter.height_pos_of_closeFrom_eq_none Nat.one_pos h front.length
  rw [Delimiter.height, ← List.prefix_iff_eq_take.1 hfront] at hheight
  simp only [Delimiter.opening, Delimiter.closing] at hheight
  omega

/-- Where the arguments of a block end whose title is a literal: in the literal, after the white space behind it, or
later. -/
theorem take_close_cases {space gap tail inside : Text} {quote next : Char} {n : Nat}
    (hspace : ∀ c ∈ space, isBlank c) (hgap : ∀ c ∈ gap, isBlank c) (hquote : isPlainQuote quote = true)
    (hnext : next = ',' ∨ next = ')')
    (hclose : Delimiter.paren.closeFrom 1 (space ++ quote :: (inside ++ quote :: (gap ++ next :: tail))) = some n) :
    (∃ m, Delimiter.paren.closeFrom 1 inside = some m ∧
      (space ++ quote :: (inside ++ quote :: (gap ++ next :: tail))).take n = space ++ quote :: inside.take m) ∨
    (Delimiter.paren.closeFrom 1 inside = none ∧ ∃ rest,
      (space ++ quote :: (inside ++ quote :: (gap ++ next :: tail))).take n =
        space ++ quote :: (inside ++ quote :: gap) ++ rest ∧
      ((∃ more, next = ',' ∧ rest = ',' :: more) ∨
        (next = ')' ∧ inside.count ')' = inside.count '(' ∧ rest = []) ∨
        ∃ more, next = ')' ∧ inside.count ')' ≠ inside.count '(' ∧ rest = ')' :: more)) := by
  have hmark := (isPlainQuote_spec hquote).2.2.2
  have hparens : ∀ {text : Text}, (∀ c ∈ text, isBlank c) → '(' ∉ text ∧ ')' ∉ text :=
    fun h => ⟨notMem_of_class h (by decide), notMem_of_class h (by decide)⟩
  -- The scan passes over what stands before and after the inside of the literal.
  have hbefore : '(' ∉ space ++ [quote] ∧ ')' ∉ space ++ [quote] := by
    simp [hparens hspace, hmark.1.symm, hmark.2.symm]
  have hafter : '(' ∉ quote :: gap ∧ ')' ∉ quote :: gap := by
    simp [hparens hgap, hmark.1.symm, hmark.2.symm]
  have hsource : space ++ quote :: (inside ++ quote :: (gap ++ next :: tail)) =
      (space ++ [quote]) ++ (inside ++ ((quote :: gap) ++ next :: tail)) := by simp
  rw [hsource] at hclose ⊢
  rw [Delimiter.closeFrom_append_of_notMem Nat.one_pos hbefore.1 hbefore.2] at hclose
  obtain ⟨k, hk, rfl⟩ := Option.map_eq_some_iff.1 hclose
  rw [Nat.add_comm k, List.take_length_add_append]
  cases hinside : Delimiter.paren.closeFrom 1 inside with
  | some m =>
    rw [Delimiter.closeFrom_append_of_eq_some hinside] at hk
    obtain rfl := Option.some.inj hk
    have hlt := (List.getElem?_eq_some_iff.1 (Delimiter.closeFrom_eq_some Nat.one_pos hinside).1).1
    refine .inl ⟨m, rfl, ?_⟩
    rw [List.take_append_of_le_length hlt.le, List.append_assoc, List.singleton_append]
  | none =>
    rw [Delimiter.closeFrom_append _ fun _ => count_lt_of_closeFrom hinside] at hk
    obtain ⟨j, hj, rfl⟩ := Option.map_eq_some_iff.1 hk
    have hlevel := count_lt_of_closeFrom hinside List.prefix_rfl
    simp only [Delimiter.opening, Delimiter.closing] at hj
    rw [Delimiter.closeFrom_append_of_notMem (by omega) hafter.1 hafter.2] at hj
    obtain ⟨i, hi, rfl⟩ := Option.map_eq_some_iff.1 hj
    refine .inr ⟨rfl, (next :: tail).take i, ?_, ?_⟩
    · rw [Nat.add_comm, List.take_length_add_append, Nat.add_comm, List.take_length_add_append]
      simp
    · rw [Delimiter.closeFrom] at hi
      rcases hnext with rfl | rfl
      · rw [if_neg (by decide), if_neg (by decide)] at hi
        obtain ⟨more, -, rfl⟩ := Option.map_eq_some_iff.1 hi
        exact .inl ⟨_, rfl, List.take_succ_cons⟩
      · have hclosing : ')' = Delimiter.paren.closing := rfl
        rw [if_neg (by decide), if_pos hclosing] at hi
        split at hi
        · obtain rfl := Option.some.inj hi
          exact .inr (.inl ⟨rfl, by omega, rfl⟩)
        · obtain ⟨more, -, rfl⟩ := Option.map_eq_some_iff.1 hi
          exact .inr (.inr ⟨_, rfl, by omega, List.take_succ_cons⟩)

/-- The literal that is written for a title denotes what was written between the marks, and so the string of the literal
that was read, exactly when there is no escape. -/
theorem denotes_inside_iff {inside : Text} {quote : Char} {value : List Nat} (hinside : Inside quote inside value) :
    Denotes (titleLiteral inside) value ↔ '\\' ∉ inside := by
  rw [denotes_titleLiteral]
  rcases hinside.eq_units_or_length_lt with ⟨hplain, heq⟩ | ⟨hslash, hlt⟩
  · exact iff_of_true ⟨hinside.breaks_notMem hplain, heq⟩ hplain
  · refine iff_of_false ?_ fun hplain => hplain hslash
    rintro ⟨-, rfl⟩
    exact absurd hlt (lt_irrefl _)

/-- A title that is cut off at a parenthesis in its literal lacks this parenthesis, which its string has. -/
theorem not_denotes_of_closeFrom {space inside : Text} {quote : Char} {value : List Nat} {n : Nat}
    (hspace : ∀ c ∈ space, isBlank c) (hquote : isPlainQuote quote = true) (hinside : Inside quote inside value)
    (hclose : Delimiter.paren.closeFrom 1 inside = some n) :
    ¬Denotes (titleLiteral (titleOf (space ++ quote :: inside.take n))) value := by
  rw [denotes_titleLiteral]
  rintro ⟨-, rfl⟩
  have hcount := hinside.count_le
  rw [Text.count_units] at hcount
  have hpart := (titleOf_sublist (space ++ quote :: inside.take n)).count_le ')'
  have hmark := (isPlainQuote_spec hquote).2.2.2.2
  rw [List.count_append, List.count_cons_of_ne hmark,
    List.count_eq_zero.2 (notMem_of_class hspace (by decide))] at hpart
  have hfound := (Delimiter.closeFrom_eq_some Nat.one_pos hclose).1
  have hupTo := (List.take_sublist (n + 1) inside).count_le ')'
  rw [List.take_add_one, hfound, Delimiter.closing, Option.toList_some, List.count_append,
    List.count_singleton_self] at hupTo
  omega

/-- A title that goes on after its literal is longer than the string of the literal. -/
theorem not_denotes_of_paren {space gap inside : Text} {quote : Char} {value : List Nat}
    (hspace : ∀ c ∈ space, isBlank c) (hgap : ∀ c ∈ gap, isBlank c) (hquote : isPlainQuote quote = true)
    (hinside : Inside quote inside value) (rest : Text) :
    ¬Denotes (titleLiteral (titleOf (space ++ quote :: (inside ++ quote :: gap) ++ ')' :: rest))) value := by
  rw [denotes_titleLiteral]
  rintro ⟨-, rfl⟩
  have hlt := length_units_titleOf hspace hgap hquote (hinside.inLiteral hquote) rest
  rcases hinside.eq_units_or_length_lt with ⟨-, heq⟩ | ⟨-, hshorter⟩
  · rw [heq] at hlt
    exact absurd hlt (lt_irrefl _)
  · omega

/-- The literal that is written for a title denotes the string of the literal that was read exactly when the title
survives. -/
theorem denotes_titleOf_iff {arguments inside : Text} {value : List Nat} {next : Char} {n : Nat}
    (harguments : BeginsWithLiteral inside value next arguments)
    (hclose : Delimiter.paren.closeFrom 1 arguments = some n) :
    Denotes (titleLiteral (titleOf (arguments.take n))) value ↔ TitleSurvives inside next := by
  cases harguments with
  | @intro space gap tail quote hspace hgap hquote hinside hnext =>
  have hliteral := hinside.inLiteral hquote
  rcases take_close_cases hspace hgap hquote hnext hclose with ⟨m, hm, htake⟩ | ⟨hnone, rest, htake, hrest⟩
  · rw [htake]
    refine iff_of_false (not_denotes_of_closeFrom hspace hquote hinside hm) fun hsurvives => ?_
    rw [hsurvives.unclosed] at hm
    cases hm
  · rw [htake]
    rcases hrest with ⟨more, rfl, rfl⟩ | ⟨rfl, hbalanced, rfl⟩ | ⟨more, rfl, hopen, rfl⟩
    · rw [titleOf_literal hspace hgap hquote hliteral (.inr ⟨more, rfl⟩), denotes_inside_iff hinside]
      exact ⟨fun hplain => ⟨hplain, hnone, fun heq => absurd heq (by decide)⟩, fun h => h.unescaped⟩
    · rw [titleOf_literal hspace hgap hquote hliteral (.inl rfl), denotes_inside_iff hinside]
      exact ⟨fun hplain => ⟨hplain, hnone, fun _ => hbalanced⟩, fun h => h.unescaped⟩
    · exact iff_of_false (not_denotes_of_paren hspace hgap hquote hinside more) fun h => hopen (h.balanced rfl)

/-! ### The code of a file -/

/-- Pieces that are put together stay whole. -/
theorem Text.infix_join {separator piece : Text} {pieces : List Text} (h : piece ∈ pieces) :
    piece <:+: join separator pieces := by
  induction pieces with
  | nil => exact absurd h List.not_mem_nil
  | cons first rest ih =>
    cases rest with
    | nil => rw [List.mem_singleton.1 h]; exact List.infix_rfl
    | cons second rest =>
      rw [join]
      rcases List.mem_cons.1 h with rfl | hrest
      · rw [List.append_assoc]
        exact (List.prefix_append _ _).isInfix
      · exact (ih hrest).trans (List.suffix_append _ _).isInfix

/-- The pieces of a block stay whole in its code. -/
theorem infix_nonEmptyLines {part : Text} {parts : List Text} (h : part ∈ parts) : part <:+: nonEmptyLines parts := by
  by_cases hempty : part = []
  · rw [hempty]
    exact List.nil_infix
  · have hkept : part ∈ parts.filter (!·.isEmpty) := by simp [h, hempty]
    exact (Text.infix_join hkept).trans (List.prefix_append _ _).isInfix

/-- The code of a node with a title has a head with the literal for the title. -/
theorem TestNode.infix_code {node : TestNode} {testBody : Text → Text} {title code : Text}
    (htitle : node.title? = some title) (hcode : node.code testBody = .ok code) :
    ∃ category, node.category? = some category ∧
      category.keyword ++ ['('] ++ titleLiteral title ++ txt ", () => \x7b" <:+: code := by
  simp only [← blockHead_eq]
  have hhead : ∀ comment head body stop : Text, head ∈ [comment, head, body, stop] :=
    fun comment _ _ _ => List.mem_cons_of_mem comment List.mem_cons_self
  cases node with
  | describe heading body comment offset children =>
    obtain rfl := Option.some.inj htitle
    rw [TestNode.code] at hcode
    cases hinner : childrenCode testBody children with
    | error fault =>
      rw [hinner] at hcode
      cases hcode
    | ok inner =>
      rw [hinner] at hcode
      obtain rfl := Except.ok.inj hcode
      exact ⟨.describe, rfl, infix_nonEmptyLines (List.mem_cons_of_mem _ (hhead _ _ _ _))⟩
  | xit =>
    obtain rfl := Option.some.inj htitle
    rw [TestNode.code] at hcode
    obtain rfl := Except.ok.inj hcode
    exact ⟨.xit, rfl, infix_nonEmptyLines (hhead _ _ _ _)⟩
  | it =>
    obtain rfl := Option.some.inj htitle
    rw [TestNode.code] at hcode
    obtain rfl := Except.ok.inj hcode
    exact ⟨.it, rfl, infix_nonEmptyLines (hhead _ _ _ _)⟩
  | beforeEach | other => cases htitle

/-- One line that begins and ends with certain characters is its own content. -/
theorem Text.codeContent_between {front middle back : Text} (first last : Char) (hfirst : front.head? = some first)
    (hlast : back.getLast? = some last) (hblank : isBlank first = false ∧ isBlank last = false)
    (hfront : '\n' ∉ front ∧ '\r' ∉ front) (hmiddle : '\n' ∉ middle ∧ '\r' ∉ middle)
    (hback : '\n' ∉ back ∧ '\r' ∉ back) : codeContent (front ++ middle ++ back) = [front ++ middle ++ back] := by
  have hhead : (front ++ middle ++ back).head? = some first := by
    rw [List.append_assoc, List.head?_append, hfirst, Option.some_or]
  have hend : (front ++ middle ++ back).getLast? = some last := by
    rw [List.getLast?_append, hlast, Option.some_or]
  refine codeContent_line ?_ ?_ (trim_eq_self ?_ ?_) ?_
  · simp [hfront, hmiddle, hback]
  · simp [hfront, hmiddle, hback]
  · intro c hc
    obtain rfl := Option.some.inj (hhead.symm.trans hc)
    exact hblank.1
  · intro c hc
    obtain rfl := Option.some.inj (hend.symm.trans hc)
    exact hblank.2
  · intro hnil
    rw [hnil] at hhead
    cases hhead

/-- The spec of a component has a line with the literal for the title of its suite, if the title is one line. -/
theorem suiteHead_mem_codeContent {suite : TestNode} {context : SpecContext} {code : Text}
    (hcode : componentSpec suite context = .ok code) (hline : '\n' ∉ suite.title) (hreturn : '\r' ∉ suite.title) :
    txt "describe(" ++ titleLiteral suite.title ++ txt ", function () \x7b" ∈ Text.codeContent code := by
  rw [← suiteHead_eq]
  rw [componentSpec] at hcode
  cases hcontent : suite.content componentTestBody with
  | error fault =>
    rw [hcontent] at hcode
    cases hcode
  | ok content =>
    rw [hcontent] at hcode
    obtain rfl := Except.ok.inj hcode
    rw [codeContent_layout, Text.codeContent_unlines]
    have hmem : ∀ {before lines after last : List Text} {blank head : Text},
        head ∈ before ++ (blank :: head :: lines) ++ after ++ last := fun {before _ after last blank _} =>
      List.mem_append_left last (List.mem_append_left after
        (List.mem_append_right before (List.mem_cons_of_mem blank List.mem_cons_self)))
    have htitle : '\n' ∉ quoteTitle suite.title ∧ '\r' ∉ quoteTitle suite.title :=
      ⟨mt (mem_of_mem_quoteTitle · (by decide)) hline, mt (mem_of_mem_quoteTitle · (by decide)) hreturn⟩
    have hsingle : Text.codeContent (suiteHead suite) = [suiteHead suite] :=
      Text.codeContent_between 'd' '\x7b' rfl rfl (by decide) (by decide) htitle (by decide)
    refine List.mem_flatMap.2 ⟨suiteHead suite, hmem, ?_⟩
    rw [hsingle]
    exact List.mem_cons_self

/-! ### The titles of a file -/

namespace Suite

/-- In a round that reads a block, the literal that is written for its title denotes the string of the literal that was
read, if it was one, exactly when the title survives. -/
def TitleKept (category : TestCategory) (buffer : SourceBuffer) (found : Occurrence Nat) : Prop :=
  ∀ block, Block.read category buffer.residual found = .ok block →
    ∀ inside value next, BeginsWithLiteral inside value next (buffer.residual.drop found.stop) →
      (Denotes (titleLiteral block.title) value ↔ TitleSurvives inside next)

theorem titleKept {category : TestCategory} {buffer : SourceBuffer} {found : Occurrence Nat}
    (hfind : category.head.find? buffer.residual = some found) : TitleKept category buffer found := by
  intro block hread inside value next hliteral
  obtain ⟨n, hclose, htitle⟩ := Block.title_of_read hfind hread
  rw [htitle]
  exact denotes_titleOf_iff hliteral hclose

/-- The titles of a file. In every round of its analysis that reads a block with a literal for a title, the literal that
is written for the title of the block denotes the same string exactly when the title survives. This literal is written in
the code of the node, whatever becomes of its body, and in the spec of the outermost suite. -/
theorem titles_kept (text : Text) :
    Analyzes TitleKept text ((analyze text).runFrom []) ∧
      (∀ (node : TestNode) testBody title code, node.title? = some title → node.code testBody = .ok code →
        ∃ category, node.category? = some category ∧
          category.keyword ++ ['('] ++ titleLiteral title ++ txt ", () => \x7b" <:+: code) ∧
      ∀ suite context code, componentSpec suite context = .ok code → '\n' ∉ suite.title → '\r' ∉ suite.title →
        txt "describe(" ++ titleLiteral suite.title ++ txt ", function () \x7b" ∈ Text.codeContent code := by
  refine ⟨(analyzes_iff (fun _ => titleKept) text _).2 rfl, ?_, ?_⟩
  · exact fun _ _ _ _ => TestNode.infix_code
  · exact fun _ _ _ => suiteHead_mem_codeContent

/-- A suite with an escaped quotation mark in its title. -/
def escapedSuite : Text := txt "describe('it\\'s', function () \x7b\x7d);"

/-- The literal of this title denotes a string with a quotation mark. The one that is written for it denotes a string with
a backslash besides. -/
theorem escaped_title_altered :
    BeginsWithLiteral (txt "it\\'s") (Text.units (txt "it's")) ',' (escapedSuite.drop (txt "describe(").length) ∧
      ∃ suite code, (analyze escapedSuite).outcome = .ok (some suite) ∧ componentSpec suite {} = .ok code ∧
        txt "describe(" ++ titleLiteral suite.title ++ txt ", function () \x7b" ∈ Text.codeContent code ∧
        ¬Denotes (titleLiteral suite.title) (Text.units (txt "it's")) := by
  constructor
  · have hinside : Inside '\'' (txt "it\\'s") (Text.units (txt "it's")) :=
      .character (by decide) (by decide) (by decide) <| .character (by decide) (by decide) (by decide) <|
        .escape (.plain _ rfl) <| .character (by decide) (by decide) (by decide) .nil
    have hsource : escapedSuite.drop (txt "describe(").length =
        [] ++ '\'' :: (txt "it\\'s" ++ '\'' :: ([] ++ ',' :: txt " function () \x7b\x7d);")) := by decide
    rw [hsource]
    exact .intro (List.forall_mem_nil _) (List.forall_mem_nil _) rfl hinside (.inl rfl)
  · have hroot : (analyze escapedSuite).outcome.toOption.join.any (isBareSuite (txt "it\\'s") []) := by decide +kernel
    refine ⟨_, _, eq_ok_of_any_isBareSuite hroot, rfl, suiteHead_mem_codeContent rfl (by decide) (by decide),
      fun h => ?_⟩
    exact absurd (denotes_titleLiteral.1 h).2 (by decide)

end Suite

end AngularUplift
