import AngularUplift.Proofs.Text.Slice
import AngularUplift.Text.Comment
import Mathlib.Data.List.Basic
import Mathlib.Data.List.TakeWhile
import Mathlib.Order.Bounds.Basic

/-!
# Comments are cut out exactly

The scan for comments takes a text apart without loss: the comments stand at places that follow each other, and what
is kept are the stretches between these places. Each comment is as long as its marks make it. On a text that is put
together from code, string literals and comments, the scan finds these very comments and no others.

## Main definitions

* `CommentSpan`, `Text.commentSpans`: the places of the comments of a text.
* `Text.outside`, `weave`: the stretches between places, and stretches and comments put together in turn.
* `CommentSpan.Marked`: a place that begins with a comment mark and ends where the comment has to end.
* `SourceToken`, `SourceToken.Placed`: the pieces a source text is written in, and where line comments may stand.

## Main statements

* `Lexeme.written_scan`: the lexemes of a text are the text, and every comment among them ends as early as it can.
* `Lexeme.scanFrom_sourceOf`: the lexemes of a text that is written in tokens.
* `Text.comments_cut_out`: what both say about the comments of a text and about the text without them.
-/

namespace AngularUplift

/-- The place of a comment in a text. -/
structure CommentSpan where
  /-- The position of its first character. -/
  start : Nat
  /-- The position just past its last character. -/
  stop : Nat
  /-- Whether it is a block comment. -/
  isBlock : Bool
deriving DecidableEq, Repr

/-- Whether a lexeme is a block comment. -/
def Lexeme.isBlock : Lexeme → Bool
  | .blockComment _ => true
  | _ => false

/-- The places of the comments among lexemes that begin at a position. -/
def Lexeme.spansFrom (position : Nat) : List Lexeme → List CommentSpan
  | [] => []
  | .code _ :: rest => spansFrom (position + 1) rest
  | comment :: rest =>
    ⟨position, position + comment.source.length, comment.isBlock⟩ ::
      spansFrom (position + comment.source.length) rest

namespace Text

/-- The places of the comments of a text, in order. -/
def commentSpans (text : Text) : List CommentSpan := Lexeme.spansFrom 0 (Lexeme.scan text)

/-- The stretches of a text before, between and after some places, from a position on. -/
def outside (text : Text) (position : Nat) : List CommentSpan → List Text
  | [] => [text.drop position]
  | span :: rest => text.slice position span.start :: outside text span.stop rest

/-- The text at a place. -/
def textAt (text : Text) (span : CommentSpan) : Text := text.slice span.start span.stop

end Text

/-- Pieces and comments put together in turn, a piece first. -/
def weave : (pieces comments : List Text) → Text
  | piece :: pieces, comment :: comments => piece ++ (comment ++ weave pieces comments)
  | pieces, comments => pieces.flatten ++ comments.flatten

/-- A place of a text that holds a comment. A block comment ends with the first close after its opening mark, a line
comment before the first line break after it, or with the text. -/
structure CommentSpan.Marked (text : Text) (span : CommentSpan) : Prop where
  /-- It is not empty. -/
  nonempty : span.start < span.stop
  /-- It lies in the text. -/
  inRange : span.stop ≤ text.length
  /-- A block comment stands between its two marks. -/
  block : span.isBlock = true → ['/', '*'] <+: text.drop span.start ∧
    ∃ close, span.stop = close + 2 ∧ IsLeast {p | span.start + 2 ≤ p ∧ ['*', '/'] <+: text.drop p} close
  /-- A line comment goes on to the end of its line. -/
  line : span.isBlock = false → ['/', '/'] <+: text.drop span.start ∧
    IsLeast {p | span.start ≤ p ∧ ∀ c ∈ text[p]?, c = '\r' ∨ c = '\n'} span.stop

/-! ### The first occurrence of a piece -/

namespace Text

/-- A piece is found where it stands first. -/
theorem indexOf?_eq_some_iff {piece text : Text} {n : Nat} :
    indexOf? piece text = some n ↔ piece <+: text.drop n ∧ ∀ m < n, ¬piece <+: text.drop m := by
  induction text generalizing n with
  | nil =>
    cases piece with
    | nil =>
      constructor
      · intro h
        obtain rfl : 0 = n := by simpa [indexOf?] using h
        simp
      · rintro ⟨-, hfirst⟩
        cases n with
        | zero => rfl
        | succ n => exact absurd (List.nil_prefix) (hfirst 0 n.succ_pos)
    | cons p piece => simp [indexOf?]
  | cons c text ih =>
    rw [indexOf?, startsWith]
    by_cases hstart : piece <+: c :: text
    · rw [if_pos (List.isPrefixOf_iff_prefix.2 hstart)]
      constructor
      · intro h
        obtain rfl := Option.some.inj h
        exact ⟨hstart, fun m hm => absurd hm m.not_lt_zero⟩
      · rintro ⟨-, hfirst⟩
        cases n with
        | zero => rfl
        | succ n => exact absurd hstart (hfirst 0 n.succ_pos)
    · rw [if_neg (mt List.isPrefixOf_iff_prefix.1 hstart)]
      cases n with
      | zero => simp [hstart]
      | succ n =>
        rw [Option.map_eq_some_iff]
        simp only [Nat.add_right_cancel_iff, exists_eq_right, ih, List.drop_succ_cons]
        refine and_congr_right fun _ => ⟨fun h m hm => ?_, fun h m hm => h (m + 1) (by omega)⟩
        cases m with
        | zero => exact hstart
        | succ m => exact h m (by omega)

/-- The text before the first occurrence of a piece, the piece and the rest. -/
theorem eq_append_of_indexOf? {piece text : Text} {n : Nat} (h : indexOf? piece text = some n) :
    ∃ rest, text = text.take n ++ (piece ++ rest) ∧ (text.take n).length = n := by
  obtain ⟨⟨rest, hrest⟩, hfirst⟩ := indexOf?_eq_some_iff.1 h
  refine ⟨rest, ?_, ?_⟩
  · rw [hrest, List.take_append_drop]
  · -- Past the end there is nothing left of the text, so an earlier place would do as well.
    rw [List.length_take, Nat.min_eq_left]
    by_contra hlt
    refine hfirst text.length (by omega) ?_
    rw [List.drop_length, ← List.drop_eq_nil_of_le (Nat.le_of_not_le hlt), ← hrest]
    exact List.prefix_append piece rest

/-- No close of a block comment begins in what the comment holds. The last character inside and the first of the
close make none, since a close does not begin with two asterisks. -/
theorem not_close_drop {inside rest : Text} (h : ¬['*', '/'] <:+: inside) {m : Nat} (hm : m < inside.length) :
    ¬['*', '/'] <+: (inside ++ (['*', '/'] ++ rest)).drop m := by
  intro hclose
  rw [List.drop_append_of_le_length hm.le] at hclose
  have hne : inside.drop m ≠ [] := by
    rw [Ne, List.drop_eq_nil_iff]
    omega
  obtain ⟨c, tail, htail⟩ := List.exists_cons_of_ne_nil hne
  rw [htail] at hclose
  cases tail with
  | nil => simp at hclose
  | cons d tail =>
    have hboth : ['*', '/'] <+: inside.drop m := by
      rw [htail]
      simpa using hclose
    exact h (hboth.isInfix.trans (List.drop_suffix m inside).isInfix)

/-- The first close after an opening mark is the one at the end of what the comment holds. -/
theorem indexOf?_close {inside : Text} (h : ¬['*', '/'] <:+: inside) (rest : Text) :
    indexOf? ['*', '/'] (inside ++ (['*', '/'] ++ rest)) = some inside.length := by
  refine indexOf?_eq_some_iff.2 ⟨?_, fun m hm => not_close_drop h hm⟩
  rw [List.drop_left]
  exact List.prefix_append _ _

end Text

/-! ### The lexemes of any text -/

/-- The number of characters of a comment that a scan still has to pass over. -/
def CommentState.left : CommentState → Nat
  | .inside left => left
  | _ => 0

namespace Lexeme

/-- A lexeme that is a comment before the given rest of a text. A block comment holds no close, and a line comment
reaches to the end of its line. -/
inductive IsComment : Lexeme → (rest : Text) → Prop
  /-- A block comment. -/
  | block {inside : Text} (rest : Text) (hinside : ¬['*', '/'] <:+: inside) :
      IsComment (.blockComment (['/', '*'] ++ (inside ++ ['*', '/']))) rest
  /-- A line comment. -/
  | line {inside rest : Text} (hinside : ∀ c ∈ inside, c ≠ '\r' ∧ c ≠ '\n')
      (hnext : ∀ c ∈ rest.head?, c = '\r' ∨ c = '\n') : IsComment (.lineComment (['/', '/'] ++ inside)) rest

/-- A text that is written in lexemes. -/
inductive Written : (text : Text) → List Lexeme → Prop
  /-- The empty text. -/
  | nil : Written [] []
  /-- A character of code. -/
  | code (c : Char) {rest : Text} {lexemes : List Lexeme} (hrest : Written rest lexemes) :
      Written (c :: rest) (.code c :: lexemes)
  /-- A comment. -/
  | comment {lexeme : Lexeme} {rest : Text} {lexemes : List Lexeme} (hcomment : lexeme.IsComment rest)
      (hrest : Written rest lexemes) : Written (lexeme.source ++ rest) (lexeme :: lexemes)

/-- A block comment is read off the texts that begin with one. -/
theorem isComment_of_blockCommentAt? {text comment : Text} (h : blockCommentAt? text = some comment) :
    ∃ rest, (Lexeme.blockComment comment).IsComment rest ∧ text = comment ++ rest := by
  rw [blockCommentAt?.eq_def] at h
  split at h
  · next body =>
    obtain ⟨n, hfound, rfl⟩ := Option.map_eq_some_iff.1 h
    have hindex : Text.indexOf? ['*', '/'] body = some n := hfound
    obtain ⟨rest, hbody, hlength⟩ := Text.eq_append_of_indexOf? hindex
    have htake : body.take (n + 2) = body.take n ++ ['*', '/'] := by
      conv_lhs => rw [hbody]
      rw [List.take_append, hlength, List.take_of_length_le (by omega)]
      simp
    -- A close inside the comment would stand before the first one.
    have hinside : ¬['*', '/'] <:+: body.take n := by
      rintro ⟨front, back, hsplit⟩
      have hshort := congrArg List.length hsplit
      simp only [List.length_append, List.length_cons, List.length_nil, hlength] at hshort
      refine (Text.indexOf?_eq_some_iff.1 hindex).2 front.length (by omega) ?_
      rw [hbody, ← hsplit, List.append_assoc, List.append_assoc, List.drop_left]
      exact List.prefix_append _ _
    refine ⟨rest, ?_, ?_⟩
    · rw [htake]
      exact IsComment.block rest hinside
    · rw [htake]
      conv_lhs => rw [hbody]
      simp
  · exact absurd h (by simp)

/-- A line comment is read off the texts that begin with one, unless the character before it forbids it. -/
theorem isComment_of_lineCommentAt? {previous : Option Char} {text comment : Text}
    (h : lineCommentAt? previous text = some comment) :
    ∃ rest, (Lexeme.lineComment comment).IsComment rest ∧ text = comment ++ rest := by
  rw [lineCommentAt?.eq_def] at h
  split at h
  · next body =>
    rw [Option.ite_none_left_eq_some] at h
    obtain ⟨-, hcomment⟩ := h
    obtain rfl := Option.some.inj hcomment
    refine ⟨body.dropWhile fun c => c != '\r' && c != '\n', IsComment.line ?_ ?_, ?_⟩
    · intro c hc
      simpa using List.mem_takeWhile_imp hc
    · intro c hc
      have hnot := List.head?_dropWhile_not (fun c => c != '\r' && c != '\n') body
      rw [Option.mem_def.1 hc] at hnot
      simpa [imp_iff_not_or] using hnot
    · simp [List.takeWhile_append_dropWhile]
  · exact absurd h (by simp)

/-- A comment is not empty. -/
theorem IsComment.length_pos {lexeme : Lexeme} {rest : Text} (h : lexeme.IsComment rest) :
    0 < lexeme.source.length := by
  cases h <;> simp [source]

/-- From any state, the lexemes are what the scan does not pass over. -/
theorem written_scanFrom (state : CommentState) {text : Text} (h : state.left ≤ text.length) :
    Written (text.drop state.left) (scanFrom state text) := by
  induction text generalizing state with
  | nil =>
    obtain hzero : state.left = 0 := by simpa using h
    rw [hzero, List.drop_nil, scanFrom.eq_1]
    exact Written.nil
  | cons c cs ih =>
    have hcode : ∀ next : CommentState, next.left = 0 → Written (c :: cs) (.code c :: scanFrom next cs) := by
      intro next hnext
      have hrest := ih next (by omega)
      rw [hnext, List.drop_zero] at hrest
      exact hrest.code c
    -- After a comment of which one character was read, the scan passes over the others.
    have hinside : ∀ comment rest : Text, c :: cs = comment ++ rest → 0 < comment.length →
        Written rest (scanFrom (.inside (comment.length - 1)) cs) := by
      intro comment rest hsplit hpos
      have hlength := congrArg List.length hsplit
      rw [List.length_cons, List.length_append] at hlength
      have hrest := ih (.inside (comment.length - 1)) (show comment.length - 1 ≤ cs.length by omega)
      have hdrop : cs.drop (comment.length - 1) = rest := by
        have htail : (c :: cs).drop (comment.length - 1 + 1) = cs.drop (comment.length - 1) := List.drop_succ_cons
        rw [← htail, Nat.sub_add_cancel hpos, hsplit, List.drop_left]
      rwa [CommentState.left, hdrop] at hrest
    match state with
    | .inside 0 => exact hcode (.plain (some c)) rfl
    | .inside (left + 1) =>
      rw [CommentState.left, List.drop_succ_cons, scanFrom]
      have hleft : left ≤ cs.length := Nat.le_of_succ_le_succ h
      by_cases hzero : left = 0
      · rw [if_pos hzero, hzero]
        exact ih (.plain (some c)) (Nat.zero_le _)
      · rw [if_neg hzero]
        exact ih (.inside left) hleft
    | .escaped quote => exact hcode (.literal quote) rfl
    | .literal quote =>
      rw [scanFrom]
      apply hcode
      repeat' split
      all_goals rfl
    | .plain previous =>
      show Written (c :: cs) _
      rw [scanFrom]
      split
      · exact hcode (.literal c) rfl
      · split
        · next comment hblock =>
          obtain ⟨rest, hcomment, htext⟩ := isComment_of_blockCommentAt? hblock
          rw [htext]
          exact Written.comment hcomment (hinside _ rest htext hcomment.length_pos)
        · split
          · next comment hline =>
            obtain ⟨rest, hcomment, htext⟩ := isComment_of_lineCommentAt? hline
            rw [htext]
            exact Written.comment hcomment (hinside _ rest htext hcomment.length_pos)
          · exact hcode (.plain (some c)) rfl

/-- A text is written in the lexemes that the scan finds. -/
theorem written_scan (text : Text) : Written text (scan text) :=
  written_scanFrom (.plain none) (Nat.zero_le _)

/-! ### The places of the comments -/

/-- The opening mark and what a block comment holds reach up to the first close. -/
theorem marked_block (before : Text) {inside : Text} (rest : Text) (hinside : ¬['*', '/'] <:+: inside) :
    CommentSpan.Marked (before ++ (['/', '*'] ++ (inside ++ (['*', '/'] ++ rest))))
      ⟨before.length, before.length + (['/', '*'] ++ (inside ++ ['*', '/'])).length, true⟩ where
  nonempty := by simp
  inRange := by simp
  block _ := by
    -- Positions from the opening mark on are positions in what follows it.
    have hdrop : ∀ m, (before ++ (['/', '*'] ++ (inside ++ (['*', '/'] ++ rest)))).drop (before.length + 2 + m) =
        (inside ++ (['*', '/'] ++ rest)).drop m := by
      intro m
      rw [Nat.add_assoc, List.drop_length_add_append, Nat.add_comm 2 m]
      rfl
    refine ⟨?_, before.length + 2 + inside.length, ?_, ⟨Nat.le_add_right .., ?_⟩, ?_⟩
    · rw [List.drop_left]
      exact List.prefix_append _ _
    · simp only [List.length_append, List.length_cons, List.length_nil]
      omega
    · rw [hdrop, List.drop_left]
      exact List.prefix_append _ _
    · rintro p ⟨hle, hclose⟩
      by_contra hlt
      obtain ⟨m, rfl⟩ : ∃ m, p = before.length + 2 + m := Nat.exists_eq_add_of_le hle
      rw [hdrop] at hclose
      exact Text.not_close_drop hinside (by omega) hclose
  line h := absurd h (by simp)

/-- The opening mark and what a line comment holds reach up to the end of the line. -/
theorem marked_line (before : Text) {inside rest : Text} (hinside : ∀ c ∈ inside, c ≠ '\r' ∧ c ≠ '\n')
    (hnext : ∀ c ∈ rest.head?, c = '\r' ∨ c = '\n') :
    CommentSpan.Marked (before ++ (['/', '/'] ++ (inside ++ rest)))
      ⟨before.length, before.length + (['/', '/'] ++ inside).length, false⟩ where
  nonempty := by simp
  inRange := by simp
  block h := absurd h (by simp)
  line _ := by
    have hchar : ∀ m, (before ++ (['/', '/'] ++ (inside ++ rest)))[before.length + m]? =
        ((['/', '/'] ++ inside) ++ rest)[m]? := by
      intro m
      rw [List.getElem?_append_right (Nat.le_add_right ..), Nat.add_sub_cancel_left, List.append_assoc]
    refine ⟨?_, ⟨Nat.le_add_right .., ?_⟩, ?_⟩
    · rw [List.drop_left]
      exact List.prefix_append _ _
    · rw [hchar, List.getElem?_append_right (Nat.le_refl _), Nat.sub_self, ← List.head?_eq_getElem?]
      exact hnext
    · rintro p ⟨hle, hbreak⟩
      by_contra hlt
      obtain ⟨m, rfl⟩ : ∃ m, p = before.length + m := Nat.exists_eq_add_of_le hle
      have hm : m < (['/', '/'] ++ inside).length := Nat.lt_of_add_lt_add_left (Nat.lt_of_not_le hlt)
      rw [hchar, List.getElem?_append_left hm, List.getElem?_eq_getElem hm] at hbreak
      -- No character of the comment is a line break.
      have hmem : (['/', '/'] ++ inside)[m] ∈ ['/', '/'] ++ inside := List.getElem_mem hm
      have hnot : ∀ c ∈ ['/', '/'] ++ inside, ¬(c = '\r' ∨ c = '\n') := by
        intro c hc
        rcases List.mem_append.1 hc with hmark | hin
        · have hslash : c = '/' := by simpa using hmark
          simp [hslash]
        · have hplain := hinside c hin
          simp [hplain]
      exact hnot _ hmem (hbreak _ rfl)

/-- A comment stands at a place that it marks. -/
theorem IsComment.marked {lexeme : Lexeme} {rest : Text} (h : lexeme.IsComment rest) (before : Text) :
    CommentSpan.Marked (before ++ (lexeme.source ++ rest))
      ⟨before.length, before.length + lexeme.source.length, lexeme.isBlock⟩ := by
  cases h with
  | block rest hinside =>
    simpa only [source, isBlock, List.append_assoc] using marked_block before rest hinside
  | line hinside hnext =>
    simpa only [source, isBlock, List.append_assoc] using marked_line before hinside hnext

/-- The first place is that of a comment that comes first. -/
theorem IsComment.spansFrom_cons {lexeme : Lexeme} {rest : Text} (h : lexeme.IsComment rest) (position : Nat)
    (lexemes : List Lexeme) :
    spansFrom position (lexeme :: lexemes) =
      ⟨position, position + lexeme.source.length, lexeme.isBlock⟩ ::
        spansFrom (position + lexeme.source.length) lexemes := by
  cases h <;> rfl

/-- The places of the comments of a text follow each other, and each of them holds a comment. -/
theorem Written.marked {rest : Text} {lexemes : List Lexeme} (h : Written rest lexemes) (before : Text) :
    (∀ span ∈ spansFrom before.length lexemes, before.length ≤ span.start ∧ span.Marked (before ++ rest)) ∧
      (spansFrom before.length lexemes).Pairwise fun first second => first.stop ≤ second.start := by
  induction h generalizing before with
  | nil => exact ⟨fun span hspan => absurd hspan List.not_mem_nil, List.Pairwise.nil⟩
  | code c hrest ih =>
    obtain ⟨hmarked, hsorted⟩ := ih (before ++ [c])
    rw [List.append_assoc, List.singleton_append, List.length_append, List.length_singleton] at hmarked
    rw [List.length_append, List.length_singleton] at hsorted
    refine ⟨fun span hspan => ?_, hsorted⟩
    obtain ⟨hle, hspanMarked⟩ := hmarked span hspan
    exact ⟨by omega, hspanMarked⟩
  | @comment lexeme rest lexemes hcomment hrest ih =>
    obtain ⟨hmarked, hsorted⟩ := ih (before ++ lexeme.source)
    rw [List.length_append, List.append_assoc] at hmarked
    rw [List.length_append] at hsorted
    rw [hcomment.spansFrom_cons]
    refine ⟨List.forall_mem_cons.2 ⟨⟨Nat.le_refl _, hcomment.marked before⟩, fun span hspan => ?_⟩,
      List.pairwise_cons.2 ⟨fun span hspan => (hmarked span hspan).1, hsorted⟩⟩
    obtain ⟨hle, hspanMarked⟩ := hmarked span hspan
    exact ⟨by omega, hspanMarked⟩

/-! ### What stands between the comments -/

/-- A character that stands before all places belongs to the first stretch. -/
theorem outside_cons {text : Text} {position : Nat} {c : Char} (hc : text[position]? = some c)
    {spans : List CommentSpan} (h : ∀ span ∈ spans, position < span.start ∧ span.start ≤ text.length) :
    ∃ first others, text.outside (position + 1) spans = first :: others ∧
      text.outside position spans = (c :: first) :: others := by
  cases spans with
  | nil =>
    refine ⟨text.drop (position + 1), [], rfl, ?_⟩
    obtain ⟨hlt, rfl⟩ := List.getElem?_eq_some_iff.1 hc
    rw [Text.outside, List.drop_eq_getElem_cons hlt]
  | cons span spans =>
    obtain ⟨hlt, hle⟩ := h span List.mem_cons_self
    refine ⟨text.slice (position + 1) span.start, text.outside span.stop spans, rfl, ?_⟩
    rw [Text.outside, Text.slice_eq_cons hc hlt hle, List.singleton_append]

/-- What the places of the comments say about a text from a position on. -/
structure Accounts (text : Text) (position : Nat) (spans : List CommentSpan) (lexemes : List Lexeme) : Prop where
  /-- The stretches outside the comments hold the code. -/
  code : (text.outside position spans).flatten = lexemes.filterMap code?
  /-- The stretches and the comments in turn are the text. -/
  whole : weave (text.outside position spans) (spans.map text.textAt) = text.drop position
  /-- The block comments are what stands at their places. -/
  blocks : (spans.filter (·.isBlock)).map text.textAt = lexemes.filterMap blockComment?

theorem weave_cons (c : Char) (first : Text) (others comments : List Text) :
    weave ((c :: first) :: others) comments = c :: weave (first :: others) comments := by
  cases comments <;> rfl

/-- A character of code before lexemes that are accounted for. -/
theorem Accounts.cons_code {text : Text} {position : Nat} {c : Char} {spans : List CommentSpan}
    {lexemes : List Lexeme} (h : Accounts text (position + 1) spans lexemes) (hc : text[position]? = some c)
    (hspans : ∀ span ∈ spans, position < span.start ∧ span.start ≤ text.length) :
    Accounts text position spans (.code c :: lexemes) := by
  obtain ⟨first, others, hnext, hthis⟩ := outside_cons hc hspans
  obtain ⟨hcode, hwhole, hblocks⟩ := h
  rw [hnext] at hcode hwhole
  refine ⟨?_, ?_, hblocks⟩
  · show (text.outside position spans).flatten = c :: lexemes.filterMap code?
    rw [hthis, ← hcode, List.flatten_cons, List.flatten_cons, List.cons_append]
  · obtain ⟨hlt, rfl⟩ := List.getElem?_eq_some_iff.1 hc
    rw [hthis, weave_cons, hwhole, List.drop_eq_getElem_cons hlt]

/-- A comment before lexemes that are accounted for. -/
theorem Accounts.cons_comment {text rest : Text} {position : Nat} {lexeme : Lexeme} {spans : List CommentSpan}
    {lexemes : List Lexeme} (h : Accounts text (position + lexeme.source.length) spans lexemes)
    (hcomment : lexeme.IsComment rest) (hdrop : text.drop position = lexeme.source ++ rest) :
    Accounts text position (⟨position, position + lexeme.source.length, lexeme.isBlock⟩ :: spans)
      (lexeme :: lexemes) := by
  obtain ⟨hcode, hwhole, hblocks⟩ := h
  have htext : text.textAt ⟨position, position + lexeme.source.length, lexeme.isBlock⟩ = lexeme.source :=
    Text.slice_eq_of_drop hdrop
  have hrest : text.drop (position + lexeme.source.length) = rest := by
    rw [← List.drop_drop, hdrop, List.drop_left]
  constructor
  · -- The stretch before a comment that comes first is empty.
    rw [Text.outside, Text.slice_eq_nil (Nat.le_refl _), List.flatten_cons, List.nil_append, hcode]
    cases hcomment <;> rfl
  · rw [Text.outside, Text.slice_eq_nil (Nat.le_refl _), List.map_cons, weave, htext, hwhole, hrest, hdrop,
      List.nil_append]
  · cases hcomment with
    | block rest hinside =>
      rw [List.filter_cons_of_pos (by rfl), List.map_cons, htext, hblocks]
      rfl
    | line hinside hnext =>
      rw [List.filter_cons_of_neg (by simp [isBlock]), hblocks]
      rfl

/-- The places of the comments account for the whole text. -/
theorem Written.accounts {rest : Text} {lexemes : List Lexeme} (h : Written rest lexemes) (before : Text) :
    Accounts (before ++ rest) before.length (spansFrom before.length lexemes) lexemes := by
  induction h generalizing before with
  | nil => constructor <;> simp [spansFrom, Text.outside, weave]
  | @code c rest lexemes hrest ih =>
    have hnext := ih (before ++ [c])
    have hbounds := (hrest.marked (before ++ [c])).1
    rw [List.append_assoc, List.singleton_append, List.length_append, List.length_singleton] at hnext hbounds
    refine hnext.cons_code (by simp) fun span hspan => ?_
    obtain ⟨hlt, hmarked⟩ := hbounds span hspan
    exact ⟨hlt, Nat.le_trans hmarked.nonempty.le hmarked.inRange⟩
  | @comment lexeme rest lexemes hcomment hrest ih =>
    have hnext := ih (before ++ lexeme.source)
    rw [List.append_assoc, List.length_append] at hnext
    rw [hcomment.spansFrom_cons]
    exact hnext.cons_comment hcomment List.drop_left

end Lexeme

/-! ### Texts that are written in tokens -/

/-- What may stand between the marks of a string literal: a backslash goes with the character after it, and the mark
itself stands only after a backslash. -/
inductive InLiteral (quote : Char) : Text → Prop
  /-- Nothing. -/
  | nil : InLiteral quote []
  /-- A backslash and any character. -/
  | escape (c : Char) {rest : Text} (hrest : InLiteral quote rest) : InLiteral quote ('\\' :: c :: rest)
  /-- Any other character. -/
  | plain {c : Char} {rest : Text} (hquote : c ≠ quote) (hslash : c ≠ '\\') (hrest : InLiteral quote rest) :
      InLiteral quote (c :: rest)

/-- A piece in which a source text is written. -/
inductive SourceToken where
  /-- Code without quotation marks and slashes. -/
  | plain (code : Text) (hcode : ∀ c ∈ code, isQuote c = false ∧ c ≠ '/')
  /-- A string literal that is closed. -/
  | literal (quote : Char) (inside : Text) (hquote : isQuote quote = true) (hinside : InLiteral quote inside)
  /-- A block comment. -/
  | blockComment (inside : Text) (hinside : ¬['*', '/'] <:+: inside)
  /-- A line comment, without the line break after it. -/
  | lineComment (inside : Text) (hinside : ∀ c ∈ inside, c ≠ '\r' ∧ c ≠ '\n')

namespace SourceToken

/-- The text of a token. -/
def source : SourceToken → Text
  | .plain code _ => code
  | .literal quote inside _ _ => quote :: (inside ++ [quote])
  | .blockComment inside _ => '/' :: '*' :: (inside ++ ['*', '/'])
  | .lineComment inside _ => '/' :: '/' :: inside

/-- The text of tokens. -/
def sourceOf (tokens : List SourceToken) : Text := tokens.flatMap source

/-- What a token leaves in the code: comments leave nothing. -/
def code : SourceToken → Text
  | .blockComment _ _ => []
  | .lineComment _ _ => []
  | token => token.source

/-- The text of a token that is a block comment. -/
def block? : SourceToken → Option Text
  | .blockComment inside hinside => some (source (.blockComment inside hinside))
  | _ => none

/-- The lexemes of a token. -/
def lexemes : SourceToken → List Lexeme
  | .blockComment inside _ => [.blockComment ('/' :: '*' :: (inside ++ ['*', '/']))]
  | .lineComment inside _ => [.lineComment ('/' :: '/' :: inside)]
  | token => token.source.map .code

/-- Every line comment among tokens, which follow the given character, stands neither after a colon nor after a
backslash, and the text ends or its line does after it. -/
def Placed (previous : Option Char) (tokens : List SourceToken) : Prop :=
  ∀ before inside hinside after, tokens = before ++ .lineComment inside hinside :: after →
    (∀ c ∈ (sourceOf before).getLast?.or previous, c ≠ ':' ∧ c ≠ '\\') ∧
      ∀ c ∈ (sourceOf after).head?, c = '\r' ∨ c = '\n'

theorem placed_nil (previous : Option Char) : Placed previous [] := by
  intro before inside hinside after hsplit
  exact absurd hsplit (by simp)

/-- Tokens are placed when the first one is, if it is a line comment, and the others are after it. -/
theorem placed_cons_iff {previous : Option Char} {token : SourceToken} {tokens : List SourceToken} :
    Placed previous (token :: tokens) ↔
      (∀ inside hinside, token = .lineComment inside hinside →
        (∀ c ∈ previous, c ≠ ':' ∧ c ≠ '\\') ∧ ∀ c ∈ (sourceOf tokens).head?, c = '\r' ∨ c = '\n') ∧
      Placed (token.source.getLast?.or previous) tokens := by
  -- What stands before a later token is the first one and what stands between.
  have hlast : ∀ between, (sourceOf (token :: between)).getLast?.or previous =
      (sourceOf between).getLast?.or (token.source.getLast?.or previous) := by
    intro between
    rw [sourceOf, List.flatMap_cons, List.getLast?_append, Option.or_assoc, ← sourceOf]
  constructor
  · intro h
    refine ⟨fun inside hinside htoken => h [] inside hinside tokens (by rw [htoken, List.nil_append]), ?_⟩
    intro before inside hinside after hsplit
    rw [← hlast]
    exact h (token :: before) inside hinside after (by rw [hsplit, List.cons_append])
  · rintro ⟨hfirst, hrest⟩ before inside hinside after hsplit
    cases before with
    | nil =>
      obtain ⟨htoken, rfl⟩ := List.cons.inj hsplit
      exact hfirst inside hinside htoken
    | cons other before =>
      obtain ⟨rfl, htokens⟩ := List.cons.inj hsplit
      rw [hlast]
      exact hrest before inside hinside after htokens

end SourceToken

namespace Lexeme

/-- Code without quotation marks and slashes has no comment. -/
theorem scanFrom_plain {code : Text} (h : ∀ c ∈ code, isQuote c = false ∧ c ≠ '/') (previous : Option Char)
    (rest : Text) :
    scanFrom (.plain previous) (code ++ rest) =
      code.map .code ++ scanFrom (.plain (code.getLast?.or previous)) rest := by
  induction code generalizing previous with
  | nil => rfl
  | cons c code ih =>
    obtain ⟨⟨hquote, hslash⟩, hcode⟩ := List.forall_mem_cons.1 h
    have hblock : blockCommentAt? (c :: (code ++ rest)) = none := by
      rw [blockCommentAt?]
      exact fun _ heq => absurd (List.cons.inj heq).1 hslash
    have hline : lineCommentAt? previous (c :: (code ++ rest)) = none := by
      rw [lineCommentAt?]
      exact fun _ heq => absurd (List.cons.inj heq).1 hslash
    have hlast : (c :: code).getLast?.or previous = code.getLast?.or (some c) := by
      rw [← List.singleton_append, List.getLast?_append, Option.or_assoc]
      rfl
    rw [List.cons_append, scanFrom, hquote, hblock, hline, hlast, List.map_cons, List.cons_append, ← ih hcode]
    rfl

/-- Inside a literal everything is code up to the mark that closes it. -/
theorem scanFrom_literal {quote : Char} {inside : Text} (h : InLiteral quote inside) (hquote : isQuote quote = true)
    (rest : Text) :
    scanFrom (.literal quote) (inside ++ quote :: rest) =
      (inside ++ [quote]).map .code ++ scanFrom (.plain (some quote)) rest := by
  induction h with
  | nil =>
    have hslash : quote ≠ '\\' := by
      rintro rfl
      exact absurd hquote (by decide)
    rw [List.nil_append, scanFrom, if_neg hslash, if_pos rfl]
    rfl
  | escape c hrest ih =>
    rw [List.cons_append, List.cons_append, scanFrom, if_pos rfl, scanFrom, ih]
    rfl
  | plain hne hslash hrest ih =>
    rw [List.cons_append, scanFrom, if_neg hslash, if_neg hne, ih]
    rfl

/-- The rest of a comment is passed over. -/
theorem scanFrom_inside {text : Text} (hne : text ≠ []) (rest : Text) :
    scanFrom (.inside text.length) (text ++ rest) = scanFrom (.plain text.getLast?) rest := by
  induction text with
  | nil => exact absurd rfl hne
  | cons c text ih =>
    rw [List.length_cons, List.cons_append, scanFrom]
    cases text with
    | nil => rfl
    | cons d text =>
      rw [if_neg (by simp), ih (List.cons_ne_nil d text), List.getLast?_cons_cons]

/-- A block comment is read before any rest. -/
theorem blockCommentAt?_append {inside : Text} (h : ¬['*', '/'] <:+: inside) (rest : Text) :
    blockCommentAt? ('/' :: '*' :: (inside ++ ['*', '/'] ++ rest)) =
      some ('/' :: '*' :: (inside ++ ['*', '/'])) := by
  have hindex : Text.indexOf? (txt "*/") (inside ++ ['*', '/'] ++ rest) = some inside.length := by
    rw [List.append_assoc]
    exact Text.indexOf?_close h rest
  have htake : (inside ++ ['*', '/'] ++ rest).take (inside.length + 2) = inside ++ ['*', '/'] :=
    List.take_left' (by simp)
  rw [blockCommentAt?, hindex, Option.map_some, htake]

/-- A line comment is read up to the end of its line, unless the character before it forbids it. -/
theorem lineCommentAt?_append {previous : Option Char} {inside rest : Text}
    (hprevious : ∀ c ∈ previous, c ≠ ':' ∧ c ≠ '\\') (hinside : ∀ c ∈ inside, c ≠ '\r' ∧ c ≠ '\n')
    (hnext : ∀ c ∈ rest.head?, c = '\r' ∨ c = '\n') :
    lineCommentAt? previous ('/' :: '/' :: (inside ++ rest)) = some ('/' :: '/' :: inside) := by
  have hallowed : (previous == some ':' || previous == some '\\') = false := by
    cases previous with
    | none => rfl
    | some c =>
      have hc := hprevious c rfl
      simp [hc]
  have hkept : ∀ c ∈ inside, (c != '\r' && c != '\n') = true := by
    intro c hc
    simpa using hinside c hc
  have htake : (inside ++ rest).takeWhile (fun c => c != '\r' && c != '\n') = inside := by
    rw [List.takeWhile_append_of_pos hkept]
    cases rest with
    | nil => simp
    | cons d rest =>
      have hbreak := hnext d rfl
      rw [List.takeWhile_cons_of_neg (by simpa [imp_iff_not_or] using hbreak), List.append_nil]
  rw [lineCommentAt?, hallowed, htake]
  rfl

/-- After a comment of which the slash was read the scan goes on behind its last character. -/
theorem scanFrom_afterSlash (comment : Text) (hne : comment ≠ []) (previous : Option Char) (rest : Text) :
    scanFrom (.inside (('/' :: comment).length - 1)) (comment ++ rest) =
      scanFrom (.plain (('/' :: comment).getLast?.or previous)) rest := by
  obtain ⟨c, tail, rfl⟩ := List.exists_cons_of_ne_nil hne
  have hlast : ('/' :: c :: tail).getLast?.or previous = (c :: tail).getLast? := by
    rw [List.getLast?_cons_cons, List.getLast?_eq_some_getLast hne, Option.some_or]
  rw [hlast]
  exact scanFrom_inside hne rest

/-- The lexemes of a token come first, and the scan goes on in plain code behind its last character. -/
theorem scanFrom_token {previous : Option Char} {token : SourceToken} {tokens : List SourceToken}
    (h : SourceToken.Placed previous (token :: tokens)) :
    scanFrom (.plain previous) (token.source ++ SourceToken.sourceOf tokens) =
      token.lexemes ++ scanFrom (.plain (token.source.getLast?.or previous)) (SourceToken.sourceOf tokens) := by
  cases token with
  | plain code hcode => exact scanFrom_plain hcode previous _
  | literal quote inside hquote hinside =>
    have hlast : (quote :: (inside ++ [quote])).getLast?.or previous = some quote := by
      rw [← List.cons_append, List.getLast?_concat, Option.some_or]
    rw [SourceToken.source, hlast, List.cons_append, scanFrom, if_pos hquote, List.append_assoc,
      List.singleton_append, scanFrom_literal hinside hquote]
    rfl
  | blockComment inside hinside =>
    have hblock := blockCommentAt?_append hinside (SourceToken.sourceOf tokens)
    have hafter := scanFrom_afterSlash ('*' :: (inside ++ ['*', '/'])) (List.cons_ne_nil _ _) previous
      (SourceToken.sourceOf tokens)
    rw [SourceToken.source, List.cons_append, List.cons_append, scanFrom, if_neg (by decide), hblock]
    exact congrArg _ hafter
  | lineComment inside hinside =>
    obtain ⟨hprevious, hnext⟩ := (SourceToken.placed_cons_iff.1 h).1 inside hinside rfl
    have hline := lineCommentAt?_append hprevious hinside hnext
    have hafter := scanFrom_afterSlash ('/' :: inside) (List.cons_ne_nil _ _) previous
      (SourceToken.sourceOf tokens)
    have hblock : blockCommentAt? ('/' :: '/' :: (inside ++ SourceToken.sourceOf tokens)) = none := rfl
    rw [SourceToken.source, List.cons_append, List.cons_append, scanFrom, if_neg (by decide), hblock]
    dsimp only
    rw [hline]
    exact congrArg _ hafter

/-- The lexemes of a text that is written in tokens are those of the tokens. -/
theorem scanFrom_sourceOf {previous : Option Char} {tokens : List SourceToken}
    (h : SourceToken.Placed previous tokens) :
    scanFrom (.plain previous) (SourceToken.sourceOf tokens) = tokens.flatMap SourceToken.lexemes := by
  induction tokens generalizing previous with
  | nil => rfl
  | cons token tokens ih =>
    rw [SourceToken.sourceOf, List.flatMap_cons, ← SourceToken.sourceOf, scanFrom_token h,
      ih (SourceToken.placed_cons_iff.1 h).2, List.flatMap_cons]

end Lexeme

namespace SourceToken

/-- Of the lexemes of a token, the code is what the token leaves in the code. -/
theorem filterMap_code?_lexemes (token : SourceToken) : token.lexemes.filterMap Lexeme.code? = token.code := by
  have hcode : ∀ text : Text, (text.map Lexeme.code).filterMap Lexeme.code? = text := by
    intro text
    rw [List.filterMap_map]
    exact List.filterMap_some
  cases token with
  | plain code _ => exact hcode code
  | literal quote inside _ _ => exact hcode _
  | blockComment inside _ => rfl
  | lineComment inside _ => rfl

/-- Of the lexemes of a token, a block comment is the token itself. -/
theorem filterMap_blockComment?_lexemes (token : SourceToken) :
    token.lexemes.filterMap Lexeme.blockComment? = token.block?.toList := by
  have hnone : ∀ text : Text, (text.map Lexeme.code).filterMap Lexeme.blockComment? = [] := by
    intro text
    rw [List.filterMap_map]
    exact List.filterMap_eq_nil_iff.2 fun _ _ => rfl
  cases token with
  | plain code _ => exact hnone code
  | literal quote inside _ _ => exact hnone _
  | blockComment inside _ => rfl
  | lineComment inside _ => rfl

end SourceToken

namespace Text

/-- The comments of any text stand at places that follow each other without overlap, each as long as its marks make
it; what is kept and these comments, put together in turn, are the text, and the block comments are those at the
places of block comments. And of a text that is written in code, literals and comments, exactly the comments are taken
out, and exactly the block comments are given. -/
theorem comments_cut_out :
    (∀ text : Text,
      text.commentSpans.Pairwise (fun first second => first.stop ≤ second.start) ∧
      (∀ span ∈ text.commentSpans, span.Marked text) ∧
      weave (text.outside 0 text.commentSpans) (text.commentSpans.map text.textAt) = text ∧
      text.stripComments = (text.outside 0 text.commentSpans).flatten ∧
      text.blockComments = (text.commentSpans.filter (·.isBlock)).map text.textAt) ∧
    ∀ tokens : List SourceToken, SourceToken.Placed none tokens →
      (SourceToken.sourceOf tokens).stripComments = tokens.flatMap SourceToken.code ∧
      (SourceToken.sourceOf tokens).blockComments = tokens.filterMap SourceToken.block? := by
  constructor
  · intro text
    have hwritten := Lexeme.written_scan text
    obtain ⟨hmarked, hsorted⟩ := hwritten.marked []
    obtain ⟨hcode, hwhole, hblocks⟩ := hwritten.accounts []
    exact ⟨hsorted, fun span hspan => (hmarked span hspan).2, hwhole, hcode.symm, hblocks.symm⟩
  · intro tokens htokens
    have hlexemes : Lexeme.scan (SourceToken.sourceOf tokens) = tokens.flatMap SourceToken.lexemes :=
      Lexeme.scanFrom_sourceOf htokens
    constructor
    · rw [stripComments, hlexemes, List.filterMap_flatMap]
      simp only [SourceToken.filterMap_code?_lexemes]
    · rw [blockComments, hlexemes, List.filterMap_flatMap]
      simp only [SourceToken.filterMap_blockComment?_lexemes]
      exact (List.filterMap_eq_flatMap_toList ..).symm

/-- A literal that holds both comment marks and an escaped quotation mark, a block comment with a quotation mark, and a
line comment right after it. -/
theorem comments_cut_out_mixed :
    ∃ tokens, SourceToken.Placed none tokens ∧
      SourceToken.sourceOf tokens = txt "a'//\\'/*'/* ' *///b\nc" ∧
      stripComments (txt "a'//\\'/*'/* ' *///b\nc") = txt "a'//\\'/*'\nc" ∧
      blockComments (txt "a'//\\'/*'/* ' *///b\nc") = [txt "/* ' */"] := by
  let tokens : List SourceToken :=
    [.plain ['a'] (List.forall_mem_singleton.2 (by decide)),
      .literal '\'' ['/', '/', '\\', '\'', '/', '*'] rfl
        (.plain (by decide) (by decide) (.plain (by decide) (by decide) (.escape '\''
          (.plain (by decide) (by decide) (.plain (by decide) (by decide) .nil))))),
      .blockComment [' ', '\'', ' '] (by decide),
      .lineComment ['b'] (List.forall_mem_singleton.2 (by decide)),
      .plain ['\n', 'c'] (List.forall_mem_cons.2 ⟨by decide, List.forall_mem_singleton.2 (by decide)⟩)]
  have hplaced : SourceToken.Placed none tokens := by
    iterate 3 refine SourceToken.placed_cons_iff.2 ⟨by rintro _ _ ⟨⟩, ?_⟩
    refine SourceToken.placed_cons_iff.2 ⟨fun _ _ _ => ⟨?_, ?_⟩, ?_⟩
    · rintro c ⟨⟩
      decide
    · rintro c ⟨⟩
      decide
    exact SourceToken.placed_cons_iff.2 ⟨by rintro _ _ ⟨⟩, SourceToken.placed_nil _⟩
  obtain ⟨hcode, hblocks⟩ := comments_cut_out.2 tokens hplaced
  exact ⟨tokens, hplaced, rfl, hcode, hblocks⟩

end Text

end AngularUplift
