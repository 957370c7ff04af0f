import AngularUplift.Proofs.Text.Comment
import AngularUplift.Proofs.Text.Line
import AngularUplift.Text.Arguments

/-!
# Splitting and joining arguments

An argument list is cut at the commas that a scan meets outside literals and delimiters. Cutting and joining undo each
other on every text, balanced or not, because a cut is made only where the scan is back where it began: each piece is
then read as if it stood alone, and the white space that is trimmed off it does not move the scan.

## Main definitions

* `Nesting.run`: where a scan stands after a text.
* `Nesting.Unsplit`: a text in which a scan meets no comma that separates.
* `Splits`: pieces that a scan finds between such commas.

## Main statements

* `Text.splits_argumentPieces`, `Splits.argumentPieces_join`: the pieces of a text are such pieces, and such pieces,
  joined by commas, are found again.
* `Splits.map_trim`: trimmed pieces are still found.
* `Text.splitArguments_join`: what this says about the arguments of a call.
-/

namespace AngularUplift

namespace Nesting

variable {n : Nesting} {c : Char} {text other : Text}

/-- Where a scan stands after a text. -/
def run (n : Nesting) (text : Text) : Nesting := text.foldl step n

@[simp]
theorem run_nil (n : Nesting) : n.run [] = n := rfl

@[simp]
theorem run_cons (n : Nesting) (c : Char) (text : Text) : n.run (c :: text) = (n.step c).run text := rfl

theorem run_append (n : Nesting) (text other : Text) : n.run (text ++ other) = (n.run text).run other :=
  List.foldl_append

/-! ### The top -/

/-- What holds wherever a scan may stand. -/
structure Sound (n : Nesting) : Prop where
  /-- A literal is opened by a quotation mark. -/
  isQuote : ∀ quote ∈ n.quote, isQuote quote = true
  /-- A backslash is remembered only inside a literal. -/
  escaped : n.quote = none → n.escaped = false

theorem sound_empty : Sound {} where
  isQuote := nofun
  escaped _ := rfl

theorem sound_step (h : n.Sound) (c : Char) : (n.step c).Sound := by
  obtain ⟨depth, quote, escaped⟩ := n
  cases quote with
  | none =>
    obtain rfl : escaped = false := h.escaped rfl
    simp only [step]
    split
    · next hquote => exact ⟨fun quote hmem => Option.mem_some.1 hmem ▸ hquote, nofun⟩
    · repeat' split
      all_goals exact ⟨nofun, fun _ => rfl⟩
  | some quote =>
    simp only [step]
    split
    · exact ⟨h.isQuote, nofun⟩
    · next hplain =>
      split
      · exact ⟨h.isQuote, nofun⟩
      · split
        · -- The mark that closes the literal does not stand after a backslash.
          exact ⟨nofun, fun _ => Bool.eq_false_iff.2 hplain⟩
        · exact h

theorem sound_run (h : n.Sound) (text : Text) : (n.run text).Sound := by
  induction text generalizing n with
  | nil => exact h
  | cons c text ih => exact ih (sound_step h c)

/-- At the top a scan stands where it began. -/
theorem Sound.eq_of_isTop (h : n.Sound) (htop : n.isTop = true) : n = {} := by
  obtain ⟨depth, quote, escaped⟩ := n
  rw [isTop, Bool.and_eq_true, beq_iff_eq, Option.isNone_iff_eq_none] at htop
  obtain ⟨rfl, rfl⟩ := htop
  obtain rfl : escaped = false := h.escaped rfl
  rfl

/-- A text after which a scan is at the top again leads it back to where it began. -/
theorem run_eq_of_isTop (h : (run {} text).isTop = true) : run {} text = {} :=
  (sound_run sound_empty text).eq_of_isTop h

/-! ### White space -/

/-- White space is none of the characters that a scan looks for. -/
theorem ne_of_isBlank (h : isBlank c) {d : Char} (hd : isBlank d = false) : c ≠ d := by
  rintro rfl
  rw [h] at hd
  exact absurd hd (by decide)

/-- White space outside a literal does not move a scan. -/
theorem step_blank (hquote : n.quote = none) (h : isBlank c) : n.step c = n := by
  have hne : ∀ d : Char, isBlank d = false → (c == d) = false :=
    fun d hd => beq_eq_false_iff_ne.2 (ne_of_isBlank h hd)
  have hmark : isQuote c = false := by
    rw [isQuote, hne _ (by decide), hne _ (by decide), hne _ (by decide)]
    rfl
  have hopening : isOpening c = false := by
    rw [isOpening, hne _ (by decide), hne _ (by decide), hne _ (by decide)]
    rfl
  have hclosing : isClosing c = false := by
    rw [isClosing, hne _ (by decide), hne _ (by decide), hne _ (by decide)]
    rfl
  simp [step, hquote, hmark, hopening, hclosing]

theorem run_blank {space : Text} (hquote : n.quote = none) (h : ∀ c ∈ space, isBlank c) : n.run space = n := by
  induction space with
  | nil => rfl
  | cons c space ih =>
    obtain ⟨hc, hspace⟩ := List.forall_mem_cons.1 h
    rw [run_cons, step_blank hquote hc]
    exact ih hspace

/-- White space does not close a literal. -/
theorem quote_step_blank (h : n.Sound) (hc : isBlank c) (hquote : (n.step c).quote = none) : n.quote = none := by
  obtain ⟨depth, quote, escaped⟩ := n
  cases quote with
  | none => rfl
  | some quote =>
    have hmark : c ≠ quote := by
      rintro rfl
      have hopened := h.isQuote c rfl
      simp only [AngularUplift.isQuote, Bool.or_eq_true, beq_iff_eq] at hopened
      rcases hopened with (rfl | rfl) | rfl
      all_goals exact absurd hc (by decide)
    have hslash : c ≠ '\\' := ne_of_isBlank hc (by decide)
    cases escaped with
    | true => exact absurd hquote (by simp [step])
    | false => exact absurd hquote (by simp [step, hslash, hmark])

theorem quote_run_blank {space : Text} (h : n.Sound) (hspace : ∀ c ∈ space, isBlank c)
    (hquote : (n.run space).quote = none) : n.quote = none := by
  induction space generalizing n with
  | nil => exact hquote
  | cons c space ih =>
    obtain ⟨hc, hrest⟩ := List.forall_mem_cons.1 hspace
    exact quote_step_blank h hc (ih (sound_step h c) hrest hquote)

/-- A scan is at the top before white space when it is at the top after it. -/
theorem run_eq_of_isTop_blank {space : Text} (hspace : ∀ c ∈ space, isBlank c)
    (h : (run {} (text ++ space)).isTop = true) : run {} text = {} := by
  have hwhole := run_eq_of_isTop h
  rw [run_append] at hwhole
  have hquote : (run {} text).quote = none :=
    quote_run_blank (sound_run sound_empty text) hspace (by rw [hwhole])
  rwa [run_blank hquote hspace] at hwhole

/-! ### Texts without a separating comma -/

/-- No comma of a text separates when a scan goes over it. -/
def Unsplit (n : Nesting) (text : Text) : Prop :=
  ∀ front back, text = front ++ ',' :: back → (n.run front).isTop = false

theorem unsplit_nil (n : Nesting) : n.Unsplit [] := by
  intro front back hsplit
  exact absurd hsplit (by simp)

theorem unsplit_cons_iff : n.Unsplit (c :: text) ↔ ¬(c = ',' ∧ n.isTop = true) ∧ (n.step c).Unsplit text := by
  constructor
  · intro h
    refine ⟨?_, fun front back hsplit => h (c :: front) back (by rw [hsplit, List.cons_append])⟩
    rintro ⟨rfl, htop⟩
    have hfirst := h [] text rfl
    rw [run_nil, htop] at hfirst
    exact absurd hfirst (by decide)
  · rintro ⟨hfirst, hrest⟩ front back hsplit
    cases front with
    | nil =>
      obtain ⟨rfl, -⟩ := List.cons.inj hsplit
      exact Bool.eq_false_iff.2 fun htop => hfirst ⟨rfl, htop⟩
    | cons d front =>
      obtain ⟨rfl, htext⟩ := List.cons.inj hsplit
      exact hrest front back htext

/-- Whether no comma of a text separates is decidable, character by character. -/
instance decidableUnsplit (n : Nesting) : (text : Text) → Decidable (n.Unsplit text)
  | [] => isTrue (unsplit_nil n)
  | c :: text =>
    have := decidableUnsplit (n.step c) text
    decidable_of_iff _ unsplit_cons_iff.symm

theorem unsplit_append_iff : n.Unsplit (text ++ other) ↔ n.Unsplit text ∧ (n.run text).Unsplit other := by
  induction text generalizing n with
  | nil => simp [unsplit_nil]
  | cons c text ih => rw [List.cons_append, unsplit_cons_iff, unsplit_cons_iff, ih, run_cons, and_assoc]

/-- No comma separates in a text without commas. -/
theorem unsplit_of_notMem {n : Nesting} {text : Text} (h : ',' ∉ text) : n.Unsplit text := by
  rintro front back rfl
  exact absurd (List.mem_append_right front List.mem_cons_self) h

/-- What stands between the marks of a literal leaves a scan in the literal. -/
theorem run_inLiteral {quote : Char} {inside : Text} (h : InLiteral quote inside) :
    run { quote := some quote } inside = { quote := some quote } ∧ Unsplit { quote := some quote } inside := by
  have hinner : ∀ {c text escaped}, (step { quote := some quote, escaped } c).Unsplit text →
      Unsplit { quote := some quote, escaped } (c :: text) :=
    fun htext => unsplit_cons_iff.2 ⟨fun hcomma => by simp [isTop] at hcomma, htext⟩
  induction h with
  | nil => exact ⟨rfl, unsplit_nil _⟩
  | @escape c rest _ ih =>
    have hslash : step { quote := some quote } '\\' = { quote := some quote, escaped := true } := rfl
    have hnext : step { quote := some quote, escaped := true } c = { quote := some quote } := rfl
    refine ⟨by rw [run_cons, run_cons, hslash, hnext, ih.1], hinner ?_⟩
    rw [hslash]
    exact hinner (by rw [hnext]; exact ih.2)
  | @plain c rest hquote hslash _ ih =>
    have hstep : step { quote := some quote } c = { quote := some quote } := by simp [step, hslash, hquote]
    exact ⟨by rw [run_cons, hstep, ih.1], hinner (by rw [hstep]; exact ih.2)⟩

end Nesting

/-! ### The pieces between commas -/

/-- Pieces that a scan finds between the commas that separate. After each piece but the last one it is at the top. -/
inductive Splits : Nesting → List Text → Prop
  /-- One piece. -/
  | last {n : Nesting} {piece : Text} (hpiece : n.Unsplit piece) : Splits n [piece]
  /-- A piece, a comma and further pieces. -/
  | comma {n : Nesting} {piece : Text} {rest : List Text} (hpiece : n.Unsplit piece)
      (htop : (n.run piece).isTop = true) (hrest : Splits (n.run piece) rest) : Splits n (piece :: rest)

namespace Text

theorem argumentPieces_ne_nil (n : Nesting) (text : Text) : argumentPieces n text ≠ [] := by
  cases text with
  | nil => simp [argumentPieces]
  | cons c text =>
    rw [argumentPieces]
    split
    · simp
    · split <;> simp

/-- A text without a separating comma is one piece. -/
theorem argumentPieces_eq_singleton {n : Nesting} {piece : Text} (h : n.Unsplit piece) :
    argumentPieces n piece = [piece] := by
  induction piece generalizing n with
  | nil => rfl
  | cons c piece ih =>
    obtain ⟨hc, hpiece⟩ := Nesting.unsplit_cons_iff.1 h
    rw [argumentPieces, if_neg hc, ih hpiece]

/-- A text without a separating comma goes into the first piece of what comes after it. -/
theorem argumentPieces_append {n : Nesting} {text rest first : Text} {others : List Text} (h : n.Unsplit text)
    (hrest : argumentPieces (n.run text) rest = first :: others) :
    argumentPieces n (text ++ rest) = (text ++ first) :: others := by
  induction text generalizing n with
  | nil => exact hrest
  | cons c text ih =>
    obtain ⟨hc, htext⟩ := Nesting.unsplit_cons_iff.1 h
    rw [List.cons_append, argumentPieces, if_neg hc, ih htext hrest]
    rfl

/-- A text without a separating comma before one is the first piece. -/
theorem argumentPieces_append_comma {n : Nesting} {piece : Text} (h : n.Unsplit piece)
    (htop : (n.run piece).isTop = true) (rest : Text) :
    argumentPieces n (piece ++ ',' :: rest) = piece :: argumentPieces (n.run piece) rest := by
  have hcomma : argumentPieces (n.run piece) (',' :: rest) = [] :: argumentPieces (n.run piece) rest := by
    rw [argumentPieces, if_pos ⟨rfl, htop⟩]
  rw [argumentPieces_append h hcomma, List.append_nil]

/-- The pieces of a text are the ones that a scan of it finds. -/
theorem splits_argumentPieces (n : Nesting) (text : Text) : Splits n (argumentPieces n text) := by
  induction text generalizing n with
  | nil => exact Splits.last (Nesting.unsplit_nil n)
  | cons c text ih =>
    rw [argumentPieces]
    split
    · next hcomma => exact Splits.comma (Nesting.unsplit_nil n) hcomma.2 (ih n)
    · next hcomma =>
      obtain ⟨first, rest, hpieces⟩ := List.exists_cons_of_ne_nil (argumentPieces_ne_nil (n.step c) text)
      have hnext := ih (n.step c)
      rw [hpieces] at hnext ⊢
      -- The character joins the first piece, from where the scan stood before it.
      cases hnext with
      | last hpiece => exact Splits.last (Nesting.unsplit_cons_iff.2 ⟨hcomma, hpiece⟩)
      | comma hpiece htop hrest => exact Splits.comma (Nesting.unsplit_cons_iff.2 ⟨hcomma, hpiece⟩) htop hrest

end Text

namespace Splits

variable {n : Nesting} {pieces : List Text}

/-- Pieces joined by commas are found again. -/
theorem argumentPieces_join (h : Splits n pieces) : Text.argumentPieces n (Text.join [','] pieces) = pieces := by
  induction h with
  | last hpiece => exact Text.argumentPieces_eq_singleton hpiece
  | @comma n piece rest hpiece htop hrest ih =>
    have hjoin : Text.join [','] (piece :: rest) = piece ++ ',' :: Text.join [','] rest := by
      cases hrest <;> simp [Text.join]
    rw [hjoin, Text.argumentPieces_append_comma hpiece htop, ih]

/-- A piece that a scan from the top finds has no comma that separates. -/
theorem unsplit_of_mem (h : Splits n pieces) (hn : n = {}) {piece : Text} (hpiece : piece ∈ pieces) :
    Nesting.Unsplit {} piece := by
  induction h with
  | last hunsplit =>
    obtain rfl := List.mem_singleton.1 hpiece
    exact hn ▸ hunsplit
  | comma hunsplit htop hrest ih =>
    subst hn
    rcases List.mem_cons.1 hpiece with rfl | hmem
    · exact hunsplit
    · exact ih (Nesting.run_eq_of_isTop htop) hmem

end Splits

/-! ### Trimmed pieces -/

namespace Text

/-- A text that neither begins nor ends with white space. -/
def Trimmed (text : Text) : Prop :=
  (∀ c ∈ text.head?, isBlank c = false) ∧ ∀ c ∈ text.getLast?, isBlank c = false

theorem trimmed_trim (text : Text) : Trimmed (trim text) :=
  ⟨fun _ => isBlank_head_trim, fun _ => isBlank_getLast_trim⟩

theorem Trimmed.trim_eq {text : Text} (h : Trimmed text) : trim text = text := trim_eq_self h.1 h.2

/-- Whether a text is trimmed is decidable: trimming does not change it. -/
instance (text : Text) : Decidable (Trimmed text) :=
  decidable_of_iff (trim text = text) ⟨fun h => h ▸ trimmed_trim text, Trimmed.trim_eq⟩

/-- Trimmed texts are not trimmed further. -/
theorem map_trim_eq_self {list : List Text} (h : ∀ a ∈ list, Trimmed a) : list.map trim = list := by
  calc
    list.map trim = list.map id := List.map_congr_left fun a ha => (h a ha).trim_eq
    _ = list := List.map_id list

end Text

namespace Nesting

/-- White space around a piece takes no part in the scan of it. -/
theorem Unsplit.trim {text : Text} (h : Unsplit {} text) : Unsplit {} (Text.trim text) := by
  obtain ⟨lead, trail, htext, hlead, -⟩ := Text.exists_trim text
  rw [htext, unsplit_append_iff, run_blank rfl hlead, unsplit_append_iff] at h
  exact h.2.1

theorem run_trim {text : Text} (h : (run {} text).isTop = true) : run {} (Text.trim text) = {} := by
  obtain ⟨lead, trail, htext, hlead, htrail⟩ := Text.exists_trim text
  rw [htext, run_append, run_blank rfl hlead] at h
  exact run_eq_of_isTop_blank htrail h

end Nesting

/-- Trimmed pieces are still the ones that a scan finds. -/
theorem Splits.map_trim {n : Nesting} {pieces : List Text} (h : Splits n pieces) (hn : n = {}) :
    Splits {} (pieces.map Text.trim) := by
  induction h with
  | last hpiece =>
    subst hn
    exact Splits.last hpiece.trim
  | comma hpiece htop hrest ih =>
    subst hn
    have hback := Nesting.run_trim htop
    refine Splits.comma hpiece.trim (by rw [hback]; rfl) ?_
    rw [hback]
    exact ih (Nesting.run_eq_of_isTop htop)

namespace Text

/-- The arguments are the trimmed pieces, unless there is only a blank one. -/
theorem splitArguments_eq {text : Text} (h : (argumentPieces {} text).map trim ≠ [[]]) :
    splitArguments text = (argumentPieces {} text).map trim := by
  rw [splitArguments]
  split
  · next hblank => exact absurd hblank h
  · rfl

/-- There are no arguments, or they are pieces that a scan finds. -/
theorem splitArguments_cases (text : Text) :
    splitArguments text = [] ∨
      splitArguments text ≠ [[]] ∧ Splits {} (splitArguments text) ∧ ∀ a ∈ splitArguments text, Trimmed a := by
  by_cases hblank : (argumentPieces {} text).map trim = [[]]
  · left
    rw [splitArguments, hblank]
  · right
    rw [splitArguments_eq hblank]
    refine ⟨hblank, (splits_argumentPieces {} text).map_trim rfl, fun a ha => ?_⟩
    obtain ⟨piece, -, rfl⟩ := List.mem_map.1 ha
    exact trimmed_trim piece

/-- Trimmed pieces that a scan finds, joined by commas, are the arguments. -/
theorem splitArguments_join_comma {pieces : List Text} (h : Splits {} pieces) (hne : pieces.map trim ≠ [[]]) :
    splitArguments (join [','] pieces) = pieces.map trim := by
  have hpieces := h.argumentPieces_join
  rw [splitArguments_eq (by rwa [hpieces]), hpieces]

/-- A text that a scan reads from the top back to the top without a comma that separates. -/
structure Whole (text : Text) : Prop where
  /-- No comma separates. -/
  unsplit : Nesting.Unsplit {} text
  /-- The scan ends at the top. -/
  isTop : (Nesting.run {} text).isTop = true

/-- Whether a scan reads a text back to the top is decidable. -/
instance (text : Text) : Decidable (Whole text) :=
  decidable_of_iff (Nesting.Unsplit {} text ∧ (Nesting.run {} text).isTop = true)
    ⟨fun h => ⟨h.1, h.2⟩, fun h => ⟨h.unsplit, h.isTop⟩⟩

theorem Whole.append {text other : Text} (h : Whole text) (hother : Whole other) : Whole (text ++ other) := by
  have hback := Nesting.run_eq_of_isTop h.isTop
  refine ⟨Nesting.unsplit_append_iff.2 ⟨h.unsplit, ?_⟩, ?_⟩
  · rw [hback]
    exact hother.unsplit
  · rw [Nesting.run_append, hback]
    exact hother.isTop

/-- A scan goes over a text without commas, quotation marks and delimiters and stays at the top. -/
theorem whole_of_forall {text : Text}
    (h : ∀ c ∈ text, c ≠ ',' ∧ isQuote c = false ∧ isOpening c = false ∧ isClosing c = false) : Whole text where
  unsplit := Nesting.unsplit_of_notMem fun hmem => (h _ hmem).1 rfl
  isTop := by
    suffices hrun : Nesting.run {} text = {} by rw [hrun]; rfl
    induction text with
    | nil => rfl
    | cons c text ih =>
      obtain ⟨⟨-, hquote, hopening, hclosing⟩, htext⟩ := List.forall_mem_cons.1 h
      have hstep : Nesting.step {} c = {} := by simp [Nesting.step, hquote, hopening, hclosing]
      rw [Nesting.run_cons, hstep]
      exact ih htext

/-- White space does not move the scan. -/
theorem whole_blank {space : Text} (h : ∀ c ∈ space, isBlank c) : Whole space where
  unsplit := Nesting.unsplit_of_notMem (notMem_of_class h (by decide))
  isTop := by
    rw [Nesting.run_blank rfl h]
    rfl

/-- A scan goes over a string literal and is back at the top. -/
theorem whole_literal {quote : Char} {inside : Text} (hquote : isQuote quote = true) (h : InLiteral quote inside) :
    Whole (quote :: (inside ++ [quote])) := by
  have hopen : Nesting.step {} quote = { quote := some quote } := by simp [Nesting.step, hquote]
  have hends : quote ≠ ',' ∧ quote ≠ '\\' := by
    constructor
    all_goals
      rintro rfl
      exact absurd hquote (by decide)
  have hclose : Nesting.step { quote := some quote } quote = {} := by simp [Nesting.step, hends.2]
  obtain ⟨hrun, hunsplit⟩ := Nesting.run_inLiteral h
  constructor
  · rw [Nesting.unsplit_cons_iff, hopen, Nesting.unsplit_append_iff, hrun]
    exact ⟨fun hcomma => hends.1 hcomma.1, hunsplit, Nesting.unsplit_of_notMem (by simpa using hends.1.symm)⟩
  · rw [Nesting.run_cons, hopen, Nesting.run_append, hrun, Nesting.run_cons, hclose]
    rfl

theorem splits_of_whole {list : List Text} (hne : list ≠ []) (h : ∀ a ∈ list, Whole a) : Splits {} list := by
  induction list with
  | nil => exact absurd rfl hne
  | cons a list ih =>
    obtain ⟨ha, hlist⟩ := List.forall_mem_cons.1 h
    cases list with
    | nil => exact Splits.last ha.unsplit
    | cons b list =>
      refine Splits.comma ha.unsplit ha.isTop ?_
      rw [Nesting.run_eq_of_isTop ha.isTop]
      exact ih (List.cons_ne_nil b list) hlist

/-- A space before a text does not move the scan. -/
theorem Whole.cons_space {text : Text} (h : Whole text) : Whole (' ' :: text) where
  unsplit := Nesting.unsplit_cons_iff.2 ⟨by simp, h.unsplit⟩
  isTop := h.isTop

theorem join_cons_char (separator : Text) (c : Char) (a : Text) (list : List Text) :
    join separator ((c :: a) :: list) = c :: join separator (a :: list) := by
  cases list <;> rfl

/-- Texts joined by commas and spaces are the first of them and the others, with a space before each, joined by
commas. -/
theorem join_comma_space (a : Text) (list : List Text) :
    join (txt ", ") (a :: list) = join [','] (a :: list.map (' ' :: ·)) := by
  induction list generalizing a with
  | nil => rfl
  | cons b list ih =>
    rw [join, ih, List.map_cons, join, join_cons_char, List.append_assoc, List.append_assoc]
    rfl

/-- Every argument of a text is trimmed and, unless it is empty, is its own only argument; the arguments joined by
commas are split into the same arguments; and trimmed texts that a scan reads back to the top without a comma that
separates are what their join by commas and spaces is split into, unless they are one empty text. -/
theorem splitArguments_join :
    (∀ text, ∀ a ∈ splitArguments text, Trimmed a ∧ (a ≠ [] → splitArguments a = [a])) ∧
    (∀ text, splitArguments (join [','] (splitArguments text)) = splitArguments text) ∧
    ∀ list, list ≠ [[]] → (∀ a ∈ list, Trimmed a ∧ Whole a) →
      splitArguments (join (txt ", ") list) = list := by
  refine ⟨fun text a ha => ?_, fun text => ?_, fun list hne hlist => ?_⟩
  · obtain hnone | ⟨-, hsplits, htrimmed⟩ := splitArguments_cases text
    · exact absurd (hnone ▸ ha) List.not_mem_nil
    · refine ⟨htrimmed a ha, fun hne => ?_⟩
      have hone : Splits {} [a] := Splits.last (hsplits.unsplit_of_mem rfl ha)
      have hmap := map_trim_eq_self (List.forall_mem_singleton.2 (htrimmed a ha))
      have hsplit := splitArguments_join_comma hone (by simpa [hmap] using hne)
      rwa [hmap] at hsplit
  · obtain hnone | ⟨hne, hsplits, htrimmed⟩ := splitArguments_cases text
    · rw [hnone]
      rfl
    · have hmap := map_trim_eq_self htrimmed
      rw [splitArguments_join_comma hsplits (by rwa [hmap]), hmap]
  · cases list with
    | nil => rfl
    | cons a list =>
      obtain ⟨ha, hrest⟩ := List.forall_mem_cons.1 hlist
      -- The spaces after the commas belong to the pieces and are trimmed off them.
      have hspace : ∀ b, trim (' ' :: b) = trim b := fun b => trim_append_left (List.forall_mem_singleton.2 rfl) b
      have hmap : (a :: list.map (' ' :: ·)).map trim = a :: list := by
        rw [List.map_cons, ha.1.trim_eq, List.map_map]
        simp only [Function.comp_def, hspace]
        rw [map_trim_eq_self fun b hb => (hrest b hb).1]
      have hwhole : ∀ piece ∈ a :: list.map (' ' :: ·), Whole piece := by
        refine List.forall_mem_cons.2 ⟨ha.2, fun piece hpiece => ?_⟩
        obtain ⟨b, hb, rfl⟩ := List.mem_map.1 hpiece
        exact (hrest b hb).2.cons_space
      rw [join_comma_space, splitArguments_join_comma (splits_of_whole (List.cons_ne_nil _ _) hwhole)
        (by rwa [hmap]), hmap]

/-- Commas in a literal and between delimiters separate nothing, and an empty argument between others is kept. -/
theorem splitArguments_join_call :
    let list := [txt "'a, b'", [], txt "f(1, [2])"]
    list ≠ [[]] ∧ (∀ a ∈ list, Trimmed a ∧ Whole a) ∧ splitArguments (txt "'a, b', , f(1, [2])") = list := by
  intro list
  have hlist : ∀ a ∈ list, Trimmed a ∧ Whole a := by decide
  have hne : list ≠ [[]] := by decide
  exact ⟨hne, hlist, splitArguments_join.2.2 list hne hlist⟩

end Text

end AngularUplift
