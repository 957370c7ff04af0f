import AngularUplift.Proofs.Suite.Assertion

/-!
# Taking out declarations

The declarations of `component` are taken out of the body of a test in rounds. Each round looks for the first line that
begins with the head of one, takes the statement out, and leaves the search to begin anew, because what stood behind
the statement may stand at the beginning of a line now. A head does not go over the end of its line. So none arises
before the place of a cut, and the rounds go through the body from the left: what they take out are stretches of the
body itself.

## Main definitions

* `IsDeclarationHead`: the head of a declaration.
* `Undeclared`: a text in which no line begins with such a head.
* `DeclarationRounds`: the rounds of the removal, without a bound on their number.
* `Cleared`: declarations taken out of a text from the left.

## Main statements

* `find?_componentDeclaration_eq_none_iff`: the search finds a head unless there is none.
* `Undeclared.length_le_start`, `undeclared_take_of_find?`: the first head stands behind lines without one, and the
  lines before it have none.
* `exists_cleared`: the rounds go through a text from the left, and come to an end.
* `declarations_removed`: what is left of every body.
-/

namespace AngularUplift

/-! ### Heads of declarations -/

/-- The head of a declaration of `component`, before the given text. -/
structure IsDeclarationHead (head rest : Text) : Prop where
  /-- The word `component` behind the word `var`, with spaces and tabs in front of both. -/
  written : ∃ indent space, head = indent ++ (txt "var" ++ (space ++ txt "component")) ∧ (∀ c ∈ indent, isGap c) ∧
    space ≠ [] ∧ ∀ c ∈ space, isGap c
  /-- The word goes no further. -/
  endsWord : ∀ c ∈ rest.head?, isWord c = false

namespace IsDeclarationHead

variable {head rest : Text}

/-- A head ends with a letter, which is no line break. -/
theorem getLast?_eq (h : IsDeclarationHead head rest) : head.getLast? = some 't' := by
  obtain ⟨indent, space, rfl, -⟩ := h.written
  have hword : txt "component" = txt "componen" ++ ['t'] := rfl
  rw [hword, ← List.append_assoc, ← List.append_assoc, ← List.append_assoc, List.getLast?_concat]

theorem ne_nil (h : IsDeclarationHead head rest) : head ≠ [] := by
  rintro rfl
  exact nomatch h.getLast?_eq

/-- A head stands on one line. -/
theorem break_notMem (h : IsDeclarationHead head rest) : '\n' ∉ head := by
  obtain ⟨indent, space, rfl, hindent, -, hspace⟩ := h.written
  have hwords : '\n' ∉ txt "var" ∧ '\n' ∉ txt "component" := by decide
  simp only [List.mem_append, not_or]
  exact ⟨break_notMem_of_isGap hindent, hwords.1, break_notMem_of_isGap hspace, hwords.2⟩

/-- What comes behind the line of a head does not matter to it. -/
theorem append {front : Text} (h : IsDeclarationHead head rest) (hline : (front ++ (head ++ rest)).EndsLine)
    (text : Text) : IsDeclarationHead head (rest ++ text) := by
  refine ⟨h.written, ?_⟩
  cases rest with
  | nil =>
    -- The text would end with the last letter of the head.
    have hlast := hline 't' (by rw [List.append_nil, List.getLast?_append, h.getLast?_eq]; rfl)
    exact absurd hlast (by decide)
  | cons c rest => exact h.endsWord

end IsDeclarationHead

/-- A declaration is read from the texts that begin with the head of one. -/
theorem read_componentDeclaration_iff {text rest : Text} {value : Unit} :
    componentDeclaration.read text = some (value, rest) ↔
      ∃ head, text = head ++ rest ∧ IsDeclarationHead head rest := by
  constructor
  · intro h
    obtain ⟨indent, space, htext, hindent, hne, hspace, hnext⟩ := read_componentDeclaration h
    exact ⟨_, htext, ⟨indent, space, rfl, hindent, hne, hspace⟩, hnext⟩
  · rintro ⟨_, rfl, ⟨indent, space, rfl, hindent, hne, hspace⟩, hnext⟩
    -- Both runs of spaces and tabs go up to a letter.
    have hletters : isGap 'v' = false ∧ isGap 'c' = false := by decide
    simp only [componentDeclaration, Reader.bind_eq_some_iff, List.append_assoc]
    exact ⟨indent, _, Reader.run_append hindent (Reader.head_cons hletters.1), (), _,
      Reader.exactly_eq_some_iff.2 rfl, space, _, Reader.run1_append hne hspace (Reader.head_cons hletters.2), (), _,
      Reader.exactly_eq_some_iff.2 rfl, Reader.notNext_eq hnext⟩

/-- At a position there is an occurrence when a line begins there, and the head of a declaration with it. -/
theorem isSome_foundAt?_componentDeclaration_iff {text : Text} {n : Nat} :
    (componentDeclaration.foundAt? text n).isSome ↔
      ∃ front head rest, text = front ++ (head ++ rest) ∧ front.length = n ∧ front.EndsLine ∧
        IsDeclarationHead head rest := by
  rw [Pattern.isSome_foundAt?_iff]
  constructor
  · rintro ⟨hle, hline, hread⟩
    obtain ⟨⟨value, rest⟩, hread⟩ := Option.isSome_iff_exists.1 hread
    obtain ⟨head, hdrop, hhead⟩ := read_componentDeclaration_iff.1 hread
    refine ⟨text.take n, head, rest, ?_, List.length_take_of_le hle, ?_, hhead⟩
    · rw [← hdrop, List.take_append_drop]
    · exact (lineStart_reverse_iff (text.drop n)).1 hline
  · rintro ⟨front, head, rest, rfl, rfl, hline, hhead⟩
    rw [List.take_left, List.drop_left]
    have hread : componentDeclaration.read (head ++ rest) = some ((), rest) :=
      read_componentDeclaration_iff.2 ⟨head, rfl, hhead⟩
    exact ⟨by simp, (lineStart_reverse_iff (head ++ rest)).2 hline, Option.isSome_of_eq_some hread⟩

/-! ### Texts without a head -/

/-- No line of a text begins with the head of a declaration. -/
def Undeclared (text : Text) : Prop :=
  ∀ front head rest, text = front ++ (head ++ rest) → front.EndsLine → ¬IsDeclarationHead head rest

theorem undeclared_nil : Undeclared [] := by
  intro front head rest hsplit _ hhead
  have hnil := List.append_eq_nil_iff.1 (List.append_eq_nil_iff.1 hsplit.symm).2
  exact hhead.ne_nil hnil.1

/-- The search finds a head unless there is none. -/
theorem find?_componentDeclaration_eq_none_iff {text : Text} :
    componentDeclaration.find? text = none ↔ Undeclared text := by
  constructor
  · rintro hfind front head rest rfl hline hhead
    have hsome := isSome_foundAt?_componentDeclaration_iff.2 ⟨front, head, rest, rfl, rfl, hline, hhead⟩
    rw [Pattern.foundAt?_of_find?_eq_none hfind] at hsome
    exact nomatch hsome
  · intro h
    cases hfind : componentDeclaration.find? text with
    | none => rfl
    | some found =>
      obtain ⟨front, head, rest, htext, -, hline, hhead⟩ :=
        isSome_foundAt?_componentDeclaration_iff.1 (Pattern.isLeast_of_find? hfind).1
      exact absurd hhead (h front head rest htext hline)

/-- A head that begins among the first lines of a text is a head in these lines. -/
theorem exists_head_of_append {lines text front head rest : Text} (hlines : lines.EndsLine)
    (hsplit : lines ++ text = front ++ (head ++ rest)) (hlt : front.length < lines.length)
    (h : IsDeclarationHead head rest) :
    ∃ before, lines = front ++ (head ++ before) ∧ IsDeclarationHead head before := by
  obtain rfl | ⟨ended, rfl⟩ := hlines.eq_nil_or
  · exact absurd hlt (Nat.not_lt_zero _)
  -- The head begins before the line break, and ends before it as well.
  obtain ⟨middle, rfl⟩ : ∃ middle, ended = front ++ middle := by
    have hprefix : front <+: ended ++ ('\n' :: text) := ⟨head ++ rest, by rw [← hsplit]; simp⟩
    rw [List.length_append, List.length_singleton] at hlt
    obtain ⟨middle, hmiddle⟩ := List.prefix_of_prefix_length_le hprefix (List.prefix_append ..) (Nat.le_of_lt_succ hlt)
    exact ⟨middle, hmiddle.symm⟩
  have hrest : middle ++ '\n' :: text = head ++ rest := by simpa using hsplit
  obtain ⟨more, rfl, rfl⟩ := Text.append_cons_eq_append hrest h.break_notMem
  refine ⟨more ++ ['\n'], by simp, h.written, fun c hc => h.endsWord c ?_⟩
  cases more with
  | nil => exact hc
  | cons d more => exact hc

/-- Behind lines without a head the first head does not begin earlier. -/
theorem Undeclared.length_le_start {lines text : Text} {found : Occurrence Unit} (h : Undeclared lines)
    (hlines : lines.EndsLine) (hfind : componentDeclaration.find? (lines ++ text) = some found) :
    lines.length ≤ found.start := by
  by_contra hlt
  obtain ⟨front, head, rest, hsplit, hlength, hline, hhead⟩ :=
    isSome_foundAt?_componentDeclaration_iff.1 (Pattern.isLeast_of_find? hfind).1
  obtain ⟨before, hbefore, hhead⟩ := exists_head_of_append hlines hsplit (by omega) hhead
  exact h front head before hbefore hline hhead

/-- The lines before the first head have none. -/
theorem undeclared_take_of_find? {text : Text} {found : Occurrence Unit}
    (hfind : componentDeclaration.find? text = some found) : Undeclared (text.take found.start) := by
  obtain ⟨-, hleft, -⟩ := Pattern.read_of_find? hfind
  have hlines : Text.EndsLine (text.take found.start) := (lineStart_reverse_iff (text.drop found.start)).1 hleft
  intro front head rest hsplit hline hhead
  -- It would be a head in the whole text, and begin before the first one.
  have htext : text = front ++ (head ++ (rest ++ text.drop found.start)) := by
    rw [← List.append_assoc head, ← List.append_assoc, ← hsplit, List.take_append_drop]
  have hsome := isSome_foundAt?_componentDeclaration_iff.2
    ⟨front, head, rest ++ text.drop found.start, htext, rfl, hline, hhead.append (hsplit ▸ hlines) _⟩
  have hle := (Pattern.isLeast_of_find? hfind).2 hsome
  have hlength := List.length_take_le found.start text
  have hpos := List.length_pos_of_ne_nil hhead.ne_nil
  rw [hsplit, List.length_append, List.length_append] at hlength
  omega

/-! ### The rounds -/

/-- The rounds of the removal, with their number: as long as there is a head, the statement with the first one is taken
out. -/
inductive DeclarationRounds : (rounds : Nat) → (body result : Text) → Prop
  /-- There is no head. -/
  | finish {body : Text} (hfind : componentDeclaration.find? body = none) : DeclarationRounds 0 body body
  /-- The statement with the first head goes. -/
  | round {rounds : Nat} {body result : Text} {found : Occurrence Unit}
      (hfind : componentDeclaration.find? body = some found)
      (hrest : DeclarationRounds rounds (withoutDeclaration body found) result) :
      DeclarationRounds (rounds + 1) body result

namespace DeclarationRounds

variable {rounds others : Nat} {body result other : Text}

/-- The rounds end in one way only. -/
theorem unique (h : DeclarationRounds rounds body result) (hother : DeclarationRounds others body other) :
    rounds = others ∧ result = other := by
  induction h generalizing others with
  | finish hfind =>
    cases hother with
    | finish => exact ⟨rfl, rfl⟩
    | round hfound => exact nomatch hfind.symm.trans hfound
  | round hfind _ ih =>
    cases hother with
    | finish hnone => exact nomatch hfind.symm.trans hnone
    | round hfound hrest =>
      obtain rfl := Option.some.inj (hfind.symm.trans hfound)
      obtain ⟨rfl, rfl⟩ := ih hrest
      exact ⟨rfl, rfl⟩

/-- When the rounds have ended there is no head. -/
theorem find?_eq_none (h : DeclarationRounds rounds body result) : componentDeclaration.find? result = none := by
  induction h with
  | finish hfind => exact hfind
  | round _ _ ih => exact ih

end DeclarationRounds

/-- Declarations taken out of a text from the left, each of which begins a line behind what was kept. -/
inductive Cleared : (kept text : Text) → (pieces : List Text) → (result : Text) → Prop
  /-- The text is kept. -/
  | done (kept text : Text) : Cleared kept text [] text
  /-- A part of the text is kept, and the declaration behind it goes. -/
  | cut {kept front piece back result : Text} {pieces : List Text}
      (hdeclaration : Excision.IsDeclaration ⟨kept ++ front, piece, back⟩)
      (hrest : Cleared (kept ++ front) back pieces result) :
      Cleared kept (front ++ (piece ++ back)) (piece :: pieces) (front ++ result)

/-- A declaration is at least as long as its two words and a space between them. -/
theorem Excision.IsDeclaration.length_le {declaration : Excision} (h : declaration.IsDeclaration) :
    (txt "var component").length ≤ declaration.middle.length := by
  obtain ⟨indent, space, statement, ending, hmiddle, -, hspace, -⟩ := h.statement
  have hpos := List.length_pos_of_ne_nil hspace
  have hwords : (txt "var").length = 3 ∧ (txt "component").length = 9 ∧ (txt "var component").length = 13 := by decide
  rw [hmiddle]
  simp only [List.length_append]
  omega

namespace Cleared

variable {kept text result : Text} {pieces : List Text}

/-- What is left stands in the text in the same order. -/
theorem sublist (h : Cleared kept text pieces result) : result.Sublist text := by
  induction h with
  | done kept text => exact List.Sublist.refl text
  | cut _ _ ih => exact (ih.trans (List.sublist_append_right ..)).append_left _

/-- There are no more declarations in a text than have room in it. -/
theorem length_le (h : Cleared kept text pieces result) :
    (txt "var component").length * pieces.length ≤ text.length := by
  induction h with
  | done kept text => exact Nat.zero_le _
  | @cut kept front piece back result pieces hdeclaration _ ih =>
    have hpiece : (txt "var component").length ≤ piece.length := hdeclaration.length_le
    rw [List.length_cons, Nat.mul_succ, List.length_append, List.length_append]
    omega

end Cleared

/-- Behind lines without a head the rounds go through a text from the left. With more fuel than there are characters in
the text they come to an end. -/
theorem exists_cleared {fuel : Nat} {kept text : Text} (hkept : Undeclared kept) (hlines : kept.EndsLine)
    (hfuel : text.length < fuel) :
    ∃ pieces result, removeDeclarationRounds fuel (kept ++ text) = kept ++ result ∧ Cleared kept text pieces result ∧
      DeclarationRounds pieces.length (kept ++ text) (kept ++ result) := by
  -- A round uses one unit of fuel, and shortens what is behind the kept lines by a head at least.
  induction fuel generalizing kept text with
  | zero => exact absurd hfuel (Nat.not_lt_zero _)
  | succ fuel ih =>
    cases hfind : componentDeclaration.find? (kept ++ text) with
    | none => exact ⟨[], text, removeDeclarationRounds_of_find?_eq_none hfind _, .done kept text, .finish hfind⟩
    | some found =>
      obtain ⟨piece, back, hbody, hnext, hdeclaration⟩ := exists_declaration hfind
      have hbefore := undeclared_take_of_find? hfind
      -- The first head is one of the text, so that what is kept grows by a part of the text.
      obtain ⟨front, hfront⟩ : ∃ front, (kept ++ text).take found.start = kept ++ front := by
        have hle := hkept.length_le_start hlines hfind
        exact ⟨text.take (found.start - kept.length), by rw [List.take_append, List.take_of_length_le hle]⟩
      rw [hfront] at hbody hnext hdeclaration hbefore
      obtain rfl : text = front ++ (piece ++ back) := by
        rw [List.append_assoc, List.append_assoc] at hbody
        exact List.append_cancel_left hbody
      have hshorter : back.length < fuel := by
        have hpiece : (txt "var component").length ≤ piece.length := hdeclaration.length_le
        have hwords : (txt "var component").length = 13 := rfl
        rw [List.length_append, List.length_append] at hfuel
        omega
      obtain ⟨pieces, result, hremoved, hcleared, hrounds⟩ := ih hbefore hdeclaration.endsLine hshorter
      refine ⟨piece :: pieces, front ++ result, ?_, .cut hdeclaration hcleared, ?_⟩
      · rw [removeDeclarationRounds_of_find?_eq_some hfind, hnext, hremoved, List.append_assoc]
      · rw [← hnext, List.append_assoc] at hrounds
        exact .round hfind hrounds

/-! ### What is left of a body -/

/-- The rounds of the removal end on every body, after as many of them as there are pieces taken out of it from the
left. Each piece begins with the head of a declaration at the beginning of a line, and goes up to the end of the
statement, with a line break behind it. No line of what is left begins with such a head, so that a second removal
leaves it as it is. -/
theorem declarations_removed (body : Text) :
    ∃ pieces : List Text,
      (txt "var component").length * pieces.length ≤ body.length ∧
      (∀ rounds result, DeclarationRounds rounds body result ↔
        rounds = pieces.length ∧ result = removeComponentDeclarations body) ∧
      Cleared [] body pieces (removeComponentDeclarations body) ∧
      (removeComponentDeclarations body).Sublist body ∧
      Undeclared (removeComponentDeclarations body) ∧
      removeComponentDeclarations (removeComponentDeclarations body) = removeComponentDeclarations body := by
  have hstart : Text.EndsLine [] := nofun
  obtain ⟨pieces, result, hremoved, hcleared, hrounds⟩ :=
    exists_cleared undeclared_nil hstart (Nat.lt_succ_self body.length)
  rw [List.nil_append, List.nil_append] at hremoved hrounds
  obtain rfl : removeComponentDeclarations body = result := hremoved
  have hnone := hrounds.find?_eq_none
  refine ⟨pieces, hcleared.length_le, fun rounds result => ⟨fun h => h.unique hrounds, ?_⟩, hcleared, hcleared.sublist,
    find?_componentDeclaration_eq_none_iff.1 hnone, ?_⟩
  · rintro ⟨rfl, rfl⟩
    exact hrounds
  · exact removeDeclarationRounds_of_find?_eq_none hnone _

/-- The second head begins a line only when the first statement is gone. -/
example : removeComponentDeclarations (txt "var component = 1; var component = f(\n2\n);\nrun();") = txt "run();" := by
  decide +kernel

end AngularUplift
