import AngularUplift.Proofs.Harvest.Form
import AngularUplift.Proofs.Receiver
import AngularUplift.Proofs.Suite.Block
import AngularUplift.Proofs.Suite.Expectation
import AngularUplift.Proofs.Text.Comment
import AngularUplift.Proofs.Text.Ink
import Mathlib

/-!
# Assertions of component tests

The body of a component test is made in textual steps. Most of them exchange a piece for another, and none of these
touches the head of an assertion: the exchanged pieces hold a character of a name that no head holds, and behind it
only characters of names and dots. White space may become other white space, since a head does not care which it has.
What is left are the steps that cut pieces out of the body.

## Main definitions

* `Expectation.Alike`: two texts that can stand for each other at the end of a body without a change in its number of
  heads.
* `Expectation.isInert`: a word that no head reaches over.
* `Excised`: pieces cut out one after the other.
* `Excision.IsDigestCall`, `Excision.IsCompileLine`, `Excision.IsDeclaration`: the pieces that are cut out of the body of
  a test.
* `withoutSetUp`, `adapted`, `completed`: the steps before the declarations go, and the one after.

## Main statements

* `Expectation.alike_of_isInert`, `Expectation.alike_blank`: exchanges that keep the number of heads.
* `expectationCount_adapted`, `expectationCount_completed`: the steps that keep it.
* `expectations_accounted`: the number of assertions of a test changes by what is cut out of its body.
* `compiled_assertion_lost`: an assertion that is cut out.
-/

namespace AngularUplift

namespace Expectation

/-! ### Counting behind a character -/

/-- The number of heads in a text in which a name may or may not begin at once. -/
def count (free : Bool) (text : Text) : Nat := (heads free 0 text).length

theorem expectationCount_eq_count (text : Text) : expectationCount text = count true text := expectationCount_eq text

theorem count_cons (free : Bool) (c : Char) (text : Text) :
    count free (c :: text) =
      (if free && (expectation.read (c :: text)).isSome then 1 else 0) + count (!isMemberContext c) text := by
  have hfirst : (if free then headAt 0 (c :: text) else []).length =
      if free && (expectation.read (c :: text)).isSome then 1 else 0 := by
    rw [headAt]
    cases free <;> cases expectation.read (c :: text) <;> rfl
  rw [count, heads, List.length_append, hfirst, length_heads _ _ 0]
  rfl

theorem count_cons_of_ne {c : Char} (hc : c ≠ 'e') (free : Bool) (text : Text) :
    count free (c :: text) = count (!isMemberContext c) text := by
  rw [count_cons, read_cons_eq_none hc]
  simp

/-- The heads on both sides of a place are counted apart when none reaches over it. -/
theorem count_append {after : Text}
    (h : ∀ text value rest, expectation.read (text ++ after) = some (value, rest) → after.length ≤ rest.length)
    (free : Bool) (front : Text) :
    count free (front ++ after) = count free front + count (freeAfter free front) after := by
  induction front generalizing free with
  | nil => simp [count, heads_nil, freeAfter]
  | cons c front ih =>
    have hsome : (expectation.read (c :: front ++ after)).isSome = (expectation.read (c :: front)).isSome := by
      cases hread : expectation.read (c :: front ++ after) with
      | some found =>
        obtain ⟨left, -, hpart⟩ := read_of_append hread (h _ _ _ hread)
        rw [hpart]
        rfl
      | none =>
        cases hpart : expectation.read (c :: front) with
        | none => rfl
        | some found =>
          rw [read_append hpart after] at hread
          cases hread
    rw [List.cons_append] at hsome ⊢
    rw [count_cons, count_cons, hsome, ih, freeAfter, Nat.add_assoc]

/-! ### Characters that no head holds -/

/-- A character that no head of an assertion holds. -/
def isForeign (c : Char) : Bool := !(txt "expect(").elem c && !isBlank c

theorem not_isForeign_of_mem {space : Text} (hspace : ∀ c ∈ space, isBlank c) {c : Char}
    (hc : c ∈ txt "expect" ++ space) : ¬isForeign c := by
  have hletter : (txt "expect").all (!isForeign ·) := by decide
  rcases List.mem_append.1 hc with hword | hblank
  · simpa using List.all_eq_true.1 hletter c hword
  · simp [isForeign, hspace c hblank]

/-- No head reaches over a text without an opening parenthesis to a character that no head holds. -/
theorem length_le_of_read {lead after : Text} (hlead : '(' ∉ lead) (hafter : ∀ c ∈ after.head?, isForeign c)
    (text : Text) (value : Unit) (rest : Text) (hread : expectation.read (text ++ (lead ++ after)) = some (value, rest)) :
    (lead ++ after).length ≤ rest.length := by
  by_contra hlength
  obtain ⟨across, space, hacross, hhead, hspace⟩ := read_over hread (Nat.lt_of_not_le hlength)
  obtain ⟨more, rfl, rfl⟩ := Text.append_cons_eq_append hacross.symm hlead
  cases more with
  | nil => exact absurd (hafter '(' rfl) (by decide)
  | cons c more => exact absurd (hafter c rfl) (not_isForeign_of_mem hspace (hhead ▸ by simp))

/-- Without a parenthesis there is no head. -/
theorem count_eq_zero {text : Text} (h : '(' ∉ text) (free : Bool) : count free text = 0 := by
  induction text generalizing free with
  | nil => rfl
  | cons c text ih =>
    have hnone : expectation.read (c :: text) = none := by
      refine Option.eq_none_iff_forall_ne_some.2 fun ⟨value, rest⟩ hread => ?_
      obtain ⟨space, heq, -⟩ := read_iff.1 hread
      rw [heq] at h
      simp at h
    rw [count_cons, hnone, ih fun hmem => h (List.mem_cons_of_mem c hmem)]
    simp

/-- The heads before a character that no head holds, and those behind it. -/
theorem count_foreign {lead : Text} (hlead : '(' ∉ lead) {c : Char} (hc : isForeign c) (free : Bool)
    (front rest : Text) :
    count free (front ++ (lead ++ c :: rest)) = count free front + count (!isMemberContext c) rest := by
  have hforeign : ∀ d ∈ (c :: rest).head?, isForeign d := fun d hd => Option.mem_some.1 hd ▸ hc
  have hne : c ≠ 'e' := by
    rintro rfl
    exact absurd hc (by decide)
  have hbehind : ∀ free, count free (lead ++ c :: rest) = count free lead + count (freeAfter free lead) (c :: rest) :=
    fun free => count_append (length_le_of_read (List.not_mem_nil) hforeign) free lead
  rw [count_append (length_le_of_read hlead hforeign), hbehind, count_eq_zero hlead, Nat.zero_add,
    count_cons_of_ne hne]

/-- The end of a name holds no head. -/
theorem count_member {text : Text} (h : ∀ c ∈ text, isMemberContext c) (rest : Text) :
    count false (text ++ rest) = count false rest := by
  induction text with
  | nil => rfl
  | cons c text ih =>
    obtain ⟨hc, htext⟩ := List.forall_mem_cons.1 h
    rw [List.cons_append, count_cons, hc, Bool.false_and, Bool.not_true, ih htext]
    simp

/-! ### Exchanges -/

/-- Two texts that can stand for each other at the end of a body without a change in its number of assertions. -/
def Alike (text other : Text) : Prop := ∀ front, expectationCount (front ++ text) = expectationCount (front ++ other)

theorem leftCongruence_alike : LeftCongruence Alike where
  refl _ _ := rfl
  trans hfirst hsecond front := (hfirst front).trans (hsecond front)
  append front _ _ h before := by rw [← List.append_assoc, ← List.append_assoc, h]

theorem Alike.count_eq {text other : Text} (h : Alike text other) : expectationCount text = expectationCount other :=
  h []

/-- A word without a parenthesis up to a character of a name that no head holds, and with names and dots behind it. -/
def isInert : Text → Bool
  | [] => false
  | c :: word => (isForeign c && isMemberContext c && word.all isMemberContext) || (c != '(' && isInert word)

theorem exists_of_isInert {word : Text} (h : isInert word) :
    ∃ lead c tail, word = lead ++ c :: tail ∧ '(' ∉ lead ∧ isForeign c ∧ isMemberContext c ∧
      ∀ d ∈ tail, isMemberContext d := by
  induction word with
  | nil => cases h
  | cons c word ih =>
    rw [isInert, Bool.or_eq_true, Bool.and_eq_true, Bool.and_eq_true, Bool.and_eq_true] at h
    rcases h with ⟨⟨hforeign, hmember⟩, htail⟩ | ⟨hc, hword⟩
    · exact ⟨[], c, word, rfl, List.not_mem_nil, hforeign, hmember, List.all_eq_true.1 htail⟩
    · obtain ⟨lead, d, tail, rfl, hlead, hrest⟩ := ih hword
      refine ⟨c :: lead, d, tail, rfl, ?_, hrest⟩
      rw [List.mem_cons, not_or]
      exact ⟨fun hparen => by simp [← hparen] at hc, hlead⟩

theorem isInert_append {lead word : Text} (hlead : '(' ∉ lead) (h : isInert word) : isInert (lead ++ word) := by
  induction lead with
  | nil => exact h
  | cons c lead ih =>
    rw [List.mem_cons, not_or] at hlead
    rw [List.cons_append, isInert, ih hlead.2]
    simp [Ne.symm hlead.1]

/-- The heads before an inert word, and those behind it, where no name may begin at once. -/
theorem count_of_isInert {word : Text} (h : isInert word) (free : Bool) (front rest : Text) :
    count free (front ++ (word ++ rest)) = count free front + count false rest := by
  obtain ⟨lead, c, tail, rfl, hlead, hforeign, hmember, htail⟩ := exists_of_isInert h
  rw [List.append_assoc, List.cons_append, count_foreign hlead hforeign, hmember, Bool.not_true, count_member htail]

/-- An inert word can be exchanged for another one. -/
theorem alike_of_isInert {word other : Text} (hword : isInert word) (hother : isInert other) (rest : Text) :
    Alike (word ++ rest) (other ++ rest) := by
  intro front
  rw [expectationCount_eq_count, expectationCount_eq_count, count_of_isInert hword, count_of_isInert hother]

/-! ### White space -/

/-- A head may have other white space in the place of its own. -/
theorem isSome_read_blank {space other : Text} (hne : space ≠ []) (hspace : ∀ c ∈ space, isBlank c)
    (hother : ∀ c ∈ other, isBlank c) {text rest : Text}
    (h : (expectation.read (text ++ (space ++ rest))).isSome) :
    (expectation.read (text ++ (other ++ rest))).isSome := by
  obtain ⟨⟨value, left⟩, hread⟩ := Option.isSome_iff_exists.1 h
  by_cases hlength : (space ++ rest).length ≤ left.length
  · -- The head ends before the white space.
    obtain ⟨middle, -, hpart⟩ := read_of_append hread hlength
    rw [read_append hpart]
    rfl
  · obtain ⟨across, inner, hacross, hhead, hinner⟩ := read_over hread (Nat.lt_of_not_le hlength)
    obtain ⟨more, rfl, rfl⟩ := Text.append_cons_eq_append hacross.symm (notMem_of_class hspace (by decide))
    obtain ⟨c, space, rfl⟩ := List.exists_cons_of_ne_nil hne
    have hword : c ∉ txt "expect" := by
      have hletter : (txt "expect").all (!isBlank ·) := by decide
      exact notMem_of_class (List.all_eq_true.1 hletter) (by rw [hspace c List.mem_cons_self, Bool.not_true])
    rw [List.cons_append] at hhead
    obtain ⟨front, rfl, rfl⟩ := Text.append_cons_eq_append hhead hword
    have hblank : ∀ c ∈ front ++ (other ++ more), isBlank c := by
      simp only [List.forall_mem_append, List.forall_mem_cons] at hinner ⊢
      exact ⟨hinner.1, hother, hinner.2.2.2⟩
    have hfound : expectation.read ((txt "expect" ++ front) ++ (other ++ (more ++ '(' :: left))) = some ((), left) :=
      read_iff.2 ⟨front ++ (other ++ more), by simp only [List.append_assoc], hblank⟩
    rw [hfound]
    rfl

/-- White space holds no head, and a name may begin behind it. -/
theorem count_space {space : Text} (hne : space ≠ []) (hspace : ∀ c ∈ space, isBlank c) (free : Bool) (rest : Text) :
    count free (space ++ rest) = count true rest := by
  induction space generalizing free with
  | nil => exact absurd rfl hne
  | cons c space ih =>
    obtain ⟨hc, htail⟩ := List.forall_mem_cons.1 hspace
    have hletter : c ≠ 'e' := by
      rintro rfl
      exact absurd hc (by decide)
    have hdot : c ≠ '.' := by
      rintro rfl
      exact absurd hc (by decide)
    have hcontext : isMemberContext c = false := by simp [isMemberContext, isName_of_isBlank hc, hdot]
    rw [List.cons_append, count_cons_of_ne hletter, hcontext]
    cases space with
    | nil => rfl
    | cons d space => exact ih (List.cons_ne_nil d space) htail _

/-- White space can be exchanged for other white space. -/
theorem alike_blank {space other : Text} (hne : space ≠ []) (hspace : ∀ c ∈ space, isBlank c) (hother : other ≠ [])
    (hblank : ∀ c ∈ other, isBlank c) (rest : Text) : Alike (space ++ rest) (other ++ rest) := by
  have hcount : ∀ front free, count free (front ++ (space ++ rest)) = count free (front ++ (other ++ rest)) := by
    intro front
    induction front with
    | nil => exact fun free => (count_space hne hspace free rest).trans (count_space hother hblank free rest).symm
    | cons c front ih =>
      intro free
      have hsome : (expectation.read (c :: front ++ (space ++ rest))).isSome =
          (expectation.read (c :: front ++ (other ++ rest))).isSome :=
        Bool.eq_iff_iff.2 ⟨isSome_read_blank hne hspace hblank, isSome_read_blank hother hblank hspace⟩
      simp only [List.cons_append] at hsome ⊢
      rw [count_cons, count_cons, hsome, ih]
  intro front
  rw [expectationCount_eq_count, expectationCount_eq_count, hcount]

/-- White space before more of it, or at the end, can be left out. -/
theorem alike_append_left {space rest : Text} (hspace : ∀ c ∈ space, isBlank c) (hrest : ∀ c ∈ rest.head?, isBlank c) :
    Alike rest (space ++ rest) := by
  cases rest with
  | nil =>
    intro front
    have hparen : '(' ∉ space := notMem_of_class hspace (by decide)
    have hnone : ∀ c ∈ ([] : Text).head?, isForeign c := by simp
    rw [expectationCount_eq_count, expectationCount_eq_count, count_append (length_le_of_read hparen hnone),
      List.append_nil, List.append_nil, count_eq_zero hparen, Nat.add_zero]
  | cons c rest =>
    have hc : isBlank c := hrest c rfl
    have halike := alike_blank (List.cons_ne_nil c []) (List.forall_mem_singleton.2 hc)
      (List.append_ne_nil_of_right_ne_nil space (List.cons_ne_nil c []))
      (List.forall_mem_append.2 ⟨hspace, List.forall_mem_singleton.2 hc⟩) rest
    rwa [List.append_assoc] at halike

/-! ### The steps that exchange pieces -/

/-- Trimming a text that begins with a word after white space. -/
theorem trim_word {indent word : Text} (hindent : ∀ c ∈ indent, isBlank c) (hne : word ≠ [])
    (hink : ∀ c ∈ word, isBlank c = false) (body : Text) :
    Text.trim (indent ++ (word ++ body)) = word ++ Text.trimRight body := by
  obtain ⟨trail, hbody, htrail⟩ := Text.exists_trimRight body
  have hsplit : indent ++ (word ++ body) = indent ++ ((word ++ Text.trimRight body) ++ trail) := by
    rw [List.append_assoc, ← hbody]
  rw [hsplit, Text.trim_append_left hindent, Text.trim_append_right htrail]
  refine Text.trim_eq_self (fun c hc => ?_) fun c hc => ?_
  · obtain ⟨d, word, rfl⟩ := List.exists_cons_of_ne_nil hne
    exact hink c (Option.mem_some.1 hc ▸ List.mem_cons_self)
  · rw [List.getLast?_append, Option.mem_def, Option.or_eq_some_iff] at hc
    rcases hc with hlast | ⟨-, hlast⟩
    · exact Text.isBlank_getLast_trimRight hlast
    · exact hink c (List.mem_of_getLast? hlast)

/-- Trimming the right end of a piece that does not end with white space, or that stands before more of it or at the
end. -/
theorem alike_trimRight {body rest : Text}
    (hend : (∀ c ∈ body.getLast?, isBlank c = false) ∨ ∀ c ∈ rest.head?, isBlank c) :
    Alike (Text.trimRight body ++ rest) (body ++ rest) := by
  rcases hend with hlast | hblank
  · rw [Text.trimRight, Text.dropRightWhile_eq_self hlast]
    exact leftCongruence_alike.refl _
  · obtain ⟨trail, hbody, htrail⟩ := Text.exists_trimRight body
    have hkept := leftCongruence_alike.append (Text.trimRight body) (alike_append_left htrail hblank)
    rwa [← List.append_assoc, ← hbody] at hkept

/-- Putting a mark before a piece that begins with an inert word, with the white space at its ends left out. -/
theorem alike_comment {mark indent word body rest : Text} (hmark : '(' ∉ mark) (hindent : ∀ c ∈ indent, isBlank c)
    (hword : isInert word) (hink : word.all (!isBlank ·))
    (hend : (∀ c ∈ body.getLast?, isBlank c = false) ∨ ∀ c ∈ rest.head?, isBlank c) :
    Alike (mark ++ Text.trim (indent ++ (word ++ body)) ++ rest) (indent ++ (word ++ body) ++ rest) := by
  have hne : word ≠ [] := by
    rintro rfl
    cases hword
  have hparen : '(' ∉ indent := notMem_of_class hindent (by decide)
  have hexchange := alike_of_isInert (isInert_append hmark hword) (isInert_append hparen hword)
    (Text.trimRight body ++ rest)
  have hkept := leftCongruence_alike.append (indent ++ word) (alike_trimRight hend)
  rw [trim_word hindent hne (fun c hc => by simpa using List.all_eq_true.1 hink c hc)]
  simpa only [List.append_assoc] using leftCongruence_alike.trans hexchange hkept

/-- An assignment begins with one of two words, and ends with a semicolon or before a line break. -/
theorem read_elementAssignment {text rest : Text} {value : Unit}
    (h : elementAssignment.read text = some (value, rest)) :
    ∃ word ∈ [txt "var", txt "element"], ∃ body, text = word ++ body ++ rest ∧
      ((∀ c ∈ body.getLast?, isBlank c = false) ∨ ∀ c ∈ rest.head?, isBlank c) := by
  simp only [elementAssignment, Reader.bind_eq_some_iff] at h
  obtain ⟨_, _, hvar, _, _, helement, gap, _, hgap, _, _, hsign, _, _, hnext, run, after, hrun, hmark⟩ := h
  obtain rfl := Reader.exactly_eq_some_iff.1 helement
  obtain ⟨rfl, -⟩ := Reader.run_eq_some hgap
  obtain rfl := Reader.exactly_eq_some_iff.1 hsign
  obtain ⟨rfl, -⟩ := Reader.notNext_eq_some hnext
  obtain ⟨rfl, -⟩ := Reader.run_eq_some hrun
  have hstop := Reader.head_of_run hrun
  -- After the run comes a semicolon, which is taken, or a line break, or nothing.
  obtain ⟨mark, rfl, hend⟩ : ∃ mark, after = mark ++ rest ∧
      ((∀ lead : Text, ∀ c ∈ (lead ++ mark).getLast?, isBlank c = false) ∨ ∀ c ∈ rest.head?, isBlank c) := by
    rcases Reader.optionally_eq_some hmark with rfl | ⟨rfl, hnone⟩
    · refine ⟨[';'], rfl, .inl fun lead c hc => ?_⟩
      rw [List.getLast?_concat, Option.mem_some] at hc
      rw [← hc]
      decide
    · refine ⟨[], rfl, .inr fun c hc => ?_⟩
      obtain ⟨rest, rfl⟩ := List.head?_eq_some_iff.1 hc
      have hsemicolon : c ≠ ';' := by
        rintro rfl
        exact hnone ⟨rest, rfl⟩
      have hbreak : c = '\n' := by simpa [hsemicolon] using hstop c rfl
      rw [hbreak]
      decide
  obtain ⟨r, hr, hread⟩ := Reader.firstOf_eq_some hvar
  rcases List.mem_pair.1 hr with rfl | rfl
  · obtain ⟨_, _, hexactly, hread⟩ := Reader.bind_eq_some_iff.1 hread
    obtain ⟨space, _, hspace, hread⟩ := Reader.bind_eq_some_iff.1 hread
    obtain ⟨-, rfl⟩ := Reader.pure_eq_some_iff.1 hread
    obtain ⟨rfl, -⟩ := Reader.run1_eq_some hspace
    obtain rfl := Reader.exactly_eq_some_iff.1 hexactly
    exact ⟨txt "var", by simp, space ++ (txt "element" ++ (gap ++ (['='] ++ (run ++ mark)))),
      by simp only [List.append_assoc], hend.imp_left fun hlast => by
        simpa only [List.append_assoc] using hlast (space ++ (txt "element" ++ (gap ++ (['='] ++ run))))⟩
  · obtain ⟨-, rfl⟩ := Reader.pure_eq_some_iff.1 hread
    exact ⟨txt "element", by simp, gap ++ (['='] ++ (run ++ mark)), by simp only [List.append_assoc],
      hend.imp_left fun hlast => by simpa only [List.append_assoc] using hlast (gap ++ (['='] ++ run))⟩

/-- A dump line begins with a gap and a word, and goes on up to a line break. -/
theorem read_dumpLine {text rest : Text} {value : Unit} (h : dumpLine.read text = some (value, rest)) :
    ∃ indent body, text = indent ++ (txt "dump" ++ body) ++ rest ∧ (∀ c ∈ indent, isGap c) ∧ '\n' ∉ body ∧
      ∀ c ∈ rest.head?, c = '\n' := by
  simp only [dumpLine, Reader.bind_eq_some_iff] at h
  obtain ⟨indent, _, hgap, _, _, hword, _, _, hnext, body, _, hrun, hpure⟩ := h
  obtain ⟨-, rfl⟩ := Reader.pure_eq_some_iff.1 hpure
  obtain ⟨rfl, hindent⟩ := Reader.run_eq_some hgap
  obtain rfl := Reader.exactly_eq_some_iff.1 hword
  obtain ⟨rfl, -⟩ := Reader.notNext_eq_some hnext
  have hstop := Reader.head_of_run hrun
  obtain ⟨rfl, hbody⟩ := Reader.run_eq_some hrun
  refine ⟨indent, body, by simp only [List.append_assoc], hindent, ?_, fun c hc => by simpa using hstop c hc⟩
  exact notMem_of_class hbody (by decide)

/-- Commenting out the assignments to the element keeps the heads in them. -/
theorem alike_elementAssignment (body : Text) :
    Alike (commentOccurrences (txt "\n// ") elementAssignment body) body := by
  refine Pattern.related_replaceWith leftCongruence_alike (fun after value rest hread => ?_) body
  obtain ⟨word, hword, body, rfl, hend⟩ := read_elementAssignment hread
  have hmark : '(' ∉ txt "\n// " := by decide
  have hwords : [txt "var", txt "element"].all fun word => isInert word && word.all (!isBlank ·) := by decide
  obtain ⟨hinert, hink⟩ := Bool.and_eq_true_iff.1 (List.all_eq_true.1 hwords word hword)
  have hcomment : Alike (txt "\n// " ++ Text.trim ([] ++ (word ++ body)) ++ rest) ([] ++ (word ++ body) ++ rest) :=
    alike_comment hmark (List.forall_mem_nil _) hinert hink hend
  exact ⟨word ++ body, rfl, hcomment⟩

/-- Commenting out the dump lines keeps the heads in them. -/
theorem alike_dumpLine (body : Text) : Alike (commentOccurrences (txt "// ") dumpLine body) body := by
  refine Pattern.related_replaceWith leftCongruence_alike (fun after value rest hread => ?_) body
  obtain ⟨indent, body, rfl, hindent, -, hend⟩ := read_dumpLine hread
  have hmark : '(' ∉ txt "// " := by decide
  have hblank : ∀ c ∈ indent, isBlank c := fun c hc => isBlank_of_isGap (hindent c hc)
  have hinert : isInert (txt "dump") := by decide
  have hink : (txt "dump").all (!isBlank ·) := by decide
  have hbreak : ∀ c ∈ rest.head?, isBlank c := fun c hc => (hend c hc).symm ▸ rfl
  exact ⟨indent ++ (txt "dump" ++ body), rfl, alike_comment hmark hblank hinert hink (.inr hbreak)⟩

/-- Exchanging the occurrences of a pattern, when all of them are inert words, for an inert word. -/
theorem alike_replace {p : Pattern Unit} {replacement : Text} (hreplacement : isInert replacement)
    (h : ∀ text value rest, p.read text = some (value, rest) → ∃ word, text = word ++ rest ∧ isInert word)
    (body : Text) : Alike (p.replace replacement body) body := by
  refine Pattern.related_replaceWith leftCongruence_alike (fun after value rest hread => ?_) body
  obtain ⟨word, rfl, hword⟩ := h after value rest hread
  exact ⟨word, rfl, alike_of_isInert hreplacement hword rest⟩

theorem alike_testToComponent (body : Text) : Alike (Renaming.testToComponent.apply body) body := by
  have hinert : [txt "$scope", txt "directive", txt "ctrl", txt "scope"].all isInert := by decide
  have happly : Renaming.testToComponent.apply body =
      Renaming.testToComponent.occurrence.replace (txt "component") body := by
    simp [Renaming.apply, Renaming.testToComponent, Renaming.into, Pattern.replace]
  rw [happly]
  refine alike_replace (by decide) (fun text value rest hread => ?_) body
  obtain ⟨name, hname, htext, -⟩ := Renaming.read_occurrence hread
  exact ⟨name, htext, List.all_eq_true.1 hinert name hname⟩

theorem alike_elementName (body : Text) : Alike (elementName.replace (txt "compiled") body) body := by
  refine alike_replace (by decide) (fun text value rest hread => ?_) body
  obtain ⟨_, _, hword, hnext⟩ := Reader.bind_eq_some_iff.1 hread
  obtain ⟨rfl, -⟩ := Reader.notNext_eq_some hnext
  exact ⟨txt "element", Reader.exactly_eq_some_iff.1 hword, by decide⟩

theorem alike_findCall (body : Text) : Alike (findCall.replace (txt "compiled.querySelectorAll") body) body := by
  refine alike_replace (by decide) (fun text value rest hread => ?_) body
  simp only [findCall, Reader.bind_eq_some_iff] at hread
  obtain ⟨_, _, hreceiver, _, _, hfind, hnext⟩ := hread
  obtain ⟨rfl, -⟩ := Reader.notNext_eq_some hnext
  obtain ⟨receiver, hmem, rfl⟩ := Reader.anyOf_eq_some hreceiver
  obtain rfl := Reader.exactly_eq_some_iff.1 hfind
  have hinert : [txt "component", txt "compiled"].all fun receiver => isInert (receiver ++ txt ".find") := by decide
  exact ⟨receiver ++ txt ".find", by simp only [List.append_assoc], List.all_eq_true.1 hinert receiver hmem⟩

theorem alike_toEqualData (body : Text) : Alike (body.replaceAll (txt ".toEqualData") (txt ".toEqual")) body :=
  Text.related_replaceAll leftCongruence_alike (by decide)
    (fun rest => alike_of_isInert (by decide) (by decide) rest) body

theorem alike_removeEmptyLines (body : Text) : Alike (Text.removeEmptyLines body) body := by
  refine Pattern.related_replaceWith leftCongruence_alike (fun after value rest hread => ?_) body
  obtain ⟨space, rfl, hspace⟩ := Text.read_blankRun hread
  have hbreak : ∀ c ∈ ['\n'], isBlank c := List.forall_mem_singleton.2 (by decide)
  exact ⟨'\n' :: space, rfl, alike_blank (List.cons_ne_nil _ _) hbreak (List.cons_ne_nil _ _)
    (List.forall_mem_cons.2 ⟨by decide, hspace⟩) rest⟩

/-- Trimming keeps the number of heads. -/
theorem expectationCount_trim (body : Text) : expectationCount (Text.trim body) = expectationCount body := by
  obtain ⟨lead, trail, hbody, hlead, htrail⟩ := Text.exists_trim body
  have hnone : ∀ c ∈ ([] : Text).head?, isBlank c := by simp
  have hright := leftCongruence_alike.append (Text.trim body) (alike_append_left htrail hnone)
  rw [List.append_nil, List.append_nil] at hright
  have hleft : expectationCount (lead ++ (Text.trim body ++ trail)) = expectationCount (Text.trim body ++ trail) := by
    rw [expectationCount_eq_count, expectationCount_eq_count]
    cases lead with
    | nil => rfl
    | cons c lead => exact count_space (List.cons_ne_nil c lead) hlead true _
  conv_rhs => rw [hbody]
  rw [hleft]
  exact hright.count_eq

/-! ### The steps that put in statements -/

/-- Behind the end of a call a name may begin. -/
theorem count_call_end (rest : Text) : count false (txt "();\n" ++ rest) = count true rest := by
  show count false ('(' :: ')' :: ';' :: '\n' :: rest) = _
  rw [count_cons_of_ne (by decide), count_cons_of_ne (by decide), count_cons_of_ne (by decide),
    count_cons_of_ne (by decide)]
  rfl

/-- The lines before the first head hold none. -/
theorem count_of_forall_le {front back : Text} (hfront : front.EndsLine)
    (h : ∀ head ∈ heads true 0 (front ++ back), front.length ≤ head.1) :
    count true front = 0 ∧ expectationCount (front ++ back) = count true back := by
  have hfree : freeAfter true front = true := by
    rcases hfront.eq_nil_or with rfl | ⟨lines, rfl⟩
    · rfl
    · rw [freeAfter_append]
      decide
  have hstop := countP_stop_heads true 0 front back
  have hstart := countP_start_heads true 0 front back
  rw [List.countP_eq_zero.2 fun head hmem => ?_] at hstop
  · rw [List.countP_eq_length.2 fun head hmem => ?_, hfree] at hstart
    · exact ⟨hstop.symm, (expectationCount_eq _).trans hstart⟩
    · simpa using h head hmem
  · have hbounds := (bounds_of_mem_heads hmem).2
    have hle := h head hmem
    simp
    omega

/-- Putting in change detection makes no assertion, and takes none away. -/
theorem expectationCount_insertChangeDetection (body : Text) :
    expectationCount (insertChangeDetection body) = expectationCount body := by
  have hcall : isInert (txt "fixture.detectChanges") := by decide
  rw [insertChangeDetection]
  cases hfind : expectation.find? body with
  | none =>
    have hstatement : txt "\nfixture.detectChanges();\n" =
        (txt "\n" ++ txt "fixture.detectChanges") ++ (txt "();\n" ++ []) := by decide
    have hword : isInert (txt "\n" ++ txt "fixture.detectChanges") := by decide
    have hempty : count true [] = 0 := rfl
    dsimp only
    rw [hstatement, expectationCount_eq_count, count_of_isInert hword, count_call_end, expectationCount_eq_count, hempty,
      Nat.add_zero]
  | some found =>
    obtain ⟨front, line, htake, hfront, hline⟩ := Text.exists_last_line (body.take found.start)
    obtain ⟨back, hbody⟩ : ∃ back, body = front ++ back :=
      ⟨line ++ body.drop found.start, by rw [← List.append_assoc, ← htake, List.take_append_drop]⟩
    have hlength : front.length ≤ found.start := by
      have hle := List.length_take_le found.start body
      rw [htake, List.length_append] at hle
      omega
    have hfirst : ∀ head ∈ heads true 0 (front ++ back), front.length ≤ head.1 := fun head hmem =>
      hlength.trans (start_le_of_findFrom hfind head (hbody ▸ hmem))
    obtain ⟨hnone, hall⟩ := count_of_forall_le hfront hfirst
    have hstatement : txt "fixture.detectChanges();\n" = txt "fixture.detectChanges" ++ txt "();\n" := by decide
    dsimp only
    rw [htake, Text.lineStart_append hfront hline, hbody, List.take_left, List.drop_left, hall, hstatement,
      List.append_assoc, List.append_assoc, expectationCount_eq_count, count_of_isInert hcall, count_call_end, hnone,
      Nat.zero_add]

end Expectation

/-! ### Pieces that are cut out -/

/-- Pieces cut out one after the other, each from what the ones before it left. -/
inductive Excised : Text → List Excision → Text → Prop
  /-- No piece is cut out. -/
  | done (text : Text) : Excised text [] text
  /-- The first piece is cut out, and then the others. -/
  | step (excision : Excision) {excisions : List Excision} {text : Text} :
    Excised excision.after excisions text → Excised excision.before (excision :: excisions) text

/-- One cut. -/
theorem Excised.single {text other : Text} {excision : Excision} (htext : text = excision.before)
    (hother : other = excision.after) : Excised text [excision] other := by
  rw [htext, hother]
  exact .step excision (.done _)

/-- The number of heads changes with every cut by the heads that touch it. -/
theorem Excised.count_eq {text other : Text} {excisions : List Excision} (h : Excised text excisions other) :
    expectationCount other + (excisions.map Excision.lost).sum =
      expectationCount text + (excisions.map Excision.joined).sum := by
  induction h with
  | done text => rfl
  | step excision _ ih =>
    have hcut := excision.count_after
    simp only [List.map_cons, List.sum_cons]
    omega

/-- Cuts followed by other cuts. -/
theorem Excised.append {first second third : Text} {excisions others : List Excision}
    (h : Excised first excisions second) (hothers : Excised second others third) :
    Excised first (excisions ++ others) third := by
  induction h with
  | done text => exact hothers
  | step excision _ ih => exact .step excision (ih hothers)

namespace Excision

/-- The call that runs a digest. -/
def IsDigestCall (excision : Excision) : Prop := excision.middle = txt "$scope.$digest();"

/-- A whole line that mentions compilation, with its line break. -/
structure IsCompileLine (excision : Excision) : Prop where
  /-- The line begins where one does. -/
  endsLine : excision.front.EndsLine
  /-- The line mentions compilation, and goes with its line break if it is not the last one. -/
  line : ∃ line ending, excision.middle = line ++ ending ∧ '\n' ∉ line ∧ Text.contains line (txt "compile") ∧
    (ending = ['\n'] ∨ ending = [] ∧ excision.back = [])

/-- A statement that declares `component`, with a line break behind it. -/
structure IsDeclaration (excision : Excision) : Prop where
  /-- The statement begins on a line of its own. -/
  endsLine : excision.front.EndsLine
  /-- The head of the declaration goes, and what the scan for the end of a statement passes over behind it. -/
  statement : ∃ indent space statement ending,
    excision.middle = indent ++ (txt "var" ++ (space ++ (txt "component" ++ (statement ++ ending)))) ∧
      (∀ c ∈ indent, isGap c) ∧ space ≠ [] ∧ (∀ c ∈ space, isGap c) ∧
      (∀ c ∈ (statement ++ (ending ++ excision.back)).head?, isWord c = false) ∧
      statement.length = Text.statementLength {} false (statement ++ (ending ++ excision.back)) ∧
      (ending = ['\n'] ∨ ending = [] ∧ excision.back.head? ≠ some '\n')

end Excision

/-- A line begins behind a text whose last line is ended. -/
theorem lineStart_reverse_iff {front : Text} (after : Text) :
    lineStart front.reverse after = true ↔ front.EndsLine := by
  rw [lineStart, List.head?_reverse, Option.all_eq_true]
  exact forall₂_congr fun c _ => beq_iff_eq

/-- A compile line is a whole line with its line break. -/
theorem read_compileLine {text rest : Text} {value : Unit} (h : compileLine.read text = some (value, rest)) :
    ∃ line ending, text = (line ++ ending) ++ rest ∧ '\n' ∉ line ∧ Text.contains line (txt "compile") ∧
      (ending = ['\n'] ∨ ending = [] ∧ rest = []) := by
  obtain ⟨hcompile, heq⟩ := Option.ite_none_right_eq_some.1 h
  obtain ⟨-, rfl⟩ := Prod.mk.inj (Option.some.inj heq)
  have hrun : Reader.run (· != '\n') text = some (text.takeWhile (· != '\n'), text.dropWhile (· != '\n')) := rfl
  obtain ⟨htext, hline⟩ := Reader.run_eq_some hrun
  have hstop := Reader.head_of_run hrun
  generalize text.takeWhile (· != '\n') = line at htext hline hcompile ⊢
  generalize text.dropWhile (· != '\n') = after at htext hstop
  have hbreak : '\n' ∉ line := notMem_of_class hline (by decide)
  subst htext
  rw [List.drop_left]
  cases after with
  | nil => exact ⟨line, [], by simp, hbreak, hcompile, .inr ⟨rfl, rfl⟩⟩
  | cons c after =>
    obtain rfl : c = '\n' := by simpa using hstop c rfl
    exact ⟨line, ['\n'], by simp, hbreak, hcompile, .inl rfl⟩

/-- Taking out the first compile line is a cut, if there is such a line. -/
theorem excised_compileLine (body : Text) :
    ∃ line : Option Excision, Excised body line.toList (compileLine.eraseFirst body) ∧
      ∀ excision ∈ line, excision.IsCompileLine := by
  rw [Pattern.eraseFirst]
  cases hfind : compileLine.find? body with
  | none => exact ⟨none, .done body, by simp⟩
  | some found =>
    obtain ⟨-, hleft, rest, hread, hstop⟩ := Pattern.read_of_find? hfind
    obtain ⟨line, ending, hsplit, hline⟩ := read_compileLine hread
    obtain ⟨-, hdrop⟩ := Pattern.drop_stop_of_read hsplit hstop
    have hbefore : body = body.take found.start ++ (line ++ ending) ++ rest := by
      rw [List.append_assoc, ← hsplit, List.take_append_drop]
    refine ⟨some ⟨body.take found.start, line ++ ending, rest⟩, .single hbefore ?_, fun excision hmem => ?_⟩
    · exact congrArg (body.take found.start ++ ·) hdrop
    · obtain rfl := Option.mem_some.1 hmem
      exact ⟨(lineStart_reverse_iff (body.drop found.start)).1 hleft, line, ending, rfl, hline⟩

/-- Taking out the first digest call is a cut, if there is such a call. -/
theorem excised_digestCall (body : Text) :
    ∃ call : Option Excision, Excised body call.toList (body.replaceFirst (txt "$scope.$digest();") []) ∧
      ∀ excision ∈ call, excision.IsDigestCall := by
  rw [Text.replaceFirst]
  cases hindex : Text.indexOf? (txt "$scope.$digest();") body with
  | none => exact ⟨none, .done body, by simp⟩
  | some n =>
    obtain ⟨rest, hbody, hlength⟩ := Text.eq_append_of_indexOf? hindex
    generalize hcall : txt "$scope.$digest();" = call at hbody ⊢
    generalize body.take n = front at hbody hlength
    subst hbody hlength
    refine ⟨some ⟨front, call, rest⟩, .single (by simp [Excision.before]) ?_, fun excision hmem => ?_⟩
    · dsimp only [Excision.after]
      rw [List.take_left, List.append_nil, ← List.drop_drop, List.drop_left, List.drop_left]
    · obtain rfl := Option.mem_some.1 hmem
      exact hcall.symm

/-- The head of a declaration. -/
theorem read_componentDeclaration {text rest : Text} {value : Unit}
    (h : componentDeclaration.read text = some (value, rest)) :
    ∃ indent space, text = (indent ++ (txt "var" ++ (space ++ txt "component"))) ++ rest ∧ (∀ c ∈ indent, isGap c) ∧
      space ≠ [] ∧ (∀ c ∈ space, isGap c) ∧ ∀ c ∈ rest.head?, isWord c = false := by
  simp only [componentDeclaration, Reader.bind_eq_some_iff] at h
  obtain ⟨indent, _, hgap, _, _, hvar, space, _, hgap1, _, _, hname, hnext⟩ := h
  obtain ⟨rfl, hindent⟩ := Reader.run_eq_some hgap
  obtain rfl := Reader.exactly_eq_some_iff.1 hvar
  obtain ⟨rfl, hne, hspace⟩ := Reader.run1_eq_some hgap1
  obtain rfl := Reader.exactly_eq_some_iff.1 hname
  obtain ⟨rfl, hrest⟩ := Reader.notNext_eq_some hnext
  exact ⟨indent, space, by simp only [List.append_assoc], hindent, hne, hspace, fun c hc => by simpa using hrest c hc⟩

/-- A body without the statement that declares `component` and has the given head. A line break behind the statement
goes with it. -/
def withoutDeclaration (body : Text) (found : Occurrence Unit) : Text :=
  let stop := body.statementEnd found.stop
  body.take found.start ++ body.drop (if body[stop]? = some '\n' then stop + 1 else stop)

/-- Without a head there is nothing to take out. -/
theorem removeDeclarationRounds_of_find?_eq_none {body : Text} (h : componentDeclaration.find? body = none)
    (fuel : Nat) :
    removeDeclarationRounds fuel body = body := by
  cases fuel with
  | zero => rfl
  | succ fuel => rw [removeDeclarationRounds, h]

/-- A round takes out the statement with the first head. -/
theorem removeDeclarationRounds_of_find?_eq_some {body : Text} {found : Occurrence Unit}
    (h : componentDeclaration.find? body = some found) (fuel : Nat) :
    removeDeclarationRounds (fuel + 1) body = removeDeclarationRounds fuel (withoutDeclaration body found) := by
  rw [removeDeclarationRounds, h]
  rfl

/-- What a round takes out is a declaration. -/
theorem exists_declaration {body : Text} {found : Occurrence Unit}
    (hfind : componentDeclaration.find? body = some found) :
    ∃ middle back, body = body.take found.start ++ middle ++ back ∧
      withoutDeclaration body found = body.take found.start ++ back ∧
      Excision.IsDeclaration ⟨body.take found.start, middle, back⟩ := by
  obtain ⟨hstart, hleft, rest, hread, hstop⟩ := Pattern.read_of_find? hfind
  obtain ⟨indent, space, hsplit, hindent, hne, hspace, hnext⟩ := read_componentDeclaration hread
  obtain ⟨hstop, hdrop⟩ := Pattern.drop_stop_of_read hsplit hstop
  have hinside : found.stop ≤ body.length := by
    have hlength := congrArg List.length hsplit
    rw [List.length_drop, List.length_append] at hlength
    omega
  obtain ⟨statement, after, rfl, hlength⟩ : ∃ statement after, rest = statement ++ after ∧
      statement.length = Text.statementLength {} false rest :=
    ⟨_, _, (List.take_append_drop _ rest).symm, List.length_take_of_le (Text.statementLength_le ..)⟩
  have hend : body.statementEnd found.stop = found.stop + statement.length := by
    rw [Text.statementEnd_eq hinside, hdrop, hlength]
  have hafter : body.drop (found.stop + statement.length) = after := by
    rw [← List.drop_drop, hdrop, List.drop_left]
  -- A line break right behind the statement goes with it.
  obtain ⟨ending, back, rfl, hending, hback⟩ : ∃ ending back, after = ending ++ back ∧
      (ending = ['\n'] ∨ ending = [] ∧ back.head? ≠ some '\n') ∧
      (if body[found.stop + statement.length]? = some '\n' then found.stop + statement.length + 1
        else found.stop + statement.length) = found.stop + statement.length + ending.length := by
    have hhead : body[found.stop + statement.length]? = after.head? := by rw [← hafter, List.head?_drop]
    rw [hhead]
    split
    · next hbreak =>
      obtain ⟨back, rfl⟩ := List.head?_eq_some_iff.1 hbreak
      exact ⟨['\n'], back, rfl, .inl rfl, rfl⟩
    · next hnot => exact ⟨[], after, rfl, .inr ⟨rfl, hnot⟩, rfl⟩
  refine ⟨indent ++ (txt "var" ++ (space ++ (txt "component" ++ (statement ++ ending)))), back, ?_, ?_, ?_⟩
  · conv_lhs => rw [← List.take_append_drop found.start body, hsplit]
    simp only [List.append_assoc]
  · dsimp only [withoutDeclaration]
    rw [hend, hback, ← List.drop_drop, hafter, List.drop_left]
  · exact ⟨(lineStart_reverse_iff (body.drop found.start)).1 hleft, indent, space, statement, ending, rfl, hindent, hne,
      hspace, hnext, hlength, hending⟩

/-- Taking out declarations is a number of cuts. -/
theorem excised_removeDeclarationRounds (fuel : Nat) (body : Text) :
    ∃ declared, Excised body declared (removeDeclarationRounds fuel body) ∧
      ∀ excision ∈ declared, excision.IsDeclaration := by
  induction fuel generalizing body with
  | zero => exact ⟨[], .done body, by simp⟩
  | succ fuel ih =>
    cases hfind : componentDeclaration.find? body with
    | none =>
      rw [removeDeclarationRounds_of_find?_eq_none hfind]
      exact ⟨[], .done body, by simp⟩
    | some found =>
      obtain ⟨middle, back, hbody, hnext, hdeclaration⟩ := exists_declaration hfind
      obtain ⟨declared, hexcised, hall⟩ := ih (withoutDeclaration body found)
      rw [removeDeclarationRounds_of_find?_eq_some hfind]
      exact ⟨_, (Excised.single hbody hnext).append hexcised, List.forall_mem_cons.2 ⟨hdeclaration, hall⟩⟩

/-! ### The whole body -/

/-- The body without the digest call and the compile line that come first. -/
def withoutSetUp (body : Text) : Text := compileLine.eraseFirst (body.replaceFirst (txt "$scope.$digest();") [])

/-- The body with what belongs to the legacy element renamed or behind comment marks. -/
def adapted (body : Text) : Text :=
  let body := Renaming.testToComponent.apply (commentOccurrences (txt "\n// ") elementAssignment body)
  let body := findCall.replace (txt "compiled.querySelectorAll") (elementName.replace (txt "compiled") body)
  commentOccurrences (txt "// ") dumpLine (body.replaceAll (txt ".toEqualData") (txt ".toEqual"))

/-- The body with the element that it looks at and with change detection, tidied up. -/
def completed (body : Text) : Text :=
  Text.trim (Text.removeEmptyLines (insertChangeDetection (txt "let compiled = fixture.nativeElement;\n" ++ body)))

theorem componentTestBody_eq (body : Text) :
    componentTestBody body = completed (removeComponentDeclarations (adapted (withoutSetUp body))) := rfl

/-- Renaming and commenting out keep the number of heads. -/
theorem expectationCount_adapted (body : Text) : expectationCount (adapted body) = expectationCount body := by
  rw [adapted, (Expectation.alike_dumpLine _).count_eq, (Expectation.alike_toEqualData _).count_eq,
    (Expectation.alike_findCall _).count_eq, (Expectation.alike_elementName _).count_eq,
    (Expectation.alike_testToComponent _).count_eq, (Expectation.alike_elementAssignment _).count_eq]

/-- Completing a body keeps the number of heads. -/
theorem expectationCount_completed (body : Text) : expectationCount (completed body) = expectationCount body := by
  have hword : Expectation.isInert (txt "let compiled = fixture.nativeElement") := by decide
  have hsplit : txt "let compiled = fixture.nativeElement;\n" ++ body =
      [] ++ (txt "let compiled = fixture.nativeElement" ++ (';' :: '\n' :: body)) := rfl
  rw [completed, Expectation.expectationCount_trim, (Expectation.alike_removeEmptyLines _).count_eq,
    Expectation.expectationCount_insertChangeDetection, hsplit, Expectation.expectationCount_eq_count,
    Expectation.count_of_isInert hword, Expectation.count_cons_of_ne (by decide),
    Expectation.count_cons_of_ne (by decide), Expectation.expectationCount_eq_count]
  exact Nat.zero_add _

/-- The number of assertions of a test changes by what is cut out of its body, and by nothing else: the digest call and
the compile line that come first, and then the declarations of `component`. It falls by the heads that touch a piece
before it is cut out, and grows by those that the cut brings together. -/
theorem expectations_accounted (body : Text) :
    ∃ (call line : Option Excision) (declared : List Excision),
      (Excised body (call.toList ++ line.toList) (withoutSetUp body) ∧
        Excised (adapted (withoutSetUp body)) declared (removeComponentDeclarations (adapted (withoutSetUp body)))) ∧
      ((∀ excision ∈ call, excision.IsDigestCall) ∧ (∀ excision ∈ line, excision.IsCompileLine) ∧
        ∀ excision ∈ declared, excision.IsDeclaration) ∧
      expectationCount (componentTestBody body) +
          ((call.toList ++ line.toList ++ declared).map Excision.lost).sum =
        expectationCount body + ((call.toList ++ line.toList ++ declared).map Excision.joined).sum := by
  obtain ⟨call, hcall, hdigest⟩ := excised_digestCall body
  obtain ⟨line, hline, hcompile⟩ := excised_compileLine (body.replaceFirst (txt "$scope.$digest();") [])
  obtain ⟨declared, hdeclared, hdeclaration⟩ := excised_removeDeclarationRounds _ (adapted (withoutSetUp body))
  have hsetUp := hcall.append hline
  refine ⟨call, line, declared, ⟨hsetUp, hdeclared⟩, ⟨hdigest, hcompile, hdeclaration⟩, ?_⟩
  have hfirst := hsetUp.count_eq
  have hsecond := hdeclared.count_eq
  rw [expectationCount_adapted] at hsecond
  rw [componentTestBody_eq, expectationCount_completed, List.map_append, List.map_append, List.sum_append,
    List.sum_append]
  rw [List.map_append, List.map_append, List.sum_append, List.sum_append] at hfirst
  change expectationCount (withoutSetUp body) + _ = _ at hfirst
  change expectationCount (removeComponentDeclarations (adapted (withoutSetUp body))) + _ = _ at hsecond
  simp only [List.map_append, List.sum_append] at hfirst ⊢
  omega

/-- An assertion about the compiled element stands on a line that mentions compilation, and goes with it. -/
theorem compiled_assertion_lost :
    expectationCount (txt "expect(compiled.text()).toBe('a');") = 1 ∧
      expectationCount (componentTestBody (txt "expect(compiled.text()).toBe('a');")) = 0 := by
  have hline : withoutSetUp (txt "expect(compiled.text()).toBe('a');") = [] := by decide +kernel
  have haliases : ∀ name ∈ [txt "$scope", txt "directive", txt "ctrl", txt "scope"], IsName name := by decide
  have hrest : adapted [] = [] := by
    rw [adapted, Renaming.testToComponent, Renaming.apply_eq_rename haliases]
    decide +kernel
  refine ⟨by decide +kernel, ?_⟩
  rw [componentTestBody_eq, hline, hrest, expectationCount_completed]
  rfl

end AngularUplift
