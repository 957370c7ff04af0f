import AngularUplift.Proofs.Text.Line
import AngularUplift.Proofs.Text.Occurrence
import AngularUplift.Proofs.Text.Reader
import AngularUplift.Suite.Body

/-!
# Heads of assertions

The head of an assertion is the word `expect` that is neither a member nor part of a longer name, with white space and
an opening parenthesis after it. Whether one begins at a position depends on the character before it and on what comes
after it, and no two of them overlap. So when a piece is cut out of a text, every head that does not touch the cut stays.

## Main definitions

* `expectationCount`: the number of heads in a text.
* `Expectation.heads`: the places of the heads, found by one pass over the text.
* `Excision`, `Excision.lost`, `Excision.joined`: a piece that is cut out, and the heads that touch it before and after.

## Main statements

* `Expectation.read_iff`: what a head is.
* `Expectation.occurrences_eq`: the occurrences of the pattern are the heads.
* `Excision.count_after`: a cut changes the number of heads only where they touch it.
-/

namespace AngularUplift

/-- The number of heads of assertions in a text. -/
def expectationCount (text : Text) : Nat := (expectation.occurrences text).length

namespace Expectation

/-! ### One head -/

/-- The keyword, white space and a parenthesis make the head of an assertion. -/
theorem read_iff {text rest : Text} {value : Unit} :
    expectation.read text = some (value, rest) ↔
      ∃ space, text = txt "expect" ++ (space ++ '(' :: rest) ∧ ∀ c ∈ space, isBlank c := by
  simp only [expectation, Reader.bind_eq_some_iff, Reader.exactly_eq_some_iff]
  constructor
  · rintro ⟨_, _, rfl, space, _, hspace, rfl⟩
    obtain ⟨rfl, hblank⟩ := Reader.run_eq_some hspace
    exact ⟨space, rfl, hblank⟩
  · rintro ⟨space, rfl, hblank⟩
    exact ⟨(), _, rfl, space, '(' :: rest, Reader.run_append hblank (fun c hc => by cases hc; rfl), rfl⟩

/-- A head begins with the first letter of the keyword. -/
theorem read_cons_eq_none {c : Char} (hc : c ≠ 'e') (text : Text) : expectation.read (c :: text) = none := by
  refine Option.eq_none_iff_forall_ne_some.2 fun ⟨value, rest⟩ hread => ?_
  obtain ⟨space, heq, -⟩ := read_iff.1 hread
  exact hc (List.cons.inj heq).1

theorem read_nil : expectation.read [] = none := rfl

/-- The head of an assertion is read before whatever comes after it. -/
theorem read_append {text rest : Text} {value : Unit} (h : expectation.read text = some (value, rest)) (after : Text) :
    expectation.read (text ++ after) = some (value, rest ++ after) := by
  obtain ⟨space, rfl, hblank⟩ := read_iff.1 h
  exact read_iff.2 ⟨space, by simp, hblank⟩

/-- A head that does not reach into what comes after a text is read from the text. -/
theorem read_of_append {text after rest : Text} {value : Unit}
    (h : expectation.read (text ++ after) = some (value, rest)) (hlength : after.length ≤ rest.length) :
    ∃ left, rest = left ++ after ∧ expectation.read text = some (value, left) := by
  obtain ⟨space, heq, hblank⟩ := read_iff.1 h
  have hsuffix : after <:+ rest := by
    refine List.suffix_of_suffix_length_le (List.suffix_append text after) ?_ hlength
    rw [heq, ← List.singleton_append, ← List.append_assoc, ← List.append_assoc]
    exact List.suffix_append _ _
  obtain ⟨left, rfl⟩ := hsuffix
  have hall : text ++ after = (txt "expect" ++ (space ++ '(' :: left)) ++ after := by simpa using heq
  exact ⟨left, rfl, read_iff.2 ⟨space, List.append_cancel_right hall, hblank⟩⟩

/-- A head that reaches from a text into what comes after it. -/
theorem read_over {text after rest : Text} {value : Unit} (h : expectation.read (text ++ after) = some (value, rest))
    (hlength : rest.length < after.length) :
    ∃ across space, after = across ++ '(' :: rest ∧ text ++ across = txt "expect" ++ space ∧ ∀ c ∈ space, isBlank c := by
  obtain ⟨space, heq, hspace⟩ := read_iff.1 h
  rw [← List.append_assoc] at heq
  rcases List.append_eq_append_iff.1 heq with ⟨across, hhead, hafter⟩ | ⟨across, rfl, hafter⟩
  · exact ⟨across, space, hafter, hhead.symm, hspace⟩
  · -- Only the parenthesis stands behind the text.
    have hacross := congrArg List.length hafter
    rw [List.length_append, List.length_cons] at hacross
    obtain rfl : across = [] := List.length_eq_zero_iff.1 (by omega)
    exact ⟨[], space, hafter.symm, by simp, hspace⟩

/-! ### All heads -/

/-- The head that begins at a position, if there is one: where it begins and where it ends. -/
def headAt (position : Nat) (text : Text) : List (Nat × Nat) :=
  match expectation.read text with
  | some (_, rest) => [(position, position + (text.length - rest.length))]
  | none => []

/-- The heads of a text that begins at a position, and in which a name may or may not begin at once. -/
def heads (free : Bool) (position : Nat) : Text → List (Nat × Nat)
  | [] => []
  | c :: text =>
    (if free then headAt position (c :: text) else []) ++ heads (!isMemberContext c) (position + 1) text

theorem heads_nil (free : Bool) (position : Nat) : heads free position [] = [] := rfl

theorem heads_cons_of_ne {c : Char} (hc : c ≠ 'e') (free : Bool) (position : Nat) (text : Text) :
    heads free position (c :: text) = heads (!isMemberContext c) (position + 1) text := by
  rw [heads, headAt, read_cons_eq_none hc]
  simp

/-- White space and a parenthesis hold no head. -/
theorem heads_paren {space : Text} (hspace : ∀ c ∈ space, isBlank c) (free : Bool) (position : Nat) (rest : Text) :
    heads free position (space ++ '(' :: rest) = heads true (position + (space.length + 1)) rest := by
  induction space generalizing free position with
  | nil =>
    rw [List.nil_append, heads_cons_of_ne (by decide)]
    rfl
  | cons c space ih =>
    obtain ⟨hc, hrest⟩ := List.forall_mem_cons.1 hspace
    have hne : c ≠ 'e' := by
      rintro rfl
      exact absurd hc (by decide)
    rw [List.cons_append, heads_cons_of_ne hne, ih hrest, List.length_cons]
    congr 1
    omega

/-- There is one head in a head. -/
theorem heads_head {space : Text} (hspace : ∀ c ∈ space, isBlank c) (position : Nat) (rest : Text) :
    heads true position (txt "expect" ++ (space ++ '(' :: rest)) =
      (position, position + (space.length + 7)) :: heads true (position + (space.length + 7)) rest := by
  have hread : expectation.read (txt "expect" ++ (space ++ '(' :: rest)) = some ((), rest) :=
    read_iff.2 ⟨space, rfl, hspace⟩
  have hhead : headAt position (txt "expect" ++ (space ++ '(' :: rest)) = [(position, position + (space.length + 7))] := by
    have hword : (txt "expect").length = 6 := rfl
    rw [headAt, hread]
    simp only [List.length_append, List.length_cons, hword, List.cons.injEq, Prod.mk.injEq, true_and, and_true]
    omega
  have hinner : ∀ text, heads true position (txt "expect" ++ text) =
      headAt position (txt "expect" ++ text) ++ heads false (position + 6) text := fun _ => rfl
  rw [hinner, hhead, heads_paren hspace, Nat.add_assoc, List.singleton_append]
  congr 3
  omega

/-- A head begins where the text begins or later, and has an end after its beginning. -/
theorem bounds_of_mem_heads {free : Bool} {position : Nat} {text : Text} {head : Nat × Nat}
    (h : head ∈ heads free position text) : position ≤ head.1 ∧ head.1 < head.2 := by
  induction text generalizing free position with
  | nil => exact absurd h List.not_mem_nil
  | cons c text ih =>
    rcases List.mem_append.1 h with hfirst | hrest
    · have hmem : head ∈ headAt position (c :: text) := by
        split at hfirst
        · exact hfirst
        · exact absurd hfirst List.not_mem_nil
      rw [headAt] at hmem
      split at hmem
      · next rest hread =>
        obtain ⟨space, heq, -⟩ := read_iff.1 hread
        obtain rfl := List.mem_singleton.1 hmem
        have hlength := congrArg List.length heq
        simp at hlength ⊢
        omega
      · exact absurd hmem List.not_mem_nil
    · have hbounds := ih hrest
      omega

/-- Whether a head begins at a position: the character before it decides whether a name may begin there. -/
theorem at?_eq (before after : Text) :
    expectation.at? before after =
      if !before.head?.any isMemberContext then
        (expectation.read after).map fun (value, rest) => (after.length - rest.length, value)
      else none := rfl

/-- The scan for occurrences passes over a head. -/
theorem piecesFrom_head {before space : Text} (hfree : (!before.head?.any isMemberContext) = true)
    (hspace : ∀ c ∈ space, isBlank c) (rest : Text) :
    expectation.piecesFrom before 0 (txt "expect" ++ (space ++ '(' :: rest)) =
      .found (txt "expect" ++ (space ++ ['('])) () ::
        expectation.piecesFrom ((txt "expect" ++ (space ++ ['('])).reverse ++ before) 0 rest := by
  have hread : expectation.read (txt "expect" ++ (space ++ '(' :: rest)) = some ((), rest) :=
    read_iff.2 ⟨space, rfl, hspace⟩
  have hsplit : txt "expect" ++ (space ++ '(' :: rest) = (txt "expect" ++ (space ++ ['('])) ++ rest := by simp
  rw [hsplit] at hread ⊢
  refine Pattern.piecesFrom_found (List.cons_ne_nil _ _) ?_
  rw [at?_eq, if_pos hfree, hread, Option.map_some]
  dsimp only
  rw [List.length_append, Nat.add_sub_cancel]

/-- Where the scan finds nothing there is no head. -/
theorem headAt_eq_nil {before text : Text} (h : expectation.at? before text = none) (position : Nat) :
    (if !before.head?.any isMemberContext then headAt position text else []) = [] := by
  rw [at?_eq] at h
  split at h
  · next hfree => rw [if_pos hfree, headAt, Option.map_eq_none_iff.1 h]
  · next hbound => rw [if_neg hbound]

/-- The occurrences among the pieces of a text are the heads. -/
theorem locate_eq (before text : Text) (position : Nat) :
    (Pattern.locate position (expectation.piecesFrom before 0 text)).map (fun found => (found.start, found.stop)) =
      heads (!before.head?.any isMemberContext) position text := by
  cases text with
  | nil =>
    have hnone : expectation.at? before [] = none := by
      rw [at?_eq, read_nil]
      exact ite_self _
    simp [Pattern.piecesFrom, hnone, Pattern.locate, heads_nil]
  | cons c text =>
    cases hfound : expectation.at? before (c :: text) with
    | none =>
      have hplain : expectation.piecesFrom before 0 (c :: text) =
          .plain c :: expectation.piecesFrom (c :: before) 0 text := by
        rw [Pattern.piecesFrom.eq_def]
        simp only [hfound]
      rw [hplain, Pattern.locate, locate_eq (c :: before) text (position + 1), heads, headAt_eq_nil hfound]
      rfl
    | some found =>
      have hfree : (!before.head?.any isMemberContext) = true := by
        rw [at?_eq] at hfound
        split at hfound
        · assumption
        · cases hfound
      obtain ⟨rest, hread, -⟩ := Pattern.read_of_at? hfound
      obtain ⟨space, htext, hspace⟩ := read_iff.1 hread
      have hlength : (txt "expect" ++ (space ++ ['('])).length = space.length + 7 := by
        have hword : (txt "expect").length = 6 := rfl
        rw [List.length_append, List.length_append, hword, List.length_singleton]
        omega
      have hshorter : rest.length < text.length + 1 := by
        rw [← List.length_cons, htext]
        simp
        omega
      -- After the parenthesis both the scan and the search for heads go on.
      have hcontext : (!((txt "expect" ++ (space ++ ['('])).reverse ++ before).head?.any isMemberContext) = true := by
        simp [isMemberContext, isName, isWord, isLetterOrNumeral, isLatin, isDecimal]
      rw [htext, hfree, piecesFrom_head hfree hspace, heads_head hspace, Pattern.locate, List.map_cons, hlength,
        locate_eq, hcontext]
termination_by text.length

/-- The occurrences of the pattern are the heads. -/
theorem occurrences_eq (text : Text) :
    (expectation.occurrences text).map (fun found => (found.start, found.stop)) = heads true 0 text :=
  locate_eq [] text 0

/-- No head begins before the one that is found first. -/
theorem start_le_of_findFrom {before text : Text} {position : Nat} {found : Occurrence Unit}
    (h : expectation.findFrom 0 before position text = some found) :
    ∀ head ∈ heads (!before.head?.any isMemberContext) position text, found.start ≤ head.1 := by
  induction text generalizing before position with
  | nil => exact fun _ hmem => absurd hmem List.not_mem_nil
  | cons c text ih =>
    rw [Pattern.findFrom, if_neg (Nat.not_lt_zero _)] at h
    split at h
    · obtain rfl := Option.some.inj h
      exact fun head hmem => (bounds_of_mem_heads hmem).1
    · next hnone =>
      intro head hmem
      rw [heads, headAt_eq_nil hnone, List.nil_append] at hmem
      exact ih h head hmem

theorem expectationCount_eq (text : Text) : expectationCount text = (heads true 0 text).length := by
  rw [← occurrences_eq, List.length_map, expectationCount]

/-! ### Heads before and after a position -/

/-- The number of heads does not depend on where the text begins. -/
theorem length_heads (free : Bool) (position other : Nat) (text : Text) :
    (heads free position text).length = (heads free other text).length := by
  induction text generalizing free position other with
  | nil => rfl
  | cons c text ih =>
    have hfirst : (if free then headAt position (c :: text) else []).length =
        (if free then headAt other (c :: text) else []).length := by
      split
      · rw [headAt, headAt]
        split <;> rfl
      · rfl
    rw [heads, heads, List.length_append, List.length_append, hfirst, ih]

/-- The head at a position ends in the first part of a text when the first part has this head. -/
theorem countP_stop_headAt (position : Nat) (text after : Text) :
    (headAt position (text ++ after)).countP (fun head => head.2 ≤ position + text.length) =
      (headAt position text).length := by
  rw [headAt, headAt]
  cases hpart : expectation.read text with
  | some found =>
    rw [read_append hpart after]
    simp
  | none =>
    cases hread : expectation.read (text ++ after) with
    | none => rfl
    | some found =>
      -- A head that the first part does not have goes on behind it.
      have hlength : found.2.length < after.length := by
        by_contra hle
        obtain ⟨left, -, hleft⟩ := read_of_append hread (Nat.le_of_not_lt hle)
        rw [hpart] at hleft
        cases hleft
      simp
      omega

/-- The heads that end in the first part of a text are the heads of this part. -/
theorem countP_stop_heads (free : Bool) (position : Nat) (front rest : Text) :
    (heads free position (front ++ rest)).countP (fun head => head.2 ≤ position + front.length) =
      (heads free position front).length := by
  induction front generalizing free position with
  | nil =>
    refine List.countP_eq_zero.2 fun head hmem => ?_
    have hbounds := bounds_of_mem_heads hmem
    simp
    omega
  | cons c front ih =>
    have hend : position + (c :: front).length = position + 1 + front.length := by
      rw [List.length_cons]
      omega
    rw [List.cons_append, heads, heads, List.countP_append, List.length_append]
    congr 1
    · split
      · exact countP_stop_headAt position (c :: front) rest
      · rfl
    · rw [hend]
      exact ih _ _

/-- Whether a name may begin behind a text, given whether one may begin before it. -/
def freeAfter (free : Bool) : Text → Bool
  | [] => free
  | c :: text => freeAfter (!isMemberContext c) text

theorem freeAfter_append (free : Bool) (text : Text) (c : Char) : freeAfter free (text ++ [c]) = !isMemberContext c := by
  induction text generalizing free with
  | nil => rfl
  | cons d text ih => exact ih _

/-- The heads that begin in the second part of a text depend on the first part by its last character only. -/
theorem countP_start_heads (free : Bool) (position : Nat) (front rest : Text) :
    (heads free position (front ++ rest)).countP (fun head => position + front.length ≤ head.1) =
      (heads (freeAfter free front) 0 rest).length := by
  induction front generalizing free position with
  | nil =>
    rw [freeAfter, length_heads free 0 position rest]
    refine List.countP_eq_length.2 fun head hmem => ?_
    simpa using (bounds_of_mem_heads hmem).1
  | cons c front ih =>
    have hend : position + (c :: front).length = position + 1 + front.length := by
      rw [List.length_cons]
      omega
    have hfirst : ∀ head ∈ (if free then headAt position (c :: (front ++ rest)) else []),
        ¬position + (c :: front).length ≤ head.1 := by
      intro head hmem
      split at hmem
      · rw [headAt] at hmem
        split at hmem
        · obtain rfl := List.mem_singleton.1 hmem
          simp
        · exact absurd hmem List.not_mem_nil
      · exact absurd hmem List.not_mem_nil
    rw [List.cons_append, heads, List.countP_append, List.countP_eq_zero.2 (by simpa using hfirst), Nat.zero_add, hend]
    exact ih _ _

end Expectation

/-! ### Excisions -/

/-- A piece that is cut out of a text. -/
structure Excision where
  /-- What comes before the piece. -/
  front : Text
  /-- The piece. -/
  middle : Text
  /-- What comes after the piece. -/
  back : Text

/-- The heads of a text that reach into the part between two positions, or begin right behind it. -/
def touching (text : Text) (first last : Nat) : Nat :=
  (expectation.occurrences text).countP fun found => found.start ≤ last ∧ first < found.stop

namespace Excision

/-- The text with the piece. -/
def before (excision : Excision) : Text := excision.front ++ excision.middle ++ excision.back

/-- The text without the piece. -/
def after (excision : Excision) : Text := excision.front ++ excision.back

/-- The number of heads that touch the piece. -/
def lost (excision : Excision) : Nat := touching excision.before excision.front.length (excision.front.length + excision.middle.length)

/-- The number of heads that touch the place from which the piece was cut. -/
def joined (excision : Excision) : Nat := touching excision.after excision.front.length excision.front.length

end Excision

namespace Expectation

theorem touching_eq (text : Text) (first last : Nat) :
    touching text first last = (heads true 0 text).countP fun head => head.1 ≤ last ∧ first < head.2 := by
  rw [← occurrences_eq, List.countP_map]
  rfl

/-- Every head ends before a part of a text, touches the part, or begins behind it. -/
theorem expectationCount_eq_add (text : Text) {first last : Nat} (hle : first ≤ last) :
    expectationCount text = (heads true 0 text).countP (fun head => head.2 ≤ first) + touching text first last +
      (heads true 0 text).countP (fun head => last < head.1) := by
  have hbounds : ∀ head ∈ heads true 0 text, head.1 < head.2 := fun head hmem => (bounds_of_mem_heads hmem).2
  rw [expectationCount_eq, touching_eq]
  generalize heads true 0 text = found at hbounds ⊢
  induction found with
  | nil => rfl
  | cons head found ih =>
    obtain ⟨hhead, hfound⟩ := List.forall_mem_cons.1 hbounds
    simp only [List.length_cons, List.countP_cons, ih hfound, decide_eq_true_eq]
    split <;> split <;> split <;> omega

/-- The heads behind the first character of a text, whatever comes before the text. -/
theorem countP_behind_heads (front back : Text) :
    (heads true 0 (front ++ back)).countP (fun head => front.length < head.1) =
      match back with
      | [] => 0
      | c :: rest => (heads (!isMemberContext c) 0 rest).length := by
  cases back with
  | nil =>
    have hnone := countP_start_heads true 0 front []
    rw [heads_nil, List.length_nil, Nat.zero_add, List.countP_eq_zero] at hnone
    refine List.countP_eq_zero.2 fun head hmem hlt => hnone head hmem ?_
    simp only [decide_eq_true_eq] at hlt ⊢
    exact Nat.le_of_lt hlt
  | cons c rest =>
    have hrest := countP_start_heads true 0 (front ++ [c]) rest
    rw [freeAfter_append, List.append_assoc, List.singleton_append, Nat.zero_add, List.length_append,
      List.length_singleton] at hrest
    exact hrest

end Expectation

/-- A cut takes away the heads that touch the piece, and makes those that touch the place of the cut. -/
theorem Excision.count_after (excision : Excision) :
    expectationCount excision.after + excision.lost = expectationCount excision.before + excision.joined := by
  have hbefore := Expectation.expectationCount_eq_add excision.before (Nat.le_add_right excision.front.length excision.middle.length)
  have hafter := Expectation.expectationCount_eq_add excision.after (Nat.le_refl excision.front.length)
  -- The heads on either side of the piece are the same before and after the cut.
  have hfront := (Expectation.countP_stop_heads true 0 excision.front (excision.middle ++ excision.back)).trans
    (Expectation.countP_stop_heads true 0 excision.front excision.back).symm
  have hback := (Expectation.countP_behind_heads (excision.front ++ excision.middle) excision.back).trans
    (Expectation.countP_behind_heads excision.front excision.back).symm
  rw [← List.append_assoc, Nat.zero_add] at hfront
  rw [List.length_append] at hback
  rw [Excision.lost, Excision.joined, hbefore, hafter, Excision.before, Excision.after, hfront, hback]
  omega

end AngularUplift
