import AngularUplift.Proofs.Text.Delimiter
import AngularUplift.Proofs.Text.Line
import AngularUplift.Proofs.Text.Occurrence
import AngularUplift.Registration.Factory

/-!
# The name and the factory of a registration

The parentheses of a registration and the name that it registers are looked for by two patterns, of which the one for
the name asks for more: a second quotation mark. They agree all the same. Where the first call of the keyword stands the
name is what stands between the first two quotation marks behind its parenthesis, and if there is only one mark behind
it, there is no name to be found in any later call either.

## Main definitions

* `Registration.Calls`, `Registration.CallAt`: what a call of a keyword looks like, and a call at a position of a text.
* `Registration.firstQuoted`: what stands between the first two quotation marks of a text.
* `Registration.OpensAt`: the first call of a keyword has its parenthesis at a position, which may or may not be closed.

## Main statements

* `Registration.isLeast_callAt`: the call that is found is the first one.
* `Registration.name_eq_firstQuoted`, `Registration.name_eq_nil`: the name that is found.
* `Registration.name_of_call`: the name and the factory come from the same call.
-/

namespace AngularUplift

namespace Registration

/-! ### Calls of a keyword -/

/-- A text that begins with a call of a keyword: the keyword, a parenthesis and a quotation mark, with white space
between them. The parenthesis stands at a position, and the mark is followed by a rest. -/
inductive Calls (keyword : Text) : (text : Text) → (opened : Nat) → (rest : Text) → Prop
  /-- The parts of the call. -/
  | intro {gap space rest : Text} {mark : Char} (hgap : ∀ c ∈ gap, isBlank c) (hspace : ∀ c ∈ space, isBlank c)
      (hmark : isPlainQuote mark = true) :
      Calls keyword (keyword ++ (gap ++ '(' :: (space ++ mark :: rest))) (keyword.length + gap.length) rest

/-- A call of a keyword at a position of a text, at the edge of a word. -/
structure CallAt (text keyword : Text) (position : Nat) : Prop where
  /-- A word begins at the position. -/
  edge : wordEdge (text.take position).reverse (text.drop position) = true
  /-- The call stands there. -/
  calls : ∃ opened rest, Calls keyword (text.drop position) opened rest

/-- What stands between the first quotation mark of a text and the next one, of whatever kind the two are, or nothing
when there are no two. -/
def firstQuoted (text : Text) : Text :=
  let rest := (text.dropWhile (!isPlainQuote ·)).drop 1
  if rest.any isPlainQuote then rest.takeWhile (!isPlainQuote ·) else []

variable {text keyword rest value : Text} {opened : Nat}

/-- The pattern of calls reads a call up to its quotation mark. -/
theorem read_callHead (h : Calls keyword text opened rest) : (callHead keyword).read text = some ((), rest) := by
  obtain @⟨gap, space, _, mark, hgap, hspace, hmark⟩ := h
  refine Reader.bind_eq_some_iff.2 ⟨(), _, Reader.exactly_eq_some_iff.2 rfl, ?_⟩
  refine Reader.bind_eq_some_iff.2 ⟨gap, _, Reader.run_append hgap (Reader.head_cons (by decide)), ?_⟩
  refine Reader.bind_eq_some_iff.2 ⟨(), _, Reader.exactly_eq_some_iff.2 rfl, ?_⟩
  refine Reader.bind_eq_some_iff.2
    ⟨space, _, Reader.run_append hspace (Reader.head_cons (isPlainQuote_spec hmark).2.1), ?_⟩
  exact Reader.bind_eq_some_iff.2 ⟨mark, rest, if_pos hmark, rfl⟩

/-- The pattern of calls reads nothing else. -/
theorem calls_of_read {read : Unit} (h : (callHead keyword).read text = some (read, rest)) :
    ∃ opened, Calls keyword text opened rest := by
  simp only [callHead, Reader.bind_eq_some_iff, Reader.exactly_eq_some_iff, Reader.pure_eq_some_iff] at h
  obtain ⟨-, afterKeyword, rfl, gap, afterGap, rgap, -, afterOpen, rfl, space, afterSpace, rspace, mark, afterMark,
    rmark, -, rfl⟩ := h
  obtain ⟨rfl, hgap⟩ := Reader.run_eq_some rgap
  obtain ⟨rfl, hspace⟩ := Reader.run_eq_some rspace
  obtain ⟨rfl, hmark⟩ := Reader.oneOf_eq_some rmark
  exact ⟨_, .intro hgap hspace hmark⟩

/-- The characters up to a quotation mark, and the mark. -/
def upToMark : Reader Text := do
  let inner ← Reader.run (!isPlainQuote ·)
  let _ ← Reader.oneOf isPlainQuote
  return inner

/-- The pattern of named calls reads a call, and what stands between its mark and the next one. -/
theorem read_namedCall (keyword : Text) : (namedCall keyword).read = (callHead keyword).read >>= fun _ => upToMark := by
  simp only [namedCall, callHead, Reader.quoted, upToMark, bind_assoc, pure_bind]

/-- What is read up to a quotation mark is followed by one and has none in it. -/
theorem upToMark_eq_some_iff : upToMark text = some (value, rest) ↔
    ∃ mark, isPlainQuote mark = true ∧ (∀ c ∈ value, isPlainQuote c = false) ∧ text = value ++ mark :: rest := by
  constructor
  · intro h
    simp only [upToMark, Reader.bind_eq_some_iff, Reader.pure_eq_some_iff] at h
    obtain ⟨inner, afterInner, rinner, mark, afterMark, rmark, rfl, rfl⟩ := h
    obtain ⟨rfl, hinner⟩ := Reader.run_eq_some rinner
    obtain ⟨rfl, hmark⟩ := Reader.oneOf_eq_some rmark
    exact ⟨mark, hmark, by simpa using hinner, rfl⟩
  · rintro ⟨mark, hmark, hvalue, rfl⟩
    refine Reader.bind_eq_some_iff.2
      ⟨value, _, Reader.run_append (by simpa using hvalue) (Reader.head_cons (by simp [hmark])), ?_⟩
    exact Reader.bind_eq_some_iff.2 ⟨mark, rest, if_pos hmark, rfl⟩

/-- The pattern of named calls reads a call whose quotation mark is followed by a second one. -/
theorem read_namedCall_iff : (namedCall keyword).read text = some (value, rest) ↔
    ∃ opened mark, isPlainQuote mark = true ∧ (∀ c ∈ value, isPlainQuote c = false) ∧
      Calls keyword text opened (value ++ mark :: rest) := by
  rw [read_namedCall, Reader.bind_eq_some_iff]
  simp only [upToMark_eq_some_iff]
  constructor
  · rintro ⟨_, after, hread, mark, hmark, hvalue, rfl⟩
    obtain ⟨opened, hcalls⟩ := calls_of_read hread
    exact ⟨opened, mark, hmark, hvalue, hcalls⟩
  · rintro ⟨opened, mark, hmark, hvalue, hcalls⟩
    exact ⟨(), _, read_callHead hcalls, mark, hmark, hvalue, rfl⟩

/-! ### The quotation marks of a call -/

/-- A word character is no quotation mark. -/
theorem isPlainQuote_of_isWord {c : Char} (h : isWord c = true) : isPlainQuote c = false := by
  cases hquote : isPlainQuote c with
  | false => rfl
  | true =>
    simp only [isPlainQuote, Bool.or_eq_true, beq_iff_eq] at hquote
    rcases hquote with rfl | rfl
    all_goals exact absurd h (by decide)

/-- White space is no quotation mark. -/
theorem isPlainQuote_of_isBlank {c : Char} (h : isBlank c = true) : isPlainQuote c = false := by
  cases hquote : isPlainQuote c with
  | false => rfl
  | true => exact absurd h (Bool.eq_false_iff.1 (isPlainQuote_spec hquote).2.1)

/-- A text with a quotation mark in it goes on from its first one. -/
theorem exists_firstMark (h : 0 < text.countP isPlainQuote) : ∃ front mark rest, text = front ++ mark :: rest ∧
    (∀ c ∈ front, isPlainQuote c = false) ∧ isPlainQuote mark = true := by
  obtain ⟨c, hmem, hc⟩ := List.countP_pos_iff.1 h
  obtain ⟨mark, front, rest, hfront, hmark, htext, -⟩ := List.exists_of_eraseP hmem hc
  exact ⟨front, mark, rest, htext, fun c hc => Bool.eq_false_iff.2 (hfront c hc), hmark⟩

/-- What stands between the first quotation mark of a text and the next one comes after the part without marks. -/
theorem firstQuoted_append {front : Text} {mark : Char} (hfront : ∀ c ∈ front, isPlainQuote c = false)
    (hmark : isPlainQuote mark = true) (rest : Text) : firstQuoted (front ++ mark :: rest) =
      if rest.any isPlainQuote then rest.takeWhile (!isPlainQuote ·) else [] := by
  rw [firstQuoted, List.dropWhile_append_of_pos (by simpa using hfront), List.dropWhile_cons_of_neg (by simp [hmark])]
  rfl

/-- A text with fewer than two quotation marks has nothing quoted. -/
theorem firstQuoted_eq_nil (h : text.countP isPlainQuote < 2) : firstQuoted text = [] := by
  rcases Nat.eq_zero_or_pos (text.countP isPlainQuote) with hzero | hpos
  · have hall : ∀ c ∈ text, (!isPlainQuote c) = true := by simpa using List.countP_eq_zero.1 hzero
    rw [firstQuoted, List.dropWhile_eq_nil_iff.2 hall]
    rfl
  · obtain ⟨front, mark, rest, rfl, hfront, hmark⟩ := exists_firstMark hpos
    rw [List.countP_append, List.countP_cons_of_pos hmark] at h
    have hnone : ¬rest.any isPlainQuote = true := by
      rw [List.any_eq_true, ← List.countP_pos_iff]
      omega
    rw [firstQuoted_append hfront hmark, if_neg hnone]

namespace Calls

variable (h : Calls keyword text opened rest) (hkeyword : ∀ c ∈ keyword, isWord c = true)

include h hkeyword

/-- Before the quotation mark of a call there is no other one, neither in the whole text nor behind the parenthesis. -/
theorem exists_mark : ∃ front space mark, text = front ++ '(' :: (space ++ mark :: rest) ∧ front.length = opened ∧
    '(' ∉ front ∧ (∀ c ∈ front ++ '(' :: space, isPlainQuote c = false) ∧ isPlainQuote mark = true := by
  obtain @⟨gap, space, _, mark, hgap, hspace, hmark⟩ := h
  have hopen : '(' ∉ keyword ++ gap :=
    List.not_mem_append (notMem_of_class hkeyword (by decide)) (notMem_of_class hgap (by decide))
  refine ⟨keyword ++ gap, space, mark, by simp, by simp, hopen, ?_, hmark⟩
  refine List.forall_mem_append.2 ⟨List.forall_mem_append.2 ⟨?_, ?_⟩, List.forall_mem_cons.2 ⟨by decide, ?_⟩⟩
  · exact fun c hc => isPlainQuote_of_isWord (hkeyword c hc)
  · exact fun c hc => isPlainQuote_of_isBlank (hgap c hc)
  · exact fun c hc => isPlainQuote_of_isBlank (hspace c hc)

/-- What a call has quoted first is read off what comes after its quotation mark. -/
theorem firstQuoted_eq_ite :
    firstQuoted text = if rest.any isPlainQuote then rest.takeWhile (!isPlainQuote ·) else [] := by
  obtain ⟨front, space, mark, rfl, -, -, hfront, hmark⟩ := h.exists_mark hkeyword
  rw [← firstQuoted_append hfront hmark rest, List.append_assoc, List.cons_append]

/-- The first quoted text of a call stands behind its parenthesis. -/
theorem firstQuoted_drop : firstQuoted (text.drop (opened + 1)) = firstQuoted text := by
  rw [h.firstQuoted_eq_ite hkeyword]
  obtain ⟨front, space, mark, rfl, rfl, -, hfront, hmark⟩ := h.exists_mark hkeyword
  have hdrop : (front ++ '(' :: (space ++ mark :: rest)).drop (front.length + 1) = space ++ mark :: rest := by
    rw [List.drop_length_add_append]
    rfl
  have hspace : ∀ c ∈ space, isPlainQuote c = false :=
    fun c hc => hfront c (List.mem_append_right front (List.mem_cons_of_mem _ hc))
  rw [hdrop, firstQuoted_append hspace hmark]

/-- A call has one quotation mark more than what comes after it. -/
theorem countP_isPlainQuote : text.countP isPlainQuote = rest.countP isPlainQuote + 1 := by
  obtain ⟨front, space, mark, rfl, -, -, hfront, hmark⟩ := h.exists_mark hkeyword
  have hnone : (front ++ '(' :: space).countP isPlainQuote = 0 :=
    List.countP_eq_zero.2 fun c hc => by simp [hfront c hc]
  have hsplit : front ++ '(' :: (space ++ mark :: rest) = (front ++ '(' :: space) ++ mark :: rest := by simp
  rw [hsplit, List.countP_append, hnone, List.countP_cons_of_pos hmark, Nat.zero_add]

/-- What a call has quoted first is the text up to the next quotation mark. -/
theorem firstQuoted_eq {value after : Text} {mark : Char} (hrest : rest = value ++ mark :: after)
    (hvalue : ∀ c ∈ value, isPlainQuote c = false) (hmark : isPlainQuote mark = true) : firstQuoted text = value := by
  rw [h.firstQuoted_eq_ite hkeyword, hrest, if_pos (by simp [hmark]),
    List.takeWhile_append_of_pos (by simpa using hvalue), List.takeWhile_cons_of_neg (by simp [hmark]),
    List.append_nil]

/-- The parenthesis of a call is the first one in the text. -/
theorem indexOf?_paren : Text.indexOf? ['('] text = some opened := by
  obtain ⟨front, space, mark, rfl, rfl, hopen, -⟩ := h.exists_mark hkeyword
  exact Text.indexOf?_singleton_append hopen _

end Calls

/-! ### The first call -/

/-- The search for calls finds one wherever there is one. -/
theorem isSome_foundAt?_callHead {position : Nat} :
    ((callHead keyword).foundAt? text position).isSome ↔ CallAt text keyword position := by
  rw [Pattern.isSome_foundAt?_iff]
  constructor
  · rintro ⟨-, hedge, hread⟩
    obtain ⟨⟨_, after⟩, hread⟩ := Option.isSome_iff_exists.1 hread
    obtain ⟨opened, hcalls⟩ := calls_of_read hread
    exact ⟨hedge, opened, after, hcalls⟩
  · rintro ⟨hedge, opened, after, hcalls⟩
    refine ⟨?_, hedge, Option.isSome_of_eq_some (read_callHead hcalls)⟩
    -- Past the end of the text nothing is left, and a call is not empty.
    by_contra hlength
    rw [List.drop_eq_nil_of_le (Nat.le_of_not_le hlength)] at hcalls
    generalize hnil : ([] : Text) = nothing at hcalls
    cases hcalls
    simp at hnil

/-- The call that is found is the first one. -/
theorem isLeast_callAt {found : Occurrence Unit} (h : (callHead keyword).find? text = some found) :
    IsLeast {position | CallAt text keyword position} found.start := by
  have hleast := Pattern.isLeast_of_find? h
  simp only [isSome_foundAt?_callHead] at hleast
  exact hleast

/-- When no call is found, there is none. -/
theorem not_callAt (h : (callHead keyword).find? text = none) (position : Nat) : ¬CallAt text keyword position := by
  rw [← isSome_foundAt?_callHead, Pattern.foundAt?_of_find?_eq_none h]
  exact Bool.false_ne_true

variable (hkeyword : ∀ c ∈ keyword, isWord c = true)

/-! ### The name -/

include hkeyword in
/-- The search for named calls finds a call wherever two quotation marks are left. -/
theorem isSome_foundAt?_namedCall {position : Nat} : ((namedCall keyword).foundAt? text position).isSome ↔
    CallAt text keyword position ∧ 2 ≤ (text.drop position).countP isPlainQuote := by
  rw [Pattern.isSome_foundAt?_iff, ← isSome_foundAt?_callHead, Pattern.isSome_foundAt?_iff, and_assoc, and_assoc]
  refine and_congr_right fun _ => and_congr_right fun _ => ?_
  constructor
  · intro hread
    obtain ⟨⟨value, after⟩, hread⟩ := Option.isSome_iff_exists.1 hread
    obtain ⟨opened, mark, hmark, -, hcalls⟩ := read_namedCall_iff.1 hread
    have hcount := hcalls.countP_isPlainQuote hkeyword
    rw [List.countP_append, List.countP_cons_of_pos hmark] at hcount
    exact ⟨Option.isSome_of_eq_some (read_callHead hcalls), by omega⟩
  · rintro ⟨hread, hcount⟩
    obtain ⟨⟨_, rest⟩, hread⟩ := Option.isSome_iff_exists.1 hread
    obtain ⟨opened, hcalls⟩ := calls_of_read hread
    rw [hcalls.countP_isPlainQuote hkeyword] at hcount
    obtain ⟨value, mark, after, rfl, hvalue, hmark⟩ := exists_firstMark (show 0 < rest.countP isPlainQuote by omega)
    exact Option.isSome_of_eq_some (read_namedCall_iff.2 ⟨opened, mark, hmark, hvalue, hcalls⟩)

include hkeyword in
/-- The named call that is found first is the first call of all, with what it has quoted first. -/
theorem namedCall_eq_first {start : Nat} (hfirst : IsLeast {position | CallAt text keyword position} start)
    {found : Occurrence Text} (h : (namedCall keyword).find? text = some found) :
    found.start = start ∧ found.value = firstQuoted (text.drop start) := by
  have hleast := Pattern.isLeast_of_find? h
  simp only [isSome_foundAt?_namedCall hkeyword] at hleast
  obtain ⟨⟨hcall, hcount⟩, hlower⟩ := hleast
  have hle : start ≤ found.start := hfirst.2 hcall
  -- What is left at the earlier call has at least the quotation marks that are left at the later one.
  have hmore := (List.drop_suffix_drop_left text hle).sublist.countP_le (p := isPlainQuote)
  have heq : found.start = start := Nat.le_antisymm (hlower ⟨hfirst.1, hcount.trans hmore⟩) hle
  obtain ⟨-, -, after, hread, -⟩ := Pattern.read_of_find? h
  obtain ⟨opened, mark, hmark, hvalue, hcalls⟩ := read_namedCall_iff.1 hread
  rw [heq] at hcalls
  exact ⟨heq, (hcalls.firstQuoted_eq hkeyword rfl hvalue hmark).symm⟩

include hkeyword in
/-- The name is what the first call has quoted first. -/
theorem name_eq_firstQuoted {start : Nat} (hfirst : IsLeast {position | CallAt text keyword position} start) :
    name text keyword = firstQuoted (text.drop start) := by
  rw [name]
  cases hfind : (namedCall keyword).find? text with
  | some found => exact (namedCall_eq_first hkeyword hfirst hfind).2
  | none =>
    -- The first call is not named either, so that fewer than two quotation marks are left there.
    have hnone := Pattern.foundAt?_of_find?_eq_none hfind start
    rw [← Option.not_isSome_iff_eq_none, isSome_foundAt?_namedCall hkeyword] at hnone
    exact (firstQuoted_eq_nil (Nat.lt_of_not_le fun hcount => hnone ⟨hfirst.1, hcount⟩)).symm

include hkeyword in
/-- Without a call there is no name. -/
theorem name_eq_nil (h : ∀ position, ¬CallAt text keyword position) : name text keyword = [] := by
  rw [name]
  cases hfind : (namedCall keyword).find? text with
  | none => rfl
  | some found =>
    have hnamed : CallAt text keyword found.start :=
      ((isSome_foundAt?_namedCall hkeyword).1 (Pattern.isLeast_of_find? hfind).1).1
    exact absurd hnamed (h found.start)

/-! ### The parentheses and the factory -/

/-- The first call of a keyword has its parenthesis at a position: it is closed further on, or the search for its close
fails there. -/
def OpensAt (text keyword : Text) (opened : Nat) : Prop :=
  (∃ stop, call text keyword = .ok (some (opened, stop))) ∨ call text keyword = .error (.unbalanced '(' opened)

include hkeyword in
/-- The parentheses that are found are those of the first call. -/
theorem call_eq_first {start opened : Nat} (hfirst : IsLeast {position | CallAt text keyword position} start)
    (hcalls : Calls keyword (text.drop start) opened rest) : call text keyword =
      (Delimiter.paren.close text (start + opened : Nat)).map fun stop => some (start + opened, stop) := by
  rw [call]
  cases hfind : (callHead keyword).find? text with
  | none => exact absurd hfirst.1 (not_callAt hfind start)
  | some found =>
    have heq : found.start = start := (isLeast_callAt hfind).unique hfirst
    have hlength : ¬text.length < start := by
      have hle := (Pattern.read_of_find? hfind).1
      omega
    have hparen : parenAfter text start = start + opened := by
      rw [parenAfter, Text.indexFrom?, if_neg hlength, hcalls.indexOf?_paren hkeyword]
      exact Nat.add_comm opened start
    simp only [heq, hparen]
    rfl

include hkeyword in
/-- The parenthesis is that of the first call. -/
theorem opensAt_iff {opened : Nat} : OpensAt text keyword opened ↔
    ∃ start n rest, IsLeast {position | CallAt text keyword position} start ∧
      Calls keyword (text.drop start) n rest ∧ opened = start + n := by
  constructor
  · intro hopens
    cases hfind : (callHead keyword).find? text with
    | none =>
      -- Without a call there is no parenthesis, neither one that is closed nor one that is not.
      have hnone : call text keyword = .ok none := by rw [call, hfind]
      rw [OpensAt, hnone] at hopens
      simp at hopens
    | some found =>
      have hfirst := isLeast_callAt hfind
      obtain ⟨n, rest, hcalls⟩ := hfirst.1.calls
      refine ⟨found.start, n, rest, hfirst, hcalls, ?_⟩
      -- Whether a close is found or not, the position that is told is the one from which it was looked for.
      rw [OpensAt, call_eq_first hkeyword hfirst hcalls] at hopens
      rcases Delimiter.close_cases .paren text (found.start + n : Nat) with ⟨stop, hclose⟩ | hclose
      · rw [hclose] at hopens
        simpa [Except.map, eq_comm] using hopens
      · rw [hclose] at hopens
        simp [Except.map, Delimiter.opening] at hopens
        omega
  · rintro ⟨start, n, rest, hfirst, hcalls, rfl⟩
    rw [OpensAt, call_eq_first hkeyword hfirst hcalls]
    rcases Delimiter.close_cases .paren text (start + n : Nat) with ⟨stop, hclose⟩ | hclose
    · rw [hclose]
      exact .inl ⟨stop, rfl⟩
    · rw [hclose]
      exact .inr rfl

include hkeyword in
/-- The factory is that of the parenthesis at which the first call opens. -/
theorem registered_of_opensAt {opened : Nat} (h : OpensAt text keyword opened) : Factory.registered text keyword =
    Delimiter.paren.close text opened >>= fun stop => Factory.ofCall text opened stop := by
  obtain ⟨start, n, rest, hfirst, hcalls, rfl⟩ := (opensAt_iff hkeyword).1 h
  rw [Factory.registered, call_eq_first hkeyword hfirst hcalls]
  rcases Delimiter.close_cases .paren text (start + n : Nat) with ⟨stop, hclose⟩ | hclose
  · rw [hclose]
    rfl
  · rw [hclose]
    rfl

include hkeyword in
/-- The name and the factory come from the same call. When the first call opens at a position, whether it is closed or
not, the name is what stands between the first two quotation marks behind that position, and the factory is that of the
call from that position on; a pattern that asks for the second mark finds no other call. When no call opens, there is
neither a name nor a factory. -/
theorem name_of_call :
    (∀ opened, OpensAt text keyword opened →
      name text keyword = firstQuoted (text.drop (opened + 1)) ∧
      Factory.registered text keyword =
        (Delimiter.paren.close text opened >>= fun stop => Factory.ofCall text opened stop) ∧
      ∃ start n rest, IsLeast {position | CallAt text keyword position} start ∧
        Calls keyword (text.drop start) n rest ∧ opened = start + n ∧
        ∀ found, (namedCall keyword).find? text = some found → found.start = start) ∧
    ((∀ opened, ¬OpensAt text keyword opened) →
      name text keyword = [] ∧ Factory.registered text keyword = .ok none) := by
  refine ⟨fun opened hopens => ?_, fun hnone => ?_⟩
  · obtain ⟨start, n, rest, hfirst, hcalls, rfl⟩ := (opensAt_iff hkeyword).1 hopens
    refine ⟨?_, registered_of_opensAt hkeyword hopens, start, n, rest, hfirst, hcalls, rfl, fun found hfound => ?_⟩
    · rw [name_eq_firstQuoted hkeyword hfirst, ← hcalls.firstQuoted_drop hkeyword, List.drop_drop, Nat.add_assoc]
    · exact (namedCall_eq_first hkeyword hfirst hfound).1
  · have hfind : (callHead keyword).find? text = none := by
      refine Option.eq_none_iff_forall_ne_some.2 fun found hfound => ?_
      have hfirst := isLeast_callAt hfound
      obtain ⟨n, rest, hcalls⟩ := hfirst.1.calls
      exact hnone _ ((opensAt_iff hkeyword).2 ⟨found.start, n, rest, hfirst, hcalls, rfl⟩)
    have hcall : call text keyword = .ok none := by rw [call, hfind]
    exact ⟨name_eq_nil hkeyword (not_callAt hfind), by rw [Factory.registered, hcall]; rfl⟩

/-- A call that is not closed, after a longer word and before another call: the two marks around the name differ, and
there is no factory, but the name is that of the call. -/
theorem name_of_call_unclosed :
    let text := txt "xcontroller('no'); a.controller (\"it's', $controller('later', 1)"
    (∀ c ∈ txt "controller", isWord c = true) ∧ OpensAt text (txt "controller") 32 ∧
      name text (txt "controller") = txt "it" ∧
      Factory.registered text (txt "controller") = .error (.unbalanced '(' 32) := by
  intro text
  have hkeyword : ∀ c ∈ txt "controller", isWord c = true := List.all_eq_true.1 rfl
  have hopens : OpensAt text (txt "controller") 32 := .inr (by decide +kernel)
  obtain ⟨hname, hfactory, -⟩ := (name_of_call hkeyword).1 32 hopens
  exact ⟨hkeyword, hopens, hname.trans (by decide), hfactory.trans (by decide)⟩

end Registration

end AngularUplift
