import AngularUplift.Watcher
import AngularUplift.Proofs.Harvest.Standing
import AngularUplift.Proofs.Text.Matching

/-!
# Calls that set up a watcher

What a call that sets up a scope watcher looks like, said without the readers that find it: it begins a line, and its
head is the indentation, the scope and the name of the method up to the parenthesis. Two heads have no character in
common, so the search for calls finds every one of them, in whatever arrangement they stand.

## Main definitions

* `Watcher.CallHead`, `Watcher.CallAt`: the head of a call, and a call at a position of a text.
* `Watcher.CallbackHead`: the head of a callback that is written in place.
* `Watcher.CallTrailer`: what goes with a call on its line.

## Main statements

* `Watcher.mem_occurrences_call_iff`: the search finds the calls.
* `Watcher.CallAt.opened_lt`: a call begins behind the head of the one before it.
* `Watcher.isGreatest_trailerEnd`: as much goes with a call as can.
-/

namespace AngularUplift

namespace Watcher

/-! ### Heads -/

/-- A text that is the head of a call: the indentation, the scope, and the name of the method up to its parenthesis. -/
inductive CallHead : (source : Text) → Prop
  /-- The parts of the head. -/
  | intro {indent receiver space : Text} (hindent : ∀ c ∈ indent, isGap c)
      (hreceiver : receiver = txt "$scope" ∨ receiver = txt "scope") (hspace : ∀ c ∈ space, isBlank c) :
      CallHead (indent ++ (receiver ++ (txt ".$watch" ++ (space ++ ['(']))))

/-- A call stands at a position, at the beginning of a line, and its parenthesis at another one. -/
structure CallAt (text : Text) (start opened : Nat) : Prop where
  /-- It begins a line. -/
  lineStart : start = 0 ∨ text[start - 1]? = some '\n'
  /-- Its head ends with the parenthesis. -/
  head : ∃ source rest, text.drop start = source ++ rest ∧ CallHead source ∧ start + source.length = opened + 1

variable {text source rest : Text} {start opened : Nat}

/-- The name of the scope is read from what begins with it. -/
theorem anyOf_scope {receiver : Text} (h : receiver = txt "$scope" ∨ receiver = txt "scope") (rest : Text) :
    Reader.anyOf [txt "$scope", txt "scope"] (receiver ++ rest) = some ((), rest) := by
  obtain rfl | rfl := h
  · rfl
  · rfl

/-- The pattern of calls reads every head, whatever follows it. -/
theorem read_call (h : CallHead source) (rest : Text) : call.read (source ++ rest) = some ((), rest) := by
  obtain @⟨indent, receiver, space, hindent, hreceiver, hspace⟩ := h
  simp only [List.append_assoc]
  refine Reader.bind_eq_some_iff.2 ⟨indent, _, Reader.run_append hindent ?_, ?_⟩
  · obtain rfl | rfl := hreceiver
    · exact @Reader.head_cons _ isGap '$' (by decide)
    · exact @Reader.head_cons _ isGap 's' (by decide)
  refine Reader.bind_eq_some_iff.2 ⟨(), _, anyOf_scope hreceiver _, ?_⟩
  refine Reader.bind_eq_some_iff.2 ⟨(), _, Reader.exactly_eq_some_iff.2 rfl, ?_⟩
  exact Reader.bind_eq_some_iff.2 ⟨space, _, Reader.run_append hspace (Reader.head_cons (by decide)),
    Reader.exactly_eq_some_iff.2 rfl⟩

/-- The pattern of calls reads what is written as a head. -/
theorem callHead_of_read {value : Unit} (h : call.read text = some (value, rest)) :
    ∃ source, text = source ++ rest ∧ CallHead source := by
  simp only [call, Reader.bind_eq_some_iff, Reader.exactly_eq_some_iff] at h
  obtain ⟨indent, afterIndent, rindent, _, afterReceiver, rreceiver, -, afterName, rfl, space, afterSpace, rspace,
    rfl⟩ := h
  obtain ⟨rfl, hindent⟩ := Reader.run_eq_some rindent
  obtain ⟨receiver, hreceiver, rfl⟩ := Reader.anyOf_eq_some rreceiver
  obtain ⟨rfl, hspace⟩ := Reader.run_eq_some rspace
  refine ⟨_, ?_, .intro hindent (by simpa using hreceiver) hspace⟩
  simp only [List.append_assoc]

/-- A head has no closing parenthesis in it. -/
theorem CallHead.close_notMem (h : CallHead source) : ')' ∉ source := by
  obtain ⟨hindent, hreceiver, hspace⟩ := h
  have hname : ')' ∉ txt "$scope" ∧ ')' ∉ txt "scope" ∧ ')' ∉ txt ".$watch" := by decide
  simp only [List.mem_append, not_or]
  refine ⟨notMem_of_class hindent (by decide), ?_, hname.2.2, notMem_of_class hspace (by decide), by decide⟩
  obtain rfl | rfl := hreceiver
  · exact hname.1
  · exact hname.2.1

/-- A head ends with an opening parenthesis. -/
theorem CallHead.exists_concat (h : CallHead source) : ∃ front, source = front ++ ['('] := by
  obtain @⟨indent, receiver, space, -, -, -⟩ := h
  exact ⟨indent ++ (receiver ++ (txt ".$watch" ++ space)), by simp only [List.append_assoc]⟩

/-- Behind its indentation a head goes on with the name of the scope. -/
theorem CallHead.dropWhile_isBlank (h : CallHead source) (rest : Text) :
    ∃ c tail, (source ++ rest).dropWhile isBlank = c :: tail ∧ c ≠ '(' := by
  obtain @⟨indent, receiver, space, hindent, hreceiver, -⟩ := h
  rw [List.append_assoc, List.dropWhile_append_of_pos fun c hc => isBlank_of_isGap (hindent c hc)]
  obtain rfl | rfl := hreceiver
  · exact ⟨'$', _, rfl, by decide⟩
  · exact ⟨'s', _, rfl, by decide⟩

/-- A head that begins before a line break does not go on into a head behind it. Only white space and the
parenthesis can stand behind a line break in a head. -/
theorem CallHead.length_le {late outer tail : Text} (houter : CallHead outer) (h : CallHead source)
    (hend : late.getLast? = some '\n') (hsplit : late ++ (source ++ rest) = outer ++ tail) :
    outer.length ≤ late.length := by
  obtain @⟨indent, receiver, space, hindent, hreceiver, hspace⟩ := houter
  have hclean : '\n' ∉ indent ++ (receiver ++ txt ".$watch") := by
    have hname : '\n' ∉ txt "$scope" ∧ '\n' ∉ txt "scope" ∧ '\n' ∉ txt ".$watch" := by decide
    simp only [List.mem_append, not_or]
    refine ⟨break_notMem_of_isGap hindent, ?_, hname.2.2⟩
    obtain rfl | rfl := hreceiver
    · exact hname.1
    · exact hname.2.1
  have hparts : late ++ (source ++ rest) = indent ++ (receiver ++ txt ".$watch") ++ (space ++ '(' :: tail) := by
    rw [hsplit]
    simp only [List.append_assoc, List.cons_append, List.nil_append]
  obtain ⟨more, rfl, -, hmore⟩ := exists_append_of_break hparts hend hclean
  obtain ⟨c, other, hdrop, hc⟩ := h.dropWhile_isBlank rest
  rcases List.append_eq_append_iff.1 hmore with ⟨inside, rfl, hinside⟩ | ⟨beyond, rfl, hbeyond⟩
  · -- The inner head would begin in white space that goes up to the parenthesis.
    rw [hinside, List.dropWhile_append_of_pos fun c hc => hspace c (List.mem_append_right more hc),
      List.dropWhile_cons_of_neg (by decide)] at hdrop
    exact absurd (List.cons.inj hdrop).1.symm hc
  · cases beyond with
    | nil =>
      rw [List.nil_append] at hbeyond
      rw [← hbeyond, List.dropWhile_cons_of_neg (by decide)] at hdrop
      exact absurd (List.cons.inj hdrop).1.symm hc
    | cons d beyond =>
      simp only [List.length_append, List.length_cons, List.length_nil]
      omega

/-! ### Positions -/

namespace CallAt

/-- A call stands in the text. -/
theorem start_le (h : CallAt text start opened) : start ≤ text.length := by
  obtain ⟨source, rest, hdrop, hhead, -⟩ := h.head
  obtain ⟨front, rfl⟩ := hhead.exists_concat
  have hlength := congrArg List.length hdrop
  simp only [List.length_drop, List.length_append, List.length_singleton] at hlength
  omega

/-- At its parenthesis stands an opening parenthesis. -/
theorem getElem_opened (h : CallAt text start opened) : start ≤ opened ∧ text[opened]? = some '(' := by
  obtain ⟨source, rest, hdrop, hhead, hlength⟩ := h.head
  obtain ⟨front, rfl⟩ := hhead.exists_concat
  rw [List.length_append, List.length_singleton] at hlength
  obtain rfl : opened = start + front.length := by omega
  rw [← List.getElem?_drop, hdrop, List.append_assoc]
  exact ⟨Nat.le_add_right .., by simp⟩

/-- The characters of a head. -/
theorem exists_getElem (h : CallAt text start opened) :
    ∃ source, CallHead source ∧
      ∀ position, start ≤ position → position ≤ opened → ∃ c ∈ source, text[position]? = some c := by
  obtain ⟨source, rest, hdrop, hhead, hlength⟩ := h.head
  refine ⟨source, hhead, fun position hstart hopened => ?_⟩
  obtain ⟨n, rfl⟩ := Nat.exists_eq_add_of_le hstart
  have hlt : n < source.length := by omega
  refine ⟨source[n], List.getElem_mem hlt, ?_⟩
  rw [← List.getElem?_drop, hdrop, List.getElem?_append_left hlt, List.getElem?_eq_getElem hlt]

/-- A head has no closing parenthesis in it. -/
theorem getElem_ne_close (h : CallAt text start opened) {position : Nat} (hstart : start ≤ position)
    (hopened : position ≤ opened) : text[position]? ≠ some ')' := by
  obtain ⟨source, hhead, hchars⟩ := h.exists_getElem
  obtain ⟨c, hc, hposition⟩ := hchars position hstart hopened
  rintro hclose
  rw [hposition, Option.some.injEq] at hclose
  exact hhead.close_notMem (hclose ▸ hc)

/-- A call begins behind the head of the one before it. -/
theorem opened_lt (h : CallAt text start opened) {other otherOpened : Nat} (hother : CallAt text other otherOpened)
    (hlt : start < other) : opened < other := by
  obtain ⟨source, rest, hdrop, hhead, hlength⟩ := h.head
  obtain ⟨inner, otherRest, hinner, hinnerHead, -⟩ := hother.head
  have hbreak : text[other - 1]? = some '\n' := hother.lineStart.resolve_left (Nat.ne_of_gt (Nat.zero_lt_of_lt hlt))
  have hle := hother.start_le
  -- What stands from the one call up to the other ends with a line break.
  have hlate : text.slice start other = text.slice start (other - 1) ++ ['\n'] := by
    have hlast := Text.slice_succ hbreak
    rw [Nat.sub_add_cancel (by omega)] at hlast
    rw [Text.slice_eq_append (by omega) (Nat.sub_le other 1) hle, hlast]
  have hsplit : text.slice start other ++ (inner ++ otherRest) = source ++ rest := by
    rw [← hdrop, ← hinner, ← Text.slice_length text start, ← Text.slice_length text other,
      ← Text.slice_eq_append hlt.le hle (Nat.le_refl _)]
  have hshort := hhead.length_le hinnerHead (by rw [hlate, List.getLast?_concat]) hsplit
  rw [Text.length_slice hle] at hshort
  omega

end CallAt

/-- An occurrence of the pattern of calls is a call. -/
theorem callAt_of_foundAt? {found : Occurrence Unit} (h : call.foundAt? text found.start = some found) :
    ∃ opened, CallAt text found.start opened ∧ found.stop = opened + 1 := by
  obtain ⟨hstart, hline, rest, hread, hstop⟩ := Pattern.read_of_foundAt? h
  obtain ⟨source, hdrop, hhead⟩ := callHead_of_read hread
  obtain ⟨front, rfl⟩ := hhead.exists_concat
  obtain ⟨hlength, -⟩ := Pattern.drop_stop_of_read hdrop hstop
  refine ⟨found.start + front.length, ⟨(lineStart_iff hstart).1 hline, _, rest, hdrop, hhead, ?_⟩, ?_⟩
  · rw [List.length_append, List.length_singleton, Nat.add_assoc]
  · rw [hlength, List.length_append, List.length_singleton, Nat.add_assoc]

/-- The search for calls finds every call. -/
theorem CallAt.mem_occurrences (h : CallAt text start opened) : ⟨start, opened + 1, ()⟩ ∈ call.occurrences text := by
  obtain ⟨source, rest, hdrop, hhead, hlength⟩ := h.head
  have hstart := h.start_le
  have hfront : (text.take start).length = start := List.length_take_of_le hstart
  have hleft : call.left (text.take start).reverse (text.drop start) = true := (lineStart_iff hstart).2 h.lineStart
  have hat : call.at? (text.take start).reverse (text.drop start) = some (source.length, ()) := by
    rw [Pattern.at?, if_pos hleft, hdrop, read_call hhead]
    simp
  have hmem := Pattern.mem_occurrences_of_at? hat fun early late hsplit hne m other hother => by
    -- A call that begins earlier has its head behind it where this one begins.
    have hfound := Pattern.foundAt?_append early.reverse (late ++ text.drop start) hother
    have htext : early ++ (late ++ text.drop start) = text := by
      rw [← List.append_assoc, ← hsplit, List.take_append_drop]
    rw [List.reverse_reverse, List.length_reverse, htext] at hfound
    let found : Occurrence Unit := ⟨early.length, early.length + m, other⟩
    have hat : call.foundAt? text found.start = some found := hfound
    obtain ⟨otherOpened, hcall, hstop⟩ := callAt_of_foundAt? hat
    have hsum : early.length + late.length = start := by rw [← hfront, hsplit, List.length_append]
    have hlate := List.length_pos_of_ne_nil hne
    have hlt := hcall.opened_lt h (show early.length < start by omega)
    have hend : early.length + m = otherOpened + 1 := hstop
    omega
  rwa [List.take_append_drop, hfront, hlength] at hmem

/-- What the search for calls finds are the calls. -/
theorem mem_occurrences_call_iff {found : Occurrence Unit} :
    found ∈ call.occurrences text ↔ ∃ opened, CallAt text found.start opened ∧ found.stop = opened + 1 := by
  constructor
  · exact fun h => callAt_of_foundAt? (Pattern.foundAt?_of_mem_occurrences h)
  · rintro ⟨opened, hcall, hstop⟩
    obtain ⟨start, stop, value⟩ := found
    simp only at hcall hstop
    rw [hstop]
    exact hcall.mem_occurrences

/-- A call has one parenthesis. -/
theorem CallAt.unique (h : CallAt text start opened) {other : Nat} (hother : CallAt text start other) :
    opened = other := by
  have hfirst := Pattern.foundAt?_of_mem_occurrences h.mem_occurrences
  have hsecond := Pattern.foundAt?_of_mem_occurrences hother.mem_occurrences
  simp only at hfirst hsecond
  rw [hfirst, Option.some.injEq, Occurrence.mk.injEq] at hsecond
  exact Nat.succ_injective hsecond.2.1

/-! ### Callbacks -/

/-- A text that is the head of a callback written in place, with the given parameters, up to its opening brace. -/
inductive CallbackHead (parameters : Text) : (source : Text) → Prop
  /-- The parts of the head, with white space between them. -/
  | intro {gap label space after : Text} (hgap : ∀ c ∈ gap, isBlank c) (hlabel : ∀ c ∈ label, isName c)
      (hspace : ∀ c ∈ space, isBlank c) (hparameters : ')' ∉ parameters) (hafter : ∀ c ∈ after, isBlank c) :
      CallbackHead parameters (txt "function" ++ (gap ++ (label ++ (space ++ (['('] ++
        (parameters ++ ([')'] ++ (after ++ ['{']))))))))

/-- The head of a callback is read, whatever follows it. -/
theorem read_callbackHead {parameters : Text} (h : CallbackHead parameters source) (rest : Text) :
    callbackHead (source ++ rest) = some (parameters, rest) := by
  obtain @⟨gap, label, space, after, hgap, hlabel, hspace, hparameters, hafter⟩ := h
  simp only [List.append_assoc]
  refine Reader.bind_eq_some_iff.2 ⟨(), parameters ++ ([')'] ++ (after ++ (['{'] ++ rest))), ?_, ?_⟩
  · refine Reader.bind_eq_some_iff.2 ⟨(), _, Reader.exactly_eq_some_iff.2 rfl, ?_⟩
    exact MemberHead.read_label hgap hlabel hspace _
  refine Reader.bind_eq_some_iff.2 ⟨parameters, [')'] ++ (after ++ (['{'] ++ rest)), Reader.run_append ?_ ?_, ?_⟩
  · exact fun c hc => by simpa using fun heq : c = ')' => hparameters (heq ▸ hc)
  · exact Reader.head_cons rfl
  refine Reader.bind_eq_some_iff.2 ⟨(), _, Reader.exactly_eq_some_iff.2 rfl, ?_⟩
  refine Reader.bind_eq_some_iff.2 ⟨after, _, Reader.run_append hafter (Reader.head_cons (by decide)), ?_⟩
  exact Reader.bind_eq_some_iff.2 ⟨(), rest, Reader.exactly_eq_some_iff.2 rfl, rfl⟩

/-- What is read as the head of a callback is one. -/
theorem callbackHead_of_read {parameters : Text} (h : callbackHead text = some (parameters, rest)) :
    ∃ source, text = source ++ rest ∧ CallbackHead parameters source := by
  simp only [callbackHead, Reader.functionHead, bind_assoc, Reader.bind_eq_some_iff, Reader.exactly_eq_some_iff,
    Reader.pure_eq_some_iff] at h
  obtain ⟨-, afterWord, rfl, gap, afterGap, rgap, label, afterLabel, rlabel, space, afterSpace, rspace, -,
    afterOpen, rfl, found, afterParameters, rparameters, -, afterClose, rfl, after, afterBlank, rafter, -, final, rfl,
    rfl, rfl⟩ := h
  obtain ⟨rfl, hgap⟩ := Reader.run_eq_some rgap
  obtain ⟨rfl, hlabel⟩ := Reader.run_eq_some rlabel
  obtain ⟨rfl, hspace⟩ := Reader.run_eq_some rspace
  obtain ⟨rfl, hparameters⟩ := Reader.run_eq_some rparameters
  obtain ⟨rfl, hafter⟩ := Reader.run_eq_some rafter
  refine ⟨_, ?_, .intro hgap hlabel hspace (fun hmem => absurd (hparameters _ hmem) (by decide)) hafter⟩
  simp only [List.append_assoc]
  rfl

/-! ### Trailers -/

/-- What goes with a call on its line: spaces and tabs, a semicolon or none, spaces and tabs, and the line break or
none. -/
def CallTrailer (source : Text) : Prop :=
  ∃ trailer ending, source = trailer ++ ending ∧ IsTrailer trailer ∧ (ending = [] ∨ ending = ['\n'])

/-- No trailer has a closing parenthesis in it. -/
theorem CallTrailer.close_notMem (h : CallTrailer source) : ')' ∉ source := by
  obtain ⟨trailer, ending, rfl, ⟨before, mark, after, rfl, hbefore, hmark, hafter⟩, hending⟩ := h
  simp only [List.mem_append, not_or]
  refine ⟨⟨notMem_of_class hbefore (by decide), ?_, notMem_of_class hafter (by decide)⟩, ?_⟩
  · obtain rfl | rfl := hmark <;> decide
  · obtain rfl | rfl := hending <;> decide

/-- A piece that is not required leaves a text of the same length or a shorter one. -/
theorem length_le_of_optionally {piece : Text} {value : Unit} (h : Reader.optionally piece text = some (value, rest)) :
    rest.length ≤ text.length := by
  obtain rfl | ⟨rfl, -⟩ := Reader.optionally_eq_some h
  · simp
  · exact Nat.le_refl _

/-- A piece that is not required is taken where it comes next. -/
theorem optionally_append {piece : Text} {value : Unit} {other : Text}
    (h : Reader.optionally piece (piece ++ other) = some (value, rest)) : rest = other := by
  obtain hrest | ⟨-, hnot⟩ := Reader.optionally_eq_some h
  · exact (List.append_cancel_left hrest).symm
  · exact absurd (List.prefix_append piece other) hnot

/-- A gap takes the spaces and tabs that a text begins with. -/
theorem rest_of_gap {space taken : Text} (hspace : ∀ c ∈ space, isGap c)
    (h : Reader.gap (space ++ text) = some (taken, rest)) : rest = text.dropWhile isGap := by
  simp only [Reader.gap, Reader.run, Option.some.injEq, Prod.mk.injEq] at h
  rw [← h.2, List.dropWhile_append_of_pos hspace]

/-- What the reader of trailers takes is one. -/
theorem callTrailer_of_read {value : Unit} (h : trailer text = some (value, rest)) :
    ∃ taken, text = taken ++ rest ∧ CallTrailer taken := by
  simp only [trailer, Reader.bind_eq_some_iff] at h
  obtain ⟨before, afterBefore, rbefore, _, afterMark, rmark, after, afterGap, rafter, rending⟩ := h
  obtain ⟨rfl, hbefore⟩ := Reader.run_eq_some rbefore
  obtain ⟨rfl, hafter⟩ := Reader.run_eq_some rafter
  obtain ⟨mark, rfl, hmark⟩ : ∃ mark, afterBefore = mark ++ (after ++ afterGap) ∧ (mark = [] ∨ mark = [';']) := by
    obtain hsemicolon | ⟨hsame, -⟩ := Reader.optionally_eq_some rmark
    · exact ⟨[';'], hsemicolon, .inr rfl⟩
    · exact ⟨[], hsame.symm, .inl rfl⟩
  obtain ⟨ending, rfl, hending⟩ : ∃ ending, afterGap = ending ++ rest ∧ (ending = [] ∨ ending = ['\n']) := by
    obtain hbreak | ⟨hsame, -⟩ := Reader.optionally_eq_some rending
    · exact ⟨['\n'], hbreak, .inr rfl⟩
    · exact ⟨[], hsame.symm, .inl rfl⟩
  refine ⟨before ++ (mark ++ after) ++ ending, ?_, _, ending, rfl, ⟨before, mark, after, rfl, hbefore, hmark, hafter⟩,
    hending⟩
  simp only [List.append_assoc]

/-- The reader of trailers leaves no more than is left behind any other trailer. -/
theorem CallTrailer.length_le (h : CallTrailer source) {tail : Text} {value : Unit}
    (hread : trailer (source ++ tail) = some (value, rest)) : rest.length ≤ tail.length := by
  obtain ⟨_, ending, rfl, ⟨before, mark, after, rfl, hbefore, hmark, hafter⟩, hending⟩ := h
  simp only [trailer, Reader.bind_eq_some_iff] at hread
  obtain ⟨gap, afterBefore, rbefore, _, afterMark, rmark, _, afterGap, rafter, rending⟩ := hread
  have hmarkLe := length_le_of_optionally rmark
  have hendingLe := length_le_of_optionally rending
  have hgapLe : afterGap.length ≤ afterMark.length := by
    rw [(Reader.run_eq_some rafter).1, List.length_append]
    omega
  have hdropLe : (tail.dropWhile isGap).length ≤ tail.length := (List.dropWhile_suffix _).length_le
  -- Where the trailer ends with a line break, the reader comes to it behind its own gaps, and takes it too.
  have hbreak : ('\n' :: tail).dropWhile isGap = '\n' :: tail := List.dropWhile_cons_of_neg (by decide)
  have htaken : afterGap = '\n' :: tail → rest.length ≤ tail.length := by
    rintro rfl
    have hending : Reader.optionally ['\n'] (['\n'] ++ tail) = some (_, rest) := rending
    rw [optionally_append hending]
  obtain rfl | rfl := hmark
  · -- Without a semicolon the first gap of the reader takes both gaps of the trailer.
    have hfront : ∀ c ∈ before ++ after, isGap c := List.forall_mem_append.2 ⟨hbefore, hafter⟩
    rw [List.nil_append, List.append_assoc] at rbefore
    have hopen := rest_of_gap hfront rbefore
    obtain rfl | rfl := hending
    · rw [List.nil_append] at hopen
      rw [hopen] at hmarkLe
      omega
    · rw [List.singleton_append, hbreak] at hopen
      rw [hopen] at rmark
      obtain rfl := (Prod.mk.inj (Option.some.inj rmark)).2
      exact htaken ((rest_of_gap (List.forall_mem_nil _) rafter).trans hbreak)
  · have hwhole : before ++ ([';'] ++ after) ++ ending ++ tail = before ++ ([';'] ++ (after ++ (ending ++ tail))) := by
      simp only [List.append_assoc]
    rw [hwhole] at rbefore
    have hopen := rest_of_gap hbefore rbefore
    rw [List.singleton_append, List.dropWhile_cons_of_neg (by decide), ← List.singleton_append] at hopen
    rw [hopen] at rmark
    rw [optionally_append rmark] at rafter
    have hclosed := rest_of_gap hafter rafter
    obtain rfl | rfl := hending
    · rw [List.nil_append] at hclosed
      rw [hclosed] at hendingLe
      omega
    · exact htaken (hclosed.trans hbreak)

/-- The ends of the trailers that begin at a position of a text. -/
def trailerStops (text : Text) (position : Nat) : Set Nat :=
  {stop | position ≤ stop ∧ stop ≤ text.length ∧ CallTrailer (text.slice position stop)}

/-- Where a call ends, as much of its line goes with it as can. -/
theorem isGreatest_trailerEnd {position : Nat} (h : position ≤ text.length) :
    IsGreatest (trailerStops text position) (trailerEnd text position) := by
  obtain ⟨rest, hread⟩ : ∃ rest, trailer (text.drop position) = some ((), rest) := ⟨_, rfl⟩
  obtain ⟨taken, hdrop, htaken⟩ := callTrailer_of_read hread
  have hlength : taken.length + rest.length = text.length - position := by
    rw [← List.length_append, ← hdrop, List.length_drop]
  have hstop : trailerEnd text position = position + taken.length := by
    simp only [trailerEnd, hread]
    omega
  constructor
  · rw [hstop]
    refine ⟨Nat.le_add_right .., by omega, ?_⟩
    rw [Text.slice_eq_of_drop hdrop]
    exact htaken
  · rintro other ⟨hother, hle, htrailer⟩
    have hsplit : text.drop position = text.slice position other ++ text.drop other := by
      rw [← Text.slice_length text position, ← Text.slice_length text other,
        ← Text.slice_eq_append hother hle (Nat.le_refl _)]
    have hshort := htrailer.length_le (hsplit ▸ hread)
    rw [List.length_drop] at hshort
    omega

end Watcher

end AngularUplift
