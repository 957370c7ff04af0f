import AngularUplift.Proofs.Buffer.Residual
import AngularUplift.Proofs.Watcher.Call

/-!
# What the extraction of watchers takes and what it leaves

The extraction of watchers goes through the calls of a body once, from the left to the right. It cuts out the calls
that set up a watcher, with what goes with them on their lines, and passes over the calls inside them. A call that is
malformed is left: its parenthesis is not closed, or its arguments make no watcher. The calls between the parentheses
of a malformed call are calls like any other, so a watcher can be cut out of a call that stays.

## Main definitions

* `Watcher.Unusable`, `Watcher.Malformed`: arguments that make no watcher, and calls that are left.
* `Watcher.CallCut`: the piece that is cut out for a watcher.
* `Watcher.LeftAt`: a call that stays but for the watchers between its parentheses.
* `Watcher.cuts`: the cuts of the extraction.

## Main statements

* `Watcher.ofArguments_eq_some_iff`: the arguments that make a watcher.
* `Watcher.extractFrom_spec`: the extraction cuts out what one pass over the calls does.
* `Watcher.exists_cut_or_malformed`: every call is cut out, goes with another one, or is malformed and left.
* `Watcher.extractWatchers_conserves`: the extraction of watchers, for every body.
-/

namespace AngularUplift

namespace Watcher

/-! ### Arguments -/

/-- Arguments that make no watcher: there are fewer than two, the target is empty, or the brace of a callback that is
written in place is not closed. -/
inductive Unusable : (arguments : List Text) → Prop
  /-- The target or the callback is missing. -/
  | few {arguments : List Text} (h : arguments.length < 2) : Unusable arguments
  /-- The target is empty. -/
  | emptyTarget (others : List Text) : Unusable ([] :: others)
  /-- The callback is not closed. -/
  | unclosedCallback {target callback parameters head rest : Text} {others : List Text}
      (hcallback : Text.trim callback = head ++ rest) (hhead : CallbackHead parameters head)
      (h : ∀ stop, ¬Delimiter.brace.Closes (Text.trim callback) (head.length - 1) stop) :
      Unusable (target :: callback :: others)

/-- The head of a callback ends with its brace. -/
theorem CallbackHead.exists_concat {parameters source : Text} (h : CallbackHead parameters source) :
    ∃ front, source = front ++ ['{'] := by
  obtain @⟨gap, label, space, after, -, -, -, -, -⟩ := h
  exact ⟨txt "function" ++ (gap ++ (label ++ (space ++ (['('] ++ (parameters ++ ([')'] ++ after)))))),
    by simp only [List.append_assoc]⟩

/-- A callback makes a watcher unless it is written in place and its brace is not closed. -/
theorem ofCallback_eq_ok_iff (target callback : Text) :
    (∃ w, ofCallback target callback = .ok w) ↔
      ¬∃ parameters head rest, callback = head ++ rest ∧ CallbackHead parameters head ∧
        ∀ stop, ¬Delimiter.brace.Closes callback (head.length - 1) stop := by
  have hbrace : ∀ {parameters head rest : Text}, callback = head ++ rest → CallbackHead parameters head →
      ((callback.length - rest.length : Nat) : Int) - 1 = ((head.length - 1 : Nat) : Int) := by
    rintro parameters head rest rfl hhead
    obtain ⟨front, rfl⟩ := hhead.exists_concat
    simp only [List.length_append, List.length_singleton]
    omega
  rw [ofCallback]
  cases hread : callbackHead callback with
  | none =>
    refine iff_of_true ⟨_, rfl⟩ ?_
    rintro ⟨parameters, head, rest, rfl, hhead, -⟩
    rw [read_callbackHead hhead] at hread
    cases hread
  | some found =>
    obtain ⟨parameters, rest⟩ := found
    obtain ⟨head, hcallback, hhead⟩ := callbackHead_of_read hread
    simp only [hbrace hcallback hhead]
    cases hclose : Delimiter.brace.close callback ((head.length - 1 : Nat) : Int) with
    | ok stop =>
      refine iff_of_true ⟨_, rfl⟩ ?_
      rintro ⟨others, other, rest', hother, hotherHead, hnone⟩
      -- The head of a callback is read in one way.
      have hlength : rest' = rest := by
        have hread' := read_callbackHead hotherHead rest'
        rw [← hother, hread, Option.some.injEq, Prod.mk.injEq] at hread'
        exact hread'.2.symm
      subst hlength
      obtain rfl := List.append_cancel_right (hcallback.symm.trans hother)
      exact hnone stop (Delimiter.close_eq_ok_iff.1 hclose)
    | error fault =>
      refine iff_of_false (fun ⟨w, hw⟩ => by cases hw) (not_not.2 ⟨parameters, head, rest, hcallback, hhead, ?_⟩)
      intro stop hcloses
      rw [Delimiter.close_eq_ok_iff.2 hcloses] at hclose
      cases hclose

/-- The arguments that make a watcher. -/
theorem ofArguments_eq_some_iff (arguments : List Text) :
    (∃ w, ofArguments arguments = .ok (some w)) ↔ ¬Unusable arguments := by
  match arguments with
  | [] => exact iff_of_false (fun ⟨w, hw⟩ => by cases hw) (not_not.2 (.few (by decide)))
  | [target] => exact iff_of_false (fun ⟨w, hw⟩ => by cases hw) (not_not.2 (.few (by simp)))
  | [] :: callback :: others =>
    exact iff_of_false (fun ⟨w, hw⟩ => by cases hw) (not_not.2 (.emptyTarget _))
  | (c :: target) :: callback :: others =>
    have hmake : (∃ w, ofArguments ((c :: target) :: callback :: others) = .ok (some w)) ↔
        ∃ w, ofCallback (targetOf (c :: target)) (Text.trim callback) = .ok w := by
      show (∃ w, some <$> ofCallback (targetOf (c :: target)) (Text.trim callback) = .ok (some w)) ↔ _
      cases ofCallback (targetOf (c :: target)) (Text.trim callback) with
      | ok w => exact iff_of_true ⟨w, rfl⟩ ⟨w, rfl⟩
      | error fault => exact iff_of_false (fun ⟨w, hw⟩ => by cases hw) (fun ⟨w, hw⟩ => by cases hw)
    rw [hmake, ofCallback_eq_ok_iff, not_iff_not]
    constructor
    · rintro ⟨parameters, head, rest, hcallback, hhead, hnone⟩
      exact .unclosedCallback hcallback hhead hnone
    · rintro (hfew | _ | ⟨hcallback, hhead, hnone⟩)
      · simp only [List.length_cons] at hfew
        omega
      · exact ⟨_, _, _, hcallback, hhead, hnone⟩

/-! ### Calls -/

/-- A call that makes no watcher: its parenthesis is not closed, or its arguments are of no use. -/
inductive Malformed (text : Text) (opened : Nat) : Prop
  /-- The parenthesis is not closed. -/
  | unclosed (h : ∀ closed, ¬Delimiter.paren.Closes text opened closed)
  /-- The arguments make no watcher. -/
  | unusable {closed : Nat} (hcloses : Delimiter.paren.Closes text opened closed)
      (h : Unusable (Text.splitArguments (text.slice (opened + 1) closed)))

/-- A piece that is cut out for a watcher: a call from the beginning of its line to the end of its trailer, which is as
long as it can be. -/
structure CallCut (text : Text) (cut : Cut Watcher) (opened closed : Nat) : Prop where
  /-- The piece begins with a call. -/
  call : CallAt text cut.start opened
  /-- The parenthesis of the call is closed. -/
  closes : Delimiter.paren.Closes text opened closed
  /-- The arguments make the watcher. -/
  value : ofArguments (Text.splitArguments (text.slice (opened + 1) closed)) = .ok (some cut.value)
  /-- The piece ends with the trailer. -/
  stop : IsGreatest (trailerStops text (closed + 1)) cut.stop

variable {text : Text} {start opened closed : Nat}

/-- What a call is read as: a cut, or nothing. -/
def readCut (text : Text) (found : Occurrence Unit) : Except Unit (Nat × Watcher) :=
  match read text found with
  | .ok (some (watcher, stop)) => .ok (stop, watcher)
  | _ => .error ()

/-- A call whose parenthesis is not closed is left. -/
theorem readCut_of_not_closes (h : ∀ closed, ¬Delimiter.paren.Closes text opened closed) :
    readCut text ⟨start, opened + 1, ()⟩ = .error () := by
  have hopened : ((opened + 1 : Nat) : Int) - 1 = (opened : Int) := by omega
  rw [readCut, read, hopened]
  cases hclose : Delimiter.paren.close text opened with
  | ok closed => exact absurd (Delimiter.close_eq_ok_iff.1 hclose) (h closed)
  | error fault => rfl

/-- A call whose parenthesis is closed is cut out, up to the end of its trailer, if its arguments make a watcher. -/
theorem readCut_of_closes (h : Delimiter.paren.Closes text opened closed) :
    readCut text ⟨start, opened + 1, ()⟩ =
      match ofArguments (Text.splitArguments (text.slice (opened + 1) closed)) with
      | .ok (some watcher) => .ok (trailerEnd text (closed + 1), watcher)
      | _ => .error () := by
  have hopened : ((opened + 1 : Nat) : Int) - 1 = (opened : Int) := by omega
  rw [readCut, read, hopened, Delimiter.close_eq_ok_iff.2 h]
  simp only [bind, Except.bind]
  rcases ofArguments (Text.splitArguments (text.slice (opened + 1) closed)) with fault | _ | watcher <;> rfl

/-- What is read as a cut is one. -/
theorem callCut_of_readCut (hcall : CallAt text start opened) {stop : Nat} {watcher : Watcher}
    (h : readCut text ⟨start, opened + 1, ()⟩ = .ok (stop, watcher)) :
    ∃ closed, CallCut text ⟨start, stop, watcher⟩ opened closed := by
  by_cases hcloses : ∃ closed, Delimiter.paren.Closes text opened closed
  · obtain ⟨closed, hcloses⟩ := hcloses
    rw [readCut_of_closes hcloses] at h
    split at h
    · next found hfound =>
      obtain ⟨rfl, rfl⟩ := Prod.mk.inj (Except.ok.inj h)
      exact ⟨closed, hcall, hcloses, hfound, isGreatest_trailerEnd hcloses.lt_length⟩
    · cases h
  · rw [readCut_of_not_closes (not_exists.1 hcloses)] at h
    cases h

/-- The calls that are left are the malformed ones. -/
theorem readCut_eq_error_iff : readCut text ⟨start, opened + 1, ()⟩ = .error () ↔ Malformed text opened := by
  by_cases hcloses : ∃ closed, Delimiter.paren.Closes text opened closed
  · obtain ⟨closed, hcloses⟩ := hcloses
    rw [readCut_of_closes hcloses]
    have husable := ofArguments_eq_some_iff (Text.splitArguments (text.slice (opened + 1) closed))
    have hmalformed : Malformed text opened ↔ Unusable (Text.splitArguments (text.slice (opened + 1) closed)) := by
      constructor
      · rintro (hnone | ⟨hother, harguments⟩)
        · exact absurd hcloses (hnone closed)
        · exact hcloses.unique hother ▸ harguments
      · exact .unusable hcloses
    rw [hmalformed, ← not_iff_not, ← husable]
    split
    · next watcher hwatcher => exact iff_of_true (by simp) ⟨watcher, hwatcher⟩
    · next hnone => exact iff_of_false (by simp) fun ⟨watcher, hwatcher⟩ => hnone watcher hwatcher
  · have hnone := not_exists.1 hcloses
    exact iff_of_true (readCut_of_not_closes hnone) (.unclosed hnone)

namespace CallCut

variable {cut : Cut Watcher}

/-- A cut goes beyond the parenthesis that closes its call, and ends in the text. -/
theorem bounds (h : CallCut text cut opened closed) :
    cut.start < closed ∧ closed < cut.stop ∧ cut.stop ≤ text.length := by
  obtain ⟨hstart, -⟩ := h.call.getElem_opened
  obtain ⟨hle, hend, -⟩ := h.stop.1
  have hlt := h.closes.lt
  omega

/-- Behind the parenthesis that closes its call a cut has no closing parenthesis. -/
theorem getElem_ne_close (h : CallCut text cut opened closed) {position : Nat} (hclosed : closed < position)
    (hstop : position < cut.stop) : text[position]? ≠ some ')' := by
  intro hclose
  obtain ⟨hle, hend, htrailer⟩ := h.stop.1
  apply htrailer.close_notMem
  obtain ⟨n, rfl⟩ := Nat.exists_eq_add_of_le (Nat.succ_le_of_lt hclosed)
  rw [← Text.getElem?_slice hstop] at hclose
  exact List.mem_of_getElem? hclose

/-- A cut that begins between the parentheses of another call ends there. -/
theorem stop_le_of_lt (h : CallCut text cut opened closed) {outer limit : Nat}
    (houter : Delimiter.paren.Closes text outer limit) (hstart : outer < cut.start) (hlimit : cut.start < limit) :
    cut.stop ≤ limit := by
  -- Neither the head nor the trailer reaches over the closing parenthesis of the outer call.
  have hopened : opened < limit := by
    by_contra! hle
    exact h.call.getElem_ne_close hlimit.le hle houter.closing
  obtain ⟨hle, -⟩ := h.call.getElem_opened
  have hclosed : closed < limit := (houter.apart_or_nested h.closes (by omega)).resolve_left (by omega)
  by_contra! hlt
  exact h.getElem_ne_close hclosed hlt houter.closing

end CallCut

/-! ### The pass -/

/-- The cuts of the extraction: those of one pass over the calls of a body. -/
def cuts (body : Text) : List (Cut Watcher) := cutsOf (sweep (readCut body) 0 (call.occurrences body))

/-- The cuts of a list of calls are pieces of the text. -/
theorem callCut_of_mem_occurrences {found : Occurrence Unit} (hfound : found ∈ call.occurrences text) {stop : Nat}
    {watcher : Watcher} (h : readCut text found = .ok (stop, watcher)) :
    ∃ opened closed, CallCut text ⟨found.start, stop, watcher⟩ opened closed := by
  obtain ⟨opened, hcall, hstop⟩ := mem_occurrences_call_iff.1 hfound
  obtain ⟨start, _, value⟩ := found
  simp only at hcall hstop
  subst hstop
  obtain ⟨closed, hcut⟩ := callCut_of_readCut hcall h
  exact ⟨opened, closed, hcut⟩

/-- A call that can be read is shorter than its cut, which ends in the text. -/
theorem bounds_of_readCut {found : Occurrence Unit} (hfound : found ∈ call.occurrences text) (stop : Nat)
    (watcher : Watcher) (h : readCut text found = .ok (stop, watcher)) : found.start < stop ∧ stop ≤ text.length := by
  obtain ⟨opened, closed, hcut⟩ := callCut_of_mem_occurrences hfound h
  exact ⟨hcut.bounds.1.trans hcut.bounds.2.1, hcut.bounds.2.2⟩

/-- Every cut is a piece of the form that a watcher is cut out in. -/
theorem callCut_of_mem_cuts {body : Text} {cut : Cut Watcher} (h : cut ∈ cuts body) :
    ∃ opened closed, CallCut body cut opened closed := by
  obtain ⟨-, found, hfound, hstart, hok⟩ := exists_of_mem_sweep
    (fun found hfound stop watcher hok => (bounds_of_readCut hfound stop watcher hok).1) h
  obtain ⟨opened, closed, hcut⟩ := callCut_of_mem_occurrences hfound hok
  rw [hstart] at hcut
  exact ⟨opened, closed, hcut⟩

/-- A position of a text is consumed when a span covers it. -/
theorem isConsumed_iff_covers (buffer : SourceBuffer) (index : Int) :
    buffer.isConsumed index = true ↔ Covers buffer.spans index := by
  simp only [SourceBuffer.isConsumed, List.any_eq_true, decide_eq_true_eq, Covers]

/-- The extraction from a list of calls cuts out what one pass over them does. The calls that are passed over are
those that begin inside the last cut: from the beginning of that cut on, nothing but the cut is consumed. -/
theorem extractFrom_spec {buffer : SourceBuffer} (hcanonical : Canonical buffer.text.length buffer.spans)
    {occurrences : List (Occurrence Unit)}
    (hsorted : occurrences.Pairwise fun first second => first.start ≤ second.start)
    (hbounds : ∀ found ∈ occurrences, ∀ stop watcher, readCut buffer.text found = .ok (stop, watcher) →
      found.start < stop ∧ stop ≤ buffer.text.length)
    {base least : Nat} (hbase : ∀ found ∈ occurrences, base ≤ found.start)
    (hleast : ∀ position : Nat, base ≤ position → (Covers buffer.spans position ↔ position < least)) :
    let cuts := cutsOf (sweep (readCut buffer.text) least occurrences)
    let result := extractFrom buffer occurrences
    result.1 = cuts.map (·.value) ∧ result.2.1.text = buffer.text ∧
      Canonical buffer.text.length result.2.1.spans ∧
      ∀ index : Nat, Covers result.2.1.spans index ↔
        Covers buffer.spans index ∨ ∃ cut ∈ cuts, cut.start ≤ index ∧ index < cut.stop := by
  -- The induction is on the calls that are still to come; what is consumed before them does not matter.
  induction occurrences generalizing buffer base least with
  | nil => exact ⟨rfl, rfl, hcanonical, fun index => by simp [extractFrom, sweep, cutsOf]⟩
  | cons found rest ih =>
    obtain ⟨hfirst, hrestSorted⟩ := List.pairwise_cons.1 hsorted
    obtain ⟨hfoundBounds, hrestBounds⟩ := List.forall_mem_cons.1 hbounds
    obtain ⟨hfoundBase, hrestBase⟩ := List.forall_mem_cons.1 hbase
    have hpassed := ih hcanonical hrestSorted hrestBounds hrestBase hleast
    have hconsumed : buffer.isConsumed found.start = true ↔ found.start < least := by
      rw [isConsumed_iff_covers, hleast found.start hfoundBase]
    rw [extractFrom, sweep]
    by_cases hinside : found.start < least
    · rw [if_pos (hconsumed.2 hinside), if_pos hinside]
      exact hpassed
    rw [if_neg (mt hconsumed.1 hinside), if_neg hinside]
    cases hread : read buffer.text found with
    | error fault =>
      have hcut : readCut buffer.text found = .error () := by rw [readCut, hread]
      rw [hcut]
      exact hpassed
    | ok made =>
      cases made with
      | none =>
        have hcut : readCut buffer.text found = .error () := by rw [readCut, hread]
        rw [hcut]
        exact hpassed
      | some pair =>
        obtain ⟨watcher, stop⟩ := pair
        have hcut : readCut buffer.text found = .ok (stop, watcher) := by rw [readCut, hread]
        obtain ⟨hlt, hle⟩ := hfoundBounds stop watcher hcut
        rw [hcut]
        -- The call begins behind the cuts so far, so from there on only its own cut is consumed.
        have hcovers : ∀ position : Nat, Covers (buffer.consume found.start stop).spans position ↔
            Covers buffer.spans position ∨ found.start ≤ position ∧ position < stop := by
          intro position
          rw [SourceBuffer.covers_consume hcanonical]
          refine or_congr_right ?_
          omega
        have hafter : ∀ position : Nat, found.start ≤ position →
            (Covers (buffer.consume found.start stop).spans position ↔ position < stop) := by
          intro position hposition
          rw [hcovers, hleast position (hfoundBase.trans hposition)]
          omega
        have hspans := SourceBuffer.canonical_consume hcanonical found.start stop
        rw [← SourceBuffer.text_consume buffer found.start stop] at hspans hrestBounds
        have hnext := ih hspans hrestSorted hrestBounds hfirst hafter
        rw [SourceBuffer.text_consume] at hnext
        obtain ⟨hvalues, htext, hcanonicalAfter, hfinal⟩ := hnext
        refine ⟨congrArg (watcher :: ·) hvalues, htext, hcanonicalAfter, fun index => ?_⟩
        show Covers (extractFrom (buffer.consume found.start stop) rest).2.1.spans index ↔ _
        rw [hfinal, hcovers]
        simp [cutsOf, or_assoc]

/-- The watchers of a body are those of its cuts, and what is left is the body without the cuts. -/
theorem extractWatchers_cuts (body : Text) :
    (extractWatchers body).1 = (cuts body).map (·.value) ∧ Removes (cuts body) body (extractWatchers body).2.1 := by
  have hnothing : ∀ position : Nat, 0 ≤ position → (Covers (SourceBuffer.ofText body).spans position ↔ position < 0) :=
    fun position _ => iff_of_false (not_covers_nil position) (Nat.not_lt_zero position)
  obtain ⟨hvalues, htext, hcanonical, hcovers⟩ :=
    extractFrom_spec Canonical.nil (Pattern.pairwise_occurrences call body)
    (fun found hfound => bounds_of_readCut hfound) (fun _ _ => Nat.zero_le _) hnothing
  refine ⟨hvalues, ⟨?_, fun cut hcut => ?_, ?_⟩⟩
  · exact pairwise_cutsOf_sweep fun found hfound stop watcher hok => (bounds_of_readCut hfound stop watcher hok).1
  · obtain ⟨opened, closed, hform⟩ := callCut_of_mem_cuts hcut
    exact ⟨hform.bounds.1.trans hform.bounds.2.1, hform.bounds.2.2⟩
  · rw [← htext] at hcanonical
    show (extractFrom (SourceBuffer.ofText body) (call.occurrences body)).2.1.residual = _
    rw [SourceBuffer.residual_eq_without hcanonical, htext]
    refine Text.without_congr fun index _ => ?_
    rw [hcovers]
    exact or_iff_right (not_covers_nil index)

/-! ### Calls that stay -/

/-- A call stays but for the cuts between its parentheses: no cut touches its head or the parenthesis that closes it.
Its head stays as it is, and so does the whole call when nothing is cut out of its inside. -/
structure LeftAt (text residual : Text) (cuts : List (Cut Watcher)) (start opened : Nat) : Prop where
  /-- Every cut ends before the head or begins behind it. -/
  apart : ∀ cut ∈ cuts, cut.stop ≤ start ∨ opened < cut.start
  /-- A cut that begins behind the head lies between the parentheses or behind the call. -/
  inside : ∀ closed, Delimiter.paren.Closes text opened closed → ∀ cut ∈ cuts, opened < cut.start →
    cut.stop ≤ closed ∨ closed < cut.start
  /-- The head stays. -/
  head : text.slice start (opened + 1) <:+: residual
  /-- The call stays when no cut begins between its parentheses. -/
  verbatim : ∀ closed, Delimiter.paren.Closes text opened closed →
    (∀ cut ∈ cuts, ¬(opened < cut.start ∧ cut.start < closed)) → text.slice start (closed + 1) <:+: residual

/-- Two cuts of a text are one and the same or apart. -/
theorem eq_or_apart {β : Type} {list : List (Cut β)}
    (h : list.Pairwise fun first second => first.stop ≤ second.start) {cut other : Cut β} (hcut : cut ∈ list)
    (hother : other ∈ list) : cut = other ∨ cut.stop ≤ other.start ∨ other.stop ≤ cut.start := by
  obtain ⟨i, hi, rfl⟩ := List.mem_iff_getElem.1 hcut
  obtain ⟨k, hk, rfl⟩ := List.mem_iff_getElem.1 hother
  rw [List.pairwise_iff_getElem] at h
  rcases Nat.lt_trichotomy i k with hlt | rfl | hgt
  · exact .inr (.inl (h i k hi hk hlt))
  · exact .inl rfl
  · exact .inr (.inr (h k i hk hi hgt))

/-- A call that no cut begins with and that begins inside no cut stays but for the cuts between its parentheses. -/
theorem leftAt_of_not_cut {body : Text} (hcall : CallAt body start opened)
    (hcuts : ∀ cut ∈ cuts body, cut.start ≤ start → cut.stop ≤ start) :
    LeftAt body (extractWatchers body).2.1 (cuts body) start opened := by
  obtain ⟨hstart, hopening⟩ := hcall.getElem_opened
  obtain ⟨hopened, -⟩ := List.getElem?_eq_some_iff.1 hopening
  have hresidual := (extractWatchers_cuts body).2.after_eq
  have hapart : ∀ cut ∈ cuts body, cut.stop ≤ start ∨ opened < cut.start := by
    intro cut hcut
    by_cases hle : cut.start ≤ start
    · exact .inl (hcuts cut hcut hle)
    · obtain ⟨otherOpened, otherClosed, hform⟩ := callCut_of_mem_cuts hcut
      exact .inr (hcall.opened_lt hform.call (Nat.lt_of_not_le hle))
  have hinside : ∀ closed, Delimiter.paren.Closes body opened closed → ∀ cut ∈ cuts body, opened < cut.start →
      cut.stop ≤ closed ∨ closed < cut.start := by
    intro closed hcloses cut hcut hbehind
    obtain ⟨otherOpened, otherClosed, hform⟩ := callCut_of_mem_cuts hcut
    obtain ⟨hle, -⟩ := hform.call.getElem_opened
    rcases Nat.lt_trichotomy cut.start closed with hlt | heq | hgt
    · exact .inl (hform.stop_le_of_lt hcloses hbehind hlt)
    · exact absurd hcloses.closing (heq ▸ hform.call.getElem_ne_close (Nat.le_refl _) hle)
    · exact .inr hgt
  -- What no cut reaches into stays as it is.
  have hkept : ∀ limit, start ≤ limit → limit ≤ body.length →
      (∀ cut ∈ cuts body, cut.stop ≤ start ∨ limit ≤ cut.start) →
      body.slice start limit <:+: (extractWatchers body).2.1 := by
    intro limit hle hlimit hclear
    rw [hresidual]
    apply Text.slice_infix_without _ hle hlimit
    rintro index hindex hlt ⟨cut, hcut, hfrom, hto⟩
    have hcase := hclear cut hcut
    omega
  refine ⟨hapart, hinside, hkept (opened + 1) (by omega) hopened hapart, fun closed hcloses hnone => ?_⟩
  have hclosed := hcloses.lt_length
  have hlt := hcloses.lt
  refine hkept (closed + 1) (by omega) hclosed fun cut hcut => ?_
  have hcase := hapart cut hcut
  have hclear := hnone cut hcut
  have hend := hinside closed hcloses cut hcut
  obtain ⟨otherOpened, otherClosed, hform⟩ := callCut_of_mem_cuts hcut
  have hbounds := hform.bounds
  omega

/-- Every call of a body begins inside the cut of another call, or is cut out, or is left. It is cut out only if it is
not malformed, and left only if it is. -/
theorem exists_cut_or_malformed {body : Text} (hcall : CallAt body start opened) :
    (∃ cut ∈ cuts body, cut.start < start ∧ start < cut.stop) ∨
      ((∃ cut ∈ cuts body, cut.start = start) ∧ ¬Malformed body opened) ∨
      (Malformed body opened ∧ ∀ cut ∈ cuts body, cut.start ≤ start → cut.stop ≤ start) := by
  by_cases hwithin : ∃ cut ∈ cuts body, cut.start < start ∧ start < cut.stop
  · exact .inl hwithin
  have houtside : ∀ cut ∈ cuts body, cut.start < start → cut.stop ≤ start := by
    intro cut hcut hlt
    by_contra! hstop
    exact hwithin ⟨cut, hcut, hlt, hstop⟩
  refine .inr ?_
  cases hread : readCut body ⟨start, opened + 1, ()⟩ with
  | ok pair =>
    obtain ⟨stop, watcher⟩ := pair
    -- A call that can be read is covered by some cut, which begins with the call since no other one covers it.
    have hbounds := bounds_of_readCut hcall.mem_occurrences stop watcher hread
    obtain ⟨cut, hcut, hle, hstop⟩ := exists_cut_of_mem (Pattern.pairwise_occurrences call body) hcall.mem_occurrences
      (Nat.zero_le _) hread hbounds.1
    have hsound : ¬Malformed body opened := by
      intro hmalformed
      rw [readCut_eq_error_iff.2 hmalformed] at hread
      cases hread
    have hsame : cut.start = start := by
      rcases Nat.lt_or_eq_of_le hle with hlt | heq
      · exact absurd (houtside cut hcut hlt) (Nat.not_le.2 hstop)
      · exact heq
    exact .inl ⟨⟨cut, hcut, hsame⟩, hsound⟩
  | error fault =>
    have hmalformed := readCut_eq_error_iff.1 hread
    refine .inr ⟨hmalformed, fun cut hcut hle => ?_⟩
    rcases Nat.lt_or_eq_of_le hle with hlt | heq
    · exact houtside cut hcut hlt
    · -- The call that a cut begins with can be read.
      obtain ⟨-, found, hfound, hstart, hok⟩ := exists_of_mem_sweep
        (fun found hfound stop watcher hok => (bounds_of_readCut hfound stop watcher hok).1) hcut
      obtain ⟨otherOpened, hother, hstop⟩ := mem_occurrences_call_iff.1 hfound
      rw [hstart, heq] at hother
      have hfoundEq : found = ⟨start, opened + 1, ()⟩ := by
        obtain ⟨foundStart, foundStop, value⟩ := found
        simp only at hstart hstop
        rw [hstart, hstop, heq, hother.unique hcall]
      rw [hfoundEq, hread] at hok
      cases hok

end Watcher

open Watcher in
/-- The extraction of watchers conserves a body. It cuts disjoint pieces out of it, one for each watcher and in their
order: each is a call that begins a line, up to the parenthesis that closes it and the trailer behind that, and its
arguments make the watcher. Of the other calls, those that begin inside a piece go with it and make no watcher of their
own, and all that are left are malformed and stay but for the pieces between their parentheses. -/
theorem extractWatchers_conserves (body : Text) :
    ∃ pieces : List (Cut Watcher), Removes pieces body (extractWatchers body).2.1 ∧
      (extractWatchers body).1 = pieces.map (·.value) ∧
      (∀ cut ∈ pieces, ∃ opened closed, CallCut body cut opened closed) ∧
      ∀ start opened, CallAt body start opened →
        ((∃ cut ∈ pieces, cut.start < start ∧ start < cut.stop) ∧ ∀ cut ∈ pieces, cut.start ≠ start) ∨
        ((∃ cut ∈ pieces, cut.start = start) ∧ ¬Malformed body opened) ∨
        (Malformed body opened ∧ LeftAt body (extractWatchers body).2.1 pieces start opened) := by
  obtain ⟨hvalues, hremoves⟩ := extractWatchers_cuts body
  refine ⟨cuts body, hremoves, hvalues, fun cut hcut => callCut_of_mem_cuts hcut, fun start opened hcall => ?_⟩
  obtain ⟨cut, hcut, hlt, hstop⟩ | hcutOut | ⟨hmalformed, hclear⟩ := exists_cut_or_malformed hcall
  · refine .inl ⟨⟨cut, hcut, hlt, hstop⟩, fun other hother heq => ?_⟩
    have hbounds := hremoves.bounded other hother
    rcases eq_or_apart hremoves.disjoint hcut hother with rfl | hle | hle
    · omega
    · omega
    · omega
  · exact .inr (.inl hcutOut)
  · exact .inr (.inr ⟨hmalformed, leftAt_of_not_cut hcall hclear⟩)

open Watcher in
/-- A malformed call does not stay as it is when a watcher is cut out of its inside, or when it stands inside a watcher
that is cut out. -/
theorem malformed_call_not_kept :
    let torn := txt "$scope.$watch(\n$scope.$watch('b', cb)\n);"
    let nested := txt "$scope.$watch('a', function () \x7b\n$scope.$watch('b');\n\x7d);"
    (CallAt torn 0 13 ∧ Malformed torn 13 ∧ Delimiter.paren.Closes torn 13 38 ∧
        ¬torn.slice 0 39 <:+: (extractWatchers torn).2.1) ∧
      CallAt nested 33 46 ∧ Malformed nested 46 ∧ Delimiter.paren.Closes nested 46 50 ∧
        ¬nested.slice 33 51 <:+: (extractWatchers nested).2.1 := by
  intro torn nested
  have hhead : CallHead (txt "$scope.$watch(") :=
    @CallHead.intro [] (txt "$scope") [] (List.forall_mem_nil _) (.inl rfl) (List.forall_mem_nil _)
  have hcloses : Delimiter.paren.Closes torn 13 38 := Delimiter.close_eq_ok_iff.1 (by decide)
  have hnestedCloses : Delimiter.paren.Closes nested 46 50 := Delimiter.close_eq_ok_iff.1 (by decide)
  have hresidual : (extractWatchers torn).2.1 = txt "$scope.$watch(\n);" := by decide +kernel
  have hnestedResidual : (extractWatchers nested).2.1 = [] := by decide +kernel
  refine ⟨⟨⟨.inl rfl, _, torn.drop 14, by decide, hhead, by decide⟩, .unusable hcloses (.few (by decide)), hcloses, ?_⟩,
    ⟨.inr (by decide), _, nested.drop 47, by decide, hhead, by decide⟩, .unusable hnestedCloses (.few (by decide)),
    hnestedCloses, ?_⟩
  · -- What is left is shorter than the call was.
    rw [hresidual]
    exact fun hinfix => absurd hinfix.length_le (by decide)
  · rw [hnestedResidual]
    exact fun hinfix => absurd hinfix.length_le (by decide)

end AngularUplift
