import AngularUplift.Dependency
import AngularUplift.Proofs.Harvest.Standing
import AngularUplift.Proofs.Text.Token

/-!
# Shadowed tokens read through the controller

A body is changed only by `ctrl.` before some uses of a name. Which uses these are is said here in terms of what stands
before and behind a use in the body, and not in terms of the scans: the name is whole and no member, no declarator
stands one space before it, it is in no parameters, and it is no key.

## Main definitions

* `Text.insertBefore`: a text with a piece put before the characters at some positions.
* `InFunctionParameters`, `InArrowParameters`: the place between two parts of a body is inside parameters.
* `ReadUse`: a use of a name that is read through the controller.

## Main statements

* `Pattern.replaceFound_eq_insertBefore`: exchanging occurrences for themselves behind a piece is an insertion.
* `mem_occurrences_nameUse_iff`: which uses of a name the scan finds.
* `parameterSpans_iff`: which places the parameters of a body cover.
* `qualifyShadowed_eq_insertBefore`: before which uses of a name `ctrl.` is put, and that nothing else changes.
-/

namespace AngularUplift

/-! ### Insertions -/

namespace Text

/-- A character, behind a piece when its position is marked. -/
def lead (piece : Text) (marked : Nat → Prop) [DecidablePred marked] (place : Char × Nat) : Text :=
  if marked place.2 then piece ++ [place.1] else [place.1]

/-- The text with a piece put before every character at a marked position. -/
def insertBefore (text piece : Text) (marked : Nat → Prop) [DecidablePred marked] : Text :=
  text.zipIdx.flatMap (lead piece marked)

variable {text piece : Text} {start stop : Nat} {marked : Nat → Prop} [DecidablePred marked]

/-- Between unmarked positions nothing is put. -/
theorem flatMap_lead_places (hstop : stop ≤ text.length) (h : ∀ i, start ≤ i → i < stop → ¬marked i) :
    (text.places start stop).flatMap (lead piece marked) = text.slice start stop := by
  have hplain : (text.places start stop).flatMap (lead piece marked) =
      (text.places start stop).flatMap fun place => [place.1] := by
    refine List.flatMap_congr fun place hplace => ?_
    obtain ⟨hge, hlt⟩ := bounds_of_mem_places hstop hplace
    exact if_neg (h place.2 hge hlt)
  have hfst : (text.places start stop).map (·.1) = text.slice start stop := List.zipIdx_map_fst ..
  rw [hplain, ← hfst, List.map_eq_flatMap]

/-- Where only the first position can be marked, the piece is put at most before the stretch. -/
theorem flatMap_lead_places_first (hlt : start < stop) (hstop : stop ≤ text.length)
    (h : ∀ i, start < i → i < stop → ¬marked i) :
    (text.places start stop).flatMap (lead piece marked) =
      (if marked start then piece else []) ++ text.slice start stop := by
  have hfirst : text[start]? = some text[start] := List.getElem?_eq_getElem (Nat.lt_of_lt_of_le hlt hstop)
  have hplace : text.places start (start + 1) = [(text[start], start)] := by
    rw [places, slice_succ hfirst]
    rfl
  rw [places_eq_append (Nat.le_succ start) hlt hstop, hplace, List.flatMap_append, flatMap_lead_places hstop h,
    List.flatMap_singleton, slice_eq_cons hfirst hlt hstop, lead]
  split
  · rw [List.append_assoc]
  · rfl

end Text

namespace Pattern

variable {α : Type} {p : Pattern α} {text piece : Text} {marked : Nat → Prop} [DecidablePred marked]

/-- Occurrences that are exchanged for themselves, those at marked positions behind a piece, make an insertion. -/
theorem splice_eq_flatMap_lead {f : Occurrence α → Text} {found : List (Occurrence α)} {position : Nat}
    (hposition : position ≤ text.length)
    (hinside : ∀ first ∈ found, position ≤ first.start ∧ first.start < first.stop ∧ first.stop ≤ text.length)
    (hapart : found.Pairwise fun first second => first.stop ≤ second.start)
    (hmarked : ∀ i, position ≤ i → i < text.length → marked i → ∃ first ∈ found, first.start = i)
    (hf : ∀ first ∈ found, f first =
      (if marked first.start then piece else []) ++ text.slice first.start first.stop) :
    splice f text position found = (text.places position text.length).flatMap (Text.lead piece marked) := by
  induction found generalizing position with
  | nil =>
    rw [splice, Text.flatMap_lead_places (Nat.le_refl _), Text.slice_length]
    intro i hge hlt hi
    obtain ⟨first, hfirst, -⟩ := hmarked i hge hlt hi
    exact absurd hfirst List.not_mem_nil
  | cons first found ih =>
    obtain ⟨hlater, hrest⟩ := List.pairwise_cons.1 hapart
    obtain ⟨hstart, hlt, hstop⟩ := hinside first List.mem_cons_self
    -- Before the first occurrence and inside of it no position is marked, as the others begin behind it.
    have hnone : ∀ i, position ≤ i → i < first.stop → i ≠ first.start → ¬marked i := by
      intro i hge hi hne hmark
      obtain ⟨other, hother, rfl⟩ := hmarked i hge (Nat.lt_of_lt_of_le hi hstop) hmark
      rcases List.mem_cons.1 hother with rfl | hmem
      · exact hne rfl
      · exact absurd (hlater other hmem) (Nat.not_le.2 hi)
    have hbehind : splice f text first.stop found =
        (text.places first.stop text.length).flatMap (Text.lead piece marked) := by
      refine ih hstop (fun other hother => ?_) hrest (fun i hge hi hmark => ?_)
        fun other hother => hf other (List.mem_cons_of_mem first hother)
      · exact ⟨hlater other hother, (hinside other (List.mem_cons_of_mem first hother)).2⟩
      · obtain ⟨other, hother, rfl⟩ := hmarked i (by omega) hi hmark
        rcases List.mem_cons.1 hother with rfl | hmem
        · exact absurd hge (Nat.not_le.2 hlt)
        · exact ⟨other, hmem, rfl⟩
    rw [splice, hf first List.mem_cons_self, hbehind,
      Text.places_eq_append hstart (Nat.le_trans (Nat.le_of_lt hlt) hstop) (Nat.le_refl _),
      Text.places_eq_append (Nat.le_of_lt hlt) hstop (Nat.le_refl _), List.flatMap_append, List.flatMap_append,
      Text.flatMap_lead_places (Nat.le_trans (Nat.le_of_lt hlt) hstop)
        (fun i hge hi => hnone i hge (Nat.lt_trans hi hlt) (Nat.ne_of_lt hi)),
      Text.flatMap_lead_places_first hlt hstop fun i hgt hi => hnone i (by omega) hi (Nat.ne_of_gt hgt)]
    rw [List.append_assoc]

/-- An occurrence divides the text into what stands before it, what was read, and the rest. -/
theorem divided_of_mem_occurrences {Form : Text → Text → Prop}
    (hform : ∀ text value rest, p.read text = some (value, rest) → ∃ source, text = source ++ rest ∧ Form source rest)
    {found : Occurrence α} (h : found ∈ p.occurrences text) :
    ∃ front source rest, text = front ++ (source ++ rest) ∧ p.left front.reverse (source ++ rest) = true ∧
      Form source rest ∧ found.start = front.length ∧ found.stop = front.length + source.length := by
  obtain ⟨hstart, hleft, rest, hread, hstop⟩ := read_of_mem_occurrences h
  obtain ⟨source, htext, hsource⟩ := hform _ _ _ hread
  obtain ⟨hstop, -⟩ := drop_stop_of_read htext hstop
  have hlength : (text.take found.start).length = found.start := List.length_take_of_le hstart
  rw [htext] at hleft
  refine ⟨text.take found.start, source, rest, ?_, hleft, hsource, hlength.symm, ?_⟩
  · rw [← htext, List.take_append_drop]
  · rw [hlength, hstop]

/-- Exchanging the occurrences of a pattern for themselves, those at marked positions behind a piece, puts the piece
before the marked positions. -/
theorem replaceFound_eq_insertBefore {f : Occurrence α → Text}
    (hinside : ∀ found ∈ p.occurrences text, found.start < found.stop ∧ found.stop ≤ text.length)
    (hmarked : ∀ i < text.length, marked i → ∃ found ∈ p.occurrences text, found.start = i)
    (hf : ∀ found ∈ p.occurrences text, f found =
      (if marked found.start then piece else []) ++ text.slice found.start found.stop) :
    p.replaceFound f text = text.insertBefore piece marked := by
  rw [replaceFound, Text.insertBefore, ← Text.places_zero_length]
  exact splice_eq_flatMap_lead (Nat.zero_le _) (fun found hfound => ⟨Nat.zero_le _, hinside found hfound⟩)
    ((pairwise_apart p text).imp And.right) (fun i _ hi => hmarked i hi) hf

end Pattern

/-! ### Uses of a name -/

/-- A use of a name between two parts of a body: it is a whole name and no member, and no declarator stands directly
before it. -/
structure PlainUse (before after : Text) : Prop where
  /-- No longer name and no member goes on with it. -/
  free : ∀ c ∈ before.getLast?, ¬isMemberContext c
  /-- The name goes no further. -/
  ends : ∀ c ∈ after.head?, ¬isName c
  /-- No declarator and one space stand before it. -/
  undeclared : ∀ word ∈ declarationWords, ¬word <:+ before

/-- The left context of a use of a name. -/
theorem left_nameUse_iff {name before rest : Text} : (nameUse name).left before.reverse rest = true ↔
    (∀ c ∈ before.getLast?, ¬isMemberContext c) ∧ ∀ word ∈ declarationWords, ¬word <:+ before := by
  have hfree : freeName before.reverse rest = true ↔ ∀ c ∈ before.getLast?, ¬isMemberContext c := by
    rw [freeName, notAfter, List.head?_reverse]
    cases before.getLast? <;> simp
  have hword : (declarationWords.any fun word => Text.startsWith before.reverse word.reverse) = false ↔
      ∀ word ∈ declarationWords, ¬word <:+ before := by
    simp only [List.any_eq_false, Text.startsWith, List.isPrefixOf_iff_prefix, List.reverse_prefix]
  show (freeName before.reverse rest && !_) = true ↔ _
  rw [Bool.and_eq_true, Bool.not_eq_true', hfree, hword]

/-- A use of a name is read as the name and nothing more. -/
theorem read_nameUse_iff {name text rest : Text} {value : Unit} :
    (nameUse name).read text = some (value, rest) ↔ text = name ++ rest ∧ ∀ c ∈ rest.head?, ¬isName c := by
  constructor
  · intro h
    obtain ⟨_, _, hname, hends⟩ := Reader.bind_eq_some_iff.1 h
    obtain ⟨rfl, hnext⟩ := Reader.notNext_eq_some hends
    exact ⟨Reader.exactly_eq_some_iff.1 hname, hnext⟩
  · rintro ⟨htext, hnext⟩
    exact Reader.bind_eq_some_iff.2 ⟨(), rest, Reader.exactly_eq_some_iff.2 htext,
      Reader.notNext_eq fun c hc => Bool.eq_false_iff.2 (hnext c hc)⟩

variable {name body : Text}

/-- The scan finds all the uses of a name and no others. -/
theorem mem_occurrences_nameUse_iff (hname : IsName name) {found : Occurrence Unit} :
    found ∈ (nameUse name).occurrences body ↔ ∃ before after, body = before ++ (name ++ after) ∧
      found = ⟨before.length, before.length + name.length, ()⟩ ∧ PlainUse before after := by
  constructor
  · intro h
    obtain ⟨start, stop, _⟩ := found
    have hform : ∀ text value rest, (nameUse name).read text = some (value, rest) →
        ∃ source, text = source ++ rest ∧ source = name ∧ ∀ c ∈ rest.head?, ¬isName c :=
      fun text value rest hread => ⟨name, (read_nameUse_iff.1 hread).1, rfl, (read_nameUse_iff.1 hread).2⟩
    obtain ⟨before, _, after, hbody, hleft, ⟨rfl, hends⟩, rfl, rfl⟩ := Pattern.divided_of_mem_occurrences hform h
    obtain ⟨hfree, hundeclared⟩ := left_nameUse_iff.1 hleft
    exact ⟨before, after, hbody, rfl, hfree, hends, hundeclared⟩
  · rintro ⟨before, after, rfl, rfl, huse⟩
    apply Pattern.mem_occurrences_of_at?
    · exact Pattern.at?_append (left_nameUse_iff.2 ⟨huse.free, huse.undeclared⟩)
        (read_nameUse_iff.2 ⟨rfl, huse.ends⟩)
    · -- A use that goes on into this one would have a character of the name right before it.
      intro early late hbefore hlate m other hother
      obtain ⟨rest, hread, rfl⟩ := Pattern.read_of_at? hother
      obtain ⟨htext, -⟩ := read_nameUse_iff.1 hread
      rw [htext, List.length_append, Nat.add_sub_cancel]
      by_contra hlonger
      have hlast := List.getLast?_eq_some_getLast hlate
      have hmem : late.getLast hlate ∈ name := by
        have hprefix : late <+: name :=
          List.prefix_of_prefix_length_le ⟨_, rfl⟩ ⟨rest, htext.symm⟩ (Nat.le_of_not_le hlonger)
        exact hprefix.subset (List.getLast_mem hlate)
      refine huse.free (late.getLast hlate) ?_ ?_
      · rw [hbefore, List.getLast?_append_of_ne_nil _ hlate, hlast]
        rfl
      · rw [isMemberContext, hname.2 _ hmem, Bool.true_or]

/-! ### Parameters -/

/-- The beginning of a function, from its word up to the parenthesis that opens its parameters. -/
inductive FunctionOpening : (source : Text) → Prop
  /-- White space, a label or none, and white space stand between the word and the parenthesis. -/
  | intro {gap label space : Text} (hgap : ∀ c ∈ gap, isBlank c) (hlabel : ∀ c ∈ label, isName c)
      (hspace : ∀ c ∈ space, isBlank c) (hword : ∀ c ∈ (gap ++ (label ++ (space ++ ['(']))).head?, ¬isWord c) :
      FunctionOpening (txt "function" ++ (gap ++ (label ++ (space ++ ['(']))))

/-- The place between two parts of a body is inside the parameters of a function: between the parenthesis that opens
them and the one that closes it. -/
inductive InFunctionParameters : (before after : Text) → Prop
  /-- The parameters are balanced, and the place divides them. -/
  | intro {front source early late rest : Text} (hfront : ∀ c ∈ front.getLast?, ¬isWord c)
      (hsource : FunctionOpening source) (hparams : Delimiter.paren.Balanced (early ++ late)) :
      InFunctionParameters (front ++ (source ++ early)) (late ++ ')' :: rest)

/-- The parameters of an arrow function, without parentheses in them, with the arrow behind them. -/
inductive ArrowParameters : (source : Text) → Prop
  /-- White space or nothing stands between the parameters and the arrow. -/
  | intro {inner gap : Text} (hopen : '(' ∉ inner) (hclose : ')' ∉ inner) (hgap : ∀ c ∈ gap, isBlank c) :
      ArrowParameters ('(' :: (inner ++ ')' :: (gap ++ txt "=>")))

/-- The place between two parts of a body is inside the parameters of an arrow function that have no parentheses in
them. -/
inductive InArrowParameters : (before after : Text) → Prop
  /-- The place divides the parameters. -/
  | intro {front early late gap rest : Text}
      (hparams : ArrowParameters ('(' :: (early ++ late ++ ')' :: (gap ++ txt "=>")))) :
      InArrowParameters (front ++ '(' :: early) (late ++ ')' :: (gap ++ (txt "=>" ++ rest)))

/-- The beginning of a function holds one parenthesis, its last character. -/
theorem FunctionOpening.eq_concat {source : Text} (h : FunctionOpening source) :
    ∃ front, source = front ++ ['('] ∧ '(' ∉ front := by
  obtain @⟨gap, label, space, hgap, hlabel, hspace, -⟩ := h
  refine ⟨txt "function" ++ (gap ++ (label ++ space)), by simp only [List.append_assoc], ?_⟩
  simp only [List.mem_append, not_or]
  exact ⟨by decide, notMem_of_class hgap (by decide), notMem_of_class hlabel (by decide),
    notMem_of_class hspace (by decide)⟩

/-- The beginning of a function is read whole. -/
theorem read_functionParameters_iff {text rest : Text} {value : Unit} :
    functionParameters.read text = some (value, rest) ↔ ∃ source, text = source ++ rest ∧ FunctionOpening source := by
  constructor
  · intro h
    simp only [functionParameters, Reader.bind_eq_some_iff, Reader.exactly_eq_some_iff] at h
    obtain ⟨_, _, rfl, _, _, redge, gap, _, rgap, label, _, rlabel, space, _, rspace, rfl⟩ := h
    obtain ⟨rfl, hedge⟩ := Reader.notNext_eq_some redge
    obtain ⟨rfl, hgap⟩ := Reader.run_eq_some rgap
    obtain ⟨rfl, hlabel⟩ := Reader.run_eq_some rlabel
    obtain ⟨rfl, hspace⟩ := Reader.run_eq_some rspace
    refine ⟨_, ?_, .intro hgap hlabel hspace fun c hc => hedge c ?_⟩
    · simp only [List.append_assoc]
    · have hrest : gap ++ (label ++ (space ++ (['('] ++ rest))) = gap ++ (label ++ (space ++ ['('])) ++ rest := by
        simp only [List.append_assoc]
      rw [hrest, List.head?_append, Option.mem_def.1 hc, Option.some_or]
      rfl
  · rintro ⟨source, rfl, hsource⟩
    obtain @⟨gap, label, space, hgap, hlabel, hspace, hword⟩ := hsource
    simp only [List.append_assoc]
    refine Reader.bind_eq_some_iff.2 ⟨(), _, Reader.exactly_eq_some_iff.2 rfl, ?_⟩
    refine Reader.bind_eq_some_iff.2 ⟨(), _, MemberHead.endOfWord_label hword rest, ?_⟩
    exact MemberHead.read_label hgap hlabel hspace rest

/-- A function begins where no word goes on. -/
theorem left_functionParameters_iff {front source rest : Text} (h : FunctionOpening source) :
    functionParameters.left front.reverse (source ++ rest) = true ↔ ∀ c ∈ front.getLast?, ¬isWord c := by
  obtain ⟨-, -, -, -⟩ := h
  have hletter : isWord 'f' = true := by decide
  show ((front.reverse.head?.any isWord) != (some 'f').any isWord) = true ↔ _
  rw [List.head?_reverse, Option.any_some, hletter]
  cases front.getLast? <;> simp

/-- The beginnings of functions in a body end where the scan finds ends of them. -/
theorem exists_mem_occurrences_functionParameters_iff {stop : Nat} :
    (∃ found ∈ functionParameters.occurrences body, found.stop = stop) ↔
      ∃ front source rest, body = front ++ (source ++ rest) ∧ (∀ c ∈ front.getLast?, ¬isWord c) ∧
        FunctionOpening source ∧ stop = (front ++ source).length := by
  constructor
  · rintro ⟨found, hfound, rfl⟩
    obtain ⟨front, source, rest, hbody, hleft, hsource, -, hstop⟩ := Pattern.divided_of_mem_occurrences
      (fun _ _ _ => read_functionParameters_iff.1) hfound
    rw [left_functionParameters_iff hsource] at hleft
    exact ⟨front, source, rest, hbody, hleft, hsource, by rw [hstop, List.length_append]⟩
  · rintro ⟨front, source, rest, rfl, hfront, hsource, rfl⟩
    rw [List.length_append]
    apply Pattern.exists_stop_mem_occurrences
    · have hread : functionParameters.read (source ++ rest) = some ((), rest) :=
        read_functionParameters_iff.2 ⟨source, rfl, hsource⟩
      exact Pattern.at?_append ((left_functionParameters_iff hsource).2 hfront) hread
    · -- A beginning that goes on into this one has the same parenthesis at its end.
      intro early late _ _ m other hother
      obtain ⟨tail, hread, rfl⟩ := Pattern.read_of_at? hother
      obtain ⟨outer, htext, houter⟩ := read_functionParameters_iff.1 hread
      rw [htext, List.length_append, Nat.add_sub_cancel]
      by_contra! hlonger
      obtain ⟨hlonger, hne⟩ := hlonger
      obtain ⟨inner, rfl, hinner⟩ := hsource.eq_concat
      obtain ⟨within, rfl, hwithin⟩ := houter.eq_concat
      simp only [List.length_append, List.length_singleton] at hlonger hne
      rw [List.append_assoc, List.append_assoc] at htext
      obtain ⟨more, rfl⟩ : late <+: within :=
        List.prefix_of_prefix_length_le ⟨_, rfl⟩ ⟨_, htext.symm⟩ (Nat.le_of_lt_succ hlonger)
      rw [List.append_assoc] at htext
      rw [List.mem_append, not_or] at hwithin
      have hsame := eq_of_append_cons_eq (List.append_cancel_left htext) hinner hwithin.2
      rw [hsame, List.length_append] at hne
      omega

/-- The parameters of an arrow function hold no other opening parenthesis than their first character. -/
theorem ArrowParameters.eq_cons {source : Text} (h : ArrowParameters source) :
    ∃ inner, source = '(' :: inner ∧ '(' ∉ inner := by
  obtain ⟨hopen, -, hgap⟩ := h
  refine ⟨_, rfl, ?_⟩
  simp only [List.mem_append, List.mem_cons, not_or]
  exact ⟨hopen, by decide, notMem_of_class hgap (by decide), by decide⟩

/-- The parameters of an arrow function are read whole. -/
theorem read_arrowParameters_iff {text rest : Text} {value : Unit} :
    arrowParameters.read text = some (value, rest) ↔ ∃ source, text = source ++ rest ∧ ArrowParameters source := by
  constructor
  · intro h
    simp only [arrowParameters, Reader.bind_eq_some_iff, Reader.exactly_eq_some_iff] at h
    obtain ⟨_, _, rfl, inner, _, rinner, _, _, rfl, gap, _, rgap, rfl⟩ := h
    obtain ⟨rfl, hinner⟩ := Reader.run_eq_some rinner
    obtain ⟨rfl, hgap⟩ := Reader.run_eq_some rgap
    refine ⟨_, ?_, .intro (notMem_of_class hinner (by decide)) (notMem_of_class hinner (by decide)) hgap⟩
    simp only [List.cons_append, List.append_assoc, List.nil_append]
  · rintro ⟨source, rfl, hsource⟩
    obtain @⟨inner, gap, hopen, hclose, hgap⟩ := hsource
    have hinner : ∀ c ∈ inner, (c != '(' && c != ')') = true := by
      intro c hc
      rw [Bool.and_eq_true, bne_iff_ne, bne_iff_ne]
      exact ⟨fun heq => hopen (heq ▸ hc), fun heq => hclose (heq ▸ hc)⟩
    simp only [List.cons_append, List.append_assoc]
    refine Reader.bind_eq_some_iff.2 ⟨(), _, Reader.exactly_eq_some_iff.2 rfl, ?_⟩
    refine Reader.bind_eq_some_iff.2 ⟨inner, _, Reader.run_append hinner (Reader.head_cons (by decide)), ?_⟩
    refine Reader.bind_eq_some_iff.2 ⟨(), _, Reader.exactly_eq_some_iff.2 rfl, ?_⟩
    refine Reader.bind_eq_some_iff.2 ⟨gap, _, Reader.run_append hgap (Reader.head_cons (by decide)), ?_⟩
    exact Reader.exactly_eq_some_iff.2 rfl

/-- The scan finds all the parameters of arrow functions that have no parentheses in them. -/
theorem mem_occurrences_arrowParameters_iff {found : Occurrence Unit} :
    found ∈ arrowParameters.occurrences body ↔ ∃ front source rest, body = front ++ (source ++ rest) ∧
      ArrowParameters source ∧ found = ⟨front.length, front.length + source.length, ()⟩ := by
  constructor
  · intro h
    obtain ⟨start, stop, _⟩ := found
    obtain ⟨front, source, rest, hbody, -, hsource, rfl, rfl⟩ := Pattern.divided_of_mem_occurrences
      (fun _ _ _ => read_arrowParameters_iff.1) h
    exact ⟨front, source, rest, hbody, hsource, rfl⟩
  · rintro ⟨front, source, rest, rfl, hsource, rfl⟩
    apply Pattern.mem_occurrences_of_at?
    · exact Pattern.at?_append rfl (read_arrowParameters_iff.2 ⟨source, rfl, hsource⟩)
    · -- Parameters that go on into these would have a parenthesis in them.
      intro early late _ hlate m other hother
      obtain ⟨tail, hread, rfl⟩ := Pattern.read_of_at? hother
      obtain ⟨outer, htext, houter⟩ := read_arrowParameters_iff.1 hread
      rw [htext, List.length_append, Nat.add_sub_cancel]
      by_contra! hlonger
      obtain ⟨inner, rfl, -⟩ := hsource.eq_cons
      obtain ⟨within, rfl, hwithin⟩ := houter.eq_cons
      obtain ⟨first, late, rfl⟩ := List.exists_cons_of_ne_nil hlate
      have hrest : late ++ ('(' :: inner ++ rest) = within ++ tail := (List.cons.inj htext).2
      obtain ⟨more, rfl⟩ : late <+: within :=
        List.prefix_of_prefix_length_le ⟨_, rfl⟩ ⟨_, hrest.symm⟩ (Nat.le_of_lt (Nat.lt_of_succ_lt_succ hlonger))
      have hmore : more ≠ [] := by
        rintro rfl
        exact absurd hlonger (by simp)
      obtain ⟨second, more, rfl⟩ := List.exists_cons_of_ne_nil hmore
      rw [List.append_assoc] at hrest
      obtain ⟨rfl, -⟩ := List.cons.inj (List.append_cancel_left hrest)
      exact hwithin (List.mem_append_right late List.mem_cons_self)

/-- What a delimiter encloses is balanced, and it is closed where that ends. -/
theorem Delimiter.close_cons_eq_ok_iff {d : Delimiter} {front rest : Text} {stop : Nat} :
    d.close (front ++ d.opening :: rest) front.length = .ok stop ↔ ∃ inner tail, rest = inner ++ d.closing :: tail ∧
      d.Balanced inner ∧ stop = front.length + 1 + inner.length := by
  constructor
  · -- The search gives positions; what is behind the opening delimiter is divided at the one of its partner.
    intro h
    obtain ⟨-, hlt, hclosing, hbalanced⟩ := close_eq_ok h
    obtain ⟨n, rfl⟩ : ∃ n, stop = front.length + 1 + n := Nat.exists_eq_add_of_le hlt
    obtain ⟨hstop, hlast⟩ := List.getElem?_eq_some_iff.1 hclosing
    have hdrop : (front ++ d.opening :: rest).drop (front.length + 1) = rest := by simp
    have hslice : (front ++ d.opening :: rest).slice (front.length + 1) (front.length + 1 + n) = rest.take n := by
      rw [Text.slice, List.drop_take, Nat.add_sub_cancel_left, hdrop]
    obtain ⟨tail, htail⟩ : ∃ tail, rest.drop n = d.closing :: tail :=
      ⟨_, by rw [← hlast, ← List.drop_eq_getElem_cons hstop, ← List.drop_drop, hdrop]⟩
    rw [hslice] at hbalanced
    refine ⟨rest.take n, tail, ?_, hbalanced, ?_⟩
    · rw [← htail, List.take_append_drop]
    · rw [← hslice, Text.length_slice (Nat.le_of_lt hstop), Nat.add_sub_cancel_left]
  · rintro ⟨inner, tail, rfl, hinner, rfl⟩
    exact close_append hinner front tail

/-- A place that a part of a text goes across divides the part. -/
theorem exists_divided {before after front source rest : Text} (h : before ++ after = front ++ (source ++ rest))
    (hfront : front.length ≤ before.length) (hsource : before.length ≤ front.length + source.length) :
    ∃ early late, before = front ++ early ∧ source = early ++ late ∧ after = late ++ rest := by
  obtain ⟨early, rfl⟩ : front <+: before := List.prefix_of_prefix_length_le ⟨_, rfl⟩ ⟨_, h⟩ hfront
  rw [List.append_assoc] at h
  have hrest := List.append_cancel_left h
  rw [List.length_append, Nat.add_le_add_iff_left] at hsource
  obtain ⟨late, rfl⟩ : early <+: source := List.prefix_of_prefix_length_le ⟨_, hrest⟩ ⟨_, rfl⟩ hsource
  rw [List.append_assoc] at hrest
  exact ⟨early, late, rfl, rfl, List.append_cancel_left hrest⟩

variable {before after : Text}

/-- The parentheses of functions cover a place where a name goes on exactly when it is inside the parameters of one. -/
theorem covered_by_function_iff (hafter : ∃ c ∈ after.head?, isName c) :
    (∃ found ∈ functionParameters.occurrences (before ++ after), ∃ stop,
      Delimiter.paren.close (before ++ after) ((found.stop : Int) - 1) = .ok stop ∧ found.stop ≤ before.length ∧
        before.length < stop) ↔ InFunctionParameters before after := by
  constructor
  · rintro ⟨found, hfound, stop, hclose, hstart, hstop⟩
    obtain ⟨front, source, rest, hbody, hfront, hsource, hfoundStop⟩ :=
      exists_mem_occurrences_functionParameters_iff.1 ⟨found, hfound, rfl⟩
    obtain ⟨opening, rfl, -⟩ := hsource.eq_concat
    have hopen : (found.stop : Int) - 1 = (front ++ opening).length := by
      simp only [hfoundStop, List.length_append, List.length_singleton]
      omega
    have hwhole : before ++ after = front ++ opening ++ Delimiter.paren.opening :: rest := by
      simp [hbody, Delimiter.opening]
    rw [hopen, hwhole] at hclose
    obtain ⟨inner, tail, rfl, hinner, rfl⟩ := Delimiter.close_cons_eq_ok_iff.1 hclose
    rw [← List.append_assoc] at hbody
    rw [hfoundStop] at hstart
    -- The place is behind the opening parenthesis and before the closing one, so it divides what they enclose.
    obtain ⟨early, late, rfl, rfl, rfl⟩ := exists_divided hbody hstart (by
      simp only [List.length_append, List.length_singleton] at hstop ⊢
      omega)
    rw [List.append_assoc]
    exact .intro hfront hsource hinner
  · rintro @⟨front, source, early, late, rest, hfront, hsource, hparams⟩
    obtain ⟨found, hfound, hstop⟩ := exists_mem_occurrences_functionParameters_iff.2
      ⟨front, source, early ++ (late ++ ')' :: rest), rfl, hfront, hsource, rfl⟩
    obtain ⟨opening, rfl, -⟩ := hsource.eq_concat
    have hbody : front ++ (opening ++ ['('] ++ early) ++ (late ++ ')' :: rest) =
        front ++ opening ++ Delimiter.paren.opening :: (early ++ late ++ Delimiter.paren.closing :: rest) := by
      simp [Delimiter.opening, Delimiter.closing]
    have hopen : (found.stop : Int) - 1 = (front ++ opening).length := by
      simp only [hstop, List.length_append, List.length_singleton]
      omega
    have hlate : 0 < late.length := by
      -- The place is not that of the closing parenthesis, as a name goes on there.
      refine List.length_pos_of_ne_nil ?_
      rintro rfl
      obtain ⟨c, hc, hname⟩ := hafter
      obtain rfl : ')' = c := by simpa using hc
      exact absurd hname (by decide)
    have hwhole : front ++ (opening ++ ['('] ++ (early ++ (late ++ ')' :: rest))) =
        front ++ (opening ++ ['('] ++ early) ++ (late ++ ')' :: rest) := by simp
    rw [hwhole] at hfound
    have hclose := Delimiter.close_append hparams (front ++ opening) rest
    rw [← hbody, ← hopen] at hclose
    refine ⟨found, hfound, _, hclose, ?_, ?_⟩
    · simp only [hstop, List.length_append]
      omega
    · simp only [List.length_append, List.length_singleton]
      omega

/-- The parameters of arrow functions cover a place where a name goes on exactly when it is inside them. -/
theorem covered_by_arrow_iff (hafter : ∃ c ∈ after.head?, isName c) :
    (∃ found ∈ arrowParameters.occurrences (before ++ after), found.start ≤ before.length ∧
      before.length < found.stop) ↔ InArrowParameters before after := by
  constructor
  · rintro ⟨found, hfound, hstart, hstop⟩
    obtain ⟨front, source, rest, hbody, hsource, rfl⟩ := mem_occurrences_arrowParameters_iff.1 hfound
    obtain ⟨early, late, rfl, hdivided, rfl⟩ := exists_divided hbody hstart (Nat.le_of_lt hstop)
    have hlate : late ≠ [] := by
      rintro rfl
      exact absurd hstop (by simp [hdivided])
    obtain ⟨c, hc, hname⟩ := hafter
    rw [List.head?_append_of_ne_nil _ hlate] at hc
    -- A name can go on only between the parentheses.
    have hwritten := hsource
    obtain @⟨inner, gap, -, -, hgap⟩ := hsource
    cases early with
    | nil =>
      obtain rfl : '(' = c := by
        rw [List.nil_append] at hdivided
        simpa [← hdivided] using hc
      exact absurd hname (by decide)
    | cons first early =>
      obtain ⟨rfl, hinner⟩ := List.cons.inj hdivided
      rcases List.append_eq_append_iff.1 hinner with ⟨more, rfl, hbehind⟩ | ⟨more, rfl, rfl⟩
      · have hmem : c ∈ ')' :: (gap ++ txt "=>") := by
          rw [hbehind]
          exact List.mem_append_right more (List.mem_of_mem_head? hc)
        have harrow : ∀ d ∈ txt "=>", (!isName d) = true := List.all_eq_true.1 (by decide)
        rw [List.mem_cons, List.mem_append] at hmem
        rcases hmem with rfl | hgapped | hmem
        · exact absurd hname (by decide)
        · exact absurd hname (by simp [isName_of_isBlank (hgap c hgapped)])
        · exact absurd hname (by simpa using harrow c hmem)
      · simp only [List.cons_append, List.append_assoc]
        exact .intro (by simpa using hwritten)
  · rintro @⟨front, early, late, gap, rest, hparams⟩
    refine ⟨_, mem_occurrences_arrowParameters_iff.2 ⟨front, _, rest, ?_, hparams, rfl⟩, ?_, ?_⟩
    · simp
    · simp
    · simp
      omega

/-- The parameters of a body cover a place where a name goes on exactly when the place is inside parameters. -/
theorem parameterSpans_iff (hafter : ∃ c ∈ after.head?, isName c) :
    (parameterSpans (before ++ after)).any (fun (start, stop) => start ≤ before.length && before.length < stop) = true ↔
      InFunctionParameters before after ∨ InArrowParameters before after := by
  -- Parameters that are never closed have no span, and no place is inside of them.
  rw [← covered_by_function_iff hafter, ← covered_by_arrow_iff hafter, parameterSpans, List.any_append,
    Bool.or_eq_true, List.any_map]
  refine or_congr ?_ ?_
  · simp only [List.any_eq_true, List.mem_filterMap, Bool.and_eq_true, decide_eq_true_eq]
    constructor
    · rintro ⟨_, ⟨found, hfound, hspan⟩, hstart, hstop⟩
      split at hspan
      · next stop hclose =>
        obtain rfl := Option.some.inj hspan
        exact ⟨found, hfound, stop, hclose, hstart, hstop⟩
      · cases hspan
    · rintro ⟨found, hfound, stop, hclose, hstart, hstop⟩
      exact ⟨(found.stop, stop), ⟨found, hfound, by rw [hclose]⟩, hstart, hstop⟩
  · simp only [List.any_eq_true, Function.comp, Bool.and_eq_true, decide_eq_true_eq]

/-! ### Labels -/

/-- White space or nothing stands between a place and a piece. -/
def Leads (piece after : Text) : Prop := ∃ gap rest, after = gap ++ (piece ++ rest) ∧ ∀ c ∈ gap, isBlank c

/-- The place between two parts of a body is that of a key of an object: a brace or a comma stands before it and a colon
behind it. -/
def IsKeyPlace (before after : Text) : Prop :=
  Leads [':'] after ∧
    ∃ front mark space, before = front ++ mark :: space ∧ (mark = '{' ∨ mark = ',') ∧ ∀ c ∈ space, isBlank c

/-- A text begins with a piece behind its white space. -/
theorem startsWith_trimLeft_iff {piece text : Text} (hpiece : ∃ c ∈ piece.head?, isBlank c = false) :
    Text.startsWith (Text.trimLeft text) piece = true ↔ Leads piece text := by
  rw [Text.startsWith, List.isPrefixOf_iff_prefix]
  constructor
  · rintro ⟨rest, hrest⟩
    exact ⟨text.takeWhile isBlank, rest, by rw [hrest, Text.trimLeft, List.takeWhile_append_dropWhile],
      fun c hc => List.mem_takeWhile_imp hc⟩
  · rintro ⟨gap, rest, rfl, hgap⟩
    obtain ⟨c, hc, hblank⟩ := hpiece
    obtain ⟨tail, rfl⟩ := List.head?_eq_some_iff.1 hc
    refine ⟨rest, ?_⟩
    rw [Text.trimLeft_append_left hgap, Text.trimLeft, List.cons_append, List.dropWhile_cons_of_neg (by simp [hblank])]

/-- A text ends with a character before its white space. -/
theorem getLast_trimRight_iff {text : Text} {mark : Char} (hmark : isBlank mark = false) :
    mark ∈ (Text.trimRight text).getLast? ↔ ∃ front space, text = front ++ mark :: space ∧ ∀ c ∈ space, isBlank c := by
  constructor
  · intro h
    obtain ⟨front, hfront⟩ := List.getLast?_eq_some_iff.1 h
    obtain ⟨space, htext, hspace⟩ := Text.exists_trimRight text
    exact ⟨front, space, by rw [htext, hfront, List.append_assoc, List.singleton_append], hspace⟩
  · rintro ⟨front, space, rfl, hspace⟩
    have htrim : Text.trimRight (front ++ [mark]) = front ++ [mark] :=
      Text.dropRightWhile_eq_self fun c hc => by
        rw [List.getLast?_concat] at hc
        exact Option.some.inj hc ▸ hmark
    rw [← List.singleton_append, ← List.append_assoc, Text.trimRight_append_right hspace, htrim, List.getLast?_concat]
    rfl

/-- Where a name is no binding it is neither in parameters nor one itself, and it is no key. -/
theorem isBinding_eq_false_iff (hname : IsName name) :
    isBinding (before ++ (name ++ after)) (parameterSpans (before ++ (name ++ after)))
        ⟨before.length, before.length + name.length, ()⟩ = false ↔
      (¬InFunctionParameters before (name ++ after) ∧ ¬InArrowParameters before (name ++ after)) ∧
        ¬Leads (txt "=>") after ∧ ¬IsKeyPlace before after := by
  have hfirst : ∃ c ∈ (name ++ after).head?, isName c := by
    obtain ⟨hne, hchars⟩ := hname
    obtain ⟨c, name, rfl⟩ := List.exists_cons_of_ne_nil hne
    exact ⟨c, rfl, hchars c List.mem_cons_self⟩
  have hdrop : (before ++ (name ++ after)).drop (before.length + name.length) = after := by
    rw [← List.append_assoc, ← List.length_append, List.drop_left]
  have htake : (before ++ (name ++ after)).take before.length = before := List.take_left
  -- Neither of the two marks is blank, so it ends what is left of the part before the name without its white space.
  have hmark : (Text.trimRight before).getLast?.any (fun c => c == '{' || c == ',') = true ↔
      ∃ front mark space, before = front ++ mark :: space ∧ (mark = '{' ∨ mark = ',') ∧ ∀ c ∈ space, isBlank c := by
    simp only [Option.any_eq_true, Bool.or_eq_true, beq_iff_eq]
    constructor
    · rintro ⟨mark, hmark, hclass⟩
      have hblank : isBlank mark = false := by rcases hclass with rfl | rfl <;> decide
      obtain ⟨front, space, hbefore, hspace⟩ := (getLast_trimRight_iff hblank).1 hmark
      exact ⟨front, mark, space, hbefore, hclass, hspace⟩
    · rintro ⟨front, mark, space, hbefore, hclass, hspace⟩
      have hblank : isBlank mark = false := by rcases hclass with rfl | rfl <;> decide
      exact ⟨mark, (getLast_trimRight_iff hblank).2 ⟨front, space, hbefore, hspace⟩, hclass⟩
  rw [isBinding, hdrop, htake, Bool.or_eq_false_iff, Bool.or_eq_false_iff, ← Bool.not_eq_true,
    parameterSpans_iff hfirst, ← Bool.not_eq_true, startsWith_trimLeft_iff ⟨'=', rfl, by decide⟩, ← Bool.not_eq_true,
    Bool.and_eq_true, startsWith_trimLeft_iff ⟨':', rfl, by decide⟩, hmark, not_or, and_assoc, ← IsKeyPlace]

/-! ### Reading through the controller -/

/-- A use of a name between two parts of a body that is read through the controller. -/
structure ReadUse (name before after : Text) : Prop extends PlainUse before after where
  /-- It is not in the parameters of a function. -/
  notParameter : ¬InFunctionParameters before (name ++ after)
  /-- It is not in the parameters of an arrow function. -/
  notArrowParameter : ¬InArrowParameters before (name ++ after)
  /-- It is not the one parameter of an arrow function without parentheses. -/
  notArrow : ¬Leads (txt "=>") after
  /-- It is no key of an object. -/
  notKey : ¬IsKeyPlace before after

open Classical in
/-- Reading a name through the controller puts `ctrl.` before some of its uses and changes nothing else. -/
theorem qualifyShadowed_eq_insertBefore (hname : IsName name) (body : Text) :
    qualifyShadowed name body = body.insertBefore (txt "ctrl.") fun position => ∃ before after,
      body = before ++ (name ++ after) ∧ before.length = position ∧ ReadUse name before after := by
  rw [qualifyShadowed]
  refine Pattern.replaceFound_eq_insertBefore (fun found hfound => ?_) (fun position _ hread => ?_)
    fun found hfound => ?_
  · obtain ⟨before, after, rfl, rfl, -⟩ := (mem_occurrences_nameUse_iff hname).1 hfound
    have hpos := List.length_pos_of_ne_nil hname.1
    simp only [List.length_append]
    omega
  · obtain ⟨before, after, hbody, rfl, huse⟩ := hread
    exact ⟨_, (mem_occurrences_nameUse_iff hname).2 ⟨before, after, hbody, rfl, huse.toPlainUse⟩, rfl⟩
  · obtain ⟨before, after, rfl, rfl, huse⟩ := (mem_occurrences_nameUse_iff hname).1 hfound
    have hslice : (before ++ (name ++ after)).slice before.length (before.length + name.length) = name := by
      rw [Text.slice, List.drop_take, Nat.add_sub_cancel_left, List.drop_left, List.take_left]
    have hread : isBinding (before ++ (name ++ after)) (parameterSpans (before ++ (name ++ after)))
        ⟨before.length, before.length + name.length, ()⟩ = false ↔ ReadUse name before after := by
      rw [isBinding_eq_false_iff hname]
      constructor
      · rintro ⟨⟨hfunction, harrow⟩, hsingle, hkey⟩
        exact ⟨huse, hfunction, harrow, hsingle, hkey⟩
      · exact fun h => ⟨⟨h.notParameter, h.notArrowParameter⟩, h.notArrow, h.notKey⟩
    -- A position divides the body in one way.
    have hmarked : (∃ front rest, before ++ (name ++ after) = front ++ (name ++ rest) ∧ front.length = before.length ∧
        ReadUse name front rest) ↔ ReadUse name before after := by
      constructor
      · rintro ⟨front, rest, hbody, hlength, h⟩
        obtain ⟨rfl, hrest⟩ := List.append_inj hbody hlength.symm
        obtain rfl := List.append_cancel_left hrest
        exact h
      · exact fun h => ⟨before, after, rfl, rfl, h⟩
    rw [hslice]
    by_cases huse : ReadUse name before after
    · rw [if_neg (by simp [hread.2 huse]), if_pos (hmarked.2 huse)]
    · rw [if_pos (by simpa using mt hread.1 huse), if_neg (mt hmarked.1 huse), List.nil_append]

open Classical in
/-- A call that reads a name. -/
theorem qualifyShadowed_eq_insertBefore_call : IsName (txt "count") ∧
    qualifyShadowed (txt "count") (txt "log(count);") =
      (txt "log(count);").insertBefore (txt "ctrl.") fun position => ∃ before after,
        txt "log(count);" = before ++ (txt "count" ++ after) ∧ before.length = position ∧
          ReadUse (txt "count") before after :=
  ⟨by decide, qualifyShadowed_eq_insertBefore (by decide) (txt "log(count);")⟩

/-- A declarator with two spaces behind it does not keep the name that it declares. -/
theorem declared_name_qualified :
    qualifyShadowed (txt "count") (txt "var  count = 1;") = txt "var  ctrl.count = 1;" := by
  decide

/-- A name that a function is declared by is read through the controller, and so is a property in its short form. -/
example : qualifyShadowed (txt "count") (txt "function count() \x7b log(\x7b count \x7d); \x7d") =
    txt "function ctrl.count() \x7b log(\x7b ctrl.count \x7d); \x7d" := by
  decide

end AngularUplift
