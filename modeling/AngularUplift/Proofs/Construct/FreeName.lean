import AngularUplift.Construct.Constant
import AngularUplift.Proofs.Text.Occurrence
import AngularUplift.Proofs.Text.Token

/-!
# Names that stand free in a text

A local is inlined where its name stands free: whole, as no member, and not next to a quotation mark. A text without a
free occurrence stays as it is, and otherwise the first one can be split off, so that what is true of inlining is shown
by induction on the occurrences.

No value can make or break an occurrence around it. On either side of a free occurrence there is the end of the text or
a character next to which any name may be free, and that character stays. So a text can be cut there, and in the same
way at any character that belongs to no name, and inlined part by part. From this follows which names stand free after
a local was inlined, and that two locals can change places when neither stands free in the value of the other.

## Main definitions

* `FreePlace`, `FreeIn`: a place where a name is free, and a name that stands free in a text.
* `Seam`: a cut of a text that no occurrence goes across.

## Main statements

* `freeIn_induction`: induction on the free occurrences of a name.
* `freeIn_seam`, `substituteLocal_seam`: both parts of a cut text on their own.
* `freeIn_substituteLocal_iff`: which names stand free after a local was inlined.
* `substituteLocal_comm`: two locals in either order.
-/

namespace AngularUplift

/-! ### Free occurrences -/

/-- A place where a name is free, between what stands before it and what follows it: what stands before goes on into no
name and asks for no member, and neither neighbour is a quotation mark. -/
structure FreePlace (before after : Text) : Prop where
  /-- The character before the place. -/
  left : ∀ c ∈ before.getLast?, isBoundContext c = false ∧ c ≠ '.'
  /-- The character after the place. -/
  right : ∀ c ∈ after.head?, isBoundContext c = false

/-- A name stands free in a text. -/
def FreeIn (name text : Text) : Prop :=
  ∃ before after, text = before ++ name ++ after ∧ FreePlace before after

/-- Whether a place is free is decided by its neighbours. -/
instance (before after : Text) : Decidable (FreePlace before after) :=
  decidable_of_iff (before.getLast?.all (fun c => !isBoundContext c && c != '.') ∧
      after.head?.all fun c => !isBoundContext c) <| by
    simp only [Option.all_eq_true, Bool.and_eq_true, Bool.not_eq_true', bne_iff_ne]
    exact ⟨fun h => ⟨h.1, h.2⟩, fun h => ⟨h.left, h.right⟩⟩

/-- A free occurrence is looked for at every position. -/
instance (name text : Text) : Decidable (FreeIn name text) :=
  decidable_of_iff (∃ i ∈ List.range (text.length + 1), text = text.take i ++ name ++ text.drop (i + name.length) ∧
      FreePlace (text.take i) (text.drop (i + name.length))) <| by
    constructor
    · rintro ⟨i, -, htext, hplace⟩
      exact ⟨_, _, htext, hplace⟩
    · rintro ⟨before, after, rfl, hplace⟩
      have htake : (before ++ name ++ after).take before.length = before := by simp
      have hdrop : (before ++ name ++ after).drop (before.length + name.length) = after := by
        rw [← List.length_append, List.drop_left]
      have hle : before.length < (before ++ name ++ after).length + 1 := by
        rw [List.length_append, List.length_append]
        omega
      refine ⟨before.length, List.mem_range.2 hle, ?_⟩
      rw [htake, hdrop]
      exact ⟨rfl, hplace⟩

section

variable {name other value : Text}

/-- A character next to which a name may be free belongs to no name. -/
theorem isName_of_isBoundContext {c : Char} (h : isBoundContext c = false) : isName c = false :=
  (Bool.or_eq_false_iff.1 h).1

/-- What stands before a free place ends no name. -/
theorem FreePlace.ends_other {before after : Text} (h : FreePlace before after) :
    ∀ c ∈ before.getLast?, isName c = false := fun c hc => isName_of_isBoundContext (h.left c hc).1

/-- What follows a free place begins no name. -/
theorem FreePlace.begins_other {before after : Text} (h : FreePlace before after) :
    ∀ c ∈ after.head?, isName c = false := fun c hc => isName_of_isBoundContext (h.right c hc)

/-- Between the ends of a text any name is free. -/
theorem FreePlace.ends : FreePlace [] [] := ⟨by simp, by simp⟩

/-- A free place that is followed by more. -/
theorem FreePlace.append_right {before after : Text} (h : FreePlace before after) (hne : after ≠ []) (more : Text) :
    FreePlace before (after ++ more) := by
  refine ⟨h.left, fun c hc => h.right c ?_⟩
  rwa [List.head?_append_of_ne_nil _ hne] at hc

/-- A free place in a part of a text that goes on behind it. -/
theorem FreePlace.of_append_right {before after more : Text} (h : FreePlace before (after ++ more)) :
    FreePlace before after := by
  refine ⟨h.left, fun c hc => h.right c ?_⟩
  rw [List.head?_append, Option.mem_def.1 hc]
  rfl

/-- A free place that has more in front of it. -/
theorem FreePlace.append_left {before after : Text} (h : FreePlace before after) (hne : before ≠ []) (more : Text) :
    FreePlace (more ++ before) after := by
  refine ⟨fun c hc => h.left c ?_, h.right⟩
  rwa [List.getLast?_append_of_ne_nil _ hne] at hc

/-- A free place in a part of a text that has more in front of it. -/
theorem FreePlace.of_append_left {before after more : Text} (h : FreePlace (more ++ before) after) :
    FreePlace before after := by
  refine ⟨fun c hc => h.left c ?_, h.right⟩
  rw [List.getLast?_append, Option.mem_def.1 hc]
  rfl

/-- A text that ends with a name ends with a character of it. -/
theorem IsName.not_ends_other (h : IsName name) (before : Text) :
    ¬∀ c ∈ (before ++ name).getLast?, isName c = false := by
  intro hend
  have hlast := hend (name.getLast h.1) (by
    rw [List.getLast?_append_of_ne_nil _ h.1, List.getLast?_eq_getLast_of_ne_nil h.1]
    rfl)
  rw [h.2 _ (List.getLast_mem h.1)] at hlast
  exact absurd hlast (by decide)

/-- A text that begins with a name begins with a character of it. -/
theorem IsName.not_begins_other (h : IsName name) (after : Text) :
    ¬∀ c ∈ (name ++ after).head?, isName c = false := by
  intro hbegin
  have hfirst := hbegin (name.head h.1) (by
    rw [List.head?_append_of_ne_nil _ h.1, List.head?_eq_some_head h.1]
    rfl)
  rw [h.2 _ (List.head_mem h.1)] at hfirst
  exact absurd hfirst (by decide)

/-! ### The search for free occurrences -/

/-- Where a name is free the search finds it. -/
theorem at?_freeLocal {before after : Text} (h : FreePlace before after) :
    (freeLocal name).at? before.reverse (name ++ after) = some (name.length, ()) := by
  refine Pattern.at?_append ?_ ?_
  · change (!before.reverse.head?.any fun c => isBoundContext c || c == '.') = true
    rw [List.head?_reverse]
    cases hlast : before.getLast? with
    | none => rfl
    | some c => simp [h.left c hlast]
  · exact Reader.bind_eq_some_iff.2 ⟨(), after, Reader.exactly_eq_some_iff.2 rfl, Reader.notNext_eq h.right⟩

/-- What the search finds is the name at a free place. -/
theorem freePlace_of_at? {before text : Text} {n : Nat} {found : Unit}
    (h : (freeLocal name).at? before.reverse text = some (n, found)) :
    ∃ after, text = name ++ after ∧ FreePlace before after := by
  rw [Pattern.at?, Option.ite_none_right_eq_some] at h
  obtain ⟨hleft, hread⟩ := h
  obtain ⟨⟨_, rest⟩, hread, -⟩ := Option.map_eq_some_iff.1 hread
  obtain ⟨_, after, hexactly, hnext⟩ := Reader.bind_eq_some_iff.1 hread
  refine ⟨after, Reader.exactly_eq_some_iff.1 hexactly, fun c hc => ?_, fun c hc => ?_⟩
  · change (!before.reverse.head?.any fun c => isBoundContext c || c == '.') = true at hleft
    rw [List.head?_reverse, Option.mem_def.1 hc] at hleft
    simpa using hleft
  · simpa using (Reader.notNext_eq_some hnext).2 c hc

/-- The search passes over a text in which the name is not free, when the text is all there is or ends with a character
that belongs to no name. -/
theorem absent_freeLocal {text after : Text} (h : ¬FreeIn name text)
    (hend : after = [] ∨ ∀ c ∈ text.getLast?, isName c = false) (hname : IsName name) :
    (freeLocal name).Absent after [] text := by
  refine Pattern.absent_of_forall fun front back hsplit hne => ?_
  rw [List.append_nil, Option.eq_none_iff_forall_ne_some]
  rintro ⟨n, found⟩ hat
  obtain ⟨rest, hrest, hplace⟩ := freePlace_of_at? hat
  obtain ⟨more, rfl, rfl⟩ | ⟨more, rfl, rfl⟩ := List.append_eq_append_iff.1 hrest
  · -- The occurrence goes on behind the text, so a character of the name is the last one of the text.
    rcases hend with hnil | hlast
    · obtain ⟨rfl, rfl⟩ := List.append_eq_nil_iff.1 hnil
      refine h ⟨front, [], ?_, hplace⟩
      rw [hsplit, List.append_nil, List.append_nil]
    · have hlastOf : text.getLast? = some (back.getLast hne) := by
        rw [hsplit, List.getLast?_append_of_ne_nil _ hne, List.getLast?_eq_getLast_of_ne_nil hne]
      have hchar := hname.2 _ (List.mem_append_left more (List.getLast_mem hne))
      rw [hlast _ hlastOf] at hchar
      exact absurd hchar (by decide)
  · refine h ⟨front, more, ?_, hplace.of_append_right⟩
    rw [hsplit, List.append_assoc]

/-- No occurrence begins at the end of a text or before a character that belongs to no name. -/
theorem at?_freeLocal_other {text : Text} (hname : IsName name) (h : ∀ c ∈ text.head?, isName c = false)
    (before : Text) : (freeLocal name).at? before text = none := by
  rw [← before.reverse_reverse, Option.eq_none_iff_forall_ne_some]
  rintro ⟨n, found⟩ hat
  obtain ⟨after, rfl, -⟩ := freePlace_of_at? hat
  exact hname.not_begins_other after h

/-- Of what stands before a place only the nearest character counts. -/
theorem at?_freeLocal_congr {before others : Text} (h : before.head? = others.head?) (text : Text) :
    (freeLocal name).at? before text = (freeLocal name).at? others text := by
  have hleft : (freeLocal name).left before text = (freeLocal name).left others text := by
    simp only [freeLocal, notAfter, h]
  rw [Pattern.at?, Pattern.at?, hleft]

/-- Of what stands before a text only the nearest character counts for its pieces. -/
theorem piecesFrom_freeLocal_congr {before others : Text} (h : before.head? = others.head?) (skip : Nat) (text : Text) :
    (freeLocal name).piecesFrom before skip text = (freeLocal name).piecesFrom others skip text := by
  have hat : ∀ text, (freeLocal name).at? before text = (freeLocal name).at? others text := at?_freeLocal_congr h
  induction text generalizing before others skip with
  | nil =>
    cases skip with
    | zero => simp only [Pattern.piecesFrom, hat]
    | succ skip => rfl
  | cons c text ih =>
    have hnext : ∀ skip, (freeLocal name).piecesFrom (c :: before) skip text =
        (freeLocal name).piecesFrom (c :: others) skip text := by
      intro skip
      have hhead : (c :: before).head? = (c :: others).head? := rfl
      exact ih hhead skip (at?_freeLocal_congr hhead)
    cases skip with
    | zero =>
      rw [Pattern.piecesFrom.eq_def, Pattern.piecesFrom.eq_def (freeLocal name) others]
      simp only [hat, hnext]
    | succ skip => exact hnext skip

/-! ### Induction on the occurrences -/

/-- A text in which a name is not free stays as it is when the name is exchanged. -/
theorem substituteLocal_eq_self (hname : IsName name) {text : Text} (h : ¬FreeIn name text) :
    substituteLocal text (name, value) = text := by
  have habsent : (freeLocal name).Absent [] [] text := absent_freeLocal h (.inl rfl) hname
  have hexchange := Pattern.flatMap_exchange_append (fun _ _ => value) habsent
  rw [List.append_nil, Pattern.piecesFrom, at?_freeLocal_other hname (by simp)] at hexchange
  exact hexchange.trans (List.append_nil text)

/-- The first free occurrence of a name is exchanged, and what follows it is a text of its own. -/
theorem substituteLocal_first (hname : IsName name) {before after : Text} (hplace : FreePlace before after)
    (h : ¬FreeIn name before) :
    substituteLocal (before ++ name ++ after) (name, value) = before ++ value ++ substituteLocal after (name, value) := by
  have habsent : (freeLocal name).Absent (name ++ after) [] before :=
    absent_freeLocal h (.inr hplace.ends_other) hname
  have hexchange := Pattern.flatMap_exchange_append (fun _ _ => value) habsent
  have hfound : (freeLocal name).at? before.reverse (name ++ after) = some (name.length, ()) := at?_freeLocal hplace
  -- What follows the occurrence does not begin with a name, so nothing depends on what was passed over.
  have hafter : ∀ before', ((freeLocal name).piecesFrom before' 0 after).flatMap (Pattern.exchange fun _ _ => value) =
      substituteLocal after (name, value) := by
    intro before'
    have hother : ∀ before', (freeLocal name).at? before' after = none := fun before' =>
      at?_freeLocal_other hname hplace.begins_other before'
    rw [substituteLocal, Pattern.replace, Pattern.replaceWith, Pattern.pieces]
    cases after with
    | nil => rw [Pattern.piecesFrom, Pattern.piecesFrom, hother, hother]
    | cons c after =>
      rw [Pattern.piecesFrom.eq_def, Pattern.piecesFrom.eq_def (freeLocal name) []]
      simp only [hother]
      have hhead : (c :: before').head? = [c].head? := rfl
      rw [piecesFrom_freeLocal_congr hhead]
  rw [List.append_nil] at hexchange
  rw [List.append_assoc, List.append_assoc, substituteLocal, Pattern.replace, Pattern.replaceWith, Pattern.pieces,
    hexchange, Pattern.piecesFrom_found hname.1 hfound, List.flatMap_cons, hafter]
  rfl

/-- Of the free occurrences of a name there is a first one. -/
theorem exists_first (hname : IsName name) {text : Text} (h : FreeIn name text) :
    ∃ before after, text = before ++ name ++ after ∧ FreePlace before after ∧ ¬FreeIn name before := by
  obtain ⟨before, after, htext, hplace⟩ := h
  -- The induction is on the length of what stands before an occurrence.
  induction hlength : before.length using Nat.strong_induction_on generalizing before after with
  | _ n ih =>
    by_cases hfree : FreeIn name before
    · obtain ⟨front, back, hbefore, hfront⟩ := hfree
      have hback : back ≠ [] := by
        rintro rfl
        rw [List.append_nil] at hbefore
        exact hname.not_ends_other front (hbefore ▸ hplace.ends_other)
      have hshorter : front.length < n := by
        rw [← hlength, hbefore, List.length_append, List.length_append]
        have hpos := List.length_pos_of_ne_nil hname.1
        omega
      refine ih front.length hshorter front (back ++ name ++ after) ?_ ?_ rfl
      · rw [htext, hbefore]
        simp only [List.append_assoc]
      · rw [List.append_assoc]
        exact hfront.append_right hback _
    · exact ⟨before, after, htext, hplace, hfree⟩

/-- Induction on the free occurrences of a name, from the left. -/
theorem freeIn_induction (hname : IsName name) {P : Text → Prop} (none : ∀ text, ¬FreeIn name text → P text)
    (first : ∀ before after, FreePlace before after → ¬FreeIn name before → P after → P (before ++ name ++ after))
    (text : Text) : P text := by
  induction hlength : text.length using Nat.strong_induction_on generalizing text with
  | _ n ih =>
    by_cases hfree : FreeIn name text
    · obtain ⟨before, after, rfl, hplace, hbefore⟩ := exists_first hname hfree
      have hshorter : after.length < n := by
        have hpos := List.length_pos_of_ne_nil hname.1
        rw [← hlength, List.length_append, List.length_append]
        omega
      exact first before after hplace hbefore (ih after.length hshorter after rfl)
    · exact none text hfree

/-! ### Cut texts -/

/-- A text can be cut into what stands before some characters and what follows them, both parts with these characters,
when they belong to no name. When there are none, then any name must be free on one of the two sides. -/
structure Seam (front shared back : Text) : Prop where
  /-- No name goes on into the shared characters. -/
  nameless : ∀ c ∈ shared, isName c = false
  /-- Where nothing is shared, a neighbour leaves the other part as free as the end of a text would. -/
  loose : shared ≠ [] ∨ (∀ c ∈ front.getLast?, isBoundContext c = false ∧ c ≠ '.') ∨
    ∀ c ∈ back.head?, isBoundContext c = false

/-- A character that belongs to no name can be shared by the two parts of a text. -/
theorem Seam.single {c : Char} (h : isName c = false) (front back : Text) : Seam front [c] back :=
  ⟨by simpa using h, .inl (List.cons_ne_nil c [])⟩

/-- A text can be cut where what follows leaves any name before it free. -/
theorem FreePlace.seam_after {before after : Text} (h : FreePlace before after) (middle : Text) :
    Seam (before ++ middle) [] after :=
  ⟨by simp, .inr (.inr h.right)⟩

/-- A text can be cut where what stands before leaves any name behind it free. -/
theorem FreePlace.seam_before {before after : Text} (h : FreePlace before after) (others : Text) :
    Seam before [] others :=
  ⟨by simp, .inr (.inl h.left)⟩

section

variable {front shared back : Text}

/-- A cut stays one when the text begins later. -/
theorem Seam.of_append_left {more : Text} (h : Seam (more ++ front) shared back) : Seam front shared back := by
  refine ⟨h.nameless, h.loose.imp_right (Or.imp_left fun hlast c hc => hlast c ?_)⟩
  rw [List.getLast?_append, Option.mem_def.1 hc]
  rfl

/-- A cut stays one when the text ends earlier. -/
theorem Seam.of_append_right {more : Text} (h : Seam front shared (back ++ more)) : Seam front shared back := by
  refine ⟨h.nameless, h.loose.imp_right (Or.imp_right fun hhead c hc => hhead c ?_)⟩
  rw [List.head?_append, Option.mem_def.1 hc]
  rfl

/-- A name in the first part ends before the shared characters, and where it is free it is free in the whole text. -/
theorem Seam.in_front (h : Seam front shared back) (hname : IsName name) {before after : Text}
    (hsplit : front ++ shared = before ++ name ++ after) (hplace : FreePlace before after) :
    (∃ rest, front = before ++ name ++ rest ∧ after = rest ++ shared) ∧ FreePlace before (after ++ back) := by
  obtain ⟨rest, hrest⟩ : ∃ rest, front = before ++ name ++ rest ∧ after = rest ++ shared := by
    obtain ⟨rest, hbefore, hshared⟩ | ⟨rest, hfront, hafter⟩ := List.append_eq_append_iff.1 hsplit
    · -- The shared characters would begin with characters of the name.
      cases rest with
      | nil => exact ⟨[], by simpa using hbefore.symm, by simpa using hshared.symm⟩
      | cons c rest =>
        refine absurd (fun d hd => ?_) (hname.not_ends_other before)
        rw [hbefore, List.getLast?_append_of_ne_nil _ (List.cons_ne_nil c rest)] at hd
        exact h.nameless d (hshared ▸ List.mem_append_left after (List.mem_of_mem_getLast? hd))
    · exact ⟨rest, hfront, hafter⟩
  refine ⟨⟨rest, hrest⟩, ?_⟩
  obtain ⟨hfront, hafter⟩ := hrest
  by_cases hne : after = []
  · -- Then nothing is shared, and the name stands at the end of the first part.
    obtain ⟨rfl, rfl⟩ := List.append_eq_nil_iff.1 (hafter.symm.trans hne)
    obtain hshared | hlast | hhead := h.loose
    · exact absurd rfl hshared
    · rw [List.append_nil] at hfront
      refine absurd (fun d hd => ?_) (hname.not_ends_other before)
      exact isName_of_isBoundContext (hlast d (hfront ▸ hd)).1
    · rw [hne]
      exact ⟨hplace.left, hhead⟩
  · exact hplace.append_right hne back

/-- A name in the second part begins behind the shared characters, and where it is free it is free in the whole text. -/
theorem Seam.in_back (h : Seam front shared back) (hname : IsName name) {before after : Text}
    (hsplit : shared ++ back = before ++ name ++ after) (hplace : FreePlace before after) :
    (∃ rest, before = shared ++ rest ∧ back = rest ++ name ++ after) ∧ FreePlace (front ++ before) after := by
  obtain ⟨rest, hrest⟩ : ∃ rest, before = shared ++ rest ∧ back = rest ++ name ++ after := by
    rw [List.append_assoc] at hsplit
    obtain ⟨rest, hbefore, hback⟩ | ⟨rest, hshared, hname'⟩ := List.append_eq_append_iff.1 hsplit
    · exact ⟨rest, hbefore, by rw [hback, List.append_assoc]⟩
    · -- The shared characters would end with characters of the name.
      cases rest with
      | nil => exact ⟨[], by simpa using hshared.symm, by simpa using hname'.symm⟩
      | cons c rest =>
        refine absurd (fun d hd => ?_) (hname.not_begins_other after)
        rw [hname', List.cons_append, List.head?_cons] at hd
        obtain rfl := Option.some.inj hd
        exact h.nameless c (hshared ▸ List.mem_append_right before List.mem_cons_self)
  refine ⟨⟨rest, hrest⟩, ?_⟩
  obtain ⟨hbefore, hback⟩ := hrest
  by_cases hne : before = []
  · -- Then nothing is shared, and the name stands at the beginning of the second part.
    obtain ⟨rfl, rfl⟩ := List.append_eq_nil_iff.1 (hbefore.symm.trans hne)
    obtain hshared | hlast | hhead := h.loose
    · exact absurd rfl hshared
    · rw [hne, List.append_nil]
      exact ⟨hlast, hplace.right⟩
    · rw [List.nil_append] at hback
      refine absurd (fun d hd => ?_) (hname.not_begins_other after)
      exact isName_of_isBoundContext (hhead d (hback ▸ hd))
  · exact hplace.append_left hne front

/-- No name goes across a cut. -/
theorem Seam.not_across {early late : Text} (h : Seam (front ++ early) shared (late ++ back))
    (hname : IsName (early ++ shared ++ late)) : early = [] ∨ late = [] := by
  by_contra! hne
  obtain ⟨hearly, hlate⟩ := hne
  have hchar : ∀ c, c ∈ early ∨ c ∈ shared ∨ c ∈ late → isName c := by
    intro c hc
    refine hname.2 c ?_
    simpa [or_assoc] using hc
  obtain hshared | hlast | hhead := h.loose
  · obtain ⟨c, hc⟩ := List.exists_mem_of_ne_nil shared hshared
    exact absurd (hchar c (.inr (.inl hc))) (by rw [h.nameless c hc]; decide)
  · have hmem := List.getLast_mem hearly
    have hbound := hlast (early.getLast hearly) (by
      rw [List.getLast?_append_of_ne_nil _ hearly, List.getLast?_eq_getLast_of_ne_nil hearly]
      rfl)
    exact absurd (hchar _ (.inl hmem)) (by rw [isName_of_isBoundContext hbound.1]; decide)
  · have hmem := List.head_mem hlate
    have hbound := hhead (late.head hlate) (by
      rw [List.head?_append_of_ne_nil _ hlate, List.head?_eq_some_head hlate]
      rfl)
    exact absurd (hchar _ (.inr (.inr hmem))) (by rw [isName_of_isBoundContext hbound]; decide)

/-- In a cut text stand free the names that stand free in one of the parts. -/
theorem freeIn_seam (h : Seam front shared back) (hname : IsName name) :
    FreeIn name (front ++ shared ++ back) ↔ FreeIn name (front ++ shared) ∨ FreeIn name (shared ++ back) := by
  constructor
  · -- An occurrence ends in the first part, begins in the second, or would go across the cut.
    rintro ⟨before, after, hsplit, hplace⟩
    obtain ⟨late, hlate, hback⟩ | ⟨rest, hfront, rfl⟩ := List.append_eq_append_iff.1 hsplit
    · rw [List.append_assoc] at hlate
      obtain ⟨rest, rfl, hname'⟩ | ⟨early, hfront, hname'⟩ := List.append_eq_append_iff.1 hlate.symm
      · refine .inr ⟨rest, after, ?_, hplace.of_append_left⟩
        rw [hback, ← List.append_assoc, hname']
      · subst hfront hback
        rw [← List.append_assoc] at hname'
        obtain rfl | rfl := h.not_across (hname' ▸ hname)
        · refine .inr ⟨[], after, by simp [hname'], ?_⟩
          rw [← List.append_nil before] at hplace
          exact hplace.of_append_left
        · refine .inl ⟨before, [], by simp [hname'], ?_⟩
          rw [← List.nil_append after] at hplace
          exact hplace.of_append_right
    · exact .inl ⟨before, rest, hfront, hplace.of_append_right⟩
  · rintro (⟨before, after, hsplit, hplace⟩ | ⟨before, after, hsplit, hplace⟩)
    · refine ⟨before, after ++ back, ?_, (h.in_front hname hsplit hplace).2⟩
      rw [hsplit, List.append_assoc]
    · refine ⟨front ++ before, after, ?_, (h.in_back hname hsplit hplace).2⟩
      rw [List.append_assoc, hsplit]
      simp only [List.append_assoc]

/-- The two parts of a cut text are inlined on their own. -/
theorem substituteLocal_seam (h : Seam front shared back) (hname : IsName name) (value : Text) :
    ∃ front' back', substituteLocal (front ++ shared) (name, value) = front' ++ shared ∧
      substituteLocal (shared ++ back) (name, value) = shared ++ back' ∧
      substituteLocal (front ++ shared ++ back) (name, value) = front' ++ shared ++ back' := by
  -- The induction is on the occurrences in the first part. Without any, what counts is the first one in the second part.
  induction hfront : front ++ shared using freeIn_induction hname generalizing front with
  | none text hfree =>
    subst hfront
    rw [substituteLocal_eq_self hname hfree]
    by_cases hback : FreeIn name (shared ++ back)
    · obtain ⟨before, after, hsplit, hplace, hbefore⟩ := exists_first hname hback
      obtain ⟨⟨rest, rfl, rfl⟩, hplace'⟩ := h.in_back hname hsplit hplace
      have hwhole : front ++ shared ++ (rest ++ name ++ after) = front ++ (shared ++ rest) ++ name ++ after := by
        simp only [List.append_assoc]
      have hnone : ¬FreeIn name (front ++ (shared ++ rest)) := by
        rw [List.append_assoc] at h
        rw [← List.append_assoc, freeIn_seam h.of_append_right hname]
        exact not_or.2 ⟨hfree, hbefore⟩
      refine ⟨front, rest ++ value ++ substituteLocal after (name, value), rfl, ?_, ?_⟩
      · rw [hsplit, substituteLocal_first hname hplace hbefore]
        simp only [List.append_assoc]
      · rw [hwhole, substituteLocal_first hname hplace' hnone]
        simp only [List.append_assoc]
    · refine ⟨front, back, rfl, substituteLocal_eq_self hname hback, substituteLocal_eq_self hname ?_⟩
      rw [freeIn_seam h hname]
      exact not_or.2 ⟨hfree, hback⟩
  | first before after hplace hbefore ih =>
    obtain ⟨⟨rest, rfl, rfl⟩, hplace'⟩ := h.in_front hname hfront hplace
    obtain ⟨front', back', hfirst, hsecond, hwhole⟩ := ih h.of_append_left rfl
    refine ⟨before ++ value ++ front', back', ?_, hsecond, ?_⟩
    · rw [substituteLocal_first hname hplace hbefore, hfirst]
      simp only [List.append_assoc]
    · rw [List.append_assoc (before ++ name), substituteLocal_first hname hplace' hbefore, hwhole]
      simp only [List.append_assoc]

/-! ### Free places -/

/-- Nothing stands free in a text without characters. -/
theorem not_freeIn_nil (hname : IsName name) : ¬FreeIn name [] := by
  rintro ⟨before, after, hsplit, -⟩
  have hlength := congrArg List.length hsplit
  have hpos := List.length_pos_of_ne_nil hname.1
  simp only [List.length_nil, List.length_append] at hlength
  omega

/-- A text without characters has nothing to inline. -/
theorem substituteLocal_nil (hname : IsName name) : substituteLocal [] (name, value) = [] :=
  substituteLocal_eq_self hname (not_freeIn_nil hname)

/-- A name is free in itself. -/
theorem freeIn_self (name : Text) : FreeIn name name := ⟨[], [], by simp, .ends⟩

/-- The number of characters of a text that belong to no name. -/
def otherCount (text : Text) : Nat := text.countP fun c => !isName c

theorem otherCount_append (text text' : Text) : otherCount (text ++ text') = otherCount text + otherCount text' :=
  List.countP_append

/-- All characters of a name belong to it. -/
theorem otherCount_name (hname : IsName name) : otherCount name = 0 := by
  rw [otherCount, List.countP_eq_zero]
  intro c hc
  simp [hname.2 c hc]

/-- A text of more than the name that stands free in it has a character next to the name. -/
theorem otherCount_pos (hfree : FreeIn name value) (hne : value ≠ name) : 0 < otherCount value := by
  obtain ⟨before, after, rfl, hplace⟩ := hfree
  rw [otherCount, List.countP_pos_iff]
  by_cases hbefore : before = []
  · have hafter : after ≠ [] := by
      rintro rfl
      exact hne (by rw [hbefore, List.nil_append, List.append_nil])
    have hother := hplace.begins_other _ (List.head?_eq_some_head hafter)
    exact ⟨after.head hafter, by simp, by simp [hother]⟩
  · have hother := hplace.ends_other _ (List.getLast?_eq_getLast_of_ne_nil hbefore)
    exact ⟨before.getLast hbefore, by simp, by simp [hother]⟩

/-- No name but itself stands free in a name. -/
theorem freeIn_name_iff (hname : IsName name) : FreeIn other name ↔ other = name := by
  refine ⟨fun hfree => ?_, fun h => h ▸ freeIn_self name⟩
  by_contra hne
  have hpos := otherCount_pos hfree (Ne.symm hne)
  rw [otherCount_name hname] at hpos
  exact absurd hpos (Nat.lt_irrefl 0)

section

variable {before after middle : Text}

/-- Around a free place stand free the names that stand free before it, in it or behind it. -/
theorem freeIn_middle (h : FreePlace before after) (hname : IsName name) :
    FreeIn name (before ++ middle ++ after) ↔ FreeIn name before ∨ FreeIn name middle ∨ FreeIn name after := by
  have hbehind := freeIn_seam (h.seam_after middle) hname
  have hin := freeIn_seam (h.seam_before middle) hname
  simp only [List.append_nil, List.nil_append] at hbehind hin
  rw [hbehind, hin, or_assoc]

/-- Around a free place the text before it, in it and behind it is inlined on its own. -/
theorem substituteLocal_middle (h : FreePlace before after) (hname : IsName name) :
    substituteLocal (before ++ middle ++ after) (name, value) = substituteLocal before (name, value) ++
      substituteLocal middle (name, value) ++ substituteLocal after (name, value) := by
  obtain ⟨_, _, hfront, hback, hwhole⟩ := substituteLocal_seam (h.seam_after middle) hname value
  obtain ⟨_, _, hfront', hback', hwhole'⟩ := substituteLocal_seam (h.seam_before middle) hname value
  simp only [List.append_nil, List.nil_append] at hfront hback hwhole hfront' hback' hwhole'
  rw [hwhole, ← hfront, ← hback, hwhole', ← hfront', ← hback']

/-- A place stays free when the texts around it are inlined. -/
theorem FreePlace.substituteLocal (h : FreePlace before after) (hname : IsName name) (value : Text) :
    FreePlace (substituteLocal before (name, value)) (substituteLocal after (name, value)) := by
  constructor
  · intro c hc
    cases hlast : before.getLast? with
    | none =>
      rw [List.getLast?_eq_none_iff.1 hlast, substituteLocal_nil hname] at hc
      exact absurd hc (by simp)
    | some d =>
      obtain ⟨front, rfl⟩ := List.getLast?_eq_some_iff.1 hlast
      obtain ⟨front', -, hfront, -, -⟩ := substituteLocal_seam
        (Seam.single (isName_of_isBoundContext (h.left d hlast).1) front []) hname value
      rw [hfront, List.getLast?_concat] at hc
      exact Option.some.inj hc ▸ h.left d hlast
  · intro c hc
    cases after with
    | nil =>
      rw [substituteLocal_nil hname] at hc
      exact absurd hc (by simp)
    | cons d back =>
      obtain ⟨-, back', -, hback, -⟩ := substituteLocal_seam
        (Seam.single (isName_of_isBoundContext (h.right d rfl)) [] back) hname value
      rw [← List.singleton_append, hback] at hc
      exact Option.some.inj hc ▸ h.right d rfl

/-- A free occurrence of a name is exchanged, and the texts around it are inlined on their own. -/
theorem substituteLocal_free (h : FreePlace before after) (hname : IsName name) :
    substituteLocal (before ++ name ++ after) (name, value) =
      substituteLocal before (name, value) ++ value ++ substituteLocal after (name, value) := by
  have halone : substituteLocal ([] ++ name ++ []) (name, value) = [] ++ value ++ substituteLocal [] (name, value) :=
    substituteLocal_first hname .ends (not_freeIn_nil hname)
  rw [substituteLocal_nil hname, List.nil_append, List.append_nil, List.nil_append, List.append_nil] at halone
  rw [substituteLocal_middle h hname, halone]

end

/-! ### What stands free after a local was inlined -/

/-- After a local was inlined there stand free the other names that stood free, and where the local was free the names
that stand free in its value. -/
theorem freeIn_substituteLocal_iff (hname : IsName name) (hother : IsName other) {text : Text} :
    FreeIn other (substituteLocal text (name, value)) ↔
      other ≠ name ∧ FreeIn other text ∨ FreeIn name text ∧ FreeIn other value := by
  induction text using freeIn_induction hname with
  | none text hfree =>
    rw [substituteLocal_eq_self hname hfree]
    constructor
    · intro h
      exact .inl ⟨fun heq => hfree (heq ▸ h), h⟩
    · rintro (⟨-, h⟩ | ⟨h, -⟩)
      · exact h
      · exact absurd h hfree
  | first before after hplace hbefore ih =>
    -- The value stands where the name stood, and what is around it leaves any name free there.
    have hplace' := hplace.substituteLocal hname value
    rw [substituteLocal_eq_self hname hbefore] at hplace'
    have hfound : FreeIn name (before ++ name ++ after) := ⟨before, after, rfl, hplace⟩
    rw [substituteLocal_first hname hplace hbefore, freeIn_middle hplace' hother, ih, freeIn_middle hplace hother,
      freeIn_name_iff hname]
    by_cases heq : other = name
    · subst heq
      tauto
    · tauto

/-- Two locals can change places when neither stands free in the value of the other. -/
theorem substituteLocal_comm {value' : Text} (hname : IsName name) (hother : IsName other) (hne : name ≠ other)
    (hvalue : ¬FreeIn other value) (hvalue' : ¬FreeIn name value') (text : Text) :
    substituteLocal (substituteLocal text (name, value)) (other, value') =
      substituteLocal (substituteLocal text (other, value')) (name, value) := by
  -- The name stays where it is not free: the other value does not bring it in.
  have hstays : ∀ text, ¬FreeIn name text → ¬FreeIn name (substituteLocal text (other, value')) := by
    intro text hfree
    rw [freeIn_substituteLocal_iff hother hname]
    tauto
  induction text using freeIn_induction hname with
  | none text hfree =>
    rw [substituteLocal_eq_self hname hfree, substituteLocal_eq_self hname (hstays text hfree)]
  | first before after hplace hbefore ih =>
    have hinlined := hplace.substituteLocal hname value
    have hplace' := hplace.substituteLocal hother value'
    rw [substituteLocal_eq_self hname hbefore] at hinlined
    rw [substituteLocal_first hname hplace hbefore, substituteLocal_middle hinlined hother,
      substituteLocal_eq_self hother hvalue, ih, substituteLocal_middle hplace hother,
      substituteLocal_eq_self hother (mt (freeIn_name_iff hname).1 hne.symm),
      substituteLocal_first hname hplace' (hstays before hbefore)]

end

/-! ### Texts that inlining leaves as they are -/

/-- A local that is exchanged for its own name leaves every text as it is. -/
theorem substituteLocal_name (hname : IsName name) (text : Text) : substituteLocal text (name, name) = text := by
  induction text using freeIn_induction hname with
  | none text hfree => exact substituteLocal_eq_self hname hfree
  | first before after hplace hbefore ih => rw [substituteLocal_first hname hplace hbefore, ih]

/-- Inlining takes away nothing but names. -/
theorem otherCount_le_substituteLocal (hname : IsName name) (text value : Text) :
    otherCount text ≤ otherCount (substituteLocal text (name, value)) := by
  induction text using freeIn_induction hname with
  | none text hfree => rw [substituteLocal_eq_self hname hfree]
  | first before after hplace hbefore ih =>
    rw [substituteLocal_first hname hplace hbefore]
    simp only [otherCount_append, otherCount_name hname]
    omega

/-- Inlining brings in the characters of the value that belong to no name. -/
theorem otherCount_lt_substituteLocal (hname : IsName name) {text : Text} (hfree : FreeIn name text)
    (hvalue : 0 < otherCount value) : otherCount text < otherCount (substituteLocal text (name, value)) := by
  obtain ⟨before, after, rfl, hplace, hbefore⟩ := exists_first hname hfree
  have hafter := otherCount_le_substituteLocal hname after value
  rw [substituteLocal_first hname hplace hbefore]
  simp only [otherCount_append, otherCount_name hname]
  omega

end

end AngularUplift
