import AngularUplift.Proofs.Receiver
import AngularUplift.Proofs.Watcher.Extraction

/-!
# Extracting watchers a second time

One extraction looks for calls once, in the body as it was, while what it cuts out brings the text around it together.
So a call can come to begin a line only after the search: it stood on the line of a call that was cut out, or parts of
a call have come together. A second extraction takes such a call, and it takes nothing exactly when there is none.

## Main definitions

* `Watcher.UsableAt`: a call that makes a watcher.
* `Watcher.left`: what an extraction leaves of a body, with the places of its characters.

## Main statements

* `Watcher.extractWatchers_eq_nil_iff`: nothing is extracted exactly when no usable call stands in the body.
* `Watcher.extractWatchers_fixed_iff`: an extraction that leaves the body as it is extracts nothing.
* `Watcher.exists_cut_of_usableAt`: where the usable calls in the residual come from.
* `second_extraction`: what a second extraction finds.
-/

namespace AngularUplift

namespace Watcher

/-- A call that begins a line, is closed, and has arguments that make a watcher. -/
structure UsableAt (text : Text) (start opened closed : Nat) : Prop where
  /-- The call begins a line. -/
  call : CallAt text start opened
  /-- Its parenthesis is closed. -/
  closes : Delimiter.paren.Closes text opened closed
  /-- Its arguments make a watcher. -/
  usable : ¬Unusable (Text.splitArguments (text.slice (opened + 1) closed))

variable {text body : Text} {start opened closed : Nat}

/-- A usable call is not malformed. -/
theorem UsableAt.not_malformed (h : UsableAt text start opened closed) : ¬Malformed text opened := by
  rintro (hnone | ⟨hcloses, hunusable⟩)
  · exact hnone closed h.closes
  · exact h.usable (h.closes.unique hcloses ▸ hunusable)

/-- The beginning of every usable call is cut out. -/
theorem UsableAt.exists_cut (h : UsableAt body start opened closed) :
    ∃ cut ∈ cuts body, cut.start ≤ start ∧ start < cut.stop := by
  obtain ⟨cut, hcut, hlt, hstop⟩ | ⟨⟨cut, hcut, hstart⟩, -⟩ | ⟨hmalformed, -⟩ := exists_cut_or_malformed h.call
  · exact ⟨cut, hcut, hlt.le, hstop⟩
  · obtain ⟨otherOpened, otherClosed, hform⟩ := callCut_of_mem_cuts hcut
    have hbounds := hform.bounds
    exact ⟨cut, hcut, hstart.le, by omega⟩
  · exact absurd hmalformed h.not_malformed

/-- Nothing is cut out exactly when no usable call stands in the body. -/
theorem cuts_eq_nil_iff : cuts body = [] ↔ ∀ start opened closed, ¬UsableAt body start opened closed := by
  constructor
  · intro hnone start opened closed husable
    obtain ⟨cut, hcut, -⟩ := husable.exists_cut
    rw [hnone] at hcut
    exact absurd hcut List.not_mem_nil
  · intro hnone
    apply List.eq_nil_iff_forall_not_mem.2
    intro cut hcut
    obtain ⟨opened, closed, hform⟩ := callCut_of_mem_cuts hcut
    exact hnone _ _ _ ⟨hform.call, hform.closes, (ofArguments_eq_some_iff _).1 ⟨_, hform.value⟩⟩

/-- Nothing is extracted exactly when no usable call stands in the body. -/
theorem extractWatchers_eq_nil_iff :
    (extractWatchers body).1 = [] ↔ ∀ start opened closed, ¬UsableAt body start opened closed := by
  rw [(extractWatchers_cuts body).1, List.map_eq_nil_iff, cuts_eq_nil_iff]

/-! ### What is left -/

/-- What an extraction leaves of a body: the characters outside the cuts, each with its position in the body. -/
def left (body : Text) : List (Char × Nat) :=
  body.zipIdx.filter fun place => ¬∃ cut ∈ cuts body, cut.start ≤ place.2 ∧ place.2 < cut.stop

/-- The residual is what is left, without the positions. -/
theorem residual_eq_left (body : Text) : (extractWatchers body).2.1 = (left body).map Prod.fst :=
  (extractWatchers_cuts body).2.after_eq

/-- A character is left when it stands in the body outside the cuts. -/
theorem mem_left_iff {place : Char × Nat} :
    place ∈ left body ↔
      body[place.2]? = some place.1 ∧ ∀ cut ∈ cuts body, cut.start ≤ place.2 → cut.stop ≤ place.2 := by
  rw [left, List.mem_filter, List.mk_mem_zipIdx_iff_getElem? (x := place.1) (i := place.2), decide_eq_true_eq]
  refine and_congr_right fun _ => ?_
  simp only [not_exists, not_and, Nat.not_lt]

/-- An extraction that leaves the body as it is extracts nothing. -/
theorem extractWatchers_fixed_iff : (extractWatchers body).1 = [] ↔ (extractWatchers body).2.1 = body := by
  rw [(extractWatchers_cuts body).1, List.map_eq_nil_iff]
  constructor
  · intro hnone
    rw [residual_eq_left, left, hnone]
    simp
  · intro hsame
    apply List.eq_nil_iff_forall_not_mem.2
    intro cut hcut
    obtain ⟨opened, closed, hform⟩ := callCut_of_mem_cuts hcut
    have hbounds := hform.bounds
    -- The first character of a cut would be missing.
    have hstart : cut.start < body.length := by omega
    have hlength : (left body).length = body.zipIdx.length := by
      rw [List.length_zipIdx, ← List.length_map Prod.fst, ← residual_eq_left, hsame]
    rw [left, List.length_filter_eq_length_iff] at hlength
    have hkept := hlength (body[cut.start], cut.start)
      ((List.mk_mem_zipIdx_iff_getElem?).2 (List.getElem?_eq_getElem hstart))
    exact of_decide_eq_true hkept ⟨cut, hcut, Nat.le_refl _, by omega⟩

/-- A usable call stands wherever its characters stand next to each other at the beginning of a line. -/
theorem UsableAt.transfer {other : Text} (h : UsableAt text start opened closed) {place : Nat}
    (hline : place = 0 ∨ other[place - 1]? = some '\n')
    (hslice : text.slice start (closed + 1) = other.slice place (place + (closed - start) + 1)) :
    UsableAt other place (place + (opened - start)) (place + (closed - start)) := by
  obtain ⟨source, rest, hdrop, hhead, hlength⟩ := h.call.head
  obtain ⟨hle, -⟩ := h.call.getElem_opened
  have hlt := h.closes.lt
  obtain ⟨rest', hrest'⟩ : source <+: other.drop place := by
    have hleading : source <+: text.slice start (closed + 1) := by
      rw [Text.slice, List.drop_take, hdrop]
      exact List.prefix_take_iff.2 ⟨List.prefix_append source rest, by omega⟩
    rw [hslice, Text.slice, List.drop_take] at hleading
    exact hleading.trans (List.take_prefix ..)
  -- Parentheses are matched in the slice as they are in the two texts.
  have hcloses : Delimiter.paren.Closes other (place + (opened - start)) (place + (closed - start)) := by
    have htext : Delimiter.paren.Closes text (start + (opened - start)) (start + (closed - start)) := by
      rw [Nat.add_sub_cancel' hle, Nat.add_sub_cancel' (hle.trans hlt.le)]
      exact h.closes
    have hwithin : start + (closed - start) < closed + 1 := by omega
    rw [← Delimiter.closes_slice_iff hwithin, hslice] at htext
    exact (Delimiter.closes_slice_iff (Nat.lt_succ_self _)).1 htext
  have harguments : text.slice (opened + 1) closed =
      other.slice (place + (opened - start) + 1) (place + (closed - start)) := by
    have hfirst : start + (opened - start + 1) = opened + 1 := by omega
    have hlast : start + (closed - start) = closed := by omega
    calc text.slice (opened + 1) closed
        = (text.slice start (closed + 1)).slice (opened - start + 1) (closed - start) := by
          rw [Text.slice_slice text (by omega), hfirst, hlast]
      _ = (other.slice place (place + (closed - start) + 1)).slice (opened - start + 1) (closed - start) := by
          rw [hslice]
      _ = other.slice (place + (opened - start) + 1) (place + (closed - start)) :=
          Text.slice_slice other (Nat.le_succ _)
  exact ⟨⟨hline, source, rest', hrest'.symm, hhead, by omega⟩, hcloses, harguments ▸ h.usable⟩

/-- Characters that are left stand in the residual in the order of their positions. -/
theorem pairwise_left (body : Text) : (left body).Pairwise fun first second => first.2 < second.2 := by
  have hpositions : body.zipIdx.Pairwise fun first second => first.2 < second.2 := by
    rw [← List.pairwise_map, List.zipIdx_map_snd]
    exact List.pairwise_lt_range'
  exact hpositions.filter _

/-- The character at a place between two positions. -/
theorem getElem?_places {text : Text} {start stop n : Nat} (h : start + n < stop) :
    (text.places start stop)[n]? = text[start + n]?.map fun c => (c, start + n) := by
  rw [Text.places, List.getElem?_zipIdx, Text.getElem?_slice h]

/-- Characters that are left and neighbours in the body are neighbours in the residual. -/
theorem exists_getElem?_left_pred {n position : Nat} {first : Char × Nat} (h : (left body)[n]? = some first)
    (hnext : first.2 = position + 1) {c : Char} (hmem : (c, position) ∈ left body) :
    ∃ m, n = m + 1 ∧ (left body)[m]? = some (c, position) := by
  obtain ⟨hn, rfl⟩ := List.getElem?_eq_some_iff.1 h
  obtain ⟨m, hm, hget⟩ := List.mem_iff_getElem.1 hmem
  have hsorted := List.pairwise_iff_getElem.1 (pairwise_left body)
  have hposition : (left body)[m].2 = position := by rw [hget]
  refine ⟨m, ?_, by rw [List.getElem?_eq_getElem hm, hget]⟩
  -- The positions grow, and there is none between the two.
  rcases Nat.lt_trichotomy n (m + 1) with hlt | heq | hgt
  · rcases Nat.lt_or_eq_of_le (Nat.le_of_lt_succ hlt) with hless | rfl
    · have hpair := hsorted n m hn hm hless
      omega
    · omega
  · exact heq
  · have hfirst := hsorted m (m + 1) hm (by omega) (Nat.lt_succ_self m)
    have hsecond := hsorted (m + 1) n (by omega) hn hgt
    omega

/-- Where nothing is cut out between two characters that are left, the residual has what stands there in the body. -/
theorem slice_residual {first last : Char × Nat} (hfirst : (left body)[start]? = some first)
    (hlast : (left body)[closed]? = some last) (horder : first.2 ≤ last.2)
    (hclear : ∀ index, first.2 ≤ index → index < last.2 + 1 →
      ¬∃ cut ∈ cuts body, cut.start ≤ index ∧ index < cut.stop) :
    closed = start + (last.2 - first.2) ∧
      (extractWatchers body).2.1.slice start (closed + 1) = body.slice first.2 (last.2 + 1) := by
  have hfirstChar := (mem_left_iff.1 (List.mem_of_getElem? hfirst)).1
  have hlastChar := (mem_left_iff.1 (List.mem_of_getElem? hlast)).1
  have hlt := (List.getElem?_eq_some_iff.1 hlastChar).1
  have hleft := Text.filter_zipIdx_eq _ (Nat.le_succ_of_le horder) hlt hclear
  rw [← left] at hleft
  generalize ((body.places 0 first.2).filter fun place =>
    ¬∃ cut ∈ cuts body, cut.start ≤ place.2 ∧ place.2 < cut.stop) = before at hleft
  generalize ((body.places (last.2 + 1) body.length).filter fun place =>
    ¬∃ cut ∈ cuts body, cut.start ≤ place.2 ∧ place.2 < cut.stop) = after at hleft
  have hplace : ∀ place : Char × Nat, first.2 ≤ place.2 → place.2 ≤ last.2 → body[place.2]? = some place.1 →
      (left body)[before.length + (place.2 - first.2)]? = some place := by
    intro place hfrom hto hchar
    have hsum : first.2 + (place.2 - first.2) = place.2 := Nat.add_sub_cancel' hfrom
    have hinside : (body.places first.2 (last.2 + 1))[place.2 - first.2]? = _ := getElem?_places (by omega)
    rw [hsum, hchar, Option.map_some] at hinside
    rw [hleft, List.getElem?_append_right (Nat.le_add_right ..), Nat.add_sub_cancel_left,
      List.getElem?_append_left (List.getElem?_eq_some_iff.1 hinside).1, hinside]
  -- No position is left twice, so that the two characters stand in the residual where they are found there.
  have hnodup : (left body).Nodup := (pairwise_left body).imp (by rintro place _ hless rfl; exact Nat.lt_irrefl _ hless)
  obtain rfl : start = before.length := by
    have hsame := hplace first (Nat.le_refl _) horder hfirstChar
    rw [Nat.sub_self, Nat.add_zero, ← hfirst] at hsame
    exact (List.getElem?_inj (List.getElem?_eq_some_iff.1 hfirst).1 hnodup).1 hsame.symm
  have hend : closed = before.length + (last.2 - first.2) := by
    have hsame := hplace last horder (Nat.le_refl _) hlastChar
    rw [← hlast] at hsame
    exact (List.getElem?_inj (List.getElem?_eq_some_iff.1 hlast).1 hnodup).1 hsame.symm
  refine ⟨hend, ?_⟩
  have hplaces : (body.places first.2 (last.2 + 1)).map Prod.fst = body.slice first.2 (last.2 + 1) :=
    List.zipIdx_map_fst ..
  have hdrop : (extractWatchers body).2.1.drop before.length =
      body.slice first.2 (last.2 + 1) ++ after.map Prod.fst := by
    rw [residual_eq_left, hleft, List.map_append, List.map_append, hplaces]
    exact List.drop_left' (List.length_map ..)
  have htaken := Text.slice_eq_of_drop hdrop
  rw [Text.length_slice hlt] at htaken
  have hlength : before.length + (last.2 + 1 - first.2) = closed + 1 := by omega
  rw [← hlength, htaken]

/-- A character that begins a line of the residual begins one in the body, unless a cut that does not take the end of
its line ends right before it. -/
theorem beginsLine_of_left {first : Char × Nat} (hfirst : (left body)[start]? = some first)
    (hline : start = 0 ∨ (extractWatchers body).2.1[start - 1]? = some '\n')
    (hends : ∀ cut ∈ cuts body, cut.stop = first.2 → body[cut.stop - 1]? = some '\n') :
    first.2 = 0 ∨ body[first.2 - 1]? = some '\n' := by
  obtain ⟨hchar, hleft⟩ := mem_left_iff.1 (List.mem_of_getElem? hfirst)
  have hlt := (List.getElem?_eq_some_iff.1 hchar).1
  by_contra! hinside
  obtain ⟨hpositive, hbreak⟩ := hinside
  have hbefore : first.2 - 1 < body.length := by omega
  -- The character before it is not cut out, or else the cut would end right before it.
  have hopen : ¬∃ cut ∈ cuts body, cut.start ≤ first.2 - 1 ∧ first.2 - 1 < cut.stop := by
    rintro ⟨cut, hcut, hfrom, hto⟩
    have hstop : cut.stop = first.2 := by
      have hend := hleft cut hcut (by omega)
      omega
    exact hbreak (hstop ▸ hends cut hcut hstop)
  have hmem : (body[first.2 - 1], first.2 - 1) ∈ left body := by
    rw [left, List.mem_filter, List.mk_mem_zipIdx_iff_getElem?, decide_eq_true_eq]
    exact ⟨List.getElem?_eq_getElem hbefore, hopen⟩
  obtain ⟨before, rfl, hpred⟩ := exists_getElem?_left_pred hfirst (by omega) hmem
  have hended := hline.resolve_left (Nat.succ_ne_zero before)
  rw [residual_eq_left, Nat.add_sub_cancel, List.getElem?_map, hpred, Option.map_some] at hended
  exact hbreak ((List.getElem?_eq_getElem hbefore).trans hended)

/-- A usable call in the residual was brought together by a cut: the cut ended right before it on its line, or was
taken out of its inside. -/
theorem exists_cut_of_usableAt (h : UsableAt (extractWatchers body).2.1 start opened closed) :
    ∃ first last, (left body)[start]? = some first ∧ (left body)[closed]? = some last ∧
      ∃ cut ∈ cuts body, (cut.stop = first.2 ∧ body[cut.stop - 1]? ≠ some '\n') ∨
        (first.2 < cut.start ∧ cut.stop ≤ last.2) := by
  obtain ⟨hopened, -⟩ := h.call.getElem_opened
  have hlt := h.closes.lt
  have hclosed := h.closes.lt_length
  rw [residual_eq_left, List.length_map] at hclosed
  obtain ⟨first, hfirst⟩ : ∃ first, (left body)[start]? = some first := ⟨_, List.getElem?_eq_getElem (by omega)⟩
  obtain ⟨last, hlast⟩ : ∃ last, (left body)[closed]? = some last := ⟨_, List.getElem?_eq_getElem hclosed⟩
  have hfirstLeft := (mem_left_iff.1 (List.mem_of_getElem? hfirst)).2
  have hlastLeft := (mem_left_iff.1 (List.mem_of_getElem? hlast)).2
  have horder : first.2 < last.2 := by
    have hpairs := List.pairwise_iff_getElem.1 (pairwise_left body) start closed (by omega) hclosed (by omega)
    rwa [(List.getElem?_eq_some_iff.1 hfirst).2, (List.getElem?_eq_some_iff.1 hlast).2] at hpairs
  refine ⟨first, last, hfirst, hlast, ?_⟩
  by_contra! hnone
  -- Otherwise the call would stand in the body as it stands in the residual, and so be cut out.
  have hclear : ∀ index, first.2 ≤ index → index < last.2 + 1 →
      ¬∃ cut ∈ cuts body, cut.start ≤ index ∧ index < cut.stop := by
    rintro index hfrom hto ⟨cut, hcut, hstart, hstop⟩
    have hbefore := hfirstLeft cut hcut
    have hbehind := hlastLeft cut hcut
    have hinside := (hnone cut hcut).2
    omega
  obtain ⟨hlength, hslice⟩ := slice_residual hfirst hlast horder.le hclear
  have hlimit : last.2 + 1 = first.2 + (closed - start) + 1 := by omega
  rw [hlimit] at hslice
  have hline := beginsLine_of_left hfirst h.call.lineStart fun cut hcut => (hnone cut hcut).1
  obtain ⟨cut, hcut, hfrom, hto⟩ := (h.transfer hline hslice).exists_cut
  exact absurd (hfirstLeft cut hcut hfrom) (Nat.not_le.2 hto)

end Watcher

open Watcher in
/-- A second extraction, from what the first has left, finds nothing exactly when no usable call stands there, and
exactly when it leaves the text as it is. A usable call that stands there was brought together by the first extraction:
a cut that does not take the end of its line ended right before the call, which therefore did not begin a line in the
body, or a cut was taken out of the inside of the call. -/
theorem second_extraction (body : Text) :
    let residual := (extractWatchers body).2.1
    residual = (left body).map Prod.fst ∧
      ((extractWatchers residual).1 = [] ↔ ∀ start opened closed, ¬UsableAt residual start opened closed) ∧
      ((extractWatchers residual).1 = [] ↔ (extractWatchers residual).2.1 = residual) ∧
      ∀ start opened closed, UsableAt residual start opened closed →
        ∃ first last, (left body)[start]? = some first ∧ (left body)[closed]? = some last ∧
          ∃ cut ∈ cuts body, (cut.stop = first.2 ∧ body[cut.stop - 1]? ≠ some '\n') ∨
            (first.2 < cut.start ∧ cut.stop ≤ last.2) := by
  intro residual
  refine ⟨residual_eq_left body, extractWatchers_eq_nil_iff, extractWatchers_fixed_iff, ?_⟩
  exact fun start opened closed husable => exists_cut_of_usableAt husable

/-- The second of two calls on a line is left, to be found when the first one is gone. As it is, it becomes a call of
a method that no controller has. -/
theorem second_call_on_line_left :
    let body := txt "$scope.$watch('a', f); $scope.$watch('b', g);"
    let residual := (extractWatchers body).2.1
    (extractWatchers body).1.map (·.target) = [txt "ctrl.a"] ∧ residual = txt "$scope.$watch('b', g);" ∧
      (extractWatchers residual).1.map (·.target) = [txt "ctrl.b"] ∧ (extractWatchers residual).2.1 = [] ∧
      Renaming.scopeToController.apply residual = txt "ctrl.$watch('b', g);" := by
  intro body residual
  have hresidual : residual = txt "$scope.$watch('b', g);" := by decide +kernel
  have hnames : ∀ name ∈ [txt "$scope", txt "scope"], IsName name := by decide
  rw [hresidual]
  refine ⟨by decide +kernel, rfl, by decide +kernel, by decide +kernel, ?_⟩
  exact (Renaming.apply_eq_rename hnames (txt "ctrl") _).trans (by decide)

end AngularUplift
