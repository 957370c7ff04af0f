import AngularUplift.Text.Class
import Mathlib.Data.List.SplitBy

/-!
# Names in a text

A text falls into names, each as long as it can be, and the single characters between them. The pieces put together
again are the text, and a text that is put together from such pieces falls into them again, as long as no two names
stand next to each other. So a change of a text that exchanges names for names can be followed token by token.

## Main definitions

* `IsName`: a text that is one name.
* `Text.tokens`: the names of a text and the characters between them.
* `Text.Cut`: pieces that are the tokens of a text.

## Main statements

* `Text.tokens_flatten`, `Text.cut_tokens`: the tokens of a text are the one way of cutting it.
-/

namespace AngularUplift

/-- One or more characters of an identifier, and no others. -/
def IsName (text : Text) : Prop := text ≠ [] ∧ ∀ c ∈ text, isName c

/-- Whether a text is a name is decidable. -/
instance (text : Text) : Decidable (IsName text) :=
  decidable_of_iff (text ≠ [] ∧ text.all isName) (and_congr_right' List.all_eq_true)

/-- A name that a text begins with and that goes no further is the only one. -/
theorem IsName.append_inj {name other rest middle : Text} (hname : IsName name) (hother : IsName other)
    (hrest : ∀ c ∈ rest.head?, isName c = false) (hmiddle : ∀ c ∈ middle.head?, isName c = false)
    (h : name ++ rest = other ++ middle) : name = other ∧ rest = middle := by
  -- The longer of the two would have a character of a name where the shorter one ends.
  obtain ⟨more, rfl, rfl⟩ | ⟨more, rfl, rfl⟩ := List.append_eq_append_iff.1 h
  · cases more with
    | nil => simp
    | cons c more =>
      have hc := hother.2 c (by simp)
      rw [hrest c rfl] at hc
      exact absurd hc (by decide)
  · cases more with
    | nil => simp
    | cons c more =>
      have hc := hname.2 c (by simp)
      rw [hmiddle c rfl] at hc
      exact absurd hc (by decide)

/-- Right after a name stands its last character. -/
theorem IsName.head_reverse_append {name : Text} (h : IsName name) (before : Text) :
    ∃ last, isName last ∧ (name.reverse ++ before).head? = some last := by
  have hlast := List.getLast?_eq_getLast_of_ne_nil h.1
  refine ⟨name.getLast h.1, h.2 _ (List.getLast_mem h.1), ?_⟩
  rw [List.head?_append, List.head?_reverse, hlast, Option.some_or]

namespace Text

/-- The text cut into its names, each as long as it can be, and the single characters between them. -/
def tokens (text : Text) : List Text := text.splitBy fun c d => isName c && isName d

/-- Pieces that are names and single other characters, with no name right after another one; `afterName` says
whether a name stands before the pieces. -/
def Cut : (afterName : Bool) → List Text → Prop
  | _, [] => True
  | afterName, token :: rest =>
    (∃ c, token = [c] ∧ isName c = false ∧ Cut false rest) ∨
      (afterName = false ∧ IsName token ∧ Cut true rest)

/-- What follows a name does not begin with a character of a name. -/
theorem Cut.isName_head {pieces : List Text} (h : Cut true pieces) :
    ∀ c ∈ pieces.flatten.head?, isName c = false := by
  cases pieces with
  | nil => simp
  | cons token rest =>
    obtain ⟨c, rfl, hc, -⟩ | ⟨hafter, -⟩ := h
    · intro d hd
      obtain rfl : c = d := Option.some.inj hd
      exact hc
    · exact absurd hafter (by decide)

/-- A first token is cut off where the next character does not continue it. -/
theorem tokens_append {token rest : Text} (hne : token ≠ [])
    (hchain : token.IsChain fun c d => (isName c && isName d) = true)
    (hedge : ∀ c ∈ token.getLast?, ∀ d ∈ rest.head?, (isName c && isName d) = false) :
    tokens (token ++ rest) = token :: tokens rest := by
  rw [tokens, List.splitBy_append hedge, List.splitBy_of_isChain hne hchain]
  rfl

/-- The pieces of a text that was cut are its tokens. -/
theorem tokens_flatten {afterName : Bool} {pieces : List Text} (h : Cut afterName pieces) :
    tokens pieces.flatten = pieces := by
  induction pieces generalizing afterName with
  | nil => rfl
  | cons token rest ih =>
    rw [List.flatten_cons]
    obtain ⟨c, rfl, hc, hrest⟩ | ⟨-, ⟨hne, hname⟩, hrest⟩ := h
    · -- A character that belongs to no name is joined with nothing.
      rw [tokens_append (List.cons_ne_nil c []) (List.isChain_singleton c), ih hrest]
      intro d hd _ _
      obtain rfl : c = d := Option.some.inj hd
      rw [hc, Bool.false_and]
    · have hchain : token.IsChain fun c d => (isName c && isName d) = true := by
        rw [List.isChain_iff_getElem]
        intro index hindex
        rw [hname _ (List.getElem_mem _), hname _ (List.getElem_mem _), Bool.and_self]
      rw [tokens_append hne hchain, ih hrest]
      intro _ _ d hd
      rw [hrest.isName_head d hd, Bool.and_false]

/-- Every text can be cut. -/
theorem exists_cut (text : Text) : ∃ pieces, Cut false pieces ∧ pieces.flatten = text := by
  induction text with
  | nil => exact ⟨[], trivial, rfl⟩
  | cons c text ih =>
    obtain ⟨pieces, hcut, rfl⟩ := ih
    by_cases hc : isName c
    · have hsingle : IsName [c] := ⟨List.cons_ne_nil c [], by simpa using hc⟩
      -- The character joins the name after it, if there is one.
      cases pieces with
      | nil => exact ⟨[[c]], Or.inr ⟨rfl, hsingle, trivial⟩, rfl⟩
      | cons token rest =>
        obtain hother | ⟨-, ⟨hne, hname⟩, hrest⟩ := hcut
        · exact ⟨[c] :: token :: rest, Or.inr ⟨rfl, hsingle, Or.inl hother⟩, rfl⟩
        · refine ⟨(c :: token) :: rest, Or.inr ⟨rfl, ⟨List.cons_ne_nil c token, ?_⟩, hrest⟩, rfl⟩
          exact List.forall_mem_cons.2 ⟨hc, hname⟩
    · exact ⟨[c] :: pieces, Or.inl ⟨c, rfl, by simpa using hc, hcut⟩, rfl⟩

/-- The tokens of a text are one way of cutting it, and by `tokens_flatten` the only one. -/
theorem cut_tokens (text : Text) : Cut false text.tokens ∧ text.tokens.flatten = text := by
  obtain ⟨pieces, hcut, rfl⟩ := exists_cut text
  rw [tokens_flatten hcut]
  exact ⟨hcut, rfl⟩

end Text

end AngularUplift
