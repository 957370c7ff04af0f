import AngularUplift.Receiver
import AngularUplift.Proofs.Text.Occurrence
import AngularUplift.Proofs.Text.Token

/-!
# Renaming receivers token by token

A renaming looks for the old names at every position of a text, longer names first. What it does can be said without
a search: the text falls into tokens, and each token that is an old name and does not stand right after a dot is
exchanged for the new name. All that is to be known of a renaming follows from this map of tokens, since the new name
is itself a token and joins no other one.

## Main definitions

* `Renaming.renameTokens`, `Renaming.rename`: the tokens of a text with the names exchanged, and the text of these.

## Main statements

* `Renaming.make_eq`: names without a backslash make a renaming.
* `Renaming.apply_eq_rename`: a renaming exchanges tokens.
* `Renaming.tokens_rename`: the tokens of a renamed text.
* `Renaming.rename_rename`: one renaming after another is the renaming of both lists of names.
* `Renaming.apply_token_map`: all of this about the renaming that names make.
-/

namespace AngularUplift

/-! ### New names without escapes -/

namespace Replacement

/-- A text without backslashes has its characters as units. -/
theorem units_eq_map {text : Text} (h : '\\' ∉ text) : units text = text.map fun c => [c] := by
  induction text with
  | nil => rfl
  | cons c text ih =>
    rw [List.mem_cons, not_or] at h
    rw [units, ih h.2, List.map_cons]
    exact fun d rest heq => absurd heq.symm h.1

/-- Characters other than backslashes do not end with one. -/
theorem checkEnd_plain {text : Text} (h : '\\' ∉ text) (source : Text) :
    checkEnd source (text.map fun c => [c]) = .ok ((), text.map fun c => [c]) := by
  have hne : (text.map fun c => [c]) ≠ [['\\']] := by
    intro heq
    obtain ⟨c, rfl, hc⟩ := List.map_eq_singleton_iff.1 heq
    obtain rfl : c = '\\' := by simpa using hc
    exact h List.mem_cons_self
  show (if (text.map fun c => [c]) = [['\\']] then throw _ else pure () : UnitReader Unit) _ = _
  rw [if_neg hne]
  rfl

/-- Characters other than backslashes stand for themselves. -/
theorem parts_plain {text : Text} (h : '\\' ∉ text) (source : Text) {fuel : Nat} (hfuel : text.length < fuel) :
    parts source fuel (text.map fun c => [c]) = .ok (fixed text, []) := by
  induction text generalizing fuel with
  | nil =>
    obtain ⟨fuel, rfl⟩ : ∃ less, fuel = less + 1 := ⟨fuel - 1, by simp at hfuel; omega⟩
    rfl
  | cons c text ih =>
    obtain ⟨fuel, rfl⟩ : ∃ less, fuel = less + 1 := ⟨fuel - 1, by simp at hfuel; omega⟩
    rw [List.mem_cons, not_or] at h
    have hrest := ih h.2 (Nat.lt_of_succ_lt_succ hfuel)
    have htake : take? source ((c :: text).map fun c => [c]) = .ok (some [c], text.map fun c => [c]) := by
      show (checkEnd source (text.map fun c => [c])).bind (fun ran => .ok (some [c], ran.2)) = _
      rw [checkEnd_plain h.2]
      rfl
    show (take? source ((c :: text).map fun c => [c])).bind _ = _
    rw [htake]
    -- A unit of one character is no escape, so it stands for itself.
    simp only [Except.bind]
    show (parts source fuel (text.map fun c => [c])).bind (fun ran => .ok (fixed [c] ++ ran.1, ran.2)) = _
    rw [hrest]
    rfl

/-- A text without backslashes denotes the replacement by itself. -/
theorem parse_eq_fixed {text : Text} (h : '\\' ∉ text) : parse text = .ok (fixed text) := by
  have hparts := parts_plain h text (Nat.lt_succ_self text.length)
  show (((checkEnd text (units text)).bind fun ran => parts text (text.length + 1) ran.2).map (·.1)) = _
  rw [units_eq_map h, checkEnd_plain h]
  show (parts text (text.length + 1) (text.map fun c => [c])).map (·.1) = _
  rw [hparts]
  rfl

end Replacement

namespace Renaming

/-- The names of a list, and one that is not among them, make a renaming. -/
theorem make_eq {aliases : List Text} {target : Text} (hne : aliases ≠ []) (htarget : IsName target)
    (hout : target ∉ aliases) : make aliases target = .ok (into target aliases) := by
  have hslash : '\\' ∉ target := fun hmem => absurd (htarget.2 _ hmem) (by decide)
  have hempty : aliases.isEmpty = false := by simpa using hne
  have helem : aliases.elem target = false := by simpa using hout
  simp only [make, hempty, helem, Replacement.parse_eq_fixed hslash, Bool.false_eq_true, if_false]
  rfl

/-! ### Exchanging tokens -/

/-- The tokens with the old names exchanged, except right after a dot. -/
def renameTokens (aliases : List Text) (target : Text) : (afterDot : Bool) → List Text → List Text
  | _, [] => []
  | afterDot, token :: rest =>
    (if aliases.contains token && !afterDot then target else token) ::
      renameTokens aliases target (token == ['.']) rest

/-- The text with every token that is an old name and does not stand right after a dot exchanged for the new one. -/
def rename (aliases : List Text) (target code : Text) : Text :=
  (renameTokens aliases target false code.tokens).flatten

variable {aliases others : List Text} {target : Text}

/-- The first token is exchanged when it is an old name and does not stand after a dot. -/
theorem renameTokens_cons (aliases : List Text) (target : Text) (afterDot : Bool) (token : Text) (rest : List Text) :
    renameTokens aliases target afterDot (token :: rest) =
      (if token ∈ aliases ∧ afterDot = false then target else token) ::
        renameTokens aliases target (token == ['.']) rest := by
  simp only [renameTokens, Bool.and_eq_true, List.contains_iff_mem, Bool.not_eq_true']

/-- A character that belongs to no name is none of the names. -/
theorem singleton_notMem (h : ∀ name ∈ aliases, IsName name) {c : Char} (hc : isName c = false) :
    [c] ∉ aliases := by
  intro hmem
  rw [(h _ hmem).2 c List.mem_cons_self] at hc
  exact absurd hc (by decide)

/-- Only which names are in the list counts. -/
theorem renameTokens_congr (h : ∀ name, name ∈ aliases ↔ name ∈ others) (afterDot : Bool) (pieces : List Text) :
    renameTokens aliases target afterDot pieces = renameTokens others target afterDot pieces := by
  induction pieces generalizing afterDot with
  | nil => rfl
  | cons token rest ih => simp only [renameTokens_cons, h, ih]

/-- An exchanged token is a dot exactly when the token was one. -/
theorem exchanged_eq_dot (haliases : ∀ name ∈ aliases, IsName name) (htarget : IsName target) (afterDot : Bool)
    (token : Text) :
    ((if token ∈ aliases ∧ afterDot = false then target else token) == ['.']) = (token == ['.']) := by
  split
  · next hmem =>
    have htoken : token ≠ ['.'] := fun heq => singleton_notMem haliases (by decide) (heq ▸ hmem.1)
    have hnew : target ≠ ['.'] := by
      rintro rfl
      exact absurd (htarget.2 '.' List.mem_cons_self) (by decide)
    rw [beq_eq_false_iff_ne.2 htoken, beq_eq_false_iff_ne.2 hnew]
  · rfl

/-- Exchanging the names of one list and then those of another is exchanging the names of both. -/
theorem renameTokens_renameTokens (haliases : ∀ name ∈ aliases, IsName name) (htarget : IsName target)
    (hout : target ∉ others) (afterDot : Bool) (pieces : List Text) :
    renameTokens others target afterDot (renameTokens aliases target afterDot pieces) =
      renameTokens (aliases ++ others) target afterDot pieces := by
  -- The first pass makes no dots and removes none, so both passes keep the same tokens for standing after one.
  induction pieces generalizing afterDot with
  | nil => rfl
  | cons token rest ih =>
    simp only [renameTokens_cons, exchanged_eq_dot haliases htarget, ih, List.mem_append, List.cons.injEq, and_true]
    by_cases hdot : afterDot = false
    · by_cases hold : token ∈ aliases
      · simp [hdot, hold, hout]
      · simp [hdot, hold]
    · simp [hdot]

/-- Exchanging names for a name leaves pieces that are the tokens of a text. -/
theorem cut_renameTokens (haliases : ∀ name ∈ aliases, IsName name) (htarget : IsName target)
    {afterName : Bool} {pieces : List Text} (h : Text.Cut afterName pieces) (afterDot : Bool) :
    Text.Cut afterName (renameTokens aliases target afterDot pieces) := by
  induction pieces generalizing afterName afterDot with
  | nil => exact trivial
  | cons token rest ih =>
    rw [renameTokens_cons]
    obtain ⟨c, rfl, hc, hrest⟩ | ⟨hafter, htoken, hrest⟩ := h
    · rw [if_neg fun hboth => singleton_notMem haliases hc hboth.1]
      exact Or.inl ⟨c, rfl, hc, ih hrest _⟩
    · refine Or.inr ⟨hafter, ?_, ih hrest _⟩
      split
      · exact htarget
      · exact htoken

/-- The tokens of a renamed text are the tokens of the text with the names exchanged. -/
theorem tokens_rename (haliases : ∀ name ∈ aliases, IsName name) (htarget : IsName target) (code : Text) :
    (rename aliases target code).tokens = renameTokens aliases target false code.tokens :=
  Text.tokens_flatten (cut_renameTokens haliases htarget (Text.cut_tokens code).1 false)

/-- Renaming by one list and then by another is renaming by both. -/
theorem rename_rename (haliases : ∀ name ∈ aliases, IsName name) (htarget : IsName target)
    (hout : target ∉ others) (code : Text) :
    rename others target (rename aliases target code) = rename (aliases ++ others) target code := by
  rw [rename, tokens_rename haliases htarget, renameTokens_renameTokens haliases htarget hout, rename]

/-- Only which names are in the list counts. -/
theorem rename_congr (h : ∀ name, name ∈ aliases ↔ name ∈ others) (target code : Text) :
    rename aliases target code = rename others target code := by
  rw [rename, rename, renameTokens_congr h]

/-- An old name that is left stands right after a dot. -/
theorem getLast_of_renameTokens (haliases : ∀ name ∈ aliases, IsName name) (hout : target ∉ aliases)
    {afterDot : Bool} {pieces before after : List Text} {token : Text}
    (h : renameTokens aliases target afterDot pieces = before ++ token :: after) (hmem : token ∈ aliases) :
    before = [] ∧ afterDot = true ∨ before.getLast? = some ['.'] := by
  induction pieces generalizing afterDot before with
  | nil => exact absurd h (by simp [renameTokens])
  | cons first rest ih =>
    rw [renameTokens_cons] at h
    cases before with
    | nil =>
      rw [List.nil_append, List.cons.injEq] at h
      obtain ⟨hfirst, -⟩ := h
      split at hfirst
      · -- An exchanged token is the new name, which is none of the old ones.
        exact absurd (hfirst ▸ hmem) hout
      · next hnot =>
        rw [← hfirst] at hmem
        exact Or.inl ⟨rfl, by simpa [hmem] using hnot⟩
    | cons shown before =>
      rw [List.cons_append, List.cons.injEq] at h
      obtain ⟨hfirst, hrest⟩ := h
      refine Or.inr ?_
      obtain ⟨rfl, hdot⟩ | hlast := ih hrest
      · -- The name is the second token, so the first one is the dot.
        obtain rfl : first = ['.'] := by simpa using hdot
        rw [← hfirst, if_neg fun hboth => singleton_notMem haliases (by decide) hboth.1]
        rfl
      · rw [List.getLast?_cons, hlast]
        rfl

/-! ### The search for names -/

/-- What is read is one of the old names, as a whole. -/
theorem read_occurrence {text rest : Text} {value : Unit}
    (h : (into target aliases).occurrence.read text = some (value, rest)) :
    ∃ name ∈ aliases, text = name ++ rest ∧ ∀ c ∈ rest.head?, isName c = false := by
  obtain ⟨r, hr, hread⟩ := Reader.firstOf_eq_some h
  obtain ⟨name, hname, rfl⟩ := List.mem_map.1 hr
  obtain ⟨_, middle, hexactly, hnext⟩ := Reader.bind_eq_some_iff.1 hread
  obtain ⟨rfl, hrest⟩ := Reader.notNext_eq_some hnext
  exact ⟨name, List.mem_mergeSort.1 hname, Reader.exactly_eq_some_iff.1 hexactly, fun c hc => by simpa using hrest c hc⟩

/-- No name is read where no character of a name comes next. -/
theorem read_occurrence_other (haliases : ∀ name ∈ aliases, IsName name) {text : Text}
    (h : ∀ c ∈ text.head?, isName c = false) : (into target aliases).occurrence.read text = none := by
  rw [Option.eq_none_iff_forall_ne_some]
  rintro ⟨value, rest⟩ hread
  obtain ⟨name, hname, rfl, -⟩ := read_occurrence hread
  obtain ⟨hne, hchars⟩ := haliases name hname
  obtain ⟨c, tail, rfl⟩ := List.exists_cons_of_ne_nil hne
  have hc := hchars c List.mem_cons_self
  rw [h c rfl] at hc
  exact absurd hc (by decide)

/-- A name is read as a whole, and only when it is one of the old names. -/
theorem read_occurrence_name (haliases : ∀ name ∈ aliases, IsName name) {token rest : Text} (htoken : IsName token)
    (hrest : ∀ c ∈ rest.head?, isName c = false) :
    (into target aliases).occurrence.read (token ++ rest) = if token ∈ aliases then some ((), rest) else none := by
  -- Whichever of the old names is read, it is the token.
  have hfound : ∀ value left, (into target aliases).occurrence.read (token ++ rest) = some (value, left) →
      token ∈ aliases ∧ left = rest := by
    intro value left hread
    obtain ⟨name, hname, htext, hleft⟩ := read_occurrence hread
    obtain ⟨rfl, rfl⟩ := htoken.append_inj (haliases name hname) hrest hleft htext
    exact ⟨hname, rfl⟩
  split
  · next hmem =>
    have hreader : (do Reader.exactly token; Reader.notNext isName : Reader Unit) (token ++ rest) =
        some ((), rest) := by
      refine Reader.bind_eq_some_iff.2 ⟨(), rest, Reader.exactly_eq_some_iff.2 rfl, ?_⟩
      cases rest with
      | nil => rfl
      | cons c rest => simp [Reader.notNext, hrest c rfl]
    have hsome : ((into target aliases).occurrence.read (token ++ rest)).isSome :=
      Reader.isSome_firstOf (List.mem_map.2 ⟨token, List.mem_mergeSort.2 hmem, rfl⟩)
        (by rw [hreader]; rfl)
    obtain ⟨⟨value, left⟩, hread⟩ := Option.isSome_iff_exists.1 hsome
    rw [hread, (hfound value left hread).2]
  · next hnot =>
    rw [Option.eq_none_iff_forall_ne_some]
    exact fun found hread => hnot (hfound found.1 found.2 hread).1

/-- Inside a name and right after a dot no occurrence begins. -/
theorem at?_occurrence_member {before : Text} (h : before.head?.any isMemberContext) (after : Text) :
    (into target aliases).occurrence.at? before after = none :=
  if_neg (by simp [occurrence, freeName, notAfter, h])

/-- An occurrence that begins with a name is the whole name, when it is one of the old ones. -/
theorem at?_occurrence_name (haliases : ∀ name ∈ aliases, IsName name) {before token rest : Text}
    (hbefore : before.head?.any isMemberContext = false) (htoken : IsName token)
    (hrest : ∀ c ∈ rest.head?, isName c = false) :
    (into target aliases).occurrence.at? before (token ++ rest) =
      if token ∈ aliases then some (token.length, ()) else none := by
  have hleft : (into target aliases).occurrence.left before (token ++ rest) = true := by
    simp [occurrence, freeName, notAfter, hbefore]
  rw [Pattern.at?, if_pos hleft, read_occurrence_name haliases htoken hrest]
  split
  · simp
  · rfl

/-- After the first character of a name no occurrence begins in it. -/
theorem absent_name {before token after : Text} (hbefore : before.head?.any isMemberContext)
    (htoken : ∀ c ∈ token, isName c) : (into target aliases).occurrence.Absent after before token := by
  induction token generalizing before with
  | nil => exact trivial
  | cons c token ih =>
    obtain ⟨hc, htail⟩ := List.forall_mem_cons.1 htoken
    exact ⟨at?_occurrence_member hbefore _, ih (by simp [isMemberContext, hc]) htail⟩

/-- No occurrence begins in a name that is not one of the old ones or stands right after a dot. -/
theorem absent_token (haliases : ∀ name ∈ aliases, IsName name) {before token rest : Text} (htoken : IsName token)
    (hrest : ∀ c ∈ rest.head?, isName c = false)
    (h : token ∉ aliases ∨ before.head?.any isMemberContext = true) :
    (into target aliases).occurrence.Absent rest before token := by
  by_cases hmember : before.head?.any isMemberContext = true
  · exact absent_name hmember htoken.2
  · have hat : (into target aliases).occurrence.at? before (token ++ rest) = none := by
      rw [at?_occurrence_name haliases (by simpa using hmember) htoken hrest, if_neg (h.resolve_right hmember)]
    obtain ⟨c, tail, rfl⟩ := List.exists_cons_of_ne_nil htoken.1
    obtain ⟨hc, htail⟩ := List.forall_mem_cons.1 htoken.2
    exact ⟨hat, absent_name (by simp [isMemberContext, hc]) htail⟩

/-- When no name stands before a place, only a dot keeps a name there from being exchanged. -/
theorem any_isMemberContext {before : Text} (h : before.head?.any isName = false) :
    before.head?.any isMemberContext = before.head?.any (· == '.') := by
  cases hfirst : before.head? with
  | none => rfl
  | some c =>
    have hc : isName c = false := by simpa [hfirst] using h
    simp [isMemberContext, hc]

/-- The pieces that the search leaves, with the names exchanged, are the tokens with the names exchanged. -/
theorem flatMap_exchange_piecesFrom (haliases : ∀ name ∈ aliases, IsName name) {afterName : Bool}
    {pieces : List Text} (hcut : Text.Cut afterName pieces) {before : Text}
    (hbefore : before.head?.any isName = afterName) :
    ((into target aliases).occurrence.piecesFrom before 0 pieces.flatten).flatMap
        (Pattern.exchange fun _ _ => target) =
      (renameTokens aliases target (before.head?.any (· == '.')) pieces).flatten := by
  -- The induction is over the tokens; what stands before them decides whether the first one may be exchanged.
  have hplain : ∀ text : Text,
      (text.map Piece.plain).flatMap (Pattern.exchange fun _ (_ : Unit) => target) = text := by
    intro text
    rw [List.flatMap_map]
    exact List.flatMap_singleton' text
  induction pieces generalizing afterName before with
  | nil =>
    have hnone : (into target aliases).occurrence.at? before [] = none := by
      rw [Pattern.at?, read_occurrence_other haliases (by simp)]
      simp
    simp [Pattern.piecesFrom, hnone, renameTokens]
  | cons token rest ih =>
    rw [List.flatten_cons, renameTokens_cons, List.flatten_cons]
    obtain ⟨c, rfl, hc, hrest⟩ | ⟨rfl, htoken, hrest⟩ := hcut
    · -- A character that belongs to no name is passed over.
      have habsent : (into target aliases).occurrence.Absent rest.flatten before [c] := by
        refine ⟨?_, trivial⟩
        rw [Pattern.at?, read_occurrence_other haliases (by simpa using hc)]
        simp
      have hflag : ([c].reverse ++ before).head?.any (· == '.') = ([c] == ['.']) := by simp
      rw [Pattern.piecesFrom_append habsent, List.flatMap_append, hplain,
        if_neg fun hboth => singleton_notMem haliases hc hboth.1, ih hrest (by simpa using hc), hflag]
    · -- What stands before the rest is then the last character of a name, and no dot.
      obtain ⟨last, hname, hhead⟩ := htoken.head_reverse_append before
      have hnext : (token.reverse ++ before).head?.any isName = true := by
        rw [hhead]
        exact hname
      have hflag : (token.reverse ++ before).head?.any (· == '.') = (token == ['.']) := by
        have hdot : token ≠ ['.'] := fun heq => absurd (htoken.2 '.' (by simp [heq])) (by decide)
        have hlastDot : last ≠ '.' := fun heq => absurd (heq ▸ hname) (by decide)
        rw [hhead, beq_eq_false_iff_ne.2 hdot]
        exact beq_eq_false_iff_ne.2 hlastDot
      have hafter := ih hrest hnext
      rw [hflag] at hafter
      have hcontext := any_isMemberContext hbefore
      by_cases hold : token ∈ aliases ∧ before.head?.any (· == '.') = false
      · have hat : (into target aliases).occurrence.at? before (token ++ rest.flatten) = some (token.length, ()) := by
          rw [at?_occurrence_name haliases (hcontext.trans hold.2) htoken hrest.isName_head, if_pos hold.1]
        rw [Pattern.piecesFrom_found htoken.1 hat, List.flatMap_cons, if_pos hold, hafter]
        rfl
      · have hkept : token ∉ aliases ∨ before.head?.any isMemberContext = true := by
          rw [hcontext]
          by_cases hmem : token ∈ aliases
          · exact Or.inr (by simpa [hmem] using hold)
          · exact Or.inl hmem
        rw [Pattern.piecesFrom_append (absent_token haliases htoken hrest.isName_head hkept), List.flatMap_append,
          hplain, if_neg hold, hafter]

/-- A renaming exchanges the tokens that are old names and do not stand right after a dot. -/
theorem apply_eq_rename (haliases : ∀ name ∈ aliases, IsName name) (target code : Text) :
    (into target aliases).apply code = rename aliases target code := by
  obtain ⟨hcut, hcode⟩ := Text.cut_tokens code
  have hpieces : ((into target aliases).occurrence.piecesFrom [] 0 code.tokens.flatten).flatMap
      (Pattern.exchange fun _ _ => target) = (renameTokens aliases target false code.tokens).flatten :=
    flatMap_exchange_piecesFrom haliases hcut rfl
  rw [hcode] at hpieces
  simp only [apply, into, Replacement.expand_fixed]
  exact hpieces

/-! ### Renamings that names make -/

/-- Names of which none is the new name make a renaming. It cuts a text into names, each as long as it can be, and
single other characters, and exchanges exactly the names that are in the list and do not stand right after a dot.
Renaming again changes nothing, the order of the names and their repetition do not count, an old name that is left
stands right after a dot, and renaming by a second list is renaming by both lists at once. -/
theorem apply_token_map (hne : aliases ≠ []) (haliases : ∀ name ∈ aliases, IsName name) (htarget : IsName target)
    (hout : target ∉ aliases) :
    ∃ r, make aliases target = .ok r ∧
      (∀ code, r.apply code = (renameTokens aliases target false code.tokens).flatten) ∧
      (∀ code, r.apply (r.apply code) = r.apply code) ∧
      (∀ others, (∀ name, name ∈ others ↔ name ∈ aliases) →
        ∃ s, make others target = .ok s ∧ ∀ code, s.apply code = r.apply code) ∧
      (∀ code before token after, (r.apply code).tokens = before ++ token :: after → token ∈ aliases →
        before.getLast? = some ['.']) ∧
      ∀ others, others ≠ [] → (∀ name ∈ others, IsName name) → target ∉ others →
        ∃ s both, make others target = .ok s ∧ make (aliases ++ others) target = .ok both ∧
          ∀ code, s.apply (r.apply code) = both.apply code := by
  have happly := apply_eq_rename haliases target
  refine ⟨into target aliases, make_eq hne htarget hout, happly, ?_, ?_, ?_, ?_⟩
  · -- Renaming twice is renaming by the list twice over, which holds the same names.
    intro code
    rw [happly, happly, rename_rename haliases htarget hout]
    exact rename_congr (by simp) target code
  · intro others hsame
    have hnames : ∀ name ∈ others, IsName name := fun name hname => haliases name ((hsame name).1 hname)
    have hothers : others ≠ [] := by
      rintro rfl
      obtain ⟨name, hname⟩ := List.exists_mem_of_ne_nil aliases hne
      exact absurd ((hsame name).2 hname) List.not_mem_nil
    refine ⟨into target others, make_eq hothers htarget (fun hmem => hout ((hsame target).1 hmem)), fun code => ?_⟩
    rw [apply_eq_rename hnames, happly]
    exact rename_congr hsame target code
  · intro code before token after hsplit hmem
    rw [happly, tokens_rename haliases htarget] at hsplit
    obtain ⟨-, hdot⟩ | hlast := getLast_of_renameTokens haliases hout hsplit hmem
    · exact absurd hdot (by decide)
    · exact hlast
  · intro others hothers hnames hnot
    have hboth : ∀ name ∈ aliases ++ others, IsName name := List.forall_mem_append.2 ⟨haliases, hnames⟩
    refine ⟨into target others, into target (aliases ++ others), make_eq hothers htarget hnot,
      make_eq (by simp [hne]) htarget (by simp [hout, hnot]), fun code => ?_⟩
    rw [apply_eq_rename hnames, happly, apply_eq_rename hboth, rename_rename haliases htarget hnot]

/-- Names of which one begins another and one begins with a dollar sign: members and longer names stay. -/
theorem apply_token_map_scope :
    let aliases := [txt "scope", txt "$scope", txt "scop"]
    (∀ name ∈ aliases, IsName name) ∧ IsName (txt "ctrl") ∧ txt "ctrl" ∉ aliases ∧
      ∃ r, make aliases (txt "ctrl") = .ok r ∧
        r.apply (txt "$scope.scope = scop(scopes);") = txt "ctrl.scope = ctrl(scopes);" := by
  intro aliases
  have haliases : ∀ name ∈ aliases, IsName name := by decide
  have htarget : IsName (txt "ctrl") := by decide
  have hout : txt "ctrl" ∉ aliases := by decide
  obtain ⟨r, hmake, htokens, -⟩ := apply_token_map (List.cons_ne_nil _ _) haliases htarget hout
  exact ⟨haliases, htarget, hout, r, hmake, (htokens _).trans (by decide)⟩

end Renaming

end AngularUplift
