import AngularUplift.Proofs.Construct.FreeName
import Mathlib.Data.List.Nodup

/-!
# Locals inlined one after the other

The locals of a text are resolved in the order in which they are declared: each value has the resolved values of the
earlier locals in it. Then they are inlined in what is left of the text, again one after the other.

A resolved local that stands free in a later value stands free in its own, because wherever it was exchanged its own
value stands instead. So when each value refers to earlier locals only, no local is left over in any value, and
none can be left over in the text.

The marks of a string literal belong to no name. What stands between two marks is therefore inlined on its own, but it
is inlined: it stays as it is exactly when no local stands free in it.

## Main definitions

* `Settled`: locals of which none stands free in a later value unless it does in its own.
* `declaredLocals`: the locals as they are declared.
* `RefersBack`: declared locals of which each refers to earlier ones only.
* `StretchInlined`: what becomes of a stretch between two marks.

## Main statements

* `inlineLocals_resolved`: no local is left over, and the order of inlining does not matter.
* `inlineLocals_stretch`: what stands between two marks stays as it is exactly when no local stands free in it.
-/

namespace AngularUplift

/-! ### Inlining several locals -/

/-- Locals of which none stands free in the value of a later one unless it stands free in its own. -/
def Settled (locals : List Local) : Prop :=
  locals.Pairwise fun entry later => FreeIn entry.1 later.2 → FreeIn entry.1 entry.2

section

variable {locals : List Local} {name : Text}

/-- What stands free after several locals were inlined stood free before or comes from one of the values. -/
theorem freeIn_or_exists_of_foldl (hnames : ∀ entry ∈ locals, IsName entry.1) (hname : IsName name) {text : Text}
    (h : FreeIn name (locals.foldl substituteLocal text)) :
    FreeIn name text ∨ ∃ entry ∈ locals, FreeIn name entry.2 := by
  induction locals generalizing text with
  | nil => exact .inl h
  | cons entry locals ih =>
    obtain ⟨hentry, hnames⟩ := List.forall_mem_cons.1 hnames
    obtain hstep | ⟨later, hlater, hfree⟩ := ih hnames h
    · obtain ⟨-, hfree⟩ | ⟨-, hfree⟩ := (freeIn_substituteLocal_iff hentry hname).1 hstep
      · exact .inl hfree
      · exact .inr ⟨entry, List.mem_cons_self, hfree⟩
    · exact .inr ⟨later, List.mem_cons_of_mem entry hlater, hfree⟩

/-- After settled locals were inlined a local stands free only if it stands free in its own value. -/
theorem Settled.freeIn_of_foldl (h : Settled locals) (hnames : ∀ entry ∈ locals, IsName entry.1) {entry : Local}
    (hentry : entry ∈ locals) {text : Text} (hfree : FreeIn entry.1 (locals.foldl substituteLocal text)) :
    FreeIn entry.1 entry.2 := by
  induction locals generalizing text with
  | nil => exact absurd hentry List.not_mem_nil
  | cons first locals ih =>
    obtain ⟨hlater, hsettled⟩ := List.pairwise_cons.1 h
    obtain ⟨hfirst, hlocals⟩ := List.forall_mem_cons.1 hnames
    rw [List.foldl_cons] at hfree
    rcases List.mem_cons.1 hentry with rfl | hrest
    · -- Once it was exchanged only a value can bring it back: its own, or a later one, which then has it from its own.
      obtain hstep | ⟨later, hmem, hvalue⟩ := freeIn_or_exists_of_foldl hlocals hfirst hfree
      · obtain ⟨hne, -⟩ | ⟨-, hvalue⟩ := (freeIn_substituteLocal_iff hfirst hfirst).1 hstep
        · exact absurd rfl hne
        · exact hvalue
      · exact hlater later hmem hvalue
    · exact ih hsettled hlocals hrest hfree

/-- Inlining several locals takes away nothing but names. -/
theorem otherCount_le_foldl (hnames : ∀ entry ∈ locals, IsName entry.1) (text : Text) :
    otherCount text ≤ otherCount (locals.foldl substituteLocal text) := by
  induction locals generalizing text with
  | nil => exact le_rfl
  | cons entry locals ih =>
    obtain ⟨hentry, hnames⟩ := List.forall_mem_cons.1 hnames
    exact (otherCount_le_substituteLocal hentry text entry.2).trans (ih hnames _)

/-- Settled locals leave a text as it is exactly when each one that stands free in it is exchanged for its own name. -/
theorem Settled.foldl_eq_self_iff (h : Settled locals) (hnames : ∀ entry ∈ locals, IsName entry.1) (text : Text) :
    locals.foldl substituteLocal text = text ↔ ∀ entry ∈ locals, FreeIn entry.1 text → entry.2 = entry.1 := by
  induction locals generalizing text with
  | nil => simp
  | cons entry locals ih =>
    obtain ⟨-, hsettled⟩ := List.pairwise_cons.1 h
    obtain ⟨hentry, hlocals⟩ := List.forall_mem_cons.1 hnames
    rw [List.forall_mem_cons]
    by_cases hfree : FreeIn entry.1 text
    · by_cases hsame : entry.2 = entry.1
      · have hstep : substituteLocal text entry = text := by
          obtain ⟨name, value⟩ := entry
          obtain rfl : value = name := hsame
          exact substituteLocal_name hentry text
        rw [List.foldl_cons, hstep, ih hsettled hlocals text]
        simp [hsame]
      · -- The first local that changes something: what it did cannot be undone.
        refine iff_of_false (fun hback => ?_) fun hall => hsame (hall.1 hfree)
        by_cases hvalue : FreeIn entry.1 entry.2
        · have hmore := otherCount_lt_substituteLocal hentry hfree (otherCount_pos hvalue hsame)
          have hle := otherCount_le_foldl hlocals (substituteLocal text entry)
          rw [← List.foldl_cons, hback] at hle
          exact absurd hle (Nat.not_le.2 hmore)
        · rw [← hback] at hfree
          exact hvalue (h.freeIn_of_foldl hnames List.mem_cons_self hfree)
    · rw [List.foldl_cons, substituteLocal_eq_self hentry hfree, ih hsettled hlocals text]
      simp [hfree]

/-- Locals with different names, none of which stands free in any of the values, can be inlined in any order. -/
theorem foldl_substituteLocal_perm (hnames : ∀ entry ∈ locals, IsName entry.1) (hdistinct : (locals.map Prod.fst).Nodup)
    (hclear : ∀ entry ∈ locals, ∀ name ∈ locals.map Prod.fst, ¬FreeIn name entry.2) {order : List Local}
    (horder : order.Perm locals) (text : Text) :
    order.foldl substituteLocal text = locals.foldl substituteLocal text := by
  refine horder.foldl_eq' (fun first hfirst second hsecond text' => ?_) text
  have hfirst := horder.subset hfirst
  have hsecond := horder.subset hsecond
  by_cases hsame : first.1 = second.1
  · rw [List.inj_on_of_nodup_map hdistinct hfirst hsecond hsame]
  · exact substituteLocal_comm (hnames first hfirst) (hnames second hsecond) hsame
      (hclear first hfirst second.1 (List.mem_map_of_mem hsecond))
      (hclear second hsecond first.1 (List.mem_map_of_mem hfirst)) text'

/-- At a character that belongs to no name both parts of a text are inlined on their own. -/
theorem foldl_seam (hnames : ∀ entry ∈ locals, IsName entry.1) {c : Char} (hc : isName c = false)
    (front back : Text) : ∃ front' back', locals.foldl substituteLocal (front ++ [c]) = front' ++ [c] ∧
      locals.foldl substituteLocal (c :: back) = c :: back' ∧
      locals.foldl substituteLocal (front ++ c :: back) = front' ++ c :: back' := by
  induction locals generalizing front back with
  | nil => exact ⟨front, back, rfl, rfl, rfl⟩
  | cons entry locals ih =>
    obtain ⟨hentry, hlocals⟩ := List.forall_mem_cons.1 hnames
    obtain ⟨front', back', hfront, hback, hwhole⟩ :=
      substituteLocal_seam (Seam.single hc front back) hentry entry.2
    simp only [List.append_assoc, List.singleton_append] at hback hwhole
    simp only [List.foldl_cons]
    rw [hfront, hback, hwhole]
    exact ih hlocals front' back'

/-- A stretch of a text between two marks, and what it becomes when locals are inlined one after the other: the text in
front of it, the stretch and the text behind it are inlined on their own, and the stretch stays as it is exactly when
each local that stands free in it is exchanged for its own name. -/
def StretchInlined (locals : List Local) (front : Text) (mark : Char) (contents : Text) (mark' : Char)
    (back result : Text) : Prop :=
  ∃ front' contents' back', locals.foldl substituteLocal (front ++ [mark]) = front' ++ [mark] ∧
    locals.foldl substituteLocal (mark :: (contents ++ [mark'])) = mark :: (contents' ++ [mark']) ∧
    locals.foldl substituteLocal (mark' :: back) = mark' :: back' ∧
    result = front' ++ mark :: (contents' ++ mark' :: back') ∧
    (contents' = contents ↔
      ∀ entry ∈ locals, FreeIn entry.1 (mark :: (contents ++ [mark'])) → entry.2 = entry.1)

/-- Between marks that belong to no name settled locals are inlined on their own. -/
theorem Settled.stretchInlined (h : Settled locals) (hnames : ∀ entry ∈ locals, IsName entry.1) {mark mark' : Char}
    (hmark : isName mark = false) (hmark' : isName mark' = false) (front contents back : Text) :
    StretchInlined locals front mark contents mark' back
      (locals.foldl substituteLocal (front ++ mark :: (contents ++ mark' :: back))) := by
  obtain ⟨front', rest, hfront, hrest, hwhole⟩ := foldl_seam hnames hmark front (contents ++ mark' :: back)
  obtain ⟨inside, back', hinside, hback, hsecond⟩ := foldl_seam hnames hmark' (mark :: contents) back
  rw [List.cons_append] at hinside hsecond
  rw [hrest] at hsecond
  obtain ⟨contents', rfl⟩ : ∃ contents', inside = mark :: contents' := by
    cases inside with
    | nil =>
      -- The first mark would be gone.
      have hle := otherCount_le_foldl hnames (mark :: (contents ++ [mark']))
      rw [hinside] at hle
      simp [otherCount, hmark, hmark', List.countP_append] at hle
    | cons c contents' =>
      obtain ⟨rfl, -⟩ := List.cons.inj hsecond
      exact ⟨contents', rfl⟩
  obtain ⟨-, rfl⟩ := List.cons.inj hsecond
  refine ⟨front', contents', back', hfront, hinside, hback, hwhole, ?_⟩
  rw [← h.foldl_eq_self_iff hnames, hinside]
  simp

end

/-! ### Resolved locals -/

/-- The last of several locals is resolved after the others. -/
theorem resolveLocals_concat (resolved locals : List Local) (entry : Local) :
    resolveLocals resolved (locals ++ [entry]) = resolveLocals resolved locals ++
      [(entry.1, (resolveLocals resolved locals).foldl substituteLocal entry.2)] := by
  induction locals generalizing resolved with
  | nil => rfl
  | cons first locals ih => exact ih _

/-- Resolving keeps the names. -/
theorem map_fst_resolveLocals (locals : List Local) : (resolveLocals [] locals).map Prod.fst = locals.map Prod.fst := by
  induction locals using List.reverseRecOn with
  | nil => rfl
  | append_singleton locals entry ih => rw [resolveLocals_concat, List.map_append, ih, List.map_append]; rfl

/-- The names of resolved locals are names when those of the declared ones are. -/
theorem isName_of_mem_resolveLocals {locals : List Local} (hnames : ∀ entry ∈ locals, IsName entry.1) :
    ∀ entry ∈ resolveLocals [] locals, IsName entry.1 := by
  intro entry hentry
  have hmem := List.mem_map_of_mem (f := Prod.fst) hentry
  rw [map_fst_resolveLocals] at hmem
  obtain ⟨declared, hdeclared, hsame⟩ := List.mem_map.1 hmem
  exact hsame ▸ hnames declared hdeclared

/-- Each local is resolved with the earlier ones. -/
theorem getElem?_resolveLocals {locals : List Local} {i : Nat} {entry : Local} (h : locals[i]? = some entry) :
    (resolveLocals [] locals)[i]? =
      some (entry.1, ((resolveLocals [] locals).take i).foldl substituteLocal entry.2) := by
  induction locals using List.reverseRecOn with
  | nil => exact absurd h (by simp)
  | append_singleton locals last ih =>
    have hlength : (resolveLocals [] locals).length = locals.length := by
      simpa using congrArg List.length (map_fst_resolveLocals locals)
    rw [resolveLocals_concat]
    by_cases hi : i < locals.length
    · rw [List.getElem?_append_left hi] at h
      rw [List.getElem?_append_left (by omega), ih h, List.take_append_of_le_length (by omega)]
    · obtain rfl : i = locals.length := by
        have hlt := (List.getElem?_eq_some_iff.1 h).1
        rw [List.length_append, List.length_singleton] at hlt
        omega
      rw [List.getElem?_concat_length] at h
      obtain rfl := Option.some.inj h
      rw [← hlength, List.getElem?_concat_length, List.take_left]

/-- Resolved locals are settled. -/
theorem settled_resolveLocals {locals : List Local} (hnames : ∀ entry ∈ locals, IsName entry.1) :
    Settled (resolveLocals [] locals) := by
  induction locals using List.reverseRecOn with
  | nil => exact List.Pairwise.nil
  | append_singleton locals last ih =>
    obtain ⟨hlocals, -⟩ := List.forall_mem_append.1 hnames
    rw [resolveLocals_concat]
    refine List.pairwise_append.2 ⟨ih hlocals, List.pairwise_singleton _ _, fun entry hentry later hlater hfree => ?_⟩
    rw [List.mem_singleton.1 hlater] at hfree
    exact (ih hlocals).freeIn_of_foldl (isName_of_mem_resolveLocals hlocals) hentry hfree

/-- Declared locals of which each refers to earlier ones only. -/
def RefersBack (locals : List Local) : Prop :=
  ∀ i (_ : i < locals.length) j (_ : j < locals.length), FreeIn locals[j].1 locals[i].2 → j < i

/-- Whether locals refer to earlier ones only is looked up for each two of them. -/
instance (locals : List Local) : Decidable (RefersBack locals) := by
  unfold RefersBack
  infer_instance

/-- The value of a local refers neither to itself nor to later locals. -/
theorem RefersBack.not_freeIn {locals others : List Local} {entry : Local}
    (h : RefersBack (locals ++ entry :: others)) : ∀ later ∈ entry :: others, ¬FreeIn later.1 entry.2 := by
  intro later hlater hfree
  obtain ⟨j, hj, rfl⟩ := List.mem_iff_getElem.1 hlater
  have hlt := h locals.length (by simp) (locals.length + j) (by simpa using hj)
    (by simpa [List.getElem_append_right] using hfree)
  omega

/-- When each local refers to earlier ones only, no resolved value refers to any. -/
theorem RefersBack.not_freeIn_resolveLocals {locals others : List Local} (h : RefersBack (locals ++ others))
    (hnames : ∀ entry ∈ locals ++ others, IsName entry.1) :
    ∀ entry ∈ resolveLocals [] locals, ∀ name ∈ (locals ++ others).map Prod.fst, ¬FreeIn name entry.2 := by
  induction locals using List.reverseRecOn generalizing others with
  | nil => exact fun entry hentry => absurd hentry List.not_mem_nil
  | append_singleton locals last ih =>
    rw [List.append_assoc, List.singleton_append] at h hnames ⊢
    obtain ⟨hlocals, hothers⟩ := List.forall_mem_append.1 hnames
    have hearlier := ih h hnames
    have hresolved := isName_of_mem_resolveLocals hlocals
    rw [resolveLocals_concat, List.forall_mem_append, List.forall_mem_singleton]
    refine ⟨hearlier, fun name hname hfree => ?_⟩
    rw [List.map_append] at hname
    rcases List.mem_append.1 hname with hbefore | hbehind
    · -- An earlier local would stand free in its own value.
      rw [← map_fst_resolveLocals] at hbefore
      obtain ⟨found, hfound, rfl⟩ := List.mem_map.1 hbefore
      have hown := (settled_resolveLocals hlocals).freeIn_of_foldl hresolved hfound hfree
      exact hearlier found hfound found.1 (by rwa [List.map_append]) hown
    · obtain ⟨other, hother, rfl⟩ := List.mem_map.1 hbehind
      obtain hraw | ⟨found, hfound, hvalue⟩ := freeIn_or_exists_of_foldl hresolved (hothers other hother) hfree
      · exact h.not_freeIn other hother hraw
      · exact hearlier found hfound other.1 (by rwa [List.map_append]) hvalue

/-! ### The locals of a text -/

/-- The locals of a text as they are declared. -/
def declaredLocals (text : Text) : List Local := (localLine.occurrences text).map (·.value)

/-- The name of a local is one. -/
theorem isName_of_mem_declaredLocals {text : Text} : ∀ entry ∈ declaredLocals text, IsName entry.1 := by
  intro entry hentry
  obtain ⟨found, hfound, rfl⟩ := List.mem_map.1 hentry
  obtain ⟨-, -, rest, hread, -⟩ := Pattern.read_of_mem_occurrences hfound
  obtain ⟨_, _, -, hread⟩ := Reader.bind_eq_some_iff.1 hread
  obtain ⟨_, _, -, hread⟩ := Reader.bind_eq_some_iff.1 hread
  obtain ⟨_, _, -, hread⟩ := Reader.bind_eq_some_iff.1 hread
  obtain ⟨name, _, hname, hread⟩ := Reader.bind_eq_some_iff.1 hread
  obtain ⟨_, _, -, hread⟩ := Reader.bind_eq_some_iff.1 hread
  obtain ⟨_, _, -, hread⟩ := Reader.bind_eq_some_iff.1 hread
  obtain ⟨value, _, -, hread⟩ := Reader.bind_eq_some_iff.1 hread
  obtain ⟨hvalue, -⟩ := Reader.pure_eq_some_iff.1 hread
  exact hvalue ▸ (Reader.run1_eq_some hname).2

/-- The locals of a text are the declared ones, resolved. -/
theorem inlineLocals_snd (text : Text) : (inlineLocals text).2 = resolveLocals [] (declaredLocals text) := rfl

/-- They are inlined in what is left of the text. -/
theorem inlineLocals_fst (text : Text) :
    (inlineLocals text).1 = (inlineLocals text).2.foldl substituteLocal (localLine.erase text) := rfl

theorem map_fst_inlineLocals (text : Text) :
    (inlineLocals text).2.map Prod.fst = (declaredLocals text).map Prod.fst := map_fst_resolveLocals _

theorem isName_of_mem_inlineLocals {text : Text} : ∀ entry ∈ (inlineLocals text).2, IsName entry.1 :=
  isName_of_mem_resolveLocals isName_of_mem_declaredLocals

theorem settled_inlineLocals (text : Text) : Settled (inlineLocals text).2 :=
  settled_resolveLocals isName_of_mem_declaredLocals

/-- When each local refers to earlier ones only, no local stands free in any of the values. -/
theorem not_freeIn_inlineLocals {text : Text} (h : RefersBack (declaredLocals text)) :
    ∀ entry ∈ (inlineLocals text).2, ∀ name ∈ (inlineLocals text).2.map Prod.fst, ¬FreeIn name entry.2 := by
  have hnames : ∀ entry ∈ declaredLocals text ++ [], IsName entry.1 := by simpa using isName_of_mem_declaredLocals
  rw [← List.append_nil (declaredLocals text)] at h
  have hresolved := h.not_freeIn_resolveLocals hnames
  rwa [List.append_nil, ← map_fst_inlineLocals, ← inlineLocals_snd] at hresolved

/-- When the locals of a text have different names and each refers to earlier ones only, every local is resolved: it has
its declared value with the earlier ones inlined, no local is left over in any of the values nor in the text, and the
text is the same in whatever order the locals are inlined in it. -/
theorem inlineLocals_resolved (text : Text) (hdistinct : ((declaredLocals text).map Prod.fst).Nodup)
    (hback : RefersBack (declaredLocals text)) :
    (inlineLocals text).2.map Prod.fst = (declaredLocals text).map Prod.fst ∧
      (∀ i entry, (declaredLocals text)[i]? = some entry → (inlineLocals text).2[i]? =
        some (entry.1, ((inlineLocals text).2.take i).foldl substituteLocal entry.2)) ∧
      (∀ name ∈ (declaredLocals text).map Prod.fst, ∀ entry ∈ (inlineLocals text).2, ¬FreeIn name entry.2) ∧
      (∀ name ∈ (declaredLocals text).map Prod.fst, ¬FreeIn name (inlineLocals text).1) ∧
      ∀ order : List Local, order.Perm (inlineLocals text).2 →
        order.foldl substituteLocal (localLine.erase text) = (inlineLocals text).1 := by
  have hclear := not_freeIn_inlineLocals hback
  rw [← map_fst_inlineLocals] at hdistinct ⊢
  refine ⟨rfl, fun i entry hentry => getElem?_resolveLocals hentry, fun name hname entry hentry =>
    hclear entry hentry name hname, fun name hname hfree => ?_, fun order horder => ?_⟩
  · obtain ⟨entry, hentry, rfl⟩ := List.mem_map.1 hname
    rw [inlineLocals_fst] at hfree
    have hown := (settled_inlineLocals text).freeIn_of_foldl isName_of_mem_inlineLocals hentry hfree
    exact hclear entry hentry entry.1 hname hown
  · rw [inlineLocals_fst]
    exact foldl_substituteLocal_perm isName_of_mem_inlineLocals hdistinct hclear horder _

/-- A local that refers to an earlier one, and a constant that is given through it. -/
theorem inlineLocals_resolved_chain :
    let text := txt "var base = 10;\nvar limit = base + 1;\nf('LIMIT', limit * base);\n"
    ((declaredLocals text).map Prod.fst).Nodup ∧ RefersBack (declaredLocals text) ∧
      (∀ name ∈ (declaredLocals text).map Prod.fst, ¬FreeIn name (inlineLocals text).1) ∧
      [(txt "limit", txt "10 + 1"), (txt "base", txt "10")].foldl substituteLocal (localLine.erase text) =
        (inlineLocals text).1 := by
  intro text
  have hdistinct : ((declaredLocals text).map Prod.fst).Nodup := by decide +kernel
  have hback : RefersBack (declaredLocals text) := by decide +kernel
  obtain ⟨-, -, -, hclear, horder⟩ := inlineLocals_resolved text hdistinct hback
  refine ⟨hdistinct, hback, hclear, horder _ ?_⟩
  have hlocals : (inlineLocals text).2 = [(txt "base", txt "10"), (txt "limit", txt "10 + 1")] := by decide +kernel
  rw [hlocals]
  exact List.Perm.swap _ _ _

/-! ### What stands between two marks -/

section

variable {text : Text} {mark mark' : Char} {contents front back : Text}

/-- What stands outside the lines that declare locals is left when these are taken out. -/
theorem erase_of_pieces {kept : Text} {first last : List (Piece Local)}
    (h : localLine.pieces text = first ++ kept.map .plain ++ last) :
    localLine.erase text = first.flatMap (Pattern.exchange fun _ _ => []) ++ kept ++
      last.flatMap (Pattern.exchange fun _ _ => []) := by
  have hplain : (kept.map Piece.plain).flatMap (Pattern.exchange fun _ (_ : Local) => []) = kept := by
    rw [List.flatMap_map]
    exact List.flatMap_singleton' kept
  rw [Pattern.erase, Pattern.replace, Pattern.replaceWith, h, List.flatMap_append, List.flatMap_append, hplain]

/-- A stretch of the text outside the lines that declare locals. -/
theorem stretchInlined_text (hmark : isName mark = false) (hmark' : isName mark' = false)
    {first last : List (Piece Local)}
    (h : localLine.pieces text = first ++ (mark :: (contents ++ [mark'])).map .plain ++ last) :
    StretchInlined (inlineLocals text).2 (first.flatMap (Pattern.exchange fun _ _ => [])) mark contents mark'
      (last.flatMap (Pattern.exchange fun _ _ => [])) (inlineLocals text).1 := by
  have herase : localLine.erase text = first.flatMap (Pattern.exchange fun _ _ => []) ++
      mark :: (contents ++ mark' :: last.flatMap (Pattern.exchange fun _ _ => [])) := by
    rw [erase_of_pieces h]
    simp only [List.append_assoc, List.cons_append, List.nil_append]
  rw [inlineLocals_fst, herase]
  exact (settled_inlineLocals text).stretchInlined isName_of_mem_inlineLocals hmark hmark' _ _ _

/-- A stretch of a declared value, while the local is resolved. -/
theorem stretchInlined_declared (hmark : isName mark = false) (hmark' : isName mark' = false) {i : Nat} {name : Text}
    (h : (declaredLocals text)[i]? = some (name, front ++ mark :: (contents ++ mark' :: back))) :
    ∃ value, (inlineLocals text).2[i]? = some (name, value) ∧
      StretchInlined ((inlineLocals text).2.take i) front mark contents mark' back value := by
  have hsettled : Settled ((inlineLocals text).2.take i) := (settled_inlineLocals text).sublist (List.take_sublist i _)
  have hnames : ∀ entry ∈ (inlineLocals text).2.take i, IsName entry.1 :=
    fun entry hentry => isName_of_mem_inlineLocals entry (List.mem_of_mem_take hentry)
  exact ⟨_, getElem?_resolveLocals h, hsettled.stretchInlined hnames hmark hmark' front contents back⟩

/-- A stretch of a resolved value where it was put in the place of its local, while the later locals are inlined. -/
theorem stretchInlined_resolved (hmark : isName mark = false) (hmark' : isName mark' = false) {i : Nat}
    {name value before after : Text} (hentry : (inlineLocals text).2[i]? = some (name, value))
    (hvalue : value = front ++ mark :: (contents ++ mark' :: back))
    (hturn : ((inlineLocals text).2.take i).foldl substituteLocal (localLine.erase text) = before ++ name ++ after)
    (hplace : FreePlace before after) :
    StretchInlined ((inlineLocals text).2.drop (i + 1)) (substituteLocal before (name, value) ++ front) mark contents mark'
      (back ++ substituteLocal after (name, value)) (inlineLocals text).1 := by
  have hname : IsName name := isName_of_mem_inlineLocals (name, value) (List.mem_of_getElem? hentry)
  have hsettled : Settled ((inlineLocals text).2.drop (i + 1)) :=
    (settled_inlineLocals text).sublist (List.drop_sublist (i + 1) _)
  have hnames : ∀ entry ∈ (inlineLocals text).2.drop (i + 1), IsName entry.1 :=
    fun entry hentry => isName_of_mem_inlineLocals entry (List.mem_of_mem_drop hentry)
  obtain ⟨hi, hget⟩ := List.getElem?_eq_some_iff.1 hentry
  have hvalues : substituteLocal before (name, value) ++ value ++ substituteLocal after (name, value) =
      (substituteLocal before (name, value) ++ front) ++
        mark :: (contents ++ mark' :: (back ++ substituteLocal after (name, value))) := by
    rw [hvalue]
    simp only [List.append_assoc, List.cons_append]
  have hrest : (inlineLocals text).1 = ((inlineLocals text).2.drop (i + 1)).foldl substituteLocal
      (substituteLocal before (name, value) ++ value ++ substituteLocal after (name, value)) :=
    calc (inlineLocals text).1
        = ((inlineLocals text).2.drop i).foldl substituteLocal (before ++ name ++ after) := by
          rw [inlineLocals_fst, ← hturn, ← List.foldl_append, List.take_append_drop]
      _ = _ := by rw [List.drop_eq_getElem_cons hi, hget, List.foldl_cons, substituteLocal_free hplace hname]
  rw [hrest, hvalues]
  exact hsettled.stretchInlined hnames hmark hmark' _ _ _

end

/-- What stands between two marks is inlined on its own, and it stays as it is exactly when no local stands free in it,
or only such as are exchanged for their own names. So it is in the text outside the lines that declare locals, in the
declared values when they are resolved, and in a resolved value where it was put in the place of its local, while the
later locals are inlined. -/
theorem inlineLocals_stretch (text : Text) {mark mark' : Char} (hmark : isName mark = false)
    (hmark' : isName mark' = false) :
    (∀ contents first last,
      localLine.pieces text = first ++ (mark :: (contents ++ [mark'])).map .plain ++ last →
        StretchInlined (inlineLocals text).2 (first.flatMap (Pattern.exchange fun _ _ => [])) mark contents mark'
          (last.flatMap (Pattern.exchange fun _ _ => [])) (inlineLocals text).1) ∧
      (∀ contents i name front back,
        (declaredLocals text)[i]? = some (name, front ++ mark :: (contents ++ mark' :: back)) →
          ∃ value, (inlineLocals text).2[i]? = some (name, value) ∧
            StretchInlined ((inlineLocals text).2.take i) front mark contents mark' back value) ∧
      ∀ contents i name value front back before after, (inlineLocals text).2[i]? = some (name, value) →
        value = front ++ mark :: (contents ++ mark' :: back) →
          ((inlineLocals text).2.take i).foldl substituteLocal (localLine.erase text) = before ++ name ++ after →
            FreePlace before after → StretchInlined ((inlineLocals text).2.drop (i + 1))
              (substituteLocal before (name, value) ++ front) mark contents mark'
              (back ++ substituteLocal after (name, value)) (inlineLocals text).1 := by
  refine ⟨fun contents first last => stretchInlined_text hmark hmark',
    fun contents i name front back => stretchInlined_declared hmark hmark',
    fun contents i name value front back before after => stretchInlined_resolved hmark hmark'⟩

/-- A local whose value names an earlier one between its marks, and a literal next to the place where it is inlined. -/
theorem inlineLocals_stretch_hint :
    let text := txt "var base = 10;\nvar hint = 'a base price';\nf('shop', hint);\n"
    let first := [.found (txt "var base = 10;\n") (txt "base", txt "10"),
      .found (txt "var hint = 'a base price';\n") (txt "hint", txt "'a base price'"), .plain 'f', .plain '(']
    let last := (txt ", hint);\n").map .plain
    let locals := (inlineLocals text).2
    isName '\'' = false ∧
      localLine.pieces text = first ++ ('\'' :: (txt "shop" ++ ['\''])).map .plain ++ last ∧
      (declaredLocals text)[1]? = some (txt "hint", txt "'a base price'") ∧
      locals[1]? = some (txt "hint", txt "'a 10 price'") ∧
      (locals.take 1).foldl substituteLocal (localLine.erase text) = txt "f('shop', " ++ txt "hint" ++ txt ");\n" ∧
      FreePlace (txt "f('shop', ") (txt ");\n") ∧
      StretchInlined locals (txt "f(") '\'' (txt "shop") '\'' (txt ", hint);\n") (inlineLocals text).1 ∧
      (∃ value, locals[1]? = some (txt "hint", value) ∧
        StretchInlined (locals.take 1) [] '\'' (txt "a base price") '\'' [] value) ∧
      StretchInlined (locals.drop 2) (txt "f('shop', ") '\'' (txt "a 10 price") '\'' (txt ");\n")
        (inlineLocals text).1 := by
  intro text first last locals
  have hmark : isName '\'' = false := by decide
  have hpieces : localLine.pieces text = first ++ ('\'' :: (txt "shop" ++ ['\''])).map .plain ++ last := by rfl
  have hdeclared : (declaredLocals text)[1]? = some (txt "hint", txt "'a base price'") := by decide +kernel
  have hentry : locals[1]? = some (txt "hint", txt "'a 10 price'") := by decide +kernel
  have hturn : (locals.take 1).foldl substituteLocal (localLine.erase text) =
      txt "f('shop', " ++ txt "hint" ++ txt ");\n" := by decide +kernel
  have hplace : FreePlace (txt "f('shop', ") (txt ");\n") := by decide
  obtain ⟨hliteral, hvalue, hinlined⟩ := inlineLocals_stretch text hmark hmark
  refine ⟨hmark, hpieces, hdeclared, hentry, hturn, hplace, hliteral _ _ _ hpieces, hvalue _ 1 _ [] [] hdeclared, ?_⟩
  exact hinlined (txt "a 10 price") 1 _ _ [] [] _ _ hentry rfl hturn hplace

/-- A word of a string literal that is also the name of a local is exchanged like the name. -/
theorem literal_rewritten :
    let text := txt "var base = 10;\napp.constant('HINT', 'the base price');\n"
    localLine.erase text = txt "app.constant('HINT', 'the base price');\n" ∧
      inlineLocals text =
        (txt "app.constant('HINT', 'the 10 price');\n", [(txt "base", txt "10")]) ∧
      (Constant.analyze text).toOption.map (·.map (·.expression)) = some [txt "'the 10 price'"] := by
  decide +kernel

end AngularUplift
