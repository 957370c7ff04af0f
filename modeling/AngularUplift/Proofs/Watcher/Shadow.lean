import AngularUplift.Watcher
import AngularUplift.Proofs.Receiver
import AngularUplift.Proofs.Text.Line
import AngularUplift.Proofs.Text.Spelling
import Mathlib.Data.List.Nodup
import Mathlib.Data.List.Perm.Subperm

/-!
# The shadow variables of watchers

The hook that takes the place of scope watchers compares each watched expression with a shadow variable of its own.
What the shadow is named after loses characters on the way to a name, so different watchers come by the same name
easily, and the digits that are put after a name that is taken may make it a name that is taken as well. All the same
no two shadows have one name: a watcher gets the first name that no watcher before it has, and there is one, since
every round makes a longer name.

The names are not identifiers in every case: a dot before a dollar sign stays, as in `Form.$valid`. What is shown
here is that they are different texts.

The check of a watcher is a form with two places for names. The form belongs to the watcher; the names are put into
it at the end.

## Main definitions

* `Watcher.FirstUnused`: the first of the names made of a name that is not taken.
* `Watcher.CheckPiece`, `Watcher.checkPieces`: the form of a check.

## Main statements

* `Watcher.unusedName_spec`, `Watcher.shadowNames_spec`: the loop for a name ends, and with what.
* `Watcher.check_eq`: a check is its form with the names put in.
* `Watcher.doCheckCode_shadows`: the declarations, the names and the checks of any list of watchers.
-/

namespace AngularUplift

namespace Watcher

/-! ### Names -/

/-- The name of the shadow variable of a watcher when no watcher before it has that name. -/
def plainName (index : Nat) (w : Watcher) : Text :=
  let name := Text.pascalCase ((w.label index).filter fun c => isName c || c == '.' || c == '-')
  if name.isEmpty then Text.ofNat index else name

/-- A name with copies of a suffix after it. -/
def extended (suffix name : Text) (copies : Nat) : Text := name ++ (List.replicate copies suffix).flatten

/-- The first of a name and what copies of a suffix make of it that is not used, after no more copies than there are
used names. -/
def FirstUnused (used : List Text) (suffix name found : Text) : Prop :=
  found ∉ used ∧ ∃ copies ≤ used.length, found = extended suffix name copies ∧
    ∀ fewer < copies, extended suffix name fewer ∈ used

/-- One copy first, and then the others. -/
theorem extended_append (suffix name : Text) (copies : Nat) :
    extended suffix (name ++ suffix) copies = extended suffix name (copies + 1) := by
  rw [extended, extended, List.replicate_succ, List.flatten_cons, List.append_assoc]

/-- Every copy makes a new name. -/
theorem extended_injective {suffix : Text} (hsuffix : suffix ≠ []) (name : Text) :
    Function.Injective (extended suffix name) := by
  intro copies other heq
  have hlength : ∀ n, (extended suffix name n).length = name.length + n * suffix.length := by simp [extended]
  have hboth := congrArg List.length heq
  rw [hlength, hlength, Nat.add_left_cancel_iff] at hboth
  exact Nat.eq_of_mul_eq_mul_right (List.length_pos_of_ne_nil hsuffix) hboth

/-- The loop adds copies as long as the name is used and rounds are left. -/
theorem exists_unusedName (used : List Text) (suffix : Text) (rounds : Nat) (name : Text) :
    ∃ copies ≤ rounds, unusedName used suffix rounds name = extended suffix name copies ∧
      (∀ fewer < copies, extended suffix name fewer ∈ used) ∧
      (copies < rounds → unusedName used suffix rounds name ∉ used) := by
  induction rounds generalizing name with
  | zero => exact ⟨0, Nat.le_refl 0, by simp [unusedName, extended], by simp, by simp⟩
  | succ rounds ih =>
    rw [unusedName]
    by_cases hused : name ∈ used
    · rw [if_pos (by simpa using hused)]
      obtain ⟨copies, hle, heq, hfewer, hfree⟩ := ih (name ++ suffix)
      refine ⟨copies + 1, Nat.succ_le_succ hle, by rw [heq, extended_append], fun fewer hlt => ?_,
        fun hlt => hfree (Nat.lt_of_succ_lt_succ hlt)⟩
      cases fewer with
      | zero => simpa [extended] using hused
      | succ fewer =>
        rw [← extended_append]
        exact hfewer fewer (Nat.lt_of_succ_lt_succ hlt)
    · rw [if_neg (by simpa using hused)]
      exact ⟨0, Nat.zero_le _, by simp [extended], by simp, fun _ => hused⟩

/-- The loop ends with the first name that is not used. One round more than there are used names is enough for it,
as the names it makes are different. -/
theorem unusedName_spec (used : List Text) {suffix : Text} (hsuffix : suffix ≠ []) (name : Text) :
    FirstUnused used suffix name (unusedName used suffix (used.length + 1) name) := by
  obtain ⟨copies, hle, heq, hfewer, hfree⟩ := exists_unusedName used suffix (used.length + 1) name
  -- The names that were passed over are different and all of them are used.
  have hnodup : ((List.range copies).map (extended suffix name)).Nodup :=
    List.nodup_range.map (extended_injective hsuffix name)
  have hsubset : (List.range copies).map (extended suffix name) ⊆ used := by
    intro passed hpassed
    obtain ⟨fewer, hlt, rfl⟩ := List.mem_map.1 hpassed
    exact hfewer fewer (List.mem_range.1 hlt)
  have hcopies : copies ≤ used.length := by simpa using (List.subperm_of_subset hnodup hsubset).length_le
  exact ⟨hfree (Nat.lt_succ_of_le hcopies), copies, hcopies, heq, hfewer⟩

/-- The digits of a number are not the empty text. -/
theorem ofNat_ne_nil (n : Nat) : Text.ofNat n ≠ [] := by
  rw [Text.ofNat]
  exact Nat.toDigits_ne_nil

/-- The name of a shadow variable is the first one that is not used. -/
theorem shadowName_spec (index : Nat) (used : List Text) (w : Watcher) :
    FirstUnused used (Text.ofNat index) (w.plainName index) (w.shadowName index used) :=
  unusedName_spec used (ofNat_ne_nil index) _

/-- Only which names are used counts, and how many. -/
theorem FirstUnused.congr {used others : List Text} {suffix name found : Text} (hperm : used.Perm others)
    (h : FirstUnused used suffix name found) : FirstUnused others suffix name found := by
  obtain ⟨hfree, copies, hle, heq, hfewer⟩ := h
  exact ⟨mt hperm.mem_iff.2 hfree, copies, hperm.length_eq ▸ hle, heq,
    fun fewer hlt => hperm.mem_iff.1 (hfewer fewer hlt)⟩

/-- The names of shadow variables are different from each other and from those already used. -/
theorem nodup_shadowNames (index : Nat) {used : List Text} (hused : used.Nodup) (ws : List Watcher) :
    (used ++ shadowNames index used ws).Nodup := by
  induction ws generalizing index used with
  | nil => simpa [shadowNames] using hused
  | cons w rest ih =>
    have hfree := (shadowName_spec index used w).1
    -- The name that was just taken counts as used for all that follow.
    have hrest := ih (index + 1) (List.nodup_cons.2 ⟨hfree, hused⟩)
    rw [shadowNames]
    exact (List.perm_middle.nodup_iff).2 hrest

@[simp]
theorem length_shadowNames (index : Nat) (used : List Text) (ws : List Watcher) :
    (shadowNames index used ws).length = ws.length := by
  induction ws generalizing index used with
  | nil => rfl
  | cons w rest ih => rw [shadowNames, List.length_cons, ih, List.length_cons]

/-- Every watcher's shadow has the first name that is neither used nor the name of an earlier one. -/
theorem shadowNames_spec {index : Nat} {used : List Text} {ws : List Watcher} {i : Nat} {w : Watcher} {name : Text}
    (hw : ws[i]? = some w) (hname : (shadowNames index used ws)[i]? = some name) :
    FirstUnused ((shadowNames index used ws).take i ++ used) (Text.ofNat (index + i)) (w.plainName (index + i))
      name := by
  induction ws generalizing index used i with
  | nil => exact absurd hw (by simp)
  | cons first rest ih =>
    rw [shadowNames] at hname ⊢
    cases i with
    | zero =>
      obtain rfl := Option.some.inj hw
      obtain rfl := Option.some.inj hname
      exact shadowName_spec index used first
    | succ i =>
      have hrest := ih hw hname
      rw [Nat.add_right_comm, Nat.add_assoc] at hrest
      exact hrest.congr List.perm_middle

/-- The third name is taken, and so is what the first copy of its index makes of it. -/
example : shadowNames 0 [] [{ target := txt "ctrl.a2" }, { target := txt "ctrl.a" }, { target := txt "ctrl.a" }] =
    [txt "A2", txt "A", txt "A22"] := by
  decide

/-- No name of a shadow variable has a line break. -/
theorem break_notMem_of_firstUnused {used : List Text} {index : Nat} {w : Watcher} {name : Text}
    (h : FirstUnused used (Text.ofNat index) (w.plainName index) name) : '\n' ∉ name := by
  obtain ⟨-, copies, -, rfl, -⟩ := h
  have hdigits : '\n' ∉ Text.ofNat index := fun hmem =>
    absurd (Nat.isDigit_of_mem_toDigits (by decide) (by decide) hmem) (by decide)
  have hlabel : '\n' ∉ (w.label index).filter fun c => isName c || c == '.' || c == '-' := fun hmem =>
    absurd (List.mem_filter.1 hmem).2 (by decide)
  have hplain : '\n' ∉ w.plainName index := by
    rw [plainName]
    split
    · exact hdigits
    · exact Text.break_notMem_pascalCase hlabel
  rw [extended, List.mem_append, List.mem_flatten, not_or]
  refine ⟨hplain, ?_⟩
  rintro ⟨copy, hcopy, hmem⟩
  exact hdigits ((List.mem_replicate.1 hcopy).2 ▸ hmem)

/-! ### Forms -/

/-- A piece of the form of a check. -/
inductive CheckPiece where
  /-- A fixed piece of code. -/
  | code (word : Text)
  /-- The place of the shadow variable. -/
  | shadow
  /-- The place of the variable for the old value. -/
  | previous
  /-- A part of the watcher's own target or body. -/
  | own (text : Text)
deriving DecidableEq

/-- The shadow variable that belongs to a name. -/
def shadowOf (name : Text) : Text := txt "old" ++ name

/-- The variable for the old value that belongs to a name. -/
def previousOf (name : Text) : Text := txt "previous" ++ name

/-- What a piece becomes when the names are put in. -/
def CheckPiece.source (name : Text) : CheckPiece → Text
  | .code word => word
  | .shadow => shadowOf name
  | .previous => previousOf name
  | .own text => text

/-- What a piece was before the callback's name for the old value was exchanged. -/
def CheckPiece.original (w : Watcher) : CheckPiece → Text
  | .previous => w.oldValueParameter
  | .own text => text
  | _ => []

/-- The body of a callback in terms of the target. -/
def settledBody (w : Watcher) : Text := substitute w.newValueParameter w.target w.body

/-- The piece of a form for a piece of a body that was searched for the callback's name for the old value. -/
def CheckPiece.ofPiece : Piece Unit → CheckPiece
  | .plain c => .own [c]
  | .found _ _ => .previous

/-- The form of what runs when the value has changed. -/
def actionPieces (w : Watcher) : List CheckPiece :=
  if w.isReference then
    [.own w.body, .code ['('], .previous, .code (txt ", "), .own w.target, .code (txt ");")]
  else if w.oldValueParameter.isEmpty then w.settledBody.map fun c => .own [c]
  else ((Renaming.into [] [w.oldValueParameter]).occurrence.pieces w.settledBody).map .ofPiece

/-- The form of a check. -/
def checkPieces (w : Watcher) : List CheckPiece :=
  [.code (txt "if ("), .shadow, .code (txt " !== "), .own w.target, .code (txt ") \x7b" ++ ['\n'])] ++
  (if w.isReference || !w.oldValueParameter.isEmpty then
    [.code (txt "var "), .previous, .code (txt " = "), .shadow, .code [';', '\n']] else []) ++
  [.shadow, .code (txt " = "), .own w.target, .code [';', '\n']] ++
  (if w.actionPieces.isEmpty then [] else w.actionPieces ++ [.code ['\n']]) ++
  [.code ['}']]

/-- What runs is its form with the names put in. -/
theorem action_eq (w : Watcher) (name : Text) :
    w.action (previousOf name) = w.actionPieces.flatMap (CheckPiece.source name) := by
  rw [action, actionPieces]
  split
  · simp [CheckPiece.source]
  · rw [← settledBody, substitute]
    split
    · rw [List.flatMap_map]
      exact (List.flatMap_singleton' w.settledBody).symm
    · -- Where the callback's name for the old value stands does not depend on what takes its place.
      have hpiece : ∀ piece : Piece Unit,
          Pattern.exchange (fun old _ => Replacement.expand (.fixed (previousOf name)) old) piece =
            (CheckPiece.ofPiece piece).source name := by
        rintro (c | _)
        · rfl
        · exact Replacement.expand_fixed ..
      rw [Renaming.apply, Pattern.replaceWith, List.flatMap_map]
      exact List.flatMap_congr fun piece _ => hpiece piece

/-- Nothing runs exactly when the form of what runs is empty. -/
theorem action_eq_nil_iff (w : Watcher) (name : Text) : w.action (previousOf name) = [] ↔ w.actionPieces = [] := by
  rw [action_eq]
  refine ⟨fun hnil => ?_, fun hnil => by rw [hnil, List.flatMap_nil]⟩
  rw [List.flatMap_eq_nil_iff] at hnil
  rw [actionPieces] at hnil ⊢
  split
  · next href =>
    rw [if_pos href] at hnil
    exact absurd (hnil (.code ['(']) (by simp)) (List.cons_ne_nil _ _)
  · next href =>
    rw [if_neg href] at hnil
    have hprevious : CheckPiece.source name .previous ≠ [] := List.append_ne_nil_of_left_ne_nil (by decide) name
    split
    · next hold =>
      rw [if_pos hold] at hnil
      rw [List.map_eq_nil_iff, List.eq_nil_iff_forall_not_mem]
      exact fun c hc => absurd (hnil _ (List.mem_map_of_mem hc)) (List.cons_ne_nil c [])
    · next hold =>
      rw [if_neg hold] at hnil
      rw [List.map_eq_nil_iff, List.eq_nil_iff_forall_not_mem]
      rintro (c | _) hc
      · exact absurd (hnil _ (List.mem_map_of_mem hc)) (List.cons_ne_nil c [])
      · exact absurd (hnil _ (List.mem_map_of_mem hc)) hprevious

/-- A check is its form with the names put in. -/
theorem check_eq (w : Watcher) (name : Text) :
    w.check name = w.checkPieces.flatMap (CheckPiece.source name) := by
  have hempty : (w.action (previousOf name)).isEmpty = w.actionPieces.isEmpty := by
    rw [Bool.eq_iff_iff, List.isEmpty_iff, List.isEmpty_iff, action_eq_nil_iff]
  -- The line for the old value and the action are each there or not.
  have hold : Text.unlines (if w.isReference || !w.oldValueParameter.isEmpty then
        [txt "var " ++ previousOf name ++ txt " = " ++ shadowOf name ++ [';']] else []) =
      (if w.isReference || !w.oldValueParameter.isEmpty then
        [.code (txt "var "), .previous, .code (txt " = "), .shadow, .code [';', '\n']] else []).flatMap
        (CheckPiece.source name) := by
    split
    · simp [Text.unlines, CheckPiece.source]
    · rfl
  have haction : Text.unlines (if (w.action (previousOf name)).isEmpty then [] else [w.action (previousOf name)]) =
      (if w.actionPieces.isEmpty then [] else w.actionPieces ++ [.code ['\n']]).flatMap (CheckPiece.source name) := by
    rw [hempty]
    split
    · rfl
    · simp [Text.unlines, CheckPiece.source, action_eq]
  rw [checkPieces, List.flatMap_append, List.flatMap_append, List.flatMap_append, List.flatMap_append, ← hold,
    ← haction]
  show Text.join ['\n'] (_ ++ [['}']]) = _
  rw [Text.join_concat, Text.unlines_append, Text.unlines_append, Text.unlines_append]
  simp only [Text.unlines, CheckPiece.source, shadowOf, List.flatMap_cons, List.flatMap_nil, List.append_assoc,
    List.append_nil, List.cons_append, List.nil_append]
  rfl

/-- A piece of a watcher's form stands for one of its two variables, or is a part of its target or body, or a word
in which neither variable is named. -/
def CheckPiece.Fits (w : Watcher) : CheckPiece → Prop
  | .code word => ¬txt "old" <:+: word ∧ ¬txt "previous" <:+: word
  | .own text => text = w.target ∨ text = w.body ∨ text <:+: w.settledBody
  | .shadow | .previous => True

/-- With the callback's own name for the old value put back, the pieces of a body are the body. -/
theorem original_pieces (w : Watcher) :
    ((Renaming.into [] [w.oldValueParameter]).occurrence.pieces w.settledBody).flatMap
      (fun piece => (CheckPiece.ofPiece piece).original w) = w.settledBody := by
  have hpiece : ∀ piece : Piece Unit,
      (CheckPiece.ofPiece piece).original w = Pattern.exchange (fun _ _ => w.oldValueParameter) piece := by
    rintro (c | _) <;> rfl
  simp only [hpiece]
  -- What is found is the name, so putting the name there changes nothing.
  refine Pattern.related_replaceWith ⟨fun _ => rfl, Eq.trans, fun front _ _ h => congrArg (front ++ ·) h⟩
    (f := fun _ _ => w.oldValueParameter) (fun after value rest hread => ?_) w.settledBody
  obtain ⟨name, hname, htext, -⟩ := Renaming.read_occurrence hread
  obtain rfl := List.mem_singleton.1 hname
  exact ⟨_, htext, rfl⟩

/-- The form of what runs has no place of the shadow, names the old value only where that is declared, and is, for a
callback written in place, its body up to the callback's name for the old value. -/
theorem actionPieces_spec (w : Watcher) :
    .shadow ∉ w.actionPieces ∧
      (.previous ∈ w.actionPieces → (w.isReference || !w.oldValueParameter.isEmpty) = true) ∧
      (∀ piece ∈ w.actionPieces, piece.Fits w) ∧
      (w.isReference = true ∨ w.actionPieces.flatMap (CheckPiece.original w) = w.settledBody) := by
  rw [actionPieces]
  split
  · next href =>
    refine ⟨by simp, by simp [href], ?_, .inl href⟩
    simp only [List.forall_mem_cons, List.not_mem_nil, false_implies, implies_true, CheckPiece.Fits, true_or, or_true,
      true_and, and_true]
    decide
  · next href =>
    have hown : ∀ c ∈ w.settledBody, CheckPiece.Fits w (.own [c]) := by
      intro c hc
      obtain ⟨before, after, hbody⟩ := List.append_of_mem hc
      exact .inr (.inr ⟨before, after, by simp [hbody]⟩)
    split
    · next hold =>
      refine ⟨by simp, by simp, List.forall_mem_map.2 hown, .inr ?_⟩
      rw [List.flatMap_map]
      exact List.flatMap_singleton' w.settledBody
    · next hold =>
      have hplain : ∀ c, .plain c ∈ (Renaming.into [] [w.oldValueParameter]).occurrence.pieces w.settledBody →
          c ∈ w.settledBody := by
        intro c hc
        rw [← Pattern.source_pieces (Renaming.into [] [w.oldValueParameter]).occurrence w.settledBody]
        exact List.mem_flatMap.2 ⟨_, hc, List.mem_singleton_self c⟩
      refine ⟨?_, fun _ => by simp [hold], List.forall_mem_map.2 ?_, .inr ?_⟩
      · rintro hmem
        obtain ⟨c | _, -, heq⟩ := List.mem_map.1 hmem <;> cases heq
      · rintro (c | _) hpiece
        · exact hown c (hplain c hpiece)
        · exact trivial
      · rw [List.flatMap_map]
        exact original_pieces w

/-- Outside of the watcher's own target and body the form of its check names only its two variables. -/
theorem fits_checkPieces (w : Watcher) : ∀ piece ∈ w.checkPieces, piece.Fits w := by
  have haction := (actionPieces_spec w).2.2.1
  have htarget : CheckPiece.Fits w (.own w.target) := .inl rfl
  have hwords : ∀ word ∈ [txt "if (", txt " !== ", txt ") \x7b" ++ ['\n'], txt "var ", txt " = ", [';', '\n'], ['\n'],
      ['}']], ¬txt "old" <:+: word ∧ ¬txt "previous" <:+: word := by
    decide
  have hword : ∀ word ∈ [txt "if (", txt " !== ", txt ") \x7b" ++ ['\n'], txt "var ", txt " = ", [';', '\n'], ['\n'],
      ['}']], CheckPiece.Fits w (.code word) := hwords
  simp only [List.forall_mem_cons, List.not_mem_nil, false_implies, implies_true, and_true] at hword
  obtain ⟨hif, hne, hopen, hvar, heq, hsemicolon, hbreak, hclose⟩ := hword
  refine List.forall_mem_append.2 ⟨List.forall_mem_append.2 ⟨List.forall_mem_append.2
    ⟨List.forall_mem_append.2 ⟨?_, ?_⟩, ?_⟩, ?_⟩, List.forall_mem_singleton.2 hclose⟩
  · simpa using ⟨hif, trivial, hne, htarget, hopen⟩
  · split
    · simpa using ⟨hvar, trivial, heq, trivial, hsemicolon⟩
    · simp
  · simpa using ⟨trivial, heq, htarget, hsemicolon⟩
  · split
    · simp
    · exact List.forall_mem_append.2 ⟨haction, List.forall_mem_singleton.2 hbreak⟩

/-- The declaration of the shadow variable that belongs to a name. -/
def declaration (name : Text) : Text := txt "var " ++ shadowOf name ++ txt " = undefined;"

/-- A declaration as it is written. -/
theorem declaration_eq : declaration = fun name => txt "var old" ++ name ++ txt " = undefined;" := by
  have hwords : txt "var " ++ txt "old" = txt "var old" := by decide
  funext name
  exact congrArg (· ++ txt " = undefined;")
    ((List.append_assoc (txt "var ") (txt "old") name).symm.trans (congrArg (· ++ name) hwords))

/-- The line that opens the hook. -/
def doCheckHead : Text := txt "ctrl.$doCheck = function () \x7b"

/-- The code for watchers, put together from its declarations and the forms of its checks. -/
theorem doCheckCode_eq (watchers : List Watcher) :
    doCheckCode watchers = if watchers.isEmpty then [] else
      Text.join ['\n'] ((shadowNames 0 [] watchers).map declaration ++ [doCheckHead, Text.join ['\n'] (List.zipWith
        (fun w name => w.checkPieces.flatMap (CheckPiece.source name)) watchers (shadowNames 0 [] watchers)),
        txt "\x7d;"]) := by
  have hwritten : doCheckCode watchers = if watchers.isEmpty then [] else
      Text.join ['\n'] ((shadowNames 0 [] watchers).map (fun name => txt "var old" ++ name ++ txt " = undefined;") ++
        [doCheckHead, Text.join ['\n'] (List.zipWith check watchers (shadowNames 0 [] watchers)), txt "\x7d;"]) := rfl
  have hdeclared := congrArg (fun write => (shadowNames 0 [] watchers).map write) declaration_eq
  have hchecks : (fun w name => w.checkPieces.flatMap (CheckPiece.source name)) = check :=
    funext fun w => funext fun name => (check_eq w name).symm
  rewrite [hwritten, hdeclared, hchecks]
  rfl

/-- Different names have different variables, and a shadow is no variable for an old value. -/
theorem nodup_variables {names : List Text} (h : names.Nodup) :
    (names.map shadowOf ++ names.map previousOf).Nodup := by
  refine List.nodup_append.2 ⟨h.map (List.append_right_injective _), h.map (List.append_right_injective _), ?_⟩
  rintro _ hshadow _ hprevious heq
  obtain ⟨name, -, rfl⟩ := List.mem_map.1 hshadow
  obtain ⟨other, -, rfl⟩ := List.mem_map.1 hprevious
  -- They differ in the first letter.
  exact absurd (List.cons.inj heq).1 (by decide)

end Watcher

open Watcher in
/-- The code for watchers ends, and declares one shadow variable for each of them, in order and before the hook.
The name of a watcher's shadow is the first one that no earlier watcher has, among its plain name and what copies of
the digits of its index make of it. The shadows and the variables for old values are all different. In the hook stands
one check for each watcher: its own form with its two variables put in, which compares the shadow with the target
and then updates the shadow; outside of the target and the body the form holds words in which no variable is named. -/
theorem doCheckCode_shadows (watchers : List Watcher) :
    ∃ names : List Text, names.length = watchers.length ∧
      (∀ (i : Nat) (w : Watcher) (name : Text), watchers[i]? = some w → names[i]? = some name →
        FirstUnused (names.take i) (Text.ofNat i) (w.plainName i) name) ∧
      (names.map shadowOf ++ names.map previousOf).Nodup ∧
      doCheckCode watchers = (if watchers.isEmpty then [] else
        Text.join ['\n'] (names.map declaration ++ [doCheckHead, Text.join ['\n'] (List.zipWith
          (fun w name => w.checkPieces.flatMap (CheckPiece.source name)) watchers names), txt "\x7d;"])) ∧
      (watchers = [] ∨ ∃ after, (doCheckCode watchers).lines = names.map declaration ++ doCheckHead :: after) ∧
      ∀ w ∈ watchers, (∀ piece ∈ w.checkPieces, piece.Fits w) ∧ .shadow ∉ w.actionPieces ∧
        (.previous ∈ w.actionPieces → (w.isReference || !w.oldValueParameter.isEmpty) = true) ∧
        (w.isReference = true ∨ w.actionPieces.flatMap (CheckPiece.original w) = w.settledBody) := by
  have hnames : ∀ (i : Nat) (w : Watcher) (name : Text), watchers[i]? = some w →
      (shadowNames 0 [] watchers)[i]? = some name →
      FirstUnused ((shadowNames 0 [] watchers).take i) (Text.ofNat i) (w.plainName i) name := by
    intro i w name hw hname
    simpa using shadowNames_spec hw hname
  have hcode := doCheckCode_eq watchers
  refine ⟨shadowNames 0 [] watchers, length_shadowNames 0 [] watchers, hnames,
    nodup_variables (nodup_shadowNames 0 List.nodup_nil watchers), hcode, ?_, fun w _ => ?_⟩
  · by_cases hnil : watchers = []
    · exact .inl hnil
    · refine .inr ⟨(Text.join ['\n'] [Text.join ['\n'] (List.zipWith
        (fun w name => w.checkPieces.flatMap (CheckPiece.source name)) watchers (shadowNames 0 [] watchers)),
        txt "\x7d;"]).lines, ?_⟩
      have hdeclared : ∀ line ∈ (shadowNames 0 [] watchers).map declaration, '\n' ∉ line := by
        refine List.forall_mem_map.2 fun name hname => ?_
        obtain ⟨i, hi, hget⟩ := List.mem_iff_getElem.1 hname
        have hwatcher : i < watchers.length := by simpa using hi
        have hbreak := break_notMem_of_firstUnused
          (hnames i watchers[i] name (List.getElem?_eq_getElem hwatcher) (hget ▸ List.getElem?_eq_getElem hi))
        have hwords : '\n' ∉ txt "var " ++ txt "old" ∧ '\n' ∉ txt " = undefined;" := by decide
        simp only [declaration, shadowOf, List.mem_append, not_or] at hwords ⊢
        exact ⟨⟨hwords.1.1, hwords.1.2, hbreak⟩, hwords.2⟩
      rw [hcode, if_neg (by simpa using hnil), Text.lines_join_append hdeclared (List.cons_ne_nil _ _), Text.join,
        List.append_assoc, List.singleton_append, Text.lines_append_break,
        Text.lines_eq_singleton (show '\n' ∉ doCheckHead by decide), List.singleton_append]
  · obtain ⟨hshadow, hprevious, -, hbody⟩ := actionPieces_spec w
    exact ⟨fits_checkPieces w, hshadow, hprevious, hbody⟩

end AngularUplift
