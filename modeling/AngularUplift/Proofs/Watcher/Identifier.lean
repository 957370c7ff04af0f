import AngularUplift.Proofs.Watcher.Shadow

/-!
# Which shadow variables are identifiers

A shadow variable is named after the watched expression. Of its characters those of identifiers are kept, and the dots
and dashes with them, so that the spelling in Pascal case can take these away and write what follows in upper case. It
takes a dot or a dash away only before an ASCII letter or digit: before a dollar sign, as in `form.$valid`, before
another mark and at the end they stay, and then the variable is no identifier. Upper case can put a character that
belongs to no identifier into a name as well, when a letter has no capital of its own and a mark is put above another
letter for it. There is no third way.

## Main definitions

* `Text.MarksJoin`: every dot and dash of a text stands before an ASCII letter or digit.
* `Watcher.Nameable`: the watchers whose variables are identifiers.

## Main statements

* `Text.isName_dashToCamel_iff`, `Text.isName_pascalCase_iff`: when a spelling has characters of identifiers only.
* `Watcher.doCheckCode_identifiers`: which of the variables in the code for watchers are identifiers.
-/

namespace AngularUplift

namespace Text

/-! ### Marks that a spelling takes away -/

/-- Every dot and dash of a text stands right before an ASCII letter or digit. -/
def MarksJoin (text : Text) : Prop :=
  ∀ before mark after, text = before ++ mark :: after → mark = '.' ∨ mark = '-' →
    ∃ next ∈ after.head?, isLatin next ∨ isDecimal next

/-- The marks of a text are its first character, if that is one, and those of the rest. -/
theorem marksJoin_cons {c : Char} {text : Text} :
    MarksJoin (c :: text) ↔
      (c = '.' ∨ c = '-' → ∃ next ∈ text.head?, isLatin next ∨ isDecimal next) ∧ MarksJoin text := by
  constructor
  · intro h
    refine ⟨h [] c text rfl, fun before mark after hsplit => ?_⟩
    exact h (c :: before) mark after (by rw [hsplit, List.cons_append])
  · rintro ⟨hfirst, hrest⟩ before mark after hsplit
    cases before with
    | nil =>
      obtain ⟨rfl, rfl⟩ := List.cons.inj hsplit
      exact hfirst
    | cons d before => exact hrest before mark after (List.cons.inj hsplit).2

/-- A dot and a dash are no characters of identifiers. -/
theorem not_mark_of_isName {c : Char} (h : isName c) : ¬(c = '.' ∨ c = '-') := by
  rintro (rfl | rfl) <;> exact absurd h (by decide)

/-- The capital of an ASCII letter or digit is a character of identifiers, and so is the letter or digit itself. -/
theorem isName_of_isLatin_or_isDecimal {c : Char} (h : isLatin c ∨ isDecimal c) :
    isName c ∧ c.toUpper.toNat < 0x80 ∧ isName c.toUpper := by
  have hascii := toNat_lt_of_isLatin_or_isDecimal (by simpa using h)
  exact forall_ascii (P := fun c => isLatin c ∨ isDecimal c → isName c ∧ c.toUpper.toNat < 0x80 ∧ isName c.toUpper)
    (by decide) hascii h

/-- The camel-case spelling of a text of identifier characters, dots and dashes takes away every dot and dash exactly
when each of them joins a letter or digit. -/
theorem isName_dashToCamel_iff {text : Text} (h : ∀ c ∈ text, isName c ∨ c = '.' ∨ c = '-') :
    (∀ c ∈ dashToCamel text, isName c) ↔ MarksJoin text := by
  fun_induction dashToCamel text with
  | case1 => simp [MarksJoin]
  | case2 c =>
    have hnone : MarksJoin [] := by simp [MarksJoin]
    rw [marksJoin_cons, and_iff_left hnone]
    rcases h c List.mem_cons_self with hname | hmark
    · simp [hname, not_mark_of_isName hname]
    · have hnot : ¬isName c := fun hname => not_mark_of_isName hname hmark
      simp [hnot, hmark]
  | case3 c d rest hmark ih =>
    -- The mark goes, and what it joins is no mark itself.
    obtain ⟨-, -, hrest⟩ : _ ∧ _ ∧ ∀ e ∈ rest, isName e ∨ e = '.' ∨ e = '-' := by
      simpa only [List.forall_mem_cons] using h
    have hjoined : isLatin d ∨ isDecimal d := Bool.or_eq_true_iff.1 (Bool.and_eq_true_iff.1 hmark).2
    obtain ⟨hname, -, hcapital⟩ := isName_of_isLatin_or_isDecimal hjoined
    rw [marksJoin_cons, marksJoin_cons, List.forall_mem_cons, ih hrest]
    simp only [hcapital, true_and, not_mark_of_isName hname, false_implies]
    exact (and_iff_right fun _ => ⟨d, rfl, hjoined⟩).symm
  | case4 c d rest hmark ih =>
    obtain ⟨hc, hrest⟩ := List.forall_mem_cons.1 h
    rw [marksJoin_cons, List.forall_mem_cons, ih hrest]
    refine and_congr_left fun _ => ?_
    rcases hc with hname | hstays
    · simp [hname, not_mark_of_isName hname]
    · -- The mark was left, so what follows it is no letter and no digit.
      have hnot : ¬isName c := fun hname => not_mark_of_isName hname hstays
      have hother : ¬(isLatin d ∨ isDecimal d) := by
        rcases hstays with rfl | rfl <;> simpa using hmark
      simpa [hnot, hstays] using hother

/-- The spelling in Pascal case of a text of identifier characters, dots and dashes has characters of identifiers only,
exactly when every dot and dash joins a letter or digit and the first character, if it can stand in an identifier, has a
capital that can. -/
theorem isName_pascalCase_iff {text : Text} (h : ∀ c ∈ text, isName c ∨ c = '.' ∨ c = '-') :
    (∀ c ∈ pascalCase text, isName c) ↔
      MarksJoin text ∧ ∀ first ∈ text.head?, isName first → ∀ c ∈ upper first, isName c := by
  -- The first character of the camel-case spelling is that of the text, or what a mark at the beginning joins.
  have hfirst : ∀ c camel, (isName c ∨ c = '.' ∨ c = '-') → ((∀ d ∈ c :: camel, isName d) ↔ MarksJoin text) →
      ((∀ d ∈ upper c ++ camel, isName d) ↔ MarksJoin text ∧ (isName c → ∀ d ∈ upper c, isName d)) := by
    intro c camel hc hjoin
    rw [← hjoin, List.forall_mem_append, List.forall_mem_cons]
    rcases hc with hname | hmark
    · simp only [hname, true_and, true_implies]
      exact and_comm
    · have hnot : ¬isName c := fun hname => not_mark_of_isName hname hmark
      have hupper : c ∈ upper c := by rcases hmark with rfl | rfl <;> decide
      exact iff_of_false (fun hall => hnot (hall.1 c hupper)) fun hall => hnot hall.1.1
  have hcamel := isName_dashToCamel_iff h
  rw [pascalCase]
  fun_cases dashToCamel text with
  | case1 => simp [capitalise, MarksJoin]
  | case2 c => simpa [capitalise, dashToCamel] using hfirst c [] (h c List.mem_cons_self) hcamel
  | case3 c d rest hmark =>
    obtain ⟨hmarks, hjoined⟩ := Bool.and_eq_true_iff.1 hmark
    obtain ⟨-, hascii, hcapital⟩ := isName_of_isLatin_or_isDecimal (Bool.or_eq_true_iff.1 hjoined)
    have hupper : ∀ e ∈ upper d.toUpper, isName e := fun e he => (isName_of_mem_upper ⟨hascii, hcapital⟩ e he).2
    -- Of the marks only the underscore can stand in an identifier, and it is its own capital.
    have hunderscore : ∀ first ∈ (c :: d :: rest).head?, isName first → ∀ e ∈ upper first, isName e := by
      simp only [Bool.or_eq_true, beq_iff_eq] at hmarks
      rintro _ ⟨⟩
      rcases hmarks with (rfl | rfl) | rfl
      · exact fun hdash => absurd hdash (by decide)
      · exact fun _ => List.all_eq_true.1 (by decide)
      · exact fun hdot => absurd hdot (by decide)
    rw [dashToCamel, if_pos hmark] at hcamel
    rw [capitalise, hfirst d.toUpper (dashToCamel rest) (.inl hcapital) hcamel, and_iff_left fun _ => hupper,
      and_iff_left hunderscore]
  | case4 c d rest hmark =>
    rw [dashToCamel, if_neg hmark] at hcamel
    simpa [capitalise] using hfirst c (dashToCamel (d :: rest)) (h c List.mem_cons_self) hcamel

end Text

namespace Watcher

/-! ### The names of shadow variables -/

/-- The characters of a watcher's label that the name of its shadow variable is made of. -/
def keptLabel (index : Nat) (w : Watcher) : Text :=
  (w.label index).filter fun c => isName c || c == '.' || c == '-'

/-- A watcher whose shadow variable can be an identifier. -/
structure Nameable (index : Nat) (w : Watcher) : Prop where
  /-- Every dot and dash that was kept joins an ASCII letter or digit. -/
  marksJoin : (w.keptLabel index).MarksJoin
  /-- The first character that was kept, if it can stand in an identifier, has a capital that can. -/
  isName_upper : ∀ first ∈ (w.keptLabel index).head?, isName first → ∀ c ∈ upper first, isName c

/-- The digits of a number can stand in an identifier. -/
theorem isName_ofNat (n : Nat) : ∀ c ∈ Text.ofNat n, isName c := by
  intro c hc
  have hdigit : c.isDigit := Nat.isDigit_of_mem_toDigits (by decide) (by decide) hc
  have hascii : c.toNat < 0x80 := Nat.lt_of_le_of_lt (Char.isDigit_iff_toNat.1 hdigit).2 (by decide)
  exact forall_ascii (P := fun c => c.isDigit → isName c) (by decide) hascii hdigit

/-- The plain name of a shadow variable has characters of identifiers only when the watcher is nameable. -/
theorem isName_plainName_iff (index : Nat) (w : Watcher) : (∀ c ∈ w.plainName index, isName c) ↔ w.Nameable index := by
  have hkept : ∀ c ∈ w.keptLabel index, isName c ∨ c = '.' ∨ c = '-' := by
    intro c hc
    simpa [or_assoc] using (List.mem_filter.1 hc).2
  have hpascal := Text.isName_pascalCase_iff hkept
  have hnameable : (∀ c ∈ Text.pascalCase (w.keptLabel index), isName c) ↔ w.Nameable index :=
    hpascal.trans ⟨fun ⟨hmarks, hupper⟩ => ⟨hmarks, hupper⟩, fun h => ⟨h.marksJoin, h.isName_upper⟩⟩
  rw [← hnameable, plainName]
  change (∀ c ∈ if (Text.pascalCase (w.keptLabel index)).isEmpty then _ else _, isName c) ↔ _
  split
  · -- Nothing was kept, and the digits of the index stand for it.
    next hempty =>
    rw [List.isEmpty_iff.1 hempty]
    exact iff_of_true (isName_ofNat index) (List.forall_mem_nil _)
  · rfl

/-- What a name becomes by copies of the digits of a number has characters of identifiers only when the name has. -/
theorem isName_extended_iff (index : Nat) (name : Text) (copies : Nat) :
    (∀ c ∈ extended (Text.ofNat index) name copies, isName c) ↔ ∀ c ∈ name, isName c := by
  rw [extended, List.forall_mem_append]
  refine and_iff_left fun c hc => ?_
  obtain ⟨copy, hcopy, hmem⟩ := List.mem_flatten.1 hc
  exact isName_ofNat index c (List.eq_of_mem_replicate hcopy ▸ hmem)

/-- Behind a word of identifier characters a name makes an identifier when its own characters are such. -/
theorem isName_append_iff {word : Text} (hword : IsName word) (name : Text) :
    IsName (word ++ name) ↔ ∀ c ∈ name, isName c := by
  rw [IsName, List.forall_mem_append, and_iff_right (List.append_ne_nil_of_left_ne_nil hword.1 name),
    and_iff_right hword.2]

/-- The variables that belong to a name are identifiers when the characters of the name are such. -/
theorem isName_variables_iff (name : Text) :
    (IsName (shadowOf name) ↔ ∀ c ∈ name, isName c) ∧ (IsName (previousOf name) ↔ ∀ c ∈ name, isName c) :=
  ⟨isName_append_iff (by decide) name, isName_append_iff (by decide) name⟩

/-- In the code for watchers the two variables of a watcher, the shadow and the one for the old value, are identifiers
exactly when the watcher is nameable: when every dot and dash that is kept of its label joins an ASCII letter or digit,
and the capital of the first character is made of identifier characters. -/
theorem doCheckCode_identifiers (watchers : List Watcher) :
    ∃ names : List Text, names.length = watchers.length ∧
      doCheckCode watchers = (if watchers.isEmpty then [] else
        Text.join ['\n'] (names.map declaration ++ [doCheckHead, Text.join ['\n'] (List.zipWith
          (fun w name => w.checkPieces.flatMap (CheckPiece.source name)) watchers names), txt "\x7d;"])) ∧
      ∀ (i : Nat) (w : Watcher) (name : Text), watchers[i]? = some w → names[i]? = some name →
        (IsName (shadowOf name) ↔ w.Nameable i) ∧ (IsName (previousOf name) ↔ w.Nameable i) := by
  refine ⟨shadowNames 0 [] watchers, length_shadowNames 0 [] watchers, doCheckCode_eq watchers, ?_⟩
  intro i w name hw hname
  obtain ⟨-, copies, -, rfl, -⟩ := shadowNames_spec hw hname
  obtain ⟨hshadow, hprevious⟩ := isName_variables_iff (extended (Text.ofNat (0 + i)) (w.plainName (0 + i)) copies)
  rw [hshadow, hprevious, isName_extended_iff, isName_plainName_iff, Nat.zero_add]
  exact ⟨Iff.rfl, Iff.rfl⟩

/-- The watcher of a form's state, and the watcher of a name whose first letter has no capital of its own: the capital
iota in its place has two marks above it, which are characters of their own. -/
theorem form_state_not_identifier :
    let dotted := doCheckCode (extractWatchers (txt "$scope.$watch('form.$valid', check);")).1
    let marked := doCheckCode (extractWatchers (txt "$scope.$watch('\u0390', check);")).1
    (txt "var oldForm.$valid = undefined;" ∈ dotted.lines ∧ ¬IsName (txt "oldForm.$valid") ∧
        txt "var previousForm.$valid = oldForm.$valid;" ∈ dotted.lines ∧ ¬IsName (txt "previousForm.$valid")) ∧
      txt "var old\u0399\u0308\u0301 = undefined;" ∈ marked.lines ∧ ¬IsName (txt "old\u0399\u0308\u0301") := by
  decide +kernel

end Watcher

end AngularUplift
