import AngularUplift.Text.Identifier
import Mathlib.Data.Set.Function

/-!
# Spellings of a name

Spelling a name in Pascal case takes characters away and writes others in upper case. So a class of characters that
is closed under upper case is kept, and these lemmas say so for the classes that matter where a name is written
into code: the characters other than line breaks, and the ASCII characters of an identifier.

The dashed spelling puts a dash before each ASCII capital and writes it in lower case, and the camel-case spelling
undoes exactly that. Nothing is lost on the way, unless the name has marks of its own that look like such a dash, or
begins with a character that the dashed spelling writes in lower case without a dash.

## Main definitions

* `Text.IsCamelCase`: a name that can be read off its dashed spelling.

## Main statements

* `Text.forall_mem_pascalCase`: what upper case keeps of characters is kept by Pascal case.
* `Text.break_notMem_pascalCase`: a name without line breaks has none in Pascal case.
* `Text.isName_pascalCase`: an identifier written in ASCII is one in Pascal case.
* `Text.IsCamelCase.dashToCamel_camelToDash`: the camel-case spelling undoes the dashed one.
* `Text.injOn_camelToDash`: different names have different dashed spellings.
-/

namespace AngularUplift

/-- Upper case of an ASCII character is a single character. -/
theorem upper_eq_singleton {c : Char} (h : c.toNat < 0x80) : upper c = [c.toUpper] := if_pos h

/-- A character that can stand after a dash and lose it is an ASCII character. -/
theorem toNat_lt_of_isLatin_or_isDecimal {c : Char} (h : (isLatin c || isDecimal c) = true) : c.toNat < 0x80 := by
  simp only [isLatin, isDecimal, Bool.or_eq_true, Bool.and_eq_true, decide_eq_true_eq] at h
  -- The order of characters is the order of their code points.
  have hle : ∀ d e : Char, d ≤ e → d.toNat ≤ e.toNat := fun d e hde => hde
  rcases h with (⟨-, hlast⟩ | ⟨-, hlast⟩) | ⟨-, hlast⟩
  · exact Nat.lt_of_le_of_lt (hle _ _ hlast) (by decide)
  · exact Nat.lt_of_le_of_lt (hle _ _ hlast) (by decide)
  · exact Nat.lt_of_le_of_lt (hle _ _ hlast) (by decide)

/-- Beyond the control characters no code point is that of a line break. -/
theorem ofNat_ne_break {code : Nat} (h : 0x20 ≤ code) : Char.ofNat code ≠ '\n' := by
  rw [Char.ofNat]
  by_cases hvalid : code.isValidChar
  · rw [dif_pos hvalid]
    intro heq
    have hcode : code = 10 := congrArg Char.toNat heq
    omega
  · rw [dif_neg hvalid]
    decide

/-- What holds of the first code points holds of the ASCII characters. -/
theorem forall_ascii {P : Char → Prop} (h : ∀ code < 0x80, P (Char.ofNat code)) {c : Char} (hc : c.toNat < 0x80) :
    P c := by
  have hcode := h c.toNat hc
  rwa [Char.ofNat_toNat] at hcode

/-- The upper case of an ASCII character of a name is an ASCII character of a name. -/
theorem isName_of_mem_upper {c : Char} (h : c.toNat < 0x80 ∧ isName c) :
    ∀ d ∈ upper c, d.toNat < 0x80 ∧ isName d := by
  intro d hd
  rw [upper_eq_singleton h.1, List.mem_singleton] at hd
  rw [hd]
  exact forall_ascii (P := fun c => isName c → c.toUpper.toNat < 0x80 ∧ isName c.toUpper) (by decide) h.1 h.2

/-- The upper case of a character other than a line break has no line break. -/
theorem break_notMem_upper {c : Char} (h : c ≠ '\n') : '\n' ∉ upper c := by
  rw [upper]
  split
  · next hascii =>
    -- Below U+0080 there are few enough characters to look at each of them.
    exact forall_ascii (P := fun c => c ≠ '\n' → '\n' ∉ [c.toUpper]) (by decide) hascii h
  · next hascii =>
    rw [casePartner]
    split
    · next codes hcodes =>
      have hall : ∀ entry ∈ Unicode.upperExpansions, '\n' ∉ entry.2.map Char.ofNat := by decide +kernel
      obtain ⟨entry, hentry, -, rfl⟩ : ∃ entry ∈ Unicode.upperExpansions, entry.1 = c.toNat ∧ entry.2 = codes := by
        obtain ⟨front, back, hsplit, -⟩ := List.lookup_eq_some_iff.1 hcodes
        exact ⟨_, hsplit ▸ List.mem_append_right front List.mem_cons_self, rfl, rfl⟩
      exact hall entry hentry
    · -- Every run of the table stays above the control characters.
      have hruns : ∀ run ∈ Unicode.upperRuns, (0x20 : Int) ≤ run.first + run.shift := by decide +kernel
      rw [List.mem_singleton]
      cases hfound : Unicode.upperRuns.findSome? (·.shifted? c.toNat) with
      | none =>
        intro heq
        exact h heq.symm
      | some code =>
        obtain ⟨run, hrun, hshifted⟩ := List.exists_of_findSome?_eq_some hfound
        have hfirst := hruns run hrun
        rw [Unicode.CaseRun.shifted?, Option.ite_none_right_eq_some] at hshifted
        simp only [Bool.and_eq_true, decide_eq_true_eq, Option.some.injEq] at hshifted
        obtain ⟨⟨⟨hle, -⟩, -⟩, rfl⟩ := hshifted
        exact (ofNat_ne_break (by omega)).symm

namespace Text

/-- What upper case keeps of characters is kept by the camel-case spelling. -/
theorem forall_mem_dashToCamel {P : Char → Prop} (hupper : ∀ c, P c → ∀ d ∈ upper c, P d) {name : Text}
    (h : ∀ c ∈ name, P c) : ∀ c ∈ dashToCamel name, P c := by
  fun_induction dashToCamel name with
  | case1 => exact h
  | case2 c => exact h
  | case3 c d rest hmark ih =>
    obtain ⟨-, hd, hrest⟩ : P c ∧ P d ∧ ∀ e ∈ rest, P e := by simpa using h
    have hsingle := upper_eq_singleton (toNat_lt_of_isLatin_or_isDecimal (Bool.and_eq_true .. ▸ hmark).2)
    exact List.forall_mem_cons.2 ⟨hupper d hd _ (hsingle ▸ List.mem_singleton_self _), ih hrest⟩
  | case4 c d rest hmark ih =>
    obtain ⟨hc, hrest⟩ := List.forall_mem_cons.1 h
    exact List.forall_mem_cons.2 ⟨hc, ih hrest⟩

/-- What upper case keeps of characters is kept by the Pascal-case spelling. -/
theorem forall_mem_pascalCase {P : Char → Prop} (hupper : ∀ c, P c → ∀ d ∈ upper c, P d) {name : Text}
    (h : ∀ c ∈ name, P c) : ∀ c ∈ pascalCase name, P c := by
  have hcamel := forall_mem_dashToCamel hupper h
  rw [pascalCase]
  cases hname : dashToCamel name with
  | nil => exact fun c hc => absurd hc List.not_mem_nil
  | cons first rest =>
    rw [hname] at hcamel
    obtain ⟨hfirst, hrest⟩ := List.forall_mem_cons.1 hcamel
    exact List.forall_mem_append.2 ⟨hupper first hfirst, hrest⟩

/-- A name without line breaks has none in Pascal case. -/
theorem break_notMem_pascalCase {name : Text} (h : '\n' ∉ name) : '\n' ∉ pascalCase name := by
  have hkept := forall_mem_pascalCase (P := (· ≠ '\n')) (fun c hc d hd heq => break_notMem_upper hc (heq ▸ hd))
    (fun c hc heq => h (heq ▸ hc))
  exact fun hmem => hkept _ hmem rfl

/-- No name becomes empty in camel case. -/
theorem dashToCamel_ne_nil {name : Text} (h : name ≠ []) : dashToCamel name ≠ [] := by
  fun_cases dashToCamel name with
  | case1 => exact absurd rfl h
  | case2 c => exact List.cons_ne_nil c []
  | case3 => exact List.cons_ne_nil _ _
  | case4 => exact List.cons_ne_nil _ _

/-- An identifier written in ASCII is one in Pascal case. -/
theorem isName_pascalCase {name : Text} (h : ∀ c ∈ name, c.toNat < 0x80 ∧ isName c) :
    ∀ c ∈ pascalCase name, c.toNat < 0x80 ∧ isName c :=
  forall_mem_pascalCase (P := fun c => c.toNat < 0x80 ∧ isName c) (fun _ => isName_of_mem_upper) h

/-- No identifier written in ASCII becomes empty in Pascal case. -/
theorem pascalCase_ne_nil {name : Text} (hne : name ≠ []) (h : ∀ c ∈ name, c.toNat < 0x80 ∧ isName c) :
    pascalCase name ≠ [] := by
  have hcamel := forall_mem_dashToCamel (P := fun c => c.toNat < 0x80 ∧ isName c) (fun _ => isName_of_mem_upper) h
  obtain ⟨first, rest, hname⟩ := List.exists_cons_of_ne_nil (dashToCamel_ne_nil hne)
  rw [hname] at hcamel
  rw [pascalCase, hname, capitalise, upper_eq_singleton (hcamel first List.mem_cons_self).1]
  exact List.cons_ne_nil _ _

/-- The dashed spelling of an identifier written in ASCII has its characters and dashes, and at least one of them. -/
theorem camelToDash_spec {name : Text} (hne : name ≠ []) (h : ∀ c ∈ name, c.toNat < 0x80 ∧ isName c) :
    camelToDash name ≠ [] ∧ ∀ c ∈ camelToDash name, isName c ∨ c = '-' := by
  obtain ⟨first, rest, rfl⟩ := List.exists_cons_of_ne_nil hne
  obtain ⟨hfirst, hrest⟩ := List.forall_mem_cons.1 h
  have hlower : lower first = [first.toLower] := if_pos hfirst.1
  have hkept : first.toLower.toNat < 0x80 ∧ isName first.toLower :=
    forall_ascii (P := fun c => isName c → c.toLower.toNat < 0x80 ∧ isName c.toLower) (by decide) hfirst.1 hfirst.2
  have hdash : ∀ c : Char, c.toNat < 0x80 ∧ isName c → ∀ d ∈ dashCapital c, isName d ∨ d = '-' := by
    intro c hc d hd
    have hall := forall_ascii (P := fun c => isName c → (dashCapital c).all fun d => isName d || d == '-') (by decide)
      hc.1 hc.2
    simpa using List.all_eq_true.1 hall d hd
  have hchars : ∀ c ∈ first.toLower :: rest, c.toNat < 0x80 ∧ isName c := List.forall_mem_cons.2 ⟨hkept, hrest⟩
  -- The first letter loses its case, and then each character is exchanged on its own.
  rw [camelToDash, decapitalise, hlower, List.singleton_append]
  constructor
  · rw [List.flatMap_cons, dashCapital]
    split
    · exact List.cons_ne_nil _ _
    · exact List.cons_ne_nil _ _
  · intro d hd
    obtain ⟨c, hc, hmem⟩ := List.mem_flatMap.1 hd
    exact hdash c (hchars c hc) d hmem

/-! ### Back from the dashed spelling -/

/-- A name that the dashed spelling does not mistake: it has none of the marks that stand before a letter in other
spellings, and its first character is the same in lower case. -/
structure IsCamelCase (name : Text) : Prop where
  /-- There is no dash, underscore or dot. -/
  no_mark : ∀ c ∈ name, c ≠ '-' ∧ c ≠ '_' ∧ c ≠ '.'
  /-- The first character is its own lower case. -/
  first_lower : ∀ c ∈ name.head?, lower c = [c]

theorem isCamelCase_iff {name : Text} :
    IsCamelCase name ↔
      (name.all fun c => c != '-' && c != '_' && c != '.') = true ∧ (name.head?.all fun c => lower c == [c]) = true := by
  simp only [List.all_eq_true, Option.all_eq_true, Bool.and_eq_true, bne_iff_ne, beq_iff_eq, and_assoc]
  exact ⟨fun h => ⟨h.no_mark, h.first_lower⟩, fun h => ⟨h.1, h.2⟩⟩

instance (name : Text) : Decidable (IsCamelCase name) := decidable_of_iff' _ isCamelCase_iff

/-- The camel-case spelling keeps a character that is no mark. -/
theorem dashToCamel_cons {c : Char} (h : c ≠ '-' ∧ c ≠ '_' ∧ c ≠ '.') (rest : Text) :
    dashToCamel (c :: rest) = c :: dashToCamel rest := by
  cases rest with
  | nil => rfl
  | cons d rest =>
    rw [dashToCamel, if_neg]
    simp [h]

/-- The camel-case spelling gives a capital back for its dash and lower case. -/
theorem dashToCamel_dashCapital {c : Char} (h : c ≠ '-' ∧ c ≠ '_' ∧ c ≠ '.') (rest : Text) :
    dashToCamel (dashCapital c ++ rest) = c :: dashToCamel rest := by
  rw [dashCapital]
  split
  · next hcapital =>
    have hascii : c.toNat < 0x80 := toNat_lt_of_isLatin_or_isDecimal (by simp [isLatin, hcapital])
    obtain ⟨hletter, hback⟩ := forall_ascii
      (P := fun c => ('A' ≤ c && c ≤ 'Z') = true → isLatin c.toLower = true ∧ c.toLower.toUpper = c) (by decide)
      hascii hcapital
    show dashToCamel ('-' :: c.toLower :: rest) = _
    rw [dashToCamel, if_pos (by simp [hletter]), hback]
  · exact dashToCamel_cons h rest

/-- Each capital is given back where its dash stands, and nothing else changes. -/
theorem dashToCamel_flatMap_dashCapital {name : Text} (h : ∀ c ∈ name, c ≠ '-' ∧ c ≠ '_' ∧ c ≠ '.') :
    dashToCamel (name.flatMap dashCapital) = name := by
  induction name with
  | nil => rfl
  | cons c name ih =>
    obtain ⟨hc, hname⟩ := List.forall_mem_cons.1 h
    rw [List.flatMap_cons, dashToCamel_dashCapital hc, ih hname]

/-- Without marks a name is its own camel-case spelling. -/
theorem dashToCamel_eq_self {name : Text} (h : ∀ c ∈ name, c ≠ '-' ∧ c ≠ '_' ∧ c ≠ '.') : dashToCamel name = name := by
  induction name with
  | nil => rfl
  | cons c name ih =>
    obtain ⟨hc, hname⟩ := List.forall_mem_cons.1 h
    rw [dashToCamel_cons hc, ih hname]

namespace IsCamelCase

variable {name : Text}

/-- The first character stays as it is, so that only capitals change. -/
theorem camelToDash_eq (h : IsCamelCase name) : camelToDash name = name.flatMap dashCapital := by
  cases name with
  | nil => rfl
  | cons c name => rw [camelToDash, decapitalise, h.first_lower c rfl, List.singleton_append]

/-- The camel-case spelling undoes the dashed one. -/
theorem dashToCamel_camelToDash (h : IsCamelCase name) : dashToCamel (camelToDash name) = name := by
  rw [h.camelToDash_eq, dashToCamel_flatMap_dashCapital h.no_mark]

/-- A name and its dashed spelling have the same Pascal case. -/
theorem pascalCase_camelToDash (h : IsCamelCase name) : pascalCase (camelToDash name) = pascalCase name := by
  rw [pascalCase, h.dashToCamel_camelToDash, pascalCase, dashToCamel_eq_self h.no_mark]

end IsCamelCase

/-- Different names have different dashed spellings. -/
theorem injOn_camelToDash : Set.InjOn camelToDash {name | IsCamelCase name} := by
  have hback : Set.LeftInvOn dashToCamel camelToDash {name | IsCamelCase name} :=
    fun _ h => IsCamelCase.dashToCamel_camelToDash h
  exact hback.injOn

end Text

end AngularUplift
