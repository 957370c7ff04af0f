import AngularUplift.Proofs.Construct.Totality
import AngularUplift.Proofs.Registration.Name

/-!
# The recognised registration and the analysed one

A text is taken for a construct when it has a call of the construct's keyword as a member, with a point before the
keyword. What is analysed then is the first call of the keyword at the edge of a word. The two are the same call unless
one without a point comes first: then the construct gets the name that this other call has quoted.

## Main definitions

* `ConstructKind.keyword?`, `Model.name?`: the keyword of a kind, and the name of a model.
* `Registration.MemberCallAt`: a call of a keyword as a member at a position of a text.

## Main statements

* `Registration.isLeast_memberCallAt`: the registration by which a construct is recognised.
* `settles_name`: a model has the name that is found for the keyword.
* `name_of_recognised`: whose name the model of a text that is recognised has.
-/

namespace AngularUplift

namespace Registration

/-- A call of a keyword as a member: a point comes right before the position. -/
inductive MemberCallAt (text keyword : Text) : (position : Nat) → Prop
  /-- What comes before the point, and the call. -/
  | intro {before after rest : Text} {opened : Nat} (htext : text = before ++ '.' :: after)
      (hcalls : Calls keyword after opened rest) : MemberCallAt text keyword (before.length + 1)

variable {text keyword after rest : Text} {opened : Nat}

/-- A call of a keyword behind a point begins with the point. -/
theorem Calls.of_point (h : Calls ('.' :: keyword) text opened rest) :
    ∃ after opened, text = '.' :: after ∧ Calls keyword after opened rest := by
  cases h with
  | intro hgap hspace hmark => exact ⟨_, _, List.cons_append, .intro hgap hspace hmark⟩

/-- A call of a keyword with a point before it. -/
theorem Calls.point (h : Calls keyword after opened rest) :
    ∃ opened, Calls ('.' :: keyword) ('.' :: after) opened rest := by
  cases h with
  | intro hgap hspace hmark =>
    rw [← List.cons_append]
    exact ⟨_, .intro hgap hspace hmark⟩

/-- The search for registrations finds one wherever a point with a call behind it stands. -/
theorem isSome_foundAt?_signature {position : Nat} :
    ((signature keyword).foundAt? text position).isSome ↔ MemberCallAt text keyword (position + 1) := by
  -- What is read is a call of the keyword with the point as a part of it; only the left contexts differ.
  have hread : (signature keyword).read = (callHead ('.' :: keyword)).read := rfl
  rw [Pattern.isSome_foundAt?_iff, hread]
  constructor
  · rintro ⟨hle, -, hsome⟩
    obtain ⟨⟨_, rest⟩, hcall⟩ := Option.isSome_iff_exists.1 hsome
    obtain ⟨_, hcalls⟩ := calls_of_read hcall
    obtain ⟨after, opened, hafter, hcalls⟩ := hcalls.of_point
    have htext : text = text.take position ++ '.' :: after := by rw [← hafter, List.take_append_drop]
    have hlength : (text.take position).length = position := List.length_take_of_le hle
    rw [← hlength]
    exact .intro htext hcalls
  · intro hmember
    generalize hposition : position + 1 = next at hmember
    obtain @⟨before, after, rest, opened, rfl, hcalls⟩ := hmember
    obtain rfl : position = before.length := Nat.succ.inj hposition
    obtain ⟨_, hpoint⟩ := hcalls.point
    refine ⟨by simp, rfl, ?_⟩
    rw [List.drop_left]
    exact Option.isSome_of_eq_some (read_callHead hpoint)

/-- A construct is recognised by the first call of its keyword as a member. -/
theorem isLeast_memberCallAt {found : Occurrence Unit} (h : (signature keyword).find? text = some found) :
    IsLeast {position | MemberCallAt text keyword position} (found.start + 1) := by
  obtain ⟨hfound, hlower⟩ := Pattern.isLeast_of_find? h
  refine ⟨isSome_foundAt?_signature.1 hfound, fun position hposition => ?_⟩
  cases hposition with
  | intro htext hcalls => exact Nat.succ_le_succ (hlower (isSome_foundAt?_signature.2 (.intro htext hcalls)))

/-- The point is the edge of a word, so that a call as a member is a call. -/
theorem MemberCallAt.callAt {position : Nat} (h : MemberCallAt text keyword position) (hne : keyword ≠ [])
    (hkeyword : ∀ c ∈ keyword, isWord c = true) : CallAt text keyword position := by
  obtain @⟨before, after, rest, opened, rfl, hcalls⟩ := h
  have hdrop : (before ++ '.' :: after).drop (before.length + 1) = after := by
    rw [List.drop_length_add_append]
    rfl
  have htake : (before ++ '.' :: after).take (before.length + 1) = before ++ ['.'] := by
    rw [List.take_length_add_append]
    rfl
  refine ⟨?_, by rw [hdrop]; exact ⟨opened, rest, hcalls⟩⟩
  rw [hdrop, htake]
  obtain ⟨c, cs, rfl⟩ := List.exists_cons_of_ne_nil hne
  obtain ⟨_, _, _⟩ := hcalls
  simp [wordEdge, hkeyword c List.mem_cons_self, (by decide : isWord '.' = false)]

end Registration

/-- The keyword by which constructs of a kind are registered, for the kinds of which a text is taken to have one. -/
def ConstructKind.keyword? : ConstructKind → Option Text
  | .component => some (txt "component")
  | .controller => some (txt "controller")
  | .directive | .attributeDirective => some (txt "directive")
  | .service => some (txt "service")
  | .filter | .constant | .spec => none

/-- The name of a model of such a kind. -/
def Model.name? : Model → Option Text
  | .component model => some model.name
  | .controller model => some model.name
  | .directive model => some model.name
  | .attributeDirective model => some model.name
  | .service model => some model.name
  | .filters _ | .constants _ | .suite _ => none

variable {kind : ConstructKind} {keyword text : Text}

/-- The keywords are words. -/
theorem isWord_of_keyword? (h : kind.keyword? = some keyword) : keyword ≠ [] ∧ ∀ c ∈ keyword, isWord c = true := by
  cases kind <;> cases h <;> exact ⟨by decide, List.all_eq_true.1 (by decide)⟩

/-- A construct is recognised by a registration of its keyword. -/
theorem occursIn_of_supports (hkind : kind.keyword? = some keyword) (h : kind.supports text = true) :
    (Registration.signature keyword).occursIn text = true := by
  cases kind with
  | attributeDirective =>
    cases hkind
    exact (Bool.and_eq_true_iff.1 h).1
  | component | controller | directive | service => cases hkind; exact h
  | filter | constant | spec => cases hkind

/-- A model has the name that is found for the keyword of its kind. -/
theorem settles_name (hkind : kind.keyword? = some keyword) (text : Text) :
    (kind.analyze text).Settles Fault.IsUnbalanced
      fun model => model.name? = some (Registration.name text keyword) := by
  cases kind with
  | component =>
    cases hkind
    exact (Logged.Settles.ofExcept (outcome_componentAnalyze text)).bind fun _ hname => .pure (congrArg some hname)
  | controller =>
    cases hkind
    exact (Logged.Settles.ofExcept (outcome_registeredAnalyze _ text)).bind fun _ hname => .pure (congrArg some hname)
  | directive =>
    cases hkind
    exact (settles_directiveAnalyze text).bind fun _ hname => .pure (congrArg some hname)
  | attributeDirective =>
    cases hkind
    exact (settles_attributeDirectiveAnalyze text).bind fun _ hfound => .pure (congrArg some hfound.1)
  | service =>
    cases hkind
    exact (Logged.Settles.ofExcept (outcome_registeredAnalyze _ text)).bind fun _ hname => .pure (congrArg some hname)
  | filter | constant | spec => cases hkind

open Registration in
/-- The model of a text that is recognised as a construct has the name that the first call of the keyword has quoted.
That call is the registration by which the construct is recognised, or it comes before and has no point. -/
theorem name_of_recognised (hkind : kind.keyword? = some keyword) (h : kind.supports text = true) :
    ∃ first recognised, IsLeast {position | CallAt text keyword position} first ∧
      IsLeast {position | MemberCallAt text keyword position} recognised ∧
      (first = recognised ∨ first < recognised ∧ ¬MemberCallAt text keyword first) ∧
      (kind.analyze text).Settles Fault.IsUnbalanced
        fun model => model.name? = some (firstQuoted (text.drop first)) := by
  obtain ⟨hne, hkeyword⟩ := isWord_of_keyword? hkind
  obtain ⟨member, hmember⟩ := Option.isSome_iff_exists.1 (occursIn_of_supports hkind h)
  have hrecognised := isLeast_memberCallAt hmember
  have hcall : CallAt text keyword (member.start + 1) := hrecognised.1.callAt hne hkeyword
  obtain ⟨found, hfound⟩ : ∃ found, (callHead keyword).find? text = some found :=
    Option.ne_none_iff_exists'.1 fun hnone => not_callAt hnone _ hcall
  have hfirst := isLeast_callAt hfound
  refine ⟨found.start, member.start + 1, hfirst, hrecognised, ?_, ?_⟩
  · -- A call with a point that came before would be the one by which the construct is recognised.
    rcases Nat.eq_or_lt_of_le (hfirst.2 hcall) with heq | hlt
    · exact .inl heq
    · exact .inr ⟨hlt, fun hpoint => Nat.not_le.2 hlt (hrecognised.2 hpoint)⟩
  · rw [← name_eq_firstQuoted hkeyword hfirst]
    exact settles_name hkind text

open Registration in
/-- A directive that is used as an attribute, behind a call of something that is only named like the keyword. -/
theorem name_of_recognised_attribute :
    let text := txt "$directive ( 'base\"); m.directive('hint', function () \x7b return \x7brestrict: 'A'\x7d; \x7d);"
    ConstructKind.attributeDirective.keyword? = some (txt "directive") ∧
      ConstructKind.attributeDirective.supports text = true ∧
      (ConstructKind.attributeDirective.analyze text).Settles Fault.IsUnbalanced
        fun model => model.name? = some (txt "base") := by
  intro text
  have hsupports : ConstructKind.attributeDirective.supports text = true := by decide +kernel
  obtain ⟨first, recognised, hfirst, -, -, hname⟩ := name_of_recognised rfl hsupports
  have hfound : (callHead (txt "directive")).find? text = some ⟨1, 14, ()⟩ := by rfl
  obtain rfl : first = 1 := hfirst.unique (isLeast_callAt hfound)
  have hquoted : firstQuoted (text.drop 1) = txt "base" := by decide
  rw [hquoted] at hname
  exact ⟨rfl, hsupports, hname⟩

open Registration in
/-- The text is recognised by the registration of a controller, but what is analysed is a call before it that merely
ends in the keyword. -/
theorem undotted_call_analysed :
    let text := txt "$controller('Base'); shop.controller('Real');"
    ConstructKind.controller.supports text = true ∧
      IsLeast {position | MemberCallAt text (txt "controller") position} 26 ∧
      firstQuoted (text.drop 26) = txt "Real" ∧
      (ConstructKind.controller.analyze text).outcome.toOption.bind Model.name? = some (txt "Base") := by
  intro text
  have hfound : (signature (txt "controller")).find? text = some ⟨25, 38, ()⟩ := by rfl
  exact ⟨by decide +kernel, isLeast_memberCallAt hfound, by decide, by decide +kernel⟩

end AngularUplift
