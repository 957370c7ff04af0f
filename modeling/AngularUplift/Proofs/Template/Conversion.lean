import AngularUplift.Proofs.Text.Line
import AngularUplift.Proofs.Text.Occurrence
import AngularUplift.Template
import Mathlib.Algebra.GroupWithZero.Nat
import Mathlib.Algebra.Order.BigOperators.Group.List
import Mathlib.Algebra.Order.Group.Nat
import Mathlib.Data.List.Count

/-!
# What the conversion of a template reports

The rules for a template are applied one after the other, each to what the earlier ones have made of it, and each
reports how many occurrences it found. Every legacy attribute has a dash in its name and every access through the
controller a dollar sign, while what takes their place has neither. So a rule that exchanges an occurrence for another
text leaves fewer of these marks than there were, no later rule brings them back, and a template that comes out as it
was has had no occurrence exchanged by any rule. The one rule that may leave what it found as it is, is the one for
repetitions: an expression that it cannot read stays, and is counted all the same.

## Main definitions

* `RuleApplication`, `applications`: the rules, each with the template that it is applied to.
* `RuleApplication.changed`, `RuleApplication.unread`: the number of occurrences that a rule exchanges for another text,
  and of the repetitions that it cannot read.
* `legacyMarks`: the number of marks of legacy syntax in a text.
* `TemplateRule.Converts`: a rule that takes marks away wherever it changes something.

## Main statements

* `converts_of_mem_templateRules`: all rules do so.
* `RuleApplication.found_eq`: every occurrence is exchanged for another text, or is a repetition that cannot be read.
* `RuleApplication.changed_add_legacyMarks_le`, `sum_changed_add_legacyMarks_le`: what one rule and all rules change is
  paid for with marks.
* `convertTemplate_reports`: what the conversion reports, for all templates and for those that it leaves as they are.
-/

namespace AngularUplift

/-! ### Rules at work -/

/-- A rule with the template that it is applied to. -/
structure RuleApplication where
  /-- The rule. -/
  rule : TemplateRule
  /-- What the earlier rules have made of the template. -/
  template : Text

/-- The rules, each with what the earlier ones have made of a template. -/
def applications : List TemplateRule → Text → List RuleApplication
  | [], _ => []
  | rule :: rules, template =>
    ⟨rule, template⟩ :: applications rules (rule.pattern.replaceWith rule.convert template)

/-- The description of the rule for repetitions. -/
def repetitionDescription : Text := txt "ng-repeat -> *ngFor"

/-- Whether an occurrence of a rule is a repetition that cannot be read. -/
def TemplateRule.isUnread (rule : TemplateRule) (value : Text) : Bool :=
  rule.description == repetitionDescription && (RepeatExpression.parse? value).isNone

namespace RuleApplication

/-- The template after the rule. -/
def outcome (a : RuleApplication) : Text := a.rule.pattern.replaceWith a.rule.convert a.template

/-- The number of occurrences that the rule exchanges for another text. -/
def changed (a : RuleApplication) : Nat :=
  (a.rule.pattern.pieces a.template).countP fun
    | .plain _ => false
    | .found text value => a.rule.convert text value != text

/-- The number of occurrences that are repetitions which cannot be read. -/
def unread (a : RuleApplication) : Nat :=
  (a.rule.pattern.pieces a.template).countP fun
    | .plain _ => false
    | .found _ value => a.rule.isUnread value

/-- The line of a report that names the rule and a number of occurrences, if there are any. -/
def line? (a : RuleApplication) (count : Nat) : Option Text :=
  if count = 0 then none else some (a.rule.description ++ txt " (" ++ Text.ofNat count ++ [')'])

end RuleApplication

/-! ### Marks of legacy syntax -/

/-- A mark that every legacy form has and no new one: the dash of an attribute or the dollar sign of the controller. -/
def isLegacyMark (c : Char) : Bool := c == '-' || c == '$'

/-- The number of marks of legacy syntax in a text. -/
def legacyMarks (text : Text) : Nat := text.countP isLegacyMark

@[simp]
theorem legacyMarks_append (text other : Text) : legacyMarks (text ++ other) = legacyMarks text + legacyMarks other :=
  List.countP_append

/-- A part of a text has no more marks than the text. -/
theorem legacyMarks_le_of_sublist {text other : Text} (h : text.Sublist other) : legacyMarks text ≤ legacyMarks other :=
  h.countP_le

/-- The quotation marks and the equals sign of an attribute are no marks. -/
@[simp]
theorem legacyMarks_withValue (target value : Text) :
    legacyMarks (withValue target value) = legacyMarks target + legacyMarks value := by
  have hsign : legacyMarks (txt "=\"") = 0 := by decide
  have hquote : legacyMarks ['"'] = 0 := by decide
  rw [withValue, legacyMarks_append, legacyMarks_append, legacyMarks_append, hsign, hquote]
  omega

theorem legacyMarks_trim_le (text : Text) : legacyMarks (Text.trim text) ≤ legacyMarks text :=
  legacyMarks_le_of_sublist (Text.trim_sublist text)

/-- An interpolated expression is a part of the value. -/
theorem sublist_of_interpolation? {value inner : Text} (h : interpolation? value = some inner) :
    inner.Sublist value := by
  rw [interpolation?] at h
  split at h
  · cases h
  · next rest hafter =>
    obtain rfl := Text.after?_eq_some_iff.1 hafter
    simp only [Option.ite_none_right_eq_some, Option.some.injEq] at h
    obtain ⟨-, rfl⟩ := h
    exact (List.takeWhile_sublist _).trans (List.sublist_append_right ..)

/-- A binding has no more marks than its target and the value. -/
theorem legacyMarks_bindProperty_le (target value : Text) :
    legacyMarks (bindProperty target value) ≤ legacyMarks target + legacyMarks value := by
  have htrim := legacyMarks_trim_le value
  rw [bindProperty]
  split
  · next inner hinner =>
    have hinside := legacyMarks_le_of_sublist (sublist_of_interpolation? hinner)
    have hinnerTrim := legacyMarks_trim_le inner
    have hopen : legacyMarks ['['] = 0 := by decide
    have hclose : legacyMarks [']'] = 0 := by decide
    rw [legacyMarks_withValue, legacyMarks_append, legacyMarks_append, hopen, hclose]
    omega
  · rw [legacyMarks_withValue]
    omega

theorem legacyMarks_negate_le (value : Text) : legacyMarks (negate value) ≤ legacyMarks value := by
  have htrim := legacyMarks_trim_le value
  rw [negate]
  split
  · have hnot : legacyMarks ['!'] = 0 := by decide
    rw [legacyMarks_append, hnot]
    omega
  · have hopen : legacyMarks (txt "!(") = 0 := by decide
    have hclose : legacyMarks [')'] = 0 := by decide
    rw [legacyMarks_append, legacyMarks_append, hopen, hclose]
    omega

/-- The collection of a repetition is the beginning of the text that it is read from. -/
theorem RepeatExpression.begins_of_collection? {text collection : Text} (h : collection? text = some collection) :
    collection <+: text := by
  induction text generalizing collection with
  | nil => cases h
  | cons c text ih =>
    rw [collection?] at h
    split at h
    · cases h
    · split at h
      · obtain rfl := Option.some.inj h
        exact (List.prefix_cons_inj c).2 List.nil_prefix
      · obtain ⟨rest, hrest, rfl⟩ := Option.map_eq_some_iff.1 h
        exact (List.prefix_cons_inj c).2 (ih hrest)

/-- The item and the collection of a repetition are parts of its value, in this order. -/
theorem RepeatExpression.sublist_of_parse? {value name collection : Text}
    (h : parse? value = some (name, collection)) : (name ++ collection).Sublist value := by
  rw [parse?] at h
  obtain ⟨⟨found, rest⟩, hhead, h⟩ := Option.bind_eq_some_iff.1 h
  obtain ⟨found', hcollection, h⟩ := Option.bind_eq_some_iff.1 h
  obtain ⟨rfl, rfl⟩ := Prod.mk.inj (Option.some.inj h)
  simp only [Reader.bind_eq_some_iff, Reader.pure_eq_some_iff, Reader.exactly_eq_some_iff] at hhead
  obtain ⟨lead, _, hlead, name, _, hname, gap, _, hgap, -, _, rfl, rfl, rfl⟩ := hhead
  obtain ⟨rfl, -⟩ := Reader.run_eq_some hlead
  obtain ⟨rfl, -⟩ := Reader.run1_eq_some hname
  obtain ⟨rfl, -⟩ := Reader.run1_eq_some hgap
  obtain ⟨tail, htail, hread⟩ := List.exists_of_findSome?_eq_some hcollection
  obtain ⟨i, -, rfl⟩ := List.mem_map.1 htail
  -- The collection is read behind the name and its white space, so nothing is taken twice.
  have hwithin := (begins_of_collection? hread).sublist.trans (List.drop_sublist (i + 1) _)
  refine List.Sublist.trans ?_ (List.sublist_append_right lead _)
  refine (List.Sublist.refl _).append ?_
  exact (hwithin.trans (List.sublist_append_right _ _)).trans (List.sublist_append_right gap _)

/-! ### Rules take marks away -/

/-- Wherever a rule changes an occurrence it takes marks away, and it leaves an occurrence as it is only if that is a
repetition which cannot be read. -/
def TemplateRule.Converts (rule : TemplateRule) : Prop :=
  ∀ after value rest, rule.pattern.read after = some (value, rest) → ∃ taken, after = taken ++ rest ∧
    if rule.isUnread value then rule.convert taken value = taken
    else legacyMarks (rule.convert taken value) < legacyMarks taken

/-- A value in double quotes stands in the text as it is written. -/
theorem read_attributeValue {after value rest : Text} (h : Reader.attributeValue after = some (value, rest)) :
    after = withValue [] value ++ rest := by
  rw [Reader.attributeValue] at h
  simp only [Reader.bind_eq_some_iff, Reader.pure_eq_some_iff, Reader.exactly_eq_some_iff] at h
  obtain ⟨-, _, rfl, found, _, hrun, -, _, rfl, rfl, rfl⟩ := h
  obtain ⟨rfl, -⟩ := Reader.run_eq_some hrun
  simp [withValue]

theorem withValue_nil_append (target value : Text) : target ++ withValue [] value = withValue target value := by
  simp [withValue]

/-- An attribute with a value stands in the text as it is written. -/
theorem read_valuedAttribute {name after value rest : Text}
    (h : (valuedAttribute name).read after = some (value, rest)) : after = withValue name value ++ rest := by
  simp only [valuedAttribute, Reader.bind_eq_some_iff, Reader.exactly_eq_some_iff] at h
  obtain ⟨-, _, rfl, hvalue⟩ := h
  obtain rfl := read_attributeValue hvalue
  rw [← withValue_nil_append name value, List.append_assoc]

namespace TemplateRule

variable {rule : TemplateRule}

/-- A rule that is not the one for repetitions and takes marks off everything that it finds. -/
theorem Converts.of_lt (hrule : rule.description ≠ repetitionDescription)
    (h : ∀ after value rest, rule.pattern.read after = some (value, rest) →
      ∃ taken, after = taken ++ rest ∧ legacyMarks (rule.convert taken value) < legacyMarks taken) :
    rule.Converts := by
  intro after value rest hread
  obtain ⟨taken, htaken, hlt⟩ := h after value rest hread
  have hread : rule.isUnread value = false := by simp [isUnread, hrule]
  exact ⟨taken, htaken, by rwa [hread]⟩

/-- A rule for an attribute with a value. -/
theorem Converts.of_valuedAttribute {name : Text} (hrule : rule.description ≠ repetitionDescription)
    (hpattern : rule.pattern = valuedAttribute name)
    (h : ∀ value, legacyMarks (rule.convert (withValue name value) value) < legacyMarks name + legacyMarks value) :
    rule.Converts := by
  refine .of_lt hrule fun after value rest hread => ⟨withValue name value, ?_, ?_⟩
  · rw [hpattern] at hread
    exact read_valuedAttribute hread
  · rw [legacyMarks_withValue]
    exact h value

theorem converts_renameRule {name target : String}
    (hrule : (renameRule name target).description ≠ repetitionDescription)
    (hmarks : legacyMarks (txt target) < legacyMarks (txt name)) : (renameRule name target).Converts := by
  refine .of_valuedAttribute hrule rfl fun value => ?_
  rw [renameRule, legacyMarks_withValue]
  omega

theorem converts_propertyRule {name target : String}
    (hrule : (propertyRule name target).description ≠ repetitionDescription)
    (hmarks : legacyMarks (txt target) < legacyMarks (txt name)) : (propertyRule name target).Converts := by
  refine .of_valuedAttribute hrule rfl fun value => ?_
  have hle := legacyMarks_bindProperty_le (txt target) value
  show legacyMarks (bindProperty (txt target) value) < _
  omega

/-- The rule for repetitions takes marks off those that it can read. -/
theorem converts_repeat :
    Converts ⟨repetitionDescription, valuedAttribute (txt "ng-repeat"), convertRepeat⟩ := by
  intro after value rest hread
  refine ⟨_, read_valuedAttribute hread, ?_⟩
  cases hparse : RepeatExpression.parse? value with
  | none => simp [isUnread, convertRepeat, hparse]
  | some parts =>
    obtain ⟨name, collection⟩ := parts
    have hparts := legacyMarks_le_of_sublist (RepeatExpression.sublist_of_parse? hparse)
    have hname : legacyMarks (txt "ng-repeat") = 1 := by decide
    have htarget : legacyMarks (txt "*ngFor") = 0 := by decide
    have hlet : legacyMarks (txt "let ") = 0 := by decide
    have hof : legacyMarks (txt " of ") = 0 := by decide
    rw [legacyMarks_append] at hparts
    simp only [isUnread, convertRepeat, hparse, legacyMarks_withValue, legacyMarks_append, hname, htarget, hlet, hof]
    simp
    omega

/-- The rule for switches finds two forms, both with a dash. -/
theorem converts_switch : Converts ⟨txt "ng-switch -> [ngSwitch]", switchAttribute,
    fun _ value => withValue (txt "[ngSwitch]") value⟩ := by
  refine .of_lt (by decide) fun after value rest hread => ?_
  have htarget : legacyMarks (txt "[ngSwitch]") = 0 := by decide
  have hname : legacyMarks (txt "ng-switch") = 1 := by decide
  simp only [switchAttribute, Reader.bind_eq_some_iff, Reader.exactly_eq_some_iff] at hread
  obtain ⟨-, start, rfl, _, middle, hon, hvalue⟩ := hread
  obtain ⟨between, rfl⟩ : ∃ between, start = between ++ middle := by
    obtain ⟨r, hr, hread⟩ := Reader.firstOf_eq_some hon
    rcases List.mem_cons.1 hr with rfl | hr
    · simp only [Reader.bind_eq_some_iff, Reader.exactly_eq_some_iff] at hread
      obtain ⟨space, _, hspace, rfl⟩ := hread
      obtain ⟨rfl, -⟩ := Reader.run1_eq_some hspace
      exact ⟨space ++ txt "on", (List.append_assoc ..).symm⟩
    · obtain rfl := List.mem_singleton.1 hr
      exact ⟨[], (Reader.pure_eq_some_iff.1 hread).2⟩
  refine ⟨txt "ng-switch" ++ (between ++ withValue [] value), ?_, ?_⟩
  · rw [read_attributeValue hvalue, List.append_assoc, List.append_assoc]
  · simp only [legacyMarks_append, legacyMarks_withValue, htarget, hname]
    omega

/-- The rule for the default of a switch finds a name with dashes. -/
theorem converts_switchDefault : Converts ⟨txt "ng-switch-default -> *ngSwitchDefault", switchDefault,
    fun _ _ => txt "*ngSwitchDefault"⟩ := by
  refine .of_lt (by decide) fun after value rest hread => ?_
  have htarget : legacyMarks (txt "*ngSwitchDefault") = 0 := by decide
  have hname : legacyMarks (txt "ng-switch-default") = 2 := by decide
  simp only [switchDefault, Reader.bind_eq_some_iff, Reader.exactly_eq_some_iff, Reader.pure_eq_some_iff] at hread
  obtain ⟨-, start, rfl, _, rest, hempty, -, rfl⟩ := hread
  obtain ⟨between, rfl⟩ : ∃ between, start = between ++ rest := by
    obtain ⟨r, hr, hread⟩ := Reader.firstOf_eq_some hempty
    rcases List.mem_cons.1 hr with rfl | hr
    · simp only [Reader.bind_eq_some_iff, Reader.exactly_eq_some_iff] at hread
      obtain ⟨-, _, rfl, hnext⟩ := hread
      obtain ⟨rfl, -⟩ := Reader.notNext_eq_some hnext
      exact ⟨txt "=\"\"", rfl⟩
    · obtain rfl := List.mem_singleton.1 hr
      obtain ⟨rfl, -⟩ := Reader.notNext_eq_some hread
      exact ⟨[], rfl⟩
  refine ⟨txt "ng-switch-default" ++ between, (List.append_assoc ..).symm, ?_⟩
  rw [legacyMarks_append, htarget, hname]
  omega

/-- The controller's name in front of a member goes, and with it its dollar sign. -/
theorem converts_controllerAccess : Converts ⟨txt "$ctrl. removed", controllerAccess, fun _ _ => []⟩ := by
  refine .of_lt (by decide) fun after value rest hread => ?_
  simp only [controllerAccess, Reader.bind_eq_some_iff, Reader.exactly_eq_some_iff, Reader.pure_eq_some_iff] at hread
  obtain ⟨-, _, rfl, -, rfl⟩ := hread
  refine ⟨txt "$ctrl.", rfl, ?_⟩
  show legacyMarks [] < legacyMarks (txt "$ctrl.")
  decide

/-- All rules take marks away wherever they change something. -/
theorem converts_of_mem_templateRules : ∀ rule ∈ templateRules, rule.Converts := by
  have hhide : Converts ⟨txt "ng-hide -> *ngIf", valuedAttribute (txt "ng-hide"),
      fun _ value => withValue (txt "*ngIf") (negate value)⟩ := by
    refine .of_valuedAttribute (by decide) rfl fun value => ?_
    have hle := legacyMarks_negate_le value
    have hname : legacyMarks (txt "ng-hide") = 1 := by decide
    have htarget : legacyMarks (txt "*ngIf") = 0 := by decide
    rw [legacyMarks_withValue, hname, htarget]
    omega
  simp only [templateRules, List.forall_mem_cons]
  exact ⟨converts_renameRule (by decide) (by decide), converts_renameRule (by decide) (by decide),
    converts_renameRule (by decide) (by decide), converts_propertyRule (by decide) (by decide),
    converts_propertyRule (by decide) (by decide), converts_renameRule (by decide) (by decide),
    converts_renameRule (by decide) (by decide), converts_renameRule (by decide) (by decide),
    converts_renameRule (by decide) (by decide), converts_renameRule (by decide) (by decide), hhide,
    converts_renameRule (by decide) (by decide), converts_repeat, converts_renameRule (by decide) (by decide),
    converts_switch, converts_switchDefault, converts_renameRule (by decide) (by decide), converts_controllerAccess,
    fun _ hnone => absurd hnone List.not_mem_nil⟩

end TemplateRule

/-! ### What a rule changes -/

namespace RuleApplication

variable {a : RuleApplication}

/-- Only the rule for repetitions leaves occurrences unread. -/
theorem unread_eq_zero (h : a.rule.description ≠ repetitionDescription) : a.unread = 0 := by
  rw [unread, List.countP_eq_zero]
  rintro (_ | _) -
  · exact Bool.false_ne_true
  · simp [TemplateRule.isUnread, h]

/-- What a rule does to an occurrence. -/
theorem found_cases (ha : a.rule.Converts) :
    ∀ text value, .found text value ∈ a.rule.pattern.pieces a.template →
      if a.rule.isUnread value then a.rule.convert text value = text
      else legacyMarks (a.rule.convert text value) < legacyMarks text :=
  Pattern.forall_found_mem_piecesFrom ha [] 0 a.template

/-- Every occurrence is exchanged for another text, or is a repetition that cannot be read. -/
theorem found_eq (ha : a.rule.Converts) : (a.rule.pattern.occurrences a.template).length = a.changed + a.unread := by
  have hcases := found_cases ha
  rw [Pattern.occurrences, changed, unread]
  generalize a.rule.pattern.pieces a.template = pieces at hcases
  -- The induction is on the pieces, from any position.
  generalize 0 = position
  induction pieces generalizing position with
  | nil => rfl
  | cons piece pieces ih =>
    have hrest := fun position => ih (fun text value hmem => hcases text value (List.mem_cons_of_mem _ hmem)) position
    cases piece with
    | plain c => simpa [Pattern.locate] using hrest _
    | found text value =>
      have hfound := hcases text value List.mem_cons_self
      rw [Pattern.locate, List.length_cons, hrest]
      cases hunread : a.rule.isUnread value with
      | true =>
        rw [hunread, if_pos rfl] at hfound
        simp [hfound, hunread]
        omega
      | false =>
        rw [hunread, if_neg (by decide)] at hfound
        have hne : a.rule.convert text value ≠ text := fun heq => absurd hfound (by rw [heq]; exact Nat.lt_irrefl _)
        simp [hne, hunread]
        omega

/-- Every occurrence that a rule changes costs a mark. -/
theorem changed_add_legacyMarks_le (ha : a.rule.Converts) :
    a.changed + legacyMarks a.outcome ≤ legacyMarks a.template := by
  have hcases := found_cases ha
  have hsource := a.rule.pattern.source_pieces a.template
  -- The pieces put together are the template, so its marks are counted piece by piece, like those of the outcome.
  rw [outcome, Pattern.replaceWith, changed]
  generalize a.rule.pattern.pieces a.template = pieces at hcases hsource
  rw [← hsource]
  clear hsource
  induction pieces with
  | nil => rfl
  | cons piece pieces ih =>
    have hrest := ih fun text value hmem => hcases text value (List.mem_cons_of_mem _ hmem)
    rw [List.flatMap_cons, List.flatMap_cons, legacyMarks_append, legacyMarks_append]
    cases piece with
    | plain c =>
      rw [List.countP_cons_of_neg (by simp)]
      simp only [Pattern.exchange, Piece.source]
      omega
    | found text value =>
      have hfound := hcases text value List.mem_cons_self
      simp only [Pattern.exchange, Piece.source, List.countP_cons, bne_iff_ne]
      by_cases hsame : a.rule.convert text value = text
      · rw [if_neg (not_not_intro hsame), hsame]
        omega
      · cases hunread : a.rule.isUnread value with
        | true =>
          rw [hunread, if_pos rfl] at hfound
          exact absurd hfound hsame
        | false =>
          rw [hunread, if_neg (by decide)] at hfound
          rw [if_pos hsame]
          omega

/-- A rule that changes no occurrence leaves the template as it is. -/
theorem outcome_of_changed_eq_zero (h : a.changed = 0) : a.outcome = a.template := by
  have hsource := a.rule.pattern.source_pieces a.template
  rw [changed, List.countP_eq_zero] at h
  rw [outcome, Pattern.replaceWith]
  conv_rhs => rw [← hsource]
  refine List.flatMap_congr fun piece hpiece => ?_
  cases piece with
  | plain c => rfl
  | found text value => simpa [Pattern.exchange, Piece.source] using h _ hpiece

end RuleApplication

/-! ### All rules -/

/-- One more rule adds a line to the report, or none. -/
theorem replacements_applyTo {rule : TemplateRule} (hrule : rule.Converts) (template : ConvertedTemplate) :
    (TemplateRule.applyTo template rule).replacements =
      let a : RuleApplication := ⟨rule, template.html⟩
      template.replacements ++ (a.line? (a.changed + a.unread)).toList := by
  have hfound := RuleApplication.found_eq (a := ⟨rule, template.html⟩) hrule
  simp only at hfound
  simp only [TemplateRule.applyTo, hfound, RuleApplication.line?]
  split
  · simp
  · rfl

/-- The report of the rules names, for each of them, the occurrences that it changed and those that it could not
read. -/
theorem replacements_foldl {rules : List TemplateRule} (hrules : ∀ rule ∈ rules, rule.Converts)
    (template : ConvertedTemplate) :
    (rules.foldl TemplateRule.applyTo template).replacements =
      template.replacements ++
        (applications rules template.html).filterMap fun a => a.line? (a.changed + a.unread) := by
  induction rules generalizing template with
  | nil => simp [applications]
  | cons rule rules ih =>
    obtain ⟨hrule, hrest⟩ := List.forall_mem_cons.1 hrules
    rw [List.foldl_cons, ih hrest, replacements_applyTo hrule, applications, List.append_assoc, List.filterMap_cons]
    congr 1
    cases RuleApplication.line? ⟨rule, template.html⟩ _ <;> rfl

/-- What all rules change is paid for with marks. -/
theorem sum_changed_add_legacyMarks_le {rules : List TemplateRule} (hrules : ∀ rule ∈ rules, rule.Converts)
    (template : ConvertedTemplate) :
    ((applications rules template.html).map RuleApplication.changed).sum +
      legacyMarks (rules.foldl TemplateRule.applyTo template).html ≤ legacyMarks template.html := by
  induction rules generalizing template with
  | nil => simp [applications]
  | cons rule rules ih =>
    obtain ⟨hrule, hrest⟩ := List.forall_mem_cons.1 hrules
    have hfirst := RuleApplication.changed_add_legacyMarks_le (a := ⟨rule, template.html⟩) hrule
    have hothers := ih hrest (TemplateRule.applyTo template rule)
    have houtcome : (TemplateRule.applyTo template rule).html = RuleApplication.outcome ⟨rule, template.html⟩ := rfl
    rw [houtcome] at hothers
    rw [applications, List.map_cons, List.sum_cons, List.foldl_cons]
    simp only [RuleApplication.outcome] at hfirst hothers
    omega

/-- Where no rule changes anything, all of them are applied to the same template. -/
theorem applications_of_unchanged {rules : List TemplateRule} {template : Text}
    (h : ∀ a ∈ applications rules template, a.changed = 0) :
    applications rules template = rules.map fun rule => ⟨rule, template⟩ := by
  induction rules with
  | nil => rfl
  | cons rule rules ih =>
    obtain ⟨hfirst, hrest⟩ := List.forall_mem_cons.1 h
    have hsame := RuleApplication.outcome_of_changed_eq_zero hfirst
    rw [RuleApplication.outcome] at hsame
    simp only [hsame] at hrest
    rw [applications, hsame, ih hrest, List.map_cons]

/-- The number of repetitions in a template that cannot be read. -/
def unreadRepetitions (template : Text) : Nat :=
  RuleApplication.unread ⟨⟨repetitionDescription, valuedAttribute (txt "ng-repeat"), convertRepeat⟩, template⟩

/-- Of the rules only the one for repetitions leaves occurrences unread. -/
theorem filterMap_unread (template : Text) :
    (templateRules.map fun rule => RuleApplication.mk rule template).filterMap (fun a => a.line? a.unread) =
      if unreadRepetitions template = 0 then []
      else [repetitionDescription ++ txt " (" ++ Text.ofNat (unreadRepetitions template) ++ [')']] := by
  -- The rule for repetitions is the thirteenth, and no other has its description.
  obtain ⟨front, back, hrules, hfront, hback⟩ : ∃ front back : List TemplateRule,
      templateRules = front ++ ⟨repetitionDescription, valuedAttribute (txt "ng-repeat"), convertRepeat⟩ :: back ∧
      (∀ rule ∈ front, rule.description ≠ repetitionDescription) ∧
      ∀ rule ∈ back, rule.description ≠ repetitionDescription :=
    ⟨templateRules.take 12, templateRules.drop 13, rfl, by decide, by decide⟩
  have hnone : ∀ rules : List TemplateRule, (∀ rule ∈ rules, rule.description ≠ repetitionDescription) →
      (rules.map fun rule => RuleApplication.mk rule template).filterMap (fun a => a.line? a.unread) = [] := by
    intro rules hother
    rw [List.filterMap_eq_nil_iff]
    intro a ha
    obtain ⟨rule, hrule, rfl⟩ := List.mem_map.1 ha
    rw [RuleApplication.unread_eq_zero (hother rule hrule)]
    rfl
  rw [hrules, List.map_append, List.map_cons, List.filterMap_append, List.filterMap_cons, hnone front hfront,
    hnone back hback, List.nil_append, ← unreadRepetitions, RuleApplication.line?]
  split <;> simp_all

/-- What the conversion of a template reports. For each rule, in order, it gives the number of occurrences that the rule
exchanged for another text, and for the rule for repetitions also of those that it could not read. When the template
comes out as it was, no rule has changed any occurrence, and the report has at most one line, with the number of
repetitions that could not be read. -/
theorem convertTemplate_reports (html : Text) :
    (convertTemplate html).replacements =
      (applications templateRules html).filterMap (fun a => a.line? (a.changed + a.unread)) ∧
    (∀ a ∈ applications templateRules html, a.rule.description ≠ repetitionDescription → a.unread = 0) ∧
    ((convertTemplate html).html = html →
      (∀ a ∈ applications templateRules html, a.template = html ∧ a.changed = 0) ∧
      (convertTemplate html).replacements =
        if unreadRepetitions html = 0 then []
        else [repetitionDescription ++ txt " (" ++ Text.ofNat (unreadRepetitions html) ++ [')']]) := by
  have hrules := TemplateRule.converts_of_mem_templateRules
  have hreport : (convertTemplate html).replacements =
      (applications templateRules html).filterMap fun a => a.line? (a.changed + a.unread) :=
    (replacements_foldl hrules { html }).trans (List.nil_append _)
  refine ⟨hreport, fun a _ => RuleApplication.unread_eq_zero, fun hsame => ?_⟩
  · -- The marks that are left are all that there were, so nothing was paid.
    have hpaid : ((applications templateRules html).map RuleApplication.changed).sum +
        legacyMarks (convertTemplate html).html ≤ legacyMarks html := sum_changed_add_legacyMarks_le hrules { html }
    rw [hsame] at hpaid
    have hzero : ∀ a ∈ applications templateRules html, a.changed = 0 := by
      intro a ha
      -- One number is at most the sum, and the sum is zero.
      have hle := List.single_le_sum (fun _ _ => Nat.zero_le _) _
        (List.mem_map_of_mem (f := RuleApplication.changed) ha)
      omega
    have happlications := applications_of_unchanged hzero
    refine ⟨fun a ha => ⟨?_, hzero a ha⟩, ?_⟩
    · rw [happlications] at ha
      obtain ⟨rule, -, rfl⟩ := List.mem_map.1 ha
      rfl
    · have honly : (applications templateRules html).filterMap (fun a => a.line? (a.changed + a.unread)) =
          (applications templateRules html).filterMap (fun a => a.line? a.unread) :=
        List.filterMap_congr fun a ha => by rw [hzero a ha, Nat.zero_add]
      rw [hreport, honly, happlications, filterMap_unread]

/-- Two repetitions that cannot be read are all that is reported of a template that stays as it is. -/
theorem convertTemplate_reports_unread :
    let html := txt "<ul ng-repeat=\"in rows\"><li ng-repeat=\"(key, value) in row\" (click)=\"go()\">"
    (convertTemplate html).html = html ∧ unreadRepetitions html = 2 ∧
      (convertTemplate html).replacements = [txt "ng-repeat -> *ngFor (2)"] := by
  intro html
  have hsame : (convertTemplate html).html = html := by decide +kernel
  have htwo : unreadRepetitions html = 2 := by decide +kernel
  obtain ⟨-, -, hunchanged⟩ := convertTemplate_reports html
  refine ⟨hsame, htwo, (hunchanged hsame).2.trans ?_⟩
  rw [htwo]
  decide

/-- A repetition over keys and values cannot be read. It stays as it is, and the report has it as converted. -/
theorem unread_repetition_reported :
    let html := txt "<li ng-repeat=\"(key, value) in items\">"
    convertTemplate html = { html, replacements := [txt "ng-repeat -> *ngFor (1)"] } := by
  decide +kernel

end AngularUplift
