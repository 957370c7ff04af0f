import AngularUplift.Proofs.Literal.Printed
import AngularUplift.Proofs.TypeScript.NormalForm
import AngularUplift.TypeScript.Member
import Mathlib.Data.Bool.AllAny

/-!
# Declarations of literals

A property that was set to a literal is declared with the literal as it is written in source code. The declaration never
holds a line feed, and a layout leaves such a line as it stands, unless there is a carriage return in it: that is a line
break for the layout, and it comes only from a string that holds one.

## Main statements

* `layout_eq_iff`: when a line is laid out as it stands.
* `return_mem_propertyDeclaration_iff`: when the declaration of a property with a value holds a carriage return.
* `layout_literalDeclaration`: the declarations of literals and what the layout makes of them.
-/

namespace AngularUplift

/-! ### One line -/

/-- A line without any line break is laid out as it stands. -/
theorem layoutWith_line {indent line : Text} (hline : '\n' ∉ line) (hreturn : '\r' ∉ line)
    (htrim : Text.trim line = line) (hne : line ≠ []) : layoutWith indent line = line ++ ['\n'] := by
  have hstep : (LayoutState.step indent {} line).output = [line] := by
    rw [LayoutState.step_of_content (by rwa [htrim]), htrim]
    rfl
  rw [layoutWith, Text.normaliseBreaks_eq_self hreturn, Text.lines_eq_singleton hline, List.foldl_cons, List.foldl_nil,
    hstep, List.dropWhile_cons_of_neg (by simpa using hne)]
  rfl

/-- A line is laid out as it stands exactly when there is no carriage return in it. -/
theorem layout_eq_iff {line : Text} (hline : '\n' ∉ line) (htrim : Text.trim line = line) (hne : line ≠ []) :
    layout line = line ++ ['\n'] ↔ '\r' ∉ line := by
  constructor
  · intro hlayout hreturn
    have hindent : ∀ c ∈ txt "  ", isGap c := List.all_eq_true.1 rfl
    obtain ⟨state, hstate⟩ := exists_yields hindent line
    refine hstate.return_notMem_layoutWith ?_
    rw [← layout, hlayout]
    exact List.mem_append_left _ hreturn
  · exact fun hreturn => layoutWith_line hline hreturn htrim hne

/-! ### Declarations -/

/-- A declaration begins with a word and ends with a semicolon, so that there is nothing to trim. -/
theorem trim_propertyDeclaration (v : Variable) : Text.trim (propertyDeclaration v) = propertyDeclaration v := by
  obtain ⟨word, hword⟩ : ∃ word, txt "private " = 'p' :: word := ⟨_, rfl⟩
  unfold propertyDeclaration
  simp only [hword, List.cons_append]
  exact Text.trim_cons_append (by decide) (by decide) _

/-- A declaration is not empty. -/
theorem propertyDeclaration_ne_nil (v : Variable) : propertyDeclaration v ≠ [] := by
  unfold propertyDeclaration
  exact List.append_ne_nil_of_right_ne_nil _ (List.cons_ne_nil ';' [])

/-- The types of literals have no line breaks in them. -/
theorem break_notMem_typeName (kind : LiteralKind) : '\n' ∉ kind.typeName ∧ '\r' ∉ kind.typeName := by
  cases kind <;> decide

variable {v : Variable} {value : Literal}

/-- The declaration of a property with a value. -/
theorem propertyDeclaration_of_value (h : v.value = some value) : propertyDeclaration v =
    txt "private " ++ v.name ++ txt ": " ++ v.typeName ++ (txt " = " ++ value.render) ++ [';'] := by
  unfold propertyDeclaration initializer
  rw [h]

/-- The line breaks in the declaration of a property with a value are those in its name, its type and its value. -/
theorem mem_propertyDeclaration_iff (h : v.value = some value) {c : Char} (hc : c = '\n' ∨ c = '\r') :
    c ∈ propertyDeclaration v ↔ c ∈ v.name ∨ c ∈ v.typeName ∨ c ∈ value.render := by
  have hwords : ∀ c, c = '\n' ∨ c = '\r' → c ∉ txt "private " ∧ c ∉ txt ": " ∧ c ∉ txt " = " ∧ c ∉ [';'] := by
    rintro c (rfl | rfl) <;> decide
  obtain ⟨hprivate, hcolon, hequals, hend⟩ := hwords c hc
  rw [propertyDeclaration_of_value h]
  simp only [List.mem_append, hprivate, hcolon, hequals, hend, false_or, or_false, or_assoc]

/-- What is not dynamic has a value, of which it has the kind. -/
theorem classify_of_ne_dynamic {source : Text} (h : (classify source).1 ≠ .dynamic) :
    ∃ value : Literal, classify source = (value.kind, some value) := by
  revert h
  rw [classify, classifySource]
  split
  · exact fun h => absurd rfl h
  · exact fun h => absurd rfl h
  · exact fun _ => ⟨_, rfl⟩

/-- A property that is set to a literal is declared with the literal in one line, without a line feed. The layout leaves
the line as it stands unless there is a carriage return in it, and there is one only when the literal is a string with a
carriage return. -/
theorem layout_literalDeclaration {name source : Text} (hname : name ≠ []) (hvisible : ∀ c ∈ name, isBlank c = false)
    (hkind : (classify source).1 ≠ .dynamic) :
    ∃ v value, Variable.ofLiteral name source = .ok v ∧ classify source = (value.kind, some value) ∧
      propertyDeclaration v =
        txt "private " ++ name ++ txt ": " ++ value.kind.typeName ++ (txt " = " ++ value.render) ++ [';'] ∧
      '\n' ∉ propertyDeclaration v ∧
      ('\r' ∈ propertyDeclaration v ↔ ∃ points, value = .string points ∧ .char '\r' ∈ points) ∧
      (layout (propertyDeclaration v) = propertyDeclaration v ++ ['\n'] ↔ '\r' ∉ propertyDeclaration v) := by
  obtain ⟨value, hvalue⟩ := classify_of_ne_dynamic hkind
  have htrim : Text.trim name = name :=
    Text.trim_eq_self (fun c hc => hvisible c (List.mem_of_mem_head? hc))
      (fun c hc => hvisible c (List.mem_of_mem_getLast? hc))
  let v : Variable := ⟨name, value.kind.typeName, some value, trimExpression source⟩
  have hmade : Variable.ofLiteral name source = .ok v := by
    rw [Variable.ofLiteral, htrim, Variable.assigned, hvalue, Variable.checked, if_neg (by simpa using hname)]
  obtain ⟨hnobreak, hnoreturn⟩ := break_notMem_typeName value.kind
  -- Of the name, the type and the value, only the value may hold a line break, and no line feed.
  have hline : '\n' ∉ propertyDeclaration v := by
    rw [mem_propertyDeclaration_iff rfl (.inl rfl)]
    rintro (h | h | h)
    · exact absurd (hvisible _ h) (by decide)
    · exact hnobreak h
    · exact value.break_notMem_render h
  have hreturn : '\r' ∈ propertyDeclaration v ↔ '\r' ∈ value.render := by
    rw [mem_propertyDeclaration_iff rfl (.inr rfl)]
    refine ⟨?_, fun h => .inr (.inr h)⟩
    rintro (h | h | h)
    · exact absurd (hvisible _ h) (by decide)
    · exact absurd h hnoreturn
    · exact h
  exact ⟨v, value, hmade, hvalue, propertyDeclaration_of_value rfl, hline,
    hreturn.trans value.return_mem_render_iff,
    layout_eq_iff hline (trim_propertyDeclaration v) (propertyDeclaration_ne_nil v)⟩

/-- A list with a string that holds a carriage return and a line feed is declared in one line: in a list both are
escaped. -/
theorem layout_literalDeclaration_list :
    let name := txt "$hints"
    let source := txt "['a\\r\\n', \x7bb: 'it\\'s'\x7d];"
    name ≠ [] ∧ (∀ c ∈ name, isBlank c = false) ∧ (classify source).1 = .array ∧
      ∃ v, Variable.ofLiteral name source = .ok v ∧
        layout (propertyDeclaration v) = propertyDeclaration v ++ ['\n'] := by
  intro name source
  have hname : name ≠ [] := by decide
  have hvisible : ∀ c ∈ name, isBlank c = false := List.all_iff_forall_prop.1 rfl
  have hkind : (classify source).1 = .array := by decide +kernel
  have hliteral : (classify source).1 ≠ .dynamic := by
    rw [hkind]
    decide
  obtain ⟨v, value, hmade, hvalue, -, -, hreturn, hlayout⟩ := layout_literalDeclaration hname hvisible hliteral
  refine ⟨hname, hvisible, hkind, v, hmade, hlayout.2 fun hmem => ?_⟩
  obtain ⟨points, rfl, -⟩ := hreturn.1 hmem
  rw [hvalue] at hkind
  cases hkind

/-- A string of a carriage return and a line feed is declared with the carriage return as it is, and the layout breaks
the line there. -/
theorem carriage_return_split :
    let source := txt "'\\r\\n'"
    let declaration := (Variable.ofLiteral (txt "eol") source).toOption.map propertyDeclaration
    (classify source).1 = .string ∧ declaration = some (txt "private eol: string = '\r\\n';") ∧
      declaration.map layout = some (txt "private eol: string = '\n\\n';\n") := by
  decide +kernel

end AngularUplift
