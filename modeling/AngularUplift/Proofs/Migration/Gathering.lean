import AngularUplift.Proofs.Literal.Printed
import AngularUplift.Proofs.Migration.Isolation
import AngularUplift.Proofs.TypeScript.ComponentClass

/-!
# Gathering constants from many sources

Each source of constants adds to the constants that are set aside, unless its migration fails: then the journal stays as
it is. Of constants with one name the first one is kept, whether the others come from the same source or from later
ones. At the end all of them are declared in one file, and none is set aside any more.

A declaration is laid out as a line as it stands unless it holds a line break. A literal never holds a line feed, but a
string with a carriage return is written with it, and there the layout breaks the line.

## Main definitions

* `afterSources`: the journal after sources of constants, one after the other.
* `declaredConstants`: the constants that sources declare.

## Main statements

* `constants_afterSources`: the constants that are set aside after several sources.
* `runFrom_constant_cases`: what one source does.
* `codeContent_constantDeclaration_iff`: when a declaration is a line as it stands.
* `constants_gathered`: the run as a whole.
-/

namespace AngularUplift.Migration

open Text

/-! ### The first constant of each name -/

/-- A constant of a known name is not set aside. -/
theorem setAside_of_mem {known : List Variable} {constant : Variable} (h : constant.name ∈ known.map (·.name)) :
    setAside known constant = known := by
  rw [setAside, if_pos]
  simpa only [List.any_eq_true, beq_iff_eq, List.mem_map] using h

/-- A constant of a new name comes last. -/
theorem setAside_of_notMem {known : List Variable} {constant : Variable} (h : constant.name ∉ known.map (·.name)) :
    setAside known constant = known ++ [constant] := by
  rw [setAside, if_neg]
  simpa only [List.any_eq_true, beq_iff_eq, List.mem_map] using h

/-- Repetitions in a list with one more item. -/
theorem eraseDups_concat (names : List Text) (name : Text) : (names ++ [name]).eraseDups =
    if name ∈ names then names.eraseDups else names.eraseDups ++ [name] := by
  rw [List.eraseDups_append]
  split
  · next h => simp [List.removeAll, h]
  · next h => simp [List.removeAll, h, List.eraseDups_cons]

/-- The constants set aside have each name once, in the order in which the names first came. -/
theorem map_name_foldl_setAside (constants : List Variable) :
    (constants.foldl setAside []).map (·.name) = (constants.map (·.name)).eraseDups := by
  induction constants using List.reverseRecOn with
  | nil => rfl
  | append_singleton constants constant ih =>
    rw [List.foldl_concat, List.map_append, List.map_singleton, eraseDups_concat]
    split
    · next hknown => rw [setAside_of_mem (by rwa [ih, List.mem_eraseDups]), ih]
    · next hnew =>
      rw [setAside_of_notMem (by rwa [ih, List.mem_eraseDups]), List.map_append, ih]
      rfl

/-- Each constant set aside is the first one of its name. -/
theorem find?_of_mem_foldl_setAside {constants : List Variable} {constant : Variable}
    (h : constant ∈ constants.foldl setAside []) : constants.find? (·.name == constant.name) = some constant := by
  induction constants using List.reverseRecOn with
  | nil => exact absurd h List.not_mem_nil
  | append_singleton constants last ih =>
    rw [List.foldl_concat] at h
    rw [List.find?_append]
    by_cases hknown : last.name ∈ constants.map (·.name)
    · rw [setAside_of_mem (by rwa [map_name_foldl_setAside, List.mem_eraseDups])] at h
      rw [ih h]
      rfl
    · rw [setAside_of_notMem (by rwa [map_name_foldl_setAside, List.mem_eraseDups])] at h
      rcases List.mem_append.1 h with hold | hlast
      · rw [ih hold]
        rfl
      · obtain rfl := List.mem_singleton.1 hlast
        have hnone : constants.find? (·.name == constant.name) = none := by
          rw [List.find?_eq_none]
          intro other hother hsame
          exact hknown (beq_iff_eq.1 hsame ▸ List.mem_map_of_mem hother)
        rw [hnone]
        simp

/-! ### One source after the other -/

/-- The journal after the constants of sources were set aside, one source after the other. -/
def afterSources (sources : List Source) (journal : Journal) : Journal :=
  sources.foldl (fun journal source => ((constant source).runFrom journal).2) journal

/-- The constants that sources declare, those of a source that cannot be read left out. -/
def declaredConstants (sources : List Source) : List Variable :=
  sources.flatMap fun source => registeredConstants source.text

/-- Each source adds to the constants that are set aside. -/
theorem constants_afterSources (sources : List Source) (journal : Journal) :
    (afterSources sources journal).constants = (declaredConstants sources).foldl setAside journal.constants := by
  induction sources generalizing journal with
  | nil => rfl
  | cons source sources ih =>
    have hfirst := (runFrom_constant source journal).2
    rw [declaredConstants, List.flatMap_cons, List.foldl_append, ← hfirst]
    exact ih _

/-- A source of constants fails, declares none and leaves the journal as it is, or it is migrated without files and
declares the constants that it registers. -/
theorem runFrom_constant_cases (source : Source) (journal : Journal) :
    (∃ fault, (constant source).runFrom journal = (.error fault, journal) ∧ registeredConstants source.text = []) ∨
      ((constant source).runFrom journal).1 = .ok [] ∧
        Constant.analyze source.text = .ok (registeredConstants source.text) ∧ registeredConstants source.text ≠ [] := by
  have houtcome := (runFrom_constant source journal).1
  rw [registeredConstants]
  cases hfound : Constant.analyze source.text with
  | error fault =>
    refine .inl ⟨fault, ?_, rfl⟩
    rw [constant, runFrom_bind, runFrom_ofExcept, hfound]
  | ok found =>
    cases found with
    | nil =>
      refine .inl ⟨.noRegistration (txt "constant") source.path.display, ?_, rfl⟩
      rw [constant, runFrom_bind, runFrom_ofExcept, hfound]
      rfl
    | cons first rest =>
      rw [hfound] at houtcome
      exact .inr ⟨houtcome, rfl, List.cons_ne_nil first rest⟩

/-! ### The file of constants -/

/-- The content of code has no line breaks within its lines. -/
theorem break_notMem_of_mem_codeContent {code line : Text} (h : line ∈ codeContent code) : '\n' ∉ line ∧ '\r' ∉ line := by
  obtain ⟨source, hsource, rfl⟩ := List.mem_map.1 (List.mem_filter.1 h).1
  refine ⟨fun hbreak => ?_, fun hreturn => ?_⟩
  · exact break_notMem_of_mem_lines hsource (mem_of_mem_trim hbreak)
  · exact return_notMem_normaliseBreaks code (mem_of_mem_line hsource (mem_of_mem_trim hreturn))

/-- A declaration is not empty. -/
theorem constantDeclaration_ne_nil (c : Variable) : constantDeclaration c ≠ [] := by
  unfold constantDeclaration
  exact List.append_ne_nil_of_right_ne_nil _ (List.cons_ne_nil ';' [])

/-- A declaration begins with a word and ends with a semicolon, so that there is nothing to trim. -/
theorem trim_constantDeclaration (c : Variable) : trim (constantDeclaration c) = constantDeclaration c := by
  obtain ⟨word, hword⟩ : ∃ word, txt "export const " = 'e' :: word := ⟨_, rfl⟩
  unfold constantDeclaration
  simp only [hword, List.cons_append]
  exact trim_cons_append (by decide) (by decide) _

/-- A declaration is laid out as a line as it stands exactly when it holds no line break. -/
theorem codeContent_constantDeclaration_iff (c : Variable) :
    codeContent (constantDeclaration c) = [constantDeclaration c] ↔
      '\n' ∉ constantDeclaration c ∧ '\r' ∉ constantDeclaration c := by
  constructor
  · intro h
    exact break_notMem_of_mem_codeContent (h ▸ List.mem_singleton_self _)
  · rintro ⟨hline, hreturn⟩
    exact codeContent_line hline hreturn (trim_constantDeclaration c) (constantDeclaration_ne_nil c)

/-- The content of the file of constants is that of their declarations. -/
theorem codeContent_constantsSource (constants : List Variable) : codeContent (constantsSource constants) =
    constants.flatMap fun c => codeContent (constantDeclaration c) := by
  rw [constantsSource, codeContent_layout, codeContent_unlines, flatMap_codeContent_spaced, List.flatMap_map]

/-- The line breaks of a declaration are those of its name and its value. -/
theorem mem_constantDeclaration_iff (c : Variable) {d : Char} (h : d = '\n' ∨ d = '\r') :
    d ∈ constantDeclaration c ↔ d ∈ c.name ∨ d ∈ constantValue c := by
  have hwords : ∀ d, d = '\n' ∨ d = '\r' → d ∉ txt "export const " ∧ d ∉ txt " = " ∧ d ∉ [';'] := by
    rintro d (rfl | rfl) <;> decide
  obtain ⟨hexport, hequals, hend⟩ := hwords d h
  unfold constantDeclaration
  simp only [List.mem_append, hexport, hequals, hend, false_or, or_false]

/-- The declaration of a literal is laid out as a line as it stands when its name holds no line break, and the literal
is no string with a carriage return. -/
theorem codeContent_literalDeclaration_iff {c : Variable} {value : Literal} (h : c.value = some value) :
    codeContent (constantDeclaration c) = [constantDeclaration c] ↔
      ('\n' ∉ c.name ∧ '\r' ∉ c.name) ∧ ∀ points, value = .string points → .char '\r' ∉ points := by
  have hvalue : constantValue c = value.render := by rw [constantValue, h]
  rw [codeContent_constantDeclaration_iff, mem_constantDeclaration_iff c (.inl rfl),
    mem_constantDeclaration_iff c (.inr rfl), hvalue, Literal.return_mem_render_iff]
  have hbreak := Literal.break_notMem_render value
  simp only [not_or, not_exists, not_and]
  tauto

/-- Constants are gathered from any number of sources, in any order, some of which may fail. A source that fails changes
nothing. Of the constants that the others declare, each name is kept once, in the order in which the names first came,
and with its first declaration. In the end none is set aside any more, and there is one file if there was any constant:
the declarations of the kept constants, in their order. Each of them is a line as it stands unless there is a line break
in it, and in the declaration of a literal there is one only when it is in the name or when the literal is a string with
a carriage return. A declaration over several lines, such as that of a template literal, is kept by its lines of code:
the white space around each of them and the blank lines are not. -/
theorem constants_gathered (settings : Settings) (sources : List Source) (journal : Journal) :
    let moved := afterSources sources { journal with constants := [] }
    let declared := declaredConstants sources
    let finished := (gatherConstants settings).runFrom moved
    (∀ source before,
        (∃ fault, (constant source).runFrom before = (.error fault, before) ∧ registeredConstants source.text = []) ∨
          ((constant source).runFrom before).1 = .ok [] ∧
            Constant.analyze source.text = .ok (registeredConstants source.text) ∧
            registeredConstants source.text ≠ []) ∧
      moved.constants.map (·.name) = (declared.map (·.name)).eraseDups ∧
      (∀ c ∈ moved.constants, declared.find? (·.name == c.name) = some c) ∧
      finished.2.constants = [] ∧
      (∃ content, codeContent content = (moved.constants.flatMap fun c => codeContent (constantDeclaration c)) ∧
        finished.1 = .ok (if moved.constants.isEmpty then [] else
          [⟨settings.constants.generatedFolder ++ ['/'] ++ settings.constants.generatedFile, content⟩])) ∧
      (∀ c, codeContent (constantDeclaration c) = [constantDeclaration c] ↔
        '\n' ∉ constantDeclaration c ∧ '\r' ∉ constantDeclaration c) ∧
      ∀ c value, c.value = some value → (codeContent (constantDeclaration c) = [constantDeclaration c] ↔
        ('\n' ∉ c.name ∧ '\r' ∉ c.name) ∧ ∀ points, value = .string points → .char '\r' ∉ points) := by
  intro moved declared finished
  have hkept : moved.constants = declared.foldl setAside [] := constants_afterSources sources _
  obtain ⟨hfile, hnone⟩ := runFrom_gatherConstants settings moved
  refine ⟨runFrom_constant_cases, ?_, fun c hc => ?_, hnone, ⟨constantsSource moved.constants, ?_, hfile⟩,
    codeContent_constantDeclaration_iff, fun c value => codeContent_literalDeclaration_iff⟩
  · rw [hkept]
    exact map_name_foldl_setAside declared
  · rw [hkept] at hc
    exact find?_of_mem_foldl_setAside hc
  · exact codeContent_constantsSource _

/-- A source that declares a name twice, one without constants, and one that declares a known name again. -/
theorem constants_gathered_repeated :
    let sources := [Source.make (.parse (txt "a.js")) (txt "m.constant('A', 'x').constant('B', 2).constant('A', 3);")
        .constant [] [],
      Source.make (.parse (txt "b.js")) (txt "m.service('A', f);") .constant [] [],
      Source.make (.parse (txt "c.js")) (txt "m.constant('B', 3).constant('C', f());") .constant [] []]
    let moved := afterSources sources {}
    let first : Variable := ⟨txt "A", txt "string", some (.text (txt "x")), txt "'x'"⟩
    moved.constants.map (·.name) = [txt "A", txt "B", txt "C"] ∧
      (∀ c ∈ moved.constants, (declaredConstants sources).find? (·.name == c.name) = some c) ∧
      (∃ content, ((gatherConstants { root := .parse ['.'] }).runFrom moved).1 =
        .ok [⟨txt "generated/constants/constants.ts", content⟩]) ∧
      first.value = some (.text (txt "x")) ∧
      (codeContent (constantDeclaration first) = [constantDeclaration first] ↔
        ('\n' ∉ first.name ∧ '\r' ∉ first.name) ∧
          ∀ points, Literal.text (txt "x") = .string points → .char '\r' ∉ points) := by
  intro sources moved first
  obtain ⟨-, hnames, hfirst, -, ⟨content, -, hfile⟩, -, hliteral⟩ :=
    constants_gathered { root := .parse ['.'] } sources {}
  have hdeclared : ((declaredConstants sources).map (·.name)).eraseDups = [txt "A", txt "B", txt "C"] := by
    decide +kernel
  have hkept : moved.constants.map (·.name) = [txt "A", txt "B", txt "C"] := hnames.trans hdeclared
  refine ⟨hkept, hfirst, ⟨content, hfile.trans ?_⟩, rfl, hliteral first _ rfl⟩
  rw [if_neg]
  · rfl
  · intro hempty
    rw [List.isEmpty_iff.1 hempty] at hkept
    exact absurd hkept (by decide)

/-- A string of a carriage return and a line feed is declared over two lines. -/
theorem carriage_return_declared :
    let source := Source.make (.parse (txt "eol.js")) (txt "m.constant('EOL', '\\r\\n');") .constant [] []
    let moved := ((constant source).runFrom {}).2
    moved.constants.map (·.expression) = [txt "'\\r\\n'"] ∧
      ((gatherConstants { root := .parse ['.'] }).runFrom moved).1.toOption =
        some [⟨txt "generated/constants/constants.ts", txt "export const EOL = '\n\\n';\n"⟩] := by
  decide +kernel

end AngularUplift.Migration
