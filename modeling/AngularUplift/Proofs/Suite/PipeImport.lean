import AngularUplift.Proofs.Suite.Node
import AngularUplift.Proofs.Suite.PipeTest
import AngularUplift.Proofs.Suite.Printable

/-!
# Imports of the pipes that a spec makes

The imports of a pipe spec are not collected while its tests are written but searched for in the code that has been
written. The declarations of a test stay lines of the code of the whole suite, however deep the test is nested, and a
search for declarations that begins anywhere else on a line cannot pass over the beginning of a line. So the pipe of
every filter that some test looks up is imported.

## Main definitions

* `pipeModule`: the module of a pipe, seen from another pipe's folder.
* `IsAsciiName`: a name of a variable that is written in ASCII.

## Main statements

* `TestNode.hasCode_of_within`: a tree in which every node has a category can be printed.
* `TestNode.mem_lines_content`: the lines of a test are lines of the code of its suite.
* `exists_pipeDeclaration`: the search for declarations finds those that are lines.
* `pipeImports_eq`: the imports of a spec are one for each variable that is declared.
-/

namespace AngularUplift

/-! ### The code of a tree -/

namespace TestNode

variable {testBody : Text → Text} {node root suite : TestNode} {line : Text}

/-- A tree in which every node has a category can be printed. -/
theorem hasCode_of_within : (root : TestNode) → (∀ node : TestNode, node.Within root → node.category? ≠ none) →
    root.HasCode
  | describe title body comment offset children, h =>
    hasCode_describe title body comment offset fun child hchild =>
      hasCode_of_within child fun _ hnode => h _ (.child hchild hnode)
  | beforeEach .., _ | xit .., _ | it .., _ => fun _ => ⟨_, rfl⟩
  | other .., h => absurd rfl (h _ .root)

/-- The code of several nodes has that of each of them. -/
theorem exists_of_childrenCode {nodes : List TestNode} {codes : List Text}
    (h : childrenCode testBody nodes = .ok codes) (hnode : node ∈ nodes) :
    ∃ code ∈ codes, node.code testBody = .ok code := by
  induction nodes generalizing codes with
  | nil => exact absurd hnode List.not_mem_nil
  | cons first rest ih =>
    rw [childrenCode] at h
    cases hfirst : first.code testBody with
    | error fault =>
      rw [hfirst] at h
      cases h
    | ok code =>
      cases hrest : childrenCode testBody rest with
      | error fault =>
        rw [hfirst, hrest] at h
        cases h
      | ok others =>
        rw [hfirst, hrest] at h
        obtain rfl := Except.ok.inj h
        rcases List.mem_cons.1 hnode with rfl | hmem
        · exact ⟨code, List.mem_cons_self, hfirst⟩
        · obtain ⟨other, hother, hcode⟩ := ih hrest hmem
          exact ⟨other, List.mem_cons_of_mem code hother, hcode⟩

/-- The lines of a part of a block are lines of its code. -/
theorem mem_lines_nonEmptyLines {part : Text} {parts : List Text} (hpart : part ∈ parts) (hline : line ∈ part.lines)
    (hne : line ≠ []) : line ∈ (nonEmptyLines parts).lines := by
  have hempty : part ≠ [] := by
    rintro rfl
    exact hne (List.mem_singleton.1 hline)
  have hkept : part ∈ parts.filter (!·.isEmpty) := by simp [hpart, hempty]
  rw [nonEmptyLines, Text.lines_append_break]
  exact List.mem_append_left _ (Text.mem_lines_join hkept hline)

/-- The lines of a child are lines of the code of its suite. -/
theorem mem_lines_of_child {whole : Text} (hchild : node ∈ root.children) (hcode : root.code testBody = .ok whole) :
    ∃ code, node.code testBody = .ok code ∧ ∀ line ∈ code.lines, line ≠ [] → line ∈ whole.lines := by
  cases root with
  | describe title body comment offset children =>
    rw [code] at hcode
    cases hinner : childrenCode testBody children with
    | error fault =>
      rw [hinner] at hcode
      cases hcode
    | ok inner =>
      rw [hinner] at hcode
      obtain rfl := Except.ok.inj hcode
      obtain ⟨code, hmem, hnode⟩ := exists_of_childrenCode hinner hchild
      refine ⟨code, hnode, fun line hline hne => ?_⟩
      exact mem_lines_nonEmptyLines (List.mem_append_right [_, _, _] List.mem_cons_self)
        (Text.mem_lines_join hmem hline) hne
  | beforeEach | xit | it | other => exact absurd hchild List.not_mem_nil

/-- The lines of a node are lines of the code of the tree. -/
theorem mem_lines_of_within {whole : Text} (hnode : node.Within root) (hcode : root.code testBody = .ok whole) :
    ∃ code, node.code testBody = .ok code ∧ ∀ line ∈ code.lines, line ≠ [] → line ∈ whole.lines := by
  -- The induction is on the way from the root down to the node.
  induction hnode generalizing whole with
  | root => exact ⟨whole, hcode, fun line hline _ => hline⟩
  | child hchild _ ih =>
    obtain ⟨inner, hinner, hlines⟩ := mem_lines_of_child hchild hcode
    obtain ⟨code, hcode, hnode⟩ := ih hinner
    exact ⟨code, hcode, fun line hline hne => hlines line (hnode line hline hne) hne⟩

/-- The lines of a node of a suite, the suite itself apart, are lines of the code inside the suite. -/
theorem mem_lines_content {inner : Text} (hnode : node.Within suite) (hne : node ≠ suite)
    (hcontent : suite.content testBody = .ok inner) :
    ∃ code, node.code testBody = .ok code ∧ ∀ line ∈ code.lines, line ≠ [] → line ∈ inner.lines := by
  cases hnode with
  | root => exact absurd rfl hne
  | child hchild hwithin =>
    rw [content] at hcontent
    cases hcodes : childrenCode testBody suite.children with
    | error fault =>
      rw [hcodes] at hcontent
      cases hcontent
    | ok codes =>
      rw [hcodes] at hcontent
      obtain rfl := Except.ok.inj hcontent
      obtain ⟨whole, hwhole, hcode⟩ := exists_of_childrenCode hcodes hchild
      obtain ⟨code, hcode, hlines⟩ := mem_lines_of_within hwithin hcode
      exact ⟨code, hcode, fun line hline hne => Text.mem_lines_join hwhole (hlines line hline hne)⟩

/-- A node that is a test, whether it is skipped or not. -/
def IsTest (node : TestNode) : Prop := node.category? = some .it ∨ node.category? = some .xit

/-- The lines of the body of a test are lines of its code. -/
theorem IsTest.mem_lines_code (h : node.IsTest) {code : Text} (hcode : node.code testBody = .ok code)
    (hline : line ∈ (testBody node.body).lines) (hne : line ≠ []) : line ∈ code.lines := by
  cases node with
  | describe | beforeEach | other => simp [IsTest, category?] at h
  | xit | it =>
    rw [TestNode.code] at hcode
    obtain rfl := Except.ok.inj hcode
    exact mem_lines_nonEmptyLines (List.mem_append_right [_, _] List.mem_cons_self) hline hne

end TestNode

/-! ### Declarations -/

/-- A name of a variable that is written in ASCII. -/
structure IsAsciiName (name : Text) : Prop extends IsVariableName name where
  /-- All of its characters are ASCII characters. -/
  ascii : ∀ c ∈ name, c.toNat < 0x80

/-- The name of the class of a pipe is a name, and more than the word that it ends with. -/
theorem IsAsciiName.pipeClassName {name : Text} (h : IsAsciiName name) :
    (∀ c ∈ pipeClassName name, isName c) ∧ 4 < (pipeClassName name).length := by
  have hword : (txt "Pipe").all isName := by decide
  have hchars : ∀ c ∈ name, c.toNat < 0x80 ∧ isName c := fun c hc => ⟨h.ascii c hc, h.isName c hc⟩
  have hpascal := Text.isName_pascalCase hchars
  have hpos := List.length_pos_of_ne_nil (Text.pascalCase_ne_nil h.ne_nil hchars)
  have hlength : (txt "Pipe").length = 4 := rfl
  rw [AngularUplift.pipeClassName]
  refine ⟨List.forall_mem_append.2 ⟨fun c hc => (hpascal c hc).2, List.all_eq_true.1 hword⟩, ?_⟩
  rw [List.length_append, hlength]
  omega

section Declaration

variable {name text rest content : Text}

/-- A declaration is read. -/
theorem read_pipeDeclaration (h : IsAsciiName name) (rest : Text) :
    pipeDeclaration.read (pipeLine name ++ rest) = some (name, ';' :: rest) := by
  obtain ⟨hclass, hlength⟩ := h.pipeClassName
  have hne : pipeClassName name ≠ [] := List.ne_nil_of_length_pos (by omega)
  have hends : (pipeClassName name).endsWith (txt "Pipe") = true :=
    List.isSuffixOf_iff_suffix.2 (List.suffix_append _ _)
  rw [pipeLine]
  simp only [List.append_assoc]
  refine Reader.bind_eq_some_iff.2 ⟨(), _, Reader.exactly_eq_some_iff.2 rfl, ?_⟩
  refine Reader.bind_eq_some_iff.2 ⟨name, _, Reader.run1_append h.ne_nil h.isName (Reader.head_cons (by decide)), ?_⟩
  refine Reader.bind_eq_some_iff.2 ⟨(), _, Reader.exactly_eq_some_iff.2 rfl, ?_⟩
  have hopen : isName '(' = false := by decide
  refine Reader.bind_eq_some_iff.2 ⟨pipeClassName name, _, Reader.run1_append hne hclass (Reader.head_cons hopen), ?_⟩
  rw [hends, decide_eq_true hlength, Bool.and_self, if_pos rfl]
  exact Reader.bind_eq_some_iff.2 ⟨(), ';' :: rest, Reader.exactly_eq_some_iff.2 rfl, rfl⟩

/-- What is read as a declaration has no line break. -/
theorem taken_of_pipeDeclaration (h : pipeDeclaration.read text = some (name, rest)) :
    ∃ taken, text = taken ++ rest ∧ '\n' ∉ taken := by
  simp only [pipeDeclaration, Reader.bind_eq_some_iff, Reader.exactly_eq_some_iff] at h
  obtain ⟨-, afterWord, rfl, variableName, afterName, rname, -, afterNew, rfl, className, afterClass, rclass, rend⟩ := h
  obtain ⟨rfl, -, hname⟩ := Reader.run1_eq_some rname
  obtain ⟨rfl, -, hclass⟩ := Reader.run1_eq_some rclass
  obtain ⟨last, rfl, hlast⟩ : ∃ last, afterClass = last ++ rest ∧ '\n' ∉ last := by
    split at rend
    · obtain ⟨_, after, rlast, hpure⟩ := Reader.bind_eq_some_iff.1 rend
      obtain ⟨-, rfl⟩ := Reader.pure_eq_some_iff.1 hpure
      exact ⟨txt "()", Reader.exactly_eq_some_iff.1 rlast, by decide⟩
    · obtain ⟨_, after, rlast, -⟩ := Reader.bind_eq_some_iff.1 rend
      cases rlast
  refine ⟨txt "let " ++ (variableName ++ (txt " = new " ++ (className ++ last))), by simp only [List.append_assoc], ?_⟩
  have hbreak : isName '\n' = false := by decide
  have hwords : '\n' ∉ txt "let " ∧ '\n' ∉ txt " = new " := by decide
  simp only [List.mem_append, not_or]
  exact ⟨hwords.1, notMem_of_class hname hbreak, hwords.2, notMem_of_class hclass hbreak, hlast⟩

/-- Reading a declaration leaves the end of the text. -/
theorem suffix_of_pipeDeclaration {value : Text} (h : pipeDeclaration.read text = some (value, rest)) :
    rest <:+ text := by
  obtain ⟨taken, rfl, -⟩ := taken_of_pipeDeclaration h
  exact List.suffix_append ..

/-- The search for declarations finds those that are lines. -/
theorem exists_pipeDeclaration (h : IsAsciiName name) (hline : pipeLine name ∈ content.lines) :
    ∃ found ∈ pipeDeclaration.occurrences content, found.value = name := by
  obtain ⟨front, back, rfl, hfront, -, -⟩ := Text.exists_of_mem_lines hline
  have hleft : pipeDeclaration.left front.reverse (pipeLine name ++ back) = true := by
    obtain rfl | ⟨lines, rfl⟩ := hfront.eq_nil_or
    · rfl
    · rw [List.reverse_append]
      rfl
  have hat : ∃ n, pipeDeclaration.at? front.reverse (pipeLine name ++ back) = some (n, name) := by
    rw [Pattern.at?, if_pos hleft, read_pipeDeclaration h back]
    exact ⟨_, rfl⟩
  obtain ⟨n, hat⟩ := hat
  refine Pattern.exists_mem_occurrences suffix_of_pipeDeclaration hat
    fun early late inside rest other hsplit hlate _ _ hread => ?_
  -- A declaration that begins further up would go on behind the end of a line.
  obtain ⟨taken, htaken, hbreak⟩ := taken_of_pipeDeclaration hread
  obtain rfl := List.append_cancel_right htaken
  obtain rfl | ⟨lines, rfl⟩ := hfront.eq_nil_or
  · exact absurd (List.append_eq_nil_iff.1 hsplit.symm).2 hlate
  · have hlast : late.getLast? = some '\n' := by
      rw [← List.getLast?_append_of_ne_nil early hlate, ← hsplit, List.getLast?_concat]
    exact absurd (List.mem_append_left inside (List.mem_of_getLast? hlast)) hbreak

end Declaration

/-! ### Imports -/

/-- The module of the pipe for a filter, as the spec in the folder of another pipe names it. -/
def pipeModule (name suffix : Text) : Text :=
  txt "../" ++ Text.camelToDash name ++ ['/'] ++ Text.camelToDash name ++ suffix ++ txt ".pipe"

/-- A list without repetitions has none. -/
theorem nodup_eraseDups (names : List Text) : names.eraseDups.Nodup := by
  cases names with
  | nil => exact List.nodup_nil
  | cons name names =>
    rw [List.eraseDups_cons, List.nodup_cons]
    exact ⟨by simp, nodup_eraseDups _⟩
termination_by names.length
decreasing_by exact Nat.lt_succ_of_le (List.length_filter_le ..)

/-- The imports for the pipes of a spec are one for each variable that its code declares. -/
theorem pipeImports_eq (content suffix : Text) :
    ∃ names : List Text, names.Nodup ∧
      (∀ name, name ∈ names ↔ ∃ found ∈ pipeDeclaration.occurrences content, found.value = name) ∧
      pipeImports content suffix = names.map fun name => importLine [pipeClassName name] (pipeModule name suffix) :=
  ⟨_, nodup_eraseDups _, fun _ => by rw [List.mem_eraseDups, List.mem_map], rfl⟩

/-- The imports for its pipes are among the lines of a spec before it is laid out. -/
theorem exists_lines_pipeSpec {suite : TestNode} {content : Text} (h : suite.content pipeTestBody = .ok content)
    (suffix : Text) (i18n : Bool) :
    ∃ lines, pipeImports content suffix <:+: lines ∧
      pipeSpec suite suffix i18n = .ok (layout (Text.unlines lines)) := by
  rw [pipeSpec, h]
  refine ⟨_, ?_, rfl⟩
  have hfirst : ∀ {imports front back : List Text}, imports <:+: front → imports <:+: front ++ back :=
    fun hfront => hfront.trans (List.prefix_append ..).isInfix
  exact hfirst (hfirst (hfirst (hfirst (List.suffix_append ..).isInfix)))

namespace TestNode

variable {suite test : TestNode} {content name source : Text}

/-- A test declares the pipe of every filter that it looks up, and the code of the suite imports it. -/
theorem IsTest.imports_pipe (htest : test.IsTest) (hwithin : test.Within suite)
    (hsuite : suite.category? = some .describe) (hcontent : suite.content pipeTestBody = .ok content)
    (hname : IsAsciiName name) (hlookup : FilterLookup name source) (hoccurs : source <:+: test.body) (suffix : Text) :
    (∃ code, test.code pipeTestBody = .ok code ∧ pipeLine name ∈ code.lines) ∧
      importLine [pipeClassName name] (pipeModule name suffix) ∈ pipeImports content suffix := by
  have hline := pipeLine_mem_lines_pipeTestBody hlookup hname.toIsVariableName hoccurs
  have hne : pipeLine name ≠ [] := by
    obtain ⟨c, rest, hcons, -⟩ := (isTight_pipeLine name).exists_cons
    exact hcons ▸ List.cons_ne_nil c rest
  have hapart : test ≠ suite := by
    rintro rfl
    simp [IsTest, hsuite] at htest
  obtain ⟨code, hcode, hlines⟩ := mem_lines_content hwithin hapart hcontent
  have hmem := htest.mem_lines_code hcode hline hne
  refine ⟨⟨code, hcode, hmem⟩, ?_⟩
  obtain ⟨names, -, hnames, himports⟩ := pipeImports_eq content suffix
  rw [himports]
  exact List.mem_map_of_mem ((hnames name).2 (exists_pipeDeclaration hname (hlines _ hmem hne)))

end TestNode

end AngularUplift
