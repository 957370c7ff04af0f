import AngularUplift.Proofs.Construct.Totality
import AngularUplift.Proofs.Receiver
import AngularUplift.Proofs.Text.Line
import AngularUplift.TypeScript.Member

/-!
# Methods close where they end

A harvested function becomes a method: its body is rewritten and put between braces. Whether the braces of a text are
balanced depends only on the sequence of its braces, and no step of the rewriting adds, removes or moves one. So the
body of a method is as balanced as the text that was cut out of the source, and the brace after the signature is
closed by the last character of the method.

## Main definitions

* `Delimiter.marks`: the delimiters of one kind in a text.
* `Renaming.OfNames`: a renaming of names to a name.
* `methodHead`: what a method has before its brace.

## Main statements

* `Delimiter.Balanced.of_marks_eq`: balance depends on the delimiters alone.
* `marks_arrowFunctions`, `marks_removeBindThis`, `Renaming.OfNames.marks_apply`: each step keeps the braces.
* `marks_updateBody`: the rewriting of a body keeps its braces.
* `method_closes`: a method made of a harvested function closes with its last character.
-/

namespace AngularUplift

/-! ### The delimiters of a text -/

namespace Delimiter

variable {d : Delimiter} {text other : Text}

/-- One of the two characters of a delimiter. -/
def isMark (d : Delimiter) (c : Char) : Bool := c == d.opening || c == d.closing

/-- The delimiters of one kind in a text, in order. -/
def marks (d : Delimiter) (text : Text) : Text := text.filter d.isMark

@[simp]
theorem marks_append (d : Delimiter) (text other : Text) : d.marks (text ++ other) = d.marks text ++ d.marks other :=
  List.filter_append ..

theorem count_marks (d : Delimiter) (text : Text) :
    (d.marks text).count d.opening = text.count d.opening ∧ (d.marks text).count d.closing = text.count d.closing :=
  ⟨List.count_filter (by simp [isMark]), List.count_filter (by simp [isMark])⟩

/-- A text with the delimiters of a balanced text is balanced. -/
theorem Balanced.of_marks_eq (h : d.Balanced text) (hmarks : d.marks other = d.marks text) : d.Balanced other where
  closed := by
    rw [← (d.count_marks other).1, ← (d.count_marks other).2, hmarks, (d.count_marks text).1, (d.count_marks text).2,
      h.closed]
  nested front hfront := by
    -- The delimiters of a beginning of the one text are those of a beginning of the other.
    have hleading : d.marks front <+: d.marks text := hmarks ▸ hfront.filter d.isMark
    obtain ⟨beginning, hbeginning, heq⟩ := List.prefix_filter_iff.1 hleading
    rw [← (d.count_marks front).1, ← (d.count_marks front).2, heq]
    show (d.marks beginning).count d.closing ≤ (d.marks beginning).count d.opening
    rw [(d.count_marks beginning).1, (d.count_marks beginning).2]
    exact h.nested beginning hbeginning

/-- White space is no delimiter. -/
theorem isMark_of_isBlank {c : Char} (h : isBlank c = true) : d.isMark c = false := by
  refine Bool.eq_false_iff.2 fun hmark => ?_
  rw [isMark, Bool.or_eq_true, beq_iff_eq, beq_iff_eq] at hmark
  rcases hmark with rfl | rfl <;> cases d <;> exact absurd h (by decide)

/-- No character of a name is a delimiter. -/
theorem isMark_of_isName {c : Char} (h : isName c = true) : d.isMark c = false := by
  refine Bool.eq_false_iff.2 fun hmark => ?_
  rw [isMark, Bool.or_eq_true, beq_iff_eq, beq_iff_eq] at hmark
  rcases hmark with rfl | rfl <;> cases d <;> exact absurd h (by decide)

/-- A text of characters that are no delimiters has none. -/
theorem marks_eq_nil (h : ∀ c ∈ text, d.isMark c = false) : d.marks text = [] :=
  List.filter_eq_nil_iff.2 fun c hc => by simp [h c hc]

/-- Trimming takes no delimiters away. -/
@[simp]
theorem marks_trim (d : Delimiter) (text : Text) : d.marks (Text.trim text) = d.marks text :=
  Text.filter_trim (fun _ hc => isMark_of_isBlank hc) text

@[simp]
theorem marks_trimRight (d : Delimiter) (text : Text) : d.marks (Text.trimRight text) = d.marks text :=
  Text.filter_dropRightWhile (fun _ hc => isMark_of_isBlank hc) text

@[simp]
theorem marks_trimBreaks (d : Delimiter) (text : Text) : d.marks (Text.trimBreaks text) = d.marks text := by
  have hbreak : ∀ c : Char, (c == '\n') = true → d.isMark c = false := by
    intro c hc
    rw [beq_iff_eq.1 hc]
    exact isMark_of_isBlank (by decide)
  rw [marks, Text.trimBreaks, Text.filter_dropRightWhile hbreak, Text.filter_dropWhile hbreak, marks]

end Delimiter

/-! ### Steps of the rewriting -/

/-- Arrow functions have the delimiters of the functions they take the place of. -/
theorem marks_arrowFunctions (d : Delimiter) (code : Text) : d.marks (arrowFunctions code) = d.marks code := by
  apply Pattern.filter_replaceWith
  intro after parameters rest hread
  simp only [anonymousFunction, Reader.bind_eq_some_iff, Reader.pure_eq_some_iff, Reader.exactly_eq_some_iff] at hread
  obtain ⟨-, _, rfl, before, _, hread₁, -, _, rfl, inside, _, hread₂, -, _, rfl, between, _, hread₃, -, _, rfl, rfl,
    rfl⟩ := hread
  obtain ⟨rfl, hbefore⟩ := Reader.run_eq_some hread₁
  obtain ⟨rfl, -⟩ := Reader.run_eq_some hread₂
  obtain ⟨rfl, hbetween⟩ := Reader.run_eq_some hread₃
  refine ⟨txt "function" ++ (before ++ (['('] ++ (inside ++ ([')'] ++ (between ++ ['{']))))), by simp, ?_⟩
  -- The word and the white space hold no delimiters, and trimming the parameters takes none away.
  have hword : d.marks (txt "function") = [] := by cases d <;> decide
  have harrow : d.marks (txt ") => \x7b") = d.marks ([')'] ++ ['{']) := by cases d <;> decide
  show d.marks _ = d.marks _
  simp only [Delimiter.marks_append, Delimiter.marks_trim, hword, harrow, List.nil_append, List.append_assoc,
    Delimiter.marks_eq_nil fun c hc => Delimiter.isMark_of_isBlank (hbefore c hc),
    Delimiter.marks_eq_nil fun c hc => Delimiter.isMark_of_isBlank (hbetween c hc)]

/-- A call of `bind` has a pair of parentheses, but no braces. -/
theorem marks_removeBindThis (code : Text) :
    Delimiter.brace.marks (Text.removeBindThis code) = Delimiter.brace.marks code := by
  apply Pattern.filter_replaceWith
  intro after value rest hread
  simp only [bindThis, Reader.bind_eq_some_iff, Reader.exactly_eq_some_iff] at hread
  obtain ⟨-, _, rfl, before, _, hread₁, -, _, rfl, between, _, hread₂, rfl⟩ := hread
  obtain ⟨rfl, hbefore⟩ := Reader.run_eq_some hread₁
  obtain ⟨rfl, hbetween⟩ := Reader.run_eq_some hread₂
  refine ⟨txt ".bind(" ++ (before ++ (txt "this" ++ (between ++ txt ")"))), by simp, ?_⟩
  have hcall : Delimiter.brace.marks (txt ".bind(") = [] := by decide
  have hthis : Delimiter.brace.marks (txt "this") = [] := by decide
  have hclose : Delimiter.brace.marks (txt ")") = [] := by decide
  show Delimiter.brace.marks [] = Delimiter.brace.marks _
  simp only [Delimiter.marks_append, hcall, hthis, hclose,
    Delimiter.marks_eq_nil fun c hc => Delimiter.isMark_of_isBlank (hbefore c hc),
    Delimiter.marks_eq_nil fun c hc => Delimiter.isMark_of_isBlank (hbetween c hc)]
  rfl

namespace Renaming

/-- A renaming that is made of names, old and new, of word characters and dollar signs. -/
def OfNames (r : Renaming) : Prop :=
  ∃ aliases target, (∀ name ∈ aliases, ∀ c ∈ name, isName c) ∧ (∀ c ∈ target, isName c) ∧ make aliases target = .ok r

/-- A renaming of names puts the new name in the place of an old one. -/
theorem OfNames.eq_into {r : Renaming} (h : r.OfNames) :
    ∃ aliases target, (∀ name ∈ aliases, ∀ c ∈ name, isName c) ∧ (∀ c ∈ target, isName c) ∧
      r = into target aliases := by
  obtain ⟨aliases, target, haliases, htarget, hmake⟩ := h
  refine ⟨aliases, target, haliases, htarget, ?_⟩
  -- A backslash would begin an escape, but it is no character of a name.
  have hslash : '\\' ∉ target := fun hmem => absurd (htarget _ hmem) (by decide)
  rw [make, Replacement.parse_eq_fixed hslash] at hmake
  split at hmake
  · cases hmake
  · split at hmake
    · cases hmake
    · exact (Except.ok.inj hmake).symm

/-- A renaming of names keeps the delimiters. -/
theorem OfNames.marks_apply {r : Renaming} (h : r.OfNames) (d : Delimiter) (code : Text) :
    d.marks (r.apply code) = d.marks code := by
  obtain ⟨aliases, target, haliases, htarget, rfl⟩ := h.eq_into
  apply Pattern.filter_replaceWith
  intro after value rest hread
  obtain ⟨reader, hreader, hread⟩ := Reader.firstOf_eq_some hread
  obtain ⟨name, hname, rfl⟩ := List.mem_map.1 hreader
  obtain ⟨_, middle, hexactly, hnext⟩ := Reader.bind_eq_some_iff.1 hread
  obtain ⟨rfl, -⟩ := Reader.notNext_eq_some hnext
  refine ⟨name, Reader.exactly_eq_some_iff.1 hexactly, ?_⟩
  have hold : ∀ c ∈ name, isName c := haliases name (List.mem_mergeSort.1 hname)
  show d.marks (Replacement.expand (Replacement.fixed target) name) = d.marks name
  rw [Replacement.expand_fixed, Delimiter.marks_eq_nil fun c hc => Delimiter.isMark_of_isName (htarget c hc),
    Delimiter.marks_eq_nil fun c hc => Delimiter.isMark_of_isName (hold c hc)]

end Renaming

/-- The rewriting of a body keeps its braces. -/
theorem marks_updateBody {receivers : Option Renaming} (h : ∀ r ∈ receivers, r.OfNames) (code : Text) :
    Delimiter.brace.marks (updateBody receivers code) = Delimiter.brace.marks code := by
  have hbody : Delimiter.brace.marks (Text.removeBindThis (arrowFunctions code)) = Delimiter.brace.marks code := by
    rw [marks_removeBindThis, marks_arrowFunctions]
  cases receivers with
  | none => exact hbody
  | some r => exact ((h r rfl).marks_apply _ _).trans hbody

/-! ### Methods -/

/-- The body of a harvested function is balanced. -/
theorem Harvester.balanced_body_of_mem_harvest {h : Harvester} {body : Text} {f : Function}
    (hf : f ∈ (h.harvest body).1.functions) : Delimiter.brace.Balanced f.body := by
  obtain ⟨cuts, hpasses, hfunctions, -⟩ := passes_functionPasses body.blockComments h.heads (reachable_prepare body)
  rw [harvest_fst, hfunctions] at hf
  obtain ⟨cut, hcut, rfl⟩ := List.mem_map.1 hf
  obtain ⟨_, _, parts, hform⟩ := hpasses.exists_form cut hcut
  -- The body is what stood between the braces, less line breaks and white space at its ends.
  rw [hform.value]
  exact hform.raw.of_marks_eq (by rw [Delimiter.marks_trimRight, Delimiter.marks_trimBreaks])

/-- What a method has before its brace: the comment that documents it and its signature. -/
def methodHead (returnType : Text) (f : Function) : Text :=
  (if f.comment.isEmpty then [] else f.comment ++ ['\n']) ++
    (txt "public " ++ f.name ++ ['('] ++ parameterList f.parameters ++ [')'] ++
      if returnType.isEmpty then [] else txt ": " ++ returnType) ++ [' ']

/-- A method is its head and, between braces, the rewritten body on lines of its own. -/
theorem method_eq (receivers : Option Renaming) (returnType : Text) (f : Function) :
    method receivers returnType f =
      methodHead returnType f ++ '{' :: ('\n' :: (updateBody receivers f.body ++ ['\n']) ++ ['}']) := by
  have hclose : txt "\n\x7d" = ['\n', '}'] := rfl
  rw [method, methodHead, hclose, opens]
  generalize updateBody receivers f.body = code
  simp

/-- A method made of a harvested function closes where it ends: the brace after the signature is closed by the last
character of the method, also where other code stands before and after it. For a harvested body is balanced, and the
rewriting keeps the braces of every text, each of them and in their order. -/
theorem method_closes (h : Harvester) (body : Text) {f : Function} (hf : f ∈ (h.harvest body).1.functions)
    (returnType : Text) {receivers : Option Renaming} (hreceivers : ∀ r ∈ receivers, r.OfNames) :
    let code := method receivers returnType f
    let start := (methodHead returnType f).length
    methodHead returnType f ++ ['{'] <+: code ∧
      Delimiter.brace.close code start = .ok (code.length - 1) ∧
      (∀ before after, Delimiter.brace.close (before ++ code ++ after) (before.length + start : Nat) =
        .ok (before.length + (code.length - 1))) ∧
      Delimiter.brace.Balanced f.body ∧
      ∀ text, Delimiter.brace.marks (updateBody receivers text) = Delimiter.brace.marks text := by
  intro code start
  have hbody := Harvester.balanced_body_of_mem_harvest hf
  have hkept := marks_updateBody hreceivers
  let inner := '\n' :: (updateBody receivers f.body ++ ['\n'])
  have hcode : code = methodHead returnType f ++ '{' :: (inner ++ ['}']) := method_eq receivers returnType f
  have hinner : Delimiter.brace.Balanced inner := by
    apply hbody.of_marks_eq
    have hbreak : Delimiter.brace.marks ['\n'] = [] := by decide
    show Delimiter.brace.marks (['\n'] ++ (updateBody receivers f.body ++ ['\n'])) = _
    rw [Delimiter.marks_append, Delimiter.marks_append, hbreak, hkept, List.nil_append, List.append_nil]
  have hclose : ∀ before after, Delimiter.brace.close (before ++ code ++ after) (before.length + start : Nat) =
      .ok (before.length + (code.length - 1)) := by
    intro before after
    have htext : before ++ code ++ after = before ++ methodHead returnType f ++ '{' :: (inner ++ '}' :: after) := by
      rw [hcode]
      simp
    have hstart : before.length + start = (before ++ methodHead returnType f).length := List.length_append.symm
    have hstop : before.length + (code.length - 1) = (before ++ methodHead returnType f).length + 1 + inner.length := by
      rw [hcode]
      simp
      omega
    rw [htext, hstart, hstop]
    exact Delimiter.close_append hinner (before ++ methodHead returnType f) after
  refine ⟨⟨inner ++ ['}'], by rw [hcode]; simp⟩, ?_, hclose, hbody, hkept⟩
  simpa using hclose [] []

/-- A callback inside the function becomes an arrow function, and the method still closes where it ends. -/
theorem method_closes_callback :
    let body := txt "ctrl.load = function (a) \x7b get(function (x) \x7b ctrl.x = x; \x7d.bind(this)); \x7d;"
    ∃ f ∈ (({} : Harvester).harvest body).1.functions, f.name = txt "load" ∧
      let code := method (some .controllerToThis) (txt "void") f
      Delimiter.brace.close code (methodHead (txt "void") f).length = .ok (code.length - 1) := by
  intro body
  have hnames : (({} : Harvester).harvest body).1.functions.map (·.name) = [txt "load"] := by decide +kernel
  obtain ⟨f, hf, hname⟩ := List.mem_map.1 (hnames ▸ List.mem_singleton_self (txt "load"))
  have hreceivers : ∀ r ∈ some Renaming.controllerToThis, r.OfNames := by
    rintro r ⟨⟩
    have hold : [txt "ctrl"].all (·.all isName) = true := by decide
    have hnew : (txt "this").all isName = true := by decide
    refine ⟨[txt "ctrl"], txt "this", fun name hname => ?_, List.all_eq_true.1 hnew, by decide⟩
    exact List.all_eq_true.1 (List.all_eq_true.1 hold name hname)
  exact ⟨f, hf, hname, (method_closes {} body hf (txt "void") hreceivers).2.1⟩

end AngularUplift
