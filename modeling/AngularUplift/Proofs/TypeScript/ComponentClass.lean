import AngularUplift.Proofs.TypeScript.NormalForm
import AngularUplift.TypeScript.ComponentClass

/-!
# What a component class holds

The source of a component class is put together from a skeleton and from pieces of code that may have many lines,
and is then laid out. All of it comes through: the content of the source is the content of the skeleton's lines and
of the pieces between them, in their order.

## Main definitions

* `Text.codeContent`: the content of code, whatever line breaks it is written with.
* `injectedLines`, `isDeferred`: the constructor parameters, one a line, and the members that are set up later.
* `headerContent`, `constructorContent`, `initContent`, `doCheckContent`, `methodContent`, `closingContent`: the
  content of the sections of a class.

## Main statements

* `codeContent_layout`, `codeContent_unlines`: the content of laid-out code, and of lines of code.
* `codeContent_method`: the content of a method, its comment first.
* `codeContent_componentSource`: the content of a component class.
-/

namespace AngularUplift

namespace Text

/-! ### The content of code -/

/-- The trimmed lines of code that are not blank, whatever line breaks the code is written with. -/
def codeContent (code : Text) : List Text := content (normaliseBreaks code)

/-- The content of code with a line break in it is that of the two parts. -/
theorem codeContent_append_break (code other : Text) :
    codeContent (code ++ '\n' :: other) = codeContent code ++ codeContent other := by
  obtain ⟨front, hwhole, hfirst⟩ := normaliseBreaks_append_break code other
  rw [codeContent, hwhole, content_append_break, codeContent, codeContent]
  rcases hfirst with hfront | hreturn
  · rw [hfront]
  · -- A carriage return before the line break would only add an empty line.
    have hempty : content [] = [] := rfl
    rw [hreturn, content_append_break, hempty, List.append_nil]

/-- The content of lines of code, each followed by a line break. -/
theorem codeContent_unlines (codes : List Text) : codeContent (unlines codes) = codes.flatMap codeContent := by
  induction codes with
  | nil => rfl
  | cons code codes ih => rw [unlines_cons, codeContent_append_break, ih, List.flatMap_cons]

/-- One line that is neither blank nor to be trimmed is its own content. -/
theorem codeContent_line {line : Text} (hline : '\n' ∉ line) (hreturn : '\r' ∉ line) (htrim : trim line = line)
    (hne : line ≠ []) : codeContent line = [line] := by
  rw [codeContent, normaliseBreaks_eq_self hreturn, content, lines_eq_singleton hline,
    contentOf_cons (by rwa [htrim]), htrim]
  rfl

end Text

open Text

/-- Layout keeps the content of code, with line breaks of every kind. -/
theorem codeContent_layout (code : Text) : codeContent (layout code) = codeContent code := by
  have hindent : ∀ c ∈ txt "  ", isGap c := List.all_eq_true.1 rfl
  obtain ⟨state, hstate⟩ := exists_yields hindent code
  calc codeContent (layout code)
      = content (layoutWith (txt "  ") code) := by
        rw [codeContent, layout, normaliseBreaks_eq_self hstate.return_notMem_layoutWith]
    _ = contentOf state.output.reverse := by
        rw [hstate.layout_eq]
        exact content_join_append_break fun line hline => hstate.no_break line (List.mem_reverse.1 hline)
    _ = codeContent code := hstate.content_eq

/-! ### The pieces of a class -/

/-- The content of a method: its comment, its head, its body and the closing brace. -/
def methodContent (f : Function) : List Text :=
  codeContent f.comment ++
  codeContent (txt "public " ++ f.name ++ txt "(" ++ parameterList f.parameters ++ txt ") \x7b") ++
  codeContent (updateBody (some .controllerToThis) f.body) ++
  [txt "\x7d"]

theorem codeContent_method (f : Function) : codeContent (method (some .controllerToThis) [] f) = methodContent f := by
  let head := txt "public " ++ f.name ++ txt "(" ++ parameterList f.parameters ++ txt ") \x7b"
  let code := head ++ '\n' :: (updateBody (some .controllerToThis) f.body ++ '\n' :: txt "\x7d")
  have hcode : codeContent code =
      codeContent head ++ (codeContent (updateBody (some .controllerToThis) f.body) ++ [txt "\x7d"]) := by
    have hbrace : codeContent (txt "\x7d") = [txt "\x7d"] := by decide
    rw [codeContent_append_break, codeContent_append_break, hbrace]
  have hmethod : method (some .controllerToThis) [] f =
      if f.comment.isEmpty then code else f.comment ++ '\n' :: code := by
    have hhead : txt ") \x7b" = [')', ' ', '\x7b'] := rfl
    have hclose : txt "\n\x7d" = '\n' :: txt "\x7d" := rfl
    rw [method, hclose]
    split <;> simp [code, head, opens, hhead, txt]
  rw [hmethod, methodContent, List.append_assoc, List.append_assoc, ← hcode]
  -- A method without a comment has no empty line for it, but the content is the same.
  split
  · next hempty =>
    have hnone : codeContent [] = [] := rfl
    rw [List.isEmpty_iff.1 hempty, hnone, List.nil_append]
  · rw [codeContent_append_break]

/-- The constructor parameters for injected tokens, a comma after each but the last. -/
def injectedLines : List Variable → List Text
  | [] => []
  | [v] => [txt "private " ++ v.name ++ txt ": " ++ v.typeName]
  | v :: next :: rest => (txt "private " ++ v.name ++ txt ": " ++ v.typeName ++ [',']) :: injectedLines (next :: rest)

theorem codeContent_injectionParameters (injections : List Variable) :
    codeContent (injectionParameters injections) = (injectedLines injections).flatMap codeContent := by
  fun_induction injectedLines injections with
  | case1 => rfl
  | case2 v => simp [injectionParameters, Text.join]
  | case3 v next rest ih =>
    have hsplit : injectionParameters (v :: next :: rest) =
        (txt "private " ++ v.name ++ txt ": " ++ v.typeName ++ [',']) ++
          '\n' :: injectionParameters (next :: rest) := by
      have hseparator : txt ",\n" = [',', '\n'] := rfl
      simp [injectionParameters, Text.join, hseparator]
    rw [hsplit, codeContent_append_break, ih, List.flatMap_cons]

/-- A member that was set to something other than a literal, and so is set up later. -/
def isDeferred (v : Variable) : Bool := v.value.isNone && !v.expression.isEmpty

theorem deferredAssignments_eq (vs : List Variable) :
    deferredAssignments (some .controllerToThis) vs =
      (vs.filter isDeferred).map fun v =>
        txt "this." ++ v.name ++ txt " = " ++ updateBody (some .controllerToThis) v.expression ++ [';'] := by
  induction vs with
  | nil => rfl
  | cons v vs ih =>
    rw [deferredAssignments] at ih ⊢
    by_cases hv : isDeferred v
    · have hsome : (v.value.isSome || v.expression.isEmpty) = false := by
        simpa [isDeferred] using hv
      rw [List.filter_cons_of_pos hv, List.map_cons, ← ih, List.filterMap_cons_some]
      rw [deferredAssignment?, hsome]
      rfl
    · have hnone : (v.value.isSome || v.expression.isEmpty) = true := by
        simpa [isDeferred, or_iff_not_imp_left] using hv
      rw [List.filter_cons_of_neg hv, ← ih, List.filterMap_cons_none]
      rw [deferredAssignment?, hnone, if_pos rfl]

/-- The body that runs on every change check, of functions of which at most one does. -/
theorem codeContent_doCheckBody {functions : List Function}
    (h : (functions.filter (·.name == doCheckName)).length ≤ 1) :
    codeContent (doCheckBody functions) =
      (functions.filter (·.name == doCheckName)).flatMap fun f =>
        codeContent (updateBody (some .controllerToThis) f.body) := by
  rw [doCheckBody, ← List.head?_filter]
  generalize functions.filter (·.name == doCheckName) = found at h ⊢
  match found, h with
  | [], _ => rfl
  | [f], _ => simp
  | _ :: _ :: _, h => simp at h

/-- A blank line between pieces of code adds nothing to their content. -/
theorem flatMap_codeContent_spaced (codes : List Text) :
    (spaced codes).flatMap codeContent = codes.flatMap codeContent := by
  have hempty : codeContent [] = [] := rfl
  simp [spaced, List.flatMap_assoc, hempty]

/-! ### The sections of a class -/

/-- The content of the imports and of the class head with its decorator. -/
def headerContent (className : Text) (c : Component) (options : ClassOptions) : List Text :=
  [txt "import \x7b Component, DoCheck, Input, OnInit \x7d from '@angular/core';"] ++
  (if options.downgrade then
    [txt "import \x7b downgradeComponent \x7d from '@angular/upgrade/static';", txt "declare var angular: any;"]
   else []) ++
  [txt "@Component(\x7b"] ++
  codeContent (txt "  selector: '" ++ c.selector ++ txt "',") ++
  codeContent (txt "  styleUrls: ['" ++ c.styleUrl ++ txt "'],") ++
  codeContent (txt "  templateUrl: '" ++ c.templateUrl ++ txt "'") ++
  [txt "\x7d)"] ++
  codeContent (txt "export class " ++ className ++ txt " implements OnInit, DoCheck \x7b")

/-- The content of the constructor. -/
def constructorContent (injections : List Variable) : List Text :=
  [txt "constructor("] ++ (injectedLines injections).flatMap codeContent ++ [txt ") \x7b \x7d"]

/-- The content of the method that sets up the members whose values are no literals. -/
def initContent (members : List Variable) : List Text :=
  [txt "public ngOnInit() \x7b"] ++
  (members.filter isDeferred).flatMap (fun v =>
    codeContent (txt "this." ++ v.name ++ txt " = " ++ updateBody (some .controllerToThis) v.expression ++ [';'])) ++
  [txt "\x7d"]

/-- The content of the method that runs on every change check. -/
def doCheckContent (functions : List Function) : List Text :=
  [txt "ngDoCheck(): void \x7b"] ++
  (functions.filter (·.name == doCheckName)).flatMap (fun f =>
    codeContent (updateBody (some .controllerToThis) f.body)) ++
  [txt "\x7d"]

/-- The content of the end of the class and of its registration for legacy code. -/
def closingContent (className : Text) (c : Component) (options : ClassOptions) : List Text :=
  [txt "\x7d"] ++
  (if options.downgrade then
    codeContent (txt "angular.module('" ++ options.moduleName ++ txt "')") ++
    [txt ".directive("] ++
    codeContent (['\''] ++ c.name ++ txt "',") ++
    codeContent (txt "downgradeComponent(\x7b component: " ++ className ++ txt " \x7d)") ++
    [txt ");"]
   else [])

/-- The lines of the skeleton that hold nothing of the component are content as they stand. -/
theorem codeContent_skeleton :
    ∀ line ∈ [txt "import \x7b Component, DoCheck, Input, OnInit \x7d from '@angular/core';",
        txt "import \x7b downgradeComponent \x7d from '@angular/upgrade/static';", txt "declare var angular: any;",
        txt "@Component(\x7b", txt "\x7d)", txt "constructor(", txt ") \x7b \x7d", txt "public ngOnInit() \x7b",
        txt "ngDoCheck(): void \x7b", txt "\x7d", txt ".directive(", txt ");"],
      codeContent line = [line] := by
  decide

/-- Nothing is dropped and nothing is moved: a component class holds the content of its sections, in their order. Of
several functions for the change check only the first would be kept. -/
theorem codeContent_componentSource {c : Component}
    (h : (c.functions.filter (·.name == doCheckName)).length ≤ 1) (className : Text) (options : ClassOptions) :
    codeContent (componentSource className c options) =
      headerContent className c options ++
      c.inputs.flatMap (fun v => codeContent (inputDeclaration v)) ++
      c.properties.flatMap (fun v => codeContent (propertyDeclaration v)) ++
      constructorContent (if options.insertInjections then c.injections else []) ++
      initContent (c.inputs ++ c.properties) ++
      doCheckContent c.functions ++
      (c.functions.filter (·.name != doCheckName)).flatMap methodContent ++
      codeContent c.todo ++
      closingContent className c options := by
  -- The fixed texts first, each in the form in which it stands among the lines of the class.
  have hskeleton := codeContent_skeleton
  simp only [List.forall_mem_cons] at hskeleton
  have hempty : codeContent [] = [] := rfl
  have himport : importLine [txt "Component", txt "DoCheck", txt "Input", txt "OnInit"] (txt "@angular/core") =
      txt "import \x7b Component, DoCheck, Input, OnInit \x7d from '@angular/core';" := rfl
  have hupgrade : importLine [txt "downgradeComponent"] (txt "@angular/upgrade/static") =
      txt "import \x7b downgradeComponent \x7d from '@angular/upgrade/static';" := rfl
  have hinit : opens (txt "public ngOnInit()") = txt "public ngOnInit() \x7b" := rfl
  have hcheck : opens (txt "ngDoCheck(): void") = txt "ngDoCheck(): void \x7b" := rfl
  have hclass : opens (txt "export class " ++ className ++ txt " implements OnInit, DoCheck") =
      txt "export class " ++ className ++ txt " implements OnInit, DoCheck \x7b" := by
    rw [opens, List.append_assoc]
    rfl
  have hdowngrade : txt "downgradeComponent(" ++ braced (txt "component: " ++ className) ++ [')'] =
      txt "downgradeComponent(\x7b component: " ++ className ++ txt " \x7d)" := by
    simp [braced, txt]
  have hinject : codeContent (if options.insertInjections then injectionParameters c.injections else []) =
      (injectedLines (if options.insertInjections then c.injections else [])).flatMap codeContent := by
    split
    · exact codeContent_injectionParameters c.injections
    · rfl
  -- Layout and line breaks are out of the way now, and the class is taken apart line by line.
  rw [componentSource, codeContent_layout, codeContent_unlines, componentLines]
  simp only [List.flatMap_append, List.flatMap_cons, List.flatMap_nil, List.flatMap_map, himport, hupgrade, hclass,
    hinit, hcheck, hdowngrade, hinject, hempty, hskeleton, deferredAssignments_eq, codeContent_doCheckBody h,
    flatMap_codeContent_spaced, codeContent_method]
  simp only [headerContent, constructorContent, initContent, doCheckContent, closingContent]
  by_cases hregistered : options.downgrade = true
  · simp [hregistered, hempty, hskeleton]
  · simp [hregistered]

theorem codeContent_componentSource_card :
    codeContent (componentSource (txt "Card")
      { selector := txt "card"
        styleUrl := txt "card.css"
        templateUrl := txt "card.html"
        inputs := [{ name := txt "user" }]
        properties := [{ name := txt "log", expression := txt "ctrl.make(\r\n\n1)" }]
        functions :=
          [{ name := txt "save", body := txt "ctrl.log.add(\n\n'kept');", comment := txt "/*\n\nkeeps it */" },
            { name := doCheckName, body := txt "ctrl.save();" }]
        injections := [{ name := txt "http" }, { name := txt "q" }]
        todo := txt "/* later() */" } {}) =
      [txt "import \x7b Component, DoCheck, Input, OnInit \x7d from '@angular/core';",
        txt "@Component(\x7b", txt "selector: 'card',", txt "styleUrls: ['card.css'],",
        txt "templateUrl: 'card.html'", txt "\x7d)", txt "export class Card implements OnInit, DoCheck \x7b",
        txt "@Input() public user: any;", txt "private log: any;",
        txt "constructor(", txt "private http: any,", txt "private q: any", txt ") \x7b \x7d",
        txt "public ngOnInit() \x7b", txt "this.log = this.make(", txt "1);", txt "\x7d",
        txt "ngDoCheck(): void \x7b", txt "this.save();", txt "\x7d",
        txt "/*", txt "keeps it */", txt "public save() \x7b", txt "this.log.add(", txt "'kept');", txt "\x7d",
        txt "/* later() */", txt "\x7d"] :=
  (codeContent_componentSource (by decide) (txt "Card") {}).trans (by decide +kernel)

end AngularUplift
