import AngularUplift.Text.Class

/-!
# Migration reports

A report explains what was done and what is left to do by hand. It is a list of nodes for each of the two, and
is written as Markdown.

## Main definitions

* `ReportNode`, `ReportNode.markdown`: a node and its text.
* `Report`, `Report.add`, `Report.markdown`: the nodes of a run.
-/

namespace AngularUplift

/-- Text as code within a line. -/
def inlineCode (text : Text) : Text := ['`'] ++ text ++ ['`']

/-- Text in bold face. -/
def bold (text : Text) : Text := txt "**" ++ text ++ txt "**"

/-- Names as code within a line, separated by commas. -/
def inlineNames (names : List Text) : Text := inlineCode (Text.join (txt ", ") names)

/-- Code as a block of its own. -/
def codeBlock (code language : Text) : Text :=
  txt "```" ++ language ++ ['\n'] ++ Text.trimRight code ++ txt "\n```"

/-- A node of a report. -/
inductive ReportNode where
  /-- A step that was completed. -/
  | chip (text : Text)
  /-- A step that can be ticked off. -/
  | checkbox (text : Text) (checked : Bool)
  /-- A list with a title. -/
  | bulletList (title : Text) (level : Nat) (items : List ReportNode)
  /-- A title with nodes below it. -/
  | title (text : Text) (level : Nat) (children : List ReportNode)
deriving Repr, Inhabited

namespace ReportNode

/-- A title of the given level. -/
def heading (level : Nat) (text : Text) : Text := List.replicate level '#' ++ [' '] ++ text

mutual

/-- The Markdown text of a node. -/
def markdown : ReportNode → Text
  | chip text => txt "- " ++ text
  | checkbox text checked => txt "- [" ++ [if checked then 'x' else ' '] ++ txt "] " ++ text
  | bulletList name level items =>
    Text.join ['\n'] (heading level name :: [] :: markdowns items) ++ ['\n']
  | title text level children =>
    Text.join ['\n'] ((heading level text ++ ['\n']) :: markdowns children)

/-- The Markdown text of each of the nodes. -/
def markdowns : List ReportNode → List Text
  | [] => []
  | node :: rest => markdown node :: markdowns rest

end

/-- A list of completed steps. -/
def done (title : Text) (steps : List Text) : ReportNode := .bulletList title 3 (steps.map .chip)

/-- A step that is left to do. -/
def pending (text : Text) : ReportNode := .checkbox text false

end ReportNode

/-- What was done and what is left to do, each in order. -/
structure Report where
  /-- What was done. -/
  done : List ReportNode := []
  /-- What is left to do. -/
  todo : List ReportNode := []
deriving Repr

namespace Report

/-- The report with one more node. -/
def add (report : Report) (node : ReportNode) (todo : Bool) : Report :=
  if todo then { report with todo := report.todo ++ [node] }
  else { report with done := report.done ++ [node] }

/-- The number of nodes. -/
def size (report : Report) : Nat := report.done.length + report.todo.length

/-- The sections of a report; a section without nodes is left out. -/
def sections (report : Report) : List ReportNode :=
  [.title (txt "Migration report") 1 []] ++
    (if report.done.isEmpty then [] else [.title (txt "Done") 2 report.done]) ++
    (if report.todo.isEmpty then [] else [.title (txt "To do") 2 report.todo])

/-- The Markdown text of a report. -/
def markdown (report : Report) : Text :=
  Text.trimRight (Text.join ['\n'] (ReportNode.markdowns report.sections)) ++ ['\n']

end Report

end AngularUplift
