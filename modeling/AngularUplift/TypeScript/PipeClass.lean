import AngularUplift.Construct.Filter
import AngularUplift.Text.Identifier
import AngularUplift.TypeScript.Member

/-!
# Pipe classes

A filter becomes a pipe class. Where its body looks up other filters, it goes through injected pipes, and a note
says which ones to import.
-/

namespace AngularUplift

/-- The class name of the pipe for a filter. -/
def pipeClassName (filterName : Text) : Text := Text.pascalCase filterName ++ txt "Pipe"

/-- A look-up of a filter; the value is what stands between the parentheses, trimmed. -/
def filterCall : Pattern Text where
  left := anywhere
  read := do
    Reader.exactly (txt "$filter(")
    let inner ← Reader.run fun c => c != '(' && c != ')'
    Reader.exactly [')']
    return Text.trim inner

/-- A line with its look-ups exchanged for injected pipes, after a note for each of them. -/
def injectPipesLine (line : Text) : List Text :=
  let names := (filterCall.occurrences line).map fun found => Text.unquote found.value
  names.map (fun name => txt "//TODO: Import " ++ name ++ txt " pipe") ++
    [filterCall.replaceWith (fun _ name => txt "this." ++ Text.unquote name ++ txt "Pipe.transform") line]

/-- A body with look-ups of filters exchanged for injected pipes. -/
def injectPipes (body : Text) : Text := Text.join ['\n'] (body.lines.flatMap injectPipesLine)

/-- The source of a pipe class. -/
def pipeSource (f : Filter) : Text :=
  layout <| Text.unlines
    [importLine [txt "Pipe", txt "PipeTransform"] (txt "@angular/core"),
      [],
      txt "@Pipe(\x7b",
      txt "  name: '" ++ f.name ++ txt "'",
      txt "\x7d)",
      opens (txt "export class " ++ pipeClassName f.name ++ txt " implements PipeTransform"),
      txt "constructor(",
      injectionParameters f.injections,
      txt ") \x7b \x7d",
      [],
      opens (txt "transform(" ++ parameterList f.params ++ txt "): any"),
      injectPipes (updateBody none f.body),
      txt "\x7d",
      txt "\x7d"]

end AngularUplift
