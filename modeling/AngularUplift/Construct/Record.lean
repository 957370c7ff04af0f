import AngularUplift.Construct.Analysis

/-!
# Models as records

The record that shows a model: one field for each of its parts, in a fixed order. Records are printed by
`Literal.json` and `Literal.jsonIndented`.
-/

namespace AngularUplift

/-- A record from its fields. -/
def Literal.ofFields (fields : List (String × Literal)) : Literal :=
  .record (fields.map fun (key, value) => (CodePoint.ofText (txt key), value))

/-- A list of texts. -/
def Literal.ofTexts (texts : List Text) : Literal := .list (texts.map .text)

/-- The record of a variable. -/
def Variable.record (v : Variable) : Literal :=
  .ofFields [("name", .text v.name), ("type", .text v.typeName), ("value", v.value.getD .null),
    ("expression", .text v.expression)]

/-- The records of variables. -/
def Variable.records (vs : List Variable) : Literal := .list (vs.map Variable.record)

/-- The record of a function. -/
def Function.record (f : Function) : Literal :=
  .ofFields [("name", .text f.name), ("parameters", Variable.records f.parameters), ("body", .text f.body),
    ("comment", .text f.comment)]

/-- The records of functions. -/
def Function.records (fs : List Function) : Literal := .list (fs.map Function.record)

/-- The record of a controller or a service. -/
def Registered.record (r : Registered) : Literal :=
  .ofFields [("name", .text r.name), ("body", .text r.body), ("inject", .ofTexts r.inject)]

/-- The record of a component registration. -/
def LegacyComponent.record (c : LegacyComponent) : Literal :=
  .ofFields [("name", .text c.name), ("template_url", .text c.templateUrl),
    ("controller", .text c.controller), ("bindings", .text c.bindings)]

/-- The fields that all directives have. -/
def Directive.fields (d : Directive) : List (String × Literal) :=
  [("name", .text d.name), ("template_url", .text d.templateUrl), ("controller", .text d.controller),
    ("scope", .text d.scope), ("link", .text d.link)]

/-- The record of a directive. -/
def Directive.record (d : Directive) : Literal := .ofFields d.fields

/-- The record of an attribute directive. -/
def AttributeDirective.record (d : AttributeDirective) : Literal :=
  .ofFields (d.fields ++ [("properties", Variable.records d.properties),
    ("injects", Variable.records d.injects), ("functions", Function.records d.functions)])

/-- The record of a component. -/
def Component.record (c : Component) : Literal :=
  .ofFields [("name", .text c.name), ("selector", .text c.selector), ("template_url", .text c.templateUrl),
    ("style_url", .text c.styleUrl), ("inputs", Variable.records c.inputs),
    ("properties", Variable.records c.properties), ("functions", Function.records c.functions),
    ("injections", Variable.records c.injections), ("todo", .text c.todo)]

/-- The record of an injectable class. -/
def Injectable.record (i : Injectable) : Literal :=
  .ofFields [("name", .text i.name), ("properties", Variable.records i.properties),
    ("functions", Function.records i.functions), ("injections", Variable.records i.injections),
    ("todo", .text i.todo)]

/-- The record of a filter. -/
def Filter.record (f : Filter) : Literal :=
  .ofFields [("name", .text f.name), ("params", Variable.records f.params), ("body", .text f.body),
    ("injections", Variable.records f.injections)]

namespace TestNode

/-- The fields that all nodes of a test tree have. -/
def commonFields (body comment : Text) (offset : Int) : List (String × Literal) :=
  [("body", .text body), ("comment", .text comment), ("source_offset", .int offset)]

mutual

/-- The record of a node of a test tree. -/
def record : TestNode → Literal
  | .describe title body comment offset children =>
    .ofFields (commonFields body comment offset ++
      [("title", .text title), ("children", .list (records children)), ("kind", .text (txt "describe"))])
  | .beforeEach body comment offset =>
    .ofFields (commonFields body comment offset ++ [("kind", .text (txt "before_each"))])
  | .xit title body comment offset =>
    .ofFields (commonFields body comment offset ++ [("title", .text title), ("kind", .text (txt "xit"))])
  | .it title body comment offset =>
    .ofFields (commonFields body comment offset ++ [("title", .text title), ("kind", .text (txt "it"))])
  | .other body comment offset =>
    .ofFields (commonFields body comment offset ++ [("kind", .text (txt "node"))])

/-- The records of nodes of a test tree. -/
def records : List TestNode → List Literal
  | [] => []
  | node :: rest => record node :: records rest

end

end TestNode

/-- The record of a model, or the list of its records. -/
def Model.record : Model → Literal
  | .component model => model.record
  | .controller model => model.record
  | .directive model => model.record
  | .attributeDirective model => model.record
  | .service model => model.record
  | .filters models => .list (models.map Filter.record)
  | .constants models => Variable.records models
  | .suite none => .null
  | .suite (some model) => model.record

end AngularUplift
