import AngularUplift.Construct.Kind
import AngularUplift.Text.Numeral

/-!
# Command-line arguments

Arguments are options and operands. Long options may be cut short as long as only one begins that way, short
switches may be written together, and a value may follow after an equals sign. After a separator everything is an
operand. All operands of a command have to stand together. Arguments are taken in order: a request for help ends
the reading, whatever follows, but not a mistake before it.

## Main definitions

* `OptionSpec`, `Grammar`: an option, and what a command takes.
* `ArgumentToken`, `tokens?`: the arguments, each known as an option or an operand.
* `Arguments`, `Grammar.read`: the options and the operands that a command is given.
-/

namespace AngularUplift.CommandLine

/-! ### Options -/

/-- What the value of an option has to be. -/
inductive ValueForm where
  /-- The option is a switch and takes no value. -/
  | switch
  /-- Any text. -/
  | text
  /-- The name of a construct kind. -/
  | kind
  /-- An integer. -/
  | number
deriving DecidableEq, Repr

/-- Whether a text is a value of a form. -/
def ValueForm.admits : ValueForm → Text → Bool
  | .switch, _ => false
  | .text, _ => true
  | .kind, value => (ConstructKind.ofLabel? value).isSome
  | .number, value => (Text.decimal? value).isSome

/-- An option. -/
structure OptionSpec where
  /-- Its names, with their dashes. -/
  names : List Text
  /-- What its value has to be. -/
  form : ValueForm
deriving DecidableEq, Repr

namespace OptionSpec

/-- The name that an option is known by. -/
def label (o : OptionSpec) : Text := o.names.getLast?.getD []

/-- Whether the option takes a value. -/
def takesValue (o : OptionSpec) : Bool := o.form != .switch

/-- A switch. -/
def switch (names : List String) : OptionSpec := ⟨names.map txt, .switch⟩

/-- An option with a value. -/
def valued (name : String) (form : ValueForm) : OptionSpec := ⟨[txt name], form⟩

/-- The switch for help. -/
def help : OptionSpec := switch ["-h", "--help"]

/-- The switch for more log messages. -/
def verbose : OptionSpec := switch ["-v", "--verbose"]

end OptionSpec

/-! ### Tokens -/

/-- What an argument is taken for. -/
inductive ArgumentToken where
  /-- An operand. -/
  | operand (text : Text)
  /-- An option by a name, with what is attached to it. -/
  | option (spec : OptionSpec) (name : Text) (attached : Option Text)
  /-- The mark after which everything is an operand. -/
  | separator
  /-- An option that is not known. -/
  | unknown
deriving DecidableEq, Repr

namespace ArgumentToken

/-- Whether a token is no option. -/
def isOperand : ArgumentToken → Bool
  | .operand _ | .separator => true
  | .option .. | .unknown => false

/-- The text of an operand. -/
def text? : ArgumentToken → Option Text
  | .operand text => some text
  | _ => none

end ArgumentToken

/-- Whether a text is a negative number, which is no option. A line break at its end does not matter. -/
def isNegativeNumber (text : Text) : Bool :=
  let isDigit (c : Char) : Bool := (decimalDigit? c).isSome
  let line := if text.getLast? = some '\n' then text.dropLast else text
  match line with
  | '-' :: rest =>
    let whole := rest.takeWhile isDigit
    match rest.dropWhile isDigit with
    | [] => !whole.isEmpty
    | c :: fraction => c == '.' && !fraction.isEmpty && fraction.all isDigit
  | _ => false

/-- The text before the first equals sign and the text after it. -/
def cutValue? (text : Text) : Option (Text × Text) :=
  let name := text.takeWhile (· != '=')
  if name.length < text.length then some (name, text.drop (name.length + 1)) else none

/-- The option of a name. -/
def named? (options : List OptionSpec) (name : Text) : Option OptionSpec := options.find? (·.names.elem name)

/-- The options with a name that begins with a text, each with that name. -/
def candidates (options : List OptionSpec) (start : Text) : List (OptionSpec × Text) :=
  options.flatMap fun o => (o.names.filter (Text.startsWith · start)).map (o, ·)

/-- What an option that is not spelled out may be: long ones cut short, or a short one with something attached. -/
def abbreviated (options : List OptionSpec) (text : Text) : List ArgumentToken :=
  if text.startsWith (txt "--") then
    let (start, attached) := match cutValue? text with
      | some (name, value) => (name, some value)
      | none => (text, none)
    (candidates options start).map fun (o, name) => .option o name attached
  else
    let name := text.take 2
    ((named? options name).map fun o => .option o name (some (text.drop 2))).toList

/-- What an argument is taken for; nothing, when it may be several options. -/
def classify? (options : List OptionSpec) (text : Text) : Option ArgumentToken :=
  if !text.startsWith ['-'] || text.length ≤ 1 then some (.operand text)
  else
    let spelledOut := (named? options text).map fun o => ArgumentToken.option o text none
    let withValue := (cutValue? text).bind fun (name, value) =>
      (named? options name).map fun o => ArgumentToken.option o name (some value)
    match spelledOut.or withValue with
    | some token => some token
    | none =>
      match abbreviated options text with
      | [token] => some token
      | [] => some (if isNegativeNumber text || text.elem ' ' then .operand text else .unknown)
      | _ => none

/-- What each argument is taken for; after a separator everything is an operand. Nothing, when one of them may be
several options. -/
def tokens? (options : List OptionSpec) : List Text → Option (List ArgumentToken)
  | [] => some []
  | text :: rest =>
    if text = txt "--" then some (.separator :: rest.map .operand)
    else do
      let token ← classify? options text
      return token :: (← tokens? options rest)

/-! ### Reading -/

/-- Why the reading of arguments ends early. -/
inductive Interruption where
  /-- The arguments are not what the command takes. -/
  | usage
  /-- Help was asked for. -/
  | help
deriving DecidableEq, Repr

/-- The operands that a command takes. -/
inductive OperandForm where
  /-- None. -/
  | none
  /-- Exactly one. -/
  | one
  /-- Any number. -/
  | any
deriving DecidableEq, Repr

/-- What a command takes. -/
structure Grammar where
  /-- Its options. -/
  options : List OptionSpec
  /-- Its operands. -/
  operands : OperandForm
deriving DecidableEq, Repr

/-- What a command is given. -/
structure Arguments where
  /-- The options in order, by the names that they are known by, with their values. -/
  options : List (Text × Option Text) := []
  /-- The operands, once they are read. -/
  operands : Option (List Text) := none
  /-- Whether there is something that the command does not take. -/
  hasSurplus : Bool := false
deriving DecidableEq, Repr

namespace Arguments

/-- Whether a switch was given. -/
def given (a : Arguments) (label : String) : Bool := a.options.any fun (name, _) => name == txt label

/-- The last value that an option was given. -/
def value? (a : Arguments) (label : String) : Option Text :=
  (a.options.filterMap fun (name, value) => if name = txt label then value else none).getLast?

/-- The last value that an option was given, unless it is empty. -/
def text? (a : Arguments) (label : String) : Option Text := (a.value? label).filter (!·.isEmpty)

/-- With one more option. A request for help ends the reading, and so does a value of a wrong form. -/
def addOption (a : Arguments) (entry : OptionSpec × Option Text) : Except Interruption Arguments :=
  let (spec, value) := entry
  if spec = .help then .error .help
  else if value.any (!spec.form.admits ·) then .error .usage
  else .ok { a with options := a.options ++ [(spec.label, value)] }

/-- With more options. -/
def addOptions (a : Arguments) (entries : List (OptionSpec × Option Text)) : Except Interruption Arguments :=
  entries.foldlM addOption a

end Arguments

/-- The switches that are written together, from one of them on. -/
def cluster (options : List OptionSpec) (spec : OptionSpec) :
    Text → Except Interruption (List (OptionSpec × Option Text))
  | [] => .ok [(spec, none)]
  | c :: rest =>
    if spec.takesValue then .ok [(spec, some (c :: rest))]
    else
      match named? options ['-', c] with
      | none => .error .usage
      | some next => do
        return (spec, none) :: (← cluster options next rest)

/-- The options that an option with something attached stands for. -/
def attachedOptions (options : List OptionSpec) (spec : OptionSpec) (name value : Text) :
    Except Interruption (List (OptionSpec × Option Text)) :=
  if spec.takesValue then .ok [(spec, some value)]
  else if value.isEmpty ∨ name.startsWith (txt "--") then .error .usage
  else cluster options spec value

/-- The operands that tokens begin with, as far as they are taken together, and the tokens after them. -/
def takeOperands (form : OperandForm) (found : List ArgumentToken) : Option (List Text × List ArgumentToken) :=
  match form with
  | .none => none
  | .any =>
    some ((found.takeWhile ArgumentToken.isOperand).filterMap ArgumentToken.text?,
      found.dropWhile ArgumentToken.isOperand)
  | .one =>
    match found with
    | .operand text :: .separator :: rest => some ([text], rest)
    | .operand text :: rest => some ([text], rest)
    | .separator :: .operand text :: rest => some ([text], rest)
    | _ => none

namespace Grammar

/-- Reads tokens from a state on; `fuel` bounds their number. -/
def readFrom (g : Grammar) : (fuel : Nat) → Arguments → List ArgumentToken → Except Interruption Arguments
  | 0, a, _ => .ok a
  | _ + 1, a, [] =>
    match a.operands, g.operands with
    | none, .one => .error .usage
    | none, _ => .ok { a with operands := some [] }
    | some _, _ => .ok a
  | fuel + 1, a, token :: rest =>
    match token with
    | .unknown => readFrom g fuel { a with hasSurplus := true } rest
    | .option spec name (some value) => do
      let a ← a.addOptions (← attachedOptions g.options spec name value)
      readFrom g fuel a rest
    | .option spec _ none =>
      if spec.takesValue then
        match rest with
        | .operand value :: rest => do
          let a ← a.addOption (spec, some value)
          readFrom g fuel a rest
        | _ => .error .usage
      else do
        let a ← a.addOption (spec, none)
        readFrom g fuel a rest
    | .operand _ | .separator =>
      match a.operands, takeOperands g.operands (token :: rest) with
      | none, some (texts, rest) => readFrom g fuel { a with operands := some texts } rest
      | _, _ => readFrom g fuel { a with hasSurplus := true } ((token :: rest).dropWhile ArgumentToken.isOperand)

/-- What a command is given by arguments. -/
def read (g : Grammar) (arguments : List Text) : Except Interruption Arguments :=
  match tokens? g.options arguments with
  | none => .error .usage
  | some found => g.readFrom (found.length + 1) {} found

end Grammar

end AngularUplift.CommandLine
