import AngularUplift.Datum
import AngularUplift.Text.Base64
import AngularUplift.Text.Case
import AngularUplift.Yaml.Document
import AngularUplift.Yaml.Merge

/-!
# Values of YAML

The value of a document. A scalar is read as its tag says; a mapping keeps the last value of a key in the first
place of the key.

## Main definitions

* `Yaml.integerOf`, `Yaml.realOf`, `Yaml.momentOf`: the values of scalars.
* `Yaml.Node.valueAt`: the value of a node.
* `Yaml.parse`: the value of a text.
-/

namespace AngularUplift.Yaml

/-! ### Scalars -/

/-- The integer of a numeral in a base. -/
def numeralOf (base : Nat) (text : Text) : Except ValueFault Int :=
  match Text.digits? base (Text.unsigned text).2, Text.integer? base text with
  | some digits, some value =>
    if base = 10 ∧ mostDigits < digits.length then .error (.tooManyDigits digits.length) else .ok value
  | _, _ => .error (.notInteger base text)

/-- The value of groups of digits, each of which counts a sixtieth of the one before. -/
def sexagesimal (groups : List Int) : Int := groups.foldl (fun total group => total * 60 + group) 0

/-- The integer that a text stands for: binary, octal, decimal, hexadecimal, or in hours, minutes and seconds.
Underscores do not matter. -/
def integerOf (text : Text) : Except ValueFault Int := do
  let plain := text.filter (· != '_')
  let sign : Int := if plain.head? = some '-' then -1 else 1
  match unsigned plain with
  | [] => throw .emptyNumeral
  | ['0'] => return 0
  | '0' :: 'b' :: digits => return sign * (← numeralOf 2 digits)
  | '0' :: 'x' :: digits => return sign * (← numeralOf 16 digits)
  | '0' :: digits => return sign * (← numeralOf 8 ('0' :: digits))
  | numeral =>
    if numeral.elem ':' then return sign * sexagesimal (← (numeral.fields ':').mapM (numeralOf 10))
    else return sign * (← numeralOf 10 numeral)

/-- A real number, or what is none. -/
inductive RealValue where
  /-- A number or an infinity. -/
  | number (value : Binary64)
  /-- What is no number. -/
  | notNumber
deriving DecidableEq, Repr

/-- The real number with its sign turned. -/
def RealValue.negate : RealValue → RealValue
  | .number (.finite negative significand exponent) => .number (.finite (!negative) significand exponent)
  | .number (.infinite negative) => .number (.infinite (!negative))
  | .notNumber => .notNumber

/-- The real number that an unsigned decimal numeral stands for, with an exponent or without. -/
def decimalOf? (text : Text) : Option Binary64 := do
  let whole := text.takeWhile isDecimal
  let rest := text.dropWhile isDecimal
  let (fraction, rest) := match rest with
    | '.' :: rest => (rest.takeWhile isDecimal, rest.dropWhile isDecimal)
    | rest => ([], rest)
  if whole.isEmpty ∧ fraction.isEmpty then none
  let exponent ← match rest with
    | [] => some 0
    | rest =>
      match Literal.readExponent rest with
      | some (exponent, []) => some exponent
      | _ => none
  return .ofDecimal false (Literal.ofDigits (whole ++ fraction)) (exponent - fraction.length)

/-- The real number that a numeral stands for. -/
def realNumeral? (text : Text) : Option RealValue :=
  let (negative, numeral) := Text.unsigned text
  let word := Text.toLower numeral
  let value :=
    if word = txt "inf" ∨ word = txt "infinity" then some (.number (.infinite false))
    else if word = txt "nan" then some .notNumber
    else (decimalOf? numeral).map .number
  if negative then value.map RealValue.negate else value

/-- The exact value of a number, as a quotient. -/
def quotientOf : Binary64 → Nat × Nat
  | .finite _ significand exponent => (significand * Nat.pow 2 exponent.toNat, Nat.pow 2 (-exponent).toNat)
  | .infinite _ => (0, 1)

/-- The number nearest to a quotient. -/
def nearest (num den : Nat) : Binary64 :=
  if num = 0 then .zero false else .ofQuotient false num den

/-- The number nearest to the sum of a number and a multiple of another one, which is itself rounded. -/
def addMultiple (total : Binary64) (factor : Nat) (x : Binary64) : Binary64 :=
  let (num, den) := quotientOf x
  let (num, den) := quotientOf (nearest (num * factor) den)
  let (sumNum, sumDen) := quotientOf total
  nearest (sumNum * den + num * sumDen) (sumDen * den)

/-- The value of groups, the last one first, each of which counts sixty times the one before. -/
def sexagesimalReal (factor : Nat) (total : Binary64) : List Binary64 → Binary64
  | [] => total
  | group :: groups => sexagesimalReal (60 * factor) (addMultiple total factor group) groups

/-- The real number that a text stands for. Underscores do not matter. -/
def realOf (text : Text) : Except ValueFault RealValue := do
  let plain := Text.toLower (text.filter (· != '_'))
  let signed (value : RealValue) : RealValue := if plain.head? = some '-' then value.negate else value
  let numeral := unsigned plain
  let read (part : Text) : Except ValueFault RealValue :=
    match realNumeral? part with
    | some value => .ok value
    | none => .error (.notReal part)
  if plain.isEmpty then throw .emptyNumeral
  else if numeral = txt ".inf" then return signed (.number (.infinite false))
  else if numeral = txt ".nan" then return .notNumber
  else if numeral.elem ':' then
    let groups ← (numeral.fields ':').mapM read
    let numbers := groups.map fun group =>
      match group with
      | .number value => value
      | .notNumber => .zero false
    return signed (.number (sexagesimalReal 1 (.zero false) numbers.reverse))
  else return signed (← read numeral)

/-- The minutes of a written distance from universal time. -/
def offsetOf : Text → Int
  | [] => 0
  | sign :: text =>
    let hours := text.takeWhile isDecimal
    let minutes := (text.dropWhile isDecimal).drop 1
    let total : Int := 60 * Literal.ofDigits hours + Literal.ofDigits minutes
    if sign = '-' then -total else if sign = '+' then total else 0

/-- The day or the moment that a text stands for. -/
def momentOf (text : Text) : Except ValueFault Datum :=
  match momentParts? text with
  | none => .error .notMoment
  | some parts =>
    let number := Literal.ofDigits
    let made : Except CalendarFault Datum :=
      match parts.time with
      | none => Datum.day <$> Day.make (number parts.year) (number parts.month) (number parts.day)
      | some (hour, minute, second, fraction, zone) =>
        let micro := (fraction ++ List.replicate 6 '0').take 6
        Datum.moment <$> Moment.make (number parts.year) (number parts.month) (number parts.day)
          (number hour) (number minute) (number second) (number micro) (zone.map offsetOf)
    made.mapError .calendar

/-- The truth value of a word. -/
def truthOf (text : Text) : Except ValueFault Bool :=
  let word := Text.toLower text
  if [txt "yes", txt "true", txt "on"].elem word then .ok true
  else if [txt "no", txt "false", txt "off"].elem word then .ok false
  else .error (.notTruthWord word)

/-- The value of a scalar with a tag. -/
def scalarValue (tag : Tag) (text : Text) : Except Refusal Datum :=
  let checked (value : Except ValueFault Datum) : Except Refusal Datum := value.mapError .invalid
  match tag with
  | .null => .ok .null
  | .bool => checked (.bool <$> truthOf text)
  | .int => checked (.int <$> integerOf text)
  | .float => checked <| (fun value =>
      match value with
      | .number x => .float x
      | .notNumber => .notNumber) <$> realOf text
  | .moment => checked (momentOf text)
  | .text => .ok (.text text)
  | .binary =>
    if text.all (·.toNat < 0x80) then
      match Base64.read? text with
      | some octets => .ok (.binary octets)
      | none => .error .malformed
    else .error .malformed
  | .list | .mapping | .merge | .value | .other => .error .malformed

/-! ### Nodes -/

/-- A refusal with the depth of the node that it comes from. Of several refusals the one that is least deep
counts, and of equally deep ones the first. -/
structure DeepRefusal where
  /-- The depth. -/
  depth : Nat
  /-- The refusal. -/
  refusal : Refusal

/-- Two results together. -/
def both {α β : Type} : Except DeepRefusal α → Except DeepRefusal β → Except DeepRefusal (α × β)
  | .ok a, .ok b => .ok (a, b)
  | .error e, .ok _ => .error e
  | .ok _, .error f => .error f
  | .error e, .error f => .error (if f.depth < e.depth then f else e)

/-- A text that stands for a node with the tag of a scalar: a mapping has it under the key of its plain value. -/
def Node.plainText? : Node → Option Text
  | .scalar _ text => some text
  | .list .. => none
  | .mapping _ entries =>
    (entries.find? (·.1.tag == .value)).bind fun (_, value) =>
      match value with
      | .scalar _ text => some text
      | _ => none

/-- The mapping with the given entries: a key keeps the place of its first entry and the value of its last one. -/
def mappingOf (entries : List (Datum × Datum)) : Datum :=
  .mapping (entries.foldl (fun all (key, value) => Datum.set key value all) [])

mutual

/-- The value of a node at a depth. The items of a list and the entries of a mapping are one deeper, and so is
the fault of a node that is tagged as a list or a mapping and is none. -/
def Node.valueAt (depth : Nat) : Node → Except DeepRefusal Datum
  | .list .list items => .list <$> itemValues (depth + 1) items
  | .mapping .mapping entries => mappingOf <$> entryValues (depth + 1) entries
  | node =>
    match node.tag, node.plainText? with
    | .list, _ | .mapping, _ => .error ⟨depth + 1, .malformed⟩
    | tag, some text => (scalarValue tag text).mapError (⟨depth, ·⟩)
    | _, none => .error ⟨depth, .malformed⟩

/-- The values of items at a depth. -/
def itemValues (depth : Nat) : List Node → Except DeepRefusal (List Datum)
  | [] => .ok []
  | item :: rest => (fun (value, values) => value :: values) <$> both (item.valueAt depth) (itemValues depth rest)

/-- The entries of a mapping at a depth. Only a scalar can be a key. -/
def entryValues (depth : Nat) : List (Node × Node) → Except DeepRefusal (List (Datum × Datum))
  | [] => .ok []
  | (key, value) :: rest =>
    let key : Except DeepRefusal Datum :=
      match key.tag, key.plainText? with
      | tag, some text => (scalarValue tag text).mapError (⟨depth, ·⟩)
      | _, none => .error ⟨depth, .malformed⟩
    (fun (entry, entries) => entry :: entries) <$> both (both key (value.valueAt depth)) (entryValues depth rest)

end

/-- The value of a text. A text without a document has the value null. -/
def parse (text : Text) : Except Refusal Datum := do
  match ← document text with
  | none => return .null
  | some node => (node.merged.valueAt 0).mapError (·.refusal)

end AngularUplift.Yaml
