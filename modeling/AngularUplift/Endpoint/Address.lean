import AngularUplift.Files.Utf8
import AngularUplift.Literal.Reader
import AngularUplift.Text.Numeral
import AngularUplift.Text.Quoted

/-!
# Addresses of requests

A request says by an address what it asks for. A full address has a scheme and a host before its path; any other one
is taken from the root of the service, whichever slashes it begins with. What follows a question mark or a hash
does not matter. In the path the parts `.` and `..` are resolved, and then octets can be written as a percent sign
with two hexadecimal digits.

## Main definitions

* `Endpoint.Address`, `Endpoint.Address.parse`: an address and its parts.
* `Endpoint.resolveDots`: a path without the parts `.` and `..`.
* `Endpoint.unescape`: a text with the octets that it stands for.
* `Endpoint.locate`: the path that an address leads to.
-/

namespace AngularUplift.Endpoint

/-! ### Parts of an address -/

/-- Why a text leads nowhere. -/
inductive AddressFault where
  /-- It is too long. -/
  | tooLong
  /-- It holds a control character. -/
  | unprintable (c : Char) (position : Nat)
  /-- Its port is no number. -/
  | notPort (text : Text)
  /-- Its path begins with two slashes, as only that of a full address may. -/
  | twoSlashes
  /-- Its path begins with a colon, as only that of a full address may. -/
  | colon
  /-- The service does not speak its scheme. -/
  | unknownScheme (scheme : Text)
deriving DecidableEq, Repr

/-- The words for an address that leads nowhere. -/
def AddressFault.message : AddressFault → Text
  | .tooLong => txt "URL too long"
  | .unprintable c position =>
    txt "Invalid non-printable ASCII character in URL, " ++ Text.quoted [c] ++ txt " at position " ++
      Text.ofNat position ++ ['.']
  | .notPort text => txt "Invalid port: " ++ Text.quoted text
  | .twoSlashes => txt "Relative URLs cannot have a path starting with '//'"
  | .colon => txt "Relative URLs cannot have a path starting with ':'"
  | .unknownScheme scheme => Text.quoted scheme

/-- An address and its parts. A part that is not there is empty. -/
structure Address where
  /-- The scheme, in lower case. -/
  scheme : Text
  /-- The user. -/
  user : Text
  /-- The host. -/
  host : Text
  /-- The port. -/
  port : Option Int
  /-- The path. -/
  path : Text
deriving DecidableEq, Repr

/-- Whether a text can be a scheme. An empty one stands for none. -/
def isScheme : Text → Bool
  | [] => true
  | c :: rest => isLatin c && rest.all fun d => isLatin d || isDecimal d || d == '+' || d == '.' || d == '-'

/-- The scheme of an address, and what follows its colon. -/
def splitScheme (text : Text) : Text × Text :=
  let word := text.takeWhile (· != ':')
  match text.drop word.length with
  | ':' :: rest => if isScheme word then (word.map Char.toLower, rest) else ([], text)
  | _ => ([], text)

/-- The user of an authority, and what follows the sign after it. -/
def splitUser (authority : Text) : Text × Text :=
  if authority.elem '@' then (authority.takeWhile (· != '@'), (authority.dropWhile (· != '@')).drop 1)
  else ([], authority)

/-- The host at the beginning of a text. It can stand in brackets. -/
def hostOf (text : Text) : Text :=
  if text.head? = some '[' ∧ text.elem ']' then Text.dropRightWhile (· != ']') text
  else text.takeWhile fun c => c != ':' && c != '@'

/-- The port that a text stands for, with the colon before it or without. -/
def portOf (text : Text) : Except AddressFault (Option Int) :=
  let numeral := ((Text.after? [':'] text).getD text)
  if numeral.isEmpty then .ok none
  else
    match Text.decimal? numeral with
    | some port => .ok (some port)
    | none => .error (.notPort numeral)

namespace Address

/-- Whether an address has a scheme and a host. -/
def isFull (a : Address) : Bool := !a.scheme.isEmpty && !a.host.isEmpty

/-- Whether an address has more than a path. -/
def isQualified (a : Address) : Bool :=
  !a.scheme.isEmpty || !a.user.isEmpty || !a.host.isEmpty || a.port.isSome

/-- The parts of an address, without regard to what they hold. -/
def split (text : Text) : Except AddressFault Address := do
  let (scheme, rest) := splitScheme (text.takeWhile fun c => c != '?' && c != '#')
  match Text.after? (txt "//") rest with
  | none => return ⟨scheme, [], [], none, rest⟩
  | some rest =>
    let (user, place) := splitUser (rest.takeWhile (· != '/'))
    let host := hostOf place
    let port ← portOf (place.drop host.length)
    return ⟨scheme, user, host, port, rest.dropWhile (· != '/')⟩

/-- The number of characters that an address may have. -/
def mostCharacters : Nat := 65536

/-- The address that a text stands for. -/
def parse (text : Text) : Except AddressFault Address := do
  let isControl (c : Char) : Bool := c.toNat < 0x20 || c.toNat == 0x7F
  if mostCharacters < text.length then throw .tooLong
  match text.dropWhile (!isControl ·) with
  | c :: rest => throw (.unprintable c (text.length - rest.length - 1))
  | [] =>
    let a ← split text
    if !a.isQualified && Text.startsWith a.path (txt "//") then throw .twoSlashes
    if !a.isQualified && a.path.head? = some ':' then throw .colon
    return a

end Address

/-! ### Paths of addresses -/

/-- One more part of a path, after parts that are held in reverse. The root has no parent. -/
def addPart (parts : List Text) (part : Text) : List Text :=
  if part = ['.'] then parts
  else if part = txt ".." then (if parts = [[]] then parts else parts.drop 1)
  else part :: parts

/-- A path without the parts `.` and `..`. -/
def resolveDots (path : Text) : Text := Text.join ['/'] ((path.fields '/').foldl addPart []).reverse

/-- The octets that a text stands for. A percent sign without two hexadecimal digits stands for itself. -/
def escapedOctets : Text → List UInt8
  | [] => []
  | '%' :: a :: b :: rest =>
    match Literal.hexDigit? a, Literal.hexDigit? b with
    | some high, some low => UInt8.ofNat (16 * high + low) :: escapedOctets rest
    | _, _ => Utf8.encodeChar '%' ++ escapedOctets (a :: b :: rest)
  | c :: rest => Utf8.encodeChar c ++ escapedOctets rest

/-- A text with the octets that it stands for. -/
def unescape (text : Text) : Text := Utf8.decodeLenient (escapedOctets text)

/-- The path of an address, as the service is asked for it. -/
def Address.request (a : Address) : Text :=
  let path := if a.isQualified then resolveDots a.path else a.path
  if a.isFull then (if path.isEmpty then ['/'] else path)
  else resolveDots ('/' :: path.dropWhile (· == '/'))

/-- The path that an address leads to. Escapes are read once by who sends a request and once by who gets it. -/
def locate (text : Text) : Except AddressFault Text := do
  let a ← Address.parse text
  if a.isFull && a.scheme != txt "http" && a.scheme != txt "https" then throw (.unknownScheme a.scheme)
  return unescape (unescape a.request)

end AngularUplift.Endpoint
