import AngularUplift.Text.Basic

/-!
# Text in files

Files hold octets; text is read from them as UTF-8. Where the octets are not well formed, each longest beginning
of a character that breaks off is read as one replacement character, and so is every octet that begins none.

## Main definitions

* `Utf8.encode`: the octets of a text.
* `Utf8.decode`: the characters of octets, with a mark for what is not well formed.
* `Utf8.decodeLenient`: the text of octets, with replacement characters.
* `Utf8.readLenient`, `Utf8.readStrict?`: the text of a file, with line feeds as its only line breaks.
-/

namespace AngularUplift.Utf8

/-- The octets of a character. -/
def encodeChar (c : Char) : List UInt8 :=
  let code := c.toNat
  let continuation (shift : Nat) : UInt8 := UInt8.ofNat (0x80 + (code >>> shift) % 64)
  if code < 0x80 then [UInt8.ofNat code]
  else if code < 0x800 then [UInt8.ofNat (0xC0 + code >>> 6), continuation 0]
  else if code < 0x10000 then [UInt8.ofNat (0xE0 + code >>> 12), continuation 6, continuation 0]
  else [UInt8.ofNat (0xF0 + code >>> 18), continuation 12, continuation 6, continuation 0]

/-- The octets of a text. -/
def encode (text : Text) : List UInt8 := text.flatMap encodeChar

/-- What the first octet of a character of several octets says about it. -/
structure Lead where
  /-- The bits of the code point that it carries. -/
  bits : Nat
  /-- How many octets follow. -/
  rest : Nat
  /-- The least second octet. -/
  least : Nat
  /-- The greatest second octet. -/
  greatest : Nat
deriving DecidableEq, Repr

/-- The lead that an octet is. The bounds on the second octet leave out overlong forms, surrogates and code points
beyond the last one. -/
def lead? (octet : Nat) : Option Lead :=
  if 0xC2 ≤ octet ∧ octet ≤ 0xDF then some ⟨octet - 0xC0, 1, 0x80, 0xBF⟩
  else if octet = 0xE0 then some ⟨0, 2, 0xA0, 0xBF⟩
  else if octet = 0xED then some ⟨0xD, 2, 0x80, 0x9F⟩
  else if 0xE1 ≤ octet ∧ octet ≤ 0xEF then some ⟨octet - 0xE0, 2, 0x80, 0xBF⟩
  else if octet = 0xF0 then some ⟨0, 3, 0x90, 0xBF⟩
  else if octet = 0xF4 then some ⟨4, 3, 0x80, 0x8F⟩
  else if 0xF1 ≤ octet ∧ octet ≤ 0xF3 then some ⟨octet - 0xF0, 3, 0x80, 0xBF⟩
  else none

/-- The characters of octets; `none` stands for what is not well formed. `pending` is the code point read so far
and what the octets to come are bound by, while a character is being read. -/
def decodeFrom : (pending : Option Lead) → List UInt8 → List (Option Char)
  | none, [] => []
  | some _, [] => [none]
  | none, octet :: octets =>
    if octet.toNat < 0x80 then some (Char.ofNat octet.toNat) :: decodeFrom none octets
    else
      match lead? octet.toNat with
      | some lead => decodeFrom (some lead) octets
      | none => none :: decodeFrom none octets
  | some lead, octet :: octets =>
    if lead.least ≤ octet.toNat ∧ octet.toNat ≤ lead.greatest then
      let bits := lead.bits * 64 + octet.toNat % 64
      if lead.rest ≤ 1 then some (Char.ofNat bits) :: decodeFrom none octets
      else decodeFrom (some ⟨bits, lead.rest - 1, 0x80, 0xBF⟩) octets
    -- The character breaks off; the octet that ends it is read anew.
    else if octet.toNat < 0x80 then none :: some (Char.ofNat octet.toNat) :: decodeFrom none octets
    else
      match lead? octet.toNat with
      | some next => none :: decodeFrom (some next) octets
      | none => none :: none :: decodeFrom none octets

/-- The characters of octets. -/
def decode (octets : List UInt8) : List (Option Char) := decodeFrom none octets

/-- The text of octets, with replacement characters for what is not well formed. -/
def decodeLenient (octets : List UInt8) : Text := (decode octets).map (·.getD (Char.ofNat 0xFFFD))

/-- The text of a file, with replacement characters for what is not well formed. -/
def readLenient (octets : List UInt8) : Text := Text.normaliseBreaks (decodeLenient octets)

/-- The text of a file, if it is well formed. -/
def readStrict? (octets : List UInt8) : Option Text :=
  ((decode octets).mapM id).map Text.normaliseBreaks

end AngularUplift.Utf8
