import AngularUplift.Proofs.Literal.RoundTrip
import Mathlib.Tactic.SplitIfs

/-!
# The characters that literals are written with

As JSON a literal is written in the printed characters of ASCII only: everything else that a string holds is escaped. A
string that is the whole literal stands in single quotes instead, where the line feed is escaped and the carriage return
is not. So a literal of source code never holds a line feed, and it holds a carriage return exactly when it is a string
that does.

## Main definitions

* `isPrinted`, `Printed`: a printed character of ASCII, and a text of such characters.

## Main statements

* `printed_json`: literals as JSON.
* `break_notMem_render`, `return_mem_render_iff`: line feeds and carriage returns in source code.
-/

namespace AngularUplift.Literal

/-- A printed character of ASCII, or the space. -/
def isPrinted (c : Char) : Bool := 0x20 ≤ c.toNat && c.toNat < 0x7F

/-- A text of printed characters. -/
def Printed (text : Text) : Prop := ∀ c ∈ text, isPrinted c

/-- Whether all characters are printed is looked up for each of them. -/
instance (text : Text) : Decidable (Printed text) :=
  decidable_of_iff (text.all isPrinted) List.all_eq_true

section

variable {text other : Text}

theorem Printed.append (h : Printed text) (hother : Printed other) : Printed (text ++ other) :=
  List.forall_mem_append.2 ⟨h, hother⟩

theorem Printed.cons {c : Char} (hc : isPrinted c) (h : Printed text) : Printed (c :: text) :=
  List.forall_mem_cons.2 ⟨hc, h⟩

theorem Printed.flatMap {α : Type} {f : α → Text} (h : ∀ value, Printed (f value)) (values : List α) :
    Printed (values.flatMap f) := by
  intro c hc
  obtain ⟨value, -, hmem⟩ := List.mem_flatMap.1 hc
  exact h value c hmem

theorem Printed.replicate {c : Char} (hc : isPrinted c) (n : Nat) : Printed (List.replicate n c) := by
  intro d hd
  rw [List.eq_of_mem_replicate hd]
  exact hc

/-- What is taken out of printed text is printed. -/
theorem Printed.of_subset (h : Printed text) (hsubset : other ⊆ text) : Printed other := fun c hc => h c (hsubset hc)

end

/-! ### Numbers -/

/-- A decimal digit is printed. -/
theorem isPrinted_of_isDecimal {c : Char} (h : isDecimal c) : isPrinted c := by
  simp only [isDecimal, Bool.and_eq_true, decide_eq_true_eq] at h
  have hlow : '0'.toNat ≤ c.toNat := h.1
  have hhigh : c.toNat ≤ '9'.toNat := h.2
  simp only [isPrinted, Bool.and_eq_true, decide_eq_true_eq]
  exact ⟨Nat.le_trans (by decide) hlow, Nat.lt_of_le_of_lt hhigh (by decide)⟩

theorem printed_ofNat (n : Nat) : Printed (Text.ofNat n) := fun _ hc => isPrinted_of_isDecimal (isDecimal_of_mem_ofNat hc)

theorem printed_ofInt (n : Int) : Printed (Text.ofInt n) := by
  rw [Text.ofInt]
  split
  · exact .cons (by decide) (printed_ofNat _)
  · exact printed_ofNat _

/-- The shortest digits of a number are digits. -/
theorem printed_digits (significand : Nat) (exponent : Int) : Printed (Shortest.digits significand exponent).1 := by
  intro c hc
  rw [Shortest.digits] at hc
  -- Zeros at the end are left out.
  have hmem := (List.dropWhile_sublist _).subset (List.mem_reverse.1 hc)
  exact printed_ofNat _ c (List.mem_reverse.1 hmem)

/-- A number in positional notation. -/
theorem printed_positional {digits : Text} (h : Printed digits) (leading : Int) :
    Printed (NumeralLayout.positional digits leading) := by
  have hzeros : ∀ n, Printed (List.replicate n '0') := Printed.replicate (by decide)
  rw [NumeralLayout.positional]
  split
  · exact .append (.append (by decide) (hzeros _)) h
  · refine .append (.append (.of_subset (h.append (hzeros _)) (List.take_subset ..)) (by decide)) ?_
    split
    · decide
    · exact .of_subset (h.append (hzeros _)) (List.drop_subset ..)

/-- A number with an exponent. -/
theorem printed_scientific {digits : Text} (h : Printed digits) (format : NumeralLayout) (leading : Int) :
    Printed (format.scientific digits leading) := by
  rw [NumeralLayout.scientific]
  refine .append (.append (.append (h.of_subset (List.take_subset ..)) ?_) ?_) ?_
  · split
    · decide
    · exact .cons (by decide) (h.of_subset (List.drop_subset ..))
  · split <;> decide
  · exact .append (.replicate (by decide) _) (printed_ofNat _)

/-- A numeral is printed when the format's word for infinity is. -/
theorem printed_numeral {format : NumeralLayout} (h : Printed format.infinity) (x : Binary64) :
    Printed (format.render x) := by
  have hsign : ∀ negative : Bool, Printed (if negative then ['-'] else []) := by decide
  cases x with
  | infinite negative => exact (hsign negative).append h
  | finite negative significand exponent =>
    rw [NumeralLayout.render]
    simp only
    split
    · exact (hsign negative).append (by decide)
    · have hdigits := printed_digits significand exponent
      split
      · exact (hsign negative).append (printed_positional hdigits _)
      · exact (hsign negative).append (printed_scientific hdigits format _)

/-! ### Strings -/

/-- An escape in hexadecimal digits. -/
theorem printed_unitEscape (unit : Nat) : Printed (unitEscape unit) := by
  have hdigits : ∀ n < 16, isPrinted (Nat.digitChar n) := by decide
  have hdigit : ∀ n, isPrinted (hexDigit n) := fun n => hdigits (n % 16) (Nat.mod_lt n (by decide))
  exact .cons (by decide) (.cons (by decide)
    (.cons (hdigit _) (.cons (hdigit _) (.cons (hdigit _) (.cons (hdigit _) (by decide))))))

/-- A character in double quotes is written as it is only when it is printed. -/
theorem printed_escapeChar (c : Char) : Printed (escapeChar c) := by
  unfold escapeChar
  split_ifs with _ _ _ _ _ _ _ hprinted
  all_goals try decide
  · refine .cons ?_ (by decide)
    simpa [isPrinted] using hprinted
  · exact printed_unitEscape _
  · exact .append (printed_unitEscape _) (printed_unitEscape _)

/-- A string in double quotes. -/
theorem printed_doubleQuoted (points : List CodePoint) : Printed (doubleQuoted points) := by
  refine .append (.append (by decide) (.flatMap (fun point => ?_) points)) (by decide)
  cases point with
  | char c => exact printed_escapeChar c
  | half unit => exact printed_unitEscape _

/-! ### Values -/

mutual

/-- A value as JSON. -/
theorem printed_json : ∀ value : Literal, Printed value.json
  | .null => by decide
  | .bool true => by decide
  | .bool false => by decide
  | .int n => by
    rw [json]
    exact printed_ofInt n
  | .float x => by
    rw [json]
    exact printed_numeral (by decide) x
  | .string points => by
    rw [json]
    exact printed_doubleQuoted points
  | .list items => by
    rw [json]
    exact .append (.append (by decide) (printed_jsonItems items)) (by decide)
  | .record fields => by
    rw [json]
    exact .append (.append (by decide) (printed_jsonFields fields)) (by decide)

/-- The items of a list as JSON. -/
theorem printed_jsonItems : ∀ items : List Literal, Printed (jsonItems items)
  | [] => by decide
  | [item] => by
    rw [jsonItems]
    exact printed_json item
  | item :: next :: rest => by
    rw [jsonItems]
    exact .append (.append (printed_json item) (by decide)) (printed_jsonItems (next :: rest))

/-- The fields of a record as JSON. -/
theorem printed_jsonFields : ∀ fields : List (List CodePoint × Literal), Printed (jsonFields fields)
  | [] => by decide
  | [(key, value)] => by
    rw [jsonFields]
    exact .append (.append (printed_doubleQuoted key) (by decide)) (printed_json value)
  | (key, value) :: next :: rest => by
    rw [jsonFields]
    exact .append (.append (.append (.append (printed_doubleQuoted key) (by decide)) (printed_json value)) (by decide))
      (printed_jsonFields (next :: rest))

end

/-! ### Source code -/

/-- A string as source code. -/
theorem render_string (points : List CodePoint) : (Literal.string points).render =
    '\'' :: (points.flatMap fun point => CodePoint.toText (singleQuotedPoint point)) ++ ['\''] := by
  rw [render, source, CodePoint.toText, List.map_append, List.map_append, List.map_flatMap]
  rfl

/-- A value other than a string is rendered as it is written inside another one. -/
theorem render_eq_json {value : Literal} (h : ∀ points, value ≠ .string points) : value.render = value.json := by
  rw [render, source_eq_json h, CodePoint.toText_ofText]

/-- A code point of a string in single quotes: line feeds are escaped, carriage returns are not. -/
theorem singleQuotedPoint_breaks (point : CodePoint) : '\n' ∉ CodePoint.toText (singleQuotedPoint point) ∧
    ('\r' ∈ CodePoint.toText (singleQuotedPoint point) ↔ point = .char '\r') := by
  cases point with
  | half unit => simp [singleQuotedPoint, CodePoint.toText, CodePoint.toChar]
  | char c =>
    rw [singleQuotedPoint, CodePoint.toText_ofText, singleQuotedChar, CodePoint.char.injEq]
    split_ifs with hslash hquote hbreak
    · subst hslash; decide
    · subst hquote; decide
    · subst hbreak; decide
    · exact ⟨by simpa [eq_comm] using hbreak, by simp [eq_comm]⟩

/-- A literal of source code never holds a line feed. -/
theorem break_notMem_render (value : Literal) : '\n' ∉ value.render := by
  by_cases hstring : ∃ points, value = .string points
  · obtain ⟨points, rfl⟩ := hstring
    rw [render_string]
    simp [(singleQuotedPoint_breaks _).1]
  · rw [render_eq_json fun points heq => hstring ⟨points, heq⟩]
    exact fun h => absurd (printed_json value '\n' h) (by decide)

/-- A literal of source code holds a carriage return exactly when it is a string that does. -/
theorem return_mem_render_iff (value : Literal) :
    '\r' ∈ value.render ↔ ∃ points, value = .string points ∧ .char '\r' ∈ points := by
  by_cases hstring : ∃ points, value = .string points
  · obtain ⟨points, rfl⟩ := hstring
    rw [render_string]
    simp [(singleQuotedPoint_breaks _).2]
  · rw [render_eq_json fun points heq => hstring ⟨points, heq⟩]
    refine iff_of_false (fun h => absurd (printed_json value '\r' h) (by decide)) ?_
    rintro ⟨points, heq, -⟩
    exact hstring ⟨points, heq⟩

end AngularUplift.Literal
