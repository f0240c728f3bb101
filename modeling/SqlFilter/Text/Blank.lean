set_option relaxedAutoImplicit false
set_option autoImplicit false

/-!
# Blank characters

The blank characters are those with the Unicode property `White_Space`. They separate the words of a
statement and are trimmed from paths, aliases and key texts.

## Main definitions

* `Text.isBlank` — the property, as a table of ranges.
* `Text.trim` — a text without the blank characters at its two ends.

## Main results

* `Text.isBlank_of_isWhitespace` — every white space character of ASCII is blank.
-/

namespace SqlFilter.Text

/-- The ranges of code points with the property `White_Space`, ends included. -/
def blankRanges : List (Nat × Nat) :=
  [(0x09, 0x0d), (0x20, 0x20), (0x85, 0x85), (0xa0, 0xa0), (0x1680, 0x1680), (0x2000, 0x200a),
    (0x2028, 0x2029), (0x202f, 0x202f), (0x205f, 0x205f), (0x3000, 0x3000)]

/-- A character is blank when its code point lies in one of the ranges. -/
def isBlank (c : Char) : Bool :=
  blankRanges.any fun r => r.1 ≤ c.toNat && c.toNat ≤ r.2

/-- Every white space character of ASCII is blank. -/
theorem isBlank_of_isWhitespace {c : Char} (h : c.isWhitespace = true) : isBlank c = true := by
  simp only [Char.isWhitespace, Bool.or_eq_true, decide_eq_true_eq] at h
  rcases h with ((h | h) | h) | h <;> subst h <;> decide

/-- The characters left when the blank ones at both ends are dropped. -/
def trimChars (cs : List Char) : List Char :=
  ((cs.dropWhile isBlank).reverse.dropWhile isBlank).reverse

/-- A text without the blank characters at its two ends. -/
def trim (s : String) : String := String.ofList (trimChars s.toList)

end SqlFilter.Text
