import Mathlib.Tactic.SplitIfs
import SqlFilter.Json.Printer
import SqlFilter.Json.Reader

set_option relaxedAutoImplicit false
set_option autoImplicit false

/-!
# Printed strings are read back

A string is printed character by character, and what is printed for a character is one piece to the
reader: the character itself, or the number of a control character, which is no surrogate. So the reader
ends where the printed string does, whatever follows, and puts the same string together.

## Main results

* `Json.readPieces_escapedChars` — a printed character is read as one piece.
* `Json.readString_quoted` — a printed string is read back.
-/

namespace SqlFilter.Json

/-- The digits of a control character are read as its number. -/
theorem unitValue?_hexDigit {n : Nat} (h : n < 0x20) :
    unitValue? '0' '0' (hexDigit (n / 16)) (hexDigit (n % 16)) = some n := by
  have hall : ∀ n < 0x20, unitValue? '0' '0' (hexDigit (n / 16)) (hexDigit (n % 16)) = some n := by
    decide
  exact hall n h

/-- A number below those of surrogates stands for a character, whatever follows it. -/
theorem joinPieces_unit {n : Nat} (h : n < 0xd800) (joined : List Char) (ps : List Piece) :
    joinPieces joined (.unit n :: ps) = joinPieces (Char.ofNat n :: joined) ps := by
  rw [joinPieces.eq_def]
  have hhigh : ¬ (0xd800 ≤ n ∧ n < 0xdc00) := by omega
  have hlow : ¬ (0xdc00 ≤ n ∧ n < 0xe000) := by omega
  simp only [if_neg hhigh, if_neg hlow]

/-- **A printed character is read as one piece**, which stands for the character. -/
theorem readPieces_escapedChars (c : Char) (read : List Piece) (rest : List Char) :
    ∃ p, readPieces read (escapedChars c ++ rest) = readPieces (p :: read) rest ∧
      ∀ joined ps, joinPieces joined (p :: ps) = joinPieces (c :: joined) ps := by
  have hchar (c : Char) (joined : List Char) (ps : List Piece) :
      joinPieces joined (.char c :: ps) = joinPieces (c :: joined) ps := by
    rw [joinPieces]
  unfold escapedChars
  split_ifs with hquote hbackslash hb ht hn hf hr hcontrol
  · exact ⟨.char c, by simp [readPieces, unescape?, hquote], hchar c⟩
  · exact ⟨.char c, by simp [readPieces, unescape?, hbackslash], hchar c⟩
  · exact ⟨.char c, by simp [readPieces, unescape?, hb], hchar c⟩
  · exact ⟨.char c, by simp [readPieces, unescape?, ht], hchar c⟩
  · exact ⟨.char c, by simp [readPieces, unescape?, hn], hchar c⟩
  · exact ⟨.char c, by simp [readPieces, unescape?, hf], hchar c⟩
  · exact ⟨.char c, by simp [readPieces, unescape?, hr], hchar c⟩
  · refine ⟨.unit c.toNat, ?_, fun joined ps => ?_⟩
    · simp [readPieces, unitValue?_hexDigit hcontrol]
    · rw [joinPieces_unit (by omega), Char.ofNat_toNat]
  · refine ⟨.char c, ?_, hchar c⟩
    simp [readPieces, hbackslash, hcontrol]

/-- **Printed characters are read back** up to the quotation mark that follows them. -/
theorem readPieces_flatMap (cs : List Char) (read : List Piece) (rest : List Char) :
    ∃ ps, readPieces read (cs.flatMap escapedChars ++ '"' :: rest) = some (read.reverse ++ ps, rest) ∧
      ∀ joined, joinPieces joined ps = some (joined.reverse ++ cs) := by
  induction cs generalizing read with
  | nil => exact ⟨[], by simp [readPieces], by simp [joinPieces]⟩
  | cons c cs ih =>
    obtain ⟨p, hread, hjoin⟩ :=
      readPieces_escapedChars c read (cs.flatMap escapedChars ++ '"' :: rest)
    obtain ⟨ps, hreadAll, hjoinAll⟩ := ih (p :: read)
    refine ⟨p :: ps, ?_, fun joined => ?_⟩
    · rw [List.flatMap_cons, List.append_assoc, hread, hreadAll]
      simp
    · rw [hjoin, hjoinAll]
      simp

/-- **A printed string is read back**, whatever follows it. -/
theorem readString_quoted (s : String) (rest : List Char) :
    readString (s.toList.flatMap escapedChars ++ '"' :: rest) = some (some s, rest) := by
  obtain ⟨ps, hread, hjoin⟩ := readPieces_flatMap s.toList [] rest
  simp [readString, hread, hjoin]

end SqlFilter.Json
