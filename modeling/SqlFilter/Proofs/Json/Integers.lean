import SqlFilter.Json.Printer
import SqlFilter.Json.Reader

set_option relaxedAutoImplicit false
set_option autoImplicit false

/-!
# Printed integers are read back

An integer is printed as its sign and its decimal digits. The reader ends at the first character that
cannot go on with a number, and has the same digits. An integer of 64 bits, signed or unsigned, is then
read as the integer and not as a double.

## Main definitions

* `Json.decimalDigits` — the decimal digits of a number.
* `Json.EndsNumber` — a text does not go on with a number.
* `Json.IsWord` — integers of 64 bits, signed or unsigned.

## Main results

* `Json.readLiteral_integerChars` — a printed integer is read as its digits.
* `Json.Literal.value?_ofInt` — these digits have the integer as value.
-/

namespace SqlFilter.Json

/-! ## Digits -/

/-- The decimal digits of a number. -/
def decimalDigits (n : Nat) : List Nat := (decimalChars n).map digitValue

/-- The character of a digit has the digit as value. -/
theorem digitValue_digitChar {n : Nat} (h : n < 10) : digitValue n.digitChar = n :=
  Nat.toNat_digitChar_sub_48_of_lt_ten h

/-- The digits of a number with at least two of them are those of its tenth and one more. -/
theorem decimalDigits_of_le {n : Nat} (h : 10 ≤ n) :
    decimalDigits n = decimalDigits (n / 10) ++ [n % 10] := by
  rw [decimalDigits, decimalChars, Nat.toDigits_of_base_le (by decide) h, List.map_append,
    List.map_singleton, digitValue_digitChar (Nat.mod_lt _ (by decide))]
  rfl

/-- The only digit of a small number is the number. -/
theorem decimalDigits_of_lt {n : Nat} (h : n < 10) : decimalDigits n = [n] := by
  rw [decimalDigits, decimalChars, Nat.toDigits_of_lt_base h, List.map_singleton,
    digitValue_digitChar h]

/-- Printed digits begin with a digit. -/
theorem exists_decimalChars_cons (n : Nat) :
    ∃ c cs, decimalChars n = c :: cs ∧ c.isDigit = true := by
  obtain ⟨c, cs, h⟩ := List.exists_cons_of_ne_nil (Nat.toDigits_ne_nil (n := n) (b := 10))
  refine ⟨c, cs, h, Nat.isDigit_of_mem_toDigits (b := 10) (n := n) (by decide) (by decide) ?_⟩
  rw [h]
  exact List.mem_cons_self

/-- No number but zero begins with a zero. -/
theorem exists_decimalDigits_cons {n : Nat} (h : n ≠ 0) :
    ∃ d ds, decimalDigits n = d :: ds ∧ d ≠ 0 := by
  induction n using Nat.strongRecOn with
  | ind n ih =>
    by_cases hlt : n < 10
    · exact ⟨n, [], decimalDigits_of_lt hlt, h⟩
    · obtain ⟨d, ds, hdigits, hd⟩ := ih (n / 10) (by omega) (by omega)
      exact ⟨d, ds ++ [n % 10], by rw [decimalDigits_of_le (by omega), hdigits, List.cons_append], hd⟩

/-- The value of its digits is the number. -/
theorem foldl_decimalDigits (n : Nat) : (decimalDigits n).foldl (fun n d => 10 * n + d) 0 = n := by
  rw [decimalDigits, List.foldl_map]
  exact Nat.ofDigitChars_ten_toDigits

/-- Digits only make a significand greater. -/
theorem le_foldl_digits (digits : List Nat) (significand : Nat) :
    significand ≤ digits.foldl (fun n d => 10 * n + d) significand := by
  induction digits generalizing significand with
  | nil => exact Nat.le_refl _
  | cons d ds ih =>
    rw [List.foldl_cons]
    have := ih (10 * significand + d)
    omega

/-- Digits are all absorbed if their value fits. -/
theorem Literal.absorb_of_lt (digits : List Nat) (significand : Nat)
    (h : digits.foldl (fun n d => 10 * n + d) significand < 0x10000000000000000) :
    absorb significand digits = (digits.foldl (fun n d => 10 * n + d) significand, []) := by
  induction digits generalizing significand with
  | nil => rfl
  | cons d ds ih =>
    rw [List.foldl_cons] at h ⊢
    have hle := le_foldl_digits ds (10 * significand + d)
    rw [absorb, if_pos (by omega), ih _ h]

/-- The characters that a number begins with. -/
def StartsNumber (c : Char) : Prop := c.isDigit = true ∨ c = '-'

/-- No other character begins a number. -/
theorem StartsNumber.ne {c : Char} (h : StartsNumber c) {x : Char} (hdigit : x.isDigit = false)
    (hminus : x ≠ '-') : c ≠ x := by
  rintro rfl
  rcases h with h | h
  · rw [hdigit] at h
    contradiction
  · exact hminus h

/-- A printed integer begins with a digit or a sign. -/
theorem exists_integerChars_cons (i : Int) :
    ∃ c cs, integerChars i = c :: cs ∧ StartsNumber c := by
  rw [integerChars]
  split
  · exact ⟨_, _, rfl, .inr rfl⟩
  · obtain ⟨c, cs, hcons, hc⟩ := exists_decimalChars_cons i.natAbs
    exact ⟨c, cs, hcons, .inl hc⟩

/-! ## Reading -/

/-- A text does not go on with a number. -/
def EndsNumber (rest : List Char) : Prop :=
  ∀ c ∈ rest.head?, c.isDigit = false ∧ c ≠ '.' ∧ c ≠ 'e' ∧ c ≠ 'E'

section

variable {rest : List Char}

/-- Digits are read up to what is no digit. -/
theorem readDigits_append {digits : List Char} (hdigits : ∀ c ∈ digits, c.isDigit = true)
    (hrest : EndsNumber rest) : readDigits (digits ++ rest) = (digits.map digitValue, rest) := by
  have hnone : rest.takeWhile Char.isDigit = [] ∧ rest.dropWhile Char.isDigit = rest := by
    cases rest with
    | nil => exact ⟨rfl, rfl⟩
    | cons c rest =>
      have hc : c.isDigit = false := (hrest c rfl).1
      exact ⟨List.takeWhile_cons_of_neg (by simp [hc]), List.dropWhile_cons_of_neg (by simp [hc])⟩
  rw [readDigits, List.takeWhile_append_of_pos hdigits, List.dropWhile_append_of_pos hdigits,
    hnone.1, hnone.2, List.append_nil]

/-- Printed digits have no leading zero. -/
theorem readWhole_decimalChars (n : Nat) (hrest : EndsNumber rest) :
    readWhole (decimalChars n ++ rest) = some (decimalDigits n, rest) := by
  have hdigits : readDigits (decimalChars n ++ rest) = (decimalDigits n, rest) :=
    readDigits_append (fun c hc => Nat.isDigit_of_mem_toDigits (by decide) (by decide) hc) hrest
  rw [readWhole, hdigits]
  by_cases hn : n = 0
  · rw [hn, decimalDigits_of_lt (by decide)]
    rfl
  · obtain ⟨d, ds, hcons, hd⟩ := exists_decimalDigits_cons hn
    rw [hcons]
    cases d with
    | zero => exact absurd rfl hd
    | succ d => rfl

/-- There is neither fraction nor exponent behind printed digits. -/
theorem readUnsigned_decimalChars (negative : Bool) (n : Nat) (hrest : EndsNumber rest) :
    readUnsigned negative (decimalChars n ++ rest) =
      some (⟨negative, decimalDigits n, [], none⟩, rest) := by
  have hfraction : readFraction rest = some ([], rest) := by
    cases rest with
    | nil => rfl
    | cons c rest =>
      have hc := (hrest c rfl).2.1
      simp [readFraction, hc]
  have hexponent : readExponent rest = some (none, rest) := by
    cases rest with
    | nil => rfl
    | cons c rest =>
      obtain ⟨-, -, he, hE⟩ := hrest c rfl
      simp [readExponent, he, hE]
  simp [readUnsigned, readWhole_decimalChars n hrest, hfraction, hexponent]

/-- The literal that an integer is printed as. -/
def Literal.ofInt (i : Int) : Literal := ⟨decide (i < 0), decimalDigits i.natAbs, [], none⟩

/-- **A printed integer is read as its digits**, if what follows does not go on with a number. -/
theorem readLiteral_integerChars (i : Int) (hrest : EndsNumber rest) :
    readLiteral (integerChars i ++ rest) = some (.ofInt i, rest) := by
  rw [integerChars, Literal.ofInt]
  split
  · rename_i hi
    rw [List.cons_append, readLiteral, readUnsigned_decimalChars true _ hrest]
    simp [hi]
  · rename_i hi
    have hread := readUnsigned_decimalChars false i.natAbs hrest
    obtain ⟨c, cs, hcons, hc⟩ := exists_decimalChars_cons i.natAbs
    have hminus : c ≠ '-' := by
      rintro rfl
      exact absurd hc (by decide)
    rw [hcons, List.cons_append] at hread ⊢
    rw [readLiteral, hread]
    · simp [hi]
    · simpa using fun h => absurd h hminus

end

/-! ## Values -/

/-- Integers of 64 bits, signed or unsigned. -/
def IsWord (i : Int) : Prop := -0x8000000000000000 ≤ i ∧ i < 0x10000000000000000

/-- **The digits of an integer of 64 bits** have the integer as value. -/
theorem Literal.value?_ofInt {i : Int} (h : IsWord i) : (ofInt i).value? = some (.int i) := by
  obtain ⟨hlow, hhigh⟩ := h
  have habsorb : absorb 0 (decimalDigits i.natAbs) = (i.natAbs, []) := by
    rw [absorb_of_lt _ _ (by rw [foldl_decimalDigits]; omega), foldl_decimalDigits]
  have hvalue : (ofInt i).value? = some (integer (decide (i < 0)) i.natAbs) := by
    simp [value?, ofInt, habsorb]
  rw [hvalue, integer]
  by_cases hi : i < 0
  · have hsmall : ¬ (i.natAbs = 0 ∨ 0x8000000000000000 < i.natAbs) := by omega
    simp only [hi, decide_true, if_true, if_neg hsmall]
    congr 2
    omega
  · simp only [hi, decide_false]
    simp
    omega

end SqlFilter.Json
