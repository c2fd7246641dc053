/-!
Decimal numerals of natural numbers and integers, and their padding.
Main statement: a numeral reads back as the number it was written for.
-/

set_option autoImplicit false

namespace PipelineCapacity.Text

def digit (value : Nat) : Char := Char.ofNat (48 + value)

def isDigit (char : Char) : Bool := 48 ≤ char.toNat && char.toNat ≤ 57

def digitValue (char : Char) : Nat := char.toNat - 48

/-- Most significant digit first, without leading zeros. -/
def digits (number : Nat) : List Char :=
  if number < 10 then [digit number] else digits (number / 10) ++ [digit (number % 10)]
termination_by number

/-- The number a row of digits stands for. -/
def value (chars : List Char) : Nat :=
  chars.foldl (fun total char => total * 10 + digitValue char) 0

/-- At least `width` digits, filled up with zeros on the left. -/
def zeroPadded (width number : Nat) : List Char :=
  let text := digits number
  List.replicate (width - text.length) '0' ++ text

/-- An integer in at least `width` places, its minus sign counted. -/
def zeroPaddedInt (width : Nat) (number : Int) : List Char :=
  if number < 0 then '-' :: zeroPadded (width - 1) number.natAbs
  else zeroPadded width number.natAbs

def integer (number : Int) : List Char :=
  if number < 0 then '-' :: digits number.natAbs else digits number.natAbs

private theorem toNat_digit {value : Nat} (small : value < 10) : (digit value).toNat = 48 + value := by
  have valid : (48 + value).isValidChar := Or.inl (by omega)
  rw [digit, Char.ofNat, dif_pos valid]
  rfl

theorem isDigit_digit {value : Nat} (small : value < 10) : isDigit (digit value) = true := by
  simp only [isDigit, toNat_digit small]
  simp
  omega

theorem digitValue_digit {value : Nat} (small : value < 10) : digitValue (digit value) = value := by
  simp only [digitValue, toNat_digit small]
  omega

theorem digits_ne_nil (number : Nat) : digits number ≠ [] := by
  unfold digits
  split <;> simp

theorem isDigit_of_mem_digits {number : Nat} {char : Char} (member : char ∈ digits number) :
    isDigit char = true := by
  fun_induction digits number with
  | case1 number small =>
      simp only [List.mem_singleton] at member
      exact member ▸ isDigit_digit small
  | case2 number _ recurse =>
      rcases List.mem_append.1 member with earlier | last
      · exact recurse earlier
      · simp only [List.mem_singleton] at last
        exact last ▸ isDigit_digit (Nat.mod_lt _ (by omega))

theorem value_append_singleton (chars : List Char) (char : Char) :
    value (chars ++ [char]) = value chars * 10 + digitValue char := by
  simp [value]

theorem value_digits (number : Nat) : value (digits number) = number := by
  fun_induction digits number with
  | case1 number small => simp [value, digitValue_digit small]
  | case2 number _ recurse =>
      rw [value_append_singleton, recurse, digitValue_digit (Nat.mod_lt _ (by omega))]
      omega

end PipelineCapacity.Text
