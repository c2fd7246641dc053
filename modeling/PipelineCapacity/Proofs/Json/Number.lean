import Mathlib.Data.List.TakeWhile
import PipelineCapacity.Decimal
import PipelineCapacity.Json.Number

/-!
Numerals inside texts. A numeral is read as far as it goes and no further, so
what is read of it alone is read of it in front of anything that cannot go on
with it. The numeral of an integer reads back.
-/

set_option autoImplicit false

namespace PipelineCapacity.Json

open Text

/-- Nothing that a numeral could go on with comes first. -/
def Ends (rest : List Char) : Prop :=
  ∀ char ∈ rest.head?, isDigit char = false ∧ char ≠ '.' ∧ char ≠ 'e' ∧ char ≠ 'E'

theorem ends_nil : Ends [] := fun _ member => by cases member

theorem ends_cons {char : Char} (rest : List Char) (other : isDigit char = false)
    (point : char ≠ '.') (small : char ≠ 'e') (capital : char ≠ 'E') : Ends (char :: rest) := by
  rintro _ ⟨rfl⟩
  exact ⟨other, point, small, capital⟩

variable {chars rest after : List Char}

theorem takeDigits_append (ends : Ends rest) (chars : List Char) :
    takeDigits (chars ++ rest) = ((takeDigits chars).1, (takeDigits chars).2 ++ rest) := by
  unfold takeDigits
  induction chars with
  | nil =>
      cases rest with
      | nil => rfl
      | cons char rest =>
          have other := (ends char rfl).1
          simp [other]
  | cons char chars ih =>
      cases digit : isDigit char with
      | true => simpa [digit] using ih
      | false => simp [digit]

theorem takeDigits_digits (number : Nat) : takeDigits (digits number) = (digits number, []) := by
  unfold takeDigits
  rw [List.takeWhile_eq_self_iff.mpr fun _ => isDigit_of_mem_digits,
    List.dropWhile_eq_nil_iff.mpr fun _ => isDigit_of_mem_digits]

theorem takeWhole?_append {whole : List Char} (ends : Ends rest)
    (taken : takeWhole? chars = some (whole, after)) :
    takeWhole? (chars ++ rest) = some (whole, after ++ rest) := by
  unfold takeWhole? at taken ⊢
  rw [takeDigits_append ends]
  generalize takeDigits chars = parts at taken ⊢
  obtain ⟨first, second⟩ := parts
  split at taken
  · cases taken
  · cases taken
  · rename_i vacant zero
    cases taken
    split
    · rename_i same
      cases same
      exact (vacant _ rfl).elim
    · rename_i same
      cases same
      exact (zero _ _ _ rfl).elim
    · rfl

theorem takeFraction?_append {fraction : List Char} (ends : Ends rest)
    (taken : takeFraction? chars = some (fraction, after)) :
    takeFraction? (chars ++ rest) = some (fraction, after ++ rest) := by
  unfold takeFraction? at taken
  split at taken
  · rename_i others
    rw [List.cons_append, takeFraction?, takeDigits_append ends]
    generalize takeDigits others = parts at taken ⊢
    obtain ⟨_ | ⟨digit, digits⟩, second⟩ := parts
    · cases taken
    · cases taken
      rfl
  · rename_i pointless
    cases taken
    unfold takeFraction?
    split
    · rename_i others same
      cases chars with
      | nil => exact absurd rfl (ends '.' (congrArg List.head? same)).2.1
      | cons char chars =>
          cases same
          exact absurd rfl (pointless chars)
    · rfl

theorem takePower?_append {negative : Bool} {power : Option Int} (ends : Ends rest)
    (taken : takePower? negative chars = some (power, after)) :
    takePower? negative (chars ++ rest) = some (power, after ++ rest) := by
  unfold takePower? at taken ⊢
  rw [takeDigits_append ends]
  generalize takeDigits chars = parts at taken ⊢
  obtain ⟨_ | ⟨digit, digits⟩, second⟩ := parts
  · cases taken
  · cases taken
    rfl

theorem takePower?_head {negative : Bool} {result : Option Int × List Char}
    (taken : takePower? negative chars = some result) :
    ∃ char others, chars = char :: others ∧ isDigit char = true := by
  cases chars with
  | nil => cases taken
  | cons char others =>
      refine ⟨char, others, rfl, ?_⟩
      by_contra other
      unfold takePower? takeDigits at taken
      rw [List.takeWhile_cons_of_neg other] at taken
      cases taken

/-- An exponent without a sign. -/
theorem takeExponent?_unsigned {mark char : Char} (marked : mark = 'e' ∨ mark = 'E')
    (digit : isDigit char = true) (rest : List Char) :
    takeExponent? (mark :: char :: rest) = takePower? false (char :: rest) := by
  have minus : char ≠ '-' := by
    rintro rfl
    cases digit
  have plus : char ≠ '+' := by
    rintro rfl
    cases digit
  rcases marked with rfl | rfl <;> (unfold takeExponent?; simp [minus, plus])

theorem takeExponent?_unmarked (plain : ∀ char ∈ chars.head?, char ≠ 'e' ∧ char ≠ 'E') :
    takeExponent? chars = some (none, chars) := by
  cases chars with
  | nil => rfl
  | cons char others =>
      obtain ⟨small, capital⟩ := plain char rfl
      unfold takeExponent?
      simp [small, capital]

theorem takeExponent?_append {power : Option Int} (ends : Ends rest)
    (taken : takeExponent? chars = some (power, after)) :
    takeExponent? (chars ++ rest) = some (power, after ++ rest) := by
  have unsigned {mark : Char} {others : List Char} (marked : mark = 'e' ∨ mark = 'E')
      (taken : takePower? false others = some (power, after)) :
      takeExponent? (mark :: others ++ rest) = some (power, after ++ rest) := by
    obtain ⟨char, others, rfl, digit⟩ := takePower?_head taken
    rw [List.cons_append, List.cons_append, takeExponent?_unsigned marked digit]
    exact takePower?_append ends taken
  unfold takeExponent? at taken
  split at taken
  · exact takePower?_append ends taken
  · exact takePower?_append ends taken
  · exact takePower?_append ends taken
  · exact takePower?_append ends taken
  · exact unsigned (.inl rfl) taken
  · exact unsigned (.inr rfl) taken
  · rename_i small capital
    cases taken
    refine takeExponent?_unmarked ?_
    cases chars with
    | nil => exact fun char first => (ends char first).2.2
    | cons char others =>
        rintro _ ⟨rfl⟩
        constructor
        · rintro rfl
          exact small _ rfl
        · rintro rfl
          exact capital _ rfl

theorem readMagnitude?_append {negative : Bool} {document : Document} (ends : Ends rest)
    (found : readMagnitude? negative chars = some (document, after)) :
    readMagnitude? negative (chars ++ rest) = some (document, after ++ rest) := by
  unfold readMagnitude? at found ⊢
  split at found
  · cases found
  · rename_i whole others taken
    rw [takeWhole?_append ends taken]
    dsimp only
    split at found
    · cases found
    · rename_i fraction others taken
      rw [takeFraction?_append ends taken]
      dsimp only
      split at found
      · cases found
      · rename_i others taken
        rw [takeExponent?_append ends taken]
        dsimp only
        split at found
        · rename_i vacant
          cases found
          rw [if_pos vacant]
        · rename_i present
          cases found
          rw [if_neg present]
      · rename_i power others taken
        rw [takeExponent?_append ends taken]
        cases found
        rfl

/-- What starts a numeral. -/
theorem readNumber?_head {result : Document × List Char}
    (found : readNumber? chars = some result) :
    ∃ char others, chars = char :: others ∧ (char = '-' ∨ isDigit char = true) := by
  cases chars with
  | nil => cases found
  | cons char others =>
      refine ⟨char, others, rfl, ?_⟩
      by_contra other
      obtain ⟨minus, digit⟩ := not_or.mp other
      have vacant : takeWhole? (char :: others) = none := by
        unfold takeWhole? takeDigits
        rw [List.takeWhile_cons_of_neg digit]
      unfold readNumber? at found
      split at found
      · rename_i same
        cases same
        exact minus rfl
      · unfold readMagnitude? at found
        rw [vacant] at found
        cases found

/-- A numeral is read in front of anything it cannot go on with. -/
theorem readNumber?_append {document : Document} (ends : Ends rest)
    (found : readNumber? chars = some (document, after)) :
    readNumber? (chars ++ rest) = some (document, after ++ rest) := by
  obtain ⟨char, others, rfl, _⟩ := readNumber?_head found
  unfold readNumber? at found
  split at found
  · rename_i same
    cases same
    exact readMagnitude?_append ends found
  · rename_i unsigned
    unfold readNumber?
    split
    · rename_i same
      cases same
      exact (unsigned _ rfl).elim
    · exact readMagnitude?_append ends found

/-- Only the numeral of zero starts with a zero. -/
theorem eq_zero_of_digits {number : Nat} {others : List Char}
    (leading : digits number = '0' :: others) : number = 0 := by
  fun_induction digits number generalizing others with
  | case1 number small =>
      obtain ⟨same, _⟩ := List.cons_eq_cons.mp leading
      rw [← digitValue_digit small, same]
      rfl
  | case2 number large ih =>
      obtain ⟨char, init, split⟩ := List.exists_cons_of_ne_nil (digits_ne_nil (number / 10))
      rw [split, List.cons_append] at leading
      obtain ⟨rfl, _⟩ := List.cons_eq_cons.mp leading
      have vanished := ih split
      omega

theorem takeWhole?_digits (number : Nat) :
    takeWhole? (digits number) = some (digits number, []) := by
  unfold takeWhole?
  rw [takeDigits_digits]
  split
  · rename_i same
    exact absurd (Prod.mk.inj same).1 (digits_ne_nil number)
  · rename_i same
    have leading := (Prod.mk.inj same).1
    rw [eq_zero_of_digits leading, digits, if_pos (by decide)] at leading
    cases leading
  · rfl

theorem readMagnitude?_digits (negative : Bool) (number : Nat) :
    readMagnitude? negative (digits number) = some (ofWhole negative number, []) := by
  unfold readMagnitude?
  rw [takeWhole?_digits]
  dsimp only
  change some (ofWhole negative (value (digits number)), ([] : List Char)) = _
  rw [value_digits]

theorem readNumber?_digits (number : Nat) :
    readNumber? (digits number) = some (ofWhole false number, []) := by
  unfold readNumber?
  split
  · rename_i rest minus
    have member : '-' ∈ digits number := by
      rw [minus]
      exact List.mem_cons_self
    cases isDigit_of_mem_digits member
  · exact readMagnitude?_digits false number

/-- The numeral of an integer that 64 binary places hold is read back. -/
theorem readNumber?_integer {value : Int} (least : -9223372036854775808 ≤ value)
    (greatest : value ≤ 18446744073709551615) :
    readNumber? (integer value) = some (.integer value, []) := by
  unfold integer
  by_cases negative : value < 0
  · rw [if_pos negative]
    change readMagnitude? true (digits value.natAbs) = _
    have inside : ¬(value.natAbs == 0 || decide (9223372036854775808 < value.natAbs)) = true := by
      simp
      omega
    rw [readMagnitude?_digits, ofWhole, if_pos rfl, if_neg inside,
      show -(value.natAbs : Int) = value by omega]
  · have inside : ¬18446744073709551615 < value.natAbs := by omega
    rw [if_neg negative, readNumber?_digits, ofWhole, if_neg Bool.false_ne_true, if_neg inside,
      show (value.natAbs : Int) = value by omega]

end PipelineCapacity.Json
