import Mathlib.Algebra.Group.Nat.Defs
import Mathlib.Data.List.Basic
import PipelineCapacity.Calendar.Date.Text
import PipelineCapacity.Proofs.Failure

/-!
Dates read back from their texts. A year of the common span is written with as
many digits as an unsigned year may have, any other year with a sign, so every
date of the calendar is read as it was written.
-/

set_option autoImplicit false

namespace PipelineCapacity

namespace Text

/-- A number below a power of ten has at most as many digits. -/
theorem length_digits_le {width number : Nat} (small : number < 10 ^ (width + 1)) :
    (digits number).length ≤ width + 1 := by
  fun_induction digits number generalizing width with
  | case1 number single => exact Nat.le_add_left 1 width
  | case2 number large ih =>
      cases width with
      | zero => omega
      | succ width =>
          have shorter : number / 10 < 10 ^ (width + 1) := by
            rw [Nat.pow_succ] at small
            omega
          rw [List.length_append, List.length_singleton]
          exact Nat.succ_le_succ (ih shorter)

theorem value_zeros (count : Nat) (chars : List Char) :
    value (List.replicate count '0' ++ chars) = value chars := by
  induction count with
  | zero => rfl
  | succ count ih => exact ih

theorem value_zeroPadded (width number : Nat) : value (zeroPadded width number) = number :=
  (value_zeros _ _).trans (value_digits number)

theorem isDigit_of_mem_zeroPadded {width number : Nat} :
    ∀ char ∈ zeroPadded width number, isDigit char = true := by
  refine List.forall_mem_append.mpr ⟨fun char member => ?_, fun char => isDigit_of_mem_digits⟩
  rw [List.eq_of_mem_replicate member]
  rfl

theorem zeroPadded_ne_nil (width number : Nat) : zeroPadded width number ≠ [] :=
  List.append_ne_nil_of_right_ne_nil _ (digits_ne_nil number)

theorem length_zeroPadded {width number : Nat} (small : number < 10 ^ (width + 1)) :
    (zeroPadded (width + 1) number).length = width + 1 := by
  have fits := length_digits_le small
  unfold zeroPadded
  rw [List.length_append, List.length_replicate]
  omega

theorem isBlank_of_isDigit {char : Char} (digit : isDigit char = true) : isBlank char = false := by
  simp only [isDigit, Bool.and_eq_true, decide_eq_true_eq] at digit
  unfold isBlank blankRanges
  simp
  omega

theorem dropBlanks_cons {char : Char} (solid : isBlank char = false) (rest : List Char) :
    dropBlanks (char :: rest) = char :: rest :=
  List.dropWhile_cons_of_neg (by rw [solid]; exact Bool.false_ne_true)

theorem dropBlanks_digits {number : List Char} (digits : ∀ char ∈ number, isDigit char = true)
    (present : number ≠ []) (rest : List Char) : dropBlanks (number ++ rest) = number ++ rest := by
  obtain ⟨char, others, rfl⟩ := List.exists_cons_of_ne_nil present
  exact dropBlanks_cons (isBlank_of_isDigit (digits char List.mem_cons_self)) _

end Text

namespace Date

open Text

variable {number rest : List Char}

/-- Digits are taken up to something else, or as far as the width allows. -/
theorem takeNumber_append {width : Nat} (digits : ∀ char ∈ number, isDigit char = true)
    (present : number ≠ []) (fits : number.length ≤ width)
    (ends : ∀ char ∈ rest.head?, isDigit char = false) :
    takeNumber width (number ++ rest) = .ok (value number, rest) := by
  have stops : (rest.take (width - number.length)).takeWhile isDigit = [] := by
    cases rest with
    | nil => simp
    | cons char others =>
        cases width - number.length with
        | zero => rfl
        | succ count =>
            rw [List.take_succ_cons, List.takeWhile_cons_of_neg]
            rw [ends char rfl]
            exact Bool.false_ne_true
  have taken : ((number ++ rest).take width).takeWhile isDigit = number := by
    rw [List.take_append, List.take_of_length_le fits, List.takeWhile_append_of_pos digits, stops,
      List.append_nil]
  unfold takeNumber
  rw [taken]
  dsimp only
  rw [if_neg (by simp [present]), if_neg (by simp [present]), List.drop_left]

theorem within_eq_ok {low high number : Int} (inside : low ≤ number ∧ number ≤ high) :
    within low high number = .ok () := if_pos inside

/-- After a sign a year may have any number of digits. -/
theorem takeNumber_signed (year : Nat) (ends : ∀ char ∈ rest.head?, isDigit char = false) :
    takeNumber (zeroPadded 4 year ++ rest).length (zeroPadded 4 year ++ rest) =
      .ok (year, rest) := by
  have fits : (zeroPadded 4 year).length ≤ (zeroPadded 4 year ++ rest).length := by
    rw [List.length_append]
    exact Nat.le_add_right _ _
  rw [takeNumber_append isDigit_of_mem_zeroPadded (zeroPadded_ne_nil 4 year) fits ends,
    value_zeroPadded]

theorem takeYear_negative {year : Nat} (inside : year ≤ 2147483648)
    (ends : ∀ char ∈ rest.head?, isDigit char = false) :
    takeYear ('-' :: (zeroPadded 4 year ++ rest)) = .ok (-(year : Int), rest) := by
  have taken := takeNumber_signed year ends
  refine bind_eq_ok_iff.mpr ⟨(-(year : Int), rest), map_eq_ok_iff.mpr ⟨_, taken, rfl⟩, ?_⟩
  exact bind_eq_ok_iff.mpr ⟨(), within_eq_ok (by omega), rfl⟩

theorem takeYear_positive {year : Nat} (inside : year ≤ 2147483647)
    (ends : ∀ char ∈ rest.head?, isDigit char = false) :
    takeYear ('+' :: (zeroPadded 4 year ++ rest)) = .ok ((year : Int), rest) := by
  have taken := takeNumber_signed year ends
  refine bind_eq_ok_iff.mpr ⟨((year : Int), rest), map_eq_ok_iff.mpr ⟨_, taken, rfl⟩, ?_⟩
  exact bind_eq_ok_iff.mpr ⟨(), within_eq_ok (by omega), rfl⟩

/-- Without a sign a year has four digits. -/
theorem takeYear_unsigned {year : Nat} (inside : year ≤ 9999)
    (ends : ∀ char ∈ rest.head?, isDigit char = false) :
    takeYear (zeroPadded 4 year ++ rest) = .ok ((year : Int), rest) := by
  have digits : ∀ char ∈ zeroPadded 4 year, isDigit char = true := isDigit_of_mem_zeroPadded
  have fits : (zeroPadded 4 year).length ≤ 4 :=
    Nat.le_of_eq (length_zeroPadded (by omega : year < 10 ^ (3 + 1)))
  have taken := takeNumber_append digits (zeroPadded_ne_nil 4 year) fits ends
  rw [value_zeroPadded] at taken
  unfold takeYear
  rw [dropBlanks_digits digits (zeroPadded_ne_nil 4 year)]
  obtain ⟨char, others, split⟩ := List.exists_cons_of_ne_nil (zeroPadded_ne_nil 4 year)
  have lead : isDigit char = true := digits char (split ▸ List.mem_cons_self)
  split
  · rename_i same
    rw [split] at same
    cases same
    cases lead
  · rename_i same
    rw [split] at same
    cases same
    cases lead
  · refine bind_eq_ok_iff.mpr ⟨((year : Int), rest), map_eq_ok_iff.mpr ⟨_, taken, rfl⟩, ?_⟩
    exact bind_eq_ok_iff.mpr ⟨(), within_eq_ok (by omega), rfl⟩

theorem takePart_append {high part : Nat} (inside : 1 ≤ part ∧ part ≤ high) (small : part < 100)
    (ends : ∀ char ∈ rest.head?, isDigit char = false) :
    takePart high (zeroPadded 2 part ++ rest) = .ok (part, rest) := by
  have fits : (zeroPadded 2 part).length ≤ 2 :=
    Nat.le_of_eq (length_zeroPadded (by omega : part < 10 ^ (1 + 1)))
  have taken := takeNumber_append isDigit_of_mem_zeroPadded (zeroPadded_ne_nil 2 part) fits ends
  rw [value_zeroPadded] at taken
  unfold takePart
  rw [dropBlanks_digits isDigit_of_mem_zeroPadded (zeroPadded_ne_nil 2 part)]
  refine bind_eq_ok_iff.mpr ⟨_, taken, ?_⟩
  exact bind_eq_ok_iff.mpr ⟨(), within_eq_ok (by omega), rfl⟩

/-- The year of a date, with its sign where it needs one, up to the first dash. -/
def renderYear (date : Date) : List Char :=
  if 0 ≤ date.year ∧ date.year ≤ 9999 then zeroPadded 4 date.year.natAbs
  else (if date.year < 0 then '-' else '+') :: zeroPadded 4 date.year.natAbs

theorem takeYear_renderYear (date : Date) (ends : ∀ char ∈ rest.head?, isDigit char = false) :
    takeYear (date.renderYear ++ rest) = .ok (date.year, rest) := by
  have calendar := date.year_mem
  unfold firstYear lastYear at calendar
  unfold renderYear
  split
  · rw [takeYear_unsigned (by omega) ends, Int.natAbs_of_nonneg (by omega)]
  · split
    · rw [List.cons_append, takeYear_negative (by omega) ends,
        Int.ofNat_natAbs_of_nonpos (by omega), Int.neg_neg]
    · rw [List.cons_append, takeYear_positive (by omega) ends, Int.natAbs_of_nonneg (by omega)]

theorem daysInMonth_le (year : Int) (month : Nat) : daysInMonth year month ≤ 31 := by
  unfold daysInMonth
  split <;> try split
  all_goals decide

/-- Every date of the calendar is read from the text written for it. -/
theorem read_render (date : Date) : read date.render = .ok date := by
  have month := date.month_mem
  have day := date.day_mem
  have monthEnd := daysInMonth_le date.year date.month
  have dash (chars : List Char) : ∀ char ∈ ('-' :: chars).head?, isDigit char = false := by
    rintro _ ⟨rfl⟩
    rfl
  have written : date.render = date.renderYear ++ ('-' :: (zeroPadded 2 date.month ++
      '-' :: (zeroPadded 2 date.day ++ []))) := by
    rw [List.append_nil]
    exact List.append_assoc _ _ _
  rw [written]
  refine bind_eq_ok_iff.mpr ⟨_, takeYear_renderYear date (dash _), ?_⟩
  refine bind_eq_ok_iff.mpr ⟨_, rfl, ?_⟩
  refine bind_eq_ok_iff.mpr ⟨_, takePart_append month (by omega) (dash _), ?_⟩
  refine bind_eq_ok_iff.mpr ⟨_, rfl, ?_⟩
  refine bind_eq_ok_iff.mpr ⟨_, takePart_append (by omega) (by omega) nofun, ?_⟩
  dsimp only
  rw [of?_self]
  rfl

theorem read_text (date : Date) : read date.text.toList = .ok date := by
  unfold text
  rw [String.toList_ofList]
  exact read_render date

end Date

end PipelineCapacity
