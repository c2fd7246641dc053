import PipelineCapacity.Proofs.Calendar.Text
import PipelineCapacity.Proofs.Decimal.Shortest
import PipelineCapacity.Proofs.Json.Document

/-!
The numeral of every finite amount reads back. However digits are laid out, they
are read as a decimal number of the same value, and what a number covers is read
as this number.
-/

set_option autoImplicit false

namespace PipelineCapacity

namespace Text

theorem value_append_zeros (chars : List Char) (count : Nat) :
    value (chars ++ List.replicate count '0') = value chars * 10 ^ count := by
  induction count with
  | zero => simp
  | succ count ih =>
      rw [List.replicate_succ', ← List.append_assoc, value_append_singleton, ih, pow_succ,
        ← mul_assoc]
      rfl

theorem lt_ten_pow_length (number : Nat) : number < 10 ^ (digits number).length := by
  fun_induction digits number with
  | case1 number small => simpa using small
  | case2 number large ih =>
      rw [List.length_append, List.length_singleton, pow_succ]
      omega

theorem isDigit_of_mem_zeros {count : Nat} {char : Char}
    (member : char ∈ List.replicate count '0') : isDigit char = true := by
  rw [List.eq_of_mem_replicate member]
  rfl

end Text

namespace Json

open Text

variable {whole fraction rest : List Char}

theorem takeDigits_of_digits (digits : ∀ char ∈ whole, isDigit char = true)
    (ends : ∀ char ∈ rest.head?, isDigit char = false) :
    takeDigits (whole ++ rest) = (whole, rest) := by
  unfold takeDigits
  rw [List.takeWhile_append_of_pos digits, List.dropWhile_append_of_pos digits]
  cases rest with
  | nil => simp
  | cons char others =>
      have other := ends char rfl
      simp [other]

/-- A whole part: only zero starts with a zero. -/
def Leads (whole : List Char) : Prop := whole ≠ [] ∧ ∀ others, whole = '0' :: others → others = []

theorem leads_singleton (char : Char) : Leads [char] :=
  ⟨List.cons_ne_nil _ _, fun _ same => (List.cons.inj same).2.symm⟩

theorem leads_digits (number : Nat) : Leads (digits number) := by
  refine ⟨digits_ne_nil number, fun others zero => ?_⟩
  rw [eq_zero_of_digits zero, digits, if_pos (by decide)] at zero
  exact (List.cons.inj zero).2.symm

theorem leads_digits_append {number : Nat} (vacant : number = 0 → rest = []) :
    Leads (digits number ++ rest) := by
  refine ⟨List.append_ne_nil_of_left_ne_nil (digits_ne_nil number) _, fun others same => ?_⟩
  obtain ⟨lead, more, text⟩ := List.exists_cons_of_ne_nil (digits_ne_nil number)
  rw [text, List.cons_append] at same
  obtain ⟨rfl, rfl⟩ := List.cons.inj same
  rw [vacant (eq_zero_of_digits text), (leads_digits number).2 more text]
  rfl

theorem leads_take_digits (number : Nat) {count : Nat} (positive : 0 < count) :
    Leads ((digits number).take count) := by
  obtain ⟨lead, more, text⟩ := List.exists_cons_of_ne_nil (digits_ne_nil number)
  obtain ⟨count, rfl⟩ := Nat.exists_eq_succ_of_ne_zero positive.ne'
  rw [text, List.take_succ_cons]
  refine ⟨List.cons_ne_nil _ _, fun others same => ?_⟩
  obtain ⟨rfl, rfl⟩ := List.cons.inj same
  rw [(leads_digits number).2 more text, List.take_nil]

theorem takeWhole?_of_digits (leads : Leads whole) (digits : ∀ char ∈ whole, isDigit char = true)
    (ends : ∀ char ∈ rest.head?, isDigit char = false) :
    takeWhole? (whole ++ rest) = some (whole, rest) := by
  unfold takeWhole?
  rw [takeDigits_of_digits digits ends]
  split
  · rename_i same
    exact absurd (Prod.mk.inj same).1 leads.1
  · rename_i same
    cases leads.2 _ (Prod.mk.inj same).1
  · rfl

/-- A point and the digits after it, if there are any. -/
def pointed : List Char → List Char
  | [] => []
  | fraction => '.' :: fraction

theorem pointed_of_ne_nil (present : fraction ≠ []) : pointed fraction = '.' :: fraction := by
  cases fraction with
  | nil => exact absurd rfl present
  | cons digit digits => rfl

/-- Nothing that digits or a point go on with. -/
def Stops (rest : List Char) : Prop := ∀ char ∈ rest.head?, isDigit char = false ∧ char ≠ '.'

theorem Stops.not_digit (stops : Stops rest) :
    ∀ char ∈ (pointed fraction ++ rest).head?, isDigit char = false := by
  cases fraction with
  | nil => exact fun char first => (stops char first).1
  | cons digit digits =>
      rintro _ ⟨rfl⟩
      rfl

theorem takeFraction?_pointed (stops : Stops rest)
    (digits : ∀ char ∈ fraction, isDigit char = true) :
    takeFraction? (pointed fraction ++ rest) = some (fraction, rest) := by
  cases fraction with
  | nil =>
      change takeFraction? rest = some ([], rest)
      unfold takeFraction?
      split
      · exact absurd rfl (stops '.' rfl).2
      · rfl
  | cons digit others =>
      change takeFraction? ('.' :: (digit :: others ++ rest)) = _
      rw [takeFraction?, takeDigits_of_digits digits fun char first => (stops char first).1]

theorem takePower?_digits (negative : Bool) (power : Nat) :
    takePower? negative (digits power) =
      some (some (if negative then -(power : Int) else power), []) := by
  unfold takePower?
  rw [takeDigits_digits]
  split
  · rename_i same
    exact absurd (Prod.mk.inj same).1 (digits_ne_nil power)
  · rename_i same
    obtain ⟨rfl, rfl⟩ := Prod.mk.inj same
    rw [value_digits]

theorem takeExponent?_power (exponent : Int) :
    takeExponent? ('e' :: (if exponent < 0 then '-' else '+') :: digits exponent.natAbs) =
      some (some exponent, []) := by
  by_cases negative : exponent < 0
  · rw [if_pos negative]
    refine (takePower?_digits true exponent.natAbs).trans ?_
    rw [if_pos rfl, show -(exponent.natAbs : Int) = exponent by omega]
  · rw [if_neg negative]
    refine (takePower?_digits false exponent.natAbs).trans ?_
    rw [if_neg Bool.false_ne_true, show (exponent.natAbs : Int) = exponent by omega]

/-- A numeral with a fraction and no exponent. -/
theorem readMagnitude?_fraction (negative : Bool) (leads : Leads whole)
    (wholeDigits : ∀ char ∈ whole, isDigit char = true) (present : fraction ≠ [])
    (digits : ∀ char ∈ fraction, isDigit char = true) :
    readMagnitude? negative (whole ++ '.' :: fraction) =
      some (ofReal negative (value (whole ++ fraction)) (-fraction.length), []) := by
  have stops : Stops [] := nofun
  have taken := takeFraction?_pointed stops digits
  have ends : ∀ char ∈ (pointed fraction ++ []).head?, isDigit char = false := stops.not_digit
  rw [pointed_of_ne_nil present, List.append_nil] at taken ends
  unfold readMagnitude?
  rw [takeWhole?_of_digits leads wholeDigits ends]
  dsimp only
  rw [taken]
  dsimp only [takeExponent?]
  rw [if_neg (by simpa using present)]

/-- A numeral with an exponent. -/
theorem readMagnitude?_power (negative : Bool) (leads : Leads whole)
    (wholeDigits : ∀ char ∈ whole, isDigit char = true)
    (digits : ∀ char ∈ fraction, isDigit char = true) (exponent : Int) :
    readMagnitude? negative (whole ++ (pointed fraction ++
        'e' :: (if exponent < 0 then '-' else '+') :: Text.digits exponent.natAbs)) =
      some (ofReal negative (value (whole ++ fraction)) (exponent - fraction.length), []) := by
  have stops (others : List Char) : Stops ('e' :: others) := by
    rintro _ ⟨rfl⟩
    exact ⟨rfl, by decide⟩
  unfold readMagnitude?
  rw [takeWhole?_of_digits leads wholeDigits (stops _).not_digit]
  dsimp only
  rw [takeFraction?_pointed (stops _) digits]
  dsimp only
  rw [takeExponent?_power]

/-- A numeral that is read as a decimal number of this value, of at most 19 digits. -/
def ReadsAs (negative : Bool) (numeral : List Char) (exact : ℚ) : Prop :=
  ∃ (significand : Nat) (exponent : Int),
    readMagnitude? negative numeral = some (ofReal negative significand exponent, []) ∧
      (significand : ℚ) * 10 ^ exponent = exact ∧ significand < 2 ^ 64

namespace ReadsAs

variable {negative : Bool} {significand : Nat} {exponent point : Int} (short : significand < 2 ^ 64)
  (point_eq : point = (digits significand).length + exponent)

include short point_eq

/-- All digits stand after the point. -/
theorem inFull_fraction (low : point ≤ 0) :
    ReadsAs negative (Decimal.inFull true (digits significand) point)
      (significand * 10 ^ exponent) := by
  have all : ∀ char ∈ List.replicate point.natAbs '0' ++ digits significand,
      isDigit char = true :=
    List.forall_mem_append.mpr ⟨fun _ => isDigit_of_mem_zeros, fun _ => isDigit_of_mem_digits⟩
  have present : List.replicate point.natAbs '0' ++ digits significand ≠ [] :=
    List.append_ne_nil_of_right_ne_nil _ (digits_ne_nil significand)
  have number : value (['0'] ++ (List.replicate point.natAbs '0' ++ digits significand)) =
      significand := (value_zeros (point.natAbs + 1) _).trans (value_digits significand)
  have places : -((List.replicate point.natAbs '0' ++ digits significand).length : Int) =
      exponent := by
    rw [List.length_append, List.length_replicate]
    omega
  have read := readMagnitude?_fraction negative (leads_singleton '0')
    (List.forall_mem_singleton.mpr rfl) present all
  rw [number, places] at read
  rw [Decimal.inFull, if_pos low]
  exact ⟨significand, exponent, read, rfl, short⟩

/-- The point stands among the digits. -/
theorem inFull_among (after : ¬point ≤ 0) (before : point < (digits significand).length) :
    ReadsAs negative (Decimal.inFull true (digits significand) point)
      (significand * 10 ^ exponent) := by
  have present : (digits significand).drop point.toNat ≠ [] := by
    rw [ne_eq, List.drop_eq_nil_iff]
    omega
  have none : point.toNat - (digits significand).length = 0 := by omega
  have all : ∀ char ∈ (digits significand).take point.toNat ++
      (digits significand).drop point.toNat, isDigit char = true := by
    rw [List.take_append_drop]
    exact fun _ => isDigit_of_mem_digits
  obtain ⟨front, back⟩ := List.forall_mem_append.mp all
  have places : -(((digits significand).drop point.toNat).length : Int) = exponent := by
    rw [List.length_drop]
    omega
  have read := readMagnitude?_fraction negative
    (leads_take_digits significand (by omega)) front present back
  rw [List.take_append_drop, value_digits, places] at read
  rw [Decimal.inFull, if_neg after, none, List.replicate_zero, List.append_nil]
  dsimp only
  rw [if_neg (by simpa using present)]
  exact ⟨significand, exponent, read, rfl, short⟩

theorem withExponent :
    ReadsAs negative (Decimal.withExponent (digits significand) (point - 1))
      (significand * 10 ^ exponent) := by
  obtain ⟨lead, fraction, text⟩ := List.exists_cons_of_ne_nil (digits_ne_nil significand)
  have all : ∀ char ∈ [lead] ++ fraction, isDigit char = true := by
    change ∀ char ∈ lead :: fraction, isDigit char = true
    rw [← text]
    exact fun _ => isDigit_of_mem_digits
  obtain ⟨front, back⟩ := List.forall_mem_append.mp all
  have places : point - 1 - (fraction.length : Int) = exponent := by
    rw [text, List.length_cons] at point_eq
    omega
  have number : value ([lead] ++ fraction) = significand := by
    change value (lead :: fraction) = significand
    rw [← text, value_digits]
  have read := readMagnitude?_power negative (leads_singleton lead) front back (point - 1)
  rw [places, number] at read
  refine ⟨significand, exponent, ?_, rfl, short⟩
  rw [text]
  cases fraction with
  | nil => exact read
  | cons next others => exact read

omit short

/-- All digits stand before the point, and zeros may follow them. -/
theorem inFull_whole (zero : significand = 0 → exponent = 0) (high : point ≤ 16)
    (after : ¬point ≤ 0) (reach : (digits significand).length ≤ point) :
    ReadsAs negative (Decimal.inFull true (digits significand) point)
      (significand * 10 ^ exponent) := by
  obtain ⟨count, rfl⟩ := Int.eq_ofNat_of_zero_le (by omega : 0 ≤ exponent)
  have zeros : point.toNat - (digits significand).length = count := by omega
  have vacant : (digits significand).drop point.toNat = [] := List.drop_eq_nil_of_le (by omega)
  have all : (digits significand).take point.toNat = digits significand :=
    List.take_of_length_le (by omega)
  have leads : Leads (digits significand ++ List.replicate count '0') :=
    leads_digits_append fun vanished => by
      rw [Int.natCast_eq_zero.mp (zero vanished), List.replicate_zero]
  have read := readMagnitude?_fraction negative leads
    (List.forall_mem_append.mpr ⟨fun _ => isDigit_of_mem_digits, fun _ => isDigit_of_mem_zeros⟩)
    (List.cons_ne_nil '0' []) (List.forall_mem_singleton.mpr rfl)
  have number : value (digits significand ++ List.replicate count '0' ++ ['0']) =
      significand * 10 ^ (count + 1) := by
    rw [List.append_assoc, ← List.replicate_succ', value_append_zeros, value_digits]
  rw [number] at read
  rw [Decimal.inFull, if_neg after, all, zeros, vacant]
  refine ⟨significand * 10 ^ (count + 1), -1, read, ?_, ?_⟩
  · rw [zpow_natCast, zpow_neg_one]
    push_cast
    rw [pow_succ]
    field_simp
  · calc
      significand * 10 ^ (count + 1) < 10 ^ (digits significand).length * 10 ^ (count + 1) :=
        Nat.mul_lt_mul_of_pos_right (lt_ten_pow_length significand) (Nat.pow_pos (by decide))
      _ = 10 ^ ((digits significand).length + (count + 1)) := (pow_add _ _ _).symm
      _ ≤ 10 ^ 17 := Nat.pow_le_pow_right (by decide) (by omega)
      _ < 2 ^ 64 := by decide

end ReadsAs

open Decimal

variable {negative : Bool} {amount : Float} {number : Binary} {numeral : List Char} {exact : ℚ}

/-- The digits that are chosen for an amount are laid out so that they keep their value. -/
theorem ReadsAs.renderMagnitude {written : Digits} (short : written.significand < 2 ^ 64)
    (zero : written.significand = 0 → written.exponent = 0)
    (chosen : written = if amount == 0.0 then ⟨0, 0⟩ else (Binary.ofFloat amount).shortest false) :
    ReadsAs negative (Layout.document.renderMagnitude amount) written.value := by
  unfold Layout.renderMagnitude
  dsimp only [Layout.document]
  rw [← chosen]
  split
  · rename_i inside
    by_cases low : ((Text.digits written.significand).length : Int) + written.exponent ≤ 0
    · exact inFull_fraction short rfl low
    · by_cases reach : ((Text.digits written.significand).length : Int) ≤
          (Text.digits written.significand).length + written.exponent
      · exact inFull_whole rfl zero (by omega) low reach
      · exact inFull_among short rfl low (not_le.mp reach)
  · exact withExponent short rfl

theorem ReadsAs.eq_of_covers (reads : ReadsAs negative numeral exact)
    (canonical : number.Canonical) (covers : number.Covers exact) :
    readMagnitude? negative numeral =
      some (.number (signed negative (canonical.float .positive)), []) := by
  obtain ⟨significand, exponent, read, same, short⟩ := reads
  have positive : 0 < significand := by
    refine Nat.pos_of_ne_zero fun zero => ?_
    rw [zero, Nat.cast_zero, zero_mul] at same
    exact (covers.positive canonical).ne same
  rw [← same] at covers
  rw [read, ofReal, Binary.nearest?_eq canonical positive short covers]

theorem ReadsAs.eq_of_zero (reads : ReadsAs negative numeral 0) :
    readMagnitude? negative numeral = some (.number (signed negative 0.0), []) := by
  obtain ⟨significand, exponent, read, same, _⟩ := reads
  have zero : (significand : ℚ) = 0 :=
    (mul_eq_zero.mp same).resolve_right (zpow_ne_zero _ (by norm_num))
  rw [Nat.cast_eq_zero.mp zero] at read
  exact read

theorem readNumber?_signed {result : Document × List Char}
    (found : readMagnitude? negative numeral = some result) :
    readNumber? (if negative then '-' :: numeral else numeral) = some result := by
  cases negative with
  | true => exact found
  | false =>
      rw [if_neg Bool.false_ne_true]
      unfold readNumber?
      split
      · cases found
      · exact found

section Float

open Float.Model
open Float.Model.UnpackedFloat

theorem signed_float (canonical : number.Canonical)
    (same : amount.toModel.unpack = canonical.unpacked (Binary.signOf amount)) :
    signed (isNegative amount) (canonical.float .positive) = amount := by
  have kept : amount = canonical.float (Binary.signOf amount) := Binary.eq_of_unpack same
  unfold Binary.signOf at kept
  unfold signed
  split at kept
  · rw [if_pos ‹_›, canonical.neg_float, ← kept]
  · rw [if_neg ‹_›, ← kept]

theorem zero_eq : (0.0 : Float) = .ofModel (.pack (.zero .positive)) := by decide +kernel

theorem neg_zero_eq : -(0.0 : Float) = .ofModel (.pack (.zero .negative)) := by decide +kernel

theorem signed_zero (same : amount.toModel.unpack = .zero (Binary.signOf amount)) :
    signed (isNegative amount) 0.0 = amount := by
  have kept := Binary.eq_of_unpack same
  unfold Binary.signOf at kept
  unfold signed
  split at kept
  · rw [if_pos ‹_›, neg_zero_eq, ← kept]
  · rw [if_neg ‹_›, zero_eq, ← kept]

theorem beq_zero_eq : (amount == 0.0) = amount.toModel.unpack.beq (.zero .positive) := by
  rw [zero_eq]
  change amount.toModel.unpack.beq
    (UnpackedFloat.unpack .binary64 (packedZero .binary64 .positive)) = _
  rw [unpack_packedZero]

theorem not_special (finite : amount.isFinite = true) :
    amount.isNaN = false ∧ amount.isInf = false := by
  change UnpackedFloat.isFinite amount.toModel.unpack = true at finite
  change UnpackedFloat.isNaN amount.toModel.unpack = false ∧
    UnpackedFloat.isInf amount.toModel.unpack = false
  cases kind : amount.toModel.unpack with
  | notANumber =>
      rw [kind] at finite
      cases finite
  | infinity sign =>
      rw [kind] at finite
      cases finite
  | zero sign => exact ⟨rfl, rfl⟩
  | finite sign mantissa exponent positive => exact ⟨rfl, rfl⟩

/-- Every finite amount is read as it was written, zeros with their sign. -/
theorem readsBack_of_isFinite (finite : amount.isFinite = true) : ReadsBack amount := by
  have found : readMagnitude? (isNegative amount) (Layout.document.renderMagnitude amount) =
      some (.number amount, []) := by
    rcases Binary.unpack_eq_of_isFinite finite with zero | ⟨canonical, same⟩
    · have vanished : (amount == 0.0) = true := by
        rw [beq_zero_eq, zero]
        rfl
      have reads : ReadsAs (isNegative amount) (Layout.document.renderMagnitude amount)
          (Digits.value ⟨0, 0⟩) :=
        .renderMagnitude (by decide) (fun _ => rfl) (if_pos vanished).symm
      rw [Digits.value, Nat.cast_zero, zero_mul] at reads
      rw [reads.eq_of_zero, signed_zero zero]
    · have present : ¬(amount == 0.0) = true := by
        rw [beq_zero_eq, same]
        cases Binary.signOf amount <;> exact Bool.false_ne_true
      have standFor := canonical.shortest_standFor false
      have zero : ((Binary.ofFloat amount).shortest false).significand = 0 →
          ((Binary.ofFloat amount).shortest false).exponent = 0 := by
        intro vanished
        have positive := standFor.covers.positive canonical
        rw [Digits.value, vanished, Nat.cast_zero, zero_mul] at positive
        exact absurd positive (lt_irrefl 0)
      have reads : ReadsAs (isNegative amount) (Layout.document.renderMagnitude amount) _ :=
        .renderMagnitude standFor.short zero (if_neg present).symm
      rw [reads.eq_of_covers canonical standFor.covers, signed_float canonical same]
  obtain ⟨number, bounded⟩ := not_special finite
  unfold ReadsBack Layout.render
  rw [number, bounded]
  exact readNumber?_signed found

end Float

end Json

end PipelineCapacity
