import Mathlib.Data.List.Basic
import PipelineCapacity.Json.Text

/-!
Strings of JSON texts read back. Every character survives its own escape,
whatever it is: the reader takes up exactly what the writer put down for it and
goes on with the next.
-/

set_option autoImplicit false

namespace PipelineCapacity.Json

theorem hexValue?_hexDigit {value : Nat} (small : value < 16) :
    hexValue? (hexDigit value) = some value := by
  have all : ∀ value : Fin 16, hexValue? (hexDigit value) = some value.val := by decide
  exact all ⟨value, small⟩

theorem hexUnit?_control {code : Nat} (control : code < 32) :
    hexUnit? '0' '0' (hexDigit (code / 16)) (hexDigit (code % 16)) = some code := by
  have zero : hexValue? '0' = some 0 := rfl
  unfold hexUnit?
  rw [zero, hexValue?_hexDigit (by omega), hexValue?_hexDigit (Nat.mod_lt _ (by omega))]
  change some (0 * 4096 + 0 * 256 + code / 16 * 16 + code % 16) = some code
  congr 1
  omega

theorem takeText_plain {char : Char} (before rest : List Char) (quote : char ≠ '"')
    (backslash : char ≠ '\\') (printable : isControl char = false) :
    takeText (some before) none (char :: rest) = takeText (some (char :: before)) none rest := by
  rw [takeText.eq_def]
  split
  · rename_i same
    cases same
  · rename_i same
    cases same
    exact absurd rfl quote
  · rename_i same
    cases same
    exact absurd rfl backslash
  · rename_i same
    cases same
    exact absurd rfl backslash
  · rename_i same
    cases same
    rw [printable, Bool.false_or, if_neg (by simpa using backslash)]
    rfl

theorem takeText_control {char : Char} (before rest : List Char) (control : char.toNat < 32) :
    takeText (some before) none
        (['\\', 'u', '0', '0', hexDigit (char.toNat / 16), hexDigit (char.toNat % 16)] ++ rest) =
      takeText (some (char :: before)) none rest := by
  have high : isHighSurrogate char.toNat = false := by
    unfold isHighSurrogate
    rw [Bool.and_eq_false_iff, decide_eq_false_iff_not]
    omega
  have low : isLowSurrogate char.toNat = false := by
    unfold isLowSurrogate
    rw [Bool.and_eq_false_iff, decide_eq_false_iff_not]
    omega
  have pushed : Piece.pushUnit (some before) none char.toNat = (some (char :: before), none) := by
    unfold Piece.pushUnit
    dsimp only
    rw [high, low, if_neg Bool.false_ne_true, if_neg Bool.false_ne_true, Char.ofNat_toNat]
    rfl
  simp only [List.cons_append, List.nil_append]
  rw [takeText, hexUnit?_control control]
  dsimp only
  rw [pushed]

/-- A character is read back from its escape. -/
theorem takeText_escape (before : List Char) (char : Char) (rest : List Char) :
    takeText (some before) none (escape char ++ rest) =
      takeText (some (char :: before)) none rest := by
  unfold escape
  split
  -- The seven characters with an escape of their own.
  iterate 7 rfl
  rename_i quote backslash _ _ _ _ _
  split
  · rename_i control
    exact takeText_control before rest (of_decide_eq_true control)
  · rename_i printable
    exact takeText_plain before rest quote backslash (Bool.not_eq_true _ ▸ printable)

theorem takeText_escapes (before chars rest : List Char) :
    takeText (some before) none (chars.flatMap escape ++ rest) =
      takeText (some (chars.reverse ++ before)) none rest := by
  induction chars generalizing before with
  | nil => rfl
  | cons char chars ih =>
      rw [List.flatMap_cons, List.append_assoc, takeText_escape, ih, List.reverse_cons,
        List.append_assoc, List.singleton_append]

/-- A string is read back from the text written for it, up to its closing quote. -/
theorem readText?_escapes (text : String) (rest : List Char) :
    readText? (text.toList.flatMap escape ++ '"' :: rest) = some (some text, rest) := by
  unfold readText?
  rw [takeText_escapes, takeText, List.append_nil]
  simp [Piece.settle]

end PipelineCapacity.Json
