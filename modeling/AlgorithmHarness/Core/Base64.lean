import Mathlib.Data.List.DropRight
import Mathlib.Tactic.IntervalCases

/-!
# Base64 with the URL-safe alphabet

`base64.urlsafe_b64encode` and `base64.urlsafe_b64decode` of the standard
library on characters.  The decoder is the lenient one: it skips characters
outside both alphabets and stops at the padding.  A text whose padding was
stripped and put back is the text that was encoded.
-/

namespace AlgorithmHarness.Base64

/-- The letter of six bits. -/
def sextetLetter (sextet : ℕ) : Char :=
  if sextet < 26 then Char.ofNat (65 + sextet)
  else if sextet < 52 then Char.ofNat (71 + sextet)
  else if sextet < 62 then Char.ofNat (sextet - 4)
  else if sextet = 62 then '-'
  else '_'

/-- The six bits of a letter of the URL-safe or the standard alphabet. -/
def letterSextet (letter : Char) : Option ℕ :=
  let code := letter.toNat
  if 65 ≤ code ∧ code ≤ 90 then some (code - 65)
  else if 97 ≤ code ∧ code ≤ 122 then some (code - 71)
  else if 48 ≤ code ∧ code ≤ 57 then some (code + 4)
  else if letter = '-' ∨ letter = '+' then some 62
  else if letter = '_' ∨ letter = '/' then some 63
  else none

theorem letterSextet_sextetLetter {sextet : ℕ} (hsextet : sextet < 64) :
    letterSextet (sextetLetter sextet) = some sextet := by
  interval_cases sextet <;> rfl

theorem sextetLetter_ne_pad {sextet : ℕ} (hsextet : sextet < 64) : sextetLetter sextet ≠ '=' := by
  interval_cases sextet <;> decide

/-! ## Encoding -/

/-- The letters of the bytes, without the padding. -/
def unpadded : List UInt8 → List Char
  | [] => []
  | [first] =>
      [sextetLetter (first.toNat / 4), sextetLetter (first.toNat % 4 * 16)]
  | [first, second] =>
      [sextetLetter (first.toNat / 4),
        sextetLetter (first.toNat % 4 * 16 + second.toNat / 16),
        sextetLetter (second.toNat % 16 * 4)]
  | first :: second :: third :: rest =>
      sextetLetter (first.toNat / 4) ::
        sextetLetter (first.toNat % 4 * 16 + second.toNat / 16) ::
        sextetLetter (second.toNat % 16 * 4 + third.toNat / 64) ::
        sextetLetter (third.toNat % 64) :: unpadded rest

/-- `"=" * (-length % 4)` -/
def padding (length : ℕ) : List Char := List.replicate ((4 - length % 4) % 4) '='

/-- `base64.urlsafe_b64encode(...)` -/
def encode (bytes : List UInt8) : List Char := unpadded bytes ++ padding (unpadded bytes).length

/-- `text.rstrip("=")` -/
def stripPadding (text : List Char) : List Char := text.rdropWhile (· = '=')

theorem pad_not_mem_unpadded (bytes : List UInt8) : '=' ∉ unpadded bytes := by
  have hletter : ∀ {sextet}, sextet < 64 → '=' ≠ sextetLetter sextet := fun hsextet =>
    (sextetLetter_ne_pad hsextet).symm
  fun_induction unpadded bytes with
  | case1 => exact List.not_mem_nil
  | case2 first =>
      have := first.toNat_lt
      simp only [List.mem_cons, List.not_mem_nil, or_false, not_or]
      exact ⟨hletter (by omega), hletter (by omega)⟩
  | case3 first second =>
      have := first.toNat_lt
      have := second.toNat_lt
      simp only [List.mem_cons, List.not_mem_nil, or_false, not_or]
      exact ⟨hletter (by omega), hletter (by omega), hletter (by omega)⟩
  | case4 first second third rest ih =>
      have := first.toNat_lt
      have := second.toNat_lt
      have := third.toNat_lt
      simp only [List.mem_cons, not_or]
      exact ⟨hletter (by omega), hletter (by omega), hletter (by omega), hletter (by omega), ih⟩

/-- Stripping the padding of an encoded text leaves its letters. -/
theorem stripPadding_encode (bytes : List UInt8) : stripPadding (encode bytes) = unpadded bytes := by
  have hstrip : ∀ count, (unpadded bytes ++ List.replicate count '=').rdropWhile (· = '=') =
      unpadded bytes := by
    intro count
    induction count with
    | zero =>
        rw [List.replicate_zero, List.append_nil, List.rdropWhile_eq_self_iff]
        intro hne hlast
        have hpad : (unpadded bytes).getLast hne = '=' := by simpa using hlast
        exact pad_not_mem_unpadded bytes (hpad ▸ List.getLast_mem hne)
    | succ count ih =>
        rw [List.replicate_succ', ← List.append_assoc, List.rdropWhile_concat_pos _ _ _ (by simp)]
        exact ih
  exact hstrip _

/-! ## Decoding -/

/-- `binascii.a2b_base64(...)` from the middle of a group of four letters:
`quad` letters of it are read and `left` are the bits of the last one that are
not yet in a byte.  `none` is its `binascii.Error`. -/
def decodeFrom (quad left pads : ℕ) : List Char → Option (List UInt8)
  | [] => if quad = 0 then some [] else none
  | letter :: text =>
      if letter = '=' then
        if 2 ≤ quad then
          if 4 ≤ quad + (pads + 1) then some [] else decodeFrom quad left (pads + 1) text
        else decodeFrom quad left pads text
      else
        match letterSextet letter with
        | none => decodeFrom quad left pads text
        | some sextet =>
            match quad with
            | 0 => decodeFrom 1 sextet 0 text
            | 1 => (decodeFrom 2 (sextet % 16) 0 text).map fun bytes =>
                UInt8.ofNat (left * 4 + sextet / 16) :: bytes
            | 2 => (decodeFrom 3 (sextet % 4) 0 text).map fun bytes =>
                UInt8.ofNat (left * 16 + sextet / 4) :: bytes
            | _ => (decodeFrom 0 0 0 text).map fun bytes =>
                UInt8.ofNat (left * 64 + sextet) :: bytes

/-- `base64.urlsafe_b64decode(...)` -/
def decode (text : List Char) : Option (List UInt8) := decodeFrom 0 0 0 text

section Letters

variable {sextet : ℕ} (left pads : ℕ) (text : List Char)

theorem decodeFrom_first (hsextet : sextet < 64) :
    decodeFrom 0 left pads (sextetLetter sextet :: text) = decodeFrom 1 sextet 0 text := by
  rw [decodeFrom, if_neg (sextetLetter_ne_pad hsextet), letterSextet_sextetLetter hsextet]
  rfl

/-- The byte that the second letter of a group completes; the same holds of the
third and the fourth. -/
theorem decodeFrom_second (hsextet : sextet < 64) (byte : UInt8)
    (hbyte : left * 4 + sextet / 16 = byte.toNat) :
    decodeFrom 1 left pads (sextetLetter sextet :: text) =
      (decodeFrom 2 (sextet % 16) 0 text).map (byte :: ·) := by
  rw [decodeFrom, if_neg (sextetLetter_ne_pad hsextet), letterSextet_sextetLetter hsextet]
  simp only [hbyte, UInt8.ofNat_toNat]

theorem decodeFrom_third (hsextet : sextet < 64) (byte : UInt8)
    (hbyte : left * 16 + sextet / 4 = byte.toNat) :
    decodeFrom 2 left pads (sextetLetter sextet :: text) =
      (decodeFrom 3 (sextet % 4) 0 text).map (byte :: ·) := by
  rw [decodeFrom, if_neg (sextetLetter_ne_pad hsextet), letterSextet_sextetLetter hsextet]
  simp only [hbyte, UInt8.ofNat_toNat]

theorem decodeFrom_fourth (hsextet : sextet < 64) (byte : UInt8)
    (hbyte : left * 64 + sextet = byte.toNat) :
    decodeFrom 3 left pads (sextetLetter sextet :: text) =
      (decodeFrom 0 0 0 text).map (byte :: ·) := by
  rw [decodeFrom, if_neg (sextetLetter_ne_pad hsextet), letterSextet_sextetLetter hsextet]
  simp only [hbyte, UInt8.ofNat_toNat]

end Letters

theorem decode_encode (bytes : List UInt8) : decode (encode bytes) = some bytes := by
  unfold encode decode
  fun_induction unpadded bytes with
  | case1 => rfl
  | case2 first =>
      have hfirst := first.toNat_lt
      rw [List.cons_append, decodeFrom_first _ _ _ (by omega), List.cons_append,
        decodeFrom_second _ _ _ (by omega) first (by omega)]
      rfl
  | case3 first second =>
      have hfirst := first.toNat_lt
      have hsecond := second.toNat_lt
      rw [List.cons_append, decodeFrom_first _ _ _ (by omega), List.cons_append,
        decodeFrom_second _ _ _ (by omega) first (by omega), List.cons_append,
        decodeFrom_third _ _ _ (by omega) second (by omega)]
      rfl
  | case4 first second third rest ih =>
      have hfirst := first.toNat_lt
      have hsecond := second.toNat_lt
      have hthird := third.toNat_lt
      rw [List.cons_append, decodeFrom_first _ _ _ (by omega), List.cons_append,
        decodeFrom_second _ _ _ (by omega) first (by omega), List.cons_append,
        decodeFrom_third _ _ _ (by omega) second (by omega), List.cons_append,
        decodeFrom_fourth _ _ _ (by omega) third (by omega)]
      have hlength : padding (sextetLetter (first.toNat / 4) ::
          sextetLetter (first.toNat % 4 * 16 + second.toNat / 16) ::
          sextetLetter (second.toNat % 16 * 4 + third.toNat / 64) ::
          sextetLetter (third.toNat % 64) :: unpadded rest).length =
          padding (unpadded rest).length := by
        simp [padding, Nat.add_assoc]
      rw [hlength, ih]
      rfl

/-- Padding that was stripped and put back. -/
theorem decode_stripped (bytes : List UInt8) :
    decode (stripPadding (encode bytes) ++ padding (stripPadding (encode bytes)).length) =
      some bytes := by
  rw [stripPadding_encode]
  exact decode_encode bytes

end AlgorithmHarness.Base64
