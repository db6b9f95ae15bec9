import Mathlib.Algebra.Group.Nat.Defs
import Mathlib.Data.List.Infix
import Mathlib.Data.Nat.Notation

/-!
# UTF-8

Texts are lists of code points, as in Python.  `decode` replaces what is no
UTF-8 in the way of `errors="replace"`: each longest part of a character that
is not completed by one U+FFFD.  ASCII comes through wherever it stands.
-/

namespace AlgorithmHarness.Utf8

abbrev Byte := Fin 256

/-! ## Encoding -/

def toByte (value : ℕ) : Byte := Fin.ofNat 256 value

def encodePoint (point : ℕ) : List Byte :=
  if point < 0x80 then [toByte point]
  else if point < 0x800 then [toByte (0xC0 + point / 0x40), toByte (0x80 + point % 0x40)]
  else if point < 0x10000 then
    [toByte (0xE0 + point / 0x1000), toByte (0x80 + point / 0x40 % 0x40),
      toByte (0x80 + point % 0x40)]
  else
    [toByte (0xF0 + point / 0x40000), toByte (0x80 + point / 0x1000 % 0x40),
      toByte (0x80 + point / 0x40 % 0x40), toByte (0x80 + point % 0x40)]

/-- `text.encode("utf-8")` -/
def encode (text : List ℕ) : List Byte := text.flatMap encodePoint

def IsAscii (text : List ℕ) : Prop := ∀ point ∈ text, point < 0x80

/-! ## Decoding -/

/-- The first bytes of a character: the next byte lies between `low` and `high`, and `owed` more
follow. The character is no ASCII. -/
structure Pending where
  value : ℕ
  owed : ℕ
  low : ℕ
  high : ℕ
  low_ge : 0x80 ≤ low
  large : 0x80 ≤ (value * 0x40 + (low - 0x80)) * 0x40 ^ owed

/-- The character that a byte begins. -/
def lead (byte : ℕ) : Option Pending :=
  if htwo : 0xC2 ≤ byte ∧ byte ≤ 0xDF then
    some ⟨byte - 0xC0, 0, 0x80, 0xBF, le_rfl, by omega⟩
  else if byte = 0xE0 then some ⟨0, 1, 0xA0, 0xBF, by decide, by decide⟩
  else if byte = 0xED then some ⟨0xD, 1, 0x80, 0x9F, by decide, by decide⟩
  else if hthree : 0xE1 ≤ byte ∧ byte ≤ 0xEF then
    some ⟨byte - 0xE0, 1, 0x80, 0xBF, le_rfl, by omega⟩
  else if byte = 0xF0 then some ⟨0, 2, 0x90, 0xBF, by decide, by decide⟩
  else if hfour : 0xF1 ≤ byte ∧ byte ≤ 0xF3 then
    some ⟨byte - 0xF0, 2, 0x80, 0xBF, le_rfl, by omega⟩
  else if byte = 0xF4 then some ⟨4, 2, 0x80, 0x8F, by decide, by decide⟩
  else none

def replacement : ℕ := 0xFFFD

/-- A byte where a character is to begin. -/
def start (byte : ℕ) : List ℕ × Option Pending :=
  if byte < 0x80 then ([byte], none)
  else
    match lead byte with
    | some pending => ([], some pending)
    | none => ([replacement], none)

/-- One more byte of a character. -/
def Pending.extend (pending : Pending) (byte : ℕ) (hlow : pending.low ≤ byte) :
    List ℕ × Option Pending :=
  let value := pending.value * 0x40 + (byte - 0x80)
  match howed : pending.owed with
  | 0 => ([value], none)
  | owed + 1 => ([], some ⟨value, owed, 0x80, 0xBF, le_rfl, by
      have hvalue : pending.value * 0x40 + (pending.low - 0x80) ≤ value := by omega
      have hlarge := pending.large.trans (Nat.mul_le_mul_right _ hvalue)
      rw [howed, Nat.pow_succ'] at hlarge
      rw [Nat.sub_self, Nat.add_zero, Nat.mul_assoc]
      exact hlarge⟩)

def step (state : Option Pending) (byte : ℕ) : List ℕ × Option Pending :=
  match state with
  | none => start byte
  | some pending =>
      if hbounds : pending.low ≤ byte ∧ byte ≤ pending.high then pending.extend byte hbounds.1
      else (replacement :: (start byte).1, (start byte).2)

def decodeFrom : Option Pending → List Byte → List ℕ
  | none, [] => []
  | some _, [] => [replacement]
  | state, byte :: bytes => (step state byte.val).1 ++ decodeFrom (step state byte.val).2 bytes

/-- `bytes.decode("utf-8", errors="replace")` -/
def decode (bytes : List Byte) : List ℕ := decodeFrom none bytes

theorem decodeFrom_cons (state : Option Pending) (byte : Byte) (bytes : List Byte) :
    decodeFrom state (byte :: bytes) =
      (step state byte.val).1 ++ decodeFrom (step state byte.val).2 bytes := by
  cases state <;> rfl

/-! ## ASCII -/

theorem Pending.extend_large (pending : Pending) {byte : ℕ} (hlow : pending.low ≤ byte) :
    ∀ point ∈ (pending.extend byte hlow).1, 0x80 ≤ point := by
  rw [Pending.extend]
  split
  · next howed =>
      intro point hpoint
      have hlarge := pending.large
      rw [howed, Nat.pow_zero, Nat.mul_one] at hlarge
      rw [List.mem_singleton.mp hpoint]
      omega
  · exact fun point hpoint => absurd hpoint List.not_mem_nil

/-- A step gives one ASCII character at most, the byte itself and last. -/
theorem step_cases (state : Option Pending) (byte : ℕ) :
    (byte < 0x80 ∧ (step state byte).2 = none ∧
        ∃ before, (step state byte).1 = before ++ [byte] ∧ (∀ point ∈ before, 0x80 ≤ point) ∧
          before ++ decodeFrom none [] = decodeFrom state []) ∨
      (0x80 ≤ byte ∧ ∀ point ∈ (step state byte).1, 0x80 ≤ point) := by
  have hstart : (byte < 0x80 ∧ start byte = ([byte], none)) ∨
      (0x80 ≤ byte ∧ ∀ point ∈ (start byte).1, 0x80 ≤ point) := by
    rw [start]
    split_ifs with hascii
    · exact .inl ⟨hascii, rfl⟩
    · right
      refine ⟨not_lt.mp hascii, ?_⟩
      cases lead byte with
      | none => simp [replacement]
      | some pending => simp
  cases state with
  | none =>
      rcases hstart with ⟨hascii, hequal⟩ | hlarge
      · left
        rw [step, hequal]
        exact ⟨hascii, rfl, [], rfl, by simp, rfl⟩
      · exact .inr hlarge
  | some pending =>
      rw [step]
      split_ifs with hbounds
      · right
        exact ⟨pending.low_ge.trans hbounds.1, pending.extend_large hbounds.1⟩
      · rcases hstart with ⟨hascii, hequal⟩ | ⟨hbyte, hlarge⟩
        · left
          rw [hequal]
          exact ⟨hascii, rfl, [replacement], rfl, by simp [replacement], rfl⟩
        · right
          refine ⟨hbyte, ?_⟩
          rw [List.forall_mem_cons]
          exact ⟨by decide, hlarge⟩

/-- An ASCII byte ends what is before it, and what follows begins anew. -/
theorem decodeFrom_ascii (state : Option Pending) (before : List Byte) {byte : Byte}
    (hascii : byte.val < 0x80) (after : List Byte) :
    decodeFrom state (before ++ byte :: after) =
      decodeFrom state before ++ byte.val :: decode after := by
  induction before generalizing state with
  | nil =>
      rw [List.nil_append, decodeFrom_cons]
      rcases step_cases state byte.val with ⟨-, hnext, outputs, hout, -, hstate⟩ | ⟨hbyte, -⟩
      · rw [hnext, hout, ← hstate, decode, decodeFrom, List.append_nil, List.append_assoc,
          List.singleton_append]
      · omega
  | cons first before ih =>
      rw [List.cons_append, decodeFrom_cons, decodeFrom_cons, ih, List.append_assoc]

/-- No byte is lost. -/
theorem step_visible (state : Option Pending) (byte : ℕ) :
    (step state byte).1 ++ decodeFrom (step state byte).2 [] ≠ [] := by
  have hstart : (start byte).1 ++ decodeFrom (start byte).2 [] ≠ [] := by
    rw [start]
    split_ifs
    · simp
    · cases lead byte <;> simp [decodeFrom]
  cases state with
  | none => exact hstart
  | some pending =>
      rw [step]
      split_ifs
      · rw [Pending.extend]
        split <;> simp [decodeFrom]
      · simp

theorem eq_nil_of_decodeFrom {state : Option Pending} {bytes : List Byte}
    (hnil : decodeFrom state bytes = []) : bytes = [] := by
  induction bytes generalizing state with
  | nil => rfl
  | cons byte bytes ih =>
      rw [decodeFrom_cons] at hnil
      have hbytes := ih (List.append_eq_nil_iff.mp hnil).2
      rw [hbytes] at hnil
      exact absurd hnil (step_visible state byte.val)

theorem append_split {Item : Type*} {first rest before after : List Item} {item : Item}
    (hequal : first ++ rest = before ++ item :: after) (hnot : item ∉ first) :
    ∃ middle, before = first ++ middle ∧ rest = middle ++ item :: after := by
  rcases List.append_eq_append_iff.mp hequal with ⟨middle, hbefore, hrest⟩ | ⟨middle, hfirst, htail⟩
  · exact ⟨middle, hbefore, hrest⟩
  · cases middle with
    | nil => exact ⟨[], by rw [hfirst, List.append_nil, List.append_nil], htail.symm⟩
    | cons head middle =>
        cases htail
        rw [hfirst] at hnot
        exact (hnot (List.mem_append_right _ List.mem_cons_self)).elim

/-- An ASCII character comes from a byte that is one. -/
theorem exists_of_decodeFrom {state : Option Pending} {bytes : List Byte} {before after : List ℕ}
    {point : ℕ} (hascii : point < 0x80)
    (hdecode : decodeFrom state bytes = before ++ point :: after) :
    ∃ first byte last, bytes = first ++ byte :: last ∧ byte.val = point ∧
      decodeFrom state first = before ∧ decode last = after := by
  induction bytes generalizing state before with
  | nil =>
      have hmem : point ∈ decodeFrom state [] := by
        rw [hdecode]
        exact List.mem_append_right _ List.mem_cons_self
      cases state with
      | none => cases hmem
      | some pending =>
          rw [decodeFrom, List.mem_singleton] at hmem
          rw [hmem] at hascii
          exact absurd hascii (by decide)
  | cons byte bytes ih =>
      rw [decodeFrom_cons] at hdecode
      rcases step_cases state byte.val with ⟨-, hnext, outputs, hout, houtputs, hstate⟩ | ⟨-, hout⟩
      · rw [hout, hnext, List.append_assoc, List.singleton_append] at hdecode
        have hnot : point ∉ outputs := fun hmem => (houtputs point hmem).not_gt hascii
        obtain ⟨middle, hbefore, hrest⟩ := append_split hdecode hnot
        cases middle with
        | nil =>
            obtain ⟨hbyte, hafter⟩ := List.cons_eq_cons.mp hrest
            rw [decodeFrom, List.append_nil] at hstate
            rw [List.append_nil] at hbefore
            exact ⟨[], byte, bytes, rfl, hbyte, hstate.symm.trans hbefore.symm, hafter⟩
        | cons head middle =>
            obtain ⟨hhead, htail⟩ := List.cons_eq_cons.mp hrest
            obtain ⟨first, found, last, hbytes, hfound, hfirst, hlast⟩ := ih htail
            refine ⟨byte :: first, found, last, congrArg (List.cons byte) hbytes, hfound, ?_, hlast⟩
            rw [decodeFrom_cons, hout, hnext, hfirst, hbefore, hhead, List.append_assoc,
              List.singleton_append]
      · have hnot : point ∉ (step state byte.val).1 := fun hmem => (hout point hmem).not_gt hascii
        obtain ⟨middle, hbefore, hrest⟩ := append_split hdecode hnot
        obtain ⟨first, found, last, hbytes, hfound, hfirst, hlast⟩ := ih hrest
        refine ⟨byte :: first, found, last, congrArg (List.cons byte) hbytes, hfound, ?_, hlast⟩
        rw [decodeFrom_cons, hfirst, hbefore]

/-- ASCII at the start of a decoded text stands at the start of the bytes. -/
theorem decode_isPrefix {text : List ℕ} {bytes : List Byte} (hascii : IsAscii text)
    (hstart : text <+: decode bytes) : text <+: bytes.map Fin.val := by
  induction text generalizing bytes with
  | nil => exact List.nil_prefix
  | cons point text ih =>
      obtain ⟨after, hdecode⟩ := hstart
      have hpoint := hascii point List.mem_cons_self
      have hsplit : decodeFrom none bytes = [] ++ point :: (text ++ after) := hdecode.symm
      obtain ⟨first, byte, last, hbytes, hbyte, hfirst, hlast⟩ := exists_of_decodeFrom hpoint hsplit
      rw [hbytes, eq_nil_of_decodeFrom hfirst, List.nil_append, List.map_cons, hbyte,
        List.cons_prefix_cons]
      exact ⟨rfl, ih (fun other hother => hascii other (List.mem_cons_of_mem _ hother))
        ⟨after, hlast.symm⟩⟩

/-- ASCII in a decoded text stands in the bytes. -/
theorem decode_isInfix {text : List ℕ} {bytes : List Byte} (hascii : IsAscii text)
    (hinside : text <:+: decode bytes) : text <:+: bytes.map Fin.val := by
  cases text with
  | nil => exact List.nil_infix
  | cons point text =>
      obtain ⟨before, after, hdecode⟩ := hinside
      have hpoint := hascii point List.mem_cons_self
      have hsplit : decodeFrom none bytes = before ++ point :: (text ++ after) := by
        rw [← decode, ← hdecode, List.append_assoc, List.cons_append]
      obtain ⟨first, byte, last, hbytes, hbyte, -, hlast⟩ := exists_of_decodeFrom hpoint hsplit
      have htext : text <+: last.map Fin.val := by
        apply decode_isPrefix fun other hother => hascii other (List.mem_cons_of_mem _ hother)
        exact ⟨after, hlast.symm⟩
      rw [hbytes, List.map_append, List.map_cons, hbyte]
      have hcons : point :: text <+: point :: last.map Fin.val :=
        List.cons_prefix_cons.mpr ⟨rfl, htext⟩
      exact hcons.isInfix.trans (List.suffix_append _ _).isInfix

theorem encode_cons {point : ℕ} {text : List ℕ} (hascii : IsAscii (point :: text)) :
    ∃ byte : Byte, byte.val = point ∧ byte.val < 0x80 ∧
      encode (point :: text) = byte :: encode text ∧ IsAscii text := by
  have hpoint := hascii point List.mem_cons_self
  have hbyte : (toByte point).val = point := Nat.mod_eq_of_lt (by omega)
  refine ⟨toByte point, hbyte, hbyte.trans_lt hpoint, ?_,
    fun other hother => hascii other (List.mem_cons_of_mem _ hother)⟩
  rw [encode, List.flatMap_cons, ← encode, encodePoint, if_pos hpoint, List.singleton_append]

theorem decode_encode_append {text : List ℕ} (hascii : IsAscii text) (after : List Byte) :
    decode (encode text ++ after) = text ++ decode after := by
  induction text with
  | nil => rfl
  | cons point text ih =>
      obtain ⟨byte, hbyte, hsmall, hencode, hrest⟩ := encode_cons hascii
      have hhead := decodeFrom_ascii none [] hsmall (encode text ++ after)
      rw [hencode, List.cons_append, decode, ← List.nil_append (byte :: _), hhead, ih hrest, hbyte]
      rfl

/-- Encoded ASCII parts what is before it from what is behind it. -/
theorem decode_append_encode {text : List ℕ} (hascii : IsAscii text) (hnonempty : text ≠ [])
    (before after : List Byte) :
    decode (before ++ (encode text ++ after)) = decode before ++ (text ++ decode after) := by
  cases text with
  | nil => exact absurd rfl hnonempty
  | cons point text =>
      obtain ⟨byte, hbyte, hsmall, hencode, hrest⟩ := encode_cons hascii
      rw [hencode, List.cons_append, decode, decodeFrom_ascii none before hsmall,
        decode_encode_append hrest, hbyte]
      rfl

end AlgorithmHarness.Utf8
