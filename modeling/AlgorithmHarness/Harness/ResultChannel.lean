import AlgorithmHarness.Core.Decimals
import AlgorithmHarness.Core.Lines
import AlgorithmHarness.Core.Utf8

/-!
# The channel of function results

The wrapper around a candidate writes its result as a line with a fresh marker
to the stream on which the candidate writes as well, and
`_parse_function_result` looks for that line.
-/

namespace AlgorithmHarness.ResultChannel

open Lines Utf8

/-! ## `json.dumps` -/

def points (text : String) : List ℕ := text.toList.map Char.toNat

/-- From the blank to the tilde. -/
def Printable (text : List ℕ) : Prop := ∀ point ∈ text, 0x20 ≤ point ∧ point < 0x7F

instance (text : List ℕ) : Decidable (Printable text) :=
  inferInstanceAs (Decidable (∀ point ∈ text, 0x20 ≤ point ∧ point < 0x7F))

/-- What `float.__repr__` prints, or `NaN` and the infinities. -/
structure FloatText where
  text : List ℕ
  printable : Printable text

/-- A key of a dictionary that JSON can hold. -/
inductive Key
  | null
  | bool (value : Bool)
  | int (value : ℤ)
  | float (value : FloatText)
  | str (text : List ℕ)

/-- A value that a function returns and JSON can hold; a tuple is as good as a list. -/
inductive Returned
  | null
  | bool (value : Bool)
  | int (value : ℤ)
  | float (value : FloatText)
  | str (text : List ℕ)
  | list (items : List Returned)
  | dict (members : List (Key × Returned))

def hexDigit (digit : ℕ) : ℕ := if digit % 16 < 10 then 0x30 + digit % 16 else 0x57 + digit % 16

/-- The escape of a code unit. -/
def escapeUnit (unit : ℕ) : List ℕ :=
  points "\\u" ++ [hexDigit (unit / 0x1000), hexDigit (unit / 0x100), hexDigit (unit / 0x10),
    hexDigit unit]

/-- A character of a string, with `ensure_ascii`. -/
def escapePoint (point : ℕ) : List ℕ :=
  if point = 0x22 then points "\\\""
  else if point = 0x5C then points "\\\\"
  else if point = 0x0A then points "\\n"
  else if point = 0x0D then points "\\r"
  else if point = 0x09 then points "\\t"
  else if point = 0x08 then points "\\b"
  else if point = 0x0C then points "\\f"
  else if 0x20 ≤ point ∧ point < 0x7F then [point]
  else if point < 0x10000 then escapeUnit point
  else escapeUnit (0xD800 + (point - 0x10000) / 0x400) ++
    escapeUnit (0xDC00 + (point - 0x10000) % 0x400)

def quote (text : List ℕ) : List ℕ := points "\"" ++ text.flatMap escapePoint ++ points "\""

def dumpBool (value : Bool) : List ℕ := if value then points "true" else points "false"

def dumpInt (value : ℤ) : List ℕ :=
  (if value < 0 then points "-" else []) ++ points (toString value.natAbs)

/-- The string that a key is written as. -/
def Key.text : Key → List ℕ
  | .null => points "null"
  | .bool value => dumpBool value
  | .int value => dumpInt value
  | .float value => value.text
  | .str text => text

mutual

/-- `json.dumps` -/
def dumps : Returned → List ℕ
  | .null => points "null"
  | .bool value => dumpBool value
  | .int value => dumpInt value
  | .float value => value.text
  | .str text => quote text
  | .list items => points "[" ++ dumpItems items ++ points "]"
  | .dict members => points "\x7b" ++ dumpMembers members ++ points "\x7d"

def dumpItems : List Returned → List ℕ
  | [] => []
  | item :: items =>
      dumps item ++ if items.isEmpty then [] else points ", " ++ dumpItems items

def dumpMembers : List (Key × Returned) → List ℕ
  | [] => []
  | (key, value) :: members =>
      quote key.text ++ points ": " ++ dumps value ++
        if members.isEmpty then [] else points ", " ++ dumpMembers members

end

/-! ## The two ends of the channel -/

def functionResultMarker : List ℕ := points "__LLM_HARNESS_FUNCTION_RESULT__"

def colon : ℕ := 0x3A

/-- The marker of a run with the digits of its `uuid4().hex`. -/
structure Marker where
  hex : List ℕ
  length : hex.length = 32
  digits : ∀ digit ∈ hex, ∃ value, digit = hexDigit value

def Marker.text (marker : Marker) : List ℕ :=
  functionResultMarker ++ colon :: (marker.hex ++ [colon])

/-- What the wrapper writes. -/
def resultLine (marker : Marker) (value : Returned) : List ℕ :=
  marker.text ++ dumps value ++ [newline]

/-- The stream with what the candidate writes before and after its function returns. -/
def childStderr (marker : Marker) (value : Returned) (before after : List Byte) : List Byte :=
  before ++ (encode (resultLine marker value) ++ after)

/-- A `SandboxExecutionError` -/
structure SandboxError where
  status : String
  message : String
  deriving DecidableEq

def missingMarker : SandboxError :=
  { status := "runtime_error", message := "Function result channel marker was not produced" }

def invalidPayload : SandboxError :=
  { status := "runtime_error", message := "Function result channel contained invalid JSON" }

section Parse

/- `loads` is `json.loads`, `none` where it raises a `JSONDecodeError`. -/
variable {Value : Type} (loads : List ℕ → Option Value) (strip : List ℕ → List ℕ)

def readPayload (payload : List ℕ) : Except SandboxError Value :=
  match loads payload with
  | some value => .ok value
  | none => .error invalidPayload

/-- `_parse_function_result` -/
def parseFunctionResult (stderr stdout : List ℕ) (resultMarker : Option (List ℕ)) :
    Except SandboxError Value :=
  let marker := if resultMarker.getD [] = [] then functionResultMarker else resultMarker.getD []
  match (splitlines stderr).reverse.find? fun line => marker.isPrefixOf line with
  | some line => readPayload loads (line.drop marker.length)
  | none =>
      -- Only callers without a marker may use the JSON on stdout.
      if resultMarker.isNone && !(strip stdout).isEmpty then
        match loads (strip stdout) with
        | some value => .ok value
        | none => .error missingMarker
      else .error missingMarker

end Parse

/-! ## What is written is one line -/

theorem Printable.append {first second : List ℕ} (hfirst : Printable first)
    (hsecond : Printable second) : Printable (first ++ second) := by
  intro point hpoint
  rcases List.mem_append.mp hpoint with hpoint | hpoint
  · exact hfirst point hpoint
  · exact hsecond point hpoint

theorem printable_hexDigit (digit : ℕ) : 0x20 ≤ hexDigit digit ∧ hexDigit digit < 0x7F := by
  rw [hexDigit]
  split_ifs <;> omega

theorem printable_escapeUnit (unit : ℕ) : Printable (escapeUnit unit) := by
  apply Printable.append (by decide)
  simp [Printable, printable_hexDigit]

theorem printable_escapePoint (point : ℕ) : Printable (escapePoint point) := by
  rw [escapePoint]
  split_ifs with _ _ _ _ _ _ _ hplain
  all_goals first
    | decide
    | exact printable_escapeUnit _
    | exact (printable_escapeUnit _).append (printable_escapeUnit _)
    | exact fun other hother => List.mem_singleton.mp hother ▸ hplain

theorem printable_quote (text : List ℕ) : Printable (quote text) := by
  apply Printable.append
  · apply Printable.append (by decide)
    intro point hpoint
    obtain ⟨source, -, hsource⟩ := List.mem_flatMap.mp hpoint
    exact printable_escapePoint source point hsource
  · decide

theorem printable_dumpBool (value : Bool) : Printable (dumpBool value) := by
  cases value <;> decide

theorem printable_dumpInt (value : ℤ) : Printable (dumpInt value) := by
  apply Printable.append
  · split_ifs <;> decide
  · intro point hpoint
    obtain ⟨letter, hletter, rfl⟩ := List.mem_map.mp hpoint
    have hnumeral := isNumeral_toString value.natAbs
    rw [isNumeral, Bool.and_eq_true_iff, List.all_eq_true] at hnumeral
    have hdigit := hnumeral.2 letter hletter
    rw [Char.isDigit, Bool.and_eq_true_iff, decide_eq_true_iff, decide_eq_true_iff] at hdigit
    have hlow : 0x30 ≤ letter.toNat := hdigit.1
    have hhigh : letter.toNat ≤ 0x39 := hdigit.2
    omega

mutual

theorem printable_dumps : ∀ value : Returned, Printable (dumps value)
  | .null => by rw [dumps]; decide
  | .bool value => by rw [dumps]; exact printable_dumpBool value
  | .int value => by rw [dumps]; exact printable_dumpInt value
  | .float value => by rw [dumps]; exact value.printable
  | .str text => by rw [dumps]; exact printable_quote text
  | .list items => by
      rw [dumps]
      exact Printable.append (Printable.append (by decide) (printable_dumpItems items)) (by decide)
  | .dict members => by
      rw [dumps]
      exact Printable.append (Printable.append (by decide) (printable_dumpMembers members))
        (by decide)

theorem printable_dumpItems : ∀ items : List Returned, Printable (dumpItems items)
  | [] => by rw [dumpItems]; decide
  | item :: items => by
      rw [dumpItems]
      apply (printable_dumps item).append
      split_ifs
      · decide
      · exact Printable.append (by decide) (printable_dumpItems items)

theorem printable_dumpMembers : ∀ members : List (Key × Returned), Printable (dumpMembers members)
  | [] => by rw [dumpMembers]; decide
  | (key, value) :: members => by
      rw [dumpMembers]
      apply Printable.append
      · exact (Printable.append (printable_quote _) (by decide)).append (printable_dumps value)
      · split_ifs
        · decide
        · exact Printable.append (by decide) (printable_dumpMembers members)

end

theorem Marker.printable (marker : Marker) : Printable marker.text := by
  have hhex : Printable marker.hex := by
    intro digit hdigit
    obtain ⟨value, rfl⟩ := marker.digits digit hdigit
    exact printable_hexDigit value
  have hcolon : Printable [colon] := by decide
  exact Printable.append (by decide) (hcolon.append (hhex.append hcolon))

theorem Printable.plain {text : List ℕ} (hprintable : Printable text) :
    ∀ point ∈ text, point ∉ separators := by
  intro point hpoint hseparator
  have hbounds := hprintable point hpoint
  have hnone : ∀ separator ∈ separators, ¬(0x20 ≤ separator ∧ separator < 0x7F) := by decide
  exact hnone point hseparator hbounds

theorem Printable.ascii {text : List ℕ} (hprintable : Printable text) : IsAscii text :=
  fun point hpoint => (hprintable point hpoint).2.trans (by decide)

/-! ## Markers do not overlap -/

theorem colon_notMem_base : colon ∉ functionResultMarker := by decide

theorem Marker.colon_notMem_hex (marker : Marker) : colon ∉ marker.hex := by
  intro hcolon
  obtain ⟨value, hvalue⟩ := marker.digits colon hcolon
  rw [colon, hexDigit] at hvalue
  split_ifs at hvalue <;> omega

/-- A digit is no low line, with which the marker starts. -/
theorem Marker.hex_ne (marker : Marker) (before : List ℕ) :
    marker.hex ≠ before ++ functionResultMarker := by
  intro hhex
  have hlow : 0x5F ∈ marker.hex := by
    rw [hhex]
    exact List.mem_append_right _ (by decide)
  obtain ⟨value, hvalue⟩ := marker.digits 0x5F hlow
  rw [hexDigit] at hvalue
  split_ifs at hvalue <;> omega

/-- The first occurrence of an item is where it is. -/
theorem first_occurrence {Item : Type*} {first second before after : List Item} {item : Item}
    (hequal : first ++ item :: second = before ++ item :: after) (hfirst : item ∉ first)
    (hbefore : item ∉ before) : first = before ∧ second = after := by
  obtain ⟨middle, hsplit, hrest⟩ := append_split hequal hfirst
  cases middle with
  | nil =>
      rw [List.append_nil] at hsplit
      exact ⟨hsplit.symm, (List.cons_eq_cons.mp hrest).2⟩
  | cons head middle =>
      rw [(List.cons_eq_cons.mp hrest).1, hsplit] at hbefore
      exact (hbefore (List.mem_append_right _ List.mem_cons_self)).elim

/-- A line with something before the marker does not start with the marker. -/
theorem Marker.not_isPrefix (marker : Marker) {line payload : List ℕ} (hline : line ≠ [])
    (hfree : ¬marker.text <:+: line) : ¬marker.text <+: line ++ (marker.text ++ payload) := by
  rintro ⟨rest, hequal⟩
  have hmarker : ∀ rest, marker.text ++ rest =
      functionResultMarker ++ colon :: (marker.hex ++ colon :: rest) := by
    intro rest
    simp [Marker.text]
  rw [hmarker, hmarker] at hequal
  by_cases hfirst : colon ∈ line
  · obtain ⟨base, tail, hsplit, hbase⟩ := List.eq_append_cons_of_mem hfirst
    rw [hsplit, List.append_assoc, List.cons_append] at hequal
    obtain ⟨hbases, hdigits⟩ := first_occurrence hequal colon_notMem_base hbase
    by_cases hsecond : colon ∈ tail
    · obtain ⟨digits, last, htail, hnot⟩ := List.eq_append_cons_of_mem hsecond
      rw [htail, List.append_assoc, List.cons_append] at hdigits
      have hhex := (first_occurrence hdigits marker.colon_notMem_hex hnot).1
      apply hfree
      rw [hsplit, htail, ← hbases, ← hhex, ← hmarker]
      exact (List.prefix_append _ _).isInfix
    · have hnot : colon ∉ tail ++ functionResultMarker := by
        rw [List.mem_append, not_or]
        exact ⟨hsecond, colon_notMem_base⟩
      rw [← List.append_assoc] at hdigits
      exact marker.hex_ne tail (first_occurrence hdigits marker.colon_notMem_hex hnot).1
  · have hnot : colon ∉ line ++ functionResultMarker := by
      rw [List.mem_append, not_or]
      exact ⟨hfirst, colon_notMem_base⟩
    rw [← List.append_assoc] at hequal
    exact hline (List.self_eq_append_left.mp (first_occurrence hequal colon_notMem_base hnot).1)

/-! ## The result arrives -/

section Arrival

variable {Value : Type} (loads : List ℕ → Option Value) (strip : List ℕ → List ℕ)

theorem Marker.text_cons (marker : Marker) (payload : List ℕ) :
    ∃ point text, marker.text ++ payload = point :: text :=
  ⟨_, _, rfl⟩

theorem decode_childStderr (marker : Marker) (value : Returned) (before after : List Byte) :
    decode (childStderr marker value before after) =
      decode before ++ (marker.text ++ dumps value ++ newline :: decode after) := by
  have hascii : IsAscii (resultLine marker value) := by
    intro point hpoint
    rcases List.mem_append.mp hpoint with hpoint | hpoint
    · exact (marker.printable.append (printable_dumps value)).ascii point hpoint
    · rw [List.mem_singleton.mp hpoint]
      decide
  have hnonempty : resultLine marker value ≠ [] := by
    rw [resultLine]
    exact List.append_ne_nil_of_right_ne_nil _ (List.cons_ne_nil _ _)
  rw [childStderr, decode_append_encode hascii hnonempty, resultLine, List.append_assoc _ [_],
    List.singleton_append]

/-- The marker is the line that is found if it begins a line, and otherwise none is. -/
theorem find_marker (marker : Marker) (value : Returned) {before after : List ℕ}
    (hbefore : ¬marker.text <:+: before) (hafter : ¬marker.text <:+: after) :
    ((splitlines (before ++ (marker.text ++ dumps value ++ newline :: after))).reverse.find?
        fun line => marker.text.isPrefixOf line) =
      if AtLineStart before then some (marker.text ++ dumps value) else none := by
  obtain ⟨point, text, htext⟩ := marker.text_cons (dumps value)
  have hplain : ∀ other ∈ point :: text, other ∉ separators := by
    rw [← htext]
    exact (marker.printable.append (printable_dumps value)).plain
  have hfree : ∀ {whole : List ℕ}, ¬marker.text <:+: whole → ∀ line, line <:+: whole →
      ¬(marker.text.isPrefixOf line = true) := by
    intro whole hwhole line hline hstarts
    exact hwhole ((List.isPrefixOf_iff_prefix.mp hstarts).isInfix.trans hline)
  have hscan := infix_of_scan [] before
  have hearlier : ((scan [] before).1.reverse.find? fun line => marker.text.isPrefixOf line) =
      none := by
    rw [List.find?_eq_none]
    intro line hline
    exact hfree hbefore line (hscan.1 line (List.mem_reverse.mp hline))
  have hlater : ((splitlines after).reverse.find? fun line => marker.text.isPrefixOf line) =
      none := by
    rw [List.find?_eq_none]
    intro line hline
    exact hfree hafter line (infix_of_mem_splitlines (List.mem_reverse.mp hline))
  have hframe := splitlines_frame before hplain after
  rw [htext, hframe, List.reverse_append, List.reverse_cons, List.append_assoc, List.find?_append,
    hlater, Option.none_or, List.find?_append, hearlier, Option.or_none, ← htext]
  by_cases hstart : AtLineStart before
  · rw [if_pos hstart, (scan_snd_eq_nil_iff before).mpr hstart, List.nil_append]
    exact List.find?_cons_of_pos (List.isPrefixOf_iff_prefix.mpr (List.prefix_append _ _))
  · rw [if_neg hstart, List.find?_cons_of_neg, List.find?_nil]
    rw [List.isPrefixOf_iff_prefix]
    apply marker.not_isPrefix (mt (scan_snd_eq_nil_iff before).mp hstart)
    exact fun hinside => hbefore (hinside.trans hscan.2)

/-- The value arrives if the candidate has left no line that is not complete. -/
theorem parseFunctionResult_eq_iff (stdout : List ℕ) (marker : Marker) (value : Returned)
    (before after : List Byte) (hbefore : ¬marker.text <:+: before.map Fin.val)
    (hafter : ¬marker.text <:+: after.map Fin.val) :
    parseFunctionResult loads strip (decode (childStderr marker value before after)) stdout
        (some marker.text) = readPayload loads (dumps value) ↔
      AtLineStart (decode before) := by
  have hascii := marker.printable.ascii
  have hmarker : marker.text ≠ [] := by
    rw [Marker.text]
    exact List.append_ne_nil_of_right_ne_nil _ (List.cons_ne_nil _ _)
  have hfind := find_marker marker value (mt (decode_isInfix hascii) hbefore)
    (mt (decode_isInfix hascii) hafter)
  rw [parseFunctionResult, Option.getD_some, if_neg hmarker, decode_childStderr, hfind]
  by_cases hstart : AtLineStart (decode before)
  · rw [if_pos hstart]
    dsimp only
    rw [List.drop_left]
    exact ⟨fun _ => hstart, fun _ => rfl⟩
  · rw [if_neg hstart]
    constructor
    · intro hequal
      rw [readPayload] at hequal
      cases hloads : loads (dumps value) with
      | none =>
          rw [hloads] at hequal
          exact absurd (Except.error.inj hequal) (by decide)
      | some found =>
          rw [hloads] at hequal
          cases hequal
    · exact fun hyes => absurd hyes hstart

end Arrival

/-- A run whose digits are all zero. -/
def zeroMarker : Marker where
  hex := List.replicate 32 0x30
  length := List.length_replicate
  digits := by
    intro digit hdigit
    exact ⟨0, List.eq_of_mem_replicate hdigit⟩

/-- The bytes of a text. -/
def written (text : String) : List Byte := encode (points text)

/-- `json.loads` for one payload. -/
def loadsThree (payload : List ℕ) : Option ℤ := if payload = points "3" then some 3 else none

theorem parseFunctionResult_eq_iff_debug :
    parseFunctionResult loadsThree id
        (decode (childStderr zeroMarker (.int 3) (written "debug\n") (written "bye"))) []
        (some zeroMarker.text) = readPayload loadsThree (dumps (.int 3)) ↔
      AtLineStart (decode (written "debug\n")) :=
  parseFunctionResult_eq_iff loadsThree id [] zeroMarker (.int 3) _ _ (by decide) (by decide)

/-- A candidate that leaves a line open loses its result. -/
theorem result_lost_on_open_line :
    ¬zeroMarker.text <:+: (written "50%").map Fin.val ∧
      readPayload loadsThree (dumps (.int 3)) = .ok 3 ∧
      parseFunctionResult loadsThree id
          (decode (childStderr zeroMarker (.int 3) (written "50%") [])) []
          (some zeroMarker.text) = .error missingMarker := by
  decide +kernel

end AlgorithmHarness.ResultChannel
