import AlgorithmHarness.Strategies.Extraction
import Mathlib.Data.List.DropRight

/-!
# What is cut off behind a solution

A module is a sequence of top-level pieces.  `_strip_after_solution` cuts at a
line, so what it keeps is compared with the text of the pieces up to the first
statement behind the solution.
-/

namespace AlgorithmHarness.Strategies

open Redaction (isSpace)

/-! ## Modules -/

/-- A function or a class is given with its decorators and the names of the functions it
defines: its own, or its methods'. -/
inductive PieceKind
  | comment
  | imports
  | definition (functions : List String)
  /-- Any other statement. -/
  | statement
  deriving DecidableEq

/-- A piece of a module, up to where the next one begins. -/
structure Piece where
  kind : PieceKind
  text : List Char

def Piece.defines (piece : Piece) (name : String) : Bool :=
  match piece.kind with
  | .definition functions => name ∈ functions
  | _ => false

def piecesText (pieces : List Piece) : List Char := pieces.flatMap Piece.text

/-- The pieces up to the first statement behind the solution. -/
def keptPieces (entryName : String) : List Piece → List Piece
  | [] => []
  | piece :: pieces =>
      if piece.defines entryName then
        piece :: pieces.takeWhile fun other => other.kind ≠ .statement
      else piece :: keptPieces entryName pieces

/-- The module as `_strip_after_solution` returns it. -/
def truncated (entryName : String) (pieces : List Piece) : List Char :=
  (stripAfterSolution (String.ofList (piecesText pieces)) entryName).toList

/-- Only what stands behind the solution from a statement on is removed. -/
structure KeepsSolution (entryName : String) (pieces : List Piece) : Prop where
  unchanged : (∀ piece ∈ pieces, piece.kind ≠ .statement) →
    rstrip (truncated entryName pieces) = rstrip (piecesText pieces)
  kept : rstrip (piecesText (keptPieces entryName pieces)) <+: truncated entryName pieces
  cutsEnd : truncated entryName pieces <+: piecesText pieces

/-! ## Lines -/

def isHeader (entryName : String) (line : List Char) : Bool :=
  startsWith (lstrip line) ("def " ++ entryName ++ "(")

def firstLine (text : List Char) : List Char := text.takeWhile (· ≠ '\n')

/-- Below a line that begins like the solution, a line in column 0 that is no `def`, `class` or
decorator begins before the first statement behind the solution. -/
def LineInColumnZero (entryName : String) (pieces : List Piece) : Prop :=
  ∃ above below, piecesText pieces = above ++ '\n' :: below ∧
    (above ++ ['\n']).length < (piecesText (keptPieces entryName pieces)).length ∧
    (∃ line ∈ above.splitOn '\n', isHeader entryName line = true) ∧
    isTrailing (firstLine below) = true

def joinLines (lines : List (List Char)) : List Char := List.intercalate ['\n'] lines

/-- The lines that are kept. -/
def cutLines (entryName : String) : List (List Char) → List (List Char)
  | [] => []
  | line :: lines =>
      if isHeader entryName line then line :: lines.takeWhile fun other => !isTrailing other
      else line :: cutLines entryName lines

section Lines

variable {entryName : String}

theorem joinLines_append {lines : List (List Char)} (hlines : lines ≠ []) (line : List Char)
    (more : List (List Char)) :
    joinLines (lines ++ line :: more) = joinLines lines ++ '\n' :: joinLines (line :: more) := by
  induction lines with
  | nil => exact absurd rfl hlines
  | cons first lines ih =>
      cases lines with
      | nil =>
          simp only [joinLines, List.singleton_append, List.intercalate_cons_cons,
            List.intercalate_singleton, List.append_assoc]
      | cons second lines =>
          have hrest := ih (List.cons_ne_nil second lines)
          simp only [joinLines, List.cons_append, List.intercalate_cons_cons] at hrest ⊢
          rw [hrest]
          simp only [List.append_assoc, List.cons_append, List.nil_append]

theorem joinLines_starts {lines more : List (List Char)} (hstarts : lines <+: more) :
    joinLines lines <+: joinLines more := by
  obtain ⟨rest, rfl⟩ := hstarts
  cases lines with
  | nil => exact List.nil_prefix
  | cons line lines =>
      cases rest with
      | nil => rw [List.append_nil]
      | cons other rest =>
          rw [joinLines_append (List.cons_ne_nil line lines)]
          exact List.prefix_append _ _

theorem firstLine_cons {c : Char} (hc : c ≠ '\n') (text : List Char) :
    firstLine (c :: text) = c :: firstLine text :=
  List.takeWhile_cons_of_pos (decide_eq_true hc)

theorem head?_splitOn (text : List Char) : (text.splitOn '\n').head? = some (firstLine text) := by
  induction text with
  | nil => rfl
  | cons c text ih =>
      rw [List.splitOn_cons_eq_if_modifyHead]
      by_cases hnewline : c = '\n'
      · rw [if_pos (beq_iff_eq.mpr hnewline), hnewline]
        rfl
      · rw [if_neg fun hc => hnewline (beq_iff_eq.mp hc), firstLine_cons hnewline,
          List.head?_modifyHead, ih]
        rfl

theorem newline_notMem_of_mem_splitOn {text line : List Char} (hline : line ∈ text.splitOn '\n') :
    '\n' ∉ line := by
  induction text generalizing line with
  | nil =>
      rw [List.splitOn_nil, List.mem_singleton] at hline
      rw [hline]
      exact List.not_mem_nil
  | cons c text ih =>
      rw [List.splitOn_cons_eq_if_modifyHead] at hline
      by_cases hnewline : c = '\n'
      · rw [if_pos (beq_iff_eq.mpr hnewline)] at hline
        rcases List.mem_cons.mp hline with rfl | hline
        · exact List.not_mem_nil
        · exact ih hline
      · rw [if_neg fun hc => hnewline (beq_iff_eq.mp hc)] at hline
        cases hlines : text.splitOn '\n' with
        | nil => exact absurd hlines (List.splitOn_ne_nil '\n' text)
        | cons first lines =>
            rw [hlines, List.modifyHead_cons] at hline
            rcases List.mem_cons.mp hline with rfl | hline
            · intro hmem
              rcases List.mem_cons.mp hmem with hc | hmem
              · exact hnewline hc.symm
              · exact ih (hlines ▸ List.mem_cons_self) hmem
            · exact ih (hlines ▸ List.mem_cons_of_mem first hline)

theorem cutLines_starts (entryName : String) (lines : List (List Char)) :
    cutLines entryName lines <+: lines := by
  induction lines with
  | nil => exact List.nil_prefix
  | cons line lines ih =>
      rw [cutLines]
      split
      · exact (List.prefix_cons_inj line).mpr (List.takeWhile_prefix _)
      · exact (List.prefix_cons_inj line).mpr ih

theorem takeWhile_prefix_of_stop {Item : Type*} {keeps : Item → Bool} {item : Item}
    (hstop : keeps item = false) (above below : List Item) :
    (above ++ item :: below).takeWhile keeps <+: above := by
  rw [List.takeWhile_append, List.takeWhile_cons_of_neg (Bool.eq_false_iff.mp hstop),
    List.append_nil]
  split
  · exact List.prefix_rfl
  · exact List.takeWhile_prefix keeps

/-- Nothing from a trailing line on is kept. -/
theorem cutLines_starts_of_trailing {above : List (List Char)} {line : List Char}
    (below : List (List Char))
    (hheader : ∃ header ∈ above, isHeader entryName header = true)
    (htrailing : isTrailing line = true) :
    cutLines entryName (above ++ line :: below) <+: above := by
  induction above with
  | nil =>
      obtain ⟨header, hnone, -⟩ := hheader
      cases hnone
  | cons first above ih =>
      rw [List.cons_append, cutLines]
      by_cases hfirst : isHeader entryName first = true
      · rw [if_pos hfirst, List.prefix_cons_inj]
        exact takeWhile_prefix_of_stop (by rw [htrailing]; rfl) above below
      · rw [if_neg hfirst, List.prefix_cons_inj]
        apply ih
        obtain ⟨header, hmem, hheader⟩ := hheader
        rcases List.mem_cons.mp hmem with rfl | hmem
        · exact absurd hheader hfirst
        · exact ⟨header, hmem, hheader⟩

/-- Either every line is kept or the first that is not is a trailing line below a header. -/
theorem cutLines_cases (entryName : String) (lines : List (List Char)) :
    cutLines entryName lines = lines ∨
      ∃ line more, lines = cutLines entryName lines ++ line :: more ∧ isTrailing line = true ∧
        ∃ header ∈ cutLines entryName lines, isHeader entryName header = true := by
  induction lines with
  | nil => exact .inl rfl
  | cons first lines ih =>
      rw [cutLines]
      by_cases hfirst : isHeader entryName first = true
      · rw [if_pos hfirst]
        have happend : (lines.takeWhile fun other => !isTrailing other) ++
            (lines.dropWhile fun other => !isTrailing other) = lines :=
          List.takeWhile_append_dropWhile
        cases hdropped : lines.dropWhile fun other => !isTrailing other with
        | nil =>
            rw [hdropped, List.append_nil] at happend
            exact .inl (by rw [happend])
        | cons line more =>
            rw [hdropped] at happend
            have hline := List.head_dropWhile_not
              (fun other => !isTrailing other) (by rw [hdropped]; exact List.cons_ne_nil line more)
            refine .inr ⟨line, more, ?_, ?_, first, List.mem_cons_self, hfirst⟩
            · rw [List.cons_append, happend]
            · simpa [hdropped] using hline
      · rw [if_neg hfirst]
        rcases ih with hall | ⟨line, more, hlines, htrailing, header, hmem, hheader⟩
        · exact .inl (by rw [hall])
        · exact .inr ⟨line, more, by rw [List.cons_append, ← hlines], htrailing, header,
            List.mem_cons_of_mem first hmem, hheader⟩

theorem stripAfterSolution_eq (code : String) :
    (stripAfterSolution code entryName).toList =
      match (code.toList.splitOn '\n').findIdx? (isHeader entryName) with
      | none => code.toList
      | some start =>
          rstrip (joinLines ((code.toList.splitOn '\n').take (start + 1) ++
            ((code.toList.splitOn '\n').drop (start + 1)).takeWhile fun line =>
              !isTrailing line)) := by
  rw [stripAfterSolution]
  cases hstart : (code.toList.splitOn '\n').findIdx? (isHeader entryName) with
  | none =>
      rw [funext fun line => (isHeader.eq_1 entryName line).symm, hstart]
  | some start =>
      rw [funext fun line => (isHeader.eq_1 entryName line).symm, hstart]
      exact String.toList_ofList

theorem stripAfterSolution_of_none {code : String}
    (hnone : ¬∃ line ∈ code.toList.splitOn '\n', isHeader entryName line = true) :
    (stripAfterSolution code entryName).toList = code.toList := by
  have hstart : (code.toList.splitOn '\n').findIdx? (isHeader entryName) = none :=
    List.findIdx?_eq_none_iff.mpr fun line hline =>
      Bool.eq_false_iff.mpr fun hheader => hnone ⟨line, hline, hheader⟩
  rw [stripAfterSolution_eq, hstart]

theorem take_append_takeWhile_eq {lines : List (List Char)} {start : ℕ}
    (hstart : lines.findIdx? (isHeader entryName) = some start) :
    lines.take (start + 1) ++ (lines.drop (start + 1)).takeWhile (fun line => !isTrailing line) =
      cutLines entryName lines := by
  induction lines generalizing start with
  | nil => cases hstart
  | cons first lines ih =>
      rw [List.findIdx?_cons] at hstart
      rw [cutLines]
      by_cases hfirst : isHeader entryName first = true
      · rw [if_pos hfirst] at hstart ⊢
        cases hstart
        rfl
      · rw [if_neg hfirst] at hstart ⊢
        obtain ⟨index, hindex, rfl⟩ := Option.map_eq_some_iff.mp hstart
        rw [← ih hindex]
        rfl

theorem stripAfterSolution_of_header {code : String}
    (hheader : ∃ line ∈ code.toList.splitOn '\n', isHeader entryName line = true) :
    (stripAfterSolution code entryName).toList =
      rstrip (joinLines (cutLines entryName (code.toList.splitOn '\n'))) := by
  rw [stripAfterSolution_eq]
  cases hstart : (code.toList.splitOn '\n').findIdx? (isHeader entryName) with
  | none =>
      obtain ⟨line, hmem, hline⟩ := hheader
      have hnone := List.findIdx?_eq_none_iff.mp hstart line hmem
      rw [hline] at hnone
      cases hnone
  | some start => rw [← take_append_takeWhile_eq hstart]

end Lines

/-! ## Trailing whitespace -/

section Trailing

variable {text more : List Char}

theorem rstrip_prefix_self (text : List Char) : rstrip text <+: text :=
  List.rdropWhile_prefix isSpace text

theorem rstrip_append (text more : List Char) :
    rstrip (text ++ more) = if rstrip more = [] then rstrip text else text ++ rstrip more := by
  simp only [rstrip, List.reverse_append, List.dropWhile_append, List.reverse_eq_nil_iff,
    List.isEmpty_iff]
  split
  · rfl
  · rw [List.reverse_append, List.reverse_reverse]

theorem rstrip_mono (hstarts : text <+: more) : rstrip text <+: rstrip more := by
  obtain ⟨rest, rfl⟩ := hstarts
  rw [rstrip_append]
  split
  · exact List.prefix_rfl
  · exact (rstrip_prefix_self text).trans (List.prefix_append text _)

theorem rstrip_idem (text : List Char) : rstrip (rstrip text) = rstrip text :=
  List.rdropWhile_idempotent isSpace text

/-- Two texts that differ in their ends. -/
theorem rstrip_eq_of_between (hlow : rstrip text <+: more) (hhigh : more <+: text) :
    rstrip more = rstrip text := by
  have hback := rstrip_mono hlow
  rw [rstrip_idem] at hback
  exact (rstrip_mono hhigh).eq_of_length_le hback.length_le

/-- A character that is no space keeps what stands before it. -/
theorem length_lt_rstrip {c : Char} (hc : isSpace c = false) (above below : List Char) :
    above.length < (rstrip (above ++ c :: below)).length := by
  have hstarts : above ++ [c] <+: rstrip (above ++ c :: below) := by
    have hmono : rstrip (above ++ [c]) <+: rstrip (above ++ c :: below) :=
      rstrip_mono ⟨below, by rw [List.append_assoc, List.singleton_append]⟩
    have hsame : rstrip (above ++ [c]) = above ++ [c] :=
      List.rdropWhile_concat_neg isSpace above c (Bool.eq_false_iff.mp hc)
    rwa [hsame] at hmono
  have hlength := hstarts.length_le
  rw [List.length_append, List.length_singleton] at hlength
  omega

end Trailing

/-! ## What is kept -/

section Kept

variable {entryName : String}

theorem keptPieces_starts (entryName : String) (pieces : List Piece) :
    keptPieces entryName pieces <+: pieces := by
  induction pieces with
  | nil => exact List.nil_prefix
  | cons piece pieces ih =>
      rw [keptPieces]
      by_cases hdefines : piece.defines entryName = true
      · rw [if_pos hdefines, List.prefix_cons_inj]
        exact List.takeWhile_prefix _
      · rw [if_neg hdefines, List.prefix_cons_inj]
        exact ih

theorem keptText_starts (entryName : String) (pieces : List Piece) :
    piecesText (keptPieces entryName pieces) <+: piecesText pieces := by
  obtain ⟨rest, hequal⟩ := keptPieces_starts entryName pieces
  exact ⟨piecesText rest, by rw [piecesText, piecesText, ← List.flatMap_append, hequal]; rfl⟩

theorem keptPieces_eq_self {pieces : List Piece}
    (hnone : ∀ piece ∈ pieces, piece.kind ≠ .statement) :
    keptPieces entryName pieces = pieces := by
  induction pieces with
  | nil => rfl
  | cons piece pieces ih =>
      have hrest : ∀ other ∈ pieces, other.kind ≠ .statement := fun other hother =>
        hnone other (List.mem_cons_of_mem piece hother)
      rw [keptPieces, ih hrest, List.takeWhile_eq_self_iff.mpr fun other hother =>
        decide_eq_true (hrest other hother), ite_self]

theorem truncated_cases (entryName : String) (pieces : List Piece) :
    (¬∃ line ∈ (piecesText pieces).splitOn '\n', isHeader entryName line = true) ∧
        truncated entryName pieces = piecesText pieces ∨
      (∃ line ∈ (piecesText pieces).splitOn '\n', isHeader entryName line = true) ∧
        truncated entryName pieces =
          rstrip (joinLines (cutLines entryName ((piecesText pieces).splitOn '\n'))) := by
  have hcode : (String.ofList (piecesText pieces)).toList = piecesText pieces :=
    String.toList_ofList
  by_cases hheader : ∃ line ∈ (piecesText pieces).splitOn '\n', isHeader entryName line = true
  · refine .inr ⟨hheader, ?_⟩
    rw [← hcode] at hheader
    rw [truncated, stripAfterSolution_of_header hheader, hcode]
  · refine .inl ⟨hheader, ?_⟩
    rw [← hcode] at hheader
    rw [truncated, stripAfterSolution_of_none hheader, hcode]

theorem truncated_starts (pieces : List Piece) :
    truncated entryName pieces <+: piecesText pieces := by
  rcases truncated_cases entryName pieces with ⟨-, hsame⟩ | ⟨-, hcut⟩
  · rw [hsame]
  · rw [hcut]
    apply (rstrip_prefix_self _).trans
    have hjoin := joinLines_starts (cutLines_starts entryName
      ((piecesText pieces).splitOn '\n'))
    rwa [joinLines, joinLines, List.intercalate_splitOn] at hjoin

/-- A line in column 0 is not kept, and nothing below it. -/
theorem truncated_length_le {pieces : List Piece} {above below : List Char}
    (htext : piecesText pieces = above ++ '\n' :: below)
    (hheader : ∃ line ∈ above.splitOn '\n', isHeader entryName line = true)
    (htrailing : isTrailing (firstLine below) = true) :
    (truncated entryName pieces).length ≤ above.length := by
  have hlines : (piecesText pieces).splitOn '\n' = above.splitOn '\n' ++ below.splitOn '\n' := by
    rw [htext, List.splitOn_append_cons_self]
  obtain ⟨line, hline, hshown⟩ := hheader
  have hfirst := head?_splitOn below
  rcases truncated_cases entryName pieces with ⟨hnone, -⟩ | ⟨-, hcut⟩
  · exact absurd ⟨line, hlines ▸ List.mem_append_left _ hline, hshown⟩ hnone
  · cases hbelow : below.splitOn '\n' with
    | nil =>
        rw [hbelow] at hfirst
        cases hfirst
    | cons first more =>
        rw [hbelow, List.head?_cons, Option.some_inj] at hfirst
        rw [hcut, hlines, hbelow]
        have hkept := cutLines_starts_of_trailing more ⟨line, hline, hshown⟩
          (hfirst ▸ htrailing)
        have hjoin := ((rstrip_prefix_self _).trans (joinLines_starts hkept)).length_le
        rwa [joinLines, joinLines, List.intercalate_splitOn] at hjoin

theorem isTrailing_head {text : List Char} (htrailing : isTrailing (firstLine text) = true) :
    ∃ c rest, text = c :: rest ∧ isSpace c = false := by
  rw [isTrailing, Bool.and_eq_true, Bool.and_eq_true] at htrailing
  cases text with
  | nil => exact absurd htrailing.1.1 (by decide)
  | cons c rest =>
      refine ⟨c, rest, rfl, ?_⟩
      by_cases hnewline : c = '\n'
      · rw [hnewline] at htrailing
        exact absurd htrailing.1.1 (by simp [firstLine, lstrip])
      · rw [firstLine_cons hnewline] at htrailing
        simpa using htrailing.1.2

/-- If no line in column 0 comes before the end of the kept text, the kept lines reach it. -/
theorem rstrip_kept_starts {pieces : List Piece}
    (hstarts : piecesText (keptPieces entryName pieces) <+: piecesText pieces)
    (hnone : ¬LineInColumnZero entryName pieces) :
    rstrip (piecesText (keptPieces entryName pieces)) <+:
      rstrip (joinLines (cutLines entryName ((piecesText pieces).splitOn '\n'))) := by
  have hjoin : joinLines ((piecesText pieces).splitOn '\n') = piecesText pieces :=
    List.intercalate_splitOn '\n'
  rcases cutLines_cases entryName ((piecesText pieces).splitOn '\n') with
    hall | ⟨line, more, hlines, htrailing, header, hmem, hheader⟩
  · rw [hall, hjoin]
    exact rstrip_mono hstarts
  · generalize hcut : cutLines entryName ((piecesText pieces).splitOn '\n') = cut at *
    have hsome : cut ≠ [] := List.ne_nil_of_mem hmem
    have hplain : ∀ other ∈ cut ++ line :: more, '\n' ∉ other := fun other hother =>
      newline_notMem_of_mem_splitOn (hlines ▸ hother)
    have htext : piecesText pieces = joinLines cut ++ '\n' :: joinLines (line :: more) := by
      rw [← hjoin, hlines, joinLines_append hsome]
    have habove : (joinLines cut).splitOn '\n' = cut :=
      List.splitOn_intercalate '\n' (fun other hother =>
        hplain other (List.mem_append_left _ hother)) hsome
    have hbelow : (joinLines (line :: more)).splitOn '\n' = line :: more :=
      List.splitOn_intercalate '\n' (fun other hother =>
        hplain other (List.mem_append_right cut hother)) (List.cons_ne_nil line more)
    have hfirst : firstLine (joinLines (line :: more)) = line := by
      have hhead := head?_splitOn (joinLines (line :: more))
      rw [hbelow, List.head?_cons, Option.some_inj] at hhead
      exact hhead.symm
    have hlength : (piecesText (keptPieces entryName pieces)).length ≤
        (joinLines cut ++ ['\n']).length := by
      by_contra hlong
      exact hnone ⟨joinLines cut, joinLines (line :: more), htext, not_le.mp hlong,
        ⟨header, habove.symm ▸ hmem, hheader⟩, hfirst.symm ▸ htrailing⟩
    have hinside : piecesText (keptPieces entryName pieces) <+: joinLines cut ++ ['\n'] :=
      List.prefix_of_prefix_length_le hstarts
        ⟨joinLines (line :: more), by rw [htext, List.append_assoc, List.singleton_append]⟩
        hlength
    have hmono := rstrip_mono hinside
    rwa [rstrip_append, if_pos (by decide)] at hmono

/-- What the truncation removes stands behind the solution from a statement on, exactly if no
line in column 0 comes before that statement. -/
theorem keepsSolution_iff (entryName : String) (pieces : List Piece) :
    KeepsSolution entryName pieces ↔ ¬LineInColumnZero entryName pieces := by
  have hstarts := keptText_starts entryName pieces
  constructor
  · rintro hkeeps ⟨above, below, htext, hbefore, hheader, htrailing⟩
    have hshort := truncated_length_le htext hheader htrailing
    obtain ⟨c, rest, rfl, hc⟩ := isTrailing_head htrailing
    have hreaches : above ++ ['\n'] ++ [c] <+: piecesText (keptPieces entryName pieces) := by
      apply List.prefix_of_prefix_length_le ⟨rest, by rw [htext]; simp⟩ hstarts
      rw [List.length_append, List.length_singleton]
      omega
    have hlong := (rstrip_mono hreaches).length_le
    have hkept := hkeeps.kept.length_le
    have hlast := length_lt_rstrip hc (above ++ ['\n']) []
    rw [List.length_append, List.length_singleton] at hlast
    omega
  · intro hnone
    have hkept : rstrip (piecesText (keptPieces entryName pieces)) <+:
        truncated entryName pieces := by
      rcases truncated_cases entryName pieces with ⟨-, hsame⟩ | ⟨-, hcut⟩
      · rw [hsame]
        exact (rstrip_prefix_self _).trans hstarts
      · rw [hcut]
        exact rstrip_kept_starts hstarts hnone
    exact
      { unchanged := fun hdefinitions => by
          rw [keptPieces_eq_self hdefinitions] at hkept
          exact rstrip_eq_of_between hkept (truncated_starts pieces)
        kept := hkept
        cutsEnd := truncated_starts pieces }

/-- A function whose signature is closed in column 0. -/
def closedInColumnZero : Piece where
  kind := .definition ["solution"]
  text := "def solution(\n    x,\n):\n    return x\n".toList

/-- The signature is all that is kept of it. -/
theorem definition_cut : ¬∀ entryName pieces, KeepsSolution entryName pieces := by
  intro hall
  exact absurd (hall "solution" [closedInColumnZero]).kept (by decide +kernel)

theorem isTrailing_of_head {c : Char} {rest : List Char} (hspace : isSpace c = false)
    (hstart : c ∉ ['d', 'c', '@']) : isTrailing (c :: rest) = true := by
  have hstripped : lstrip (c :: rest) = c :: rest :=
    List.dropWhile_cons_of_neg (Bool.eq_false_iff.mp hspace)
  have hother : ∀ start ∈ ["def ", "class ", "@"], startsWith (c :: rest) start = false := by
    intro start hmem
    rw [startsWith]
    simp only [List.mem_cons, List.not_mem_nil, or_false, not_or] at hmem hstart
    rcases hmem with rfl | rfl | rfl
    · simp [List.isPrefixOf, Ne.symm hstart.1]
    · simp [List.isPrefixOf, Ne.symm hstart.2.1]
    · simp [List.isPrefixOf, Ne.symm hstart.2.2]
  rw [isTrailing, hstripped]
  simp only [Bool.and_eq_true, Bool.not_eq_true', List.any_eq_false, Bool.not_eq_true]
  exact ⟨⟨rfl, by simpa using hspace⟩, hother⟩

/-- An import, a comment or an asynchronous function behind the solution is cut off. -/
theorem lineInColumnZero_of_piece {pieces before after : List Piece} {piece : Piece}
    {above rest : List Char} {c : Char}
    (hkept : keptPieces entryName pieces = before ++ piece :: after)
    (habove : piecesText before = above ++ ['\n'])
    (hheader : ∃ line ∈ above.splitOn '\n', isHeader entryName line = true)
    (htext : piece.text = c :: rest) (hspace : isSpace c = false)
    (hstart : c ∉ ['d', 'c', '@']) : LineInColumnZero entryName pieces := by
  have hpieces : piecesText (keptPieces entryName pieces) =
      above ++ '\n' :: (c :: (rest ++ piecesText after)) := by
    rw [hkept, piecesText, List.flatMap_append, List.flatMap_cons, ← piecesText, ← piecesText,
      habove, htext, List.append_assoc]
    rfl
  obtain ⟨more, hmore⟩ := keptText_starts entryName pieces
  refine ⟨above, c :: (rest ++ piecesText after) ++ more, ?_, ?_, hheader, ?_⟩
  · rw [← hmore, hpieces, List.append_assoc]
    rfl
  · rw [hpieces]
    simp
  · have hnewline : c ≠ '\n' := by
      rintro rfl
      exact absurd hspace (by decide)
    rw [List.cons_append, firstLine_cons hnewline]
    exact isTrailing_of_head hspace hstart

end Kept

end AlgorithmHarness.Strategies
