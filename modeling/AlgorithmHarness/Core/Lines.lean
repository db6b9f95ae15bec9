import Mathlib.Data.List.Induction
import Mathlib.Data.List.Infix
import Mathlib.Data.Nat.Notation

/-!
# Lines

`str.splitlines` over code points: it knows more separators than the newline,
takes a carriage return and a newline for one, and has no empty line at the
end.
-/

namespace AlgorithmHarness.Lines

def newline : ℕ := 0x0A

def carriageReturn : ℕ := 0x0D

def separators : List ℕ :=
  [newline, 0x0B, 0x0C, carriageReturn, 0x1C, 0x1D, 0x1E, 0x85, 0x2028, 0x2029]

/-- The lines that are complete, and the one that has begun. -/
def scan : List ℕ → List ℕ → List (List ℕ) × List ℕ
  | line, [] => ([], line)
  | line, 0x0D :: 0x0A :: rest => (line :: (scan [] rest).1, (scan [] rest).2)
  | line, point :: rest =>
      if point ∈ separators then (line :: (scan [] rest).1, (scan [] rest).2)
      else scan (line ++ [point]) rest

/-- `text.splitlines()` -/
def splitlines (text : List ℕ) : List (List ℕ) :=
  (scan [] text).1 ++ if (scan [] text).2 = [] then [] else [(scan [] text).2]

/-- A point at which a line begins. -/
def AtLineStart (before : List ℕ) : Prop := ∀ point ∈ before.getLast?, point ∈ separators

instance (before : List ℕ) : Decidable (AtLineStart before) :=
  inferInstanceAs (Decidable (∀ point ∈ before.getLast?, point ∈ separators))

theorem scan_plain (line text rest : List ℕ) (hplain : ∀ point ∈ text, point ∉ separators) :
    scan line (text ++ rest) = scan (line ++ text) rest := by
  induction text generalizing line with
  | nil => rw [List.nil_append, List.append_nil]
  | cons point text ih =>
      have hpoint := hplain point List.mem_cons_self
      have hnot : point ≠ 0x0D := fun hequal => hpoint (hequal ▸ by decide)
      rw [List.cons_append, scan.eq_3 _ _ _ (fun _ hequal _ => hnot hequal), if_neg hpoint,
        ih _ fun other hother => hplain other (List.mem_cons_of_mem _ hother), List.append_assoc,
        List.singleton_append]

/-- Only a newline can belong to the separator before it. -/
theorem scan_append (line before : List ℕ) {point : ℕ} (hpoint : point ≠ newline)
    (rest : List ℕ) :
    scan line (before ++ point :: rest) =
      ((scan line before).1 ++ (scan (scan line before).2 (point :: rest)).1,
        (scan (scan line before).2 (point :: rest)).2) := by
  have hnopair : ∀ (first : ℕ) (before : List ℕ),
      (∀ tail, first = carriageReturn → before = newline :: tail → False) →
      ∀ tail, first = carriageReturn → before ++ point :: rest = newline :: tail → False := by
    intro first before hpair tail hfirst happend
    cases before with
    | nil => exact hpoint (List.cons_eq_cons.mp happend).1
    | cons second before =>
        rw [(List.cons_eq_cons.mp happend).1] at hpair
        exact hpair before hfirst rfl
  fun_induction scan line before with
  | case1 line => rfl
  | case2 line before ih =>
      rw [List.cons_append, List.cons_append, scan, ih]
      rfl
  | case3 line first before hpair hseparator ih =>
      rw [List.cons_append, scan.eq_3 _ _ _ (hnopair first before hpair), if_pos hseparator, ih]
      rfl
  | case4 line first before hpair hplain ih =>
      rw [List.cons_append, scan.eq_3 _ _ _ (hnopair first before hpair), if_neg hplain, ih]

theorem scan_snd_eq_nil (line before : List ℕ) :
    (scan line before).2 = [] ↔
      before.getLast?.elim (line = []) fun point => point ∈ separators := by
  fun_induction scan line before with
  | case1 line => rfl
  | case2 line before ih =>
      rw [ih, List.getLast?_cons_cons, List.getLast?_cons]
      cases before.getLast? with
      | none => simp [separators, newline]
      | some point => rfl
  | case3 line first before hpair hseparator ih =>
      rw [ih, List.getLast?_cons]
      cases before.getLast? with
      | none => simp [hseparator]
      | some point => rfl
  | case4 line first before hpair hplain ih =>
      rw [ih, List.getLast?_cons]
      cases before.getLast? with
      | none => simp [hplain]
      | some point => rfl

/-- Nothing has begun where a line begins. -/
theorem scan_snd_eq_nil_iff (before : List ℕ) : (scan [] before).2 = [] ↔ AtLineStart before := by
  rw [scan_snd_eq_nil, AtLineStart]
  cases before.getLast? <;> simp

/-- Lines are parts of the text. -/
theorem infix_of_scan (line text : List ℕ) :
    (∀ found ∈ (scan line text).1, found <:+: line ++ text) ∧
      (scan line text).2 <:+: line ++ text := by
  fun_induction scan line text with
  | case1 line => simp
  | case2 line text ih =>
      have htext : text <:+: line ++ carriageReturn :: newline :: text :=
        ⟨line ++ [carriageReturn, newline], [], by simp⟩
      constructor
      · intro found hfound
        rcases List.mem_cons.mp hfound with rfl | hfound
        · exact (List.prefix_append _ _).isInfix
        · exact (ih.1 found hfound).trans htext
      · exact ih.2.trans htext
  | case3 line point text hpair hseparator ih =>
      have htext : text <:+: line ++ point :: text := ⟨line ++ [point], [], by simp⟩
      constructor
      · intro found hfound
        rcases List.mem_cons.mp hfound with rfl | hfound
        · exact (List.prefix_append _ _).isInfix
        · exact (ih.1 found hfound).trans htext
      · exact ih.2.trans htext
  | case4 line point text hpair hplain ih => simpa using ih

theorem infix_of_mem_splitlines {text line : List ℕ} (hline : line ∈ splitlines text) :
    line <:+: text := by
  have hscan := infix_of_scan [] text
  rcases List.mem_append.mp hline with hline | hline
  · exact hscan.1 line hline
  · split_ifs at hline
    · cases hline
    · rw [List.mem_singleton.mp hline]
      exact hscan.2

/-- A line that is written into a text, behind what has begun there. -/
theorem splitlines_frame (before : List ℕ) {point : ℕ} {text : List ℕ}
    (hplain : ∀ other ∈ point :: text, other ∉ separators) (after : List ℕ) :
    splitlines (before ++ (point :: text ++ newline :: after)) =
      (scan [] before).1 ++ ((scan [] before).2 ++ point :: text) :: splitlines after := by
  have hpoint : point ≠ newline := by
    intro hequal
    exact hplain point List.mem_cons_self (hequal ▸ by decide)
  have hline : scan (scan [] before).2 (point :: (text ++ newline :: after)) =
      (((scan [] before).2 ++ point :: text) :: (scan [] after).1, (scan [] after).2) := by
    rw [← List.cons_append, scan_plain _ _ _ hplain,
      scan.eq_3 _ _ _ fun _ hequal _ => absurd hequal (by decide), if_pos (by decide)]
  rw [splitlines, List.cons_append, scan_append [] before hpoint, hline, splitlines]
  simp

end AlgorithmHarness.Lines
