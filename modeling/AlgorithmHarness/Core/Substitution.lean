import Mathlib.Data.List.Basic

/-!
# Substitution of matches

The scan of a text from left to right that replaces each match and goes on
behind it.  What a match becomes does not take part in the scan.
-/

namespace AlgorithmHarness.Substitution

/-- What is found at a position, given the character before it: the matched
text and its replacement. -/
abbrev Finder := Option Char → List Char → Option (List Char × List Char)

/-- `passed` characters of the last match are still to be passed. -/
def substitute (find : Finder) : ℕ → Option Char → List Char → List Char
  | _, _, [] => []
  | passed + 1, _, c :: text => substitute find passed (some c) text
  | 0, before, c :: text =>
      match find before (c :: text) with
      | none => c :: substitute find 0 (some c) text
      | some (matched, replacement) =>
          replacement ++ substitute find (matched.length - 1) (some c) text

/-- A match is a nonempty prefix of the text, and something takes its place. -/
def Lawful (find : Finder) : Prop :=
  ∀ before text matched replacement, find before text = some (matched, replacement) →
    matched ≠ [] ∧ replacement ≠ [] ∧ ∃ rest, text = matched ++ rest

/-- A text and what the scan makes of it, match by match. -/
inductive Rewrites (find : Finder) : Option Char → List Char → List Char → Prop
  | nil {before : Option Char} : Rewrites find before [] []
  | keep {before : Option Char} {c : Char} {text output : List Char}
      (hfind : find before (c :: text) = none) (hrest : Rewrites find (some c) text output) :
      Rewrites find before (c :: text) (c :: output)
  | replace {before : Option Char} {whole result matched replacement text output : List Char}
      (hfind : find before whole = some (matched, replacement)) (hmatched : matched ≠ [])
      (hwhole : whole = matched ++ text) (hresult : result = replacement ++ output)
      (hrest : Rewrites find matched.getLast? text output) : Rewrites find before whole result

variable {find : Finder}

/-- The character before what follows `text`. -/
def lastOf (before : Option Char) (text : List Char) : Option Char := text.getLast?.or before

@[simp]
theorem lastOf_nil (before : Option Char) : lastOf before [] = before := Option.none_or

theorem lastOf_cons (before : Option Char) (c : Char) (text : List Char) :
    lastOf before (c :: text) = lastOf (some c) text := by
  rw [lastOf, List.getLast?_cons, lastOf]
  cases text.getLast? <;> rfl

theorem lastOf_append (before : Option Char) (first second : List Char) :
    lastOf before (first ++ second) = lastOf (lastOf before first) second := by
  rw [lastOf, List.getLast?_append, lastOf, lastOf, Option.or_assoc]

theorem lastOf_of_ne_nil {text : List Char} (before : Option Char) (hne : text ≠ []) :
    lastOf before text = text.getLast? := by
  rw [lastOf, List.getLast?_eq_some_getLast hne, Option.some_or]

theorem substitute_passed (find : Finder) (before : Option Char) (first second : List Char) :
    substitute find first.length before (first ++ second) =
      substitute find 0 (lastOf before first) second := by
  induction first generalizing before with
  | nil => rfl
  | cons c first ih =>
      rw [List.cons_append, List.length_cons, substitute, ih, lastOf_cons]

theorem rewrites_substitute (hlawful : Lawful find) (before : Option Char) (text : List Char) :
    Rewrites find before text (substitute find 0 before text) := by
  induction hlength : text.length using Nat.strongRecOn generalizing before text with
  | ind length ih =>
      subst hlength
      cases text with
      | nil => exact .nil
      | cons c text =>
          rw [substitute]
          cases hfind : find before (c :: text) with
          | none => exact .keep hfind (ih _ (Nat.lt_succ_self _) (some c) text rfl)
          | some found =>
              obtain ⟨matched, replacement⟩ := found
              obtain ⟨hmatched, -, rest, hwhole⟩ := hlawful _ _ _ _ hfind
              obtain ⟨head, tail, rfl⟩ := List.exists_cons_of_ne_nil hmatched
              rw [List.cons_append] at hwhole
              obtain ⟨rfl, rfl⟩ := List.cons.inj hwhole
              have hshorter : rest.length < (c :: (tail ++ rest)).length := by
                rw [List.length_cons, List.length_append]
                omega
              have hlast : (c :: tail).getLast? = lastOf (some c) tail := by
                rw [← lastOf_cons none, lastOf_of_ne_nil none hmatched]
              refine .replace hfind hmatched hwhole rfl ?_
              rw [List.length_cons, Nat.add_sub_cancel, substitute_passed, hlast]
              exact ih _ hshorter _ rest rfl

theorem Rewrites.unique {before : Option Char} {text first second : List Char}
    (hfirst : Rewrites find before text first) (hsecond : Rewrites find before text second) :
    first = second := by
  induction hfirst generalizing second with
  | nil =>
      cases hsecond with
      | nil => rfl
      | replace hfind hmatched hwhole =>
          exact absurd (List.append_eq_nil_iff.mp hwhole.symm).1 hmatched
  | keep hfind hrest ih =>
      cases hsecond with
      | keep _ hother => rw [ih hother]
      | replace hother => rw [hfind] at hother; cases hother
  | replace hfind hmatched hwhole hresult hrest ih =>
      cases hsecond with
      | nil => exact absurd (List.append_eq_nil_iff.mp hwhole.symm).1 hmatched
      | keep hother => rw [hfind] at hother; cases hother
      | replace hother _ hwhole' hresult' hrest' =>
          rw [hfind] at hother
          cases hother
          have htext := List.append_cancel_left (hwhole.symm.trans hwhole')
          subst htext
          rw [hresult, hresult', ih hrest']

theorem Rewrites.eq_substitute (hlawful : Lawful find) {before : Option Char}
    {text output : List Char} (hrewrites : Rewrites find before text output) :
    substitute find 0 before text = output :=
  (rewrites_substitute hlawful before text).unique hrewrites

/-- A text in which every match is its own replacement stays. -/
theorem substitute_eq_self (hlawful : Lawful find) (before : Option Char) (text : List Char)
    (hfixed : ∀ first second, text = first ++ second → ∀ matched replacement,
      find (lastOf before first) second = some (matched, replacement) → replacement = matched) :
    substitute find 0 before text = text := by
  induction hlength : text.length using Nat.strongRecOn generalizing before text with
  | ind length ih =>
      subst hlength
      cases text with
      | nil => rfl
      | cons c text =>
          rw [substitute]
          cases hfind : find before (c :: text) with
          | none =>
              have hrest := ih _ (Nat.lt_succ_self _) (some c) text ?_ rfl
              · simp only [hrest]
              · intro first second htext matched replacement hfound
                apply hfixed (c :: first) second (congrArg (c :: ·) htext) matched replacement
                rwa [lastOf_cons]
          | some found =>
              obtain ⟨matched, replacement⟩ := found
              obtain rfl : replacement = matched := hfixed [] (c :: text) rfl _ _ hfind
              obtain ⟨hmatched, -, rest, hwhole⟩ := hlawful _ _ _ _ hfind
              obtain ⟨head, tail, rfl⟩ := List.exists_cons_of_ne_nil hmatched
              rw [List.cons_append] at hwhole
              obtain ⟨rfl, rfl⟩ := List.cons.inj hwhole
              have hshorter : rest.length < (c :: (tail ++ rest)).length := by
                rw [List.length_cons, List.length_append]
                omega
              have hrest := ih _ hshorter (lastOf (some c) tail) rest ?_ rfl
              · simp only [List.length_cons, Nat.add_sub_cancel, substitute_passed, hrest,
                  List.cons_append]
              · intro first second htext matched replacement hfound
                apply hfixed (c :: tail ++ first) second (by rw [htext]; simp) matched replacement
                rwa [List.cons_append, lastOf_cons, lastOf_append]

/-! ## Along a scan -/

/-- The scan of a text comes to `rest`. -/
inductive Reaches (find : Finder) : Option Char → List Char → Option Char → List Char → Prop
  | here {before : Option Char} {text : List Char} : Reaches find before text before text
  | keep {before last : Option Char} {c : Char} {text rest : List Char}
      (hfind : find before (c :: text) = none) (hrest : Reaches find (some c) text last rest) :
      Reaches find before (c :: text) last rest
  | pass {before last : Option Char} {matched replacement text rest : List Char}
      (hfind : find before (matched ++ text) = some (matched, replacement))
      (hrest : Reaches find matched.getLast? text last rest) :
      Reaches find before (matched ++ text) last rest

/-- What holds of a text before the scan and is kept where a character is kept
or a match replaced, holds of the result.  `motive before written text` is
about the text of which `written` has been rewritten. -/
theorem Rewrites.invariant {motive : Option Char → List Char → List Char → Prop}
    (hkeep : ∀ before written c text, find before (c :: text) = none →
      motive before written (c :: text) → motive (some c) (written ++ [c]) text)
    (hreplace : ∀ before written matched replacement text,
      find before (matched ++ text) = some (matched, replacement) →
      motive before written (matched ++ text) →
      motive matched.getLast? (written ++ replacement) text)
    {before : Option Char} {text output : List Char} (hrewrites : Rewrites find before text output)
    {written : List Char} (hstart : motive before written text) :
    ∃ last, motive last (written ++ output) [] := by
  induction hrewrites generalizing written with
  | nil => exact ⟨_, by rwa [List.append_nil]⟩
  | keep hfind _ ih =>
      obtain ⟨last, hlast⟩ := ih (hkeep _ _ _ _ hfind hstart)
      exact ⟨last, by rwa [List.append_assoc] at hlast⟩
  | replace hfind _ hwhole hresult _ ih =>
      subst hwhole hresult
      obtain ⟨last, hlast⟩ := ih (hreplace _ _ _ _ _ hfind hstart)
      exact ⟨last, by rwa [List.append_assoc] at hlast⟩

end AlgorithmHarness.Substitution
