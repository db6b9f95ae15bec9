import Mathlib.Data.List.Induction
import AlgorithmHarness.Redaction.Scan

/-!
# The placeholder in a text

Where a text reads `[REDACTED]`, alone or in quotes, a value ends or begins, and
no authorization header or bearer token has a part in it.
-/

namespace AlgorithmHarness.Redaction

open Pattern Substitution

/-- The placeholder, alone or in quotes. -/
def Placeholder (value : List Char) : Prop :=
  value = redacted ∨ ∃ q, isQuote q = true ∧ value = q :: (redacted ++ [q])

/-- What takes the place of a value. -/
def blank (value : List Char) : List Char :=
  if isQuotedValue value then value.head?.toList ++ redacted ++ value.getLast?.toList else redacted

theorem isQuotedValue_iff {value : List Char} :
    isQuotedValue value = true ↔ ∃ q inner, isQuote q = true ∧ value = q :: (inner ++ [q]) := by
  constructor
  · intro hvalue
    simp only [isQuotedValue, Bool.and_eq_true, decide_eq_true_eq] at hvalue
    obtain ⟨⟨hlength, hends⟩, hquote⟩ := hvalue
    cases value with
    | nil => cases hquote
    | cons q value =>
        cases value using List.reverseRecOn with
        | nil => exact absurd (Nat.le_of_succ_le_succ hlength) (Nat.not_succ_le_zero 0)
        | append_singleton inner last =>
            rw [← List.cons_append, List.getLast?_concat] at hends
            cases hends
            exact ⟨q, inner, hquote, rfl⟩
  · rintro ⟨q, inner, hquote, rfl⟩
    rw [← List.cons_append, isQuotedValue, List.getLast?_concat]
    simp [hquote]

theorem blank_quoted {q : Char} (hq : isQuote q = true) (inner : List Char) :
    blank (q :: (inner ++ [q])) = q :: (redacted ++ [q]) := by
  rw [blank, if_pos (isQuotedValue_iff.mpr ⟨q, inner, hq, rfl⟩), ← List.cons_append,
    List.getLast?_concat]
  rfl

theorem blank_unquoted {value : List Char} (hvalue : isQuotedValue value = false) :
    blank value = redacted := by
  rw [blank, hvalue, if_neg Bool.false_ne_true]

theorem placeholder_blank (value : List Char) : Placeholder (blank value) := by
  by_cases hvalue : isQuotedValue value = true
  · obtain ⟨q, inner, hq, rfl⟩ := isQuotedValue_iff.mp hvalue
    exact .inr ⟨q, hq, blank_quoted hq inner⟩
  · exact .inl (blank_unquoted (Bool.not_eq_true _ ▸ hvalue))

theorem Placeholder.blank {value : List Char} (hvalue : Placeholder value) :
    blank value = value := by
  cases hvalue with
  | inl hbare => exact hbare ▸ rfl
  | inr hquoted =>
      obtain ⟨q, hq, rfl⟩ := hquoted
      exact blank_quoted hq redacted

/-- A value that reads `[REDACTED]` already is left in place. -/
theorem redactedAssignment_eq (found : Assignment) :
    redactedAssignment found = found.leading ++ blank found.value := by
  rw [redactedAssignment]
  by_cases hvalue : isQuotedValue found.value = true
  · obtain ⟨q, inner, hq, heq⟩ := isQuotedValue_iff.mp hvalue
    have hinner : found.value.tail.dropLast = inner := by rw [heq]; simp
    simp only [hvalue, if_true, hinner]
    rw [blank, if_pos hvalue]
    split
    · next hredacted =>
        rw [Assignment.whole, heq, hredacted, ← List.cons_append, List.getLast?_concat]
        rfl
    · rfl
  · simp only [Bool.not_eq_true] at hvalue
    rw [blank_unquoted hvalue]
    simp only [hvalue, Bool.false_eq_true, if_false]
    split
    · next hredacted => rw [Assignment.whole, hredacted]
    · rfl

/-! ## Its characters -/

theorem Placeholder.mem {value : List Char} (hvalue : Placeholder value) :
    value ∈ [redacted, '"' :: (redacted ++ ['"']), '\'' :: (redacted ++ ['\''])] := by
  cases hvalue with
  | inl hbare => exact hbare ▸ List.mem_cons_self
  | inr hquoted =>
      obtain ⟨q, hq, rfl⟩ := hquoted
      cases isQuote_iff.mp hq with
      | inl hdouble => subst hdouble; decide
      | inr hsingle => subst hsingle; decide

theorem Placeholder.ne_nil {value : List Char} (hvalue : Placeholder value) : value ≠ [] := by
  have hall : ∀ value ∈ [redacted, '"' :: (redacted ++ ['"']), '\'' :: (redacted ++ ['\''])],
      value ≠ [] := by decide
  exact hall value hvalue.mem

/-- A separator or a space, as the text before a value ends in. -/
def isMark (c : Char) : Bool := isSpace c || isSeparator c

theorem Placeholder.not_isMark {value : List Char} (hvalue : Placeholder value) :
    ∀ c ∈ value, isMark c = false := by
  have hall : ([redacted, '"' :: (redacted ++ ['"']), '\'' :: (redacted ++ ['\''])].all
      fun value => value.all fun c => !isMark c) = true := by decide
  intro c hc
  have hvalues := List.all_eq_true.mp hall value hvalue.mem
  exact Bool.not_eq_true' _ ▸ List.all_eq_true.mp hvalues c hc

theorem isMark_of_isSpace {c : Char} (hc : isSpace c = true) : isMark c = true := by
  rw [isMark, hc, Bool.true_or]

theorem isMark_of_isSeparator {c : Char} (hc : isSeparator c = true) : isMark c = true := by
  rw [isMark, hc, Bool.or_true]

theorem not_isMark_of_isQuote {c : Char} (hc : isQuote c = true) : isMark c = false := by
  cases isQuote_iff.mp hc with
  | inl hdouble => exact hdouble ▸ rfl
  | inr hsingle => exact hsingle ▸ rfl

theorem Letter.not_isMark {c : Char} (hc : Letter c) : isMark c = false := by
  rw [isMark, hc.not_isSpace, hc.not_isSeparator, Bool.or_false]

/-! ## Anchors -/

/-- What stands before a value: a text without spaces and separators, then
spaces and `mark`; it does not begin within a placeholder. -/
structure Anchor (anchor : List Char) (mark : Char) : Prop where
  shape : ∃ solid loose, anchor = solid ++ loose ∧ (∀ c ∈ solid, isMark c = false) ∧
    ∀ c ∈ loose ++ [mark], isMark c = true
  apart : ∀ value left right rest tail, Placeholder value → value = left ++ right → right ≠ [] →
    right ++ rest ≠ anchor ++ mark :: tail

/-- Behind a space or a separator of an anchor comes another one. -/
theorem Anchor.joined {anchor first last : List Char} {mark c d : Char}
    (hanchor : Anchor anchor mark) (hsplit : anchor ++ [mark] = first ++ c :: d :: last)
    (hc : isMark c = true) : isMark d = true := by
  obtain ⟨solid, loose, rfl, hsolid, hloose⟩ := hanchor.shape
  rw [List.append_assoc] at hsplit
  cases List.append_eq_append_iff.mp hsplit with
  | inl hbehind =>
      obtain ⟨between, -, heq⟩ := hbehind
      exact hloose d (heq ▸ by simp)
  | inr hwithin =>
      obtain ⟨between, hfirst, heq⟩ := hwithin
      cases between with
      | nil => exact hloose d (heq.symm ▸ by simp)
      | cons b between =>
          rw [List.cons_append] at heq
          obtain ⟨rfl, -⟩ := List.cons.inj heq
          rw [hsolid c (hfirst ▸ by simp)] at hc
          cases hc

/-- In a text with a placeholder behind a space or a separator, an anchor
stands before or behind the placeholder. -/
theorem Anchor.locate {anchor front value rest first tail : List Char} {mark : Char}
    (hanchor : Anchor anchor mark) (hfront : ∀ c ∈ front.getLast?, isMark c = true)
    (hvalue : Placeholder value)
    (htext : front ++ (value ++ rest) = first ++ (anchor ++ mark :: tail)) :
    (∃ between, front = first ++ (anchor ++ mark :: between) ∧ tail = between ++ (value ++ rest)) ∨
      ∃ later, first = front ++ (value ++ later) ∧ rest = later ++ (anchor ++ mark :: tail) := by
  have hapart : ∀ left right rest, value = left ++ right → right ++ rest = anchor ++ mark :: tail →
      right = [] := by
    intro left right rest hsplit heq
    by_contra hne
    exact hanchor.apart value left right rest tail hvalue hsplit hne heq
  cases List.append_eq_append_iff.mp htext with
  | inl hfirst =>
      obtain ⟨between, rfl, heq⟩ := hfirst
      cases List.append_eq_append_iff.mp heq with
      | inl hbehind =>
          obtain ⟨later, rfl, hrest⟩ := hbehind
          exact .inr ⟨later, rfl, hrest⟩
      | inr hinside =>
          obtain ⟨right, hsplit, hright⟩ := hinside
          obtain rfl := hapart between right rest hsplit hright.symm
          rw [List.append_nil] at hsplit
          subst hsplit
          exact .inr ⟨[], by rw [List.append_nil], hright.symm⟩
  | inr hbefore =>
      obtain ⟨between, rfl, heq⟩ := hbefore
      have hwhole : (anchor ++ [mark]) ++ tail = between ++ (value ++ rest) := by
        rw [← heq, List.append_assoc, List.singleton_append]
      cases List.append_eq_append_iff.mp hwhole with
      | inl hlonger =>
          obtain ⟨more, rfl, rfl⟩ := hlonger
          exact .inl ⟨more, by simp, rfl⟩
      | inr hshorter =>
          obtain ⟨cut, hsplit, hcut⟩ := hshorter
          cases cut with
          | nil =>
              rw [List.append_nil] at hsplit
              rw [List.nil_append] at hcut
              exact .inl ⟨[], by rw [← hsplit], hcut.symm⟩
          | cons d cut =>
              cases between using List.reverseRecOn with
              | nil =>
                  rw [List.nil_append] at heq
                  exact absurd (hapart [] value rest rfl heq.symm) hvalue.ne_nil
              | append_singleton between c =>
                  have hc : isMark c = true := hfront c (by simp)
                  have hd : isMark d = true :=
                    hanchor.joined (by rw [hsplit, List.append_assoc]; rfl) hc
                  obtain ⟨v, value, rfl⟩ := List.exists_cons_of_ne_nil hvalue.ne_nil
                  rw [List.cons_append, List.cons_append] at hcut
                  obtain ⟨rfl, -⟩ := List.cons.inj hcut
                  rw [hvalue.not_isMark _ List.mem_cons_self] at hd
                  cases hd

end AlgorithmHarness.Redaction
