import AlgorithmHarness.Redaction.Placeholder

/-!
# Values that stay

Behind the first two passes every authorization header and every bearer token
of the text has the placeholder as its value, or none; the passes that follow
keep it so.
-/

namespace AlgorithmHarness.Redaction

open Pattern Substitution

/-! ## Found values -/

theorem valueAt_append {plain : Char → Bool} {text value rest : List Char}
    (hvalue : valueAt plain text = some (value, rest)) :
    text = value ++ rest ∧
      ((∃ q inner, isQuote q = true ∧ value = q :: (inner ++ [q])) ∨
        (value ≠ [] ∧ (∀ c ∈ value, plain c = true) ∧ StopsAt plain rest)) := by
  cases Option.or_eq_some_iff.mp hvalue with
  | inl hquoted =>
      obtain ⟨htext, q, inner, hq, heq⟩ := quotedAt_append hquoted
      exact ⟨htext, .inl ⟨q, inner, hq, heq⟩⟩
  | inr hrun =>
      obtain ⟨htext, hshape⟩ := runAt_append hrun.2
      exact ⟨htext, .inr hshape⟩

theorem runAt_eq_none {plain : Char → Bool} {text : List Char} :
    runAt plain text = none ↔ StopsAt plain text := by
  cases text with
  | nil => exact iff_of_true rfl fun d hd => by cases hd
  | cons c text =>
      rw [runAt]
      by_cases hc : plain c = true
      · rw [List.takeWhile_cons_of_pos hc, if_neg (List.cons_ne_nil _ _)]
        refine iff_of_false (Option.some_ne_none _) fun hstop => ?_
        rw [hstop c rfl] at hc
        cases hc
      · rw [List.takeWhile_cons_of_neg hc, if_pos rfl]
        refine iff_of_true rfl fun d hd => ?_
        cases hd
        exact Bool.not_eq_true _ ▸ hc

theorem valueAt_eq_none {plain : Char → Bool} (hquote : ∀ q, isQuote q = true → plain q = true)
    {text : List Char} : valueAt plain text = none ↔ StopsAt plain text := by
  rw [valueAt, Option.or_eq_none_iff, runAt_eq_none]
  refine ⟨And.right, fun hstop => ⟨?_, hstop⟩⟩
  cases text with
  | nil => rfl
  | cons c text =>
      rw [quotedAt, if_neg]
      intro hc
      have hplain := hquote c hc
      rw [hstop c rfl] at hplain
      cases hplain

theorem quotedAt_placeholder {q : Char} (hq : isQuote q = true) (rest : List Char) :
    quotedAt (q :: (redacted ++ [q]) ++ rest) = some (q :: (redacted ++ [q]), rest) := by
  cases isQuote_iff.mp hq with
  | inl hdouble => subst hdouble; rfl
  | inr hsingle => subst hsingle; rfl

theorem runAt_redacted {plain : Char → Bool} (hplain : ∀ c ∈ redacted, plain c = true)
    {rest : List Char} (hrest : StopsAt plain rest) :
    runAt plain (redacted ++ rest) = some (redacted, rest) :=
  runAt_of (by decide) hplain hrest

theorem valueAt_placeholder {plain : Char → Bool} (hplain : ∀ c ∈ redacted, plain c = true)
    {value rest : List Char} (hvalue : Placeholder value)
    (hrest : value = redacted → StopsAt plain rest) :
    valueAt plain (value ++ rest) = some (value, rest) := by
  cases hvalue with
  | inl hbare =>
      subst hbare
      rw [valueAt, runAt_redacted hplain (hrest rfl)]
      rfl
  | inr hquoted =>
      obtain ⟨q, hq, rfl⟩ := hquoted
      rw [valueAt, quotedAt_placeholder hq, Option.some_or]

/-- An unquoted placeholder takes the place of a whole run. -/
theorem stopsAt_of_blank {plain : Char → Bool} {text value rest : List Char}
    (hvalue : valueAt plain text = some (value, rest)) (hblank : blank value = redacted) :
    StopsAt plain rest := by
  cases (valueAt_append hvalue).2 with
  | inl hquoted =>
      obtain ⟨q, inner, hq, rfl⟩ := hquoted
      rw [blank_quoted hq] at hblank
      rw [(List.cons.inj hblank).1] at hq
      cases hq
  | inr hrun => exact hrun.2.2

/-! ## Settled texts -/

/-- The text behind an anchor has no value, or one of `stays`. -/
inductive Settled (plain : Char → Bool) (stays : List Char → Prop) (text : List Char) : Prop
  | bare (spaces rest : List Char) (htext : text = spaces ++ rest)
      (hspaces : ∀ c ∈ spaces, isSpace c = true ∧ plain c = false)
      (hrest : ∀ c ∈ rest.head?, isSpace c = false ∧ plain c = false)
  | marked (spaces value rest : List Char) (htext : text = spaces ++ (value ++ rest))
      (hspaces : Spaces spaces) (hvalue : stays value) (hrest : value = redacted → StopsAt plain rest)

section

variable {plain : Char → Bool} {stays : List Char → Prop}
  {next : List Char → Option (List Char × List Char)}

theorem settled_of_none (hnone : ∀ text, next text = none → StopsAt plain text) {text : List Char}
    (htext : afterRun isSpace next text = none) : Settled plain stays text := by
  have hstops := afterRun_eq_none.mp htext
  have hspaces : ∀ c ∈ text.takeWhile isSpace, isSpace c = true := fun c hc =>
    List.mem_takeWhile_imp hc
  refine .bare (text.takeWhile isSpace) (text.dropWhile isSpace)
    List.takeWhile_append_dropWhile.symm ?_ ?_
  · intro c hc
    refine ⟨hspaces c hc, ?_⟩
    obtain ⟨first, last, hsplit⟩ := List.append_of_mem hc
    apply hnone (c :: (last ++ text.dropWhile isSpace)) _ c rfl
    apply hstops first
    · rw [← List.cons_append, ← List.append_assoc, ← hsplit, List.takeWhile_append_dropWhile]
    · intro d hd
      exact hspaces d (hsplit ▸ List.mem_append_left _ hd)
  · intro c hc
    refine ⟨?_, ?_⟩
    · have hstop := List.head?_dropWhile_not isSpace text
      rw [hc] at hstop
      simpa using hstop
    · exact hnone _ (hstops _ _ List.takeWhile_append_dropWhile.symm hspaces) c hc

theorem Settled.value (hnone : ∀ text, StopsAt plain text → next text = none)
    (hnext : ∀ value rest, stays value → (value = redacted → StopsAt plain rest) →
      next (value ++ rest) = some (value, rest))
    (hstays : ∀ value, stays value → Placeholder value) {text after value rest : List Char}
    (hsettled : Settled plain stays text)
    (hrun : afterRun isSpace next text = some (after, value, rest)) : stays value := by
  cases hsettled with
  | bare spaces behind htext hspaces hbehind =>
      obtain ⟨middle, hsplit, hafter, hvalue⟩ := afterRun_append hrun
      rw [hnone middle] at hvalue
      · cases hvalue
      · intro c hc
        obtain ⟨tail, rfl⟩ := List.head?_eq_some_iff.mp hc
        subst htext
        cases List.append_eq_append_iff.mp hsplit with
        | inl hlater =>
            obtain ⟨between, rfl, hrest⟩ := hlater
            cases between with
            | nil =>
                rw [List.nil_append] at hrest
                exact (hbehind c (hrest ▸ rfl)).2
            | cons d between =>
                have hspace := (hbehind d (hrest ▸ rfl)).1
                rw [hafter d (by simp)] at hspace
                cases hspace
        | inr hearlier =>
            obtain ⟨between, hmore, hrest⟩ := hearlier
            cases between with
            | nil =>
                rw [List.nil_append] at hrest
                exact (hbehind c (hrest ▸ rfl)).2
            | cons d between =>
                obtain ⟨rfl, -⟩ := List.cons.inj hrest
                exact (hspaces c (hmore ▸ by simp)).2
  | marked spaces placeholder behind htext hspaces hvalue hbehind =>
      subst htext
      rw [afterRun_of hspaces _ (hnext _ _ hvalue hbehind)] at hrun
      · cases hrun
        exact hvalue
      · intro c hc
        have hplaceholder := hstays _ hvalue
        obtain ⟨v, value', heq⟩ := List.exists_cons_of_ne_nil hplaceholder.ne_nil
        rw [heq, List.cons_append] at hc
        cases hc
        have hmark := hplaceholder.not_isMark c (heq ▸ List.mem_cons_self)
        exact (Bool.or_eq_false_iff.mp hmark).1

/-- Whether a text is settled is decided before a value in it, where it has
more than spaces before the value. -/
theorem Settled.of_front (hstays : ∀ value, stays value → Placeholder value)
    {front tail other : List Char} (hsettled : Settled plain stays (front ++ tail))
    (hfront : ¬ Spaces front) (hmark : ∀ c ∈ front.getLast?, isMark c = true) :
    Settled plain stays (front ++ other) := by
  cases hsettled with
  | bare spaces rest htext hspaces hrest =>
      cases List.append_eq_append_iff.mp htext with
      | inl hshort =>
          obtain ⟨between, rfl, -⟩ := hshort
          exact absurd (fun c hc => (hspaces c (List.mem_append_left _ hc)).1) hfront
      | inr hlong =>
          obtain ⟨between, rfl, rfl⟩ := hlong
          cases between with
          | nil => exact absurd (fun c hc => (hspaces c (List.append_nil spaces ▸ hc)).1) hfront
          | cons c between =>
              exact .bare spaces (c :: (between ++ other)) (by simp) hspaces hrest
  | marked spaces value rest htext hspaces hvalue hrest =>
      have hplaceholder := hstays _ hvalue
      cases List.append_eq_append_iff.mp htext with
      | inl hshort =>
          obtain ⟨between, rfl, -⟩ := hshort
          exact absurd (fun c hc => hspaces c (List.mem_append_left _ hc)) hfront
      | inr hlong =>
          obtain ⟨between, rfl, hsplit⟩ := hlong
          cases between with
          | nil => exact absurd (fun c hc => hspaces c (List.append_nil spaces ▸ hc)) hfront
          | cons c between =>
              -- the front does not end within the placeholder
              have hoverlap : ∀ right, value ≠ (c :: between) ++ right := by
                rintro right rfl
                have hlast := List.getLast?_eq_some_getLast (List.cons_ne_nil c between)
                have hm := hmark _ (by rw [List.getLast?_append, hlast]; rfl)
                rw [hplaceholder.not_isMark _
                  (List.mem_append_left _ (List.mem_of_getLast? hlast))] at hm
                cases hm
              cases List.append_eq_append_iff.mp hsplit with
              | inl hlater =>
                  obtain ⟨more, hmore, rfl⟩ := hlater
                  cases more with
                  | nil => exact absurd (by rw [hmore]; simp) (hoverlap [])
                  | cons d more =>
                      refine .marked spaces value (d :: (more ++ other)) ?_ hspaces hvalue ?_
                      · rw [hmore]; simp
                      · intro hbare e he
                        cases he
                        exact hrest hbare d rfl
              | inr hearlier =>
                  obtain ⟨more, hmore, -⟩ := hearlier
                  exact absurd hmore (hoverlap more)

end

/-! ## The passes -/

/-- The text before a value that is found: `solid`, a separator or a space,
and spaces. -/
structure Front (front solid : List Char) (mark : Char) (after : List Char) : Prop where
  split : front = solid ++ mark :: after
  isMark : isMark mark = true
  spaces : Spaces after

theorem Front.last {front solid after : List Char} {mark : Char}
    (hfront : Front front solid mark after) : ∀ c ∈ front.getLast?, Redaction.isMark c = true := by
  intro c hc
  rw [hfront.split, List.getLast?_append, List.getLast?_cons] at hc
  cases hlast : after.getLast? with
  | none =>
      rw [hlast] at hc
      cases hc
      exact hfront.isMark
  | some d =>
      rw [hlast] at hc
      cases hc
      exact isMark_of_isSpace (hfront.spaces d (List.mem_of_getLast? hlast))

theorem authorizationFinder_eq_some {before : Option Char} {matched replacement rest : List Char}
    (hfind : authorizationFinder before (matched ++ rest) = some (matched, replacement)) :
    ∃ heading key mark after value front, AuthorizationHeading heading key ∧
      isSeparator mark = true ∧ Front front heading mark after ∧ matched = front ++ value ∧
      replacement = front ++ blank value ∧ valueAt isHeader (value ++ rest) = some (value, rest) := by
  obtain ⟨found, hfound, hpair⟩ := Option.map_eq_some_iff.mp hfind
  cases hpair
  obtain ⟨heading, mark, after, rest', tail, htext, hheading, hmark, hrun, hleading⟩ :=
    firstMatch_authorizationValue.mp hfound
  obtain ⟨middle, rfl, hspaces, hvalue⟩ := afterRun_append hrun
  obtain ⟨rfl, -⟩ := valueAt_append hvalue
  have hrest : rest = rest' := by
    rw [Assignment.whole, hleading] at htext
    simpa using htext
  subst hrest
  refine ⟨heading, found.key, mark, after, found.value, found.leading, hheading, hmark,
    ⟨hleading, isMark_of_isSeparator hmark, hspaces⟩, rfl, redactedAssignment_eq found, hvalue⟩

theorem bearerFinder_eq_some {unicode : Unicode} {before : Option Char}
    {matched replacement rest : List Char}
    (hfind : bearerFinder unicode before (matched ++ rest) = some (matched, replacement)) :
    ∃ key mark after value front, Spelled bearer key ∧ isSpace mark = true ∧
      Front front key mark after ∧ matched = front ++ value ∧ replacement = front ++ redacted ∧
      runAt isToken (value ++ rest) = some (value, rest) := by
  rw [bearerFinder] at hfind
  split at hfind
  · obtain ⟨found, hfound, hpair⟩ := Option.map_eq_some_iff.mp hfind
    cases hpair
    obtain ⟨mark, after, rest', tail, htext, hspelled, hmark, hrun, hleading⟩ :=
      firstMatch_bearerValue.mp hfound
    obtain ⟨middle, rfl, hspaces, hvalue⟩ := afterRun_append hrun
    obtain ⟨rfl, -⟩ := runAt_append hvalue
    have hrest : rest = rest' := by
      rw [Assignment.whole, hleading] at htext
      simpa using htext
    subst hrest
    exact ⟨found.key, mark, after, found.value, found.leading, hspelled, hmark,
      ⟨hleading, isMark_of_isSpace hmark, hspaces⟩, rfl, rfl, hvalue⟩
  · cases hfind

theorem keyValueFinder_eq_some {unicode : Unicode} {before : Option Char}
    {matched replacement rest : List Char}
    (hfind : keyValueFinder unicode before (matched ++ rest) = some (matched, replacement)) :
    ∃ heading key mark after value front, KeyHeading heading key ∧ isSeparator mark = true ∧
      Front front heading mark after ∧ matched = front ++ value ∧
      (replacement = if isSensitiveKey unicode key then front ++ blank value else front ++ value) ∧
      valueAt isPlain (value ++ rest) = some (value, rest) := by
  obtain ⟨found, hfound, hpair⟩ := Option.map_eq_some_iff.mp hfind
  cases hpair
  obtain ⟨heading, mark, after, rest', tail, htext, hheading, hmark, hrun, hleading⟩ :=
    firstMatch_keyValue.mp hfound
  obtain ⟨middle, rfl, hspaces, hvalue⟩ := afterRun_append hrun
  obtain ⟨rfl, -⟩ := valueAt_append hvalue
  have hrest : rest = rest' := by
    rw [Assignment.whole, hleading] at htext
    simpa using htext
  subst hrest
  refine ⟨heading, found.key, mark, after, found.value, found.leading, hheading, hmark,
    ⟨hleading, isMark_of_isSeparator hmark, hspaces⟩, rfl, ?_, hvalue⟩
  rw [redactKeyValue, redactedAssignment_eq]
  rfl

end AlgorithmHarness.Redaction
