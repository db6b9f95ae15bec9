import AlgorithmHarness.Redaction.Settled
import Mathlib.Data.List.Infix

/-!
# Headers and tokens in a redacted text

No pass brings back what a pass before it has settled.  Each of the five pairs of
a pass and a later one is the same argument along the scan: an anchor of the new
text stands in front of the replaced value or behind it.
-/

namespace AlgorithmHarness.Redaction

open Pattern Substitution

/-! ## Anchors of the two patterns -/

/-- What an authorization header has before its value, from its first letter on. -/
structure AuthorizationAnchor (anchor : List Char) (mark : Char) : Prop where
  shape : ∃ key closing before, anchor = key ++ (closing ++ before) ∧
    Spelled authorization key ∧ QuoteMark closing ∧ Spaces before
  mark : isSeparator mark = true

/-- `bearer` at the boundary of a word, and a space. -/
structure BearerAnchor (unicode : Unicode) (first anchor : List Char) (mark : Char) : Prop where
  key : Spelled bearer anchor
  mark : isSpace mark = true
  boundary : wordBoundary unicode first.getLast? anchor = true

theorem letters_of_authorization {key : List Char} (hkey : Spelled authorization key) :
    ∀ c ∈ key, Letter c :=
  letters_of_spelled (fun _ hletter => List.mem_append_left _ hletter) hkey

theorem letters_of_bearer {key : List Char} (hkey : Spelled bearer key) : ∀ c ∈ key, Letter c :=
  letters_of_spelled (fun _ hletter => List.mem_append_right _ hletter) hkey

theorem exists_last_of_spelled {letters key : List Char} (hkey : Spelled letters key)
    (hne : letters ≠ []) : ∃ init c, key = init ++ [c] := by
  have hlength := hkey.length_eq
  cases key using List.reverseRecOn with
  | nil => exact absurd (List.length_eq_zero_iff.mp hlength) hne
  | append_singleton init c => exact ⟨init, c, rfl⟩

/-- The text may be continued to one of the two words. -/
def beginsWord : List Char → Bool
  | [] => false
  | [c] => sameIgnoringCase 'b' c || sameIgnoringCase 'a' c
  | c :: d :: _ => sameIgnoringCase 'b' c || (sameIgnoringCase 'a' c && sameIgnoringCase 'u' d)

theorem beginsWord_append {right rest more : List Char} {c d : Char} (hne : right ≠ [])
    (heq : right ++ rest = c :: d :: more)
    (hword : sameIgnoringCase 'b' c = true ∨
      (sameIgnoringCase 'a' c = true ∧ sameIgnoringCase 'u' d = true)) :
    beginsWord right = true := by
  cases right with
  | nil => exact absurd rfl hne
  | cons e right =>
      rw [List.cons_append] at heq
      obtain ⟨rfl, hmore⟩ := List.cons.inj heq
      cases right with
      | nil =>
          rw [beginsWord, Bool.or_eq_true]
          exact hword.imp_right And.left
      | cons f right =>
          rw [List.cons_append] at hmore
          obtain ⟨rfl, -⟩ := List.cons.inj hmore
          rw [beginsWord, Bool.or_eq_true, Bool.and_eq_true]
          exact hword

/-- Neither of the two words begins within a placeholder. -/
theorem not_beginsWord {value left right : List Char} (hvalue : Placeholder value)
    (hsplit : value = left ++ right) : beginsWord right = false := by
  have hall : ([redacted, '"' :: (redacted ++ ['"']), '\'' :: (redacted ++ ['\''])].all
      fun value => value.tails.all fun right => !beginsWord right) = true := by decide
  have hright := List.all_eq_true.mp (List.all_eq_true.mp hall value hvalue.mem) right
    ((List.mem_tails _ _).mpr ⟨left, hsplit.symm⟩)
  exact Bool.not_eq_true' _ ▸ hright

theorem QuoteMark.not_isMark {mark : List Char} (hmark : QuoteMark mark) :
    ∀ c ∈ mark, isMark c = false := by
  rcases hmark with rfl | ⟨q, hq, rfl⟩
  · exact List.forall_mem_nil _
  · exact List.forall_mem_singleton.mpr (not_isMark_of_isQuote hq)

theorem AuthorizationAnchor.anchor {anchor : List Char} {mark : Char}
    (hanchor : AuthorizationAnchor anchor mark) : Anchor anchor mark := by
  obtain ⟨key, closing, before, rfl, hkey, hclosing, hbefore⟩ := hanchor.shape
  have hletters := letters_of_authorization hkey
  refine ⟨⟨key ++ closing, before, (List.append_assoc _ _ _).symm, ?_, ?_⟩, ?_⟩
  · intro c hc
    rcases List.mem_append.mp hc with hkey | hquote
    · exact (hletters c hkey).not_isMark
    · exact hclosing.not_isMark c hquote
  · intro c hc
    rcases List.mem_append.mp hc with hspace | hlast
    · exact isMark_of_isSpace (hbefore c hspace)
    · rw [List.mem_singleton.mp hlast]
      exact isMark_of_isSeparator hanchor.mark
  · intro value left right rest tail hvalue hsplit hne heq
    cases hkey with
    | cons ha hkey =>
        cases hkey with
        | cons hu hkey =>
            have hbegins := beginsWord_append hne heq (.inr ⟨ha, hu⟩)
            cases hbegins.symm.trans (not_beginsWord hvalue hsplit)

theorem BearerAnchor.anchor {unicode : Unicode} {first anchor : List Char} {mark : Char}
    (hanchor : BearerAnchor unicode first anchor mark) : Anchor anchor mark := by
  refine ⟨⟨anchor, [], (List.append_nil _).symm, ?_, ?_⟩, ?_⟩
  · exact fun c hc => (letters_of_bearer hanchor.key c hc).not_isMark
  · exact List.forall_mem_singleton.mpr (isMark_of_isSpace hanchor.mark)
  · intro value left right rest tail hvalue hsplit hne heq
    cases hanchor.key with
    | cons hb hkey =>
        cases hkey with
        | cons he hkey =>
            have hbegins := beginsWord_append hne heq (.inl hb)
            cases hbegins.symm.trans (not_beginsWord hvalue hsplit)

/-! ## One replacement -/

/-- Behind every anchor of the text there is no value, or one that stays. -/
def AllSettled (anchored : List Char → List Char → Char → Prop) (plain : Char → Bool)
    (stays : List Char → Prop) (text : List Char) : Prop :=
  ∀ first anchor mark tail, text = first ++ (anchor ++ mark :: tail) → anchored first anchor mark →
    Settled plain stays tail

/-- The last character that is no space, and the spaces behind it. -/
theorem solid_unique {first second spaces others : List Char} {c d : Char}
    (heq : first ++ c :: spaces = second ++ d :: others) (hc : isSpace c = false)
    (hd : isSpace d = false) (hspaces : Spaces spaces) (hothers : Spaces others) :
    c = d ∧ spaces = others := by
  cases List.append_eq_append_iff.mp heq with
  | inl hlonger =>
      obtain ⟨between, -, hrest⟩ := hlonger
      cases between with
      | nil => exact List.cons.inj hrest
      | cons e between =>
          have hspace := hspaces d ((List.cons.inj hrest).2 ▸ by simp)
          cases hspace.symm.trans hd
  | inr hshorter =>
      obtain ⟨between, -, hrest⟩ := hshorter
      cases between with
      | nil => exact ⟨(List.cons.inj hrest).1.symm, (List.cons.inj hrest).2.symm⟩
      | cons e between =>
          have hspace := hothers c ((List.cons.inj hrest).2 ▸ by simp)
          cases hspace.symm.trans hc

section

variable {anchored : List Char → List Char → Char → Prop} {plain : Char → Bool}
  {stays : List Char → Prop}

/-- A value gives way to a placeholder: an anchor right in front of it or behind it is the
caller's concern, and what an earlier anchor has is decided before the value. -/
theorem AllSettled.replace (hanchor : ∀ first anchor mark, anchored first anchor mark →
      Anchor anchor mark) (hstays : ∀ value, stays value → Placeholder value)
    {written front value placeholder text : List Char} (hne : front ≠ [])
    (hfront : ∀ c ∈ front.getLast?, isMark c = true) (hplaceholder : Placeholder placeholder)
    (hold : AllSettled anchored plain stays (written ++ (front ++ value ++ text)))
    (hspaces : ∀ first anchor mark between,
      written ++ front = first ++ (anchor ++ mark :: between) → anchored first anchor mark → Spaces between →
      Settled plain stays (between ++ (placeholder ++ text)))
    (hlater : ∀ later anchor mark tail, text = later ++ (anchor ++ mark :: tail) →
      anchored (written ++ front ++ (placeholder ++ later)) anchor mark →
      anchored (written ++ front ++ (value ++ later)) anchor mark) :
    AllSettled anchored plain stays (written ++ (front ++ placeholder ++ text)) := by
  intro first anchor mark tail htext hanchored
  have hwritten : ∀ c ∈ (written ++ front).getLast?, isMark c = true := by
    intro c hc
    rw [List.getLast?_append_of_ne_nil _ hne] at hc
    exact hfront c hc
  have hsplit : (written ++ front) ++ (placeholder ++ text) =
      first ++ (anchor ++ mark :: tail) := by
    rw [← htext]
    simp only [List.append_assoc]
  rcases (hanchor first anchor mark hanchored).locate hwritten hplaceholder hsplit with
    ⟨between, hbefore, rfl⟩ | ⟨later, rfl, rfl⟩
  · by_cases hblank : Spaces between
    · exact hspaces first anchor mark between hbefore hanchored hblank
    · have hearlier := hold first anchor mark (between ++ (value ++ text)) ?_ hanchored
      · refine hearlier.of_front hstays hblank ?_
        intro c hc
        apply hwritten c
        have hbetween : between ≠ [] := by
          rintro rfl
          exact hblank (List.forall_mem_nil _)
        rw [hbefore, ← List.append_assoc, List.getLast?_append_of_ne_nil _ (List.cons_ne_nil _ _),
          ← List.singleton_append, List.getLast?_append_of_ne_nil _ hbetween]
        exact hc
      · rw [List.append_assoc, ← List.append_assoc written, hbefore]
        simp
  · refine hold (written ++ front ++ (value ++ later)) anchor mark tail (by simp) ?_
    exact hlater later anchor mark tail rfl hanchored

theorem AllSettled.mono {weaker : List Char → List Char → Char → Prop} {text : List Char}
    (hsettled : AllSettled anchored plain stays text)
    (hweaker : ∀ first anchor mark tail, text = first ++ (anchor ++ mark :: tail) →
      weaker first anchor mark → anchored first anchor mark) :
    AllSettled weaker plain stays text :=
  fun first anchor mark tail htext hanchored =>
    hsettled first anchor mark tail htext (hweaker first anchor mark tail htext hanchored)

end

/-! ## A pass settles its own values -/

/-- What a pass finds and puts in its place: `front` stays and `placeholder` stands for `value`. -/
structure Replacement (plain : Char → Bool) (heading front value placeholder rest : List Char) :
    Prop where
  split : ∃ mark after, Front front heading mark after
  nonempty : value ≠ []
  reads : Placeholder placeholder
  stops : placeholder = redacted → StopsAt plain rest
  /-- What follows does not see that the value has changed. -/
  seam : value.getLast? = placeholder.getLast? ∨ ∀ c ∈ rest.head?, ¬ Letter c

theorem Replacement.front_ne_nil {plain : Char → Bool}
    {heading front value placeholder rest : List Char}
    (hreplacement : Replacement plain heading front value placeholder rest) : front ≠ [] := by
  obtain ⟨mark, after, hfront⟩ := hreplacement.split
  rw [hfront.split]
  exact List.append_ne_nil_of_right_ne_nil _ (List.cons_ne_nil _ _)

/-- Behind the mark of an anchor within `front` come only spaces. -/
theorem spaces_of_front {first heading between after : List Char} {mark other : Char}
    (heq : first ++ mark :: between = heading ++ other :: after) (hmark : mark ∉ heading)
    (hafter : Spaces after) : Spaces between := by
  cases List.append_eq_append_iff.mp heq with
  | inl hlonger =>
      obtain ⟨more, rfl, hrest⟩ := hlonger
      cases more with
      | nil =>
          rw [(List.cons.inj hrest).2]
          exact hafter
      | cons c more =>
          rw [(List.cons.inj hrest).1] at hmark
          exact absurd (by simp) hmark
  | inr hshorter =>
      obtain ⟨more, rfl, hrest⟩ := hshorter
      cases more with
      | nil =>
          rw [← (List.cons.inj hrest).2]
          exact hafter
      | cons c more =>
          intro d hd
          apply hafter d
          rw [(List.cons.inj hrest).2]
          exact List.mem_append_right _ (List.mem_cons_of_mem _ hd)

section

variable {anchored : List Char → List Char → Char → Prop} {plain : Char → Bool}
  {stays : List Char → Prop} {find : Finder}

/-- Before a scan comes to a position, the anchors up to there are settled. -/
def ScannedTo (anchored : List Char → List Char → Char → Prop) (plain : Char → Bool)
    (stays : List Char → Prop) (before : Option Char) (written text : List Char) : Prop :=
  (before = written.getLast? ∨ ∀ c ∈ text.head?, ¬ Letter c) ∧
    AllSettled (fun first anchor mark => anchored first anchor mark ∧ first.length < written.length)
      plain stays (written ++ text)

theorem ScannedTo.keep
    (hletter : ∀ first anchor mark, anchored first anchor mark → ∃ c ∈ anchor.head?, Letter c)
    (hnone : ∀ first anchor mark tail, find first.getLast? (anchor ++ mark :: tail) = none →
      anchored first anchor mark → Settled plain stays tail)
    {before : Option Char} {written text : List Char} {c : Char}
    (hfind : find before (c :: text) = none)
    (hscanned : ScannedTo anchored plain stays before written (c :: text)) :
    ScannedTo anchored plain stays (some c) (written ++ [c]) text := by
  refine ⟨.inl (List.getLast?_concat).symm, ?_⟩
  rintro first anchor mark tail htext ⟨hanchored, hlength⟩
  rw [List.append_assoc, List.singleton_append] at htext
  by_cases hearlier : first.length < written.length
  · exact hscanned.2 first anchor mark tail htext ⟨hanchored, hearlier⟩
  · rw [List.length_append, List.length_singleton] at hlength
    obtain ⟨rfl, hhere⟩ := List.append_inj htext (by omega)
    rcases hscanned.1 with rfl | hseam
    · rw [hhere] at hfind
      exact hnone written anchor mark tail hfind hanchored
    · obtain ⟨d, hd, hdletter⟩ := hletter written anchor mark hanchored
      obtain ⟨more, rfl⟩ := List.head?_eq_some_iff.mp hd
      obtain ⟨rfl, -⟩ := List.cons.inj hhere
      exact absurd hdletter (hseam c rfl)

theorem ScannedTo.replace (hanchor : ∀ first anchor mark, anchored first anchor mark →
      Anchor anchor mark) (hstays : ∀ value, stays value → Placeholder value)
    {before : Option Char} {written heading front value placeholder text : List Char}
    (hreplacement : Replacement plain heading front value placeholder text)
    (hstay : stays placeholder)
    (hmark : ∀ first anchor mark, anchored first anchor mark → mark ∉ heading)
    (hscanned : ScannedTo anchored plain stays before written (front ++ value ++ text)) :
    ScannedTo anchored plain stays (front ++ value).getLast? (written ++ (front ++ placeholder))
      text := by
  obtain ⟨mark, after, hfront⟩ := hreplacement.split
  have hplaceholder := hreplacement.reads
  have hbehind : ∀ between, Spaces between →
      Settled plain stays (between ++ (placeholder ++ text)) := fun between hspaces =>
    .marked between placeholder text rfl hspaces hstay hreplacement.stops
  refine ⟨?_, ?_⟩
  · rw [List.getLast?_append_of_ne_nil _ hreplacement.nonempty, ← List.append_assoc,
      List.getLast?_append_of_ne_nil _ hplaceholder.ne_nil]
    exact hreplacement.seam
  · have hearlier := hscanned.2.replace (fun first anchor mark hanchored =>
      hanchor first anchor mark hanchored.1) hstays hreplacement.front_ne_nil hfront.last
      hplaceholder (fun _ _ _ between _ _ hspaces => hbehind between hspaces) ?_
    · rintro first anchor own tail htext ⟨hanchored, hlength⟩
      rw [List.append_assoc] at htext
      by_cases hfirst : first.length < written.length
      · exact hearlier first anchor own tail htext ⟨hanchored, hfirst⟩
      · have hsplit : (written ++ front) ++ (placeholder ++ text) =
            first ++ (anchor ++ own :: tail) := by
          rw [← htext]
          simp only [List.append_assoc]
        have hwritten : ∀ c ∈ (written ++ front).getLast?, isMark c = true := by
          intro c hc
          rw [List.getLast?_append_of_ne_nil _ hreplacement.front_ne_nil] at hc
          exact hfront.last c hc
        rcases (hanchor first anchor own hanchored).locate hwritten hplaceholder hsplit with
          ⟨between, hbefore, rfl⟩ | ⟨later, rfl, -⟩
        · obtain ⟨more, rfl⟩ : written <+: first :=
            List.prefix_of_prefix_length_le ⟨front, rfl⟩ ⟨_, hbefore.symm⟩ (Nat.not_lt.mp hfirst)
          rw [List.append_assoc] at hbefore
          have hwithin := List.append_cancel_left hbefore
          rw [hfront.split, ← List.append_assoc] at hwithin
          exact hbehind between
            (spaces_of_front hwithin.symm (hmark _ anchor own hanchored) hfront.spaces)
        · simp only [List.length_append] at hlength
          omega
    · rintro later anchor own tail - ⟨-, hlength⟩
      simp only [List.length_append] at hlength
      omega

/-- A pass leaves every anchor of its own settled. -/
theorem sub_settles (hlawful : Lawful find) (hanchor : ∀ first anchor mark,
      anchored first anchor mark → Anchor anchor mark)
    (hstays : ∀ value, stays value → Placeholder value)
    (hletter : ∀ first anchor mark, anchored first anchor mark → ∃ c ∈ anchor.head?, Letter c)
    (hnone : ∀ first anchor mark tail, find first.getLast? (anchor ++ mark :: tail) = none →
      anchored first anchor mark → Settled plain stays tail)
    (hreplace : ∀ before matched replacement text,
      find before (matched ++ text) = some (matched, replacement) →
      ∃ heading front value placeholder, matched = front ++ value ∧
        replacement = front ++ placeholder ∧
        Replacement plain heading front value placeholder text ∧ stays placeholder ∧
        ∀ first anchor mark, anchored first anchor mark → mark ∉ heading)
    (text : List Char) : AllSettled anchored plain stays (sub find text) := by
  have hstart : ScannedTo anchored plain stays none [] text :=
    ⟨.inl rfl, fun _ _ _ _ _ hanchored => absurd hanchored.2 (Nat.not_lt_zero _)⟩
  obtain ⟨last, -, hsettled⟩ := (rewrites_substitute hlawful none text).invariant
    (fun _ _ _ _ hfind hscanned => hscanned.keep hletter hnone hfind)
    (fun before written matched replacement text hfind hscanned => by
      obtain ⟨heading, front, value, placeholder, rfl, rfl, hreplacement, hstay, hmark⟩ :=
        hreplace before matched replacement text hfind
      exact hscanned.replace hanchor hstays hreplacement hstay hmark) hstart
  rw [List.append_nil, List.nil_append] at hsettled
  refine hsettled.mono ?_
  rintro first anchor mark tail htext hanchored
  refine ⟨hanchored, ?_⟩
  have hlength := congrArg List.length htext
  simp only [List.length_append, List.length_cons] at hlength
  change first.length < (sub find text).length
  rw [sub, hlength]
  omega

end

/-! ## The passes on their own anchors -/

theorem authorizationFinder_lawful : Lawful authorizationFinder := by
  intro before text matched replacement hfind
  obtain ⟨found, hfound, hpair⟩ := Option.map_eq_some_iff.mp hfind
  cases hpair
  obtain ⟨heading, mark, after, rest, tail, rfl, -, -, hrun, hleading⟩ :=
    firstMatch_authorizationValue.mp hfound
  obtain ⟨middle, rfl, -, hvalue⟩ := afterRun_append hrun
  obtain ⟨rfl, -⟩ := valueAt_append hvalue
  rw [redactedAssignment_eq, Assignment.whole, hleading]
  exact ⟨by simp, by simp, rest, by simp⟩

theorem bearerFinder_lawful (unicode : Unicode) : Lawful (bearerFinder unicode) := by
  intro before text matched replacement hfind
  rw [bearerFinder] at hfind
  split at hfind
  · obtain ⟨found, hfound, hpair⟩ := Option.map_eq_some_iff.mp hfind
    cases hpair
    obtain ⟨mark, after, rest, tail, rfl, -, -, hrun, hleading⟩ :=
      firstMatch_bearerValue.mp hfound
    obtain ⟨middle, rfl, -, hvalue⟩ := afterRun_append hrun
    obtain ⟨rfl, -⟩ := runAt_append hvalue
    rw [Assignment.whole, hleading]
    exact ⟨by simp, by simp, rest, by simp⟩
  · cases hfind

theorem keyValueFinder_lawful (unicode : Unicode) : Lawful (keyValueFinder unicode) := by
  intro before text matched replacement hfind
  obtain ⟨found, hfound, hpair⟩ := Option.map_eq_some_iff.mp hfind
  cases hpair
  obtain ⟨heading, mark, after, rest, tail, rfl, -, -, hrun, hleading⟩ :=
    firstMatch_keyValue.mp hfound
  obtain ⟨middle, rfl, -, hvalue⟩ := afterRun_append hrun
  obtain ⟨rfl, -⟩ := valueAt_append hvalue
  refine ⟨by rw [Assignment.whole, hleading]; simp, ?_, rest,
    by rw [Assignment.whole, hleading]; simp⟩
  rw [redactKeyValue, redactedAssignment_eq, Assignment.whole, hleading]
  split_ifs <;> simp

theorem AuthorizationHeading.not_isSeparator {heading key : List Char}
    (hheading : AuthorizationHeading heading key) : ∀ c ∈ heading, isSeparator c = false := by
  obtain ⟨opening, closing, before, rfl, hopening, hclosing, hbefore, hkey⟩ := hheading.shape
  intro c hc
  simp only [List.mem_append] at hc
  rcases hc with ((hquote | hletter) | hquote) | hspace
  · exact (Bool.or_eq_false_iff.mp (hopening.not_isMark c hquote)).2
  · exact (letters_of_authorization hkey c hletter).not_isSeparator
  · exact (Bool.or_eq_false_iff.mp (hclosing.not_isMark c hquote)).2
  · by_contra hseparator
    have hother := not_isSpace_of_isSeparator (eq_true_of_ne_false hseparator)
    cases hother.symm.trans (hbefore c hspace)

/-- The value that is found and the placeholder end alike, or no letter follows. -/
theorem seam_of_blank {plain : Char → Bool} (hplain : ∀ c, Letter c → plain c = true)
    {text value rest : List Char} (hvalue : valueAt plain text = some (value, rest)) :
    value.getLast? = (blank value).getLast? ∨ ∀ c ∈ rest.head?, ¬ Letter c := by
  rcases (valueAt_append hvalue).2 with ⟨q, inner, hq, rfl⟩ | ⟨-, -, hstops⟩
  · left
    rw [blank_quoted hq, ← List.cons_append, ← List.cons_append, List.getLast?_concat,
      List.getLast?_concat]
  · right
    intro c hc hletter
    cases (hplain c hletter).symm.trans (hstops c hc)

theorem valueAt_ne_nil {plain : Char → Bool} {text value rest : List Char}
    (hvalue : valueAt plain text = some (value, rest)) : value ≠ [] := by
  rcases (valueAt_append hvalue).2 with ⟨q, inner, -, rfl⟩ | ⟨hne, -⟩
  · exact List.cons_ne_nil _ _
  · exact hne

theorem isHeader_of_isQuote {c : Char} (hc : isQuote c = true) : isHeader c = true := by
  rcases isQuote_iff.mp hc with rfl | rfl <;> rfl

theorem Letter.isHeader {c : Char} (hc : Letter c) : isHeader c = true := by
  rw [Redaction.isHeader, Bool.not_eq_true']
  by_contra hother
  have hstop := eq_true_of_ne_false hother
  simp only [Bool.or_eq_true, decide_eq_true_eq] at hstop
  rcases hstop with (rfl | rfl) | rfl <;> revert hc <;> decide

theorem Letter.isToken {c : Char} (hc : Letter c) : isToken c = true := by
  rw [Redaction.isToken, Bool.not_eq_true', hc.not_isSpace]
  by_contra hother
  have hstop := eq_true_of_ne_false hother
  simp only [Bool.or_eq_true, decide_eq_true_eq, Bool.false_eq_true, false_or] at hstop
  rcases hstop with rfl | rfl <;> revert hc <;> decide

theorem Letter.isPlain {c : Char} (hc : Letter c) : isPlain c = true := by
  rw [Redaction.isPlain, Bool.not_eq_true', hc.not_isSpace]
  by_contra hother
  have hstop := eq_true_of_ne_false hother
  simp only [Bool.or_eq_true, decide_eq_true_eq, Bool.false_eq_true, false_or] at hstop
  rcases hstop with ((rfl | rfl) | rfl) | rfl <;> revert hc <;> decide

/-- A text whose authorization headers read `[REDACTED]`. -/
def HeadersSettled (text : List Char) : Prop :=
  AllSettled (fun _ anchor mark => AuthorizationAnchor anchor mark) isHeader Placeholder text

/-- A text whose bearer tokens read `[REDACTED]`. -/
def TokensSettled (unicode : Unicode) (text : List Char) : Prop :=
  AllSettled (BearerAnchor unicode) isToken (· = redacted) text

theorem AuthorizationAnchor.heading {anchor : List Char} {mark : Char}
    (hanchor : AuthorizationAnchor anchor mark) : ∃ key, AuthorizationHeading anchor key := by
  obtain ⟨key, closing, before, rfl, hkey, hclosing, hbefore⟩ := hanchor.shape
  exact ⟨key, [], closing, before, by simp, .inl rfl, hclosing, hbefore, hkey⟩

theorem headersSettled_sub (text : List Char) : HeadersSettled (sub authorizationFinder text) := by
  refine sub_settles authorizationFinder_lawful (fun _ _ _ => AuthorizationAnchor.anchor)
    (fun _ => id) ?_ ?_ ?_ text
  · intro first anchor mark hanchor
    obtain ⟨key, closing, before, rfl, hkey, -, -⟩ := hanchor.shape
    have hletters := letters_of_authorization hkey
    cases hkey with
    | cons ha hkey => exact ⟨_, rfl, hletters _ List.mem_cons_self⟩
  · intro first anchor mark tail hfind hanchor
    obtain ⟨key, hheading⟩ := hanchor.heading
    have hhead := head?_authorizationValue hheading hanchor.mark tail
    rw [Option.map_eq_none_iff.mp (Option.map_eq_none_iff.mp hfind)] at hhead
    exact settled_of_none (fun _ => (valueAt_eq_none fun _ => isHeader_of_isQuote).mp)
      (Option.map_eq_none_iff.mp hhead.symm)
  · intro before matched replacement rest hfind
    obtain ⟨heading, key, mark, after, value, front, hheading, -, hfront, rfl, rfl, hvalue⟩ :=
      authorizationFinder_eq_some hfind
    refine ⟨heading, front, value, blank value, rfl, rfl,
      ⟨⟨mark, after, hfront⟩, valueAt_ne_nil hvalue, placeholder_blank value,
        stopsAt_of_blank hvalue, seam_of_blank (fun _ => Letter.isHeader) hvalue⟩,
      placeholder_blank value, ?_⟩
    intro first anchor own hanchor hmem
    cases hanchor.mark.symm.trans (hheading.not_isSeparator own hmem)

theorem tokensSettled_sub (unicode : Unicode) (text : List Char) :
    TokensSettled unicode (sub (bearerFinder unicode) text) := by
  refine sub_settles (bearerFinder_lawful unicode) (fun _ _ _ => BearerAnchor.anchor)
    (fun _ hbare => .inl hbare) ?_ ?_ ?_ text
  · intro first anchor mark hanchor
    have hletters := letters_of_bearer hanchor.key
    cases hanchor.key with
    | cons hb hkey => exact ⟨_, rfl, hletters _ List.mem_cons_self⟩
  · intro first anchor mark tail hfind hanchor
    have hboundary : wordBoundary unicode first.getLast? (anchor ++ mark :: tail) = true := by
      have hboundary := hanchor.boundary
      cases hanchor.key with
      | cons hb hkey => exact hboundary
    rw [bearerFinder, if_pos hboundary] at hfind
    have hnone := Option.map_eq_none_iff.mp hfind
    refine settled_of_none (fun _ => runAt_eq_none.mp) ?_
    rw [Option.eq_none_iff_forall_ne_some]
    rintro ⟨after, value, rest⟩ hrun
    have hmatch : firstMatch bearerValue (anchor ++ mark :: tail) =
        some { leading := anchor ++ mark :: after, key := anchor, value } :=
      firstMatch_bearerValue.mpr
        ⟨mark, after, rest, tail, rfl, hanchor.key, hanchor.mark, hrun, rfl⟩
    cases hnone.symm.trans hmatch
  · intro before matched replacement rest hfind
    obtain ⟨key, mark, after, value, front, hkey, -, hfront, rfl, rfl, hvalue⟩ :=
      bearerFinder_eq_some hfind
    obtain ⟨-, hne, -, hstops⟩ := runAt_append hvalue
    refine ⟨key, front, value, redacted, rfl, rfl,
      ⟨⟨mark, after, hfront⟩, hne, .inl rfl, fun _ => hstops, .inr ?_⟩, rfl, ?_⟩
    · intro c hc hletter
      cases hletter.isToken.symm.trans (hstops c hc)
    · intro first anchor own hanchor hmem
      cases hanchor.mark.symm.trans (letters_of_bearer hkey own hmem).not_isSpace

/-! ## The passes on what is settled before them -/

theorem AllSettled.sub {anchored : List Char → List Char → Char → Prop} {plain : Char → Bool}
    {stays : List Char → Prop} {find : Finder} (hlawful : Lawful find)
    (hreplace : ∀ before written matched replacement text,
      find before (matched ++ text) = some (matched, replacement) →
      AllSettled anchored plain stays (written ++ (matched ++ text)) →
      AllSettled anchored plain stays (written ++ (replacement ++ text)))
    {text : List Char} (hsettled : AllSettled anchored plain stays text) :
    AllSettled anchored plain stays (sub find text) := by
  have hstart : AllSettled anchored plain stays ([] ++ text) := hsettled
  obtain ⟨last, hlast⟩ := (rewrites_substitute hlawful none text).invariant
    (motive := fun _ written text => AllSettled anchored plain stays (written ++ text))
    (fun before written c text hfind hkept => by rwa [List.append_assoc])
    (fun before written matched replacement text hfind hkept => by
      rw [List.append_assoc]
      exact hreplace before written matched replacement text hfind hkept) hstart
  rwa [List.append_nil] at hlast

theorem mark_of_front {first anchor between solid after : List Char} {mark own : Char}
    {written front : List Char} (hsplit : written ++ front = first ++ (anchor ++ own :: between))
    (hfront : Front front solid mark after) (hmark : isSpace mark = false)
    (hown : isSpace own = false) (hspaces : Spaces between) : mark = own ∧ after = between := by
  rw [hfront.split, ← List.append_assoc, ← List.append_assoc] at hsplit
  exact solid_unique hsplit hmark hown hfront.spaces hspaces

/-- An authorization header gets no new value where a bearer token is replaced. -/
theorem HeadersSettled.bearer (unicode : Unicode) {text : List Char}
    (hsettled : HeadersSettled text) :
    HeadersSettled (Redaction.sub (bearerFinder unicode) text) := by
  refine AllSettled.sub (bearerFinder_lawful unicode) ?_ hsettled
  intro before written matched replacement rest hfind hold
  obtain ⟨key, mark, after, value, front, hkey, hmark, hfront, rfl, rfl, -⟩ :=
    bearerFinder_eq_some hfind
  have hne : front ≠ [] := by
    rw [hfront.split]
    simp
  refine hold.replace (fun _ _ _ => AuthorizationAnchor.anchor) (fun _ => id) hne hfront.last
    (.inl rfl) ?_ (fun _ _ _ _ _ hanchor => hanchor)
  intro first anchor own between hsplit hanchor hspaces
  -- In front of the token the last character that is no space is a letter.
  obtain ⟨init, letter, rfl⟩ := exists_last_of_spelled hkey (by decide)
  have hletter := letters_of_bearer hkey letter (by simp)
  have hafter : Spaces (mark :: after) := List.forall_mem_cons.mpr ⟨hmark, hfront.spaces⟩
  have hshape : (written ++ init) ++ letter :: (mark :: after) =
      (first ++ anchor) ++ own :: between := by
    rw [hfront.split] at hsplit
    simpa using hsplit
  have hown := not_isSpace_of_isSeparator hanchor.mark
  obtain ⟨rfl, -⟩ := solid_unique hshape hletter.not_isSpace hown hafter hspaces
  cases hanchor.mark.symm.trans hletter.not_isSeparator

/-- Where an assignment is redacted, an authorization header in front of the value has the
placeholder already. -/
theorem HeadersSettled.keyValue (unicode : Unicode) {text : List Char}
    (hsettled : HeadersSettled text) :
    HeadersSettled (Redaction.sub (keyValueFinder unicode) text) := by
  have hheader : ∀ text, StopsAt isHeader text → StopsAt isPlain text := by
    intro text hstops c hc
    have hstop := hstops c hc
    rw [isHeader, Bool.not_eq_false', Bool.or_eq_true, Bool.or_eq_true, decide_eq_true_eq,
      decide_eq_true_eq, decide_eq_true_eq] at hstop
    rcases hstop with (rfl | rfl) | rfl <;> rfl
  refine AllSettled.sub (keyValueFinder_lawful unicode) ?_ hsettled
  intro before written matched replacement rest hfind hold
  obtain ⟨heading, key, mark, after, value, front, -, hmark, hfront, rfl, rfl, hvalue⟩ :=
    keyValueFinder_eq_some hfind
  split_ifs
  · have hne : front ≠ [] := by
      rw [hfront.split]
      simp
    refine hold.replace (fun _ _ _ => AuthorizationAnchor.anchor) (fun _ => id) hne hfront.last
      (placeholder_blank value) ?_ (fun _ _ _ _ _ hanchor => hanchor)
    intro first anchor own between hsplit hanchor hspaces
    obtain ⟨rfl, rfl⟩ := mark_of_front hsplit hfront (not_isSpace_of_isSeparator hmark)
      (not_isSpace_of_isSeparator hanchor.mark) hspaces
    have hearlier := hold first anchor mark (after ++ (value ++ rest))
      (by rw [List.append_assoc, ← List.append_assoc written, hsplit]; simp) hanchor
    have hrun : afterRun isSpace (valueAt isPlain) (after ++ (value ++ rest)) =
        some (after, value, rest) := by
      refine afterRun_of hfront.spaces ?_ hvalue
      intro c hc
      by_contra hspace
      have hplain := not_isPlain_of_isSpace (eq_true_of_ne_false hspace)
      have hnone := (valueAt_eq_none fun _ => isPlain_of_isQuote).mpr fun d hd => by
        cases hc.symm.trans hd
        exact hplain
      cases hnone.symm.trans hvalue
    have hplaceholder : Placeholder value := by
      refine hearlier.value (fun text hstops => ?_) (fun value rest hvalue hrest => ?_)
        (fun _ => id) hrun
      · exact (valueAt_eq_none fun _ => isPlain_of_isQuote).mpr (hheader text hstops)
      · exact valueAt_placeholder (List.all_eq_true.mp (by decide)) hvalue
          fun hbare => hheader rest (hrest hbare)
    rw [hplaceholder.blank]
    exact hearlier
  · exact hold

/-- A bearer token gets no new value where an assignment is redacted. -/
theorem TokensSettled.keyValue {unicode : Unicode} {text : List Char}
    (hsettled : TokensSettled unicode text) :
    TokensSettled unicode (Redaction.sub (keyValueFinder unicode) text) := by
  refine AllSettled.sub (keyValueFinder_lawful unicode) ?_ hsettled
  intro before written matched replacement rest hfind hold
  obtain ⟨heading, key, mark, after, value, front, -, hmark, hfront, rfl, rfl, hvalue⟩ :=
    keyValueFinder_eq_some hfind
  split_ifs
  · have hne : front ≠ [] := by
      rw [hfront.split]
      simp
    refine hold.replace (fun _ _ _ => BearerAnchor.anchor) (fun _ hbare => .inl hbare) hne
      hfront.last (placeholder_blank value) ?_ ?_
    · intro first anchor own between hsplit hanchor hspaces
      obtain ⟨init, letter, rfl⟩ := exists_last_of_spelled hanchor.key (by decide)
      have hletter := letters_of_bearer hanchor.key letter (by simp)
      have hbetween : Spaces (own :: between) := List.forall_mem_cons.mpr ⟨hanchor.mark, hspaces⟩
      have hshape : written ++ front = first ++ (init ++ letter :: (own :: between)) := by
        rw [hsplit]
        simp
      obtain ⟨rfl, -⟩ := mark_of_front hshape hfront (not_isSpace_of_isSeparator hmark)
        hletter.not_isSpace hbetween
      cases hmark.symm.trans hletter.not_isSeparator
    · rintro later anchor own tail rfl hanchor
      refine ⟨hanchor.key, hanchor.mark, ?_⟩
      have hboundary := hanchor.boundary
      have hsame : (written ++ front ++ (value ++ later)).getLast? =
          (written ++ front ++ (blank value ++ later)).getLast? := by
        cases later using List.reverseRecOn with
        | append_singleton later c =>
            rw [← List.append_assoc, ← List.append_assoc, List.getLast?_concat,
              ← List.append_assoc, ← List.append_assoc, List.getLast?_concat]
        | nil =>
            rw [List.append_nil, List.append_nil,
              List.getLast?_append_of_ne_nil _ (valueAt_ne_nil hvalue),
              List.getLast?_append_of_ne_nil _ (placeholder_blank value).ne_nil]
            refine (seam_of_blank (fun _ => Letter.isPlain) hvalue).resolve_right fun hseam => ?_
            have hletters := letters_of_bearer hanchor.key
            cases hanchor.key with
            | cons hb hkey => exact hseam _ rfl (hletters _ List.mem_cons_self)
      rwa [hsame]
  · exact hold

/-! ## Redacted texts -/

theorem HeadersSettled.value {first second : List Char}
    (hsettled : HeadersSettled (first ++ second)) {found : Assignment} (hfound : firstMatch authorizationValue second = some found) :
    Placeholder found.value := by
  obtain ⟨heading, mark, after, rest, tail, rfl, hheading, hmark, hrun, -⟩ :=
    firstMatch_authorizationValue.mp hfound
  obtain ⟨opening, closing, before, rfl, -, hclosing, hbefore, hkey⟩ := hheading.shape
  have hbehind := hsettled (first ++ opening) (found.key ++ (closing ++ before)) mark tail (by simp)
    ⟨⟨found.key, closing, before, rfl, hkey, hclosing, hbefore⟩, hmark⟩
  refine hbehind.value (fun text hstops => ?_) (fun value rest hvalue hrest => ?_)
    (fun _ => id) hrun
  · exact (valueAt_eq_none fun _ => isHeader_of_isQuote).mpr hstops
  · exact valueAt_placeholder (List.all_eq_true.mp (by decide)) hvalue hrest

theorem TokensSettled.value {unicode : Unicode} {first second : List Char}
    (hsettled : TokensSettled unicode (first ++ second))
    (hboundary : wordBoundary unicode first.getLast? second = true) {found : Assignment}
    (hfound : firstMatch bearerValue second = some found) : found.value = redacted := by
  obtain ⟨mark, after, rest, tail, rfl, hkey, hmark, hrun, -⟩ := firstMatch_bearerValue.mp hfound
  have hown : wordBoundary unicode first.getLast? found.key = true := by
    cases hshape : found.key with
    | nil =>
        rw [hshape] at hkey
        cases hkey
    | cons c key =>
        rw [hshape] at hboundary
        exact hboundary
  have hbehind := hsettled first found.key mark tail rfl ⟨hkey, hmark, hown⟩
  refine hbehind.value (fun text hstops => runAt_eq_none.mpr hstops)
    (fun value rest hvalue hrest => ?_) (fun _ hbare => .inl hbare) hrun
  rw [hvalue]
  exact runAt_redacted (List.all_eq_true.mp (by decide)) (hrest hvalue)

/-- No authorization header and no bearer token is left in a redacted text with anything but the
placeholder, wherever in the text a match of the two patterns is tried: what a later pass
writes brings none back. -/
theorem redacted_headers_and_tokens {unicode : Unicode} {text first second : List Char}
    (hsplit : redactChars unicode [] text = first ++ second) :
    (∀ found, firstMatch authorizationValue second = some found → Placeholder found.value) ∧
      (wordBoundary unicode first.getLast? second = true →
        ∀ found, firstMatch bearerValue second = some found → found.value = redacted) := by
  have houtput : redactChars unicode [] text =
      sub (keyValueFinder unicode) (withoutHeaders unicode text) := by
    rw [redactChars, replaceKnown]
    rfl
  have hheaders : HeadersSettled (first ++ second) := by
    rw [← hsplit, houtput]
    exact ((headersSettled_sub text).bearer unicode).keyValue unicode
  have htokens : TokensSettled unicode (first ++ second) := by
    rw [← hsplit, houtput]
    exact (tokensSettled_sub unicode _).keyValue
  exact ⟨fun found hfound => hheaders.value hfound,
    fun hboundary found hfound => htokens.value hboundary hfound⟩

/-- ASCII letters and digits. -/
def asciiTable : Unicode := { isWord := Char.isAlphanum, casefold := fun c => [c.toLower] }

theorem redacted_headers_and_tokens_quoted : Placeholder "'[REDACTED]'".toList := by
  have hsplit : redactChars asciiTable []
      "x=1 Authorization: 'Basic a\\'b'; Bearer c,token=d".toList =
      "x=1 ".toList ++
        "Authorization: '[REDACTED]'; Bearer [REDACTED],token=[REDACTED]".toList := by
    decide +kernel
  have hfound : firstMatch authorizationValue
      "Authorization: '[REDACTED]'; Bearer [REDACTED],token=[REDACTED]".toList =
      some { leading := "Authorization: ".toList, key := "Authorization".toList,
             value := "'[REDACTED]'".toList } := by
    decide +kernel
  exact (redacted_headers_and_tokens hsplit).1 _ hfound

end AlgorithmHarness.Redaction
