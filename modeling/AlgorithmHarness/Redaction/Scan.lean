import AlgorithmHarness.Redaction.Secrets

/-!
# What the patterns match

Each of the three patterns has at most one way to match the text before a
value, so that a match is this text and the first value behind it.
-/

namespace AlgorithmHarness.Redaction

open Pattern Substitution

/-! ## Quoted values -/

/-- The rest of a quoted value up to its quote, where a backslash has come
before the text or not. -/
def closes (quote : Char) : Bool → List Char → Option (List Char × List Char)
  | _, [] => none
  | true, c :: text =>
      if c = '\n' then none
      else (closes quote false text).map fun (body, rest) => (c :: body, rest)
  | false, c :: text =>
      if c = quote then some ([c], text)
      else (closes quote (c = '\\') text).map fun (body, rest) => (c :: body, rest)

variable {Result : Type*} {quote : Char}

theorem quotedChar_andThen_nil (next : List Char → Matcher Result) :
    andThen (quotedChar quote) next [] = [] := rfl

theorem quotedChar_andThen_escape (next : List Char → Matcher Result) (text : List Char) :
    andThen (quotedChar quote) next ('\\' :: text) =
      andThen (one (· ≠ '\n')) (fun c => next ['\\', c]) text := by
  rw [quotedChar, orElse_andThen, andThen_assoc, one_andThen_of (by decide), andThen_assoc,
    andThen_assoc, one_andThen_of_not (by simp), List.append_nil]
  simp only [done_andThen]

theorem quotedChar_andThen_plain {c : Char} (hquote : c ≠ quote) (hescape : c ≠ '\\')
    (next : List Char → Matcher Result) (text : List Char) :
    andThen (quotedChar quote) next (c :: text) = next [c] text := by
  rw [quotedChar, orElse_andThen, andThen_assoc, one_andThen_of_not (by simpa using hescape),
    andThen_assoc, one_andThen_of (by simp [hquote, hescape]), done_andThen, List.nil_append]

theorem quotedChar_andThen_quote (hquote : quote ≠ '\\') (next : List Char → Matcher Result)
    (text : List Char) : andThen (quotedChar quote) next (quote :: text) = [] := by
  rw [quotedChar, orElse_andThen, andThen_assoc, one_andThen_of_not (by simpa using hquote),
    andThen_assoc, one_andThen_of_not (by simp), List.append_nil]

/-- The body of a quoted value has one way to end at a quote. -/
theorem repeated_quotedChar (hquote : quote ≠ '\\') (combine : List Char → Result) (fuel : ℕ)
    (text : List Char) (hfuel : text.length ≤ fuel) :
    andThen (repeated (quotedChar quote) fuel)
        (fun body => andThen (one (· = quote)) fun c => done (combine (body ++ [c]))) text =
      ((closes quote false text).map fun (body, rest) => (combine body, rest)).toList := by
  induction fuel using Nat.strongRecOn generalizing combine text with
  | ind fuel ih =>
      cases text with
      | nil =>
          cases fuel with
          | zero => rfl
          | succ fuel =>
              rw [repeated, orElse_andThen, andThen_assoc, quotedChar_andThen_nil, done_andThen]
              rfl
      | cons c text =>
          cases fuel with
          | zero => exact absurd hfuel (Nat.not_succ_le_zero _)
          | succ fuel =>
              have hshort : text.length ≤ fuel := Nat.le_of_succ_le_succ hfuel
              rw [repeated, orElse_andThen, andThen_assoc, done_andThen, closes]
              by_cases hc : c = quote
              · subst hc
                rw [quotedChar_andThen_quote hquote, one_andThen_of (by simp), if_pos rfl]
                rfl
              · rw [one_andThen_of_not (by simpa using hc), List.append_nil, if_neg hc]
                by_cases hescape : c = '\\'
                · subst hescape
                  rw [quotedChar_andThen_escape]
                  cases text with
                  | nil => rfl
                  | cons d text =>
                      by_cases hd : d = '\n'
                      · rw [one_andThen_of_not (by simpa using hd)]
                        simp [closes, hd]
                      · rw [one_andThen_of (by simpa using hd), andThen_assoc]
                        simp only [done_andThen]
                        have hrest := ih fuel (Nat.lt_succ_self _)
                          (fun body => combine (['\\', d] ++ body)) text (by simp at hshort; omega)
                        simp only [← List.append_assoc] at hrest
                        rw [hrest]
                        cases hbody : closes quote false text <;> simp [closes, hd, hbody]
                · rw [quotedChar_andThen_plain hc hescape, andThen_assoc]
                  simp only [done_andThen]
                  have hrest := ih fuel (Nat.lt_succ_self _)
                    (fun body => combine ([c] ++ body)) text hshort
                  simp only [← List.append_assoc] at hrest
                  rw [hrest]
                  cases hbody : closes quote false text <;> simp [hescape, hbody]

theorem quoted_cons (hquote : quote ≠ '\\') (c : Char) (text : List Char) :
    quoted quote (c :: text) =
      if c = quote then
        ((closes quote false text).map fun (body, rest) => (quote :: body, rest)).toList
      else [] := by
  rw [quoted]
  by_cases hc : c = quote
  · subst hc
    rw [one_andThen_of (by simp), if_pos rfl]
    exact repeated_quotedChar hquote (c :: ·) text.length text (Nat.le_refl _)
  · rw [one_andThen_of_not (by simpa using hc), if_neg hc]

/-! ## Values -/

def quotedAt : List Char → Option (List Char × List Char)
  | [] => none
  | c :: text =>
      if isQuote c then (closes c false text).map fun (body, rest) => (c :: body, rest) else none

def runAt (plain : Char → Bool) (text : List Char) : Option (List Char × List Char) :=
  if text.takeWhile plain = [] then none
  else some (text.takeWhile plain, text.dropWhile plain)

/-- A quoted value, or a run of plain characters where no quote closes. -/
def valueAt (plain : Char → Bool) (text : List Char) : Option (List Char × List Char) :=
  (quotedAt text).or (runAt plain text)

theorem head?_quotedValue (text : List Char) : (quotedValue text).head? = quotedAt text := by
  cases text with
  | nil => rfl
  | cons c text =>
      rw [quotedValue, orElse, quoted_cons (by decide), quoted_cons (by decide), quotedAt, isQuote]
      by_cases hdouble : c = '"'
      · subst hdouble
        simp
      · by_cases hsingle : c = '\''
        · subst hsingle
          simp
        · simp [hdouble, hsingle]

theorem head?_many1 (plain : Char → Bool) (text : List Char) :
    (many1 plain text).head? = runAt plain text := by
  cases text with
  | nil => rfl
  | cons c text =>
      rw [many1, runAt]
      by_cases hplain : plain c = true
      · rw [one_andThen_of hplain, head?_andThen_done, head?_many, List.takeWhile_cons_of_pos hplain,
          List.dropWhile_cons_of_pos hplain, if_neg (List.cons_ne_nil _ _)]
        rfl
      · rw [one_andThen_of_not (by simpa using hplain), List.takeWhile_cons_of_neg hplain,
          if_pos rfl]
        rfl

theorem head?_value (plain : Char → Bool) (text : List Char) :
    (orElse quotedValue (many1 plain) text).head? = valueAt plain text := by
  rw [orElse, List.head?_append, head?_quotedValue, head?_many1, valueAt]

theorem closes_append {escaped : Bool} {text body rest : List Char}
    (hcloses : closes quote escaped text = some (body, rest)) :
    text = body ++ rest ∧ ∃ inner, body = inner ++ [quote] := by
  induction text generalizing escaped body with
  | nil => cases escaped <;> cases hcloses
  | cons c text ih =>
      have hmore : ∀ flag, (closes quote flag text).map (fun (b, r) => (c :: b, r)) =
          some (body, rest) → c :: text = body ++ rest ∧ ∃ inner, body = inner ++ [quote] := by
        intro flag hmap
        obtain ⟨⟨inner, last⟩, hinner, hpair⟩ := Option.map_eq_some_iff.mp hmap
        cases hpair
        obtain ⟨rfl, before, rfl⟩ := ih hinner
        exact ⟨rfl, c :: before, rfl⟩
      cases escaped with
      | true =>
          rw [closes] at hcloses
          split at hcloses
          · cases hcloses
          · exact hmore false hcloses
      | false =>
          rw [closes] at hcloses
          split at hcloses
          · next hc =>
              cases hcloses
              exact ⟨hc ▸ rfl, [], hc ▸ rfl⟩
          · exact hmore _ hcloses

theorem quotedAt_append {text value rest : List Char} (hquoted : quotedAt text = some (value, rest)) :
    text = value ++ rest ∧ ∃ q inner, isQuote q = true ∧ value = q :: (inner ++ [q]) := by
  cases text with
  | nil => cases hquoted
  | cons c text =>
      rw [quotedAt] at hquoted
      split at hquoted
      · next hquote =>
          obtain ⟨⟨body, last⟩, hbody, hpair⟩ := Option.map_eq_some_iff.mp hquoted
          cases hpair
          obtain ⟨rfl, inner, rfl⟩ := closes_append hbody
          exact ⟨rfl, c, inner, hquote, rfl⟩
      · cases hquoted

/-- What follows a run is not of its class. -/
def StopsAt (plain : Char → Bool) (rest : List Char) : Prop := ∀ c ∈ rest.head?, plain c = false

theorem runAt_append {plain : Char → Bool} {text value rest : List Char}
    (hrun : runAt plain text = some (value, rest)) :
    text = value ++ rest ∧ value ≠ [] ∧ (∀ c ∈ value, plain c = true) ∧ StopsAt plain rest := by
  rw [runAt] at hrun
  split at hrun
  · cases hrun
  · next hne =>
      cases hrun
      refine ⟨List.takeWhile_append_dropWhile.symm, hne, ?_, ?_⟩
      · intro c hc
        exact List.mem_takeWhile_imp hc
      · intro c hc
        have hstop := List.head?_dropWhile_not plain text
        rw [hc] at hstop
        simpa using hstop

theorem runAt_of {plain : Char → Bool} {value rest : List Char} (hne : value ≠ [])
    (hplain : ∀ c ∈ value, plain c = true) (hstop : StopsAt plain rest) :
    runAt plain (value ++ rest) = some (value, rest) := by
  have hrest : rest.takeWhile plain = [] ∧ rest.dropWhile plain = rest := by
    cases rest with
    | nil => exact ⟨rfl, rfl⟩
    | cons c rest =>
        have hc : plain c = false := hstop c rfl
        exact ⟨List.takeWhile_cons_of_neg (by simp [hc]), List.dropWhile_cons_of_neg (by simp [hc])⟩
  rw [runAt, List.takeWhile_append_of_pos hplain, List.dropWhile_append_of_pos hplain, hrest.1,
    hrest.2, List.append_nil, if_neg hne]

/-! ## Classes of characters -/

theorem isQuote_iff {c : Char} : isQuote c = true ↔ c = '"' ∨ c = '\'' := by
  simp [isQuote]

theorem isSeparator_iff {c : Char} : isSeparator c = true ↔ c = ':' ∨ c = '=' := by
  simp [isSeparator]

theorem not_isSpace_of_isSeparator {c : Char} (hc : isSeparator c = true) : isSpace c = false := by
  cases isSeparator_iff.mp hc with
  | inl hcolon => exact hcolon ▸ rfl
  | inr hequals => exact hequals ▸ rfl

theorem not_isQuote_of_isSeparator {c : Char} (hc : isSeparator c = true) : isQuote c = false := by
  cases isSeparator_iff.mp hc with
  | inl hcolon => exact hcolon ▸ rfl
  | inr hequals => exact hequals ▸ rfl

theorem not_isSpace_of_isQuote {c : Char} (hc : isQuote c = true) : isSpace c = false := by
  cases isQuote_iff.mp hc with
  | inl hdouble => exact hdouble ▸ rfl
  | inr hsingle => exact hsingle ▸ rfl

theorem isSpace_toNat {c : Char} (hc : isSpace c = true) : c.toNat ≤ 32 ∨ 133 ≤ c.toNat := by
  simp only [isSpace, Bool.or_eq_true, Bool.and_eq_true, decide_eq_true_eq] at hc
  omega

theorem isKeyChar_toNat {c : Char} (hc : isKeyChar c = true) : 45 ≤ c.toNat ∧ c.toNat ≤ 122 := by
  simp only [isKeyChar, Bool.or_eq_true, decide_eq_true_eq] at hc
  rcases hc with (halphanum | rfl) | rfl
  · have hrange := isAlphanum_toNat halphanum
    omega
  · decide
  · decide

theorem isKeyChar_of_isKeyStart {c : Char} (hc : isKeyStart c = true) : isKeyChar c = true := by
  simp only [isKeyStart, Bool.or_eq_true] at hc
  simp only [isKeyChar, Char.isAlphanum, Bool.or_eq_true]
  cases hc with
  | inl halpha => exact .inl (.inl (.inl halpha))
  | inr hunder => exact .inl (.inr hunder)

theorem not_isKeyChar_of_isSpace {c : Char} (hc : isSpace c = true) : isKeyChar c = false := by
  by_contra hkey
  have hbounds := isKeyChar_toNat (Bool.not_eq_false _ ▸ hkey)
  have hspace := isSpace_toNat hc
  omega

theorem not_isKeyChar_of_isQuote {c : Char} (hc : isQuote c = true) : isKeyChar c = false := by
  cases isQuote_iff.mp hc with
  | inl hdouble => exact hdouble ▸ rfl
  | inr hsingle => exact hsingle ▸ rfl

theorem not_isKeyChar_of_isSeparator {c : Char} (hc : isSeparator c = true) :
    isKeyChar c = false := by
  cases isSeparator_iff.mp hc with
  | inl hcolon => exact hcolon ▸ rfl
  | inr hequals => exact hequals ▸ rfl

theorem isPlain_of_isQuote {c : Char} (hc : isQuote c = true) : isPlain c = true := by
  cases isQuote_iff.mp hc with
  | inl hdouble => exact hdouble ▸ rfl
  | inr hsingle => exact hsingle ▸ rfl

theorem not_isPlain_of_isSpace {c : Char} (hc : isSpace c = true) : isPlain c = false := by
  simp [isPlain, hc]

theorem not_isToken_of_isSpace {c : Char} (hc : isSpace c = true) : isToken c = false := by
  simp [isToken, hc]

/-! ## The text before a value -/

def Spaces (text : List Char) : Prop := ∀ c ∈ text, isSpace c = true

/-- Letter by letter the same, in either case. -/
abbrev Spelled (letters key : List Char) : Prop :=
  List.Forall₂ (fun letter c => sameIgnoringCase letter c = true) letters key

/-- No quote or one. -/
def QuoteMark (mark : List Char) : Prop := mark = [] ∨ ∃ q, isQuote q = true ∧ mark = [q]

/-- The same quote on both sides of a key, and spaces. -/
structure KeyHeading (heading key : List Char) : Prop where
  shape : ∃ quote before c cs, heading = quote ++ key ++ quote ++ before ∧ QuoteMark quote ∧
    Spaces before ∧ key = c :: cs ∧ isKeyStart c = true ∧ ∀ x ∈ cs, isKeyChar x = true

/-- The word, with a quote on either side or none, and spaces. -/
structure AuthorizationHeading (heading key : List Char) : Prop where
  shape : ∃ opening closing before, heading = opening ++ key ++ closing ++ before ∧
    QuoteMark opening ∧ QuoteMark closing ∧ Spaces before ∧
    Spelled authorization key

theorem Spaces.takeWhile {before : List Char} (hbefore : Spaces before) {separator : Char}
    (hseparator : isSeparator separator = true) (tail : List Char) :
    (before ++ separator :: tail).takeWhile isSpace = before ∧
      (before ++ separator :: tail).dropWhile isSpace = separator :: tail := by
  have hstop : ¬ isSpace separator = true := by
    rw [not_isSpace_of_isSeparator hseparator]
    exact Bool.false_ne_true
  rw [List.takeWhile_append_of_pos hbefore, List.dropWhile_append_of_pos hbefore,
    List.takeWhile_cons_of_neg hstop, List.dropWhile_cons_of_neg hstop, List.append_nil]
  exact ⟨rfl, rfl⟩

/-- The value behind a separator, after as many spaces as leave one. -/
theorem head?_assigned (value : Matcher (List Char)) (leading key : List Char) {before : List Char}
    (hbefore : Spaces before) {separator : Char} (hseparator : isSeparator separator = true)
    (tail : List Char) :
    (assigned value leading key (before ++ separator :: tail)).head? =
      (afterRun isSpace (fun rest => (value rest).head?) tail).map fun (after, value, rest) =>
        ({ leading := leading ++ before ++ separator :: after, key, value }, rest) := by
  have hstuck : ∀ (taken : List Char) (c : Char) (text : List Char), isSpace c = true →
      andThen (one isSeparator) (fun separator => andThen (many isSpace) fun after =>
        andThen value fun value => done (Assignment.mk (leading ++ taken ++ separator :: after) key
          value)) (c :: text) = [] := by
    intro taken c text hc
    apply one_andThen_of_not
    by_contra hne
    rw [not_isSpace_of_isSeparator (Bool.not_eq_false _ ▸ hne)] at hc
    cases hc
  rw [assigned, many_andThen_of_stuck hstuck, (hbefore.takeWhile hseparator tail).1,
    (hbefore.takeWhile hseparator tail).2, one_andThen_of hseparator]
  exact head?_many_andThen isSpace value _ tail

theorem mem_assigned {value : Matcher (List Char)} {leading key text rest : List Char}
    {found : Assignment} (hfound : (found, rest) ∈ assigned value leading key text) :
    ∃ before separator tail, text = before ++ separator :: tail ∧ Spaces before ∧
      isSeparator separator = true := by
  obtain ⟨before, middle, hbefore, hrest⟩ := mem_andThen.mp hfound
  obtain ⟨separator, tail, hseparator, -⟩ := mem_andThen.mp hrest
  obtain ⟨rfl, hspaces⟩ := mem_many.mp hbefore
  obtain ⟨hsep, rfl⟩ := mem_one.mp hseparator
  exact ⟨before, separator, tail, rfl, hspaces, hsep⟩

theorem assigned_eq_nil {value : Matcher (List Char)} {leading key : List Char} {c : Char}
    {text : List Char} (hspace : isSpace c = false) (hseparator : isSeparator c = false) :
    assigned value leading key (c :: text) = [] := by
  rw [assigned, many_andThen_cons, if_neg (by simp [hspace]), one_andThen_of_not hseparator]

theorem optional_isQuote_andThen {Result : Type*} {mark : List Char} (hmark : QuoteMark mark)
    {next : List Char → Matcher Result} {text : List Char}
    (hother : ∀ q, isQuote q = true → mark = [q] → next [] (q :: text) = [])
    (hfirst : ∀ c ∈ text.head?, mark = [] → isQuote c = false) :
    andThen (optional isQuote) next (mark ++ text) = next mark text := by
  rw [optional_andThen]
  cases hmark with
  | inl hnone =>
      subst hnone
      cases text with
      | nil => rfl
      | cons c text => rw [List.nil_append, one_andThen_of_not (hfirst c rfl rfl), List.nil_append]
  | inr hsome =>
      obtain ⟨q, hq, rfl⟩ := hsome
      rw [List.singleton_append, one_andThen_of hq, hother q hq rfl, List.append_nil]

/-! ## Assignments to keys -/

theorem head?_keyValue {heading key : List Char} (hheading : KeyHeading heading key)
    {separator : Char} (hseparator : isSeparator separator = true) (tail : List Char) :
    (keyValue (heading ++ separator :: tail)).head? =
      (afterRun isSpace (valueAt isPlain) tail).map fun (after, value, rest) =>
        ({ leading := heading ++ separator :: after, key, value }, rest) := by
  obtain ⟨quote, before, c, cs, rfl, hquote, hbefore, rfl, hc, hcs⟩ := hheading.shape
  have hquoteword : List.Forall₂ (fun letter c : Char => decide (letter = c) = true) quote quote :=
    List.forall₂_same.mpr fun _ _ => decide_eq_true rfl
  -- the key ends where no key character follows
  have hend : ∀ x ∈ (quote ++ before ++ separator :: tail).head?, isKeyChar x = false := by
    intro x hx
    cases hquote with
    | inr hsome =>
        obtain ⟨q, hq, rfl⟩ := hsome
        cases hx
        exact not_isKeyChar_of_isQuote hq
    | inl hnone =>
        subst hnone
        cases before with
        | nil =>
            cases hx
            exact not_isKeyChar_of_isSeparator hseparator
        | cons s before =>
            cases hx
            exact not_isKeyChar_of_isSpace (hbefore _ List.mem_cons_self)
  have htake : (cs ++ (quote ++ before ++ separator :: tail)).takeWhile isKeyChar = cs ∧
      (cs ++ (quote ++ before ++ separator :: tail)).dropWhile isKeyChar =
        quote ++ before ++ separator :: tail := by
    rw [List.takeWhile_append_of_pos hcs, List.dropWhile_append_of_pos hcs]
    cases hrest : quote ++ before ++ separator :: tail with
    | nil => exact ⟨List.append_nil _, rfl⟩
    | cons x rest =>
        have hx : ¬ isKeyChar x = true := by
          rw [hend x (by rw [hrest]; rfl)]
          exact Bool.false_ne_true
        rw [List.takeWhile_cons_of_neg hx, List.dropWhile_cons_of_neg hx, List.append_nil]
        exact ⟨rfl, rfl⟩
  have hstuck : ∀ (taken : List Char) (x : Char) (text : List Char), isKeyChar x = true →
      andThen (word (· = ·) quote) (fun closing => assigned (orElse quotedValue (many1 isPlain))
        (quote ++ c :: taken ++ closing) (c :: taken)) (x :: text) = [] := by
    intro taken x text hx
    cases hquote with
    | inr hsome =>
        obtain ⟨q, hq, rfl⟩ := hsome
        have hne : decide (q = x) = false := by
          apply decide_eq_false
          rintro rfl
          rw [not_isKeyChar_of_isQuote hq] at hx
          cases hx
        rw [word, andThen_assoc, one_andThen_of_not hne]
    | inl hnone =>
        subst hnone
        rw [word, done_andThen]
        apply assigned_eq_nil
        · by_contra hspace
          rw [not_isKeyChar_of_isSpace (Bool.not_eq_false _ ▸ hspace)] at hx
          cases hx
        · by_contra hsep
          rw [not_isKeyChar_of_isSeparator (Bool.not_eq_false _ ▸ hsep)] at hx
          cases hx
  have hstart : isQuote c = false := by
    by_contra hq
    have hkey := isKeyChar_of_isKeyStart hc
    rw [not_isKeyChar_of_isQuote (Bool.not_eq_false _ ▸ hq)] at hkey
    cases hkey
  have hshape : quote ++ c :: cs ++ quote ++ before ++ separator :: tail =
      quote ++ (c :: (cs ++ (quote ++ before ++ separator :: tail))) := by simp
  rw [hshape, keyValue, optional_isQuote_andThen hquote, one_andThen_of hc,
    many_andThen_of_stuck hstuck, htake.1, htake.2, List.append_assoc quote before,
    word_andThen_of_spelled hquoteword, head?_assigned _ _ _ hbefore hseparator]
  · simp only [head?_value]
  · intro q hq _
    apply one_andThen_of_not
    by_contra hkey
    have hkeychar := isKeyChar_of_isKeyStart (Bool.not_eq_false _ ▸ hkey)
    rw [not_isKeyChar_of_isQuote hq] at hkeychar
    cases hkeychar
  · intro x hx _
    cases hx
    exact hstart

theorem heading_of_mem_keyValue {text rest : List Char} {found : Assignment}
    (hfound : (found, rest) ∈ keyValue text) :
    ∃ heading key separator tail, text = heading ++ separator :: tail ∧ KeyHeading heading key ∧
      isSeparator separator = true := by
  obtain ⟨quote, t1, hquote, h1⟩ := mem_andThen.mp hfound
  obtain ⟨c, t2, hc, h2⟩ := mem_andThen.mp h1
  obtain ⟨cs, t3, hcs, h3⟩ := mem_andThen.mp h2
  obtain ⟨closing, t4, hclosing, h4⟩ := mem_andThen.mp h3
  obtain ⟨rfl, hmark⟩ := mem_optional.mp hquote
  obtain ⟨hstart, rfl⟩ := mem_one.mp hc
  obtain ⟨rfl, hchars⟩ := mem_many.mp hcs
  obtain ⟨rfl, hspelled⟩ := mem_word.mp hclosing
  obtain ⟨before, separator, tail, rfl, hspaces, hseparator⟩ := mem_assigned h4
  obtain rfl : quote = closing := by
    have heq : List.Forall₂ Eq quote closing := hspelled.imp fun _ _ hsame => of_decide_eq_true hsame
    exact List.forall₂_eq_eq_eq ▸ heq
  refine ⟨quote ++ (c :: cs) ++ quote ++ before, c :: cs, separator, tail, by simp, ?_, hseparator⟩
  exact ⟨quote, before, c, cs, rfl, hmark, hspaces, rfl, hstart, hchars⟩

/-- A match of `_KEY_VALUE`. -/
theorem firstMatch_keyValue {text : List Char} {found : Assignment} :
    firstMatch keyValue text = some found ↔
      ∃ heading separator after rest tail, text = heading ++ separator :: tail ∧
        KeyHeading heading found.key ∧ isSeparator separator = true ∧
        afterRun isSpace (valueAt isPlain) tail = some (after, found.value, rest) ∧
        found.leading = heading ++ separator :: after := by
  rw [firstMatch, Option.map_eq_some_iff]
  constructor
  · rintro ⟨⟨found, rest⟩, hhead, rfl⟩
    obtain ⟨heading, key, separator, tail, rfl, hheading, hseparator⟩ :=
      heading_of_mem_keyValue (List.mem_of_mem_head? hhead)
    rw [head?_keyValue hheading hseparator] at hhead
    obtain ⟨⟨after, value, last⟩, hvalue, hpair⟩ := Option.map_eq_some_iff.mp hhead
    cases hpair
    exact ⟨heading, separator, after, rest, tail, rfl, hheading, hseparator, hvalue, rfl⟩
  · rintro ⟨heading, separator, after, rest, tail, rfl, hheading, hseparator, hvalue, hleading⟩
    obtain ⟨leading, key, value⟩ := found
    subst hleading
    refine ⟨(_, rest), ?_, rfl⟩
    rw [head?_keyValue hheading hseparator, hvalue]
    rfl

/-! ## Authorization headers -/

/-- A letter of one of the two words, in either case. -/
def Letter (c : Char) : Prop :=
  (65 ≤ c.toNat ∧ c.toNat ≤ 90) ∨ (97 ≤ c.toNat ∧ c.toNat ≤ 122) ∨ c.toNat = 0x130 ∨
    c.toNat = 0x131

instance (c : Char) : Decidable (Letter c) := inferInstanceAs (Decidable (_ ∨ _))

theorem letter_of_sameIgnoringCase {letter c : Char} (hletter : letter ∈ authorization ++ bearer)
    (hsame : sameIgnoringCase letter c = true) : Letter c := by
  have hall : ((authorization ++ bearer).all fun letter =>
      Letter letter ∧ Letter letter.toUpper ∧ letter ≠ 's' ∧ letter ≠ 'k') = true := by decide
  obtain ⟨hlower, hupper, hs, hk⟩ := of_decide_eq_true (List.all_eq_true.mp hall letter hletter)
  simp only [sameIgnoringCase, Bool.or_eq_true, Bool.and_eq_true, decide_eq_true_eq] at hsame
  rcases hsame with (((rfl | rfl) | ⟨-, hi⟩) | ⟨hs', -⟩) | ⟨hk', -⟩
  · exact hlower
  · exact hupper
  · exact .inr (.inr hi)
  · exact absurd hs' hs
  · exact absurd hk' hk

theorem Letter.not_isSpace {c : Char} (hc : Letter c) : isSpace c = false := by
  by_contra hspace
  have hs := Bool.not_eq_false _ ▸ hspace
  simp only [isSpace, Bool.or_eq_true, Bool.and_eq_true, decide_eq_true_eq] at hs
  rw [Letter] at hc
  omega

theorem Letter.not_isSeparator {c : Char} (hc : Letter c) : isSeparator c = false := by
  by_contra hsep
  rcases isSeparator_iff.mp (Bool.not_eq_false _ ▸ hsep) with rfl | rfl <;> revert hc <;> decide

theorem Letter.not_isQuote {c : Char} (hc : Letter c) : isQuote c = false := by
  by_contra hquote
  rcases isQuote_iff.mp (Bool.not_eq_false _ ▸ hquote) with rfl | rfl <;> revert hc <;> decide

theorem letters_of_spelled {letters key : List Char}
    (hletters : ∀ letter ∈ letters, letter ∈ authorization ++ bearer)
    (hspelled : Spelled letters key) :
    ∀ c ∈ key, Letter c := by
  induction hspelled with
  | nil => nofun
  | cons hsame _ ih =>
      intro c hc
      cases List.mem_cons.mp hc with
      | inl hhead =>
          exact hhead ▸ letter_of_sameIgnoringCase (hletters _ List.mem_cons_self) hsame
      | inr htail => exact ih (fun letter hl => hletters letter (List.mem_cons_of_mem _ hl)) c htail

theorem head?_authorizationValue {heading key : List Char}
    (hheading : AuthorizationHeading heading key) {separator : Char}
    (hseparator : isSeparator separator = true) (tail : List Char) :
    (authorizationValue (heading ++ separator :: tail)).head? =
      (afterRun isSpace (valueAt isHeader) tail).map fun (after, value, rest) =>
        ({ leading := heading ++ separator :: after, key, value }, rest) := by
  obtain ⟨opening, closing, before, rfl, hopening, hclosing, hbefore, hspelled⟩ := hheading.shape
  have hletters : ∀ c ∈ key, Letter c :=
    letters_of_spelled (fun letter hl => List.mem_append_left _ hl) hspelled
  have hshape : opening ++ key ++ closing ++ before ++ separator :: tail =
      opening ++ (key ++ (closing ++ (before ++ separator :: tail))) := by simp
  rw [hshape, authorizationValue, optional_isQuote_andThen hopening,
    word_andThen_of_spelled hspelled, optional_isQuote_andThen hclosing,
    head?_assigned _ _ _ hbefore hseparator]
  · simp only [head?_value]
  · -- a quote that closes the word is not passed over
    intro q hq _
    apply assigned_eq_nil (not_isSpace_of_isQuote hq)
    by_contra hsep
    rw [not_isQuote_of_isSeparator (Bool.not_eq_false _ ▸ hsep)] at hq
    cases hq
  · intro c hc _
    cases before with
    | nil =>
        cases hc
        exact not_isQuote_of_isSeparator hseparator
    | cons s before =>
        cases hc
        by_contra hq
        have hs := hbefore _ List.mem_cons_self
        rw [not_isSpace_of_isQuote (Bool.not_eq_false _ ▸ hq)] at hs
        cases hs
  · -- nor is one that opens it
    intro q hq _
    rw [authorization, word, andThen_assoc]
    apply one_andThen_of_not
    by_contra hsame
    have hletter := letter_of_sameIgnoringCase (by decide) (Bool.not_eq_false _ ▸ hsame)
    rw [hletter.not_isQuote] at hq
    cases hq
  · intro c hc _
    cases hspelled with
    | cons hsame hrest =>
        cases hc
        exact (hletters _ List.mem_cons_self).not_isQuote

theorem heading_of_mem_authorizationValue {text rest : List Char} {found : Assignment}
    (hfound : (found, rest) ∈ authorizationValue text) :
    ∃ heading key separator tail, text = heading ++ separator :: tail ∧
      AuthorizationHeading heading key ∧ isSeparator separator = true := by
  obtain ⟨opening, t1, hopening, h1⟩ := mem_andThen.mp hfound
  obtain ⟨key, t2, hkey, h2⟩ := mem_andThen.mp h1
  obtain ⟨closing, t3, hclosing, h3⟩ := mem_andThen.mp h2
  obtain ⟨rfl, hopen⟩ := mem_optional.mp hopening
  obtain ⟨rfl, hspelled⟩ := mem_word.mp hkey
  obtain ⟨rfl, hclose⟩ := mem_optional.mp hclosing
  obtain ⟨before, separator, tail, rfl, hspaces, hseparator⟩ := mem_assigned h3
  refine ⟨opening ++ key ++ closing ++ before, key, separator, tail, by simp, ?_, hseparator⟩
  exact ⟨opening, closing, before, rfl, hopen, hclose, hspaces, hspelled⟩

/-- A match of `_AUTHORIZATION_VALUE`. -/
theorem firstMatch_authorizationValue {text : List Char} {found : Assignment} :
    firstMatch authorizationValue text = some found ↔
      ∃ heading separator after rest tail, text = heading ++ separator :: tail ∧
        AuthorizationHeading heading found.key ∧ isSeparator separator = true ∧
        afterRun isSpace (valueAt isHeader) tail = some (after, found.value, rest) ∧
        found.leading = heading ++ separator :: after := by
  rw [firstMatch, Option.map_eq_some_iff]
  constructor
  · rintro ⟨⟨found, rest⟩, hhead, rfl⟩
    obtain ⟨heading, key, separator, tail, rfl, hheading, hseparator⟩ :=
      heading_of_mem_authorizationValue (List.mem_of_mem_head? hhead)
    rw [head?_authorizationValue hheading hseparator] at hhead
    obtain ⟨⟨after, value, last⟩, hvalue, hpair⟩ := Option.map_eq_some_iff.mp hhead
    cases hpair
    exact ⟨heading, separator, after, rest, tail, rfl, hheading, hseparator, hvalue, rfl⟩
  · rintro ⟨heading, separator, after, rest, tail, rfl, hheading, hseparator, hvalue, hleading⟩
    obtain ⟨leading, key, value⟩ := found
    subst hleading
    refine ⟨(_, rest), ?_, rfl⟩
    rw [head?_authorizationValue hheading hseparator, hvalue]
    rfl

/-! ## Bearer tokens -/

/-- A match of `_BEARER_VALUE` behind its `\b`. -/
theorem firstMatch_bearerValue {text : List Char} {found : Assignment} :
    firstMatch bearerValue text = some found ↔
      ∃ space after rest tail, text = found.key ++ space :: tail ∧
        Spelled bearer found.key ∧
        isSpace space = true ∧
        afterRun isSpace (runAt isToken) tail = some (after, found.value, rest) ∧
        found.leading = found.key ++ space :: after := by
  have hhead : ∀ key space tail,
      Spelled bearer key →
      isSpace space = true → (bearerValue (key ++ space :: tail)).head? =
        (afterRun isSpace (runAt isToken) tail).map fun (after, value, rest) =>
          ({ leading := key ++ space :: after, key, value }, rest) := by
    intro key space tail hspelled hspace
    rw [bearerValue, word_andThen_of_spelled hspelled, many1, andThen_assoc, one_andThen_of hspace,
      andThen_assoc]
    simp only [done_andThen]
    rw [head?_many_andThen isSpace (many1 isToken)
      (fun after value => Assignment.mk (key ++ space :: after) key value)]
    simp only [head?_many1]
  rw [firstMatch, Option.map_eq_some_iff]
  constructor
  · rintro ⟨⟨found, rest⟩, hfound, rfl⟩
    obtain ⟨key, t1, hkey, h1⟩ := mem_andThen.mp (List.mem_of_mem_head? hfound)
    obtain ⟨rfl, hspelled⟩ := mem_word.mp hkey
    obtain ⟨after, t2, hafter, -⟩ := mem_andThen.mp h1
    obtain ⟨space, t3, hone, -⟩ := mem_andThen.mp hafter
    obtain ⟨hspace, rfl⟩ := mem_one.mp hone
    rw [hhead key space t3 hspelled hspace] at hfound
    obtain ⟨⟨after, value, last⟩, hvalue, hpair⟩ := Option.map_eq_some_iff.mp hfound
    cases hpair
    exact ⟨space, after, rest, t3, rfl, hspelled, hspace, hvalue, rfl⟩
  · rintro ⟨space, after, rest, tail, rfl, hspelled, hspace, hvalue, hleading⟩
    obtain ⟨leading, key, value⟩ := found
    simp only at hspelled hvalue hleading
    subst hleading
    refine ⟨(_, rest), ?_, rfl⟩
    rw [hhead key space tail hspelled hspace, hvalue]
    rfl

end AlgorithmHarness.Redaction
