import Mathlib.Data.List.TakeDrop
import Mathlib.Data.List.TakeWhile
import Mathlib.Data.List.Forall2

/-!
# Backtracking patterns

A pattern maps a text to the ways in which it matches a prefix of it, in the
order in which a backtracking matcher tries them; the match is the first.  A
repetition tries to take as much as it can before it takes less.
-/

namespace AlgorithmHarness.Pattern

variable {Value Result : Type*}

abbrev Matcher (Value : Type*) := List Char → List (Value × List Char)

def done (value : Value) : Matcher Value := fun text => [(value, text)]

def andThen (first : Matcher Value) (next : Value → Matcher Result) : Matcher Result :=
  fun text => (first text).flatMap fun (value, rest) => next value rest

def orElse (first second : Matcher Value) : Matcher Value :=
  fun text => first text ++ second text

/-- A character of a class. -/
def one (accepts : Char → Bool) : Matcher Char
  | [] => []
  | c :: text => if accepts c then [(c, text)] else []

/-- `[...]?` -/
def optional (accepts : Char → Bool) : Matcher (List Char) :=
  orElse (andThen (one accepts) fun c => done [c]) (done [])

/-- `[...]*` -/
def many (accepts : Char → Bool) : Matcher (List Char)
  | [] => [([], [])]
  | c :: text =>
      if accepts c then
        ((many accepts text).map fun (taken, rest) => (c :: taken, rest)) ++ [([], c :: text)]
      else [([], c :: text)]

/-- `[...]+` -/
def many1 (accepts : Char → Bool) : Matcher (List Char) :=
  andThen (one accepts) fun c => andThen (many accepts) fun cs => done (c :: cs)

/-- A word, letter by letter. -/
def word (same : Char → Char → Bool) : List Char → Matcher (List Char)
  | [] => done []
  | letter :: letters =>
      andThen (one (same letter)) fun c => andThen (word same letters) fun cs => done (c :: cs)

/-- `(...)*` at most `fuel` times. -/
def repeated (body : Matcher (List Char)) : ℕ → Matcher (List Char)
  | 0 => done []
  | fuel + 1 =>
      orElse
        (andThen body fun taken => andThen (repeated body fuel) fun more => done (taken ++ more))
        (done [])

/-- `(...)*`; the body takes at least one character. -/
def star (body : Matcher (List Char)) : Matcher (List Char) :=
  fun text => repeated body text.length text

/-! ## What a pattern finds first -/

theorem done_andThen (value : Value) (next : Value → Matcher Result) :
    andThen (done value) next = next value := by
  funext text
  exact List.flatMap_singleton _ _

theorem one_andThen_nil (accepts : Char → Bool) (next : Char → Matcher Result) :
    andThen (one accepts) next [] = [] := rfl

theorem one_andThen_cons (accepts : Char → Bool) (next : Char → Matcher Result) (c : Char)
    (text : List Char) :
    andThen (one accepts) next (c :: text) = if accepts c then next c text else [] := by
  rw [andThen, one]
  split
  · exact List.flatMap_singleton _ _
  · rfl

theorem andThen_assoc {Last : Type*} (first : Matcher Value) (second : Value → Matcher Result)
    (third : Result → Matcher Last) :
    andThen (andThen first second) third =
      andThen first fun value => andThen (second value) third := by
  funext text
  exact List.flatMap_assoc

theorem orElse_andThen (first second : Matcher Value) (next : Value → Matcher Result)
    (text : List Char) :
    andThen (orElse first second) next text = andThen first next text ++ andThen second next text :=
  List.flatMap_append

theorem many_andThen_nil (accepts : Char → Bool) (next : List Char → Matcher Result) :
    andThen (many accepts) next [] = next [] [] :=
  List.flatMap_singleton _ _

theorem many_andThen_cons (accepts : Char → Bool) (next : List Char → Matcher Result) (c : Char)
    (text : List Char) :
    andThen (many accepts) next (c :: text) =
      if accepts c then
        andThen (many accepts) (fun taken => next (c :: taken)) text ++ next [] (c :: text)
      else next [] (c :: text) := by
  rw [andThen, many]
  split
  · rw [List.flatMap_append, List.flatMap_map, List.flatMap_singleton]
    rfl
  · exact List.flatMap_singleton _ _

/-- What cannot go on at a character of the class goes on after all of them. -/
theorem many_andThen_of_stuck {accepts : Char → Bool} {next : List Char → Matcher Result}
    (hstuck : ∀ taken c text, accepts c = true → next taken (c :: text) = []) (text : List Char) :
    andThen (many accepts) next text =
      next (text.takeWhile accepts) (text.dropWhile accepts) := by
  induction text generalizing next with
  | nil => exact many_andThen_nil accepts next
  | cons c text ih =>
      rw [many_andThen_cons]
      by_cases haccepts : accepts c = true
      · rw [if_pos haccepts, hstuck [] c text haccepts, List.append_nil,
          ih fun taken => hstuck (c :: taken), List.takeWhile_cons_of_pos haccepts,
          List.dropWhile_cons_of_pos haccepts]
      · rw [if_neg haccepts, List.takeWhile_cons_of_neg haccepts,
          List.dropWhile_cons_of_neg haccepts]

/-- The longest run comes first. -/
theorem head?_many (accepts : Char → Bool) (text : List Char) :
    (many accepts text).head? = some (text.takeWhile accepts, text.dropWhile accepts) := by
  induction text with
  | nil => rfl
  | cons c text ih =>
      rw [many]
      by_cases haccepts : accepts c = true
      · rw [if_pos haccepts, List.head?_append, List.head?_map, ih,
          List.takeWhile_cons_of_pos haccepts, List.dropWhile_cons_of_pos haccepts]
        rfl
      · rw [if_neg haccepts, List.takeWhile_cons_of_neg haccepts,
          List.dropWhile_cons_of_neg haccepts]
        rfl

theorem one_andThen_of_not {accepts : Char → Bool} {next : Char → Matcher Result} {c : Char}
    {text : List Char} (hc : accepts c = false) : andThen (one accepts) next (c :: text) = [] := by
  rw [one_andThen_cons, hc, if_neg Bool.false_ne_true]

theorem one_andThen_of {accepts : Char → Bool} {next : Char → Matcher Result} {c : Char}
    {text : List Char} (hc : accepts c = true) :
    andThen (one accepts) next (c :: text) = next c text := by
  rw [one_andThen_cons, if_pos hc]

theorem optional_andThen (accepts : Char → Bool) (next : List Char → Matcher Result)
    (text : List Char) :
    andThen (optional accepts) next text =
      andThen (one accepts) (fun c => next [c]) text ++ next [] text := by
  rw [optional, orElse_andThen, andThen_assoc, done_andThen]
  simp only [done_andThen]

/-- A run of a class with something behind it: the longest run that it can
follow. -/
def afterRun (accepts : Char → Bool) (next : List Char → Option (Value × List Char)) :
    List Char → Option (List Char × Value × List Char)
  | [] => (next []).map fun found => ([], found)
  | c :: text =>
      if accepts c then
        ((afterRun accepts next text).map fun (taken, found) => (c :: taken, found)).or
          ((next (c :: text)).map fun found => ([], found))
      else (next (c :: text)).map fun found => ([], found)

theorem head?_andThen_done (next : Matcher Value) (combine : Value → Result) (text : List Char) :
    (andThen next (fun value => done (combine value)) text).head? =
      (next text).head?.map fun (value, rest) => (combine value, rest) := by
  have hmap : andThen next (fun value => done (combine value)) text =
      (next text).map fun (value, rest) => (combine value, rest) :=
    List.flatMap_pure_eq_map _ _
  rw [hmap, List.head?_map]

theorem head?_many_andThen (accepts : Char → Bool) (next : Matcher Value)
    (combine : List Char → Value → Result) (text : List Char) :
    (andThen (many accepts) (fun taken => andThen next fun value => done (combine taken value))
        text).head? =
      (afterRun accepts (fun rest => (next rest).head?) text).map
        fun (taken, value, rest) => (combine taken value, rest) := by
  induction text generalizing combine with
  | nil =>
      rw [many_andThen_nil, head?_andThen_done, afterRun, Option.map_map]
      rfl
  | cons c text ih =>
      rw [many_andThen_cons, afterRun]
      by_cases haccepts : accepts c = true
      · rw [if_pos haccepts, if_pos haccepts, List.head?_append, head?_andThen_done,
          ih fun taken => combine (c :: taken), Option.map_or, Option.map_map, Option.map_map]
        rfl
      · rw [if_neg haccepts, if_neg haccepts, head?_andThen_done, Option.map_map]
        rfl

theorem afterRun_append {accepts : Char → Bool}
    {next : List Char → Option (Value × List Char)} {text taken rest : List Char} {found : Value}
    (hrun : afterRun accepts next text = some (taken, found, rest)) :
    ∃ middle, text = taken ++ middle ∧ (∀ c ∈ taken, accepts c = true) ∧
      next middle = some (found, rest) := by
  have hhere : ∀ (text taken : List Char),
      (next text).map (fun found => (([] : List Char), found)) = some (taken, found, rest) →
      ∃ middle, text = taken ++ middle ∧ (∀ c ∈ taken, accepts c = true) ∧
        next middle = some (found, rest) := by
    intro text taken hmap
    obtain ⟨pair, hnext, hpair⟩ := Option.map_eq_some_iff.mp hmap
    cases hpair
    exact ⟨text, rfl, nofun, hnext⟩
  induction text generalizing taken with
  | nil => exact hhere [] taken hrun
  | cons c text ih =>
      rw [afterRun] at hrun
      split at hrun
      · next haccepts =>
          cases Option.or_eq_some_iff.mp hrun with
          | inl hlonger =>
              obtain ⟨⟨more, last⟩, hmore, hpair⟩ := Option.map_eq_some_iff.mp hlonger
              cases hpair
              obtain ⟨middle, rfl, htaken, hnext⟩ := ih hmore
              exact ⟨middle, rfl, List.forall_mem_cons.mpr ⟨haccepts, htaken⟩, hnext⟩
          | inr hnow => exact hhere _ taken hnow.2
      · exact hhere _ taken hrun

theorem afterRun_of {accepts : Char → Bool} {next : List Char → Option (Value × List Char)}
    {taken middle rest : List Char} {found : Value} (htaken : ∀ c ∈ taken, accepts c = true)
    (hstop : ∀ c ∈ middle.head?, accepts c = false) (hnext : next middle = some (found, rest)) :
    afterRun accepts next (taken ++ middle) = some (taken, found, rest) := by
  induction taken with
  | nil =>
      cases middle with
      | nil => rw [List.nil_append, afterRun, hnext, Option.map_some]
      | cons c middle =>
          have hc : accepts c = false := hstop c rfl
          rw [List.nil_append, afterRun, hc, if_neg Bool.false_ne_true, hnext, Option.map_some]
  | cons c taken ih =>
      obtain ⟨hc, hrest⟩ := List.forall_mem_cons.mp htaken
      rw [List.cons_append, afterRun, if_pos hc, ih hrest, Option.map_some, Option.some_or]

theorem afterRun_eq_none {accepts : Char → Bool} {next : List Char → Option (Value × List Char)}
    {text : List Char} :
    afterRun accepts next text = none ↔
      ∀ taken middle, text = taken ++ middle → (∀ c ∈ taken, accepts c = true) →
        next middle = none := by
  constructor
  · intro hnone taken middle htext htaken
    subst htext
    induction taken with
    | nil =>
        cases middle with
        | nil => exact Option.map_eq_none_iff.mp hnone
        | cons c middle =>
            rw [List.nil_append, afterRun] at hnone
            split at hnone
            · exact Option.map_eq_none_iff.mp (Option.or_eq_none_iff.mp hnone).2
            · exact Option.map_eq_none_iff.mp hnone
    | cons c taken ih =>
        obtain ⟨hc, hrest⟩ := List.forall_mem_cons.mp htaken
        rw [List.cons_append, afterRun, if_pos hc] at hnone
        exact ih hrest (Option.map_eq_none_iff.mp (Option.or_eq_none_iff.mp hnone).1)
  · intro hall
    rw [Option.eq_none_iff_forall_ne_some]
    rintro ⟨taken, found, rest⟩ hrun
    obtain ⟨middle, htext, htaken, hnext⟩ := afterRun_append hrun
    rw [hall taken middle htext htaken] at hnext
    cases hnext

/-! ## What a pattern can find -/

variable {text rest : List Char}

theorem mem_andThen {first : Matcher Value} {next : Value → Matcher Result} {result : Result} :
    (result, rest) ∈ andThen first next text ↔
      ∃ value middle, (value, middle) ∈ first text ∧ (result, rest) ∈ next value middle := by
  rw [andThen, List.mem_flatMap]
  exact Prod.exists

theorem mem_done {value result : Value} :
    (result, rest) ∈ done value text ↔ result = value ∧ rest = text := by
  rw [done, List.mem_singleton, Prod.mk.injEq]

theorem mem_one {accepts : Char → Bool} {c : Char} :
    (c, rest) ∈ one accepts text ↔ accepts c = true ∧ text = c :: rest := by
  cases text with
  | nil => simp [one]
  | cons d text =>
      rw [one]
      split
      · next hd => grind
      · next hd => grind

theorem mem_optional {accepts : Char → Bool} {taken : List Char} :
    (taken, rest) ∈ optional accepts text ↔
      text = taken ++ rest ∧ (taken = [] ∨ ∃ c, accepts c = true ∧ taken = [c]) := by
  rw [optional, orElse, List.mem_append, mem_andThen, mem_done]
  simp only [mem_one, mem_done]
  constructor
  · rintro (⟨c, middle, ⟨hc, rfl⟩, rfl, rfl⟩ | ⟨rfl, rfl⟩)
    · exact ⟨rfl, .inr ⟨c, hc, rfl⟩⟩
    · exact ⟨rfl, .inl rfl⟩
  · rintro ⟨rfl, rfl | ⟨c, hc, rfl⟩⟩
    · exact .inr ⟨rfl, rfl⟩
    · exact .inl ⟨c, rest, ⟨hc, rfl⟩, rfl, rfl⟩

theorem mem_many {accepts : Char → Bool} {taken : List Char} :
    (taken, rest) ∈ many accepts text ↔ text = taken ++ rest ∧ ∀ c ∈ taken, accepts c = true := by
  induction text generalizing taken with
  | nil =>
      rw [many, List.mem_singleton, Prod.mk.injEq]
      constructor
      · rintro ⟨rfl, rfl⟩
        exact ⟨rfl, nofun⟩
      · rintro ⟨hnil, -⟩
        exact List.append_eq_nil_iff.mp hnil.symm
  | cons d text ih =>
      rw [many]
      cases taken with
      | nil =>
          split
          · simp only [List.mem_append, List.mem_map, List.mem_singleton]; grind
          · simp only [List.mem_singleton]; grind
      | cons c taken =>
          split
          · next hd => simp [ih]; grind
          · next hd => simp; grind

theorem mem_word {same : Char → Char → Bool} {letters taken : List Char} :
    (taken, rest) ∈ word same letters text ↔
      text = taken ++ rest ∧ List.Forall₂ (fun letter c => same letter c = true) letters taken := by
  induction letters generalizing text taken rest with
  | nil =>
      rw [word, mem_done, List.forall₂_nil_left_iff]
      constructor
      · rintro ⟨rfl, rfl⟩
        exact ⟨rfl, rfl⟩
      · rintro ⟨rfl, rfl⟩
        exact ⟨rfl, rfl⟩
  | cons letter letters ih =>
      rw [word, mem_andThen]
      simp only [mem_one, mem_andThen, mem_done, ih]
      constructor
      · rintro ⟨c, middle, ⟨hc, rfl⟩, cs, last, ⟨rfl, hcs⟩, rfl, rfl⟩
        exact ⟨rfl, .cons hc hcs⟩
      · rintro ⟨rfl, hspelled⟩
        cases hspelled with
        | cons hc hcs => exact ⟨_, _, ⟨hc, rfl⟩, _, _, ⟨rfl, hcs⟩, rfl, rfl⟩

theorem word_andThen_of_spelled {same : Char → Char → Bool} {letters taken : List Char}
    (hspelled : List.Forall₂ (fun letter c => same letter c = true) letters taken)
    (next : List Char → Matcher Result) :
    andThen (word same letters) next (taken ++ rest) = next taken rest := by
  induction hspelled generalizing next with
  | nil => exact congrFun (done_andThen [] next) rest
  | cons hc _ ih =>
      rw [word, andThen_assoc, List.cons_append, one_andThen_of hc, andThen_assoc, ih,
        done_andThen]

/-! ## ASCII letters and digits -/

theorem isAlphanum_toNat {c : Char} (hc : c.isAlphanum = true) :
    (48 ≤ c.toNat ∧ c.toNat ≤ 57) ∨ (65 ≤ c.toNat ∧ c.toNat ≤ 90) ∨
      (97 ≤ c.toNat ∧ c.toNat ≤ 122) := by
  rcases Bool.or_eq_true_iff.mp hc with halpha | hdigit
  · rcases Bool.or_eq_true_iff.mp halpha with hupper | hlower
    · exact .inr (.inl (of_decide_eq_true hupper))
    · obtain ⟨hlow, hhigh⟩ := Bool.and_eq_true_iff.mp hlower
      exact .inr (.inr ⟨of_decide_eq_true hlow, of_decide_eq_true hhigh⟩)
  · obtain ⟨hlow, hhigh⟩ := Bool.and_eq_true_iff.mp hdigit
    exact .inl ⟨of_decide_eq_true hlow, of_decide_eq_true hhigh⟩

end AlgorithmHarness.Pattern
