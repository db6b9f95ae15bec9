import AlgorithmHarness.Harness.Accountants
import AlgorithmHarness.Strategies.Reach

/-!
# The pricing of the traces

A strategy keeps its iterations and its responses in two lists, which
`create_execution_result` pairs by position.  The pricing of a trace is
compared with the calls of its round, and the cost of the result with the costs
of all calls.
-/

namespace AlgorithmHarness.Strategies

open Harness

/-! ## Calls -/

namespace Outcome

def response : Outcome → Option LlmResponse
  | .answered response => some response
  | .failed _ => none

def pricing (outcome : Outcome) : Option PricingMetadata :=
  outcome.response.bind LlmResponse.pricingMetadata

/-- The cost of a call, if its pricing and its usage are known. -/
def cost (outcome : Outcome) : Option ℚ := outcome.pricing.bind PricingMetadata.trustedCost

end Outcome

/-- How the pricing of a response and that of a reflection become one. -/
def combinePricing (round : ℚ → ℚ → Amount) :
    Option PricingMetadata → Option PricingMetadata → Option PricingMetadata
  | some primary, some reflection => some (mergePricingMetadata round primary reflection)
  | some primary, none => some primary
  | none, reflection => reflection

/-- The calls of a round. -/
structure RoundCalls where
  solution : Outcome
  reflection : Option Outcome := none

namespace RoundCalls

variable (round : ℚ → ℚ → Amount) (calls : RoundCalls)

def outcomes : List Outcome := calls.solution :: calls.reflection.toList

def reflectionPricing : Option PricingMetadata := calls.reflection.bind Outcome.pricing

def pricing : Option PricingMetadata :=
  combinePricing round calls.solution.pricing calls.reflectionPricing

def cost : Option ℚ := (calls.pricing round).bind PricingMetadata.trustedCost

end RoundCalls

/-- Solutions and reflections take turns. -/
def pairCalls : List Outcome → List RoundCalls
  | [] => []
  | [solution] => [{ solution }]
  | solution :: reflection :: outcomes =>
      { solution, reflection := some reflection } :: pairCalls outcomes

def Strategy.roundCalls (strategy : Strategy) (outcomes : List Outcome) : List RoundCalls :=
  if strategy = .reflexion then pairCalls outcomes else outcomes.map fun solution => { solution }

/-! ## What is asked of a result -/

/-- Every trace of a round has the pricing of the calls of this round. -/
def TracesPriced (round : ℚ → ℚ → Amount) (traces : List Trace) (calls : List RoundCalls) : Prop :=
  ∀ (i : ℕ) (trace : Trace), traces[i]? = some trace → trace.iteration ≠ none →
    trace.account.pricingMetadata = calls[i]?.bind (RoundCalls.pricing round)

/-- The cost is known exactly if that of every call is, and is their sum. -/
structure CostsMatch (account : Account) (outcomes : List Outcome) : Prop where
  known : (resultCost account).2 = false ↔ ∀ outcome ∈ outcomes, outcome.cost ≠ none
  sum : (resultCost account).2 = false →
    (resultCost account).1 = (outcomes.filterMap Outcome.cost).sum

/-- What is asked of the result of a strategy with these calls. -/
structure PricingAligned (round : ℚ → ℚ → Amount) (strategy : Strategy)
    (result : ExecutionResult) (outcomes : List Outcome) : Prop where
  paired : TracesPriced round result.llmTraces (strategy.roundCalls outcomes)
  cost : outcomes ≠ [] → (∀ outcome ∈ outcomes, outcome.response ≠ none) →
    CostsMatch result.account outcomes

/-! ## When it holds -/

section Traces

variable {host : Host} {round : ℚ → ℚ → Amount}

def Trace.pricing (trace : Trace) : Option PricingMetadata := trace.account.pricingMetadata

theorem pricing_pricedTrace (iteration : IterationResult) (response : Option LlmResponse) :
    (pricedTrace host round iteration response).pricing = response.bind fun response =>
      combinePricing round response.pricingMetadata iteration.reflectionPricingMetadata := by
  cases response with
  | none => rfl
  | some response => rfl

theorem getElem?_llmTraces (iterations : List IterationResult)
    (responses : List (Option LlmResponse)) (i : ℕ) :
    (llmTraces host round iterations responses)[i]? =
      iterations[i]?.map fun iteration =>
        pricedTrace host round iteration responses[i]?.join := by
  induction iterations generalizing responses i with
  | nil => rfl
  | cons iteration iterations ih =>
      cases responses with
      | nil =>
          cases i with
          | zero => rfl
          | succ i =>
              rw [llmTraces, List.getElem?_cons_succ, ih, List.getElem?_cons_succ]
              rfl
      | cons response responses =>
          cases i with
          | zero => rfl
          | succ i =>
              rw [llmTraces, List.getElem?_cons_succ, ih, List.getElem?_cons_succ,
                List.getElem?_cons_succ]

end Traces

/-! ## Costs -/

section Costs

theorem trusted_eq (trace : Trace) :
    trace.account.trusted = trace.pricing.bind PricingMetadata.trustedCost := rfl

theorem resultCost_of_traces {result : ExecutionResult} (hsome : result.llmTraces ≠ []) :
    ((resultCost result.account).2 = false ↔
      ∀ trace ∈ result.llmTraces, trace.pricing.bind PricingMetadata.trustedCost ≠ none) ∧
    (resultCost result.account).1 =
      (result.llmTraces.filterMap fun trace =>
        trace.pricing.bind PricingMetadata.trustedCost).sum := by
  constructor
  · rw [resultCost_snd]
    have hempty : result.account.llmTraces.isEmpty = false := by
      rw [ExecutionResult.account, List.isEmpty_map]
      exact List.isEmpty_eq_false_iff.mpr hsome
    rw [hempty, Bool.false_and, Bool.false_or, ExecutionResult.account, List.any_map,
      List.any_eq_false]
    simp only [Function.comp_apply, Option.isNone_iff_eq_none, trusted_eq, ne_eq]
  · rw [resultCost_fst, ExecutionResult.account, List.filterMap_map]
    rfl

/-- The costs of the traces are those of a list with the same pricing. -/
theorem resultCost_of_pricing {Item : Type*} {result : ExecutionResult} {items : List Item}
    {pricing : Item → Option PricingMetadata}
    (hsame : result.llmTraces.map Trace.pricing = items.map pricing) (hsome : items ≠ []) :
    ((resultCost result.account).2 = false ↔
      ∀ item ∈ items, (pricing item).bind PricingMetadata.trustedCost ≠ none) ∧
    (resultCost result.account).1 =
      (items.filterMap fun item => (pricing item).bind PricingMetadata.trustedCost).sum := by
  have htraces : result.llmTraces ≠ [] := by
    intro hnil
    rw [hnil, List.map_nil] at hsame
    exact hsome (List.map_eq_nil_iff.mp hsame.symm)
  obtain ⟨hknown, hsum⟩ := resultCost_of_traces htraces
  constructor
  · calc (resultCost result.account).2 = false
        ↔ ∀ trace ∈ result.llmTraces, trace.pricing.bind PricingMetadata.trustedCost ≠ none :=
          hknown
      _ ↔ ∀ priced ∈ result.llmTraces.map Trace.pricing,
            priced.bind PricingMetadata.trustedCost ≠ none := by rw [List.forall_mem_map]
      _ ↔ ∀ priced ∈ items.map pricing, priced.bind PricingMetadata.trustedCost ≠ none := by
          rw [hsame]
      _ ↔ ∀ item ∈ items, (pricing item).bind PricingMetadata.trustedCost ≠ none := by
          rw [List.forall_mem_map]
  · rw [hsum]
    have hmapped := congrArg (List.filterMap fun pricing : Option PricingMetadata =>
      pricing.bind PricingMetadata.trustedCost) hsame
    rw [List.filterMap_map, List.filterMap_map] at hmapped
    exact congrArg List.sum hmapped

theorem costsMatch_of_pricing {result : ExecutionResult} {outcomes : List Outcome}
    (hsame : result.llmTraces.map Trace.pricing = outcomes.map Outcome.pricing)
    (hsome : outcomes ≠ []) : CostsMatch result.account outcomes := by
  obtain ⟨hknown, hsum⟩ := resultCost_of_pricing hsame hsome
  exact ⟨hknown, fun _ => hsum⟩

end Costs

/-! ## Calls of a session -/

namespace Session

variable {runtime : Runtime} {session middle later : Session}

/-- These calls were sent in between. -/
def Sent (session later : Session) (outcomes : List Outcome) : Prop :=
  ∃ calls : List (String × Outcome), later.sent = calls.reverse ++ session.sent ∧
    outcomes = calls.map Prod.snd

theorem Sent.refl (hsame : later.sent = session.sent) : Sent session later [] :=
  ⟨[], hsame, rfl⟩

theorem Sent.trans {first second : List Outcome} (hfirst : Sent session middle first)
    (hsecond : Sent middle later second) : Sent session later (first ++ second) := by
  obtain ⟨calls, hmiddle, rfl⟩ := hfirst
  obtain ⟨others, hlater, rfl⟩ := hsecond
  refine ⟨calls ++ others, ?_, ?_⟩
  · rw [hlater, hmiddle, List.reverse_append, List.append_assoc]
  · rw [List.map_append]

/-- A call is refused, or it is sent. -/
theorem generate_outcome {prompt : String} {reply : Reply}
    (hreply : session.generate runtime prompt = (reply, later)) :
    (∃ reason, reply = .refused reason ∧ Sent session later []) ∨
      ∃ outcome, reply = outcome.reply ∧ Sent session later [outcome] := by
  cases hrefusal : reply.refusal with
  | some reason =>
      cases reply with
      | refused reason =>
          obtain ⟨-, tracker, rfl⟩ := generate_refused hreply
          exact .inl ⟨reason, rfl, Sent.refl rfl⟩
      | answered response => cases hrefusal
      | failed message => cases hrefusal
  | none =>
      obtain ⟨hanswer, tracker, rfl⟩ := generate_sent hreply hrefusal
      exact .inr ⟨_, hanswer, [(prompt, _)], rfl, rfl⟩

theorem attributes_generate {prompt : String} {reply : Reply}
    (hreply : session.generate runtime prompt = (reply, later)) :
    later.attributes = session.attributes := by
  cases hrefusal : reply.refusal with
  | some reason =>
      cases reply with
      | refused reason =>
          obtain ⟨-, tracker, rfl⟩ := generate_refused hreply
          rfl
      | answered response => cases hrefusal
      | failed message => cases hrefusal
  | none =>
      obtain ⟨-, tracker, rfl⟩ := generate_sent hreply hrefusal
      rfl

end Session

theorem combinePricing_none (round : ℚ → ℚ → Amount) (pricing : Option PricingMetadata) :
    combinePricing round pricing none = pricing := by
  cases pricing with
  | none => rfl
  | some pricing => rfl

/-! ## Lists that belong to the same calls -/

section Aligned

variable {host : Host} {round : ℚ → ℚ → Amount} {iterations : List IterationResult}
  {responses : List (Option LlmResponse)} {outcomes : List Outcome}

/-- Iterations without reflections and responses, at the places of their calls. -/
structure Aligned (iterations : List IterationResult) (responses : List (Option LlmResponse))
    (outcomes : List Outcome) : Prop where
  length : iterations.length = outcomes.length
  unreflected : ∀ iteration ∈ iterations, iteration.reflectionPricingMetadata = none
  responses : ∀ i : ℕ, responses[i]?.join = outcomes[i]?.bind Outcome.response

theorem Aligned.empty : Aligned [] [] [] where
  length := rfl
  unreflected _ hmem := absurd hmem List.not_mem_nil
  responses _ := rfl

theorem Aligned.concat (haligned : Aligned iterations responses outcomes)
    (hlength : responses.length = outcomes.length) {iteration : IterationResult}
    (hplain : iteration.reflectionPricingMetadata = none) (outcome : Outcome) :
    Aligned (iterations ++ [iteration]) (responses ++ [outcome.response])
      (outcomes ++ [outcome]) where
  length := by rw [List.length_append, List.length_append, haligned.length]; rfl
  unreflected := List.forall_mem_append.mpr
    ⟨haligned.unreflected, List.forall_mem_singleton.mpr hplain⟩
  responses := by
    intro i
    rw [List.getElem?_append, List.getElem?_append, hlength]
    split
    · exact haligned.responses i
    · cases i - outcomes.length with
      | zero => rfl
      | succ i => rfl

theorem Aligned.pricing (haligned : Aligned iterations responses outcomes) :
    (llmTraces host round iterations responses).map Trace.pricing =
      outcomes.map Outcome.pricing := by
  apply List.ext_getElem?
  intro i
  rw [List.getElem?_map, List.getElem?_map, getElem?_llmTraces, Option.map_map]
  by_cases hi : i < outcomes.length
  · have hiteration : i < iterations.length := haligned.length.symm ▸ hi
    have hresponse := haligned.responses i
    rw [List.getElem?_eq_getElem hi, Option.bind_some] at hresponse
    rw [List.getElem?_eq_getElem hi, List.getElem?_eq_getElem hiteration, Option.map_some,
      Option.map_some, Function.comp_apply, pricing_pricedTrace, hresponse,
      haligned.unreflected _ (List.getElem_mem hiteration)]
    simp only [combinePricing_none]
    rfl
  · have hiteration : ¬i < iterations.length := haligned.length.symm ▸ hi
    rw [List.getElem?_eq_none (not_lt.mp hi), List.getElem?_eq_none (not_lt.mp hiteration)]
    rfl

theorem roundCalls_of_ne {strategy : Strategy} (hstrategy : strategy ≠ .reflexion)
    (outcomes : List Outcome) :
    strategy.roundCalls outcomes = outcomes.map fun solution => { solution } := if_neg hstrategy

theorem pricing_solution (solution : Outcome) :
    RoundCalls.pricing round { solution } = solution.pricing := combinePricing_none round _

theorem pricing_roundCalls {strategy : Strategy} (hstrategy : strategy ≠ .reflexion)
    (outcomes : List Outcome) (i : ℕ) :
    (strategy.roundCalls outcomes)[i]?.bind (RoundCalls.pricing round) =
      outcomes[i]?.bind Outcome.pricing := by
  rw [roundCalls_of_ne hstrategy, List.getElem?_map]
  cases outcomes[i]? with
  | none => rfl
  | some solution => exact pricing_solution solution

/-- A result whose traces have the pricing of the calls is right. -/
theorem pricingAligned_of_pricing {strategy : Strategy} (hstrategy : strategy ≠ .reflexion)
    {result : ExecutionResult}
    (hsame : result.llmTraces.map Trace.pricing = outcomes.map Outcome.pricing) :
    PricingAligned round strategy result outcomes where
  paired := by
    intro i trace htrace _
    have hpricing := congrArg (fun pricings => pricings[i]?) hsame
    simp only [List.getElem?_map, htrace, Option.map_some] at hpricing
    rw [pricing_roundCalls hstrategy]
    cases houtcome : outcomes[i]? with
    | none =>
        rw [houtcome] at hpricing
        cases hpricing
    | some outcome =>
        rw [houtcome, Option.map_some, Option.some_inj] at hpricing
        exact hpricing
  cost hsome _ := costsMatch_of_pricing hsame hsome

theorem Aligned.result (haligned : Aligned iterations responses outcomes) {strategy : Strategy}
    (hstrategy : strategy ≠ .reflexion) {result : ExecutionResult}
    (htraces : result.llmTraces = llmTraces host round iterations responses) :
    PricingAligned round strategy result outcomes := by
  apply pricingAligned_of_pricing hstrategy
  rw [htraces]
  exact haligned.pricing

end Aligned

section Loops

variable {runtime : Runtime} {problem : Problem}

end Loops

/-! ## Searches -/

section Trees

variable {runtime : Runtime} {problem : Problem}

/-- The calls a search has made so far. -/
structure Recorded (session later : Session) (outcomes : List Outcome) : Prop where
  sent : session.Sent later outcomes
  responses : later.attributes.callResponses = outcomes.map Outcome.response
  aligned : Aligned later.attributes.callIterations later.attributes.callResponses outcomes

theorem Recorded.generate {session middle : Session} {outcomes : List Outcome}
    (hrecorded : Recorded session middle outcomes) (prompt : String) (node : ThoughtNode)
    (callType : String) :
    ∃ more, Recorded session (generateRecorded runtime prompt node callType middle).2 more := by
  rw [generateRecorded]
  rcases hcall : middle.generate runtime prompt with ⟨reply, later⟩
  rcases Session.generate_outcome hcall with ⟨reason, rfl, hsent⟩ | ⟨outcome, rfl, hsent⟩
  · refine ⟨outcomes, ?_, ?_, ?_⟩
    · have hkept := hrecorded.sent.trans hsent
      rwa [List.append_nil] at hkept
    · exact (congrArg Attributes.callResponses (Session.attributes_generate hcall)).trans
        hrecorded.responses
    · dsimp only
      rw [Session.attributes_generate hcall]
      exact hrecorded.aligned
  · have hcounted : middle.attributes.callResponses.length = outcomes.length := by
      rw [hrecorded.responses, List.length_map]
    have hnext : ∀ iteration : IterationResult, iteration.reflectionPricingMetadata = none →
        Recorded session
          { later with
            attributes := later.attributes.recorded iteration outcome.response callType
              node.depth } (outcomes ++ [outcome]) := by
      intro iteration hplain
      refine ⟨hrecorded.sent.trans hsent, ?_, ?_⟩
      · rw [Attributes.recorded, Session.attributes_generate hcall, hrecorded.responses,
          List.map_append]
        rfl
      · rw [Attributes.recorded, Session.attributes_generate hcall]
        exact hrecorded.aligned.concat hcounted hplain outcome
    cases outcome with
    | answered response => exact ⟨_, hnext _ rfl⟩
    | failed message => exact ⟨_, hnext _ rfl⟩

theorem Recorded.records {session middle later : Session} {outcomes : List Outcome}
    (hrecorded : Recorded session middle outcomes)
    (hrecords : Relation.ReflTransGen (Session.Records runtime) middle later) :
    ∃ more, Recorded session later more := by
  induction hrecords with
  | refl => exact ⟨outcomes, hrecorded⟩
  | tail _ hrecord ih =>
      obtain ⟨before, hbefore⟩ := ih
      obtain ⟨prompt, node, callType, rfl⟩ := hrecord
      exact hbefore.generate prompt node callType

end Trees

/-! ## Candidates -/

section Places

variable {Item Answer Price : Type*} {answer : Item → Option Answer} {price : Answer → Option Price}

end Places

section Rounds

variable {host : Host} {round : ℚ → ℚ → Amount} {iterations : List IterationResult}
  {responses : List LlmResponse} {calls : List RoundCalls}

end Rounds

section Votes

variable (runtime : Runtime) (problem : Problem)

/-- The candidates after these calls. -/
structure Generated (candidates : Candidates) (outcomes : List Outcome) : Prop where
  unreflected : candidates.iterations.map IterationResult.reflectionPricingMetadata =
    outcomes.map fun _ => none
  responses : candidates.responses = outcomes.map Outcome.response

theorem Generated.empty : Generated {} [] := ⟨rfl, rfl⟩

end Votes

/-! ## Attempts and reflections -/

section Reflections

variable (runtime : Runtime) (problem : Problem) (config : RoundConfig)

/-- The variables after the calls of these rounds. -/
structure Attempted (rounds : Rounds) (calls : List RoundCalls) : Prop where
  reflected : rounds.iterations.map IterationResult.reflectionPricingMetadata =
    calls.map RoundCalls.reflectionPricing
  responses : rounds.responses = calls.filterMap fun calls => calls.solution.response

theorem Attempted.empty : Attempted {} [] := ⟨rfl, rfl⟩

variable {rounds : Rounds} {calls : List RoundCalls}

theorem Attempted.attempted (hattempted : Attempted rounds calls) {iteration : IterationResult}
    (hplain : iteration.reflectionPricingMetadata = none) (solution : Outcome)
    (tested : Tested) :
    Attempted (rounds.attempted iteration solution.response tested)
      (calls ++ [{ solution := solution }]) := by
  constructor
  · rw [Rounds.attempted, List.map_append, List.map_append, hattempted.reflected,
      List.map_singleton, hplain]
    rfl
  · rw [Rounds.attempted, hattempted.responses, List.filterMap_append]
    cases solution with
    | answered response => rfl
    | failed message => rfl

variable {round : ℚ → ℚ → Amount}

end Reflections

/-! ## Every strategy -/

end AlgorithmHarness.Strategies
