import AlgorithmHarness.RunAlerts.Manager

/-!
# Every threshold once for each channel

What a run delivered is what its state and its state file list, after every
call and every restart.  The comparison of a cost with a threshold rounds both
sides to 28 digits, so a cost may count as reached too early; the results
separate what depends on that.
-/

namespace AlgorithmHarness.RunAlerts

open KeyedRows
open Transition
open CostAlerts (Channel)
open Harness (Amount)

/-! ## The state -/

namespace AlertState

variable {state : AlertState}

@[simp]
theorem deliveredAt_setDefault (threshold other : ℕ) :
    (state.setDefault threshold).deliveredAt other = state.deliveredAt other := by
  rw [deliveredAt, setDefault]
  simp only [fetch_put]
  split_ifs with hkey
  · rw [toString_injective hkey]
    rfl
  · rfl

theorem deliveredAt_recordSuccess (threshold other : ℕ) (channel : Channel) :
    (state.recordSuccess threshold channel).deliveredAt other =
      if threshold = other then state.deliveredAt other ++ [channel]
      else state.deliveredAt other := by
  rw [deliveredAt, recordSuccess]
  simp only [fetch_put]
  by_cases hsame : threshold = other
  · rw [if_pos hsame, if_pos (congrArg _ hsame), hsame]
    rfl
  · rw [if_neg hsame, if_neg fun hkey => hsame (toString_injective hkey)]
    rfl

@[simp]
theorem deliveredAt_recordFailure (threshold other : ℕ) (channel : Channel) (failure : Failure) :
    (state.recordFailure threshold channel failure).deliveredAt other =
      state.deliveredAt other := rfl

theorem mem_failedAt {threshold : ℕ} {detail : Channel × Failure}
    (hdetail : detail ∈ state.failedAt threshold) :
    ∃ entry ∈ state.failed, detail ∈ entry.2 := by
  rw [failedAt] at hdetail
  cases hfetch : fetch Prod.fst (toString threshold) state.failed with
  | none =>
      rw [hfetch] at hdetail
      cases hdetail
  | some entry =>
      rw [hfetch] at hdetail
      exact ⟨entry, (fetch_mem hfetch).1, hdetail⟩

theorem Fit.put_delivered (hfit : state.Fit) (threshold : ℕ) (channels : List Channel) :
    AlertState.Fit
      { state with delivered := put Prod.fst (toString threshold, channels) state.delivered } where
  keys := nodup_put hfit.keys _
  numerals entry hentry := by
    rcases mem_put hentry with rfl | hold
    · exact isNumeral_toString threshold
    · exact hfit.numerals entry hold
  failedNumerals := hfit.failedNumerals
  failures := hfit.failures

theorem Fit.recordSuccess (hfit : state.Fit) (threshold : ℕ) (channel : Channel) :
    (state.recordSuccess threshold channel).Fit := by
  have hput := hfit.put_delivered threshold (state.deliveredAt threshold ++ [channel])
  refine ⟨hput.keys, hput.numerals, ?_, ?_⟩
  · intro entry hentry
    obtain ⟨before, hbefore, rfl⟩ := List.mem_map.mp hentry
    split_ifs
    · exact hfit.failedNumerals before hbefore
    · exact hfit.failedNumerals before hbefore
  · intro entry hentry detail hdetail
    obtain ⟨before, hbefore, rfl⟩ := List.mem_map.mp hentry
    split_ifs at hdetail
    · exact hfit.failures before hbefore detail (List.mem_filter.mp hdetail).1
    · exact hfit.failures before hbefore detail hdetail

theorem Fit.recordFailure (hfit : state.Fit) (threshold : ℕ) {channel : Channel}
    {failure : Failure} (hlog : channel ≠ .log) (hattempts : 1 ≤ failure.attempts)
    (herror : acceptsError failure.errorType = true) :
    (state.recordFailure threshold channel failure).Fit where
  keys := hfit.keys
  numerals := hfit.numerals
  failedNumerals entry hentry := by
    rcases mem_put hentry with rfl | hold
    · exact isNumeral_toString threshold
    · exact hfit.failedNumerals entry hold
  failures entry hentry detail hdetail := by
    rcases mem_put hentry with rfl | hold
    · rcases mem_put hdetail with rfl | hother
      · exact ⟨hlog, hattempts, herror⟩
      · obtain ⟨before, hbefore, hmem⟩ := mem_failedAt hother
        exact hfit.failures before hbefore detail hmem
    · exact hfit.failures entry hold detail hdetail

end AlertState

/-! ## A delivery -/

theorem acceptsError_status (status : ℕ) :
    acceptsError ("http_status_" ++ toString status) = true := by
  rw [acceptsError, Bool.or_eq_true_iff]
  refine .inr ?_
  rw [String.toList_append, List.isPrefixOf_iff_prefix]
  exact List.prefix_append _ _

theorem acceptsError_failure {channel : Channel} {attempt : Attempt} {error : String}
    {again : Bool} (hfailure : attempt.failure channel = some (error, again)) :
    acceptsError error = true := by
  cases attempt with
  | sent => cases hfailure
  | httpError status =>
      cases status with
      | none =>
          cases hfailure
          decide
      | some status =>
          cases hfailure
          exact acceptsError_status status
  | osError =>
      cases hfailure
      split_ifs <;> decide
  | _ =>
      cases hfailure
      decide

/-- A failed delivery was attempted, and its error is one the state file may hold. -/
theorem deliverFrom_failed {channel : Channel} {transport : ℕ → Attempt} {maxRetries : ℕ}
    {remaining attempt : ℕ} {lastError : Option String} (hattempt : 1 ≤ attempt)
    (hlast : remaining = 0 → ∃ error, lastError = some error ∧ acceptsError error = true)
    (hfailed : (deliverFrom channel transport maxRetries remaining attempt lastError).successful =
      false) :
    1 ≤ (deliverFrom channel transport maxRetries remaining attempt lastError).attempts ∧
      ∃ error, (deliverFrom channel transport maxRetries remaining attempt lastError).error =
        some error ∧ acceptsError error = true := by
  induction remaining generalizing attempt lastError with
  | zero => exact ⟨Nat.succ_pos _, hlast rfl⟩
  | succ remaining ih =>
      rw [deliverFrom] at hfailed ⊢
      cases hfailure : (transport attempt).failure channel with
      | none =>
          rw [hfailure] at hfailed
          cases hfailed
      | some failure =>
          obtain ⟨error, again⟩ := failure
          have haccepted := acceptsError_failure hfailure
          simp only [hfailure] at hfailed ⊢
          cases again with
          | true => exact ih (Nat.le_succ_of_le hattempt) (fun _ => ⟨error, rfl, haccepted⟩) hfailed
          | false => exact ⟨hattempt, error, rfl, haccepted⟩

theorem deliver_failed {channel : Channel} {transport : ℕ → Attempt} {maxRetries : ℕ}
    (hfailed : (deliver channel transport maxRetries).successful = false) :
    channel ≠ .log ∧ 1 ≤ (deliver channel transport maxRetries).attempts ∧
      acceptsError ((deliver channel transport maxRetries).error.getD "delivery_error") = true := by
  rw [deliver] at hfailed ⊢
  split_ifs at hfailed ⊢ with hlog
  obtain ⟨hattempts, error, herror, haccepted⟩ :=
    deliverFrom_failed le_rfl (fun hzero => absurd hzero (Nat.succ_ne_zero _)) hfailed
  refine ⟨hlog, hattempts, ?_⟩
  rw [herror]
  exact haccepted

/-! ## One call -/

/-- The state lists what was delivered. -/
def Lists (state : AlertState) (sent : List Sent) : Prop :=
  ∀ threshold channel,
    channel ∈ state.deliveredAt threshold ↔ (threshold, channel) ∈ sent.map Sent.pair

/-- The file can be read, and lists what was delivered. -/
def Restores (runId : String) (file : Option Json) (sent : List Sent) : Prop :=
  ∃ state, loadState runId file = .ok state ∧ state.Fit ∧ Lists state sent

/-- A file that was written for a state. -/
def IsSave (runId : String) (save : Json × AlertState) : Prop :=
  save.2.Fit ∧ save.1 = saveState runId save.2

theorem restores_saveState {runId : String} {state : AlertState} {sent : List Sent}
    (hfit : state.Fit) (hlists : Lists state sent) :
    Restores runId (some (saveState runId state)) sent := by
  refine ⟨state.sorted, loadState_saveState hfit, hfit.sorted, ?_⟩
  intro threshold channel
  rw [AlertState.deliveredAt_sorted hfit]
  exact hlists threshold channel

structure Progress.Sound (runId : String) (progress : Progress) : Prop where
  fit : progress.state.Fit
  lists : Lists progress.state progress.sent
  nodup : (progress.sent.map Sent.pair).Nodup
  restores : Restores runId progress.file progress.sent
  saves : ∀ save ∈ progress.saves, IsSave runId save

namespace Call

variable {call : Call} {progress : Progress}

theorem record_fit {state : AlertState} {threshold : ℕ} {channel : Channel}
    {transport : ℕ → Attempt} {maxRetries : ℕ} (hfit : state.Fit) :
    (record threshold channel (deliver channel transport maxRetries) state).Fit := by
  rw [record]
  split_ifs with hsuccess
  · exact hfit.recordSuccess threshold channel
  · obtain ⟨hlog, hattempts, herror⟩ := deliver_failed (Bool.eq_false_of_not_eq_true hsuccess)
    exact hfit.recordFailure threshold hlog hattempts herror

theorem deliveredAt_record (state : AlertState) (threshold other : ℕ) (channel : Channel)
    (delivery : Delivery) :
    (record threshold channel delivery state).deliveredAt other =
      if delivery.successful = true ∧ threshold = other then state.deliveredAt other ++ [channel]
      else state.deliveredAt other := by
  rw [record]
  cases delivery.successful with
  | true =>
      rw [if_pos rfl, AlertState.deliveredAt_recordSuccess]
      simp only [true_and]
  | false =>
      rw [if_neg Bool.false_ne_true, AlertState.deliveredAt_recordFailure]
      simp only [Bool.false_eq_true, false_and, if_false]

theorem processChannels_cons (call : Call) (progress : Progress) (threshold : ℕ)
    (channel : Channel) (channels : List Channel) :
    call.processChannels threshold (channel :: channels) progress =
      if skips threshold channel progress then call.processChannels threshold channels progress
      else
        match call.attempt threshold channel progress with
        | (progress, true) => call.processChannels threshold channels progress
        | (progress, false) => (progress, false) :=
  rfl

theorem processThresholds_cons (call : Call) (progress : Progress) (threshold : ℕ)
    (thresholds : List ℕ) :
    call.processThresholds (threshold :: thresholds) progress =
      match call.costs.due threshold with
      | none => (progress, false)
      | some false => call.processThresholds thresholds progress
      | some true =>
          match call.processChannels threshold call.config.channels
            { progress with state := progress.state.setDefault threshold } with
          | (progress, true) => call.processThresholds thresholds progress
          | (progress, false) => (progress, false) :=
  rfl

theorem sound_attempt (hsound : progress.Sound call.runId) {threshold : ℕ} {channel : Channel}
    (hskips : skips threshold channel progress = false) :
    (call.attempt threshold channel progress).1.Sound call.runId := by
  have hnew : (threshold, channel) ∉ progress.sent.map Sent.pair := by
    rw [skips, Bool.or_eq_false_iff] at hskips
    exact fun hmem => of_decide_eq_false hskips.1 ((hsound.lists threshold channel).mpr hmem)
  rw [attempt]
  cases hpayload : payload call.toFloat call.runId call.costs threshold with
  | none => exact ⟨hsound.fit, hsound.lists, hsound.nodup, hsound.restores, hsound.saves⟩
  | some payload =>
      simp only
      generalize hdelivery : deliver channel (call.transport threshold channel)
        call.config.maxRetries = delivery
      have hfit : (record threshold channel delivery progress.state).Fit :=
        hdelivery ▸ record_fit hsound.fit
      have hlists : Lists (record threshold channel delivery progress.state)
          (if delivery.successful then
            progress.sent ++ [{ threshold, channel, costs := call.costs }] else progress.sent) := by
        intro other wanted
        rw [deliveredAt_record]
        by_cases hsuccess : delivery.successful = true
        · rw [if_pos hsuccess, List.map_append, List.mem_append, ← hsound.lists other wanted]
          by_cases hsame : threshold = other
          · rw [if_pos ⟨hsuccess, hsame⟩, List.mem_append, hsame]
            simp [Sent.pair]
          · rw [if_neg fun hboth => hsame hboth.2]
            simp [Sent.pair, Ne.symm hsame]
        · rw [if_neg hsuccess, if_neg fun hboth => hsuccess hboth.1]
          exact hsound.lists other wanted
      have hnodup : ((if delivery.successful then
          progress.sent ++ [{ threshold, channel, costs := call.costs }]
            else progress.sent).map Sent.pair).Nodup := by
        split_ifs
        · rw [List.map_append, List.map_singleton]
          exact hsound.nodup.append (List.nodup_singleton _) (List.disjoint_singleton.mpr hnew)
        · exact hsound.nodup
      refine ⟨hfit, hlists, hnodup, restores_saveState hfit hlists, ?_⟩
      · intro save hsave
        rcases List.mem_append.mp hsave with hearlier | hlast
        · exact hsound.saves save hearlier
        · rw [List.mem_singleton.mp hlast]
          exact ⟨hfit, rfl⟩

theorem sound_processChannels (hsound : progress.Sound call.runId) (threshold : ℕ)
    (channels : List Channel) :
    (call.processChannels threshold channels progress).1.Sound call.runId := by
  induction channels generalizing progress with
  | nil => exact hsound
  | cons channel channels ih =>
      rw [processChannels_cons]
      split_ifs with hskips
      · exact ih hsound
      · have hnext := sound_attempt hsound (Bool.eq_false_of_not_eq_true hskips)
        split
        next later heq =>
          rw [heq] at hnext
          exact ih hnext
        next later heq =>
          rw [heq] at hnext
          exact hnext

theorem sound_setDefault (hsound : progress.Sound call.runId) (threshold : ℕ) :
    Progress.Sound call.runId { progress with state := progress.state.setDefault threshold } where
  fit := hsound.fit.put_delivered threshold _
  lists other channel := by
    rw [AlertState.deliveredAt_setDefault]
    exact hsound.lists other channel
  nodup := hsound.nodup
  restores := hsound.restores
  saves := hsound.saves

theorem sound_processThresholds (hsound : progress.Sound call.runId) (thresholds : List ℕ) :
    (call.processThresholds thresholds progress).1.Sound call.runId := by
  induction thresholds generalizing progress with
  | nil => exact hsound
  | cons threshold thresholds ih =>
      rw [processThresholds_cons]
      split
      next => exact hsound
      next => exact ih hsound
      next =>
        have hnext := sound_processChannels (sound_setDefault hsound threshold) threshold
          call.config.channels
        split
        next later heq =>
          rw [heq] at hnext
          exact ih hnext
        next later heq =>
          rw [heq] at hnext
          exact hnext

/-! ### What a call sends -/

/-- The channels of a threshold that have an attempt to make. -/
def wantedChannels (threshold : ℕ) (channels : List Channel) (progress : Progress) :
    List (ℕ × Channel) :=
  (channels.filter fun channel => !skips threshold channel progress).map fun channel =>
    (threshold, channel)

/-- The attempts of a call that is not interrupted. -/
def wanted (call : Call) (thresholds : List ℕ) (progress : Progress) : List (ℕ × Channel) :=
  (thresholds.filter fun threshold => call.costs.due threshold = some true).flatMap
    fun threshold => wantedChannels threshold call.config.channels progress

theorem channels_nodup (config : AlertConfig) : config.channels.Nodup := by
  rw [AlertConfig.channels]
  cases config.slack <;> cases config.webhook <;> cases config.smtp <;> decide

/-- An attempt leaves the other channels and thresholds as they were. -/
theorem skips_attempt {threshold other : ℕ} {channel wanted : Channel}
    (hother : (other, wanted) ≠ (threshold, channel)) :
    skips other wanted (call.attempt threshold channel progress).1 =
      skips other wanted progress := by
  have hattempted : (other, wanted) ∈ (threshold, channel) :: progress.attempted ↔
      (other, wanted) ∈ progress.attempted := by
    rw [List.mem_cons, or_iff_right hother]
  rw [attempt]
  split
  next =>
    simp only [skips, hattempted]
  next payload hpayload =>
    have hstate : ∀ delivery, wanted ∈ (record threshold channel delivery
        progress.state).deliveredAt other ↔ wanted ∈ progress.state.deliveredAt other := by
      intro delivery
      rw [deliveredAt_record]
      split_ifs with hsame
      · have hchannel : wanted ≠ channel := by
          intro heq
          exact hother (by rw [heq, hsame.2])
        rw [List.mem_append, List.mem_singleton, or_iff_left hchannel]
      · rfl
    simp only [skips, hattempted, hstate]

theorem events_attempt {threshold : ℕ} {channel : Channel} {later : Progress}
    (hattempt : call.attempt threshold channel progress = (later, true)) :
    later.events.map AlertEvent.pair =
      progress.events.map AlertEvent.pair ++ [(threshold, channel)] := by
  rw [attempt] at hattempt
  split at hattempt
  next => cases hattempt
  next payload hpayload =>
    cases hattempt
    simp only [List.map_append]
    rfl

theorem skips_processChannels {threshold other : ℕ} {channels : List Channel} {wanted : Channel}
    (hother : other ≠ threshold) :
    skips other wanted (call.processChannels threshold channels progress).1 =
      skips other wanted progress := by
  induction channels generalizing progress with
  | nil => rfl
  | cons channel channels ih =>
      rw [processChannels_cons]
      split_ifs
      · exact ih
      · have hattempt := @skips_attempt call progress threshold other channel wanted
          fun heq => hother (congrArg Prod.fst heq)
        split
        next later heq =>
          rw [heq] at hattempt
          exact ih.trans hattempt
        next later heq =>
          rw [heq] at hattempt
          exact hattempt

/-- The events of a threshold are its wanted channels. -/
theorem events_processChannels {threshold : ℕ} {channels : List Channel} {later : Progress}
    (hnodup : channels.Nodup)
    (hdone : call.processChannels threshold channels progress = (later, true)) :
    later.events.map AlertEvent.pair =
      progress.events.map AlertEvent.pair ++ wantedChannels threshold channels progress := by
  induction channels generalizing progress with
  | nil =>
      cases hdone
      exact (List.append_nil _).symm
  | cons channel channels ih =>
      obtain ⟨hnew, hrest⟩ := List.nodup_cons.mp hnodup
      rw [processChannels_cons] at hdone
      split_ifs at hdone with hskips
      · rw [ih hrest hdone, wantedChannels, wantedChannels, List.filter_cons_of_neg]
        rw [hskips]
        exact Bool.false_ne_true
      · split at hdone
        next middle heq =>
          -- The channels that follow are others, so this attempt does not touch them.
          have hsame : wantedChannels threshold channels middle =
              wantedChannels threshold channels progress := by
            rw [wantedChannels, wantedChannels]
            congr 1
            apply List.filter_congr
            intro wanted hwanted
            have hattempt := @skips_attempt call progress threshold threshold channel wanted
              fun hpair => hnew ((Prod.mk.inj hpair).2 ▸ hwanted)
            rw [heq] at hattempt
            rw [hattempt]
          have hwants : wantedChannels threshold (channel :: channels) progress =
              (threshold, channel) :: wantedChannels threshold channels progress := by
            rw [wantedChannels, List.filter_cons_of_pos, List.map_cons]
            · rfl
            · rw [Bool.eq_false_of_not_eq_true hskips]
              rfl
          rw [ih hrest hdone, events_attempt heq, hsame, hwants, List.append_assoc,
            List.singleton_append]
        next => cases hdone

/-- The events of a call are the pairs it had to attempt. -/
theorem events_processThresholds {thresholds : List ℕ} {later : Progress}
    (hnodup : thresholds.Nodup)
    (hdone : call.processThresholds thresholds progress = (later, true)) :
    later.events.map AlertEvent.pair =
      progress.events.map AlertEvent.pair ++ call.wanted thresholds progress := by
  induction thresholds generalizing progress with
  | nil =>
      cases hdone
      exact (List.append_nil _).symm
  | cons threshold thresholds ih =>
      obtain ⟨hnew, hrest⟩ := List.nodup_cons.mp hnodup
      rw [processThresholds_cons] at hdone
      split at hdone
      next => cases hdone
      next hdue =>
        rw [ih hrest hdone, wanted, wanted, List.filter_cons_of_neg]
        rw [hdue]
        decide
      next hdue =>
        split at hdone
        next middle heq =>
          have hsame : call.wanted thresholds middle = call.wanted thresholds progress := by
            rw [wanted, wanted]
            apply List.flatMap_congr
            intro other hother
            have hne : other ≠ threshold := by
              intro hequal
              exact hnew (hequal ▸ (List.mem_filter.mp hother).1)
            rw [wantedChannels, wantedChannels]
            congr 1
            apply List.filter_congr
            intro channel _
            have hchannels := @skips_processChannels call
              { progress with state := progress.state.setDefault threshold } threshold other
              call.config.channels channel hne
            rw [heq] at hchannels
            rw [hchannels]
            simp only [skips, AlertState.deliveredAt_setDefault]
          have hwants : call.wanted (threshold :: thresholds) progress =
              wantedChannels threshold call.config.channels progress ++
                call.wanted thresholds progress := by
            rw [wanted, List.filter_cons_of_pos (by rw [hdue]; decide), List.flatMap_cons]
            rfl
          have hdefault : wantedChannels threshold call.config.channels
              { progress with state := progress.state.setDefault threshold } =
                wantedChannels threshold call.config.channels progress := by
            simp only [wantedChannels, skips, AlertState.deliveredAt_setDefault]
          rw [ih hrest hdone, events_processChannels (channels_nodup _) heq, hsame, hwants,
            hdefault, List.append_assoc]
        next => cases hdone

end Call

/-! ## Rounding -/

namespace Costs

/-- A threshold that is not reached stays so when both sides of the comparison are
rounded to the digits of the context. -/
def KeepsOrder (costs : Costs) (threshold : ℕ) : Prop :=
  costs.accumulated * 100 < costs.cap * threshold →
    ∀ scaled bound, costs.scaled = some scaled → costs.bound threshold = some bound →
      scaled < bound

theorem KeepsOrder.reached {costs : Costs} {threshold : ℕ} (hkeeps : costs.KeepsOrder threshold)
    (hdue : costs.due threshold = some true) : costs.Reached threshold := by
  rw [Reached]
  by_contra hbelow
  rw [due] at hdue
  cases hscaled : costs.scaled with
  | none =>
      rw [hscaled] at hdue
      cases hdue
  | some scaled =>
      cases hbound : costs.bound threshold with
      | none =>
          rw [hscaled, hbound] at hdue
          cases hdue
      | some bound =>
          have hless := hkeeps (not_le.mp hbelow) scaled bound hscaled hbound
          rw [hscaled, hbound] at hdue
          simp [hless] at hdue

end Costs

/-! ## Every run -/

section Run

variable {toFloat : ℚ → Amount} {runId : String} {world next : World}

structure World.Sound (runId : String) (world : World) : Prop where
  nodup : (world.sent.map Sent.pair).Nodup
  restores : Restores runId world.file world.sent
  saves : ∀ save ∈ world.saves, IsSave runId save
  manager : ∀ manager, world.manager = some manager →
    manager.state.Fit ∧ Lists manager.state world.sent

theorem World.Sound.progress (hsound : world.Sound runId) {manager : Manager}
    (hmanager : world.manager = some manager) (events : List AlertEvent) :
    Progress.Sound runId
      { attempted := manager.attempted
        state := manager.state
        file := world.file
        events := events
        sent := world.sent
        saves := world.saves } where
  fit := (hsound.manager manager hmanager).1
  lists := (hsound.manager manager hmanager).2
  nodup := hsound.nodup
  restores := hsound.restores
  saves := hsound.saves

theorem World.Sound.process (hsound : world.Sound runId) {manager : Manager}
    (hmanager : world.manager = some manager) (accumulated : Amount) (cap : Option Amount)
    (unknown : ℤ) (transport : ℕ → Channel → ℕ → Attempt) :
    (world.process toFloat runId manager accumulated cap unknown transport).1.Sound runId := by
  rw [World.process.eq_def]
  split
  next => exact hsound
  next cap =>
    split
    next => exact hsound
    next costs hcosts =>
      have hprogress := @Call.sound_processThresholds
        { runId, config := manager.config, costs, transport, toFloat } _
        (hsound.progress hmanager []) manager.config.thresholds
      refine ⟨hprogress.nodup, hprogress.restores, hprogress.saves, ?_⟩
      intro later hlater
      cases hlater
      exact ⟨hprogress.fit, hprogress.lists⟩

theorem sound_preserved : Preserved (World.step toFloat runId) (World.Sound runId) := by
  intro world label next hsound hstep
  cases label with
  | start config =>
      obtain ⟨state, hload, hfit, hlists⟩ := hsound.restores
      simp only [World.step, hload] at hstep
      cases hstep
      refine ⟨hsound.nodup, hsound.restores, hsound.saves, ?_⟩
      intro manager hmanager
      cases hmanager
      exact ⟨hfit, hlists⟩
  | process accumulated cap unknown transport =>
      obtain ⟨manager, hmanager, rfl⟩ := Option.map_eq_some_iff.mp hstep
      exact hsound.process hmanager accumulated cap unknown transport

theorem World.Sound.attempted (hsound : world.Sound runId) {manager : Manager}
    {accumulated cap : Amount} {unknown : ℤ} {transport : ℕ → Channel → ℕ → Attempt}
    {costs : Costs} {events : List AlertEvent} (hmanager : world.manager = some manager)
    (hcosts : checkedCosts accumulated cap unknown = .ok costs)
    (hevents : (world.process toFloat runId manager accumulated (some cap) unknown transport).2 =
      .ok events) :
    events.map AlertEvent.pair =
      (manager.config.thresholds.filter fun threshold =>
        costs.due threshold = some true).flatMap fun threshold =>
          (manager.config.channels.filter fun channel =>
            (threshold, channel) ∉ world.sent.map Sent.pair ∧
              (threshold, channel) ∉ manager.attempted).map fun channel =>
                (threshold, channel) := by
  simp only [World.process, hcosts] at hevents
  split_ifs at hevents with hdone
  cases hevents
  rw [Call.events_processThresholds manager.config.unique (Prod.ext rfl hdone)]
  change [] ++ _ = _
  rw [List.nil_append, Call.wanted]
  apply List.flatMap_congr
  intro threshold _
  rw [Call.wantedChannels]
  congr 1
  apply List.filter_congr
  intro channel _
  have hlists := (hsound.manager manager hmanager).2 threshold channel
  simp only [Call.skips, hlists, Bool.not_or, ← decide_not, ← Bool.decide_and]

end Run

/-! ## Two runs -/

end AlgorithmHarness.RunAlerts
