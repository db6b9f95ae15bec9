import AlgorithmHarness.Browser.ObserverMoves

/-!
# The observer never shows an older state over a newer one

A snapshot that is shown comes from the latest request, and nothing that
supersedes a request has happened since that request.
-/

namespace AlgorithmHarness.Browser

open Transition

/-- Since the request nothing has superseded it. -/
def Current (log : List Entry) (request : ℕ) : Prop :=
  ∃ since evaluationId before, log = since ++ .requested request evaluationId :: before ∧
    ∀ entry ∈ since, ¬entry.Supersedes

/-- Every snapshot that was shown was current. -/
def ShownCurrent (log : List Entry) : Prop :=
  ∀ later request evaluation mode earlier,
    log = later ++ .snapshot request evaluation mode :: earlier → Current earlier request

theorem Current.append {log : List Entry} {request : ℕ} (hcurrent : Current log request)
    {later : List Entry} (hlater : ∀ entry ∈ later, ¬entry.Supersedes) :
    Current (later ++ log) request := by
  obtain ⟨since, evaluationId, before, rfl, hsince⟩ := hcurrent
  refine ⟨later ++ since, evaluationId, before, by rw [List.append_assoc], ?_⟩
  intro entry hentry
  rcases List.mem_append.mp hentry with hmem | hmem
  · exact hlater entry hmem
  · exact hsince entry hmem

theorem current_requested (log : List Entry) (request : ℕ) (evaluationId : String) :
    Current (.requested request evaluationId :: log) request :=
  ⟨[], evaluationId, log, rfl, by simp⟩

theorem ShownCurrent.cons {log : List Entry} (hshown : ShownCurrent log) {entry : Entry}
    (hentry : ∀ request evaluation mode, entry = .snapshot request evaluation mode →
      Current log request) : ShownCurrent (entry :: log) := by
  intro later request evaluation mode earlier hlog
  cases later with
  | nil =>
    obtain ⟨rfl, rfl⟩ := List.cons.inj hlog
    exact hentry request evaluation mode rfl
  | cons first later => exact hshown later request evaluation mode earlier (List.cons.inj hlog).2

theorem ShownCurrent.append {log : List Entry} (hshown : ShownCurrent log) {since : List Entry}
    (hunseen : ∀ entry ∈ since, ¬entry.IsSnapshot) : ShownCurrent (since ++ log) := by
  induction since with
  | nil => exact hshown
  | cons entry since ih =>
    obtain ⟨hentry, hunseen⟩ := List.forall_mem_cons.mp hunseen
    refine (ih hunseen).cons ?_
    rintro request evaluation mode rfl
    exact absurd trivial hentry

namespace Observer

/-! ## The requests of a state -/

/-- The request in flight is the only one that is not aborted, it is of the
current epoch, and nothing has superseded it. -/
structure Fresh (observer : Observer) : Prop where
  distinct : observer.requests.Nodup
  old : ∀ request ∈ observer.requests, request ≤ observer.epoch
  abortedOld : ∀ request ∈ observer.aborted, request ≤ observer.epoch
  inFlight : ∀ request ∈ observer.requests, request ∉ observer.aborted →
    observer.inFlight = some request
  outstanding : ∀ request, observer.inFlight = some request → request ∈ observer.requests
  current : ∀ request, observer.inFlight = some request → request ∉ observer.aborted →
    request = observer.epoch ∧ Current observer.log request
  shown : ShownCurrent observer.log

variable {observer : Observer}

/-! ## Fresh states -/

/-- Every request is aborted. -/
def Quiesced (observer : Observer) : Prop :=
  ∀ request ∈ observer.requests, request ∈ observer.aborted

variable {before after : Observer}

theorem Quiesced.moves (hquiet : Quiesced before) (hmoves : Moves before after) :
    Quiesced after := by
  intro request hrequest
  exact hmoves.aborted (hquiet request (hmoves.requests ▸ hrequest))

theorem Fresh.of_moves (hfresh : Fresh before) (hmoves : Moves before after)
    (hcurrent : ∀ request, after.inFlight = some request → request ∉ after.aborted →
      request = after.epoch ∧ Current after.log request) : Fresh after where
  distinct := hmoves.requests ▸ hfresh.distinct
  old request hrequest :=
    Nat.le_trans (hfresh.old request (hmoves.requests ▸ hrequest)) hmoves.epoch
  abortedOld request hrequest := by
    refine Nat.le_trans ?_ hmoves.epoch
    rcases hmoves.aborts request hrequest with hmem | hflight
    · exact hfresh.abortedOld request hmem
    · exact hfresh.old request (hfresh.outstanding request hflight)
  inFlight request hrequest hlive := by
    rw [hmoves.inFlight]
    exact hfresh.inFlight request (hmoves.requests ▸ hrequest)
      fun hmem => hlive (hmoves.aborted hmem)
  outstanding request hflight := by
    rw [hmoves.requests]
    exact hfresh.outstanding request (hmoves.inFlight ▸ hflight)
  current := hcurrent
  shown := by
    obtain ⟨since, hlog, hunseen⟩ := hmoves.log
    rw [hlog]
    exact hfresh.shown.append hunseen

/-- The flags and the connection do not matter. -/
theorem Fresh.of_flights (hfresh : Fresh before) (hflights : after.flights = before.flights)
    (hepoch : after.epoch = before.epoch) : Fresh after := by
  refine hfresh.of_moves (.of_flights hflights (Nat.le_of_eq hepoch.symm)) ?_
  simp only [flights, Prod.mk.injEq] at hflights
  obtain ⟨-, hinFlight, haborted, hlog⟩ := hflights
  rw [hinFlight, haborted, hepoch, hlog]
  exact hfresh.current

theorem Fresh.keeps (hfresh : Fresh before) (hkeeps : Keeps before after) : Fresh after := by
  apply hfresh.of_moves hkeeps.toMoves
  intro request hflight hlive
  obtain ⟨since, hlog, hplain⟩ := hkeeps.plain
  obtain ⟨hepoch, hcurrent⟩ := hfresh.current request (hkeeps.inFlight ▸ hflight)
    fun hmem => hlive (hkeeps.aborted hmem)
  rw [hkeeps.sameEpoch, hlog]
  exact ⟨hepoch, hcurrent.append hplain⟩

/-- Where every request is aborted, anything may supersede them. -/
theorem Fresh.moves (hfresh : Fresh before) (hmoves : Moves before after)
    (hquiet : Quiesced after) : Fresh after := by
  apply hfresh.of_moves hmoves
  intro request hflight hlive
  have hrequest := hfresh.outstanding request (hmoves.inFlight ▸ hflight)
  exact absurd (hquiet request (hmoves.requests ▸ hrequest)) hlive

/-- The request in flight is the only one that is not aborted. -/
def OneLive (observer : Observer) : Prop :=
  ∀ request ∈ observer.requests, request ∉ observer.aborted → observer.inFlight = some request

theorem OneLive.abort (hone : OneLive observer) : Quiesced observer.abortInFlight := by
  intro request hrequest
  by_cases hlive : request ∈ observer.aborted
  · exact keeps_abortInFlight.aborted hlive
  · rw [keeps_abortInFlight.requests] at hrequest
    have hflight := hone request hrequest hlive
    rw [abortInFlight, hflight]
    exact List.mem_cons_self

theorem OneLive.stop (hone : OneLive observer) : Quiesced observer.stopObserving :=
  hone.abort.moves keeps_stop.toMoves

/-- With nothing in flight every request is aborted. -/
theorem Fresh.quiesced (hfresh : Fresh observer)
    (hflight : ∀ request, observer.inFlight = some request → request ∈ observer.aborted) :
    Quiesced observer := by
  intro request hrequest
  by_contra hlive
  exact hlive (hflight request (hfresh.inFlight request hrequest hlive))

theorem Fresh.dropFlight (hfresh : Fresh observer) (hquiet : Quiesced observer) :
    Fresh { observer with inFlight := none } where
  distinct := hfresh.distinct
  old := hfresh.old
  abortedOld := hfresh.abortedOld
  inFlight request hrequest hlive := absurd (hquiet request hrequest) hlive
  outstanding _ hflight := nomatch hflight
  current _ hflight := nomatch hflight
  shown := hfresh.shown

theorem Fresh.beginEpoch (hfresh : Fresh observer) (hquiet : Quiesced observer)
    {evaluationId : String} : Fresh (observer.beginEpoch evaluationId) where
  distinct := by
    refine List.nodup_cons.mpr ⟨?_, hfresh.distinct⟩
    intro hmem
    exact absurd (hfresh.old _ hmem) (Nat.not_succ_le_self _)
  old := by
    refine List.forall_mem_cons.mpr ⟨Nat.le_refl _, ?_⟩
    exact fun request hrequest => Nat.le_succ_of_le (hfresh.old request hrequest)
  abortedOld request hrequest := Nat.le_succ_of_le (hfresh.abortedOld request hrequest)
  inFlight request hrequest hlive := by
    rcases List.mem_cons.mp hrequest with rfl | hmem
    · rfl
    · exact absurd (hquiet request hmem) hlive
  outstanding request hflight := by
    cases hflight
    exact List.mem_cons_self
  current request hflight _ := by
    cases hflight
    exact ⟨rfl, current_requested ..⟩
  shown := hfresh.shown.cons fun _ _ _ hentry => nomatch hentry

theorem Fresh.fetchSnapshot (hfresh : Fresh observer) (hquiet : Quiesced observer) {now : ℕ}
    {evaluationId : String} : Fresh (observer.fetchSnapshot now evaluationId) := by
  rw [Observer.fetchSnapshot]
  split
  · split
    · exact hfresh.keeps (.of_core rfl)
    · exact hfresh
  · exact hfresh.beginEpoch hquiet

theorem Fresh.requestSnapshot (hfresh : Fresh observer) {now : ℕ} :
    Fresh (observer.requestSnapshot now) := by
  rw [Observer.requestSnapshot]
  split
  · exact hfresh
  split
  · exact hfresh
  split
  · rename_i request hflight
    split
    · have haborted := hfresh.keeps (observer.keeps_abortInFlight)
      have hquiet := OneLive.abort hfresh.inFlight
      exact (haborted.dropFlight hquiet).fetchSnapshot hquiet
    · exact hfresh.keeps (.of_core rfl)
  · rename_i hflight
    exact hfresh.fetchSnapshot (hfresh.quiesced (by simp [hflight]))

/-! ## Steps -/

theorem Fresh.complete (hfresh : Fresh observer) (request : ℕ) :
    Fresh (observer.complete request) := by
  have hflight : ∀ other, (observer.complete request).inFlight = some other →
      observer.inFlight = some other ∧ other ≠ request := by
    intro other hother
    rw [Observer.complete] at hother
    by_cases hsame : observer.inFlight = some request
    · simp [hsame] at hother
    · simp only [hsame, if_false] at hother
      exact ⟨hother, fun heq => hsame (heq ▸ hother)⟩
  exact
    { distinct := hfresh.distinct.filter _
      old := fun other hother => hfresh.old other (List.mem_filter.mp hother).1
      abortedOld := hfresh.abortedOld
      inFlight := by
        intro other hother hlive
        obtain ⟨hmem, hne⟩ := List.mem_filter.mp hother
        have hin := hfresh.inFlight other hmem hlive
        have hne : other ≠ request := of_decide_eq_true hne
        simp [Observer.complete, hin, hne]
      outstanding := by
        intro other hother
        obtain ⟨hin, hne⟩ := hflight other hother
        exact List.mem_filter.mpr ⟨hfresh.outstanding other hin, decide_eq_true hne⟩
      current := fun other hother hlive => hfresh.current other (hflight other hother).1 hlive
      shown := hfresh.shown }

/-- A completion that counts is the one of the request in flight. -/
theorem Fresh.accepted (hfresh : Fresh observer) {request : ℕ}
    (hrequest : request ∈ observer.requests)
    (haccepts : (observer.complete request).accepts request = true) :
    Quiesced (observer.complete request) ∧ Current (observer.complete request).log request := by
  have hlive : request ∉ observer.aborted := by
    simp only [accepts, Bool.and_eq_true, decide_eq_true_eq] at haccepts
    exact haccepts.2
  have hflight := hfresh.inFlight request hrequest hlive
  refine ⟨(hfresh.complete request).quiesced ?_, (hfresh.current request hflight hlive).2⟩
  simp [Observer.complete, hflight]

theorem Fresh.show (hfresh : Fresh observer) (hquiet : Quiesced observer) {request : ℕ}
    (hcurrent : Current observer.log request) {evaluation : Evaluation} {mode : ObserverMode} :
    Fresh (observer.emit (.snapshot request evaluation mode)) := by
  rw [emit]
  split
  · exact hfresh
  · exact
      { hfresh with
        current := fun other hflight hlive =>
          absurd (hquiet other (hfresh.outstanding other hflight)) hlive
        shown := hfresh.shown.cons fun _ _ _ hentry => by cases hentry; exact hcurrent }

theorem Fresh.deliverSnapshot (hfresh : Fresh observer) (hquiet : Quiesced observer)
    {request : ℕ} (hcurrent : Current observer.log request) {result : Evaluation} :
    Fresh (observer.deliverSnapshot request result) ∧
      Quiesced (observer.deliverSnapshot request result) := by
  have hshown : Fresh (observer.emit (.snapshot request result observer.mode)) :=
    hfresh.show hquiet hcurrent
  have hshownQuiet : Quiesced (observer.emit (.snapshot request result observer.mode)) := by
    rw [emit]
    split <;> exact hquiet
  rw [Observer.deliverSnapshot]
  generalize observer.emit (.snapshot request result observer.mode) = shown at hshown hshownQuiet ⊢
  have hfollows : ∀ {moved : Observer}, Moves shown moved → Fresh moved ∧ Quiesced moved :=
    fun hmoves => ⟨hshown.moves hmoves (hshownQuiet.moves hmoves), hshownQuiet.moves hmoves⟩
  apply hfollows
  split
  · exact acts_settleWith.toMoves
  split
  · exact keeps_armStale.toMoves
  · exact .of_flights rfl (Nat.le_refl _)
  · exact .of_flights rfl (Nat.le_refl _)

theorem Fresh.fetched (hfresh : Fresh observer) {now request : ℕ} {result : Evaluation}
    (hrequest : request ∈ observer.requests) :
    Fresh (observer.fetched now request result) := by
  have hcomplete := hfresh.complete request
  rw [Observer.fetched]
  dsimp only
  split
  · exact hcomplete
  · rename_i haccepts
    obtain ⟨hquiet, hcurrent⟩ := hfresh.accepted hrequest (by simpa using haccepts)
    have hdelivered : Fresh ((observer.complete request).deliverSnapshot request result) :=
      (hcomplete.deliverSnapshot hquiet hcurrent).1
    split
    · refine Fresh.requestSnapshot (hdelivered.keeps ?_)
      exact .of_core rfl
    · exact hdelivered

theorem Fresh.fetchFailed (hfresh : Fresh observer) {now request : ℕ} {error : FetchError} :
    Fresh (observer.fetchFailed now request error) := by
  rw [Observer.fetchFailed]
  split
  · exact (hfresh.complete request).keeps keeps_handleFetchError
  · exact hfresh.complete request

/-- Whatever supersedes the requests aborts the one in flight. -/
theorem Fresh.stopAfter (hfresh : Fresh before) (hmoves : Moves before after) :
    Fresh after.stopObserving := by
  have hone : OneLive after := by
    intro request hrequest hlive
    rw [hmoves.inFlight]
    exact hfresh.inFlight request (hmoves.requests ▸ hrequest)
      fun hmem => hlive (hmoves.aborted hmem)
  exact hfresh.moves (hmoves.trans keeps_stopObserving.toMoves) hone.stop

theorem Fresh.pause (hfresh : Fresh observer) : Fresh observer.pause :=
  hfresh.stopAfter ((moves_record id).after (.of_flights rfl (Nat.le_refl _)))

theorem Fresh.resumeIfNeeded (hfresh : Fresh observer) {now : ℕ} :
    Fresh (observer.resumeIfNeeded now) := by
  rw [Observer.resumeIfNeeded]
  split
  · exact hfresh
  · have hreset : Fresh { observer with connectAttempts := 0, pollFailures := 0 } :=
      hfresh.keeps (.of_core rfl)
    exact hreset.requestSnapshot.keeps keeps_connect

theorem Fresh.setVisible (hfresh : Fresh observer) {now : ℕ} {next : Bool} :
    Fresh (observer.setVisible now next) := by
  rw [Observer.setVisible]
  split
  · exact hfresh
  split
  · refine Fresh.resumeIfNeeded (hfresh.of_flights ?_ ?_) <;> rfl
  · refine Fresh.pause (hfresh.of_flights ?_ ?_) <;> rfl

theorem Fresh.setOnline (hfresh : Fresh observer) {now : ℕ} {next : Bool} :
    Fresh (observer.setOnline now next) := by
  rw [Observer.setOnline]
  split
  · exact hfresh
  split
  · refine Fresh.resumeIfNeeded (hfresh.of_flights ?_ ?_) <;> rfl
  · refine Fresh.pause (hfresh.of_flights ?_ ?_) <;> rfl

theorem Fresh.start (hfresh : Fresh observer) {now : ℕ} {id : String} :
    Fresh (observer.start now id) := by
  rw [Observer.start]
  split
  · exact hfresh
  split
  · exact hfresh
  · have hrecorded : Moves observer (observer.stopObserving.record .started) :=
      keeps_stopObserving.toMoves.trans (moves_record not_false)
    have hepoch : observer.stopObserving.epoch ≤ observer.epoch + 1 := by
      rw [keeps_stopObserving.sameEpoch]
      exact Nat.le_succ _
    have hmoves : Moves observer
        { observer.stopObserving.record .started with
          evaluationId := some id, epoch := observer.epoch + 1 } :=
      hrecorded.trans (.of_flights rfl hepoch)
    have hbegun := hfresh.moves hmoves (OneLive.stop hfresh.inFlight)
    dsimp only
    split
    · exact hbegun.keeps keeps_setMode
    · exact (hbegun.keeps keeps_setMode).requestSnapshot.keeps keeps_connect

theorem Fresh.runMutation (hfresh : Fresh observer) : Fresh observer.runMutation := by
  have hrecorded : Moves observer (observer.record .mutation) := moves_record not_false
  have haborted := hrecorded.trans keeps_abortInFlight.toMoves
  have hepoch : (observer.record .mutation).abortInFlight.epoch ≤ observer.epoch + 1 := by
    rw [keeps_abortInFlight.sameEpoch]
    exact Nat.le_succ _
  have hone : OneLive (observer.record .mutation) := hfresh.inFlight
  exact hfresh.moves (haborted.trans (.of_flights rfl hepoch)) hone.abort

theorem Fresh.dispose (hfresh : Fresh observer) : Fresh observer.dispose := by
  have hdisposed : Fresh ({ observer with disposed := true }.record .disposed).stopObserving :=
    hfresh.stopAfter ((moves_record id).after (.of_flights rfl (Nat.le_refl _)))
  exact hdisposed.keeps (.of_core rfl)

theorem Fresh.fire (hfresh : Fresh observer) {now : ℕ} {timer : Timer} :
    Fresh (observer.fire now timer) := by
  have hdisarmed : Fresh (observer.disarm timer) := by
    apply hfresh.of_flights
    · cases timer <;> rfl
    · cases timer <;> rfl
  rw [Observer.fire.eq_def]
  generalize observer.disarm timer = fired at hdisarmed ⊢
  dsimp only
  split
  · exact hdisarmed
  split
  · exact hdisarmed.keeps keeps_connect
  · split
    · rename_i connection _
      have hgone : Fresh ({ fired with conn := none }.closeSocket connection.number) :=
        hdisarmed.of_flights rfl rfl
      exact hgone.keeps keeps_handleSocketFailure
    · exact hdisarmed
  all_goals exact hdisarmed.requestSnapshot

theorem Fresh.recovered (hfresh : Fresh observer) {now : ℕ} {success : Bool} :
    Fresh (observer.recovered now success) := by
  have hresumed : Fresh { observer with recovering := observer.recovering - 1 } :=
    hfresh.of_flights rfl rfl
  rw [Observer.recovered]
  dsimp only
  split
  · exact hresumed
  split
  · exact (hresumed.keeps keeps_setMode).requestSnapshot.keeps keeps_connect
  · exact (hresumed.keeps (keeps_emit id id)).keeps keeps_setMode

theorem Fresh.step (hfresh : Fresh observer) {label : ℕ × Event} {next : Observer}
    (hstep : observer.step label = some next) : Fresh next := by
  obtain ⟨now, event⟩ := label
  cases event with
  | start id => cases hstep; exact hfresh.start
  | refresh => cases hstep; exact hfresh.requestSnapshot
  | invalidate => cases hstep; exact hfresh.keeps keeps_invalidate
  | setVisible visible => cases hstep; exact hfresh.setVisible
  | setOnline online => cases hstep; exact hfresh.setOnline
  | runMutation => cases hstep; exact hfresh.runMutation
  | dispose => cases hstep; exact hfresh.dispose
  | onOpen number => cases hstep; exact hfresh.keeps keeps_onOpen
  | onMessage number type => cases hstep; exact hfresh.keeps keeps_onMessage
  | onClose number code => cases hstep; exact hfresh.keeps keeps_onClose
  | onError number => cases hstep; exact hfresh.keeps keeps_onError
  | mutationDone =>
    obtain ⟨-, ⟨⟩⟩ := Option.ite_none_left_eq_some.mp hstep
    have hdone : Fresh { observer with mutations := observer.mutations - 1 } :=
      hfresh.of_flights rfl rfl
    exact hdone.keeps keeps_mutationDone
  | fire timer =>
    obtain ⟨-, ⟨⟩⟩ := Option.ite_none_right_eq_some.mp hstep
    exact hfresh.fire
  | fetched request result =>
    obtain ⟨hrequest, ⟨⟩⟩ := Option.ite_none_right_eq_some.mp hstep
    exact hfresh.fetched hrequest
  | fetchFailed request error =>
    obtain ⟨-, ⟨⟩⟩ := Option.ite_none_right_eq_some.mp hstep
    exact hfresh.fetchFailed
  | recovered success =>
    obtain ⟨-, ⟨⟩⟩ := Option.ite_none_left_eq_some.mp hstep
    exact hfresh.recovered

/-- The state `createProgressObserver` starts with. -/
theorem fresh_initial : Fresh {} where
  distinct := List.nodup_nil
  old := by simp
  abortedOld := by simp
  inFlight := by simp
  outstanding := by simp
  current := by simp
  shown := by intro later; simp

theorem fresh_of_run {labels : List (ℕ × Event)} {observer : Observer}
    (hrun : Transition.run Observer.step {} labels = some observer) : Fresh observer :=
  Preserved.run (fun _ _ _ hfresh hstep => hfresh.step hstep) fresh_initial hrun

/-- In every run at most one request is not aborted, and every snapshot that
was shown comes from the latest request, since which no evaluation has been
started, no mutation begun and nothing paused, settled or been disposed of. -/
theorem snapshots_current {labels : List (ℕ × Event)} {observer : Observer}
    (hrun : Transition.run Observer.step {} labels = some observer) :
    (observer.requests.filter (· ∉ observer.aborted)).length ≤ 1 ∧
      ∀ later request evaluation mode earlier,
        observer.log = later ++ .snapshot request evaluation mode :: earlier →
          ∃ since evaluationId before,
            earlier = since ++ .requested request evaluationId :: before ∧
              ∀ entry ∈ since, ¬entry.Supersedes := by
  have hfresh := fresh_of_run hrun
  refine ⟨?_, hfresh.shown⟩
  have hlive : ∀ request ∈ observer.requests.filter (· ∉ observer.aborted),
      observer.inFlight = some request := by
    intro request hrequest
    obtain ⟨hmem, hlive⟩ := List.mem_filter.mp hrequest
    exact hfresh.inFlight request hmem (of_decide_eq_true hlive)
  have hdistinct := hfresh.distinct.filter (· ∉ observer.aborted)
  generalize observer.requests.filter (· ∉ observer.aborted) = live at hlive hdistinct
  rcases live with _ | ⟨first, _ | ⟨second, rest⟩⟩
  · exact Nat.zero_le 1
  · exact Nat.le_refl 1
  · have hfirst := hlive first List.mem_cons_self
    have hsecond := hlive second (List.mem_cons_of_mem _ List.mem_cons_self)
    rw [hfirst, Option.some.injEq] at hsecond
    subst hsecond
    simp at hdistinct

/-- The page is hidden before the first snapshot arrives and shown again. -/
def hidingRun : List (ℕ × Event) :=
  [(0, .start "e"), (0, .setVisible false), (0, .fetched 2 ⟨"pending"⟩), (0, .setVisible true),
    (0, .fetched 3 ⟨"running"⟩)]

theorem snapshots_current_after_hiding : ∃ observer,
    Transition.run Observer.step {} hidingRun = some observer ∧
      Entry.snapshot 3 ⟨"running"⟩ .connecting ∈ observer.log ∧
      (observer.requests.filter (· ∉ observer.aborted)).length ≤ 1 ∧
        ∀ later request evaluation mode earlier,
          observer.log = later ++ .snapshot request evaluation mode :: earlier →
            ∃ since evaluationId before,
              earlier = since ++ .requested request evaluationId :: before ∧
                ∀ entry ∈ since, ¬entry.Supersedes :=
  ⟨_, rfl, by decide,
    snapshots_current (rfl : Transition.run Observer.step {} hidingRun = some _)⟩

end Observer

end AlgorithmHarness.Browser
