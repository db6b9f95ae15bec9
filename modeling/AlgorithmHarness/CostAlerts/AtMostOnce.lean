import AlgorithmHarness.CostAlerts.Dispatcher

/-!
# A crossing is delivered at most once

The row of a claim carries the identifier of its key and the time its
dispatcher read.  As long as the lease runs the row stands; a claim that is
taken over has run out, so it can no longer succeed.  A success leaves a
finished row, which no later claim removes.
-/

namespace AlgorithmHarness.CostAlerts

open Table
open Transition

variable {eventId : Key → String}

/-! ## The table -/

variable (eventId) in
/-- A row that counts for a key. -/
def AlertEvent.IsRecord (event : AlertEvent) (key : Key) : Prop :=
  event.id = eventId key ∨ event.isAbout key = true

variable (eventId) in
/-- Every key has at most one record. -/
structure SoundTable (events : List AlertEvent) : Prop where
  ids : (events.map AlertEvent.id).Nodup
  keyed : ∀ event ∈ events, ∀ key, event.id = eventId key → ∀ other, event.isAbout other = true →
    other = key
  single : ∀ key, ∀ first ∈ events, ∀ second ∈ events, first.IsRecord eventId key →
    second.IsRecord eventId key → first = second

theorem SoundTable.sublist {events rest : List AlertEvent} (hsound : SoundTable eventId events)
    (hrest : rest.Sublist events) : SoundTable eventId rest where
  ids := hsound.ids.sublist (hrest.map _)
  keyed event hevent := hsound.keyed event (hrest.subset hevent)
  single key first hfirst second hsecond :=
    hsound.single key first (hrest.subset hfirst) second (hrest.subset hsecond)

theorem isAbout_iff {event : AlertEvent} {key : Key} : event.isAbout key = true ↔
    event.userId = key.ownerId ∧ event.ruleId = some key.ruleId ∧
      event.thresholdPct = key.thresholdPct ∧ event.capUsd = key.cap := by
  simp [AlertEvent.isAbout, and_assoc]

theorem isLease_iff {id : String} {claimedAt : ℕ} {event : AlertEvent} :
    isLease id claimedAt event = true ↔
      event.id = id ∧ event.channel = none ∧ event.createdAt = claimedAt := by
  simp [isLease, and_assoc]

/-- A row is about one key at most. -/
theorem isAbout_unique {event : AlertEvent} {key other : Key} (hkey : event.isAbout key = true)
    (hother : event.isAbout other = true) : key = other := by
  obtain ⟨howner, hrule, hthreshold, hcap⟩ := isAbout_iff.mp hkey
  obtain ⟨howner', hrule', hthreshold', hcap'⟩ := isAbout_iff.mp hother
  cases key
  cases other
  simp_all

theorem isAbout_pendingEvent {key other : Key} {used : ℚ} {now : ℕ}
    (habout : (pendingEvent eventId key used now).isAbout other = true) : other = key :=
  isAbout_unique habout (isAbout_iff.mpr ⟨rfl, rfl, rfl, rfl⟩)

/-- The row about a key is the one that is found. -/
theorem SoundTable.findExisting_eq {events : List AlertEvent} (hsound : SoundTable eventId events)
    {event : AlertEvent} {key : Key} (hevent : event ∈ events) (habout : event.isAbout key = true) :
    findExisting key events = some event := by
  cases hfound : findExisting key events with
  | none => exact absurd habout (List.find?_eq_none.mp hfound event hevent)
  | some found =>
      have hmem := List.mem_of_find?_eq_some hfound
      have hfoundAbout := List.find?_some hfound
      rw [hsound.single key found hmem event hevent (.inr hfoundAbout) (.inr habout)]

/-- A change of rows that keeps their identifiers and makes them about no new key. -/
theorem SoundTable.updateWhere {events : List AlertEvent} (hsound : SoundTable eventId events)
    {condition : AlertEvent → Bool} {change : AlertEvent → AlertEvent}
    (hid : ∀ event, (change event).id = event.id)
    (habout : ∀ event key, (change event).isAbout key = true → event.isAbout key = true) :
    SoundTable eventId (updateWhere condition change events) := by
  have hmember : ∀ event ∈ Table.updateWhere condition change events,
      ∃ before ∈ events, event = (if condition before then change before else before) ∧
        event.id = before.id ∧
        ∀ key, event.isAbout key = true → before.isAbout key = true := by
    intro event hevent
    obtain ⟨before, hbefore, heq⟩ := mem_updateWhere.mp hevent
    refine ⟨before, hbefore, heq.symm, ?_, ?_⟩
    · rw [← heq]
      split_ifs
      · exact hid before
      · rfl
    · rw [← heq]
      split_ifs
      · exact habout before
      · exact fun _ => id
  constructor
  · rw [map_updateWhere hid]
    exact hsound.ids
  · intro event hevent key hkey other hother
    obtain ⟨before, hbefore, -, hsame, hkept⟩ := hmember event hevent
    exact hsound.keyed before hbefore key (hsame ▸ hkey) other (hkept other hother)
  · intro key first hfirst second hsecond hfirstRecord hsecondRecord
    obtain ⟨before, hbefore, rfl, hsame, hkept⟩ := hmember first hfirst
    obtain ⟨before', hbefore', rfl, hsame', hkept'⟩ := hmember second hsecond
    have hequal : before = before' :=
      hsound.single key before hbefore before' hbefore'
        (hfirstRecord.imp (fun h => hsame ▸ h) (hkept key))
        (hsecondRecord.imp (fun h => hsame' ▸ h) (hkept' key))
    rw [hequal]

/-! ## Identifiers -/

/-- A text that tells where it ends. -/
def marked (text : List Char) : List Char := text.flatMap (fun c => ['.', c]) ++ ['/']

theorem marked_append_inj {first second rest rest' : List Char}
    (heq : marked first ++ rest = marked second ++ rest') : first = second ∧ rest = rest' := by
  induction first generalizing second with
  | nil =>
      cases second with
      | nil => exact ⟨rfl, List.cons.inj heq |>.2⟩
      | cons c cs => simp [marked] at heq
  | cons c cs ih =>
      cases second with
      | nil => simp [marked] at heq
      | cons d ds =>
          simp only [marked, List.flatMap_cons, List.cons_append, List.nil_append,
            List.cons.injEq, true_and] at heq
          obtain ⟨rfl, hrest⟩ := heq
          obtain ⟨rfl, rfl⟩ := ih hrest
          exact ⟨rfl, rfl⟩

/-- Strokes, with a sign. -/
def strokes : ℤ → List Char
  | .ofNat count => List.replicate count '1'
  | .negSucc count => '-' :: List.replicate count '1'

theorem strokes_injective : Function.Injective strokes := by
  intro first second heq
  cases first with
  | ofNat first =>
      cases second with
      | ofNat second => simpa [strokes] using congrArg List.length heq
      | negSucc second => cases first <;> simp [strokes, List.replicate_succ] at heq
  | negSucc first =>
      cases second with
      | ofNat second => cases second <;> simp [strokes, List.replicate_succ] at heq
      | negSucc second => simpa [strokes] using congrArg List.length heq

/-- The text of a key, as its own identifier. -/
def textId (key : Key) : String :=
  String.ofList (marked key.ownerId.toList ++ (marked key.ruleId.toList ++
    (marked (strokes key.thresholdPct) ++
      (marked (strokes key.cap.num) ++ (marked (strokes key.cap.den) ++ [])))))

theorem textId_injective : Function.Injective textId := by
  intro first second heq
  obtain ⟨howner, heq⟩ := marked_append_inj (String.ofList_injective heq)
  obtain ⟨hrule, heq⟩ := marked_append_inj heq
  obtain ⟨hthreshold, heq⟩ := marked_append_inj heq
  obtain ⟨hnum, heq⟩ := marked_append_inj heq
  obtain ⟨hden, -⟩ := marked_append_inj heq
  have hcap : first.cap = second.cap :=
    Rat.ext (strokes_injective hnum) (Int.ofNat_inj.mp (strokes_injective hden))
  have hpct := Int.ofNat_inj.mp (strokes_injective hthreshold)
  have hownerId := String.toList_injective howner
  have hruleId := String.toList_injective hrule
  cases first
  cases second
  simp_all

/-! ## The invariant -/

section Invariant

variable (eventId) in
/-- The lease of a claim stands. -/
def Held (system : System) (key : Key) (claimedAt : ℕ) : Prop :=
  ∃ event ∈ system.events, isLease (eventId key) claimedAt event = true

variable (eventId) in
/-- What a dispatcher relies on in a phase. -/
def SoundPhase (system : System) (name : ℕ) : Phase → Prop
  | .idle | .crashed => True
  | .clocked _ _ now => now ≤ system.clock
  | .looked key _ now existing =>
      now ≤ system.clock ∧
        ∀ event ∈ system.events, event.isAbout key = true → event.id ≠ eventId key →
          existing = some event
  | .delivering key _ claimedAt =>
      claimedAt ≤ system.clock ∧
        (system.clock < claimedAt + lease → Held eventId system key claimedAt)
  | .delivered key _ claimedAt success =>
      claimedAt ≤ system.clock ∧
        (system.clock < claimedAt + lease → Held eventId system key claimedAt) ∧
        (success = true → (name, claimedAt) ∈ system.unfinished)

/-- The claim a dispatcher carries. -/
def Phase.claim : Phase → Option (Key × ℕ)
  | .idle | .crashed | .clocked _ _ _ | .looked _ _ _ _ => none
  | .delivering key _ claimedAt | .delivered key _ claimedAt _ => some (key, claimedAt)

variable (eventId) in
structure Sound (system : System) : Prop where
  table : SoundTable eventId system.events
  phases : ∀ name, SoundPhase eventId system name (system.dispatchers name).phase
  owned : ∀ first second key claimedAt, system.clock < claimedAt + lease →
    (system.dispatchers first).phase.claim = some (key, claimedAt) →
    (system.dispatchers second).phase.claim = some (key, claimedAt) → first = second
  stamped : ∀ event ∈ system.events, event.channel = none → ∀ key, event.id = eventId key →
    ∃ name, system.holder key = some (name, event.createdAt)
  sent : ∀ key ∈ system.successes,
    (∃ event ∈ system.events, event.id = eventId key ∧ event.channel ≠ none) ∨
      ∃ name channel claimedAt,
        (system.dispatchers name).phase = .delivered key channel claimedAt true
  nodup : system.successes.Nodup
  inTime : ∀ claim ∈ system.unfinished, system.clock < claim.2 + lease

variable {system next : System} {name : ℕ}

/-- What a dispatcher relies on survives a step of another one. -/
theorem SoundPhase.mono {phase : Phase} (hphase : SoundPhase eventId system name phase)
    (hclock : system.clock ≤ next.clock)
    (hlegacy : ∀ event ∈ next.events, ∀ key, event.isAbout key = true →
      event.id ≠ eventId key → event ∈ system.events)
    (hheld : ∀ key claimedAt, phase.claim = some (key, claimedAt) →
      next.clock < claimedAt + lease → Held eventId system key claimedAt →
        Held eventId next key claimedAt)
    (hunfinished : ∀ claimedAt, (name, claimedAt) ∈ system.unfinished →
      (name, claimedAt) ∈ next.unfinished) :
    SoundPhase eventId next name phase := by
  cases phase with
  | idle => trivial
  | crashed => trivial
  | clocked key channel now => exact hphase.trans hclock
  | looked key channel now existing =>
      refine ⟨hphase.1.trans hclock, ?_⟩
      intro event hevent habout hid
      exact hphase.2 event (hlegacy event hevent key habout hid) habout hid
  | delivering key channel claimedAt =>
      refine ⟨hphase.1.trans hclock, ?_⟩
      intro hlive
      exact hheld key claimedAt rfl hlive (hphase.2 (hclock.trans_lt hlive))
  | delivered key channel claimedAt success =>
      refine ⟨hphase.1.trans hclock, ?_, fun hsuccess => hunfinished _ (hphase.2.2 hsuccess)⟩
      intro hlive
      exact hheld key claimedAt rfl hlive (hphase.2.1 (hclock.trans_lt hlive))

/-- A live claim stands in the table. -/
theorem Sound.held (hsound : Sound eventId system) {key : Key} {claimedAt : ℕ}
    (hclaim : (system.dispatchers name).phase.claim = some (key, claimedAt))
    (hlive : system.clock < claimedAt + lease) : Held eventId system key claimedAt := by
  have hphase := hsound.phases name
  cases hcase : (system.dispatchers name).phase with
  | delivering key' channel claimedAt' =>
      rw [hcase] at hphase hclaim
      cases hclaim
      exact hphase.2 hlive
  | delivered key' channel claimedAt' success =>
      rw [hcase] at hphase hclaim
      cases hclaim
      exact hphase.2.1 hlive
  | _ =>
      rw [hcase] at hclaim
      cases hclaim

/-! ## Steps that leave the tables -/

/-- A dispatcher that takes no claim carries none that is not its own. -/
theorem Sound.owned_update (hsound : Sound eventId system) {dispatcher : Dispatcher}
    (hclaim : ∀ claim, dispatcher.phase.claim = some claim →
      (system.dispatchers name).phase.claim = some claim)
    (first second : ℕ) (key : Key) (claimedAt : ℕ) (hlive : system.clock < claimedAt + lease)
    (hfirst : (Function.update system.dispatchers name dispatcher first).phase.claim =
      some (key, claimedAt))
    (hsecond : (Function.update system.dispatchers name dispatcher second).phase.claim =
      some (key, claimedAt)) : first = second := by
  have hbefore : ∀ other claim,
      (Function.update system.dispatchers name dispatcher other).phase.claim = some claim →
        (system.dispatchers other).phase.claim = some claim := by
    intro other claim hother
    by_cases hsame : other = name
    · subst hsame
      rw [Function.update_self] at hother
      exact hclaim claim hother
    · rwa [Function.update_of_ne hsame] at hother
  exact hsound.owned first second key claimedAt hlive (hbefore first _ hfirst)
    (hbefore second _ hsecond)

/-- A dispatcher that has nothing sent goes to another phase. -/
theorem Sound.setDispatcher (hsound : Sound eventId system) {dispatcher : Dispatcher}
    (hphase : SoundPhase eventId system name dispatcher.phase)
    (hclaim : ∀ claim, dispatcher.phase.claim = some claim →
      (system.dispatchers name).phase.claim = some claim)
    (hsent : ∀ key channel claimedAt,
      (system.dispatchers name).phase ≠ .delivered key channel claimedAt true) :
    Sound eventId
      { system with dispatchers := Function.update system.dispatchers name dispatcher } := by
  refine ⟨hsound.table, ?_, hsound.owned_update hclaim, hsound.stamped, ?_, hsound.nodup,
    hsound.inTime⟩
  · intro other
    by_cases hother : other = name
    · subst hother
      change SoundPhase eventId system other
        (Function.update system.dispatchers other dispatcher other).phase
      rw [Function.update_self]
      exact hphase
    · change SoundPhase eventId system other
        (Function.update system.dispatchers name dispatcher other).phase
      rw [Function.update_of_ne hother]
      exact hsound.phases other
  · intro key hkey
    rcases hsound.sent key hkey with hdurable | ⟨other, channel, claimedAt, hother⟩
    · exact .inl hdurable
    · have hne : other ≠ name := by
        intro hsame
        subst hsame
        exact hsent key channel claimedAt hother
      refine .inr ⟨other, channel, claimedAt, ?_⟩
      change (Function.update system.dispatchers name dispatcher other).phase = _
      rw [Function.update_of_ne hne]
      exact hother

theorem mayPass_iff {time : ℕ} : system.mayPass time = true ↔
    system.clock ≤ time ∧ ∀ claim ∈ system.unfinished, time < claim.2 + lease := by
  simp [System.mayPass]

theorem Sound.pass (hsound : Sound eventId system) {time : ℕ}
    (hpass : system.mayPass time = true) : Sound eventId { system with clock := time } := by
  obtain ⟨hclock, hunfinished⟩ := mayPass_iff.mp hpass
  refine ⟨hsound.table, ?_, ?_, hsound.stamped, hsound.sent, hsound.nodup, hunfinished⟩
  · intro name
    exact (hsound.phases name).mono hclock (fun _ hevent _ _ _ => hevent)
      (fun _ _ _ _ hheld => hheld) fun _ hmem => hmem
  · intro first second key claimedAt hlive
    exact hsound.owned first second key claimedAt (hclock.trans_lt hlive)

theorem Sound.phase (hsound : Sound eventId system) {phase : Phase}
    (hphase : (system.dispatchers name).phase = phase) : SoundPhase eventId system name phase :=
  hphase ▸ hsound.phases name

/-- Two standing leases of one key are one. -/
theorem Sound.lease_unique (hsound : Sound eventId system) {key : Key} {claimedAt other : ℕ}
    (hheld : Held eventId system key claimedAt) (hother : Held eventId system key other) :
    claimedAt = other := by
  obtain ⟨event, hevent, hlease⟩ := hheld
  obtain ⟨event', hevent', hlease'⟩ := hother
  obtain ⟨hid, -, hcreated⟩ := isLease_iff.mp hlease
  obtain ⟨hid', -, hcreated'⟩ := isLease_iff.mp hlease'
  have hsame := hsound.table.single key event hevent event' hevent' (.inl hid) (.inl hid')
  rw [← hcreated, ← hcreated', hsame]

/-- A key with a live claim was not delivered by another dispatcher. -/
theorem Sound.sent_by (hsound : Sound eventId system) {key : Key} {claimedAt : ℕ}
    (hclaim : (system.dispatchers name).phase.claim = some (key, claimedAt))
    (hlive : system.clock < claimedAt + lease) (hsent : key ∈ system.successes) :
    ∃ channel, (system.dispatchers name).phase = .delivered key channel claimedAt true := by
  have hheld := hsound.held hclaim hlive
  rcases hsound.sent key hsent with ⟨event, hevent, hid, hdurable⟩ | ⟨other, channel, time, hother⟩
  · obtain ⟨mine, hmine, hlease⟩ := hheld
    obtain ⟨hmineId, hpending, -⟩ := isLease_iff.mp hlease
    have hsame := hsound.table.single key mine hmine event hevent (.inl hmineId) (.inl hid)
    exact absurd (hsame ▸ hpending) hdurable
  · obtain ⟨-, hotherHeld, hunfinished⟩ := hsound.phase hother
    have hotherLive := hsound.inTime _ (hunfinished rfl)
    have htime := hsound.lease_unique hheld (hotherHeld hotherLive)
    subst htime
    have hname : other = name :=
      hsound.owned other name key claimedAt hlive (hother ▸ rfl) hclaim
    exact ⟨channel, hname ▸ hother⟩

/-- A successful delivery is the first for its key. -/
theorem Sound.deliver (hsound : Sound eventId system) {key : Key} {channel : Channel}
    {claimedAt : ℕ}
    (hphase : (system.dispatchers name).phase = .delivering key channel claimedAt)
    (hlive : system.clock < claimedAt + lease) :
    Sound eventId
      { system.setPhase name (.delivered key channel claimedAt true) with
        successes := key :: system.successes
        unfinished := (name, claimedAt) :: system.unfinished } := by
  obtain ⟨hread, hheld⟩ := hsound.phase hphase
  have hfirst : key ∉ system.successes := by
    intro hsent
    obtain ⟨other, hdelivered⟩ := hsound.sent_by (congrArg Phase.claim hphase) hlive hsent
    rw [hphase] at hdelivered
    cases hdelivered
  have hphases : ∀ other, SoundPhase eventId
      { system.setPhase name (.delivered key channel claimedAt true) with
        successes := key :: system.successes
        unfinished := (name, claimedAt) :: system.unfinished } other
      (Function.update system.dispatchers name
        { system.dispatchers name with phase := .delivered key channel claimedAt true } other).phase
      := by
    intro other
    by_cases hother : other = name
    · subst hother
      rw [Function.update_self]
      exact ⟨hread, hheld, fun _ => List.mem_cons_self⟩
    · rw [Function.update_of_ne hother]
      exact (hsound.phases other).mono le_rfl (fun _ hevent _ _ _ => hevent)
        (fun _ _ _ _ hheld => hheld) fun _ hmem => List.mem_cons_of_mem _ hmem
  have howned := @Sound.owned_update _ _ name hsound
    { system.dispatchers name with phase := .delivered key channel claimedAt true }
    fun claim hclaim => hphase ▸ hclaim
  refine ⟨hsound.table, hphases, howned, hsound.stamped, ?_,
    List.nodup_cons.mpr ⟨hfirst, hsound.nodup⟩, ?_⟩
  · intro sent hsent
    rcases List.mem_cons.mp hsent with rfl | hearlier
    · refine .inr ⟨name, channel, claimedAt, ?_⟩
      change (Function.update system.dispatchers name _ name).phase = _
      rw [Function.update_self]
    · rcases hsound.sent sent hearlier with hdurable | ⟨other, channel', time, hother⟩
      · exact .inl hdurable
      · have hne : other ≠ name := by
          intro hsame
          rw [hsame, hphase] at hother
          cases hother
        refine .inr ⟨other, channel', time, ?_⟩
        change (Function.update system.dispatchers name _ other).phase = _
        rw [Function.update_of_ne hne]
        exact hother
  · intro claim hclaim
    rcases List.mem_cons.mp hclaim with rfl | hearlier
    · exact hlive
    · exact hsound.inTime claim hearlier

/-! ## Steps on the tables -/

theorem insertEvent_eq_some {key : Key} {used : ℚ} {now : ℕ} {rules : List AlertRule}
    {events taken : List AlertEvent}
    (hinsert : insertEvent eventId key used now rules events = some taken) :
    eventId key ∉ events.map AlertEvent.id ∧
      taken = events ++ [pendingEvent eventId key used now] := by
  unfold insertEvent at hinsert
  split_ifs at hinsert with hfresh
  exact ⟨hfresh, (Option.some.inj hinsert).symm⟩

/-- A claim removes at most a pending row whose lease has run out, and adds its own. -/
theorem takeClaim_eq_some {key : Key} {used : ℚ} {now : ℕ} {existing : Option AlertEvent}
    {rules : List AlertRule} {events taken : List AlertEvent}
    (htake : takeClaim eventId key used now existing rules events = some taken) :
    ∃ kept : List AlertEvent, taken = kept ++ [pendingEvent eventId key used now] ∧
      kept.Sublist events ∧ eventId key ∉ kept.map AlertEvent.id ∧
      (∀ event ∈ events, event ∈ kept ∨
        event.channel = none ∧ event.createdAt + lease ≤ now) ∧
      ∀ found, existing = some found → found ∉ kept := by
  cases existing with
  | none =>
      obtain ⟨hfresh, htaken⟩ := insertEvent_eq_some htake
      exact ⟨events, htaken, List.Sublist.refl _, hfresh, fun event hevent => .inl hevent, nofun⟩
  | some found =>
      simp only [takeClaim] at htake
      split_ifs at htake with hrefused hfound
      obtain ⟨hpending, hexpired⟩ := not_or.mp hrefused
      rw [not_not] at hpending
      obtain ⟨hfresh, htaken⟩ := insertEvent_eq_some htake
      refine ⟨_, htaken, List.filter_sublist, hfresh, ?_, ?_⟩
      · intro event hevent
        by_cases hlease : isLease found.id found.createdAt event = true
        · obtain ⟨-, hchannel, hcreated⟩ := isLease_iff.mp hlease
          exact .inr ⟨hchannel, by omega⟩
        · exact .inl (List.mem_filter.mpr ⟨hevent, by simp [hlease]⟩)
      · intro other hother hkept
        cases hother
        have hlease : isLease found.id found.createdAt found = true :=
          isLease_iff.mpr ⟨rfl, hpending, rfl⟩
        simp [hlease] at hkept

/-- A claim of a key by a dispatcher that looked at the table. -/
theorem Sound.take (hinjective : Function.Injective eventId) (hsound : Sound eventId system)
    {key : Key} {channel : Channel} {now : ℕ} {existing : Option AlertEvent} {used : ℚ}
    {taken : List AlertEvent} {dispatcher : Dispatcher}
    (hphase : (system.dispatchers name).phase = .looked key channel now existing)
    (htake : takeClaim eventId key used now existing system.rules system.events = some taken)
    (hdispatcher : dispatcher.phase = .delivering key channel now) :
    Sound eventId
      { system with
        events := taken
        holder := Function.update system.holder key (some (name, now))
        dispatchers := Function.update system.dispatchers name dispatcher } := by
  obtain ⟨kept, rfl, hsublist, hfresh, hremoved, hfound⟩ := takeClaim_eq_some htake
  obtain ⟨hread, hlegacy⟩ := hsound.phase hphase
  let pending := pendingEvent eventId key used now
  have hkept : SoundTable eventId kept := hsound.table.sublist hsublist
  -- What is left holds no record of the key: its identifier is free, and the one
  -- row under another identifier was seen and removed.
  have hno : ∀ event ∈ kept, ¬event.IsRecord eventId key := by
    intro event hevent hrecord
    by_cases hid : event.id = eventId key
    · exact hfresh (List.mem_map.mpr ⟨event, hevent, hid⟩)
    · have habout := hrecord.resolve_left hid
      exact hfound event (hlegacy event (hsublist.subset hevent) habout hid) hevent
  have hpending : ∀ other, pending.IsRecord eventId other → other = key := by
    intro other hrecord
    rcases hrecord with hid | habout
    · exact (hinjective hid).symm
    · exact isAbout_pendingEvent habout
  have hmem : ∀ event ∈ kept ++ [pending], event ∈ kept ∨ event = pending := by
    intro event hevent
    exact (List.mem_append.mp hevent).imp_right List.mem_singleton.mp
  have htable : SoundTable eventId (kept ++ [pending]) := by
    constructor
    · rw [List.map_append, List.map_singleton, List.nodup_append]
      refine ⟨hkept.ids, List.nodup_singleton _, ?_⟩
      intro id hid other hother hsame
      have hkey : id = eventId key := hsame.trans (List.mem_singleton.mp hother)
      exact hfresh (hkey ▸ hid)
    · intro event hevent wanted hid other habout
      rcases hmem event hevent with hold | rfl
      · exact hkept.keyed event hold wanted hid other habout
      · rw [isAbout_pendingEvent habout]
        exact hinjective hid
    · intro wanted first hfirst second hsecond hfirstRecord hsecondRecord
      rcases hmem first hfirst with hfirst | rfl <;> rcases hmem second hsecond with hsecond | rfl
      · exact hkept.single wanted first hfirst second hsecond hfirstRecord hsecondRecord
      · exact absurd (hpending wanted hsecondRecord ▸ hfirstRecord) (hno first hfirst)
      · exact absurd (hpending wanted hfirstRecord ▸ hsecondRecord) (hno second hsecond)
      · rfl
  refine ⟨htable, ?_, ?_, ?_, ?_, hsound.nodup, hsound.inTime⟩
  · intro other
    by_cases hother : other = name
    · subst hother
      change SoundPhase eventId _ other
        (Function.update system.dispatchers other dispatcher other).phase
      rw [Function.update_self, hdispatcher]
      refine ⟨hread, fun _ => ⟨pending, List.mem_append_right _ (List.mem_singleton_self _), ?_⟩⟩
      exact isLease_iff.mpr ⟨rfl, rfl, rfl⟩
    · change SoundPhase eventId _ other
        (Function.update system.dispatchers name dispatcher other).phase
      rw [Function.update_of_ne hother]
      refine (hsound.phases other).mono le_rfl ?_ ?_ fun _ hmem => hmem
      · intro event hevent wanted habout hid
        rcases hmem event hevent with hold | rfl
        · exact hsublist.subset hold
        · exact absurd (congrArg eventId (isAbout_pendingEvent habout)).symm hid
      · -- A lease that still runs is not the expired row the claim removes.
        intro wanted claimedAt _ hlive ⟨event, hevent, hlease⟩
        rcases hremoved event hevent with hstays | ⟨-, hexpired⟩
        · exact ⟨event, List.mem_append_left _ hstays, hlease⟩
        · have hcreated := (isLease_iff.mp hlease).2.2
          change system.clock < claimedAt + lease at hlive
          omega
  · -- A dispatcher with a live claim of this key and time has its row in the table.
    have hclaims : ∀ other wanted claimedAt,
        (Function.update system.dispatchers name dispatcher other).phase.claim =
          some (wanted, claimedAt) →
        other = name ∧ (wanted, claimedAt) = (key, now) ∨
          other ≠ name ∧ (system.dispatchers other).phase.claim = some (wanted, claimedAt) := by
      intro other wanted claimedAt hclaim
      by_cases hother : other = name
      · rw [hother, Function.update_self, hdispatcher] at hclaim
        exact .inl ⟨hother, (Option.some.inj hclaim).symm⟩
      · rw [Function.update_of_ne hother] at hclaim
        exact .inr ⟨hother, hclaim⟩
    have halone : ∀ other, system.clock < now + lease →
        (system.dispatchers other).phase.claim ≠ some (key, now) := by
      intro other hlive hclaim
      obtain ⟨event, hevent, hlease⟩ := hsound.held hclaim hlive
      obtain ⟨hid, -, hcreated⟩ := isLease_iff.mp hlease
      rcases hremoved event hevent with hstays | ⟨-, hexpired⟩
      · exact hno event hstays (.inl hid)
      · have hpositive : 0 < lease := by decide
        omega
    intro first second wanted claimedAt hlive hfirst hsecond
    rcases hclaims first wanted claimedAt hfirst with ⟨rfl, hmine⟩ | ⟨-, hcarried⟩ <;>
      rcases hclaims second wanted claimedAt hsecond with ⟨hsame, hmine'⟩ | ⟨-, hcarried'⟩
    · exact hsame.symm
    · cases hmine
      exact absurd hcarried' (halone second hlive)
    · cases hmine'
      exact absurd hcarried (halone first hlive)
    · exact hsound.owned first second wanted claimedAt hlive hcarried hcarried'
  · intro event hevent hchannel wanted hid
    rcases hmem event hevent with hold | rfl
    · have hne : wanted ≠ key := by
        intro hsame
        exact hno event hold (.inl (hsame ▸ hid))
      obtain ⟨holder, hholder⟩ :=
        hsound.stamped event (hsublist.subset hold) hchannel wanted hid
      refine ⟨holder, ?_⟩
      change Function.update system.holder key (some (name, now)) wanted = _
      rw [Function.update_of_ne hne, hholder]
    · obtain rfl : key = wanted := hinjective hid
      refine ⟨name, ?_⟩
      change Function.update system.holder key (some (name, now)) key = _
      rw [Function.update_self]
      rfl
  · intro sent hsent
    rcases hsound.sent sent hsent with ⟨event, hevent, hid, hdurable⟩ | ⟨other, channel', time, hother⟩
    · rcases hremoved event hevent with hstays | ⟨hchannel, -⟩
      · exact .inl ⟨event, List.mem_append_left _ hstays, hid, hdurable⟩
      · exact absurd hchannel hdurable
    · have hne : other ≠ name := by
        intro hsame
        rw [hsame, hphase] at hother
        cases hother
      refine .inr ⟨other, channel', time, ?_⟩
      change (Function.update system.dispatchers name dispatcher other).phase = _
      rw [Function.update_of_ne hne]
      exact hother

section Finish

variable {key : Key} {channel : Channel} {claimedAt now : ℕ} {success : Bool}
  {events : List AlertEvent}

theorem SoundTable.finish (hsound : SoundTable eventId events) :
    SoundTable eventId (CostAlerts.finish eventId key claimedAt channel success now events) := by
  cases success with
  | true => exact hsound.updateWhere (fun _ => rfl) fun _ _ habout => habout
  | false => exact hsound.sublist List.filter_sublist

/-- A row that is not the lease stays. -/
theorem mem_finish_of_not {event : AlertEvent} (hevent : event ∈ events)
    (hlease : ¬isLease (eventId key) claimedAt event = true) :
    event ∈ CostAlerts.finish eventId key claimedAt channel success now events := by
  cases success with
  | true => exact mem_updateWhere_of_not hevent (Bool.eq_false_of_not_eq_true hlease)
  | false => exact List.mem_filter.mpr ⟨hevent, by simp [hlease]⟩

/-- A row after the finish is as it was, or it is the lease that was delivered. -/
theorem mem_finish {event : AlertEvent}
    (hevent : event ∈ CostAlerts.finish eventId key claimedAt channel success now events) :
    event ∈ events ∨ event.id = eventId key ∧ event.channel = some channel := by
  cases success with
  | true =>
      obtain ⟨before, hbefore, heq⟩ := mem_updateWhere.mp hevent
      split_ifs at heq with hlease
      · rw [← heq]
        exact .inr ⟨(isLease_iff.mp hlease).1, rfl⟩
      · exact .inl (heq ▸ hbefore)
  | false => exact .inl (List.mem_filter.mp hevent).1

end Finish

/-- A dispatcher finishes its claim. -/
theorem Sound.finish (hinjective : Function.Injective eventId) (hsound : Sound eventId system)
    {key : Key} {channel : Channel} {claimedAt now : ℕ} {success : Bool}
    (hphase : (system.dispatchers name).phase = .delivered key channel claimedAt success) :
    Sound eventId
      { system.setPhase name .idle with
        events := CostAlerts.finish eventId key claimedAt channel success now system.events
        unfinished := system.unfinished.filter fun claim => claim ≠ (name, claimedAt) } := by
  obtain ⟨hread, hheld, hunfinished⟩ := hsound.phase hphase
  -- Another dispatcher with a live claim holds another row.
  have hother : ∀ other wanted time, other ≠ name →
      (system.dispatchers other).phase.claim = some (wanted, time) →
      system.clock < time + lease → Held eventId system wanted time →
      ∃ event ∈ CostAlerts.finish eventId key claimedAt channel success now system.events,
        isLease (eventId wanted) time event = true := by
    intro other wanted time hne hclaim hlive ⟨event, hevent, hlease⟩
    refine ⟨event, mem_finish_of_not hevent ?_, hlease⟩
    intro hmine
    obtain ⟨hid, -, hcreated⟩ := isLease_iff.mp hlease
    obtain ⟨hid', -, hcreated'⟩ := isLease_iff.mp hmine
    obtain rfl : wanted = key := hinjective (hid.symm.trans hid')
    obtain rfl : time = claimedAt := hcreated.symm.trans hcreated'
    exact hne (hsound.owned other name wanted time hlive hclaim (hphase ▸ rfl))
  refine ⟨hsound.table.finish, ?_, hsound.owned_update nofun, ?_, ?_, hsound.nodup, ?_⟩
  · intro other
    by_cases hsame : other = name
    · subst hsame
      change SoundPhase eventId _ other (Function.update system.dispatchers other _ other).phase
      rw [Function.update_self]
      trivial
    · change SoundPhase eventId _ other (Function.update system.dispatchers name _ other).phase
      rw [Function.update_of_ne hsame]
      refine (hsound.phases other).mono le_rfl ?_ ?_ ?_
      · intro event hevent wanted habout hid
        rcases mem_finish hevent with hold | ⟨hmine, -⟩
        · exact hold
        · have hkey := hsound.table.finish.keyed event hevent key hmine wanted habout
          exact absurd (hkey ▸ hmine) hid
      · intro wanted time hclaim hlive hotherHeld
        exact hother other wanted time hsame hclaim hlive hotherHeld
      · intro time hmem
        refine List.mem_filter.mpr ⟨hmem, decide_eq_true ?_⟩
        intro hclaim
        exact hsame (congrArg Prod.fst hclaim)
  · intro event hevent hpending wanted hid
    rcases mem_finish hevent with hold | ⟨-, hdurable⟩
    · exact hsound.stamped event hold hpending wanted hid
    · rw [hpending] at hdurable
      cases hdurable
  · intro sent hsent
    rcases hsound.sent sent hsent with ⟨event, hevent, hid, hdurable⟩ | ⟨other, channel', time, hsender⟩
    · refine .inl ⟨event, mem_finish_of_not hevent ?_, hid, hdurable⟩
      intro hlease
      exact hdurable (isLease_iff.mp hlease).2.1
    · by_cases hsame : other = name
      · rw [hsame, hphase] at hsender
        cases hsender
        obtain ⟨event, hevent, hlease⟩ := hheld (hsound.inTime _ (hunfinished rfl))
        exact .inl ⟨_, mem_updateWhere_of hevent hlease, (isLease_iff.mp hlease).1,
          Option.some_ne_none _⟩
      · refine .inr ⟨other, channel', time, ?_⟩
        change (Function.update system.dispatchers name _ other).phase = _
        rw [Function.update_of_ne hsame]
        exact hsender
  · intro claim hclaim
    exact hsound.inTime claim (List.mem_filter.mp hclaim).1

theorem Sound.deleteRule (hsound : Sound eventId system) (ruleId : String) :
    Sound eventId
      { system with
        rules := system.rules.filter fun rule => rule.id ≠ ruleId
        events := updateWhere (fun event => event.ruleId = some ruleId)
          (fun event => { event with ruleId := none }) system.events } := by
  have hmember : ∀ event ∈ updateWhere (fun event => decide (event.ruleId = some ruleId))
      (fun event => { event with ruleId := none }) system.events,
      ∃ before ∈ system.events, event.id = before.id ∧ event.channel = before.channel ∧
        event.createdAt = before.createdAt ∧ (event.ruleId ≠ none → event = before) := by
    intro event hevent
    obtain ⟨before, hbefore, rfl⟩ := mem_updateWhere.mp hevent
    refine ⟨before, hbefore, ?_⟩
    split_ifs
    · exact ⟨rfl, rfl, rfl, fun hne => absurd rfl hne⟩
    · exact ⟨rfl, rfl, rfl, fun _ => rfl⟩
  have hafter : ∀ before ∈ system.events, ∃ event ∈
      updateWhere (fun event => decide (event.ruleId = some ruleId))
        (fun event => { event with ruleId := none }) system.events,
      event.id = before.id ∧ event.channel = before.channel ∧
        event.createdAt = before.createdAt := by
    intro before hbefore
    refine ⟨_, mem_updateWhere.mpr ⟨before, hbefore, rfl⟩, ?_⟩
    split_ifs <;> exact ⟨rfl, rfl, rfl⟩
  have habout : ∀ (event : AlertEvent) (key : Key), event.isAbout key = true →
      event.ruleId ≠ none := by
    intro event key habout hnone
    rw [(isAbout_iff.mp habout).2.1] at hnone
    cases hnone
  refine ⟨hsound.table.updateWhere (fun _ => rfl) ?_, ?_, hsound.owned, ?_, ?_, hsound.nodup,
    hsound.inTime⟩
  · intro event key hnulled
    exact absurd rfl (habout _ key hnulled)
  · intro name
    refine (hsound.phases name).mono le_rfl ?_ ?_ fun _ hmem => hmem
    · intro event hevent key hkey _
      obtain ⟨before, hbefore, -, -, -, hsame⟩ := hmember event hevent
      exact hsame (habout event key hkey) ▸ hbefore
    · intro key claimedAt _ _ ⟨before, hbefore, hlease⟩
      obtain ⟨event, hevent, hid, hchannel, hcreated⟩ := hafter before hbefore
      obtain ⟨hid', hchannel', hcreated'⟩ := isLease_iff.mp hlease
      exact ⟨event, hevent, isLease_iff.mpr
        ⟨hid.trans hid', hchannel.trans hchannel', hcreated.trans hcreated'⟩⟩
  · intro event hevent hpending key hid
    obtain ⟨before, hbefore, hid', hchannel, hcreated, -⟩ := hmember event hevent
    rw [hcreated]
    exact hsound.stamped before hbefore (hchannel ▸ hpending) key (hid' ▸ hid)
  · intro key hkey
    refine (hsound.sent key hkey).imp_left ?_
    intro ⟨before, hbefore, hid, hdurable⟩
    obtain ⟨event, hevent, hid', hchannel, -⟩ := hafter before hbefore
    exact ⟨event, hevent, hid'.trans hid, hchannel ▸ hdurable⟩

/-! ## Every step -/

theorem Sound.act (hinjective : Function.Injective eventId) (hsound : Sound eventId system)
    {action : Action} (hact : system.act eventId name action = some next) :
    Sound eventId next := by
  have hnotSent : ∀ {phase}, (system.dispatchers name).phase = phase →
      (∀ key channel claimedAt, phase ≠ .delivered key channel claimedAt true) →
      ∀ key channel claimedAt,
        (system.dispatchers name).phase ≠ .delivered key channel claimedAt true :=
    fun hphase hne => hphase ▸ hne
  cases action with
  | start ownerId used cap =>
      simp only [System.act] at hact
      split_ifs at hact with hidle
      cases hact
      exact hsound.setDispatcher (hsound.phases name) (fun _ hclaim => hclaim)
        (hnotSent hidle.1 nofun)
  | skip =>
      simp only [System.act] at hact
      split at hact
      case h_2 => cases hact
      case h_1 rule rules hphase hrules =>
        split_ifs at hact
        cases hact
        exact hsound.setDispatcher (hsound.phases name) (fun _ hclaim => hclaim)
          (hnotSent hphase nofun)
  | readClock time =>
      simp only [System.act] at hact
      split at hact
      case h_2 => cases hact
      case h_1 rule rules hphase hrules =>
        split_ifs at hact with hguard
        cases hact
        have hpass := (Bool.and_eq_true_iff.mp hguard).2
        exact (hsound.pass hpass).setDispatcher le_rfl nofun (hnotSent hphase nofun)
  | look =>
      simp only [System.act] at hact
      split at hact
      case h_2 => cases hact
      case h_1 key channel now hphase =>
        cases hact
        refine hsound.setDispatcher ⟨hsound.phase hphase, ?_⟩ nofun (hnotSent hphase nofun)
        intro event hevent habout _
        exact hsound.table.findExisting_eq hevent habout
  | take =>
      simp only [System.act] at hact
      split at hact
      case h_2 => cases hact
      case h_1 key channel now existing hphase =>
        split at hact
        case h_1 =>
          cases hact
          exact hsound.setDispatcher trivial nofun (hnotSent hphase nofun)
        case h_2 taken htake =>
          cases hact
          exact hsound.take hinjective hphase htake rfl
  | deliver success =>
      simp only [System.act] at hact
      split at hact
      case h_2 => cases hact
      case h_1 key channel claimedAt hphase =>
        cases success with
        | true =>
            simp only [if_true] at hact
            split_ifs at hact with hlive
            cases hact
            exact hsound.deliver hphase hlive
        | false =>
            cases hact
            obtain ⟨hread, hheld⟩ := hsound.phase hphase
            exact hsound.setDispatcher ⟨hread, hheld, nofun⟩
              (fun claim hclaim => hphase ▸ hclaim) (hnotSent hphase nofun)
  | finish time =>
      simp only [System.act] at hact
      split at hact
      case h_2 => cases hact
      case h_1 key channel claimedAt success hphase =>
        split_ifs at hact with hpass
        cases hact
        exact (hsound.pass hpass).finish hinjective hphase
  | abort =>
      simp only [System.act] at hact
      split at hact
      case h_1 => cases hact
      case h_2 => cases hact
      case h_3 hne =>
        cases hact
        exact hsound.setDispatcher trivial nofun fun key channel claimedAt hphase =>
          hne key channel claimedAt hphase
  | crash =>
      simp only [System.act] at hact
      split at hact
      case h_1 => cases hact
      case h_2 hne =>
        cases hact
        exact hsound.setDispatcher trivial nofun fun key channel claimedAt hphase =>
          hne key channel claimedAt hphase

theorem sound_preserved (hinjective : Function.Injective eventId) :
    Preserved (System.step eventId) (Sound eventId) := by
  intro system label next hsound hstep
  cases label with
  | putRule rule =>
      cases hstep
      exact ⟨hsound.table, hsound.phases, hsound.owned, hsound.stamped, hsound.sent,
        hsound.nodup, hsound.inTime⟩
  | deleteRule ruleId =>
      cases hstep
      exact hsound.deleteRule ruleId
  | pass time =>
      simp only [System.step] at hstep
      split_ifs at hstep with hpass
      cases hstep
      exact hsound.pass hpass
  | act name action => exact hsound.act hinjective hstep

/-! ## Every run -/

variable (eventId) in
/-- Dispatchers that have not begun, over a table of an earlier version. -/
structure Fresh (system : System) : Prop where
  ids : (system.events.map AlertEvent.id).Nodup
  foreign : ∀ event ∈ system.events, ∀ key, event.id ≠ eventId key
  single : ∀ key, ∀ first ∈ system.events, ∀ second ∈ system.events,
    first.isAbout key = true → second.isAbout key = true → first = second
  idle : ∀ name, (system.dispatchers name).phase = .idle
  successes : system.successes = []
  unfinished : system.unfinished = []

theorem Fresh.sound (hfresh : Fresh eventId system) : Sound eventId system where
  table :=
    { ids := hfresh.ids
      keyed := fun event hevent key hid => absurd hid (hfresh.foreign event hevent key)
      single := fun key first hfirst second hsecond hrecord hrecord' =>
        hfresh.single key first hfirst second hsecond
          (hrecord.resolve_left (hfresh.foreign first hfirst key))
          (hrecord'.resolve_left (hfresh.foreign second hsecond key)) }
  phases name := by
    rw [hfresh.idle name]
    trivial
  owned first second key claimedAt _ hclaim := by
    rw [hfresh.idle first] at hclaim
    cases hclaim
  stamped event hevent _ key hid := absurd hid (hfresh.foreign event hevent key)
  sent key hkey := by
    rw [hfresh.successes] at hkey
    cases hkey
  nodup := hfresh.successes ▸ List.nodup_nil
  inTime claim hclaim := by
    rw [hfresh.unfinished] at hclaim
    cases hclaim

variable (eventId) in
/-- What the dispatchers promise in a state. -/
structure AtMostOnce (system : System) : Prop where
  delivered : system.successes.Nodup
  recorded : ∀ key, ∀ first ∈ system.events, ∀ second ∈ system.events,
    first.IsRecord eventId key → second.IsRecord eventId key → first = second
  /-- A delivery that failed and finishes within its lease leaves no record. -/
  failed : ∀ name key channel claimedAt time next,
    (system.dispatchers name).phase = .delivered key channel claimedAt false →
    time < claimedAt + lease → system.act eventId name (.finish time) = some next →
    ∀ event ∈ next.events, ¬event.IsRecord eventId key
  /-- Without a record, a dispatcher that comes to the rule delivers again. -/
  retried : ∀ name rule rules time,
    (system.dispatchers name).phase = .idle → (system.dispatchers name).rules = rule :: rules →
    (system.dispatchers name).considers rule = true → system.mayPass time = true →
    rule.id ∈ system.rules.map AlertRule.id →
    (∀ event ∈ system.events, ¬event.IsRecord eventId ((system.dispatchers name).key rule)) →
    ∃ next, run (System.step eventId) system
        [.act name (.readClock time), .act name .look, .act name .take] = some next ∧
      (next.dispatchers name).phase =
        .delivering ((system.dispatchers name).key rule) rule.channel time
  /-- A claim that was taken over at another time finishes without effect. -/
  late : ∀ name key channel claimedAt success other claimed time next,
    (system.dispatchers name).phase = .delivered key channel claimedAt success →
    system.holder key = some (other, claimed) → claimed ≠ claimedAt →
    system.act eventId name (.finish time) = some next → next.events = system.events

theorem act_finish_eq_some {key : Key} {channel : Channel} {claimedAt time : ℕ} {success : Bool}
    (hphase : (system.dispatchers name).phase = .delivered key channel claimedAt success)
    (hact : system.act eventId name (.finish time) = some next) :
    system.mayPass time = true ∧
      next.events = CostAlerts.finish eventId key claimedAt channel success time system.events := by
  simp only [System.act, hphase] at hact
  split_ifs at hact with hpass
  cases hact
  exact ⟨hpass, rfl⟩

theorem Sound.failed (hsound : Sound eventId system) {key : Key} {channel : Channel}
    {claimedAt time : ℕ}
    (hphase : (system.dispatchers name).phase = .delivered key channel claimedAt false)
    (htime : time < claimedAt + lease)
    (hact : system.act eventId name (.finish time) = some next) :
    ∀ event ∈ next.events, ¬event.IsRecord eventId key := by
  obtain ⟨hpass, hevents⟩ := act_finish_eq_some hphase hact
  have hlive := (mayPass_iff.mp hpass).1.trans_lt htime
  obtain ⟨mine, hmine, hlease⟩ := hsound.held (congrArg Phase.claim hphase) hlive
  intro event hevent hrecord
  rw [hevents] at hevent
  obtain ⟨hold, hother⟩ := List.mem_filter.mp hevent
  -- The row of the claim is the one record, and it is the one that is deleted.
  have hsame := hsound.table.single key event hold mine hmine hrecord
    (.inl (isLease_iff.mp hlease).1)
  rw [hsame, hlease] at hother
  cases hother

theorem Sound.late (hsound : Sound eventId system) {key : Key} {channel : Channel}
    {claimedAt claimed other time : ℕ} {success : Bool}
    (hphase : (system.dispatchers name).phase = .delivered key channel claimedAt success)
    (hholder : system.holder key = some (other, claimed)) (hclaimed : claimed ≠ claimedAt)
    (hact : system.act eventId name (.finish time) = some next) :
    next.events = system.events := by
  obtain ⟨-, hevents⟩ := act_finish_eq_some hphase hact
  have hnone : ∀ event ∈ system.events, isLease (eventId key) claimedAt event = false := by
    intro event hevent
    by_contra hlease
    obtain ⟨hid, hpending, hcreated⟩ := isLease_iff.mp (Bool.eq_true_of_not_eq_false hlease)
    obtain ⟨holder, hstamp⟩ := hsound.stamped event hevent hpending key hid
    rw [hholder, hcreated] at hstamp
    exact hclaimed (congrArg Prod.snd (Option.some.inj hstamp))
  rw [hevents]
  cases success with
  | true => exact updateWhere_eq_self hnone
  | false => exact List.filter_eq_self.mpr fun event hevent => by rw [hnone event hevent]; rfl

/-- A dispatcher that comes to a rule without a record takes the claim. -/
theorem claims_without_record {rule : AlertRule} {rules : List AlertRule} {time : ℕ}
    (hidle : (system.dispatchers name).phase = .idle)
    (hrules : (system.dispatchers name).rules = rule :: rules)
    (hconsiders : (system.dispatchers name).considers rule = true)
    (hpass : system.mayPass time = true) (hrule : rule.id ∈ system.rules.map AlertRule.id)
    (hnone : ∀ event ∈ system.events,
      ¬event.IsRecord eventId ((system.dispatchers name).key rule)) :
    ∃ next, run (System.step eventId) system
        [.act name (.readClock time), .act name .look, .act name .take] = some next ∧
      (next.dispatchers name).phase =
        .delivering ((system.dispatchers name).key rule) rule.channel time := by
  have hfind : findExisting ((system.dispatchers name).key rule) system.events = none :=
    List.find?_eq_none.mpr fun event hevent habout => hnone event hevent (.inr habout)
  have hfree : eventId ((system.dispatchers name).key rule) ∉ system.events.map AlertEvent.id := by
    intro hmem
    obtain ⟨event, hevent, hid⟩ := List.mem_map.mp hmem
    exact hnone event hevent (.inl hid)
  have hkey : ((system.dispatchers name).key rule).ruleId ∈ system.rules.map AlertRule.id := hrule
  simp only [run, System.step, System.act, hidle, hrules, hconsiders, hpass, Bool.and_self, if_true,
    Option.bind_some, Function.update_self, System.setPhase, hfind, takeClaim, insertEvent,
    if_neg hfree, if_pos hkey]
  exact ⟨_, rfl, by simp only [Function.update_self]⟩

/-- Whatever the dispatchers do, and whenever they crash, an alert is delivered at
most once. -/
theorem delivered_at_most_once (hinjective : Function.Injective eventId)
    {initial final : System} {labels : List Label} (hfresh : Fresh eventId initial)
    (hrun : run (System.step eventId) initial labels = some final) :
    AtMostOnce eventId final := by
  have hsound := (sound_preserved hinjective).run hfresh.sound hrun
  exact
    { delivered := hsound.nodup
      recorded := hsound.table.single
      failed := fun _ _ _ _ _ _ hphase htime hact => hsound.failed hphase htime hact
      retried := fun _ _ _ _ => claims_without_record
      late := fun _ _ _ _ _ _ _ _ _ hphase hholder hclaimed hact =>
        hsound.late hphase hholder hclaimed hact }

end Invariant

/-! ## Two runs -/

/-- Three dispatchers before a rule at half of a budget of ten. -/
def threeWorkers : System :=
  { rules := [{ id := "half", userId := "ada", thresholdPct := 50, channel := .webhook,
                enabled := true }] }

def halfKey : Key :=
  { ownerId := "ada", ruleId := "half", thresholdPct := 50, cap := 10 }

theorem threeWorkers_fresh : Fresh textId threeWorkers where
  ids := List.nodup_nil
  foreign _ hnone := by cases hnone
  single _ _ hnone := by cases hnone
  idle _ := rfl
  successes := rfl
  unfinished := rfl

/-- A delivery fails, and the dispatcher that comes next delivers. -/
def retriedLabels : List Label :=
  [.act 0 (.start "ada" 6 10), .act 1 (.start "ada" 6 10), .act 0 (.readClock 10), .act 0 .look,
    .act 0 .take, .act 0 (.deliver false), .act 0 (.finish 20), .act 1 (.readClock 20),
    .act 1 .look, .act 1 .take, .act 1 (.deliver true), .act 1 (.finish 30)]

theorem delivered_at_most_once_after_retry :
    ∃ final, run (System.step textId) threeWorkers retriedLabels = some final ∧
      final.successes = [halfKey] ∧ AtMostOnce textId final := by
  have hsent : ((run (System.step textId) threeWorkers retriedLabels).map System.successes) =
      some [halfKey] := by decide +kernel
  obtain ⟨final, hrun, hsuccesses⟩ := Option.map_eq_some_iff.mp hsent
  exact ⟨final, hrun, hsuccesses,
    delivered_at_most_once textId_injective threeWorkers_fresh hrun⟩

/-- Two dispatchers read the clock together.  The first claims and hangs, a third
takes its lease over and fails; then the second claims with its old reading, and
the first fails at last. -/
def staleLabels : List Label :=
  [.act 0 (.start "ada" 6 10), .act 1 (.start "ada" 6 10), .act 2 (.start "ada" 6 10),
    .act 0 (.readClock 0), .act 1 (.readClock 0), .act 0 .look, .act 0 .take,
    .act 2 (.readClock lease), .act 2 .look, .act 2 .take, .act 2 (.deliver false),
    .act 2 (.finish lease), .act 1 .look, .act 1 .take, .act 0 (.deliver false)]

/-- What is seen of a system around a finish. -/
def finished (system : System) : Option (Phase × Option (ℕ × ℕ) × ℕ × ℕ) :=
  (system.act textId 0 (.finish lease)).map fun next =>
    ((system.dispatchers 0).phase, system.holder halfKey, system.events.length,
      next.events.length)

/-- A dispatcher that was taken over deletes the claim of another that read the
clock when it did. -/
theorem late_finish_deletes_claim :
    ¬∀ (initial system next : System) (labels : List Label) (name other claimed claimedAt time : ℕ)
        (key : Key) (channel : Channel) (success : Bool), Fresh textId initial →
      run (System.step textId) initial labels = some system →
      (system.dispatchers name).phase = .delivered key channel claimedAt success →
      system.holder key = some (other, claimed) → other ≠ name →
      system.act textId name (.finish time) = some next → next.events = system.events := by
  intro hall
  have hseen : (run (System.step textId) threeWorkers staleLabels).bind finished =
      some (.delivered halfKey .webhook 0 false, some (1, 0), 1, 0) := by decide +kernel
  obtain ⟨system, hrun, hfinished⟩ := Option.bind_eq_some_iff.mp hseen
  obtain ⟨next, hact, hpair⟩ := Option.map_eq_some_iff.mp hfinished
  simp only [Prod.mk.injEq] at hpair
  obtain ⟨hphase, hholder, hbefore, hafter⟩ := hpair
  have hsame := hall threeWorkers system next staleLabels 0 1 0 0 lease halfKey .webhook false
    threeWorkers_fresh hrun hphase hholder (by decide) hact
  rw [hsame, hbefore] at hafter
  cases hafter

end AlgorithmHarness.CostAlerts
