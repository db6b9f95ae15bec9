import AlgorithmHarness.Browser.HttpClient
import Mathlib.Tactic.SplitIfs

/-!
# Requests of one session

The stored session changes to a marker that no session has had, so a refresh
that finds the marker it was started under finds the one of every request that
awaits it.
-/

namespace AlgorithmHarness.Browser

open Transition

/-! ## What a request may do next -/

namespace Request

/-- Issued under the given marker, or a login or registration. -/
def Under (request : Request) (marker : Option String) : Prop :=
  createsSession request.url = true ∨ request.sessionMarker = some marker

/-- How often a request has been sent. -/
def Counted (request : Request) : Prop :=
  match request.phase with
  | .called | .waiting _ | .prepared => request.sends = if request.retried then 1 else 0
  | .onWire => request.sends = if request.retried then 2 else 1
  | .recovering _ => request.retried = false ∧ request.sends = 1
  | .settled _ => request.sends ≤ 2

/-- The same request, no later than its next phase. -/
structure Same (before after : Request) : Prop where
  url : after.url = before.url
  sessionMarker : before.sessionMarker.isSome = true → after.sessionMarker = before.sessionMarker
  retried : after.retried = before.retried
  sends : after.sends = before.sends

variable {request before after : Request}

theorem Counted.sends_le (hcounted : request.Counted) : request.sends ≤ 2 := by
  unfold Request.Counted at hcounted
  split at hcounted
  all_goals first | (rw [hcounted]; split_ifs <;> decide) | skip
  · rw [hcounted.2]
    decide
  · exact hcounted

theorem Same.refl (request : Request) : Same request request := ⟨rfl, fun _ => rfl, rfl, rfl⟩

theorem Same.under (hsame : Same before after) {marker : Option String}
    (hunder : before.Under marker) : after.Under marker := by
  cases hunder with
  | inl hlogin => exact .inl ((congrArg createsSession hsame.url).trans hlogin)
  | inr hmarker =>
      refine .inr ((hsame.sessionMarker ?_).trans hmarker)
      rw [hmarker, Option.isSome_some]

theorem same_stamp (request : Request) (marker : Option String) :
    Same request (request.stamp marker) := by
  unfold stamp
  split_ifs with habsent
  · refine ⟨rfl, fun hsome => ?_, rfl, rfl⟩
    rw [Option.isNone_iff_eq_none.mp habsent] at hsome
    cases hsome
  · exact .refl request

theorem same_attachCsrf (request : Request) (token : Option String) :
    Same request (request.attachCsrf token) := by
  unfold attachCsrf
  split_ifs
  · exact ⟨rfl, fun _ => rfl, rfl, rfl⟩
  · exact .refl request

theorem Same.trans {middle : Request} (hfirst : Same before middle) (hsecond : Same middle after) :
    Same before after where
  url := hsecond.url.trans hfirst.url
  sessionMarker := by
    intro hsome
    have hmiddle := hfirst.sessionMarker hsome
    rw [← hmiddle] at hsome ⊢
    exact hsecond.sessionMarker hsome
  retried := hsecond.retried.trans hfirst.retried
  sends := hsecond.sends.trans hfirst.sends

end Request

theorem skips_of_createsSession {url : String} (hcreates : createsSession url = true) :
    skipsAccessToken url = true := by
  unfold createsSession endsWithAny at hcreates
  unfold skipsAccessToken endsWithAny
  simp only [List.any_cons, List.any_nil, Bool.or_false, Bool.or_eq_true] at hcreates ⊢
  exact hcreates.elim .inl fun hregister => .inr (.inl hregister)

/-! ## The invariant -/

/-- The run has not settled, or `finally` has not. -/
def Stage.running : Stage → Bool
  | .done _ => false
  | _ => true

structure Isolated (client : Client) : Prop where
  counted : ∀ request ∈ client.requests, request.Counted
  running : ∀ refresh run, client.refreshes[refresh]? = some run → run.stage.running = true →
    client.inflight = some refresh
  started : ∀ refresh, client.inflight = some refresh →
    ∃ run, client.refreshes[refresh]? = some run
  stored : ∀ session, client.stored = some session → session.marker ∈ client.markers
  known : ∀ run ∈ client.refreshes, ∀ original, run.original = some original →
    original.marker ∈ client.markers
  begun : ∀ run ∈ client.refreshes, ∀ original, run.original = some original →
    ∃ request, client.requests[run.starter]? = some request ∧ request.Under (some original.marker)
  answered : ∀ run ∈ client.refreshes, ∀ original next, run.original = some original →
    run.stage = .answered (.ok next) → next.marker = original.marker
  awaiting : ∀ (id : ℕ) request refresh, client.requests[id]? = some request →
    request.awaits = some refresh → ∃ run, client.refreshes[refresh]? = some run ∧
      ∀ original, run.original = some original → client.marker = some original.marker →
        request.Under client.marker
  owned : ∀ effect ∈ client.effects, ∀ id ∈ effect.owners,
    ∃ request, client.requests[id]? = some request ∧ request.Under effect.marker

namespace Client

variable {client : Client}

theorem ownedBy_iff {request : Request} :
    client.ownedBy request = true ↔ request.Under client.marker := by
  simp [ownedBy, Request.Under]

theorem isolated_create (stored : Option StoredSession) : Isolated (createHttpClient stored) where
  counted := fun _ hmem => absurd hmem List.not_mem_nil
  running := fun _ _ hrun => absurd (List.mem_of_getElem? hrun) List.not_mem_nil
  started := by
    intro refresh hinflight
    cases hinflight
  stored := by
    intro session hsession
    have hstored : stored = some session := hsession
    rw [hstored]
    exact List.mem_singleton_self _
  known := fun _ hmem => absurd hmem List.not_mem_nil
  begun := fun _ hmem => absurd hmem List.not_mem_nil
  answered := fun _ hmem => absurd hmem List.not_mem_nil
  awaiting := fun _ _ _ hrequest => absurd (List.mem_of_getElem? hrequest) List.not_mem_nil
  owned := fun _ hmem => absurd hmem List.not_mem_nil

end Client

namespace Isolated

variable {client : Client}

theorem getElem?_issue (client : Client) (url : String) (method : Method) {id : ℕ}
    {request : Request} (hrequest : client.requests[id]? = some request) :
    (client.issue url method).requests[id]? = some request :=
  (List.getElem?_append_left (List.getElem?_eq_some_iff.mp hrequest).1).trans hrequest

theorem issue (hclient : Isolated client) (url : String) (method : Method) :
    Isolated (client.issue url method) := by
  have hkept : ∀ {id : ℕ} {marker : Option String},
      (∃ request, client.requests[id]? = some request ∧ request.Under marker) →
      ∃ request, (client.issue url method).requests[id]? = some request ∧ request.Under marker := by
    intro id marker hfound
    obtain ⟨request, hrequest, hunder⟩ := hfound
    exact ⟨request, getElem?_issue client url method hrequest, hunder⟩
  refine { hclient with counted := ?_, begun := ?_, awaiting := ?_, owned := ?_ }
  · intro request hmem
    cases List.mem_append.mp hmem with
    | inl hbefore => exact hclient.counted request hbefore
    | inr hlast =>
        obtain rfl := List.mem_singleton.mp hlast
        exact rfl
  · exact fun run hrun original horiginal => hkept (hclient.begun run hrun original horiginal)
  · intro id request refresh hrequest hawaits
    cases hbefore : client.requests[id]? with
    | some old =>
        have hkeptold := getElem?_issue client url method hbefore
        obtain rfl := Option.some.inj (hkeptold.symm.trans hrequest)
        exact hclient.awaiting id old refresh hbefore hawaits
    | none =>
        have hlength := List.getElem?_eq_none_iff.mp hbefore
        rw [Client.issue, List.getElem?_append_right hlength] at hrequest
        obtain rfl := List.mem_singleton.mp (List.mem_of_getElem? hrequest)
        cases hawaits
  · exact fun effect heffect id hid => hkept (hclient.owned effect heffect id hid)

theorem replace (hclient : Isolated client) {id : ℕ} {before after : Request}
    (hbefore : client.requests[id]? = some before) (hurl : after.url = before.url)
    (hmarker : before.sessionMarker.isSome = true → after.sessionMarker = before.sessionMarker)
    (hcounted : after.Counted)
    (hawaits : ∀ refresh, after.awaits = some refresh →
      ∃ run, client.refreshes[refresh]? = some run ∧ after.Under client.marker) :
    Isolated (client.replace id after) := by
  have hset : (client.requests.set id after)[id]? = some after :=
    List.getElem?_set_self (List.getElem?_eq_some_iff.mp hbefore).1
  have hkept : ∀ {other : ℕ} {marker : Option String},
      (∃ request, client.requests[other]? = some request ∧ request.Under marker) →
      ∃ request, (client.replace id after).requests[other]? = some request ∧
        request.Under marker := by
    intro other marker hfound
    obtain ⟨request, hrequest, hunder⟩ := hfound
    by_cases hsame : id = other
    · subst hsame
      obtain rfl := Option.some.inj (hbefore.symm.trans hrequest)
      refine ⟨after, hset, ?_⟩
      cases hunder with
      | inl hlogin => exact .inl ((congrArg createsSession hurl).trans hlogin)
      | inr hstamp =>
          refine .inr ((hmarker ?_).trans hstamp)
          rw [hstamp, Option.isSome_some]
    · exact ⟨request, (List.getElem?_set_ne hsame).trans hrequest, hunder⟩
  refine { hclient with counted := ?_, begun := ?_, awaiting := ?_, owned := ?_ }
  · intro request hmem
    cases List.mem_or_eq_of_mem_set hmem with
    | inl hold => exact hclient.counted request hold
    | inr hnew => exact hnew ▸ hcounted
  · exact fun run hrun original horiginal => hkept (hclient.begun run hrun original horiginal)
  · intro other request refresh hrequest hwaits
    by_cases hsame : id = other
    · subst hsame
      obtain rfl := Option.some.inj (hset.symm.trans hrequest)
      obtain ⟨run, hrun, hunder⟩ := hawaits refresh hwaits
      exact ⟨run, hrun, fun _ _ _ => hunder⟩
    · have hold : client.requests[other]? = some request :=
        (List.getElem?_set_ne hsame).symm.trans hrequest
      exact hclient.awaiting other request refresh hold hwaits
  · exact fun effect heffect other hother => hkept (hclient.owned effect heffect other hother)

theorem log (hclient : Isolated client) {owners : List ℕ} (call : Call)
    (howners : ∀ id ∈ owners, ∃ request, client.requests[id]? = some request ∧
      request.Under client.marker) : Isolated (client.log owners call) := by
  refine { hclient with owned := fun effect heffect id hid => ?_ }
  cases List.mem_append.mp heffect with
  | inl hbefore => exact hclient.owned effect hbefore id hid
  | inr hlast =>
      obtain rfl := List.mem_singleton.mp hlast
      exact howners id hid

/-- A session with the stored marker, or with one that no session has had. -/
theorem hold (hclient : Isolated client) {session : StoredSession}
    (hmarker : client.marker = some session.marker ∨ session.marker ∉ client.markers) :
    Isolated (client.hold session) := by
  refine { hclient with stored := ?_, known := ?_, awaiting := ?_ }
  · intro other hother
    obtain rfl := Option.some.inj hother
    exact List.mem_append_right _ (List.mem_singleton_self _)
  · intro run hrun original horiginal
    exact List.mem_append_left _ (hclient.known run hrun original horiginal)
  · intro id request refresh hrequest hawaits
    obtain ⟨run, hrun, hunder⟩ := hclient.awaiting id request refresh hrequest hawaits
    refine ⟨run, hrun, fun original horiginal hsame => ?_⟩
    have hmarkers : session.marker = original.marker := Option.some.inj hsame
    cases hmarker with
    | inl hstored =>
        have hbefore := hunder original horiginal (hmarkers ▸ hstored)
        rw [hstored] at hbefore
        exact hbefore
    | inr hnew =>
        have hknown := hclient.known run (List.mem_of_getElem? hrun) original horiginal
        exact absurd (hmarkers ▸ hknown) hnew

theorem drop (hclient : Isolated client) : Isolated client.drop := by
  refine { hclient with stored := nofun, awaiting := ?_ }
  intro id request refresh hrequest hawaits
  obtain ⟨run, hrun, -⟩ := hclient.awaiting id request refresh hrequest hawaits
  exact ⟨run, hrun, fun _ _ hsame => nomatch hsame⟩

theorem setCsrf (hclient : Isolated client) {owners : List ℕ} (token : String)
    (howners : ∀ id ∈ owners, ∃ request, client.requests[id]? = some request ∧
      request.Under client.marker) : Isolated (client.setCsrf owners token) :=
  { hclient.log (.csrf token) howners with }

theorem write (hclient : Isolated client) {owners : List ℕ} {session : StoredSession}
    (howners : ∀ id ∈ owners, ∃ request, client.requests[id]? = some request ∧
      request.Under client.marker)
    (hmarker : client.marker = some session.marker ∨ session.marker ∉ client.markers) :
    Isolated (client.write owners session) := (hclient.log _ howners).hold hmarker

theorem clear (hclient : Isolated client) {owners : List ℕ}
    (howners : ∀ id ∈ owners, ∃ request, client.requests[id]? = some request ∧
      request.Under client.marker) : Isolated (client.clear owners) := (hclient.log _ howners).drop

theorem rememberCsrf (hclient : Isolated client) {owners : List ℕ} (token : String)
    (howners : ∀ id ∈ owners, ∃ request, client.requests[id]? = some request ∧
      request.Under client.marker) : Isolated (client.rememberCsrf owners token) := by
  have hset := hclient.setCsrf token howners
  unfold Client.rememberCsrf
  cases hstored : client.stored with
  | none => exact hset
  | some current =>
      have hmarker : client.marker = some current.marker := by
        rw [Client.marker, hstored, Option.map_some]
      dsimp only
      split_ifs
      · exact hset.write howners (.inl hmarker)
      · exact hset

theorem syncCsrf (hclient : Isolated client) {id : ℕ} {before request : Request}
    (hbefore : client.requests[id]? = some before) (hunder : before.Under client.marker) :
    Isolated (client.syncCsrf id request) := by
  unfold Client.syncCsrf
  cases (client.stored.bind (·.csrfToken)).filter (· ≠ "") with
  | none => exact hclient
  | some token =>
      dsimp only
      split_ifs
      · refine hclient.setCsrf token fun other hother => ?_
        obtain rfl := List.mem_singleton.mp hother
        exact ⟨before, hbefore, hunder⟩
      · exact hclient

/-- The requests and the refreshes are as they were, and so is the marker. -/
structure Steady (before after : Client) : Prop where
  requests : after.requests = before.requests
  refreshes : after.refreshes = before.refreshes
  inflight : after.inflight = before.inflight
  marker : after.marker = before.marker

theorem steady_rememberCsrf (client : Client) (owners : List ℕ) (token : String) :
    Steady client (client.rememberCsrf owners token) := by
  unfold Client.rememberCsrf
  cases hstored : client.stored with
  | none => exact ⟨rfl, rfl, rfl, rfl⟩
  | some current =>
      have hmarker : client.marker = some current.marker := by
        rw [Client.marker, hstored, Option.map_some]
      dsimp only
      split_ifs
      · exact ⟨rfl, rfl, rfl, hmarker.symm⟩
      · exact ⟨rfl, rfl, rfl, rfl⟩

theorem steady_syncCsrf (client : Client) (id : ℕ) (request : Request) :
    Steady client (client.syncCsrf id request) := by
  unfold Client.syncCsrf
  cases (client.stored.bind (·.csrfToken)).filter (· ≠ "") with
  | none => exact ⟨rfl, rfl, rfl, rfl⟩
  | some token =>
      dsimp only
      split_ifs <;> exact ⟨rfl, rfl, rfl, rfl⟩

theorem settle (hclient : Isolated client) {id : ℕ} {before request : Request}
    (hbefore : client.requests[id]? = some before) (hsame : Request.Same before request)
    (hsends : request.sends ≤ 2) (outcome : Except ApiClientError (Option ℤ)) :
    Isolated (client.replace id (request.settle outcome)) :=
  hclient.replace hbefore hsame.url hsame.sessionMarker hsends fun _ hawaits => nomatch hawaits

theorem prepare (hclient : Isolated client) {id : ℕ} {before request : Request}
    (hbefore : client.requests[id]? = some before) (hsame : Request.Same before request)
    (hunder : request.Under client.marker → before.Under client.marker)
    (hsends : request.sends = if request.retried then 1 else 0) :
    Isolated (client.prepare id request) := by
  unfold Client.prepare
  split_ifs with howned
  · have hsteady := steady_syncCsrf client id request
    have hsynced : Isolated (client.syncCsrf id request) :=
      hclient.syncCsrf hbefore (hunder (Client.ownedBy_iff.mp howned))
    have hattached := hsame.trans (request.same_attachCsrf (client.syncCsrf id request).latestCsrf)
    refine hsynced.replace (hsteady.requests ▸ hbefore) hattached.url hattached.sessionMarker ?_
      fun _ hawaits => nomatch hawaits
    have hkept := request.same_attachCsrf (client.syncCsrf id request).latestCsrf
    simp only [Request.Counted, hkept.sends, hkept.retried, hsends]
  · refine hclient.settle hbefore hsame ?_ _
    rw [hsends]
    split_ifs <;> decide

/-! ### The coordinator -/

theorem launch (hclient : Isolated client) (hidle : client.inflight = none) {run : Refresh}
    (hrunning : run.stage.running = true) (hstage : ∀ outcome, run.stage ≠ .answered outcome)
    (horiginal : ∀ original, run.original = some original → original.marker ∈ client.markers ∧
      ∃ request, client.requests[run.starter]? = some request ∧
        request.Under (some original.marker)) :
    Isolated (client.launch run) := by
  have hlast : (client.refreshes ++ [run])[client.refreshes.length]? = some run := by
    rw [List.getElem?_append_right (Nat.le_refl _), Nat.sub_self]
    rfl
  refine { hclient with
    running := ?_, started := ?_, known := ?_, begun := ?_, answered := ?_, awaiting := ?_ }
  · intro refresh other hother hactive
    by_cases hlength : refresh < client.refreshes.length
    · have hbefore : client.refreshes[refresh]? = some other :=
        (List.getElem?_append_left hlength).symm.trans hother
      cases hidle.symm.trans (hclient.running refresh other hbefore hactive)
    · have hbound := (List.getElem?_eq_some_iff.mp hother).1
      rw [Client.launch, List.length_append, List.length_singleton] at hbound
      exact congrArg some (Nat.le_antisymm (Nat.le_of_not_lt hlength) (Nat.le_of_lt_succ hbound))
  · intro refresh hinflight
    obtain rfl := Option.some.inj hinflight
    exact ⟨run, hlast⟩
  · intro other hother original hmarker
    cases List.mem_append.mp hother with
    | inl hbefore => exact hclient.known other hbefore original hmarker
    | inr hnew =>
        obtain rfl := List.mem_singleton.mp hnew
        exact (horiginal original hmarker).1
  · intro other hother original hmarker
    cases List.mem_append.mp hother with
    | inl hbefore => exact hclient.begun other hbefore original hmarker
    | inr hnew =>
        obtain rfl := List.mem_singleton.mp hnew
        exact (horiginal original hmarker).2
  · intro other hother original next hmarker hanswered
    cases List.mem_append.mp hother with
    | inl hbefore => exact hclient.answered other hbefore original next hmarker hanswered
    | inr hnew =>
        obtain rfl := List.mem_singleton.mp hnew
        exact absurd hanswered (hstage _)
  · intro id request refresh hrequest hawaits
    obtain ⟨other, hother, hunder⟩ := hclient.awaiting id request refresh hrequest hawaits
    refine ⟨other, ?_, hunder⟩
    exact (List.getElem?_append_left (List.getElem?_eq_some_iff.mp hother).1).trans hother

theorem beginRefresh (hclient : Isolated client) (custom : Bool) {id : ℕ} {request : Request}
    (hrequest : client.requests[id]? = some request) (hunder : request.Under client.marker) :
    Isolated (client.beginRefresh custom id) := by
  unfold Client.beginRefresh
  cases hinflight : client.inflight with
  | some refresh => exact hclient
  | none =>
      cases hstored : client.stored with
      | none => exact hclient.launch hinflight rfl nofun nofun
      | some original =>
          have hmarker : client.marker = some original.marker := by
            rw [Client.marker, hstored, Option.map_some]
          have hmember := hclient.stored original hstored
          rw [hmarker] at hunder
          dsimp only
          split_ifs
          · refine hclient.launch hinflight rfl nofun fun session hsession => ?_
            obtain rfl := Option.some.inj hsession
            exact ⟨hmember, request, hrequest, hunder⟩
          · refine (hclient.issue "/auth/refresh" .post).launch hinflight rfl nofun
              fun session hsession => ?_
            obtain rfl := Option.some.inj hsession
            exact ⟨hmember, request, getElem?_issue client _ _ hrequest, hunder⟩

/-- The refresh that is returned exists. -/
theorem exists_refreshId (hclient : Isolated client) (custom : Bool) (id : ℕ) :
    ∃ run, (client.beginRefresh custom id).refreshes[client.refreshId]? = some run := by
  have hlaunched : ∀ (before : Client) (run : Refresh),
      (before.launch run).refreshes[before.refreshes.length]? = some run := by
    intro before run
    rw [Client.launch, List.getElem?_append_right (Nat.le_refl _), Nat.sub_self]
    rfl
  unfold Client.beginRefresh Client.refreshId
  cases hinflight : client.inflight with
  | some refresh => exact hclient.started refresh hinflight
  | none =>
      cases hstored : client.stored with
      | none => exact ⟨_, hlaunched client _⟩
      | some original =>
          dsimp only
          split_ifs
          · exact ⟨_, hlaunched client _⟩
          · exact ⟨_, hlaunched (client.issue "/auth/refresh" .post) _⟩

/-- A refresh that begins does nothing yet. -/
theorem beginRefresh_kept (client : Client) (custom : Bool) (starter : ℕ) :
    (client.beginRefresh custom starter).stored = client.stored ∧
      (client.beginRefresh custom starter).latestCsrf = client.latestCsrf ∧
      (client.beginRefresh custom starter).effects = client.effects ∧
      ∀ (id : ℕ) request, client.requests[id]? = some request →
        (client.beginRefresh custom starter).requests[id]? = some request := by
  unfold Client.beginRefresh
  cases client.inflight with
  | some refresh => exact ⟨rfl, rfl, rfl, fun _ _ hrequest => hrequest⟩
  | none =>
      cases hstored : client.stored with
      | none => exact ⟨hstored, rfl, rfl, fun _ _ hrequest => hrequest⟩
      | some original =>
          dsimp only
          split_ifs
          · exact ⟨hstored, rfl, rfl, fun _ _ hrequest => hrequest⟩
          · exact ⟨hstored, rfl, rfl, fun _ _ hrequest => getElem?_issue client _ _ hrequest⟩

/-- A request of the stored session that begins or joins a refresh. -/
theorem await (hclient : Isolated client) (custom : Bool) {id : ℕ} {before request : Request}
    (hbefore : client.requests[id]? = some before) (hsame : Request.Same before request)
    (hunder : before.Under client.marker) {phase : Phase}
    (hphase : phase = .waiting client.refreshId ∨ phase = .recovering client.refreshId)
    (hcounted : Request.Counted { request with phase }) :
    Isolated ((client.beginRefresh custom id).replace id { request with phase }) := by
  obtain ⟨hstored, -, -, hrequests⟩ := beginRefresh_kept client custom id
  refine (hclient.beginRefresh custom hbefore hunder).replace (hrequests id before hbefore)
    hsame.url hsame.sessionMarker hcounted fun refresh hawaits => ?_
  have hid : refresh = client.refreshId := by
    obtain rfl | rfl := hphase <;> exact (Option.some.inj hawaits).symm
  obtain ⟨run, hrun⟩ := hclient.exists_refreshId custom id
  rw [hid, Client.marker, hstored]
  exact ⟨run, hrun, hsame.under hunder⟩

/-! ### The interceptors -/

theorem enter (hclient : Isolated client) (custom : Bool) {id : ℕ} {request : Request}
    (hrequest : client.requests[id]? = some request)
    (hsends : request.sends = if request.retried then 1 else 0) (now : ℤ) :
    Isolated (client.enter custom id request now) := by
  unfold Client.enter
  by_cases howned : client.ownedBy request = true
  · have hunder := Client.ownedBy_iff.mp howned
    have hsteady := steady_syncCsrf client id request
    have hsynced : Isolated (client.syncCsrf id request) := hclient.syncCsrf hrequest hunder
    have hkept : (client.syncCsrf id request).requests[id]? = some request :=
      hsteady.requests ▸ hrequest
    have hattached := request.same_attachCsrf (client.syncCsrf id request).latestCsrf
    have hcounted : (request.attachCsrf (client.syncCsrf id request).latestCsrf).sends =
        if (request.attachCsrf (client.syncCsrf id request).latestCsrf).retried then 1 else 0 := by
      rw [hattached.sends, hattached.retried, hsends]
    rw [← hsteady.marker] at hunder
    rw [if_pos howned]
    dsimp only
    split_ifs
    · exact hsynced.replace hkept hattached.url hattached.sessionMarker hcounted
        fun _ hawaits => nomatch hawaits
    · exact hsynced.await custom hkept hattached hunder (.inl rfl) hcounted
    · exact hsynced.prepare hkept hattached (fun _ => hunder) hcounted
  · rw [if_neg howned]
    refine hclient.settle hrequest (.refl request) ?_ _
    rw [hsends]
    split_ifs <;> decide

theorem intercept (hclient : Isolated client) (custom : Bool) {id : ℕ} {request : Request}
    (hrequest : client.requests[id]? = some request) (hphase : request.phase = .called)
    (now : ℤ) : Isolated (client.intercept custom id request now) := by
  have hcounted := hclient.counted request (List.mem_of_getElem? hrequest)
  simp only [Request.Counted, hphase] at hcounted
  have hsame := request.same_stamp client.marker
  have hstamped : (request.stamp client.marker).phase = .called := by
    unfold Request.stamp
    split_ifs <;> exact hphase
  have hsends : (request.stamp client.marker).sends =
      if (request.stamp client.marker).retried then 1 else 0 := by
    rw [hsame.sends, hsame.retried, hcounted]
  have hreplaced : Isolated (client.replace id (request.stamp client.marker)) := by
    refine hclient.replace hrequest hsame.url hsame.sessionMarker ?_ fun _ hawaits => ?_
    · simp only [Request.Counted, hstamped, hsends]
    · rw [Request.awaits, hstamped] at hawaits
      cases hawaits
  refine hreplaced.enter custom ?_ hsends now
  exact List.getElem?_set_self (List.getElem?_eq_some_iff.mp hrequest).1

theorem recover (hclient : Isolated client) (custom : Bool) {id : ℕ} {request : Request}
    (hrequest : client.requests[id]? = some request)
    (hsends : request.sends = if request.retried then 2 else 1) {hasConfig : Bool}
    (hunder : hasConfig = true → request.Under client.marker) (error : ApiClientError) :
    Isolated (client.recover custom id request hasConfig error) := by
  unfold Client.recover
  split_ifs with hrefused
  · refine hclient.settle hrequest (.refl request) ?_ _
    rw [hsends]
    split_ifs <;> decide
  · simp only [Bool.or_eq_true, Bool.not_eq_true', not_or, Bool.not_eq_false,
      Bool.not_eq_true] at hrefused
    obtain ⟨⟨hconfig, hretried⟩, -⟩ := hrefused
    refine hclient.await custom hrequest (.refl request) (hunder hconfig) (.inr rfl) ?_
    rw [hretried] at hsends
    exact ⟨hretried, hsends⟩

theorem steady_accept (client : Client) (id : ℕ) (response : Response) :
    Steady client (client.accept id response) := by
  unfold Client.accept
  cases response.csrf with
  | none => exact ⟨rfl, rfl, rfl, rfl⟩
  | some token => exact steady_rememberCsrf client [id] token

theorem accept (hclient : Isolated client) {id : ℕ} {request : Request}
    (hrequest : client.requests[id]? = some request) (hunder : request.Under client.marker)
    (response : Response) : Isolated (client.accept id response) := by
  unfold Client.accept
  cases response.csrf with
  | none => exact hclient
  | some token =>
      refine hclient.rememberCsrf token fun other hother => ?_
      obtain rfl := List.mem_singleton.mp hother
      exact ⟨request, hrequest, hunder⟩

theorem answer (hclient : Isolated client) (custom : Bool) {id : ℕ} {request : Request}
    (hrequest : client.requests[id]? = some request) (hphase : request.phase = .onWire)
    (given : Answer) : Isolated (client.answer custom id request given) := by
  have hsends := hclient.counted request (List.mem_of_getElem? hrequest)
  simp only [Request.Counted, hphase] at hsends
  have hbound : request.sends ≤ 2 := by
    rw [hsends]
    split_ifs <;> decide
  cases given with
  | response response =>
      simp only [Client.answer]
      by_cases howned : client.ownedBy request = true
      · have hunder := Client.ownedBy_iff.mp howned
        have hsteady := steady_accept client id response
        have hisolated := hclient.accept hrequest hunder response
        have hkept : (client.accept id response).requests[id]? = some request :=
          hsteady.requests ▸ hrequest
        rw [if_pos howned]
        split_ifs
        · exact hisolated.settle hkept (.refl request) hbound _
        · exact hisolated.recover custom hkept hsends (fun _ => hsteady.marker ▸ hunder) _
        · exact hisolated.settle hkept (.refl request) hbound _
        · exact hisolated.settle hkept (.refl request) hbound _
      · rw [if_neg howned]
        exact hclient.settle hrequest (.refl request) hbound _
  | error status hasConfig message =>
      simp only [Client.answer]
      split_ifs with hforeign hunauthorized
      · exact hclient.settle hrequest (.refl request) hbound _
      · refine hclient.recover custom hrequest hsends (fun hconfig => ?_) _
        rw [hconfig, Bool.true_and, Bool.not_eq_true', Bool.not_eq_false] at hforeign
        exact Client.ownedBy_iff.mp hforeign
      · exact hclient.settle hrequest (.refl request) hbound _

theorem resume (hclient : Isolated client) {id refresh : ℕ} {request : Request}
    (hrequest : client.requests[id]? = some request) (hawaits : request.awaits = some refresh)
    (outcome : Except ApiClientError StoredSession) :
    Isolated (client.resume id request outcome) := by
  have hcounted := hclient.counted request (List.mem_of_getElem? hrequest)
  unfold Request.awaits at hawaits
  unfold Request.Counted at hcounted
  have hbound : request.sends ≤ 2 := by
    split at hawaits
    all_goals try cases hawaits
    · next hphase =>
        simp only [hphase] at hcounted
        rw [hcounted]
        split_ifs <;> decide
    · next hphase =>
        simp only [hphase] at hcounted
        rw [hcounted.2]
        decide
  cases outcome with
  | error error => exact hclient.settle hrequest (.refl request) hbound _
  | ok next =>
      simp only [Client.resume]
      split at hawaits
      all_goals try cases hawaits
      · next hphase =>
          simp only [hphase] at hcounted ⊢
          exact hclient.prepare hrequest (.refl request) (fun hunder => hunder) hcounted
      · next hphase =>
          simp only [hphase] at hcounted ⊢
          refine hclient.replace hrequest rfl (fun _ => rfl) ?_ fun _ hwaits => nomatch hwaits
          exact hcounted.2

/-! ### The end of a refresh -/

theorem setStage (hclient : Isolated client) {refresh : ℕ} {run : Refresh}
    (hrun : client.refreshes[refresh]? = some run) {stage : Stage}
    (hrunning : run.stage.running = true) (hanswered : ∀ original next,
      run.original = some original → stage = .answered (.ok next) →
      next.marker = original.marker) :
    Isolated (client.setStage refresh run stage) := by
  have hlength := (List.getElem?_eq_some_iff.mp hrun).1
  have hset : (client.refreshes.set refresh { run with stage })[refresh]? =
      some { run with stage } := List.getElem?_set_self hlength
  have hother : ∀ {other : ℕ}, refresh ≠ other →
      (client.refreshes.set refresh { run with stage })[other]? = client.refreshes[other]? :=
    fun hne => List.getElem?_set_ne hne
  refine { hclient with
    running := ?_, started := ?_, known := ?_, begun := ?_, answered := ?_, awaiting := ?_ }
  · intro other found hfound hactive
    by_cases hsame : refresh = other
    · exact hsame ▸ hclient.running refresh run hrun hrunning
    · exact hclient.running other found ((hother hsame).symm.trans hfound) hactive
  · intro other hinflight
    by_cases hsame : refresh = other
    · subst hsame
      exact ⟨_, hset⟩
    · obtain ⟨found, hfound⟩ := hclient.started other hinflight
      exact ⟨found, (hother hsame).trans hfound⟩
  · intro found hfound original horiginal
    cases List.mem_or_eq_of_mem_set hfound with
    | inl hbefore => exact hclient.known found hbefore original horiginal
    | inr hnew =>
        subst hnew
        exact hclient.known run (List.mem_of_getElem? hrun) original horiginal
  · intro found hfound original horiginal
    cases List.mem_or_eq_of_mem_set hfound with
    | inl hbefore => exact hclient.begun found hbefore original horiginal
    | inr hnew =>
        subst hnew
        exact hclient.begun run (List.mem_of_getElem? hrun) original horiginal
  · intro found hfound original next horiginal hstage
    cases List.mem_or_eq_of_mem_set hfound with
    | inl hbefore => exact hclient.answered found hbefore original next horiginal hstage
    | inr hnew =>
        subst hnew
        exact hanswered original next horiginal hstage
  · intro id request other hrequest hawaits
    obtain ⟨found, hfound, hunder⟩ := hclient.awaiting id request other hrequest hawaits
    by_cases hsame : refresh = other
    · subst hsame
      obtain rfl := Option.some.inj (hrun.symm.trans hfound)
      exact ⟨_, hset, hunder⟩
    · exact ⟨found, (hother hsame).trans hfound, hunder⟩

/-- The requests that a refresh belongs to, while its marker is stored. -/
theorem owners_under (hclient : Isolated client) {refresh : ℕ} {run : Refresh}
    (hrun : client.refreshes[refresh]? = some run) {original : StoredSession}
    (horiginal : run.original = some original) (hmarker : client.marker = some original.marker) :
    ∀ id ∈ run.starter :: client.waiters refresh,
      ∃ request, client.requests[id]? = some request ∧ request.Under client.marker := by
  intro id hid
  cases List.mem_cons.mp hid with
  | inl hstarter =>
      rw [hstarter, hmarker]
      exact hclient.begun run (List.mem_of_getElem? hrun) original horiginal
  | inr hwaiter =>
      have hwaits := (List.mem_filter.mp hwaiter).2
      cases hrequest : client.requests[id]? with
      | none =>
          rw [hrequest] at hwaits
          cases hwaits
      | some request =>
          rw [hrequest, Option.any_some, decide_eq_true_eq] at hwaits
          obtain ⟨found, hfound, hunder⟩ := hclient.awaiting id request refresh hrequest hwaits
          obtain rfl := Option.some.inj (hrun.symm.trans hfound)
          exact ⟨request, rfl, hunder original horiginal hmarker⟩

theorem complete (hclient : Isolated client) {refresh : ℕ} {run : Refresh}
    (hrun : client.refreshes[refresh]? = some run) (hrunning : run.stage.running = true)
    {original : StoredSession} (horiginal : run.original = some original)
    {outcome : Except ApiClientError StoredSession}
    (hnext : ∀ next, outcome = .ok next →
      next.marker = original.marker ∨ next.marker ∉ client.markers) :
    Isolated (client.complete refresh run original outcome) := by
  unfold Client.complete
  dsimp only
  split_ifs with hmarker
  · have howners := hclient.owners_under hrun horiginal hmarker
    cases outcome with
    | ok next =>
        have hwritten : Isolated (client.write (run.starter :: client.waiters refresh) next) := by
          refine hclient.write howners ((hnext next rfl).imp_left fun hsame => ?_)
          rw [hmarker, hsame]
        exact hwritten.setStage hrun hrunning fun _ _ _ hstage => nomatch hstage
    | error error =>
        exact (hclient.clear howners).setStage hrun hrunning fun _ _ _ hstage => nomatch hstage
  · cases outcome <;> exact hclient.setStage hrun hrunning fun _ _ _ hstage => nomatch hstage

theorem release (hclient : Isolated client) {refresh : ℕ} {run : Refresh}
    (hrun : client.refreshes[refresh]? = some run) (hrunning : run.stage.running = true)
    (outcome : Except ApiClientError StoredSession) :
    Isolated { client.setStage refresh run (.done outcome) with inflight := none } := by
  have hended : Isolated (client.setStage refresh run (.done outcome)) :=
    hclient.setStage hrun hrunning fun _ _ _ hstage => nomatch hstage
  refine { hended with running := ?_, started := nofun }
  intro other found hfound hactive
  by_cases hsame : refresh = other
  · subst hsame
    have hset : (client.refreshes.set refresh { run with stage := .done outcome })[refresh]? =
        some { run with stage := .done outcome } :=
      List.getElem?_set_self (List.getElem?_eq_some_iff.mp hrun).1
    obtain rfl := Option.some.inj (hset.symm.trans hfound)
    cases hactive
  · have hbefore : client.refreshes[other]? = some found :=
      (List.getElem?_set_ne hsame).symm.trans hfound
    have hinflight := hclient.running refresh run hrun hrunning
    rw [hclient.running other found hbefore hactive, Option.some.injEq] at hinflight
    exact absurd hinflight.symm hsame

end Isolated

/-! ## Steps and runs -/

namespace Client

variable {custom : Bool} {client next : Client}

theorem refreshed_marker {original session : StoredSession} {now : ℤ}
    {outcome : Except ApiClientError (Option ℤ)}
    (hrefreshed : client.refreshed original now outcome = .ok session) :
    session.marker = original.marker := by
  cases outcome with
  | error error => cases hrefreshed
  | ok lifetime =>
      cases lifetime with
      | none => cases hrefreshed
      | some expiresIn =>
          obtain rfl := Except.ok.inj hrefreshed
          rfl

theorem isolated_step {label : ClientStep} (hclient : Isolated client)
    (hstep : client.step custom label = some next) : Isolated next := by
  cases label with
  | call url method =>
      obtain rfl := Option.some.inj hstep
      exact hclient.issue url method
  | intercept id now =>
      obtain ⟨request, hrequest, hnext⟩ := Option.bind_eq_some_iff.mp hstep
      cases hphase : request.phase <;> simp only [hphase] at hnext <;> cases hnext
      exact hclient.intercept custom hrequest hphase now
  | dispatch id =>
      obtain ⟨request, hrequest, hnext⟩ := Option.bind_eq_some_iff.mp hstep
      have hcounted := hclient.counted request (List.mem_of_getElem? hrequest)
      cases hphase : request.phase <;> simp only [hphase] at hnext <;> cases hnext
      refine hclient.replace hrequest rfl (fun _ => rfl) ?_ fun _ hawaits => nomatch hawaits
      simp only [Request.Counted, hphase] at hcounted ⊢
      rw [hcounted]
      split_ifs <;> rfl
  | answer id given =>
      obtain ⟨request, hrequest, hnext⟩ := Option.bind_eq_some_iff.mp hstep
      cases hphase : request.phase <;> simp only [hphase] at hnext <;> cases hnext
      exact hclient.answer custom hrequest hphase given
  | resume id =>
      obtain ⟨request, hrequest, hwaiting⟩ := Option.bind_eq_some_iff.mp hstep
      obtain ⟨refresh, hawaits, hsettled⟩ := Option.bind_eq_some_iff.mp hwaiting
      obtain ⟨run, -, hnext⟩ := Option.bind_eq_some_iff.mp hsettled
      cases hstage : run.stage <;> simp only [hstage] at hnext <;> cases hnext
      exact hclient.resume hrequest hawaits _
  | answerRefresh refresh now =>
      obtain ⟨run, hrun, hposted⟩ := Option.bind_eq_some_iff.mp hstep
      cases hstage : run.stage <;> simp only [hstage] at hposted <;> try cases hposted
      cases horiginal : run.original <;> simp only [horiginal] at hposted <;> try cases hposted
      next original =>
        obtain ⟨request, -, hnext⟩ := Option.bind_eq_some_iff.mp hposted
        cases hphase : request.phase <;> simp only [hphase] at hnext <;> cases hnext
        refine hclient.setStage hrun (by rw [hstage]; rfl) fun other session hother hanswered => ?_
        obtain rfl := Option.some.inj (horiginal.symm.trans hother)
        exact refreshed_marker (Stage.answered.inj hanswered)
  | complete refresh =>
      obtain ⟨run, hrun, hnext⟩ := Option.bind_eq_some_iff.mp hstep
      cases hstage : run.stage <;> simp only [hstage] at hnext <;> try cases hnext
      cases horiginal : run.original <;> simp only [horiginal] at hnext <;> cases hnext
      refine hclient.complete hrun (by rw [hstage]; rfl) horiginal fun session hsession => .inl ?_
      rw [hsession] at hstage
      exact hclient.answered run (List.mem_of_getElem? hrun) _ session horiginal hstage
  | completeExternal refresh outcome =>
      obtain ⟨run, hrun, hnext⟩ := Option.bind_eq_some_iff.mp hstep
      cases hstage : run.stage <;> simp only [hstage] at hnext <;> try cases hnext
      cases horiginal : run.original <;> simp only [horiginal] at hnext <;> try cases hnext
      split_ifs at hnext with hadmits
      cases hnext
      refine hclient.complete hrun (by rw [hstage]; rfl) horiginal fun session hsession => ?_
      simpa [hsession, admits] using hadmits
  | release refresh =>
      obtain ⟨run, hrun, hnext⟩ := Option.bind_eq_some_iff.mp hstep
      cases hstage : run.stage <;> simp only [hstage] at hnext <;> cases hnext
      exact hclient.release hrun (by rw [hstage]; rfl) _
  | login session =>
      simp only [step] at hstep
      split_ifs at hstep with hknown
      obtain rfl := Option.some.inj hstep
      exact hclient.hold (.inr hknown)
  | update session =>
      simp only [step] at hstep
      split_ifs at hstep with hsame
      obtain rfl := Option.some.inj hstep
      exact hclient.hold (.inl hsame)
  | logout =>
      obtain rfl := Option.some.inj hstep
      exact hclient.drop

theorem isolated_run {stored : Option StoredSession} {steps : List ClientStep} {final : Client}
    (hrun : run (step custom) (createHttpClient stored) steps = some final) : Isolated final :=
  Preserved.run (fun _ _ _ hclient hstep => isolated_step hclient hstep) (isolated_create stored)
    hrun

end Client

end AlgorithmHarness.Browser
