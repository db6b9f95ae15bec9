import AlgorithmHarness.Browser.Ownership

/-!
# Sessions are kept apart

What one step of the client calls, it calls under one marker; with the
invariant, that is the marker of every request the call belongs to.
-/

namespace AlgorithmHarness.Browser

open Transition

/-! ## What a step calls -/

/-- The calls made between two clients, all of them under one marker; without a
call the session and the token are as they were. -/
def Logged (before after : Client) : Prop :=
  ∃ made, after.effects = before.effects ++ made ∧
    (made = [] → after.stored = before.stored ∧ after.latestCsrf = before.latestCsrf) ∧
    ∀ effect ∈ made, effect.marker = before.marker ∧ effect.owners ≠ []

namespace Logged

variable {before middle after : Client}

theorem quiet (heffects : after.effects = before.effects) (hstored : after.stored = before.stored)
    (hcsrf : after.latestCsrf = before.latestCsrf) : Logged before after :=
  ⟨[], heffects.trans (List.append_nil _).symm, fun _ => ⟨hstored, hcsrf⟩, nofun⟩

theorem refl (client : Client) : Logged client client := quiet rfl rfl rfl

/-- Calls followed by something that makes none. -/
theorem then_quiet (hlogged : Logged before middle) (heffects : after.effects = middle.effects)
    (hstored : after.stored = middle.stored) (hcsrf : after.latestCsrf = middle.latestCsrf) :
    Logged before after := by
  obtain ⟨made, hmade, hquiet, howned⟩ := hlogged
  refine ⟨made, heffects.trans hmade, fun hnone => ?_, howned⟩
  exact ⟨hstored.trans (hquiet hnone).1, hcsrf.trans (hquiet hnone).2⟩

theorem trans (hfirst : Logged before middle) (hmarker : middle.marker = before.marker)
    (hsecond : Logged middle after) : Logged before after := by
  obtain ⟨made, hmade, hquiet, howned⟩ := hfirst
  obtain ⟨later, hlater, hlaterquiet, hlaterowned⟩ := hsecond
  refine ⟨made ++ later, ?_, fun hnone => ?_, fun effect heffect => ?_⟩
  · rw [hlater, hmade, List.append_assoc]
  · obtain ⟨hmadenone, hlaternone⟩ := List.append_eq_nil_iff.mp hnone
    exact ⟨(hlaterquiet hlaternone).1.trans (hquiet hmadenone).1,
      (hlaterquiet hlaternone).2.trans (hquiet hmadenone).2⟩
  · cases List.mem_append.mp heffect with
    | inl hearlier => exact howned effect hearlier
    | inr hnew =>
        rw [← hmarker]
        exact hlaterowned effect hnew

theorem single {owners : List ℕ} (howners : owners ≠ []) (call : Call)
    (heffects : after.effects = before.effects ++ [⟨owners, call, before.marker⟩]) :
    Logged before after := by
  refine ⟨_, heffects, fun hnone => (List.cons_ne_nil _ _ hnone).elim, fun effect heffect => ?_⟩
  obtain rfl := List.mem_singleton.mp heffect
  exact ⟨rfl, howners⟩

theorem rememberCsrf (client : Client) {owners : List ℕ} (howners : owners ≠ []) (token : String) :
    Logged client (client.rememberCsrf owners token) := by
  have hset : Logged client (client.setCsrf owners token) := single howners (.csrf token) rfl
  unfold Client.rememberCsrf
  cases client.stored with
  | none => exact hset
  | some current =>
      dsimp only
      split_ifs
      · exact hset.trans rfl (single howners (.write { current with csrfToken := some token }) rfl)
      · exact hset

theorem syncCsrf (client : Client) (id : ℕ) (request : Request) :
    Logged client (client.syncCsrf id request) := by
  unfold Client.syncCsrf
  cases (client.stored.bind (·.csrfToken)).filter (· ≠ "") with
  | none => exact refl client
  | some token =>
      dsimp only
      split_ifs
      · exact single (List.cons_ne_nil id []) (.csrf token) rfl
      · exact refl client

theorem prepare (client : Client) (id : ℕ) (request : Request) :
    Logged client (client.prepare id request) := by
  unfold Client.prepare
  split_ifs
  · exact (syncCsrf client id request).then_quiet rfl rfl rfl
  · exact quiet rfl rfl rfl

theorem await (client : Client) (custom : Bool) (id : ℕ) (request : Request) :
    Logged client ((client.beginRefresh custom id).replace id request) := by
  obtain ⟨hstored, hcsrf, heffects, -⟩ := Isolated.beginRefresh_kept client custom id
  exact quiet heffects hstored hcsrf

theorem enter (client : Client) (custom : Bool) (id : ℕ) (request : Request) (now : ℤ) :
    Logged client (client.enter custom id request now) := by
  have hsynced := syncCsrf client id request
  have hmarker := (Isolated.steady_syncCsrf client id request).marker
  unfold Client.enter
  dsimp only
  split_ifs
  · exact hsynced.then_quiet rfl rfl rfl
  · exact hsynced.trans hmarker (await ..)
  · exact hsynced.trans hmarker (prepare ..)
  · exact quiet rfl rfl rfl

theorem intercept (client : Client) (custom : Bool) (id : ℕ) (request : Request) (now : ℤ) :
    Logged client (client.intercept custom id request now) := by
  have hstamped : Logged client (client.replace id (request.stamp client.marker)) :=
    quiet rfl rfl rfl
  exact hstamped.trans rfl (enter ..)

theorem recover (client : Client) (custom : Bool) (id : ℕ) (request : Request) (hasConfig : Bool)
    (error : ApiClientError) :
    Logged client (client.recover custom id request hasConfig error) := by
  unfold Client.recover
  split_ifs
  · exact quiet rfl rfl rfl
  · exact await ..

theorem answer (client : Client) (custom : Bool) (id : ℕ) (request : Request) (given : Answer) :
    Logged client (client.answer custom id request given) := by
  cases given with
  | error status hasConfig message =>
      simp only [Client.answer]
      split_ifs
      · exact quiet rfl rfl rfl
      · exact recover ..
      · exact quiet rfl rfl rfl
  | response response =>
      have haccepted : Logged client (client.accept id response) := by
        unfold Client.accept
        cases response.csrf with
        | none => exact refl client
        | some token => exact rememberCsrf client (List.cons_ne_nil id []) token
      have hmarker := (Isolated.steady_accept client id response).marker
      simp only [Client.answer]
      split_ifs
      · exact haccepted.then_quiet rfl rfl rfl
      · exact haccepted.trans hmarker (recover ..)
      · exact haccepted.then_quiet rfl rfl rfl
      · exact haccepted.then_quiet rfl rfl rfl
      · exact quiet rfl rfl rfl

theorem resume (client : Client) (id : ℕ) (request : Request)
    (outcome : Except ApiClientError StoredSession) :
    Logged client (client.resume id request outcome) := by
  cases outcome with
  | error error => exact quiet rfl rfl rfl
  | ok next =>
      simp only [Client.resume]
      split
      · exact quiet rfl rfl rfl
      · exact prepare ..

theorem complete (client : Client) (refresh : ℕ) (run : Refresh) (original : StoredSession)
    (outcome : Except ApiClientError StoredSession) :
    Logged client (client.complete refresh run original outcome) := by
  have howners : run.starter :: client.waiters refresh ≠ [] := List.cons_ne_nil _ _
  unfold Client.complete
  dsimp only
  split_ifs
  · cases outcome with
    | ok next => exact single howners (.write next) rfl
    | error error => exact single howners .clear rfl
  · cases outcome <;> exact quiet rfl rfl rfl

end Logged

namespace Client

variable {custom : Bool} {client next : Client}

theorem logged_step {label : ClientStep} (hpage : label.ofPage = false)
    (hstep : client.step custom label = some next) : Logged client next := by
  cases label with
  | call url method =>
      obtain rfl := Option.some.inj hstep
      exact .quiet rfl rfl rfl
  | intercept id now =>
      obtain ⟨request, -, hnext⟩ := Option.bind_eq_some_iff.mp hstep
      cases hphase : request.phase <;> simp only [hphase] at hnext <;> cases hnext
      exact .intercept ..
  | dispatch id =>
      obtain ⟨request, -, hnext⟩ := Option.bind_eq_some_iff.mp hstep
      cases hphase : request.phase <;> simp only [hphase] at hnext <;> cases hnext
      exact .quiet rfl rfl rfl
  | answer id given =>
      obtain ⟨request, -, hnext⟩ := Option.bind_eq_some_iff.mp hstep
      cases hphase : request.phase <;> simp only [hphase] at hnext <;> cases hnext
      exact .answer ..
  | resume id =>
      obtain ⟨request, -, hwaiting⟩ := Option.bind_eq_some_iff.mp hstep
      obtain ⟨refresh, -, hsettled⟩ := Option.bind_eq_some_iff.mp hwaiting
      obtain ⟨run, -, hnext⟩ := Option.bind_eq_some_iff.mp hsettled
      cases hstage : run.stage <;> simp only [hstage] at hnext <;> cases hnext
      exact .resume ..
  | answerRefresh refresh now =>
      obtain ⟨run, -, hposted⟩ := Option.bind_eq_some_iff.mp hstep
      cases hstage : run.stage <;> simp only [hstage] at hposted <;> try cases hposted
      cases horiginal : run.original <;> simp only [horiginal] at hposted <;> try cases hposted
      obtain ⟨request, -, hnext⟩ := Option.bind_eq_some_iff.mp hposted
      cases hphase : request.phase <;> simp only [hphase] at hnext <;> cases hnext
      exact .quiet rfl rfl rfl
  | complete refresh =>
      obtain ⟨run, -, hnext⟩ := Option.bind_eq_some_iff.mp hstep
      cases hstage : run.stage <;> simp only [hstage] at hnext <;> try cases hnext
      cases horiginal : run.original <;> simp only [horiginal] at hnext <;> cases hnext
      exact .complete ..
  | completeExternal refresh outcome =>
      obtain ⟨run, -, hnext⟩ := Option.bind_eq_some_iff.mp hstep
      cases hstage : run.stage <;> simp only [hstage] at hnext <;> try cases hnext
      cases horiginal : run.original <;> simp only [horiginal] at hnext <;> try cases hnext
      split_ifs at hnext
      cases hnext
      exact .complete ..
  | release refresh =>
      obtain ⟨run, -, hnext⟩ := Option.bind_eq_some_iff.mp hstep
      cases hstage : run.stage <;> simp only [hstage] at hnext <;> cases hnext
      exact .quiet rfl rfl rfl
  | login session => cases hpage
  | update session => cases hpage
  | logout => cases hpage

/-- After any steps of the client and the page, whatever the next step of the
client calls is under the stored marker, and every request that the call belongs
to was issued under it, logins and registrations apart; at most one refresh has
not settled, and no request has been sent more than twice. -/
theorem session_isolation (custom : Bool) (stored : Option StoredSession)
    (steps : List ClientStep) (client : Client)
    (hrun : run (step custom) (createHttpClient stored) steps = some client) :
    (∀ label next, client.step custom label = some next → label.ofPage = false →
      ∃ made, next.effects = client.effects ++ made ∧
        (made = [] → next.stored = client.stored ∧ next.latestCsrf = client.latestCsrf) ∧
        ∀ effect ∈ made, effect.marker = client.marker ∧ effect.owners ≠ [] ∧
          ∀ id ∈ effect.owners, ∃ request, next.requests[id]? = some request ∧
            (createsSession request.url = false →
              request.sessionMarker = some client.marker)) ∧
      (∀ (first second : ℕ) (run other : Refresh), client.refreshes[first]? = some run →
        client.refreshes[second]? = some other → run.stage.running = true →
        other.stage.running = true → first = second) ∧
      ∀ request ∈ client.requests, request.sends ≤ 2 := by
  have hclient : Isolated client := isolated_run hrun
  refine ⟨fun label next hstep hpage => ?_,
    fun first second run other hrun hother hfirst hsecond => ?_,
    fun request hrequest => (hclient.counted request hrequest).sends_le⟩
  · obtain ⟨made, heffects, hquiet, howned⟩ := logged_step hpage hstep
    have hnext : Isolated next := isolated_step hclient hstep
    refine ⟨made, heffects, hquiet, fun effect heffect => ?_⟩
    obtain ⟨hmarker, howners⟩ := howned effect heffect
    refine ⟨hmarker, howners, fun id hid => ?_⟩
    have hmember : effect ∈ next.effects := heffects ▸ List.mem_append_right _ heffect
    obtain ⟨request, hrequest, hunder⟩ := hnext.owned effect hmember id hid
    refine ⟨request, hrequest, fun hscoped => ?_⟩
    rw [hmarker] at hunder
    exact hunder.resolve_left fun hlogin => Bool.noConfusion (hscoped.symm.trans hlogin)
  · have hinflight := hclient.running first run hrun hfirst
    rw [hclient.running second other hother hsecond] at hinflight
    exact (Option.some.inj hinflight).symm

/-- The session is lost while a refresh for it is under way: the page logs out
and in again, and the refresh ends without effect. -/
def lateRefresh : List ClientStep :=
  [.call "/users/me" .get, .intercept 0 0, .dispatch 0, .answer 0 (.error (some 401) true ""),
    .intercept 1 0, .dispatch 1, .logout, .login ⟨"second", 100000, none, none⟩,
    .answer 1 (.response ⟨200, some "token", some 900, ""⟩), .answerRefresh 0 0, .complete 0]

theorem session_isolation_late_refresh : ∃ client,
    run (step false) (createHttpClient (some ⟨"first", 100000, none, none⟩)) lateRefresh =
        some client ∧ client.marker = some "second" ∧
      ∀ request ∈ client.requests, request.sends ≤ 2 :=
  ⟨_, rfl, rfl,
    (session_isolation false (some ⟨"first", 100000, none, none⟩) lateRefresh _ rfl).2.2⟩

end Client

end AlgorithmHarness.Browser
