import AlgorithmHarness.Auth.Sessions

/-!
# One refresh token for each session

Every UUID that has been drawn has a place: in a login or a refresh that is
under way, in a session, or with the request that used it up.  The places of
the token identifiers tell which token a session accepts.
-/

namespace AlgorithmHarness.Auth

open Table Transition

variable {Id Token Digest Request : Type*} [DecidableEq Id] [DecidableEq Digest]
  [DecidableEq Request]

/-! ## Rows -/

theorem updateWhere_of_filter_nil {Row : Type*} {condition : Row → Bool} {change : Row → Row}
    {rows : List Row} (hnone : rows.filter condition = []) :
    updateWhere condition change rows = rows := by
  have hother : ∀ row ∈ rows, (if condition row then change row else row) = row := by
    intro row hrow
    have hfalse := List.filter_eq_nil_iff.mp hnone row hrow
    rw [if_neg hfalse]
  rw [updateWhere, List.map_congr_left hother, List.map_id']

/-- With primary keys a condition on the key selects one row or none. -/
theorem length_filter_le_one {Row Key : Type*} {key : Row → Key} {condition : Row → Bool}
    {rows : List Row} (hkeys : (rows.map key).Nodup) (wanted : Key)
    (hcondition : ∀ row, condition row = true → key row = wanted) :
    (rows.filter condition).length ≤ 1 := by
  induction rows with
  | nil => exact Nat.zero_le 1
  | cons row rows ih =>
      rw [List.map_cons, List.nodup_cons] at hkeys
      by_cases hrow : condition row = true
      · have hrest : rows.filter condition = [] := by
          refine List.filter_eq_nil_iff.mpr fun other hother hselected => hkeys.1 ?_
          rw [hcondition row hrow, ← hcondition other hselected]
          exact List.mem_map_of_mem hother
        rw [List.filter_cons_of_pos hrow, hrest]
        exact Nat.le_refl 1
      · rw [List.filter_cons_of_neg hrow]
        exact ih hkeys.2

theorem rotates_iff {now : ℕ} {sid userId : Id} {old : Digest} {row : Session Id Digest} :
    rotates now sid userId old row = true ↔
      row.id = sid ∧ row.userId = userId ∧ row.refreshHash = old ∧ row.live now = true := by
  simp [rotates, and_assoc]

theorem length_filter_rotates {now : ℕ} {sid userId : Id} {old : Digest}
    {sessions : List (Session Id Digest)} (hkeys : (sessions.map Session.id).Nodup) :
    (sessions.filter (rotates now sid userId old)).length = 1 ↔
      ∃ row ∈ sessions, rotates now sid userId old row = true := by
  have hle : (sessions.filter (rotates now sid userId old)).length ≤ 1 :=
    length_filter_le_one hkeys sid fun row hrow => (rotates_iff.mp hrow).1
  constructor
  · intro hone
    obtain ⟨row, hrow⟩ := List.exists_mem_of_length_pos (hone ▸ Nat.one_pos)
    exact ⟨row, List.mem_filter.mp hrow⟩
  · rintro ⟨row, hrow, hselected⟩
    have hpos := List.length_pos_of_mem (List.mem_filter.mpr ⟨hrow, hselected⟩)
    omega

omit [DecidableEq Digest] in
theorem findSession_eq_some {now : ℕ} {sid userId : Id} {sessions : List (Session Id Digest)}
    {row : Session Id Digest} (hfind : findSession now sid userId sessions = some row) :
    row ∈ sessions ∧ row.id = sid ∧ row.userId = userId ∧ row.live now = true := by
  refine ⟨List.mem_of_find?_eq_some hfind, ?_⟩
  simpa [and_assoc] using List.find?_some hfind

omit [DecidableEq Digest] in
theorem isSome_findSession {now : ℕ} {sid userId : Id} {sessions : List (Session Id Digest)} :
    (findSession now sid userId sessions).isSome = true ↔
      ∃ row ∈ sessions, row.id = sid ∧ row.userId = userId ∧ row.live now = true := by
  simp [findSession, List.find?_isSome, and_assoc]

omit [DecidableEq Id] [DecidableEq Digest] in
theorem decode_eq_some {primitives : Primitives Id Token Digest} {now : ℕ} {token : Token}
    {kind : TokenKind} {claims : Claims Id} :
    decode primitives now token kind = some claims ↔
      primitives.verify token = some claims ∧ now < claims.exp ∧ claims.iat ≤ now ∧
        claims.nbf ≤ now ∧ claims.kind = kind := by
  simp [decode, Option.filter_eq_some_iff, and_assoc]

/-! ## The places of the UUIDs -/

inductive Place (Id Request : Type*)
  | unborn
  | aside
  | reserved (request : Request)
  | opened
  | pending (request : Request)
  | current (sid : Id)
  | spent (request : Request)

/-- A refresh token that the service has issued. -/
structure Issued (primitives : Primitives Id Token Digest) (now : ℕ) (userId sid : Id)
    (expires : ℕ) (token : Token) (claims : Claims Id) : Prop where
  token : token = primitives.encode claims
  sub : claims.sub = userId
  sid : claims.sid = sid
  kind : claims.kind = .refresh
  exp : claims.exp = expires
  iat : claims.iat ≤ now
  nbf : claims.nbf ≤ now

omit [DecidableEq Id] [DecidableEq Digest] in
theorem Issued.later {primitives : Primitives Id Token Digest} {now later : ℕ}
    {userId sid : Id} {expires : ℕ} {token : Token} {claims : Claims Id}
    (hissued : Issued primitives now userId sid expires token claims)
    (hle : now ≤ later) : Issued primitives later userId sid expires token claims :=
  ⟨hissued.token, hissued.sub, hissued.sid, hissued.kind, hissued.exp,
    Nat.le_trans hissued.iat hle, Nat.le_trans hissued.nbf hle⟩

namespace System

variable {primitives : Primitives Id Token Digest} {settings : AuthSettings}
  {state next : System Id Token Digest Request} {place : Id → Place Id Request}

/-- What a request that has come so far holds. -/
def Sound (primitives : Primitives Id Token Digest) (place : Id → Place Id Request)
    (state : System Id Token Digest Request) (request : Request) : Phase Id Token Digest → Prop
  | .passwordMatched userId => state.knows userId = true
  | .opening userId sid tokens expires =>
      state.knows userId = true ∧ place sid = .reserved request ∧
        ∃ claims, Issued primitives state.now userId sid expires tokens.refreshToken claims ∧
          place claims.jti = .pending request
  | .decoded token claims => primitives.verify token = some claims
  | .found token claims session =>
      primitives.verify token = some claims ∧ place claims.sid = .opened ∧
        ∀ row ∈ state.sessions, row.id = claims.sid → row.expiresAt = session.expiresAt
  | .rotating token claims tokens =>
      primitives.verify token = some claims ∧ place claims.sid = .opened ∧
        ∃ expires issued,
          Issued primitives state.now claims.sub claims.sid expires tokens.refreshToken issued ∧
          place issued.jti = .pending request ∧
          ∀ row ∈ state.sessions, row.id = claims.sid → row.expiresAt = expires
  | .refreshed token _ =>
      ∃ claims, token = primitives.encode claims ∧ place claims.jti = .spent request
  | _ => True

structure Good (primitives : Primitives Id Token Digest) (place : Id → Place Id Request)
    (state : System Id Token Digest Request) : Prop where
  drawn : ∀ id, id ∉ state.drawn → place id = .unborn
  keys : (state.sessions.map Session.id).Nodup
  session : ∀ row ∈ state.sessions, place row.id = .opened ∧ state.knows row.userId = true ∧
    ∃ token claims, row.refreshHash = primitives.digest token ∧
      Issued primitives state.now row.userId row.id row.expiresAt token claims ∧
      place claims.jti = .current row.id
  request : ∀ request, Sound primitives place state request (state.phase request)

omit [DecidableEq Id] [DecidableEq Digest] in
@[simp]
theorem enter_phase_self (state : System Id Token Digest Request) (request : Request)
    (phase : Phase Id Token Digest) : (state.enter request phase).phase request = phase :=
  Function.update_self ..

omit [DecidableEq Id] [DecidableEq Digest] in
theorem enter_phase_of_ne (state : System Id Token Digest Request) {request other : Request}
    (phase : Phase Id Token Digest) (hne : other ≠ request) :
    (state.enter request phase).phase other = state.phase other :=
  Function.update_of_ne hne ..

/-- What a step leaves to the requests it is not a step of. -/
structure Leaves (place later : Id → Place Id Request)
    (state next : System Id Token Digest Request) (others : Request → Prop) : Prop where
  now : state.now ≤ next.now
  knows : ∀ userId, state.knows userId = true → next.knows userId = true
  opened : ∀ id, place id = .opened → later id = .opened
  reserved : ∀ id request, others request → place id = .reserved request →
    later id = .reserved request
  pending : ∀ id request, others request → place id = .pending request →
    later id = .pending request
  spent : ∀ id request, others request → place id = .spent request → later id = .spent request
  rows : ∀ row ∈ next.sessions, place row.id = .opened →
    ∃ before ∈ state.sessions, before.id = row.id ∧ before.expiresAt = row.expiresAt

variable {later : Id → Place Id Request} {request : Request} {phase : Phase Id Token Digest}

omit [DecidableEq Request][DecidableEq Digest] in
theorem Sound.leaves (hsound : Sound primitives place state request phase)
    (others : Request → Prop)
    (hleaves : Leaves place later state next others) (hother : others request) :
    Sound primitives later next request phase := by
  have hexpires : ∀ sid expires, place sid = .opened →
      (∀ row ∈ state.sessions, row.id = sid → row.expiresAt = expires) →
      ∀ row ∈ next.sessions, row.id = sid → row.expiresAt = expires := by
    intro sid expires hopened hrows row hrow hid
    obtain ⟨before, hbefore, hsame, hexpires⟩ := hleaves.rows row hrow (hid ▸ hopened)
    rw [← hexpires]
    exact hrows before hbefore (hsame.trans hid)
  cases phase with
  | passwordMatched userId => exact hleaves.knows userId hsound
  | opening userId sid tokens expires =>
      obtain ⟨hknows, hsid, claims, hissued, hjti⟩ := hsound
      exact ⟨hleaves.knows userId hknows, hleaves.reserved sid request hother hsid, claims,
        hissued.later hleaves.now, hleaves.pending _ request hother hjti⟩
  | decoded token claims => exact hsound
  | found token claims session =>
      obtain ⟨hverify, hsid, hrows⟩ := hsound
      exact ⟨hverify, hleaves.opened _ hsid, hexpires _ _ hsid hrows⟩
  | rotating token claims tokens =>
      obtain ⟨hverify, hsid, expires, issued, hissued, hjti, hrows⟩ := hsound
      exact ⟨hverify, hleaves.opened _ hsid, expires, issued, hissued.later hleaves.now,
        hleaves.pending _ request hother hjti, hexpires _ _ hsid hrows⟩
  | refreshed token tokens =>
      obtain ⟨claims, htoken, hjti⟩ := hsound
      exact ⟨claims, htoken, hleaves.spent _ request hother hjti⟩
  | _ => trivial

omit [DecidableEq Digest] in
theorem Good.enter (hgood : Good primitives place state)
    (hphase : Sound primitives place state request phase) :
    Good primitives place (state.enter request phase) := by
  refine ⟨hgood.drawn, hgood.keys, hgood.session, fun other => ?_⟩
  by_cases hother : other = request
  · subst hother
    rw [enter_phase_self]
    exact hphase
  · rw [enter_phase_of_ne _ _ hother]
    exact hgood.request other

omit [DecidableEq Digest] [DecidableEq Request] in
theorem draw_eq_some {ids : List Id} (hdraw : state.draw ids = some next) :
    ids.Nodup ∧ (∀ id ∈ ids, id ∉ state.drawn) ∧
      next = { state with drawn := ids ++ state.drawn } := by
  rw [draw] at hdraw
  split at hdraw
  · next hfresh =>
      cases hdraw
      exact ⟨hfresh.1, hfresh.2, rfl⟩
  · cases hdraw

omit [DecidableEq Request][DecidableEq Digest] in
/-- UUIDs drawn now find their places without moving another. -/
theorem Good.draw (hgood : Good primitives place state) {ids : List Id}
    (hdraw : state.draw ids = some next)
    (hkept : ∀ id, id ∉ ids → later id = place id) : Good primitives later next := by
  obtain ⟨-, hfresh, rfl⟩ := draw_eq_some hdraw
  have hplaced : ∀ id, place id ≠ .unborn → later id = place id := by
    intro id hborn
    apply hkept
    intro hid
    exact hborn (hgood.drawn id (hfresh id hid))
  have hopened : ∀ id, place id = .opened → later id = .opened := by
    intro id hid
    rw [hplaced id (by rw [hid]; nofun), hid]
  refine ⟨?_, hgood.keys, ?_, ?_⟩
  · intro id hid
    simp only [List.mem_append, not_or] at hid
    rw [hkept id hid.1]
    exact hgood.drawn id hid.2
  · intro row hrow
    obtain ⟨hrowid, hknows, token, claims, hhash, hissued, hjti⟩ := hgood.session row hrow
    refine ⟨hopened _ hrowid, hknows, token, claims, hhash, hissued, ?_⟩
    rw [hplaced _ (by rw [hjti]; nofun), hjti]
  · intro request
    apply (hgood.request request).leaves (fun _ => True) _ trivial
    refine ⟨Nat.le_refl _, fun _ => id, hopened, ?_, ?_, ?_, fun row hrow _ => ⟨row, hrow, rfl, rfl⟩⟩
    · intro id request _ hid
      rw [hplaced id (by rw [hid]; nofun), hid]
    · intro id request _ hid
      rw [hplaced id (by rw [hid]; nofun), hid]
    · intro id request _ hid
      rw [hplaced id (by rw [hid]; nofun), hid]

theorem knows_updatePassword (userId other : Id) (passwordHash : String) (users : List (User Id)) :
    (Auth.updatePassword userId passwordHash users).any (fun user => user.id = other) =
      users.any fun user => user.id = other := by
  have hsame : ((fun user : User Id => decide (user.id = other)) ∘ fun user : User Id =>
      if decide (user.id = userId) then { user with passwordHash } else user) =
        fun user => decide (user.id = other) := by
    funext user
    dsimp only [Function.comp_apply]
    split_ifs <;> rfl
  rw [Auth.updatePassword, updateWhere, List.any_map, hsame]

omit [DecidableEq Digest] in
theorem Good.addSession (hgood : Good primitives place state) {userId sid : Id}
    {tokens : Tokens Token} {expires : ℕ}
    (hphase : state.phase request = .opening userId sid tokens expires) :
    ∃ later, Good primitives later { state.enter request (.loggedIn tokens) with
      sessions := Auth.addSession state.now
        { id := sid, userId := userId, refreshHash := primitives.digest tokens.refreshToken,
          expiresAt := expires, revoked := false }
        state.sessions } := by
  have hsound := hgood.request request
  rw [hphase] at hsound
  obtain ⟨hknows, hsid, claims, hissued, hjti⟩ := hsound
  have hne : claims.jti ≠ sid := by
    intro hsame
    rw [hsame, hsid] at hjti
    cases hjti
  let later := Function.update (Function.update place sid .opened) claims.jti (.current sid)
  have hlater : ∀ id, place id ≠ .reserved request → place id ≠ .pending request →
      later id = place id := by
    intro id hreserved hpending
    have hnotjti : id ≠ claims.jti := fun hsame => hpending (hsame ▸ hjti)
    have hnotsid : id ≠ sid := fun hsame => hreserved (hsame ▸ hsid)
    simp only [later, Function.update_of_ne hnotjti, Function.update_of_ne hnotsid]
  have hnewsid : later sid = .opened := by
    simp only [later, Function.update_of_ne hne.symm, Function.update_self]
  have hnewjti : later claims.jti = .current sid := Function.update_self ..
  have hold : ∀ row ∈ state.sessions, row.id ≠ sid := by
    intro row hrow hsame
    have hopened := (hgood.session row hrow).1
    rw [hsame, hsid] at hopened
    cases hopened
  refine ⟨later, ?_, ?_, ?_, ?_⟩
  · intro id hid
    have hunborn := hgood.drawn id hid
    rw [hlater id (by rw [hunborn]; nofun) (by rw [hunborn]; nofun), hunborn]
  · rw [Auth.addSession, List.map_append, List.map_singleton, List.nodup_append]
    refine ⟨(hgood.keys.sublist (List.filter_sublist.map _)), List.nodup_singleton _, ?_⟩
    intro id hid other hother
    obtain ⟨row, hrow, rfl⟩ := List.mem_map.mp hid
    rw [List.mem_singleton.mp hother]
    exact hold row (List.mem_filter.mp hrow).1
  · intro row hrow
    rw [Auth.addSession, List.mem_append, List.mem_singleton] at hrow
    cases hrow with
    | inl hbefore =>
        obtain ⟨hrowid, hrowknows, token, issued, hhash, hrowissued, hrowjti⟩ :=
          hgood.session row (List.mem_filter.mp hbefore).1
        refine ⟨?_, hrowknows, token, issued, hhash, hrowissued, ?_⟩
        · rw [hlater _ (by rw [hrowid]; nofun) (by rw [hrowid]; nofun), hrowid]
        · rw [hlater _ (by rw [hrowjti]; nofun) (by rw [hrowjti]; nofun), hrowjti]
    | inr hnew =>
        subst hnew
        exact ⟨hnewsid, hknows, tokens.refreshToken, claims, rfl, hissued, hnewjti⟩
  · intro other
    by_cases hother : other = request
    · subst hother
      simp only [enter_phase_self]
      trivial
    · simp only [enter_phase_of_ne _ _ hother]
      apply (hgood.request other).leaves (· ≠ request) _ hother
      refine ⟨Nat.le_refl _, fun _ => id, ?_, ?_, ?_, ?_, ?_⟩
      · intro id hid
        rw [hlater id (by rw [hid]; nofun) (by rw [hid]; nofun), hid]
      · intro id held hheld hid
        rw [hlater id (by rw [hid]; intro hsame; cases hsame; exact hheld rfl) (by rw [hid]; nofun),
          hid]
      · intro id held hheld hid
        rw [hlater id (by rw [hid]; nofun) (by rw [hid]; intro hsame; cases hsame; exact hheld rfl),
          hid]
      · intro id held hheld hid
        rw [hlater id (by rw [hid]; nofun) (by rw [hid]; nofun), hid]
      · intro row hrow hopened
        rw [Auth.addSession, List.mem_append, List.mem_singleton] at hrow
        cases hrow with
        | inl hbefore => exact ⟨row, (List.mem_filter.mp hbefore).1, rfl, rfl⟩
        | inr hnew =>
            subst hnew
            rw [hsid] at hopened
            cases hopened

omit [DecidableEq Request] in
/-- A rotation that changes no row. -/
theorem Good.rotate_none (hgood : Good primitives place state) {sid userId : Id} {old new : Digest}
    (hnone : (rotate state.now sid userId old new state.sessions).2 = false) :
    (rotate state.now sid userId old new state.sessions).1 = state.sessions := by
  apply updateWhere_of_filter_nil
  have hle : (state.sessions.filter (rotates state.now sid userId old)).length ≤ 1 :=
    length_filter_le_one hgood.keys sid fun row hrow => (rotates_iff.mp hrow).1
  have hne : (state.sessions.filter (rotates state.now sid userId old)).length ≠ 1 := by
    simpa [rotate] using hnone
  exact List.length_eq_zero_iff.mp (by omega)

theorem Good.rotate_some (hgood : Good primitives place state) {token : Token}
    {claims : Claims Id} {tokens : Tokens Token}
    (hphase : state.phase request = .rotating token claims tokens)
    (hsome : (rotate state.now claims.sid claims.sub (primitives.digest token)
      (primitives.digest tokens.refreshToken) state.sessions).2 = true) :
    ∃ later, Good primitives later { state.enter request (.refreshed token tokens) with
      sessions := (rotate state.now claims.sid claims.sub (primitives.digest token)
        (primitives.digest tokens.refreshToken) state.sessions).1 } := by
  have hsound := hgood.request request
  rw [hphase] at hsound
  obtain ⟨-, hsid, expires, issued, hissued, hpending, hexpires⟩ := hsound
  obtain ⟨row, hrow, hselected⟩ :=
    (length_filter_rotates hgood.keys).mp (by simpa [rotate] using hsome)
  obtain ⟨hid, huser, hhash, -⟩ := rotates_iff.mp hselected
  obtain ⟨-, hknows, held, old, hheld, hold, hcurrent⟩ := hgood.session row hrow
  -- the token presented is the one whose digest the row holds
  obtain rfl : held = token := primitives.digest_injective (hheld.symm.trans hhash)
  let later := Function.update (Function.update place old.jti (.spent request)) issued.jti
    (.current claims.sid)
  have hlater : ∀ id, place id ≠ .current claims.sid → place id ≠ .pending request →
      later id = place id := by
    intro id hnotcurrent hnotpending
    have hnotnew : id ≠ issued.jti := fun hsame => hnotpending (hsame ▸ hpending)
    have hnotold : id ≠ old.jti := fun hsame => hnotcurrent (by rw [hsame, hcurrent, hid])
    simp only [later, Function.update_of_ne hnotnew, Function.update_of_ne hnotold]
  have hne : old.jti ≠ issued.jti := by
    intro hsame
    rw [hsame, hpending] at hcurrent
    cases hcurrent
  have hspent : later old.jti = .spent request := by
    simp only [later, Function.update_of_ne hne, Function.update_self]
  have hnew : later issued.jti = .current claims.sid := Function.update_self ..
  have hunique : ∀ other ∈ state.sessions,
      rotates state.now claims.sid claims.sub (primitives.digest held) other = true →
        other = row := by
    intro other hother hotherselected
    apply row_unique hgood.keys hother hrow
    rw [(rotates_iff.mp hotherselected).1, hid]
  have hkeys : (rotate state.now claims.sid claims.sub (primitives.digest held)
      (primitives.digest tokens.refreshToken) state.sessions).1.map Session.id =
        state.sessions.map Session.id := map_updateWhere fun _ => rfl
  refine ⟨later, ?_, ?_, ?_, ?_⟩
  · intro id hdrawn
    have hunborn := hgood.drawn id hdrawn
    rw [hlater id (by rw [hunborn]; nofun) (by rw [hunborn]; nofun), hunborn]
  · simp only [hkeys]
    exact hgood.keys
  · intro after hafter
    obtain ⟨before, hbefore, rfl⟩ := mem_updateWhere.mp hafter
    obtain ⟨hopened, hbeforeknows, token, current, hdigest, hbeforeissued, hjti⟩ :=
      hgood.session before hbefore
    have hopenedlater : later before.id = .opened := by
      rw [hlater _ (by rw [hopened]; nofun) (by rw [hopened]; nofun), hopened]
    split
    · next hselect =>
        obtain rfl := hunique before hbefore hselect
        have hrowissued : Issued primitives state.now before.userId before.id before.expiresAt
            tokens.refreshToken issued := by
          rw [huser, hid, hexpires before hbefore hid]
          exact hissued
        exact ⟨hopenedlater, hknows, tokens.refreshToken, issued, rfl, hrowissued, by rw [hnew, hid]⟩
    · next hselect =>
        have hother : before.id ≠ claims.sid := by
          intro hsame
          apply hselect
          rw [row_unique hgood.keys hbefore hrow (hsame.trans hid.symm)]
          exact hselected
        refine ⟨hopenedlater, hbeforeknows, token, current, hdigest, hbeforeissued, ?_⟩
        rw [hlater _ _ (by rw [hjti]; nofun), hjti]
        rw [hjti]
        exact fun hsame => hother (Place.current.inj hsame)
  · intro other
    by_cases hother : other = request
    · subst hother
      simp only [enter_phase_self]
      exact ⟨old, hold.token, hspent⟩
    · simp only [enter_phase_of_ne _ _ hother]
      apply (hgood.request other).leaves (· ≠ request) _ hother
      refine ⟨Nat.le_refl _, fun _ => id, ?_, ?_, ?_, ?_, ?_⟩
      · intro id hplace
        rw [hlater id (by rw [hplace]; nofun) (by rw [hplace]; nofun), hplace]
      · intro id holder _ hplace
        rw [hlater id (by rw [hplace]; nofun) (by rw [hplace]; nofun), hplace]
      · intro id holder hholder hplace
        rw [hlater id (by rw [hplace]; nofun)
          (by rw [hplace]; intro hsame; cases hsame; exact hholder rfl), hplace]
      · intro id holder _ hplace
        rw [hlater id (by rw [hplace]; nofun) (by rw [hplace]; nofun), hplace]
      · intro after hafter _
        obtain ⟨before, hbefore, rfl⟩ := mem_updateWhere.mp hafter
        refine ⟨before, hbefore, ?_⟩
        split <;> exact ⟨rfl, rfl⟩

omit [DecidableEq Request][DecidableEq Digest] in
theorem Good.revoke (hgood : Good primitives place state) (sid userId : Id) :
    Good primitives place { state with sessions := revoke sid userId state.sessions } := by
  have hkeys : (Auth.revoke sid userId state.sessions).map Session.id =
      state.sessions.map Session.id := map_updateWhere fun _ => rfl
  refine ⟨hgood.drawn, hkeys.symm ▸ hgood.keys, ?_, ?_⟩
  · intro after hafter
    obtain ⟨before, hbefore, rfl⟩ := mem_updateWhere.mp hafter
    split <;> exact hgood.session before hbefore
  · intro other
    apply (hgood.request other).leaves (fun _ => True) _ trivial
    refine ⟨Nat.le_refl _, fun _ => id, fun _ => id, fun _ _ _ => id, fun _ _ _ => id,
      fun _ _ _ => id, ?_⟩
    intro after hafter _
    obtain ⟨before, hbefore, rfl⟩ := mem_updateWhere.mp hafter
    refine ⟨before, hbefore, ?_⟩
    split <;> exact ⟨rfl, rfl⟩

omit [DecidableEq Request][DecidableEq Digest] in
/-- The tables but the sessions, and the clock, may go on. -/
theorem Good.continue (hgood : Good primitives place state)
    (hsessions : next.sessions = state.sessions) (hdrawn : next.drawn = state.drawn)
    (hphase : next.phase = state.phase) (hnow : state.now ≤ next.now)
    (hknows : ∀ userId, state.knows userId = true → next.knows userId = true) :
    Good primitives place next := by
  refine ⟨hdrawn ▸ hgood.drawn, hsessions ▸ hgood.keys, ?_, ?_⟩
  · intro row hrow
    obtain ⟨hopened, hrowknows, token, claims, hhash, hissued, hjti⟩ :=
      hgood.session row (hsessions ▸ hrow)
    exact ⟨hopened, hknows _ hrowknows, token, claims, hhash, hissued.later hnow, hjti⟩
  · intro request
    rw [hphase]
    apply (hgood.request request).leaves (fun _ => True) _ trivial
    exact ⟨hnow, hknows, fun _ => id, fun _ _ _ => id, fun _ _ _ => id, fun _ _ _ => id,
      fun row hrow _ => ⟨row, hsessions ▸ hrow, rfl, rfl⟩⟩

theorem Good.step (hgood : Good primitives place state) {label : AuthStep Id Token Request}
    (hstep : state.step primitives settings label = some next) :
    ∃ later, Good primitives later next := by
  cases label with
  | elapse seconds =>
      cases hstep
      exact ⟨place, hgood.continue rfl rfl rfl (Nat.le_add_right _ _) fun _ => id⟩
  | register id username email passwordHash =>
      obtain ⟨drawn, hdraw, rfl⟩ := Option.map_eq_some_iff.mp hstep
      have hdrawn : Good primitives place drawn := hgood.draw hdraw fun _ _ => rfl
      obtain ⟨-, -, rfl⟩ := draw_eq_some hdraw
      refine ⟨place, ?_⟩
      split
      · exact hdrawn
      · refine hdrawn.continue rfl rfl rfl (Nat.le_refl _) fun userId hknows => ?_
        simp only [knows, List.any_append] at hknows ⊢
        rw [hknows, Bool.true_or]
  | login request identity password =>
      simp only [System.step] at hstep
      split at hstep
      · split at hstep
        · cases hstep
          exact ⟨place, hgood.enter trivial⟩
        · next user hfind =>
            split at hstep
            · cases hstep
              refine ⟨place, hgood.enter ?_⟩
              exact List.any_eq_true.mpr ⟨user, List.mem_of_find?_eq_some hfind, by simp⟩
            · cases hstep
              exact ⟨place, hgood.enter trivial⟩
      · cases hstep
  | issueLogin request sid accessJti refreshJti =>
      simp only [System.step] at hstep
      split at hstep
      · next userId hphase =>
          obtain ⟨drawn, hdraw, rfl⟩ := Option.map_eq_some_iff.mp hstep
          obtain ⟨hnodup, -, hdrawn⟩ := draw_eq_some hdraw
          have hne : sid ≠ refreshJti := by
            simp only [List.nodup_cons, List.mem_cons, not_or] at hnodup
            exact hnodup.1.2.1
          let later := Function.update (Function.update place sid (.reserved request)) refreshJti
            (.pending request)
          have hkept : ∀ id, id ∉ [sid, accessJti, refreshJti] → later id = place id := by
            intro id hid
            simp only [List.mem_cons, List.not_mem_nil, or_false, not_or] at hid
            simp only [later, Function.update_of_ne hid.2.2, Function.update_of_ne hid.1]
          have hknows := hgood.request request
          rw [hphase] at hknows
          have hsid : later sid = .reserved request := by
            simp only [later, Function.update_of_ne hne, Function.update_self]
          have hgooddrawn := hgood.draw hdraw hkept
          subst hdrawn
          exact ⟨later, hgooddrawn.enter ⟨hknows, hsid, _,
            ⟨rfl, rfl, rfl, rfl, rfl, Nat.le_refl _, Nat.le_refl _⟩, Function.update_self ..⟩⟩
      · cases hstep
  | addSession request =>
      simp only [System.step] at hstep
      split at hstep
      · next hphase =>
          cases hstep
          exact hgood.addSession hphase
      · cases hstep
  | present request token =>
      simp only [System.step] at hstep
      split at hstep
      · split at hstep
        · cases hstep
          exact ⟨place, hgood.enter trivial⟩
        · next claims hdecode =>
            cases hstep
            exact ⟨place, hgood.enter (decode_eq_some.mp hdecode).1⟩
      · cases hstep
  | readSession request =>
      simp only [System.step] at hstep
      split at hstep
      · next token claims hphase =>
          split at hstep
          · cases hstep
            exact ⟨place, hgood.enter trivial⟩
          · next session hfind =>
              cases hstep
              obtain ⟨hmem, hid, -, -⟩ := findSession_eq_some hfind
              have hverify := hgood.request request
              rw [hphase] at hverify
              refine ⟨place, hgood.enter ⟨hverify, hid ▸ (hgood.session session hmem).1, ?_⟩⟩
              intro row hrow hrowid
              rw [row_unique hgood.keys hrow hmem (hrowid.trans hid.symm)]
      · cases hstep
  | issueRefresh request accessJti refreshJti =>
      simp only [System.step] at hstep
      split at hstep
      · next token claims session hphase =>
          split at hstep
          · obtain ⟨drawn, hdraw, rfl⟩ := Option.map_eq_some_iff.mp hstep
            obtain ⟨-, -, hdrawn⟩ := draw_eq_some hdraw
            let later := Function.update place refreshJti (.pending request)
            have hkept : ∀ id, id ∉ [accessJti, refreshJti] → later id = place id := by
              intro id hid
              simp only [List.mem_cons, List.not_mem_nil, or_false, not_or] at hid
              exact Function.update_of_ne hid.2 ..
            have hgooddrawn := hgood.draw hdraw hkept
            have hfound := hgooddrawn.request request
            subst hdrawn
            simp only [hphase] at hfound
            obtain ⟨hverify, hsid, hexpires⟩ := hfound
            exact ⟨later, hgooddrawn.enter ⟨hverify, hsid, _, _,
              ⟨rfl, rfl, rfl, rfl, rfl, Nat.le_refl _, Nat.le_refl _⟩, Function.update_self ..,
              hexpires⟩⟩
          · cases hstep
            exact ⟨place, hgood.enter trivial⟩
      · cases hstep
  | rotate request =>
      simp only [System.step] at hstep
      split at hstep
      · next token claims tokens hphase =>
          cases hstep
          cases hchanged : (Auth.rotate state.now claims.sid claims.sub (primitives.digest token)
              (primitives.digest tokens.refreshToken) state.sessions).2 with
          | true =>
              simp only [if_true]
              exact hgood.rotate_some hphase hchanged
          | false =>
              simp only [Bool.false_eq_true, if_false, hgood.rotate_none hchanged]
              exact ⟨place, hgood.enter trivial⟩
      · cases hstep
  | authenticate request token =>
      simp only [System.step] at hstep
      split at hstep
      · split at hstep
        · cases hstep
          exact ⟨place, hgood.enter trivial⟩
        · split at hstep
          · cases hstep
            exact ⟨place, hgood.enter trivial⟩
          · cases hstep
            exact ⟨place, hgood.enter trivial⟩
      · cases hstep
  | logout request =>
      simp only [System.step] at hstep
      split at hstep
      · next userId sid hphase =>
          cases hstep
          exact ⟨place, (hgood.revoke sid userId).enter trivial⟩
      · cases hstep
  | checkPassword request password =>
      simp only [System.step] at hstep
      split at hstep
      · split at hstep
        · cases hstep
          exact ⟨place, hgood.enter trivial⟩
        · split at hstep
          · cases hstep
            exact ⟨place, hgood.enter trivial⟩
          · cases hstep
            exact ⟨place, hgood.enter trivial⟩
      · cases hstep
  | updatePassword request passwordHash =>
      simp only [System.step] at hstep
      split at hstep
      · next userId hphase =>
          cases hstep
          have hanswered : Good primitives place (state.enter request .answered) :=
            hgood.enter trivial
          refine ⟨place, hanswered.continue rfl rfl rfl (Nat.le_refl _) fun other hknows => ?_⟩
          rw [knows, knows_updatePassword]
          exact hknows
      · cases hstep

omit [DecidableEq Digest] [DecidableEq Request] in
theorem good_initial (start : ℕ) :
    Good primitives (fun _ => .unborn) (initial start : System Id Token Digest Request) :=
  ⟨fun _ _ => rfl, List.nodup_nil, nofun, fun _ => trivial⟩

theorem good_run {start : ℕ} {labels : List (AuthStep Id Token Request)}
    (hrun : run (step primitives settings) (initial start) labels = some state) :
    ∃ place, Good primitives place state := by
  have hpreserved : Preserved (step primitives settings)
      fun state : System Id Token Digest Request => ∃ place, Good primitives place state := by
    rintro state label next ⟨place, hgood⟩ hstep
    exact hgood.step hstep
  exact hpreserved.run ⟨_, good_initial start⟩ hrun

/-! ## What a step does -/

/-- What a step does to the rows and to the phases. -/
structure Effect (primitives : Primitives Id Token Digest)
    (state next : System Id Token Digest Request) : Prop where
  drawn : ∀ id ∈ state.drawn, id ∈ next.drawn
  rows : ∀ row ∈ next.sessions,
    (∃ before ∈ state.sessions, before.id = row.id ∧
      (before.revoked = true → row.revoked = true)) ∨
    ∃ request userId tokens expires, state.phase request = .opening userId row.id tokens expires
  phases : next.phase = state.phase ∨ ∃ request phase,
    next.phase = Function.update state.phase request phase ∧
    (∀ token tokens, state.phase request ≠ .refreshed token tokens) ∧
    (∀ userId sid tokens expires, phase = .opening userId sid tokens expires →
      sid ∉ state.drawn) ∧
    ∀ token tokens, phase = .refreshed token tokens →
      ∃ claims, state.phase request = .rotating token claims tokens ∧
        (rotate state.now claims.sid claims.sub (primitives.digest token)
          (primitives.digest tokens.refreshToken) state.sessions).2 = true

/-- A step that only moves a request on, to neither a session nor a token. -/
theorem effect_enter (hbefore : ∀ token tokens, state.phase request ≠ .refreshed token tokens)
    (hopening : ∀ userId sid tokens expires, phase ≠ .opening userId sid tokens expires)
    (hrefreshed : ∀ token tokens, phase ≠ .refreshed token tokens) :
    Effect primitives state (state.enter request phase) where
  drawn := fun _ hid => hid
  rows := fun row hrow => .inl ⟨row, hrow, rfl, id⟩
  phases := .inr ⟨request, phase, rfl, hbefore,
    fun _ _ _ _ hphase => absurd hphase (hopening _ _ _ _),
    fun _ _ hphase => absurd hphase (hrefreshed _ _)⟩

theorem step_effect {label : AuthStep Id Token Request}
    (hstep : state.step primitives settings label = some next) : Effect primitives state next := by
  cases label with
  | elapse seconds =>
      cases hstep
      exact ⟨fun _ => id, fun row hrow => .inl ⟨row, hrow, rfl, id⟩, .inl rfl⟩
  | register id username email passwordHash =>
      obtain ⟨drawn, hdraw, rfl⟩ := Option.map_eq_some_iff.mp hstep
      obtain ⟨-, -, rfl⟩ := draw_eq_some hdraw
      split <;> exact ⟨fun _ => List.mem_append_right _,
        fun row hrow => .inl ⟨row, hrow, rfl, fun h => h⟩, .inl rfl⟩
  | login request identity password =>
      simp only [System.step] at hstep
      split at hstep
      · next hphase =>
          have hbefore : ∀ token tokens, state.phase request ≠ .refreshed token tokens := by
            rw [hphase]; nofun
          split at hstep
          · cases hstep
            exact effect_enter hbefore nofun nofun
          · split at hstep <;> cases hstep <;> exact effect_enter hbefore nofun nofun
      · cases hstep
  | issueLogin request sid accessJti refreshJti =>
      simp only [System.step] at hstep
      split at hstep
      · next userId hphase =>
          obtain ⟨drawn, hdraw, rfl⟩ := Option.map_eq_some_iff.mp hstep
          obtain ⟨-, hfresh, rfl⟩ := draw_eq_some hdraw
          refine ⟨fun _ => List.mem_append_right _, fun row hrow => .inl ⟨row, hrow, rfl, id⟩,
            .inr ⟨request, _, rfl, by rw [hphase]; nofun, ?_, nofun⟩⟩
          intro _ _ _ _ hopening
          cases hopening
          exact hfresh sid List.mem_cons_self
      · cases hstep
  | addSession request =>
      simp only [System.step] at hstep
      split at hstep
      · next hphase =>
          cases hstep
          refine ⟨fun _ => id, ?_, .inr ⟨request, _, rfl, by rw [hphase]; nofun, nofun, nofun⟩⟩
          intro row hrow
          rw [Auth.addSession, List.mem_append, List.mem_singleton] at hrow
          cases hrow with
          | inl hold => exact .inl ⟨row, (List.mem_filter.mp hold).1, rfl, id⟩
          | inr hnew => exact .inr ⟨request, _, _, _, by rw [hphase, hnew]⟩
      · cases hstep
  | present request token | authenticate request token =>
      simp only [System.step] at hstep
      split at hstep
      · next hphase =>
          have hbefore : ∀ token tokens, state.phase request ≠ .refreshed token tokens := by
            rw [hphase]; nofun
          split at hstep
          · cases hstep
            exact effect_enter hbefore nofun nofun
          · first
            | cases hstep
              exact effect_enter hbefore nofun nofun
            | split at hstep <;> cases hstep <;> exact effect_enter hbefore nofun nofun
      · cases hstep
  | readSession request =>
      simp only [System.step] at hstep
      split at hstep
      · next hphase =>
          have hbefore : ∀ token tokens, state.phase request ≠ .refreshed token tokens := by
            rw [hphase]; nofun
          split at hstep <;> cases hstep <;> exact effect_enter hbefore nofun nofun
      · cases hstep
  | issueRefresh request accessJti refreshJti =>
      simp only [System.step] at hstep
      split at hstep
      · next token claims session hphase =>
          have hbefore : ∀ token tokens, state.phase request ≠ .refreshed token tokens := by
            rw [hphase]; nofun
          split at hstep
          · obtain ⟨drawn, hdraw, rfl⟩ := Option.map_eq_some_iff.mp hstep
            obtain ⟨-, -, rfl⟩ := draw_eq_some hdraw
            exact ⟨fun _ => List.mem_append_right _, fun row hrow => .inl ⟨row, hrow, rfl, id⟩,
              .inr ⟨request, _, rfl, hbefore, nofun, nofun⟩⟩
          · cases hstep
            exact effect_enter hbefore nofun nofun
      · cases hstep
  | rotate request =>
      simp only [System.step] at hstep
      split at hstep
      · next token claims tokens hphase =>
          cases hstep
          refine ⟨fun _ => id, ?_, .inr ⟨request, _, rfl, by rw [hphase]; nofun, ?_, ?_⟩⟩
          · intro row hrow
            obtain ⟨before, hbefore, rfl⟩ := mem_updateWhere.mp hrow
            refine .inl ⟨before, hbefore, ?_⟩
            split <;> exact ⟨rfl, id⟩
          · intro _ _ _ _ hopening
            split at hopening <;> cases hopening
          · intro _ _ hrefreshed
            split at hrefreshed
            · next hchanged =>
                cases hrefreshed
                exact ⟨claims, hphase, hchanged⟩
            · cases hrefreshed
      · cases hstep
  | logout request =>
      simp only [System.step] at hstep
      split at hstep
      · next hphase =>
          cases hstep
          refine ⟨fun _ => id, ?_, .inr ⟨request, _, rfl, by rw [hphase]; nofun, nofun, nofun⟩⟩
          intro row hrow
          obtain ⟨before, hbefore, rfl⟩ := mem_updateWhere.mp hrow
          refine .inl ⟨before, hbefore, ?_⟩
          split
          · exact ⟨rfl, fun _ => rfl⟩
          · exact ⟨rfl, id⟩
      · cases hstep
  | checkPassword request password =>
      simp only [System.step] at hstep
      split at hstep
      · next hphase =>
          have hbefore : ∀ token tokens, state.phase request ≠ .refreshed token tokens := by
            rw [hphase]; nofun
          split at hstep
          · cases hstep
            exact effect_enter hbefore nofun nofun
          · split at hstep <;> cases hstep <;> exact effect_enter hbefore nofun nofun
      · cases hstep
  | updatePassword request passwordHash =>
      simp only [System.step] at hstep
      split at hstep
      · next hphase =>
          cases hstep
          exact ⟨fun _ => id, fun row hrow => .inl ⟨row, hrow, rfl, id⟩,
            .inr ⟨request, _, rfl, by rw [hphase]; nofun, nofun, nofun⟩⟩
      · cases hstep

theorem Effect.refreshed (heffect : Effect primitives state next) {token : Token}
    {tokens : Tokens Token} (hphase : state.phase request = .refreshed token tokens) :
    next.phase request = .refreshed token tokens := by
  cases heffect.phases with
  | inl hsame => rw [hsame, hphase]
  | inr hmoved =>
      obtain ⟨other, phase, hnext, hbefore, -, -⟩ := hmoved
      have hne : request ≠ other := by
        rintro rfl
        exact hbefore token tokens hphase
      rw [hnext, Function.update_of_ne hne, hphase]

theorem refreshed_run {labels : List (AuthStep Id Token Request)} {token : Token}
    {tokens : Tokens Token} (hphase : state.phase request = .refreshed token tokens)
    (hrun : run (step primitives settings) state labels = some next) :
    next.phase request = .refreshed token tokens := by
  have hpreserved : Preserved (step primitives settings)
      fun state : System Id Token Digest Request =>
        state.phase request = .refreshed token tokens := by
    intro state label next hphase hstep
    exact (step_effect hstep).refreshed hphase
  exact hpreserved.run hphase hrun

/-! ## The tokens a session accepts -/

omit [DecidableEq Request] in
theorem accepts_iff (hkeys : (state.sessions.map Session.id).Nodup) {token : Token} :
    state.accepts primitives token = true ↔
      ∃ claims, decode primitives state.now token .refresh = some claims ∧
        state.knows claims.sub = true ∧
        ∃ row ∈ state.sessions,
          rotates state.now claims.sid claims.sub (primitives.digest token) row = true := by
  rw [accepts]
  cases hdecode : decode primitives state.now token .refresh with
  | none => simp
  | some claims =>
      simp only [Bool.and_eq_true, decide_eq_true_eq, length_filter_rotates hkeys,
        isSome_findSession, Option.some.injEq, exists_eq_left']
      constructor
      · rintro ⟨⟨-, hknows⟩, hrow⟩
        exact ⟨hknows, hrow⟩
      · rintro ⟨hknows, row, hrow, hselected⟩
        obtain ⟨hid, huser, -, hlive⟩ := rotates_iff.mp hselected
        exact ⟨⟨⟨row, hrow, hid, huser, hlive⟩, hknows⟩, row, hrow, hselected⟩

omit [DecidableEq Request] in
theorem Good.accepts_one (hgood : Good primitives place state) {row : Session Id Digest}
    (hrow : row ∈ state.sessions) (hlive : row.live state.now = true) :
    ∃! token, state.accepts primitives token = true ∧
      (primitives.verify token).map Claims.sid = some row.id := by
  obtain ⟨-, hknows, token, claims, hhash, hissued, -⟩ := hgood.session row hrow
  have hverify : primitives.verify token = some claims := by
    rw [hissued.token, primitives.verify_encode]
  refine ⟨token, ⟨(accepts_iff hgood.keys).mpr ⟨claims, ?_, ?_, row, hrow, ?_⟩, ?_⟩, ?_⟩
  · refine decode_eq_some.mpr ⟨hverify, ?_, hissued.iat, hissued.nbf, hissued.kind⟩
    rw [hissued.exp]
    simp only [Session.live, Bool.and_eq_true, decide_eq_true_eq] at hlive
    exact hlive.2
  · rwa [hissued.sub]
  · exact rotates_iff.mpr ⟨hissued.sid.symm, hissued.sub.symm, hhash, hlive⟩
  · rw [hverify, Option.map_some, hissued.sid]
  · rintro other ⟨haccepts, hsession⟩
    obtain ⟨said, hdecode, -, selected, hselectedrow, hselected⟩ :=
      (accepts_iff hgood.keys).mp haccepts
    obtain ⟨hid, -, hdigest, -⟩ := rotates_iff.mp hselected
    rw [(decode_eq_some.mp hdecode).1, Option.map_some] at hsession
    have hsame : selected = row :=
      row_unique hgood.keys hselectedrow hrow (hid.trans (Option.some.inj hsession))
    rw [hsame, hhash] at hdigest
    exact primitives.digest_injective hdigest.symm

/-- The token has been presented and another has taken its place. -/
def RotatedOut (state : System Id Token Digest Request) (token : Token) : Prop :=
  ∃ request tokens, state.phase request = .refreshed token tokens

/-- The session of the token has been revoked. -/
def Revoked (primitives : Primitives Id Token Digest) (state : System Id Token Digest Request)
    (token : Token) : Prop :=
  ∃ claims row, primitives.verify token = some claims ∧ row ∈ state.sessions ∧
    row.id = claims.sid ∧ row.revoked = true

omit [DecidableEq Digest] [DecidableEq Request] in
theorem Good.refreshed_unique (hgood : Good primitives place state) {first second : Request}
    {token : Token} {tokens other : Tokens Token}
    (hfirst : state.phase first = .refreshed token tokens)
    (hsecond : state.phase second = .refreshed token other) : first = second := by
  have hsoundfirst := hgood.request first
  have hsoundsecond := hgood.request second
  rw [hfirst] at hsoundfirst
  rw [hsecond] at hsoundsecond
  obtain ⟨claims, htoken, hplace⟩ := hsoundfirst
  obtain ⟨same, hsame, hother⟩ := hsoundsecond
  have hclaims : some claims = some same := by
    rw [← primitives.verify_encode claims, ← htoken, hsame, primitives.verify_encode]
  cases hclaims
  rw [hplace] at hother
  exact Place.spent.inj hother

omit [DecidableEq Request] in
theorem Good.not_accepts_rotatedOut (hgood : Good primitives place state) {token : Token}
    (hrotated : state.RotatedOut token) : state.accepts primitives token = false := by
  obtain ⟨request, tokens, hphase⟩ := hrotated
  have hsound := hgood.request request
  rw [hphase] at hsound
  obtain ⟨claims, htoken, hspent⟩ := hsound
  by_contra haccepts
  obtain ⟨said, -, -, row, hrow, hselected⟩ :=
    (accepts_iff hgood.keys).mp (Bool.not_eq_false _ ▸ haccepts)
  obtain ⟨-, -, held, issued, hhash, hissued, hcurrent⟩ := hgood.session row hrow
  obtain rfl : held = token :=
    primitives.digest_injective (hhash.symm.trans (rotates_iff.mp hselected).2.2.1)
  have hclaims : some claims = some issued := by
    rw [← primitives.verify_encode claims, ← htoken, hissued.token, primitives.verify_encode]
  cases hclaims
  rw [hspent] at hcurrent
  cases hcurrent

/-! ## Revoked sessions -/

/-- The session is revoked or gone, and none will be opened in its place. -/
structure Closed (sid : Id) (state : System Id Token Digest Request) : Prop where
  drawn : sid ∈ state.drawn
  rows : ∀ row ∈ state.sessions, row.id = sid → row.revoked = true
  phase : ∀ request userId tokens expires, state.phase request ≠ .opening userId sid tokens expires

omit [DecidableEq Digest] [DecidableEq Request] in
theorem Good.closed (hgood : Good primitives place state) {row : Session Id Digest}
    (hrow : row ∈ state.sessions) (hrevoked : row.revoked = true) : Closed row.id state := by
  have hopened := (hgood.session row hrow).1
  refine ⟨?_, ?_, ?_⟩
  · by_contra hdrawn
    rw [hgood.drawn row.id hdrawn] at hopened
    cases hopened
  · intro other hother hsame
    rwa [row_unique hgood.keys hother hrow hsame]
  · intro request userId tokens expires hphase
    have hsound := hgood.request request
    rw [hphase] at hsound
    rw [hsound.2.1] at hopened
    cases hopened

theorem Closed.effect {sid : Id} (hclosed : Closed sid state)
    (heffect : Effect primitives state next) : Closed sid next := by
  refine ⟨heffect.drawn sid hclosed.drawn, ?_, ?_⟩
  · intro row hrow hid
    cases heffect.rows row hrow with
    | inl hbefore =>
        obtain ⟨before, hmem, hsame, hrevoked⟩ := hbefore
        exact hrevoked (hclosed.rows before hmem (hsame.trans hid))
    | inr hopening =>
        obtain ⟨request, userId, tokens, expires, hphase⟩ := hopening
        rw [hid] at hphase
        exact absurd hphase (hclosed.phase request userId tokens expires)
  · intro request userId tokens expires hphase
    cases heffect.phases with
    | inl hsame =>
        rw [hsame] at hphase
        exact hclosed.phase request userId tokens expires hphase
    | inr hmoved =>
        obtain ⟨other, phase, hnext, -, hfresh, -⟩ := hmoved
        rw [hnext] at hphase
        by_cases hother : request = other
        · subst hother
          rw [Function.update_self] at hphase
          exact hfresh userId sid tokens expires hphase hclosed.drawn
        · rw [Function.update_of_ne hother] at hphase
          exact hclosed.phase request userId tokens expires hphase

omit [DecidableEq Request] in
theorem Closed.not_rotates {sid userId : Id} {old : Digest} {row : Session Id Digest}
    (hclosed : Closed sid state) (hrow : row ∈ state.sessions) :
    rotates state.now sid userId old row = false := by
  by_contra hselected
  obtain ⟨hid, -, -, hlive⟩ := rotates_iff.mp (Bool.not_eq_false _ ▸ hselected)
  rw [Session.live, hclosed.rows row hrow hid] at hlive
  cases hlive

/-- No refresh with a token of a closed session succeeds any more. -/
theorem Closed.refreshed_before {token : Token} {claims : Claims Id}
    {labels : List (AuthStep Id Token Request)} (hclosed : Closed claims.sid state)
    (hgood : Good primitives place state) (hverify : primitives.verify token = some claims)
    (hrun : run (step primitives settings) state labels = some next) :
    Closed claims.sid next ∧ ∀ request tokens, next.phase request = .refreshed token tokens →
      state.phase request = .refreshed token tokens := by
  have hpreserved : Preserved (step primitives settings)
      fun later : System Id Token Digest Request => (∃ place, Good primitives place later) ∧
        Closed claims.sid later ∧
        ∀ request tokens, later.phase request = .refreshed token tokens →
          state.phase request = .refreshed token tokens := by
    rintro before label after ⟨⟨place, hgood⟩, hclosed, hrefreshed⟩ hstep
    have heffect := step_effect hstep
    refine ⟨hgood.step hstep, hclosed.effect heffect, fun request tokens hphase => ?_⟩
    cases heffect.phases with
    | inl hsame =>
        rw [hsame] at hphase
        exact hrefreshed request tokens hphase
    | inr hmoved =>
        obtain ⟨other, phase, hnext, -, -, hrotated⟩ := hmoved
        rw [hnext] at hphase
        by_cases hother : request = other
        · subst hother
          rw [Function.update_self] at hphase
          obtain ⟨said, hrotating, hchanged⟩ := hrotated token tokens hphase
          have hsound := hgood.request request
          rw [hrotating] at hsound
          obtain rfl : said = claims := Option.some.inj (hsound.1.symm.trans hverify)
          have hone : (before.sessions.filter (rotates before.now said.sid said.sub
              (primitives.digest token))).length = 1 := by simpa [rotate] using hchanged
          obtain ⟨row, hrow, hselected⟩ := (length_filter_rotates hgood.keys).mp hone
          rw [hclosed.not_rotates hrow] at hselected
          cases hselected
        · rw [Function.update_of_ne hother] at hphase
          exact hrefreshed request tokens hphase
  exact (hpreserved.run ⟨⟨place, hgood⟩, hclosed, fun _ _ => id⟩ hrun).2

/-! ## Rotation -/

/-- In every state that is reached a live session accepts exactly one refresh
token; at most one refresh with a token has succeeded; and no later state
accepts a token, nor does a later refresh with it succeed, that was rotated out
or whose session was revoked. -/
theorem refresh_rotation (start : ℕ) (labels : List (AuthStep Id Token Request))
    (state : System Id Token Digest Request)
    (hrun : run (step primitives settings) (initial start) labels = some state) :
    (∀ row ∈ state.sessions, row.live state.now = true →
      ∃! token, state.accepts primitives token = true ∧
        (primitives.verify token).map Claims.sid = some row.id) ∧
    (∀ first second token tokens other, state.phase first = .refreshed token tokens →
      state.phase second = .refreshed token other → first = second) ∧
    ∀ token, state.RotatedOut token ∨ Revoked primitives state token →
      ∀ more final, run (step primitives settings) state more = some final →
        final.accepts primitives token = false ∧
        ∀ request tokens, final.phase request = .refreshed token tokens →
          state.phase request = .refreshed token tokens := by
  obtain ⟨place, hgood⟩ := good_run hrun
  refine ⟨fun row hrow hlive => hgood.accepts_one hrow hlive,
    fun first second token tokens other => hgood.refreshed_unique, ?_⟩
  intro token hgone more final hmore
  obtain ⟨later, hlater⟩ := good_run (run_append_eq_some.mpr ⟨state, hrun, hmore⟩)
  cases hgone with
  | inl hrotated =>
      obtain ⟨spender, tokens, hphase⟩ := hrotated
      have hstays := refreshed_run hphase hmore
      refine ⟨hlater.not_accepts_rotatedOut ⟨spender, tokens, hstays⟩, ?_⟩
      intro request other hrefreshed
      obtain rfl := hlater.refreshed_unique hrefreshed hstays
      rw [hphase, ← hstays, hrefreshed]
  | inr hrevoked =>
      obtain ⟨claims, row, hverify, hrow, hid, hflag⟩ := hrevoked
      have hclosed : Closed claims.sid state := hid ▸ hgood.closed hrow hflag
      obtain ⟨hstill, hbefore⟩ := hclosed.refreshed_before hgood hverify hmore
      refine ⟨?_, hbefore⟩
      by_contra haccepts
      obtain ⟨said, hdecode, -, selected, hmem, hselected⟩ :=
        (accepts_iff hlater.keys).mp (Bool.not_eq_false _ ▸ haccepts)
      obtain rfl : said = claims :=
        Option.some.inj ((decode_eq_some.mp hdecode).1.symm.trans hverify)
      rw [hstill.not_rotates hmem] at hselected
      cases hselected

/-- Tokens that are the claims they sign, and digests that are the tokens. -/
def transparent : Primitives ℕ (Claims ℕ) (Claims ℕ) where
  encode := id
  verify := some
  digest := id
  verifyPassword := fun hash password => hash = password
  casefold := id
  verify_encode := fun _ => rfl
  digest_injective := Function.injective_id

/-- Two requests refresh with the token of one login. -/
def concurrentRefreshes : List (AuthStep ℕ (Claims ℕ) ℕ) :=
  let token : Claims ℕ :=
    { sub := 0, sid := 1, kind := .refresh, exp := 172800, iat := 0, nbf := 0, jti := 3 }
  [.register 0 "ada" "ada@example.org" "secret", .login 0 "ada" "secret", .issueLogin 0 1 2 3,
    .addSession 0, .present 1 token, .present 2 token, .readSession 1, .readSession 2,
    .issueRefresh 1 4 5, .issueRefresh 2 6 7, .rotate 2, .rotate 1]

theorem refresh_rotation_concurrent :
    ∃ state : System ℕ (Claims ℕ) (Claims ℕ) ℕ,
      run (step transparent ⟨2, 15⟩) (initial 0) concurrentRefreshes = some state ∧
      (∀ row ∈ state.sessions, row.live state.now = true →
        ∃! token, state.accepts transparent token = true ∧
          (transparent.verify token).map Claims.sid = some row.id) ∧
      (∀ first second token tokens other, state.phase first = .refreshed token tokens →
        state.phase second = .refreshed token other → first = second) ∧
      ∀ token, state.RotatedOut token ∨ Revoked transparent state token →
        ∀ more final, run (step transparent ⟨2, 15⟩) state more = some final →
          final.accepts transparent token = false ∧
          ∀ request tokens, final.phase request = .refreshed token tokens →
            state.phase request = .refreshed token tokens :=
  ⟨_, rfl, refresh_rotation 0 concurrentRefreshes _ rfl⟩

end System

end AlgorithmHarness.Auth
