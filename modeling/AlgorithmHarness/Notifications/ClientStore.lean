import AlgorithmHarness.Notifications.Pagination

/-!
# The notification store of the browser

`createNotificationStore` and the service it talks to.  Every action of the user
draws a new token, and an answer counts only while its action is the latest.
Requests are served, answers get lost and arrive in any order, while others
stage, mark and clear notifications.
-/

namespace AlgorithmHarness.Notifications.ClientStore

open Calendar
open Keyset
open Table
open Transition

/-! ## Reading an answer -/

/-- A notification as the browser keeps it. -/
structure AppNotification where
  id : String
  kind : Kind
  titleKey : String
  bodyKey : String
  params : List (String × Json)
  createdAt : String
  read : Bool
  href : Option String
  resourceAvailable : Bool

structure NotificationPage where
  items : List AppNotification
  nextCursor : Option String
  unreadCount : ℕ
  serverTime : String

/-- The message of `protocol()`. -/
def protocolError : String := "通知响应格式不兼容"

/-- `readParams` keeps numbers and strings. -/
def readParams (params : List (String × Json)) : List (String × Json) :=
  params.filter fun entry =>
    match entry.2 with
    | .num _ | .str _ => true
    | .null | .bool _ | .arr _ | .obj _ => false

def readNotification (item : Item) : Except String AppNotification :=
  if item.id = "" then .error protocolError
  else
    match Kind.ofText item.kind with
    | none => .error protocolError
    | some kind =>
        if item.resourceAvailable && item.href.isNone then .error protocolError
        else
          .ok
            { id := item.id
              kind := kind
              titleKey := item.titleKey
              bodyKey := item.bodyKey
              params := readParams item.params
              createdAt := item.createdAt
              read := item.read
              href := if item.resourceAvailable then item.href else none
              resourceAvailable := item.resourceAvailable }

/-- `Number.MAX_SAFE_INTEGER` -/
def maxSafeInteger : ℕ := 2 ^ 53 - 1

def readNotificationPage (page : Page) : Except String NotificationPage :=
  if maxSafeInteger < page.unreadCount then .error protocolError
  else
    (page.items.mapM readNotification).map fun items =>
      { items
        nextCursor := page.nextCursor
        unreadCount := page.unreadCount
        serverTime := page.serverTime }

/-! ## The store -/

inductive Status where
  | idle
  | loading
  | ready
  | error
  deriving DecidableEq, Repr

structure Store where
  notes : List AppNotification := []
  unread : ℕ := 0
  status : Status := .idle
  error : Option String := none
  nextCursor : Option String := none
  serverTime : Option String := none
  kind : Option Kind := none

/-- What a call of the gateway asks for. -/
inductive Request where
  | list (cursor : Option String) (kind : Option Kind)
  | markRead (id : String)
  | markAll (before : Option String)
  | clear (before : Option String)

inductive Reply where
  | page (page : Page)
  | done
  | failed

/-- An action under way: its token, the request it waits for, and the answer once there is one. -/
structure Flight where
  token : ℕ
  request : Request
  reply : Option Reply := none

/-- The argument of `load`: none, `'all'` or a kind. -/
inductive Selection where
  | same
  | all
  | only (kind : Kind)

/-- `selectedKind` -/
def Selection.kind (kind : Option Kind) : Selection → Option Kind
  | .same => kind
  | .all => none
  | .only chosen => some chosen

/-- `loadError` -/
def loadError : String := "通知暂时无法加载"

def Store.apply (store : Store) (page : NotificationPage) (notes : List AppNotification) : Store :=
  { store with
    notes
    unread := page.unreadCount
    nextCursor := page.nextCursor
    serverTime := some page.serverTime
    status := .ready
    error := none }

/-- The store of one user's browser and the notifications of all users. -/
structure System where
  inbox : Inbox
  store : Store := {}
  generation : ℕ := 0
  flights : List Flight := []

inductive Action where
  | load (selection : Selection)
  | loadMore
  | markRead (id : String)
  | markAllRead
  | clear

inductive Label where
  | act (action : Action)
  | serve (position : ℕ) (moment : DateTime)
  | lose (position : ℕ)
  | settle (position : ℕ)
  | other (operation : Operation)

namespace System

/-- A new token, and the request that goes out with it. -/
def start (system : System) (request : Request) : System :=
  { system with
    generation := system.generation + 1
    flights := system.flights ++ [{ token := system.generation + 1, request }] }

def act (system : System) : Action → System
  | .load selection =>
      let store := system.store
      let kind := selection.kind store.kind
      let switching := decide (kind ≠ store.kind)
      { system with
        store := { store with
          kind
          notes := if switching then [] else store.notes
          nextCursor := if switching then none else store.nextCursor
          error := none
          status := if switching || store.notes.isEmpty then .loading else store.status } }.start
        (.list none kind)
  | .loadMore =>
      match system.store.nextCursor.filter (· ≠ "") with
      | none => system
      | some cursor => system.start (.list (some cursor) system.store.kind)
  | .markRead id => system.start (.markRead id)
  | .markAllRead => system.start (.markAll system.store.serverTime)
  | .clear => system.start (.clear system.store.serverTime)

def fail (system : System) (token : ℕ) : System :=
  if token ≠ system.generation then system
  else { system with store := { system.store with status := .error, error := some loadError } }

/-- What an action does with the answer it waited for: of a list, of a further page, or of a
change, after which it lists. -/
def settle (system : System) (flight : Flight) (reply : Reply) : System :=
  match flight.request, reply with
  | .list cursor _, .page page =>
      match readNotificationPage page with
      | .error _ => system.fail flight.token
      | .ok page =>
          if flight.token ≠ system.generation then system
          else
            let notes :=
              match cursor with
              | none => page.items
              | some _ =>
                  let seen := system.store.notes.map AppNotification.id
                  system.store.notes ++ page.items.filter (·.id ∉ seen)
            { system with store := system.store.apply page notes }
  | .list _ _, .done | .list _ _, .failed => system.fail flight.token
  | _, .done =>
      { system with
        flights := system.flights ++
          [{ token := flight.token, request := .list none system.store.kind }] }
  | _, .page _ | _, .failed => system.fail flight.token

end System

/-- The service: what it makes of a request, and its answer. -/
def serve (userId : String) (readBefore : String → Option DateTime) (moment : DateTime)
    (inbox : Inbox) : Request → Inbox × Reply
  | .list cursor kind =>
      match listNotifications userId 20 cursor (kind.map Kind.text) none moment inbox with
      | .ok page => (inbox, .page page)
      | .error _ => (inbox, .failed)
  | .markRead id => write (.markRead userId id moment)
  | .markAll before => change before fun before => .markAllRead userId before moment
  | .clear before => change before fun before => .clear userId before moment
where
  write (operation : Operation) : Inbox × Reply :=
    match operation.apply inbox with
    | .ok later => (later, .done)
    | .error _ => (inbox, .failed)
  change (before : Option String) (operation : Option DateTime → Operation) : Inbox × Reply :=
    match before with
    | none => write (operation none)
    | some text =>
        match readBefore text with
        | none => (inbox, .failed)
        | some before => write (operation (some before))

def System.step (userId : String) (readBefore : String → Option DateTime) (system : System) :
    Label → Option System
  | .act action => some (system.act action)
  | .serve position moment =>
      match system.flights[position]? with
      | some ⟨token, request, none⟩ =>
          let (inbox, reply) := serve userId readBefore moment system.inbox request
          some { system with
            inbox
            flights := system.flights.set position ⟨token, request, some reply⟩ }
      | _ => none
  | .lose position =>
      system.flights[position]?.map fun flight =>
        { system with flights := system.flights.set position { flight with reply := some .failed } }
  | .settle position =>
      system.flights[position]?.bind fun flight =>
        flight.reply.map
          ({ system with flights := system.flights.eraseIdx position }.settle flight)
  | .other operation =>
      (operation.apply system.inbox).toOption.map fun inbox => { system with inbox }

/-! ## What a page shows -/

/-- Notes of the user's own notifications, of the selected kind, each once. -/
structure Consistent (userId : String) (inbox : Inbox) (kind : Option Kind)
    (notes : List AppNotification) : Prop where
  known : ∀ note ∈ notes, ∃ row ∈ inbox.rows,
    row.userId = userId ∧ row.id = note.id ∧ row.kind = note.kind
  selected : ∀ note ∈ notes, ∀ wanted, kind = some wanted → note.kind = wanted
  distinct : (notes.map AppNotification.id).Nodup

theorem Consistent.nil (userId : String) (inbox : Inbox) (kind : Option Kind) :
    Consistent userId inbox kind [] where
  known _ hmem := by cases hmem
  selected _ hmem := by cases hmem
  distinct := List.nodup_nil

theorem readNotification_keeps {item : Item} {note : AppNotification}
    (hread : readNotification item = .ok note) :
    note.id = item.id ∧ note.kind.text = item.kind := by
  rw [readNotification] at hread
  split at hread
  next => cases hread
  next =>
    split at hread
    next => cases hread
    next kind hkind =>
      split at hread
      next => cases hread
      next =>
        cases hread
        exact ⟨rfl, Kind.text_of_ofText hkind⟩

/-- The notes of a page are its rows, read one by one. -/
theorem readNotificationPage_rows {inbox : Inbox} {userId : String} {page : Page}
    {read : NotificationPage} {shown : List Notification}
    (hitems : page.items = shown.map (view inbox userId))
    (hread : readNotificationPage page = .ok read) :
    read.items.map (fun note => (note.id, note.kind)) =
      shown.map fun row => (row.id, row.kind) := by
  rw [readNotificationPage] at hread
  split_ifs at hread
  obtain ⟨notes, hnotes, rfl⟩ := map_eq_ok.mp hread
  have hpairs := forall₂_of_mapM_ok hnotes
  rw [hitems, List.forall₂_map_left_iff] at hpairs
  have hsame : List.Forall₂ Eq (shown.map fun row => (row.id, row.kind))
      (notes.map fun note => (note.id, note.kind)) := by
    rw [List.forall₂_map_left_iff, List.forall₂_map_right_iff]
    refine hpairs.imp fun row note hnote => ?_
    obtain ⟨hid, hkind⟩ := readNotification_keeps hnote
    rw [hid, Kind.text_injective hkind]
    rfl
  rw [List.forall₂_eq_eq_eq] at hsame
  exact hsame.symm

/-- What the listing shows at any cursor are the user's rows of the kind, each once. -/
theorem listNotifications_shows {userId : String} {limit : ℤ} {cursor kind : Option String}
    {unread : Option Bool} {moment : DateTime} {inbox : Inbox} {page : Page}
    (hlist : listNotifications userId limit cursor kind unread moment inbox = .ok page) :
    ∃ shown : List Notification, page.items = shown.map (view inbox userId) ∧
      (shown.map Notification.id).Nodup ∧
      ∀ row ∈ shown, row ∈ inbox.rows ∧ row.userId = userId ∧ kindMatches kind row = true := by
  obtain ⟨checked, hchecked, hlist⟩ := bind_eq_ok.mp hlist
  obtain ⟨floor, -, hlist⟩ := bind_eq_ok.mp hlist
  obtain ⟨after, -, hlist⟩ := bind_eq_ok.mp hlist
  cases hlist
  refine ⟨_, rfl, ?_, ?_⟩
  · have hfound : ((descending Notification.position (inbox.rows.filter fun row =>
        isVisible userId floor row && checked.all (row.kind = ·) && readMatches unread row &&
          after.all (comesAfter · row))).map Notification.id).Nodup := by
      refine ((List.perm_insertionSort _ _).map Notification.id).nodup_iff.mpr ?_
      exact inbox.nodup.sublist (List.filter_sublist.map _)
    exact hfound.sublist (((List.take_sublist _ _).trans (List.take_sublist _ _)).map _)
  · intro row hrow
    have hmem := mem_descending.mp (List.mem_of_mem_take (List.mem_of_mem_take hrow))
    obtain ⟨hrows, hmatches⟩ := List.mem_filter.mp hmem
    simp only [Bool.and_eq_true] at hmatches
    obtain ⟨⟨⟨hvisible, hkind⟩, -⟩, -⟩ := hmatches
    rw [isVisible, Bool.and_eq_true, Bool.and_eq_true, decide_eq_true_eq] at hvisible
    rw [kind_all_eq hchecked] at hkind
    exact ⟨hrows, hvisible.1.1, hkind⟩

theorem listed_consistent {userId : String} {cursor : Option String} {kind : Option Kind}
    {moment : DateTime} {inbox : Inbox} {page : Page} {read : NotificationPage}
    (hlist : listNotifications userId 20 cursor (kind.map Kind.text) none moment inbox = .ok page)
    (hread : readNotificationPage page = .ok read) :
    Consistent userId inbox kind read.items := by
  obtain ⟨shown, hitems, hnodup, hrows⟩ := listNotifications_shows hlist
  have hsame := readNotificationPage_rows hitems hread
  have hrow : ∀ note ∈ read.items, ∃ row ∈ shown, row.id = note.id ∧ row.kind = note.kind := by
    intro note hnote
    have hpair := List.mem_map_of_mem hnote (f := fun note => (note.id, note.kind))
    rw [hsame] at hpair
    obtain ⟨row, hrow, hfields⟩ := List.mem_map.mp hpair
    exact ⟨row, hrow, congrArg Prod.fst hfields, congrArg Prod.snd hfields⟩
  refine ⟨?_, ?_, ?_⟩
  · intro note hnote
    obtain ⟨row, hshown, hid, hkind⟩ := hrow note hnote
    exact ⟨row, (hrows row hshown).1, (hrows row hshown).2.1, hid, hkind⟩
  · rintro note hnote wanted rfl
    obtain ⟨row, hshown, -, hkind⟩ := hrow note hnote
    have hmatches := (hrows row hshown).2.2
    rw [kindMatches, Option.map_some, Option.all_some, decide_eq_true_eq] at hmatches
    exact hkind.symm.trans (Kind.text_injective hmatches)
  · have hids := congrArg (List.map Prod.fst) hsame
    rw [List.map_map, List.map_map] at hids
    have hids : read.items.map AppNotification.id = shown.map Notification.id := hids
    rw [hids]
    exact hnodup

/-! ## What happens meanwhile -/

/-- No event row is deleted or given to somebody else. -/
def Kept (inbox later : Inbox) : Prop :=
  ∀ row ∈ inbox.rows, ∃ kept ∈ later.rows,
    kept.userId = row.userId ∧ kept.id = row.id ∧ kept.kind = row.kind

theorem Kept.refl (inbox : Inbox) : Kept inbox inbox :=
  fun row hrow => ⟨row, hrow, rfl, rfl, rfl⟩

theorem kept_updateRows (inbox : Inbox) {condition : Notification → Bool}
    {change : Notification → Notification} (hkept : ∀ row, (change row).id = row.id)
    (hsame : ∀ row, (change row).userId = row.userId ∧ (change row).kind = row.kind) :
    Kept inbox (inbox.updateRows condition change hkept) := by
  intro row hrow
  by_cases hselected : condition row = true
  · exact ⟨change row, mem_updateWhere_of hrow hselected, (hsame row).1, hkept row,
      (hsame row).2⟩
  · exact ⟨row, mem_updateWhere_of_not hrow (eq_false_of_ne_true hselected), rfl, rfl, rfl⟩

theorem operation_keeps {operation : Operation} {inbox later : Inbox}
    (happly : operation.apply inbox = .ok later) : Kept inbox later := by
  cases operation with
  | stage draft =>
      rw [Operation.apply, stageNotification] at happly
      split at happly
      · cases happly
      · split_ifs at happly
        · cases happly
          exact .refl _
        · cases happly
          exact fun row hrow => ⟨row, List.mem_append_left _ hrow, rfl, rfl, rfl⟩
  | markRead userId noteId moment =>
      obtain ⟨floor, -, happly⟩ := bind_eq_ok.mp happly
      split_ifs at happly
      cases happly
      exact kept_updateRows inbox _ fun _ => ⟨rfl, rfl⟩
  | markAllRead userId before moment =>
      obtain ⟨floor, -, happly⟩ := bind_eq_ok.mp happly
      cases happly
      exact kept_updateRows inbox _ fun _ => ⟨rfl, rfl⟩
  | clear userId before moment =>
      obtain ⟨floor, -, happly⟩ := bind_eq_ok.mp happly
      cases happly
      exact kept_updateRows inbox _ fun _ => ⟨rfl, rfl⟩
  | changeOwners owner =>
      cases happly
      exact fun row hrow => ⟨row, hrow, rfl, rfl, rfl⟩

theorem Consistent.later {userId : String} {inbox later : Inbox} {kind : Option Kind}
    {notes : List AppNotification} (hconsistent : Consistent userId inbox kind notes)
    (hkept : Kept inbox later) : Consistent userId later kind notes where
  known note hnote := by
    obtain ⟨row, hrow, huser, hid, hkind⟩ := hconsistent.known note hnote
    obtain ⟨kept, hmem, hsameUser, hsameId, hsameKind⟩ := hkept row hrow
    exact ⟨kept, hmem, hsameUser.trans huser, hsameId.trans hid, hsameKind.trans hkind⟩
  selected := hconsistent.selected
  distinct := hconsistent.distinct

/-- A further page brings only notes that are not shown yet. -/
theorem Consistent.append {userId : String} {inbox : Inbox} {kind : Option Kind}
    {notes more : List AppNotification} (hnotes : Consistent userId inbox kind notes)
    (hmore : Consistent userId inbox kind more) :
    Consistent userId inbox kind
      (notes ++ more.filter (·.id ∉ notes.map AppNotification.id)) where
  known note hnote := by
    rcases List.mem_append.mp hnote with hshown | hnew
    · exact hnotes.known note hshown
    · exact hmore.known note (List.mem_of_mem_filter hnew)
  selected note hnote := by
    rcases List.mem_append.mp hnote with hshown | hnew
    · exact hnotes.selected note hshown
    · exact hmore.selected note (List.mem_of_mem_filter hnew)
  distinct := by
    rw [List.map_append, List.nodup_append]
    refine ⟨hnotes.distinct, hmore.distinct.sublist (List.filter_sublist.map _), ?_⟩
    rintro id hshown other hother rfl
    obtain ⟨note, hnote, rfl⟩ := List.mem_map.mp hother
    exact of_decide_eq_true (List.mem_filter.mp hnote).2 hshown

section Serve

variable {userId : String} {readBefore : String → Option DateTime} {moment : DateTime}
  {inbox : Inbox}

theorem kept_write (operation : Operation) : Kept inbox (serve.write inbox operation).1 := by
  rw [serve.write]
  split
  next later happly => exact operation_keeps happly
  next => exact .refl inbox

theorem kept_change (before : Option String) (operation : Option DateTime → Operation) :
    Kept inbox (serve.change readBefore inbox before operation).1 := by
  unfold serve.change
  split
  next => exact kept_write _
  next =>
    split
    next => exact .refl inbox
    next => exact kept_write _

theorem serve_keeps (request : Request) :
    Kept inbox (serve userId readBefore moment inbox request).1 := by
  cases request with
  | list cursor kind =>
      rw [serve]
      split <;> exact .refl inbox
  | markRead id => exact kept_write _
  | markAll before => exact kept_change before _
  | clear before => exact kept_change before _

variable (readBefore) in
/-- A page is an answer to a listing, and reads as one. -/
theorem serve_page {cursor : Option String} {kind : Option Kind} {page : Page}
    {read : NotificationPage}
    (hreply : (serve userId readBefore moment inbox (.list cursor kind)).2 = .page page)
    (hread : readNotificationPage page = .ok read) :
    Consistent userId inbox kind read.items := by
  rw [serve] at hreply
  split at hreply
  next hlist =>
    cases hreply
    exact listed_consistent hlist hread
  next => cases hreply

end Serve

/-! ## Any order of steps -/

/-- An action under way is not newer than the latest; the latest asks for the selected
kind; and a page that waits for the action is consistent. -/
structure Flight.Sound (userId : String) (system : System) (flight : Flight) : Prop where
  token : flight.token ≤ system.generation
  current : flight.token = system.generation →
    ∀ cursor kind, flight.request = .list cursor kind → kind = system.store.kind
  reply : ∀ cursor kind page read, flight.request = .list cursor kind →
    flight.reply = some (.page page) → readNotificationPage page = .ok read →
    Consistent userId system.inbox kind read.items

structure System.Valid (userId : String) (system : System) : Prop where
  shown : Consistent userId system.inbox system.store.kind system.store.notes
  flights : ∀ flight ∈ system.flights, flight.Sound userId system
  loading : system.store.status = .loading →
    system.generation ∈ system.flights.map Flight.token

namespace System.Valid

variable {userId : String} {readBefore : String → Option DateTime} {system next : System}

theorem initial (inbox : Inbox) : ({ inbox := inbox } : System).Valid userId where
  shown := .nil userId inbox none
  flights _ hmem := by cases hmem
  loading hloading := by cases hloading

/-- A new action leaves all others behind. -/
theorem start (hvalid : system.Valid userId) {store : Store} {request : Request}
    (hshown : Consistent userId system.inbox store.kind store.notes)
    (hrequest : ∀ cursor kind, request = .list cursor kind → kind = store.kind) :
    (({ system with store } : System).start request).Valid userId where
  shown := hshown
  flights flight hflight := by
    rcases List.mem_append.mp hflight with hearlier | hnew
    · have hsound := hvalid.flights flight hearlier
      refine ⟨Nat.le_succ_of_le hsound.token, fun hcurrent => ?_, hsound.reply⟩
      exact absurd hcurrent (Nat.ne_of_lt (Nat.lt_succ_of_le hsound.token))
    · obtain rfl := List.mem_singleton.mp hnew
      exact ⟨Nat.le_refl _, fun _ => hrequest, fun _ _ _ _ _ hreply => by cases hreply⟩
  loading _ := by
    rw [System.start, List.map_append]
    exact List.mem_append_right _ (List.mem_singleton_self _)

theorem act (hvalid : system.Valid userId) (action : Action) :
    (system.act action).Valid userId := by
  cases action with
  | load selection =>
      refine hvalid.start ?_ ?_
      · by_cases hkind : selection.kind system.store.kind = system.store.kind
        · simpa only [hkind, ne_eq, not_true_eq_false, decide_false, Bool.false_eq_true, if_false]
            using hvalid.shown
        · simpa only [ne_eq, hkind, not_false_eq_true, decide_true, if_true]
            using Consistent.nil userId system.inbox _
      · intro cursor kind hrequest
        cases hrequest
        rfl
  | loadMore =>
      rw [System.act]
      split
      next => exact hvalid
      next cursor _ =>
        refine hvalid.start hvalid.shown ?_
        intro cursor kind hrequest
        cases hrequest
        rfl
  | markRead id => exact hvalid.start hvalid.shown fun _ _ hrequest => by cases hrequest
  | markAllRead => exact hvalid.start hvalid.shown fun _ _ hrequest => by cases hrequest
  | clear => exact hvalid.start hvalid.shown fun _ _ hrequest => by cases hrequest

/-- The inbox moves on. -/
theorem later (hvalid : system.Valid userId) {inbox : Inbox} (hkept : Kept system.inbox inbox) :
    ({ system with inbox } : System).Valid userId where
  shown := hvalid.shown.later hkept
  flights flight hflight := by
    have hsound := hvalid.flights flight hflight
    exact ⟨hsound.token, hsound.current, fun cursor kind page read hrequest hreply hread =>
      (hsound.reply cursor kind page read hrequest hreply hread).later hkept⟩
  loading := hvalid.loading

/-- A flight gets its answer. -/
theorem answer (hvalid : system.Valid userId) {position : ℕ} {flight : Flight}
    (hflight : system.flights[position]? = some flight) {reply : Reply}
    (hreply : ∀ cursor kind page read, flight.request = .list cursor kind →
      reply = .page page → readNotificationPage page = .ok read →
      Consistent userId system.inbox kind read.items) :
    ({ system with
        flights := system.flights.set position { flight with reply := some reply } } :
      System).Valid userId where
  shown := hvalid.shown
  flights other hother := by
    rcases List.mem_or_eq_of_mem_set hother with hearlier | rfl
    · have hsound := hvalid.flights other hearlier
      exact ⟨hsound.token, hsound.current, hsound.reply⟩
    · have hsound := hvalid.flights flight (List.mem_of_getElem? hflight)
      refine ⟨hsound.token, hsound.current, ?_⟩
      intro cursor kind page read hrequest hanswer
      exact hreply cursor kind page read hrequest (Option.some_inj.mp hanswer)
  loading hloading := by
    have htokens := hvalid.loading hloading
    have hsame : (system.flights.map Flight.token).set position flight.token =
        system.flights.map Flight.token := by
      obtain ⟨hlt, rfl⟩ := List.getElem?_eq_some_iff.mp hflight
      rw [← List.getElem_map Flight.token (h := by simpa using hlt), List.set_getElem_self]
    rw [List.map_set, hsame]
    exact htokens

end System.Valid

/-- A valid system but for one flight, which has its answer. -/
structure System.Settling (userId : String) (system : System) (flight : Flight) : Prop where
  shown : Consistent userId system.inbox system.store.kind system.store.notes
  flights : ∀ other ∈ system.flights, other.Sound userId system
  own : flight.Sound userId system
  loading : system.store.status = .loading → flight.token ≠ system.generation →
    system.generation ∈ system.flights.map Flight.token

namespace System.Settling

variable {userId : String} {system : System} {flight : Flight}

theorem erase (hvalid : system.Valid userId) {position : ℕ}
    (hflight : system.flights[position]? = some flight) :
    ({ system with flights := system.flights.eraseIdx position } : System).Settling userId
      flight where
  shown := hvalid.shown
  flights other hother := by
    have hsound := hvalid.flights other (List.mem_of_mem_eraseIdx hother)
    exact ⟨hsound.token, hsound.current, hsound.reply⟩
  own := by
    have hsound := hvalid.flights flight (List.mem_of_getElem? hflight)
    exact ⟨hsound.token, hsound.current, hsound.reply⟩
  loading hloading hstale := by
    obtain ⟨other, hother, htoken⟩ := List.mem_map.mp (hvalid.loading hloading)
    obtain ⟨index, hindex⟩ := List.getElem?_of_mem hother
    refine List.mem_map.mpr ⟨other, ?_, htoken⟩
    refine List.mem_eraseIdx_iff_getElem?.mpr ⟨index, ?_, hindex⟩
    rintro rfl
    cases hindex.symm.trans hflight
    exact hstale htoken

/-- The flight is dropped, or what it does ends the loading. -/
theorem shows (hsettling : system.Settling userId flight) {store : Store}
    (hkind : store.kind = system.store.kind)
    (hshown : Consistent userId system.inbox store.kind store.notes)
    (hloading : store.status = .loading →
      system.store.status = .loading ∧ flight.token ≠ system.generation) :
    ({ system with store } : System).Valid userId where
  shown := hshown
  flights other hother := by
    have hsound := hsettling.flights other hother
    refine ⟨hsound.token, ?_, hsound.reply⟩
    intro hcurrent cursor kind hrequest
    exact (hsound.current hcurrent cursor kind hrequest).trans hkind.symm
  loading hstatus := hsettling.loading (hloading hstatus).1 (hloading hstatus).2

theorem fail (hsettling : system.Settling userId flight) :
    (system.fail flight.token).Valid userId := by
  rw [System.fail]
  split_ifs with hstale
  · exact hsettling.shows rfl hsettling.shown fun hloading => ⟨hloading, hstale⟩
  · exact hsettling.shows rfl hsettling.shown fun hloading => by cases hloading

/-- A change is followed by a listing of the kind that is selected by then. -/
theorem relist (hsettling : system.Settling userId flight) :
    ({ system with
        flights := system.flights ++
          [{ token := flight.token, request := .list none system.store.kind }] } :
      System).Valid userId where
  shown := hsettling.shown
  flights other hother := by
    rcases List.mem_append.mp hother with hearlier | hnew
    · have hsound := hsettling.flights other hearlier
      exact ⟨hsound.token, hsound.current, hsound.reply⟩
    · obtain rfl := List.mem_singleton.mp hnew
      refine ⟨hsettling.own.token, ?_, fun _ _ _ _ _ hreply => by cases hreply⟩
      intro hcurrent cursor kind hrequest
      cases hrequest
      rfl
  loading hloading := by
    rw [List.map_append, List.mem_append]
    by_cases hcurrent : flight.token = system.generation
    · exact .inr (List.mem_singleton.mpr hcurrent.symm)
    · exact .inl (hsettling.loading hloading hcurrent)

theorem page (hsettling : system.Settling userId flight) {cursor : Option String}
    {kind : Option Kind} {page : Page} (hrequest : flight.request = .list cursor kind)
    (hreply : flight.reply = some (.page page)) :
    (system.settle flight (.page page)).Valid userId := by
  unfold System.settle
  simp only [hrequest]
  split
  next => exact hsettling.fail
  next read hread =>
    have hlisted := hsettling.own.reply cursor kind page read hrequest hreply hread
    split_ifs with hstale
    · exact hsettling.shows rfl hsettling.shown fun hloading => ⟨hloading, hstale⟩
    · have hcurrent := not_ne_iff.mp hstale
      rw [hsettling.own.current hcurrent cursor kind hrequest] at hlisted
      refine hsettling.shows rfl ?_ fun hloading => by cases hloading
      cases cursor with
      | none => exact hlisted
      | some cursor => exact hsettling.shown.append hlisted

theorem settle (hsettling : system.Settling userId flight) {reply : Reply}
    (hreply : flight.reply = some reply) : (system.settle flight reply).Valid userId := by
  cases hrequest : flight.request with
  | list cursor kind =>
      cases reply with
      | page page => exact hsettling.page hrequest hreply
      | done | failed =>
          unfold System.settle
          simp only [hrequest]
          exact hsettling.fail
  | markRead | markAll | clear =>
      unfold System.settle
      simp only [hrequest]
      cases reply with
      | done => exact hsettling.relist
      | page | failed => exact hsettling.fail

end System.Settling

theorem valid_preserved (userId : String) (readBefore : String → Option DateTime) :
    Preserved (System.step userId readBefore) (System.Valid userId) := by
  intro system label next hvalid hstep
  cases label with
  | act action =>
      cases hstep
      exact hvalid.act action
  | serve position moment =>
      rw [System.step] at hstep
      split at hstep
      next token request hflight =>
        cases hstep
        refine (hvalid.later (serve_keeps request)).answer hflight ?_
        intro cursor kind page read hrequest hpage hread
        obtain rfl : request = .list cursor kind := hrequest
        exact (serve_page readBefore hpage hread).later (serve_keeps _)
      next => cases hstep
  | lose position =>
      obtain ⟨flight, hflight, rfl⟩ := Option.map_eq_some_iff.mp hstep
      exact hvalid.answer hflight fun _ _ _ _ _ hreply => by cases hreply
  | settle position =>
      obtain ⟨flight, hflight, hsettled⟩ := Option.bind_eq_some_iff.mp hstep
      obtain ⟨reply, hreply, rfl⟩ := Option.map_eq_some_iff.mp hsettled
      exact (System.Settling.erase hvalid hflight).settle hreply
  | other operation =>
      obtain ⟨inbox, hinbox, rfl⟩ := Option.map_eq_some_iff.mp hstep
      exact hvalid.later (operation_keeps (toOption_eq_some.mp hinbox))

/-- Whatever the user does, and in whatever order requests are served, lost and answered
while others change the notifications: the browser shows notifications of its user only,
only of the selected kind, and none twice; and it shows that it is loading only while the
latest action is still under way. -/
theorem shown_notes_consistent {userId : String} {readBefore : String → Option DateTime}
    {inbox : Inbox} {system : System}
    (hreach : Reachable (System.step userId readBefore) { inbox := inbox } system) :
    Consistent userId system.inbox system.store.kind system.store.notes ∧
      (system.store.status = .loading → system.generation ∈ system.flights.map Flight.token) := by
  have hvalid := (valid_preserved userId readBefore).reachable (.initial inbox) hreach
  exact ⟨hvalid.shown, hvalid.loading⟩

theorem may_second : 1 ≤ 2 ∧ 2 ≤ 31 := by decide

/-- A notification is staged and listed; before the page arrives the user marks all read, so
that only the listing after it is shown. -/
def adaVisit : List Label :=
  [.other (.stage (adaDraft "first" (mayDay 2 may_second))), .act (.load (.only .system)),
    .serve 0 (mayDay 2 may_second), .act .markAllRead, .settle 0,
    .serve 0 (mayDay 2 may_second), .settle 0, .serve 0 (mayDay 2 may_second), .settle 0]

theorem shown_notes_consistent_in_adaVisit :
    ∃ system, run (System.step "ada" fun _ => none) { inbox := Inbox.empty } adaVisit =
        some system ∧
      system.store.notes.map AppNotification.id = ["first"] ∧
      Consistent "ada" system.inbox system.store.kind system.store.notes := by
  have hrun : (run (System.step "ada" fun _ => none) { inbox := Inbox.empty }
      adaVisit).isSome := by decide +kernel
  refine ⟨_, (Option.some_get hrun).symm, ?_, ?_⟩
  · decide +kernel +revert
  · exact (shown_notes_consistent ⟨adaVisit, (Option.some_get hrun).symm⟩).1

end AlgorithmHarness.Notifications.ClientStore
