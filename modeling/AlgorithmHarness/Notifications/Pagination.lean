import AlgorithmHarness.Core.Transition
import AlgorithmHarness.Notifications.Service

/-!
# Following the cursors

A session reads pages of one filter, each with the cursor of the page before,
while notifications are staged, marked and cleared between them.  Its pages are
those of a keyset session over the rows that match when each page is read.
-/

namespace AlgorithmHarness.Notifications

open Calendar
open Keyset
open Table
open Transition

/-! ## Cursors -/

theorem ofUtf8_utf8 (text : String) : ofUtf8 (utf8 text) = some text := by
  unfold ofUtf8 utf8 String.fromUTF8?
  rw [Array.toArray_toList, dif_pos text.isValidUTF8]
  rfl

theorem digitChar_ne_bar {digit : ℕ} (hdigit : digit < 10) : digitChar digit ≠ '|' := by
  interval_cases digit <;> decide

theorem bar_not_mem_zeroPadded {width value : ℕ} (hvalue : value < 10 ^ width) :
    '|' ∉ zeroPadded width value := by
  induction width generalizing value with
  | zero => exact List.not_mem_nil
  | succ width ih =>
      have hpositive : 0 < 10 ^ width := Nat.pow_pos (by decide)
      rw [zeroPadded, List.mem_cons, not_or]
      refine ⟨(digitChar_ne_bar ?_).symm, ih (Nat.mod_lt _ hpositive)⟩
      rwa [Nat.div_lt_iff_lt_mul hpositive, Nat.mul_comm, ← Nat.pow_succ]

theorem bar_not_mem_isoformat (moment : DateTime) : '|' ∉ moment.isoformat := by
  have hyear : moment.date.year < 10 ^ 4 := by
    have := moment.date.year_mem.2
    omega
  have hmonth : moment.date.month < 10 ^ 2 := by
    have := moment.date.month_mem.2
    omega
  have hday : moment.date.day < 10 ^ 2 := by
    have := moment.date.day_mem.2.trans (daysInMonth_le _ _)
    omega
  have hhour : moment.time.hour < 10 ^ 2 := moment.time.hour_lt.trans (by decide)
  have hminute : moment.time.minute < 10 ^ 2 := moment.time.minute_lt.trans (by decide)
  have hsecond : moment.time.second < 10 ^ 2 := moment.time.second_lt.trans (by decide)
  have hmicrosecond : moment.time.microsecond < 10 ^ 6 := moment.time.microsecond_lt
  have hfraction : '|' ∉ (if moment.time.microsecond = 0 then []
      else '.' :: zeroPadded 6 moment.time.microsecond) := by
    split_ifs
    · exact List.not_mem_nil
    · simp [bar_not_mem_zeroPadded hmicrosecond]
  simp only [DateTime.isoformat, Date.isoformat, Time.isoformat, List.mem_append, List.mem_cons,
    bar_not_mem_zeroPadded hyear, bar_not_mem_zeroPadded hmonth, bar_not_mem_zeroPadded hday,
    bar_not_mem_zeroPadded hhour, bar_not_mem_zeroPadded hminute, bar_not_mem_zeroPadded hsecond,
    hfraction]
  decide

theorem splitBar_append {stamp : List Char} (hstamp : '|' ∉ stamp) (id : String) :
    splitBar (String.ofList stamp ++ "|" ++ id) = some (stamp, id) := by
  have hno : ∀ c ∈ stamp, decide (c ≠ '|') = true := by
    intro c hc
    exact decide_eq_true fun hbar => hstamp (hbar ▸ hc)
  have hspan : (stamp ++ '|' :: id.toList).span (· ≠ '|') = (stamp, '|' :: id.toList) := by
    rw [List.span_eq_takeWhile_dropWhile, List.takeWhile_append_of_pos hno,
      List.dropWhile_append_of_pos hno]
    simp
  have htext : (String.ofList stamp ++ "|" ++ id).toList = stamp ++ '|' :: id.toList := by simp
  unfold splitBar
  rw [htext, hspan]
  exact congrArg (fun id => some (stamp, id)) (String.ofList_toList)

/-- Decoding an encoded cursor gives back its position. -/
theorem decodeCursor_cursorText (createdAt : DateTime) (id : String) :
    decodeCursor (cursorText createdAt id) = .ok (createdAt, id) := by
  unfold decodeCursor cursorText
  have hlength : ∀ text : List Char, (String.ofList text).length = text.length := by simp
  simp only [String.toList_ofList, hlength, Base64.decode_stripped, Option.bind_eq_bind,
    Option.bind_some, ofUtf8_utf8, isoText, splitBar_append (bar_not_mem_isoformat createdAt),
    DateTime.fromisoformat_isoformat, Option.pure_def]

/-- The cursor of a position in the listing. -/
def positionCursor (position : Position) : String :=
  cursorText (ofLex position).1 (ofLex position).2

/-- The position of a cursor that a page has or gives. -/
def cursorPosition (cursor : Option String) : Option Position :=
  cursor.bind fun cursor => (decodeCursor cursor).toOption.map toLex

@[simp]
theorem cursorPosition_map (position : Option Position) :
    cursorPosition (position.map positionCursor) = position := by
  cases position with
  | none => rfl
  | some position =>
      simp only [cursorPosition, positionCursor, Option.map_some, Option.bind_some,
        decodeCursor_cursorText]
      rfl

theorem cursorText_ne_empty (createdAt : DateTime) (id : String) :
    cursorText createdAt id ≠ "" := by
  intro hempty
  have hdecoded := decodeCursor_cursorText createdAt id
  rw [hempty] at hdecoded
  cases hdecoded

theorem readCursor_map (position : Option Position) :
    readCursor (position.map positionCursor) = .ok (position.map ofLex) := by
  cases position with
  | none => rfl
  | some position =>
      have hfilter : (some (positionCursor position)).filter (fun cursor => cursor ≠ "") =
          some (positionCursor position) := by
        have hne : positionCursor position ≠ "" := cursorText_ne_empty _ _
        rw [Option.filter_some, if_pos (decide_eq_true hne)]
      unfold readCursor
      rw [Option.map_some, hfilter]
      exact congrArg (Except.map some) (decodeCursor_cursorText _ _)

/-! ## One page -/

/-- The kind condition of the listing. -/
def kindMatches (kind : Option String) (row : Notification) : Bool :=
  kind.all fun text => row.kind.text = text

/-- A notification the user sees at a moment: it is not cleared and not expired. -/
def visibleAt (userId : String) (moment : DateTime) (row : Notification) : Bool :=
  (retentionFloor moment).toOption.any fun floor => isVisible userId floor row

/-- A notification the filter lists at a moment. -/
def matchesAt (userId : String) (kind : Option String) (unread : Option Bool) (moment : DateTime)
    (row : Notification) : Bool :=
  visibleAt userId moment row && kindMatches kind row && readMatches unread row

theorem Kind.text_injective : Function.Injective Kind.text := by
  intro first second
  cases first <;> cases second <;> simp [Kind.text]

theorem Kind.text_of_ofText {text : String} {kind : Kind} (hkind : Kind.ofText text = some kind) :
    kind.text = text := by
  simpa using List.find?_some hkind

theorem kind_all_eq {kind : Option String} {checked : Option Kind}
    (hchecked : checkKind kind = .ok checked) (row : Notification) :
    checked.all (row.kind = ·) = kindMatches kind row := by
  cases kind with
  | none =>
      cases hchecked
      rfl
  | some text =>
      unfold checkKind at hchecked
      dsimp only at hchecked
      split at hchecked
      · next kind hkind =>
          cases hchecked
          rw [kindMatches, Option.all_some, Option.all_some, ← Kind.text_of_ofText hkind]
          exact decide_eq_decide.mpr Kind.text_injective.eq_iff.symm
      · cases hchecked

theorem comesAfter_iff (after : DateTime × String) (row : Notification) :
    comesAfter after row = decide (row.position < toLex after) := by
  simp [comesAfter, Notification.position, Prod.Lex.lt_iff]

theorem one_le_pageSize (limit : ℤ) : 1 ≤ pageSize limit := by
  unfold pageSize
  omega

/-- A page that was read, and what it was read from. -/
structure PageRead where
  inbox : Inbox
  moment : DateTime
  cursor : Option String
  page : Page

section Session

variable (userId : String) (kind : Option String) (unread : Option Bool)

/-- The reading of the matching rows that a page comes from. -/
structure Describes (read : PageRead) (reading : Reading Notification Position) : Prop where
  rows : ∀ row, row ∈ reading.rows ↔
    row ∈ read.inbox.rows ∧ matchesAt userId kind unread read.moment row = true
  items : read.page.items = reading.items.map (view read.inbox userId)
  cursor : read.cursor = reading.after.map positionCursor
  next : read.page.nextCursor = reading.next.map positionCursor

variable {userId kind unread}

/-- A page lists the matching rows after its cursor. -/
theorem listNotifications_describes {limit : ℤ} {after : Option Position} {moment : DateTime}
    {inbox : Inbox} {page : Page}
    (hlist : listNotifications userId limit (after.map positionCursor) kind unread moment inbox =
      .ok page) :
    ∃ reading : Reading Notification Position, reading.after = after ∧
      reading.Exact Notification.position ∧
      Describes userId kind unread
        { inbox := inbox, moment := moment, cursor := after.map positionCursor, page := page }
        reading := by
  obtain ⟨checked, hchecked, hlist⟩ := bind_eq_ok.mp hlist
  obtain ⟨floor, hfloor, hlist⟩ := bind_eq_ok.mp hlist
  obtain ⟨start, hstart, hlist⟩ := bind_eq_ok.mp hlist
  rw [readCursor_map] at hstart
  cases hstart
  let rows := inbox.rows.filter fun row =>
    isVisible userId floor row && kindMatches kind row && readMatches unread row
  have hfound : inbox.rows.filter (fun row => isVisible userId floor row &&
      checked.all (row.kind = ·) && readMatches unread row &&
      (after.map ofLex).all (comesAfter · row)) =
      rows.filter fun row => Below after row.position := by
    rw [List.filter_filter]
    apply List.filter_congr
    intro row _
    rw [kind_all_eq hchecked, Bool.and_comm]
    cases after with
    | none => rfl
    | some after => rw [Option.map_some, Option.all_some, comesAfter_iff]; rfl
  have hpage : page =
      { items := (readPage Notification.position (pageSize limit) after rows).1.map
          (view inbox userId)
        nextCursor := (readPage Notification.position (pageSize limit) after rows).2.map
          positionCursor
        unreadCount := countUnread userId floor inbox
        serverTime := isoText moment } := by
    simp only [hfound] at hlist
    cases hlist
    unfold readPage
    rw [apply_ite (Option.map positionCursor), Option.map_map]
    rfl
  refine ⟨{ rows := rows
            after := after
            items := (readPage Notification.position (pageSize limit) after rows).1
            next := (readPage Notification.position (pageSize limit) after rows).2 },
    rfl, readPage_exact (one_le_pageSize limit) after ?_, ?_, ?_, rfl, ?_⟩
  · have hids : ((rows.map Notification.position).map fun position => (ofLex position).2).Nodup := by
      rw [List.map_map]
      exact inbox.nodup.sublist (List.filter_sublist.map _)
    exact hids.of_map _
  · intro row
    have hvisible : visibleAt userId moment row = isVisible userId floor row := by
      rw [visibleAt, hfloor]
      rfl
    rw [matchesAt, hvisible]
    exact List.mem_filter
  · rw [hpage]
  · rw [hpage]

end Session

/-! ## What happens between pages -/

/-- The same event, whatever became of its state. -/
def SameEvent (row later : Notification) : Prop :=
  later.id = row.id ∧ later.createdAt = row.createdAt

/-- Event rows are never deleted, and never move in the listing. -/
def Inbox.Kept (inbox later : Inbox) : Prop :=
  ∀ row ∈ inbox.rows, ∃ kept ∈ later.rows, SameEvent row kept

theorem Inbox.Kept.refl (inbox : Inbox) : inbox.Kept inbox :=
  fun row hrow => ⟨row, hrow, rfl, rfl⟩

theorem Inbox.Kept.trans {first second third : Inbox} (hfirst : first.Kept second)
    (hsecond : second.Kept third) : first.Kept third := by
  intro row hrow
  obtain ⟨middle, hmiddle, hid, hcreated⟩ := hfirst row hrow
  obtain ⟨last, hlast, hlastId, hlastCreated⟩ := hsecond middle hmiddle
  exact ⟨last, hlast, hlastId.trans hid, hlastCreated.trans hcreated⟩

theorem Inbox.kept_updateRows (inbox : Inbox) {condition : Notification → Bool}
    {change : Notification → Notification} (hkept : ∀ row, (change row).id = row.id)
    (hcreated : ∀ row, (change row).createdAt = row.createdAt) :
    inbox.Kept (inbox.updateRows condition change hkept) := by
  intro row hrow
  by_cases hselected : condition row = true
  · exact ⟨change row, mem_updateWhere_of hrow hselected, hkept row, hcreated row⟩
  · exact ⟨row, mem_updateWhere_of_not hrow (Bool.not_eq_true _ ▸ hselected), rfl, rfl⟩

theorem Operation.kept {operation : Operation} {inbox later : Inbox}
    (happly : operation.apply inbox = .ok later) : inbox.Kept later := by
  cases operation with
  | stage draft =>
      simp only [Operation.apply, stageNotification] at happly
      split at happly
      · cases happly
      · split_ifs at happly
        · cases happly
          exact Inbox.Kept.refl _
        · cases happly
          intro row hrow
          exact ⟨row, List.mem_append_left _ hrow, rfl, rfl⟩
  | markRead userId noteId moment =>
      obtain ⟨floor, -, happly⟩ := bind_eq_ok.mp happly
      split_ifs at happly
      cases happly
      exact inbox.kept_updateRows _ fun _ => rfl
  | markAllRead userId before moment =>
      obtain ⟨floor, -, happly⟩ := bind_eq_ok.mp happly
      cases happly
      exact inbox.kept_updateRows _ fun _ => rfl
  | clear userId before moment =>
      obtain ⟨floor, -, happly⟩ := bind_eq_ok.mp happly
      cases happly
      exact inbox.kept_updateRows _ fun _ => rfl
  | changeOwners owner =>
      cases happly
      exact fun row hrow => ⟨row, hrow, rfl, rfl⟩

/-! ## Sessions -/

structure Session where
  inbox : Inbox
  pages : List PageRead := []
  /-- The cursor of the next page, unless none is left. -/
  next : Option (Option String) := some none

namespace Session

inductive Event where
  | operation (operation : Operation)
  | readPage (limit : ℤ) (moment : DateTime)

/-- An event of a session with one filter; a call that raises is not a step. -/
def step (userId : String) (kind : Option String) (unread : Option Bool) (session : Session) :
    Event → Option Session
  | .operation operation =>
      (operation.apply session.inbox).toOption.map fun inbox => { session with inbox := inbox }
  | .readPage limit moment =>
      session.next.bind fun cursor =>
        (listNotifications userId limit cursor kind unread moment session.inbox).toOption.map
          fun page =>
            { inbox := session.inbox
              pages := session.pages ++
                [{ inbox := session.inbox, moment := moment, cursor := cursor, page := page }]
              next := page.nextCursor.map some }

/-- Everything a session listed. -/
def items (session : Session) : List Item := session.pages.flatMap fun read => read.page.items

variable {userId : String} {kind : Option String} {unread : Option Bool}

variable (userId kind unread) in
/-- The pages are those of a keyset session, and no event row was lost. -/
structure Followed (session : Session) : Prop where
  keyset : ∃ readings cursor, Keyset.Session Notification.position readings cursor ∧
    List.Forall₂ (Describes userId kind unread) session.pages readings ∧
    session.next = cursor.map (Option.map positionCursor)
  kept : session.pages.Pairwise fun first second => first.inbox.Kept second.inbox
  current : ∀ read ∈ session.pages, read.inbox.Kept session.inbox

theorem followed_preserved : Preserved (step userId kind unread) (Followed userId kind unread) := by
  intro session event next hfollowed hstep
  cases event with
  | operation operation =>
      obtain ⟨inbox, happly, rfl⟩ := Option.map_eq_some_iff.mp hstep
      have hkept : session.inbox.Kept inbox := Operation.kept (toOption_eq_some.mp happly)
      exact ⟨hfollowed.keyset, hfollowed.kept, fun read hread =>
        (hfollowed.current read hread).trans hkept⟩
  | readPage limit moment =>
      obtain ⟨cursor, hcursor, hread⟩ := Option.bind_eq_some_iff.mp hstep
      obtain ⟨page, hlist, rfl⟩ := Option.map_eq_some_iff.mp hread
      obtain ⟨readings, frontier, hkeyset, hpages, hnext⟩ := hfollowed.keyset
      obtain ⟨after, rfl, rfl⟩ : ∃ after, frontier = some after ∧
          cursor = after.map positionCursor := by
        obtain ⟨after, hafter, hmap⟩ := Option.map_eq_some_iff.mp (hnext.symm.trans hcursor)
        exact ⟨after, hafter, hmap.symm⟩
      obtain ⟨reading, rfl, hexact, hdescribes⟩ :=
        listNotifications_describes (toOption_eq_some.mp hlist)
      constructor
      · refine ⟨readings ++ [reading], _, .page hkeyset hexact, ?_, ?_⟩
        · exact List.rel_append hpages (.cons hdescribes .nil)
        · change page.nextCursor.map some = _
          rw [hdescribes.next, Option.map_map, Option.map_map]
          rfl
      · rw [List.pairwise_append]
        refine ⟨hfollowed.kept, List.pairwise_singleton _ _, ?_⟩
        intro read hread last hlast
        rw [List.mem_singleton.mp hlast]
        exact hfollowed.current read hread
      · intro read hread
        rcases List.mem_append.mp hread with hearlier | hlast
        · exact hfollowed.current read hearlier
        · rw [List.mem_singleton.mp hlast]
          exact Inbox.Kept.refl _

theorem followed_start (inbox : Inbox) : Followed userId kind unread { inbox := inbox } where
  keyset := ⟨[], some none, .start, .nil, rfl⟩
  kept := .nil
  current := nofun

/-- What the items of a session and the rows of its readings have in common. -/
theorem map_items {Value : Type} {pages : List PageRead}
    {readings : List (Reading Notification Position)}
    (hpages : List.Forall₂ (Describes userId kind unread) pages readings)
    {ofItem : Item → Value} {ofRow : Notification → Value}
    (hview : ∀ inbox row, ofItem (view inbox userId row) = ofRow row) :
    (pages.flatMap fun read => read.page.items).map ofItem =
      (readings.flatMap Reading.items).map ofRow := by
  induction hpages with
  | nil => rfl
  | @cons read reading pages readings hdescribes hpages ih =>
      rw [List.flatMap_cons, List.flatMap_cons, List.map_append, List.map_append, ih,
        hdescribes.items, List.map_map]
      congr 1
      exact List.map_congr_left fun row _ => hview read.inbox row

theorem exists_read {pages : List PageRead} {readings : List (Reading Notification Position)}
    (hpages : List.Forall₂ (Describes userId kind unread) pages readings)
    {reading : Reading Notification Position} (hreading : reading ∈ readings) :
    ∃ read ∈ pages, Describes userId kind unread read reading := by
  induction hpages with
  | nil => cases hreading
  | @cons read first pages readings hdescribes hpages ih =>
      rcases List.mem_cons.mp hreading with rfl | hlater
      · exact ⟨read, List.mem_cons_self, hdescribes⟩
      · obtain ⟨other, hother, hdescribed⟩ := ih hlater
        exact ⟨other, List.mem_cons_of_mem _ hother, hdescribed⟩

/-- Rows of two pages with one identifier are at one position. -/
theorem Followed.position_eq {session : Session} (hfollowed : Followed userId kind unread session)
    {first second : PageRead} (hfirst : first ∈ session.pages) (hsecond : second ∈ session.pages)
    {row other : Notification} (hrow : row ∈ first.inbox.rows)
    (hother : other ∈ second.inbox.rows) (hid : row.id = other.id) :
    row.position = other.position := by
  obtain ⟨kept, hkept, hkeptId, hkeptCreated⟩ := hfollowed.current first hfirst row hrow
  obtain ⟨later, hlater, hlaterId, hlaterCreated⟩ :=
    hfollowed.current second hsecond other hother
  have hsame : kept = later :=
    row_unique session.inbox.nodup hkept hlater (by rw [hkeptId, hlaterId, hid])
  have hcreated : row.createdAt = other.createdAt := by
    rw [← hkeptCreated, ← hlaterCreated, hsame]
  rw [Notification.position, Notification.position, hcreated, hid]

/-- Event rows of the first page are there when any page is read. -/
theorem Followed.kept_first {session : Session} (hfollowed : Followed userId kind unread session)
    {first read : PageRead} (hfirst : first ∈ session.pages.head?) (hread : read ∈ session.pages) :
    first.inbox.Kept read.inbox := by
  have hkept := hfollowed.kept
  cases hpages : session.pages with
  | nil =>
      rw [hpages] at hfirst
      cases hfirst
  | cons head rest =>
      rw [hpages] at hfirst hread hkept
      cases hfirst
      rcases List.mem_cons.mp hread with rfl | hlater
      · exact Inbox.Kept.refl _
      · exact (List.pairwise_cons.mp hkept).1 read hlater

end Session

/-- The place of an item in the listing, as its answer shows it. -/
def Item.position (item : Item) : Option Position :=
  (DateTime.fromisoformat item.createdAt.toList).map fun read => toLex (read.1, item.id)

theorem position_view (inbox : Inbox) (userId : String) (row : Notification) :
    (view inbox userId row).position = some row.position := by
  simp only [Item.position, view, isoText, String.toList_ofList,
    DateTime.fromisoformat_isoformat, Option.map_some]
  rfl

/-- The page passes a position: it is after the cursor of the page and not after
the cursor the page gives. -/
def PageRead.Passes (read : PageRead) (position : Position) : Prop :=
  Below (cursorPosition read.cursor) position ∧
    Reached (cursorPosition read.page.nextCursor) position

theorem Describes.passes {userId : String} {kind : Option String} {unread : Option Bool}
    {read : PageRead} {reading : Reading Notification Position}
    (hdescribes : Describes userId kind unread read reading) {position : Position}
    (hcovers : reading.Covers position) : read.Passes position := by
  rw [PageRead.Passes, hdescribes.cursor, hdescribes.next, cursorPosition_map,
    cursorPosition_map]
  exact hcovers

/-- A complete session lists in descending order, lists no notification twice,
and lists every notification that existed when the first page was read and
matches when the page that passes it is read. -/
theorem cursors_list_each_once (userId : String) (kind : Option String) (unread : Option Bool)
    {inbox : Inbox} {schedule : List Session.Event} {session : Session}
    (hrun : run (Session.step userId kind unread) { inbox := inbox } schedule = some session)
    (hdone : session.next = none) :
    (∃ positions : List Position, session.items.map Item.position = positions.map some ∧
        positions.Pairwise fun first second => second < first) ∧
      (session.items.map Item.id).Nodup ∧
      (∀ first ∈ session.pages.head?, ∀ row ∈ first.inbox.rows,
        (∀ read ∈ session.pages, read.Passes row.position →
          ∀ later ∈ read.inbox.rows, later.id = row.id →
            matchesAt userId kind unread read.moment later = true) →
        (session.items.map Item.id).count row.id = 1) ∧
      ∀ createdAt id, decodeCursor (cursorText createdAt id) = .ok (createdAt, id) := by
  have hfollowed : Session.Followed userId kind unread session :=
    Session.followed_preserved.run (Session.followed_start inbox) hrun
  obtain ⟨readings, frontier, hkeyset, hpages, hnext⟩ := hfollowed.keyset
  have hfinished : frontier = none := by
    rw [hdone] at hnext
    exact Option.map_eq_none_iff.mp hnext.symm
  let listed := readings.flatMap Reading.items
  have hpositions : session.items.map Item.position =
      (listed.map Notification.position).map some := by
    rw [List.map_map]
    exact Session.map_items hpages fun inbox row => position_view inbox userId row
  have hids : session.items.map Item.id = listed.map Notification.id :=
    Session.map_items hpages fun _ _ => rfl
  have hsource : ∀ row ∈ listed, ∃ read ∈ session.pages, row ∈ read.inbox.rows := by
    intro row hrow
    obtain ⟨reading, hreading, hitem⟩ := List.mem_flatMap.mp hrow
    obtain ⟨read, hread, hdescribes⟩ := Session.exists_read hpages hreading
    have hrows := (((hkeyset.exact hreading).mem row).mp hitem).1
    exact ⟨read, hread, ((hdescribes.rows row).mp hrows).1⟩
  have hnodup : (session.items.map Item.id).Nodup := by
    rw [hids]
    apply List.pairwise_map.mpr
    apply hkeyset.sorted.imp_of_mem
    intro row other hrow hother hlt hid
    obtain ⟨first, hfirst, hfirstRow⟩ := hsource row hrow
    obtain ⟨second, hsecond, hsecondRow⟩ := hsource other hother
    exact hlt.ne' (hfollowed.position_eq hfirst hsecond hfirstRow hsecondRow hid)
  refine ⟨⟨_, hpositions, List.pairwise_map.mpr hkeyset.sorted⟩, hnodup, ?_,
    decodeCursor_cursorText⟩
  intro first hfirst row hrow hmatches
  apply List.count_eq_one_of_mem hnodup
  rcases hkeyset.covers row.position with ⟨after, hafter, -⟩ | ⟨reading, hreading, hcovers⟩
  · rw [hfinished] at hafter
    cases hafter
  · obtain ⟨read, hread, hdescribes⟩ := Session.exists_read hpages hreading
    obtain ⟨later, hlater, hid, hcreated⟩ := hfollowed.kept_first hfirst hread row hrow
    have hmatch := hmatches read hread (hdescribes.passes hcovers) later hlater hid
    have hposition : later.position = row.position := by
      rw [Notification.position, Notification.position, hid, hcreated]
    have hitem : later ∈ reading.items :=
      ((hkeyset.exact hreading).mem later).mpr
        ⟨(hdescribes.rows later).mpr ⟨hlater, hmatch⟩, hposition ▸ hcovers⟩
    rw [hids, ← hid]
    exact List.mem_map_of_mem (List.mem_flatMap.mpr ⟨reading, hreading, hitem⟩)

def Inbox.empty : Inbox := { rows := [], nodup := List.nodup_nil }

/-- A day of May 2024. -/
def mayDay (day : ℕ) (hday : 1 ≤ day ∧ day ≤ 31) : DateTime :=
  { date := { year := 2024, month := 5, day := day, year_mem := by decide,
              month_mem := by decide, day_mem := hday }
    time := Time.first }

/-- A notification of the user `ada`. -/
def adaDraft (id : String) (createdAt : DateTime) : Draft :=
  { id := id
    userId := "ada"
    kind := "system"
    eventKey := id
    titleKey := "title"
    bodyKey := "body"
    params := none
    resourceKind := none
    resourceId := none
    href := none
    createdAt := createdAt }

/-- Two pages of one item; a third notification comes and the second is read
between them. -/
def adaSession : List Session.Event :=
  [.operation (.stage (adaDraft "first" (mayDay 1 (by decide)))),
    .operation (.stage (adaDraft "second" (mayDay 1 (by decide)))),
    .readPage 1 (mayDay 3 (by decide)),
    .operation (.stage (adaDraft "third" (mayDay 3 (by decide)))),
    .operation (.markRead "ada" "first" (mayDay 3 (by decide))),
    .readPage 1 (mayDay 4 (by decide))]

theorem cursors_list_each_once_in_adaSession :
    ∃ session, run (Session.step "ada" none none) { inbox := Inbox.empty } adaSession =
        some session ∧
      session.items.map Item.id = ["second", "first"] ∧ (session.items.map Item.id).Nodup := by
  have hrun : (run (Session.step "ada" none none) { inbox := Inbox.empty }
      adaSession).isSome := by decide +kernel
  refine ⟨_, (Option.some_get hrun).symm, ?_, ?_⟩
  · decide +kernel +revert
  · have hdone : ((run (Session.step "ada" none none) { inbox := Inbox.empty }
        adaSession).get hrun).next = none := by decide +kernel +revert
    exact (cursors_list_each_once "ada" none none (Option.some_get hrun).symm hdone).2.1

/-- With the unread filter, a notification that is marked read before its page
is read is not listed, although it is neither cleared nor expired. -/
theorem read_between_pages_not_listed :
    ∃ session, run (Session.step "ada" none (some true)) { inbox := Inbox.empty }
        adaSession = some session ∧
      session.next = none ∧
      ∃ first ∈ session.pages.head?, ∃ row ∈ first.inbox.rows,
        matchesAt "ada" none (some true) first.moment row = true ∧
        (∀ read ∈ session.pages, ∀ later ∈ read.inbox.rows, later.id = row.id →
          visibleAt "ada" read.moment later = true) ∧
        row.id ∉ session.items.map Item.id := by
  have hrun : (run (Session.step "ada" none (some true)) { inbox := Inbox.empty }
      adaSession).isSome := by decide +kernel
  refine ⟨_, (Option.some_get hrun).symm, ?_, ?_⟩
  · decide +kernel +revert
  · decide +kernel +revert

end AlgorithmHarness.Notifications
