import AlgorithmHarness.Core.Base64
import AlgorithmHarness.Core.IsoFormat
import AlgorithmHarness.Core.Json
import AlgorithmHarness.Core.Keyset
import AlgorithmHarness.Core.Table
import AlgorithmHarness.Redaction.Secrets
import Mathlib.Data.String.Basic

/-!
# In-app notifications

`NotificationService` lists one user's notifications page by page and marks
them read or cleared; other parts of the API stage new ones.  Event rows are
never deleted.  The rows of other tables that a notification links to are seen
only by their owner.
-/

namespace AlgorithmHarness.Notifications

open Calendar
open Keyset (descending)
open Pattern
open Redaction (sameIgnoringCase)
open Table

/-- `KINDS` -/
inductive Kind where
  | taskCompleted
  | budgetAlert
  | system
  deriving DecidableEq, Repr

def Kind.text : Kind → String
  | .taskCompleted => "task_completed"
  | .budgetAlert => "budget_alert"
  | .system => "system"

def Kind.ofText (text : String) : Option Kind :=
  [.taskCompleted, .budgetAlert, .system].find? fun kind => kind.text = text

/-- The tables a notification can link to. -/
inductive ResourceKind where
  | evaluation
  | experiment
  | benchmark
  | abTest
  deriving DecidableEq, Repr

def ResourceKind.ofText : String → Option ResourceKind
  | "evaluation" => some .evaluation
  | "experiment" => some .experiment
  | "benchmark" => some .benchmark
  | "ab_test" => some .abTest
  | _ => none

/-- A row of `in_app_notifications`. -/
structure Notification where
  id : String
  userId : String
  kind : Kind
  eventKey : String
  titleKey : String
  bodyKey : String
  params : Option (List (String × Json)) := none
  createdAt : DateTime
  readAt : Option DateTime := none
  clearedAt : Option DateTime := none
  resourceKind : Option String := none
  resourceId : Option String := none
  href : Option String := none

/-- The notifications, and the `user_id` of the rows they link to. -/
structure Inbox where
  rows : List Notification := []
  owner : ResourceKind → String → Option String := fun _ _ => none
  nodup : (rows.map Notification.id).Nodup

inductive NotificationError where
  | valueError (message : String)
  | overflowError
  | integrityError
  | notFound (id : String)
  deriving DecidableEq, Repr

/-! ## Parameters -/

/-- `SAFE_PARAM_KEYS` -/
def safeParamKeys : List String :=
  ["entity_id", "completed_count", "failed_count", "total_count", "threshold_pct", "used_usd",
    "cap_usd"]

/-- `_SECRET` -/
def secretPattern : Matcher (List Char) :=
  let spelled := fun text : String => word sameIgnoringCase text.toList
  let apiKey := andThen (spelled "api") fun api =>
    andThen (optional fun c => c = '_' || c = '-') fun separator =>
    andThen (spelled "key") fun key => done (api ++ separator ++ key)
  let url := andThen (spelled "http") fun http =>
    andThen (optional (sameIgnoringCase 's')) fun secure =>
    andThen (spelled "://") fun separator => done (http ++ secure ++ separator)
  orElse (spelled "sk-") (orElse (spelled "bearer") (orElse apiKey (orElse (spelled "secret")
    (orElse (spelled "password") (orElse (spelled "smtp") url)))))

/-- `_SECRET.search(value)` -/
def hasSecret (value : String) : Bool :=
  value.toList.tails.any fun text => !(secretPattern text).isEmpty

/-- A value `sanitize_params` keeps. -/
def isSafeValue : Json → Bool
  | .num _ => true
  | .str value => 0 < value.length && value.length ≤ 64 && !hasSecret value
  | _ => false

/-- `sanitize_params` -/
def sanitizeParams (params : Option (List (String × Json))) : List (String × Json) :=
  (params.getD []).filter fun (key, value) => key ∈ safeParamKeys && isSafeValue value

/-! ## Positions and cursors -/

/-- `(created_at, id)` in the order of the listing. -/
abbrev Position := DateTime ×ₗ String

def Notification.position (row : Notification) : Position := toLex (row.createdAt, row.id)

/-- The text of a `datetime` in an answer: `_iso`. -/
def isoText (moment : DateTime) : String := String.ofList moment.isoformat

/-- `text.encode()` -/
def utf8 (text : String) : List UInt8 := text.toByteArray.data.toList

/-- `bytes.decode()`; `none` is its `UnicodeError`. -/
def ofUtf8 (bytes : List UInt8) : Option String := String.fromUTF8? ⟨bytes.toArray⟩

/-- The cursor of a position. -/
def cursorText (createdAt : DateTime) (id : String) : String :=
  String.ofList (Base64.stripPadding (Base64.encode (utf8 (isoText createdAt ++ "|" ++ id))))

/-- `_encode_cursor` -/
def encodeCursor (row : Notification) : String := cursorText row.createdAt row.id

/-- `text.split("|", 1)` with two parts. -/
def splitBar (text : String) : Option (List Char × String) :=
  match text.toList.span (· ≠ '|') with
  | (_, []) => none
  | (stamp, _ :: id) => some (stamp, String.ofList id)

/-- `_decode_cursor`; the table compares the fields of the datetime, without
its offset. -/
def decodeCursor (cursor : String) : Except NotificationError (DateTime × String) :=
  let padded := cursor.toList ++ Base64.padding cursor.length
  let position := do
    let bytes ← Base64.decode padded
    let text ← ofUtf8 bytes
    let (stamp, id) ← splitBar text
    let (moment, _) ← DateTime.fromisoformat stamp
    return (moment, id)
  match position with
  | some position => .ok position
  | none => .error (.valueError "invalid cursor")

/-! ## Listing -/

/-- `moment - RETENTION` -/
def retentionFloor (moment : DateTime) : Except NotificationError DateTime :=
  match moment.subDays 90 with
  | some floor => .ok floor
  | none => .error .overflowError

/-- The condition of `_visible`. -/
def isVisible (userId : String) (floor : DateTime) (row : Notification) : Bool :=
  row.userId = userId && row.clearedAt.isNone && floor ≤ row.createdAt

/-- `_count_unread` -/
def countUnread (userId : String) (floor : DateTime) (inbox : Inbox) : ℕ :=
  inbox.rows.countP fun row => isVisible userId floor row && row.readAt.isNone

/-- `_resource` -/
def resource (inbox : Inbox) (userId : String) (row : Notification) : Bool × Option String :=
  if row.resourceKind = some "budget" then
    (true, some ((row.href.filter (· ≠ "")).getD "/settings/budgets"))
  else
    match row.resourceKind.bind ResourceKind.ofText, row.resourceId.filter (· ≠ "") with
    | some kind, some id =>
        if inbox.owner kind id = some userId then (true, row.href) else (false, none)
    | _, _ => (false, none)

/-- What `_view` returns. -/
structure Item where
  id : String
  kind : String
  titleKey : String
  bodyKey : String
  params : List (String × Json)
  createdAt : String
  read : Bool
  href : Option String
  resourceAvailable : Bool
  unavailableReason : Option String

/-- `_view` -/
def view (inbox : Inbox) (userId : String) (row : Notification) : Item :=
  let (available, href) := resource inbox userId row
  { id := row.id
    kind := row.kind.text
    titleKey := row.titleKey
    bodyKey := row.bodyKey
    params := sanitizeParams row.params
    createdAt := isoText row.createdAt
    read := row.readAt.isSome
    href := if available then href else none
    resourceAvailable := available
    unavailableReason := if available then none else some "resource_unavailable" }

/-- What `list_notifications` returns. -/
structure Page where
  items : List Item
  nextCursor : Option String
  unreadCount : ℕ
  serverTime : String

/-- The check of the `kind` parameter. -/
def checkKind (kind : Option String) : Except NotificationError (Option Kind) :=
  match kind with
  | none => .ok none
  | some text =>
      match Kind.ofText text with
      | some kind => .ok (some kind)
      | none => .error (.valueError s!"unsupported notification kind: {text}")

/-- The read-state condition of the listing. -/
def readMatches (unread : Option Bool) (row : Notification) : Bool :=
  match unread with
  | none => true
  | some true => row.readAt.isNone
  | some false => row.readAt.isSome

/-- The condition of a cursor. -/
def comesAfter (after : DateTime × String) (row : Notification) : Bool :=
  row.createdAt < after.1 || (row.createdAt = after.1 && row.id < after.2)

/-- The position of a cursor; an empty cursor is no cursor. -/
def readCursor (cursor : Option String) : Except NotificationError (Option (DateTime × String)) :=
  match cursor.filter (· ≠ "") with
  | none => .ok none
  | some cursor => (decodeCursor cursor).map some

/-- `page_size` -/
def pageSize (limit : ℤ) : ℕ := (min (max limit 1) 50).toNat

/-- `list_notifications` -/
def listNotifications (userId : String) (limit : ℤ) (cursor kind : Option String)
    (unread : Option Bool) (moment : DateTime) (inbox : Inbox) :
    Except NotificationError Page := do
  let kind ← checkKind kind
  let floor ← retentionFloor moment
  let after ← readCursor cursor
  let rows := inbox.rows.filter fun row =>
    isVisible userId floor row && kind.all (row.kind = ·) && readMatches unread row &&
      after.all (comesAfter · row)
  let found := (descending Notification.position rows).take (pageSize limit + 1)
  let shown := found.take (pageSize limit)
  return {
    items := shown.map (view inbox userId)
    nextCursor := if pageSize limit < found.length then shown.getLast?.map encodeCursor else none
    unreadCount := countUnread userId floor inbox
    serverTime := isoText moment }

/-! ## Writing -/

/-- The arguments of `stage_notification`, and the identifier it draws. -/
structure Draft where
  id : String
  userId : String
  kind : String
  eventKey : String
  titleKey : String
  bodyKey : String
  params : Option (List (String × Json))
  resourceKind : Option String
  resourceId : Option String
  href : Option String
  createdAt : DateTime

/-- The row `stage_notification` adds. -/
def Draft.row (draft : Draft) (kind : Kind) : Notification :=
  { id := draft.id
    userId := draft.userId
    kind := kind
    eventKey := draft.eventKey
    titleKey := draft.titleKey
    bodyKey := draft.bodyKey
    params := some (sanitizeParams draft.params)
    createdAt := draft.createdAt
    resourceKind := draft.resourceKind
    resourceId := draft.resourceId
    href := draft.href }

/-- `stage_notification` -/
def stageNotification (draft : Draft) (inbox : Inbox) : Except NotificationError Inbox :=
  match Kind.ofText draft.kind with
  | none => .error (.valueError s!"unsupported notification kind: {draft.kind}")
  | some kind =>
      if inbox.rows.any fun row => row.userId = draft.userId && row.eventKey = draft.eventKey then
        .ok inbox
      else if hfresh : draft.id ∈ inbox.rows.map Notification.id then .error .integrityError
      else
        .ok
          { inbox with
            rows := inbox.rows ++ [draft.row kind]
            nodup := by
              rw [List.map_append, List.nodup_append]
              refine ⟨inbox.nodup, List.nodup_singleton _, ?_⟩
              intro id hid other hother hsame
              rw [List.map_singleton, List.mem_singleton] at hother
              rw [hsame, hother] at hid
              exact hfresh hid }

/-- `UPDATE in_app_notifications` of a column that is not the key. -/
def Inbox.updateRows (inbox : Inbox) (condition : Notification → Bool)
    (change : Notification → Notification) (hkept : ∀ row, (change row).id = row.id) : Inbox :=
  { inbox with
    rows := updateWhere condition change inbox.rows
    nodup := by
      rw [map_updateWhere hkept]
      exact inbox.nodup }

/-- `mark_read` -/
def markRead (userId noteId : String) (moment : DateTime) (inbox : Inbox) :
    Except NotificationError Inbox := do
  let floor ← retentionFloor moment
  if inbox.rows.any fun row => isVisible userId floor row && row.id = noteId then
    return inbox.updateRows (fun row => row.id = noteId && row.readAt.isNone)
      (fun row => { row with readAt := some moment }) fun _ => rfl
  else .error (.notFound noteId)

/-- The rows of `_batch`. -/
def inBatch (userId : String) (cutoff floor : DateTime) (row : Notification) : Bool :=
  isVisible userId floor row && row.createdAt ≤ cutoff

/-- `mark_all_read` -/
def markAllRead (userId : String) (before : Option DateTime) (moment : DateTime) (inbox : Inbox) :
    Except NotificationError Inbox := do
  let floor ← retentionFloor moment
  return inbox.updateRows
    (fun row => inBatch userId ((before.map (min · moment)).getD moment) floor row &&
      row.readAt.isNone)
    (fun row => { row with readAt := some moment }) fun _ => rfl

/-- `clear` -/
def clear (userId : String) (before : Option DateTime) (moment : DateTime) (inbox : Inbox) :
    Except NotificationError Inbox := do
  let floor ← retentionFloor moment
  return inbox.updateRows
    (inBatch userId ((before.map (min · moment)).getD moment) floor)
    (fun row => { row with clearedAt := some moment }) fun _ => rfl

/-- What may happen to the tables between two pages. -/
inductive Operation where
  | stage (draft : Draft)
  | markRead (userId noteId : String) (moment : DateTime)
  | markAllRead (userId : String) (before : Option DateTime) (moment : DateTime)
  | clear (userId : String) (before : Option DateTime) (moment : DateTime)
  /-- The rows of other tables come and go. -/
  | changeOwners (owner : ResourceKind → String → Option String)

def Operation.apply (inbox : Inbox) : Operation → Except NotificationError Inbox
  | .stage draft => stageNotification draft inbox
  | .markRead userId noteId moment => Notifications.markRead userId noteId moment inbox
  | .markAllRead userId before moment => Notifications.markAllRead userId before moment inbox
  | .clear userId before moment => Notifications.clear userId before moment inbox
  | .changeOwners owner => .ok { inbox with owner := owner }

end AlgorithmHarness.Notifications
