import AlgorithmHarness.Core.LossyQueue
import AlgorithmHarness.Core.Transition
import Mathlib.Logic.Function.Basic

/-!
# The WebSocket feed of evaluation progress

One connection of `/ws/progress`: the endpoint's loop, the Redis channels that
workers publish to, and for each subscription the pump that fills its queue and
the forwarder that empties it.  They take their steps in any order.
-/

namespace AlgorithmHarness.ProgressFeed

open Transition LossyQueue

variable {Task User Message Event : Type*}

/-- `maxsize` of a subscription's queue. -/
def queueCapacity : ℕ := 200

/-- What the server sends after `connected`.  A snapshot stands for the evaluation's row
as a certain commit left it. -/
inductive Frame (Task Event : Type*) where
  | snapshot (task : Task) (version : ℕ)
  | event (task : Task) (event : Event)
  | subscribed (task : Task)
  | unsubscribed (task : Task)
  | pong

inductive Request (Task : Type*) where
  | ping
  | subscribe (task : Task)
  | unsubscribe (task : Task)
  | other

/-- `confirmed` is the number of messages that the channel had carried when Redis took
the SUBSCRIBE, and `registered` when the snapshot was read and the forwarder started. -/
structure Subscription (Message Event : Type*) where
  confirmed : Option ℕ := none
  transit : List Message := []
  listening : Bool := true
  queue : List Event := []
  registered : Option ℕ := none

/-- Where the endpoint is: it receives, has sent a SUBSCRIBE, or has sent a snapshot. -/
inductive Endpoint (Task : Type*) where
  | receiving
  | subscribing (task : Task)
  | announcing (task : Task)
  | closed

/-- `versions` counts the commits to an evaluation's row, and `published` has each message
with the commits made before it. -/
structure Feed (Task Message Event : Type*) where
  versions : Task → ℕ := fun _ => 0
  present : Task → Bool := fun _ => false
  published : Task → List (Message × ℕ) := fun _ => []
  subscriptions : Task → Option (Subscription Message Event) := fun _ => none
  frames : List (Frame Task Event) := []
  endpoint : Endpoint Task := .receiving

inductive Label (Task Message : Type*) where
  | commit (task : Task) (present : Bool)
  | publish (task : Task) (message : Message)
  | confirm (task : Task)
  | receive (request : Request Task)
  | read
  | announce
  | pump (task : Task)
  | forward (task : Task)
  | failListen (task : Task)
  | disconnect

namespace Subscription

/-- Redis hands a message to the subscribers it has. -/
def carry (subscription : Subscription Message Event) (message : Message) :
    Subscription Message Event :=
  if subscription.confirmed.isSome && subscription.listening then
    { subscription with transit := subscription.transit ++ [message] }
  else subscription

/-- A turn of `pump`. -/
def pump (decode : Message → Option Event) (subscription : Subscription Message Event) :
    Option (Subscription Message Event) :=
  match subscription.transit with
  | [] => none
  | message :: transit =>
      match decode message with
      | none => some { subscription with transit }
      | some event =>
          some { subscription with
            transit
            queue := push queueCapacity subscription.queue event }

end Subscription

namespace Feed

variable [DecidableEq Task] [DecidableEq User]

def send (feed : Feed Task Message Event) (frame : Frame Task Event) : Feed Task Message Event :=
  { feed with frames := feed.frames ++ [frame] }

def setSubscription (feed : Feed Task Message Event) (task : Task)
    (subscription : Option (Subscription Message Event)) : Feed Task Message Event :=
  { feed with subscriptions := Function.update feed.subscriptions task subscription }

def close (feed : Feed Task Message Event) : Feed Task Message Event :=
  { feed with subscriptions := fun _ => none, endpoint := .closed }

/-- What the endpoint does with a client's frame. -/
def receive (feed : Feed Task Message Event) : Request Task → Feed Task Message Event
  | .ping => feed.send .pong
  | .subscribe task =>
      if (feed.subscriptions task).isSome then feed.send (.subscribed task)
      else { feed.setSubscription task (some {}) with endpoint := .subscribing task }
  | .unsubscribe task => (feed.setSubscription task none).send (.unsubscribed task)
  | .other => feed

/-- `get_evaluation`, and the snapshot that is sent and forwarded from if it returns. -/
def readSnapshot (owner : Task → User) (user : User) (feed : Feed Task Message Event)
    (task : Task) (subscription : Subscription Message Event) : Feed Task Message Event :=
  if feed.present task && owner task = user then
    { (feed.setSubscription task (some { subscription with
        registered := some (feed.published task).length })).send
          (.snapshot task (feed.versions task)) with
      endpoint := .announcing task }
  else feed.close

def step (owner : Task → User) (user : User) (decode : Message → Option Event)
    (feed : Feed Task Message Event) : Label Task Message → Option (Feed Task Message Event)
  | .commit task present => some { feed with
      versions := Function.update feed.versions task (feed.versions task + 1)
      present := Function.update feed.present task present }
  | .publish task message => some { feed with
      published := Function.update feed.published task
        (feed.published task ++ [(message, feed.versions task)])
      subscriptions := Function.update feed.subscriptions task
        ((feed.subscriptions task).map (·.carry message)) }
  | .confirm task =>
      match feed.subscriptions task with
      | none => none
      | some subscription =>
          if subscription.confirmed.isSome then none
          else some (feed.setSubscription task (some { subscription with
            confirmed := some (feed.published task).length }))
  | .receive request =>
      match feed.endpoint with
      | .receiving => some (feed.receive request)
      | .subscribing _ | .announcing _ | .closed => none
  | .read =>
      match feed.endpoint with
      | .subscribing task => (feed.subscriptions task).map (feed.readSnapshot owner user task)
      | .receiving | .announcing _ | .closed => none
  | .announce =>
      match feed.endpoint with
      | .announcing task => some { feed.send (.subscribed task) with endpoint := .receiving }
      | .receiving | .subscribing _ | .closed => none
  | .pump task =>
      -- The pump has its first turn when the endpoint waits for the snapshot to be sent.
      match feed.subscriptions task with
      | none => none
      | some subscription =>
          if subscription.registered.isSome && subscription.listening then
            (subscription.pump decode).map fun next => feed.setSubscription task (some next)
          else none
  | .forward task =>
      match feed.subscriptions task with
      | none => none
      | some subscription =>
          match subscription.registered, subscription.queue with
          | some _, event :: queue =>
              some ((feed.setSubscription task (some { subscription with queue })).send
                (.event task event))
          | _, _ => none
  | .failListen task =>
      match feed.subscriptions task with
      | none => none
      | some subscription =>
          some (feed.setSubscription task (some { subscription with
            listening := false
            transit := [] }))
  | .disconnect => some feed.close

end Feed

/-! ## What the client sees -/

/-- What the client has of an evaluation it is subscribed to: the last snapshot and the
events after it. -/
structure View (Event : Type*) where
  version : Option ℕ := none
  events : List Event := []

section View

variable [DecidableEq Task]

def View.after (task : Task) (view : View Event) : Frame Task Event → View Event
  | .snapshot other version => if other = task then { version := some version } else view
  | .event other event =>
      if other = task then { view with events := view.events ++ [event] } else view
  | .unsubscribed other => if other = task then {} else view
  | .subscribed _ | .pong => view

def view (task : Task) (frames : List (Frame Task Event)) : View Event :=
  frames.foldl (View.after task) {}

theorem view_concat (task : Task) (frames : List (Frame Task Event)) (frame : Frame Task Event) :
    view task (frames ++ [frame]) = (view task frames).after task frame := by
  rw [view, List.foldl_append]
  rfl

/-- The frames that the client may get: of its own evaluations, and an event only while
it is subscribed, with a snapshot before. -/
def Permitted (owner : Task → User) (user : User) (before : List (Frame Task Event)) :
    Frame Task Event → Prop
  | .snapshot task _ => owner task = user
  | .event task _ => owner task = user ∧ (view task before).version.isSome = true
  | .subscribed _ | .unsubscribed _ | .pong => True

end View

/-! ## One subscription -/

/-- The messages of the channel since Redis took the SUBSCRIBE. -/
def Subscription.heard (subscription : Subscription Message Event)
    (published : List (Message × ℕ)) : List Message :=
  match subscription.confirmed with
  | none => []
  | some start => (published.drop start).map Prod.fst

/-- The client's view and the subscription account for the whole channel: the snapshot
for what was published before it was read, and the events, the queue and the messages
in transit for what Redis has handed over. -/
structure Tracked (decode : Message → Option Event) (published : List (Message × ℕ))
    (view : View Event) (subscription : Subscription Message Event) : Prop where
  confirmed : ∀ start, subscription.confirmed = some start → start ≤ published.length
  read : ∀ readAt, subscription.registered = some readAt → readAt ≤ published.length ∧
    ∃ version, view.version = some version ∧
      ∀ publication ∈ published.take readAt, publication.2 ≤ version
  account : ∃ pumped rest, pumped ++ rest = subscription.heard published ∧
    (subscription.listening = true → rest = subscription.transit) ∧
    Account queueCapacity (pumped.filterMap decode)
      (if subscription.registered.isSome then view.events else []) subscription.queue

namespace Tracked

variable {decode : Message → Option Event} {published : List (Message × ℕ)}
  {view : View Event} {subscription next : Subscription Message Event}

theorem fresh (decode : Message → Option Event) (published : List (Message × ℕ))
    (view : View Event) : Tracked decode published view {} where
  confirmed _ hconfirmed := by cases hconfirmed
  read _ hregistered := by cases hregistered
  account := ⟨[], [], rfl, fun _ => rfl, .empty _⟩

theorem publish (htracked : Tracked decode published view subscription)
    (message : Message) (version : ℕ) :
    Tracked decode (published ++ [(message, version)]) view (subscription.carry message) := by
  have hfields : (subscription.carry message).confirmed = subscription.confirmed ∧
      (subscription.carry message).registered = subscription.registered ∧
      (subscription.carry message).listening = subscription.listening ∧
      (subscription.carry message).queue = subscription.queue := by
    rw [Subscription.carry]
    split_ifs <;> exact ⟨rfl, rfl, rfl, rfl⟩
  obtain ⟨hconfirmed, hregistered, hlistening, hqueue⟩ := hfields
  have hlength : published.length ≤ (published ++ [(message, version)]).length := by
    rw [List.length_append]
    exact Nat.le_add_right _ _
  refine ⟨?_, ?_, ?_⟩
  · intro start hstart
    rw [hconfirmed] at hstart
    exact Nat.le_trans (htracked.confirmed start hstart) hlength
  · intro readAt hread
    rw [hregistered] at hread
    obtain ⟨hle, known, hknown, hcommits⟩ := htracked.read readAt hread
    refine ⟨Nat.le_trans hle hlength, known, hknown, ?_⟩
    rwa [List.take_append_of_le_length hle]
  · obtain ⟨pumped, rest, hheard, hrest, haccount⟩ := htracked.account
    rw [hregistered, hqueue, hlistening]
    cases hstart : subscription.confirmed with
    | none =>
        refine ⟨pumped, rest, ?_, ?_, haccount⟩
        · rw [hheard, Subscription.heard, Subscription.heard, hconfirmed, hstart]
        · intro hlistens
          rw [Subscription.carry, hstart]
          exact hrest hlistens
    | some start =>
        refine ⟨pumped, rest ++ [message], ?_, ?_, haccount⟩
        · rw [← List.append_assoc, hheard, Subscription.heard, Subscription.heard, hconfirmed,
            hstart]
          simp [List.drop_append_of_le_length (htracked.confirmed start hstart)]
        · intro hlistens
          rw [Subscription.carry, hstart, hlistens, hrest hlistens]
          rfl

theorem confirm (htracked : Tracked decode published view subscription)
    (hopen : subscription.confirmed = none) :
    Tracked decode published view { subscription with confirmed := some published.length } where
  confirmed start hstart := by
    cases hstart
    exact Nat.le_refl _
  read := htracked.read
  account := by
    obtain ⟨pumped, rest, hheard, hrest, haccount⟩ := htracked.account
    refine ⟨pumped, rest, ?_, hrest, haccount⟩
    rw [hheard, Subscription.heard, Subscription.heard, hopen]
    simp

theorem pump (htracked : Tracked decode published view subscription)
    (hlistening : subscription.listening = true)
    (hpump : subscription.pump decode = some next) : Tracked decode published view next := by
  obtain ⟨pumped, rest, hheard, hrest, haccount⟩ := htracked.account
  rw [Subscription.pump] at hpump
  split at hpump
  next => cases hpump
  next message transit htransit =>
    have hmoved : (pumped ++ [message]) ++ transit = subscription.heard published := by
      rw [← hheard, hrest hlistening, htransit, List.append_assoc]
      rfl
    split at hpump
    next hnone =>
      cases hpump
      refine ⟨htracked.confirmed, htracked.read, pumped ++ [message], transit, hmoved,
        fun _ => rfl, ?_⟩
      rw [List.filterMap_append, List.filterMap_cons_none hnone, List.filterMap_nil,
        List.append_nil]
      exact haccount
    next event hevent =>
      cases hpump
      refine ⟨htracked.confirmed, htracked.read, pumped ++ [message], transit, hmoved,
        fun _ => rfl, ?_⟩
      rw [List.filterMap_append, List.filterMap_cons_some hevent, List.filterMap_nil]
      exact haccount.push (by decide) event

theorem fail (htracked : Tracked decode published view subscription) :
    Tracked decode published view { subscription with listening := false, transit := [] } where
  confirmed := htracked.confirmed
  read := htracked.read
  account := by
    obtain ⟨pumped, rest, hheard, -, haccount⟩ := htracked.account
    exact ⟨pumped, rest, hheard, fun hlistening => (by cases hlistening), haccount⟩

/-- The snapshot begins the client's view anew. -/
theorem register (htracked : Tracked decode published view subscription)
    (hpending : subscription.registered = none) {version : ℕ}
    (hcommits : ∀ publication ∈ published, publication.2 ≤ version) :
    Tracked decode published { version := some version }
      { subscription with registered := some published.length } where
  confirmed := htracked.confirmed
  read readAt hread := by
    cases hread
    exact ⟨Nat.le_refl _, version, rfl, fun publication hmem =>
      hcommits publication (List.mem_of_mem_take hmem)⟩
  account := by
    obtain ⟨pumped, rest, hheard, hrest, haccount⟩ := htracked.account
    rw [hpending] at haccount
    exact ⟨pumped, rest, hheard, hrest, haccount⟩

theorem forward (htracked : Tracked decode published view subscription) {readAt : ℕ}
    (hregistered : subscription.registered = some readAt) {event : Event} {queue : List Event}
    (hqueue : subscription.queue = event :: queue) :
    Tracked decode published { view with events := view.events ++ [event] }
      { subscription with queue } where
  confirmed := htracked.confirmed
  read := htracked.read
  account := by
    obtain ⟨pumped, rest, hheard, hrest, haccount⟩ := htracked.account
    refine ⟨pumped, rest, hheard, hrest, ?_⟩
    rw [hregistered, hqueue] at haccount
    simp only [hregistered]
    exact haccount.pop

end Tracked

/-! ## The connection -/

section Connection

variable [DecidableEq Task] {owner : Task → User} {user : User}
  {decode : Message → Option Event} {feed next : Feed Task Message Event}

def Allowed (owner : Task → User) (user : User) (frames : List (Frame Task Event)) : Prop :=
  ∀ before frame, before ++ [frame] <+: frames → Permitted owner user before frame

theorem Allowed.concat {frames : List (Frame Task Event)} (hallowed : Allowed owner user frames)
    (frame : Frame Task Event) (hframe : Permitted owner user frames frame) :
    Allowed owner user (frames ++ [frame]) := by
  intro before other hprefix
  rcases List.prefix_concat_iff.mp hprefix with hlast | hearlier
  · obtain ⟨rfl, hsame⟩ := List.append_inj' hlast rfl
    obtain rfl : other = frame := List.singleton_inj.mp hsame
    exact hframe
  · exact hallowed before other hearlier

/-- A subscription as it may stand for its task. -/
structure Sound (owner : Task → User) (user : User) (decode : Message → Option Event)
    (feed : Feed Task Message Event) (task : Task)
    (subscription : Subscription Message Event) : Prop where
  pending : feed.endpoint = .subscribing task → subscription.registered = none
  owned : subscription.registered.isSome = true → owner task = user
  tracked : Tracked decode (feed.published task) (view task feed.frames) subscription

structure Feed.Valid (owner : Task → User) (user : User) (decode : Message → Option Event)
    (feed : Feed Task Message Event) : Prop where
  commits : ∀ task, ∀ publication ∈ feed.published task, publication.2 ≤ feed.versions task
  sound : ∀ task subscription, feed.subscriptions task = some subscription →
    Sound owner user decode feed task subscription
  allowed : Allowed owner user feed.frames

namespace Feed.Valid

theorem initial : ({} : Feed Task Message Event).Valid owner user decode where
  commits _ _ hmem := by cases hmem
  sound _ _ hsubscription := by cases hsubscription
  allowed before frame hprefix := by simp at hprefix

/-- What concerns one task leaves the subscriptions of the others sound. -/
theorem change (hvalid : feed.Valid owner user decode) (task : Task)
    (subscription : Option (Subscription Message Event)) (frames : List (Frame Task Event))
    (endpoint : Endpoint Task)
    (hviews : ∀ other, other ≠ task → view other frames = view other feed.frames)
    (hendpoint : ∀ other, other ≠ task → endpoint = .subscribing other →
      feed.endpoint = .subscribing other)
    (hallowed : Allowed owner user frames)
    (hsound : ∀ own, subscription = some own →
      Sound owner user decode { feed with frames, endpoint } task own) :
    ({ feed with
        subscriptions := Function.update feed.subscriptions task subscription
        frames, endpoint } : Feed Task Message Event).Valid owner user decode where
  commits := hvalid.commits
  allowed := hallowed
  sound other its hits := by
    by_cases hsame : other = task
    · subst hsame
      simp only [Function.update_self] at hits
      have hown := hsound its hits
      exact ⟨hown.pending, hown.owned, hown.tracked⟩
    · simp only [Function.update_of_ne hsame] at hits
      have hother := hvalid.sound other its hits
      refine ⟨fun hsubscribing => hother.pending (hendpoint other hsame hsubscribing),
        hother.owned, ?_⟩
      have htracked := hother.tracked
      rwa [← hviews other hsame] at htracked

/-- A step of a subscription that sends nothing. -/
theorem replace (hvalid : feed.Valid owner user decode) {task : Task}
    {before after : Subscription Message Event} (hbefore : feed.subscriptions task = some before)
    (hregistered : after.registered = before.registered)
    (htracked : Tracked decode (feed.published task) (view task feed.frames) after) :
    (feed.setSubscription task (some after)).Valid owner user decode := by
  refine hvalid.change task (some after) feed.frames feed.endpoint (fun _ _ => rfl)
    (fun _ _ => id) hvalid.allowed ?_
  intro own hown
  cases hown
  have hsound := hvalid.sound task before hbefore
  refine ⟨?_, ?_, htracked⟩
  · rw [hregistered]
    exact hsound.pending
  · rw [hregistered]
    exact hsound.owned

/-- A frame that says nothing of any evaluation. -/
theorem send (hvalid : feed.Valid owner user decode) (frame : Frame Task Event)
    (endpoint : Endpoint Task) (hframe : Permitted owner user feed.frames frame)
    (hview : ∀ task (view : View Event), view.after task frame = view)
    (hendpoint : ∀ task, endpoint ≠ .subscribing task) :
    ({ feed.send frame with endpoint } : Feed Task Message Event).Valid owner user decode where
  commits := hvalid.commits
  allowed := hvalid.allowed.concat frame hframe
  sound task subscription hsubscription := by
    have hsound := hvalid.sound task subscription hsubscription
    refine ⟨fun hsubscribing => absurd hsubscribing (hendpoint task), hsound.owned, ?_⟩
    have htracked := hsound.tracked
    rwa [← hview task (view task feed.frames), ← view_concat] at htracked

theorem close (hvalid : feed.Valid owner user decode) : feed.close.Valid owner user decode where
  commits := hvalid.commits
  allowed := hvalid.allowed
  sound _ _ hsubscription := by cases hsubscription

theorem commit (hvalid : feed.Valid owner user decode) (task : Task) (present : Bool) :
    ({ feed with
        versions := Function.update feed.versions task (feed.versions task + 1)
        present := Function.update feed.present task present } :
      Feed Task Message Event).Valid owner user decode where
  commits other publication hmem := by
    have hle := hvalid.commits other publication hmem
    by_cases hsame : other = task
    · subst hsame
      simp only [Function.update_self]
      exact Nat.le_succ_of_le hle
    · simpa only [Function.update_of_ne hsame] using hle
  allowed := hvalid.allowed
  sound other subscription hsubscription := by
    have hsound := hvalid.sound other subscription hsubscription
    exact ⟨hsound.pending, hsound.owned, hsound.tracked⟩

theorem publish (hvalid : feed.Valid owner user decode) (task : Task) (message : Message) :
    ({ feed with
        published := Function.update feed.published task
          (feed.published task ++ [(message, feed.versions task)])
        subscriptions := Function.update feed.subscriptions task
          ((feed.subscriptions task).map (·.carry message)) } :
      Feed Task Message Event).Valid owner user decode where
  commits other publication hmem := by
    by_cases hsame : other = task
    · subst hsame
      simp only [Function.update_self, List.mem_append, List.mem_singleton] at hmem
      rcases hmem with hearlier | rfl
      · exact hvalid.commits other publication hearlier
      · exact Nat.le_refl _
    · simp only [Function.update_of_ne hsame] at hmem
      exact hvalid.commits other publication hmem
  allowed := hvalid.allowed
  sound other subscription hsubscription := by
    by_cases hsame : other = task
    · subst hsame
      simp only [Function.update_self] at hsubscription
      obtain ⟨earlier, hearlier, rfl⟩ := Option.map_eq_some_iff.mp hsubscription
      have hsound := hvalid.sound other earlier hearlier
      have hregistered : (earlier.carry message).registered = earlier.registered := by
        rw [Subscription.carry]
        split_ifs <;> rfl
      refine ⟨?_, ?_, ?_⟩
      · rw [hregistered]
        exact hsound.pending
      · rw [hregistered]
        exact hsound.owned
      · simp only [Function.update_self]
        exact hsound.tracked.publish message _
    · simp only [Function.update_of_ne hsame] at hsubscription
      have hsound := hvalid.sound other subscription hsubscription
      refine ⟨hsound.pending, hsound.owned, ?_⟩
      simp only [Function.update_of_ne hsame]
      exact hsound.tracked

theorem receive (hvalid : feed.Valid owner user decode) (hreceiving : feed.endpoint = .receiving)
    (request : Request Task) : (feed.receive request).Valid owner user decode := by
  have hendpoint : ∀ task, feed.endpoint ≠ .subscribing task := by
    intro task hsubscribing
    cases hreceiving.symm.trans hsubscribing
  cases request with
  | ping => exact hvalid.send .pong feed.endpoint trivial (fun _ _ => rfl) hendpoint
  | subscribe task =>
      rw [Feed.receive]
      split_ifs
      · exact hvalid.send (.subscribed task) feed.endpoint trivial (fun _ _ => rfl) hendpoint
      · refine hvalid.change task (some {}) feed.frames (.subscribing task) (fun _ _ => rfl)
          ?_ hvalid.allowed ?_
        · intro other hother hsubscribing
          cases hsubscribing
          exact absurd rfl hother
        · intro own hown
          cases hown
          exact ⟨fun _ => rfl, fun hregistered => (by cases hregistered), .fresh _ _ _⟩
  | unsubscribe task =>
      refine hvalid.change task none (feed.frames ++ [.unsubscribed task]) feed.endpoint
        ?_ (fun _ _ => id) (hvalid.allowed.concat (.unsubscribed task) trivial)
        (fun own hown => by cases hown)
      intro other hother
      rw [view_concat]
      exact if_neg (Ne.symm hother)
  | other => exact hvalid

theorem forward (hvalid : feed.Valid owner user decode) {task : Task}
    {subscription : Subscription Message Event} {readAt : ℕ} {event : Event}
    {queue : List Event} (hsubscription : feed.subscriptions task = some subscription)
    (hregistered : subscription.registered = some readAt)
    (hqueue : subscription.queue = event :: queue) :
    ((feed.setSubscription task (some { subscription with queue })).send
      (.event task event)).Valid owner user decode := by
  have hsound := hvalid.sound task subscription hsubscription
  have howned := hsound.owned (by rw [hregistered]; rfl)
  obtain ⟨-, version, hversion, -⟩ := hsound.tracked.read readAt hregistered
  refine hvalid.change task _ (feed.frames ++ [.event task event]) feed.endpoint ?_
    (fun _ _ => id) (hvalid.allowed.concat (.event task event) ⟨howned, by rw [hversion]; rfl⟩) ?_
  · intro other hother
    rw [view_concat]
    exact if_neg (Ne.symm hother)
  · intro own hown
    cases hown
    refine ⟨hsound.pending, fun _ => howned, ?_⟩
    simp only [view_concat, View.after, if_true]
    exact hsound.tracked.forward hregistered hqueue

theorem readSnapshot [DecidableEq User] (hvalid : feed.Valid owner user decode) {task : Task}
    {subscription : Subscription Message Event}
    (hsubscription : feed.subscriptions task = some subscription)
    (hpending : feed.endpoint = .subscribing task) :
    (feed.readSnapshot owner user task subscription).Valid owner user decode := by
  rw [Feed.readSnapshot]
  split_ifs with hfound
  · have howned : owner task = user := by
      rw [Bool.and_eq_true, decide_eq_true_eq] at hfound
      exact hfound.2
    have hsound := hvalid.sound task subscription hsubscription
    refine hvalid.change task _ (feed.frames ++ [.snapshot task (feed.versions task)])
      (.announcing task) ?_ (fun _ _ hannouncing => by cases hannouncing)
      (hvalid.allowed.concat (.snapshot task _) howned) ?_
    · intro other hother
      rw [view_concat]
      exact if_neg (Ne.symm hother)
    · intro own hown
      cases hown
      refine ⟨fun hannouncing => (by cases hannouncing), fun _ => howned, ?_⟩
      simp only [view_concat, View.after, if_true]
      exact hsound.tracked.register (hsound.pending hpending) (hvalid.commits task)
  · exact hvalid.close

end Feed.Valid

variable [DecidableEq User]

theorem valid_preserved (owner : Task → User) (user : User) (decode : Message → Option Event) :
    Preserved (Feed.step owner user decode) (Feed.Valid owner user decode) := by
  intro feed label next hvalid hstep
  cases label with
  | commit task present =>
      cases hstep
      exact hvalid.commit task present
  | publish task message =>
      cases hstep
      exact hvalid.publish task message
  | confirm task =>
      rw [Feed.step] at hstep
      split at hstep
      next => cases hstep
      next subscription hsubscription =>
        split_ifs at hstep with hconfirmed
        cases hstep
        have hopen := Option.not_isSome_iff_eq_none.mp hconfirmed
        exact hvalid.replace hsubscription rfl
          ((hvalid.sound task subscription hsubscription).tracked.confirm hopen)
  | receive request =>
      rw [Feed.step] at hstep
      split at hstep
      next hreceiving =>
        cases hstep
        exact hvalid.receive hreceiving request
      next => cases hstep
      next => cases hstep
      next => cases hstep
  | read =>
      rw [Feed.step] at hstep
      split at hstep
      next task hpending =>
        obtain ⟨subscription, hsubscription, rfl⟩ := Option.map_eq_some_iff.mp hstep
        exact hvalid.readSnapshot hsubscription hpending
      next => cases hstep
      next => cases hstep
      next => cases hstep
  | announce =>
      rw [Feed.step] at hstep
      split at hstep
      next task _ =>
        cases hstep
        exact hvalid.send (.subscribed task) .receiving trivial (fun _ _ => rfl)
          (fun _ hreceiving => by cases hreceiving)
      next => cases hstep
      next => cases hstep
      next => cases hstep
  | pump task =>
      rw [Feed.step] at hstep
      split at hstep
      next => cases hstep
      next subscription hsubscription =>
        split_ifs at hstep with hturn
        obtain ⟨after, hafter, rfl⟩ := Option.map_eq_some_iff.mp hstep
        rw [Bool.and_eq_true] at hturn
        have htracked := (hvalid.sound task subscription hsubscription).tracked
        have hregistered : after.registered = subscription.registered := by
          rw [Subscription.pump] at hafter
          split at hafter
          · cases hafter
          · split at hafter <;> cases hafter <;> rfl
        exact hvalid.replace hsubscription hregistered (htracked.pump hturn.2 hafter)
  | forward task =>
      rw [Feed.step] at hstep
      split at hstep
      next => cases hstep
      next subscription hsubscription =>
        split at hstep
        next readAt event queue hregistered hqueue =>
          cases hstep
          exact hvalid.forward hsubscription hregistered hqueue
        next => cases hstep
  | failListen task =>
      rw [Feed.step] at hstep
      split at hstep
      next => cases hstep
      next subscription hsubscription =>
        cases hstep
        exact hvalid.replace hsubscription rfl
          (hvalid.sound task subscription hsubscription).tracked.fail
  | disconnect =>
      cases hstep
      exact hvalid.close

/-- In every order of commits, publications and turns of pump, forwarder and endpoint, the
client of a running subscription can account for the channel.  The snapshot shows the
commits behind every message from before it was read.  Of the messages since Redis took the
SUBSCRIBE, in their order, an event was sent, or waits in the queue, or was dropped for at
least 200 later ones, and what the pump has not seen is in transit while it listens. -/
theorem feed_accounts_for_channel {owner : Task → User} {user : User}
    {decode : Message → Option Event} {feed : Feed Task Message Event}
    (hreach : Reachable (Feed.step owner user decode) {} feed) {task : Task}
    {subscription : Subscription Message Event} {readAt : ℕ}
    (hsubscription : feed.subscriptions task = some subscription)
    (hregistered : subscription.registered = some readAt) :
    (∃ version, (view task feed.frames).version = some version ∧
        ∀ publication ∈ (feed.published task).take readAt, publication.2 ≤ version) ∧
      ∃ pumped rest, pumped ++ rest = subscription.heard (feed.published task) ∧
        (subscription.listening = true → rest = subscription.transit) ∧
        Account queueCapacity (pumped.filterMap decode) (view task feed.frames).events
          subscription.queue := by
  have hvalid := (valid_preserved owner user decode).reachable Feed.Valid.initial hreach
  have htracked := (hvalid.sound task subscription hsubscription).tracked
  obtain ⟨pumped, rest, hheard, hrest, haccount⟩ := htracked.account
  rw [hregistered] at haccount
  exact ⟨(htracked.read readAt hregistered).2, pumped, rest, hheard, hrest, haccount⟩

/-- A client subscribes between two messages, and the second waits for it. -/
def watchedRun : List (Label ℕ ℕ) :=
  [.commit 7 true, .publish 7 1, .receive (.subscribe 7), .confirm 7, .publish 7 2, .read,
    .pump 7, .announce, .forward 7]

theorem watchedRun_final : ∃ feed,
    run (Feed.step (fun _ => 3) 3 some) {} watchedRun = some feed ∧
      feed.subscriptions 7 = some { confirmed := some 1, registered := some 2 } ∧
      feed.frames = [.snapshot 7 1, .subscribed 7, .event 7 2] ∧
      feed.published 7 = [(1, 1), (2, 1)] :=
  ⟨_, rfl, rfl, rfl, rfl⟩

theorem feed_accounts_for_channel_watched :
    ∃ version, (view 7 [Frame.snapshot 7 1, .subscribed 7, .event 7 2]).version = some version ∧
      ∀ publication ∈ [(1, 1), (2, 1)].take 2, publication.2 ≤ version := by
  obtain ⟨feed, hrun, hsubscription, hframes, hpublished⟩ := watchedRun_final
  have haccounts := (feed_accounts_for_channel ⟨_, hrun⟩ hsubscription rfl).1
  rwa [hframes, hpublished] at haccounts

/-- Whatever the client asks for, it only gets snapshots and events of its user's own
evaluations, and an event only between a snapshot and the end of that subscription. -/
theorem frames_of_own_evaluations {owner : Task → User} {user : User}
    {decode : Message → Option Event} {feed : Feed Task Message Event}
    (hreach : Reachable (Feed.step owner user decode) {} feed)
    {before : List (Frame Task Event)} {frame : Frame Task Event}
    (hsent : before ++ [frame] <+: feed.frames) : Permitted owner user before frame :=
  ((valid_preserved owner user decode).reachable Feed.Valid.initial hreach).allowed
    before frame hsent

theorem frames_of_own_evaluations_watched :
    Permitted (fun _ => 3) 3 [Frame.snapshot 7 1, .subscribed 7] (.event 7 2) := by
  obtain ⟨feed, hrun, -, hframes, -⟩ := watchedRun_final
  have hsent : [.snapshot 7 1, .subscribed 7] ++ [.event 7 2] <+: feed.frames := by
    rw [hframes]
    exact List.prefix_refl _
  exact frames_of_own_evaluations ⟨_, hrun⟩ hsent

end Connection

end AlgorithmHarness.ProgressFeed
