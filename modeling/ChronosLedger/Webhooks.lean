import ChronosLedger.ChangeFeed

namespace ChronosLedger.Webhooks
open ChangeFeed

-- The four event types are the pairs of a kind of row and a kind of change.
abbrev EventType := EntityKind × ChangeKind

def eventType (m : ChangeMarker) : EventType := (m.entityKind,m.changeKind)

-- A batch of markers fanned out at once: those after `since` up to `upTo`, with
-- the event types that were wanted then.
structure Crossing where
  since : Nat
  upTo : Nat
  wanted : List EventType
  deriving DecidableEq, Repr

-- The last two are not columns: the cursor the subscription was made with, and
-- the batches that moved it.
structure WebhookSubscription where
  id : Nat
  organizationId : String
  url : String
  eventTypes : List EventType
  active : Bool
  pausedAt : Option Int
  consecutiveFailures : Nat
  cursor : Nat
  secret : String
  previousSecret : Option String
  previousSecretExpiresAt : Option Int
  startCursor : Nat
  crossings : List Crossing
  deriving DecidableEq, Repr

inductive DeliveryStatus where
  | pending | succeeded | failed
  deriving DecidableEq, Repr

-- The body before it is written out as JSON.
structure Payload where
  type : EventType
  timestamp : Int
  markerId : Nat
  entity : Entity
  changeKind : ChangeKind
  at_ : Int
  row : Option Row
  deriving DecidableEq, Repr

-- The last is not a column: how many attempts there were when the delivery was
-- last redelivered. Event ids are drawn at random and are here just new.
structure WebhookDelivery where
  id : Nat
  organizationId : String
  subscriptionId : Nat
  markerId : Nat
  eventId : Nat
  eventType : EventType
  entity : Entity
  payload : Payload
  status : DeliveryStatus
  attemptCount : Nat
  nextAttemptAt : Option Int
  createdAt : Int
  completedAt : Option Int
  attemptsBefore : Nat
  deriving DecidableEq, Repr

-- The last is not a column: the claim whose send this was.
structure WebhookAttempt where
  deliveryId : Nat
  at_ : Int
  statusCode : Option Nat
  responseMs : Nat
  error : Option String
  responseExcerpt : Option String
  claim : Nat
  deriving DecidableEq, Repr

structure Outgoing where
  deliveryId : Nat
  subscriptionId : Nat
  url : String
  eventId : Nat
  payload : Payload
  secrets : List String
  lease : Int
  deriving DecidableEq, Repr

structure Outcome where
  statusCode : Option Nat
  responseMs : Nat
  error : Option String
  excerpt : Option String
  deriving DecidableEq, Repr

def Outcome.succeeded (outcome : Outcome) : Bool := outcome.statusCode.any (fun code => 200 ≤ code && code < 300)

-- How far a worker has come with what it claimed. What record reads before it
-- writes is the delivery's count and event id and the subscription's failures.
inductive Phase where
  | claimed
  | sent (outcome : Outcome)
  | read (outcome : Outcome) (attemptCount : Nat) (eventId : Nat) (failures : Nat) (now : Int)
  | over
  deriving DecidableEq, Repr

-- `replaced` is set once another claim of the delivery, or a redelivery, has
-- written over the lease of this one.
structure Claim where
  outgoing : Outgoing
  phase : Phase
  replaced : Bool
  deriving DecidableEq, Repr

-- Instants are microseconds.
def seconds (count : Int) : Int := count*1000000

def retryDelays : List Int := [seconds 5,seconds 300,seconds 1800,seconds 7200,seconds 18000,seconds 36000,seconds 36000]
def maxAttempts : Nat := retryDelays.length+1
def pauseAfterFailedDeliveries : Nat := 5
def claimLease : Int := seconds 60
def sendBatch : Nat := 50
def postgresCommitGrace : Int := seconds 5

-- The rows, the workers' claims, and what the receivers were sent, oldest first.
structure World where
  tables : FeedTables
  now : Int
  subscriptions : List WebhookSubscription
  deliveries : List WebhookDelivery
  attempts : List WebhookAttempt
  nextSubscription : Nat
  nextDelivery : Nat
  claims : List Claim
  received : List Outgoing

def subscriptionAt (s : World) (id : Nat) : Option WebhookSubscription := s.subscriptions.find? (fun sub => sub.id = id)
def deliveryAt (s : World) (id : Nat) : Option WebhookDelivery := s.deliveries.find? (fun d => d.id = id)

def setSubscription (s : World) (id : Nat) (f : WebhookSubscription → WebhookSubscription) : World :=
  {s with subscriptions := s.subscriptions.map (fun sub => if sub.id = id then f sub else sub)}

def setDelivery (s : World) (id : Nat) (f : WebhookDelivery → WebhookDelivery) : World :=
  {s with deliveries := s.deliveries.map (fun d => if d.id = id then f d else d)}

def live (sub : WebhookSubscription) : Bool := sub.active && sub.pausedAt.isNone

def previousSecretLive (sub : WebhookSubscription) (now : Int) : Bool :=
  sub.previousSecret.any (fun secret => secret ≠ "") && sub.previousSecretExpiresAt.all (fun expires => now < expires)

def signingSecrets (sub : WebhookSubscription) (now : Int) : List String :=
  sub.secret :: if previousSecretLive sub now then sub.previousSecret.toList else []

def buildPayload (m : ChangeMarker) (row : Option Row) : Payload := ⟨eventType m,m.at_,m.id,m.entity,m.changeKind,m.at_,row⟩

def newDelivery (now : Int) (sub : WebhookSubscription) (rows : List (Entity × Option Row)) (id : Nat) (m : ChangeMarker) : WebhookDelivery where
  id := id
  organizationId := sub.organizationId
  subscriptionId := sub.id
  markerId := m.id
  eventId := id
  eventType := eventType m
  entity := m.entity
  payload := buildPayload m (get rows m.entity)
  status := .pending
  attemptCount := 0
  nextAttemptAt := some now
  createdAt := now
  completedAt := none
  attemptsBefore := 0

def numbered {β : Type} (make : Nat → ChangeMarker → β) : Nat → List ChangeMarker → List β
  | _,[] => []
  | first,m :: rest => make first m :: numbered make (first+1) rest

-- The markers a pass takes for one subscription. On PostgreSQL it stops at the
-- first that is too young to trust.
def batchOf (s : World) (batch : Nat) (waits : Bool) (sub : WebhookSubscription) : List ChangeMarker :=
  ((Feeds.beyond ChangeMarker.id sub.cursor (markersOf sub.organizationId s.tables)).take batch).takeWhile
    (fun m => !(waits && decide (s.now-postgresCommitGrace < m.at_)))

def chosen (sub : WebhookSubscription) (markers : List ChangeMarker) : List ChangeMarker :=
  markers.filter (fun m => sub.eventTypes.contains (eventType m))

def moved (sub : WebhookSubscription) (last : ChangeMarker) : WebhookSubscription :=
  {sub with cursor := last.id,crossings := sub.crossings ++ [⟨sub.cursor,last.id,sub.eventTypes⟩]}

def fanOutTo (s : World) (batch : Nat) (waits : Bool) (sub : WebhookSubscription) : World :=
  let markers := batchOf s batch waits sub
  match markers.getLast? with
  | none => s
  | some last =>
    let rows := currentRows s.tables ((chosen sub markers).map ChangeMarker.entity)
    let made := numbered (newDelivery s.now sub rows) s.nextDelivery (chosen sub markers)
    {setSubscription s sub.id (fun sub => moved sub last) with
      deliveries := s.deliveries ++ made
      nextDelivery := s.nextDelivery+made.length}

-- One pass over the live subscriptions, without those another pass has locked.
def fanOutOne (batch : Nat) (waits : Bool) (locked : List Nat) (s : World) (id : Nat) : World :=
  match subscriptionAt s id with
  | some sub => if live sub && !locked.contains id then fanOutTo s batch waits sub else s
  | none => s

def fanOut (s : World) (batch : Nat) (waits : Bool) (locked : List Nat) : World :=
  (s.subscriptions.map WebhookSubscription.id).foldl (fanOutOne batch waits locked) s

def heldUp (s : World) (d : WebhookDelivery) : Bool :=
  s.deliveries.any (fun earlier => earlier.subscriptionId = d.subscriptionId ∧ earlier.entity = d.entity ∧ earlier.markerId < d.markerId ∧
    earlier.status = .pending)

def isDue (s : World) (d : WebhookDelivery) (sub : WebhookSubscription) : Bool :=
  d.status = .pending && d.nextAttemptAt.any (fun at_ => at_ ≤ s.now) && live sub && !heldUp s d

def dueJoin (s : World) (d : WebhookDelivery) : Option (WebhookDelivery × WebhookSubscription) :=
  (subscriptionAt s d.subscriptionId).bind (fun sub => if isDue s d sub then some (d,sub) else none)

def dueBefore (a b : WebhookDelivery × WebhookSubscription) : Bool :=
  a.1.nextAttemptAt.getD 0 < b.1.nextAttemptAt.getD 0 || a.1.nextAttemptAt.getD 0 = b.1.nextAttemptAt.getD 0 && a.1.id ≤ b.1.id

def dueRows (s : World) : List (WebhookDelivery × WebhookSubscription) :=
  ((s.deliveries.filterMap (dueJoin s)).insertionSort (fun a b => dueBefore a b = true)).take sendBatch

def outgoing (now : Int) (d : WebhookDelivery) (sub : WebhookSubscription) : Outgoing :=
  ⟨d.id,sub.id,sub.url,d.eventId,d.payload,signingSecrets sub now,now+claimLease⟩

def replace (ids : List Nat) (claim : Claim) : Claim := if claim.outgoing.deliveryId ∈ ids then {claim with replaced := true} else claim

def claimDue (s : World) : World :=
  let due := dueRows s
  let ids := due.map (fun row => row.1.id)
  {s with
    deliveries := s.deliveries.map (fun d => if d.id ∈ ids then {d with nextAttemptAt := some (s.now+claimLease)} else d)
    claims := s.claims.map (replace ids) ++ due.map (fun row => ⟨outgoing s.now row.1 row.2,.claimed,false⟩)}

def setPhase (s : World) (claim : Nat) (phase : Phase) : World :=
  {s with claims := s.claims.modify claim (fun claim => {claim with phase := phase})}

-- An answer is one the receiver gave, so what succeeded was received.
def send (s : World) (k : Nat) (outcome : Outcome) (arrives : Bool) : Option World :=
  match s.claims[k]? with
  | some ⟨outgoing,.claimed,_⟩ =>
    if outcome.succeeded && !arrives then none
    else some {setPhase s k (.sent outcome) with received := if arrives then s.received ++ [outgoing] else s.received}
  | _ => none

-- The wait a hash of the event id and the attempt draws, up to the ceiling.
def backoff (drawn : Nat → Nat → Nat) (eventId attempts : Nat) : Int :=
  min (drawn eventId attempts : Int) (retryDelays.getD (min attempts retryDelays.length-1) 0)

def recordRead (s : World) (k : Nat) : Option World :=
  match s.claims[k]? with
  | some ⟨outgoing,.sent outcome,_⟩ =>
    match deliveryAt s outgoing.deliveryId,subscriptionAt s outgoing.subscriptionId with
    | some d,some sub => some (setPhase s k (.read outcome d.attemptCount d.eventId sub.consecutiveFailures s.now))
    | _,_ => some (setPhase s k .over)
  | _ => none

variable (drawn : Nat → Nat → Nat)

def charged (outcome : Outcome) (attempts eventId : Nat) (now : Int) (d : WebhookDelivery) : WebhookDelivery :=
  if outcome.succeeded then {d with status := .succeeded,completedAt := some now,nextAttemptAt := none,attemptCount := attempts}
  else if maxAttempts ≤ attempts then {d with status := .failed,completedAt := some now,nextAttemptAt := none,attemptCount := attempts}
  else {d with nextAttemptAt := some (now+backoff drawn eventId attempts),attemptCount := attempts}

-- A success writes the count only where the subscription was read with another.
def counted (outcome : Outcome) (attempts failures : Nat) (now : Int) (sub : WebhookSubscription) : WebhookSubscription :=
  if outcome.succeeded then (if failures = 0 then sub else {sub with consecutiveFailures := 0})
  else if maxAttempts ≤ attempts then
    {sub with
      consecutiveFailures := sub.consecutiveFailures+1
      pausedAt := if pauseAfterFailedDeliveries ≤ sub.consecutiveFailures+1 ∧ sub.pausedAt = none then some now else sub.pausedAt}
  else sub

def stillHeld (lease : Int) (attemptCount : Nat) (d : WebhookDelivery) : Bool :=
  d.status = .pending && d.nextAttemptAt = some lease && d.attemptCount = attemptCount

def recordWrite (s : World) (k : Nat) : Option World :=
  match s.claims[k]? with
  | some ⟨outgoing,.read outcome attemptCount eventId failures now,_⟩ =>
    if (deliveryAt s outgoing.deliveryId).any (stillHeld outgoing.lease attemptCount) then
      let charged := setDelivery s outgoing.deliveryId (charged drawn outcome (attemptCount+1) eventId now)
      let counted := setSubscription charged outgoing.subscriptionId (counted outcome (attemptCount+1) failures now)
      some (setPhase {counted with
        attempts := s.attempts ++ [⟨outgoing.deliveryId,now,outcome.statusCode,outcome.responseMs,outcome.error,outcome.excerpt,k⟩]} k .over)
    else some (setPhase s k .over)
  | _ => none

def attemptsOf (s : World) (deliveryId : Nat) : List WebhookAttempt := s.attempts.filter (fun a => a.deliveryId = deliveryId)

def redeliver (s : World) (d : WebhookDelivery) : WebhookDelivery :=
  {d with
    status := .pending
    attemptCount := 0
    nextAttemptAt := some s.now
    completedAt := none
    attemptsBefore := (attemptsOf s d.id).length}

-- The organization's newest marker: the session that asks is one of its callers'.
def createWebhook (s : World) (organization url : String) (eventTypes : List EventType) (active : Bool) (secret : String) : World :=
  let cursor := latestMarkerId (markersOf organization s.tables)
  {s with
    subscriptions := s.subscriptions ++
      [⟨s.nextSubscription,organization,url,eventTypes,active,none,0,cursor,secret,none,none,cursor,[]⟩]
    nextSubscription := s.nextSubscription+1}

def updateWebhook (s : World) (id : Nat) (url : Option String) (eventTypes : Option (List EventType)) (active : Option Bool) : World :=
  setSubscription s id (fun sub => {sub with
    url := url.getD sub.url
    eventTypes := eventTypes.getD sub.eventTypes
    active := active.getD sub.active})

def deleteWebhook (s : World) (id : Nat) : World :=
  let gone := (s.deliveries.filter (fun d => d.subscriptionId = id)).map WebhookDelivery.id
  {s with
    attempts := s.attempts.filter (fun a => a.deliveryId ∉ gone)
    deliveries := s.deliveries.filter (fun d => d.subscriptionId ≠ id)
    subscriptions := s.subscriptions.filter (fun sub => sub.id ≠ id)}

def resumeWebhook (s : World) (id : Nat) : World := setSubscription s id (fun sub => {sub with pausedAt := none,consecutiveFailures := 0})

def redeliverWebhook (s : World) (subscriptionId deliveryId : Nat) : Option World :=
  if (deliveryAt s deliveryId).any (fun d => d.subscriptionId = subscriptionId) then
    some {setDelivery s deliveryId (redeliver s) with claims := s.claims.map (replace [deliveryId])}
  else none

-- An import pauses every subscription it gives a new secret; `pause` is that, on
-- one of them.
inductive Operation where
  | change (id : Nat) (at_ : Int) (change : RowChange)
  | advanceTo (instant : Int)
  | createWebhook (organization url : String) (eventTypes : List EventType) (active : Bool) (secret : String)
  | updateWebhook (id : Nat) (url : Option String) (eventTypes : Option (List EventType)) (active : Option Bool)
  | pause (id : Nat)
  | resumeWebhook (id : Nat)
  | deleteWebhook (id : Nat)
  | redeliverWebhook (subscriptionId deliveryId : Nat)
  | fanOut (batch : Nat) (waits : Bool) (locked : List Nat)
  | claimDue
  | send (claim : Nat) (outcome : Outcome) (arrives : Bool)
  | recordRead (claim : Nat)
  | recordWrite (claim : Nat)
  deriving DecidableEq, Repr

def step (s : World) : Operation → Option World
  | .change id at_ row => (change s.tables id at_ row).map (fun tables => {s with tables := tables})
  | .advanceTo instant => if s.now ≤ instant then some {s with now := instant} else none
  | .createWebhook organization url eventTypes active secret => some (createWebhook s organization url eventTypes active secret)
  | .updateWebhook id url eventTypes active => some (updateWebhook s id url eventTypes active)
  | .pause id => some (setSubscription s id (fun sub => {sub with pausedAt := some s.now}))
  | .resumeWebhook id => some (resumeWebhook s id)
  | .deleteWebhook id => some (deleteWebhook s id)
  | .redeliverWebhook subscriptionId deliveryId => redeliverWebhook s subscriptionId deliveryId
  | .fanOut batch waits locked => if 1 ≤ batch then some (fanOut s batch waits locked) else none
  | .claimDue => some (claimDue s)
  | .send claim outcome arrives => send s claim outcome arrives
  | .recordRead claim => recordRead s claim
  | .recordWrite claim => recordWrite drawn s claim

abbrev Steps : World → Operation → World → Prop := Runs.Acts (step drawn)

def World.start (resources : List ResourceRow) (reservations : List ReservationRow)
    (linked : ∀ held ∈ reservations, (resourceAt resources held.resourceId).isSome) (now : Int) : World :=
  ⟨⟨resources,reservations,[],linked⟩,now,[],[],[],1,1,[],[]⟩

end ChronosLedger.Webhooks
