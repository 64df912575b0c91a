import ChronosLedger.Requirements

namespace ChronosLedger
open Spans

def alreadyTakenMessage : String := "the resource is already taken for part of that window"
def notYourHold : String := "only the caller that took a hold may cancel it"
def refTakenMessage : String := "a reservation of yours already has that external_ref"
def poolFull : String := "the resource does not have that many units left for that window"
def oneOfIt : String := "quantity above 1 needs a POOLED resource"
def wouldNotFitMessage : String := "bookings still to come would not fit the resource after that change"
def poolNeedsCapacity : String := "a POOLED resource needs a capacity of at least 1"
def keyReused : String := "that Idempotency-Key was used for a different request"
def rangeBackwards : String := "from must not be after to"
def maxRangeDays : Int := 366
def rangeTooLong : String := s!"the range must not exceed {maxRangeDays} days"

-- The two fields at the end are the schema's own checks of a body.
structure ReservationCreate where
  date : Int
  start : Time
  finish : Time
  purpose : String
  sentQuantity : Option Nat
  externalRef : Option String
  assignments : List (String × List Nat)
  window : finish ≠ start
  units : 1 ≤ sentQuantity.getD 1
  deriving Repr

def ReservationCreate.quantity (payload : ReservationCreate) : Nat := payload.sentQuantity.getD 1

def ReservationCreate.asked (payload : ReservationCreate) : Window := ⟨payload.date,payload.start,payload.finish⟩

-- A field left out is the outer none; a null sent is the inner one.
structure ResourceUpdate where
  capacity : Option (Option Nat)
  mode : Option ResourceMode
  active : Option (Option Bool)
  deriving DecidableEq, Repr

structure BookingView where
  reservation : Reservation
  children : List Reservation
  unmet : List UnmetRequirement
  replayed : Bool
  deriving DecidableEq, Repr

variable (cal : Recurrence) (sha256 strip : String → String)

-- The busy list of one resource over a range. The mode decides which holds are
-- in it: each of them, where they add up to the capacity, or none.
def busyList (db : Database) (resource : Resource) (fromDate toDate : Int) : List BusyInterval :=
  let holds := heldReservations db resource.id fromDate toDate
  let busy := occupied cal (bookedSlots db (some resource.id)) (if resource.mode = .exclusive then holds else [])
    (bookedDays db (some resource.id) fromDate toDate) fromDate toDate
  if resource.mode = .pooled then
    (busy ++ fullIntervals holds (resource.capacity.getD 0) fromDate toDate).insertionSort BusyInterval.notAfter
  else busy

structure AvailabilityView where
  busy : List BusyInterval
  requirements : Option (Bool × List UnmetRequirement)
  deriving DecidableEq, Repr

def resourceAvailability (db : Database) (resourceId : Nat) (fromDate toDate : Int) (start finish : Option Time)
    (withRequirements : Bool) : Answer AvailabilityView := do
  let resource ← found (db.resource? resourceId) (notFound "Resource not found")
  ensure (withRequirements = true → start.isSome ∧ finish.isSome ∧ fromDate = toDate ∧ start ≠ finish) (refuse 422
    "with_requirements needs from equal to to, and a start and an end that differ" .invalidValue)
  ensure (fromDate ≤ toDate) (refuse 422 rangeBackwards .invalidValue)
  ensure (toDate-fromDate+1 ≤ maxRangeDays) (refuse 422 rangeTooLong .invalidValue)
  let busy := busyList cal db resource fromDate toDate
  match withRequirements,start,finish with
  | true,some start,some finish =>
    let window : Window := ⟨fromDate,start,finish⟩
    let unmet := unmetOf (resolve cal sha256 db [(.resource,resource.id)] window [resource.id] none none [])
    .ok ⟨busy,some (unmet.isEmpty && freeFor cal db resource window,unmet)⟩
  | _,_,_ => .ok ⟨busy,none⟩

def fingerprint (resourceId : Nat) (payload : ReservationCreate) : String :=
  let parts := [toString resourceId,isoDate payload.date,isoTime payload.start,isoTime payload.finish,strip payload.purpose]
  let parts := parts ++ payload.externalRef.toList
  let parts := parts ++ payload.sentQuantity.toList.map (fun quantity => s!"quantity={quantity}")
  let chosen := (payload.assignments.insertionSort (fun a b => a.1 ≤ b.1)).map (fun entry =>
    entry.1 ++ ":" ++ String.intercalate "," (entry.2.map toString))
  let parts := if payload.assignments = [] then parts else parts ++ ["assignments=" ++ String.intercalate ";" chosen]
  sha256 (String.intercalate "|" parts)

def byKey (db : Database) (requesterId key : String) : Option Reservation :=
  db.reservations.find? (fun r => r.requestedById = some requesterId ∧ r.idempotencyKey = key)

def byRef (db : Database) (requesterId ref : String) : Option Reservation :=
  db.reservations.find? (fun r => r.requestedById = some requesterId ∧ r.externalRef = some ref)

def alreadyTaken (conflicts : List BusyInterval) : Refusal := ⟨409,.conflicts alreadyTakenMessage conflicts,.resourceConflict⟩

def refTaken (existing : Reservation) : Refusal := ⟨409,.reservation refTakenMessage existing.id,.reservationExternalRefTaken⟩

def conflictsFor (db : Database) (resourceId : Nat) (payload : ReservationCreate) (holds : Bool) : List BusyInterval :=
  windowConflicts cal db resourceId payload.date payload.start payload.finish holds

def poolCheck (db : Database) (resource : Resource) (payload : ReservationCreate) : Answer Unit :=
  let last := lastDate payload.date payload.start payload.finish
  let (taken,holds) := poolState db resource.id payload.date payload.start payload.finish
  let capacity := resource.capacity.getD 0
  ensure (taken+payload.quantity ≤ (capacity : Int)) ⟨409,.capacity poolFull (occupied cal [] holds [] payload.date last)
    capacity taken payload.quantity,.resourceCapacityExceeded⟩

-- The two checks of a booking on a resource, by its mode.
def bookingChecks (db : Database) (resource : Resource) (payload : ReservationCreate) : Answer Unit := do
  if resource.mode ≠ .shared then
    let conflicts := conflictsFor cal db resource.id payload (resource.mode = .exclusive)
    ensure (conflicts = []) (alreadyTaken conflicts)
  if resource.mode = .pooled then poolCheck cal db resource payload

def childrenOf (db : Database) (reservation : Reservation) : List Reservation :=
  (db.reservations.filter (fun child => child.parentReservationId = some reservation.id)).insertionSort (fun a b => a.id ≤ b.id)

def reservationRow (db : Database) (resource : Resource) (payload : ReservationCreate) (key print : String)
    (currentUser : User) : Reservation where
  id := nextId (db.reservations.map Reservation.id)
  resourceId := resource.id
  reservedDate := payload.date
  timeWindowStart := payload.start
  timeWindowEnd := payload.finish
  purpose := strip payload.purpose
  requestedById := some currentUser.id
  idempotencyKey := key
  requestFingerprint := print
  externalRef := payload.externalRef
  quantity := payload.quantity
  mode := resource.mode
  status := .held
  parentReservationId := none
  window := payload.window
  units := payload.units

-- What is answered when the table refuses the booking itself: two copies of one
-- request, or two requests under one reference, where the other one landed.
def lost (db : Database) (payload : ReservationCreate) (key print : String) (currentUser : User) : Answer BookingView := do
  let won := byKey db currentUser.id key
  if won = none then
    match payload.externalRef.bind (byRef db currentUser.id) with
    | some taken => .error (refTaken taken)
    | none => .ok ()
  let won ← found won (refuse 422 keyReused .idempotencyKeyReused)
  ensure (won.requestFingerprint = print) (refuse 422 keyReused .idempotencyKeyReused)
  .ok ⟨won,childrenOf db won,[],true⟩

def replay (db : Database) (seen : Reservation) (print : String) : Answer BookingView := do
  ensure (seen.requestFingerprint = print) (refuse 422 keyReused .idempotencyKeyReused)
  .ok ⟨seen,childrenOf db seen,[],true⟩

-- The booking of a request that is not a replay.
def bookAnew (db : Database) (resource : Resource) (payload : ReservationCreate) (key print : String)
    (currentUser : User) : Answer (Database × BookingView) := do
  match payload.externalRef.bind (byRef db currentUser.id) with
  | some taken => .error (refTaken taken)
  | none => .ok ()
  ensure (1 < payload.quantity → resource.mode = .pooled) (refuse 422 oneOfIt .invalidValue)
  checkAssignments db payload.assignments
  bookingChecks cal db resource payload
  let reservation := reservationRow strip db resource payload key print currentUser
  match insertReservation db reservation with
  | .error _ => do
    let view ← lost db payload key print currentUser
    .ok (db,view)
  | .ok inserted => do
    let held ← resolve cal sha256 inserted [(.resource,resource.id)] payload.asked [resource.id] (some reservation)
      (some currentUser.id) payload.assignments
    .ok (held.db,⟨reservation,held.children,held.unmet,false⟩)

def createReservation (db : Database) (resourceId : Nat) (payload : ReservationCreate) (key : String)
    (currentUser : User) : Answer (Database × BookingView) := do
  requireRoles [.orgAdmin,.unitAdmin] currentUser
  let resource ← found (db.resource? resourceId) (notFound "Resource not found")
  ensureResourceScope currentUser resource
  let print := fingerprint sha256 strip resourceId payload
  match byKey db currentUser.id key with
  | some seen => do
    let view ← replay db seen print
    .ok (db,view)
  | none => bookAnew cal sha256 strip db resource payload key print currentUser

def cancelled (row : Reservation) : Reservation := {row with status := .cancelled}

def cancelReservation (db : Database) (resourceId reservationId : Nat) (currentUser : User) : Answer (Database × Reservation) := do
  requireRoles [.orgAdmin,.unitAdmin] currentUser
  let reservation ← found (db.reservations.find? (fun r => r.id = reservationId ∧ r.resourceId = resourceId))
    (notFound "Reservation not found")
  ensure (currentUser.roleType = .orgAdmin ∨ reservation.requestedById = some currentUser.id)
    (refuse 403 notYourHold .forbidden)
  if reservation.status = .cancelled then .ok (db,reservation) else
  -- What was held for it goes with it.
  .ok ({db with reservations := db.reservations.map (fun r =>
    if r.id = reservation.id ∨ r.parentReservationId = some reservation.id ∧ r.status = .held then cancelled r else r)},
    cancelled reservation)

def breaksMode (mode : ResourceMode) (capacity : Nat) (holds : List Reservation) (held : Reservation) : Bool :=
  if mode = .exclusive then
    decide (1 < held.quantity ∨ ∃ other ∈ holds, other.id ≠ held.id ∧ Meets (heldSpan held) (heldSpan other))
  else (poolStretches holds (capacity+1)).any (fun stretch => Meets (heldSpan held) stretch)

-- Leaving shared also means meeting the timetable, which a shared hold never
-- had to, so it is asked about on the way to either of the other two.
def wouldNotFit (db : Database) (resourceId : Nat) (mode : ResourceMode) (capacity : Nat) (holds : List Reservation) :
    List Reservation :=
  match holds with
  | [] => []
  | head :: _ =>
    if mode = .shared then [] else
    let first := (holds.map Reservation.reservedDate).foldl min head.reservedDate
    let last := (holds.map (fun held => dateOf (heldSpan held).2)).foldl max (dateOf (heldSpan head).2)
    let timetable := occupied cal (bookedSlots db (some resourceId)) [] (bookedDays db (some resourceId) first last) first last
    holds.filter (fun held =>
      clashing timetable held.reservedDate held.timeWindowStart held.timeWindowEnd ≠ [] ∨
      breaksMode mode capacity holds held = true)

-- From yesterday, so a night that opened yesterday and still runs counts.
def holdsToCome (db : Database) (resourceId : Nat) : List Reservation :=
  (db.reservations.filter (fun held => held.resourceId = resourceId ∧ held.status = .held ∧
    db.orgToday-1 ≤ held.reservedDate)).insertionSort (fun a b => a.id ≤ b.id)

def writeMode (mode : ResourceMode) (row : Reservation) : Reservation := {row with mode := mode}

def updateResource (db : Database) (resourceId : Nat) (payload : ResourceUpdate) (currentUser : User) :
    Answer (Database × Resource) := do
  requireRoles [.orgAdmin] currentUser
  let resource ← found (db.resource? resourceId) (notFound "Resource not found")
  let mode := payload.mode.getD resource.mode
  let capacity := payload.capacity.getD resource.capacity
  -- A null sent for a column that takes none.
  let active ← found (payload.active.getD (some resource.active)) internalError
  if sized : mode = .pooled → 1 ≤ capacity.getD 0 then
    let changes := mode ≠ resource.mode ∨ mode = .pooled ∧ capacity ≠ resource.capacity
    let toCome := holdsToCome db resourceId
    let misfits := if changes then wouldNotFit cal db resourceId mode (capacity.getD 0) toCome else []
    ensure (misfits = []) ⟨409,.reservations wouldNotFitMessage misfits,.resourceBookingsWouldNotFit⟩
    let updated : Resource := {resource with mode := mode,capacity := capacity,active := active,poolCapacity := sized}
    .ok ({db with
      resources := db.resources.map (fun r => if r.id = resourceId then updated else r)
      reservations := if mode = resource.mode then db.reservations
        else db.reservations.map (fun r => if r ∈ toCome then writeMode mode r else r)},updated)
  else .error (refuse 422 poolNeedsCapacity .invalidValue)

end ChronosLedger
