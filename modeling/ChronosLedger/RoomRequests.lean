import ChronosLedger.Operations

namespace ChronosLedger.RoomRequests

-- A booking and a class asked for at once. Each is the statements it sends, in
-- order, and each statement reads what is committed when it is sent.
structure BookingRequest where
  resourceId : Nat
  payload : ReservationCreate
  key : String
  currentUser : User

structure ClassRequest where
  payload : MasterSlotCreate
  currentUser : User

-- What a booking has read so far. A replay and a refusal are both an end with
-- nothing written.
inductive BookingAt where
  | arrived
  | locked (resource : Resource)
  | keyed (resource : Resource)
  | referred (resource : Resource)
  | assigned (resource : Resource)
  | sawSlots (resource : Resource) (slots : List BookedSlot)
  | sawHolds (resource : Resource) (slots : List BookedSlot) (holds : List Reservation)
  | timetabled (resource : Resource)
  | checked (resource : Resource)
  | flushed (resource : Resource) (reservation : Reservation)
  | walked (resource : Resource) (reservation : Reservation) (children : List Reservation)
  | booked (reservation : Reservation)
  | ended
  deriving DecidableEq, Repr

-- The row it has FOR UPDATE, from its first statement to the end of its
-- transaction.
def BookingAt.lockedRow : BookingAt → Option Nat
  | .locked resource | .keyed resource | .referred resource | .assigned resource | .sawSlots resource _ | .sawHolds resource _ _
  | .timetabled resource | .checked resource | .flushed resource _ | .walked resource _ _ => some resource.id
  | .arrived | .booked _ | .ended => none

-- What a slot is going to be, and the room made for it if nobody had seen it.
structure Draft where
  offering : Activity
  cycle : PlanningCycle
  claim : Claim
  made : List Resource
  deriving DecidableEq, Repr

inductive ClassAt where
  | arrived
  | offered (offering : Activity)
  | led (offering : Activity)
  | anchored (offering : Activity) (cycle : PlanningCycle) (dtstart : Int)
  | roomed (draft : Draft)
  | sawHolds (draft : Draft)
  | sawSlots (draft : Draft)
  | checked (draft : Draft)
  | inserted (draft : Draft) (slot : StructuralMasterSlot)
  | created (draft : Draft) (slot : StructuralMasterSlot)
  | filled (draft : Draft) (slot : StructuralMasterSlot)
  | ended
  deriving DecidableEq, Repr

-- The foreign key of the new row takes the room's row FOR KEY SHARE until the
-- commit. Nothing before the insert locks it.
def ClassAt.sharedRow : ClassAt → Option Nat
  | .inserted _ slot => slot.resourceId
  | _ => none

variable (rt : Runtime)

-- A refusal rolls the transaction back.
def onward {α β : Type} (ended : β) (answer : Answer α) (next : α → β) : β :=
  match answer with
  | .ok value => next value
  | .error _ => ended

-- The three queries of window_conflicts. Only an exclusive room counts the
-- holds among them.
def holdsSeen (request : BookingRequest) (db : Database) (resource : Resource) : List Reservation :=
  if resource.mode = .exclusive then heldReservations db resource.id request.payload.date
    (lastDate request.payload.date request.payload.start request.payload.finish) else []

def conflictsSeen (request : BookingRequest) (db : Database) (resource : Resource) (slots : List BookedSlot) (holds : List Reservation) :
    List BusyInterval :=
  let last := lastDate request.payload.date request.payload.start request.payload.finish
  clashing (occupied rt.cal slots holds (bookedDays db (some resource.id) request.payload.date last) request.payload.date last)
    request.payload.date request.payload.start request.payload.finish

-- The next statement of create_reservation. The walk over what the resource
-- requires is taken as one: the rows it locks are other resources' rows.
def bookingStep (request : BookingRequest) (db : Database) : BookingAt → Option (Database × BookingAt)
  | .arrived => some (db,onward .ended (do
      requireRoles [.orgAdmin,.unitAdmin] request.currentUser
      let resource ← found (db.resource? request.resourceId) (notFound "Resource not found")
      ensureResourceScope request.currentUser resource
      .ok resource) .locked)
  | .locked resource => some (db,if (byKey db request.currentUser.id request.key).isSome then .ended else .keyed resource)
  | .keyed resource =>
    some (db,if (request.payload.externalRef.bind (byRef db request.currentUser.id)).isSome then .ended else .referred resource)
  | .referred resource => some (db,onward .ended (do
      ensure (1 < request.payload.quantity → resource.mode = .pooled) (refuse 422 oneOfIt .invalidValue)
      checkAssignments db request.payload.assignments) (fun _ => .assigned resource))
  | .assigned resource =>
    some (db,if resource.mode = .shared then .checked resource else .sawSlots resource (bookedSlots db (some resource.id)))
  | .sawSlots resource slots => some (db,.sawHolds resource slots (holdsSeen request db resource))
  | .sawHolds resource slots holds => some (db,if conflictsSeen rt request db resource slots holds ≠ [] then .ended
      else if resource.mode = .pooled then .timetabled resource else .checked resource)
  | .timetabled resource => some (db,onward .ended (poolCheck rt.cal db resource request.payload) (fun _ => .checked resource))
  | .checked resource =>
    let print := fingerprint rt.sha256 rt.reading.strip request.resourceId request.payload
    let reservation := reservationRow rt.reading.strip db resource request.payload request.key print request.currentUser
    some (db,onward .ended (insertReservation db reservation) (fun _ => .flushed resource reservation))
  | .flushed resource reservation => some (db,onward .ended (resolve rt.cal rt.sha256
      {db with reservations := db.reservations ++ [reservation]} [(.resource,resource.id)] request.payload.asked [resource.id]
      (some reservation) (some request.currentUser.id) request.payload.assignments) (fun held => .walked resource reservation held.children))
  | .walked _ reservation children => some ({db with reservations := db.reservations ++ reservation :: children},.booked reservation)
  | .booked _ => none
  | .ended => none

def slotOf (request : ClassRequest) (db : Database) (draft : Draft) : StructuralMasterSlot :=
  ⟨nextId (db.slots.map StructuralMasterSlot.id),request.payload.rrule,draft.claim.dtstart,request.payload.timeWindowStart,
    request.payload.timeWindowEnd,request.payload.activityId,request.payload.primaryLeadId,draft.claim.resourceId,false⟩

-- The next statement of create_master_slot, to the horizon it fills after its
-- commit.
def classStep (request : ClassRequest) (db : Database) : ClassAt → Option (Database × ClassAt)
  | .arrived => some (db,onward .ended (do
      requireRoles [.orgAdmin,.unitAdmin] request.currentUser
      let offering ← found (db.activity? request.payload.activityId) (notFound "Activity offering not found")
      ensureUnitScope request.currentUser (some offering.unitCode)
      refuseIfRetired offering.retired "Activity"
      .ok offering) .offered)
  | .offered offering => some (db,onward .ended (refuseUnlessLead db request.payload.primaryLeadId) (fun _ => .led offering))
  | .led offering => some (db,onward .ended (do
      let cycle ← found (db.cycle? offering.cycleId) internalError
      let dtstart ← anchor rt.cal request.payload.rrule (request.payload.dtstart.getD cycle.dateBoundsStart)
      .ok (cycle,dtstart)) (fun start => .anchored offering start.1 start.2))
  | .anchored offering cycle dtstart =>
    let (room,grown) := getOrCreateRoom rt.reading.strip request.payload.targetRoomIdentifier db
    let claim : Claim := ⟨some room.id,request.payload.rrule,dtstart,request.payload.timeWindowStart,request.payload.timeWindowEnd⟩
    some (db,onward .ended (ensureResourceScope request.currentUser room) (fun _ =>
      .roomed ⟨offering,cycle,claim,grown.resources.drop db.resources.length⟩))
  | .roomed draft => some (db,onward .ended (refuseIfHeld rt.cal db draft.cycle draft.claim) (fun _ => .sawHolds draft))
  | .sawHolds draft => some (db,onward .ended (refuseIfScheduled rt.cal db draft.cycle draft.claim none) (fun _ => .sawSlots draft))
  | .sawSlots draft => some (db,onward .ended (refuseIfADayIsThere rt.cal db draft.cycle draft.claim none) (fun _ => .checked draft))
  | .checked draft => some (db,.inserted draft (slotOf request db draft))
  | .inserted draft slot =>
    some ({db with resources := db.resources ++ draft.made,slots := db.slots ++ [slot]},.created draft slot)
  | .created draft slot => some (fillHorizon rt.cal rt.settings db draft.offering.cycleId,.filled draft slot)
  | .filled _ _ => none
  | .ended => none

structure World where
  db : Database
  booking : BookingAt
  class_ : ClassAt
  deriving DecidableEq, Repr

inductive Turn where
  | booking
  | class_
  deriving DecidableEq, Repr

-- A statement waits while the other transaction has the row it wants. FOR
-- UPDATE and FOR KEY SHARE conflict.
def bookingWaits (request : BookingRequest) (w : World) : Bool :=
  w.booking = .arrived && (w.db.resource? request.resourceId).isSome && w.class_.sharedRow = some request.resourceId

def filledRows (db : Database) (cycleId : Nat) : List DailyLedger :=
  (fillHorizon rt.cal rt.settings db cycleId).ledger.drop db.ledger.length

def classWaits (w : World) : Bool :=
  match w.booking.lockedRow,w.class_ with
  | some row,.checked draft => draft.claim.resourceId = some row
  | some row,.created draft _ => (filledRows rt w.db draft.offering.cycleId).any (fun day => day.resourceId = some row)
  | _,_ => false

def act (booking : BookingRequest) (class_ : ClassRequest) (w : World) : Turn → Option World
  | .booking =>
    if bookingWaits booking w then none
    else (bookingStep rt booking w.db w.booking).map (fun next => {w with db := next.1,booking := next.2})
  | .class_ =>
    if classWaits rt w then none
    else (classStep rt class_ w.db w.class_).map (fun next => {w with db := next.1,class_ := next.2})

def startOf (db : Database) : World := ⟨db,.arrived,.arrived⟩

-- The slot once it is committed.
def ClassAt.committed : ClassAt → Option StructuralMasterSlot
  | .created _ slot | .filled _ slot => some slot
  | _ => none

end ChronosLedger.RoomRequests
