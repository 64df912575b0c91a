import ChronosLedger.Refusals

namespace ChronosLedger
open Spans

structure DayFields where
  targetDate : Int
  timeWindowStart : Time
  timeWindowEnd : Time
  masterSlotId : Nat
  activityId : Nat
  activeLeadId : Option String
  resourceId : Option Nat
  operationalState : DynamicState
  deriving DecidableEq, Repr

-- LEDGER_HORIZON_DAYS and LEDGER_BATCH_SIZE.
structure LedgerSettings where
  horizonDays : Nat
  batchSize : Nat
  batches : 1 ≤ batchSize
  deriving Repr

variable (cal : Recurrence)

def dayFields (slot : StructuralMasterSlot) (targetDate : Int) (state : DynamicState) : DayFields where
  targetDate := targetDate
  timeWindowStart := slot.timeWindowStart
  timeWindowEnd := slot.timeWindowEnd
  masterSlotId := slot.id
  activityId := slot.activityId
  activeLeadId := slot.primaryLeadId
  resourceId := slot.resourceId
  operationalState := state

-- The row, with the column defaults for what a plan does not say.
def dayRow (id : Nat) (fields : DayFields) : DailyLedger where
  id := id
  targetDate := fields.targetDate
  timeWindowStart := some fields.timeWindowStart
  timeWindowEnd := some fields.timeWindowEnd
  masterSlotId := some fields.masterSlotId
  activityId := fields.activityId
  activeLeadId := fields.activeLeadId
  substituteLeadId := none
  resourceId := fields.resourceId
  deliveryFormat := .physical
  virtualConnectionString := none
  latitudeTarget := none
  longitudeTarget := none
  altitudeTarget := none
  precisionRadiusMeters := some 15
  operationalState := fields.operationalState

def fieldsSpan (fields : DayFields) : Int × Int :=
  windowSpan fields.targetDate fields.timeWindowStart fields.timeWindowEnd

def writeDay (db : Database) (fields : DayFields) : Database :=
  {db with ledger := db.ledger ++ [dayRow (nextId (db.ledger.map DailyLedger.id)) fields]}

def hasDay (db : Database) (slotId : Nat) (day : Int) : Bool :=
  db.ledger.any (fun row => row.masterSlotId = some slotId ∧ row.targetDate = day)

def takenBy (db : Database) (fields : DayFields) : List BusyInterval :=
  if fields.resourceId.isNone then []
  else daysAgainstWindow db fields.resourceId fields.targetDate fields.timeWindowStart fields.timeWindowEnd
    (some fields.masterSlotId)

-- One day, if its room is free of other slots' days. What the savepoint catches
-- is the one key of the table, one day per slot and date.
def insertDay (db : Database) (fields : DayFields) : Database × Bool :=
  if takenBy db fields ≠ [] then (db,false)
  else if hasDay db fields.masterSlotId fields.targetDate then (db,false)
  else (writeDay db fields,true)

def insertDays : Database → List DayFields → Database × List DayFields
  | db,[] => (db,[])
  | db,fields :: rest =>
    let (db,inserted) := insertDay db fields
    let (db,written) := insertDays db rest
    (db,if inserted then fields :: written else written)

def approvedLeave (db : Database) (lead : Option String) (day : Int) : Bool :=
  db.absences.any (fun log => some log.submittingUserId = lead ∧ log.targetAbsenceDate ≤ day ∧
    day ≤ log.endDate.getD log.targetAbsenceDate ∧ log.approvalState = .verifiedApproved)

def leaveState (onLeave : Bool) : DynamicState := if onLeave then .onLeave else .scheduled

-- Oldest slot first.
def candidates (db : Database) (targetDate : Int) : List BookedSlot :=
  ((openSlots db).filter (fun booked => booked.cycle.dateBoundsStart ≤ targetDate ∧
    targetDate ≤ booked.cycle.dateBoundsEnd)).insertionSort (fun a b => a.slot.id ≤ b.slot.id)

def generateSlots (targetDate : Int) : Database → List BookedSlot → Database × List DayFields
  | db,[] => (db,[])
  | db,booked :: rest =>
    if hasDay db booked.slot.id targetDate then generateSlots targetDate db rest else
    let fields := dayFields booked.slot targetDate (leaveState (approvedLeave db booked.slot.primaryLeadId targetDate))
    let (db,inserted) := insertDay db fields
    let (db,written) := generateSlots targetDate db rest
    (db,if inserted then fields :: written else written)

def generateDailyLedgerEntries (db : Database) (targetDate : Int) : Database × List DayFields :=
  generateSlots targetDate db ((candidates db targetDate).filter (fun booked =>
    occursOn cal booked.slot.rrule booked.slot.dtstart targetDate))

def horizonWindow (db : Database) (settings : LedgerSettings) : Int × Int := (db.orgToday+1,db.orgToday+settings.horizonDays)

def horizonSlots (db : Database) (first last : Int) (cycleId : Option Nat) : List BookedSlot :=
  ((openSlots db).filter (fun booked => booked.cycle.dateBoundsStart ≤ last ∧ first ≤ booked.cycle.dateBoundsEnd ∧
    ∀ id ∈ cycleId, booked.cycle.id = id)).insertionSort (fun a b => a.slot.id ≤ b.slot.id)

def inCycle (db : Database) (cycleId : Option Nat) (row : DailyLedger) : Bool :=
  match cycleId with
  | none => true
  | some id => (db.activity? row.activityId).any (fun activity => activity.cycleId = id)

def horizonHave (db : Database) (first last : Int) (cycleId : Option Nat) : List (Option Nat × Int) :=
  (db.ledger.filter (fun row => first ≤ row.targetDate ∧ row.targetDate ≤ last ∧ inCycle db cycleId row = true)).map
    (fun row => (row.masterSlotId,row.targetDate))

-- Earliest day first and the older slot first within it.
def horizonMissing (db : Database) (first last : Int) (cycleId : Option Nat) : List (Int × StructuralMasterSlot) :=
  let have_ := horizonHave db first last cycleId
  ((horizonSlots db first last cycleId).flatMap (fun booked =>
    (occurrences cal booked.slot.rrule booked.slot.dtstart (max first booked.cycle.dateBoundsStart)
      (min last booked.cycle.dateBoundsEnd)).filterMap (fun day =>
        if (some booked.slot.id,day) ∈ have_ then none else some (day,booked.slot)))).insertionSort
    (fun a b => a.1 < b.1 ∨ a.1 = b.1 ∧ a.2.id ≤ b.2.id)

def leaveSpans (db : Database) (first last : Int) (lead : Option String) : List (Int × Int) :=
  (db.absences.filter (fun log => some log.submittingUserId = lead ∧ log.targetAbsenceDate ≤ last ∧
    first ≤ log.endDate.getD log.targetAbsenceDate ∧ log.approvalState = .verifiedApproved)).map
    (fun log => (log.targetAbsenceDate,log.endDate.getD log.targetAbsenceDate))

def horizonFields (db : Database) (first last : Int) (item : Int × StructuralMasterSlot) : DayFields :=
  dayFields item.2 item.1 (leaveState ((leaveSpans db first last item.2.primaryLeadId).any (fun span =>
    span.1 ≤ item.1 ∧ item.1 ≤ span.2)))

-- The windows already on a room, each with the room it is on.
abbrev Seated := List (Nat × (Int × Int))

def seatedDays (db : Database) (first last : Int) (rooms : List Nat) : Seated :=
  (db.ledger.filter (fun row => first-1 ≤ row.targetDate ∧ row.targetDate ≤ last+1)).filterMap (fun row =>
    match row.resourceId,row.timeWindowStart,row.timeWindowEnd with
    | some room,some start,some finish =>
      if room ∈ rooms then some (room,windowSpan row.targetDate start finish) else none
    | _,_,_ => none)

def seatDays : Seated → List DayFields → List DayFields
  | _,[] => []
  | held,fields :: rest =>
    match fields.resourceId with
    | none => fields :: seatDays held rest
    | some room =>
      if held.any (fun seat => seat.1 = room ∧ Meets seat.2 (fieldsSpan fields)) then seatDays held rest
      else fields :: seatDays (held ++ [(room,fieldsSpan fields)]) rest

def withoutOverlaps (db : Database) (rows : List DayFields) (first last : Int) : List DayFields :=
  seatDays (seatedDays db first last (rows.filterMap DayFields.resourceId)) rows

def batchesOf (size : Nat) (rows : List DayFields) : List (List DayFields) :=
  (List.range ((rows.length+size-1)/size)).map (fun n => (rows.drop (n*size)).take size)

def sameDay (a b : DayFields) : Prop := a.masterSlotId = b.masterSlotId ∧ a.targetDate = b.targetDate

instance (a b : DayFields) : Decidable (sameDay a b) := inferInstanceAs (Decidable (_ ∧ _))

-- A batch goes in whole, or a row at a time when the table refuses one of it.
def writeBatch (db : Database) (batch : List DayFields) : Database × List DayFields :=
  if (∀ fields ∈ batch, hasDay db fields.masterSlotId fields.targetDate = false) ∧
      batch.Pairwise (fun a b => ¬ sameDay a b) then (batch.foldl writeDay db,batch)
  else insertDays db batch

def writeBatches : Database → List (List DayFields) → Database × List DayFields
  | db,[] => (db,[])
  | db,batch :: rest =>
    let (db,written) := writeBatch db batch
    let (db,later) := writeBatches db rest
    (db,written ++ later)

def materializeHorizon (db : Database) (settings : LedgerSettings) (cycleId : Option Nat) : Database × List DayFields :=
  let (first,last) := horizonWindow db settings
  let missing := horizonMissing cal db first last cycleId
  if missing = [] then (db,[]) else
  let rows := withoutOverlaps db (missing.map (horizonFields db first last)) first last
  writeBatches db (batchesOf settings.batchSize rows)

end ChronosLedger
