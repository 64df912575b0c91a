import Mathlib.Data.Fintype.Defs
import ChronosLedger.Library.Levels
import ChronosLedger.Tables

namespace ChronosLedger
open Spans

-- Which row an interval was read off. The program's dict has no such key; it is
-- carried here so that statements can name the row, and no definition reads it.
inductive RowRef where
  | slot (id : Nat)
  | day (id : Nat)
  | reservation (id : Nat)
  | pool
  deriving DecidableEq, Repr

structure BusyInterval where
  row : RowRef
  date : Int
  start : Time
  endDate : Int
  finish : Time
  activityId : Option Nat
  activityCode : Option String
  masterSlotId : Option Nat
  reservationId : Option Nat
  deriving DecidableEq, Repr

def bounds (entry : BusyInterval) : Int × Int :=
  (combine entry.date entry.start,combine entry.endDate entry.finish)

-- The sort key of a busy list: date, start, end date, end.
def BusyInterval.notAfter (a b : BusyInterval) : Prop :=
  a.date < b.date ∨ a.date = b.date ∧ (a.start < b.start ∨ a.start = b.start ∧
    (a.endDate < b.endDate ∨ a.endDate = b.endDate ∧ a.finish ≤ b.finish))

instance (a b : BusyInterval) : Decidable (a.notAfter b) := by unfold BusyInterval.notAfter; infer_instance

def within (cycle : Option PlanningCycle) (day : Int) : Bool :=
  match cycle with
  | none => true
  | some cycle => decide (cycle.dateBoundsStart ≤ day ∧ day ≤ cycle.dateBoundsEnd)

-- A slot with the activity and the cycle it is joined to.
structure BookedSlot where
  slot : StructuralMasterSlot
  activity : Activity
  cycle : PlanningCycle
  deriving DecidableEq, Repr

def openSlot (db : Database) (slot : StructuralMasterSlot) : Option BookedSlot :=
  match db.activity? slot.activityId with
  | none => none
  | some activity =>
    match db.cycle? activity.cycleId with
    | none => none
    | some cycle =>
      if slot.retired = false ∧ activity.retired = false ∧ cycle.operationalStatus = true then some ⟨slot,activity,cycle⟩
      else none

def openSlots (db : Database) : List BookedSlot := db.slots.filterMap (openSlot db)

-- A slot with no resource can be asked about too, and then the comparison is
-- the one SQL makes of it: a null column.
def bookedSlots (db : Database) (resourceId : Option Nat) : List BookedSlot :=
  (openSlots db).filter (fun booked => booked.slot.resourceId = resourceId)

def heldReservations (db : Database) (resourceId : Nat) (fromDate toDate : Int) : List Reservation :=
  db.reservations.filter (fun held => held.resourceId = resourceId ∧ held.status = .held ∧
    fromDate-1 ≤ held.reservedDate ∧ held.reservedDate ≤ toDate)

def heldSpan (held : Reservation) : Int × Int :=
  windowSpan held.reservedDate held.timeWindowStart held.timeWindowEnd

def heldInterval (held : Reservation) : BusyInterval where
  row := .reservation held.id
  date := held.reservedDate
  start := held.timeWindowStart
  endDate := dateOf (heldSpan held).2
  finish := held.timeWindowEnd
  activityId := none
  activityCode := none
  masterSlotId := none
  reservationId := some held.id

def slotSpan (slot : StructuralMasterSlot) (day : Int) : Int × Int :=
  windowSpan day slot.timeWindowStart slot.timeWindowEnd

def slotInterval (booked : BookedSlot) (day : Int) : BusyInterval where
  row := .slot booked.slot.id
  date := day
  start := booked.slot.timeWindowStart
  endDate := dateOf (slotSpan booked.slot day).2
  finish := booked.slot.timeWindowEnd
  activityId := some booked.slot.activityId
  activityCode := some booked.activity.activityCode
  masterSlotId := some booked.slot.id
  reservationId := none

-- The three dates a window can have and still touch one dated `day`.
def offsets : List Int := [-1,0,1]

def heldAgainstSlot (cal : Recurrence) (db : Database) (resourceId : Option Nat) (rule : String) (dtstart : Int)
    (start finish : Time) (cycle : Option PlanningCycle) : List BusyInterval :=
  (db.reservations.filter (fun held => some held.resourceId = resourceId ∧ held.status = .held ∧
    held.mode ≠ .shared ∧ db.orgToday ≤ held.reservedDate)).filterMap (fun held =>
      if offsets.any (fun offset => within cycle (held.reservedDate+offset) &&
          occursOn cal rule dtstart (held.reservedDate+offset) &&
          decide (Meets (windowSpan (held.reservedDate+offset) start finish) (heldSpan held))) then
        some (heldInterval held)
      else none)

def firstMeeting (ours : List Int) (start finish : Time) (theirs : List Int) (theirStart theirEnd : Time) : Option Int :=
  ours.findSome? (fun day => offsets.findSome? (fun offset =>
    if theirs.contains (day+offset) &&
        decide (Meets (windowSpan day start finish) (windowSpan (day+offset) theirStart theirEnd)) then
      some (day+offset)
    else none))

def slotsAgainstSlot (cal : Recurrence) (db : Database) (resourceId : Option Nat) (rule : String) (dtstart : Int)
    (start finish : Time) (excludeSlotId : Option Nat) (cycle : Option PlanningCycle) : List BusyInterval :=
  let tomorrow := db.orgToday+1
  (bookedSlots db resourceId).filterMap (fun other =>
    if some other.slot.id = excludeSlotId then none else
    -- The dates of the new slot that can touch one of the other's: its own
    -- cycle, from tomorrow, and no more than a day outside the other's.
    let first := max tomorrow (other.cycle.dateBoundsStart-1)
    let last := other.cycle.dateBoundsEnd+1
    let (first,last) := match cycle with
      | none => (first,last)
      | some cycle => (max first cycle.dateBoundsStart,min last cycle.dateBoundsEnd)
    if first > last then none else
    let theirs := occurrences cal other.slot.rrule other.slot.dtstart
      (max (first-1) other.cycle.dateBoundsStart) (min (last+1) other.cycle.dateBoundsEnd)
    if theirs.isEmpty then none else
    (firstMeeting (occurrences cal rule dtstart first last) start finish theirs
      other.slot.timeWindowStart other.slot.timeWindowEnd).map (slotInterval other))

-- A generated day that names a resource and a window, unwrapped.
structure DatedDay where
  row : DailyLedger
  start : Time
  finish : Time
  activityCode : Option String
  deriving DecidableEq, Repr

def datedDay (db : Database) (resourceId : Option Nat) (row : DailyLedger) : Option DatedDay :=
  match row.timeWindowStart,row.timeWindowEnd with
  | some start,some finish =>
    if row.resourceId = resourceId then
      some ⟨row,start,finish,(db.activity? row.activityId).map Activity.activityCode⟩
    else none
  | _,_ => none

def daySpan (day : DatedDay) : Int × Int := windowSpan day.row.targetDate day.start day.finish

def dayInterval (day : DatedDay) : BusyInterval where
  row := .day day.row.id
  date := day.row.targetDate
  start := day.start
  endDate := dateOf (daySpan day).2
  finish := day.finish
  activityId := some day.row.activityId
  activityCode := day.activityCode
  masterSlotId := day.row.masterSlotId
  reservationId := none

def datedDays (db : Database) (resourceId : Option Nat) (since : Int) (until_ : Option Int) : List DatedDay :=
  ((db.ledger.filter (fun row => since ≤ row.targetDate ∧ ∀ last ∈ until_, row.targetDate ≤ last)).filterMap
    (datedDay db resourceId)).insertionSort (fun a b =>
      a.row.targetDate < b.row.targetDate ∨ a.row.targetDate = b.row.targetDate ∧ a.start ≤ b.start)

def bookedDays (db : Database) (resourceId : Option Nat) (fromDate toDate : Int) : List DatedDay :=
  datedDays db resourceId (fromDate-1) (some toDate)

def daysAgainstWindow (db : Database) (resourceId : Option Nat) (day : Int) (start finish : Time)
    (excludeSlotId : Option Nat) : List BusyInterval :=
  (datedDays db resourceId (day-1) none).filterMap (fun other =>
    if other.row.targetDate > day+1 then none
    else if excludeSlotId.isSome ∧ other.row.masterSlotId = excludeSlotId then none
    else if Meets (bounds (dayInterval other)) (windowSpan day start finish) then some (dayInterval other)
    else none)

def daysAgainstSlot (cal : Recurrence) (db : Database) (resourceId : Option Nat) (rule : String) (dtstart : Int)
    (start finish : Time) (excludeSlotId : Option Nat) (cycle : Option PlanningCycle) : List BusyInterval :=
  (datedDays db resourceId db.orgToday none).filterMap (fun other =>
    if excludeSlotId.isSome ∧ other.row.masterSlotId = excludeSlotId then none
    else if offsets.any (fun offset => within cycle (other.row.targetDate+offset) &&
        occursOn cal rule dtstart (other.row.targetDate+offset) &&
        decide (Meets (bounds (dayInterval other)) (windowSpan (other.row.targetDate+offset) start finish))) then
      some (dayInterval other)
    else none)

def occupied (cal : Recurrence) (slots : List BookedSlot) (reservations : List Reservation) (days : List DatedDay)
    (fromDate toDate : Int) : List BusyInterval :=
  let asked := (midnight fromDate,midnight (toDate+1))
  -- Both halves of the key: a day stands in for its slot on its own date only.
  let settled := days.filterMap (fun day => day.row.masterSlotId.map (fun slot => (day.row.targetDate,slot)))
  let fromSlots := slots.flatMap (fun booked =>
    (occurrences cal booked.slot.rrule booked.slot.dtstart (fromDate-1) toDate).filterMap (fun day =>
      if settled.contains (day,booked.slot.id) then none
      else if within (some booked.cycle) day = false then none
      else if Meets (bounds (slotInterval booked day)) asked then some (slotInterval booked day)
      else none))
  let fromDays := (days.map dayInterval).filter (fun entry => Meets (bounds entry) asked)
  let fromHolds := (reservations.map heldInterval).filter (fun entry => Meets (bounds entry) asked)
  (fromSlots ++ fromDays ++ fromHolds).insertionSort BusyInterval.notAfter

def heldTaking (held : Reservation) : Levels.Taking Int := (heldSpan held,held.quantity)

def poolPeak (holds : List Reservation) (window : Option (Int × Int)) : Int :=
  Levels.peak (holds.filterMap (fun held =>
    let span := match window with
      | none => heldSpan held
      | some window => cut window (heldSpan held)
    if span.1 < span.2 then some (span,held.quantity) else none))

def poolStretches (holds : List Reservation) (atLeast : Nat) : List (Int × Int) :=
  Levels.stretches (holds.map heldTaking) atLeast

def stretchInterval (span : Int × Int) : BusyInterval where
  row := .pool
  date := dateOf span.1
  start := timeOf span.1
  endDate := dateOf span.2
  finish := timeOf span.2
  activityId := none
  activityCode := none
  masterSlotId := none
  reservationId := none

def fullIntervals (holds : List Reservation) (capacity : Nat) (fromDate toDate : Int) : List BusyInterval :=
  (poolStretches holds capacity).filterMap (fun stretch =>
    let span := cut (midnight fromDate,midnight (toDate+1)) stretch
    if span.1 < span.2 then some (stretchInterval span) else none)

def clashing (busy : List BusyInterval) (day : Int) (start finish : Time) : List BusyInterval :=
  busy.filter (fun entry => Meets (bounds entry) (windowSpan day start finish))

def windowConflicts (cal : Recurrence) (db : Database) (resourceId : Nat) (day : Int) (start finish : Time)
    (holds : Bool) : List BusyInterval :=
  let last := lastDate day start finish
  clashing (occupied cal (bookedSlots db (some resourceId))
    (if holds then heldReservations db resourceId day last else []) (bookedDays db (some resourceId) day last) day last)
    day start finish

def poolState (db : Database) (resourceId : Nat) (day : Int) (start finish : Time) : Int × List Reservation :=
  let window := windowSpan day start finish
  let holds := (heldReservations db resourceId day (lastDate day start finish)).filter
    (fun held => Meets (heldSpan held) window)
  (poolPeak holds (some window),holds)

end ChronosLedger
