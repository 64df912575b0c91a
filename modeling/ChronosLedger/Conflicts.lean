import ChronosLedger.Availability

namespace ChronosLedger
open Spans

-- One row that holds something over a window: the two instants, and the item a
-- report carries. The row reference is the item's type and id together.
structure Entry where
  starts : Int
  ends : Int
  row : RowRef
  date : Int
  start : Time
  endDate : Int
  finish : Time
  activityId : Option Nat
  resourceId : Option Nat
  deriving DecidableEq, Repr

def entryOf (row : RowRef) (day : Int) (start finish : Time) (activityId resourceId : Option Nat) : Entry :=
  let span := windowSpan day start finish
  ⟨span.1,span.2,row,day,start,dateOf span.2,finish,activityId,resourceId⟩

variable (cal : Recurrence)

def timedDays (db : Database) (fromDate toDate : Int) : List DailyLedger :=
  db.ledger.filter (fun row => fromDate-1 ≤ row.targetDate ∧ row.targetDate ≤ toDate ∧
    row.timeWindowStart.isSome ∧ row.timeWindowEnd.isSome)

-- Every slot and date some generated day stands in for, whichever resource the
-- day names.
def settledAnywhere (days : List DailyLedger) : List (Int × Nat) :=
  days.filterMap (fun day => day.masterSlotId.map (fun slot => (day.targetDate,slot)))

instance settledPairs : LawfulBEq (Int × Nat) := inferInstance

def slotEntries (db : Database) (fromDate toDate : Int) : List Entry :=
  let settled := settledAnywhere (timedDays db fromDate toDate)
  (datesBetween (fromDate-1) toDate).flatMap (fun on => (openSlots db).filterMap (fun booked =>
    if on ∉ occurrences cal booked.slot.rrule booked.slot.dtstart (fromDate-1) toDate then none
    else if within (some booked.cycle) on = false then none
    else if (on,booked.slot.id) ∈ settled then none
    else some (entryOf (.slot booked.slot.id) on booked.slot.timeWindowStart booked.slot.timeWindowEnd
      (some booked.slot.activityId) booked.slot.resourceId)))

def dayEntry (row : DailyLedger) : Option Entry :=
  match row.timeWindowStart,row.timeWindowEnd with
  | some start,some finish => some (entryOf (.day row.id) row.targetDate start finish (some row.activityId) row.resourceId)
  | _,_ => none

def heldEntry (held : Reservation) : Entry :=
  entryOf (.reservation held.id) held.reservedDate held.timeWindowStart held.timeWindowEnd none (some held.resourceId)

def reachesInto (fromDate toDate : Int) (entry : Entry) : Bool :=
  entry.starts < midnight (toDate+1) && midnight fromDate < entry.ends

-- The entries of `find_conflicts`, before they are swept for any kind of clash.
def conflictEntries (db : Database) (fromDate toDate : Int) : List Entry :=
  (slotEntries cal db fromDate toDate ++ (timedDays db fromDate toDate).filterMap dayEntry ++
    (db.reservations.filter (fun held => held.status = .held ∧ fromDate-1 ≤ held.reservedDate ∧
      held.reservedDate ≤ toDate)).map heldEntry).filter (reachesInto fromDate toDate)

def byResource (db : Database) (fromDate toDate : Int) (resourceId : Nat) : List Entry :=
  (conflictEntries cal db fromDate toDate).filter (fun entry => entry.resourceId = some resourceId)

end ChronosLedger
