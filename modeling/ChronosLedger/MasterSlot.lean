import ChronosLedger.Refusals

namespace ChronosLedger

-- A row is a plan until somebody marks attendance on it or writes a note.
def inUse (db : Database) (rowId : Nat) : Bool :=
  db.marks.any (fun mark => mark.ledgerInstanceId = rowId) || db.annotations.any (fun note => note.ledgerInstanceId = rowId)

def rowsInUse (db : Database) (rowIds : List Nat) : List Nat := rowIds.filter (inUse db)

-- Deleting a day takes its marks and its notes with it, as the relationships do.
def dropDays (db : Database) (gone : DailyLedger → Bool) : Database :=
  let ids := (db.ledger.filter gone).map DailyLedger.id
  {db with
    ledger := db.ledger.filter (fun row => !gone row)
    marks := db.marks.filter (fun mark => mark.ledgerInstanceId ∉ ids)
    annotations := db.annotations.filter (fun note => note.ledgerInstanceId ∉ ids)}

-- The days of `which` that are still plans go and the ones in use stay.
def dropPlans (db : Database) (which : DailyLedger → Bool) : Database :=
  dropDays db (fun row => which row && !inUse db row.id)

def correctedDay (slot : StructuralMasterSlot) (row : DailyLedger) : DailyLedger :=
  -- The fence was pinned to the old room.
  let row := if row.resourceId = slot.resourceId then row
    else {row with latitudeTarget := none,longitudeTarget := none,altitudeTarget := none}
  {row with
    resourceId := slot.resourceId
    activeLeadId := slot.primaryLeadId
    timeWindowStart := some slot.timeWindowStart
    timeWindowEnd := some slot.timeWindowEnd}

def slotOf (slots : List StructuralMasterSlot) (row : DailyLedger) : Option StructuralMasterSlot :=
  row.masterSlotId.bind (fun id => slots.find? (fun slot => slot.id = id))

def propagateDay (db : Database) (slots : List StructuralMasterSlot) (row : DailyLedger) : DailyLedger :=
  match slotOf slots row with
  | none => row
  | some slot => if db.orgToday < row.targetDate ∧ inUse db row.id = false then correctedDay slot row else row

structure Propagation where
  updated : Nat
  kept : List DailyLedger
  deriving DecidableEq, Repr

def propagateSlotCorrections (db : Database) (slots : List StructuralMasterSlot) : Database × Propagation :=
  let rows := db.ledger.filter (fun row => (slotOf slots row).isSome ∧ db.orgToday < row.targetDate)
  let kept := rows.filter (fun row => inUse db row.id)
  ({db with ledger := db.ledger.map (propagateDay db slots)},⟨rows.length-kept.length,kept⟩)

def plannedFor (db : Database) (slotId : Nat) (row : DailyLedger) : Bool :=
  row.masterSlotId = some slotId && db.orgToday ≤ row.targetDate

def withdrawPlannedDays (db : Database) (slot : StructuralMasterSlot) (why : String) : Answer (Database × Nat) := do
  let planned := db.ledger.filter (plannedFor db slot.id)
  let blocked := rowsInUse db (planned.map DailyLedger.id)
  let dates := ((planned.filter (fun row => row.id ∈ blocked)).map (fun row => isoDate row.targetDate)).insertionSort (· ≤ ·)
  ensure (blocked = []) (refuse 409 (s!"This slot cannot be {why} while days it has produced carry " ++
    "attendance or notes: " ++ String.intercalate ", " dates) .stateConflict)
  .ok (dropDays db (plannedFor db slot.id),planned.length)

def detachDay (slotId : Nat) (row : DailyLedger) : DailyLedger :=
  if row.masterSlotId = some slotId then {row with masterSlotId := none} else row

structure Deletion where
  removed : Nat
  detached : Nat
  deriving DecidableEq, Repr

def deleteSlot (db : Database) (slot : StructuralMasterSlot) : Answer (Database × Deletion) := do
  let detached := db.ledger.filter (fun row => row.masterSlotId = some slot.id ∧ row.targetDate < db.orgToday)
  let (withdrawn,removed) ← withdrawPlannedDays db slot "deleted"
  .ok ({withdrawn with
    slots := withdrawn.slots.filter (fun s => s.id ≠ slot.id)
    ledger := withdrawn.ledger.map (detachDay slot.id)},⟨removed,detached.length⟩)

end ChronosLedger
