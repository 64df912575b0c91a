import ChronosLedger.LedgerGenerator
import ChronosLedger.MasterSlot
import ChronosLedger.Requirements

namespace ChronosLedger

def roomIsHeld : String := "the resource is held for part of that window"
def roomIsScheduled : String := "the resource is already on the timetable for part of that window"
def roomHasADay : String := "the resource already has a generated day in part of that window"
def cycleIsBlocked : String := "opening this cycle would put its slots on rooms already taken"

structure PlanningCycleCreate where
  cycleLabel : String
  dateBoundsStart : Int
  dateBoundsEnd : Int
  operationalStatus : Bool
  ordered : dateBoundsStart ≤ dateBoundsEnd
  deriving DecidableEq, Repr

structure ActivityCreate where
  activityCode : String
  activityTitle : String
  unitCode : String
  cycleId : Nat
  deriving DecidableEq, Repr

-- The rule is the text the schema has already put in its stored form.
structure MasterSlotCreate where
  rrule : String
  dtstart : Option Int
  timeWindowStart : Time
  timeWindowEnd : Time
  activityId : Nat
  primaryLeadId : Option String
  targetRoomIdentifier : String
  window : timeWindowEnd ≠ timeWindowStart
  deriving Repr

-- Only the lead may be cleared: its inner none is a null sent.
structure MasterSlotUpdate where
  rrule : Option String
  dtstart : Option Int
  timeWindowStart : Option Time
  timeWindowEnd : Option Time
  primaryLeadId : Option (Option String)
  targetRoomIdentifier : Option String
  deriving DecidableEq, Repr

structure DailyLedgerUpdate where
  operationalState : Option DynamicState
  substituteLeadId : Option (Option String)
  deliveryFormat : Option ExecutionMode
  virtualConnectionString : Option (Option String)
  latitudeTarget : Option (Option Int)
  longitudeTarget : Option (Option Int)
  altitudeTarget : Option (Option Int)
  precisionRadiusMeters : Option (Option Int)
  deriving DecidableEq, Repr

structure CycleSweep where
  ledgerRowsRemoved : Nat
  ledgerRowsKept : Nat
  deriving DecidableEq, Repr

structure RetireResult where
  slotsRetired : Nat
  ledgerRowsRemoved : Nat
  ledgerRowsKept : Nat
  deriving DecidableEq, Repr

structure SlotView where
  id : Nat
  requirementsUnmet : List SlotGap
  deriving DecidableEq, Repr

structure SlotUpdateView where
  propagation : Propagation
  ledgerRowsRemoved : Nat
  requirementsUnmet : List SlotGap
  deriving DecidableEq, Repr

def setCycle (db : Database) (cycle : PlanningCycle) : Database :=
  {db with cycles := db.cycles.map (fun c => if c.id = cycle.id then cycle else c)}

def setActivity (db : Database) (activity : Activity) : Database :=
  {db with activities := db.activities.map (fun a => if a.id = activity.id then activity else a)}

def setSlot (db : Database) (slot : StructuralMasterSlot) : Database :=
  {db with slots := db.slots.map (fun s => if s.id = slot.id then slot else s)}

def setDay (db : Database) (row : DailyLedger) : Database :=
  {db with ledger := db.ledger.map (fun r => if r.id = row.id then row else r)}

-- How many of some days would go, and how many stay because they are in use.
def planCount (db : Database) (which : DailyLedger → Bool) : Nat × Nat :=
  let ahead := db.ledger.filter which
  let kept := rowsInUse db (ahead.map DailyLedger.id)
  (ahead.length-kept.length,kept.length)

variable (cal : Recurrence)

-- What a slot is about to claim: a room, a rule from a date, and a window.
structure Claim where
  resourceId : Option Nat
  rrule : String
  dtstart : Int
  start : Time
  finish : Time
  deriving DecidableEq, Repr

def claimOf (slot : StructuralMasterSlot) : Claim :=
  ⟨slot.resourceId,slot.rrule,slot.dtstart,slot.timeWindowStart,slot.timeWindowEnd⟩

def heldFor (db : Database) (cycle : PlanningCycle) (claim : Claim) : List BusyInterval :=
  heldAgainstSlot cal db claim.resourceId claim.rrule claim.dtstart claim.start claim.finish (some cycle)

def scheduledFor (db : Database) (cycle : PlanningCycle) (claim : Claim) (excludeSlotId : Option Nat) : List BusyInterval :=
  slotsAgainstSlot cal db claim.resourceId claim.rrule claim.dtstart claim.start claim.finish excludeSlotId (some cycle)

def daysFor (db : Database) (cycle : PlanningCycle) (claim : Claim) (excludeSlotId : Option Nat) : List BusyInterval :=
  daysAgainstSlot cal db claim.resourceId claim.rrule claim.dtstart claim.start claim.finish excludeSlotId (some cycle)

def refuseIfHeld (db : Database) (cycle : PlanningCycle) (claim : Claim) : Answer Unit :=
  if cycle.operationalStatus = false then .ok () else
  let conflicts := heldFor cal db cycle claim
  ensure (conflicts = []) ⟨409,.conflicts roomIsHeld conflicts,.resourceConflict⟩

def refuseIfScheduled (db : Database) (cycle : PlanningCycle) (claim : Claim) (excludeSlotId : Option Nat) : Answer Unit :=
  if cycle.operationalStatus = false then .ok () else
  let conflicts := scheduledFor cal db cycle claim excludeSlotId
  ensure (conflicts = []) ⟨409,.conflicts roomIsScheduled conflicts,.resourceConflict⟩

-- Not gated by the cycle: a generated day is in the table whatever it says.
def refuseIfADayIsThere (db : Database) (cycle : PlanningCycle) (claim : Claim) (excludeSlotId : Option Nat) : Answer Unit :=
  let conflicts := daysFor cal db cycle claim excludeSlotId
  ensure (conflicts = []) ⟨409,.conflicts roomHasADay conflicts,.resourceConflict⟩

def refuseIfTaken (db : Database) (cycle : PlanningCycle) (claim : Claim) (excludeSlotId : Option Nat) : Answer Unit := do
  refuseIfHeld cal db cycle claim
  refuseIfScheduled cal db cycle claim excludeSlotId
  refuseIfADayIsThere cal db cycle claim excludeSlotId

def anchor (rule : String) (onOrAfter : Int) : Answer Int :=
  found (firstOccurrence cal rule onOrAfter)
    (refuse 422 s!"rrule produces no date on or after {isoDate onOrAfter}" .invalidValue)

def createCycle (db : Database) (payload : PlanningCycleCreate) (currentUser : User) : Answer (Database × PlanningCycle) := do
  requireRoles [.orgAdmin] currentUser
  let cycle : PlanningCycle := ⟨nextId (db.cycles.map PlanningCycle.id),payload.cycleLabel,payload.dateBoundsStart,
    payload.dateBoundsEnd,payload.operationalStatus⟩
  .ok ({db with cycles := db.cycles ++ [cycle]},cycle)

def aheadInCycle (db : Database) (cycleId : Nat) (row : DailyLedger) : Bool :=
  inCycle db (some cycleId) row && db.orgToday ≤ row.targetDate

def closeCycle (db : Database) (cycleId : Nat) (currentUser : User) : Answer (Database × CycleSweep) := do
  requireRoles [.orgAdmin] currentUser
  let cycle ← found (db.cycle? cycleId) (notFound "Cycle not found")
  let closed := setCycle db {cycle with operationalStatus := false}
  let (removed,kept) := planCount closed (aheadInCycle closed cycleId)
  .ok (dropPlans closed (aheadInCycle closed cycleId),⟨removed,kept⟩)

def slotsOfCycle (db : Database) (cycleId : Nat) : List StructuralMasterSlot :=
  (db.slots.filter (fun slot => !slot.retired && (db.activity? slot.activityId).any (fun activity =>
    activity.cycleId = cycleId && !activity.retired))).insertionSort (fun a b => a.id ≤ b.id)

-- Everything one slot of an opening cycle would land on.
def blockedBy (db : Database) (cycle : PlanningCycle) (slot : StructuralMasterSlot) : List (BusyInterval × Nat) :=
  if slot.resourceId.isNone then [] else
  (heldFor cal db cycle (claimOf slot) ++ scheduledFor cal db cycle (claimOf slot) (some slot.id) ++
    daysFor cal db cycle (claimOf slot) (some slot.id)).map (fun clash => (clash,slot.id))

def openCycle (db : Database) (cycleId : Nat) (currentUser : User) : Answer (Database × String) := do
  requireRoles [.orgAdmin] currentUser
  let cycle ← found (db.cycle? cycleId) (notFound "Cycle not found")
  if cycle.operationalStatus = true then .ok (db,s!"Cycle {cycleId} was already open") else
  -- The flag is written before the checks, so that the cycle's own slots meet.
  let opened : PlanningCycle := {cycle with operationalStatus := true}
  let written := setCycle db opened
  let conflicts := (slotsOfCycle db cycleId).flatMap (blockedBy cal written opened)
  ensure (conflicts = []) ⟨409,.blocked cycleIsBlocked conflicts,.resourceConflict⟩
  .ok (written,s!"Cycle {cycleId} opened")

def cloneSlot (newCycle : PlanningCycle) (activityId : Nat) (db : Database) (slot : StructuralMasterSlot) : Database :=
  {db with slots := db.slots ++ [{slot with
    id := nextId (db.slots.map StructuralMasterSlot.id)
    dtstart := (firstOccurrence cal slot.rrule newCycle.dateBoundsStart).getD slot.dtstart
    activityId := activityId
    retired := false}]}

def cloneOffering (newCycle : PlanningCycle) (db : Database) (offering : Activity) : Database :=
  let new : Activity := {offering with id := nextId (db.activities.map Activity.id),cycleId := newCycle.id,retired := false}
  (db.slots.filter (fun slot => slot.activityId = offering.id ∧ slot.retired = false)).foldl
    (cloneSlot cal newCycle new.id) {db with activities := db.activities ++ [new]}

structure CloneView where
  cloned : Nat
  clonedSlots : Nat
  deriving DecidableEq, Repr

def cloneCycleOfferings (db : Database) (oldId newId : Nat) (currentUser : User) : Answer (Database × CloneView) := do
  requireRoles [.orgAdmin] currentUser
  let _ ← found (db.cycle? oldId) (notFound "Cycle not found")
  let new ← found (db.cycle? newId) (notFound "Cycle not found")
  ensure (new.operationalStatus = false) (refuse 409 (s!"Cycle {newId} is open. Clone into a closed cycle and open it " ++
    "afterwards: opening is what checks the copied slots against the rooms") .stateConflict)
  ensure (∀ activity ∈ db.activities, activity.cycleId ≠ newId)
    (refuse 409 s!"Cycle {newId} already has activities. Clone into an empty cycle" .stateConflict)
  let offerings := (db.activities.filter (fun activity => activity.cycleId = oldId ∧ activity.retired = false)).insertionSort
    (fun a b => a.id ≤ b.id)
  let cloned := offerings.foldl (cloneOffering cal new) db
  .ok (cloned,⟨offerings.length,cloned.slots.length-db.slots.length⟩)

def refuseIfRetired (retired : Bool) (what : String) : Answer Unit :=
  ensure (retired = false) (refuse 409 s!"{what} is retired" .stateConflict)

def refuseUnlessActive (db : Database) (userId role : String) : Answer Unit := do
  let user ← found (db.user? userId) (notFound s!"{role} not found")
  ensure (user.deactivated = false) (refuse 422 s!"{role} is deactivated" .userDeactivated)

def refuseUnlessLead (db : Database) (lead : Option String) : Answer Unit :=
  match lead with
  | some lead => refuseUnlessActive db lead "Lead"
  | none => .ok ()

def createActivity (db : Database) (payload : ActivityCreate) (currentUser : User) : Answer (Database × Activity) := do
  requireRoles [.orgAdmin,.unitAdmin] currentUser
  ensureUnitScope currentUser (some payload.unitCode)
  let _ ← found (db.cycle? payload.cycleId) (notFound "Cycle not found")
  match db.activities.find? (fun a => a.cycleId = payload.cycleId ∧ a.activityCode = payload.activityCode) with
  | some taken => .error (refuse 409 (s!"Activity '{payload.activityCode}' already exists in cycle " ++
      s!"{payload.cycleId} as activity {taken.id}" ++ if taken.retired then ", retired" else "") .alreadyExists)
  | none =>
    let activity : Activity := ⟨nextId (db.activities.map Activity.id),payload.activityCode,payload.activityTitle,
      payload.unitCode,payload.cycleId,false⟩
    .ok ({db with activities := db.activities ++ [activity]},activity)

def updateActivity (db : Database) (activityId : Nat) (activityTitle : String) (currentUser : User) :
    Answer (Database × Activity) := do
  requireRoles [.orgAdmin,.unitAdmin] currentUser
  let activity ← found (db.activity? activityId) (notFound "Activity not found")
  ensureUnitScope currentUser (some activity.unitCode)
  refuseIfRetired activity.retired "Activity"
  let titled := {activity with activityTitle := activityTitle}
  .ok (setActivity db titled,titled)

def aheadOfActivity (db : Database) (activityId : Nat) (row : DailyLedger) : Bool :=
  row.activityId = activityId && db.orgToday ≤ row.targetDate

def retireSlotsOf (activityId : Nat) (slot : StructuralMasterSlot) : StructuralMasterSlot :=
  if slot.activityId = activityId then {slot with retired := true} else slot

def retireActivity (db : Database) (activityId : Nat) (currentUser : User) : Answer (Database × RetireResult) := do
  requireRoles [.orgAdmin,.unitAdmin] currentUser
  let activity ← found (db.activity? activityId) (notFound "Activity not found")
  ensureUnitScope currentUser (some activity.unitCode)
  refuseIfRetired activity.retired "Activity"
  let slots := db.slots.filter (fun slot => slot.activityId = activityId ∧ slot.retired = false)
  let (removed,kept) := planCount db (aheadOfActivity db activityId)
  let retired := {setActivity db {activity with retired := true} with slots := db.slots.map (retireSlotsOf activityId)}
  .ok (dropPlans retired (aheadOfActivity retired activityId),⟨slots.length,removed,kept⟩)

-- What `_fill_horizon` and the upload do after their commit.
def fillHorizon (settings : LedgerSettings) (db : Database) (cycleId : Nat) : Database :=
  (materializeHorizon cal db settings (some cycleId)).1

variable (sha256 strip : String → String) (settings : LedgerSettings)

def createMasterSlot (db : Database) (payload : MasterSlotCreate) (currentUser : User) : Answer (Database × SlotView) := do
  requireRoles [.orgAdmin,.unitAdmin] currentUser
  let offering ← found (db.activity? payload.activityId) (notFound "Activity offering not found")
  ensureUnitScope currentUser (some offering.unitCode)
  refuseIfRetired offering.retired "Activity"
  refuseUnlessLead db payload.primaryLeadId
  let cycle ← found (db.cycle? offering.cycleId) internalError
  let dtstart ← anchor cal payload.rrule (payload.dtstart.getD cycle.dateBoundsStart)
  let (room,db) := getOrCreateRoom strip payload.targetRoomIdentifier db
  ensureResourceScope currentUser room
  let claim : Claim := ⟨some room.id,payload.rrule,dtstart,payload.timeWindowStart,payload.timeWindowEnd⟩
  refuseIfTaken cal db cycle claim none
  let slot : StructuralMasterSlot := ⟨nextId (db.slots.map StructuralMasterSlot.id),payload.rrule,dtstart,
    payload.timeWindowStart,payload.timeWindowEnd,payload.activityId,payload.primaryLeadId,some room.id,false⟩
  let filled := fillHorizon cal settings {db with slots := db.slots ++ [slot]} offering.cycleId
  .ok (filled,⟨slot.id,unmetForSlot cal sha256 filled slot⟩)

-- The rule and the start a change comes to. The same rule sent back without a
-- start is not a new rule, and keeps the start it has.
def changedRule (slot : StructuralMasterSlot) (cycle : PlanningCycle) (payload : MasterSlotUpdate) : Answer (String × Int) :=
  let rule := payload.rrule.getD slot.rrule
  if rule = slot.rrule ∧ payload.dtstart = none then .ok (slot.rrule,slot.dtstart) else do
    let dtstart ← anchor cal rule (payload.dtstart.getD cycle.dateBoundsStart)
    .ok (rule,dtstart)

-- The room a change names, found or made, or the one the slot has.
def askedRoom (db : Database) (slot : StructuralMasterSlot) (code : Option String) (currentUser : User) :
    Answer (Option Nat × Database) :=
  match code with
  | none => .ok (slot.resourceId,db)
  | some code => do
    let (room,db) := getOrCreateRoom strip code db
    ensureResourceScope currentUser room
    .ok (some room.id,db)

def withdrawOldRule (db : Database) (slot : StructuralMasterSlot) (rule : String) (dtstart : Int) : Answer (Database × Nat) :=
  if (rule,dtstart) = (slot.rrule,slot.dtstart) then .ok (db,0) else withdrawPlannedDays db slot "given another rule or start"

def updateMasterSlot (db : Database) (slotId : Nat) (payload : MasterSlotUpdate) (currentUser : User) :
    Answer (Database × SlotUpdateView) := do
  requireRoles [.orgAdmin,.unitAdmin] currentUser
  let slot ← found (db.slot? slotId) (notFound "Master slot not found")
  let activity ← found (db.activity? slot.activityId) internalError
  ensureUnitScope currentUser (some activity.unitCode)
  refuseIfRetired slot.retired "Slot"
  refuseUnlessLead db payload.primaryLeadId.join
  let start := payload.timeWindowStart.getD slot.timeWindowStart
  let finish := payload.timeWindowEnd.getD slot.timeWindowEnd
  ensure (finish ≠ start) (refuse 422 "time_window_end must not equal time_window_start" .invalidValue)
  let cycle ← found (db.cycle? activity.cycleId) internalError
  let (rule,dtstart) ← changedRule cal slot cycle payload
  let (resourceId,db) ← askedRoom strip db slot payload.targetRoomIdentifier currentUser
  let claim : Claim := ⟨resourceId,rule,dtstart,start,finish⟩
  -- Only when the change would move the class.
  (if claim = claimOf slot then .ok () else refuseIfTaken cal db cycle claim (some slot.id))
  let (db,removed) ← withdrawOldRule db slot rule dtstart
  let moved : StructuralMasterSlot := {slot with
    rrule := rule
    dtstart := dtstart
    timeWindowStart := start
    timeWindowEnd := finish
    primaryLeadId := payload.primaryLeadId.getD slot.primaryLeadId
    resourceId := resourceId}
  let (db,propagation) := propagateSlotCorrections (setSlot db moved) [moved]
  .ok (db,⟨propagation,removed,unmetForSlot cal sha256 db moved⟩)

def deleteMasterSlot (db : Database) (slotId : Nat) (currentUser : User) : Answer (Database × Deletion) := do
  requireRoles [.orgAdmin,.unitAdmin] currentUser
  let slot ← found (db.slot? slotId) (notFound "Master slot not found")
  let activity ← found (db.activity? slot.activityId) internalError
  ensureUnitScope currentUser (some activity.unitCode)
  refuseIfRetired slot.retired "Slot"
  deleteSlot db slot

def retireMasterSlot (db : Database) (slotId : Nat) (currentUser : User) : Answer (Database × RetireResult) := do
  requireRoles [.orgAdmin,.unitAdmin] currentUser
  let slot ← found (db.slot? slotId) (notFound "Master slot not found")
  let activity ← found (db.activity? slot.activityId) internalError
  ensureUnitScope currentUser (some activity.unitCode)
  refuseIfRetired slot.retired "Slot"
  let retired := setSlot db {slot with retired := true}
  let (removed,kept) := planCount retired (plannedFor retired slot.id)
  .ok (dropPlans retired (plannedFor retired slot.id),⟨1,removed,kept⟩)

def editedDay (payload : DailyLedgerUpdate) (row : DailyLedger) : DailyLedger :=
  {row with
    operationalState := payload.operationalState.getD row.operationalState
    substituteLeadId := payload.substituteLeadId.getD row.substituteLeadId
    deliveryFormat := payload.deliveryFormat.getD row.deliveryFormat
    virtualConnectionString := payload.virtualConnectionString.getD row.virtualConnectionString
    latitudeTarget := payload.latitudeTarget.getD row.latitudeTarget
    longitudeTarget := payload.longitudeTarget.getD row.longitudeTarget
    altitudeTarget := payload.altitudeTarget.getD row.altitudeTarget
    precisionRadiusMeters := payload.precisionRadiusMeters.getD row.precisionRadiusMeters}

def updateLedgerEntry (db : Database) (ledgerId : Nat) (payload : DailyLedgerUpdate) (currentUser : User) :
    Answer (Database × Unit) := do
  requireRoles [.orgAdmin,.unitAdmin] currentUser
  let entry ← found (db.day? ledgerId) (notFound "Ledger entry not found")
  let activity ← found (db.activity? entry.activityId) internalError
  ensureUnitScope currentUser (some activity.unitCode)
  match payload.substituteLeadId with
  | some (some substitute) => refuseUnlessActive db substitute "Substitute"
  | _ => .ok ()
  .ok (setDay db (editedDay payload entry),())

end ChronosLedger
