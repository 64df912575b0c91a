import Mathlib.Data.Prod.Lex
import ChronosLedger.LedgerGenerator
import ChronosLedger.Library.FirstAnswers

namespace ChronosLedger

-- What the locator reads of a user.
structure StaffUser where
  id : String
  assignedBaseStation : Option String
  deriving DecidableEq, Repr

structure Whereabouts where
  resolvedLocation : Option String
  status : String
  deriving DecidableEq, Repr

abbrev Resolved := List (String × Whereabouts)

-- The value kept under each key, decoded, or nothing when redis cannot be
-- reached.
abbrev RedisCache := Option (String → Option String)

-- A row that has a window.
structure TimedDay where
  row : DailyLedger
  start : Time
  finish : Time
  deriving DecidableEq, Repr

-- The order a query's rows are read in before any ORDER BY. No query has one
-- that settles every tie, and another query need not keep this one's.
structure ReadOrder where
  days : List TimedDay → List TimedDay
  slots : List BookedSlot → List BookedSlot
  days_perm : ∀ found, (days found).Perm found
  slots_perm : ∀ found, (slots found).Perm found

def tableOrder : ReadOrder where
  days := id
  slots := id
  days_perm := List.Perm.refl
  slots_perm := List.Perm.refl

variable (cal : Recurrence) (order : ReadOrder) (db : Database) (redisCache : RedisCache) (instant : Int)

def coverable : List DynamicState := [.scheduled,.proxySubstitute,.onLeave]

-- Half open, the start in and the end out.
def covers (day : Int) (start finish : Time) : Bool :=
  let (starts,ends) := windowSpan day start finish
  starts ≤ instant ∧ instant < ends

def targetRoomIdentifier (resourceId : Option Nat) : Option String := (resourceId.bind db.resource?).map Resource.code

-- None in an f-string.
def roomText (room : Option String) : String := room.getD "None"

def onApprovedLeave : Whereabouts := ⟨some "OFF_SITE","On Approved Leave"⟩

def leading (room : Option String) (code : String) : Whereabouts := ⟨room,"Leading " ++ code ++ " in Room " ++ roomText room⟩

def overrides (staff : List StaffUser) : List (Option String) :=
  match redisCache with
  | some mget => staff.map (fun person => mget ("state_override:" ++ person.id))
  | none => staff.map (fun _ => none)

-- A text that is empty is no override.
def resolveOverride (resolved : Resolved) (found : StaffUser × Option String) : Resolved :=
  match found.2 with
  | some cached => if cached = "" then resolved else (found.1.id,⟨some "UNKNOWN",cached⟩) :: resolved
  | none => resolved

def manualOverrides (staff : List StaffUser) : Resolved := (staff.zip (overrides redisCache staff)).foldl resolveOverride []

def timedDay (row : DailyLedger) : Option TimedDay :=
  match row.timeWindowStart,row.timeWindowEnd with
  | some start,some finish => some ⟨row,start,finish⟩
  | _,_ => none

def dayRank (day : TimedDay) : Lex (Int × Time) := toLex (day.row.targetDate,day.start)

def runningDays (unresolved : List String) (yesterday today : Int) : List TimedDay :=
  ((order.days ((db.ledger.filterMap timedDay).filter (fun day =>
    (day.row.activeLeadId.any (fun lead => lead ∈ unresolved) ∨ day.row.substituteLeadId.any (fun cover => cover ∈ unresolved)) ∧
    (day.row.targetDate = yesterday ∨ day.row.targetDate = today)))).insertionSort
      (fun a b => dayRank a ≤ dayRank b)).filter (fun day => covers instant day.row.targetDate day.start day.finish)

def activityCodes (running : List TimedDay) : List (Nat × String) :=
  (db.activities.filter (fun activity => activity.id ∈ running.map (fun day => day.row.activityId))).map
    (fun activity => (activity.id,activity.activityCode))

-- One row, for its cover and then for its lead.
def resolveCover (asked : List String) (resolved : Resolved) (day : TimedDay) : Resolved :=
  let room := targetRoomIdentifier db day.row.resourceId
  match day.row.substituteLeadId with
  | some cover =>
    if cover ∈ asked ∧ (resolved.lookup cover).isNone ∧ day.row.operationalState ∈ coverable then
      (cover,⟨room,"Substituting in Room " ++ roomText room⟩) :: resolved
    else resolved
  | none => resolved

def resolveLead (codes : List (Nat × String)) (asked : List String) (resolved : Resolved) (day : TimedDay) : Resolved :=
  match day.row.activeLeadId with
  | none => resolved
  | some lead =>
    if lead ∉ asked ∨ (resolved.lookup lead).isSome then resolved
    else if day.row.operationalState = .onLeave then (lead,onApprovedLeave) :: resolved
    else if day.row.operationalState = .scheduled ∧ day.row.substituteLeadId = none then
      (lead,leading (targetRoomIdentifier db day.row.resourceId) ((codes.lookup day.row.activityId).getD "a session")) :: resolved
    else resolved

def resolveDay (codes : List (Nat × String)) (asked : List String) (resolved : Resolved) (day : TimedDay) : Resolved :=
  resolveLead db codes asked (resolveCover db asked resolved day) day

-- The dates of the slots, by date and start.
def slotRank (found : Int × BookedSlot) : Lex (Int × Time) := toLex (found.1,found.2.slot.timeWindowStart)

def slotDates (unresolved : List String) (yesterday today : Int) : List (Int × BookedSlot) :=
  (order.slots ((openSlots db).filter (fun booked => booked.slot.primaryLeadId.any (fun lead => lead ∈ unresolved) ∧
    booked.cycle.dateBoundsStart ≤ today ∧ yesterday ≤ booked.cycle.dateBoundsEnd))).flatMap (fun booked =>
      (occurrences cal booked.slot.rrule booked.slot.dtstart (max yesterday booked.cycle.dateBoundsStart)
        (min today booked.cycle.dateBoundsEnd)).map (fun day => (day,booked)))

def generatedDates (found : List (Int × BookedSlot)) (yesterday today : Int) : List (Nat × Int) :=
  db.ledger.filterMap (fun row => row.masterSlotId.bind (fun slotId =>
    if slotId ∈ found.map (fun item => item.2.slot.id) ∧ (row.targetDate = yesterday ∨ row.targetDate = today) then
      some (slotId,row.targetDate)
    else none))

def absentDates (unresolved : List String) (yesterday today : Int) : List (String × Int) :=
  (db.absences.filter (fun log => log.submittingUserId ∈ unresolved ∧ log.targetAbsenceDate ≤ today ∧
    yesterday ≤ log.endDate.getD log.targetAbsenceDate ∧ log.approvalState = .verifiedApproved)).flatMap (fun log =>
      ([yesterday,today].filter (fun day => log.targetAbsenceDate ≤ day ∧ day ≤ log.endDate.getD log.targetAbsenceDate)).map
        (fun day => (log.submittingUserId,day)))

instance generatedPairs : LawfulBEq (Nat × Int) := inferInstance
instance absentPairs : LawfulBEq (String × Int) := inferInstance

def resolveSlot (generated : List (Nat × Int)) (absent : List (String × Int)) (resolved : Resolved) (found : Int × BookedSlot) :
    Resolved :=
  if (found.2.slot.id,found.1) ∈ generated then resolved else
  match found.2.slot.primaryLeadId with
  | none => resolved
  | some lead =>
    if (resolved.lookup lead).isNone ∧ covers instant found.1 found.2.slot.timeWindowStart found.2.slot.timeWindowEnd then
      if (lead,found.1) ∈ absent then (lead,onApprovedLeave) :: resolved
      else (lead,leading (targetRoomIdentifier db found.2.slot.resourceId) found.2.activity.activityCode) :: resolved
    else resolved

-- The rest of a day of leave.
def resolveLeave (absent : List (String × Int)) (today : Int) (resolved : Resolved) (lead : String) : Resolved :=
  if (resolved.lookup lead).isNone ∧ (lead,today) ∈ absent then (lead,onApprovedLeave) :: resolved else resolved

-- An empty station is no station.
def stationed (person : StaffUser) : Whereabouts :=
  ⟨some ((person.assignedBaseStation.filter (fun station => station ≠ "")).getD "Unassigned"),"Available / Unassigned"⟩

def resolveStation (resolved : Resolved) (person : StaffUser) : Resolved :=
  if (resolved.lookup person.id).isNone then (person.id,stationed person) :: resolved else resolved

-- `instant` is the organization's wall clock, the date of which is today.
def determineStaffCurrentStates (staff : List StaffUser) : Resolved :=
  if staff.isEmpty then [] else
  let today := dateOf instant
  let yesterday := today-1
  let resolved := manualOverrides redisCache staff
  let unresolved := (staff.map StaffUser.id).filter (fun id => (resolved.lookup id).isNone)
  let running := runningDays order db instant unresolved yesterday today
  let codes := activityCodes db running
  let resolved := running.foldl (resolveDay db codes unresolved) resolved
  let unresolved := unresolved.filter (fun lead => (resolved.lookup lead).isNone)
  let candidates := slotDates cal order db unresolved yesterday today
  let generated := generatedDates db candidates yesterday today
  let absent := absentDates db unresolved yesterday today
  let resolved := (candidates.insertionSort (fun a b => slotRank a ≤ slotRank b)).foldl
    (resolveSlot db instant generated absent) resolved
  let resolved := unresolved.foldl (resolveLeave absent today) resolved
  staff.foldl resolveStation resolved

end ChronosLedger
