import Mathlib.Data.List.Lex
import Mathlib.Data.String.Basic
import Mathlib.Data.Prod.Lex
import ChronosLedger.Conflicts
import ChronosLedger.Requirements
import ChronosLedger.Library.Groups
import ChronosLedger.Library.Sweeps

namespace ChronosLedger
open Spans

-- An item's type and id. A stretch of a pool is no item.
def RowRef.type : RowRef → String
  | .slot _ => "slot"
  | .day _ => "ledger_day"
  | .reservation _ => "reservation"
  | .pool => "pool"

def RowRef.id : RowRef → Nat
  | .slot id | .day id | .reservation id => id
  | .pool => 0

def RowRef.isReservation : RowRef → Bool
  | .reservation _ => true
  | _ => false

def Entry.span (entry : Entry) : Int × Int := (entry.starts,entry.ends)

abbrev SortKey := Lex (Int × Lex (Int × Lex (String × Nat)))

-- _sort_key.
def sortKey (entry : Entry) : SortKey := toLex (entry.starts,toLex (entry.ends,toLex (entry.row.type,entry.row.id)))

-- _sweep.
def sweep (entries : List Entry) : List (Entry × Entry) := Sweeps.sweep Entry.span (fun a b => sortKey a ≤ sortKey b) entries

inductive ReportKind where
  | resourceOverlap
  | resourceOverbooked
  | memberOverlap
  | requirementUnmet
  | leadOverlap
  deriving DecidableEq, Repr

def ReportKind.value : ReportKind → String
  | .resourceOverlap => "resource_overlap"
  | .resourceOverbooked => "resource_overbooked"
  | .memberOverlap => "member_overlap"
  | .requirementUnmet => "requirement_unmet"
  | .leadOverlap => "lead_overlap"

structure Subject where
  resourceId : Option Nat := none
  memberId : Option String := none
  leadId : Option String := none
  capacity : Option Nat := none
  taken : Option Int := none
  requirementId : Option Nat := none
  message : Option String := none
  deriving DecidableEq, Repr

structure Report where
  kind : ReportKind
  subject : Subject
  date : Int
  start : Time
  endDate : Int
  finish : Time
  items : List Entry
  starts : Int
  deriving DecidableEq, Repr

-- _report.
def reportOf (kind : ReportKind) (starts ends : Int) (items : List Entry) (subject : Subject) : Report :=
  ⟨kind,subject,dateOf starts,timeOf starts,dateOf ends,timeOf ends,items,starts⟩

-- _conflict.
def conflict (kind : ReportKind) (subject : Subject) (first second : Entry) : Report :=
  reportOf kind (max first.starts second.starts) (min first.ends second.ends) [first,second] subject

-- _overbooked.
def overbooked (resource : Resource) (heldOn : List Entry) (holds : List Reservation) : List Report :=
  let booked := heldOn.filter (fun entry => entry.row.isReservation)
  let rows := booked.filterMap (fun entry => holds.find? (fun held => held.id = entry.row.id))
  let capacity := resource.capacity.getD 0
  (poolStretches rows (capacity+1)).map (fun stretch =>
    reportOf .resourceOverbooked stretch.1 stretch.2
      ((booked.insertionSort (fun a b => sortKey a ≤ sortKey b)).filter (fun entry => entry.starts < stretch.2 ∧ stretch.1 < entry.ends))
      { resourceId := some resource.id, capacity := some capacity, taken := some (poolPeak rows (some stretch)) })

abbrev ReportKey := Lex (String × Lex (Int × Lex (String × Lex (String × Lex (Int × List (Lex (String × Lex (Nat × Int))))))))

-- _report_key.
def reportKey (report : Report) : ReportKey :=
  toLex (report.kind.value,toLex ((report.subject.resourceId.map Int.ofNat).getD (-1),toLex (report.subject.memberId.getD "",
    toLex (report.subject.leadId.getD "",toLex (report.starts,
      report.items.map (fun item => toLex (item.row.type,toLex (item.row.id,item.date))))))))

-- What counts on a resource: on a shared one a reservation clashes with nothing.
def clashingOn (mode : ResourceMode) (heldOn : List Entry) : List Entry :=
  if mode = .shared then heldOn.filter (fun entry => !entry.row.isReservation) else heldOn

def pairCounts (mode : ResourceMode) (first second : Entry) : Bool :=
  !(mode = .pooled && first.row.isReservation && second.row.isReservation)

-- The key of a resource leads to its row.
def resourceReports (db : Database) (holds : List Reservation) (entries : List Entry) (resourceId : Nat) : List Report :=
  match db.resource? resourceId with
  | none => []
  | some resource =>
    let heldOn := clashingOn resource.mode (Groups.group Entry.resourceId entries resourceId)
    ((sweep heldOn).filter (fun pair => pairCounts resource.mode pair.1 pair.2)).map (fun pair =>
        conflict .resourceOverlap { resourceId := some resourceId } pair.1 pair.2) ++
      if resource.mode = .pooled then overbooked resource heldOn holds else []

def sameActivity (first second : Entry) : Bool := first.activityId = second.activityId

-- Who is enrolled in something that runs, a deactivated account aside.
def attendances (db : Database) (entries : List Entry) : List ActivityEnrollment :=
  db.enrollments.filter (fun row => row.activityId ∈ Groups.keys Entry.activityId entries ∧
    ∃ user ∈ db.users, user.id = row.memberId ∧ user.deactivated = false)

def attending (db : Database) (entries : List Entry) (memberId : String) : List Entry :=
  ((attendances db entries).filter (fun row => row.memberId = memberId)).flatMap (fun row =>
    Groups.group Entry.activityId entries row.activityId)

def memberReports (db : Database) (entries : List Entry) (memberId : String) : List Report :=
  ((sweep (attending db entries memberId)).filter (fun pair => !sameActivity pair.1 pair.2)).map (fun pair =>
    conflict .memberOverlap { memberId := some memberId } pair.1 pair.2)

def truthy (text : Option String) : Option String := text.filter (fun s => s ≠ "")

-- The lead of an entry: a cover before who was covered.
def leadingOf (db : Database) (days : List DailyLedger) (entry : Entry) : Option String :=
  match entry.row with
  | .slot id => (db.slots.find? (fun slot => slot.id = id)).bind (fun slot => truthy slot.primaryLeadId)
  | .day id => (days.find? (fun day => day.id = id)).bind (fun day => (truthy day.substituteLeadId).or (truthy day.activeLeadId))
  | .reservation _ => none
  | .pool => none

def leadReports (db : Database) (days : List DailyLedger) (entries : List Entry) (leadId : String) : List Report :=
  if ∃ user ∈ db.users, user.id = leadId ∧ user.deactivated = false then
    ((sweep (Groups.group (leadingOf db days) entries leadId)).filter (fun pair => !sameActivity pair.1 pair.2)).map (fun pair =>
      conflict .leadOverlap { leadId := some leadId } pair.1 pair.2)
  else []

variable (cal : Recurrence) (sha256 : String → String)

def requirementReports (db : Database) (entry : Entry) : List Report :=
  if entry.row.isReservation then [] else
  let needing := ownersWithRequirements db
  let activityId := entry.activityId.filter (fun id => (RequirementOwner.activity,id) ∈ needing)
  let resourceId := entry.resourceId.filter (fun id => (RequirementOwner.resource,id) ∈ needing)
  if activityId = none ∧ resourceId = none then [] else
  (unmetForWindow cal sha256 db activityId resourceId ⟨entry.date,entry.start,entry.finish⟩).map (fun gap =>
    reportOf .requirementUnmet entry.starts entry.ends [entry]
      { resourceId := entry.resourceId, requirementId := some gap.requirementId, message := some gap.message })

def resourceSide (db : Database) (holds : List Reservation) (entries : List Entry) : List Report :=
  (Groups.keys Entry.resourceId entries).flatMap (resourceReports db holds entries)

def memberSide (db : Database) (entries : List Entry) : List Report :=
  (Groups.keys (fun row : ActivityEnrollment => some row.memberId) (attendances db entries)).flatMap (memberReports db entries)

def leadSide (db : Database) (days : List DailyLedger) (entries : List Entry) : List Report :=
  (Groups.keys (leadingOf db days) entries).flatMap (leadReports db days entries)

def heldBetween (db : Database) (fromDate toDate : Int) : List Reservation :=
  db.reservations.filter (fun held => held.status = .held ∧ fromDate-1 ≤ held.reservedDate ∧ held.reservedDate ≤ toDate)

-- Every side in turn, before the reports are sorted.
def foundConflicts (db : Database) (fromDate toDate : Int) : List Report :=
  let entries := conflictEntries cal db fromDate toDate
  resourceSide db (heldBetween db fromDate toDate) entries ++ memberSide db entries ++
    entries.flatMap (requirementReports cal sha256 db) ++ leadSide db (timedDays db fromDate toDate) entries

-- find_conflicts.
def findConflicts (db : Database) (fromDate toDate : Int) : List Report :=
  (foundConflicts cal sha256 db fromDate toDate).insertionSort (fun a b => reportKey a ≤ reportKey b)

end ChronosLedger
