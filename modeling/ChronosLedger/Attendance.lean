import Mathlib.Data.List.Dedup
import ChronosLedger.Refusals

namespace ChronosLedger

structure AttendanceMarkRequest where
  ledgerInstanceId : Nat
  memberId : String
  markingStatus : VerificationMetric
  deriving DecidableEq, Repr

structure ReverseRsvpCreate where
  targetAbsenceDate : Int
  endDate : Option Int
  contextJustification : String
  ordered : ∀ last ∈ endDate, targetAbsenceDate ≤ last
  deriving DecidableEq, Repr

structure AnnotationCreate where
  ledgerInstanceId : Nat
  classificationTag : String
  annotationPayload : String
  deriving DecidableEq, Repr

def ledgerOr404 (db : Database) (ledgerId : Nat) : Answer DailyLedger :=
  found (db.day? ledgerId) (notFound "Ledger instance not found")

def hasLedgerAuthority (db : Database) (currentUser : User) (ledger : DailyLedger) : Bool :=
  if some currentUser.id = ledger.activeLeadId ∨ some currentUser.id = ledger.substituteLeadId then true
  else if currentUser.roleType ≠ .orgAdmin ∧ currentUser.roleType ≠ .unitAdmin then false
  else inUnitScope currentUser ((db.activity? ledger.activityId).map Activity.unitCode)

def ensureLedgerAuthority (db : Database) (currentUser : User) (ledger : DailyLedger) : Answer Unit :=
  ensure (hasLedgerAuthority db currentUser ledger = true) (refuse 403 "Not authorized for this ledger" .forbidden)

def refuseUnknownMembers (db : Database) (memberIds : List String) : Answer Unit :=
  let unknown := (memberIds.filter (fun id => (db.user? id).isNone)).dedup.insertionSort (fun a b => a ≤ b)
  ensure (unknown = []) (notFound ("Member not found: " ++ String.intercalate ", " unknown))

-- `existing` is read before the first of them is written.
def writeMark (existing : List VerificationLedger) (ledgerId : Nat) (agentId : String) (db : Database)
    (record : AttendanceMarkRequest) : Database :=
  match existing.find? (fun mark => mark.ledgerInstanceId = ledgerId ∧ mark.memberId = record.memberId) with
  | none => {db with marks := db.marks ++ [⟨nextId (db.marks.map VerificationLedger.id),ledgerId,record.memberId,
      record.markingStatus,some agentId⟩]}
  | some mark =>
    if mark.markingStatus = record.markingStatus then db
    else {db with marks := db.marks.map (fun m => if m.id = mark.id then
      {m with markingStatus := record.markingStatus,authorizingAgentId := some agentId} else m)}

def writeMarks (db : Database) (ledgerId : Nat) (records : List AttendanceMarkRequest) (agentId : String) : Database :=
  records.foldl (writeMark db.marks ledgerId agentId) db

-- `fence` is what the geofence answers for the position sent: floating point
-- trigonometry, and accepting wherever a session has no fence.
def markAttendance (db : Database) (payload : AttendanceMarkRequest) (fence : Answer Unit) (currentUser : User) :
    Answer (Database × Unit) := do
  let ledger ← ledgerOr404 db payload.ledgerInstanceId
  if currentUser.roleType = .member then
    ensure (payload.memberId = currentUser.id) (refuse 403 "Cannot mark attendance for another member" .forbidden)
    fence
  else ensureLedgerAuthority db currentUser ledger
  refuseUnknownMembers db [payload.memberId]
  .ok (writeMarks db ledger.id [payload] currentUser.id,())

def batchMarkAttendance (db : Database) (ledgerInstanceId : Nat) (records : List AttendanceMarkRequest) (currentUser : User) :
    Answer (Database × Nat) := do
  let ledger ← ledgerOr404 db ledgerInstanceId
  ensureLedgerAuthority db currentUser ledger
  let stray := ((records.map AttendanceMarkRequest.ledgerInstanceId).filter (fun id => id ≠ ledger.id)).dedup.insertionSort
    (fun a b => a ≤ b)
  ensure (stray = []) (refuse 422 (s!"Every record must name ledger {ledger.id}, not " ++
    String.intercalate ", " (stray.map toString)) .invalidValue)
  let members := records.map AttendanceMarkRequest.memberId
  let repeated := (members.filter (fun id => 1 < members.count id)).dedup.insertionSort (fun a b => a ≤ b)
  ensure (repeated = []) (refuse 422 ("Listed more than once: " ++ String.intercalate ", " repeated) .invalidValue)
  refuseUnknownMembers db members
  .ok (writeMarks db ledger.id records currentUser.id,records.length)

def createAnnotation (db : Database) (payload : AnnotationCreate) (currentUser : User) : Answer (Database × LedgerAnnotation) := do
  let ledger ← ledgerOr404 db payload.ledgerInstanceId
  ensureLedgerAuthority db currentUser ledger
  let annotation : LedgerAnnotation := ⟨nextId (db.annotations.map LedgerAnnotation.id),payload.ledgerInstanceId,
    currentUser.id,payload.classificationTag,payload.annotationPayload⟩
  .ok ({db with annotations := db.annotations ++ [ annotation]}, annotation)

def routeAbsenceDeclaration (db : Database) (payload : ReverseRsvpCreate) (currentUser : User) :
    Answer (Database × ReverseRsvpLog) := do
  let user := db.user? currentUser.id
  let manager := (user.bind User.reportingLineManager).bind db.user?
  ensure (∃ m ∈ manager, m.deactivated = false)
    (refuse 400 "Reporting hierarchy missing. Contact admin to set your manager." .managerNotSet)
  let log : ReverseRsvpLog := ⟨nextId (db.absences.map ReverseRsvpLog.id),currentUser.id,payload.targetAbsenceDate,
    payload.endDate,payload.contextJustification,.pendingVerification,user.bind User.reportingLineManager⟩
  .ok ({db with absences := db.absences ++ [log]},log)

-- A request goes to the submitter's manager; one left waiting on somebody who
-- cannot sign in any more goes to an admin, and nobody decides their own.
def decidableBy (db : Database) (currentUser : User) (log : ReverseRsvpLog) : Bool :=
  let mine := log.authorizedByUserId = some currentUser.id
  let leftBehind := (log.authorizedByUserId = none ∨ ∃ id ∈ log.authorizedByUserId, ∃ u ∈ db.user? id, u.deactivated = true) ∧
    log.submittingUserId ≠ currentUser.id
  match currentUser.roleType with
  | .orgAdmin => decide (mine ∨ leftBehind)
  | .unitAdmin =>
    if currentUser.unitCode.isNone then decide mine
    else decide (mine ∨ leftBehind ∧ ∃ u ∈ db.user? log.submittingUserId, u.unitCode = currentUser.unitCode ∧
      u.roleType ≠ .orgAdmin ∧ u.roleType ≠ .unitAdmin)
  | _ => decide mine

def leaveDay (log : ReverseRsvpLog) (state : LogVerificationState) (row : DailyLedger) : DailyLedger :=
  if row.activeLeadId = some log.submittingUserId ∧ log.targetAbsenceDate ≤ row.targetDate ∧
      row.targetDate ≤ log.endDate.getD log.targetAbsenceDate then
    if state = .verifiedApproved then {row with operationalState := .onLeave,substituteLeadId := none}
    else if row.operationalState = .onLeave then {row with operationalState := .scheduled} else row
  else row

def commitAbsenceOverride (db : Database) (logId : Nat) (executionAgent : String) (state : LogVerificationState) : Database :=
  match db.absences.find? (fun log => log.id = logId) with
  | none => db
  | some log => {db with
    absences := db.absences.map (fun l => if l.id = logId then
      {l with approvalState := state,authorizedByUserId := some executionAgent} else l)
    ledger := db.ledger.map (leaveDay log state)}

def decideAbsence (db : Database) (logId : Nat) (decision : LogVerificationState) (currentUser : User) :
    Answer (Database × Unit) := do
  let log ← found (db.absences.find? (fun log => log.id = logId ∧ decidableBy db currentUser log = true))
    (notFound "Absence request not found or not authorized")
  .ok (commitAbsenceOverride db log.id currentUser.id decision,())

end ChronosLedger
