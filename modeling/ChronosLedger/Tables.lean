import ChronosLedger.Calendar

namespace ChronosLedger

inductive InstitutionalRole where
  | orgAdmin | unitAdmin | staff | member
  deriving DecidableEq, Repr

inductive DynamicState where
  | scheduled | onLeave | proxySubstitute | lunch | internalMeeting | adhocEvent
  deriving DecidableEq, Repr

inductive VerificationMetric where
  | present | absent | late
  deriving DecidableEq, Repr

inductive ExecutionMode where
  | physical | onlineStream
  deriving DecidableEq, Repr

inductive LogVerificationState where
  | pendingVerification | verifiedApproved | verifiedDenied
  deriving DecidableEq, Repr

inductive ResourceMode where
  | exclusive | pooled | shared
  deriving DecidableEq, Repr

inductive ReservationStatus where
  | held | cancelled
  deriving DecidableEq, Repr

inductive RequirementOwner where
  | resource | activity
  deriving DecidableEq, Repr

inductive RequirementEnforcement where
  | required | advisory
  deriving DecidableEq, Repr

structure User where
  id : String
  fullName : String
  emailAddress : String
  roleType : InstitutionalRole
  unitCode : Option String
  reportingLineManager : Option String
  deactivated : Bool
  deriving DecidableEq, Repr

structure PlanningCycle where
  id : Nat
  cycleLabel : String
  dateBoundsStart : Int
  dateBoundsEnd : Int
  operationalStatus : Bool
  deriving DecidableEq, Repr

structure Activity where
  id : Nat
  activityCode : String
  activityTitle : String
  unitCode : String
  cycleId : Nat
  retired : Bool
  deriving DecidableEq, Repr

structure ActivityEnrollment where
  activityId : Nat
  memberId : String
  deriving DecidableEq, Repr

-- The field is ck_resources_pool_capacity: a pool with no size cannot be stored.
structure Resource where
  id : Nat
  code : String
  resourceType : String
  unitCode : Option String
  capacity : Option Nat
  mode : ResourceMode
  active : Bool
  poolCapacity : mode = .pooled → 1 ≤ capacity.getD 0
  deriving DecidableEq, Repr

theorem exclusive_bare : ResourceMode.exclusive = .pooled → 1 ≤ (none : Option Nat).getD 0 := nofun

theorem one_unit : 1 ≤ 1 := Nat.le_refl 1
theorem two_units : 1 ≤ 2 := by decide
theorem unit_by_default : 1 ≤ (none : Option Nat).getD 1 := Nat.le_refl 1

structure StructuralMasterSlot where
  id : Nat
  rrule : String
  dtstart : Int
  timeWindowStart : Time
  timeWindowEnd : Time
  activityId : Nat
  primaryLeadId : Option String
  resourceId : Option Nat
  retired : Bool
  deriving DecidableEq, Repr

-- Coordinates are kept in the column's own scale, as whole numbers.
structure DailyLedger where
  id : Nat
  targetDate : Int
  timeWindowStart : Option Time
  timeWindowEnd : Option Time
  masterSlotId : Option Nat
  activityId : Nat
  activeLeadId : Option String
  substituteLeadId : Option String
  resourceId : Option Nat
  deliveryFormat : ExecutionMode
  virtualConnectionString : Option String
  latitudeTarget : Option Int
  longitudeTarget : Option Int
  altitudeTarget : Option Int
  precisionRadiusMeters : Option Int
  operationalState : DynamicState
  deriving DecidableEq, Repr

-- The two fields at the end are ck_reservations_window and
-- ck_reservations_quantity.
structure Reservation where
  id : Nat
  resourceId : Nat
  reservedDate : Int
  timeWindowStart : Time
  timeWindowEnd : Time
  purpose : String
  requestedById : Option String
  idempotencyKey : String
  requestFingerprint : String
  externalRef : Option String
  quantity : Nat
  mode : ResourceMode
  status : ReservationStatus
  parentReservationId : Option Nat
  window : timeWindowEnd ≠ timeWindowStart
  units : 1 ≤ quantity
  deriving DecidableEq, Repr

-- ck_resource_requirements_one_target: one named resource or a kind, never both.
inductive RequirementTarget where
  | named (resourceId : Nat)
  | kind (code : String)
  deriving DecidableEq, Repr

structure ResourceRequirement where
  id : Nat
  ownerKind : RequirementOwner
  ownerId : Nat
  target : RequirementTarget
  quantity : Nat
  beforeMinutes : Nat
  afterMinutes : Nat
  enforcement : Option RequirementEnforcement
  units : 1 ≤ quantity
  deriving DecidableEq, Repr

structure ReverseRsvpLog where
  id : Nat
  submittingUserId : String
  targetAbsenceDate : Int
  endDate : Option Int
  contextJustification : String
  approvalState : LogVerificationState
  authorizedByUserId : Option String
  deriving DecidableEq, Repr

structure VerificationLedger where
  id : Nat
  ledgerInstanceId : Nat
  memberId : String
  markingStatus : VerificationMetric
  authorizingAgentId : Option String
  deriving DecidableEq, Repr

structure LedgerAnnotation where
  id : Nat
  ledgerInstanceId : Nat
  creatorId : String
  classificationTag : String
  annotationPayload : String
  deriving DecidableEq, Repr

-- One organization's rows, and what day it is where the organization is. A
-- timestamp whose moment nothing reads is kept as whether it is set. Of the
-- other organizations only what an import looks up across them is here: the id
-- and the folded address of each account.
structure Database where
  orgToday : Int
  elsewhere : List (String × String)
  users : List User
  cycles : List PlanningCycle
  activities : List Activity
  enrollments : List ActivityEnrollment
  resources : List Resource
  slots : List StructuralMasterSlot
  ledger : List DailyLedger
  reservations : List Reservation
  requirements : List ResourceRequirement
  defaultRequirementEnforcement : RequirementEnforcement
  absences : List ReverseRsvpLog
  marks : List VerificationLedger
  annotations : List LedgerAnnotation
  deriving DecidableEq, Repr

def Database.empty (orgToday : Int) : Database where
  orgToday := orgToday
  elsewhere := []
  users := []
  cycles := []
  activities := []
  enrollments := []
  resources := []
  slots := []
  ledger := []
  reservations := []
  requirements := []
  defaultRequirementEnforcement := .required
  absences := []
  marks := []
  annotations := []

-- The next primary key of a table: one above every id it holds.
def nextId (ids : List Nat) : Nat := ids.foldr max 0 + 1

theorem le_foldr_max {ids : List Nat} {id : Nat} (member : id ∈ ids) : id ≤ ids.foldr max 0 := by
  induction ids with
  | nil => cases member
  | cons head rest ih =>
    rcases List.mem_cons.mp member with rfl | old
    · exact Nat.le_max_left _ _
    · exact Nat.le_trans (ih old) (Nat.le_max_right _ _)

theorem nextId_fresh {ids : List Nat} {id : Nat} (member : id ∈ ids) : id < nextId ids :=
  Nat.lt_succ_of_le (le_foldr_max member)

theorem nextId_notMem (ids : List Nat) : nextId ids ∉ ids := fun member => Nat.lt_irrefl _ (nextId_fresh member)

namespace Database

def user? (db : Database) (id : String) : Option User := db.users.find? (fun u => u.id = id)
def cycle? (db : Database) (id : Nat) : Option PlanningCycle := db.cycles.find? (fun c => c.id = id)
def activity? (db : Database) (id : Nat) : Option Activity := db.activities.find? (fun a => a.id = id)
def resource? (db : Database) (id : Nat) : Option Resource := db.resources.find? (fun r => r.id = id)
def slot? (db : Database) (id : Nat) : Option StructuralMasterSlot := db.slots.find? (fun s => s.id = id)
def day? (db : Database) (id : Nat) : Option DailyLedger := db.ledger.find? (fun d => d.id = id)

end Database

theorem find_key {α κ : Type} [DecidableEq κ] {rows : List α} {key : α → κ} {id : κ} {row : α}
    (found : rows.find? (fun r => key r = id) = some row) : row ∈ rows ∧ key row = id :=
  ⟨List.mem_of_find?_eq_some found,by simpa using List.find?_some found⟩

-- With a primary key on the column, a row is the one its id finds.
theorem find_of_mem {α κ : Type} [DecidableEq κ] {rows : List α} {key : α → κ} (distinct : (rows.map key).Nodup) {row : α}
    (member : row ∈ rows) : rows.find? (fun r => key r = key row) = some row := by
  induction rows with
  | nil => cases member
  | cons head rest ih =>
    rw [List.map_cons,List.nodup_cons] at distinct
    rcases List.mem_cons.mp member with rfl | old
    · simp
    · have other : key head ≠ key row := fun same => distinct.1 (same ▸ List.mem_map_of_mem old)
      rw [List.find?_cons_of_neg (by simpa using other)]
      exact ih distinct.2 old

theorem same_of_key {α κ : Type} [DecidableEq κ] {rows : List α} {key : α → κ} (distinct : (rows.map key).Nodup) {one two : α}
    (left : one ∈ rows) (right : two ∈ rows) (same : key one = key two) : one = two := by
  have found := find_of_mem distinct left
  rw [same,find_of_mem distinct right] at found
  exact (Option.some.inj found).symm

end ChronosLedger
