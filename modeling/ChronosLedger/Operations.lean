import ChronosLedger.Attendance
import ChronosLedger.Booking
import ChronosLedger.Ingestion
import ChronosLedger.Library.Runs

namespace ChronosLedger

-- What the program runs on: the rule expander, the digest, the text functions
-- and the ledger's settings.
structure Runtime where
  cal : Recurrence
  sha256 : String → String
  reading : Reading
  settings : LedgerSettings

-- One request, job or move of the clock, run on its own.
inductive Operation where
  | createReservation (resourceId : Nat) (payload : ReservationCreate) (key : String) (currentUser : User)
  | cancelReservation (resourceId reservationId : Nat) (currentUser : User)
  | updateResource (resourceId : Nat) (payload : ResourceUpdate) (currentUser : User)
  | createCycle (payload : PlanningCycleCreate) (currentUser : User)
  | openCycle (cycleId : Nat) (currentUser : User)
  | closeCycle (cycleId : Nat) (currentUser : User)
  | cloneCycleOfferings (oldId newId : Nat) (currentUser : User)
  | createActivity (payload : ActivityCreate) (currentUser : User)
  | updateActivity (activityId : Nat) (activityTitle : String) (currentUser : User)
  | retireActivity (activityId : Nat) (currentUser : User)
  | createMasterSlot (payload : MasterSlotCreate) (currentUser : User)
  | updateMasterSlot (slotId : Nat) (payload : MasterSlotUpdate) (currentUser : User)
  | deleteMasterSlot (slotId : Nat) (currentUser : User)
  | retireMasterSlot (slotId : Nat) (currentUser : User)
  | uploadMatrix (file : Matrix) (cycleId : Nat) (removeMissing : Bool) (currentUser : User)
  | generateDailyLedgerEntries (targetDate : Int)
  | materializeHorizon (cycleId : Option Nat)
  | updateLedgerEntry (ledgerId : Nat) (payload : DailyLedgerUpdate) (currentUser : User)
  | markAttendance (payload : AttendanceMarkRequest) (fence : Answer Unit) (currentUser : User)
  | batchMarkAttendance (ledgerInstanceId : Nat) (records : List AttendanceMarkRequest) (currentUser : User)
  | createAnnotation (payload : AnnotationCreate) (currentUser : User)
  | submitAbsence (payload : ReverseRsvpCreate) (currentUser : User)
  | decideAbsence (logId : Nat) (decision : LogVerificationState) (currentUser : User)
  | advanceClock (days : Nat)

def stateOf {α : Type} (answer : Answer (Database × α)) : Answer Database := Prod.fst <$> answer

variable (rt : Runtime)

def attempt (db : Database) : Operation → Answer Database
  | .createReservation resourceId payload key currentUser =>
    stateOf (createReservation rt.cal rt.sha256 rt.reading.strip db resourceId payload key currentUser)
  | .cancelReservation resourceId reservationId currentUser => stateOf (cancelReservation db resourceId reservationId currentUser)
  | .updateResource resourceId payload currentUser => stateOf (updateResource rt.cal db resourceId payload currentUser)
  | .createCycle payload currentUser => stateOf (createCycle db payload currentUser)
  | .openCycle cycleId currentUser => stateOf (openCycle rt.cal db cycleId currentUser)
  | .closeCycle cycleId currentUser => stateOf (closeCycle db cycleId currentUser)
  | .cloneCycleOfferings oldId newId currentUser => stateOf (cloneCycleOfferings rt.cal db oldId newId currentUser)
  | .createActivity payload currentUser => stateOf (createActivity db payload currentUser)
  | .updateActivity activityId activityTitle currentUser => stateOf (updateActivity db activityId activityTitle currentUser)
  | .retireActivity activityId currentUser => stateOf (retireActivity db activityId currentUser)
  | .createMasterSlot payload currentUser =>
    stateOf (createMasterSlot rt.cal rt.sha256 rt.reading.strip rt.settings db payload currentUser)
  | .updateMasterSlot slotId payload currentUser =>
    stateOf (updateMasterSlot rt.cal rt.sha256 rt.reading.strip db slotId payload currentUser)
  | .deleteMasterSlot slotId currentUser => stateOf (deleteMasterSlot db slotId currentUser)
  | .retireMasterSlot slotId currentUser => stateOf (retireMasterSlot db slotId currentUser)
  | .uploadMatrix file cycleId removeMissing currentUser =>
    stateOf (uploadMatrix rt.cal rt.reading rt.sha256 rt.settings db file cycleId removeMissing currentUser)
  | .generateDailyLedgerEntries targetDate => .ok (generateDailyLedgerEntries rt.cal db targetDate).1
  | .materializeHorizon cycleId => .ok (materializeHorizon rt.cal db rt.settings cycleId).1
  | .updateLedgerEntry ledgerId payload currentUser => stateOf (updateLedgerEntry db ledgerId payload currentUser)
  | .markAttendance payload fence currentUser => stateOf (markAttendance db payload fence currentUser)
  | .batchMarkAttendance ledgerInstanceId records currentUser =>
    stateOf (batchMarkAttendance db ledgerInstanceId records currentUser)
  | Operation.createAnnotation payload currentUser => stateOf ( createAnnotation db payload currentUser)
  | .submitAbsence payload currentUser => stateOf (routeAbsenceDeclaration db payload currentUser)
  | .decideAbsence logId decision currentUser => stateOf (decideAbsence db logId decision currentUser)
  | .advanceClock days => .ok {db with orgToday := db.orgToday+days}

-- A refused request leaves the database as it was.
def perform (db : Database) (op : Operation) : Database :=
  match attempt rt db op with
  | .ok next => next
  | .error _ => db

def Performs (db : Database) (op : Operation) (next : Database) : Prop := next = perform rt db op

-- No slot, no day, no booking and nothing recorded on a day. People, cycles,
-- activities, rooms and requirements may be there.
structure EmptySchedule (db : Database) : Prop where
  slots : db.slots = []
  ledger : db.ledger = []
  reservations : db.reservations = []
  marks : db.marks = []
  annotations : db.annotations = []

def performAll (db : Database) (ops : List Operation) : Database := ops.foldl (perform rt) db

-- The operations of a list, each admitted in the state it is run in.
def Admitted (guard : Database → Operation → Prop) : Database → List Operation → Prop
  | _,[] => True
  | db,op :: rest => guard db op ∧ Admitted guard (perform rt db op) rest

instance decidableAdmitted (guard : Database → Operation → Prop) [DecidableRel guard] : (db : Database) → (ops : List Operation) →
    Decidable (Admitted rt guard db ops)
  | _,[] => .isTrue trivial
  | db,op :: rest => @instDecidableAnd _ _ _ (decidableAdmitted guard (perform rt db op) rest)

theorem performAll_admitted (guard : Database → Operation → Prop) (db : Database) (ops : List Operation)
    (admitted : Admitted rt guard db ops) : Runs.Reached (Runs.Guarded (Performs rt) guard) db (performAll rt db ops) := by
  have general : ∀ (ops : List Operation) (middle : Database), Admitted rt guard middle ops →
      Runs.Reached (Runs.Guarded (Performs rt) guard) db middle →
      Runs.Reached (Runs.Guarded (Performs rt) guard) db (performAll rt middle ops) := by
    intro ops
    induction ops with
    | nil => exact fun middle _ path => path
    | cons op rest ih =>
      intro middle all path
      exact ih _ all.2 (.step path ⟨all.1,rfl⟩)
  exact general ops db admitted .start

theorem performAll_guarded (guard : Operation → Prop) (db : Database) (ops : List Operation) (admitted : ∀ op ∈ ops, guard op) :
    Runs.Reached (Runs.Guarded (Performs rt) (fun _ op => guard op)) db (performAll rt db ops) := by
  refine performAll_admitted rt _ db ops ?_
  induction ops generalizing db with
  | nil => trivial
  | cons op rest ih => exact ⟨admitted op (List.mem_cons_self ..),ih _ (fun next later => admitted next (List.mem_cons_of_mem _ later))⟩

theorem performAll_reached (db : Database) (ops : List Operation) : Runs.Reached (Performs rt) db (performAll rt db ops) :=
  (performAll_guarded rt (fun _ => True) db ops (fun _ _ => trivial)).unguard

theorem stateOf_parts {α : Type} {answer : Answer (Database × α)} {next : Database} :
    stateOf answer = .ok next ↔ ∃ value, answer = .ok (next,value) := by
  cases answer with
  | error refusal => simp [stateOf,Functor.map,Except.map]
  | ok pair =>
    obtain ⟨db,value⟩ := pair
    simp [stateOf,Functor.map,Except.map]

-- A runtime for concrete runs: rules as `plainRules` reads them, one digit
-- weekdays, times as HH:MM, a horizon of one day. The digest is the identity,
-- which no run below depends on.
def digitOf (c : Char) : Option Nat := if c.isDigit then some (c.toNat-48) else none

def plainTime (raw : String) : Option Time :=
  match raw.toList.map digitOf with
  | [some a,some b,none,some c,some d] => if 10*a+b < 24 ∧ 10*c+d < 60 then some (clock (10*a+b) (10*c+d)) else none
  | _ => none

def plainDay (raw : String) : Option Nat :=
  match raw.toList.map digitOf with
  | [some day] => if 1 ≤ day ∧ day ≤ 7 then some day else none
  | _ => none

def plainReading : Reading where
  strip := id
  normalizeEmail := id
  parseTime := plainTime
  parseDay := plainDay
  weekday := by
    intro raw day read
    unfold plainDay at read
    split at read
    · split at read
      · rename_i week
        cases Option.some.inj read
        exact week
      · cases read
    · cases read

def plainRuntime : Runtime := ⟨plainRules,id,plainReading,⟨1,500,by decide⟩⟩

def registrar : User := ⟨"registrar","Registrar","registrar@school",.orgAdmin,none,none,false⟩

def staffed (today : Int) : Database := {Database.empty today with users := [registrar]}

theorem autumn_bounds : (90 : Int) ≤ 130 := by decide
theorem spring_bounds : (100 : Int) ≤ 130 := by decide

theorem staffed_empty (today : Int) : EmptySchedule (staffed today) := ⟨rfl,rfl,rfl,rfl,rfl⟩

end ChronosLedger
