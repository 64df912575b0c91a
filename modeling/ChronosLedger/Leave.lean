import ChronosLedger.Library.Runs
import ChronosLedger.LedgerWrites
import ChronosLedger.Attendance

namespace ChronosLedger.Leave

-- The operations that touch the leave requests or generate days, and the date
-- they are made on going on between them.
inductive Operation where
  | newDay (today : Int)
  | routeAbsenceDeclaration (payload : ReverseRsvpCreate) (submittingUser : User)
  | commitAbsenceOverride (logId : Nat) (executionAgent : String) (targetState : LogVerificationState)
  | generateDailyLedgerEntries (targetDate : Int)
  | materializeHorizon (settings : LedgerSettings) (cycleId : Option Nat)

variable (cal : Recurrence)

def act (db : Database) : Operation → Option Database
  | .newDay today => some {db with orgToday := today}
  | .routeAbsenceDeclaration payload submittingUser =>
    match routeAbsenceDeclaration db payload submittingUser with
    | .ok (next,_) => some next
    | .error _ => none
  | .commitAbsenceOverride logId executionAgent targetState => some (commitAbsenceOverride db logId executionAgent targetState)
  | .generateDailyLedgerEntries targetDate => some (generateDailyLedgerEntries cal db targetDate).1
  | .materializeHorizon settings cycleId => some (materializeHorizon cal db settings cycleId).1

abbrev Steps (cal : Recurrence) : Database → Operation → Database → Prop := Runs.Acts (act cal)

def Covers (log : ReverseRsvpLog) (lead : String) (day : Int) : Prop :=
  log.submittingUserId = lead ∧ log.targetAbsenceDate ≤ day ∧ day ≤ log.endDate.getD log.targetAbsenceDate

instance (log : ReverseRsvpLog) (lead : String) (day : Int) : Decidable (Covers log lead day) :=
  inferInstanceAs (Decidable (_ ∧ _))

def OnLeave (db : Database) (lead : String) (day : Int) : Prop :=
  ∃ log ∈ db.absences, log.approvalState = .verifiedApproved ∧ Covers log lead day

-- Cover, a lunch or a meeting is nothing leave decides.
def DynamicState.followsLeave (state : DynamicState) : Bool := state = .scheduled ∨ state = .onLeave

def RowAgrees (db : Database) (row : DailyLedger) : Prop :=
  ∀ lead, row.activeLeadId = some lead → DynamicState.followsLeave row.operationalState = true →
    (row.operationalState = .onLeave ↔ OnLeave db lead row.targetDate)

def Agrees (db : Database) : Prop := ∀ row ∈ db.ledger, RowAgrees db row

-- A request that is not approved, or no longer, gives back a day on leave that
-- another approved request of the same lead still covers.
def TakesBack (db : Database) (log : ReverseRsvpLog) : Prop :=
  ∃ row ∈ db.ledger, row.activeLeadId = some log.submittingUserId ∧ row.operationalState = .onLeave ∧
    Covers log log.submittingUserId row.targetDate ∧
    ∃ other ∈ db.absences, other.id ≠ log.id ∧ other.approvalState = .verifiedApproved ∧
      Covers other log.submittingUserId row.targetDate

instance (db : Database) (log : ReverseRsvpLog) : Decidable (TakesBack db log) := by
  unfold TakesBack
  infer_instance

def SparesOthers (db : Database) : Operation → Prop
  | .commitAbsenceOverride logId _ targetState =>
    targetState ≠ .verifiedApproved → ∀ log ∈ db.absences, log.id = logId → ¬ TakesBack db log
  | _ => True

instance (db : Database) (op : Operation) : Decidable (SparesOthers db op) := by
  cases op <;> unfold SparesOthers <;> infer_instance

variable {cal}
variable {db next : Database} {log : ReverseRsvpLog} {state : LogVerificationState} {lead : String} {day : Int}

theorem approvedLeave_exact : approvedLeave db (some lead) day = true ↔ OnLeave db lead day := by
  simp only [approvedLeave,List.any_eq_true,decide_eq_true_eq,OnLeave,Covers,Option.some.injEq]
  constructor
  · intro ⟨log,there,mine,opens,closes,approved⟩
    exact ⟨log,there,approved,mine,opens,closes⟩
  · intro ⟨log,there,approved,mine,opens,closes⟩
    exact ⟨log,there,mine,opens,closes,approved⟩

theorem leaveState_exact (held : Bool) : leaveState held = .onLeave ↔ held = true := by
  cases held <;> simp [leaveState]

-- The horizon reads only the requests that touch it, which are all that cover
-- one of its days.
theorem leaveSpans_exact {first last : Int} {lead : Option String} (low : first ≤ day) (high : day ≤ last) :
    (leaveSpans db first last lead).any (fun span => span.1 ≤ day ∧ day ≤ span.2) = approvedLeave db lead day := by
  apply Bool.eq_iff_iff.mpr
  simp only [leaveSpans,approvedLeave,List.any_map,List.any_filter,List.any_eq_true,Bool.and_eq_true,decide_eq_true_eq,Function.comp_apply]
  constructor
  · intro ⟨log,there,⟨mine,_,_,approved⟩,opens,closes⟩
    exact ⟨log,there,mine,opens,closes,approved⟩
  · intro ⟨log,there,mine,opens,closes,approved⟩
    exact ⟨log,there,⟨mine,by omega,by omega,approved⟩,opens,closes⟩

theorem RowAgrees.frame {row : DailyLedger} (agrees : RowAgrees db row) (same : next.absences = db.absences) : RowAgrees next row := by
  unfold RowAgrees OnLeave at *
  simpa only [same] using agrees

theorem Agrees.frame (agrees : Agrees db) (rows : next.ledger = db.ledger) (requests : next.absences = db.absences) : Agrees next := by
  intro row member
  rw [rows] at member
  exact (agrees row member).frame requests

-- The state a day is generated with is the one the requests give it.
def Follows (db : Database) (fields : DayFields) : Prop :=
  fields.operationalState = leaveState (approvedLeave db fields.activeLeadId fields.targetDate)

theorem Follows.row {fields : DayFields} (follows : Follows db fields) (id : Nat) : RowAgrees db (dayRow id fields) := by
  intro lead its _
  have named : fields.activeLeadId = some lead := its
  have placed : (dayRow id fields).operationalState = leaveState (approvedLeave db (some lead) fields.targetDate) := by
    rw [← named]
    exact follows
  rw [placed]
  exact (leaveState_exact _).trans approvedLeave_exact

theorem Agrees.written {fields : DayFields} (agrees : Agrees db) (follows : Follows db fields) : Agrees (writeDay db fields) := by
  intro row member
  rcases List.mem_append.mp member with old | new
  · exact (agrees row old).frame rfl
  · rw [List.mem_singleton.mp new]
    exact (follows.row _).frame rfl

theorem Agrees.sown {rows : List DayFields} (sown : Sows db rows next) (agrees : Agrees db) (follow : ∀ fields ∈ rows, Follows db fields) :
    Agrees next := by
  induction sown with
  | done => exact agrees
  | skip _ ih => exact ih agrees (fun fields member => follow fields (List.mem_cons_of_mem _ member))
  | write _ _ ih =>
    exact ih (agrees.written (follow _ List.mem_cons_self)) (fun fields member => follow fields (List.mem_cons_of_mem _ member))

theorem Agrees.inserted {fields : DayFields} (agrees : Agrees db) (follows : Follows db fields) : Agrees (insertDay db fields).1 := by
  unfold insertDay
  split
  · exact agrees
  · split
    · exact agrees
    · exact agrees.written follows

theorem insertDay_absences (db : Database) (fields : DayFields) : (insertDay db fields).1.absences = db.absences := by
  unfold insertDay
  split
  · rfl
  · split <;> rfl

theorem generateSlots_absences (targetDate : Int) (slots : List BookedSlot) (db : Database) :
    (generateSlots targetDate db slots).1.absences = db.absences := by
  induction slots generalizing db with
  | nil => rfl
  | cons booked rest ih =>
    unfold generateSlots
    split
    · exact ih db
    · exact (ih _).trans (insertDay_absences db _)

theorem Agrees.generated (targetDate : Int) (slots : List BookedSlot) (agrees : Agrees db) :
    Agrees (generateSlots targetDate db slots).1 := by
  induction slots generalizing db with
  | nil => exact agrees
  | cons booked rest ih =>
    unfold generateSlots
    split
    · exact ih agrees
    · exact ih (agrees.inserted rfl)

theorem Agrees.materialized (settings : LedgerSettings) (cycleId : Option Nat) (agrees : Agrees db) :
    Agrees (materializeHorizon cal db settings cycleId).1 := by
  unfold materializeHorizon
  dsimp only
  split
  · exact agrees
  · refine agrees.sown (batches_sow settings _ db) ?_
    intro fields member
    obtain ⟨held,_,_⟩ := seatDays_apart ((horizonMissing cal db (horizonWindow db settings).1 (horizonWindow db settings).2 cycleId).map
      (horizonFields db (horizonWindow db settings).1 (horizonWindow db settings).2)) (seatedDays db _ _ _)
    obtain ⟨item,listed,rfl⟩ := List.mem_map.mp (held.subset member)
    obtain ⟨_,low,high,_⟩ := mem_horizonMissing.mp listed
    exact congrArg leaveState (leaveSpans_exact low high)

theorem materializeHorizon_absences (db : Database) (settings : LedgerSettings) (cycleId : Option Nat) :
    (materializeHorizon cal db settings cycleId).1.absences = db.absences := by
  have each {rows : List DayFields} {before after : Database} (sown : Sows before rows after) : after.absences = before.absences := by
    induction sown with
    | done => rfl
    | skip _ ih => exact ih
    | write _ _ ih => exact ih
  unfold materializeHorizon
  dsimp only
  split
  · rfl
  · exact each (batches_sow settings _ db)

end ChronosLedger.Leave
