import ChronosLedger.Schedule

namespace ChronosLedger

-- The text functions of Python the import and the rooms are read with. What
-- `float` and `strptime` make of a cell is the runtime's; a day outside the week
-- is refused by the program, and so is none here.
structure Reading where
  strip : String → String
  normalizeEmail : String → String
  parseTime : String → Option Time
  parseDay : String → Option Nat
  weekday : ∀ raw day, parseDay raw = some day → 1 ≤ day ∧ day ≤ 7

-- One line of the file, every cell stripped. A column the file lacks is blank.
structure CsvRow where
  memberId : String
  memberName : String
  memberEmail : String
  activityCode : String
  activityTitle : String
  unit : String
  dayOfWeekIndex : String
  timeWindowStart : String
  timeWindowEnd : String
  leadId : String
  room : String
  deriving DecidableEq, Repr

structure Matrix where
  columns : List String
  rows : List CsvRow
  deriving DecidableEq, Repr

def CsvRow.cells (row : CsvRow) : List (String × String) :=
  [("member_id",row.memberId),("member_name",row.memberName),("member_email",row.memberEmail),
    ("activity_code",row.activityCode),("activity_title",row.activityTitle),("unit",row.unit),
    ("day_of_week_index",row.dayOfWeekIndex),("time_window_start",row.timeWindowStart),
    ("time_window_end",row.timeWindowEnd),("lead_id",row.leadId),("room",row.room)]

def requiredColumns : List String :=
  ["member_id","member_name","member_email","activity_code","activity_title","unit","day_of_week_index",
    "time_window_start","time_window_end","lead_id","room"]

structure Orphans where
  slots : List StructuralMasterSlot
  enrollments : List ActivityEnrollment
  deriving DecidableEq, Repr

structure Removal where
  removed : List (StructuralMasterSlot × Deletion)
  notRemoved : List (StructuralMasterSlot × Detail)
  deriving DecidableEq, Repr

structure ImportReport where
  rowsIngested : Nat
  provisioned : List (String × String)
  slotsCorrected : Nat
  propagation : Propagation
  notInFile : Orphans
  removal : Removal
  requirementsUnmet : List (Nat × SlotGap)
  deriving DecidableEq, Repr

-- What the loop over the lines gathers. Each line finds what an earlier one
-- wrote, so the database stands in for the program's lookup tables.
structure ImportState where
  db : Database
  provisioned : List (String × String)
  corrected : List Nat
  seenSlots : List Nat
  seenEnrollments : List (Nat × String)
  units : List String
  deriving DecidableEq, Repr

-- A refusal of the import is one sentence, a ValueError of the program.
abbrev Imported (α : Type) := Except String α

def holder (owner : Option String) : String :=
  match owner with
  | none => "an account in another organization"
  | some id => s!"'{id}'"

variable (cal : Recurrence) (reading : Reading)

-- Whose address it is: an account here by its id, or one elsewhere.
def emailOwner (db : Database) (email : String) : Option (Option String) :=
  match db.users.find? (fun u => reading.normalizeEmail u.emailAddress = email) with
  | some user => some (some user.id)
  | none => if db.elsewhere.any (fun account => account.2 = email) then some none else none

def setUser (db : Database) (user : User) : Database :=
  {db with users := db.users.map (fun u => if u.id = user.id then user else u)}

def upsertMember (s : ImportState) (row : CsvRow) : Imported ImportState :=
  let email := reading.normalizeEmail row.memberEmail
  let belongs := fun owner => s!"member '{row.memberId}': email {row.memberEmail} already belongs to " ++ holder owner
  match s.db.user? row.memberId with
  | none =>
    if s.db.elsewhere.any (fun account => account.1 = row.memberId) then
      .error s!"member '{row.memberId}': that id belongs to an account in another organization"
    else match emailOwner reading s.db email with
    | some owner => .error (belongs owner)
    | none => .ok {s with
        db := {s.db with users := s.db.users ++ [⟨row.memberId,row.memberName,email,.member,some row.unit,none,false⟩]}
        provisioned := s.provisioned ++ [(row.memberId,email)]}
  | some member =>
    if member.deactivated then
      .error s!"member '{row.memberId}' is deactivated; reactivate them or take their rows out of the file"
    else
      let renamed := {member with fullName := row.memberName,unitCode := some row.unit}
      if reading.normalizeEmail member.emailAddress = email then .ok {s with db := setUser s.db renamed} else
      match emailOwner reading s.db email with
      | some owner => if owner = some member.id then .ok {s with db := setUser s.db {renamed with emailAddress := email}}
          else .error (belongs owner)
      | none => .ok {s with db := setUser s.db {renamed with emailAddress := email}}

def upsertOffering (db : Database) (cycleId : Nat) (row : CsvRow) : Imported (Database × Activity) :=
  match db.activities.find? (fun a => a.cycleId = cycleId ∧ a.activityCode = row.activityCode) with
  | none =>
    let offering : Activity := ⟨nextId (db.activities.map Activity.id),row.activityCode,row.activityTitle,row.unit,cycleId,false⟩
    .ok ({db with activities := db.activities ++ [offering]},offering)
  | some offering =>
    if offering.retired then
      .error s!"activity '{row.activityCode}' is retired in this cycle; take its rows out of the file"
    else
      let titled := {offering with activityTitle := row.activityTitle,unitCode := row.unit}
      .ok (setActivity db titled,titled)

def enroll (db : Database) (activityId : Nat) (memberId : String) : Database :=
  if db.enrollments.any (fun e => e.activityId = activityId ∧ e.memberId = memberId) then db
  else {db with enrollments := db.enrollments ++ [⟨activityId,memberId⟩]}

def refuseText (condition : Bool) (message : String) : Imported Unit := if condition then .error message else .ok ()

def foundText {α : Type} (value : Option α) (message : String) : Imported α :=
  match value with
  | some value => .ok value
  | none => .error message

structure RowWindow where
  day : Nat
  start : Time
  finish : Time
  deriving DecidableEq, Repr

def rowTime (raw : String) : Imported Time :=
  foundText (reading.parseTime raw) s!"Cannot parse time value '{raw}', expected HH:MM or HH:MM:SS"

def rowWindow (row : CsvRow) : Imported RowWindow := do
  let day ← foundText (reading.parseDay row.dayOfWeekIndex) ("day_of_week_index must be a whole number from 1 (Monday) to " ++
    s!"7 (Sunday), not '{row.dayOfWeekIndex}'")
  let start ← rowTime reading row.timeWindowStart
  let finish ← rowTime reading row.timeWindowEnd
  refuseText (finish = start) (s!"member '{row.memberId}': time_window_end {isoTime finish} is the same as " ++
    s!"time_window_start {isoTime start}, which is either no window at all or a whole day and the row does not say which")
  .ok ⟨day,start,finish⟩

def matchedSlot (db : Database) (activityId : Nat) (rule : String) (start : Time) : Option StructuralMasterSlot :=
  (db.slots.insertionSort (fun a b => a.id ≤ b.id)).find? (fun slot =>
    slot.activityId = activityId ∧ slot.rrule = rule ∧ slot.timeWindowStart = start)

def cannotBePut (activityCode : String) (room : Resource) (found : List BusyInterval) (describe : BusyInterval → String) : Imported Unit :=
  match found with
  | [] => .ok ()
  | taken :: _ => .error (s!"activity '{activityCode}': room {room.code} " ++ describe taken ++ ", so it cannot be put there")

def fromTo (taken : BusyInterval) : String := s!"from {isoTime taken.start} to {isoTime taken.finish}"

-- The three questions of a row that would put a class somewhere it is not.
def rowChecks (db : Database) (cycle : PlanningCycle) (activityCode : String) (room : Resource) (claim : Claim)
    (excludeSlotId : Option Nat) : Imported Unit := do
  if cycle.operationalStatus then
    cannotBePut activityCode room (heldFor cal db cycle claim) (fun taken =>
      s!"is already held on {isoDate taken.date} " ++ fromTo taken)
    cannotBePut activityCode room (scheduledFor cal db cycle claim excludeSlotId) (fun taken =>
      "is already on the timetable for " ++ taken.activityCode.getD "" ++ " " ++ fromTo taken)
  cannotBePut activityCode room (daysFor cal db cycle claim excludeSlotId) (fun taken =>
    "already has a generated day for " ++ taken.activityCode.getD "" ++ s!" on {isoDate taken.date} " ++ fromTo taken)

-- A row that matches a slot keeps the slot's start; one that does not starts a
-- weekly rule from the cycle's first date.
def rowStart (cycle : PlanningCycle) (slot : Option StructuralMasterSlot) (rule : String) : Imported Int :=
  match slot with
  | some slot => .ok slot.dtstart
  | none => foundText (firstOccurrence cal rule cycle.dateBoundsStart)
      s!"rrule produces no date on or after {isoDate cycle.dateBoundsStart}"

def upsertSlot (db : Database) (cycle : PlanningCycle) (activityId : Nat) (row : CsvRow) (window : RowWindow) :
    Imported (Database × Nat × Bool) := do
  let rule := weeklyRule window.day
  let slot := matchedSlot db activityId rule window.start
  refuseText (slot.any StructuralMasterSlot.retired) (s!"activity '{row.activityCode}': the slot on day {window.day} at " ++
    s!"{isoTime window.start} is retired; take its rows out of the file")
  let dtstart ← rowStart cal cycle slot rule
  let (room,db) := getOrCreateRoom reading.strip row.room db
  (if slot.all (fun slot => slot.resourceId ≠ some room.id || slot.timeWindowEnd ≠ window.finish) then
    rowChecks cal db cycle row.activityCode room ⟨some room.id,rule,dtstart,window.start,window.finish⟩
      (slot.map StructuralMasterSlot.id) else .ok ())
  let lead ← foundText (db.user? row.leadId)
    s!"activity '{row.activityCode}': lead '{row.leadId}' does not exist; name somebody who has an account"
  refuseText lead.deactivated
    s!"activity '{row.activityCode}': lead '{row.leadId}' is deactivated; name another lead or reactivate them"
  match slot with
  | none =>
    let made : StructuralMasterSlot := ⟨nextId (db.slots.map StructuralMasterSlot.id),rule,dtstart,window.start,window.finish,
      activityId,some row.leadId,some room.id,false⟩
    .ok ({db with slots := db.slots ++ [made]},made.id,false)
  | some slot =>
    let moved := {slot with timeWindowEnd := window.finish,primaryLeadId := some row.leadId,resourceId := some room.id}
    if moved = slot then .ok (db,slot.id,false) else .ok (setSlot db moved,slot.id,true)

def blankCells (columns : List String) (row : CsvRow) : List String :=
  columns.filter (fun name => name ∈ requiredColumns ∧ (row.cells.lookup name).getD "" = "")

def importRow (columns : List String) (cycle : PlanningCycle) (s : ImportState) (row : CsvRow) : Imported ImportState := do
  let blank := blankCells columns row
  refuseText (blank ≠ []) (String.intercalate ", " blank ++ " cannot be blank")
  let s ← upsertMember reading s row
  let (db,offering) ← upsertOffering s.db cycle.id row
  let db := enroll db offering.id row.memberId
  let window ← rowWindow reading row
  let (db,slotId,changed) ← upsertSlot cal reading db cycle offering.id row window
  .ok {s with
    db := db
    corrected := if changed && !s.corrected.contains slotId then s.corrected ++ [slotId] else s.corrected
    seenSlots := s.seenSlots ++ [slotId]
    seenEnrollments := s.seenEnrollments ++ [(offering.id,row.memberId)]
    units := s.units ++ [row.unit]}

-- Lines are counted from two, after the header.
def importRows (columns : List String) (cycle : PlanningCycle) : Nat → List CsvRow → ImportState → Imported ImportState
  | _,[],s => .ok s
  | line,row :: rest,s =>
    match importRow cal reading columns cycle s row with
    | .error message => .error (s!"line {line}: " ++ message)
    | .ok s => importRows columns cycle (line+1) rest s

-- What the cycle holds in the units the file names and the file did not mention.
def orphans (db : Database) (cycleId : Nat) (units : List String) (seenSlots : List Nat)
    (seenEnrollments : List (Nat × String)) : Orphans :=
  let named := db.activities.filter (fun a => a.cycleId = cycleId ∧ a.unitCode ∈ units ∧ a.retired = false)
  let code := fun id => ((named.find? (fun a => a.id = id)).map Activity.activityCode).getD ""
  ⟨(db.slots.filter (fun slot => slot.activityId ∈ named.map Activity.id ∧ slot.retired = false ∧ slot.id ∉ seenSlots)).insertionSort
      (fun a b => code a.activityId < code b.activityId ∨ code a.activityId = code b.activityId ∧
        (a.dtstart < b.dtstart ∨ a.dtstart = b.dtstart ∧ a.timeWindowStart ≤ b.timeWindowStart)),
    (db.enrollments.filter (fun e => e.activityId ∈ named.map Activity.id ∧ (e.activityId,e.memberId) ∉ seenEnrollments)).insertionSort
      (fun a b => code a.activityId < code b.activityId ∨ code a.activityId = code b.activityId ∧ a.memberId ≤ b.memberId)⟩

-- A slot the delete would refuse over is left, with the reason.
def removeSlots : Database → List StructuralMasterSlot → Database × Removal
  | db,[] => (db,⟨[],[]⟩)
  | db,slot :: rest =>
    match deleteSlot db slot with
    | .error refusal =>
      let (db,removal) := removeSlots db rest
      (db,{removal with notRemoved := (slot,refusal.detail) :: removal.notRemoved})
    | .ok (db,deletion) =>
      let (db,removal) := removeSlots db rest
      (db,{removal with removed := (slot,deletion) :: removal.removed})

def removeOrphans (db : Database) (found : Orphans) : Database × Removal :=
  let (db,removal) := removeSlots db found.slots
  ({db with enrollments := db.enrollments.filter (fun e => e ∉ found.enrollments)},removal)

variable (sha256 : String → String) (settings : LedgerSettings)

def processMemberCentricMatrix (db : Database) (file : Matrix) (cycle : PlanningCycle) (removeMissing : Bool) :
    Imported (Database × ImportReport) := do
  let missing := requiredColumns.filter (fun name => name ∉ file.columns)
  refuseText (missing ≠ []) ("Missing columns: " ++ String.intercalate ", " missing)
  let s ← importRows cal reading file.columns cycle 2 file.rows ⟨db,[],[],[],[],[]⟩
  let (propagated,propagation) := propagateSlotCorrections s.db (s.corrected.filterMap s.db.slot?)
  let notInFile := orphans propagated cycle.id s.units s.seenSlots s.seenEnrollments
  let (db,removal) := if removeMissing then removeOrphans propagated notInFile else (propagated,⟨[],[]⟩)
  let unmet := ((db.slots.filter (fun slot => slot.id ∈ s.seenSlots)).insertionSort (fun a b => a.id ≤ b.id)).flatMap
    (fun slot => (unmetForSlot cal sha256 db slot).map (fun found => (slot.id,found)))
  .ok (db,⟨file.rows.length,s.provisioned,s.corrected.length,propagation,notInFile,removal,unmet⟩)

-- The upload: the import, and the days ahead of the cycle it changed.
def uploadMatrix (db : Database) (file : Matrix) (cycleId : Nat) (removeMissing : Bool) (currentUser : User) :
    Answer (Database × ImportReport) := do
  requireRoles [.orgAdmin] currentUser
  let cycle ← found (db.cycle? cycleId) (notFound "Cycle not found")
  match processMemberCentricMatrix cal reading sha256 db file cycle removeMissing with
  | .error message => .error (refuse 422 message .importRejected)
  | .ok (imported,report) => .ok (fillHorizon cal settings imported cycleId,report)

end ChronosLedger
