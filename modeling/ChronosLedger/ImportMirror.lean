import ChronosLedger.ImportAgain

namespace ChronosLedger

variable {cal : Recurrence} {reading : Reading} {sha256 : String → String} {columns : List String} {cycle : PlanningCycle} {cycleId : Nat}
  {db : Database}

-- The unique constraints on the codes a file names things by, beside the
-- primary keys.
structure Coded (db : Database) : Prop extends FileKeys db where
  codes : (db.activities.map (fun activity => (activity.cycleId,activity.activityCode))).Nodup
  rooms : (db.resources.map Resource.code).Nodup

def Weekly (slot : StructuralMasterSlot) : Prop := ∃ day, 1 ≤ day ∧ day ≤ 7 ∧ slot.rrule = weeklyRule day

-- A slot of one of the cycle's unretired activities, itself not retired.
def RunsIn (db : Database) (cycleId : Nat) (slot : StructuralMasterSlot) : Prop :=
  slot ∈ db.slots ∧ slot.retired = false ∧ ∃ activity ∈ db.activities, activity.id = slot.activityId ∧ activity.cycleId = cycleId ∧
    activity.retired = false

-- A line says of a slot and of somebody on its roster what the tables have.
structure TellsOf (reading : Reading) (db : Database) (cycleId : Nat) (row : CsvRow) (slot : StructuralMasterSlot) : Prop where
  runs : slot ∈ db.slots ∧ slot.retired = false
  window : ∃ window, rowWindow reading row = .ok window ∧ slot.rrule = weeklyRule window.day ∧ slot.timeWindowStart = window.start ∧
    slot.timeWindowEnd = window.finish
  activity : ∃ activity ∈ db.activities, activity.id = slot.activityId ∧ activity.cycleId = cycleId ∧ activity.retired = false ∧
    activity.activityCode = row.activityCode ∧ activity.activityTitle = row.activityTitle ∧ activity.unitCode = row.unit
  lead : slot.primaryLeadId = some row.leadId ∧ ∃ lead ∈ db.users, lead.id = row.leadId ∧ lead.deactivated = false
  room : ∃ room ∈ db.resources, slot.resourceId = some room.id ∧ room.code = reading.strip row.room
  member : ∃ member ∈ db.users, member.id = row.memberId ∧ member.fullName = row.memberName ∧ member.unitCode = some row.unit ∧
    reading.normalizeEmail member.emailAddress = reading.normalizeEmail row.memberEmail ∧ member.deactivated = false
  enrolled : ⟨slot.activityId,row.memberId⟩ ∈ db.enrollments

-- The timetable of a cycle as a file: every line tells of it, and no weekly
-- slot and nobody active on a roster is left out.
structure Reflects (reading : Reading) (db : Database) (cycleId : Nat) (file : Matrix) : Prop where
  columns : ∀ name ∈ requiredColumns, name ∈ file.columns
  tells : ∀ row ∈ file.rows, ∃ slot, TellsOf reading db cycleId row slot
  slots : ∀ slot, RunsIn db cycleId slot → Weekly slot → ∃ row ∈ file.rows, TellsOf reading db cycleId row slot
  roster : ∀ enrollment ∈ db.enrollments, (∃ slot, RunsIn db cycleId slot ∧ Weekly slot ∧ slot.activityId = enrollment.activityId) →
    (∃ member ∈ db.users, member.id = enrollment.memberId ∧ member.deactivated = false) →
    ∃ row ∈ file.rows, row.memberId = enrollment.memberId ∧ ∃ slot, TellsOf reading db cycleId row slot ∧ slot.activityId = enrollment.activityId

-- Nothing else that runs stands at the same activity, rule and start.
def Alone (db : Database) (cycleId : Nat) : Prop :=
  ∀ one two, RunsIn db cycleId one → RunsIn db cycleId two → one.activityId = two.activityId → one.rrule = two.rrule →
    one.timeWindowStart = two.timeWindowStart → one = two

-- The loop's table has the first slot made for an activity, a rule and a start,
-- and a slot taken off the timetable stays in it.
def Shadowed (db : Database) (slot : StructuralMasterSlot) : Prop :=
  ∃ old ∈ db.slots, old.retired = true ∧ old.activityId = slot.activityId ∧ old.rrule = slot.rrule ∧
    old.timeWindowStart = slot.timeWindowStart ∧ old.id < slot.id

theorem TellsOf.runsIn {row : CsvRow} {slot : StructuralMasterSlot} (tells : TellsOf reading db cycleId row slot) : RunsIn db cycleId slot := by
  obtain ⟨activity,stored,id,of,live,_⟩ := tells.activity
  exact ⟨tells.runs.1,tells.runs.2,activity,stored,id,of,live⟩

theorem TellsOf.offering {row : CsvRow} {slot : StructuralMasterSlot} (coded : Coded db) (tells : TellsOf reading db cycleId row slot) :
    ∃ activity, offeringOf db cycleId row = some activity ∧ activity ∈ db.activities ∧ activity.id = slot.activityId ∧
      activity.retired = false ∧ activity.activityTitle = row.activityTitle ∧ activity.unitCode = row.unit := by
  obtain ⟨activity,stored,id,of,live,code,title,unit⟩ := tells.activity
  have found_ := find_of_mem coded.codes stored
  have same : (fun a : Activity => decide ((a.cycleId,a.activityCode) = (activity.cycleId,activity.activityCode))) =
      fun a => decide (a.cycleId = cycleId ∧ a.activityCode = row.activityCode) := by
    funext a
    simp [of,code]
  rw [same] at found_
  exact ⟨activity,found_,stored,id,live,title,unit⟩

theorem TellsOf.room_found {row : CsvRow} {slot : StructuralMasterSlot} (coded : Coded db) (tells : TellsOf reading db cycleId row slot) :
    ∃ room, roomOf reading db row = some room ∧ slot.resourceId = some room.id := by
  obtain ⟨room,stored,of,code⟩ := tells.room
  have found_ := find_of_mem coded.rooms stored
  rw [code] at found_
  exact ⟨room,found_,of⟩

-- The slot the loop's table has for a line, which is the line's own unless an
-- older one that is retired comes first.
theorem TellsOf.matched {row : CsvRow} {slot : StructuralMasterSlot} (coded : Coded db) (alone : Alone db cycleId)
    (tells : TellsOf reading db cycleId row slot) : ∃ first, matchedSlot db slot.activityId slot.rrule slot.timeWindowStart = some first ∧
      first ∈ db.slots ∧ (first.retired = false → first = slot) ∧ (first = slot ↔ ¬ Shadowed db slot) := by
  obtain ⟨activity,known,id,of,live,_⟩ := tells.activity
  have some_ : (matchedSlot db slot.activityId slot.rrule slot.timeWindowStart).isSome := by
    unfold matchedSlot
    rw [List.find?_isSome]
    exact ⟨slot,(List.mem_insertionSort _).mpr tells.runs.1,by simp⟩
  obtain ⟨first,matched⟩ := Option.isSome_iff_exists.mp some_
  obtain ⟨stored,⟨activity_,rule_,start_⟩,least⟩ := (matchedSlot_exact coded.slots).mp matched
  have own : first.retired = false → first = slot := fun unretired =>
    alone first slot ⟨stored,unretired,activity,known,id.trans activity_.symm,of,live⟩ tells.runsIn activity_ rule_ start_
  refine ⟨first,matched,stored,own,fun same shadowed => ?_,fun clear => ?_⟩
  · obtain ⟨old,there,_,like,rule,start,earlier⟩ := shadowed
    have := least old there ⟨like,rule,start⟩
    rw [same] at this
    omega
  · cases retired : first.retired with
    | false => exact own retired
    | true =>
      have before := least slot tells.runs.1 ⟨rfl,rfl,rfl⟩
      refine absurd ⟨first,stored,retired,activity_,rule_,start_,Nat.lt_of_le_of_ne before (fun same => ?_)⟩ clear
      rw [same_of_key coded.slots stored tells.runs.1 same,tells.runs.2] at retired
      cases retired

-- A line that writes what is there already and asks for nothing new.
structure Idle (cal : Recurrence) (reading : Reading) (cycle : PlanningCycle) (db : Database) (line : FileLine) : Prop where
  names : settleNames reading db line = db
  slots : ∀ slot ∈ db.slots, settleSlot slot line = slot
  address : addressFree reading db line.row
  place : placeFree cal reading cycle db line

theorem map_same {α : Type} {rows : List α} {write : α → α} (same : ∀ row ∈ rows, write row = row) : rows.map write = rows := by
  simpa using List.map_congr_left same

theorem Idle.settled {line : FileLine} (idle : Idle cal reading cycle db line) : settle reading db line = db := by
  have slots := map_same idle.slots
  calc settle reading db line = {settleNames reading db line with slots := db.slots.map (fun slot => settleSlot slot line)} := rfl
    _ = db := by rw [idle.names,slots]

theorem TellsOf.line {row : CsvRow} {slot : StructuralMasterSlot} (coded : Coded db) (alone : Alone db cycle.id)
    (tells : TellsOf reading db cycle.id row slot) (filled : blankCells columns row = []) (clear : ¬ Shadowed db slot) :
    ∃ line, line.row = row ∧ Lands reading columns cycle.id db line ∧ Idle cal reading cycle db line := by
  obtain ⟨window,read,rule,start,finish⟩ := tells.window
  obtain ⟨activity,offered,stored,id,live,title,unit⟩ := tells.offering coded
  obtain ⟨room,roomed,housed⟩ := tells.room_found coded
  obtain ⟨first,matched,_,_,unshadowed⟩ := tells.matched coded alone
  obtain ⟨member,known,named,name,of,address,active⟩ := tells.member
  obtain ⟨led,lead,there,called,present⟩ := tells.lead
  cases unshadowed.mpr clear
  rw [rule,start] at matched
  have member_ : db.user? row.memberId = some member := named ▸ find_of_mem coded.users known
  have lead_ : db.user? row.leadId = some lead := called ▸ find_of_mem coded.users there
  refine ⟨⟨row,window,slot.activityId,room.id,slot.id⟩,rfl,⟨filled,read,⟨member,member_,active⟩,⟨activity,offered,id,live⟩,
    ⟨_,tells.enrolled,rfl,rfl⟩,⟨room,roomed,rfl⟩,⟨slot,matched,rfl,tells.runs.2⟩,⟨lead,lead_,present⟩⟩,⟨?_,?_,?_,?_⟩⟩
  · have users : db.users.map (fun user => settleMember reading user row) = db.users := map_same (fun user listed => by
      by_cases same : user.id = row.memberId
      · cases same_of_key coded.users listed known (same.trans named.symm)
        rw [settleMember,if_pos same,if_pos address,← name,← of]
      · simp [settleMember,same])
    have activities : db.activities.map (fun activity => settleOffering activity ⟨row,window,slot.activityId,room.id,slot.id⟩) =
        db.activities := map_same (fun other listed => by
      by_cases same : other.id = slot.activityId
      · cases same_of_key coded.activities listed stored (same.trans id.symm)
        rw [settleOffering,if_pos same,← title,← unit]
      · simp [settleOffering,same])
    unfold settleNames
    rw [users,activities]
  · intro other listed
    by_cases same : other.id = slot.id
    · cases same_of_key coded.slots listed tells.runs.1 same
      simp [settleSlot,correctedSlot,← finish,← led,← housed]
    · simp [settleSlot,same]
  · intro other found_
    cases Option.some.inj (member_.symm.trans found_)
    exact .inl address
  · intro other found_ place placed
    cases Option.some.inj (matched.symm.trans found_)
    cases Option.some.inj (roomed.symm.trans placed)
    exact .inl ⟨housed,finish⟩

theorem idle_rereads {lines : List FileLine} (idle : ∀ line ∈ lines, Idle cal reading cycle db line) :
    Rereads cal reading cycle db lines ∧ lines.foldl (settle reading) db = db := by
  induction lines with
  | nil => exact ⟨trivial,rfl⟩
  | cons line rest ih =>
    have here := idle line List.mem_cons_self
    obtain ⟨again,same⟩ := ih (fun other listed => idle other (List.mem_cons_of_mem _ listed))
    simp only [Rereads,List.foldl_cons,here.names,here.settled]
    exact ⟨⟨here.address,here.place,again⟩,same⟩

theorem idle_corrects {lines : List FileLine} (idle : ∀ line ∈ lines, Idle cal reading cycle db line) :
    (lines.foldl (reread reading) ⟨db,[],[],[],[],[]⟩).corrected = [] := by
  refine List.eq_nil_iff_forall_not_mem.mpr (fun id listed => ?_)
  rcases reread_corrected lines _ id listed with none | ⟨slot,stored,_,line,there,moved⟩
  · exact absurd none List.not_mem_nil
  · exact moved ((idle line there).slots slot stored)

theorem each_line {rows : List CsvRow} {holds : FileLine → Prop} (each : ∀ row ∈ rows, ∃ line, line.row = row ∧ holds line) :
    ∃ lines : List FileLine, lines.map FileLine.row = rows ∧ ∀ line ∈ lines, holds line := by
  induction rows with
  | nil => exact ⟨[],rfl,fun _ none => absurd none List.not_mem_nil⟩
  | cons row rest ih =>
    obtain ⟨line,rfl,here⟩ := each row List.mem_cons_self
    obtain ⟨lines,rfl,others⟩ := ih (fun other listed => each other (List.mem_cons_of_mem _ listed))
    exact ⟨line :: lines,rfl,List.forall_mem_cons.mpr ⟨here,others⟩⟩

-- What a file that tells of the tables as they stand comes to, when it does not
-- stumble over a slot that was taken off.
theorem told_unchanged {file : Matrix} (coded : Coded db) (alone : Alone db cycle.id) (complete : ∀ name ∈ requiredColumns, name ∈ file.columns)
    (told : ∀ row ∈ file.rows, ∃ slot, TellsOf reading db cycle.id row slot ∧ blankCells file.columns row = [] ∧ ¬ Shadowed db slot) :
    ∃ report, processMemberCentricMatrix cal reading sha256 db file cycle false = .ok (db,report) ∧ report.slotsCorrected = 0 ∧
      report.provisioned = [] := by
  have each : ∀ row ∈ file.rows, ∃ line, line.row = row ∧ Lands reading file.columns cycle.id db line ∧ Idle cal reading cycle db line := by
    intro row listed
    obtain ⟨slot,tells,filled,clear⟩ := told row listed
    exact tells.line coded alone filled clear
  obtain ⟨lines,rows,all⟩ := each_line each
  obtain ⟨again,same⟩ := idle_rereads (fun line listed => (all line listed).2)
  have corrects := idle_corrects (fun line listed => (all line listed).2)
  obtain ⟨after,provisioned,_⟩ := @reread_foldl reading lines ⟨db,[],[],[],[],[]⟩
  have read := (@importRows_again cal reading file.columns cycle lines ⟨db,[],[],[],[],[]⟩ _ 2 coded.toFileKeys
    (fun line listed => (all line listed).1)).mpr ⟨again,rfl⟩
  rw [rows] at read
  refine ⟨_,import_outcome.mpr ⟨complete,_,read,?_,rfl⟩,?_,provisioned⟩
  · rw [corrects,after,same]
    exact (caughtUp_start db).symm
  · rw [corrects]
    rfl

-- A line that stumbles takes the whole file down.
theorem accepted_clear {file : Matrix} {after : Database} {report : ImportReport} (coded : Coded db) (alone : Alone db cycle.id)
    (done : processMemberCentricMatrix cal reading sha256 db file cycle false = .ok (after,report)) {row : CsvRow} (listed : row ∈ file.rows)
    {slot : StructuralMasterSlot} (tells : TellsOf reading db cycle.id row slot) :
    blankCells file.columns row = [] ∧ ¬ Shadowed db slot := by
  obtain ⟨s,lines,rows,gathered,_⟩ := gathered_import coded.toFileKeys done
  rw [← rows] at listed
  obtain ⟨line,there,rfl⟩ := List.mem_map.mp listed
  have lands := gathered.lands line there
  obtain ⟨window,read,rule,start,_⟩ := tells.window
  cases Except.ok.inj (read.symm.trans lands.window)
  obtain ⟨activity,offered,stored,id,_⟩ := tells.offering coded
  obtain ⟨offering,offering_,named,_⟩ := lands.offering
  obtain ⟨final,final_,_,unretired⟩ := lands.slot
  obtain ⟨first,matched,stored',own,clear⟩ := tells.matched coded alone
  have old : slot.activityId ∈ db.activities.map Activity.id := id ▸ List.mem_map_of_mem stored
  have same : line.offeringId = slot.activityId := by
    have kept := (gathered.offered old).mpr (by rw [offered,Option.map_some,id])
    rw [offering_,Option.map_some,named] at kept
    exact Option.some.inj kept
  have kept := (gathered.matched coded.toFileKeys stored').mpr matched
  rw [rule,start,← same] at kept
  cases Option.some.inj (kept.symm.trans final_)
  rw [settled_keys settleSlot_retired] at unretired
  exact ⟨lands.filled,clear.mp (own unretired)⟩

theorem rowWindow_day {row : CsvRow} {window : RowWindow} (read : rowWindow reading row = .ok window) : 1 ≤ window.day ∧ window.day ≤ 7 := by
  unfold rowWindow at read
  simp only [bind_parts,foundText_parts] at read
  obtain ⟨day,parsed,_,_,_,_,_,_,made⟩ := read
  cases made
  exact reading.weekday _ day parsed

theorem TellsOf.weekly {row : CsvRow} {slot : StructuralMasterSlot} (tells : TellsOf reading db cycleId row slot) : Weekly slot := by
  obtain ⟨window,read,rule,_⟩ := tells.window
  exact ⟨window.day,(rowWindow_day read).1,(rowWindow_day read).2,rule⟩

-- The two morning classes as an import left them.
def morningTerm : Database := performAll plainRuntime newTerm [.uploadMatrix morningFile 1 false registrar]

def earlySlot : StructuralMasterSlot := ⟨1,weeklyRule 3,101,clock 5 0,clock 7 0,1,some "registrar",some 1,false⟩

def lateSlot : StructuralMasterSlot := ⟨2,weeklyRule 3,101,clock 9 0,clock 11 0,2,some "registrar",some 1,false⟩

theorem morning_reflects : Reflects plainReading morningTerm 1 morningFile := by
  have early : TellsOf plainReading morningTerm 1 (classRow "m1" "m1@school" "EARLY" "3" "05:00" "07:00") earlySlot :=
    ⟨by decide,⟨_,rfl,rfl,rfl,rfl⟩,by decide,by decide,by decide,by decide,by decide⟩
  have late : TellsOf plainReading morningTerm 1 (classRow "m2" "m2@school" "LATE" "3" "09:00" "11:00") lateSlot :=
    ⟨by decide,⟨_,rfl,rfl,rfl,rfl⟩,by decide,by decide,by decide,by decide,by decide⟩
  have slots : morningTerm.slots = [earlySlot,lateSlot] := by decide
  have roster : morningTerm.enrollments = [⟨1,"m1"⟩,⟨2,"m2"⟩] := by decide
  refine ⟨by decide,?_,?_,?_⟩
  · simp only [morningFile,List.forall_mem_cons]
    exact ⟨⟨_,early⟩,⟨_,late⟩,fun _ none => absurd none List.not_mem_nil⟩
  · intro slot runs _
    have listed := runs.1
    rw [slots] at listed
    rcases List.mem_cons.mp listed with rfl | listed
    · exact ⟨_,List.mem_cons_self,early⟩
    · cases List.mem_singleton.mp listed
      exact ⟨_,List.mem_cons_of_mem _ List.mem_cons_self,late⟩
  · intro enrollment listed _ _
    rw [roster] at listed
    rcases List.mem_cons.mp listed with rfl | listed
    · exact ⟨_,List.mem_cons_self,rfl,_,early,rfl⟩
    · cases List.mem_singleton.mp listed
      exact ⟨_,List.mem_cons_of_mem _ List.mem_cons_self,rfl,_,late,rfl⟩

-- The early class is taken off the timetable and put up again as it was: the
-- file that lists it is refused over the slot that is gone.
def replacedTerm : Database := performAll plainRuntime newTerm [.uploadMatrix onlyEarly 1 false registrar,.retireMasterSlot 1 registrar,
  .createMasterSlot ⟨weeklyRule 3,none,clock 5 0,clock 7 0,1,some "registrar","HALL",five_to_seven⟩ registrar]

end ChronosLedger
