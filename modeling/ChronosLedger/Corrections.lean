import ChronosLedger.ExactChecks
import ChronosLedger.HorizonJobs
import ChronosLedger.ImportAgain

namespace ChronosLedger

variable {cal : Recurrence} {reading : Reading} {sha256 : String → String} {strip : String → String} {cycle : PlanningCycle} {db : Database}

-- The columns a generated day is written with, read back from its row.
def fieldsOf (row : DailyLedger) : Option DayFields :=
  row.timeWindowStart.bind (fun start => row.timeWindowEnd.bind (fun finish => row.masterSlotId.map (fun slotId =>
    ⟨row.targetDate,start,finish,slotId,row.activityId,row.activeLeadId,row.resourceId,row.operationalState⟩)))

@[simp] theorem fieldsOf_dayRow (id : Nat) (fields : DayFields) : fieldsOf (dayRow id fields) = some fields := rfl

-- A day of the slot as it was generated: planned or on leave, nobody standing in.
structure AsGenerated (slot : StructuralMasterSlot) (row : DailyLedger) : Prop where
  of : row.masterSlotId = some slot.id
  activity : row.activityId = slot.activityId
  substitute : row.substituteLeadId = none
  state : row.operationalState = .scheduled ∨ row.operationalState = .onLeave

-- The days a correction is copied onto, those ahead that nobody has marked.
structure StillPlanned (db : Database) (row : DailyLedger) : Prop where
  stored : row ∈ db.ledger
  ahead : db.orgToday < row.targetDate
  idle : inUse db row.id = false

-- The row as it is now has what the generator would write of the slot today.
def AsRegenerated (after : Database) (slot : StructuralMasterSlot) (row : DailyLedger) : Prop :=
  ∃ later, after.day? row.id = some later ∧ fieldsOf later = some (dueFields after row.targetDate slot)

theorem generateSlots_due (day : Int) (slots : List BookedSlot) (db : Database) :
    ∀ fields ∈ (generateSlots day db slots).2, ∃ booked ∈ slots, fields = dueFields db day booked.slot := by
  induction slots generalizing db with
  | nil => exact fun _ none => absurd none List.not_mem_nil
  | cons booked rest ih =>
    intro fields written
    unfold generateSlots at written
    split at written
    · obtain ⟨other,listed,rfl⟩ := ih db fields written
      exact ⟨other,List.mem_cons_of_mem _ listed,rfl⟩
    · obtain ⟨ledger,framed⟩ := insertDay_frame db (dueFields db day booked.slot)
      have later : ∀ fields ∈ (generateSlots day (insertDay db (dueFields db day booked.slot)).1 rest).2,
          ∃ other ∈ booked :: rest, fields = dueFields db day other.slot := by
        intro fields written
        obtain ⟨other,listed,rfl⟩ := ih _ fields written
        rw [framed]
        exact ⟨other,List.mem_cons_of_mem _ listed,rfl⟩
      dsimp only at written
      split at written
      · rcases List.mem_cons.mp written with rfl | written
        · exact ⟨booked,List.mem_cons_self,rfl⟩
        · exact later fields written
      · exact later fields written

theorem generate_due (day : Int) (fields : DayFields) (written : fields ∈ (generateDailyLedgerEntries cal db day).2) :
    ∃ slot ∈ db.slots, slot.id = fields.masterSlotId ∧ fields = dueFields db day slot := by
  obtain ⟨booked,listed,rfl⟩ := generateSlots_due day _ db fields written
  simp only [candidates,List.mem_filter,List.mem_insertionSort] at listed
  exact ⟨booked.slot,(mem_openSlots.mp listed.1.1).1,rfl,rfl⟩

theorem correctedDay_fields {slot : StructuralMasterSlot} {row : DailyLedger} (generated : AsGenerated slot row) :
    fieldsOf (correctedDay slot row) = some (dayFields slot row.targetDate row.operationalState) := by
  unfold correctedDay fieldsOf dayFields
  dsimp only
  split <;> simp [generated.of,generated.activity]

theorem dayFields_state {slot : StructuralMasterSlot} {day : Int} {one two : DynamicState} :
    dayFields slot day one = dayFields slot day two ↔ one = two :=
  ⟨congrArg DayFields.operationalState,fun same => same ▸ rfl⟩

-- The state is the one column a correction does not write.
theorem corrected_exact {after : Database} {slot : StructuralMasterSlot} {row : DailyLedger} (generated : AsGenerated slot row)
    (absences : after.absences = db.absences) (written : after.day? row.id = some (correctedDay slot row)) :
    AsRegenerated after slot row ↔ row.operationalState = leaveState (approvedLeave db slot.primaryLeadId row.targetDate) := by
  have leave : approvedLeave after slot.primaryLeadId row.targetDate = approvedLeave db slot.primaryLeadId row.targetDate := by
    unfold approvedLeave
    rw [absences]
  simp only [AsRegenerated,written,Option.some.injEq,exists_eq_left',correctedDay_fields generated,dueFields,leave,dayFields_state]

-- Under its primary key a day is found again by its id, whatever is written on
-- it.
theorem day_written {after : Database} {write : DailyLedger → Option DailyLedger} (days : (db.ledger.map DailyLedger.id).Nodup)
    (keeps : ∀ row later, write row = some later → later.id = row.id) (ledger : after.ledger = db.ledger.filterMap write)
    {row later : DailyLedger} (stored : row ∈ db.ledger) (written : write row = some later) : after.day? row.id = some later := by
  have distinct : (after.ledger.map DailyLedger.id).Nodup := by
    rw [ledger]
    exact days.sublist (filterMap_keys keeps db.ledger)
  have there : later ∈ after.ledger := by
    rw [ledger]
    exact List.mem_filterMap.mpr ⟨row,stored,written⟩
  rw [← keeps row later written]
  exact find_of_mem distinct there

-- PATCH /schedule/slots/{id}, the rule and its start left as they are.
theorem updateMasterSlot_writes {slotId : Nat} {payload : MasterSlotUpdate} {currentUser : User} {after : Database} {view : SlotUpdateView}
    {before corrected : StructuralMasterSlot} (days : (db.ledger.map DailyLedger.id).Nodup)
    (done : updateMasterSlot cal sha256 strip db slotId payload currentUser = .ok (after,view)) (known : db.slot? slotId = some before)
    (stands : after.slot? slotId = some corrected) (rule : corrected.rrule = before.rrule) (start : corrected.dtstart = before.dtstart)
    {row : DailyLedger} (planned : StillPlanned db row) (generated : AsGenerated corrected row) :
    after.day? row.id = some (correctedDay corrected row) ∧ after.absences = db.absences := by
  obtain ⟨slot,_,_,rule_,dtstart,resourceId,made,withdrawn,_,known_,_,_,_,asked,_,dropped,rfl⟩ := updateMasterSlot_parts done
  cases Option.some.inj (known.symm.trans known_)
  obtain ⟨_,⟨resources,rfl⟩,_⟩ := @askedRoom_parts cal _ _ _ _ _ _ _ asked
  have slots : withdrawn.slots = db.slots := by
    rcases withdrawOldRule_parts dropped with ⟨_,_,rfl⟩ | ⟨_,_,rfl⟩ <;> rfl
  have moved : corrected = movedSlot before payload rule_ dtstart resourceId := by
    have found_ : (relocate withdrawn (movedSlot before payload rule_ dtstart resourceId)).slot? slotId =
        (withdrawn.slot? slotId).map (fun s => if s.id = before.id then movedSlot before payload rule_ dtstart resourceId else s) := by
      rw [relocate_parts]
      exact setSlot_slot withdrawn (movedSlot before payload rule_ dtstart resourceId) slotId
    have same : withdrawn.slot? slotId = some before := by
      unfold Database.slot?
      rw [slots]
      exact known
    rw [found_,same,Option.map_some,if_pos rfl] at stands
    exact (Option.some.inj stands).symm
  subst moved
  obtain rfl : rule_ = before.rrule := rule
  obtain rfl : dtstart = before.dtstart := start
  rcases withdrawOldRule_parts dropped with ⟨_,_,rfl⟩ | ⟨other,_,_⟩
  · rw [relocate_parts]
    refine ⟨@day_written db _ (fun row => some (relocated {db with resources := resources}
      (movedSlot before payload before.rrule before.dtstart resourceId) row)) days (fun row later wrote => ?_)
      (congrFun List.filterMap_eq_map' _).symm _ _ planned.stored ?_,rfl⟩
    · cases wrote
      exact relocated_id _ _ _
    · have use : inUse {db with resources := resources} row.id = false := planned.idle
      unfold relocated
      rw [if_pos ⟨generated.of,planned.ahead,use⟩]
  · exact absurd rfl other

-- The import, for a slot that some line of the file corrected.
theorem import_writes {file : Matrix} {removeMissing : Bool} {after : Database} {report : ImportReport} {s : ImportState}
    {corrected : StructuralMasterSlot} (keys : FileKeys db) (days : (db.ledger.map DailyLedger.id).Nodup)
    (done : processMemberCentricMatrix cal reading sha256 db file cycle removeMissing = .ok (after,report))
    (read : importRows cal reading file.columns cycle 2 file.rows ⟨db,[],[],[],[],[]⟩ = .ok s) (listed : corrected.id ∈ s.corrected)
    (stands : after.slot? corrected.id = some corrected) {row : DailyLedger} (planned : StillPlanned db row)
    (generated : AsGenerated corrected row) :
    after.day? row.id = some (correctedDay corrected row) ∧ after.absences = db.absences := by
  obtain ⟨lines,gone,dropped,_,gathered,leaves⟩ := import_leaves_read keys done read
  obtain ⟨users,activities,enrollments,resources,slots,frame⟩ := gathered.frame
  have ledger : s.db.ledger = db.ledger := by rw [frame]
  have use : inUse s.db row.id = inUse db row.id := by rw [frame]; rfl
  have today : s.db.orgToday = db.orgToday := by rw [frame]
  have absences : after.absences = db.absences := by rw [leaves.after,without,caughtUp_parts,frame]
  have slot_ : s.db.slot? corrected.id = some corrected := by
    have stored : corrected ∈ s.db.slots := by
      have there := List.mem_of_find?_eq_some stands
      rw [leaves.after,without,caughtUp_parts] at there
      exact (List.mem_filter.mp there).1
    exact find_of_mem gathered.keys.slots stored
  have caught : caughtUpDay s.db s.corrected row = correctedDay corrected row := by
    unfold caughtUpDay correction
    rw [generated.of,Option.bind_some,if_pos listed,slot_]
    dsimp only
    rw [use,today,if_pos ⟨planned.ahead,planned.idle⟩]
  have stays : keptDay db.orgToday gone (correctedDay corrected row) = some (correctedDay corrected row) := by
    apply keptDay_other
    intro id its
    rw [correctedDay_slot,generated.of] at its
    cases its
    exact fun removed => leaves.spares.1 _ removed (gathered.corrected _ listed)
  refine ⟨@day_written db after (fun row => keptDay db.orgToday gone (caughtUpDay s.db s.corrected row)) days (fun row later wrote => ?_) ?_ _ _
    planned.stored ?_,absences⟩
  · rw [keptDay_id wrote,caughtUpDay_id]
  · rw [leaves.after,without,caughtUp_parts]
    dsimp only
    rw [today,ledger,List.filterMap_map]
    rfl
  · rw [caught]
    exact stays

-- A day brought along with a correction is the day the generator would write
-- now, exactly when its state was already what the leave of the lead it names
-- from then on asks for.
theorem corrections_regenerate_exact (cal : Recurrence) (reading : Reading) (sha256 strip : String → String) (db : Database)
    (days : (db.ledger.map DailyLedger.id).Nodup) :
    (∀ slotId payload currentUser after view before corrected,
      updateMasterSlot cal sha256 strip db slotId payload currentUser = .ok (after,view) → db.slot? slotId = some before →
      after.slot? slotId = some corrected → corrected.rrule = before.rrule → corrected.dtstart = before.dtstart →
      ∀ row, StillPlanned db row → AsGenerated corrected row → (AsRegenerated after corrected row ↔
        row.operationalState = leaveState (approvedLeave db corrected.primaryLeadId row.targetDate))) ∧
    (∀ file cycle removeMissing after report s corrected, FileKeys db →
      processMemberCentricMatrix cal reading sha256 db file cycle removeMissing = .ok (after,report) →
      importRows cal reading file.columns cycle 2 file.rows ⟨db,[],[],[],[],[]⟩ = .ok s → corrected.id ∈ s.corrected →
      after.slot? corrected.id = some corrected → ∀ row, StillPlanned db row → AsGenerated corrected row →
        (AsRegenerated after corrected row ↔
          row.operationalState = leaveState (approvedLeave db corrected.primaryLeadId row.targetDate))) ∧
    ∀ day, ∀ fields ∈ (generateDailyLedgerEntries cal db day).2, ∃ slot ∈ db.slots, slot.id = fields.masterSlotId ∧
      fields = dueFields db day slot := by
  refine ⟨?_,?_,fun day fields written => generate_due day fields written⟩
  · intro slotId payload currentUser after view before corrected done known stands rule start row planned generated
    obtain ⟨written,absences⟩ := updateMasterSlot_writes days done known stands rule start planned generated
    exact corrected_exact generated absences written
  · intro file cycle removeMissing after report s corrected keys done read listed stands row planned generated
    obtain ⟨written,absences⟩ := import_writes keys days done read listed stands planned generated
    exact corrected_exact generated absences written

-- A daily class whose lead is on approved leave tomorrow.
def lecturer : User := ⟨"lecturer","Lecturer","lecturer@school",.staff,some "SCI",some "registrar",false⟩

def leaveTerm : Database := performAll plainRuntime {staffed 100 with users := [registrar,lecturer]}
  [.createCycle ⟨"term",100,130,true,spring_bounds⟩ registrar,.createActivity ⟨"MATH","Mathematics","SCI",1⟩ registrar,
    .createMasterSlot ⟨"FREQ=DAILY",some 100,clock 9 0,clock 10 0,1,some "lecturer","A",nine_to_ten⟩ registrar,
    .submitAbsence ⟨101,none,"away",by decide⟩ lecturer,.decideAbsence 1 .verifiedApproved registrar]

def tomorrow : DailyLedger :=
  ⟨1,101,some (clock 9 0),some (clock 10 0),some 1,1,some "lecturer",none,some 1,.physical,none,none,none,none,some 15,.onLeave⟩

def dailyClass : StructuralMasterSlot := ⟨1,"FREQ=DAILY",100,clock 9 0,clock 10 0,1,some "lecturer",some 1,false⟩

theorem moved_room_regenerated : ∃ after view, updateMasterSlot plainRules id id leaveTerm 1 ⟨none,none,none,none,none,some "B"⟩ registrar =
    .ok (after,view) ∧ AsRegenerated after {dailyClass with resourceId := some 2} tomorrow := by
  have done : ∃ after view, updateMasterSlot plainRules id id leaveTerm 1 ⟨none,none,none,none,none,some "B"⟩ registrar =
      .ok (after,view) ∧ after.slot? 1 = some {dailyClass with resourceId := some 2} := ⟨_,_,rfl,by decide⟩
  obtain ⟨after,view,done,stands⟩ := done
  have known : leaveTerm.slot? 1 = some dailyClass := by decide
  exact ⟨after,view,done,((corrections_regenerate_exact plainRules plainReading id id leaveTerm (by decide)).1 1 _ registrar after view dailyClass _
    done known stands rfl rfl tomorrow ⟨by decide,by decide,by decide⟩ ⟨rfl,rfl,rfl,.inr rfl⟩).mpr (by decide)⟩

-- Somebody who is there takes the class, and its day goes on saying that its
-- lead is away.
theorem lead_change_stays : ¬ ∀ (cal : Recurrence) (sha256 strip : String → String) (db : Database) (slotId : Nat) (payload : MasterSlotUpdate)
    (currentUser : User) (after : Database) (view : SlotUpdateView) (before corrected : StructuralMasterSlot),
    (db.ledger.map DailyLedger.id).Nodup → updateMasterSlot cal sha256 strip db slotId payload currentUser = .ok (after,view) →
      db.slot? slotId = some before → after.slot? slotId = some corrected → corrected.rrule = before.rrule →
      corrected.dtstart = before.dtstart → ∀ row, StillPlanned db row → AsGenerated corrected row → AsRegenerated after corrected row := by
  intro claimed
  have done : ∃ after view, updateMasterSlot plainRules id id leaveTerm 1 ⟨none,none,none,none,some (some "registrar"),none⟩ registrar =
      .ok (after,view) ∧ after.slot? 1 = some {dailyClass with primaryLeadId := some "registrar"} ∧
      (after.day? 1).bind fieldsOf = some (dayFields {dailyClass with primaryLeadId := some "registrar"} 101 .onLeave) ∧
      dueFields after 101 {dailyClass with primaryLeadId := some "registrar"} =
        dayFields {dailyClass with primaryLeadId := some "registrar"} 101 .scheduled := ⟨_,_,rfl,by decide,by decide,by decide⟩
  obtain ⟨after,view,done,stands,left,fresh⟩ := done
  have known : leaveTerm.slot? 1 = some dailyClass := by decide
  obtain ⟨later,found_,same⟩ := claimed plainRules id id leaveTerm 1 _ registrar after view dailyClass _ (by decide) done known stands rfl rfl
    tomorrow ⟨by decide,by decide,by decide⟩ ⟨rfl,rfl,rfl,.inr rfl⟩
  have row : after.day? 1 = some later := found_
  rw [row,Option.bind_some,same] at left
  have due : dueFields after 101 {dailyClass with primaryLeadId := some "registrar"} =
    dayFields {dailyClass with primaryLeadId := some "registrar"} 101 .onLeave := Option.some.inj left
  rw [fresh,dayFields_state] at due
  cases due

end ChronosLedger
