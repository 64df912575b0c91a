import ChronosLedger.GatheredLines
import ChronosLedger.NoDoubleBooking

namespace ChronosLedger

variable {cal : Recurrence} {reading : Reading} {sha256 : String → String} {cycle : PlanningCycle} {db : Database}

-- A day of the slot from today on carries a mark or a note.
def Recorded (db : Database) (slotId : Nat) : Prop := ∃ row ∈ db.ledger, plannedFor db slotId row = true ∧ inUse db row.id = true

instance (db : Database) (slotId : Nat) : Decidable (Recorded db slotId) := inferInstanceAs (Decidable (∃ row ∈ db.ledger, _ ∧ _))

theorem idleAhead_exact (db : Database) (slotId : Nat) : idleAhead db slotId ↔ ¬ Recorded db slotId := by
  simp [idleAhead,Recorded]

-- A day when some slots go: withdrawn from today on, and kept without its slot
-- before.
def keptDay (today : Int) (gone : List Nat) (row : DailyLedger) : Option DailyLedger :=
  if row.masterSlotId.any (fun id => id ∈ gone) then if today ≤ row.targetDate then none else some {row with masterSlotId := none}
  else some row

def without (db : Database) (gone : List Nat) : Database :=
  {db with
    slots := db.slots.filter (fun slot => slot.id ∉ gone)
    ledger := db.ledger.filterMap (keptDay db.orgToday gone)}

theorem keptDay_other {today : Int} {gone : List Nat} {row : DailyLedger} (other : ∀ id ∈ row.masterSlotId, id ∉ gone) :
    keptDay today gone row = some row := by
  unfold keptDay
  rw [if_neg]
  cases of : row.masterSlotId with
  | none => simp
  | some id => simpa using other id of

theorem keptDay_slot {today : Int} {gone : List Nat} {row kept : DailyLedger} (stays : keptDay today gone row = some kept) {slotId : Nat}
    (of : kept.masterSlotId = some slotId) : kept = row ∧ slotId ∉ gone := by
  unfold keptDay at stays
  split at stays
  · split at stays
    · cases stays
    · cases stays
      cases of
  · rename_i other
    cases stays
    exact ⟨rfl,by simpa [of] using other⟩

theorem keptDay_none {today : Int} {gone : List Nat} {row : DailyLedger} :
    keptDay today gone row = none ↔ today ≤ row.targetDate ∧ ∃ id ∈ gone, row.masterSlotId = some id := by
  unfold keptDay
  cases of : row.masterSlotId with
  | none => simp
  | some id => by_cases mine : id ∈ gone <;> simp [mine]

theorem keptDay_id {today : Int} {gone : List Nat} {row kept : DailyLedger} (stays : keptDay today gone row = some kept) : kept.id = row.id := by
  unfold keptDay at stays
  split at stays
  · split at stays
    · cases stays
    · cases stays
      rfl
  · cases stays
    rfl

theorem keptDay_again (today : Int) (one two : List Nat) (row : DailyLedger) :
    (keptDay today one row).bind (keptDay today two) = keptDay today (one ++ two) row := by
  cases of : row.masterSlotId with
  | none => simp [keptDay,of]
  | some id =>
    by_cases first : id ∈ one
    · by_cases ahead : today ≤ row.targetDate <;> simp [keptDay,of,first,ahead]
    · by_cases second : id ∈ two <;> by_cases ahead : today ≤ row.targetDate <;> simp [keptDay,of,first,second,ahead]

theorem without_again (db : Database) (one two : List Nat) : without (without db one) two = without db (one ++ two) := by
  unfold without
  simp only [List.filter_filter,List.filterMap_filterMap,keptDay_again,Database.mk.injEq,true_and,and_true]
  refine List.filter_congr (fun slot _ => ?_)
  simp [Bool.and_comm]

theorem without_none (db : Database) : without db [] = db := by
  have kept : keptDay db.orgToday [] = some := funext (fun row => keptDay_other (fun _ _ => List.not_mem_nil))
  simp [without,kept]

theorem remove_without {slotId : Nat} (idle : idleAhead db slotId) : remove db slotId = without db [slotId] := by
  unfold remove without
  rw [dropDays_idle idle]
  simp only [Database.mk.injEq,true_and,and_true]
  constructor
  · refine List.filter_congr (fun slot _ => ?_)
    simp
  · rw [← List.filterMap_eq_filter,List.map_filterMap]
    refine List.filterMap_congr (fun row _ => ?_)
    cases of : row.masterSlotId with
    | none => simp [keptDay,plannedFor,detachDay,of]
    | some id => by_cases mine : id = slotId <;> by_cases ahead : db.orgToday ≤ row.targetDate <;>
        simp [keptDay,plannedFor,detachDay,of,mine,ahead]

theorem recorded_without {gone : List Nat} {slotId : Nat} (stays : slotId ∉ gone) : Recorded (without db gone) slotId ↔ Recorded db slotId := by
  have planned : ∀ row, plannedFor (without db gone) slotId row = plannedFor db slotId row := fun _ => rfl
  have use : ∀ id, inUse (without db gone) id = inUse db id := fun _ => rfl
  simp only [Recorded,planned,use]
  constructor
  · rintro ⟨row,stored,ahead,used⟩
    obtain ⟨old,there,kept⟩ := List.mem_filterMap.mp stored
    obtain ⟨rfl,_⟩ := keptDay_slot kept (of_decide_eq_true (Bool.and_eq_true_iff.mp ahead).1)
    exact ⟨row,there,ahead,used⟩
  · rintro ⟨row,stored,ahead,used⟩
    have of : row.masterSlotId = some slotId := of_decide_eq_true (Bool.and_eq_true_iff.mp ahead).1
    refine ⟨row,List.mem_filterMap.mpr ⟨row,stored,keptDay_other (fun id same => ?_)⟩,ahead,used⟩
    cases of.symm.trans same
    exact stays

theorem deleteSlot_recorded {slot : StructuralMasterSlot} :
    (Recorded db slot.id ∧ ∃ refusal, deleteSlot db slot = .error refusal) ∨
      (¬ Recorded db slot.id ∧ ∃ deletion, deleteSlot db slot = .ok (without db [slot.id],deletion)) := by
  cases deleted : deleteSlot db slot with
  | error refusal =>
    left
    refine ⟨?_,refusal,rfl⟩
    by_contra free
    have granted : withdrawPlannedDays db slot "deleted" = .ok (dropDays db (plannedFor db slot.id),_) :=
      withdrawPlannedDays_parts.mpr ⟨(idleAhead_exact db slot.id).mpr free,rfl,rfl⟩
    simp [deleteSlot,granted,bind,Except.bind] at deleted
  | ok outcome =>
    right
    obtain ⟨next,deletion⟩ := outcome
    obtain ⟨idle,rfl⟩ := deleteSlot_parts deleted
    exact ⟨(idleAhead_exact db slot.id).mp idle,deletion,by rw [remove_without idle]⟩

-- The removal takes the slots that carry no record ahead, in one step or one by
-- one, and lists the others.
theorem removeSlots_exact (slots : List StructuralMasterSlot) (db : Database) (distinct : (slots.map StructuralMasterSlot.id).Nodup) :
    (removeSlots db slots).1 = without db ((slots.filter (fun slot => ¬ Recorded db slot.id)).map StructuralMasterSlot.id) ∧
    (removeSlots db slots).2.removed.map Prod.fst = slots.filter (fun slot => ¬ Recorded db slot.id) ∧
    (removeSlots db slots).2.notRemoved.map Prod.fst = slots.filter (fun slot => Recorded db slot.id) := by
  induction slots generalizing db with
  | nil => exact ⟨(without_none db).symm,rfl,rfl⟩
  | cons slot rest ih =>
    rw [List.map_cons,List.nodup_cons] at distinct
    unfold removeSlots
    rcases @deleteSlot_recorded db slot with ⟨recorded,refusal,refused⟩ | ⟨free,deletion,deleted⟩
    · obtain ⟨one,two,three⟩ := ih db distinct.2
      simp only [refused,List.filter_cons,recorded,not_true_eq_false,decide_false,Bool.false_eq_true,if_false,decide_true,if_true]
      exact ⟨one,two,by rw [List.map_cons,three]⟩
    · obtain ⟨one,two,three⟩ := ih (without db [slot.id]) distinct.2
      have still : ∀ other ∈ rest, Recorded (without db [slot.id]) other.id ↔ Recorded db other.id := by
        intro other listed
        refine recorded_without (fun same => distinct.1 ?_)
        rw [← List.mem_singleton.mp same]
        exact List.mem_map_of_mem listed
      have gone : rest.filter (fun other => ¬ Recorded (without db [slot.id]) other.id) = rest.filter (fun other => ¬ Recorded db other.id) :=
        List.filter_congr (fun other listed => by simp [still other listed])
      have left : rest.filter (fun other => Recorded (without db [slot.id]) other.id) = rest.filter (fun other => Recorded db other.id) :=
        List.filter_congr (fun other listed => by simp [still other listed])
      rw [gone] at one two
      rw [left] at three
      simp only [deleted,List.filter_cons,free,not_false_eq_true,decide_true,if_true,decide_false,Bool.false_eq_true,if_false]
      exact ⟨by rw [one,without_again]; rfl,by rw [List.map_cons,two],three⟩

-- What the tables promise: ids are keys, and a slot and an enrollment are of an
-- activity on record.
structure Filed (db : Database) : Prop extends FileKeys db where
  days : (db.ledger.map DailyLedger.id).Nodup
  offered : ∀ slot ∈ db.slots, slot.activityId ∈ db.activities.map Activity.id
  enrolled : ∀ enrollment ∈ db.enrollments, enrollment.activityId ∈ db.activities.map Activity.id

-- An unretired activity of the cycle, in a unit the file names. A line may have
-- moved it there.
def InUnits (file : Matrix) (cycleId : Nat) (after : Database) (activityId : Nat) : Prop :=
  ∃ activity ∈ after.activities, activity.id = activityId ∧ activity.cycleId = cycleId ∧
    activity.unitCode ∈ file.rows.map CsvRow.unit ∧ activity.retired = false

def SlotLeftOut (reading : Reading) (before after : Database) (file : Matrix) (cycleId : Nat) (slot : StructuralMasterSlot) : Prop :=
  InUnits file cycleId after slot.activityId ∧ slot.retired = false ∧
    ∀ row ∈ file.rows, lineSlot reading before cycleId row ≠ some slot.id

def EnrollmentLeftOut (before after : Database) (file : Matrix) (cycleId : Nat) (enrollment : ActivityEnrollment) : Prop :=
  InUnits file cycleId after enrollment.activityId ∧
    ∀ row ∈ file.rows, ¬ (row.memberId = enrollment.memberId ∧
      (offeringOf before cycleId row).map Activity.id = some enrollment.activityId)

section
variable {file : Matrix} {s : ImportState} {lines : List FileLine}

theorem Gathered.seen (gathered : Gathered reading file.columns cycle.id db lines s) (rows : lines.map FileLine.row = file.rows) (keys : Filed db)
    {slot : StructuralMasterSlot} (stored : slot ∈ db.slots) :
    slot.id ∈ s.seenSlots ↔ ∃ row ∈ file.rows, lineSlot reading db cycle.id row = some slot.id := by
  rw [gathered.seenSlots,← rows]
  simp only [List.mem_map,exists_exists_and_eq_and]
  refine exists_congr (fun line => and_congr_right (fun listed => ?_))
  exact gathered.asked keys.toFileKeys stored (keys.offered slot stored) listed

theorem Gathered.seen_enrollment (gathered : Gathered reading file.columns cycle.id db lines s) (rows : lines.map FileLine.row = file.rows)
    (keys : Filed db) {enrollment : ActivityEnrollment} (stored : enrollment ∈ db.enrollments) :
    (enrollment.activityId,enrollment.memberId) ∈ s.seenEnrollments ↔ ∃ row ∈ file.rows, row.memberId = enrollment.memberId ∧
      (offeringOf db cycle.id row).map Activity.id = some enrollment.activityId := by
  rw [gathered.seenEnrollments,← rows]
  simp only [List.mem_map,exists_exists_and_eq_and,Prod.mk.injEq]
  refine exists_congr (fun line => and_congr_right (fun listed => ?_))
  obtain ⟨offering,offered,named,_⟩ := (gathered.lands line listed).offering
  rw [← gathered.offered (keys.enrolled enrollment stored),offered,Option.map_some,named,Option.some.injEq,and_comm]

-- A slot no line is for is as it was.
theorem Gathered.unseen (gathered : Gathered reading file.columns cycle.id db lines s) {slot : StructuralMasterSlot}
    (unseen : slot.id ∉ s.seenSlots) : slot ∈ s.db.slots ↔ slot ∈ db.slots := by
  obtain ⟨added,places,new⟩ := gathered.places
  have still : ∀ other : StructuralMasterSlot, other.id = slot.id → lines.foldl settleSlot other = other := by
    intro other same
    refine foldl_kept (fun line listed => ?_)
    have apart : ¬ other.id = line.slotId := by
      intro mine
      refine unseen ?_
      rw [gathered.seenSlots,← same,mine]
      exact List.mem_map_of_mem listed
    simp [settleSlot,apart]
  rw [places]
  simp only [List.mem_map,List.mem_append]
  constructor
  · rintro ⟨other,old | added_,rfl⟩
    · rwa [still other (settled_keys settleSlot_id other lines).symm]
    · exact absurd (new other added_).1 (by rwa [settled_keys settleSlot_id] at unseen)
  · exact fun stored => ⟨slot,.inl stored,still slot rfl⟩

theorem recorded_propagated (gathered : Gathered reading file.columns cycle.id db lines s) (slotId : Nat) :
    Recorded (caughtUp s.db s.corrected) slotId ↔ Recorded db slotId := by
  obtain ⟨_,_,_,_,_,frame⟩ := gathered.frame
  have ledger : s.db.ledger = db.ledger := by rw [frame]
  have use : ∀ id, inUse (caughtUp s.db s.corrected) id = inUse db id := by
    intro id
    rw [caughtUp_parts]
    simp only [inUse,frame]
  have planned : ∀ row, plannedFor (caughtUp s.db s.corrected) slotId
      (caughtUpDay s.db s.corrected row) = plannedFor db slotId row := by
    intro row
    rw [caughtUp_parts]
    simp only [plannedFor,caughtUpDay_slot,caughtUpDay_date]
    rw [frame]
  unfold Recorded
  simp only [use]
  rw [caughtUp_parts]
  simp only [List.mem_map,ledger]
  constructor
  · rintro ⟨_,⟨row,stored,rfl⟩,ahead,used⟩
    exact ⟨row,stored,by rw [← planned row]; rw [caughtUp_parts]; exact ahead,by rwa [caughtUpDay_id] at used⟩
  · rintro ⟨row,stored,ahead,used⟩
    exact ⟨_,⟨row,stored,rfl⟩,by rw [← planned row] at ahead; rw [caughtUp_parts] at ahead; exact ahead,by rwa [caughtUpDay_id]⟩

theorem units_exact (gathered : Gathered reading file.columns cycle.id db lines s) (rows : lines.map FileLine.row = file.rows) (cycleId activityId : Nat) :
    activityId ∈ ((caughtUp s.db s.corrected).activities.filter (fun a =>
      a.cycleId = cycleId ∧ a.unitCode ∈ s.units ∧ a.retired = false)).map Activity.id ↔ InUnits file cycleId s.db activityId := by
  have units : s.units = file.rows.map CsvRow.unit := by
    rw [gathered.units,← rows,List.map_map]
    rfl
  rw [caughtUp_parts,units]
  simp only [InUnits,List.mem_map,List.mem_filter,decide_eq_true_eq]
  constructor
  · rintro ⟨activity,⟨stored,one,two,three⟩,named⟩
    exact ⟨activity,stored,named,one,two,three⟩
  · rintro ⟨activity,stored,named,one,two,three⟩
    exact ⟨activity,⟨stored,one,two,three⟩,named⟩

-- The slots an import with the option on would take: those the file left out.
theorem orphans_slots (gathered : Gathered reading file.columns cycle.id db lines s) (rows : lines.map FileLine.row = file.rows) (keys : Filed db)
    (slot : StructuralMasterSlot) :
    slot ∈ (orphans (caughtUp s.db s.corrected) cycle.id s.units s.seenSlots s.seenEnrollments).slots ↔
      slot ∈ db.slots ∧ SlotLeftOut reading db s.db file cycle.id slot := by
  have slots : (caughtUp s.db s.corrected).slots = s.db.slots := rfl
  unfold orphans
  simp only [List.mem_insertionSort,List.mem_filter,decide_eq_true_eq,units_exact gathered rows,slots]
  constructor
  · rintro ⟨stored,named,live,unseen⟩
    have old := (gathered.unseen unseen).mp stored
    refine ⟨old,named,live,fun row listed asks => unseen ((gathered.seen rows keys old).mpr ⟨row,listed,asks⟩)⟩
  · rintro ⟨old,named,live,unasked⟩
    have unseen : slot.id ∉ s.seenSlots := by
      intro seen
      obtain ⟨row,listed,asks⟩ := (gathered.seen rows keys old).mp seen
      exact unasked row listed asks
    exact ⟨(gathered.unseen unseen).mpr old,named,live,unseen⟩

theorem orphans_enrollments (gathered : Gathered reading file.columns cycle.id db lines s) (rows : lines.map FileLine.row = file.rows)
    (keys : Filed db) {enrollment : ActivityEnrollment} (stored : enrollment ∈ db.enrollments) :
    enrollment ∈ (orphans (caughtUp s.db s.corrected) cycle.id s.units s.seenSlots
      s.seenEnrollments).enrollments ↔ EnrollmentLeftOut db s.db file cycle.id enrollment := by
  have there : enrollment ∈ (caughtUp s.db s.corrected).enrollments := by
    obtain ⟨added,roster,_⟩ := gathered.roster
    have same : (caughtUp s.db s.corrected).enrollments = s.db.enrollments := rfl
    rw [same,roster]
    exact List.mem_append_left _ stored
  unfold orphans EnrollmentLeftOut
  simp only [List.mem_insertionSort,List.mem_filter,decide_eq_true_eq,units_exact gathered rows,there,true_and]
  refine and_congr_right (fun _ => ?_)
  rw [gathered.seen_enrollment rows keys stored]
  simp only [not_exists,not_and]

theorem orphans_distinct (distinct : (db.slots.map StructuralMasterSlot.id).Nodup) (cycleId : Nat) (units : List String) (seenSlots : List Nat)
    (seenEnrollments : List (Nat × String)) : ((orphans db cycleId units seenSlots seenEnrollments).slots.map StructuralMasterSlot.id).Nodup := by
  unfold orphans
  refine (((List.perm_insertionSort _ _).map StructuralMasterSlot.id).nodup_iff).mpr ?_
  exact distinct.sublist (List.filter_sublist.map _)

-- What an import leaves: the lines read, the days brought along, and of what the
-- file left out the slots without a record ahead and the enrollments taken away.
structure Leaves (db after : Database) (cycleId : Nat) (s : ImportState) (report : ImportReport) (removeMissing : Bool)
    (gone : List Nat) (dropped : List ActivityEnrollment) : Prop where
  after : after = {without (caughtUp s.db s.corrected) gone with
    enrollments := s.db.enrollments.filter (fun enrollment => enrollment ∉ dropped)}
  provisioned : report.provisioned = s.provisioned
  corrected : report.slotsCorrected = s.corrected.length
  left : removeMissing = false → gone = [] ∧ dropped = []
  removed : removeMissing = true →
    (∀ id, id ∈ gone ↔ ∃ slot ∈ (orphans (caughtUp s.db s.corrected) cycleId s.units s.seenSlots s.seenEnrollments).slots,
      slot.id = id ∧ ¬ Recorded db slot.id) ∧
    dropped = (orphans (caughtUp s.db s.corrected) cycleId s.units s.seenSlots s.seenEnrollments).enrollments ∧
    report.removal.notRemoved.map Prod.fst =
      (orphans (caughtUp s.db s.corrected) cycleId s.units s.seenSlots s.seenEnrollments).slots.filter (fun slot => Recorded db slot.id)

theorem import_leaves_read {after : Database} {report : ImportReport} {removeMissing : Bool} {s : ImportState} (keys : FileKeys db)
    (done : processMemberCentricMatrix cal reading sha256 db file cycle removeMissing = .ok (after,report))
    (read : importRows cal reading file.columns cycle 2 file.rows ⟨db,[],[],[],[],[]⟩ = .ok s) :
    ∃ lines gone dropped, lines.map FileLine.row = file.rows ∧ Gathered reading file.columns cycle.id db lines s ∧
      Leaves db after cycle.id s report removeMissing gone dropped := by
  obtain ⟨_,lines,rows,gathered,read'⟩ := gathered_import keys done
  cases Except.ok.inj (read'.symm.trans read)
  obtain ⟨_,s',read',outcome⟩ := import_outcome.mp done
  cases Except.ok.inj (read.symm.trans read')
  have same : (propagateSlotCorrections s.db (s.corrected.filterMap s.db.slot?)).1 = caughtUp s.db s.corrected := rfl
  simp only [same] at outcome
  obtain ⟨imported,rfl⟩ := outcome
  cases removeMissing with
  | false =>
    refine ⟨lines,[],[],rows,gathered,?_,rfl,rfl,fun _ => ⟨rfl,rfl⟩,nofun⟩
    rw [imported,without_none]
    simp only [Bool.false_eq_true,if_false,List.not_mem_nil,not_false_eq_true,decide_true,List.filter_true]
    rfl
  | true =>
    have distinct : ((orphans (caughtUp s.db s.corrected) cycle.id s.units s.seenSlots s.seenEnrollments).slots.map
        StructuralMasterSlot.id).Nodup := orphans_distinct gathered.keys.slots _ _ _ _
    obtain ⟨one,_,three⟩ := removeSlots_exact _ (caughtUp s.db s.corrected) distinct
    simp only [recorded_propagated gathered] at one three
    refine ⟨lines,((orphans (caughtUp s.db s.corrected) cycle.id s.units s.seenSlots s.seenEnrollments).slots.filter
      (fun slot => ¬ Recorded db slot.id)).map StructuralMasterSlot.id,_,rows,gathered,?_,rfl,rfl,nofun,fun _ => ⟨fun id => ?_,rfl,three⟩⟩
    · rw [imported]
      simp only [if_true,removeOrphans,one]
      rfl
    · simp only [List.mem_map,List.mem_filter,decide_eq_true_eq]
      constructor
      · rintro ⟨slot,⟨stored,free⟩,rfl⟩
        exact ⟨slot,stored,rfl,free⟩
      · rintro ⟨slot,stored,rfl,free⟩
        exact ⟨slot,⟨stored,free⟩,rfl⟩

theorem import_leaves {after : Database} {report : ImportReport} {removeMissing : Bool} (keys : FileKeys db)
    (done : processMemberCentricMatrix cal reading sha256 db file cycle removeMissing = .ok (after,report)) :
    ∃ s lines gone dropped, lines.map FileLine.row = file.rows ∧ Gathered reading file.columns cycle.id db lines s ∧
      Leaves db after cycle.id s report removeMissing gone dropped := by
  obtain ⟨s,_,_,_,read⟩ := gathered_import keys done
  exact ⟨s,import_leaves_read keys done read⟩

end

theorem filtered_away {α : Type} {key : α → Nat} {rows : List α} {ids : List Nat} {id : Nat} (there : id ∈ rows.map key) :
    id ∉ (rows.filter (fun row => key row ∉ ids)).map key ↔ id ∈ ids := by
  obtain ⟨now,present,rfl⟩ := List.mem_map.mp there
  rw [List.mem_map]
  constructor
  · intro missing
    by_contra stays
    exact missing ⟨now,List.mem_filter.mpr ⟨present,by simpa using stays⟩,rfl⟩
  · rintro listed ⟨other,kept,same⟩
    have stays := (List.mem_filter.mp kept).2
    rw [same] at stays
    exact absurd listed (by simpa using stays)

-- A row is gone just when nothing became of it.
theorem turned_away {α : Type} {key : α → Nat} {became : α → Option α} {rows : List α} {row : α}
    (same : ∀ {one two}, became one = some two → key two = key one) (distinct : (rows.map key).Nodup) (stored : row ∈ rows) :
    key row ∉ (rows.filterMap became).map key ↔ became row = none := by
  constructor
  · intro missing
    cases kept : became row with
    | none => rfl
    | some later => exact absurd (List.mem_map.mpr ⟨later,List.mem_filterMap.mpr ⟨row,stored,kept⟩,same kept⟩) missing
  · intro none there
    obtain ⟨later,listed,named⟩ := List.mem_map.mp there
    obtain ⟨old,stored',kept⟩ := List.mem_filterMap.mp listed
    cases same_of_key distinct stored' stored ((same kept).symm.trans named)
    rw [none] at kept
    cases kept

-- What is gone after an import with the option on is what the file left out, and
-- nothing else.
theorem remove_missing_exact (cal : Recurrence) (reading : Reading) (sha256 : String → String) (db after : Database) (file : Matrix)
    (cycle : PlanningCycle) (report : ImportReport) (keys : Filed db)
    (done : processMemberCentricMatrix cal reading sha256 db file cycle true = .ok (after,report)) :
    (∀ slot ∈ db.slots, slot.id ∉ after.slots.map StructuralMasterSlot.id ↔
      SlotLeftOut reading db after file cycle.id slot ∧ ¬ Recorded db slot.id) ∧
    (∀ slot, slot ∈ report.removal.notRemoved.map Prod.fst ↔
      slot ∈ db.slots ∧ SlotLeftOut reading db after file cycle.id slot ∧ Recorded db slot.id) ∧
    (∀ slot ∈ report.removal.notRemoved.map Prod.fst, ∀ row ∈ db.ledger, row.masterSlotId = some slot.id → row ∈ after.ledger) ∧
    (∀ enrollment ∈ db.enrollments, enrollment ∉ after.enrollments ↔ EnrollmentLeftOut db after file cycle.id enrollment) ∧
    (∀ row ∈ db.ledger, row.id ∉ after.ledger.map DailyLedger.id ↔ ∃ slot ∈ db.slots, row.masterSlotId = some slot.id ∧
      db.orgToday ≤ row.targetDate ∧ SlotLeftOut reading db after file cycle.id slot ∧ ¬ Recorded db slot.id) ∧
    after.marks = db.marks ∧ after.annotations = db.annotations := by
  obtain ⟨s,lines,ids,dropped,rows,gathered,leaves⟩ := import_leaves keys.toFileKeys done
  obtain ⟨gone_,rfl,notRemoved⟩ := leaves.removed rfl
  have base : s.db.orgToday = db.orgToday ∧ s.db.ledger = db.ledger ∧ s.db.marks = db.marks ∧ s.db.annotations = db.annotations := by
    obtain ⟨_,_,_,_,_,frame⟩ := gathered.frame
    rw [frame]
    exact ⟨rfl,rfl,rfl,rfl⟩
  have slots_ := orphans_slots gathered rows keys
  have enrollments_ := fun enrollment => @orphans_enrollments reading cycle db file s lines gathered rows keys enrollment
  have units_ : ∀ id, InUnits file cycle.id after id ↔ InUnits file cycle.id s.db id := by
    intro id
    rw [leaves.after]
    exact Iff.rfl
  have left : ∀ slot, SlotLeftOut reading db after file cycle.id slot ↔ SlotLeftOut reading db s.db file cycle.id slot := by
    intro slot
    unfold SlotLeftOut
    rw [units_]
  have gone : ∀ id, id ∈ ids ↔ ∃ slot ∈ db.slots, slot.id = id ∧ SlotLeftOut reading db after file cycle.id slot ∧ ¬ Recorded db slot.id := by
    intro id
    simp only [gone_,slots_,left]
    constructor
    · rintro ⟨slot,⟨stored,leftOut⟩,named,free⟩
      exact ⟨slot,stored,named,leftOut,free⟩
    · rintro ⟨slot,stored,named,leftOut,free⟩
      exact ⟨slot,⟨stored,leftOut⟩,named,free⟩
  have slots : after.slots = s.db.slots.filter (fun slot => slot.id ∉ ids) := by rw [leaves.after]; rfl
  have ledger : after.ledger = (db.ledger.map (caughtUpDay s.db s.corrected)).filterMap (keptDay db.orgToday ids) := by
    rw [leaves.after,caughtUp_parts,← base.1,← base.2.1]
    rfl
  have enrollments := congrArg Database.enrollments leaves.after
  refine ⟨fun slot stored => ?_,fun slot => ?_,fun slot listed row stored of => ?_,fun enrollment stored => ?_,fun row stored => ?_,?_,?_⟩
  · have there : slot.id ∈ s.db.slots.map StructuralMasterSlot.id := by
      obtain ⟨added,places,_⟩ := gathered.places
      have listed := List.mem_map_of_mem (f := StructuralMasterSlot.id) (places.stored stored)
      rwa [settled_keys settleSlot_id] at listed
    have away : slot.id ∉ after.slots.map StructuralMasterSlot.id ↔ slot.id ∈ ids := by
      rw [slots]
      exact filtered_away there
    rw [away,gone]
    constructor
    · rintro ⟨other,stored',same,leftOut⟩
      cases same_of_key keys.slots stored' stored same
      exact leftOut
    · exact fun leftOut => ⟨slot,stored,rfl,leftOut⟩
  · rw [notRemoved,List.mem_filter,slots_,decide_eq_true_eq,left,and_assoc]
  · rw [notRemoved,List.mem_filter,decide_eq_true_eq] at listed
    obtain ⟨there,recorded_⟩ := listed
    obtain ⟨stored',_,_,unasked⟩ := (slots_ slot).mp there
    have unseen : slot.id ∉ s.seenSlots := fun seen => by
      obtain ⟨line,asked,asks⟩ := (gathered.seen rows keys stored').mp seen
      exact unasked line asked asks
    have still : caughtUpDay s.db s.corrected row = row := by
      unfold caughtUpDay correction
      rw [of,Option.bind_some,if_neg (fun corrected => unseen (gathered.corrected _ corrected))]
    have stays : slot.id ∉ ids := by
      intro listed
      obtain ⟨other,_,same,_,free⟩ := (gone slot.id).mp listed
      exact free (same ▸ recorded_)
    rw [ledger,List.mem_filterMap]
    refine ⟨row,List.mem_map.mpr ⟨row,stored,still⟩,keptDay_other (fun id same => ?_)⟩
    cases of.symm.trans same
    exact stays
  · obtain ⟨added,roster,_⟩ := gathered.roster
    have there : enrollment ∈ s.db.enrollments := by
      rw [roster]
      exact List.mem_append_left _ stored
    rw [enrollments]
    simp only [List.mem_filter,there,true_and,decide_eq_true_eq,not_not,enrollments_ enrollment stored,EnrollmentLeftOut,units_]
  · have away : row.id ∉ after.ledger.map DailyLedger.id ↔ keptDay db.orgToday ids (caughtUpDay s.db s.corrected row) = none := by
      rw [ledger,List.filterMap_map]
      refine turned_away ?_ keys.days stored
      intro old later kept
      rw [keptDay_id kept,caughtUpDay_id]
    rw [away,keptDay_none,caughtUpDay_date,caughtUpDay_slot]
    constructor
    · rintro ⟨ahead,id,listed,of⟩
      obtain ⟨slot,stored',rfl,leftOut⟩ := (gone id).mp listed
      exact ⟨slot,stored',of,ahead,leftOut⟩
    · rintro ⟨slot,stored',of,ahead,leftOut⟩
      exact ⟨ahead,slot.id,(gone slot.id).mpr ⟨slot,stored',rfl,leftOut⟩,of⟩
  · rw [leaves.after,← base.2.2.1]
    rfl
  · rw [leaves.after,← base.2.2.2]
    rfl

-- Three classes of a Wednesday, the last with a note on the day ahead, and a
-- file that lists only the first.
def threeClasses : Database := performAll plainRuntime (staffed 100)
  [.createCycle ⟨"term",100,130,true,spring_bounds⟩ registrar,
    .uploadMatrix ⟨requiredColumns,[classRow "m1" "m1@school" "EARLY" "3" "05:00" "07:00",classRow "m2" "m2@school" "LATE" "3" "09:00" "11:00",
      classRow "m2" "m2@school" "NOON" "3" "12:00" "13:00"]⟩ 1 false registrar,
    Operation.createAnnotation ⟨3,"NOTE","bring the slides"⟩ registrar]

def onlyEarly : Matrix := ⟨requiredColumns,[classRow "m1" "m1@school" "EARLY" "3" "05:00" "07:00"]⟩

def springTerm : PlanningCycle := ⟨1,"term",100,130,true⟩

theorem late_class_removed : ∃ after report,
    processMemberCentricMatrix plainRules plainReading id threeClasses onlyEarly springTerm true = .ok (after,report) ∧
    after.slots.map StructuralMasterSlot.id = [1,3] ∧ after.ledger.map DailyLedger.id = [1,3] ∧
    (∀ slot ∈ threeClasses.slots, slot.id ∉ after.slots.map StructuralMasterSlot.id ↔
      SlotLeftOut plainReading threeClasses after onlyEarly 1 slot ∧ ¬ Recorded threeClasses slot.id) := by
  have keys : Filed threeClasses := ⟨⟨by decide,by decide,by decide⟩,by decide,by decide,by decide⟩
  have done : ∃ after report, processMemberCentricMatrix plainRules plainReading id threeClasses onlyEarly springTerm true =
      .ok (after,report) ∧ after.slots.map StructuralMasterSlot.id = [1,3] ∧ after.ledger.map DailyLedger.id = [1,3] :=
    ⟨_,_,rfl,by decide,by decide⟩
  obtain ⟨after,report,processed,slots,days⟩ := done
  exact ⟨after,report,processed,slots,days,(remove_missing_exact _ _ _ _ _ _ springTerm _ keys processed).1⟩

end ChronosLedger
