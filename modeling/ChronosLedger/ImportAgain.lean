import ChronosLedger.RemoveMissing

namespace ChronosLedger
open Overwrites

variable {cal : Recurrence} {reading : Reading} {sha256 : String → String} {columns : List String} {cycle : PlanningCycle} {db : Database}

-- Read over again, line by line: no address and no place a line asks for is
-- somebody else's by then.
def Rereads (cal : Recurrence) (reading : Reading) (cycle : PlanningCycle) : Database → List FileLine → Prop
  | _,[] => True
  | db,line :: rest => addressFree reading db line.row ∧ placeFree cal reading cycle (settleNames reading db line) line ∧
      Rereads cal reading cycle (settle reading db line) rest

-- What the loop comes to after a line that finds everything there.
def reread (reading : Reading) (s : ImportState) (line : FileLine) : ImportState :=
  {s with
    db := settle reading s.db line
    corrected := noted s.corrected line.slotId (s.db.slots.any (fun slot => settleSlot slot line ≠ slot))
    seenSlots := s.seenSlots ++ [line.slotId]
    seenEnrollments := s.seenEnrollments ++ [(line.offeringId,line.row.memberId)]
    units := s.units ++ [line.row.unit]}

theorem settle_keys (keys : FileKeys db) (line : FileLine) : FileKeys (settle reading db line) where
  users := by simpa only [settle,map_keys (fun user => settleMember_id user line.row)] using keys.users
  activities := by simpa only [settle,map_keys (fun activity => settleOffering_id activity line)] using keys.activities
  slots := by simpa only [settle,map_keys (fun slot => settleSlot_id slot line)] using keys.slots

theorem settle_user {line : FileLine} {id : String} (there : ∃ user, db.user? id = some user ∧ user.deactivated = false) :
    ∃ user, (settle reading db line).user? id = some user ∧ user.deactivated = false := by
  obtain ⟨user,known,active⟩ := there
  have settled := @user_settled reading db db.users [] line.row id user known
  rw [List.append_nil] at settled
  exact ⟨settleMember reading user line.row,settled,by simpa using active⟩

theorem settle_lands {cycleId : Nat} (keys : FileKeys db) (line : FileLine) {other : FileLine} (lands : Lands reading columns cycleId db other) :
    Lands reading columns cycleId (settle reading db line) other := by
  refine ⟨lands.filled,lands.window,settle_user lands.member,?_,lands.enrolled,lands.room,?_,settle_user lands.lead⟩
  · obtain ⟨offering,offered,named,live⟩ := lands.offering
    refine ⟨settleOffering offering line,?_,by simpa using named,by simpa using live⟩
    have settled := @offeringOf_settled db db.activities cycleId other.row line
    have offered' : offeringOf {db with activities := db.activities} cycleId other.row = some offering := offered
    rw [offered'] at settled
    exact settled
  · obtain ⟨slot,matched,named,live⟩ := lands.slot
    exact ⟨settleSlot slot line,@matchedSlot_settled db db.slots _ _ _ line keys.slots slot matched,by simpa using named,by simpa using live⟩

theorem importRow_again {s after : ImportState} {line : FileLine} (keys : FileKeys s.db)
    (lands : Lands reading columns cycle.id s.db line) :
    importRow cal reading columns cycle s line.row = .ok after ↔ addressFree reading s.db line.row ∧
      placeFree cal reading cycle (settleNames reading s.db line) line ∧ after = reread reading s line := by
  obtain ⟨member,known,active⟩ := lands.member
  obtain ⟨offering,offered,named,live⟩ := lands.offering
  obtain ⟨enrollment,enrolled,of⟩ := lands.enrolled
  obtain ⟨room,roomed,housed⟩ := lands.room
  obtain ⟨slot,matched,same,unretired⟩ := lands.slot
  have joined : enroll (settleNames reading s.db line) line.offeringId line.row.memberId = settleNames reading s.db line := by
    unfold enroll
    rw [if_pos]
    exact List.any_eq_true.mpr ⟨enrollment,enrolled,by simpa using of⟩
  have changes : s.db.slots.any (fun slot => settleSlot slot line ≠ slot) = decide (settleSlot slot line ≠ slot) := by
    rw [Bool.eq_iff_iff]
    simp only [List.any_eq_true,decide_eq_true_eq]
    refine ⟨fun ⟨other,stored,moved⟩ => ?_,fun moved => ⟨slot,(matchedSlot_stored matched).1,moved⟩⟩
    by_cases mine : other.id = line.slotId
    · rwa [← same_of_key keys.slots stored (matchedSlot_stored matched).1 (mine.trans same.symm)]
    · exact absurd (by simp [settleSlot,mine]) moved
  have lead : ∃ lead, (settleNames reading s.db line).user? line.row.leadId = some lead ∧ lead.deactivated = false :=
    @settle_user reading s.db line _ lands.lead
  have placed := fun next slotId changed => @upsertSlot_again cal reading cycle (settleNames reading s.db line) next line slot room slotId
    changed keys.slots matched same unretired roomed housed lead
  have offer : upsertOffering {s.db with users := s.db.users.map (fun user => settleMember reading user line.row)} cycle.id line.row =
      .ok (settleNames reading s.db line,settleOffering offering line) :=
    @upsertOffering_again {s.db with users := s.db.users.map (fun user => settleMember reading user line.row)} cycle.id line offering
      keys.activities offered named live
  unfold importRow
  simp only [bind_parts,refuseText_parts,decide_eq_false_iff_not,not_not,lands.filled,lands.window,true_and,exists_const]
  constructor
  · rintro ⟨middle,one,⟨next,found_⟩,two,window,read,⟨final,slotId,changed⟩,three,kept⟩
    obtain ⟨free,rfl⟩ := (upsertMember_again keys.users known active).mp one
    cases Except.ok.inj (offer.symm.trans two)
    cases Except.ok.inj read
    dsimp only at three kept
    rw [settleOffering_id,named,joined] at three
    obtain ⟨place,rfl,rfl,rfl⟩ := (placed final slotId changed).mp three
    refine ⟨free,place,?_⟩
    rw [settleOffering_id,named,← changes] at kept
    exact (Except.ok.inj kept).symm
  · rintro ⟨free,place,rfl⟩
    refine ⟨_,(upsertMember_again keys.users known active).mpr ⟨free,rfl⟩,_,offer,line.window,rfl,
      (settle reading s.db line,line.slotId,decide (settleSlot slot line ≠ slot)),?_,?_⟩
    · dsimp only
      rw [settleOffering_id,named,joined]
      exact (placed _ _ _).mpr ⟨place,rfl,rfl,rfl⟩
    · dsimp only
      rw [settleOffering_id,named,← changes]
      rfl

theorem importRows_again (lines : List FileLine) {s after : ImportState} {line : Nat} (keys : FileKeys s.db)
    (lands : ∀ line ∈ lines, Lands reading columns cycle.id s.db line) :
    importRows cal reading columns cycle line (lines.map FileLine.row) s = .ok after ↔
      Rereads cal reading cycle s.db lines ∧ after = lines.foldl (reread reading) s := by
  induction lines generalizing line s with
  | nil =>
    simp only [List.map_nil,importRows,Rereads,List.foldl_nil,true_and,Except.ok.injEq]
    exact eq_comm
  | cons first rest ih =>
    have step := fun after => @importRow_again cal reading columns cycle s after first keys (lands first List.mem_cons_self)
    have again := @ih (reread reading s first) (line+1) (settle_keys keys first) (fun other listed =>
      settle_lands keys first (lands other (List.mem_cons_of_mem _ listed)))
    simp only [List.map_cons,importRows,Rereads,List.foldl_cons]
    cases taken : importRow cal reading columns cycle s first.row with
    | error message =>
      simp only [reduceCtorEq,false_iff,not_and]
      rintro ⟨free,place,_⟩
      rw [(step _).mpr ⟨free,place,rfl⟩] at taken
      cases taken
    | ok middle =>
      obtain ⟨free,place,rfl⟩ := (step middle).mp taken
      dsimp only
      rw [again]
      simp only [free,place,true_and]
      exact Iff.rfl

theorem settle_foldl (lines : List FileLine) (db : Database) : lines.foldl (settle reading) db = {db with
    users := db.users.map (lines.foldl (fun user line => settleMember reading user line.row))
    activities := db.activities.map (lines.foldl settleOffering)
    slots := db.slots.map (lines.foldl settleSlot)} := by
  induction lines generalizing db with
  | nil => simp
  | cons line rest ih =>
    rw [List.foldl_cons,ih]
    simp only [settle,List.map_map,List.foldl_cons]
    rfl

theorem reread_foldl (lines : List FileLine) (s : ImportState) :
    (lines.foldl (reread reading) s).db = lines.foldl (settle reading) s.db ∧
    (lines.foldl (reread reading) s).provisioned = s.provisioned ∧
    (lines.foldl (reread reading) s).seenSlots = s.seenSlots ++ lines.map FileLine.slotId ∧
    (lines.foldl (reread reading) s).seenEnrollments = s.seenEnrollments ++ lines.map (fun line => (line.offeringId,line.row.memberId)) ∧
    (lines.foldl (reread reading) s).units = s.units ++ lines.map (fun line => line.row.unit) := by
  induction lines generalizing s with
  | nil => simp
  | cons line rest ih =>
    obtain ⟨one,two,three,four,five⟩ := ih (reread reading s line)
    simp only [List.foldl_cons,List.map_cons,one,two,three,four,five]
    simp [reread]

-- Only a slot some line would write otherwise can come to be corrected.
theorem reread_corrected (lines : List FileLine) (s : ImportState) : ∀ id ∈ (lines.foldl (reread reading) s).corrected,
    id ∈ s.corrected ∨ ∃ slot ∈ s.db.slots, slot.id = id ∧ ∃ line ∈ lines, settleSlot slot line ≠ slot := by
  induction lines generalizing s with
  | nil => exact fun id listed => .inl listed
  | cons line rest ih =>
    intro id listed
    rcases ih (reread reading s line) id listed with old | ⟨later,stored,named,other,there,moved⟩
    · cases changed : s.db.slots.any (fun slot => settleSlot slot line ≠ slot) with
      | false =>
        simp only [reread,changed] at old
        exact .inl (by simpa [noted] using old)
      | true =>
        simp only [reread,changed] at old
        rcases mem_noted.mp old with older | rfl
        · exact .inl older
        · obtain ⟨slot,stored,moved⟩ := List.any_eq_true.mp changed
          have moved' : settleSlot slot line ≠ slot := by simpa using moved
          have mine : slot.id = line.slotId := by
            by_contra other
            exact moved' (by simp [settleSlot,other])
          exact .inr ⟨slot,stored,mine,line,List.mem_cons_self,moved'⟩
    · obtain ⟨slot,stored',rfl⟩ := List.mem_map.mp stored
      rw [settleSlot_id] at named
      by_cases still : settleSlot slot line = slot
      · rw [still] at moved
        exact .inr ⟨slot,stored',named,other,List.mem_cons_of_mem _ there,moved⟩
      · exact .inr ⟨slot,stored',named,line,List.mem_cons_self,still⟩

theorem Rewritten.fixed {α : Type} {write : α → FileLine → α} (counts : LastCounts write) {lines : List FileLine} {before added rows : List α}
    (rewritten : Rewritten write lines before added rows) {row : α} (stored : row ∈ rows) : lines.foldl write row = row := by
  rw [rewritten] at stored
  obtain ⟨earlier,_,rfl⟩ := List.mem_map.mp stored
  exact counts.settled lines earlier

section
variable {file : Matrix} {s : ImportState} {lines : List FileLine} {after : Database} {report : ImportReport} {removeMissing : Bool}
  {gone : List Nat} {dropped : List ActivityEnrollment}

-- Nothing a line of the file came to is among what the import removed.
theorem Leaves.spares (leaves : Leaves db after cycle.id s report removeMissing gone dropped) :
    (∀ id ∈ gone, id ∉ s.seenSlots) ∧ ∀ enrollment ∈ dropped, (enrollment.activityId,enrollment.memberId) ∉ s.seenEnrollments := by
  cases removeMissing with
  | false =>
    obtain ⟨rfl,rfl⟩ := leaves.left rfl
    simp
  | true =>
    obtain ⟨gone_,rfl,_⟩ := leaves.removed rfl
    constructor
    · intro id listed
      obtain ⟨slot,there,rfl,_⟩ := (gone_ id).mp listed
      simp only [orphans,List.mem_insertionSort,List.mem_filter,decide_eq_true_eq] at there
      exact there.2.2.2
    · intro enrollment listed
      simp only [orphans,List.mem_insertionSort,List.mem_filter,decide_eq_true_eq] at listed
      exact listed.2.2

theorem Leaves.lands (leaves : Leaves db after cycle.id s report removeMissing gone dropped)
    (gathered : Gathered reading columns cycle.id db lines s) {line : FileLine} (listed : line ∈ lines) :
    Lands reading columns cycle.id after line := by
  have lands := gathered.lands line listed
  obtain ⟨enrollment,joined,of⟩ := lands.enrolled
  obtain ⟨slot,matched,named,live⟩ := lands.slot
  obtain ⟨spared,kept⟩ := leaves.spares
  rw [leaves.after]
  refine ⟨lands.filled,lands.window,lands.member,lands.offering,⟨enrollment,?_,of⟩,lands.room,⟨slot,?_,named,live⟩,lands.lead⟩
  · refine List.mem_filter.mpr ⟨joined,?_⟩
    have seen : (enrollment.activityId,enrollment.memberId) ∈ s.seenEnrollments := by
      rw [gathered.seenEnrollments,of.1,of.2]
      exact List.mem_map_of_mem listed
    simpa using fun gone => kept enrollment gone seen
  · obtain ⟨stored,like,least⟩ := (matchedSlot_exact gathered.keys.slots).mp matched
    have seen : slot.id ∈ s.seenSlots := by
      rw [gathered.seenSlots,named]
      exact List.mem_map_of_mem listed
    refine (matchedSlot_exact (gathered.keys.slots.sublist (List.filter_sublist.map _))).mpr ⟨?_,like,fun other there => ?_⟩
    · exact List.mem_filter.mpr ⟨stored,by simpa using fun gone => spared _ gone seen⟩
    · exact least other (List.mem_filter.mp there).1

theorem Leaves.keys (leaves : Leaves db after cycle.id s report removeMissing gone dropped)
    (gathered : Gathered reading columns cycle.id db lines s) : FileKeys after := by
  rw [leaves.after]
  exact ⟨gathered.keys.users,gathered.keys.activities,gathered.keys.slots.sublist (List.filter_sublist.map _)⟩

theorem Leaves.settled (leaves : Leaves db after cycle.id s report removeMissing gone dropped)
    (folds : ∀ email, reading.normalizeEmail (reading.normalizeEmail email) = reading.normalizeEmail email)
    (gathered : Gathered reading columns cycle.id db lines s) : lines.foldl (settle reading) after = after := by
  obtain ⟨_,members⟩ := gathered.members
  obtain ⟨_,offerings⟩ := gathered.offerings
  obtain ⟨_,places,_⟩ := gathered.places
  have same : ∀ {α : Type} (write : α → FileLine → α) (rows : List α), (∀ row ∈ rows, lines.foldl write row = row) →
      rows.map (lines.foldl write) = rows := by
    intro α write rows fixed
    conv_rhs => rw [← List.map_id rows]
    exact List.map_congr_left fixed
  have users : after.users.map (lines.foldl (fun user line => settleMember reading user line.row)) = after.users := by
    refine same _ _ (fun user stored => members.fixed ((settleMember_lastCounts folds).through FileLine.row) ?_)
    rwa [leaves.after] at stored
  have activities : after.activities.map (lines.foldl settleOffering) = after.activities := by
    refine same _ _ (fun activity stored => offerings.fixed settleOffering_lastCounts ?_)
    rwa [leaves.after] at stored
  have slots : after.slots.map (lines.foldl settleSlot) = after.slots := by
    refine same _ _ (fun slot stored => places.fixed settleSlot_lastCounts ?_)
    rw [leaves.after] at stored
    exact (List.mem_filter.mp stored).1
  rw [settle_foldl,users,activities,slots]

theorem correctedDay_again (slot : StructuralMasterSlot) (row : DailyLedger) : correctedDay slot (correctedDay slot row) = correctedDay slot row := by
  by_cases same : row.resourceId = slot.resourceId <;> simp [correctedDay,same]

-- The days are where their slots are: bringing them along again moves none.
theorem Leaves.caughtUp (leaves : Leaves db after cycle.id s report removeMissing gone dropped)
    (gathered : Gathered reading columns cycle.id db lines s) {corrected : List Nat} (part : ∀ id ∈ corrected, id ∈ s.corrected) :
    ChronosLedger.caughtUp after corrected = after := by
  rw [caughtUp_parts]
  have ledger : after.ledger = (s.db.ledger.map (caughtUpDay s.db s.corrected)).filterMap (keptDay s.db.orgToday gone) := by
    rw [leaves.after,caughtUp_parts]
    rfl
  have today : after.orgToday = s.db.orgToday := by rw [leaves.after]; rfl
  have use : ∀ id, inUse after id = inUse s.db id := by rw [leaves.after]; exact fun _ => rfl
  have fixed : ∀ row ∈ after.ledger, caughtUpDay after corrected row = row := by
    intro row stored
    unfold caughtUpDay
    split
    · rfl
    · rename_i slot waiting
      split
      · rename_i moves
        obtain ⟨id,of,listed⟩ := Option.bind_eq_some_iff.mp waiting
        rw [ledger] at stored
        obtain ⟨_,moved,kept⟩ := List.mem_filterMap.mp stored
        obtain ⟨old,_,rfl⟩ := List.mem_map.mp moved
        obtain ⟨rfl,_⟩ := keptDay_slot kept of
        have listed' : id ∈ corrected ∧ after.slot? id = some slot := by
          by_cases there : id ∈ corrected
          · exact ⟨there,by rwa [if_pos there] at listed⟩
          · rw [if_neg there] at listed
            cases listed
        have known : s.db.slot? id = some slot := by
          obtain ⟨present,rfl⟩ := find_key listed'.2
          rw [leaves.after] at present
          exact find_of_mem gathered.keys.slots (List.mem_filter.mp present).1
        have same : correction s.db s.corrected old = some slot := by
          rw [caughtUpDay_slot] at of
          unfold correction
          rw [of,Option.bind_some,if_pos (part id listed'.1),known]
        rw [caughtUpDay_date,caughtUpDay_id,today,use] at moves
        unfold caughtUpDay
        rw [same]
        dsimp only
        rw [if_pos moves,correctedDay_again]
      · rfl
  rw [List.map_congr_left fixed,List.map_id']

-- There is nothing left to remove: the slots not in the file all carry a record.
theorem Leaves.emptied (leaves : Leaves db after cycle.id s report true gone dropped)
    (gathered : Gathered reading file.columns cycle.id db lines s) :
    (removeOrphans after (orphans after cycle.id s.units s.seenSlots s.seenEnrollments)).1 = after := by
  obtain ⟨gone_,dropped_,_⟩ := leaves.removed rfl
  have activities : after.activities = (ChronosLedger.caughtUp s.db s.corrected).activities := by rw [leaves.after]; rfl
  have recorded : ∀ slot ∈ (orphans after cycle.id s.units s.seenSlots s.seenEnrollments).slots, Recorded after slot.id := by
    intro slot listed
    simp only [orphans,List.mem_insertionSort,List.mem_filter,decide_eq_true_eq] at listed
    obtain ⟨stored,rest⟩ := listed
    rw [leaves.after] at stored
    obtain ⟨before,stays⟩ := List.mem_filter.mp stored
    have stays_ : slot.id ∉ gone := by simpa using stays
    rw [activities] at rest
    by_contra free
    have free_ : ¬ Recorded db slot.id := by
      rw [← recorded_propagated gathered,← recorded_without stays_]
      rw [leaves.after] at free
      exact free
    refine stays_ ((gone_ slot.id).mpr ⟨slot,?_,rfl,free_⟩)
    simp only [orphans,List.mem_insertionSort,List.mem_filter,decide_eq_true_eq]
    exact ⟨before,rest⟩
  have kept : ∀ enrollment ∈ after.enrollments,
      enrollment ∉ (orphans after cycle.id s.units s.seenSlots s.seenEnrollments).enrollments := by
    intro enrollment stored listed
    simp only [orphans,List.mem_insertionSort,List.mem_filter,decide_eq_true_eq] at listed
    obtain ⟨_,rest⟩ := listed
    rw [leaves.after] at stored
    obtain ⟨before,stays⟩ := List.mem_filter.mp stored
    have stays_ : enrollment ∉ dropped := by simpa using stays
    rw [activities] at rest
    refine stays_ ?_
    rw [dropped_]
    simp only [orphans,List.mem_insertionSort,List.mem_filter,decide_eq_true_eq]
    exact ⟨before,rest⟩
  have none : (orphans after cycle.id s.units s.seenSlots s.seenEnrollments).slots.filter (fun slot => ¬ Recorded after slot.id) = [] := by
    rw [List.filter_eq_nil_iff]
    intro slot listed
    simpa using recorded slot listed
  have distinct := orphans_distinct (leaves.keys gathered).slots cycle.id s.units s.seenSlots s.seenEnrollments
  obtain ⟨one,_,_⟩ := removeSlots_exact _ after distinct
  rw [none,List.map_nil,without_none] at one
  unfold removeOrphans
  simp only [one]
  have all : after.enrollments.filter (fun e => e ∉ (orphans after cycle.id s.units s.seenSlots s.seenEnrollments).enrollments) =
      after.enrollments := List.filter_eq_self.mpr (fun e stored => by simpa using kept e stored)
  rw [all]

end

theorem landings {cycleId : Nat} {lines : List FileLine} (lands : ∀ line ∈ lines, Lands reading columns cycleId db line) :
    (lines.map FileLine.row).filterMap (landing reading cycleId db) = lines := by
  induction lines with
  | nil => rfl
  | cons line rest ih =>
    rw [List.map_cons,List.filterMap_cons_some (lands line List.mem_cons_self).landing,
      ih (fun other listed => lands other (List.mem_cons_of_mem _ listed))]

-- Run again at once, an import is refused or leaves everything as it is.
theorem import_again {after : Database} {file : Matrix} {removeMissing : Bool} {report : ImportReport} (keys : FileKeys db)
    (folds : ∀ email, reading.normalizeEmail (reading.normalizeEmail email) = reading.normalizeEmail email)
    (done : processMemberCentricMatrix cal reading sha256 db file cycle removeMissing = .ok (after,report)) :
    ((∃ later again, processMemberCentricMatrix cal reading sha256 after file cycle removeMissing = .ok (later,again)) ↔
      Rereads cal reading cycle after (file.rows.filterMap (landing reading cycle.id after))) ∧
    ∀ later again, processMemberCentricMatrix cal reading sha256 after file cycle removeMissing = .ok (later,again) →
      later = after ∧ again.provisioned = [] := by
  obtain ⟨complete,_⟩ := import_outcome.mp done
  obtain ⟨s,lines,gone,dropped,rows,gathered,leaves⟩ := import_leaves keys done
  have lands : ∀ line ∈ lines, Lands reading file.columns cycle.id after line := fun line listed => leaves.lands gathered listed
  rw [← rows,landings lands]
  have again := fun s' => @importRows_again cal reading file.columns cycle lines ⟨after,[],[],[],[],[]⟩ s' 2 (leaves.keys gathered) lands
  obtain ⟨settled,provisioned,slots,enrollments,units⟩ := @reread_foldl reading lines ⟨after,[],[],[],[],[]⟩
  have corrected : ∀ id ∈ (lines.foldl (reread reading) ⟨after,[],[],[],[],[]⟩).corrected, id ∈ s.corrected := by
    intro id listed
    rcases reread_corrected lines _ id listed with none | ⟨slot,stored,rfl,line,there,moved⟩
    · cases none
    · by_contra steady
      rw [leaves.after] at stored
      exact moved (gathered.steady slot (List.mem_filter.mp stored).1 steady line there)
  rw [leaves.settled folds gathered] at settled
  generalize lines.foldl (reread reading) ⟨after,[],[],[],[],[]⟩ = s' at again settled provisioned slots enrollments units corrected
  have still : (propagateSlotCorrections s'.db (s'.corrected.filterMap s'.db.slot?)).1 = after := by
    rw [settled]
    exact leaves.caughtUp gathered corrected
  have seen : s'.seenSlots = s.seenSlots ∧ s'.seenEnrollments = s.seenEnrollments ∧ s'.units = s.units := by
    rw [slots,enrollments,units,gathered.seenSlots,gathered.seenEnrollments,gathered.units]
    exact ⟨rfl,rfl,rfl⟩
  have outcome := fun later again' => @import_outcome cal reading cycle after sha256 later file removeMissing again'
  rw [← rows] at outcome
  simp only [again] at outcome
  constructor
  · constructor
    · rintro ⟨later,again',second⟩
      obtain ⟨_,_,⟨rereads,_⟩,_⟩ := (outcome later again').mp second
      exact rereads
    · intro rereads
      exact ⟨_,_,(outcome _ _).mpr ⟨complete,s',⟨rereads,rfl⟩,rfl,rfl⟩⟩
  · intro later again' second
    obtain ⟨_,_,⟨_,rfl⟩,imported,rfl⟩ := (outcome later again').mp second
    refine ⟨?_,provisioned⟩
    rw [imported,still,seen.1,seen.2.1,seen.2.2]
    cases removeMissing with
    | false => rfl
    | true => exact leaves.emptied gathered

-- No two lines contradict each other: a member's give one address, and a class's
-- one end and one room.
def Consistent (reading : Reading) (file : Matrix) : Prop :=
  ∀ one ∈ file.rows, ∀ two ∈ file.rows,
    (one.memberId = two.memberId → reading.normalizeEmail one.memberEmail = reading.normalizeEmail two.memberEmail) ∧
    ∀ first ∈ (rowWindow reading one).toOption, ∀ second ∈ (rowWindow reading two).toOption,
      one.activityCode = two.activityCode → weeklyRule first.day = weeklyRule second.day → first.start = second.start →
        first.finish = second.finish ∧ reading.strip one.room = reading.strip two.room

theorem foldl_holds {α : Type} {write : α → FileLine → α} {holds : α → Prop} {lines : List FileLine}
    (each : ∀ row, ∀ line ∈ lines, holds row → holds (write row line)) {row : α} (now : holds row) : holds (lines.foldl write row) := by
  induction lines generalizing row with
  | nil => exact now
  | cons line rest ih => exact ih (fun row other listed => each row other (List.mem_cons_of_mem _ listed)) (each row line List.mem_cons_self now)

theorem foldl_reaches {α : Type} {write : α → FileLine → α} (is holds : α → Prop) {lines : List FileLine}
    (keeps : ∀ row, ∀ line ∈ lines, is row → is (write row line)) (each : ∀ row, ∀ line ∈ lines, holds row → holds (write row line))
    {line : FileLine} (listed : line ∈ lines) (sets : ∀ row, is row → holds (write row line)) {row : α} (now : is row) :
    holds (lines.foldl write row) := by
  obtain ⟨before,after,rfl⟩ := List.append_of_mem listed
  rw [List.foldl_append,List.foldl_cons]
  refine foldl_holds (fun row other there => each row other (List.mem_append_right _ (List.mem_cons_of_mem _ there))) (sets _ ?_)
  exact foldl_holds (fun row other there => keeps row other (List.mem_append_left _ there)) now

section
variable {lines : List FileLine}

-- The same of the lines, once it is known what each comes to.
def Agreeing (reading : Reading) (lines : List FileLine) : Prop :=
  ∀ one ∈ lines, ∀ two ∈ lines,
    (one.row.memberId = two.row.memberId → reading.normalizeEmail one.row.memberEmail = reading.normalizeEmail two.row.memberEmail) ∧
    (one.slotId = two.slotId → one.window.finish = two.window.finish ∧ one.roomId = two.roomId)

theorem consistent_agrees {cycleId : Nat} {file : Matrix} (consistent : Consistent reading file) (keys : FileKeys db)
    (rows : lines.map FileLine.row = file.rows) (lands : ∀ line ∈ lines, Lands reading columns cycleId db line) : Agreeing reading lines := by
  intro one first two second
  have listed : ∀ line ∈ lines, line.row ∈ file.rows := fun line there => rows ▸ List.mem_map_of_mem there
  obtain ⟨address,place⟩ := consistent one.row (listed one first) two.row (listed two second)
  refine ⟨address,fun same => ?_⟩
  obtain ⟨slot,matched,named,_⟩ := (lands one first).slot
  obtain ⟨slot',matched',named',_⟩ := (lands two second).slot
  obtain ⟨stored,activity,rule,start⟩ := matchedSlot_stored matched
  obtain ⟨stored',activity',rule',start'⟩ := matchedSlot_stored matched'
  cases same_of_key keys.slots stored stored' (named.trans (same.trans named'.symm))
  obtain ⟨offering,offered,of,_⟩ := (lands one first).offering
  obtain ⟨offering',offered',of',_⟩ := (lands two second).offering
  have one_ := List.find?_some offered
  have two_ := List.find?_some offered'
  simp only [decide_eq_true_eq] at one_ two_
  cases same_of_key keys.activities (List.mem_of_find?_eq_some offered) (List.mem_of_find?_eq_some offered')
    (of.trans (activity.symm.trans (activity'.trans of'.symm)))
  obtain ⟨finish,room⟩ := place one.window (by rw [(lands one first).window]; rfl) two.window (by rw [(lands two second).window]; rfl)
    (one_.2.symm.trans two_.2) (rule.symm.trans rule') (start.symm.trans start')
  obtain ⟨room_,roomed,housed⟩ := (lands one first).room
  obtain ⟨room_',roomed',housed'⟩ := (lands two second).room
  unfold roomOf at roomed roomed'
  rw [room,roomed'] at roomed
  exact ⟨finish,by rw [← housed,← housed',Option.some.inj roomed]⟩

-- A user the lines have been written over has the address they agree on.
theorem agreed_address (agreeing : Agreeing reading lines) (folds : ∀ email, reading.normalizeEmail (reading.normalizeEmail email) =
    reading.normalizeEmail email) {part : List FileLine} (sub : ∀ line ∈ part, line ∈ lines) {line : FileLine} (listed : line ∈ lines) :
    ∀ user, (user.id = line.row.memberId ∧ reading.normalizeEmail user.emailAddress = reading.normalizeEmail line.row.memberEmail) →
      ∀ other ∈ part, (settleMember reading user other.row).id = line.row.memberId ∧
        reading.normalizeEmail (settleMember reading user other.row).emailAddress = reading.normalizeEmail line.row.memberEmail := by
  rintro user ⟨named,address⟩ other there
  refine ⟨by simpa using named,?_⟩
  unfold settleMember
  split
  · rename_i mine
    have same := (agreeing other (sub other there) line listed).1 (mine.symm.trans named)
    dsimp only
    split
    · exact address
    · rw [folds,same]
  · exact address

theorem agreed_place (agreeing : Agreeing reading lines) {part : List FileLine} (sub : ∀ line ∈ part, line ∈ lines) {line : FileLine}
    (listed : line ∈ lines) : ∀ slot, (slot.id = line.slotId ∧ slot.resourceId = some line.roomId ∧ slot.timeWindowEnd = line.window.finish) →
      ∀ other ∈ part, (settleSlot slot other).id = line.slotId ∧ (settleSlot slot other).resourceId = some line.roomId ∧
        (settleSlot slot other).timeWindowEnd = line.window.finish := by
  rintro slot ⟨named,room,finish⟩ other there
  refine ⟨by simpa using named,?_⟩
  unfold settleSlot
  split
  · rename_i mine
    obtain ⟨one,two⟩ := (agreeing other (sub other there) line listed).2 (mine.symm.trans named)
    exact ⟨congrArg some two,one⟩
  · exact ⟨room,finish⟩

theorem agreeing_rereads (agreeing : Agreeing reading lines)
    (folds : ∀ email, reading.normalizeEmail (reading.normalizeEmail email) = reading.normalizeEmail email) (rest : List FileLine)
    (sub : ∀ line ∈ rest, line ∈ lines) (keys : FileKeys db) (lands : ∀ line ∈ lines, Lands reading columns cycle.id db line)
    (addresses : ∀ line ∈ lines, ∀ user ∈ db.users, user.id = line.row.memberId →
      reading.normalizeEmail user.emailAddress = reading.normalizeEmail line.row.memberEmail)
    (places : ∀ line ∈ lines, ∀ slot ∈ db.slots, slot.id = line.slotId →
      slot.resourceId = some line.roomId ∧ slot.timeWindowEnd = line.window.finish) : Rereads cal reading cycle db rest := by
  induction rest generalizing db with
  | nil => trivial
  | cons line rest ih =>
    have listed := sub line List.mem_cons_self
    have one : ∀ other ∈ [line], other ∈ lines := fun other there => List.mem_singleton.mp there ▸ listed
    refine ⟨fun member known => .inl ?_,fun slot matched room roomed => .inl ?_,
      ih (fun other there => sub other (List.mem_cons_of_mem _ there)) (settle_keys keys line) (fun other there => settle_lands keys line (lands other there)) ?_ ?_⟩
    · obtain ⟨stored,named⟩ := find_key known
      exact addresses line listed member stored named
    · obtain ⟨slot',matched',named,_⟩ := (lands line listed).slot
      obtain ⟨room',roomed',housed⟩ := (lands line listed).room
      have same : matchedSlot db line.offeringId (weeklyRule line.window.day) line.window.start = some slot := matched
      have same' : roomOf reading db line.row = some room := roomed
      rw [matched'] at same
      rw [roomed'] at same'
      cases same
      cases same'
      rw [housed]
      exact places line listed slot (matchedSlot_stored matched').1 named
    · intro other there _ stored named
      obtain ⟨user,before,rfl⟩ := List.mem_map.mp stored
      rw [settleMember_id] at named
      exact (agreed_address agreeing folds one there user ⟨named,addresses other there user before named⟩ line List.mem_cons_self).2
    · intro other there _ stored named
      obtain ⟨slot,before,rfl⟩ := List.mem_map.mp stored
      rw [settleSlot_id] at named
      exact (agreed_place agreeing one there slot ⟨named,places other there slot before named⟩ line List.mem_cons_self).2

end

theorem consistent_rereads {after : Database} {file : Matrix} {removeMissing : Bool} {report : ImportReport} (keys : FileKeys db)
    (folds : ∀ email, reading.normalizeEmail (reading.normalizeEmail email) = reading.normalizeEmail email)
    (done : processMemberCentricMatrix cal reading sha256 db file cycle removeMissing = .ok (after,report)) (consistent : Consistent reading file) :
    Rereads cal reading cycle after (file.rows.filterMap (landing reading cycle.id after)) := by
  obtain ⟨s,lines,gone,dropped,rows,gathered,leaves⟩ := import_leaves keys done
  have lands : ∀ line ∈ lines, Lands reading file.columns cycle.id after line := fun line listed => leaves.lands gathered listed
  have agreeing := consistent_agrees consistent (leaves.keys gathered) rows lands
  rw [← rows,landings lands]
  refine agreeing_rereads agreeing folds lines (fun _ listed => listed) (leaves.keys gathered) lands ?_ ?_
  · intro line listed user stored named
    obtain ⟨added,members⟩ := gathered.members
    rw [leaves.after] at stored
    have stored_ : user ∈ s.db.users := stored
    rw [members] at stored_
    obtain ⟨earlier,_,rfl⟩ := List.mem_map.mp stored_
    rw [settled_keys (fun user line => settleMember_id user line.row)] at named
    refine (foldl_reaches (fun user : User => user.id = line.row.memberId) (fun user : User => user.id = line.row.memberId ∧
      reading.normalizeEmail user.emailAddress = reading.normalizeEmail line.row.memberEmail) ?_ ?_ listed ?_ named).2
    · exact fun user other _ is => by simpa using is
    · exact fun user other there holds => agreed_address agreeing folds (fun _ there => there) listed user holds other there
    · intro user is
      refine ⟨by simpa using is,?_⟩
      simp only [settleMember,is,if_true]
      split
      · assumption
      · exact folds _
  · intro line listed slot stored named
    obtain ⟨added,places,_⟩ := gathered.places
    rw [leaves.after] at stored
    have stored_ := (List.mem_filter.mp stored).1
    have stored_ : slot ∈ s.db.slots := stored_
    rw [places] at stored_
    obtain ⟨earlier,_,rfl⟩ := List.mem_map.mp stored_
    rw [settled_keys settleSlot_id] at named
    refine (foldl_reaches (fun slot : StructuralMasterSlot => slot.id = line.slotId) (fun slot : StructuralMasterSlot => slot.id = line.slotId ∧
      slot.resourceId = some line.roomId ∧ slot.timeWindowEnd = line.window.finish) ?_ ?_ listed ?_ named).2
    · exact fun slot other _ is => by simpa using is
    · exact fun slot other there holds => agreed_place agreeing (fun _ there => there) listed slot holds other there
    · intro slot is
      simp [settleSlot,is,correctedSlot]

-- The import as a request sees it: a failure rolls everything back.
def runImport (cal : Recurrence) (reading : Reading) (sha256 : String → String) (db : Database) (file : Matrix) (cycle : PlanningCycle)
    (removeMissing : Bool) : Database × Imported ImportReport :=
  match processMemberCentricMatrix cal reading sha256 db file cycle removeMissing with
  | .error message => (db,.error message)
  | .ok (after,report) => (after,.ok report)

theorem runImport_parts {db after : Database} {file : Matrix} {removeMissing : Bool} {report : ImportReport} :
    runImport cal reading sha256 db file cycle removeMissing = (after,.ok report) ↔
      processMemberCentricMatrix cal reading sha256 db file cycle removeMissing = .ok (after,report) := by
  unfold runImport
  split
  · rename_i failed
    simp [failed]
  · rename_i done
    simp [done]

-- Two classes on a Wednesday, one after the other.
def newTerm : Database := performAll plainRuntime (staffed 100) [.createCycle ⟨"term",100,130,true,spring_bounds⟩ registrar]

def morningFile : Matrix := ⟨requiredColumns,[classRow "m1" "m1@school" "EARLY" "3" "05:00" "07:00",
  classRow "m2" "m2@school" "LATE" "3" "09:00" "11:00"]⟩

-- A member listed with two addresses keeps the second, and the first goes to
-- somebody further down. The file cannot be read again: its first line wants
-- the address back.
def twoAddresses : Matrix := ⟨requiredColumns,[classRow "m1" "one@school" "EARLY" "3" "05:00" "07:00",
  classRow "m1" "two@school" "EARLY" "3" "05:00" "07:00",classRow "m2" "one@school" "EARLY" "3" "05:00" "07:00"]⟩

end ChronosLedger
