import ChronosLedger.FileLines

namespace ChronosLedger

variable {cal : Recurrence} {reading : Reading} {columns : List String} {cycle : PlanningCycle} {cycleId : Nat} {db : Database}

-- What reading a line does, with the rows it adds.
structure Writes (reading : Reading) (columns : List String) (cycleId : Nat) (s after : ImportState) (line : FileLine) (users : List User)
    (activities : List Activity) (enrollments : List ActivityEnrollment) (rooms : List Resource) (slots : List StructuralMasterSlot) :
    Prop where
  db : after.db = {s.db with
    users := (s.db.users ++ users).map (fun user => settleMember reading user line.row)
    activities := (s.db.activities ++ activities).map (fun activity => settleOffering activity line)
    enrollments := s.db.enrollments ++ enrollments
    resources := s.db.resources ++ rooms
    slots := (s.db.slots ++ slots).map (fun slot => settleSlot slot line)}
  members : Grown User.id (fun user => settleMember reading user line.row) s.db.users users
  offerings : Grown Activity.id (fun activity => settleOffering activity line) s.db.activities activities
  places : Grown StructuralMasterSlot.id (fun slot => settleSlot slot line) s.db.slots slots
  newer : ∀ new ∈ slots, new.id = line.slotId ∧ ∀ old ∈ s.db.slots, old.id < new.id
  joined : ∀ enrollment ∈ enrollments, enrollment = ⟨line.offeringId,line.row.memberId⟩
  lands : Lands reading columns cycleId after.db line
  seenSlots : after.seenSlots = s.seenSlots ++ [line.slotId]
  seenEnrollments : after.seenEnrollments = s.seenEnrollments ++ [(line.offeringId,line.row.memberId)]
  units : after.units = s.units ++ [line.row.unit]
  corrected : (∀ id ∈ s.corrected, id ∈ after.corrected) ∧ (∀ id ∈ after.corrected, id ∈ s.corrected ∨ id = line.slotId)
  uncorrected : line.slotId ∉ after.corrected → ∀ slot ∈ s.db.slots, settleSlot slot line = slot

theorem user_settled {users made : List User} {row : CsvRow} {id : String} {user : User} (known : ({db with users := users} : Database).user? id = some user) :
    ({db with users := (users ++ made).map (fun user => settleMember reading user row)} : Database).user? id =
      some (settleMember reading user row) := by
  unfold Database.user? at known ⊢
  have same : (fun user : User => decide (user.id = id)) ∘ (fun user => settleMember reading user row) = fun user => decide (user.id = id) := by
    funext user
    simp
  rw [List.find?_map,same,List.find?_append,known]
  rfl

theorem enroll_grown (db : Database) (activityId : Nat) (memberId : String) :
    ∃ made, enroll db activityId memberId = {db with enrollments := db.enrollments ++ made} ∧
      (∀ enrollment ∈ made, enrollment = ⟨activityId,memberId⟩) ∧
      ∃ enrollment ∈ db.enrollments ++ made, enrollment.activityId = activityId ∧ enrollment.memberId = memberId := by
  unfold enroll
  split
  · rename_i there
    obtain ⟨enrollment,stored,of⟩ := List.any_eq_true.mp there
    exact ⟨[],by simp,by simp,enrollment,by simpa using stored,by simpa using of⟩
  · exact ⟨[⟨activityId,memberId⟩],rfl,by simp,⟨activityId,memberId⟩,by simp,rfl,rfl⟩

theorem importRow_writes {s after : ImportState} {row : CsvRow} (keys : FileKeys s.db)
    (done : importRow cal reading columns cycle s row = .ok after) :
    ∃ line users activities enrollments rooms slots, line.row = row ∧
      Writes reading columns cycle.id s after line users activities enrollments rooms slots := by
  unfold importRow at done
  simp only [bind_parts,refuseText_parts] at done
  obtain ⟨_,filled,middle,member,⟨db,offering⟩,offered,window,read,⟨final,slotId,changed⟩,slotted,kept⟩ := done
  obtain ⟨users,provisioned,rfl,members,someone,there,named,active⟩ := upsertMember_settles keys.users member
  dsimp only at offered slotted kept
  obtain ⟨joined,enrolled,each,enrollment,listed,of⟩ := enroll_grown db offering.id row.memberId
  rw [enrolled] at slotted
  have frame : db.slots = s.db.slots ∧ db.users = (s.db.users ++ users).map (fun user => settleMember reading user row) := by
    obtain ⟨_,rfl⟩ := upsertOffering_frame offered
    exact ⟨rfl,rfl⟩
  have distinct : (({db with enrollments := db.enrollments ++ joined} : Database).slots.map StructuralMasterSlot.id).Nodup := by
    rw [frame.1]
    exact keys.slots
  obtain ⟨rooms,slots,roomId,final_,places,newer,roomed,matched,lead,still⟩ := upsertSlot_settles distinct slotted
  dsimp only at final_ places newer lead still
  rw [frame.1] at final_ places newer still
  let line : FileLine := ⟨row,window,offering.id,roomId,slotId⟩
  obtain ⟨activities,offered_,offerings,found_,live⟩ := @upsertOffering_settles
    {s.db with users := (s.db.users ++ users).map (fun user => settleMember reading user row)} db row offering cycle.id keys.activities offered line rfl rfl
  dsimp only at offered_ offerings
  cases kept
  have whole : final = {s.db with
      users := (s.db.users ++ users).map (fun user => settleMember reading user row)
      activities := (s.db.activities ++ activities).map (fun activity => settleOffering activity line)
      enrollments := s.db.enrollments ++ joined
      resources := s.db.resources ++ rooms
      slots := (s.db.slots ++ slots).map (fun slot => settleSlot slot line)} := by
    rw [final_,offered_]
  have lands : Lands reading columns cycle.id final line := by
    refine ⟨by simpa using filled,read,?_,?_,?_,roomed,matched,?_⟩
    · have known : ({s.db with users := s.db.users ++ users} : Database).user? row.memberId = some someone := by
        have found_ := find_of_mem members.distinct there
        rwa [named] at found_
      refine ⟨settleMember reading someone row,?_,by simpa using active⟩
      have settled := @user_settled reading s.db (s.db.users ++ users) [] row row.memberId someone known
      rw [List.append_nil] at settled
      rw [whole]
      exact settled
    · refine ⟨offering,?_,rfl,live⟩
      rw [final_]
      exact found_
    · refine ⟨enrollment,?_,of⟩
      rw [final_]
      exact listed
    · obtain ⟨someone,known,active⟩ := lead
      refine ⟨someone,?_,active⟩
      rw [final_]
      exact known
  have noted_ : ∀ id, id ∈ noted s.corrected slotId changed ↔ id ∈ s.corrected ∨ changed = true ∧ id = slotId := by
    intro id
    cases changed with
    | false => simp [noted]
    | true => simpa using mem_noted
  refine ⟨line,users,activities,joined,rooms,slots,rfl,
    ⟨whole,members,offerings,places,newer,each,lands,rfl,rfl,rfl,⟨fun id old => (noted_ id).mpr (.inl old),?_⟩,?_⟩⟩
  · intro id listed
    rcases (noted_ id).mp listed with old | ⟨_,new⟩
    · exact .inl old
    · exact .inr new
  · intro unlisted
    cases changed with
    | false => exact still rfl
    | true => exact absurd ((noted_ slotId).mpr (.inr ⟨rfl,rfl⟩)) unlisted

theorem map_keys {α κ : Type} {key : α → κ} {write : α → α} (same : ∀ row, key (write row) = key row) (rows : List α) :
    (rows.map write).map key = rows.map key := by
  rw [List.map_map]
  exact List.map_congr_left (fun row _ => same row)

section
variable {s after : ImportState} {line : FileLine} {users : List User} {activities : List Activity} {enrollments : List ActivityEnrollment}
  {rooms : List Resource} {slots : List StructuralMasterSlot}

theorem Writes.keys (writes : Writes reading columns cycleId s after line users activities enrollments rooms slots) : FileKeys after.db := by
  rw [writes.db]
  refine ⟨?_,?_,?_⟩
  · simpa only [map_keys (fun user => settleMember_id user line.row)] using writes.members.distinct
  · simpa only [map_keys (fun activity => settleOffering_id activity line)] using writes.offerings.distinct
  · simpa only [map_keys (fun slot => settleSlot_id slot line)] using writes.places.distinct

theorem Writes.user (writes : Writes reading columns cycleId s after line users activities enrollments rooms slots) {id : String}
    (there : ∃ user, s.db.user? id = some user ∧ user.deactivated = false) :
    ∃ user, after.db.user? id = some user ∧ user.deactivated = false := by
  obtain ⟨user,known,active⟩ := there
  refine ⟨settleMember reading user line.row,?_,by simpa using active⟩
  rw [writes.db]
  exact @user_settled reading s.db s.db.users users line.row id user known

-- A line already read still comes to the same rows.
theorem Writes.keeps (writes : Writes reading columns cycleId s after line users activities enrollments rooms slots) {earlier : FileLine}
    (lands : Lands reading columns cycleId s.db earlier) : Lands reading columns cycleId after.db earlier := by
  refine ⟨lands.filled,lands.window,writes.user lands.member,?_,?_,?_,?_,writes.user lands.lead⟩
  · obtain ⟨offering,offered,named,live⟩ := lands.offering
    refine ⟨settleOffering offering line,?_,by simpa using named,by simpa using live⟩
    have grown : offeringOf {s.db with activities := s.db.activities ++ activities} cycleId earlier.row = some offering := by
      unfold offeringOf at offered ⊢
      rw [List.find?_append,offered]
      rfl
    have settled := @offeringOf_settled s.db (s.db.activities ++ activities) cycleId earlier.row line
    rw [grown] at settled
    rw [writes.db]
    exact settled
  · obtain ⟨enrollment,stored,of⟩ := lands.enrolled
    refine ⟨enrollment,?_,of⟩
    rw [writes.db]
    exact List.mem_append_left _ stored
  · obtain ⟨room,known,named⟩ := lands.room
    refine ⟨room,?_,named⟩
    rw [writes.db]
    unfold roomOf at known ⊢
    rw [List.find?_append,known]
    rfl
  · obtain ⟨slot,matched,named,live⟩ := lands.slot
    refine ⟨settleSlot slot line,?_,by simpa using named,by simpa using live⟩
    have grown := @matchedSlot_grown s.db s.db.slots slots _ _ _ writes.places.distinct (fun new listed => (writes.newer new listed).2) _ matched
    rw [writes.db]
    exact @matchedSlot_settled s.db _ _ _ _ line writes.places.distinct _ grown

end

-- A table after some lines: what it held and what was added, every line written
-- over all of it in turn.
def Rewritten {α : Type} (write : α → FileLine → α) (lines : List FileLine) (before added rows : List α) : Prop :=
  rows = (before ++ added).map (lines.foldl write)

theorem foldl_kept {α : Type} {write : α → FileLine → α} {lines : List FileLine} {row : α} (kept : ∀ line ∈ lines, write row line = row) :
    lines.foldl write row = row := by
  induction lines with
  | nil => rfl
  | cons line rest ih =>
    rw [List.foldl_cons,kept line List.mem_cons_self]
    exact ih (fun other listed => kept other (List.mem_cons_of_mem _ listed))

theorem Rewritten.snoc {α κ : Type} {key : α → κ} {write : α → FileLine → α} {lines : List FileLine} {before added rows made : List α}
    {line : FileLine} (rewritten : Rewritten write lines before added rows) (grown : Grown key (fun row => write row line) rows made)
    (kept : ∀ earlier ∈ lines, ∀ row, key row ∉ rows.map key → write row earlier = row) :
    Rewritten write (lines ++ [line]) before (added ++ made) ((rows ++ made).map (fun row => write row line)) := by
  have same : made.map (lines.foldl write) = made := by
    conv_rhs => rw [← List.map_id made]
    exact List.map_congr_left (fun row listed => foldl_kept (fun earlier there => kept earlier there row (grown.fresh listed)))
  unfold Rewritten at rewritten ⊢
  calc (rows ++ made).map (fun row => write row line)
      = ((before ++ added).map (lines.foldl write) ++ made.map (lines.foldl write)).map (fun row => write row line) := by rw [rewritten,same]
    _ = (before ++ (added ++ made)).map ((lines ++ [line]).foldl write) := by simp [Function.comp_def]

theorem settled_keys {α κ : Type} {key : α → κ} {write : α → FileLine → α} (same : ∀ row line, key (write row line) = key row)
    (row : α) (lines : List FileLine) : key (lines.foldl write row) = key row := by
  induction lines generalizing row with
  | nil => rfl
  | cons line rest ih => exact (ih (write row line)).trans (same row line)

-- What the loop over the lines has come to, beside what the database was.
structure Gathered (reading : Reading) (columns : List String) (cycleId : Nat) (before : Database) (lines : List FileLine)
    (s : ImportState) : Prop where
  keys : FileKeys s.db
  lands : ∀ line ∈ lines, Lands reading columns cycleId s.db line
  members : ∃ added, Rewritten (fun user line => settleMember reading user line.row) lines before.users added s.db.users
  offerings : ∃ added, Rewritten settleOffering lines before.activities added s.db.activities
  places : ∃ added, Rewritten settleSlot lines before.slots added s.db.slots ∧
    ∀ slot ∈ added, slot.id ∈ s.seenSlots ∧ ∀ old ∈ before.slots, old.id < slot.id
  roster : ∃ added, s.db.enrollments = before.enrollments ++ added ∧ ∀ enrollment ∈ added,
    (enrollment.activityId,enrollment.memberId) ∈ s.seenEnrollments
  rooms : ∃ added, s.db.resources = before.resources ++ added
  steady : ∀ slot ∈ s.db.slots, slot.id ∉ s.corrected → ∀ line ∈ lines, settleSlot slot line = slot
  seenSlots : s.seenSlots = lines.map FileLine.slotId
  seenEnrollments : s.seenEnrollments = lines.map (fun line => (line.offeringId,line.row.memberId))
  units : s.units = lines.map (fun line => line.row.unit)
  corrected : ∀ id ∈ s.corrected, id ∈ s.seenSlots
  frame : ∃ users activities enrollments resources slots, s.db = {before with
    users := users,activities := activities,enrollments := enrollments,resources := resources,slots := slots}

theorem gathered_start {before : Database} (keys : FileKeys before) : Gathered reading columns cycleId before [] ⟨before,[],[],[],[],[]⟩ where
  keys := keys
  lands := fun _ none => absurd none List.not_mem_nil
  members := ⟨[],by simp [Rewritten]⟩
  offerings := ⟨[],by simp [Rewritten]⟩
  places := ⟨[],by simp [Rewritten],fun _ none => absurd none List.not_mem_nil⟩
  roster := ⟨[],by simp,fun _ none => absurd none List.not_mem_nil⟩
  rooms := ⟨[],by simp⟩
  steady := fun _ _ _ _ none => absurd none List.not_mem_nil
  seenSlots := rfl
  seenEnrollments := rfl
  units := rfl
  corrected := fun _ none => absurd none List.not_mem_nil
  frame := ⟨_,_,_,_,_,rfl⟩

theorem Lands.stored {line : FileLine} (lands : Lands reading columns cycleId db line) : line.row.memberId ∈ db.users.map User.id ∧
    line.offeringId ∈ db.activities.map Activity.id ∧ line.slotId ∈ db.slots.map StructuralMasterSlot.id := by
  obtain ⟨member,known,_⟩ := lands.member
  obtain ⟨offering,offered,named,_⟩ := lands.offering
  obtain ⟨slot,matched,same,_⟩ := lands.slot
  obtain ⟨there,id⟩ := find_key known
  exact ⟨id ▸ List.mem_map_of_mem there,named ▸ List.mem_map_of_mem (List.mem_of_find?_eq_some offered),
    same ▸ List.mem_map_of_mem (matchedSlot_stored matched).1⟩

theorem Gathered.snoc {before : Database} {lines : List FileLine} {s after : ImportState} {line : FileLine} {users : List User}
    {activities : List Activity} {enrollments : List ActivityEnrollment} {rooms : List Resource} {slots : List StructuralMasterSlot}
    (gathered : Gathered reading columns cycleId before lines s)
    (writes : Writes reading columns cycleId s after line users activities enrollments rooms slots) :
    Gathered reading columns cycleId before (lines ++ [line]) after := by
  have db := writes.db
  obtain ⟨users',members⟩ := gathered.members
  obtain ⟨activities',offerings⟩ := gathered.offerings
  obtain ⟨slots',places,seen⟩ := gathered.places
  obtain ⟨enrollments',roster,joined⟩ := gathered.roster
  obtain ⟨rooms',roomed⟩ := gathered.rooms
  obtain ⟨_,_,_,_,_,frame⟩ := gathered.frame
  have stays : ∀ id ∈ s.seenSlots, id ∈ after.seenSlots := by
    rw [writes.seenSlots]
    exact fun _ old => List.mem_append_left _ old
  have last : line.slotId ∈ after.seenSlots := by
    rw [writes.seenSlots]
    exact List.mem_append_right _ (List.mem_singleton_self _)
  refine ⟨writes.keys,?_,⟨users' ++ users,?_⟩,⟨activities' ++ activities,?_⟩,⟨slots' ++ slots,?_,?_⟩,⟨enrollments' ++ enrollments,?_,?_⟩,⟨rooms' ++ rooms,?_⟩,?_,?_,?_,?_,?_,?_⟩
  · intro earlier listed
    rcases List.mem_append.mp listed with old | new
    · exact writes.keeps (gathered.lands earlier old)
    · cases List.mem_singleton.mp new
      exact writes.lands
  · rw [db]
    refine members.snoc writes.members (fun earlier listed user fresh => ?_)
    have other : ¬ user.id = earlier.row.memberId := fun same => fresh (same ▸ (gathered.lands earlier listed).stored.1)
    simp [settleMember,other]
  · rw [db]
    refine offerings.snoc writes.offerings (fun earlier listed activity fresh => ?_)
    have other : ¬ activity.id = earlier.offeringId := fun same => fresh (same ▸ (gathered.lands earlier listed).stored.2.1)
    simp [settleOffering,other]
  · rw [db]
    refine places.snoc writes.places (fun earlier listed slot fresh => ?_)
    have other : ¬ slot.id = earlier.slotId := fun same => fresh (same ▸ (gathered.lands earlier listed).stored.2.2)
    simp [settleSlot,other]
  · intro slot listed
    rcases List.mem_append.mp listed with old | new
    · exact ⟨stays _ (seen slot old).1,(seen slot old).2⟩
    · refine ⟨by rw [(writes.newer slot new).1]; exact last,fun old stored => ?_⟩
      have newer := (writes.newer slot new).2 (lines.foldl settleSlot old) (by
        rw [places]
        exact List.mem_map_of_mem (List.mem_append_left _ stored))
      rwa [settled_keys settleSlot_id] at newer
  · rw [db,← List.append_assoc,← roster]
  · intro enrollment listed
    rw [writes.seenEnrollments]
    rcases List.mem_append.mp listed with old | new
    · exact List.mem_append_left _ (joined enrollment old)
    · rw [writes.joined enrollment new]
      exact List.mem_append_right _ (List.mem_singleton_self _)
  · rw [db,← List.append_assoc,← roomed]
  · intro slot stored unlisted
    rw [db] at stored
    obtain ⟨slot,there,rfl⟩ := List.mem_map.mp stored
    rw [settleSlot_id] at unlisted
    have still : settleSlot slot line = slot ∧ ∀ earlier ∈ lines, settleSlot slot earlier = slot := by
      rcases List.mem_append.mp there with old | new
      · refine ⟨?_,gathered.steady slot old (fun listed => unlisted (writes.corrected.1 _ listed))⟩
        by_cases same : slot.id = line.slotId
        · exact writes.uncorrected (same ▸ unlisted) slot old
        · simp [settleSlot,same]
      · refine ⟨writes.places.written slot new,fun earlier listed => ?_⟩
        have other : ¬ slot.id = earlier.slotId := fun same =>
          writes.places.fresh new (same ▸ (gathered.lands earlier listed).stored.2.2)
        simp [settleSlot,other]
    rw [still.1]
    intro earlier there
    rcases List.mem_append.mp there with old | new
    · exact still.2 earlier old
    · cases List.mem_singleton.mp new
      exact still.1
  · rw [writes.seenSlots,gathered.seenSlots,List.map_append]
    rfl
  · rw [writes.seenEnrollments,gathered.seenEnrollments,List.map_append]
    rfl
  · rw [writes.units,gathered.units,List.map_append]
    rfl
  · intro id listed
    rcases writes.corrected.2 id listed with old | rfl
    · exact stays id (gathered.corrected id old)
    · exact last
  · rw [db,frame]
    exact ⟨_,_,_,_,_,rfl⟩

theorem importRows_gathered {before : Database} (rows : List CsvRow) {line : Nat} (s : ImportState) {after : ImportState} {lines : List FileLine}
    (gathered : Gathered reading columns cycle.id before lines s)
    (done : importRows cal reading columns cycle line rows s = .ok after) :
    ∃ read, read.map FileLine.row = rows ∧ Gathered reading columns cycle.id before (lines ++ read) after := by
  induction rows generalizing line s lines with
  | nil =>
    cases done
    exact ⟨[],rfl,by simpa using gathered⟩
  | cons row rest ih =>
    unfold importRows at done
    split at done
    · cases done
    · rename_i middle first
      obtain ⟨read,_,_,_,_,_,of,writes⟩ := importRow_writes gathered.keys first
      obtain ⟨later,rows_,whole⟩ := ih middle (gathered.snoc writes) done
      refine ⟨read :: later,by rw [List.map_cons,of,rows_],?_⟩
      rwa [List.append_assoc] at whole

theorem Rewritten.stored {α : Type} {write : α → FileLine → α} {lines : List FileLine} {before added rows : List α}
    (rewritten : Rewritten write lines before added rows) {row : α} (stored : row ∈ before) : lines.foldl write row ∈ rows := by
  rw [rewritten]
  exact List.mem_map_of_mem (List.mem_append_left _ stored)

theorem settleSlot_like (slot : StructuralMasterSlot) (lines : List FileLine) : (lines.foldl settleSlot slot).activityId = slot.activityId ∧
    (lines.foldl settleSlot slot).rrule = slot.rrule ∧ (lines.foldl settleSlot slot).timeWindowStart = slot.timeWindowStart :=
  ⟨settled_keys settleSlot_activity slot lines,settled_keys settleSlot_rule slot lines,settled_keys settleSlot_start slot lines⟩

theorem offeringOf_rewritten {before added rows : List Activity} {lines : List FileLine} (rewritten : Rewritten settleOffering lines before added rows)
    (row : CsvRow) : (offeringOf {db with activities := rows} cycleId row).map Activity.id =
      ((offeringOf {db with activities := before} cycleId row).or (offeringOf {db with activities := added} cycleId row)).map Activity.id := by
  have same : (fun a : Activity => decide (a.cycleId = cycleId ∧ a.activityCode = row.activityCode)) ∘ (lines.foldl settleOffering) =
      fun a => decide (a.cycleId = cycleId ∧ a.activityCode = row.activityCode) := by
    funext a
    simp [settled_keys settleOffering_cycle a lines,settled_keys settleOffering_code a lines]
  have keys : Activity.id ∘ (lines.foldl settleOffering) = Activity.id := funext (fun a => settled_keys settleOffering_id a lines)
  unfold offeringOf
  rw [rewritten,List.find?_map,same,List.find?_append,Option.map_map,keys]

-- The offering a line is for is the one that would have been found at the start,
-- or none was there.
theorem Gathered.offered {before : Database} {lines : List FileLine} {s : ImportState}
    (gathered : Gathered reading columns cycleId before lines s) {row : CsvRow} {id : Nat} (old : id ∈ before.activities.map Activity.id) :
    (offeringOf s.db cycleId row).map Activity.id = some id ↔ (offeringOf before cycleId row).map Activity.id = some id := by
  obtain ⟨added,rewritten⟩ := gathered.offerings
  have both := @offeringOf_rewritten cycleId s.db _ _ _ _ rewritten row
  have apart : ∀ late ∈ added, late.id ≠ id := by
    intro late listed same
    have distinct := gathered.keys.activities
    rw [rewritten,map_keys (fun row => settled_keys settleOffering_id row lines),List.map_append] at distinct
    exact (List.nodup_append.mp distinct).2.2 _ old _ (List.mem_map_of_mem listed) same.symm
  refine both ▸ ?_
  cases first : offeringOf {s.db with activities := before.activities} cycleId row with
  | some found_ =>
    have first' : offeringOf before cycleId row = some found_ := first
    rw [first',Option.some_or]
  | none =>
    have first' : offeringOf before cycleId row = none := first
    rw [first',Option.none_or]
    constructor
    · intro late
      obtain ⟨offering,found_,same⟩ := Option.map_eq_some_iff.mp late
      exact absurd same (apart offering (List.mem_of_find?_eq_some found_))
    · intro no
      cases no

theorem Gathered.matched {before : Database} {lines : List FileLine} {s : ImportState}
    (gathered : Gathered reading columns cycleId before lines s) (keys : FileKeys before) {activityId : Nat} {rule : String} {start : Time}
    {old : StructuralMasterSlot} (stored : old ∈ before.slots) :
    matchedSlot s.db activityId rule start = some (lines.foldl settleSlot old) ↔ matchedSlot before activityId rule start = some old := by
  obtain ⟨added,places,new⟩ := gathered.places
  obtain ⟨activity_,rule_,start_⟩ := settleSlot_like old lines
  have id := settled_keys settleSlot_id old lines
  rw [matchedSlot_exact gathered.keys.slots,matchedSlot_exact keys.slots,activity_,rule_,start_,id]
  refine ⟨fun ⟨_,like,least⟩ => ⟨stored,like,fun other there alike => ?_⟩,fun ⟨_,like,least⟩ => ⟨places.stored stored,like,fun other there alike => ?_⟩⟩
  · obtain ⟨one,two,three⟩ := settleSlot_like other lines
    have after := least (lines.foldl settleSlot other) (places.stored there) ⟨one.trans alike.1,two.trans alike.2.1,three.trans alike.2.2⟩
    rwa [settled_keys settleSlot_id] at after
  · rw [places] at there
    obtain ⟨other,listed,rfl⟩ := List.mem_map.mp there
    obtain ⟨one,two,three⟩ := settleSlot_like other lines
    rw [settled_keys settleSlot_id]
    rcases List.mem_append.mp listed with earlier | later
    · exact least other earlier ⟨one.symm.trans alike.1,two.symm.trans alike.2.1,three.symm.trans alike.2.2⟩
    · exact Nat.le_of_lt ((new other later).2 old stored)

-- A slot that was on the timetable is matched by the lines that ask for it.
theorem Gathered.asked {before : Database} {lines : List FileLine} {s : ImportState}
    (gathered : Gathered reading columns cycleId before lines s) (keys : FileKeys before) {old : StructuralMasterSlot}
    (stored : old ∈ before.slots) (offered : old.activityId ∈ before.activities.map Activity.id) {line : FileLine} (listed : line ∈ lines) :
    line.slotId = old.id ↔ lineSlot reading before cycleId line.row = some old.id := by
  obtain ⟨added,places,_⟩ := gathered.places
  obtain ⟨offering,offering_,named,_⟩ := (gathered.lands line listed).offering
  obtain ⟨slot,matched,same,_⟩ := (gathered.lands line listed).slot
  have here : (offeringOf s.db cycleId line.row).map Activity.id = some line.offeringId := by rw [offering_,Option.map_some,named]
  unfold lineSlot
  rw [(gathered.lands line listed).window]
  dsimp only
  constructor
  · intro mine
    have is : slot = lines.foldl settleSlot old :=
      same_of_key gathered.keys.slots (matchedSlot_stored matched).1 (places.stored stored) (by rw [same,mine,settled_keys settleSlot_id])
    have of : old.activityId = line.offeringId := by
      rw [← (settleSlot_like old lines).1,← is]
      exact (matchedSlot_stored matched).2.1
    rw [is,gathered.matched keys stored] at matched
    obtain ⟨first,found_,id⟩ := Option.map_eq_some_iff.mp ((gathered.offered (of ▸ offered)).mp here)
    exact Option.bind_eq_some_iff.mpr ⟨first,found_,Option.map_eq_some_iff.mpr ⟨old,by rw [id]; exact matched,rfl⟩⟩
  · intro asks
    obtain ⟨first,found_,matched'⟩ := Option.bind_eq_some_iff.mp asks
    obtain ⟨slot',matched',id⟩ := Option.map_eq_some_iff.mp matched'
    cases same_of_key keys.slots (matchedSlot_stored matched').1 stored id
    have known : (offeringOf before cycleId line.row).map Activity.id = some first.id := by
      unfold offeringOf
      rw [found_]
      rfl
    have asked := (gathered.offered (List.mem_map_of_mem (List.mem_of_find?_eq_some found_))).mpr known
    rw [here] at asked
    rw [← Option.some.inj asked,← gathered.matched keys stored,matched] at matched'
    rw [← same,Option.some.inj matched',settled_keys settleSlot_id]

-- An import is its lines, the days brought along and what it removes.
theorem import_outcome {sha256 : String → String} {imported : Database} {file : Matrix} {removeMissing : Bool} {report : ImportReport} :
    processMemberCentricMatrix cal reading sha256 db file cycle removeMissing = .ok (imported,report) ↔
    (∀ name ∈ requiredColumns, name ∈ file.columns) ∧
    ∃ s, importRows cal reading file.columns cycle 2 file.rows ⟨db,[],[],[],[],[]⟩ = .ok s ∧
      let propagated := propagateSlotCorrections s.db (s.corrected.filterMap s.db.slot?)
      let found := orphans propagated.1 cycle.id s.units s.seenSlots s.seenEnrollments
      let removed := if removeMissing then removeOrphans propagated.1 found else (propagated.1,⟨[],[]⟩)
      imported = removed.1 ∧ report = ⟨file.rows.length,s.provisioned,s.corrected.length,propagated.2,found,removed.2,
        ((removed.1.slots.filter (fun slot => slot.id ∈ s.seenSlots)).insertionSort (fun a b => a.id ≤ b.id)).flatMap
          (fun slot => (unmetForSlot cal sha256 removed.1 slot).map (fun gap => (slot.id,gap)))⟩ := by
  have columns : requiredColumns.filter (fun name => name ∉ file.columns) = [] ↔ ∀ name ∈ requiredColumns, name ∈ file.columns := by
    simp [List.filter_eq_nil_iff]
  unfold processMemberCentricMatrix
  simp only [bind_parts,refuseText_parts,decide_eq_false_iff_not,not_not,columns,Except.ok.injEq,Prod.mk.injEq]
  constructor
  · rintro ⟨_,complete,s,read,rfl,rfl⟩
    exact ⟨complete,s,read,rfl,rfl⟩
  · rintro ⟨complete,s,read,rfl,rfl⟩
    exact ⟨(),complete,s,read,rfl,rfl⟩

theorem gathered_import {sha256 : String → String} {imported : Database} {file : Matrix} {removeMissing : Bool} {report : ImportReport}
    (keys : FileKeys db) (done : processMemberCentricMatrix cal reading sha256 db file cycle removeMissing = .ok (imported,report)) :
    ∃ s lines, lines.map FileLine.row = file.rows ∧ Gathered reading file.columns cycle.id db lines s ∧
      importRows cal reading file.columns cycle 2 file.rows ⟨db,[],[],[],[],[]⟩ = .ok s := by
  obtain ⟨_,s,read,_⟩ := import_outcome.mp done
  obtain ⟨lines,rows,gathered⟩ := importRows_gathered file.rows _ (gathered_start keys) read
  exact ⟨s,lines,rows,by simpa using gathered,read⟩

end ChronosLedger
