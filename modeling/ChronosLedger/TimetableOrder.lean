import ChronosLedger.ImportRuns

namespace ChronosLedger
open Spans

variable {cal : Recurrence} {db next : Database}

def AtPlace (slot : StructuralMasterSlot) (row : DailyLedger) : Prop :=
  row.resourceId = slot.resourceId ∧ row.timeWindowStart = some slot.timeWindowStart ∧ row.timeWindowEnd = some slot.timeWindowEnd

-- What ties the tables together. The last field is the one the corrections keep
-- up: a day ahead that is still a plan is where its slot puts it.
structure InOrder (cal : Recurrence) (db : Database) : Prop extends Keys db where
  rooms : ∀ held ∈ db.reservations, held.resourceId ∈ db.resources.map Resource.id
  anchored : ∀ slot ∈ db.slots, Anchored db slot
  linked : ∀ row ∈ db.ledger, ∀ id, row.masterSlotId = some id → ∃ slot ∈ db.slots, slot.id = id ∧ row.activityId = slot.activityId
  behind : ∀ row ∈ db.ledger, row.masterSlotId = none → row.targetDate < db.orgToday
  placed : ∀ row ∈ db.ledger, db.orgToday < row.targetDate → inUse db row.id = false → ∀ slot ∈ db.slots,
    row.masterSlotId = some slot.id → SlotOn cal db slot row.targetDate ∧ AtPlace slot row

theorem inService_frame (activities : next.activities = db.activities) (cycles : next.cycles = db.cycles)
    (slot : StructuralMasterSlot) (cycle : PlanningCycle) : InService next slot cycle ↔ InService db slot cycle := by
  simp only [InService,Database.activity?,Database.cycle?,activities,cycles]

theorem slotOn_frame (activities : next.activities = db.activities) (cycles : next.cycles = db.cycles) (slots : next.slots = db.slots)
    (slot : StructuralMasterSlot) (day : Int) : SlotOn cal next slot day ↔ SlotOn cal db slot day := by
  simp only [SlotOn,inService_frame activities cycles,slots]

theorem anchored_frame (activities : next.activities = db.activities) (cycles : next.cycles = db.cycles)
    (slot : StructuralMasterSlot) : Anchored next slot ↔ Anchored db slot := by
  simp only [Anchored,Database.activity?,Database.cycle?,activities,cycles]

-- Activities and cycles can be added or renamed under a slot that has its own.
theorem inService_grow {slot : StructuralMasterSlot} (anchored : Anchored db slot)
    (activities : ∀ a, db.activity? slot.activityId = some a →
      ∃ b, next.activity? slot.activityId = some b ∧ b.cycleId = a.cycleId ∧ b.retired = a.retired)
    (cycles : ∀ id c, db.cycle? id = some c → next.cycle? id = some c) :
    Anchored next slot ∧ ∀ cycle, InService next slot cycle ↔ InService db slot cycle := by
  obtain ⟨a,c,known,inside⟩ := anchored
  obtain ⟨b,known',same,retired⟩ := activities a known
  have inside' := cycles _ _ inside
  refine ⟨⟨b,c,known',same ▸ inside'⟩,fun cycle => ⟨?_,?_⟩⟩
  · rintro ⟨b',at_,found_,live,lively,service⟩
    cases Option.some.inj (at_.symm.trans known')
    rw [same,inside'] at found_
    cases Option.some.inj found_
    exact ⟨a,known,inside,live,retired ▸ lively,service⟩
  · rintro ⟨a',at_,found_,live,lively,service⟩
    cases Option.some.inj (at_.symm.trans known)
    cases Option.some.inj (found_.symm.trans inside)
    exact ⟨b,known',same ▸ inside',live,retired.symm ▸ lively,service⟩

theorem onDate_bounds {one two : PlanningCycle} (start : two.dateBoundsStart = one.dateBoundsStart)
    (finish : two.dateBoundsEnd = one.dateBoundsEnd) {rule : String} {dtstart day : Int} :
    OnDate cal two rule dtstart day ↔ OnDate cal one rule dtstart day := by
  simp only [OnDate,within,start,finish]

-- Opening a cycle leaves in service what was, on the dates it had.
theorem inService_open {old cycle : PlanningCycle} (known : db.cycle? cycle.id = some old)
    (up : cycle = {old with operationalStatus := true}) {slot : StructuralMasterSlot} {before : PlanningCycle}
    (service : InService db slot before) : ∃ after, InService (setCycle db cycle) slot after ∧
      after.dateBoundsStart = before.dateBoundsStart ∧ after.dateBoundsEnd = before.dateBoundsEnd := by
  obtain ⟨activity,planned,inside,live,lively,open_⟩ := service
  have now := (setCycle_cycle db cycle activity.cycleId).trans (congrArg _ inside)
  by_cases same : before.id = cycle.id
  · have equal : old = before := by
      rw [← (find_key inside).2,same,known] at inside
      exact Option.some.inj inside
    refine ⟨cycle,⟨activity,planned,now.trans (by simp [same]),live,lively,by rw [up]⟩,?_,?_⟩ <;> rw [up,equal]
  · exact ⟨before,⟨activity,planned,now.trans (by simp [same]),live,lively,open_⟩,rfl,rfl⟩

theorem inService_opened {cycle : PlanningCycle} {slot : StructuralMasterSlot} {after : PlanningCycle} (service : InService (setCycle db cycle) slot after) :
    after = cycle ∨ InService db slot after := by
  obtain ⟨activity,planned,inside,live,lively,open_⟩ := service
  rw [setCycle_cycle] at inside
  obtain ⟨before,there,same⟩ := Option.map_eq_some_iff.mp inside
  split at same
  · exact .inl same.symm
  · exact .inr ⟨activity,planned,same ▸ there,live,lively,open_⟩

theorem slotOn_grow (slots : next.slots = db.slots) (same : ∀ slot ∈ db.slots, ∀ cycle, InService next slot cycle ↔ InService db slot cycle)
    {slot : StructuralMasterSlot} {day : Int} : SlotOn cal next slot day ↔ SlotOn cal db slot day := by
  simp only [SlotOn,slots]
  exact and_congr_right (fun stored => exists_congr (fun cycle => and_congr_left (fun _ => same slot stored cycle)))

-- The slots a change of one slot leaves: the others, and the changed one.
theorem slotOn_setSlot {moved : StructuralMasterSlot} {rows : List DailyLedger} {slot : StructuralMasterSlot} {day : Int}
    (on : SlotOn cal {setSlot db moved with ledger := rows} slot day) :
    slot = moved ∨ slot.id ≠ moved.id ∧ SlotOn cal db slot day := by
  obtain ⟨stored,cycle,service,dated⟩ := on
  rcases setSlot_member stored with same | ⟨old,different⟩
  · exact .inl same
  · exact .inr ⟨different,old,cycle,service,dated⟩

theorem slotOn_others {moved : StructuralMasterSlot} {rows : List DailyLedger} {slot : StructuralMasterSlot} {day : Int}
    (different : slot.id ≠ moved.id) (on : SlotOn cal db slot day) : SlotOn cal {setSlot db moved with ledger := rows} slot day := by
  obtain ⟨stored,cycle,service,dated⟩ := on
  exact ⟨List.mem_map.mpr ⟨slot,stored,if_neg different⟩,cycle,service,dated⟩

theorem inService_moved {slot moved : StructuralMasterSlot} (activity : moved.activityId = slot.activityId)
    (retired : moved.retired = slot.retired) {cycle : PlanningCycle} : InService db moved cycle ↔ InService db slot cycle := by
  simp only [InService,activity,retired]

theorem InOrder.linked_setSlot (order : InOrder cal db) {slot moved : StructuralMasterSlot} (stored : slot ∈ db.slots)
    (same : moved.id = slot.id) (activity : moved.activityId = slot.activityId) {id activityId : Nat}
    (was : ∃ old ∈ db.slots, old.id = id ∧ activityId = old.activityId) :
    ∃ now ∈ (setSlot db moved).slots, now.id = id ∧ activityId = now.activityId := by
  obtain ⟨old,member,named,linked⟩ := was
  by_cases mine : old.id = moved.id
  · have equal : old = slot := same_of_key order.slots member stored (mine.trans same)
    subst equal
    exact ⟨moved,setSlot_stored member mine,mine.symm.trans named,linked.trans activity.symm⟩
  · exact ⟨old,List.mem_map.mpr ⟨old,member,if_neg mine⟩,named,linked⟩

theorem InOrder.anchored_setSlot (order : InOrder cal db) {slot moved other : StructuralMasterSlot} (stored : slot ∈ db.slots)
    (activity : moved.activityId = slot.activityId) (member : other ∈ (setSlot db moved).slots) : Anchored db other := by
  rcases setSlot_member member with rfl | ⟨old,_⟩
  · obtain ⟨a,c,known,inside⟩ := order.anchored slot stored
    exact ⟨a,c,activity ▸ known,inside⟩
  · exact order.anchored other old

-- The moves that touch neither the days nor the slots, only what is around them.
theorem InOrder.around (order : InOrder cal db) (keys : Keys next) (today : db.orgToday ≤ next.orgToday)
    (rooms : ∀ held ∈ next.reservations, held.resourceId ∈ next.resources.map Resource.id) (slots : next.slots = db.slots)
    (ledger : next.ledger.map core = db.ledger.map core) (use : ∀ id, inUse next id = false → inUse db id = false)
    (same : ∀ slot ∈ db.slots, Anchored next slot ∧ ∀ cycle, InService next slot cycle ↔ InService db slot cycle) : InOrder cal next := by
  have back : ∀ row ∈ next.ledger, ∃ old ∈ db.ledger, core old = core row := fun row member => core_member ledger.symm member
  refine ⟨keys,rooms,fun slot stored => (same slot (slots ▸ stored)).1,?_,?_,?_⟩
  · intro row member id of
    obtain ⟨old,there,cores⟩ := back row member
    obtain ⟨_,_,_,_,of',activity,_⟩ := core_eq cores
    rw [slots,← activity]
    exact order.linked old there id (of'.trans of)
  · intro row member of
    obtain ⟨old,there,cores⟩ := back row member
    obtain ⟨_,date,_,_,of',_⟩ := core_eq cores
    have early := order.behind old there (of'.trans of)
    omega
  · intro row member ahead unused slot stored of
    obtain ⟨old,there,cores⟩ := back row member
    obtain ⟨id,date,start,finish,of',_,_,room⟩ := core_eq cores
    have stored' : slot ∈ db.slots := slots ▸ stored
    obtain ⟨on,at_⟩ := order.placed old there (by omega) (by rw [id]; exact use _ unused) slot stored' (of'.trans of)
    have on' := (slotOn_grow slots (fun s m => (same s m).2)).mpr on
    exact ⟨date ▸ on',room.symm.trans at_.1,start.symm.trans at_.2.1,finish.symm.trans at_.2.2⟩

theorem inUse_mono {marks : List VerificationLedger} {annotations : List LedgerAnnotation}
    (kept : ∀ mark ∈ db.marks, ∃ later ∈ marks, later.id = mark.id ∧ later.ledgerInstanceId = mark.ledgerInstanceId ∧
      later.memberId = mark.memberId) (noted : ∀ note ∈ db.annotations, note ∈ annotations) (id : Nat)
    (unused : inUse {db with marks := marks,annotations := annotations} id = false) : inUse db id = false := by
  simp only [inUse,Bool.or_eq_false_iff,List.any_eq_false,decide_eq_true_eq] at unused ⊢
  refine ⟨fun mark member on => ?_,fun note member => unused.2 note (noted note member)⟩
  obtain ⟨later,there,_,day,_⟩ := kept mark member
  exact unused.1 later there (day.trans on)

theorem setActivity_grow {old activity : Activity} (known : db.activity? activity.id = some old)
    (cycle : activity.cycleId = old.cycleId) (retired : activity.retired = old.retired) {id : Nat} {a : Activity}
    (there : db.activity? id = some a) : ∃ b, (setActivity db activity).activity? id = some b ∧ b.cycleId = a.cycleId ∧
      b.retired = a.retired := by
  have now := (setActivity_activity db activity id).trans (congrArg _ there)
  by_cases same : a.id = activity.id
  · have equal : old = a := by
      rw [← (find_key there).2,same,known] at there
      exact Option.some.inj there
    exact ⟨activity,now.trans (by simp [same]),equal ▸ cycle,equal ▸ retired⟩
  · exact ⟨a,now.trans (by simp [same]),rfl,rfl⟩

theorem rooms_held (move : HoldMove cal db next) (rooms : ∀ held ∈ db.reservations, held.resourceId ∈ db.resources.map Resource.id) :
    ∀ held ∈ next.reservations, held.resourceId ∈ next.resources.map Resource.id := by
  cases move with
  | book bookable =>
    intro held member
    rcases List.mem_append.mp member with old | new
    · exact rooms held old
    · cases List.mem_singleton.mp new
      rw [bookable.on]
      exact List.mem_map_of_mem bookable.stored
  | release gone =>
    intro held member
    obtain ⟨old,there,rfl⟩ := List.mem_map.mp member
    have here := rooms old there
    split <;> exact here
  | refit fits =>
    intro held member
    obtain ⟨old,there,rfl⟩ := List.mem_map.mp member
    obtain ⟨resource,stored,named⟩ := List.mem_map.mp (rooms old there)
    have place : ∀ mode (list : List Reservation), (if old ∈ list then writeMode mode old else old).resourceId = old.resourceId :=
      fun mode list => by split <;> rfl
    rw [place]
    refine List.mem_map.mpr ⟨_,List.mem_map_of_mem stored,?_⟩
    split
    · rename_i same
      exact same.symm.trans named
    · exact named
  | advance days => exact rooms

-- The plans ahead of a relocated slot go along with it, and no other day moves.
theorem InOrder.relocated (order : InOrder cal db) {slot moved : StructuralMasterSlot} (stored : slot ∈ db.slots)
    (same : moved.id = slot.id) (activity : moved.activityId = slot.activityId) (retired : moved.retired = slot.retired)
    (rule : moved.rrule = slot.rrule) (start : moved.dtstart = slot.dtstart) (keys : Keys (relocate db moved)) :
    InOrder cal (relocate db moved) := by
  rw [relocate_parts] at keys ⊢
  refine ⟨keys,order.rooms,fun other member => order.anchored_setSlot stored activity member,?_,?_,?_⟩
  · intro row member id of
    obtain ⟨old,there,rfl⟩ := List.mem_map.mp member
    rw [relocated_slot] at of
    rw [relocated_activity]
    exact order.linked_setSlot stored same activity (order.linked old there id of)
  · intro row member of
    obtain ⟨old,there,rfl⟩ := List.mem_map.mp member
    rw [relocated_slot] at of
    rw [relocated_date]
    exact order.behind old there of
  · intro row member ahead unused other listed of
    obtain ⟨old,there,rfl⟩ := List.mem_map.mp member
    rw [relocated_slot] at of
    rw [relocated_date] at ahead ⊢
    rw [relocated_id] at unused
    rcases setSlot_member listed with rfl | ⟨stored',different⟩
    · obtain ⟨⟨_,cycle,service,dated⟩,_⟩ := order.placed old there ahead unused slot stored (same ▸ of)
      have moves : ChronosLedger.relocated db other old = correctedDay other old := if_pos ⟨of,ahead,unused⟩
      refine ⟨⟨setSlot_stored stored same.symm,cycle,(inService_moved activity retired).mpr service,?_⟩,?_⟩
      · rw [rule,start]
        exact dated
      · rw [moves]
        exact ⟨correctedDay_room _ _,correctedDay_start _ _,correctedDay_end _ _⟩
    · obtain ⟨on,at_⟩ := order.placed old there ahead unused other stored' of
      have stays : ChronosLedger.relocated db moved old = old := by
        refine if_neg (fun all => different ?_)
        rw [of] at all
        exact Option.some.inj all.1
      rw [stays]
      exact ⟨slotOn_others different on,at_⟩

theorem InOrder.restarted (order : InOrder cal db) {slot moved : StructuralMasterSlot} (stored : slot ∈ db.slots)
    (same : moved.id = slot.id) (activity : moved.activityId = slot.activityId) (idle : idleAhead db slot.id)
    (keys : Keys (setSlot (dropDays db (plannedFor db slot.id)) moved)) :
    InOrder cal (setSlot (dropDays db (plannedFor db slot.id)) moved) := by
  rw [dropDays_idle idle] at keys ⊢
  refine ⟨keys,order.rooms,fun other member => order.anchored_setSlot stored activity member,?_,?_,?_⟩
  · intro row member id of
    exact order.linked_setSlot stored same activity (order.linked row (List.mem_filter.mp member).1 id of)
  · exact fun row member => order.behind row (List.mem_filter.mp member).1
  · intro row member ahead unused other listed of
    obtain ⟨there,stays⟩ := List.mem_filter.mp member
    rcases setSlot_member listed with rfl | ⟨stored',different⟩
    · -- A day ahead of the slot itself would have been withdrawn.
      rw [same] at of
      have early : db.orgToday ≤ row.targetDate := le_of_lt ahead
      simp [plannedFor,of,early] at stays
    · obtain ⟨on,at_⟩ := order.placed row there ahead unused other stored' of
      exact ⟨slotOn_others different on,at_⟩

theorem InOrder.wound (order : InOrder cal db) {wound : Database} {retire : StructuralMasterSlot → StructuralMasterSlot}
    {which : DailyLedger → Bool} (winds : WindsDown db wound retire which) (keys : Keys (dropPlans wound which)) :
    InOrder cal (dropPlans wound which) := by
  have alike : ∀ slot, (retire slot).id = slot.id ∧ (retire slot).activityId = slot.activityId ∧ (retire slot).rrule = slot.rrule ∧
      (retire slot).dtstart = slot.dtstart ∧ (AtPlace slot = AtPlace (retire slot)) := fun slot => by
    rcases winds.shape slot with equal | equal <;> rw [equal] <;> exact ⟨rfl,rfl,rfl,rfl,rfl⟩
  have use : ∀ id, inUse wound id = inUse db id := fun id => by unfold inUse; rw [winds.marks,winds.annotations]
  rw [dropPlans_idle] at keys ⊢
  have rows : ∀ row, row ∈ wound.ledger.filter (fun row => !(which row && !inUse wound row.id)) →
      row ∈ db.ledger ∧ (which row = true → inUse db row.id = true) := by
    intro row member
    obtain ⟨there,stays⟩ := List.mem_filter.mp member
    refine ⟨winds.ledger ▸ there,fun asked => ?_⟩
    simpa [asked,use] using stays
  refine ⟨keys,?_,?_,?_,?_,?_⟩
  · intro held member
    exact winds.resources ▸ order.rooms held (winds.reservations ▸ member)
  · intro slot member
    have listed : slot ∈ db.slots.map retire := winds.slots ▸ member
    obtain ⟨old,stored,rfl⟩ := List.mem_map.mp listed
    obtain ⟨a,c,known,inside⟩ := winds.anchored old (order.anchored old stored)
    exact ⟨a,c,(alike old).2.1.symm ▸ known,inside⟩
  · intro row member id of
    obtain ⟨old,stored,named,linked⟩ := order.linked row (rows row member).1 id of
    exact ⟨retire old,winds.slots.symm ▸ List.mem_map_of_mem stored,(alike old).1.trans named,linked.trans (alike old).2.1.symm⟩
  · intro row member of
    exact winds.today.symm ▸ order.behind row (rows row member).1 of
  · intro row member ahead unused slot listed of
    have listed' : slot ∈ db.slots.map retire := winds.slots ▸ listed
    obtain ⟨old,stored,rfl⟩ := List.mem_map.mp listed'
    obtain ⟨there,kept⟩ := rows row member
    have ahead' : db.orgToday < row.targetDate := by
      have later : wound.orgToday < row.targetDate := ahead
      rwa [winds.today] at later
    have unused' : inUse db row.id = false := (use row.id).symm.trans unused
    rw [(alike old).1] at of
    obtain ⟨⟨_,cycle,service,dated⟩,at_⟩ := order.placed row there ahead' unused' old stored of
    obtain ⟨found_,listed'',named,linked⟩ := order.linked row there old.id of
    have equal : found_ = old := same_of_key order.slots listed'' stored named
    subst equal
    -- Out of service, the day would have gone with its slot.
    have still : InService wound (retire found_) cycle := by
      by_contra gone
      have used := kept (winds.drops row found_ cycle of linked (le_of_lt ahead') service gone)
      rw [unused'] at used
      cases used
    refine ⟨⟨listed,cycle,still,?_⟩,(alike found_).2.2.2.2 ▸ at_⟩
    rw [(alike found_).2.2.1,(alike found_).2.2.2.1]
    exact dated

theorem InOrder.slotted (order : InOrder cal db) {slot : StructuralMasterSlot} (fresh : slot.id ∉ db.slots.map StructuralMasterSlot.id)
    (anchored : Anchored db slot) (keys : Keys {db with slots := db.slots ++ [slot]}) : InOrder cal {db with slots := db.slots ++ [slot]} := by
  refine ⟨keys,order.rooms,?_,?_,order.behind,?_⟩
  · intro other member
    rcases List.mem_append.mp member with old | new
    · exact order.anchored other old
    · cases List.mem_singleton.mp new
      exact anchored
  · intro row member id of
    obtain ⟨old,stored,named⟩ := order.linked row member id of
    exact ⟨old,List.mem_append_left _ stored,named⟩
  · intro row member ahead unused other listed of
    rcases List.mem_append.mp listed with old | new
    · obtain ⟨⟨stored,on⟩,at_⟩ := order.placed row member ahead unused other old of
      exact ⟨⟨List.mem_append_left _ stored,on⟩,at_⟩
    · cases List.mem_singleton.mp new
      obtain ⟨old,stored,named,_⟩ := order.linked row member slot.id of
      exact absurd (named ▸ List.mem_map_of_mem stored) fresh

theorem InOrder.opened (order : InOrder cal db) {old cycle : PlanningCycle} (known : db.cycle? cycle.id = some old)
    (up : cycle = {old with operationalStatus := true}) (keys : Keys (setCycle db cycle)) : InOrder cal (setCycle db cycle) := by
  refine ⟨keys,order.rooms,?_,order.linked,order.behind,?_⟩
  · intro slot stored
    obtain ⟨a,c,there,inside⟩ := order.anchored slot stored
    exact ⟨a,_,there,(setCycle_cycle db cycle a.cycleId).trans (congrArg _ inside)⟩
  · intro row member ahead unused slot stored of
    obtain ⟨⟨_,before,service,dated⟩,at_⟩ := order.placed row member ahead unused slot stored of
    obtain ⟨after,service',start,finish⟩ := inService_open known up service
    exact ⟨⟨stored,after,service',(onDate_bounds start finish).mpr dated⟩,at_⟩

theorem InOrder.written (order : InOrder cal db) {slot : StructuralMasterSlot} {day : Int} {state : DynamicState} (on : SlotOn cal db slot day)
    (keys : Keys (writeDay db (dayFields slot day state))) : InOrder cal (writeDay db (dayFields slot day state)) := by
  refine ⟨keys,order.rooms,order.anchored,?_,?_,?_⟩
  · intro row member id of
    rcases List.mem_append.mp member with old | new
    · exact order.linked row old id of
    · cases List.mem_singleton.mp new
      cases Option.some.inj of
      exact ⟨slot,on.1,rfl,rfl⟩
  · intro row member of
    rcases List.mem_append.mp member with old | new
    · exact order.behind row old of
    · cases List.mem_singleton.mp new
      cases of
  · intro row member ahead unused other stored of
    rcases List.mem_append.mp member with old | new
    · exact order.placed row old ahead unused other stored of
    · cases List.mem_singleton.mp new
      have equal : slot = other := same_of_key order.slots on.1 stored (Option.some.inj of)
      subst equal
      exact ⟨on,rfl,rfl,rfl⟩

theorem InOrder.preserved (order : InOrder cal db) (move : TimetableMove cal db next) : InOrder cal next := by
  have keys := order.toKeys.preserved move
  cases move with
  | hold move =>
    have frame : next.activities = db.activities ∧ next.cycles = db.cycles ∧ next.slots = db.slots ∧ next.ledger = db.ledger ∧
        next.marks = db.marks ∧ next.annotations = db.annotations := by cases move <;> exact ⟨rfl,rfl,rfl,rfl,rfl,rfl⟩
    have today : db.orgToday ≤ next.orgToday := by
      cases move with
      | advance days => simp [ChronosLedger.advance]
      | _ => exact le_refl _
    refine order.around keys today (rooms_held move order.rooms) frame.2.2.1 (by rw [frame.2.2.2.1]) (fun id unused => ?_) ?_
    · simpa only [inUse,frame.2.2.2.2.1,frame.2.2.2.2.2] using unused
    · intro slot stored
      exact ⟨(anchored_frame frame.1 frame.2.1 slot).mpr (order.anchored slot stored),inService_frame frame.1 frame.2.1 slot⟩
  | aside same =>
    refine order.around keys (le_of_eq same.today.symm) ?_ same.slots same.ledger (fun id unused => ?_) ?_
    · rw [same.reservations,same.resources]; exact order.rooms
    · simpa only [inUse,same.marks,same.annotations] using unused
    · intro slot stored
      exact ⟨(anchored_frame same.activities same.cycles slot).mpr (order.anchored slot stored),
        inService_frame same.activities same.cycles slot⟩
  | room fresh =>
    refine order.around keys (le_refl _) (fun held member => ?_) rfl rfl (fun _ unused => unused)
      (fun slot stored => ⟨order.anchored slot stored,fun _ => Iff.rfl⟩)
    rw [List.map_append]
    exact List.mem_append_left _ (order.rooms held member)
  | cycle =>
    exact order.around keys (le_refl _) order.rooms rfl rfl (fun _ unused => unused) (fun slot stored =>
      inService_grow (order.anchored slot stored) (fun a known => ⟨a,known,rfl,rfl⟩) (fun _ _ known => find_append known))
  | activity fresh =>
    exact order.around keys (le_refl _) order.rooms rfl rfl (fun _ unused => unused) (fun slot stored =>
      inService_grow (order.anchored slot stored) (fun a known => ⟨a,find_append known,rfl,rfl⟩) (fun _ _ known => known))
  | retitle known cycle retired =>
    exact order.around keys (le_refl _) order.rooms rfl rfl (fun _ unused => unused) (fun slot stored =>
      inService_grow (order.anchored slot stored) (fun a there => setActivity_grow known cycle retired there) (fun _ _ known => known))
  | slot fresh anchored clear => exact order.slotted fresh anchored keys
  | relocate stored same activity retired rule start clear => exact order.relocated stored same activity retired rule start keys
  | restart stored same activity retired idle clear => exact order.restarted stored same activity idle keys
  | windDown winds => exact order.wound winds keys
  | «open» known up clear => exact order.opened known up keys
  | write on absent free => exact order.written on keys
  | mark kept noted =>
    exact order.around keys (le_refl _) order.rooms rfl rfl (inUse_mono kept noted)
      (fun slot stored => ⟨order.anchored slot stored,fun _ => Iff.rfl⟩)

theorem InOrder.removed (order : InOrder cal db) (removal : SlotRemoval db next) : InOrder cal next := by
  have keys := order.toKeys.removed removal
  cases removal with
  | remove idle =>
    rename_i slotId
    unfold ChronosLedger.remove at keys ⊢
    rw [dropDays_idle idle] at keys ⊢
    have alike : ∀ row : DailyLedger, (detachDay slotId row).targetDate = row.targetDate ∧ (detachDay slotId row).activityId = row.activityId ∧
        (∀ id, (detachDay slotId row).masterSlotId = some id → row.masterSlotId = some id ∧ id ≠ slotId) := by
      intro row
      unfold detachDay
      split
      · exact ⟨rfl,rfl,fun id of => by cases of⟩
      · rename_i other
        exact ⟨rfl,rfl,fun id of => ⟨of,fun same => other (same ▸ of)⟩⟩
    refine ⟨keys,order.rooms,fun slot member => order.anchored slot (List.mem_filter.mp member).1,?_,?_,?_⟩
    · intro row member id of
      obtain ⟨old,there,rfl⟩ := List.mem_map.mp member
      obtain ⟨of',different⟩ := (alike old).2.2 id of
      obtain ⟨slot,stored,named,linked⟩ := order.linked old (List.mem_filter.mp there).1 id of'
      exact ⟨slot,List.mem_filter.mpr ⟨stored,by simpa [named] using different⟩,named,(alike old).2.1.trans linked⟩
    · intro row member of
      obtain ⟨old,there,rfl⟩ := List.mem_map.mp member
      obtain ⟨stored,stays⟩ := List.mem_filter.mp there
      rw [(alike old).1]
      by_cases own : old.masterSlotId = some slotId
      · -- Its own days ahead were withdrawn, so the ones left are behind.
        by_contra late
        have ahead : db.orgToday ≤ old.targetDate := not_lt.mp late
        simp [plannedFor,own,ahead] at stays
      · have none : old.masterSlotId = none := by simpa [detachDay,own] using of
        exact order.behind old stored none
    · intro row member ahead unused slot listed of
      obtain ⟨old,there,rfl⟩ := List.mem_map.mp member
      obtain ⟨of',different⟩ := (alike old).2.2 slot.id of
      have same : detachDay slotId old = old := by
        unfold detachDay
        rw [if_neg (fun own => different (Option.some.inj (of'.symm.trans own)))]
      rw [same] at ahead unused ⊢
      obtain ⟨⟨_,cycle,service,dated⟩,at_⟩ := order.placed old (List.mem_filter.mp there).1 ahead unused slot (List.mem_filter.mp listed).1 of'
      exact ⟨⟨listed,cycle,service,dated⟩,at_⟩

end ChronosLedger
