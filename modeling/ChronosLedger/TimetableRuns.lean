import ChronosLedger.AcceptedRequests
import ChronosLedger.HoldRuns
import ChronosLedger.LedgerWrites

namespace ChronosLedger
open Spans

variable {cal : Recurrence}

theorem find_map {α : Type} {key : α → Nat} {change : α → α} (same : ∀ row, key (change row) = key row) (rows : List α) (id : Nat) :
    (rows.map change).find? (fun r => key r = id) = (rows.find? (fun r => key r = id)).map change := by
  induction rows with
  | nil => rfl
  | cons row rest ih =>
    by_cases here : key row = id <;> simp [same,here,ih]

theorem setCycle_cycle (db : Database) (cycle : PlanningCycle) (id : Nat) :
    (setCycle db cycle).cycle? id = (db.cycle? id).map (fun c => if c.id = cycle.id then cycle else c) := by
  refine find_map (fun c => ?_) db.cycles id
  split
  · rename_i same; exact same.symm
  · rfl

theorem setActivity_activity (db : Database) (activity : Activity) (id : Nat) :
    (setActivity db activity).activity? id = (db.activity? id).map (fun a => if a.id = activity.id then activity else a) := by
  refine find_map (fun a => ?_) db.activities id
  split
  · rename_i same; exact same.symm
  · rfl

theorem find_append {α : Type} {key : α → Nat} {rows : List α} {found new : α} {id : Nat}
    (known : rows.find? (fun r => key r = id) = some found) : (rows ++ [new]).find? (fun r => key r = id) = some found := by
  rw [List.find?_append,known]
  rfl

theorem find_new {α : Type} (key : α → Nat) {rows : List α} {new : α} (fresh : key new ∉ rows.map key) :
    (rows ++ [new]).find? (fun r => key r = key new) = some new := by
  have none : rows.find? (fun r => key r = key new) = none := by
    apply List.find?_eq_none.mpr
    intro row member same
    exact fresh (List.mem_map.mpr ⟨row,member,by simpa using same⟩)
  rw [List.find?_append,none]
  simp

theorem hold_timetable {db next : Database} (moves : HoldMoves cal db next) : TimetableMoves cal db next :=
  moves.lift id (fun _ _ move => .hold move)

theorem room_moves (strip : String → String) (code : String) (db : Database) :
    TimetableMoves cal db (getOrCreateRoom strip code db).2 := by
  unfold getOrCreateRoom
  split
  · exact .refl
  · exact .single (.room (nextId_notMem _))

-- A room found or made changes nothing but the table of rooms.
theorem room_parts (strip : String → String) (code : String) (db : Database) :
    ∃ resources, (getOrCreateRoom strip code db).2 = {db with resources := resources} := by
  unfold getOrCreateRoom
  split
  · exact ⟨db.resources,rfl⟩
  · exact ⟨_,rfl⟩

theorem room_there (strip : String → String) (code : String) (db : Database) :
    (getOrCreateRoom strip code db).1.id ∈ (getOrCreateRoom strip code db).2.resources.map Resource.id := by
  unfold getOrCreateRoom
  split
  · rename_i existing found_
    exact List.mem_map_of_mem (List.mem_of_find?_eq_some found_)
  · simp

theorem openCycle_moves {db next : Database} {cycleId : Nat} {currentUser : User} {message : String}
    (done : openCycle cal db cycleId currentUser = .ok (next,message)) : TimetableMoves cal db next := by
  obtain ⟨cycle,known,rfl | ⟨unblocked,rfl⟩⟩ := openCycle_parts done
  · exact .refl
  · obtain ⟨_,rfl⟩ := find_key known
    refine .single (@TimetableMove.open cal db cycle _ known rfl ?_)
    intro slot stored roomed service _
    obtain ⟨activity,planned,found_,live,lively,_⟩ := service
    have own : activity.cycleId = cycle.id := by
      rw [setCycle_cycle] at found_
      obtain ⟨old,there,same⟩ := Option.map_eq_some_iff.mp found_
      have named := (find_key there).2
      split at same
      · rename_i here
        exact named.symm.trans here
      · rename_i other
        exact absurd (congrArg PlanningCycle.id same) other
    have listed : slot ∈ slotsOfCycle db cycle.id := by
      refine (List.mem_insertionSort _).mpr (List.mem_filter.mpr ⟨stored,?_⟩)
      have here : db.activity? slot.activityId = some activity := planned
      simp [live,lively,here,own]
    have free := List.flatMap_eq_nil_iff.mp unblocked slot listed
    unfold blockedBy at free
    rw [if_neg (by simpa using roomed)] at free
    have all := List.map_eq_nil_iff.mp free
    simp only [List.append_eq_nil_iff] at all
    exact checks_clear all.1.1 all.1.2 all.2

theorem closeCycle_moves {db next : Database} {cycleId : Nat} {currentUser : User} {sweep : CycleSweep}
    (done : closeCycle db cycleId currentUser = .ok (next,sweep)) : TimetableMoves cal db next := by
  obtain ⟨cycle,known,rfl⟩ := closeCycle_parts done
  obtain ⟨_,rfl⟩ := find_key known
  have cycles := setCycle_cycle db {cycle with operationalStatus := false}
  refine .single (@TimetableMove.windDown cal db _ id _ ⟨rfl,rfl,rfl,rfl,rfl,rfl,rfl,by simp [setCycle],fun _ => .inl rfl,?_,?_,?_,?_,?_⟩)
  · rintro slot ⟨activity,old,planned,there⟩
    exact ⟨activity,_,planned,by rw [cycles,there]; rfl⟩
  · rintro slot other ⟨activity,planned,there,live,lively,service⟩
    rw [cycles] at there
    obtain ⟨old,before,same⟩ := Option.map_eq_some_iff.mp there
    split at same
    · rw [← same] at service
      cases service
    · exact ⟨activity,planned,same ▸ before,live,lively,service⟩
  · intro row which
    exact of_decide_eq_true (Bool.and_eq_true_iff.mp which).2
  · rintro row slot _ linked which other ⟨activity,planned,there,_,_,service⟩
    have inside := (Bool.and_eq_true_iff.mp which).1
    have here : (setCycle db {cycle with operationalStatus := false}).activity? row.activityId = some activity := linked ▸ planned
    simp only [inCycle,here,Option.any_some,decide_eq_true_eq] at inside
    rw [cycles,inside,known] at there
    simp only [Option.map_some,if_true,Option.some.injEq] at there
    rw [← there] at service
    cases service
  · rintro row slot other _ linked ahead ⟨activity,planned,there,live,lively,service⟩ gone
    have own : activity.cycleId = cycle.id := by
      by_contra away
      refine gone ⟨activity,planned,?_,live,lively,service⟩
      rw [cycles,there]
      have apart : ¬ other.id = cycle.id := fun same => away ((find_key there).2.symm.trans same)
      simp [apart]
    have here : (setCycle db {cycle with operationalStatus := false}).activity? row.activityId = some activity := linked ▸ planned
    have today : (setCycle db {cycle with operationalStatus := false}).orgToday = db.orgToday := rfl
    simp [aheadInCycle,inCycle,here,own,today,ahead]

theorem retireActivity_moves {db next : Database} {activityId : Nat} {currentUser : User} {result : RetireResult}
    (done : retireActivity db activityId currentUser = .ok (next,result)) : TimetableMoves cal db next := by
  obtain ⟨activity,known,rfl⟩ := retireActivity_parts done
  obtain ⟨_,rfl⟩ := find_key known
  have activities := setActivity_activity db {activity with retired := true}
  have shape : ∀ slot, retireSlotsOf activity.id slot = slot ∨ retireSlotsOf activity.id slot = {slot with retired := true} := by
    intro slot
    unfold retireSlotsOf
    split
    · exact .inr rfl
    · exact .inl rfl
  -- A slot of the retired activity is out of service, and no other slot is touched.
  have out : ∀ slot cycle, slot.activityId = activity.id → ¬ InService {setActivity db {activity with retired := true} with
      slots := db.slots.map (retireSlotsOf activity.id)} (retireSlotsOf activity.id slot) cycle := by
    rintro slot cycle own ⟨_,_,_,live,_⟩
    simp [retireSlotsOf,own] at live
  have stays : ∀ slot cycle, slot.activityId ≠ activity.id → (InService {setActivity db {activity with retired := true} with
      slots := db.slots.map (retireSlotsOf activity.id)} (retireSlotsOf activity.id slot) cycle ↔ InService db slot cycle) := by
    intro slot cycle other
    have same : retireSlotsOf activity.id slot = slot := by simp [retireSlotsOf,other]
    have kept : (setActivity db {activity with retired := true}).activity? slot.activityId = db.activity? slot.activityId := by
      rw [activities]
      cases there : db.activity? slot.activityId with
      | none => rfl
      | some found_ =>
        have apart : ¬ found_.id = activity.id := fun equal => other ((find_key there).2.symm.trans equal)
        simp [apart]
    rw [same]
    unfold InService
    change (∃ a, (setActivity db {activity with retired := true}).activity? slot.activityId = some a ∧ _) ↔ _
    rw [kept]
    rfl
  refine .single (@TimetableMove.windDown cal db _ (retireSlotsOf activity.id) _ ⟨rfl,rfl,rfl,rfl,rfl,rfl,setActivity_ids db _,rfl,shape,?_,?_,?_,?_,?_⟩)
  · rintro slot ⟨found_,cycle,planned,there⟩
    have changed := (activities slot.activityId).trans (congrArg _ planned)
    by_cases same : found_.id = activity.id
    · have equal : activity = found_ := by
        rw [← (find_key planned).2,same,known] at planned
        exact Option.some.inj planned
      exact ⟨{activity with retired := true},cycle,changed.trans (by simp [same]),equal ▸ there⟩
    · exact ⟨found_,cycle,changed.trans (by simp [same]),there⟩
  · intro slot cycle service
    by_cases own : slot.activityId = activity.id
    · exact absurd service (out slot cycle own)
    · exact (stays slot cycle own).mp service
  · intro row which
    exact of_decide_eq_true (Bool.and_eq_true_iff.mp which).2
  · intro row slot _ linked which cycle
    have own := (Bool.and_eq_true_iff.mp which).1
    exact out slot cycle (linked ▸ by simpa using own)
  · intro row slot cycle _ linked ahead service gone
    have own : slot.activityId = activity.id := by
      by_contra other
      exact gone ((stays slot cycle other).mpr service)
    exact Bool.and_eq_true_iff.mpr ⟨decide_eq_true (linked.trans own),decide_eq_true ahead⟩

theorem setSlot_member {db : Database} {slot : StructuralMasterSlot} {other : StructuralMasterSlot}
    (member : other ∈ (setSlot db slot).slots) : other = slot ∨ other ∈ db.slots ∧ other.id ≠ slot.id := by
  obtain ⟨old,stored,rfl⟩ := List.mem_map.mp member
  split
  · exact .inl rfl
  · rename_i different
    exact .inr ⟨stored,different⟩

theorem retireMasterSlot_moves {db next : Database} (keys : Keys db) {slotId : Nat} {currentUser : User} {result : RetireResult}
    (done : retireMasterSlot db slotId currentUser = .ok (next,result)) : TimetableMoves cal db next := by
  obtain ⟨slot,known,rfl⟩ := retireMasterSlot_parts done
  obtain ⟨stored,rfl⟩ := find_key known
  have whole : setSlot db {slot with retired := true} = {db with
      slots := db.slots.map (fun s => if s.id = slot.id then {s with retired := true} else s)} := by
    unfold setSlot
    congr 1
    apply List.map_congr_left
    intro other member
    split
    · rename_i same
      rw [same_of_key keys.slots member stored same]
    · rfl
  rw [whole]
  refine .single (@TimetableMove.windDown cal db _ (fun s => if s.id = slot.id then {s with retired := true} else s) _
    ⟨rfl,rfl,rfl,rfl,rfl,rfl,rfl,rfl,?_,fun _ anchored => anchored,?_,?_,?_,?_⟩)
  · intro other
    split
    · exact .inr rfl
    · exact .inl rfl
  · intro other cycle service
    split at service
    · obtain ⟨_,_,_,live,_⟩ := service
      cases live
    · exact service
  · intro row which
    exact of_decide_eq_true (Bool.and_eq_true_iff.mp which).2
  · rintro row other of _ which cycle ⟨_,_,_,live,_⟩
    have own := (Bool.and_eq_true_iff.mp which).1
    have same : other.id = slot.id := by simpa [of] using own
    simp [same] at live
  · intro row other cycle of _ ahead service gone
    have same : other.id = slot.id := by
      by_contra different
      rw [if_neg different] at gone
      exact gone service
    simp [plannedFor,of,same,ahead]

theorem cloneSlots_moves {newCycle : PlanningCycle} {activity : Activity} (closed : newCycle.operationalStatus = false)
    (slots : List StructuralMasterSlot) (db : Database) (known : db.cycle? newCycle.id = some newCycle)
    (made : db.activity? activity.id = some activity) (into : activity.cycleId = newCycle.id) (listed : ∀ slot ∈ slots, slot ∈ db.slots) :
    TimetableMoves cal db (slots.foldl (cloneSlot cal newCycle activity.id) db) := by
  induction slots generalizing db with
  | nil => exact .refl
  | cons slot rest ih =>
    refine .head (.slot (nextId_notMem _) ⟨activity,newCycle,made,into ▸ known⟩ ?_ ?_) (ih _ known made
      (fun other later => List.mem_append_left _ (listed other (List.mem_cons_of_mem _ later))))
    rotate_left
    · exact fun room here => .inr ⟨slot,listed slot (List.mem_cons_self ..),here⟩
    rintro cycle ⟨found_,there,of,_,_,service⟩
    rw [made] at there
    cases Option.some.inj there
    rw [into,known] at of
    cases Option.some.inj of
    rw [closed] at service
    cases service

theorem cloneSlots_cycles (newCycle : PlanningCycle) (activityId : Nat) (slots : List StructuralMasterSlot) (db : Database) :
    (slots.foldl (cloneSlot cal newCycle activityId) db).cycles = db.cycles := by
  induction slots generalizing db with
  | nil => rfl
  | cons slot rest ih => exact ih _

theorem cloneOfferings_moves {newCycle : PlanningCycle} (closed : newCycle.operationalStatus = false) (offerings : List Activity)
    (db : Database) (known : db.cycle? newCycle.id = some newCycle) :
    TimetableMoves cal db (offerings.foldl (cloneOffering cal newCycle) db) := by
  induction offerings generalizing db with
  | nil => exact .refl
  | cons offering rest ih =>
    have one : TimetableMoves cal db (cloneOffering cal newCycle db offering) :=
      .head (.activity (nextId_notMem _)) (cloneSlots_moves closed _ _ known (find_new Activity.id (nextId_notMem _)) rfl
        (fun slot member => (List.mem_filter.mp member).1))
    refine one.trans (ih _ ?_)
    have cycles : (cloneOffering cal newCycle db offering).cycles = db.cycles := cloneSlots_cycles _ _ _ _
    rw [Database.cycle?,cycles]
    exact known

theorem cloneCycleOfferings_moves {db next : Database} {oldId newId : Nat} {currentUser : User} {view : CloneView}
    (done : cloneCycleOfferings cal db oldId newId currentUser = .ok (next,view)) : TimetableMoves cal db next := by
  obtain ⟨cycle,offerings,known,closed,rfl⟩ := cloneCycleOfferings_parts done
  obtain ⟨_,rfl⟩ := find_key known
  exact cloneOfferings_moves closed _ db known

theorem createActivity_moves {db next : Database} {payload : ActivityCreate} {currentUser : User} {activity : Activity}
    (done : createActivity db payload currentUser = .ok (next,activity)) : TimetableMoves cal db next := by
  obtain ⟨rfl,fresh⟩ := createActivity_parts done
  exact .single (.activity (fresh ▸ nextId_notMem _))

theorem updateActivity_moves {db next : Database} {activityId : Nat} {activityTitle : String} {currentUser : User} {activity : Activity}
    (done : updateActivity db activityId activityTitle currentUser = .ok (next,activity)) : TimetableMoves cal db next := by
  obtain ⟨old,known,rfl⟩ := updateActivity_parts done
  obtain ⟨_,rfl⟩ := find_key known
  exact .single (@TimetableMove.retitle cal db old _ known rfl rfl)

theorem refuseIfHeld_parts {db : Database} {cycle : PlanningCycle} {claim : Claim} {done : Unit} :
    refuseIfHeld cal db cycle claim = .ok done ↔ (cycle.operationalStatus = true → heldFor cal db cycle claim = []) := by
  unfold refuseIfHeld
  split
  · rename_i closed
    simp [closed]
  · rename_i service
    simp at service
    simp [service]

theorem refuseIfScheduled_parts {db : Database} {cycle : PlanningCycle} {claim : Claim} {slotId : Option Nat} {done : Unit} :
    refuseIfScheduled cal db cycle claim slotId = .ok done ↔
      (cycle.operationalStatus = true → scheduledFor cal db cycle claim slotId = []) := by
  unfold refuseIfScheduled
  split
  · rename_i closed
    simp [closed]
  · rename_i service
    simp at service
    simp [service]

-- What the three refusals let through, in an open cycle.
theorem refuseIfTaken_clear {db : Database} {cycle : PlanningCycle} {claim : Claim} {slotId : Option Nat} {done : Unit}
    (free : refuseIfTaken cal db cycle claim slotId = .ok done) (service : cycle.operationalStatus = true) :
    ClearOf cal db cycle claim slotId := by
  unfold refuseIfTaken at free
  simp only [bind_parts] at free
  obtain ⟨_,held,_,scheduled,days⟩ := free
  exact checks_clear (refuseIfHeld_parts.mp held service) (refuseIfScheduled_parts.mp scheduled service) (ensure_parts.mp days)

theorem setSlot_again (db : Database) (moved : StructuralMasterSlot) : setSlot (setSlot db moved) moved = setSlot db moved := by
  unfold setSlot
  simp only [List.map_map]
  congr 1
  apply List.map_congr_left
  intro other _
  simp only [Function.comp_apply]
  split <;> simp_all

theorem relocate_again (db : Database) (moved : StructuralMasterSlot) : relocate (setSlot db moved) moved = relocate db moved := by
  unfold relocate
  rw [setSlot_again]

theorem setSlot_stored {db : Database} {slot moved : StructuralMasterSlot} (stored : slot ∈ db.slots) (same : slot.id = moved.id) :
    moved ∈ (setSlot db moved).slots := List.mem_map.mpr ⟨slot,stored,if_pos same⟩

section
variable {sha256 strip : String → String} {settings : LedgerSettings} {db next : Database} {currentUser : User}

def madeSlot (db : Database) (payload : MasterSlotCreate) (dtstart : Int) (room : Nat) : StructuralMasterSlot :=
  ⟨nextId (db.slots.map StructuralMasterSlot.id),payload.rrule,dtstart,payload.timeWindowStart,payload.timeWindowEnd,
    payload.activityId,payload.primaryLeadId,some room,false⟩

theorem createMasterSlot_parts {payload : MasterSlotCreate} {view : SlotView}
    (done : createMasterSlot cal sha256 strip settings db payload currentUser = .ok (next,view)) :
    ∃ offering cycle dtstart room made, db.activity? payload.activityId = some offering ∧ db.cycle? offering.cycleId = some cycle ∧
      getOrCreateRoom strip payload.targetRoomIdentifier db = (room,made) ∧
      (cycle.operationalStatus = true → ClearOf cal made cycle (claimOf (madeSlot made payload dtstart room.id)) none) ∧
      next = fillHorizon cal settings {made with slots := made.slots ++ [madeSlot made payload dtstart room.id]} offering.cycleId := by
  unfold createMasterSlot at done
  simp only [bind_parts,found_parts] at done
  obtain ⟨_,_,offering,known,_,_,_,_,_,_,cycle,found_,dtstart,_,_,_,_,free,answered⟩ := done
  cases answered
  exact ⟨offering,cycle,dtstart,_,_,known,found_,rfl,refuseIfTaken_clear free,rfl⟩

theorem createMasterSlot_moves {payload : MasterSlotCreate} {view : SlotView}
    (done : createMasterSlot cal sha256 strip settings db payload currentUser = .ok (next,view)) : TimetableMoves cal db next := by
  obtain ⟨offering,cycle,dtstart,room,made,known,found_,roomed,clear,rfl⟩ := createMasterSlot_parts done
  have first := @room_moves cal strip payload.targetRoomIdentifier db
  obtain ⟨resources,same⟩ := room_parts strip payload.targetRoomIdentifier db
  have there := room_there strip payload.targetRoomIdentifier db
  rw [roomed] at first same there
  dsimp only at same there
  subst same
  refine (first.tail (@TimetableMove.slot cal _ (madeSlot _ payload dtstart room.id) (nextId_notMem _)
    ⟨offering,cycle,known,found_⟩ ?_ (fun id here => .inl (Option.some.inj here ▸ there)))).trans (materializeHorizon_moves _ _ _)
  rintro other ⟨activity,planned,there,_,_,service⟩
  have equal : activity = offering := Option.some.inj (planned.symm.trans known)
  rw [equal] at there
  cases Option.some.inj (there.symm.trans found_)
  exact clear service

-- The slot as an update leaves it.
def movedSlot (slot : StructuralMasterSlot) (payload : MasterSlotUpdate) (rule : String) (dtstart : Int)
    (resourceId : Option Nat) : StructuralMasterSlot :=
  {slot with
    rrule := rule
    dtstart := dtstart
    timeWindowStart := payload.timeWindowStart.getD slot.timeWindowStart
    timeWindowEnd := payload.timeWindowEnd.getD slot.timeWindowEnd
    primaryLeadId := payload.primaryLeadId.getD slot.primaryLeadId
    resourceId := resourceId}

theorem askedRoom_parts {slot : StructuralMasterSlot} {code : Option String} {resourceId : Option Nat} {made : Database}
    (asked : askedRoom strip db slot code currentUser = .ok (resourceId,made)) :
    TimetableMoves cal db made ∧ (∃ resources, made = {db with resources := resources}) ∧
      (code = none ∧ resourceId = slot.resourceId ∧ made = db ∨ ∃ code', code = some code' ∧
        resourceId = some (getOrCreateRoom strip code' db).1.id ∧ made = (getOrCreateRoom strip code' db).2) := by
  unfold askedRoom at asked
  split at asked
  · cases asked
    exact ⟨.refl,⟨db.resources,rfl⟩,.inl ⟨rfl,rfl,rfl⟩⟩
  · rename_i code
    simp only [bind_parts] at asked
    obtain ⟨_,_,kept⟩ := asked
    cases kept
    exact ⟨room_moves strip code db,room_parts strip code db,.inr ⟨code,rfl,rfl,rfl⟩⟩

-- A withdrawal is granted when none of the days ahead is in use.
theorem withdrawPlannedDays_parts {slot : StructuralMasterSlot} {why : String} {removed : Nat} :
    withdrawPlannedDays db slot why = .ok (next,removed) ↔ idleAhead db slot.id ∧ next = dropDays db (plannedFor db slot.id) ∧
      removed = (db.ledger.filter (plannedFor db slot.id)).length := by
  have idle : rowsInUse db ((db.ledger.filter (plannedFor db slot.id)).map DailyLedger.id) = [] ↔ idleAhead db slot.id := by
    simp only [rowsInUse,idleAhead,List.filter_eq_nil_iff,List.mem_map,List.mem_filter,Bool.not_eq_true]
    constructor
    · intro free row member planned
      exact free row.id ⟨row,⟨member,planned⟩,rfl⟩
    · rintro free _ ⟨row,⟨member,planned⟩,rfl⟩
      exact free row member planned
  simp only [withdrawPlannedDays,bind_parts,ensure_parts,idle,Except.ok.injEq,Prod.mk.injEq]
  constructor
  · intro ⟨_,free,dropped,counted⟩
    exact ⟨free,dropped.symm,counted.symm⟩
  · intro ⟨free,dropped,counted⟩
    exact ⟨(),free,dropped.symm,counted.symm⟩

theorem withdrawOldRule_parts {slot : StructuralMasterSlot} {rule : String} {dtstart : Int} {removed : Nat}
    (withdrawn : withdrawOldRule db slot rule dtstart = .ok (next,removed)) :
    rule = slot.rrule ∧ dtstart = slot.dtstart ∧ next = db ∨
      (rule,dtstart) ≠ (slot.rrule,slot.dtstart) ∧ idleAhead db slot.id ∧ next = dropDays db (plannedFor db slot.id) := by
  unfold withdrawOldRule at withdrawn
  split at withdrawn
  · rename_i same
    cases withdrawn
    cases same
    exact .inl ⟨rfl,rfl,rfl⟩
  · rename_i different
    obtain ⟨idle,dropped,_⟩ := withdrawPlannedDays_parts.mp withdrawn
    exact .inr ⟨different,idle,dropped⟩

theorem updateMasterSlot_parts {slotId : Nat} {payload : MasterSlotUpdate} {view : SlotUpdateView}
    (done : updateMasterSlot cal sha256 strip db slotId payload currentUser = .ok (next,view)) :
    ∃ slot activity cycle rule dtstart resourceId made withdrawn removed, db.slot? slotId = some slot ∧
      db.activity? slot.activityId = some activity ∧ db.cycle? activity.cycleId = some cycle ∧
      changedRule cal slot cycle payload = .ok (rule,dtstart) ∧
      askedRoom strip db slot payload.targetRoomIdentifier currentUser = .ok (resourceId,made) ∧
      (claimOf (movedSlot slot payload rule dtstart resourceId) ≠ claimOf slot → cycle.operationalStatus = true →
        ClearOf cal made cycle (claimOf (movedSlot slot payload rule dtstart resourceId)) (some slot.id)) ∧
      withdrawOldRule made slot rule dtstart = .ok (withdrawn,removed) ∧
      next = relocate withdrawn (movedSlot slot payload rule dtstart resourceId) := by
  unfold updateMasterSlot at done
  simp only [bind_parts,found_parts] at done
  obtain ⟨_,_,slot,known,activity,planned,_,_,_,_,_,_,_,_,cycle,found_,⟨rule,dtstart⟩,changed,⟨resourceId,made⟩,asked,_,free,
    ⟨withdrawn,removed⟩,dropped,answered⟩ := done
  cases answered
  refine ⟨slot,activity,cycle,rule,dtstart,resourceId,made,withdrawn,removed,known,planned,found_,changed,asked,?_,dropped,rfl⟩
  intro moves service
  split at free
  · rename_i same
    exact absurd same moves
  · exact refuseIfTaken_clear free service

theorem updateMasterSlot_moves {slotId : Nat} {payload : MasterSlotUpdate} {view : SlotUpdateView}
    (done : updateMasterSlot cal sha256 strip db slotId payload currentUser = .ok (next,view)) : TimetableMoves cal db next := by
  obtain ⟨slot,activity,cycle,rule,dtstart,resourceId,made,withdrawn,_,known,planned,found_,_,asked,clear,dropped,rfl⟩ :=
    updateMasterSlot_parts done
  obtain ⟨first,⟨resources,rfl⟩,placed⟩ := askedRoom_parts asked
  obtain ⟨stored,rfl⟩ := find_key known
  have housed : Housed {db with resources := resources} (movedSlot slot payload rule dtstart resourceId) := by
    intro room here
    rcases placed with ⟨_,rfl,_⟩ | ⟨code,_,rfl,made⟩
    · exact .inr ⟨slot,stored,here⟩
    · cases Option.some.inj here
      have there := room_there strip code db
      rw [← made] at there
      exact .inl there
  -- In service the slot's cycle is the one the checks were made for.
  have checked : claimOf (movedSlot slot payload rule dtstart resourceId) ≠ claimOf slot → ∀ other, InService db slot other →
      ClearOf cal {db with resources := resources} other (claimOf (movedSlot slot payload rule dtstart resourceId)) (some slot.id) := by
    rintro moves other ⟨activity',planned',found',_,_,service⟩
    cases Option.some.inj (planned'.symm.trans planned)
    cases Option.some.inj (found'.symm.trans found_)
    exact clear moves service
  refine first.trans ?_
  rcases withdrawOldRule_parts dropped with ⟨rfl,rfl,rfl⟩ | ⟨changed,idle,rfl⟩
  · exact .single (@TimetableMove.relocate cal {db with resources := resources} slot _ stored rfl rfl rfl rfl rfl checked housed)
  · have moves : claimOf (movedSlot slot payload rule dtstart resourceId) ≠ claimOf slot := by
      intro same
      simp only [claimOf,movedSlot,Claim.mk.injEq] at same
      exact changed (by rw [same.2.1,same.2.2.1])
    have restart := @TimetableMove.restart cal {db with resources := resources} slot (movedSlot slot payload rule dtstart resourceId)
      stored rfl rfl rfl idle (checked moves) housed
    rw [← relocate_again]
    exact .head restart (.single (.relocate (setSlot_stored stored rfl) rfl rfl rfl rfl rfl (fun other => absurd rfl other)
      (fun room here => .inr ⟨_,setSlot_stored stored rfl,here⟩)))

theorem deleteSlot_parts {slot : StructuralMasterSlot} {deletion : Deletion} (done : deleteSlot db slot = .ok (next,deletion)) :
    idleAhead db slot.id ∧ next = remove db slot.id := by
  unfold deleteSlot at done
  rw [bind_parts] at done
  obtain ⟨⟨withdrawn,removed⟩,dropped,kept⟩ := done
  obtain ⟨idle,rfl,_⟩ := withdrawPlannedDays_parts.mp dropped
  cases kept
  exact ⟨idle,rfl⟩

theorem deleteMasterSlot_removes {slotId : Nat} {deletion : Deletion}
    (done : deleteMasterSlot db slotId currentUser = .ok (next,deletion)) : SlotRemovals db next := by
  unfold deleteMasterSlot at done
  simp only [bind_parts,found_parts] at done
  obtain ⟨_,_,slot,_,activity,_,_,_,_,_,deleted⟩ := done
  obtain ⟨idle,rfl⟩ := deleteSlot_parts deleted
  exact .single (.remove idle)

theorem updateLedgerEntry_parts {ledgerId : Nat} {payload : DailyLedgerUpdate} {answered : Unit}
    (done : updateLedgerEntry db ledgerId payload currentUser = .ok (next,answered)) :
    ∃ entry, db.day? ledgerId = some entry ∧ next = setDay db (editedDay payload entry) := by
  unfold updateLedgerEntry at done
  simp only [bind_parts,found_parts] at done
  obtain ⟨_,_,entry,known,activity,_,_,_,rest⟩ := done
  refine ⟨entry,known,?_⟩
  split at rest
  · simp only [bind_parts] at rest
    obtain ⟨_,_,kept⟩ := rest
    cases kept
    rfl
  · cases rest
    rfl

-- An edit of a day leaves its date, its window, its room and its slot.
theorem updateLedgerEntry_core (keys : Keys db) {ledgerId : Nat} {payload : DailyLedgerUpdate} {answered : Unit}
    (done : updateLedgerEntry db ledgerId payload currentUser = .ok (next,answered)) : next.ledger.map core = db.ledger.map core := by
  obtain ⟨entry,known,rfl⟩ := updateLedgerEntry_parts done
  simp only [setDay,List.map_map]
  apply List.map_congr_left
  intro row member
  simp only [Function.comp_apply]
  split
  · rename_i same
    rw [same_of_key keys.days member (find_key known).1 same]
    rfl
  · rfl

theorem updateLedgerEntry_moves (keys : Keys db) {ledgerId : Nat} {payload : DailyLedgerUpdate} {answered : Unit}
    (done : updateLedgerEntry db ledgerId payload currentUser = .ok (next,answered)) : TimetableMoves cal db next := by
  have cores := updateLedgerEntry_core keys done
  obtain ⟨entry,_,rfl⟩ := updateLedgerEntry_parts done
  exact .single (.aside ⟨rfl,rfl,rfl,rfl,rfl,rfl,rfl,rfl,cores⟩)

theorem leaveDay_core (log : ReverseRsvpLog) (state : LogVerificationState) (row : DailyLedger) : core (leaveDay log state row) = core row := by
  unfold leaveDay
  split
  · split
    · rfl
    · split <;> rfl
  · rfl

theorem decideAbsence_moves {logId : Nat} {decision : LogVerificationState} {answered : Unit}
    (done : decideAbsence db logId decision currentUser = .ok (next,answered)) : TimetableMoves cal db next := by
  obtain ⟨log,_,rfl⟩ := decideAbsence_parts done
  unfold commitAbsenceOverride
  split
  · exact .refl
  · refine .single (.aside ⟨rfl,rfl,rfl,rfl,rfl,rfl,rfl,rfl,?_⟩)
    rw [List.map_map]
    exact List.map_congr_left (fun row _ => leaveDay_core _ _ row)

theorem submitAbsence_moves {payload : ReverseRsvpCreate} {log : ReverseRsvpLog}
    (done : routeAbsenceDeclaration db payload currentUser = .ok (next,log)) : TimetableMoves cal db next := by
  obtain ⟨rfl,_,_⟩ := routeAbsenceDeclaration_parts done
  exact .single (.aside ⟨rfl,rfl,rfl,rfl,rfl,rfl,rfl,rfl,rfl⟩)

-- Marking adds a mark or corrects the status of one, and touches nothing else.
theorem writeMark_moves (existing : List VerificationLedger) (ledgerId : Nat) (agentId : String) (record : AttendanceMarkRequest) :
    TimetableMoves cal db (writeMark existing ledgerId agentId db record) := by
  unfold writeMark
  split
  · exact .single (.mark (fun mark member => ⟨mark,List.mem_append_left _ member,rfl,rfl,rfl⟩) (fun _ member => member))
  · split
    · exact .refl
    · refine .single (.mark (fun mark member => ⟨_,List.mem_map_of_mem member,?_⟩) (fun _ member => member))
      split <;> exact ⟨rfl,rfl,rfl⟩

theorem writeMarks_moves (ledgerId : Nat) (agentId : String) (records : List AttendanceMarkRequest) :
    TimetableMoves cal db (writeMarks db ledgerId records agentId) := by
  have general : ∀ (existing : List VerificationLedger) (records : List AttendanceMarkRequest) (db : Database),
      TimetableMoves cal db (records.foldl (writeMark existing ledgerId agentId) db) := by
    intro existing records
    induction records with
    | nil => exact fun _ => .refl
    | cons record rest ih => exact fun db => (writeMark_moves existing ledgerId agentId record).trans (ih _)
  exact general _ _ db

theorem markAttendance_moves {payload : AttendanceMarkRequest} {fence : Answer Unit} {answered : Unit}
    (done : markAttendance db payload fence currentUser = .ok (next,answered)) : TimetableMoves cal db next := by
  obtain ⟨ledgerId,rfl⟩ := markAttendance_parts done
  exact writeMarks_moves _ _ _

theorem batchMarkAttendance_moves {ledgerInstanceId count : Nat} {records : List AttendanceMarkRequest}
    (done : batchMarkAttendance db ledgerInstanceId records currentUser = .ok (next,count)) : TimetableMoves cal db next := by
  obtain ⟨ledgerId,rfl⟩ := batchMarkAttendance_parts done
  exact writeMarks_moves _ _ _

theorem createAnnotation_moves {payload : AnnotationCreate} {note : LedgerAnnotation}
    (done : createAnnotation db payload currentUser = .ok (next,note)) : TimetableMoves cal db next := by
  cases createAnnotation_parts done
  exact .single (.mark (fun mark member => ⟨mark,member,rfl,rfl,rfl⟩) (fun _ member => List.mem_append_left _ member))

end

end ChronosLedger
