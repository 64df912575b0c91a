import ChronosLedger.Ingestion
import ChronosLedger.TimetableRuns

namespace ChronosLedger
open Spans

variable {cal : Recurrence} {reading : Reading}

-- What an import would leave if it stopped here: the slots corrected so far,
-- with the days ahead of them brought along. The program brings them along once
-- at the end; seen this way each line is a sequence of moves of its own.
def caughtUp (db : Database) (corrected : List Nat) : Database :=
  (propagateSlotCorrections db (corrected.filterMap db.slot?)).1

theorem find_corrected (db : Database) (corrected : List Nat) (id : Nat) :
    (corrected.filterMap db.slot?).find? (fun slot => slot.id = id) = if id ∈ corrected then db.slot? id else none := by
  induction corrected with
  | nil => rfl
  | cons head rest ih =>
    cases known : db.slot? head with
    | none =>
      rw [List.filterMap_cons_none known,ih]
      by_cases here : id = head
      · subst here
        simp [known]
      · simp [here]
    | some slot =>
      rw [List.filterMap_cons_some known]
      have named : slot.id = head := (find_key known).2
      by_cases here : head = id
      · subst here
        simp [named,known]
      · have other : ¬ id = head := fun same => here same.symm
        rw [List.find?_cons_of_neg (by simpa [named] using here),ih]
        simp [other]

-- The correction waiting for a day, if its slot is one of the corrected.
def correction (db : Database) (corrected : List Nat) (row : DailyLedger) : Option StructuralMasterSlot :=
  row.masterSlotId.bind (fun id => if id ∈ corrected then db.slot? id else none)

def caughtUpDay (db : Database) (corrected : List Nat) (row : DailyLedger) : DailyLedger :=
  match correction db corrected row with
  | none => row
  | some slot => if db.orgToday < row.targetDate ∧ inUse db row.id = false then correctedDay slot row else row

theorem caughtUp_parts (db : Database) (corrected : List Nat) :
    caughtUp db corrected = {db with ledger := db.ledger.map (caughtUpDay db corrected)} := by
  unfold caughtUp propagateSlotCorrections
  dsimp only
  congr 1
  apply List.map_congr_left
  intro row _
  have same : slotOf (corrected.filterMap db.slot?) row = correction db corrected row := by
    unfold slotOf correction
    cases row.masterSlotId with
    | none => rfl
    | some id => exact find_corrected db corrected id
  unfold propagateDay caughtUpDay
  cases next : correction db corrected row <;> simp only [same,next]

theorem caughtUpDay_fixed {db : Database} {corrected : List Nat} {row : DailyLedger}
    (fixed : Fixed (caughtUp db corrected) (caughtUpDay db corrected row)) : caughtUpDay db corrected row = row := by
  unfold caughtUpDay at fixed ⊢
  split
  · rfl
  · rename_i slot waiting
    rw [waiting] at fixed
    dsimp only at fixed
    split
    · rename_i moves
      rw [if_pos moves] at fixed
      unfold Fixed at fixed
      rw [correctedDay_id,correctedDay_date] at fixed
      rcases fixed with used | today
      · exact absurd used (by rw [show inUse (caughtUp db corrected) row.id = inUse db row.id from rfl,moves.2]; decide)
      · exact absurd today (ne_of_gt moves.1)
    · rfl

theorem caughtUp_clear {db : Database} {corrected : List Nat} {cycle : PlanningCycle} {claim : Claim} {slotId : Option Nat}
    (clear : ClearOf cal db cycle claim slotId) : ClearOf cal (caughtUp db corrected) cycle claim slotId where
  holds := clear.holds
  slots := clear.slots
  days := by
    intro other here fixed ahead apart day dated
    rw [caughtUp_parts] at here
    obtain ⟨row,stored,same⟩ := List.mem_map.mp here.1
    rw [← same] at fixed
    have kept := (caughtUpDay_fixed fixed).symm.trans same
    have there : OnRoom db claim.resourceId other := ⟨kept ▸ stored,here.2⟩
    exact clear.days other there (by rw [← same,caughtUpDay_fixed fixed] at *; exact fixed) ahead apart day dated

theorem upsertMember_parts {s next : ImportState} {row : CsvRow} (done : upsertMember reading s row = .ok next) :
    ∃ users provisioned, next = {s with db := {s.db with users := users},provisioned := provisioned} := by
  unfold upsertMember at done
  dsimp only at done
  split at done
  · split at done
    · cases done
    · split at done
      · cases done
      · cases done
        exact ⟨_,_,rfl⟩
  · split at done
    · cases done
    · split at done
      · cases done
        exact ⟨_,_,rfl⟩
      · split at done
        · split at done
          · cases done
            exact ⟨_,_,rfl⟩
          · cases done
        · cases done
          exact ⟨_,_,rfl⟩

theorem upsertOffering_parts {db next : Database} {cycleId : Nat} {row : CsvRow} {offering : Activity}
    (done : upsertOffering db cycleId row = .ok (next,offering)) (activities : (db.activities.map Activity.id).Nodup) :
    offering.cycleId = cycleId ∧ next.activity? offering.id = some offering ∧
      (offering.id ∉ db.activities.map Activity.id ∧ next = {db with activities := db.activities ++ [offering]} ∨
        ∃ old, db.activity? offering.id = some old ∧ offering.cycleId = old.cycleId ∧ offering.retired = old.retired ∧
          next = setActivity db offering) := by
  unfold upsertOffering at done
  split at done
  · cases done
    exact ⟨rfl,find_new Activity.id (nextId_notMem _),.inl ⟨nextId_notMem _,rfl⟩⟩
  · rename_i old found_
    split at done
    · cases done
    · have known := find_of_mem activities (List.mem_of_find?_eq_some found_)
      have here : db.activity? old.id = some old := known
      have named := List.find?_some found_
      simp only [decide_eq_true_eq] at named
      cases done
      refine ⟨named.1,?_,.inr ⟨old,here,rfl,rfl,rfl⟩⟩
      rw [setActivity_activity,here]
      simp

theorem caughtUp_member (db : Database) (corrected : List Nat) (users : List User) :
    TimetableMove cal (caughtUp db corrected) (caughtUp {db with users := users} corrected) :=
  .aside ⟨rfl,rfl,rfl,rfl,rfl,rfl,rfl,rfl,rfl⟩

theorem caughtUp_enroll (db : Database) (corrected : List Nat) (activityId : Nat) (memberId : String) :
    TimetableMove cal (caughtUp db corrected) (caughtUp (enroll db activityId memberId) corrected) := by
  unfold enroll
  split
  · exact .aside (Aside.refl _)
  · exact .aside ⟨rfl,rfl,rfl,rfl,rfl,rfl,rfl,rfl,rfl⟩

theorem caughtUp_room (strip : String → String) (code : String) (db : Database) (corrected : List Nat) :
    TimetableMoves cal (caughtUp db corrected) (caughtUp (getOrCreateRoom strip code db).2 corrected) := by
  unfold getOrCreateRoom
  split
  · exact .refl
  · exact .single (@TimetableMove.room cal (caughtUp db corrected) _ (nextId_notMem _))

theorem caughtUp_append {db : Database} {corrected : List Nat} (known : ∀ id ∈ corrected, id ∈ db.slots.map StructuralMasterSlot.id)
    (made : StructuralMasterSlot) : caughtUp {db with slots := db.slots ++ [made]} corrected =
      {caughtUp db corrected with slots := db.slots ++ [made]} := by
  have same : corrected.filterMap ({db with slots := db.slots ++ [made]} : Database).slot? = corrected.filterMap db.slot? := by
    apply List.filterMap_congr
    intro id member
    obtain ⟨slot,stored,rfl⟩ := List.mem_map.mp (known id member)
    cases here : db.slot? slot.id with
    | none => exact absurd (List.find?_eq_none.mp here slot stored) (by simp)
    | some found_ => exact find_append here
  unfold caughtUp
  rw [same]
  rfl

theorem setSlot_slot (db : Database) (slot : StructuralMasterSlot) (id : Nat) :
    (setSlot db slot).slot? id = (db.slot? id).map (fun s => if s.id = slot.id then slot else s) := by
  refine find_map (fun s => ?_) db.slots id
  split
  · rename_i same; exact same.symm
  · rfl

theorem core_correctedDay (slot : StructuralMasterSlot) {one two : DailyLedger} (same : one.id = two.id)
    (date : one.targetDate = two.targetDate) (of : one.masterSlotId = two.masterSlotId) (activity : one.activityId = two.activityId) :
    core (correctedDay slot one) = core (correctedDay slot two) := by
  unfold correctedDay core
  dsimp only
  split <;> split <;> simp [same,date,of,activity]

@[simp] theorem caughtUpDay_id (db : Database) (corrected : List Nat) (row : DailyLedger) : (caughtUpDay db corrected row).id = row.id := by
  unfold caughtUpDay
  split
  · rfl
  · split <;> simp
@[simp] theorem caughtUpDay_date (db : Database) (corrected : List Nat) (row : DailyLedger) :
    (caughtUpDay db corrected row).targetDate = row.targetDate := by
  unfold caughtUpDay
  split
  · rfl
  · split <;> simp
@[simp] theorem caughtUpDay_slot (db : Database) (corrected : List Nat) (row : DailyLedger) :
    (caughtUpDay db corrected row).masterSlotId = row.masterSlotId := by
  unfold caughtUpDay
  split
  · rfl
  · split <;> simp
@[simp] theorem caughtUpDay_activity (db : Database) (corrected : List Nat) (row : DailyLedger) :
    (caughtUpDay db corrected row).activityId = row.activityId := by
  unfold caughtUpDay
  split
  · rfl
  · split <;> simp

-- A correction more is a relocation, whatever was waiting for the slot before.
theorem caughtUp_correct {db : Database} {corrected now : List Nat} {slot moved : StructuralMasterSlot} (known : db.slot? moved.id = some slot)
    (listed : ∀ id, id ∈ now ↔ id ∈ corrected ∨ id = moved.id) :
    Aside (relocate (caughtUp db corrected) moved) (caughtUp (setSlot db moved) now) := by
  have others : ∀ id, id ≠ moved.id → (setSlot db moved).slot? id = db.slot? id := by
    intro id different
    rw [setSlot_slot]
    cases here : db.slot? id with
    | none => rfl
    | some found_ =>
      have apart : ¬ found_.id = moved.id := fun same => different ((find_key here).2.symm.trans same)
      simp [apart]
  have own : (setSlot db moved).slot? moved.id = some moved := by
    rw [setSlot_slot,known]
    simp [show slot.id = moved.id from (find_key known).2]
  rw [relocate_parts,caughtUp_parts,caughtUp_parts]
  refine ⟨rfl,rfl,rfl,rfl,rfl,rfl,rfl,rfl,?_⟩
  simp only [List.map_map]
  apply List.map_congr_left
  intro row _
  simp only [Function.comp_apply]
  have use : ∀ id, inUse (setSlot db moved) id = inUse db id := fun _ => rfl
  have use' : ∀ rows id, inUse {db with ledger := rows} id = inUse db id := fun _ _ => rfl
  have today : (setSlot db moved).orgToday = db.orgToday := rfl
  by_cases mine : row.masterSlotId = some moved.id
  · have waiting : correction (setSlot db moved) now row = some moved := by
      simp [correction,mine,listed,own]
    have left : caughtUpDay (setSlot db moved) now row =
        if db.orgToday < row.targetDate ∧ inUse db row.id = false then correctedDay moved row else row := by
      simp [caughtUpDay,waiting,use,today]
    unfold relocated
    rw [left]
    simp only [caughtUpDay_slot,caughtUpDay_date,caughtUpDay_id,mine,true_and,use']
    split
    · exact core_correctedDay moved (by simp) (by simp) (by simp) (by simp)
    · rename_i stays
      unfold caughtUpDay
      split
      · rfl
      · rw [if_neg stays]
  · have waiting : correction (setSlot db moved) now row = correction db corrected row := by
      unfold correction
      cases of : row.masterSlotId with
      | none => rfl
      | some id =>
        have different : id ≠ moved.id := fun same => mine (by rw [of,same])
        simp [listed,different,others id different]
    have left : caughtUpDay (setSlot db moved) now row = caughtUpDay db corrected row := by
      unfold caughtUpDay
      rw [waiting]
      rfl
    unfold relocated
    rw [left,caughtUpDay_slot,if_neg (fun all => mine all.1)]

theorem cannotBePut_parts {activityCode : String} {room : Resource} {clashes : List BusyInterval} {describe : BusyInterval → String}
    {done : Unit} : cannotBePut activityCode room clashes describe = .ok done ↔ clashes = [] := by
  cases clashes <;> simp [cannotBePut]

theorem refuseText_parts {condition : Bool} {message : String} {done : Unit} :
    refuseText condition message = .ok done ↔ condition = false := by
  cases condition <;> simp [refuseText]

theorem foundText_parts {α : Type} {value : Option α} {message : String} {result : α} :
    foundText value message = .ok result ↔ value = some result := by
  cases value <;> simp [foundText]

theorem rowChecks_clear {db : Database} {cycle : PlanningCycle} {activityCode : String} {room : Resource} {claim : Claim}
    {slotId : Option Nat} {done : Unit} (free : rowChecks cal db cycle activityCode room claim slotId = .ok done)
    (service : cycle.operationalStatus = true) : ClearOf cal db cycle claim slotId := by
  unfold rowChecks at free
  rw [if_pos service] at free
  simp only [bind_parts,cannotBePut_parts] at free
  obtain ⟨_,held,_,scheduled,days⟩ := free
  exact checks_clear held scheduled days

def importedSlot (db : Database) (activityId : Nat) (row : CsvRow) (window : RowWindow) (dtstart : Int) (room : Nat) :
    StructuralMasterSlot :=
  ⟨nextId (db.slots.map StructuralMasterSlot.id),weeklyRule window.day,dtstart,window.start,window.finish,activityId,
    some row.leadId,some room,false⟩

def correctedSlot (slot : StructuralMasterSlot) (row : CsvRow) (window : RowWindow) (room : Nat) : StructuralMasterSlot :=
  {slot with timeWindowEnd := window.finish,primaryLeadId := some row.leadId,resourceId := some room}

-- The three things a line can come to: a slot of its own, a slot corrected, or
-- a slot that is already as the line has it.
theorem upsertSlot_parts {db next : Database} {cycle : PlanningCycle} {activityId slotId : Nat} {row : CsvRow} {window : RowWindow}
    {changed : Bool} (done : upsertSlot cal reading db cycle activityId row window = .ok (next,slotId,changed)) :
    ∃ room made, getOrCreateRoom reading.strip row.room db = (room,made) ∧
      ((matchedSlot db activityId (weeklyRule window.day) window.start = none ∧ ∃ dtstart,
          (cycle.operationalStatus = true →
            ClearOf cal made cycle (claimOf (importedSlot made activityId row window dtstart room.id)) none) ∧
          next = {made with slots := made.slots ++ [importedSlot made activityId row window dtstart room.id]} ∧ changed = false) ∨
        ∃ slot, matchedSlot db activityId (weeklyRule window.day) window.start = some slot ∧ slot.retired = false ∧ slotId = slot.id ∧
          (claimOf (correctedSlot slot row window room.id) ≠ claimOf slot → cycle.operationalStatus = true →
            ClearOf cal made cycle (claimOf (correctedSlot slot row window room.id)) (some slot.id)) ∧
          (changed = false ∧ next = made ∧ correctedSlot slot row window room.id = slot ∨
            changed = true ∧ next = setSlot made (correctedSlot slot row window room.id))) := by
  unfold upsertSlot at done
  simp only [bind_parts,refuseText_parts,foundText_parts] at done
  obtain ⟨_,unretired,dtstart,starts,_,free,lead,_,_,_,kept⟩ := done
  refine ⟨_,_,rfl,?_⟩
  cases found_ : matchedSlot db activityId (weeklyRule window.day) window.start with
  | none =>
    simp only [found_,Option.all_none,if_true,Option.map_none] at free kept
    cases kept
    exact .inl ⟨rfl,dtstart,rowChecks_clear free,rfl,rfl⟩
  | some slot =>
    have named := List.find?_some found_
    simp only [decide_eq_true_eq] at named
    simp only [found_,Option.any_some] at unretired
    have start : dtstart = slot.dtstart := by
      simp only [rowStart,found_,Except.ok.injEq] at starts
      exact starts.symm
    refine .inr ⟨slot,rfl,unretired,?_⟩
    simp only [found_,Option.all_some,Option.map_some] at free kept
    have clear : claimOf (correctedSlot slot row window (getOrCreateRoom reading.strip row.room db).1.id) ≠ claimOf slot →
        cycle.operationalStatus = true → ClearOf cal (getOrCreateRoom reading.strip row.room db).2 cycle
          (claimOf (correctedSlot slot row window (getOrCreateRoom reading.strip row.room db).1.id)) (some slot.id) := by
      intro moves service
      split at free
      · have same : claimOf (correctedSlot slot row window (getOrCreateRoom reading.strip row.room db).1.id) =
            ⟨some (getOrCreateRoom reading.strip row.room db).1.id,weeklyRule window.day,dtstart,window.start,window.finish⟩ := by
          simp [claimOf,correctedSlot,named.2.1,named.2.2,start]
        rw [same]
        exact rowChecks_clear free service
      · rename_i still
        simp only [Bool.or_eq_true,decide_eq_true_eq,not_or,not_not] at still
        refine absurd ?_ moves
        simp [claimOf,correctedSlot,still.1,still.2]
    split at kept
    · rename_i same
      cases kept
      exact ⟨rfl,clear,.inl ⟨rfl,rfl,same⟩⟩
    · cases kept
      exact ⟨rfl,clear,.inr ⟨rfl,rfl⟩⟩

theorem matchedSlot_stored {db : Database} {activityId : Nat} {rule : String} {start : Time} {slot : StructuralMasterSlot}
    (matched : matchedSlot db activityId rule start = some slot) :
    slot ∈ db.slots ∧ slot.activityId = activityId ∧ slot.rrule = rule ∧ slot.timeWindowStart = start := by
  have named := List.find?_some matched
  simp only [decide_eq_true_eq] at named
  exact ⟨(List.mem_insertionSort _).mp (List.mem_of_find?_eq_some matched),named⟩

-- Between two lines: the keys hold, the cycle is the one the file is for, and
-- only slots on record are waiting to be brought along.
structure Importing (cycle : PlanningCycle) (db : Database) (corrected : List Nat) : Prop where
  keys : Keys (caughtUp db corrected)
  cycle : db.cycle? cycle.id = some cycle
  known : ∀ id ∈ corrected, id ∈ db.slots.map StructuralMasterSlot.id

def noted (corrected : List Nat) (slotId : Nat) (changed : Bool) : List Nat :=
  if changed && !corrected.contains slotId then corrected ++ [slotId] else corrected

theorem mem_noted {corrected : List Nat} {slotId id : Nat} : id ∈ noted corrected slotId true ↔ id ∈ corrected ∨ id = slotId := by
  unfold noted
  split
  · simp
  · rename_i there
    have listed : slotId ∈ corrected := by simpa using there
    constructor
    · exact .inl
    · rintro (old | rfl)
      · exact old
      · exact listed

theorem upsertSlot_moves {db next : Database} {cycle : PlanningCycle} {offering : Activity} {slotId : Nat} {row : CsvRow}
    {window : RowWindow} {changed : Bool} {corrected : List Nat} (importing : Importing cycle db corrected)
    (offered : db.activity? offering.id = some offering) (inside : offering.cycleId = cycle.id)
    (done : upsertSlot cal reading db cycle offering.id row window = .ok (next,slotId,changed)) :
    TimetableMoves cal (caughtUp db corrected) (caughtUp next (noted corrected slotId changed)) ∧
      Importing cycle next (noted corrected slotId changed) := by
  obtain ⟨room,made,roomed,rest⟩ := upsertSlot_parts done
  have first := @caughtUp_room cal reading.strip row.room db corrected
  obtain ⟨resources,same⟩ := room_parts reading.strip row.room db
  have there := room_there reading.strip row.room db
  rw [roomed] at first same there
  dsimp only at first same there
  subst same
  have keys := importing.keys.moved first
  -- In service, a slot of the offering is in the cycle of the file.
  have service : ∀ slot other, slot.activityId = offering.id →
      InService (caughtUp {db with resources := resources} corrected) slot other → other = cycle ∧ cycle.operationalStatus = true := by
    rintro slot other own ⟨activity,planned,found_,_,_,open_⟩
    rw [own] at planned
    cases Option.some.inj (planned.symm.trans offered)
    rw [inside] at found_
    cases Option.some.inj (found_.symm.trans importing.cycle)
    exact ⟨rfl,open_⟩
  rcases rest with ⟨_,dtstart,clear,rfl,rfl⟩ | ⟨slot,matched,_,rfl,clear,outcome⟩
  · have stays : noted corrected slotId false = corrected := rfl
    have appended := @caughtUp_append {db with resources := resources} corrected importing.known
      (importedSlot {db with resources := resources} offering.id row window dtstart room.id)
    have moves : TimetableMoves cal (caughtUp db corrected) (caughtUp {db with resources := resources,slots := db.slots ++
        [importedSlot {db with resources := resources} offering.id row window dtstart room.id]} corrected) := by
      refine first.tail (Eq.mpr (congrArg _ appended) (@TimetableMove.slot cal (caughtUp {db with resources := resources} corrected)
        (importedSlot {db with resources := resources} offering.id row window dtstart room.id) (nextId_notMem _)
        ⟨offering,cycle,offered,inside ▸ importing.cycle⟩ ?_ (fun id here => .inl (Option.some.inj here ▸ there))))
      intro other live
      obtain ⟨rfl,open_⟩ := service _ other rfl live
      exact caughtUp_clear (clear open_)
    rw [stays]
    refine ⟨moves,importing.keys.moved moves,importing.cycle,fun id member => ?_⟩
    have old := importing.known id member
    simp only [List.map_append,List.mem_append]
    exact .inl old
  · obtain ⟨stored,own,_,_⟩ := matchedSlot_stored matched
    have known : db.slot? slot.id = some slot := find_of_mem keys.slots stored
    rcases outcome with ⟨rfl,rfl,_⟩ | ⟨rfl,rfl⟩
    · exact ⟨first,keys,importing.cycle,importing.known⟩
    · have aside := @caughtUp_correct {db with resources := resources} corrected (noted corrected slot.id true) slot
        (correctedSlot slot row window room.id) known (fun id => mem_noted)
      have moves := (first.tail (@TimetableMove.relocate cal (caughtUp {db with resources := resources} corrected) slot
        (correctedSlot slot row window room.id) stored rfl rfl rfl rfl rfl (fun moves other live => by
          obtain ⟨rfl,open_⟩ := service slot other own live
          exact caughtUp_clear (clear moves open_)) (fun id here => .inl (Option.some.inj here ▸ there)))).tail (.aside aside)
      refine ⟨moves,importing.keys.moved moves,importing.cycle,fun id member => ?_⟩
      rw [setSlot_ids]
      rcases mem_noted.mp member with old | rfl
      · exact importing.known id old
      · exact List.mem_map_of_mem stored

theorem importRow_moves {columns : List String} {cycle : PlanningCycle} {s next : ImportState} {row : CsvRow}
    (importing : Importing cycle s.db s.corrected) (done : importRow cal reading columns cycle s row = .ok next) :
    TimetableMoves cal (caughtUp s.db s.corrected) (caughtUp next.db next.corrected) ∧ Importing cycle next.db next.corrected := by
  unfold importRow at done
  simp only [bind_parts] at done
  obtain ⟨_,_,after,member,⟨db,offering⟩,offered,window,_,⟨final,slotId,changed⟩,slotted,kept⟩ := done
  obtain ⟨users,provisioned,rfl⟩ := upsertMember_parts member
  cases kept
  dsimp only at offered slotted ⊢
  have one := @caughtUp_member cal s.db s.corrected users
  have keys := importing.keys.preserved one
  obtain ⟨inside,known,made⟩ := upsertOffering_parts offered keys.activities
  have two : TimetableMove cal (caughtUp {s.db with users := users} s.corrected) (caughtUp db s.corrected) ∧
      db.cycles = s.db.cycles ∧ db.slots = s.db.slots := by
    rcases made with ⟨fresh,rfl⟩ | ⟨old,there,cycled,retired,rfl⟩
    · exact ⟨@TimetableMove.activity cal (caughtUp {s.db with users := users} s.corrected) offering fresh,rfl,rfl⟩
    · exact ⟨@TimetableMove.retitle cal (caughtUp {s.db with users := users} s.corrected) old offering there cycled retired,rfl,rfl⟩
  have three := @caughtUp_enroll cal db s.corrected offering.id row.memberId
  have frame : (enroll db offering.id row.memberId).cycles = db.cycles ∧ (enroll db offering.id row.memberId).slots = db.slots ∧
      (enroll db offering.id row.memberId).activities = db.activities := by
    unfold enroll
    split <;> exact ⟨rfl,rfl,rfl⟩
  have ready : Importing cycle (enroll db offering.id row.memberId) s.corrected := by
    refine ⟨(keys.preserved two.1).preserved three,?_,?_⟩
    · rw [Database.cycle?,frame.1,two.2.1]
      exact importing.cycle
    · rw [frame.2.1,two.2.2]
      exact importing.known
  have offered' : (enroll db offering.id row.memberId).activity? offering.id = some offering := by
    rw [Database.activity?,frame.2.2]
    exact known
  obtain ⟨four,final_⟩ := upsertSlot_moves ready offered' inside slotted
  exact ⟨.head one (.head two.1 (.head three four)),final_⟩

theorem importRows_moves {columns : List String} {cycle : PlanningCycle} (rows : List CsvRow) {line : Nat} (s : ImportState) {next : ImportState}
    (importing : Importing cycle s.db s.corrected) (done : importRows cal reading columns cycle line rows s = .ok next) :
    TimetableMoves cal (caughtUp s.db s.corrected) (caughtUp next.db next.corrected) := by
  induction rows generalizing line s with
  | nil =>
    cases done
    exact .refl
  | cons row rest ih =>
    unfold importRows at done
    split at done
    · cases done
    · rename_i middle first
      obtain ⟨one,ready⟩ := importRow_moves importing first
      exact one.trans (ih middle ready done)

theorem removeSlots_removes (slots : List StructuralMasterSlot) (db : Database) : SlotRemovals db (removeSlots db slots).1 := by
  induction slots generalizing db with
  | nil => exact .refl
  | cons slot rest ih =>
    unfold removeSlots
    split
    · exact ih db
    · rename_i middle deletion deleted
      obtain ⟨idle,rfl⟩ := deleteSlot_parts deleted
      exact .head (.remove idle) (ih _)

-- What an operation does: moves, then deletions of slots if it makes any, then
-- moves that leave the slots alone.
def Path (cal : Recurrence) (db next : Database) : Prop :=
  ∃ before after, TimetableMoves cal db before ∧ SlotRemovals before after ∧ TimetableMoves cal after next ∧ next.slots = after.slots

theorem moves_path {db next : Database} (moves : TimetableMoves cal db next) : Path cal db next :=
  ⟨next,next,moves,.refl,.refl,rfl⟩

theorem Sows.slots {db next : Database} {rows : List DayFields} (sown : Sows db rows next) : next.slots = db.slots := by
  induction sown with
  | done => rfl
  | skip _ ih => exact ih
  | write _ _ ih => exact ih

theorem fillHorizon_slots (settings : LedgerSettings) (db : Database) (cycleId : Nat) :
    (fillHorizon cal settings db cycleId).slots = db.slots := by
  unfold fillHorizon materializeHorizon
  dsimp only
  split
  · rfl
  · exact (batches_sow settings _ db).slots

theorem removeOrphans_removes (db : Database) (found : Orphans) :
    ∃ after, SlotRemovals db after ∧ Aside after (removeOrphans db found).1 :=
  ⟨(removeSlots db found.slots).1,removeSlots_removes _ _,⟨rfl,rfl,rfl,rfl,rfl,rfl,rfl,rfl,rfl⟩⟩

theorem import_parts {sha256 : String → String} {db imported : Database} {file : Matrix} {cycle : PlanningCycle} {removeMissing : Bool}
    {report : ImportReport}
    (done : processMemberCentricMatrix cal reading sha256 db file cycle removeMissing = .ok (imported,report)) :
    ∃ s, importRows cal reading file.columns cycle 2 file.rows ⟨db,[],[],[],[],[]⟩ = .ok s ∧
      (removeMissing = false ∧ imported = caughtUp s.db s.corrected ∨
        removeMissing = true ∧ ∃ found, imported = (removeOrphans (caughtUp s.db s.corrected) found).1) := by
  unfold processMemberCentricMatrix at done
  simp only [bind_parts] at done
  obtain ⟨_,_,s,read,kept⟩ := done
  refine ⟨s,read,?_⟩
  cases removeMissing with
  | false =>
    cases kept
    exact .inl ⟨rfl,rfl⟩
  | true =>
    cases kept
    exact .inr ⟨rfl,_,rfl⟩

theorem caughtUp_start (db : Database) : caughtUp db [] = db := by
  rw [caughtUp_parts]
  have same : caughtUpDay db [] = id := by
    funext row
    cases of : row.masterSlotId <;> simp [caughtUpDay,correction,of]
  rw [same,List.map_id]

theorem uploadMatrix_parts {sha256 : String → String} {settings : LedgerSettings} {db next : Database} {file : Matrix} {cycleId : Nat}
    {removeMissing : Bool} {currentUser : User} {report : ImportReport}
    (done : uploadMatrix cal reading sha256 settings db file cycleId removeMissing currentUser = .ok (next,report)) :
    ∃ cycle imported, db.cycle? cycle.id = some cycle ∧ cycle.id = cycleId ∧
      processMemberCentricMatrix cal reading sha256 db file cycle removeMissing = .ok (imported,report) ∧
      next = fillHorizon cal settings imported cycleId := by
  unfold uploadMatrix at done
  simp only [bind_parts,found_parts] at done
  obtain ⟨_,_,cycle,known,answered⟩ := done
  obtain ⟨_,rfl⟩ := find_key known
  split at answered
  · cases answered
  · rename_i imported report' processed
    cases answered
    exact ⟨cycle,imported,known,rfl,processed,rfl⟩

theorem uploadMatrix_path {sha256 : String → String} {settings : LedgerSettings} {db next : Database} {file : Matrix} {cycleId : Nat}
    {removeMissing : Bool} {currentUser : User} {report : ImportReport} (keys : Keys db)
    (done : uploadMatrix cal reading sha256 settings db file cycleId removeMissing currentUser = .ok (next,report)) :
    Path cal db next ∧ (removeMissing = false → TimetableMoves cal db next) := by
  obtain ⟨cycle,imported,known,rfl,processed,rfl⟩ := uploadMatrix_parts done
  obtain ⟨s,read,outcome⟩ := import_parts processed
  have ready : Importing cycle db [] := ⟨(caughtUp_start db).symm ▸ keys,known,fun _ none => absurd none List.not_mem_nil⟩
  have moves := importRows_moves file.rows ⟨db,[],[],[],[],[]⟩ ready read
  rw [caughtUp_start] at moves
  have fill := @materializeHorizon_moves cal imported settings (some cycle.id)
  rcases outcome with ⟨_,rfl⟩ | ⟨removing,found_,rfl⟩
  · exact ⟨moves_path (moves.trans fill),fun _ => moves.trans fill⟩
  · obtain ⟨after,removed,aside⟩ := removeOrphans_removes (caughtUp s.db s.corrected) found_
    refine ⟨⟨_,after,moves,removed,.head (.aside aside) fill,?_⟩,fun no => by rw [removing] at no; cases no⟩
    exact (fillHorizon_slots settings _ _).trans aside.slots

-- The operations that may take a slot out of the timetable.
def Operation.removesSlots : Operation → Bool
  | .deleteMasterSlot .. => true
  | .uploadMatrix _ _ removeMissing _ => removeMissing
  | _ => false

variable {rt : Runtime}

theorem attempt_path {db next : Database} {op : Operation} (keys : Keys db) (done : attempt rt db op = .ok next) :
    Path rt.cal db next ∧ (op.removesSlots = false → TimetableMoves rt.cal db next) := by
  have plain : ∀ {next}, TimetableMoves rt.cal db next → Path rt.cal db next ∧ (op.removesSlots = false → TimetableMoves rt.cal db next) :=
    fun moves => ⟨moves_path moves,fun _ => moves⟩
  cases op with
  | createReservation => exact plain (hold_timetable (createReservation_moves (stateOf_parts.mp done).choose_spec))
  | cancelReservation => exact plain (hold_timetable (cancelReservation_moves (stateOf_parts.mp done).choose_spec))
  | updateResource => exact plain (hold_timetable (updateResource_moves keys.toKeyed (stateOf_parts.mp done).choose_spec))
  | createCycle =>
    obtain ⟨cycle,created⟩ := stateOf_parts.mp done
    obtain ⟨rfl,_⟩ := createCycle_parts created
    exact plain (.single .cycle)
  | openCycle => exact plain (openCycle_moves (stateOf_parts.mp done).choose_spec)
  | closeCycle => exact plain (closeCycle_moves (stateOf_parts.mp done).choose_spec)
  | cloneCycleOfferings => exact plain (cloneCycleOfferings_moves (stateOf_parts.mp done).choose_spec)
  | createActivity => exact plain (createActivity_moves (stateOf_parts.mp done).choose_spec)
  | updateActivity => exact plain (updateActivity_moves (stateOf_parts.mp done).choose_spec)
  | retireActivity => exact plain (retireActivity_moves (stateOf_parts.mp done).choose_spec)
  | createMasterSlot => exact plain (createMasterSlot_moves (stateOf_parts.mp done).choose_spec)
  | updateMasterSlot => exact plain (updateMasterSlot_moves (stateOf_parts.mp done).choose_spec)
  | deleteMasterSlot =>
    have removed := deleteMasterSlot_removes (stateOf_parts.mp done).choose_spec
    exact ⟨⟨db,next,.refl,removed,.refl,rfl⟩,fun no => by cases no⟩
  | retireMasterSlot => exact plain (retireMasterSlot_moves keys (stateOf_parts.mp done).choose_spec)
  | uploadMatrix => exact uploadMatrix_path keys (stateOf_parts.mp done).choose_spec
  | generateDailyLedgerEntries targetDate =>
    cases done
    exact plain (generate_moves db targetDate)
  | materializeHorizon cycleId =>
    cases done
    exact plain (materializeHorizon_moves db rt.settings cycleId)
  | updateLedgerEntry => exact plain (updateLedgerEntry_moves keys (stateOf_parts.mp done).choose_spec)
  | markAttendance => exact plain (markAttendance_moves (stateOf_parts.mp done).choose_spec)
  | batchMarkAttendance => exact plain (batchMarkAttendance_moves (stateOf_parts.mp done).choose_spec)
  | createAnnotation => exact plain (createAnnotation_moves (stateOf_parts.mp done).choose_spec)
  | submitAbsence => exact plain (submitAbsence_moves (stateOf_parts.mp done).choose_spec)
  | decideAbsence => exact plain (decideAbsence_moves (stateOf_parts.mp done).choose_spec)
  | advanceClock days =>
    cases done
    exact plain (.single (.hold (.advance days)))

theorem perform_path {db : Database} {op : Operation} (keys : Keys db) :
    Path rt.cal db (perform rt db op) ∧ (op.removesSlots = false → TimetableMoves rt.cal db (perform rt db op)) := by
  unfold perform
  split
  · rename_i next done
    exact attempt_path keys done
  · exact ⟨moves_path .refl,fun _ => .refl⟩

theorem Keys.cleared {db next : Database} (keys : Keys db) (removals : SlotRemovals db next) : Keys next := by
  induction removals with
  | refl => exact keys
  | tail _ removal ih => exact ih.removed removal

theorem Path.keys {db next : Database} (path : Path cal db next) (keys : Keys db) : Keys next := by
  obtain ⟨before,after,moves,removed,last,_⟩ := path
  exact ((keys.moved moves).cleared removed).moved last

end ChronosLedger
