import ChronosLedger.ImportRuns

namespace ChronosLedger

-- A day that has become a record: somebody marked or noted something on it, or
-- it is behind us.
def Record (db : Database) (row : DailyLedger) : Prop := inUse db row.id = true ∨ row.targetDate < db.orgToday

structure SameRecord (row later : DailyLedger) : Prop where
  id : later.id = row.id
  date : later.targetDate = row.targetDate
  start : later.timeWindowStart = row.timeWindowStart
  finish : later.timeWindowEnd = row.timeWindowEnd
  room : later.resourceId = row.resourceId
  lead : later.activeLeadId = row.activeLeadId
  activity : later.activityId = row.activityId

theorem SameRecord.refl (row : DailyLedger) : SameRecord row row := ⟨rfl,rfl,rfl,rfl,rfl,rfl,rfl⟩

theorem SameRecord.trans {a b c : DailyLedger} (one : SameRecord a b) (two : SameRecord b c) : SameRecord a c :=
  ⟨two.id.trans one.id,two.date.trans one.date,two.start.trans one.start,two.finish.trans one.finish,two.room.trans one.room,
    two.lead.trans one.lead,two.activity.trans one.activity⟩

-- The mark is still there. A later marking may have corrected its status.
def SameMark (mark later : VerificationLedger) : Prop :=
  later.id = mark.id ∧ later.ledgerInstanceId = mark.ledgerInstanceId ∧ later.memberId = mark.memberId

-- What is a record before is one after, and of its slot only the ones `lost`
-- says may have been cleared.
structure Kept (lost : Nat → Prop) (db next : Database) : Prop where
  clock : db.orgToday ≤ next.orgToday
  days : ∀ row ∈ db.ledger, Record db row → ∃ later ∈ next.ledger, SameRecord row later ∧
    (later.masterSlotId = row.masterSlotId ∨ later.masterSlotId = none ∧ ∀ id ∈ row.masterSlotId, lost id)
  marks : ∀ mark ∈ db.marks, ∃ later ∈ next.marks, SameMark mark later
  notes : ∀ note ∈ db.annotations, note ∈ next.annotations

variable {cal : Recurrence} {lost other : Nat → Prop} {a b c db next : Database}

theorem Kept.record (kept : Kept lost db next) {row later : DailyLedger} (record : Record db row) (same : SameRecord row later) :
    Record next later := by
  rcases record with used | past
  · left
    simp only [inUse,Bool.or_eq_true,List.any_eq_true,decide_eq_true_eq] at used ⊢
    rcases used with ⟨mark,member,on⟩ | ⟨note,member,on⟩
    · obtain ⟨mark',member',_,day,_⟩ := kept.marks mark member
      exact .inl ⟨mark',member',day.trans (on.trans same.id.symm)⟩
    · exact .inr ⟨note,kept.notes note member,on.trans same.id.symm⟩
  · right
    rw [same.date]
    exact lt_of_lt_of_le past kept.clock

theorem Kept.refl (db : Database) : Kept lost db db :=
  ⟨le_refl _,fun row member _ => ⟨row,member,.refl row,.inl rfl⟩,fun mark member => ⟨mark,member,rfl,rfl,rfl⟩,fun _ member => member⟩

theorem Kept.trans (one : Kept lost a b) (two : Kept other b c) : Kept (fun id => lost id ∨ other id) a c where
  clock := le_trans one.clock two.clock
  days := by
    intro row member record
    obtain ⟨middle,there,same,of⟩ := one.days row member record
    obtain ⟨later,here,same',of'⟩ := two.days middle there (one.record record same)
    refine ⟨later,here,same.trans same',?_⟩
    rcases of with stays | ⟨cleared,gone⟩
    · rcases of' with stays' | ⟨cleared',gone'⟩
      · exact .inl (stays'.trans stays)
      · exact .inr ⟨cleared',fun id slot => .inr (gone' id (stays ▸ slot))⟩
    · refine .inr ⟨?_,fun id slot => .inl (gone id slot)⟩
      rcases of' with stays' | ⟨cleared',_⟩
      · exact stays'.trans cleared
      · exact cleared'
  marks := by
    intro mark member
    obtain ⟨middle,there,one_,two_,three⟩ := one.marks mark member
    obtain ⟨later,here,one',two',three'⟩ := two.marks middle there
    exact ⟨later,here,one'.trans one_,two'.trans two_,three'.trans three⟩
  notes := fun note member => two.notes note (one.notes note member)

theorem Kept.weaken (kept : Kept lost db next) (more : ∀ id, lost id → other id) : Kept other db next where
  clock := kept.clock
  days := fun row member record => by
    obtain ⟨later,here,same,of⟩ := kept.days row member record
    exact ⟨later,here,same,of.imp_right (fun cleared => ⟨cleared.1,fun id slot => more id (cleared.2 id slot)⟩)⟩
  marks := kept.marks
  notes := kept.notes

-- A change that leaves the marks and notes alone and every record as it is.
theorem Kept.still (clock : db.orgToday ≤ next.orgToday) (marks : next.marks = db.marks) (notes : next.annotations = db.annotations)
    (days : ∀ row ∈ db.ledger, Record db row → row ∈ next.ledger) : Kept lost db next where
  clock := clock
  days := fun row member record => ⟨row,days row member record,.refl row,.inl rfl⟩
  marks := fun mark member => ⟨mark,marks ▸ member,rfl,rfl,rfl⟩
  notes := fun _ member => notes ▸ member

theorem idle_record {slotId : Nat} (idle : idleAhead db slotId) {row : DailyLedger} (member : row ∈ db.ledger) (record : Record db row) :
    plannedFor db slotId row = false := by
  by_contra planned
  rw [Bool.not_eq_false] at planned
  have unused := idle row member planned
  simp only [plannedFor,Bool.and_eq_true,decide_eq_true_eq] at planned
  rcases record with used | past
  · rw [unused] at used
    cases used
  · omega

theorem TimetableMove.kept (move : TimetableMove cal db next) : Kept lost db next := by
  cases move with
  | hold move =>
    have clock : db.orgToday ≤ next.orgToday := by
      cases move with
      | advance days => simp [ChronosLedger.advance]
      | _ => exact le_refl _
    have ledger : next.ledger = db.ledger ∧ next.marks = db.marks ∧ next.annotations = db.annotations := by
      cases move <;> exact ⟨rfl,rfl,rfl⟩
    exact .still clock ledger.2.1 ledger.2.2 (fun row member _ => ledger.1 ▸ member)
  | aside same =>
    refine ⟨le_of_eq same.today.symm,?_,fun mark member => ⟨mark,same.marks ▸ member,rfl,rfl,rfl⟩,
      fun note member => same.annotations ▸ member⟩
    intro row member _
    obtain ⟨later,here,cores⟩ := core_member same.ledger member
    obtain ⟨id,date,start,finish,of,activity,lead,room⟩ := core_eq cores
    exact ⟨later,here,⟨id,date,start,finish,room,lead,activity⟩,.inl of⟩
  | relocate =>
    rw [relocate_parts]
    refine .still (le_refl _) rfl rfl (fun row member record => List.mem_map.mpr ⟨row,member,if_neg ?_⟩)
    rintro ⟨_,ahead,unused⟩
    rcases record with used | past
    · rw [unused] at used
      cases used
    · omega
  | restart _ _ _ _ idle =>
    rw [dropDays_idle idle]
    refine .still (le_refl _) rfl rfl (fun row member record => List.mem_filter.mpr ⟨member,?_⟩)
    rw [idle_record idle member record]
    rfl
  | windDown winds =>
    rw [dropPlans_idle]
    refine .still (le_of_eq winds.today.symm) winds.marks winds.annotations
      (fun row member record => List.mem_filter.mpr ⟨winds.ledger ▸ member,?_⟩)
    have use : ∀ id, inUse _ id = inUse db id := fun id => by unfold inUse; rw [winds.marks,winds.annotations]
    rw [Bool.not_eq_true',Bool.and_eq_false_iff,use]
    rcases record with used | past
    · simp [used]
    · left
      by_contra gone
      have ahead := winds.ahead row (by simpa using gone)
      omega
  | write => exact .still (le_refl _) rfl rfl (fun row member _ => List.mem_append_left _ member)
  | mark kept noted => exact ⟨le_refl _,fun row member _ => ⟨row,member,.refl row,.inl rfl⟩,kept,noted⟩
  | _ => exact .still (le_refl _) rfl rfl (fun row member _ => member)

theorem moves_kept (moves : TimetableMoves cal db next) : Kept (fun _ => False) db next := by
  induction moves with
  | refl => exact .refl db
  | tail _ move ih => exact (ih.trans move.kept).weaken (fun _ gone => gone.elim id id)

-- A deletion clears the slot from the days behind, which is all it may do to them.
theorem SlotRemoval.kept (removal : SlotRemoval db next) : Kept (fun id => id ∉ next.slots.map StructuralMasterSlot.id) db next ∧
    ∀ id ∈ next.slots.map StructuralMasterSlot.id, id ∈ db.slots.map StructuralMasterSlot.id := by
  cases removal with
  | remove idle =>
    rename_i slotId
    unfold ChronosLedger.remove
    rw [dropDays_idle idle]
    refine ⟨⟨le_refl _,?_,fun mark member => ⟨mark,member,rfl,rfl,rfl⟩,fun _ member => member⟩,?_⟩
    · intro row member record
      have stays : row ∈ db.ledger.filter (fun row => !plannedFor db slotId row) :=
        List.mem_filter.mpr ⟨member,by rw [idle_record idle member record]; rfl⟩
      refine ⟨detachDay slotId row,List.mem_map_of_mem stays,?_⟩
      unfold detachDay
      split
      · rename_i own
        refine ⟨⟨rfl,rfl,rfl,rfl,rfl,rfl,rfl⟩,.inr ⟨rfl,?_⟩⟩
        intro id slot there
        rw [own] at slot
        cases Option.some.inj slot
        obtain ⟨found_,listed,same⟩ := List.mem_map.mp there
        have other := (List.mem_filter.mp listed).2
        simp only [decide_eq_true_eq] at other
        exact other same
      · exact ⟨.refl row,.inl rfl⟩
    · intro id there
      exact (List.filter_sublist.map _).subset there

theorem removals_kept (removals : SlotRemovals db next) : Kept (fun id => id ∉ next.slots.map StructuralMasterSlot.id) db next := by
  induction removals with
  | refl => exact .refl db
  | tail _ removal ih =>
    obtain ⟨kept,fewer⟩ := removal.kept
    exact (ih.trans kept).weaken (fun id gone => gone.elim (fun absent there => absent (fewer id there)) (fun absent => absent))

theorem Path.kept (path : Path cal db next) : Kept (fun id => id ∉ next.slots.map StructuralMasterSlot.id) db next := by
  obtain ⟨before,after,moves,removed,last,slots⟩ := path
  have all := ((moves_kept moves).trans (removals_kept removed)).trans (moves_kept last)
  refine all.weaken (fun id gone => ?_)
  rw [slots]
  rcases gone with (no | absent) | no
  · exact no.elim
  · exact absent
  · exact no.elim

variable {rt : Runtime}

-- What one operation keeps. A slot is cleared from a record only by an operation
-- that removes slots, and then that slot is gone.
theorem perform_kept {op : Operation} (keys : Keys db) : Kept (fun id => op.removesSlots = true ∧
    id ∉ (perform rt db op).slots.map StructuralMasterSlot.id) db (perform rt db op) := by
  obtain ⟨path,plain⟩ := @perform_path rt _ op keys
  cases removes : op.removesSlots with
  | true => exact path.kept.weaken (fun id gone => ⟨rfl,gone⟩)
  | false => exact (moves_kept (plain removes)).weaken (fun _ no => no.elim)

-- Somewhere along a run an operation took the slot away.
def Removed (rt : Runtime) (start db : Database) (id : Nat) : Prop :=
  ∃ before op after, Runs.Reached (Performs rt) start before ∧ Performs rt before op after ∧ Runs.Reached (Performs rt) after db ∧
    op.removesSlots = true ∧ id ∉ after.slots.map StructuralMasterSlot.id

theorem run_kept {start db : Database} (keys : Keys start) (path : Runs.Reached (Performs rt) start db) :
    Keys db ∧ Kept (Removed rt start db) start db := by
  induction path with
  | start => exact ⟨keys,.refl start⟩
  | step prior taken ih =>
    obtain ⟨keyed,kept⟩ := ih
    have now : _ = perform rt _ _ := taken
    subst now
    refine ⟨(perform_path keyed).1.keys keyed,(kept.trans (perform_kept keyed)).weaken (fun id gone => ?_)⟩
    rcases gone with ⟨before,op,after,early,step,late,removes,absent⟩ | ⟨removes,absent⟩
    · exact ⟨before,op,after,early,step,.step late taken,removes,absent⟩
    · exact ⟨_,_,_,prior,taken,.start,removes,absent⟩

theorem records_survive {start db : Database} (keys : Keys start) (path : Runs.Reached (Performs rt) start db) {row : DailyLedger}
    (stored : row ∈ start.ledger) (record : Record start row) :
    (∃ later ∈ db.ledger, SameRecord row later ∧ (later.masterSlotId = row.masterSlotId ∨
      later.masterSlotId = none ∧ ∀ id ∈ row.masterSlotId, Removed rt start db id)) ∧
    (∀ mark ∈ start.marks, mark.ledgerInstanceId = row.id → ∃ later ∈ db.marks, SameMark mark later) ∧
    ∀ note ∈ start.annotations, note.ledgerInstanceId = row.id → note ∈ db.annotations := by
  obtain ⟨_,kept⟩ := run_kept keys path
  exact ⟨kept.days row stored record,fun mark member _ => kept.marks mark member,fun note member _ => kept.notes note member⟩

-- A class whose day of tomorrow has a note on it. The cycle closes, two days
-- pass and the slot is deleted: the day outlives all of it, and only the slot
-- is cleared.
def notedDay : Database := performAll plainRuntime (staffed 100)
  [.createCycle ⟨"term",90,130,true,autumn_bounds⟩ registrar,.createActivity ⟨"MATH","Mathematics","SCI",1⟩ registrar,
    .createMasterSlot ⟨"FREQ=DAILY",some 100,clock 9 0,clock 10 0,1,none,"A",nine_to_ten⟩ registrar,
    Operation.createAnnotation ⟨1,"NOTE","bring the maps"⟩ registrar]

def slotDeleted : List Operation := [.closeCycle 1 registrar,.advanceClock 2,.deleteMasterSlot 1 registrar]

def tomorrowsDay : DailyLedger :=
  dayRow 1 ⟨101,clock 9 0,clock 10 0,1,1,none,some 1,.scheduled⟩

theorem records_survive_deletion :
    (performAll plainRuntime notedDay slotDeleted).slots = [] ∧
      (∃ later ∈ (performAll plainRuntime notedDay slotDeleted).ledger, SameRecord tomorrowsDay later) ∧
      (performAll plainRuntime notedDay slotDeleted).ledger.map DailyLedger.masterSlotId = [none] := by
  have survives := @records_survive plainRuntime notedDay _
    ⟨⟨by decide,by decide⟩,by decide,by decide,by decide⟩ (performAll_reached _ notedDay slotDeleted)
    tomorrowsDay (by decide) (.inl (by decide))
  obtain ⟨later,here,same,_⟩ := survives.1
  exact ⟨by decide,⟨later,here,same⟩,by decide⟩

end ChronosLedger
