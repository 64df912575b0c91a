import ChronosLedger.Whereabouts

namespace ChronosLedger
open FirstAnswers

variable {cal : Recurrence} {order : ReadOrder} {db after : Database} {redisCache : RedisCache} {instant : Int} {id : String}

-- The job run for yesterday and then for today.
def nightJob (cal : Recurrence) (db : Database) (instant : Int) : Database :=
  (generateDailyLedgerEntries cal (generateDailyLedgerEntries cal db (dateOf instant-1)).1 (dateOf instant)).1

-- A ledger some of whose missing days have been written, each slot's day once.
structure FilledIn (cal : Recurrence) (db after : Database) : Prop where
  frame : ∃ ledger, after = {db with ledger := ledger}
  kept : ∀ row ∈ db.ledger, row ∈ after.ledger
  due : ∀ row ∈ after.ledger, row ∈ db.ledger ∨ ∃ booked date number, Planned cal db booked date ∧
    hasDay db booked.slot.id date = false ∧ row = dayRow number (dueFields db date booked.slot)
  once : ∀ slotId date, hasDay db slotId date = false → ∀ a ∈ after.ledger, ∀ b ∈ after.ledger,
    a.masterSlotId = some slotId → b.masterSlotId = some slotId → a.targetDate = date → b.targetDate = date → a = b

theorem hasDay_exact {slotId : Nat} {date : Int} : hasDay db slotId date = true ↔
    ∃ row ∈ db.ledger, row.masterSlotId = some slotId ∧ row.targetDate = date := by
  unfold hasDay
  rw [List.any_eq_true]
  simp only [decide_eq_true_eq]

theorem hasDay_missing {slotId : Nat} {date : Int} (missing : hasDay db slotId date = false) {row : DailyLedger}
    (stored : row ∈ db.ledger) (of : row.masterSlotId = some slotId) : row.targetDate ≠ date := by
  intro same
  rw [hasDay_exact.mpr ⟨row,stored,of,same⟩] at missing
  cases missing

theorem FilledIn.refl : FilledIn cal db db where
  frame := ⟨db.ledger,rfl⟩
  kept _ stored := stored
  due _ stored := .inl stored
  once _ _ missing _ stored _ _ of _ on_ _ := absurd on_ (hasDay_missing missing stored of)

theorem FilledIn.missing (filled : FilledIn cal db after) {slotId : Nat} {date : Int} (missing : hasDay after slotId date = false) :
    hasDay db slotId date = false := by
  cases there : hasDay db slotId date with
  | false => rfl
  | true =>
    obtain ⟨row,stored,of,on_⟩ := hasDay_exact.mp there
    exact absurd on_ (hasDay_missing missing (filled.kept row stored) of)

-- One day offered. It is written as it is due, or the ledger stays as it was.
theorem FilledIn.insert (filled : FilledIn cal db after) {booked : BookedSlot} {date : Int} (planned : Planned cal db booked date) :
    FilledIn cal db (insertDay after (dueFields db date booked.slot)).1 := by
  unfold insertDay
  split
  · exact filled
  split
  · exact filled
  rename_i missing
  have missing : hasDay after booked.slot.id date = false := Bool.eq_false_of_not_eq_true missing
  refine ⟨?_,?_,?_,?_⟩
  · obtain ⟨ledger,framed⟩ := filled.frame
    exact ⟨(writeDay after (dueFields db date booked.slot)).ledger,by rw [framed]; rfl⟩
  · exact fun row stored => List.mem_append_left _ (filled.kept row stored)
  · intro row stored
    rcases List.mem_append.mp stored with old | new
    · exact filled.due row old
    · exact .inr ⟨booked,date,_,planned,filled.missing missing,List.mem_singleton.mp new⟩
  · intro slotId day free a left b right of of' on_ on'
    rcases List.mem_append.mp left with old | new <;> rcases List.mem_append.mp right with old' | new'
    · exact filled.once slotId day free a old b old' of of' on_ on'
    · cases List.mem_singleton.mp new'
      cases Option.some.inj of'
      exact absurd (on_.trans on'.symm) (hasDay_missing missing old of)
    · cases List.mem_singleton.mp new
      cases Option.some.inj of
      exact absurd (on'.trans on_.symm) (hasDay_missing missing old' of')
    · rw [List.mem_singleton.mp new,List.mem_singleton.mp new']

theorem FilledIn.offered (rows : List DayFields) (filled : FilledIn cal db after)
    (due : ∀ fields ∈ rows, ∃ booked date, Planned cal db booked date ∧ fields = dueFields db date booked.slot) :
    FilledIn cal db (offerAll after rows) := by
  induction rows generalizing after with
  | nil => exact filled
  | cons fields rest ih =>
    obtain ⟨booked,date,planned,rfl⟩ := due fields (List.mem_cons_self ..)
    exact ih (filled.insert planned) (fun other member => due other (List.mem_cons_of_mem _ member))

theorem nightJob_fills : FilledIn cal db (nightJob cal db instant) := by
  have two : nightJob cal db instant = dailyJobs cal db (dateOf instant-1) (dateOf instant) := by
    unfold nightJob dailyJobs datesBetween
    have days : (dateOf instant+1-(dateOf instant-1)).toNat = 2 := by omega
    rw [days]
    simp [List.range_succ]
  rw [two,dailyJobs_offers]
  refine FilledIn.refl.offered _ ?_
  intro fields listed
  obtain ⟨date,_,listed⟩ := List.mem_flatMap.mp listed
  obtain ⟨booked,due,rfl⟩ := List.mem_map.mp listed
  exact ⟨booked,date,dueOn_mem.mp due,rfl⟩

-- At most one window is running for the person.
def OneWindow (cal : Recurrence) (db : Database) (instant : Int) (id : String) : Prop :=
  ∀ a b, Running cal db instant id a → Running cal db instant id b → a = b

def windowsOf (cal : Recurrence) (db : Database) (instant : Int) (id : String) : List OpenWindow :=
  (daysOf db instant id).map .day ++ (datesOf cal db instant id).map (fun found => .slotDate found.1 found.2)

theorem mem_windowsOf {window : OpenWindow} : window ∈ windowsOf cal db instant id ↔ Running cal db instant id window := by
  unfold windowsOf
  cases window with
  | day day => simp [mem_daysOf cal]
  | slotDate date booked =>
    simp only [List.mem_append,List.mem_map,reduceCtorEq,and_false,exists_false,false_or,OpenWindow.slotDate.injEq]
    constructor
    · rintro ⟨found,listed,rfl,rfl⟩
      exact mem_datesOf.mp listed
    · exact fun running => ⟨(date,booked),mem_datesOf.mpr running,rfl,rfl⟩

instance : Decidable (OneWindow cal db instant id) :=
  decidable_of_iff (∀ a ∈ windowsOf cal db instant id, ∀ b ∈ windowsOf cal db instant id, a = b) (by
    simp only [mem_windowsOf]
    exact ⟨fun alone a b left right => alone a left b right,fun alone a left b right => alone a b left right⟩)

theorem OneWindow.untied (alone : OneWindow cal db instant id) : Untied cal db instant id := by
  refine ⟨fun a b left right _ => OpenWindow.day.inj (alone _ _ left right),?_⟩
  intro a b left right _
  have same := OpenWindow.slotDate.inj (alone _ _ left right)
  exact Prod.ext same.1 same.2

-- The day a slot's date becomes.
def dueDay (db : Database) (number : Nat) (date : Int) (booked : BookedSlot) : TimedDay :=
  ⟨dayRow number (dueFields db date booked.slot),booked.slot.timeWindowStart,booked.slot.timeWindowEnd⟩

theorem mem_timedDays {day : TimedDay} : day ∈ db.ledger.filterMap timedDay ↔ day.row ∈ db.ledger ∧ timedDay day.row = some day := by
  rw [List.mem_filterMap]
  constructor
  · rintro ⟨row,stored,timed⟩
    have same : day.row = row := by
      unfold timedDay at timed
      split at timed
      · exact (Option.some.inj timed) ▸ rfl
      · cases timed
    exact ⟨same ▸ stored,same ▸ timed⟩
  · exact fun both => ⟨day.row,both.1,both.2⟩

theorem FilledIn.planned (filled : FilledIn cal db after) {booked : BookedSlot} {date : Int} :
    Planned cal after booked date ↔ Planned cal db booked date := by
  obtain ⟨ledger,rfl⟩ := filled.frame
  exact Iff.rfl

theorem FilledIn.running_kept (filled : FilledIn cal db after) {day : TimedDay} (running : Running cal db instant id (.day day)) :
    Running cal after instant id (.day day) := by
  obtain ⟨stored,rest⟩ := running
  obtain ⟨there,timed⟩ := mem_timedDays.mp stored
  exact ⟨mem_timedDays.mpr ⟨filled.kept _ there,timed⟩,rest⟩

-- What is running after was running before, as it is or as the slot's date it
-- was written from.
theorem FilledIn.running_before (filled : FilledIn cal db after) {window : OpenWindow} (running : Running cal after instant id window) :
    Running cal db instant id window ∨ ∃ number date booked, window = .day (dueDay db number date booked) ∧
      Running cal db instant id (.slotDate date booked) := by
  cases window with
  | slotDate date booked =>
    obtain ⟨planned,missing,lead,now⟩ := running
    exact .inl ⟨filled.planned.mp planned,filled.missing missing,lead,now⟩
  | day day =>
    obtain ⟨stored,concerns,now⟩ := running
    obtain ⟨there,timed⟩ := mem_timedDays.mp stored
    rcases filled.due day.row there with old | ⟨booked,date,number,planned,missing,new⟩
    · exact .inl ⟨mem_timedDays.mpr ⟨old,timed⟩,concerns,now⟩
    · have same : day = dueDay db number date booked := by
        rw [new] at timed
        exact (Option.some.inj timed).symm
      subst same
      have lead : booked.slot.primaryLeadId = some id := by simpa [dueDay,dayRow,dueFields,dayFields] using concerns
      exact .inr ⟨number,date,booked,rfl,planned,missing,lead,now⟩

-- What was running before still is, as it was or written out.
theorem FilledIn.running_after (filled : FilledIn cal db after) (slots : (db.slots.map StructuralMasterSlot.id).Nodup) {date : Int}
    {booked : BookedSlot} (running : Running cal db instant id (.slotDate date booked)) :
    Running cal after instant id (.slotDate date booked) ∨ ∃ number, Running cal after instant id (.day (dueDay db number date booked)) := by
  obtain ⟨planned,missing,lead,now⟩ := running
  cases there : hasDay after booked.slot.id date with
  | false => exact .inl ⟨filled.planned.mpr planned,there,lead,now⟩
  | true =>
    obtain ⟨row,stored,of,on_⟩ := hasDay_exact.mp there
    rcases filled.due row stored with old | ⟨other,day,number,planned',_,rfl⟩
    · exact absurd on_ (hasDay_missing missing old of)
    · have slot : other.slot = booked.slot :=
        same_of_key slots (mem_openSlots.mp planned'.1).1 (mem_openSlots.mp planned.1).1 (Option.some.inj of)
      have same : day = date := on_
      subst same
      rw [slot] at stored
      refine .inr ⟨number,mem_timedDays.mpr ⟨stored,rfl⟩,.inl ?_,now⟩
      exact lead

theorem OneWindow.filled (alone : OneWindow cal db instant id) (filled : FilledIn cal db after) : OneWindow cal after instant id := by
  intro a b left right
  have apart : ∀ {number date booked}, Running cal after instant id (.day (dueDay db number date booked)) →
      ¬ Running cal after instant id (.slotDate date booked) := by
    intro number date booked written open_
    exact hasDay_missing open_.2.1 (mem_timedDays.mp written.1).1 rfl rfl
  rcases filled.running_before left with old | ⟨number,date,booked,rfl,was⟩ <;>
    rcases filled.running_before right with old' | ⟨number',date',booked',rfl,was'⟩
  · exact alone a b old old'
  · have same := alone _ _ old was'
    subst same
    exact absurd left (apart right)
  · have same := alone _ _ old' was
    subst same
    exact absurd right (apart left)
  · obtain ⟨rfl,rfl⟩ := OpenWindow.slotDate.inj (alone _ _ was was')
    have same : dayRow number (dueFields db date booked.slot) = dayRow number' (dueFields db date booked.slot) :=
      filled.once _ _ was.2.1 _ (mem_timedDays.mp left.1).1 _ (mem_timedDays.mp right.1).1 rfl rfl rfl rfl
    unfold dueDay
    rw [same]

-- What a running window says of the person.
def OpenWindow.worth (db : Database) (id : String) : OpenWindow → Option Whereabouts
  | .day found => (dayTold db (activityCode db found.row.activityId) found).lookup id
  | .slotDate date booked => some (dateAnswer db (date,booked))

def leaveToday (db : Database) (instant : Int) (id : String) : Option Whereabouts :=
  if approvedLeave db (some id) (dateOf instant) then some onApprovedLeave else none

theorem whereIs_one (alone : OneWindow cal db instant id) {window : OpenWindow} (running : Running cal db instant id window)
    {person : StaffUser} (own : person.id = id) : whereIs cal db redisCache instant person =
      ((override redisCache id).or ((window.worth db id).or (leaveToday db instant id))).getD (stationed person) := by
  subst own
  unfold whereIs leaveToday
  cases window with
  | day day =>
    have none_ : datesOf cal db instant person.id = [] := List.eq_nil_iff_forall_not_mem.mpr
      (fun date member => nomatch alone _ _ running (mem_datesOf.mp member))
    rw [none_,findSome_single ((mem_daysOf cal).mpr running)
      (fun other member => (OpenWindow.day.inj (alone _ _ running ((mem_daysOf cal).mp member))).symm)]
    rfl
  | slotDate date booked =>
    have none_ : daysOf db instant person.id = [] := List.eq_nil_iff_forall_not_mem.mpr
      (fun day member => nomatch alone _ _ running ((mem_daysOf cal).mp member))
    have only : ∀ other ∈ datesOf cal db instant person.id, other = (date,booked) := by
      intro other member
      have same := OpenWindow.slotDate.inj (alone _ _ running (mem_datesOf.mp member))
      exact Prod.ext same.1.symm same.2.symm
    rw [none_,findSome_single (mem_datesOf.mpr running : (date,booked) ∈ datesOf cal db instant person.id) only]
    rfl

theorem whereIs_none (still : ∀ window, ¬ Running cal db instant id window) {person : StaffUser} (own : person.id = id) :
    whereIs cal db redisCache instant person = ((override redisCache id).or (leaveToday db instant id)).getD (stationed person) := by
  subst own
  unfold whereIs leaveToday
  have days : daysOf db instant person.id = [] := List.eq_nil_iff_forall_not_mem.mpr
    (fun day member => still _ ((mem_daysOf cal).mp member))
  have dates : datesOf cal db instant person.id = [] := List.eq_nil_iff_forall_not_mem.mpr
    (fun date member => still _ (mem_datesOf.mp member))
  rw [days,dates]
  rfl

-- A day written out says what the slot it was written from said.
theorem dueDay_worth {booked : BookedSlot} {date : Int} (running : Running cal db instant id (.slotDate date booked)) (number : Nat) :
    (OpenWindow.day (dueDay db number date booked)).worth db id = (OpenWindow.slotDate date booked).worth db id := by
  obtain ⟨planned,_,lead,_⟩ := running
  have coded : activityCode db booked.slot.activityId = booked.activity.activityCode := by
    obtain ⟨_,found,_⟩ := openSlot_parts.mp (mem_openSlots.mp planned.1).2
    unfold activityCode
    rw [found]
    rfl
  unfold OpenWindow.worth dateAnswer dueDay dayTold coverTold leadTold dueFields dayFields dayRow
  dsimp only
  rw [lead,coded]
  by_cases away : approvedLeave db (some id) date <;> simp [away,leaveState]

theorem FilledIn.worth (filled : FilledIn cal db after) (window : OpenWindow) : window.worth after id = window.worth db id := by
  obtain ⟨ledger,rfl⟩ := filled.frame
  cases window <;> rfl

-- Writing out what is due moves nobody who has one window at the most.
theorem FilledIn.stays (filled : FilledIn cal db after) (slots : (db.slots.map StructuralMasterSlot.id).Nodup)
    {person : StaffUser} (alone : OneWindow cal db instant person.id) :
    whereIs cal after redisCache instant person = whereIs cal db redisCache instant person := by
  have later := alone.filled filled
  have leave : leaveToday after instant person.id = leaveToday db instant person.id := by
    obtain ⟨ledger,rfl⟩ := filled.frame
    rfl
  by_cases busy : ∃ window, Running cal db instant person.id window
  · obtain ⟨window,running⟩ := busy
    have still : ∃ window', Running cal after instant person.id window' ∧ window'.worth db person.id = window.worth db person.id := by
      cases window with
      | day day => exact ⟨_,filled.running_kept running,rfl⟩
      | slotDate date booked =>
        rcases filled.running_after slots running with same | ⟨number,written⟩
        · exact ⟨_,same,rfl⟩
        · exact ⟨_,written,dueDay_worth running number⟩
    obtain ⟨window',running',same⟩ := still
    rw [whereIs_one later running' rfl,whereIs_one alone running rfl,filled.worth,same,leave]
  · have still : ∀ window, ¬ Running cal after instant person.id window := by
      intro window running
      rcases filled.running_before running with old | ⟨_,date,booked,_,old⟩
      · exact busy ⟨_,old⟩
      · exact busy ⟨_,old⟩
    rw [whereIs_none still rfl,whereIs_none (fun window running => busy ⟨window,running⟩) rfl,leave]

theorem whereabouts_stand_alone (cal : Recurrence) (db : Database) (redisCache : RedisCache) (instant : Int)
    (slots : (db.slots.map StructuralMasterSlot.id).Nodup) (staff : List StaffUser)
    (rows : ∀ a ∈ staff, ∀ b ∈ staff, a.id = b.id → a = b) (person : StaffUser) (member : person ∈ staff) (order order' : ReadOrder) :
    (Untied cal db instant person.id → ∃ place,
      (determineStaffCurrentStates cal order db redisCache instant staff).lookup person.id = some place ∧
      (determineStaffCurrentStates cal order' db redisCache instant [person]).lookup person.id = some place) ∧
    (OneWindow cal db instant person.id → ∃ place,
      (determineStaffCurrentStates cal order db redisCache instant staff).lookup person.id = some place ∧
      (determineStaffCurrentStates cal order' (nightJob cal db instant) redisCache instant staff).lookup person.id = some place) := by
  have single : ∀ a ∈ [person], ∀ b ∈ [person], a.id = b.id → a = b := by simp
  constructor
  · intro untied
    exact ⟨_,determine_exact member rows untied,determine_exact (List.mem_singleton.mpr rfl) single untied⟩
  · intro alone
    have filled : FilledIn cal db (nightJob cal db instant) := nightJob_fills
    refine ⟨_,determine_exact member rows alone.untied,?_⟩
    rw [determine_exact member rows (alone.filled filled).untied,filled.stays slots alone]

-- Two in the morning of day 101, a Wednesday. Two shifts are down for one ward
-- from ten on Tuesday night to six, and the job writes only the first.
def nightWard : Database := {staffed 101 with
  cycles := [⟨1,"Wards",1,400,true⟩]
  activities := [⟨1,"WARD-A","Ward A rounds","CSE",1,false⟩]
  resources := [⟨1,"W-1","ROOM",none,none,.exclusive,true,exclusive_bare⟩]
  slots := [⟨1,"FREQ=WEEKLY;BYDAY=TU",2,clock 22 0,clock 6 0,1,some "FAC001",some 1,false⟩,
    ⟨2,"FREQ=WEEKLY;BYDAY=TU",2,clock 22 0,clock 6 0,1,some "FAC002",some 1,false⟩]}

def nightStaff : List StaffUser := [⟨"FAC001",none⟩,⟨"FAC002",some "Desk 5"⟩]

def inWard : Whereabouts := ⟨some "W-1","Leading WARD-A in Room W-1"⟩

theorem night_shift_stands_alone :
    (nightJob plainRules nightWard (combine 101 (clock 2 0))).ledger.length = 1 ∧ ∀ person ∈ nightStaff,
      (determineStaffCurrentStates plainRules tableOrder nightWard none (combine 101 (clock 2 0)) nightStaff).lookup person.id = some inWard ∧
      (determineStaffCurrentStates plainRules tableOrder nightWard none (combine 101 (clock 2 0)) [person]).lookup person.id = some inWard ∧
      (determineStaffCurrentStates plainRules tableOrder (nightJob plainRules nightWard (combine 101 (clock 2 0))) none
        (combine 101 (clock 2 0)) nightStaff).lookup person.id = some inWard := by
  refine ⟨by decide +kernel,?_⟩
  have alone : ∀ person ∈ nightStaff, OneWindow plainRules nightWard (combine 101 (clock 2 0)) person.id := by decide +kernel
  have shown : ∀ person ∈ nightStaff, (determineStaffCurrentStates plainRules tableOrder nightWard none (combine 101 (clock 2 0))
      nightStaff).lookup person.id = some inWard := by decide +kernel
  intro person member
  obtain ⟨batch,night⟩ := whereabouts_stand_alone plainRules nightWard none (combine 101 (clock 2 0)) (by decide) nightStaff (by decide)
    person member tableOrder tableOrder
  obtain ⟨place,first,single⟩ := batch (alone person member).untied
  obtain ⟨place',first',later⟩ := night (alone person member)
  rw [shown person member] at first first'
  cases first
  cases first'
  exact ⟨shown person member,single,later⟩

end ChronosLedger
