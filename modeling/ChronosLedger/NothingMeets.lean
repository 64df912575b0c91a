import ChronosLedger.TimetableOrder

namespace ChronosLedger
open Spans

variable {cal : Recurrence} {db next : Database}

-- A day takes a window on a room.
def Takes (row : DailyLedger) (room : Nat) (span : Int × Int) : Prop :=
  row.resourceId = some room ∧ ∃ start finish, row.timeWindowStart = some start ∧ row.timeWindowEnd = some finish ∧
    span = windowSpan row.targetDate start finish

theorem onRoom_takes {room : Nat} {other : DatedDay} (here : OnRoom db (some room) other) :
    other.row ∈ db.ledger ∧ Takes other.row room (daySpan other) := by
  obtain ⟨on,opens,closes,_⟩ := datedDay_parts.mp here.2
  exact ⟨here.1,on,_,_,opens,closes,rfl⟩

theorem takes_onRoom {room : Nat} {row : DailyLedger} {span : Int × Int} (stored : row ∈ db.ledger) (takes : Takes row room span) :
    ∃ other, OnRoom db (some room) other ∧ other.row = row ∧ daySpan other = span := by
  obtain ⟨on,start,finish,opens,closes,rfl⟩ := takes
  exact ⟨⟨row,start,finish,(db.activity? row.activityId).map Activity.activityCode⟩,
    ⟨stored,datedDay_parts.mpr ⟨on,opens,closes,rfl,rfl⟩⟩,rfl,rfl⟩

def Settled (db : Database) (room : Nat) (day : Int) (slotId : Nat) : Prop :=
  ∃ row ∈ db.ledger, (∃ span, Takes row room span) ∧ row.targetDate = day ∧ row.masterSlotId = some slotId

theorem standsIn_settled {room slotId : Nat} {day : Int} : StandsIn db (some room) day slotId ↔ Settled db room day slotId := by
  constructor
  · rintro ⟨other,here,date,of⟩
    obtain ⟨stored,takes⟩ := onRoom_takes here
    exact ⟨other.row,stored,⟨_,takes⟩,date,of⟩
  · rintro ⟨row,stored,⟨span,takes⟩,date,of⟩
    obtain ⟨other,here,same,_⟩ := takes_onRoom stored takes
    exact ⟨other,here,same ▸ date,same ▸ of⟩

-- A hold that counts against the timetable: on the room, not shared, ahead.
structure Counts (db : Database) (room : Nat) (held : Reservation) : Prop where
  stored : held ∈ db.reservations
  on : held.resourceId = room
  taken : held.status = .held
  counted : held.mode ≠ .shared
  ahead : db.orgToday ≤ held.reservedDate

-- Days of two slots do not meet on a room, on any date.
def DaysCross (db : Database) : Prop :=
  ∀ one two room span other, one ∈ db.ledger → two ∈ db.ledger → Takes one room span → Takes two room other →
    one.masterSlotId ≠ two.masterSlotId → ¬ Meets span other

-- Nothing of two sources meets on a room, as far as the checks can see: the
-- timetable from tomorrow, the holds from today, the days on any date.
structure NothingMeets (cal : Recurrence) (db : Database) : Prop where
  slots : ∀ one two d e room, SlotOn cal db one d → SlotOn cal db two e → one.id ≠ two.id → one.resourceId = some room →
    two.resourceId = some room → db.orgToday < d → db.orgToday < e → ¬ Meets (slotSpan one d) (slotSpan two e)
  slotDays : ∀ slot d row room span, SlotOn cal db slot d → row ∈ db.ledger → slot.resourceId = some room → Takes row room span →
    row.masterSlotId ≠ some slot.id → db.orgToday < d → db.orgToday < row.targetDate → ¬ Meets (slotSpan slot d) span
  days : DaysCross db
  slotHolds : ∀ slot d room held, SlotOn cal db slot d → slot.resourceId = some room → ¬ Settled db room d slot.id → db.orgToday ≤ d →
    Counts db room held → ¬ Meets (slotSpan slot d) (heldSpan held)
  dayHolds : ∀ row room span held, row ∈ db.ledger → Takes row room span → db.orgToday ≤ row.targetDate → Counts db room held →
    ¬ Meets span (heldSpan held)

-- The same slot as far as a room can tell.
structure Alike (old slot : StructuralMasterSlot) : Prop where
  id : slot.id = old.id
  room : slot.resourceId = old.resourceId
  start : slot.timeWindowStart = old.timeWindowStart
  finish : slot.timeWindowEnd = old.timeWindowEnd

theorem Alike.span {old slot : StructuralMasterSlot} (alike : Alike old slot) (day : Int) : slotSpan slot day = slotSpan old day := by
  rw [slotSpan,slotSpan,alike.start,alike.finish]

-- The same day as far as a room can tell.
structure Stays (old row : DailyLedger) : Prop where
  id : row.id = old.id
  date : row.targetDate = old.targetDate
  start : row.timeWindowStart = old.timeWindowStart
  finish : row.timeWindowEnd = old.timeWindowEnd
  room : row.resourceId = old.resourceId
  slot : row.masterSlotId = old.masterSlotId

theorem Stays.refl (row : DailyLedger) : Stays row row := ⟨rfl,rfl,rfl,rfl,rfl,rfl⟩

theorem Stays.takes {old row : DailyLedger} (stays : Stays old row) {room : Nat} {span : Int × Int} (takes : Takes row room span) :
    Takes old room span := by
  obtain ⟨on,start,finish,opens,closes,same⟩ := takes
  exact ⟨stays.room.symm.trans on,start,finish,stays.start.symm.trans opens,stays.finish.symm.trans closes,stays.date ▸ same⟩

theorem stays_core {old row : DailyLedger} (same : core old = core row) : Stays old row := by
  obtain ⟨id,date,start,finish,of,_,_,room⟩ := core_eq same
  exact ⟨id.symm,date.symm,start.symm,finish.symm,room.symm,of.symm⟩

-- The checks answered for the slot as it now is.
structure Cleared (cal : Recurrence) (next : Database) (slot : StructuralMasterSlot) : Prop where
  holds : ∀ d room held, SlotOn cal next slot d → slot.resourceId = some room → Counts next room held →
    ¬ Meets (slotSpan slot d) (heldSpan held)
  slots : ∀ d other e room, SlotOn cal next slot d → SlotOn cal next other e → slot.resourceId = some room →
    other.resourceId = some room → other.id ≠ slot.id → next.orgToday < d → ¬ Meets (slotSpan slot d) (slotSpan other e)
  days : ∀ d row room span, SlotOn cal next slot d → row ∈ next.ledger → slot.resourceId = some room → Takes row room span →
    Fixed next row → next.orgToday ≤ row.targetDate → row.masterSlotId ≠ some slot.id → ¬ Meets (slotSpan slot d) span

-- A change of the timetable: every slot is one there was, where it was, or one
-- the checks cleared, and every day is one there was or a plan of a cleared slot.
structure Reshaped (cal : Recurrence) (db next : Database) : Prop where
  today : next.orgToday = db.orgToday
  reservations : next.reservations = db.reservations
  slots : ∀ slot d, SlotOn cal next slot d → (∃ old, SlotOn cal db old d ∧ Alike old slot) ∨ Cleared cal next slot
  rows : ∀ row ∈ next.ledger, (∃ old ∈ db.ledger, Stays old row) ∨
    next.orgToday < row.targetDate ∧ inUse next row.id = false ∧ ∃ slot ∈ next.slots, row.masterSlotId = some slot.id ∧ Cleared cal next slot
  settled : ∀ slot d room, SlotOn cal next slot d → ¬ Cleared cal next slot → slot.resourceId = some room → next.orgToday ≤ d →
    Settled db room d slot.id → Settled next room d slot.id

theorem takes_meets_near {one two : DailyLedger} {room : Nat} {span other : Int × Int} (left : Takes one room span)
    (right : Takes two room other) (met : Meets span other) : two.targetDate-1 ≤ one.targetDate ∧ one.targetDate ≤ two.targetDate+1 := by
  obtain ⟨_,_,_,_,_,rfl⟩ := left
  obtain ⟨_,_,_,_,_,rfl⟩ := right
  exact meets_near met

-- A plan ahead is at its slot's place, so what it takes is what its slot would.
theorem placed_takes {slot : StructuralMasterSlot} {row : DailyLedger} {room : Nat} {span : Int × Int} (at_ : AtPlace slot row)
    (takes : Takes row room span) : slot.resourceId = some room ∧ span = slotSpan slot row.targetDate := by
  obtain ⟨on,start,finish,opens,closes,rfl⟩ := takes
  rw [at_.2.1] at opens
  rw [at_.2.2] at closes
  cases Option.some.inj opens
  cases Option.some.inj closes
  exact ⟨at_.1.symm.trans on,rfl⟩

-- Whatever the slots do, the days of two slots stay apart when a slot is placed
-- where the checks cleared it.
theorem reshaped_days (days : DaysCross db) (reshaped : Reshaped cal db next) (order : InOrder cal next) : DaysCross next := by
  -- A plan that went along with a cleared slot, against any other day.
  have moved : ∀ {row row' : DailyLedger} {room : Nat} {span span' : Int × Int}, row ∈ next.ledger → row' ∈ next.ledger →
      Takes row room span → Takes row' room span' → row.masterSlotId ≠ row'.masterSlotId → (next.orgToday < row.targetDate ∧
        inUse next row.id = false ∧ ∃ slot ∈ next.slots, row.masterSlotId = some slot.id ∧ Cleared cal next slot) → ¬ Meets span span' := by
    rintro row row' room span span' stored stored' on on' different ⟨ahead,plan,slot,listed,of,cleared⟩ met
    obtain ⟨live,at_⟩ := order.placed row stored ahead plan slot listed of
    obtain ⟨here,same⟩ := placed_takes at_ on
    have near := takes_meets_near on on' met
    have apart : row'.masterSlotId ≠ some slot.id := fun own => different (of.trans own.symm)
    rw [same] at met
    by_cases fixed : Fixed next row'
    · exact cleared.days row.targetDate row' room span' live stored' here on' fixed (by omega) apart met
    · -- The other is a plan too, and takes what its own slot would.
      obtain ⟨unused,later⟩ := not_or.mp fixed
      cases of' : row'.masterSlotId with
      | none =>
        have early := order.behind row' stored' of'
        omega
      | some id =>
        obtain ⟨other,listed',rfl,_⟩ := order.linked row' stored' id of'
        obtain ⟨live',at'⟩ := order.placed row' stored' (by omega) (by simpa using unused) other listed' of'
        obtain ⟨there,same'⟩ := placed_takes at' on'
        rw [same'] at met
        exact cleared.slots row.targetDate other row'.targetDate room live live' here there (fun equal => apart (equal ▸ of')) ahead met
  intro one two room span other left right takes takes' apart
  rcases reshaped.rows one left with ⟨old,present,stays⟩ | plan
  · rcases reshaped.rows two right with ⟨old',present',stays'⟩ | plan'
    · exact days old old' room span other present present' (stays.takes takes) (stays'.takes takes')
        (by rw [← stays.slot,← stays'.slot]; exact apart)
    · exact fun met => moved right left takes' takes (Ne.symm apart) plan' met.symm
  · exact moved left right takes takes' apart plan

section
variable (nothing : NothingMeets cal db) (reshaped : Reshaped cal db next)
include nothing reshaped

theorem reshaped_slots {one two : StructuralMasterSlot} {d e : Int} {room : Nat} (left : SlotOn cal next one d)
    (right : SlotOn cal next two e) (different : one.id ≠ two.id) (here : one.resourceId = some room)
    (there : two.resourceId = some room) (first : next.orgToday < d) (second : next.orgToday < e) :
    ¬ Meets (slotSpan one d) (slotSpan two e) := by
  rcases reshaped.slots one d left with ⟨old,on,alike⟩ | cleared
  · rcases reshaped.slots two e right with ⟨old',on',alike'⟩ | cleared'
    · rw [alike.span,alike'.span]
      rw [reshaped.today] at first second
      exact nothing.slots old old' d e room on on' (by rw [← alike.id,← alike'.id]; exact different) (alike.room.symm.trans here)
        (alike'.room.symm.trans there) first second
    · exact fun met => cleared'.slots e one d room right left there here different second met.symm
  · exact cleared.slots d two e room left right here there (Ne.symm different) first

variable (order : InOrder cal next)
include order

theorem reshaped_slotDays {slot : StructuralMasterSlot} {d : Int} {row : DailyLedger} {room : Nat} {span : Int × Int}
    (on : SlotOn cal next slot d) (stored : row ∈ next.ledger) (here : slot.resourceId = some room) (takes : Takes row room span)
    (apart : row.masterSlotId ≠ some slot.id) (first : next.orgToday < d) (second : next.orgToday < row.targetDate) :
    ¬ Meets (slotSpan slot d) span := by
  cases used : inUse next row.id with
  | false =>
    -- A plan: what it takes is what its own slot would take.
    cases of : row.masterSlotId with
    | none =>
      have early := order.behind row stored of
      omega
    | some id =>
      obtain ⟨other,listed,rfl,_⟩ := order.linked row stored id of
      obtain ⟨on',at_⟩ := order.placed row stored second used other listed of
      obtain ⟨there,rfl⟩ := placed_takes at_ takes
      exact reshaped_slots nothing reshaped on on' (fun same => apart (same ▸ of)) here there first second
  | true =>
    rcases reshaped.slots slot d on with ⟨old,was,alike⟩ | cleared
    · rcases reshaped.rows row stored with ⟨before,present,stays⟩ | ⟨_,plan,_⟩
      · rw [alike.span]
        rw [reshaped.today] at first second
        rw [stays.date] at second
        exact nothing.slotDays old d before room span was present (alike.room.symm.trans here) (stays.takes takes)
          (by rw [← stays.slot,← alike.id]; exact apart) first second
      · rw [used] at plan
        cases plan
    · exact cleared.days d row room span on stored here takes (.inl used) (le_of_lt second) apart

theorem nothing_reshaped : NothingMeets cal next := by
  have counts : ∀ {room held}, Counts next room held → Counts db room held := fun held =>
    ⟨reshaped.reservations ▸ held.stored,held.on,held.taken,held.counted,reshaped.today ▸ held.ahead⟩
  refine ⟨?_,?_,?_,?_,?_⟩
  · exact fun one two d e room left right different here there first second =>
      reshaped_slots nothing reshaped left right different here there first second
  · exact fun slot d row room span on stored here takes apart first second =>
      reshaped_slotDays nothing reshaped order on stored here takes apart first second
  · exact reshaped_days nothing.days reshaped order
  · intro slot d room held on here unsettled ahead counted
    by_cases cleared : Cleared cal next slot
    · exact cleared.holds d room held on here counted
    · rcases reshaped.slots slot d on with ⟨old,was,alike⟩ | no
      · rw [alike.span]
        refine nothing.slotHolds old d room held was (alike.room.symm.trans here) ?_ (reshaped.today ▸ ahead) (counts counted)
        exact fun settled => unsettled (reshaped.settled slot d room on cleared here ahead (alike.id ▸ settled))
      · exact absurd no cleared
  · intro row room span held stored takes ahead counted
    rcases reshaped.rows row stored with ⟨old,present,stays⟩ | ⟨later,plan,slot,listed,of,cleared⟩
    · rw [reshaped.today,stays.date] at ahead
      exact nothing.dayHolds old room span held present (stays.takes takes) ahead (counts counted)
    · obtain ⟨live,at_⟩ := order.placed row stored later plan slot listed of
      obtain ⟨here,same⟩ := placed_takes at_ takes
      rw [same]
      exact cleared.holds row.targetDate room held live here counted

end

-- The three checks of a slot, read in the database the change leaves.
theorem ClearOf.cleared {base : Database} {cycle : PlanningCycle} {slot : StructuralMasterSlot} {slotId : Option Nat}
    (clear : ClearOf cal base cycle (claimOf slot) slotId) (own : ∀ id, slotId = some id → id = slot.id)
    (today : next.orgToday = base.orgToday) (reservations : next.reservations = base.reservations)
    (dates : ∀ d, SlotOn cal next slot d → OnDate cal cycle slot.rrule slot.dtstart d)
    (others : ∀ other e, SlotOn cal next other e → other.id ≠ slot.id → SlotOn cal base other e)
    (rows : ∀ row ∈ next.ledger, Fixed next row → next.orgToday ≤ row.targetDate → row.masterSlotId ≠ some slot.id →
      row ∈ base.ledger ∧ Fixed base row) : Cleared cal next slot where
  holds := fun d room held on here counted => clear.holds held (reservations ▸ counted.stored) (by rw [counted.on]; exact here.symm)
    counted.taken counted.counted (today ▸ counted.ahead) d (dates d on)
  slots := by
    intro d other e room on on' here there different ahead
    refine clear.slots other e (others other e on' different) (there.trans here.symm) (fun equal => ?_) d (today ▸ ahead) (dates d on)
    exact different (own other.id equal.symm)
  days := by
    intro d row room span on stored here takes fixed ahead apart
    obtain ⟨stored',fixed'⟩ := rows row stored fixed ahead apart
    obtain ⟨other,there,rfl,rfl⟩ := takes_onRoom stored' takes
    rw [show some room = (claimOf slot).resourceId from here.symm] at there
    refine clear.days other there fixed' (today ▸ ahead) ?_ d (dates d on)
    by_cases none : other.row.masterSlotId = none
    · exact .inl none
    · refine .inr (fun equal => ?_)
      cases of : slotId with
      | none => exact none (equal.trans of)
      | some id => exact apart (by rw [equal,of,own id of])

-- Out of service, or on no room, there is nothing to clear.
theorem cleared_idle {slot : StructuralMasterSlot} (idle : ∀ d, ¬ SlotOn cal next slot d) : Cleared cal next slot where
  holds := fun d _ _ on => absurd on (idle d)
  slots := fun d _ _ _ on => absurd on (idle d)
  days := fun d _ _ _ on => absurd on (idle d)

theorem cleared_unroomed {slot : StructuralMasterSlot} (nowhere : slot.resourceId = none) : Cleared cal next slot where
  holds := fun _ _ _ _ here => by rw [nowhere] at here; cases here
  slots := fun _ _ _ _ _ _ here => by rw [nowhere] at here; cases here
  days := fun _ _ _ _ _ _ here => by rw [nowhere] at here; cases here

theorem settled_stays {room slotId : Nat} {day : Int} (settled : Settled db room day slotId)
    (rows : ∀ row ∈ db.ledger, row.targetDate = day → row.masterSlotId = some slotId → ∃ now ∈ next.ledger, Stays row now) :
    Settled next room day slotId := by
  obtain ⟨row,stored,⟨span,takes⟩,date,of⟩ := settled
  obtain ⟨now,present,stays⟩ := rows row stored date of
  obtain ⟨on,start,finish,opens,closes,_⟩ := takes
  exact ⟨now,present,⟨_,stays.room.trans on,start,finish,stays.start.trans opens,stays.finish.trans closes,rfl⟩,
    stays.date.trans date,stays.slot.trans of⟩

theorem reshaped_still (today : next.orgToday = db.orgToday) (reservations : next.reservations = db.reservations)
    (slots : ∀ slot d, SlotOn cal next slot d → SlotOn cal db slot d) (ledger : next.ledger.map core = db.ledger.map core) :
    Reshaped cal db next where
  today := today
  reservations := reservations
  slots := fun slot d on => .inl ⟨slot,slots slot d on,rfl,rfl,rfl,rfl⟩
  rows := fun row member => by
    obtain ⟨old,there,cores⟩ := core_member ledger.symm member
    exact .inl ⟨old,there,stays_core cores⟩
  settled := fun _ _ _ _ _ _ _ settled => settled_stays settled (fun row stored _ _ => by
    obtain ⟨now,there,cores⟩ := core_member ledger stored
    exact ⟨now,there,stays_core cores.symm⟩)

theorem slotOn_back (slots : next.slots = db.slots)
    (same : ∀ slot ∈ db.slots, Anchored next slot ∧ ∀ cycle, InService next slot cycle ↔ InService db slot cycle)
    (slot : StructuralMasterSlot) (d : Int) (on : SlotOn cal next slot d) : SlotOn cal db slot d :=
  (slotOn_grow slots (fun s member => (same s member).2)).mp on

theorem reshaped_slot {slot : StructuralMasterSlot}
    (clear : ∀ cycle, InService db slot cycle → ClearOf cal db cycle (claimOf slot) none) :
    Reshaped cal db {db with slots := db.slots ++ [slot]} := by
  have split : ∀ other d, SlotOn cal {db with slots := db.slots ++ [slot]} other d → other = slot ∨ SlotOn cal db other d := by
    rintro other d ⟨stored,on⟩
    rcases List.mem_append.mp stored with old | new
    · exact .inr ⟨old,on⟩
    · exact .inl (List.mem_singleton.mp new)
  refine ⟨rfl,rfl,?_,fun row member => .inl ⟨row,member,.refl row⟩,fun _ _ _ _ _ _ _ settled => settled⟩
  intro other d on
  rcases split other d on with rfl | old
  · obtain ⟨_,cycle,service,_⟩ := on
    refine .inr ((clear cycle service).cleared (fun id no => by cases no) rfl rfl ?_ ?_ (fun row stored fixed _ _ => ⟨stored,fixed⟩))
    · rintro e ⟨_,cycle',service',dated⟩
      cases InService.unique service service'
      exact dated
    · intro two e on' different
      rcases split two e on' with rfl | old
      · exact absurd rfl different
      · exact old
  · exact .inl ⟨other,old,rfl,rfl,rfl,rfl⟩

theorem reshaped_open {cycle : PlanningCycle}
    (clear : ∀ slot ∈ db.slots, slot.resourceId ≠ none → InService (setCycle db cycle) slot cycle → ¬ InService db slot cycle →
      ClearOf cal (setCycle db cycle) cycle (claimOf slot) (some slot.id)) : Reshaped cal db (setCycle db cycle) := by
  refine ⟨rfl,rfl,?_,fun row member => .inl ⟨row,member,.refl row⟩,fun _ _ _ _ _ _ _ settled => settled⟩
  rintro slot d ⟨stored,after,service,dated⟩
  by_cases before : InService db slot after
  · exact .inl ⟨slot,⟨stored,after,before,dated⟩,rfl,rfl,rfl,rfl⟩
  · rcases inService_opened service with rfl | was
    · right
      by_cases nowhere : slot.resourceId = none
      · exact cleared_unroomed nowhere
      · refine (clear slot stored nowhere service before).cleared (fun id same => (Option.some.inj same).symm) rfl rfl ?_
          (fun _ _ on _ => on) (fun row member fixed _ _ => ⟨member,fixed⟩)
        rintro e ⟨_,cycle',service',dated'⟩
        cases InService.unique service service'
        exact dated'
    · exact absurd was before

theorem reshaped_relocate (order : InOrder cal db) {slot moved : StructuralMasterSlot} (stored : slot ∈ db.slots)
    (same : moved.id = slot.id) (activity : moved.activityId = slot.activityId) (retired : moved.retired = slot.retired)
    (rule : moved.rrule = slot.rrule) (start : moved.dtstart = slot.dtstart)
    (clear : claimOf moved ≠ claimOf slot → ∀ cycle, InService db slot cycle → ClearOf cal db cycle (claimOf moved) (some slot.id)) :
    Reshaped cal db (relocate db moved) := by
  rw [relocate_parts]
  -- A plan of the slot is on one of its dates, so out of service it has none.
  have served : ∀ row ∈ db.ledger, row.masterSlotId = some moved.id → db.orgToday < row.targetDate → inUse db row.id = false →
      SlotOn cal db slot row.targetDate ∧ AtPlace slot row := fun row member of ahead unused =>
    order.placed row member ahead unused slot stored (same ▸ of)
  have mine : ∀ d, SlotOn cal {setSlot db moved with ledger := db.ledger.map (relocated db moved)} moved d → SlotOn cal db slot d := by
    rintro d ⟨_,cycle,service,dated⟩
    refine ⟨stored,cycle,(inService_moved activity retired).mp service,?_⟩
    rw [← rule,← start]
    exact dated
  have still : ∀ row, ¬ (row.masterSlotId = some moved.id ∧ db.orgToday < row.targetDate ∧ inUse db row.id = false) →
      relocated db moved row = row := fun row stays => if_neg stays
  by_cases place : claimOf moved = claimOf slot
  · have alike : Alike slot moved := by
      simp only [claimOf,Claim.mk.injEq] at place
      exact ⟨same,place.1,place.2.2.2.1,place.2.2.2.2⟩
    have stays : ∀ row ∈ db.ledger, Stays row (relocated db moved row) := by
      intro row member
      by_cases goes : row.masterSlotId = some moved.id ∧ db.orgToday < row.targetDate ∧ inUse db row.id = false
      · obtain ⟨_,at_⟩ := served row member goes.1 goes.2.1 goes.2.2
        refine ⟨by simp,by simp,?_,?_,?_,by simp⟩
        · rw [relocated,if_pos goes,correctedDay_start,alike.start,at_.2.1]
        · rw [relocated,if_pos goes,correctedDay_end,alike.finish,at_.2.2]
        · rw [relocated,if_pos goes,correctedDay_room,alike.room,at_.1]
      · rw [still row goes]
        exact .refl row
    refine ⟨rfl,rfl,?_,?_,?_⟩
    · intro other d on
      rcases slotOn_setSlot on with rfl | ⟨_,old⟩
      · exact .inl ⟨slot,mine d on,alike⟩
      · exact .inl ⟨other,old,rfl,rfl,rfl,rfl⟩
    · intro row member
      obtain ⟨old,there,rfl⟩ := List.mem_map.mp member
      exact .inl ⟨old,there,stays old there⟩
    · exact fun _ _ _ _ _ _ _ settled => settled_stays settled (fun row member _ _ => ⟨_,List.mem_map_of_mem member,stays row member⟩)
  · have cleared : Cleared cal {setSlot db moved with ledger := db.ledger.map (relocated db moved)} moved := by
      by_cases live : ∃ cycle, InService db slot cycle
      · obtain ⟨cycle,service⟩ := live
        refine (clear place cycle service).cleared (fun id of => (Option.some.inj of).symm.trans same.symm) rfl rfl ?_ ?_ ?_
        · rintro d on
          obtain ⟨_,cycle',service',dated⟩ := mine d on
          cases InService.unique service service'
          rw [rule,start]
          exact dated
        · intro other e on different
          rcases slotOn_setSlot on with same' | ⟨_,old⟩
          · exact absurd (congrArg StructuralMasterSlot.id same') different
          · exact old
        · intro row member fixed _ apart
          obtain ⟨old,there,rfl⟩ := List.mem_map.mp member
          have stays := still old (fun goes => apart (by rw [relocated_slot]; exact goes.1))
          rw [stays] at fixed ⊢
          exact ⟨there,fixed⟩
      · exact cleared_idle (fun d on => by
          obtain ⟨_,cycle,service,_⟩ := mine d on
          exact live ⟨cycle,service⟩)
    refine ⟨rfl,rfl,?_,?_,?_⟩
    · intro other d on
      rcases slotOn_setSlot on with rfl | ⟨_,old⟩
      · exact .inr cleared
      · exact .inl ⟨other,old,rfl,rfl,rfl,rfl⟩
    · intro row member
      obtain ⟨old,there,rfl⟩ := List.mem_map.mp member
      by_cases goes : old.masterSlotId = some moved.id ∧ db.orgToday < old.targetDate ∧ inUse db old.id = false
      · refine .inr ⟨?_,?_,moved,setSlot_stored stored same.symm,?_,cleared⟩
        · rw [relocated_date]; exact goes.2.1
        · rw [relocated_id]; exact goes.2.2
        · rw [relocated_slot]; exact goes.1
      · exact .inl ⟨old,there,by rw [still old goes]; exact .refl old⟩
    · intro other d room on unclear here _ settled
      refine settled_stays settled (fun row member _ of => ⟨_,List.mem_map_of_mem member,?_⟩)
      rcases slotOn_setSlot on with rfl | ⟨different,_⟩
      · exact absurd cleared unclear
      · rw [still row (fun goes => different (Option.some.inj (of.symm.trans goes.1)))]
        exact .refl row

theorem reshaped_restart {slot moved : StructuralMasterSlot}
    (same : moved.id = slot.id) (activity : moved.activityId = slot.activityId) (retired : moved.retired = slot.retired)
    (idle : idleAhead db slot.id)
    (clear : ∀ cycle, InService db slot cycle → ClearOf cal db cycle (claimOf moved) (some slot.id)) :
    Reshaped cal db (setSlot (dropDays db (plannedFor db slot.id)) moved) := by
  rw [dropDays_idle idle]
  have split : ∀ {other d}, SlotOn cal (setSlot {db with ledger := db.ledger.filter (fun row => !plannedFor db slot.id row)} moved) other d →
      other = moved ∨ other.id ≠ moved.id ∧ SlotOn cal db other d := fun on => slotOn_setSlot on
  have cleared : Cleared cal (setSlot {db with ledger := db.ledger.filter (fun row => !plannedFor db slot.id row)} moved) moved := by
    by_cases live : ∃ cycle, InService db slot cycle
    · obtain ⟨cycle,service⟩ := live
      refine (clear cycle service).cleared (fun id of => (Option.some.inj of).symm.trans same.symm) rfl rfl ?_ ?_ ?_
      · rintro d ⟨_,cycle',service',dated⟩
        cases InService.unique service ((inService_moved activity retired).mp service')
        exact dated
      · intro other e on different
        rcases split on with same' | ⟨_,old⟩
        · exact absurd (congrArg StructuralMasterSlot.id same') different
        · exact old
      · exact fun row member fixed _ _ => ⟨(List.mem_filter.mp member).1,fixed⟩
    · exact cleared_idle (fun d on => live ⟨_,(inService_moved activity retired).mp on.2.choose_spec.1⟩)
  refine ⟨rfl,rfl,?_,fun row member => .inl ⟨row,(List.mem_filter.mp member).1,.refl row⟩,?_⟩
  · intro other d on
    rcases split on with rfl | ⟨_,old⟩
    · exact .inr cleared
    · exact .inl ⟨other,old,rfl,rfl,rfl,rfl⟩
  · intro other d room on unclear here _ settled
    refine settled_stays settled (fun row member _ of => ⟨row,List.mem_filter.mpr ⟨member,?_⟩,.refl row⟩)
    rcases split on with rfl | ⟨different,_⟩
    · exact absurd cleared unclear
    · rw [same] at different
      simp [plannedFor,of,different]

theorem reshaped_windDown (order : InOrder cal db) {wound : Database} {retire : StructuralMasterSlot → StructuralMasterSlot}
    {which : DailyLedger → Bool} (winds : WindsDown db wound retire which) : Reshaped cal db (dropPlans wound which) := by
  rw [dropPlans_idle]
  have alike : ∀ slot, Alike slot (retire slot) ∧ (retire slot).rrule = slot.rrule ∧ (retire slot).dtstart = slot.dtstart := fun slot => by
    rcases winds.shape slot with equal | equal <;> rw [equal] <;> exact ⟨⟨rfl,rfl,rfl,rfl⟩,rfl,rfl⟩
  have back : ∀ slot d, SlotOn cal {wound with ledger := wound.ledger.filter (fun row => !(which row && !inUse wound row.id))} slot d →
      ∃ old ∈ db.slots, slot = retire old ∧ SlotOn cal db old d ∧ ∃ cycle, InService wound (retire old) cycle := by
    rintro slot d ⟨member,cycle,service,dated⟩
    have listed : slot ∈ db.slots.map retire := winds.slots ▸ member
    obtain ⟨old,stored,rfl⟩ := List.mem_map.mp listed
    rw [(alike old).2.1,(alike old).2.2] at dated
    exact ⟨old,stored,rfl,⟨stored,cycle,winds.down old cycle service,dated⟩,cycle,service⟩
  refine ⟨winds.today,winds.reservations,?_,?_,?_⟩
  · intro slot d on
    obtain ⟨old,_,rfl,was,_⟩ := back slot d on
    exact .inl ⟨old,was,(alike old).1⟩
  · exact fun row member => .inl ⟨row,winds.ledger ▸ (List.mem_filter.mp member).1,.refl row⟩
  · intro slot d room on _ _ _ settled
    obtain ⟨old,stored,rfl,_,cycle,service⟩ := back slot d on
    refine settled_stays settled (fun row member _ of => ⟨row,List.mem_filter.mpr ⟨winds.ledger.symm ▸ member,?_⟩,.refl row⟩)
    rw [(alike old).1.id] at of
    obtain ⟨found_,listed,named,linked⟩ := order.linked row member old.id of
    have equal : found_ = old := same_of_key order.slots listed stored named
    subst equal
    -- In service still, the slot keeps its days.
    cases asked : which row with
    | false => rfl
    | true => exact absurd service (winds.only row found_ of linked asked cycle)

end ChronosLedger
