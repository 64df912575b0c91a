import ChronosLedger.RoomRequests
import ChronosLedger.LedgerWrites

namespace ChronosLedger.RoomRequests
open Spans

-- A booking and a class that were both taken do not meet on the room, on any
-- date of the class from tomorrow on.
def Apart (cal : Recurrence) (w : World) : Prop :=
  ∀ reservation slot, w.booking = .booked reservation → w.class_.committed = some slot → reservation.mode ≠ .shared →
    slot.resourceId = some reservation.resourceId → ∀ date, w.db.orgToday < date → SlotOn cal w.db slot date →
      ¬ Meets (slotSpan slot date) (heldSpan reservation)

-- The slot goes in while its own check of the holds, asked again, would pass.
def StillClear (rt : Runtime) (w : World) : Turn → Prop
  | .booking => True
  | .class_ => ∀ draft, w.class_ = .checked draft → refuseIfHeld rt.cal w.db draft.cycle draft.claim = .ok ()

instance (rt : Runtime) (w : World) (turn : Turn) : Decidable (StillClear rt w turn) :=
  match turn,w with
  | .booking,_ => .isTrue trivial
  | .class_,⟨db,_,.checked draft⟩ => decidable_of_iff (refuseIfHeld rt.cal db draft.cycle draft.claim = .ok ())
      ⟨fun clear _ same => by cases same; exact clear,fun clear => clear draft rfl⟩
  | .class_,⟨_,_,.arrived⟩ | .class_,⟨_,_,.offered _⟩ | .class_,⟨_,_,.led _⟩ | .class_,⟨_,_,.anchored ..⟩
  | .class_,⟨_,_,.roomed _⟩ | .class_,⟨_,_,.sawHolds _⟩ | .class_,⟨_,_,.sawSlots _⟩ | .class_,⟨_,_,.inserted ..⟩
  | .class_,⟨_,_,.created ..⟩ | .class_,⟨_,_,.filled ..⟩ | .class_,⟨_,_,.ended⟩ => .isTrue (fun _ same => by cases same)

-- The keys of the tables a start has to keep.
structure Stored (db : Database) : Prop where
  slots : (db.slots.map StructuralMasterSlot.id).Nodup
  days : ∀ row ∈ db.ledger, ∀ id, row.masterSlotId = some id → ∃ slot ∈ db.slots, slot.id = id

variable {rt : Runtime} {booking : BookingRequest} {class_ : ClassRequest} {w next : World} {db : Database}

def BookingRequest.window (booking : BookingRequest) : Int × Int :=
  windowSpan booking.payload.date booking.payload.start booking.payload.finish

-- A row the booking is going to write, or has written.
structure BookingRequest.Holds (booking : BookingRequest) (resource : Resource) (reservation : Reservation) : Prop where
  room : reservation.resourceId = resource.id
  mode : reservation.mode = resource.mode
  status : reservation.status = .held
  span : heldSpan reservation = booking.window

-- What is true of a booking wherever it stands. Nobody writes to the timetable
-- of the room while it is locked, so what was read of it is what is there.
def BookingAt.Sound (rt : Runtime) (booking : BookingRequest) (db : Database) : BookingAt → Prop
  | .sawSlots resource slots => slots = bookedSlots db (some resource.id)
  | .sawHolds resource slots holds => slots = bookedSlots db (some resource.id) ∧ holds = holdsSeen booking db resource
  | .timetabled resource | .checked resource => resource.mode ≠ .shared → ¬ TimetableMeets rt.cal db (some resource.id) booking.window
  | .flushed resource reservation | .walked resource reservation _ => booking.Holds resource reservation ∧
      (resource.mode ≠ .shared → ¬ TimetableMeets rt.cal db (some resource.id) booking.window)
  | .booked reservation => reservation ∈ db.reservations ∧ reservation.status = .held
  | _ => True

structure Draft.Known (class_ : ClassRequest) (db : Database) (draft : Draft) : Prop where
  offering : db.activity? class_.payload.activityId = some draft.offering
  cycle : db.cycle? draft.offering.cycleId = some draft.cycle
  live : draft.offering.retired = false
  claim : draft.claim = ⟨draft.claim.resourceId,class_.payload.rrule,draft.claim.dtstart,class_.payload.timeWindowStart,
    class_.payload.timeWindowEnd⟩

-- The slot of a draft.
structure Draft.Makes (draft : Draft) (slot : StructuralMasterSlot) : Prop where
  claim : claimOf slot = draft.claim
  live : slot.retired = false

-- A day of the slot is on its room and at its hours.
def AsPlanned (slot : StructuralMasterSlot) (row : DailyLedger) : Prop :=
  row.resourceId = slot.resourceId ∧ row.timeWindowStart = some slot.timeWindowStart ∧ row.timeWindowEnd = some slot.timeWindowEnd

structure Entered (db : Database) (slot : StructuralMasterSlot) : Prop where
  stored : slot ∈ db.slots
  days : ∀ row ∈ db.ledger, row.masterSlotId = some slot.id → AsPlanned slot row

def ClassAt.Sound (class_ : ClassRequest) (db : Database) : ClassAt → Prop
  | .offered offering | .led offering => db.activity? class_.payload.activityId = some offering ∧ offering.retired = false
  | .anchored offering cycle _ => db.activity? class_.payload.activityId = some offering ∧ offering.retired = false ∧
      db.cycle? offering.cycleId = some cycle
  | .roomed draft | .sawHolds draft | .sawSlots draft | .checked draft => draft.Known class_ db
  | .inserted draft slot => draft.Known class_ db ∧ draft.Makes slot ∧ slot.activityId = class_.payload.activityId ∧
      slot.id = nextId (db.slots.map StructuralMasterSlot.id)
  | .created draft slot | .filled draft slot => draft.Known class_ db ∧ draft.Makes slot ∧
      slot.activityId = class_.payload.activityId ∧ Entered db slot
  | _ => True

-- The slot from its insert on.
def ClassAt.written : ClassAt → Option (Draft × StructuralMasterSlot)
  | .inserted draft slot | .created draft slot | .filled draft slot => some (draft,slot)
  | _ => none

-- Told of the draft, so that it can be said before the slot is committed.
def Clear (cal : Recurrence) (w : World) : Prop :=
  ∀ reservation draft slot, w.booking = .booked reservation → w.class_.written = some (draft,slot) → reservation.mode ≠ .shared →
    slot.resourceId = some reservation.resourceId → draft.cycle.operationalStatus = true →
      ∀ date, w.db.orgToday < date → OnDate cal draft.cycle slot.rrule slot.dtstart date → ¬ Meets (slotSpan slot date) (heldSpan reservation)

structure Sound (rt : Runtime) (booking : BookingRequest) (class_ : ClassRequest) (w : World) : Prop where
  stored : Stored w.db
  locks : ∀ row, w.booking.lockedRow = some row → w.class_.sharedRow ≠ some row
  booking : w.booking.Sound rt booking w.db
  class_ : w.class_.Sound class_ w.db
  clear : Clear rt.cal w

theorem start_sound (stored : Stored db) : Sound rt booking class_ (startOf db) where
  stored := stored
  locks _ locked := by cases locked
  booking := trivial
  class_ := trivial
  clear _ _ _ taken := by cases taken

-- A window the timetable of the room leaves free is off every date of a slot
-- that is in it.
theorem free_of_slot {slot : StructuralMasterSlot} {resourceId : Nat} {window : Int × Int} (entered : Entered db slot)
    (free : ¬ TimetableMeets rt.cal db (some resourceId) window) (here : slot.resourceId = some resourceId) {date : Int}
    (on : SlotOn rt.cal db slot date) : ¬ Meets (slotSpan slot date) window := by
  intro met
  obtain ⟨booked,rfl,planned⟩ := on.planned
  apply free
  by_cases stands : StandsIn db (some resourceId) date booked.slot.id
  · obtain ⟨day,onRoom,dated,of⟩ := stands
    refine .inr ⟨day,onRoom,?_⟩
    obtain ⟨_,starts,ends⟩ := entered.days day.row onRoom.1 of
    have parts := datedDay_parts.mp onRoom.2
    have same : daySpan day = slotSpan booked.slot date := by
      have first := Option.some.inj (parts.2.1.symm.trans starts)
      have last := Option.some.inj (parts.2.2.1.symm.trans ends)
      unfold daySpan slotSpan
      rw [first,last,dated]
    rw [same]
    exact met
  · exact .inl ⟨booked,date,planned,here,stands,met⟩

-- The room's side of the timetable, the same before a write and after.
structure SameRoom (db later : Database) (row : Nat) : Prop where
  slots : bookedSlots later (some row) = bookedSlots db (some row)
  days : ∀ day, OnRoom later (some row) day ↔ OnRoom db (some row) day

theorem SameRoom.meets {later : Database} {row : Nat} (same : SameRoom db later row) (cal : Recurrence) (window : Int × Int) :
    TimetableMeets cal later (some row) window ↔ TimetableMeets cal db (some row) window := by
  have planned : ∀ booked day, Planned cal later booked day ∧ booked.slot.resourceId = some row ↔
      Planned cal db booked day ∧ booked.slot.resourceId = some row := by
    intro booked day
    have listed := congrArg (booked ∈ ·) same.slots
    simp only [bookedSlots,List.mem_filter,decide_eq_true_eq,eq_iff_iff] at listed
    unfold Planned
    tauto
  have stands : ∀ day slot, StandsIn later (some row) day slot ↔ StandsIn db (some row) day slot := by
    intro day slot
    unfold StandsIn
    simp only [same.days]
  unfold TimetableMeets
  simp only [same.days,stands,← and_assoc]
  simp only [planned]

theorem BookingAt.Sound.same {later : Database} {at_ : BookingAt} (sound : at_.Sound rt booking db)
    (room : ∀ row, at_.lockedRow = some row → SameRoom db later row) (held : later.reservations = db.reservations) :
    at_.Sound rt booking later := by
  cases at_ with
  | sawSlots resource slots => exact sound.trans (room _ rfl).slots.symm
  | sawHolds resource slots holds =>
    refine ⟨sound.1.trans (room _ rfl).slots.symm,sound.2.trans ?_⟩
    unfold holdsSeen heldReservations
    rw [held]
  | timetabled resource => exact fun counted met => sound counted (((room _ rfl).meets _ _).mp met)
  | checked resource => exact fun counted met => sound counted (((room _ rfl).meets _ _).mp met)
  | flushed resource reservation => exact ⟨sound.1,fun counted met => sound.2 counted (((room _ rfl).meets _ _).mp met)⟩
  | walked resource reservation children => exact ⟨sound.1,fun counted met => sound.2 counted (((room _ rfl).meets _ _).mp met)⟩
  | booked reservation => exact ⟨held ▸ sound.1,sound.2⟩
  | _ => trivial

-- A statement that only reads.
theorem Sound.reads (sound : Sound rt booking class_ w) {at_ : BookingAt} (known : at_.Sound rt booking w.db)
    (locks : ∀ row, at_.lockedRow = some row → w.class_.sharedRow ≠ some row) (open_ : ∀ reservation, at_ ≠ .booked reservation) :
    Sound rt booking class_ {w with booking := at_} where
  stored := sound.stored
  locks := locks
  booking := known
  class_ := sound.class_
  clear reservation _ _ taken := absurd taken (open_ reservation)

theorem Sound.ended (sound : Sound rt booking class_ w) : Sound rt booking class_ {w with booking := .ended} :=
  sound.reads trivial (fun _ locked => by cases locked) (fun _ same => by cases same)

theorem onward_cases {α β : Type} (ended : β) (answer : Answer α) (next : α → β) :
    onward ended answer next = ended ∨ ∃ value, answer = .ok value ∧ onward ended answer next = next value := by
  cases answer with
  | ok value => exact .inr ⟨value,rfl,rfl⟩
  | error refusal => exact .inl rfl

theorem Draft.Known.inService {draft : Draft} {slot : StructuralMasterSlot} (known : draft.Known class_ db) (makes : draft.Makes slot)
    (of : slot.activityId = class_.payload.activityId) (open_ : draft.cycle.operationalStatus = true) : InService db slot draft.cycle :=
  ⟨draft.offering,of ▸ known.offering,known.cycle,makes.live,known.live,open_⟩

theorem ClassAt.Sound.booked {at_ : ClassAt} (sound : at_.Sound class_ db) (reservations : List Reservation) :
    at_.Sound class_ {db with reservations := reservations} := by
  cases at_ with
  | offered offering | led offering | anchored offering cycle dtstart => exact sound
  | roomed draft | sawHolds draft | sawSlots draft | checked draft => exact ⟨sound.offering,sound.cycle,sound.live,sound.claim⟩
  | inserted draft slot => exact ⟨⟨sound.1.offering,sound.1.cycle,sound.1.live,sound.1.claim⟩,sound.2⟩
  | created draft slot | filled draft slot =>
    exact ⟨⟨sound.1.offering,sound.1.cycle,sound.1.live,sound.1.claim⟩,sound.2.1,sound.2.2.1,sound.2.2.2.stored,sound.2.2.2.days⟩
  | _ => trivial

-- The booking is committed. A class that went in before it locked the room has
-- been seen, and none goes in while it has the lock.
theorem Sound.commits (sound : Sound rt booking class_ w) {resource : Resource} {reservation : Reservation} {children : List Reservation}
    (at_ : w.booking = .walked resource reservation children) : Sound rt booking class_
      {w with db := {w.db with reservations := w.db.reservations ++ reservation :: children},booking := .booked reservation} := by
  have known := sound.booking
  rw [at_] at known
  obtain ⟨holds,free⟩ := known
  refine ⟨⟨sound.stored.slots,sound.stored.days⟩,(fun _ locked => by cases locked),⟨by simp,holds.status⟩,sound.class_.booked _,?_⟩
  intro taken draft slot same written counted here open_ date ahead on
  cases same
  have unlocked := sound.locks resource.id (by rw [at_]; rfl)
  rw [holds.room] at here
  rw [holds.span]
  rw [holds.mode] at counted
  have stage := sound.class_
  cases where_ : w.class_ with
  | inserted draft' slot' =>
    rw [where_] at written unlocked
    cases written
    exact absurd here unlocked
  | created draft' slot' =>
    rw [where_] at written stage
    cases written
    obtain ⟨known,makes,of,entered⟩ := stage
    exact free_of_slot entered (free counted) here ⟨entered.stored,draft.cycle,known.inService makes of open_,on⟩
  | filled draft' slot' =>
    rw [where_] at written stage
    cases written
    obtain ⟨known,makes,of,entered⟩ := stage
    exact free_of_slot entered (free counted) here ⟨entered.stored,draft.cycle,known.inService makes of open_,on⟩
  | _ => rw [where_] at written; cases written

theorem conflicts_free {resource : Resource}
    (none_ : conflictsSeen rt booking db resource (bookedSlots db (some resource.id)) (holdsSeen booking db resource) = []) :
    ¬ TimetableMeets rt.cal db (some resource.id) booking.window := by
  have same : windowConflicts rt.cal db resource.id booking.payload.date booking.payload.start booking.payload.finish
      (resource.mode = .exclusive) = [] := by
    unfold conflictsSeen holdsSeen at none_
    unfold windowConflicts
    simpa using none_
  exact (windowConflicts_exact.mp same).1

theorem act_booking (taken : act rt booking class_ w .booking = some next) : bookingWaits booking w = false ∧
    ∃ db at_, bookingStep rt booking w.db w.booking = some (db,at_) ∧ next = ⟨db,at_,w.class_⟩ := by
  change (if bookingWaits booking w = true then none else _) = _ at taken
  split at taken
  · cases taken
  · rename_i moving
    obtain ⟨pair,stepped,rfl⟩ := Option.map_eq_some_iff.mp taken
    exact ⟨by simpa using moving,pair.1,pair.2,stepped,rfl⟩

-- The statements between the lock and the insert.
theorem Sound.answers (sound : Sound rt booking class_ w) {resource : Resource} (locked : w.booking.lockedRow = some resource.id)
    {α : Type} (answer : Answer α) (then_ : α → BookingAt)
    (known : ∀ value, answer = .ok value → (then_ value).Sound rt booking w.db)
    (keeps : ∀ value, (then_ value).lockedRow = some resource.id) :
    Sound rt booking class_ {w with booking := onward .ended answer then_} := by
  rcases onward_cases .ended answer then_ with ended | ⟨value,read,there⟩
  · rw [ended]
    exact sound.ended
  · rw [there]
    refine sound.reads (known value read) ?_ ?_
    · intro row same
      rw [keeps] at same
      cases same
      exact sound.locks _ locked
    · intro reservation same
      have none_ := keeps value
      rw [same] at none_
      cases none_

theorem Sound.passes (sound : Sound rt booking class_ w) {resource : Resource} (locked : w.booking.lockedRow = some resource.id)
    {at_ : BookingAt} (known : at_.Sound rt booking w.db) (keeps : at_.lockedRow = some resource.id) :
    Sound rt booking class_ {w with booking := at_} :=
  sound.answers locked (.ok ()) (fun _ => at_) (fun _ _ => known) (fun _ => keeps)

theorem Sound.books (sound : Sound rt booking class_ w) (taken : act rt booking class_ w .booking = some next) :
    Sound rt booking class_ next := by
  obtain ⟨moving,db,at_,stepped,rfl⟩ := act_booking taken
  have known := sound.booking
  cases where_ : w.booking with
  | arrived =>
    rw [where_] at stepped
    cases stepped
    rcases onward_cases .ended (do
      requireRoles [.orgAdmin,.unitAdmin] booking.currentUser
      let resource ← found (w.db.resource? booking.resourceId) (notFound "Resource not found")
      ensureResourceScope booking.currentUser resource
      .ok resource) BookingAt.locked with ended | ⟨resource,read,there⟩
    · rw [ended]
      exact sound.ended
    · rw [there]
      refine sound.reads trivial ?_ (fun _ same => by cases same)
      intro row locked shared
      cases locked
      obtain ⟨_,_,read⟩ := bind_parts.mp read
      obtain ⟨other,stored,read⟩ := bind_parts.mp read
      obtain ⟨_,_,read⟩ := bind_parts.mp read
      cases read
      have stored := found_parts.mp stored
      have own : resource.id = booking.resourceId := (find_key stored).2
      unfold bookingWaits at moving
      simp [where_,stored,shared,own] at moving
  | locked resource =>
    rw [where_] at stepped
    cases stepped
    have locked : w.booking.lockedRow = some resource.id := by rw [where_]; rfl
    split
    · exact sound.ended
    · exact sound.passes locked trivial rfl
  | keyed resource =>
    rw [where_] at stepped
    cases stepped
    have locked : w.booking.lockedRow = some resource.id := by rw [where_]; rfl
    split
    · exact sound.ended
    · exact sound.passes locked trivial rfl
  | referred resource =>
    rw [where_] at stepped
    cases stepped
    exact sound.answers (by rw [where_]; rfl) _ _ (fun _ _ => trivial) (fun _ => rfl)
  | assigned resource =>
    rw [where_] at stepped
    cases stepped
    have locked : w.booking.lockedRow = some resource.id := by rw [where_]; rfl
    split
    · rename_i shared
      exact sound.passes locked (fun counted => absurd shared counted) rfl
    · exact sound.passes locked rfl rfl
  | sawSlots resource slots =>
    rw [where_] at stepped known
    cases stepped
    exact sound.passes (by rw [where_]; rfl) ⟨known,rfl⟩ rfl
  | sawHolds resource slots holds =>
    rw [where_] at stepped known
    obtain ⟨rfl,rfl⟩ := known
    cases stepped
    have locked : w.booking.lockedRow = some resource.id := by rw [where_]; rfl
    by_cases none_ : conflictsSeen rt booking w.db resource (bookedSlots w.db (some resource.id)) (holdsSeen booking w.db resource) = []
    · rw [if_neg (not_not_intro none_)]
      have free := conflicts_free none_
      split
      · exact sound.passes locked (fun _ => free) rfl
      · exact sound.passes locked (fun _ => free) rfl
    · rw [if_pos none_]
      exact sound.ended
  | timetabled resource =>
    rw [where_] at stepped known
    cases stepped
    exact sound.answers (by rw [where_]; rfl) _ _ (fun _ _ => known) (fun _ => rfl)
  | checked resource =>
    rw [where_] at stepped known
    cases stepped
    exact sound.answers (by rw [where_]; rfl) _ _ (fun _ _ => ⟨⟨rfl,rfl,rfl,rfl⟩,known⟩) (fun _ => rfl)
  | flushed resource reservation =>
    rw [where_] at stepped known
    cases stepped
    exact sound.answers (by rw [where_]; rfl) _ _ (fun _ _ => known) (fun _ => rfl)
  | walked resource reservation children =>
    rw [where_] at stepped
    cases stepped
    exact sound.commits where_
  | booked reservation => rw [where_] at stepped; cases stepped
  | ended => rw [where_] at stepped; cases stepped

theorem act_class (taken : act rt booking class_ w .class_ = some next) : classWaits rt w = false ∧
    ∃ db at_, classStep rt class_ w.db w.class_ = some (db,at_) ∧ next = ⟨db,w.booking,at_⟩ := by
  change (if classWaits rt w = true then none else _) = _ at taken
  split at taken
  · cases taken
  · rename_i moving
    obtain ⟨pair,stepped,rfl⟩ := Option.map_eq_some_iff.mp taken
    exact ⟨by simpa using moving,pair.1,pair.2,stepped,rfl⟩

theorem Sound.looks (sound : Sound rt booking class_ w) {at_ : ClassAt} (known : at_.Sound class_ w.db) (shared : at_.sharedRow = none)
    (unwritten : at_.written = none) : Sound rt booking class_ {w with class_ := at_} where
  stored := sound.stored
  locks _ _ same := by rw [shared] at same; cases same
  booking := sound.booking
  class_ := known
  clear _ _ _ _ written := by rw [unwritten] at written; cases written

theorem Sound.considers (sound : Sound rt booking class_ w) {α : Type} (answer : Answer α) (then_ : α → ClassAt)
    (known : ∀ value, answer = .ok value → (then_ value).Sound class_ w.db ∧ (then_ value).sharedRow = none ∧ (then_ value).written = none) :
    Sound rt booking class_ {w with class_ := onward .ended answer then_} := by
  rcases onward_cases .ended answer then_ with ended | ⟨value,read,there⟩
  · rw [ended]
    exact sound.looks trivial rfl rfl
  · rw [there]
    obtain ⟨known,shared,unwritten⟩ := known value read
    exact sound.looks known shared unwritten

-- The slot goes in. The row it shares is not the one the booking has, and what
-- is booked by now is clear of it.
theorem Sound.inserts (sound : Sound rt booking class_ w) {draft : Draft} (at_ : w.class_ = .checked draft) (moving : classWaits rt w = false)
    (clear : refuseIfHeld rt.cal w.db draft.cycle draft.claim = .ok ()) :
    Sound rt booking class_ {w with class_ := .inserted draft (slotOf class_ w.db draft)} := by
  have known := sound.class_
  rw [at_] at known
  have claimed : draft.claim = claimOf (slotOf class_ w.db draft) := known.claim
  refine ⟨sound.stored,?_,sound.booking,⟨known,⟨claimed.symm,rfl⟩,rfl,rfl⟩,?_⟩
  · intro row locked shared
    unfold classWaits at moving
    rw [locked,at_] at moving
    have here : draft.claim.resourceId = some row := shared
    simp [here] at moving
  · intro reservation draft' slot taken written counted here open_ date ahead on met
    cases written
    obtain ⟨stored,held⟩ := (show BookingAt.Sound rt booking w.db (.booked reservation) from taken ▸ sound.booking)
    unfold refuseIfHeld at clear
    rw [if_neg (by simp [open_])] at clear
    have none_ : heldFor rt.cal w.db draft.cycle draft.claim = [] := ensure_parts.mp clear
    have near := meets_near met
    have ahead : w.db.orgToday < date := ahead
    have met : Meets (claimSpan draft.claim date) (heldSpan reservation) := by
      rw [claimed]
      exact met
    refine heldFor_clear none_ stored (by rw [claimed]; exact here.symm) held counted (by omega) ?_ met
    rw [claimed]
    exact on

-- What a fill adds are days of stored slots.
theorem sown_rows {rows : List DayFields} {later : Database} (sown : Sows db rows later) :
    ∃ new, later = {db with ledger := db.ledger ++ new} ∧ ∀ row ∈ new, ∃ fields ∈ rows, ∃ number, row = dayRow number fields := by
  induction sown with
  | done => exact ⟨[],by simp,fun _ none_ => absurd none_ List.not_mem_nil⟩
  | skip _ ih =>
    obtain ⟨new,same,each⟩ := ih
    refine ⟨new,same,fun row member => ?_⟩
    obtain ⟨fields,listed,number,is⟩ := each row member
    exact ⟨fields,List.mem_cons_of_mem _ listed,number,is⟩
  | @write db later fields rest _ _ ih =>
    obtain ⟨new,rfl,each⟩ := ih
    refine ⟨dayRow (nextId (db.ledger.map DailyLedger.id)) fields :: new,by simp [writeDay],?_⟩
    intro row member
    rcases List.mem_cons.mp member with rfl | member
    · exact ⟨fields,List.mem_cons_self ..,_,rfl⟩
    · obtain ⟨fields,listed,number,is⟩ := each row member
      exact ⟨fields,List.mem_cons_of_mem _ listed,number,is⟩

theorem fill_parts (rt : Runtime) (db : Database) (cycleId : Nat) : ∃ new,
    fillHorizon rt.cal rt.settings db cycleId = {db with ledger := db.ledger ++ new} ∧
    ∀ row ∈ new, ∃ slot ∈ db.slots, row.masterSlotId = some slot.id ∧ AsPlanned slot row := by
  unfold fillHorizon materializeHorizon
  dsimp only
  split
  · exact ⟨[],by simp,fun _ none_ => absurd none_ List.not_mem_nil⟩
  · obtain ⟨new,same,each⟩ := sown_rows (batches_sow rt.settings (withoutOverlaps db
      ((horizonMissing rt.cal db (horizonWindow db rt.settings).1 (horizonWindow db rt.settings).2 (some cycleId)).map
        (horizonFields db (horizonWindow db rt.settings).1 (horizonWindow db rt.settings).2))
      (horizonWindow db rt.settings).1 (horizonWindow db rt.settings).2) db)
    refine ⟨new,same,fun row member => ?_⟩
    obtain ⟨fields,listed,number,rfl⟩ := each row member
    obtain ⟨part,_,_⟩ := seatDays_apart ((horizonMissing rt.cal db (horizonWindow db rt.settings).1 (horizonWindow db rt.settings).2
      (some cycleId)).map (horizonFields db (horizonWindow db rt.settings).1 (horizonWindow db rt.settings).2))
      (seatedDays db (horizonWindow db rt.settings).1 (horizonWindow db rt.settings).2 _)
    obtain ⟨item,missing,rfl⟩ := List.mem_map.mp (part.subset listed)
    obtain ⟨⟨booked,planned,same,_⟩,_⟩ := mem_horizonMissing.mp missing
    exact ⟨item.2,same ▸ (planned_parts.mp planned).1,rfl,rfl,rfl,rfl⟩

-- A slot on another room leaves the room's timetable as it was.
theorem slot_elsewhere {slot : StructuralMasterSlot} {row : Nat} (elsewhere : slot.resourceId ≠ some row) (made : List Resource) :
    SameRoom db {db with resources := db.resources ++ made,slots := db.slots ++ [slot]} row := by
  refine ⟨?_,fun _ => Iff.rfl⟩
  have none_ : ([slot].filterMap (openSlot db)).filter (fun booked => booked.slot.resourceId = some row) = [] := by
    refine List.filter_eq_nil_iff.mpr (fun booked listed => ?_)
    obtain ⟨other,member,opened⟩ := List.mem_filterMap.mp listed
    cases List.mem_singleton.mp member
    rw [(openSlot_parts.mp opened).1]
    simpa using elsewhere
  change ((db.slots ++ [slot]).filterMap (openSlot db)).filter (fun booked => booked.slot.resourceId = some row) = bookedSlots db (some row)
  rw [List.filterMap_append,List.filter_append,none_,List.append_nil]
  rfl

theorem days_elsewhere {new : List DailyLedger} {row : Nat} (elsewhere : ∀ day ∈ new, day.resourceId ≠ some row) :
    SameRoom db {db with ledger := db.ledger ++ new} row := by
  refine ⟨rfl,fun day => ?_⟩
  unfold OnRoom
  constructor
  · rintro ⟨stored,on⟩
    rcases List.mem_append.mp stored with old | added
    · exact ⟨old,on⟩
    · exact absurd (datedDay_parts.mp on).1 (elsewhere _ added)
  · exact fun both => ⟨List.mem_append_left _ both.1,both.2⟩

-- The slot is committed.
theorem Sound.enters (sound : Sound rt booking class_ w) {draft : Draft} {slot : StructuralMasterSlot} (at_ : w.class_ = .inserted draft slot) :
    Sound rt booking class_ {w with
      db := {w.db with resources := w.db.resources ++ draft.made,slots := w.db.slots ++ [slot]},class_ := .created draft slot} := by
  have known := sound.class_
  rw [at_] at known
  obtain ⟨known,makes,of,fresh⟩ := known
  have unowned : ∀ row ∈ w.db.ledger, row.masterSlotId ≠ some slot.id := by
    intro row stored named
    obtain ⟨other,there,same⟩ := sound.stored.days row stored _ named
    exact nextId_notMem (w.db.slots.map StructuralMasterSlot.id) (fresh ▸ List.mem_map.mpr ⟨other,there,same⟩)
  refine ⟨⟨?_,?_⟩,(fun _ _ same => by cases same),?_,?_,?_⟩
  · rw [List.map_append,List.map_cons,List.map_nil,fresh]
    exact nodup_snoc sound.stored.slots (nextId_notMem _)
  · intro row stored id named
    obtain ⟨other,there,same⟩ := sound.stored.days row stored id named
    exact ⟨other,List.mem_append_left _ there,same⟩
  · refine sound.booking.same (fun row locked => slot_elsewhere ?_ _) rfl
    intro here
    exact sound.locks row locked (by rw [at_]; exact here)
  · exact ⟨⟨known.offering,known.cycle,known.live,known.claim⟩,makes,of,by simp,fun row stored named => absurd named (unowned row stored)⟩
  · intro reservation draft' slot' taken written
    cases written
    exact sound.clear reservation draft slot taken (by rw [at_]; rfl)

theorem Sound.fills (sound : Sound rt booking class_ w) {draft : Draft} {slot : StructuralMasterSlot} (at_ : w.class_ = .created draft slot)
    (moving : classWaits rt w = false) :
    Sound rt booking class_ {w with db := fillHorizon rt.cal rt.settings w.db draft.offering.cycleId,class_ := .filled draft slot} := by
  have known := sound.class_
  rw [at_] at known
  obtain ⟨known,makes,of,entered⟩ := known
  obtain ⟨new,same,each⟩ := fill_parts rt w.db draft.offering.cycleId
  have free : ∀ row, w.booking.lockedRow = some row → ∀ day ∈ new, day.resourceId ≠ some row := by
    intro row locked day added here
    unfold classWaits filledRows at moving
    rw [locked,at_] at moving
    have moving : ((fillHorizon rt.cal rt.settings w.db draft.offering.cycleId).ledger.drop w.db.ledger.length).any
        (fun day => day.resourceId = some row) = false := moving
    rw [same] at moving
    simp only [List.drop_left,List.any_eq_false] at moving
    exact moving day added (by simpa using here)
  rw [same]
  refine ⟨⟨sound.stored.slots,?_⟩,(fun _ _ shared => by cases shared),?_,?_,?_⟩
  · intro row stored id named
    rcases List.mem_append.mp stored with old | added
    · exact sound.stored.days row old id named
    · obtain ⟨other,there,owned,_⟩ := each row added
      exact ⟨other,there,Option.some.inj (owned.symm.trans named)⟩
  · exact sound.booking.same (fun row locked => days_elsewhere (free row locked)) rfl
  · refine ⟨⟨known.offering,known.cycle,known.live,known.claim⟩,makes,of,entered.stored,?_⟩
    intro row stored named
    rcases List.mem_append.mp stored with old | added
    · exact entered.days row old named
    · obtain ⟨other,there,owned,planned⟩ := each row added
      have equal : other = slot := same_of_key sound.stored.slots there entered.stored (Option.some.inj (owned.symm.trans named))
      exact equal ▸ planned
  · intro reservation draft' slot' taken written
    cases written
    exact sound.clear reservation draft slot taken (by rw [at_]; rfl)

theorem Sound.moves (sound : Sound rt booking class_ w) (guard : StillClear rt w .class_)
    (taken : act rt booking class_ w .class_ = some next) : Sound rt booking class_ next := by
  obtain ⟨moving,db,at_,stepped,rfl⟩ := act_class taken
  have known := sound.class_
  cases where_ : w.class_ with
  | arrived =>
    rw [where_] at stepped
    cases stepped
    refine sound.considers _ _ (fun offering read => ⟨?_,rfl,rfl⟩)
    obtain ⟨_,_,read⟩ := bind_parts.mp read
    obtain ⟨other,stored,read⟩ := bind_parts.mp read
    obtain ⟨_,_,read⟩ := bind_parts.mp read
    obtain ⟨_,live,read⟩ := bind_parts.mp read
    cases read
    exact ⟨found_parts.mp stored,ensure_parts.mp live⟩
  | offered offering =>
    rw [where_] at stepped known
    cases stepped
    exact sound.considers _ _ (fun _ _ => ⟨known,rfl,rfl⟩)
  | led offering =>
    rw [where_] at stepped known
    cases stepped
    refine sound.considers _ _ (fun start read => ⟨?_,rfl,rfl⟩)
    obtain ⟨cycle,stored,read⟩ := bind_parts.mp read
    obtain ⟨_,_,read⟩ := bind_parts.mp read
    cases read
    exact ⟨known.1,known.2,found_parts.mp stored⟩
  | anchored offering cycle dtstart =>
    rw [where_] at stepped known
    cases stepped
    exact sound.considers _ _ (fun _ _ => ⟨⟨known.1,known.2.2,known.2.1,rfl⟩,rfl,rfl⟩)
  | roomed draft =>
    rw [where_] at stepped known
    cases stepped
    exact sound.considers _ _ (fun _ _ => ⟨known,rfl,rfl⟩)
  | sawHolds draft =>
    rw [where_] at stepped known
    cases stepped
    exact sound.considers _ _ (fun _ _ => ⟨known,rfl,rfl⟩)
  | sawSlots draft =>
    rw [where_] at stepped known
    cases stepped
    exact sound.considers _ _ (fun _ _ => ⟨known,rfl,rfl⟩)
  | checked draft =>
    rw [where_] at stepped
    cases stepped
    exact sound.inserts where_ moving (guard draft where_)
  | inserted draft slot =>
    rw [where_] at stepped
    cases stepped
    exact sound.enters where_
  | created draft slot =>
    rw [where_] at stepped
    cases stepped
    exact sound.fills where_ moving
  | filled draft slot => rw [where_] at stepped; cases stepped
  | ended => rw [where_] at stepped; cases stepped

theorem sound_reached (stored : Stored db)
    (path : Runs.Reached (Runs.Guarded (Runs.Acts (act rt booking class_)) (StillClear rt)) (startOf db) w) : Sound rt booking class_ w := by
  refine path.invariant (Sound rt booking class_) (start_sound stored) ?_
  intro s turn next sound taken
  cases turn with
  | booking => exact sound.books taken.2
  | class_ => exact sound.moves taken.1 taken.2

theorem Sound.apart (sound : Sound rt booking class_ w) : Apart rt.cal w := by
  intro reservation slot taken committed counted here date ahead on
  have known := sound.class_
  have told : ∀ draft, w.class_.written = some (draft,slot) → draft.Known class_ w.db → draft.Makes slot →
      slot.activityId = class_.payload.activityId → ¬ Meets (slotSpan slot date) (heldSpan reservation) := by
    intro draft written known makes of
    obtain ⟨stored,cycle,service,dated⟩ := on
    have open_ : cycle.operationalStatus = true := by
      obtain ⟨_,_,_,_,_,open_⟩ := service
      exact open_
    obtain ⟨activity,offered,found_,_⟩ := service
    have same : activity = draft.offering := Option.some.inj (offered.symm.trans (of ▸ known.offering))
    have same' : cycle = draft.cycle := Option.some.inj (found_.symm.trans (same ▸ known.cycle))
    subst same'
    exact sound.clear reservation draft slot taken written counted here open_ date ahead dated
  cases where_ : w.class_ with
  | created draft slot' =>
    rw [where_] at committed known
    cases committed
    exact told draft (by rw [where_]; rfl) known.1 known.2.1 known.2.2.1
  | filled draft slot' =>
    rw [where_] at committed known
    cases committed
    exact told draft (by rw [where_]; rfl) known.1 known.2.1 known.2.2.1
  | _ => rw [where_] at committed; cases committed

-- A hall, and a course taught in it on Tuesdays from nine to eleven. The two
-- bookings are for the second Tuesday.
def term : Database := {staffed 100 with
  cycles := [⟨1,"Autumn",1,400,true⟩],activities := [⟨1,"CS101","Algorithms","CS",1,false⟩],
  resources := [⟨1,"Hall","hall",none,none,.exclusive,true,exclusive_bare⟩]}

def course : ClassRequest := ⟨⟨weeklyRule 2,some 100,clock 9 0,clock 11 0,1,none,"Hall",nine_to_eleven⟩,registrar⟩
def afternoon : BookingRequest := ⟨1,⟨107,clock 14 0,clock 16 0,"rehearsal",none,none,[],by decide,unit_by_default⟩,"k-1",registrar⟩
def morning : BookingRequest := ⟨1,⟨107,clock 10 0,clock 12 0,"rehearsal",none,none,[],ten_to_noon,unit_by_default⟩,"k-2",registrar⟩

-- The class has read what is held, and then the whole booking goes by.
def overtaken : List Turn := List.replicate 7 .class_ ++ List.replicate 10 .booking ++ List.replicate 2 .class_

theorem term_stored : Stored term := ⟨by decide,fun _ none_ => absurd none_ List.not_mem_nil⟩

end ChronosLedger.RoomRequests
