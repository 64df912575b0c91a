import ChronosLedger.BookingWalks
import ChronosLedger.TimetableMoves

namespace ChronosLedger.BookingSessions
open Sessions

variable {cal : Recurrence} {sha256 strip : String → String} {changeFeedEnabled : Bool}

-- Bookings and what they hold. A row held for another names a booking, never a
-- row held for one in turn, which is why cancelling looks one level down only.
structure Together (rows : List Reservation) : Prop where
  keyed : (rows.map Reservation.id).Nodup
  flat : ∀ child ∈ rows, ∀ id, child.parentReservationId = some id →
    ∃ booking ∈ rows, booking.id = id ∧ booking.parentReservationId = none ∧ child.resourceId ≠ booking.resourceId
  apart : ∀ one ∈ rows, ∀ two ∈ rows, one.parentReservationId.isSome → one.parentReservationId = two.parentReservationId →
    one.resourceId = two.resourceId → one = two
  held : ∀ child ∈ rows, ∀ booking ∈ rows, child.parentReservationId = some booking.id → child.status = .held → booking.status = .held

-- A booking and the rows taken for it, next to what was there before.
structure Made (before : List Reservation) (booking : Reservation) (children : List Reservation) : Prop where
  top : booking.parentReservationId = none
  held : booking.status = .held
  named : ∀ child ∈ children, child.parentReservationId = some booking.id
  kept : ∀ child ∈ children, child.status = .held
  rooms : ((booking :: children).map Reservation.resourceId).Nodup
  keyed : ((before ++ booking :: children).map Reservation.id).Nodup

section
variable {before children : List Reservation} {booking child : Reservation}

theorem Made.alone (keyed : (before.map Reservation.id).Nodup) (top : booking.parentReservationId = none) (held : booking.status = .held)
    (fresh : booking.id ∉ before.map Reservation.id) : Made before booking [] where
  top := top
  held := held
  named := fun _ none => absurd none List.not_mem_nil
  kept := fun _ none => absurd none List.not_mem_nil
  rooms := List.nodup_singleton _
  keyed := by
    rw [List.map_append,List.map_singleton]
    exact nodup_snoc keyed fresh

theorem Made.more (made : Made before booking children) (named : child.parentReservationId = some booking.id) (kept : child.status = .held)
    (unused : child.resourceId ∉ (booking :: children).map Reservation.resourceId)
    (fresh : child.id ∉ (before ++ booking :: children).map Reservation.id) : Made before booking (children ++ [child]) where
  top := made.top
  held := made.held
  named := List.forall_mem_append.mpr ⟨made.named,List.forall_mem_singleton.mpr named⟩
  kept := List.forall_mem_append.mpr ⟨made.kept,List.forall_mem_singleton.mpr kept⟩
  rooms := by
    rw [← List.cons_append,List.map_append,List.map_singleton]
    exact nodup_snoc made.rooms unused
  keyed := by
    rw [← List.cons_append,← List.append_assoc,List.map_append,List.map_singleton]
    exact nodup_snoc made.keyed fresh

theorem Together.made (together : Together before) (made : Made before booking children) : Together (before ++ booking :: children) := by
  obtain ⟨_,fresh⟩ : (before.map Reservation.id).Nodup ∧ ∀ row ∈ before, row.id ≠ booking.id := by
    have keyed := made.keyed
    rw [List.map_append,List.map_cons,List.nodup_append] at keyed
    exact ⟨keyed.1,fun row there => keyed.2.2 _ (List.mem_map_of_mem there) _ (by simp)⟩
  have here : booking ∈ before ++ booking :: children := by simp
  -- An earlier row was held for an earlier booking.
  have earlier : ∀ row ∈ before, row.parentReservationId ≠ some booking.id := fun row there named => by
    obtain ⟨old,stored,same,_⟩ := together.flat row there _ named
    exact fresh old stored same
  have parts : ∀ row ∈ before ++ booking :: children, row ∈ before ∨ row = booking ∨ row ∈ children := by simp
  have rooms := made.rooms
  rw [List.map_cons,List.nodup_cons] at rooms
  refine ⟨made.keyed,?_,?_,?_⟩
  · intro row there id named
    rcases parts row there with old | rfl | new
    · obtain ⟨booking,stored,same⟩ := together.flat row old id named
      exact ⟨booking,List.mem_append_left _ stored,same⟩
    · rw [made.top] at named
      cases named
    · rw [made.named row new] at named
      cases named
      exact ⟨booking,here,rfl,made.top,fun same => rooms.1 (same ▸ List.mem_map_of_mem new)⟩
  · intro one there two there' child same room
    rcases parts one there with old | rfl | new
    · rcases parts two there' with old' | rfl | new'
      · exact together.apart one old two old' child same room
      · rw [same,made.top] at child
        cases child
      · exact absurd (same.trans (made.named two new')) (earlier one old)
    · rw [made.top] at child
      cases child
    · rcases parts two there' with old' | rfl | new'
      · exact absurd (same.symm.trans (made.named one new)) (earlier two old')
      · rw [same,made.top] at child
        cases child
      · exact List.inj_on_of_nodup_map rooms.2 new new' room
  · intro row there other there' named held
    rcases parts other there' with old' | rfl | new'
    · rcases parts row there with old | rfl | new
      · exact together.held row old other old' named held
      · rw [made.top] at named
        cases named
      · rw [made.named row new] at named
        exact absurd (Option.some.inj named).symm (fresh other old')
    · exact made.held
    · exact made.kept other new'

theorem Together.mapped {rows : List Reservation} (together : Together rows) (change : Reservation → Reservation)
    (id : ∀ row, (change row).id = row.id) (room : ∀ row, (change row).resourceId = row.resourceId)
    (parent : ∀ row, (change row).parentReservationId = row.parentReservationId)
    (held : ∀ child ∈ rows, ∀ booking ∈ rows, child.parentReservationId = some booking.id → (change child).status = .held →
      (change booking).status = .held) : Together (rows.map change) where
  keyed := by
    rw [List.map_map]
    exact (List.map_congr_left (fun row _ => id row)) ▸ together.keyed
  flat := by
    intro child there name named
    obtain ⟨row,stored,rfl⟩ := List.mem_map.mp there
    obtain ⟨booking,other,same,top,apart⟩ := together.flat row stored name (parent row ▸ named)
    exact ⟨change booking,List.mem_map_of_mem other,(id booking).trans same,(parent booking).trans top,by rwa [room,room]⟩
  apart := by
    intro one there two there' child same rooms
    obtain ⟨row,stored,rfl⟩ := List.mem_map.mp there
    obtain ⟨other,stored',rfl⟩ := List.mem_map.mp there'
    rw [parent,parent] at same
    rw [room,room] at rooms
    exact congrArg change (together.apart row stored other stored' (parent row ▸ child) same rooms)
  held := by
    intro child there booking there' named status
    obtain ⟨row,stored,rfl⟩ := List.mem_map.mp there
    obtain ⟨other,stored',rfl⟩ := List.mem_map.mp there'
    rw [parent,id] at named
    exact held row stored other stored' named status

end

def letGoRow (gone : List Nat) (row : Reservation) : Reservation := if row.id ∈ gone then cancelled row else row

theorem letGoRow_frame (gone : List Nat) (row : Reservation) : (letGoRow gone row).id = row.id ∧
    (letGoRow gone row).resourceId = row.resourceId ∧ (letGoRow gone row).parentReservationId = row.parentReservationId := by
  unfold letGoRow
  split <;> exact ⟨rfl,rfl,rfl⟩

-- Letting a booking go lets all of it go: what is held for it is one level down.
theorem Together.lets_go {store : Store} (together : Together store.db.reservations) {reservation : Reservation}
    (stored : reservation ∈ store.db.reservations) : Together (letGo changeFeedEnabled store reservation).db.reservations := by
  let gone := (goneWith store.db reservation).map Reservation.id
  have frame := letGoRow_frame gone
  refine together.mapped (letGoRow gone) (fun row => (frame row).1) (fun row => (frame row).2.1) (fun row => (frame row).2.2) ?_
  intro child there booking there' named status
  have alive : child.id ∉ gone := fun listed => by
    rw [letGoRow,if_pos listed] at status
    cases status
  rw [letGoRow,if_neg alive] at status
  have whole := together.held child there booking there' named status
  -- The booking is not what is let go, and no row held for it either.
  have stays : booking.id ∉ gone := fun listed => by
    obtain ⟨other,member,same⟩ := List.mem_map.mp listed
    rcases List.mem_cons.mp member with rfl | below
    · refine alive (List.mem_map_of_mem (List.mem_cons_of_mem _ ?_))
      refine List.mem_filter.mpr ⟨(List.mem_insertionSort _).mpr (List.mem_filter.mpr ⟨there,?_⟩),by simpa using status⟩
      rw [same]
      simpa using named
    · obtain ⟨kin,_⟩ := List.mem_filter.mp below
      obtain ⟨present,parented⟩ := List.mem_filter.mp ((List.mem_insertionSort _).mp kin)
      obtain ⟨top,known,numbered,free,_⟩ := together.flat child there _ named
      have equal : top = other := List.inj_on_of_nodup_map together.keyed known present (numbered.trans same.symm)
      rw [equal] at free
      rw [free] at parented
      simp at parented
  rw [letGoRow,if_neg stays]
  exact whole

-- A walk under way: the booking and its children at the end of the table, on
-- resources that are used.
structure Family (parent : Reservation) (before : List Reservation) (run : Run) : Prop where
  rows : run.db.reservations = before ++ parent :: run.children
  made : Made before parent run.children
  used : ∀ row ∈ parent :: run.children, row.resourceId ∈ run.used

theorem Family.held {parent : Reservation} {before : List Reservation} {run next : Run} {walker : Walker} (family : Family parent before run)
    (real : walker.parent = some parent) {resource : Resource} {window : Window} {quantity : Nat} (unused : resource.id ∉ run.used)
    (holding : hold sha256 walker run resource window quantity = .ok next) : Family parent before next := by
  obtain ⟨_,_,child,children,rows,used,room,named,kept,number⟩ := hold_child real holding
  refine ⟨by rw [rows,family.rows,children,List.append_assoc,List.cons_append],?_,?_⟩
  · rw [children]
    refine family.made.more named kept (fun listed => ?_) ?_
    · obtain ⟨row,there,same⟩ := List.mem_map.mp listed
      exact unused (room ▸ same ▸ family.used row there)
    · rw [number,← family.rows]
      exact nextId_notMem _
  · rw [children,used,← List.cons_append]
    refine List.forall_mem_append.mpr ⟨fun row there => List.mem_cons_of_mem _ (family.used row there),List.forall_mem_singleton.mpr ?_⟩
    rw [room]
    exact List.mem_cons_self

theorem walk_family {parent : Reservation} {before : List Reservation} {run next : Run} {walker : Walker} (real : walker.parent = some parent)
    {levels : Nat} {owners : List (RequirementOwner × Nat)} {window : Window} (family : Family parent before run)
    (done : walk cal sha256 walker levels owners window run = .ok next) : Family parent before next := by
  let keeps (one two : Run) : Prop := two.db.resources = one.db.resources ∧ (Family parent before one → Family parent before two)
  suffices kept : keeps run next from kept.2 family
  refine walk_keeps ?_ done
  refine ⟨fun _ => ⟨rfl,id⟩,fun _ _ kept => kept.1,fun _ _ _ one two => ⟨two.1.trans one.1,two.2 ∘ one.2⟩,?_,?_,?_⟩
  · intro run row found missing next missed
    unfold miss at missed
    split at missed
    · cases missed
    · cases missed
      exact ⟨rfl,fun family => ⟨family.rows,family.made,family.used⟩⟩
  · exact fun run kind => ⟨rfl,fun family => ⟨family.rows,family.made,family.used⟩⟩
  · intro run resource window quantity next _ unused _ _ holding
    exact ⟨(hold_child real holding).1,fun family => family.held real unused holding⟩

-- What an accepted booking comes to: a replay, or a booking of its own with its
-- children behind it.
theorem createReservation_made {db next : Database} {resourceId : Nat} {payload : ReservationCreate} {key : String} {currentUser : User}
    {view : BookingView} (keyed : (db.reservations.map Reservation.id).Nodup)
    (created : createReservation cal sha256 strip db resourceId payload key currentUser = .ok (next,view)) :
    view.replayed = true ∧ next = db ∨ view.replayed = false ∧ Made db.reservations view.reservation view.children ∧
      next.reservations = db.reservations ++ view.reservation :: view.children := by
  unfold createReservation at created
  obtain ⟨_,_,created⟩ := bind_parts.mp created
  obtain ⟨resource,_,created⟩ := bind_parts.mp created
  obtain ⟨_,_,answered⟩ := bind_parts.mp created
  dsimp only at answered
  split at answered
  · obtain ⟨_,replayed,same⟩ := bind_parts.mp answered
    cases same
    exact .inl ⟨replay_replayed replayed,rfl⟩
  · unfold bookAnew at answered
    split at answered
    · cases answered
    · obtain ⟨_,_,answered⟩ := bind_parts.mp answered
      obtain ⟨_,_,answered⟩ := bind_parts.mp answered
      obtain ⟨_,_,answered⟩ := bind_parts.mp answered
      obtain ⟨_,_,answered⟩ := bind_parts.mp answered
      dsimp only at answered
      split at answered
      · obtain ⟨_,replayed,same⟩ := bind_parts.mp answered
        cases same
        exact .inl ⟨lost_replayed replayed,rfl⟩
      · rename_i inserted inserting
        obtain ⟨held,resolved,same⟩ := bind_parts.mp answered
        cases same
        obtain ⟨walked,_⟩ := resolve_parts.mp resolved
        obtain ⟨_,rfl⟩ := insertReservation_parts.mp inserting
        refine .inr ⟨rfl,?_⟩
        have family : Family _ db.reservations _ := walk_family rfl ⟨rfl,.alone keyed rfl rfl (nextId_notMem _),by simp [reservationRow]⟩ walked
        exact ⟨family.made,family.rows⟩

-- A booking's rows and its markers, all of them or none.
def Books (changeFeedEnabled : Bool) (store : Store) (view : BookingView) (after : Store) : Prop :=
  Made store.db.reservations view.reservation view.children ∧
    after.db.reservations = store.db.reservations ++ view.reservation :: view.children ∧
    after.markers = marked changeFeedEnabled store.markers ((view.reservation :: view.children).map createdMarker)

-- What a call comes to with the fuel for its walk.
structure Settles (cal : Recurrence) (sha256 strip : String → String) (changeFeedEnabled : Bool) (store : Store) (call : BookingCall)
    (reply : Answer Reply) (after : Store) : Prop where
  ends : ∀ fuel ≥ walkFuel store.db, (callIn cal sha256 strip changeFeedEnabled fuel call).on (opened store) = some (reply,opened after)
  together : Together after.db.reservations
  refused : ∀ refusal, reply = .error refusal → after = store
  booked : ∀ view, reply = .ok (.booked view) → view.replayed = true ∧ after = store ∨ Books changeFeedEnabled store view after

theorem call_settles {store : Store} (together : Together store.db.reservations) (call : BookingCall) :
    ∃ reply after, Settles cal sha256 strip changeFeedEnabled store call reply after := by
  cases call with
  | create resourceId payload key currentUser =>
    have exact_ : ∀ fuel ≥ walkFuel store.db, _ := fun fuel enough =>
      @createReservationIn_exact cal sha256 strip changeFeedEnabled store fuel enough resourceId payload key currentUser
    cases created : createReservation cal sha256 strip store.db resourceId payload key currentUser with
    | error refusal =>
      rw [created] at exact_
      exact ⟨.error refusal,store,fun fuel enough => bind_error (exact_ fuel enough),together,fun _ _ => rfl,fun _ same => nomatch same⟩
    | ok answered =>
      obtain ⟨next,view⟩ := answered
      rw [created] at exact_
      refine ⟨.ok (.booked view),bookedStore changeFeedEnabled store next view,fun fuel enough => (bind_ok (exact_ fuel enough)).trans rfl,?_,
        fun _ same => (nomatch same),fun other same => ?_⟩
      · rcases createReservation_made together.keyed created with ⟨_,rfl⟩ | ⟨_,made,rows⟩
        · exact together
        · change Together next.reservations
          rw [rows]
          exact together.made made
      · cases same
        unfold bookedStore
        rcases createReservation_made together.keyed created with ⟨replayed,rfl⟩ | ⟨anew,made,rows⟩
        · rw [if_pos replayed]
          exact .inl ⟨replayed,rfl⟩
        · rw [if_neg (by rw [anew]; decide)]
          exact .inr ⟨made,rows,rfl⟩
  | cancel resourceId reservationId currentUser =>
    rcases @cancelReservationIn_parts changeFeedEnabled store resourceId reservationId currentUser with
      ⟨refusal,ended⟩ | ⟨reservation,stored,_,_,⟨_,ended⟩ | ⟨_,ended⟩⟩
    · exact ⟨.error refusal,store,fun _ _ => bind_error ended,together,fun _ _ => rfl,fun _ same => nomatch same⟩
    · exact ⟨.ok (.letGo reservation),store,fun _ _ => (bind_ok ended).trans rfl,together,fun _ same => (nomatch same),
        fun _ same => nomatch same⟩
    · exact ⟨.ok (.letGo (cancelled reservation)),letGo changeFeedEnabled store reservation,fun _ _ => (bind_ok ended).trans rfl,
        together.lets_go stored,fun _ same => (nomatch same),fun _ same => nomatch same⟩

theorem Settles.answers {store after : Store} {call : BookingCall} {reply : Answer Reply}
    (settles : Settles cal sha256 strip changeFeedEnabled store call reply after) :
    Answers cal sha256 strip changeFeedEnabled (opened store) call reply (opened after) := ⟨_,settles.ends⟩

-- However much fuel showed an answer, it is the one the walk's fuel gives.
theorem Settles.only {store after : Store} {call : BookingCall} {reply other : Answer Reply} {s : Session}
    (settles : Settles cal sha256 strip changeFeedEnabled store call reply after)
    (answers : Answers cal sha256 strip changeFeedEnabled (opened store) call other s) : other = reply ∧ s = opened after := by
  obtain ⟨bound,always⟩ := answers
  have one := always (max bound (walkFuel store.db)) (le_max_left _ _)
  rw [settles.ends _ (le_max_right _ _)] at one
  cases one
  exact ⟨rfl,rfl⟩

-- A booking and what it holds stay together in every run of creations and
-- cancellations, the walk of every creation ends, and a refusal leaves neither a
-- reservation nor a marker behind.
theorem bookings_hold_together (cal : Recurrence) (sha256 strip : String → String) (changeFeedEnabled : Bool) {start : Store}
    (together : Together start.db.reservations) {s : Session}
    (path : Runs.Reached (Calls cal sha256 strip changeFeedEnabled) (opened start) s) :
    s = opened s.committed ∧ Together s.committed.db.reservations ∧ ∀ call,
      (∃ reply after, Answers cal sha256 strip changeFeedEnabled s call reply after) ∧
      (∀ refusal after, Answers cal sha256 strip changeFeedEnabled s call (.error refusal) after → after = s) ∧
      ∀ view after, Answers cal sha256 strip changeFeedEnabled s call (.ok (.booked view)) after →
        view.replayed = true ∧ after = s ∨ after = opened after.committed ∧ Books changeFeedEnabled s.committed view after.committed := by
  have reached : ∃ store, s = opened store ∧ Together store.db.reservations := by
    refine path.invariant (fun s => ∃ store, s = opened store ∧ Together store.db.reservations) ⟨start,rfl,together⟩ ?_
    rintro _ call next ⟨store,rfl,together⟩ ⟨reply,answers⟩
    obtain ⟨_,after,settles⟩ := @call_settles cal sha256 strip changeFeedEnabled store together call
    exact ⟨after,(settles.only answers).2,settles.together⟩
  obtain ⟨store,rfl,together⟩ := reached
  refine ⟨rfl,together,fun call => ?_⟩
  obtain ⟨reply,after,settles⟩ := @call_settles cal sha256 strip changeFeedEnabled store together call
  refine ⟨⟨reply,_,settles.answers⟩,?_,?_⟩
  · intro refusal left answers
    obtain ⟨same,rfl⟩ := settles.only answers
    rw [settles.refused refusal same.symm]
  · intro view left answers
    obtain ⟨same,rfl⟩ := settles.only answers
    rcases settles.booked view same.symm with ⟨replayed,unchanged⟩ | books
    · exact .inl ⟨replayed,by rw [unchanged]⟩
    · exact .inr ⟨rfl,books⟩

-- The calls one after the other, each with the fuel for its own walk.
def act (cal : Recurrence) (sha256 strip : String → String) (changeFeedEnabled : Bool) (s : Session) (call : BookingCall) : Option Session :=
  ((callIn cal sha256 strip changeFeedEnabled (walkFuel s.committed.db) call).on s).map Prod.snd

theorem acts_calls {start s : Session} (together : Together start.committed.db.reservations) (rested : start = opened start.committed)
    (path : Runs.Reached (Runs.Acts (act cal sha256 strip changeFeedEnabled)) start s) :
    Runs.Reached (Calls cal sha256 strip changeFeedEnabled) start s ∧ s = opened s.committed ∧ Together s.committed.db.reservations := by
  induction path with
  | start => exact ⟨.start,rested,together⟩
  | @step s next call prior taken ih =>
    obtain ⟨path,same,kept⟩ := ih
    obtain ⟨reply,after,settles⟩ := @call_settles cal sha256 strip changeFeedEnabled s.committed kept call
    have answers := settles.answers
    unfold Runs.Acts act at taken
    rw [same] at taken
    rw [← same] at answers
    change ((callIn cal sha256 strip changeFeedEnabled (walkFuel s.committed.db) call).on (opened s.committed)).map _ = _ at taken
    rw [settles.ends _ (le_refl _)] at taken
    cases taken
    exact ⟨.step path ⟨reply,answers⟩,rfl,settles.together⟩

-- A lab needs a cart and a cart needs a lab, round and round: the booking holds
-- all four and lives with the last gap. Then its cart is dropped, and then it.
def lab (id : Nat) : Resource := ⟨id,s!"lab {id}","LAB",none,none,.exclusive,true,exclusive_bare⟩

def cart (id : Nat) : Resource := ⟨id,s!"cart {id}","CART",none,none,.exclusive,true,exclusive_bare⟩

def needs (id : Nat) (kind : String) (enforcement : Option RequirementEnforcement) : ResourceRequirement :=
  ⟨id,.resource,id,.kind kind,1,0,0,enforcement,one_unit⟩

def roundAndRound (last : Option RequirementEnforcement) : Store :=
  ⟨{staffed 738000 with
    resources := [lab 1,cart 2,lab 3,cart 4]
    requirements := [needs 1 "CART" none,needs 2 "LAB" none,needs 3 "CART" none,needs 4 "LAB" last]},[]⟩

def practical : ReservationCreate := ⟨738001,clock 9 0,clock 12 0,"practical",none,none,[],nine_to_noon,unit_by_default⟩

def practicalCalls : List BookingCall := [.create 1 practical "key" registrar,.cancel 2 2 registrar,.cancel 1 1 registrar]

theorem practical_held_together : ∃ s : Session,
    s.committed.db.reservations.map (fun row => (row.id,row.resourceId,row.parentReservationId,row.status)) =
      [(1,1,none,.cancelled),(2,2,some 1,.cancelled),(3,3,some 1,.cancelled),(4,4,some 1,.cancelled)] ∧
    s.committed.markers.map Marker.reservationId = [1,2,3,4,2,1,3,4] ∧ Together s.committed.db.reservations := by
  have done : ∃ s ∈ Runs.trace (act plainRules id id true) (fun _ _ => True) (opened (roundAndRound (some .advisory))) practicalCalls,
      s.committed.db.reservations.map (fun row => (row.id,row.resourceId,row.parentReservationId,row.status)) =
        [(1,1,none,.cancelled),(2,2,some 1,.cancelled),(3,3,some 1,.cancelled),(4,4,some 1,.cancelled)] ∧
      s.committed.markers.map Marker.reservationId = [1,2,3,4,2,1,3,4] := by decide +kernel
  obtain ⟨s,run,rows,markers⟩ := done
  have none : Together (roundAndRound (some .advisory)).db.reservations := ⟨by decide,by decide,by decide,by decide⟩
  have path := (acts_calls none rfl (Runs.trace_reached .start run).unguard).1
  exact ⟨s,rows,markers,(bookings_hold_together plainRules id id true none path).2.1⟩

-- Refused four holds down, nothing of it is left.
example : (callIn plainRules id id true (walkFuel (roundAndRound none).db) (.create 1 practical "key" registrar)).on (opened (roundAndRound none)) =
    some (.error ⟨409,.conflicts "requirement 4 is not met: no free LAB resource: 1 of 1 LAB missing" [],.requirementUnsatisfied⟩,
      opened (roundAndRound none)) := by decide +kernel

end ChronosLedger.BookingSessions
