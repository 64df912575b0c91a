import ChronosLedger.PoolArithmetic

namespace ChronosLedger
open Spans

variable {cal : Recurrence} {sha256 strip : String → String}

theorem pool_room {db : Database} {resource : Resource} {day : Int} {start finish : Time} {quantity : Nat}
    (left : (poolState db resource.id day start finish).1+quantity ≤ (resource.capacity.getD 0 : Nat)) {i : Int}
    (covers : Covers (windowSpan day start finish) i) : heldLoad db resource.id i+quantity ≤ resource.capacity.getD 0 := by
  have low : 0 ≤ (poolState db resource.id day start finish).1 := by
    simp only [poolState,poolPeak_cut]
    exact Levels.peak_nonneg Levels.cutTakings_proper
  have most := (poolState_exact db resource.id day start finish
    (show 0 ≤ ((resource.capacity.getD 0 : Nat) : Int)-quantity by omega)).mp (by omega) i covers
  omega

-- The three answers of the checks that let a booking onto a resource.
structure Clear (cal : Recurrence) (db : Database) (resource : Resource) (window : Window) (quantity : Nat) : Prop where
  single : resource.mode ≠ .pooled → quantity = 1
  conflicts : resource.mode ≠ .shared →
    windowConflicts cal db resource.id window.date window.start window.finish (resource.mode = .exclusive) = []
  pool : resource.mode = .pooled →
    (poolState db resource.id window.date window.start window.finish).1+quantity ≤ (resource.capacity.getD 0 : Nat)

theorem Clear.bookable {db : Database} {resource : Resource} {window : Window} {quantity : Nat} {row : Reservation}
    (clear : Clear cal db resource window quantity) (stored : resource ∈ db.resources) (on : row.resourceId = resource.id)
    (mode : row.mode = resource.mode) (status : row.status = .held) (fresh : row.id ∉ db.reservations.map Reservation.id)
    (units : row.quantity = quantity) (span : heldSpan row = windowSpan window.date window.start window.finish) :
    Bookable cal db resource row where
  stored := stored
  on := on
  mode := mode
  status := status
  fresh := fresh
  single := fun single => units.trans (clear.single single)
  timetable := fun counted => by
    rw [span]
    exact (windowConflicts_exact.mp (clear.conflicts counted)).1
  holds := fun exclusive => by
    rw [span]
    exact (windowConflicts_exact.mp (clear.conflicts (by simp [exclusive]))).2 (by simp [exclusive])
  pool := fun pooled i covers => by
    rw [units]
    exact pool_room (clear.pool pooled) (span ▸ covers)

theorem insertReservation_parts {db next : Database} {row : Reservation} :
    insertReservation db row = .ok next ↔ (¬ ∃ other ∈ db.reservations, sameKey other row ∨ sameRef other row) ∧ next = book db row := by
  unfold insertReservation
  split
  · rename_i clash
    simp [clash]
  · rename_i free
    simp [free,book,eq_comm]

theorem problem_none {db : Database} {resource : Resource} {window : Window} {quantity : Nat}
    (single : resource.mode ≠ .pooled → quantity = 1) (free : problem cal db resource window quantity = none) :
    Clear cal db resource window quantity := by
  unfold problem at free
  split at free
  · cases free
  · cases mode : resource.mode with
    | shared => exact ⟨single,by simp [mode],by simp [mode]⟩
    | exclusive =>
      simp only [mode] at free
      split at free
      · rename_i none
        exact ⟨single,fun _ => by simpa [mode] using none,by simp [mode]⟩
      · cases free
    | pooled =>
      simp only [mode] at free
      split at free
      · cases free
      · rename_i none
        split at free
        · cases free
        · rename_i room
          exact ⟨single,fun _ => by simpa [mode] using none,fun _ => by omega⟩

-- A hold of the walk is a booking; on a dry run it writes nothing.
theorem hold_moves {walker : Walker} {run next : Run} {resource : Resource} {window : Window} {quantity : Nat}
    (stored : resource ∈ run.db.resources) (single : resource.mode ≠ .pooled → quantity = 1)
    (free : problem cal run.db resource window quantity = none)
    (held : hold sha256 walker run resource window quantity = .ok next) :
    HoldMoves cal run.db next.db ∧ next.db.resources = run.db.resources := by
  unfold hold at held
  dsimp only at held
  split at held
  · cases held
    exact ⟨.refl,rfl⟩
  · split at held
    · rename_i proper
      rw [bind_parts] at held
      obtain ⟨db,inserted,kept⟩ := held
      obtain ⟨_,rfl⟩ := insertReservation_parts.mp inserted
      cases kept
      have clear := problem_none single free
      exact ⟨.single (.book (clear.bookable stored rfl rfl rfl (nextId_notMem _) rfl rfl)),rfl⟩
    · cases held

def KeepsMoves (cal : Recurrence) (run next : Run) : Prop := HoldMoves cal run.db next.db ∧ next.db.resources = run.db.resources

theorem walkSteps_moves (walker : Walker) : WalkSteps cal sha256 walker (KeepsMoves cal) where
  same := fun _ => ⟨.refl,rfl⟩
  rooms := fun _ _ kept => kept.2
  compose := fun _ _ _ one two => ⟨one.1.trans two.1,two.2.trans one.2⟩
  missed := by
    intro run row found missing next missed
    unfold miss at missed
    split at missed
    · cases missed
    · cases missed
      exact ⟨.refl,rfl⟩
  popped := fun _ _ => ⟨.refl,rfl⟩
  held := fun _ _ _ _ _ stored _ single free held => hold_moves stored single free held

theorem resolve_moves {db : Database} {owners : List (RequirementOwner × Nat)} {window : Window} {used : List Nat}
    {parent : Option Reservation} {requesterId : Option String} {assignments : List (String × List Nat)} {run : Run}
    (resolved : resolve cal sha256 db owners window used parent requesterId assignments = .ok run) : HoldMoves cal db run.db :=
  (walk_keeps (walkSteps_moves _) (resolve_parts.mp resolved).1).1

theorem bookAnew_moves {db next : Database} {resource : Resource} {payload : ReservationCreate} {key print : String}
    {currentUser : User} {view : BookingView} (stored : resource ∈ db.resources)
    (booked : bookAnew cal sha256 strip db resource payload key print currentUser = .ok (next,view)) : HoldMoves cal db next := by
  unfold bookAnew at booked
  split at booked
  · cases booked
  simp only [bind_parts,ensure_parts] at booked
  obtain ⟨_,_,_,single,_,_,_,checks,inserted⟩ := booked
  obtain ⟨conflicts,pool⟩ := bookingChecks_parts.mp checks
  split at inserted
  · rw [bind_parts] at inserted
    obtain ⟨_,_,kept⟩ := inserted
    cases kept
    exact .refl
  · rename_i db' wrote
    obtain ⟨_,rfl⟩ := insertReservation_parts.mp wrote
    rw [bind_parts] at inserted
    obtain ⟨run,resolved,kept⟩ := inserted
    cases kept
    have one : resource.mode ≠ .pooled → payload.quantity = 1 := by
      intro other
      have few : ¬ 1 < payload.quantity := fun many => other (single many)
      have some_ := payload.units
      simp only [ReservationCreate.quantity] at few ⊢
      omega
    have clear : Clear cal db resource payload.asked payload.quantity := ⟨one,conflicts,pool⟩
    exact .head (.book (clear.bookable stored rfl rfl rfl (nextId_notMem _) rfl rfl)) (resolve_moves resolved)

theorem createReservation_moves {db next : Database} {resourceId : Nat} {payload : ReservationCreate} {key : String}
    {currentUser : User} {view : BookingView}
    (created : createReservation cal sha256 strip db resourceId payload key currentUser = .ok (next,view)) : HoldMoves cal db next := by
  unfold createReservation at created
  simp only [bind_parts,found_parts] at created
  obtain ⟨_,_,resource,known,_,_,answered⟩ := created
  split at answered
  · rw [bind_parts] at answered
    obtain ⟨_,_,kept⟩ := answered
    cases kept
    exact .refl
  · exact bookAnew_moves (find_key known).1 answered

theorem cancelReservation_moves {db next : Database} {resourceId reservationId : Nat} {currentUser : User} {row : Reservation}
    (done : cancelReservation db resourceId reservationId currentUser = .ok (next,row)) : HoldMoves cal db next := by
  unfold cancelReservation at done
  simp only [bind_parts,found_parts,ensure_parts] at done
  obtain ⟨_,_,reservation,_,_,_,answered⟩ := done
  split at answered
  · cases answered
    exact .refl
  · cases answered
    refine .single ?_
    have moved : HoldMove cal db (release db (fun r => decide (r.id = reservation.id ∨
      r.parentReservationId = some reservation.id ∧ r.status = .held))) := .release _
    simpa [release] using moved

theorem holdsToCome_perm (db : Database) (resourceId : Nat) : (holdsToCome db resourceId).Perm (toCome db resourceId) := by
  refine (List.perm_insertionSort _ _).trans (List.Perm.of_eq ?_)
  rw [toCome,heldOn,List.filter_filter]
  apply List.filter_congr
  intro held _
  simp only [Bool.decide_and]
  grind

theorem FitsMode.perm {mode : ResourceMode} {capacity : Nat} {one two : List Reservation} (fits : FitsMode mode capacity one)
    (same : one.Perm two) : FitsMode mode capacity two := by
  refine ⟨fun exclusive => ⟨?_,?_⟩,fun pooled i => ?_⟩
  · intro held member
    exact (fits.1 exclusive).1 held (same.mem_iff.mpr member)
  · exact (same.pairwise_iff (fun apart met => apart met.symm)).mp (fits.1 exclusive).2
  · rw [← Levels.load_perm (same.map heldTaking) i]
    exact fits.2 pooled i

-- No misfit among the holds: they meet the rules of the mode they move to and,
-- unless it is shared, none of them sits on the timetable.
theorem wouldNotFit_none {db : Database} {resourceId : Nat} {mode : ResourceMode} {capacity : Nat} {holds : List Reservation}
    (distinct : (holds.map Reservation.id).Nodup) (none : wouldNotFit cal db resourceId mode capacity holds = []) :
    FitsMode mode capacity holds ∧
      (mode ≠ .shared → ∀ held ∈ holds, ¬ TimetableMeets cal db (some resourceId) (heldSpan held)) := by
  obtain ⟨_,each⟩ := @wouldNotFit_exact cal db resourceId mode capacity holds distinct
  rw [none] at each
  by_cases shared : mode = .shared
  · subst shared
    exact ⟨⟨by simp,by simp⟩,by simp⟩
  · constructor
    · refine (fitsMode_exact distinct).mpr (fun held listed takes => ?_)
      exact absurd ((each held listed).mpr ⟨shared,.inr takes⟩) List.not_mem_nil
    · intro counted held listed meets
      exact absurd ((each held listed).mpr ⟨counted,.inl meets⟩) List.not_mem_nil

theorem holdsToCome_distinct {db : Database} (keyed : Keyed db) (resourceId : Nat) :
    ((holdsToCome db resourceId).map Reservation.id).Nodup := by
  refine ((holdsToCome_perm db resourceId).map Reservation.id).nodup_iff.mpr ?_
  exact keyed.reservations.sublist ((List.filter_sublist.trans List.filter_sublist).map Reservation.id)

theorem updateResource_moves {db next : Database} {resourceId : Nat} {payload : ResourceUpdate} {currentUser : User}
    {answered : Resource} (keyed : Keyed db)
    (done : updateResource cal db resourceId payload currentUser = .ok (next,answered)) : HoldMoves cal db next := by
  unfold updateResource at done
  simp only [bind_parts,found_parts] at done
  obtain ⟨_,_,resource,known,active,_,kept⟩ := done
  obtain ⟨stored,rfl⟩ := find_key known
  split at kept
  · rename_i sized
    simp only [bind_parts,ensure_parts,Except.ok.injEq,Prod.mk.injEq] at kept
    obtain ⟨_,fine,rfl,rfl⟩ := kept
    have same := holdsToCome_perm db resource.id
    have distinct := holdsToCome_distinct keyed resource.id
    have change : Refit cal db resource {resource with
        mode := payload.mode.getD resource.mode,capacity := payload.capacity.getD resource.capacity,active := active
        poolCapacity := sized} := by
      refine ⟨stored,rfl,fun changes => ?_,fun moved counted held listed => ?_⟩
      · rw [if_pos changes] at fine
        exact (wouldNotFit_none distinct fine).1.perm same
      · rw [if_pos (.inl moved)] at fine
        exact (wouldNotFit_none distinct fine).2 counted held (same.mem_iff.mpr listed)
    refine .single ((congrArg (HoldMove cal db) ?_).mp (.refit change))
    unfold refit
    congr 1
    by_cases stays : payload.mode.getD resource.mode = resource.mode
    · simp [stays]
    · simp only [stays,if_false]
      exact List.map_congr_left (fun row _ => by simp only [same.mem_iff])
  · cases kept

-- The calls that take, drop or reshape holds, and the clock.
def Operation.onHolds : Operation → Bool
  | .createReservation .. => true
  | .cancelReservation .. => true
  | .updateResource .. => true
  | .advanceClock .. => true
  | _ => false

variable {rt : Runtime}

theorem onHolds_moves {db : Database} {op : Operation} (keyed : Keyed db) (kind : op.onHolds = true) :
    HoldMoves rt.cal db (perform rt db op) := by
  unfold perform
  split
  · rename_i next done
    cases op with
    | createReservation => exact createReservation_moves (stateOf_parts.mp done).choose_spec
    | cancelReservation => exact cancelReservation_moves (stateOf_parts.mp done).choose_spec
    | updateResource => exact updateResource_moves keyed (stateOf_parts.mp done).choose_spec
    | advanceClock days =>
      cases done
      exact .single (.advance days)
    | _ => cases kind
  · exact .refl

theorem fits_moves {db next : Database} (keyed : Keyed db) (fits : Fits db) (moves : HoldMoves cal db next) :
    Keyed next ∧ Fits next := by
  induction moves with
  | refl => exact ⟨keyed,fits⟩
  | tail _ move ih => exact ⟨ih.1.preserved move,ih.2.preserved ih.1 move⟩

theorem fits_runs {start db : Database} (resources : (start.resources.map Resource.id).Nodup) (unbooked : start.reservations = [])
    (path : Runs.Reached (Runs.Guarded (Performs rt) (fun _ op => op.onHolds = true)) start db) : Keyed db ∧ Fits db := by
  have none : ∀ id, toCome start id = [] := by simp [toCome,heldOn,unbooked]
  refine path.invariant (fun db => Keyed db ∧ Fits db) ⟨⟨resources,by simp [unbooked]⟩,by simp [none],fun _ _ => ?_⟩ ?_
  · rw [none]
    exact ⟨fun _ => ⟨by simp,.nil⟩,fun _ i => by simp [Levels.load]⟩
  · rintro before op next ⟨keyed,fits⟩ ⟨kind,rfl⟩
    exact fits_moves keyed fits (onHolds_moves keyed kind)

-- A hold that ends after a midnight is dated the day before it or later.
theorem ends_toCome {db : Database} {resourceId : Nat} {held : Reservation} (listed : held ∈ heldOn db resourceId)
    (ends : midnight db.orgToday < (heldSpan held).2) : held ∈ toCome db resourceId := by
  have closes := span_closes held.reservedDate held.timeWindowStart held.timeWindowEnd
  have last := lastDate_bounds held.reservedDate held.timeWindowStart held.timeWindowEnd
  have late := midnight_lt.mp (lt_trans ends closes)
  exact mem_toCome.mpr ⟨listed,by omega⟩

def holdsAt (db : Database) (resourceId : Nat) (i : Int) : List Reservation :=
  (heldOn db resourceId).filter (fun held => Covers (heldSpan held) i)

theorem holdsAt_toCome {db : Database} (resourceId : Nat) {i : Int} (from_ : midnight db.orgToday ≤ i) :
    (holdsAt db resourceId i).Sublist (toCome db resourceId) := by
  have same : holdsAt db resourceId i = (toCome db resourceId).filter (fun held => Covers (heldSpan held) i) := by
    rw [holdsAt,toCome,List.filter_filter]
    apply List.filter_congr
    intro held listed
    by_cases covers : Covers (heldSpan held) i
    · have late := (mem_toCome.mp (ends_toCome listed (lt_of_le_of_lt from_ covers.2))).2
      simp [covers,late]
    · simp [covers]
  rw [same]
  exact List.filter_sublist

theorem holdsAt_sum (db : Database) (resourceId : Nat) (i : Int) :
    ((holdsAt db resourceId i).map Reservation.quantity).sum = Levels.load ((holdsAt db resourceId i).map heldTaking) i := by
  rw [Levels.load,List.map_map]
  congr 1
  apply List.map_congr_left
  intro held listed
  have covers : Covers (heldSpan held) i := by simpa using (List.mem_filter.mp listed).2
  simp [heldTaking,covers]

-- A pool of three vans: two are taken, two more do not fit, and then the pool
-- shrinks to the two that are taken.
def motorPool : Resource := ⟨1,"van","VAN",none,some 3,.pooled,true,fun _ => by decide⟩

def vans (start finish : Time) (proper : finish ≠ start) : ReservationCreate :=
  ⟨738001,start,finish,"trip",some 2,none,[],proper,by decide⟩

def vanCalls : List Operation :=
  [.createReservation 1 (vans (clock 9 0) (clock 12 0) nine_to_noon) "first" registrar,
    .createReservation 1 (vans (clock 11 0) (clock 13 0) eleven_to_one) "second" registrar,
    .updateResource 1 ⟨some (some 2),none,none⟩ registrar,
    .advanceClock 1]

def vanDay : Database := performAll plainRuntime {staffed 738000 with resources := [motorPool]} vanCalls

end ChronosLedger
