import ChronosLedger.BookingSessions
import ChronosLedger.HoldRuns

namespace ChronosLedger.BookingSessions
open Sessions

variable {cal : Recurrence} {sha256 strip : String → String} {changeFeedEnabled : Bool}

-- The markers a list of rows leaves when each is recorded in turn.
def marked (changeFeedEnabled : Bool) (base : List Marker) (markers : List Marker) : List Marker := markers.foldl (record changeFeedEnabled) base

-- How far a walk has come, as its session shows it: nothing committed since, and
-- a marker for each child.
def showsWalk (changeFeedEnabled : Bool) (committed : Store) (base : List Marker) (run : Run) : Walking :=
  ⟨committed,marked changeFeedEnabled base (run.children.map createdMarker),run⟩

theorem showsWalk_run (changeFeedEnabled : Bool) (committed : Store) (base : List Marker) (run : Run) :
    (showsWalk changeFeedEnabled committed base run).run = run := rfl

def Bounded (most : Nat) (run : Run) : Prop := ∀ row ∈ run.db.requirements, row.quantity ≤ most

def Uncommitted (committed : Store) (left : Walking) : Prop := left.committed = committed

section
variable {committed : Store} {base : List Marker} {most : Nat} {walker : Walker} {run : Run}

theorem stepIn_follows {step : Run → Answer Run} (kept : ∀ next, step run = .ok next → next.children = run.children ∧ Bounded most next) :
    Follows (showsWalk changeFeedEnabled committed base) (Bounded most) (Uncommitted committed) (stepIn step) run (valueless (step run)) := by
  cases taken : step run with
  | error refusal =>
    refine ⟨showsWalk changeFeedEnabled committed base run,?_,rfl⟩
    change (ask (step run) >>= _).on _ = _
    rw [taken]
    rfl
  | ok next =>
    obtain ⟨children,bounded⟩ := kept next taken
    refine ⟨?_,bounded⟩
    change (ask (step run) >>= _).on _ = _
    rw [taken]
    unfold showsWalk
    rw [children]
    rfl

theorem missIn_follows (row : ResourceRequirement) (found : Problem) (missing : Nat) (bounded : Bounded most run) :
    Follows (showsWalk changeFeedEnabled committed base) (Bounded most) (Uncommitted committed) (missIn walker row found missing) run
      (valueless (miss walker run row found missing)) := by
  unfold missIn
  refine stepIn_follows (fun next missed => ?_)
  unfold miss at missed
  split at missed
  · cases missed
  · cases missed
    exact ⟨rfl,bounded⟩

theorem hold_child {next : Run} {resource : Resource} {window : Window} {quantity : Nat} {parent : Reservation}
    (real : walker.parent = some parent) (held : hold sha256 walker run resource window quantity = .ok next) :
    next.db.resources = run.db.resources ∧ next.db.requirements = run.db.requirements ∧ ∃ child : Reservation, next.children = run.children ++ [child] ∧
      next.db.reservations = run.db.reservations ++ [child] ∧ next.used = resource.id :: run.used ∧ child.resourceId = resource.id ∧
      child.parentReservationId = some parent.id ∧ child.status = .held ∧ child.id = nextId (run.db.reservations.map Reservation.id) := by
  unfold hold at held
  rw [real] at held
  dsimp only at held
  split at held
  · obtain ⟨db,inserted,kept⟩ := bind_parts.mp held
    unfold insertReservation at inserted
    split at inserted
    · cases inserted
    · cases inserted
      cases kept
      exact ⟨rfl,rfl,_,rfl,rfl,rfl,rfl,rfl,rfl,rfl⟩
  · cases held

theorem holdIn_follows {parent : Reservation} (real : walker.parent = some parent) (resource : Resource) (window : Window) (quantity : Nat)
    (bounded : Bounded most run) : Follows (showsWalk changeFeedEnabled committed base) (Bounded most) (Uncommitted committed)
      (holdIn sha256 changeFeedEnabled walker resource window quantity) run (valueless (hold sha256 walker run resource window quantity)) := by
  unfold holdIn
  cases held : hold sha256 walker run resource window quantity with
  | error refusal =>
    refine ⟨showsWalk changeFeedEnabled committed base run,bind_error ?_,rfl⟩
    change (ask (hold sha256 walker run resource window quantity) >>= _).on _ = _
    rw [held]
    rfl
  | ok next =>
    obtain ⟨_,requirements,child,children,_⟩ := hold_child real held
    refine ⟨?_,fun row stored => bounded row (requirements ▸ stored)⟩
    have stepped : (stepIn (fun run => hold sha256 walker run resource window quantity)).on (showsWalk changeFeedEnabled committed base run) =
        some (.ok (),⟨committed,marked changeFeedEnabled base (run.children.map createdMarker),next⟩) := by
      change (ask (hold sha256 walker run resource window quantity) >>= _).on _ = _
      rw [held]
      rfl
    rw [bind_ok stepped,if_pos (by rw [real]; rfl),modify_on]
    simp only [showsWalk,children,List.getLast?_append,List.getLast?_singleton,Option.some_or,Option.map_some,Option.toList_some,
      List.map_append,List.map_cons,List.map_nil,marked,List.foldl_append]

variable {inner : Run → Nat → Window → Answer Run} {innerIn : Nat → Window → Working Walking Refusal Unit} {parent : Reservation}
  (real : walker.parent = some parent)
  (below : ∀ run id window, Bounded most run → Follows (showsWalk changeFeedEnabled committed base) (Bounded most) (Uncommitted committed)
    (innerIn id window) run (valueless (inner run id window)))
include real below

-- A hold and the walk over what the resource requires in turn.
theorem takeIn_follows (resource : Resource) (window : Window) (quantity : Nat) (bounded : Bounded most run) :
    Follows (showsWalk changeFeedEnabled committed base) (Bounded most) (Uncommitted committed)
      (holdIn sha256 changeFeedEnabled walker resource window quantity >>= fun _ => innerIn resource.id window) run
      (valueless (hold sha256 walker run resource window quantity >>= fun next => inner next resource.id window)) :=
  (holdIn_follows real resource window quantity bounded).then (fun _ kept _ => below _ _ _ kept)

theorem namedIn_follows (row : ResourceRequirement) (resource : Option Resource) (window : Window) (bounded : Bounded most run) :
    Follows (showsWalk changeFeedEnabled committed base) (Bounded most) (Uncommitted committed)
      (namedIn cal sha256 changeFeedEnabled walker innerIn row resource window) run
      (valueless (namedTarget cal sha256 walker inner run row resource window)) := by
  unfold namedIn namedTarget
  cases resource with
  | none => exact missIn_follows _ _ _ bounded
  | some resource =>
    refine .read ?_
    change Follows _ _ _ (if resource.id ∈ run.used then _ else _) _ _
    dsimp only
    by_cases used : resource.id ∈ run.used
    · rw [if_pos used,if_pos used]
      exact missIn_follows _ _ _ bounded
    · rw [if_neg used,if_neg used]
      simp only [showsWalk_run]
      cases problem cal run.db resource window (if resource.mode = .pooled then row.quantity else 1) with
      | some found => exact missIn_follows _ _ _ bounded
      | none => exact takeIn_follows real below resource window _ bounded

-- `left` is what the loop's own condition still allows.
theorem wantedIn_follows (row : ResourceRequirement) (kind : String) (window : Window) {fuel left got : Nat} {seen : List Problem}
    (allowed : got+seen.length+left = row.quantity) (enough : left < fuel) (bounded : Bounded most run) :
    Follows (showsWalk changeFeedEnabled committed base) (Bounded most) (Uncommitted committed)
      (wantedIn cal sha256 changeFeedEnabled walker innerIn row kind window fuel got seen) run
      (assignedTargets cal sha256 walker inner kind window left run got seen) := by
  induction left generalizing fuel got seen run with
  | zero =>
    obtain ⟨fuel,rfl⟩ : ∃ n, fuel = n+1 := ⟨fuel-1,by omega⟩
    unfold wantedIn assignedTargets
    rw [if_neg (by omega)]
    exact .value _ bounded
  | succ left ih =>
    obtain ⟨fuel,rfl⟩ : ∃ n, fuel = n+1 := ⟨fuel-1,by omega⟩
    unfold wantedIn assignedTargets
    rw [if_pos (by omega)]
    refine .read ?_
    simp only [showsWalk_run]
    cases assignedTo run kind with
    | nil => exact .value _ bounded
    | cons id _ =>
      refine .changed (show _ = showsWalk changeFeedEnabled committed base (popAssigned run kind) from rfl) (.read ?_)
      have bounded' : Bounded most (popAssigned run kind) := bounded
      simp only [showsWalk_run]
      cases (popAssigned run kind).db.resource? id with
      | none => exact .raised _ rfl
      | some resource =>
        dsimp only
        have missed : ∀ found, Follows (showsWalk changeFeedEnabled committed base) (Bounded most) (Uncommitted committed)
            (wantedIn cal sha256 changeFeedEnabled walker innerIn row kind window fuel got (seen ++ [found])) (popAssigned run kind)
            (assignedTargets cal sha256 walker inner kind window left (popAssigned run kind) got (seen ++ [found])) :=
          fun found => ih (by simp only [List.length_append,List.length_singleton]; omega) (by omega) bounded'
        by_cases used : resource.id ∈ (popAssigned run kind).used
        · simp only [used,if_true]
          exact missed _
        · simp only [used,if_false]
          cases problem cal (popAssigned run kind).db resource window 1 with
          | some found => exact missed found
          | none =>
            refine (holdIn_follows real resource window 1 bounded').next (fun held kept _ => ?_)
            exact (below held resource.id window kept).next (fun after kept _ => ih (by omega) (by omega) kept)

theorem pickedIn_follows (row : ResourceRequirement) (window : Window) (seen : List Problem) (candidates : List Resource) (got : Nat)
    (bounded : Bounded most run) : Follows (showsWalk changeFeedEnabled committed base) (Bounded most) (Uncommitted committed)
      (pickedIn cal sha256 changeFeedEnabled walker innerIn row window seen candidates got) run
      (pickedTargets cal sha256 walker inner row window seen candidates run got) := by
  induction candidates generalizing run got with
  | nil => exact .value _ bounded
  | cons candidate rest ih =>
    unfold pickedIn pickedTargets
    refine .read ?_
    change Follows _ _ _ (if got+seen.length ≥ row.quantity then _ else if candidate.id ∈ run.used ∨ candidate.id ∈ walker.named then _ else _) _ _
    by_cases full : got+seen.length ≥ row.quantity
    · rw [if_pos full,if_pos full]
      exact .value _ bounded
    · rw [if_neg full,if_neg full]
      by_cases skipped : candidate.id ∈ run.used ∨ candidate.id ∈ walker.named
      · rw [if_pos skipped,if_pos skipped]
        exact ih got bounded
      · rw [if_neg skipped,if_neg skipped]
        simp only [showsWalk_run]
        cases problem cal run.db candidate window 1 with
        | some _ => exact ih got bounded
        | none =>
          refine (holdIn_follows real candidate window 1 bounded).next (fun held kept _ => ?_)
          exact (below held candidate.id window kept).next (fun after kept _ => ih (got+1) kept)

theorem kindIn_follows {fuel : Nat} (row : ResourceRequirement) (kind : String) (window : Window) (enough : row.quantity < fuel)
    (bounded : Bounded most run) : Follows (showsWalk changeFeedEnabled committed base) (Bounded most) (Uncommitted committed)
      (kindIn cal sha256 changeFeedEnabled walker innerIn fuel row kind window) run
      (valueless (kindTargets cal sha256 walker inner run row kind window)) := by
  have whole : valueless (kindTargets cal sha256 walker inner run row kind window) =
      (assignedTargets cal sha256 walker inner kind window row.quantity run 0 [] >>= fun wanted =>
        pickedTargets cal sha256 walker inner row window wanted.2.2 (candidatesOf wanted.1.db kind) wanted.1 wanted.2.1 >>= fun picked =>
          valueless (if row.quantity-picked.2 = 0 then .ok picked.1
            else miss walker picked.1 row (kindMissing row kind wanted.2.2 (row.quantity-picked.2)) (row.quantity-picked.2))) := by
    unfold kindTargets
    cases assignedTargets cal sha256 walker inner kind window row.quantity run 0 [] with
    | error _ => rfl
    | ok wanted =>
      obtain ⟨chosen,got,seen⟩ := wanted
      change valueless (pickedTargets cal sha256 walker inner row window seen (candidatesOf chosen.db kind) chosen got >>= _) =
        (pickedTargets cal sha256 walker inner row window seen (candidatesOf chosen.db kind) chosen got >>= _)
      cases pickedTargets cal sha256 walker inner row window seen (candidatesOf chosen.db kind) chosen got <;> rfl
  rw [whole]
  refine (wantedIn_follows real below row kind window (by simp) enough bounded).bind (fun chosen wanted kept _ => .read ?_)
  refine (pickedIn_follows real below row window wanted.2 _ wanted.1 kept).bind (fun after got kept _ => ?_)
  dsimp only
  split
  · exact .value _ kept
  · exact missIn_follows _ _ _ kept

theorem requirementIn_follows {fuel depth : Nat} (window : Window) (row : ResourceRequirement) (shallow : depth ≤ maxDepth)
    (enough : row.quantity < fuel) (bounded : Bounded most run) :
    Follows (showsWalk changeFeedEnabled committed base) (Bounded most) (Uncommitted committed)
      (requirementIn cal sha256 changeFeedEnabled walker innerIn fuel depth window row) run
      (valueless (requirementStep cal sha256 walker inner window run row)) := by
  unfold requirementIn requirementStep
  rw [if_neg (by omega)]
  cases padded window row.beforeMinutes row.afterMinutes with
  | none =>
    dsimp only
    rw [if_neg (by simp [real]),if_neg (by simp [real])]
    exact .raised _ rfl
  | some widened =>
    dsimp only
    cases row.target with
    | named id => exact .read (namedIn_follows real below row _ widened bounded)
    | kind code => exact kindIn_follows real below row code widened enough bounded

end

theorem Bounded.row {most : Nat} {run : Run} (bounded : Bounded most run) {owner : RequirementOwner × Nat} {row : ResourceRequirement}
    (asked : row ∈ requirementsOf run.db owner) : row.quantity ≤ most :=
  bounded row (List.mem_filter.mp ((List.mem_insertionSort _).mp asked)).1

-- By induction on the depth left: with fuel for it and for the longest loop on
-- top of that, the walk in its session ends as the one without does.
theorem walkIn_follows {committed : Store} {base : List Marker} {most : Nat} {walker : Walker} {parent : Reservation}
    (real : walker.parent = some parent) {levels depth fuel : Nat} (deep : depth+levels = maxDepth+1) (enough : most+levels < fuel)
    {run : Run} (owners : List (RequirementOwner × Nat)) (window : Window) (bounded : Bounded most run) :
    Follows (showsWalk changeFeedEnabled committed base) (Bounded most) (Uncommitted committed)
      (walkIn cal sha256 changeFeedEnabled walker fuel depth owners window) run
      (valueless (walk cal sha256 walker levels owners window run)) := by
  induction levels generalizing depth fuel run owners window with
  | zero =>
    obtain ⟨fuel,rfl⟩ : ∃ n, fuel = n+1 := ⟨fuel-1,by omega⟩
    unfold walkIn walk walkRows
    refine Follows.each bounded (fun owner _ run kept => .read (Follows.each kept (fun row _ run kept => ?_)))
    unfold requirementIn
    rw [if_pos (by omega)]
    exact missIn_follows _ _ _ kept
  | succ levels ih =>
    obtain ⟨fuel,rfl⟩ : ∃ n, fuel = n+1 := ⟨fuel-1,by omega⟩
    unfold walkIn walk walkRows
    refine Follows.each bounded (fun owner _ run kept => .read (Follows.each kept (fun row asked run' kept' => ?_)))
    refine requirementIn_follows real (fun run id widened kept => ?_) window row (by omega) ?_ kept'
    · exact ih (by omega) (by omega) [(.resource,id)] widened kept
    · have quantity := kept.row asked
      omega

def mostAsked (db : Database) : Nat := (db.requirements.map ResourceRequirement.quantity).sum

theorem mostAsked_bounds {db : Database} {row : ResourceRequirement} (stored : row ∈ db.requirements) : row.quantity ≤ mostAsked db :=
  List.le_sum_of_mem (List.mem_map_of_mem stored)

-- Fuel for every walk over a database, however its requirements run in circles.
def walkFuel (db : Database) : Nat := mostAsked db+maxDepth+1

theorem resolve_walk {db : Database} {owners : List (RequirementOwner × Nat)} {window : Window} {used : List Nat}
    {parent : Option Reservation} {requesterId : Option String} {assignments : List (String × List Nat)} :
    resolve cal sha256 db owners window used parent requesterId assignments =
      (walk cal sha256 ⟨db.defaultRequirementEnforcement,parent,requesterId,assignments.flatMap Prod.snd⟩ maxDepth owners window
        ⟨db,used,assignments,[],[],[]⟩ >>= allAssigned) := rfl

theorem allAssigned_same {run last : Run} (checked : allAssigned run = .ok last) : last = run := by
  obtain ⟨_,_,same⟩ := bind_parts.mp checked
  cases same
  rfl

-- The session after a booking's holds are taken, none of it committed yet.
def showsHolds (changeFeedEnabled : Bool) (s : Session) (run : Run) : Session :=
  ⟨s.committed,⟨run.db,marked changeFeedEnabled s.working.markers (run.children.map createdMarker)⟩⟩

theorem resolveIn_exact {s : Session} {parent : Reservation} {fuel : Nat} (enough : walkFuel s.working.db ≤ fuel)
    (owners : List (RequirementOwner × Nat)) (window : Window) (used : List Nat) (requesterId : Option String)
    (assignments : List (String × List Nat)) :
    (∀ run, resolve cal sha256 s.working.db owners window used (some parent) requesterId assignments = .ok run →
      (resolveIn cal sha256 changeFeedEnabled fuel owners window used (some parent) requesterId assignments).on s =
        some (.ok run,showsHolds changeFeedEnabled s run)) ∧
    ∀ refusal, resolve cal sha256 s.working.db owners window used (some parent) requesterId assignments = .error refusal →
      ∃ left : Session, (resolveIn cal sha256 changeFeedEnabled fuel owners window used (some parent) requesterId assignments).on s =
        some (.error refusal,left) ∧ left.committed = s.committed := by
  unfold walkFuel at enough
  let walker : Walker := ⟨s.working.db.defaultRequirementEnforcement,some parent,requesterId,assignments.flatMap Prod.snd⟩
  have walked := @walkIn_follows cal sha256 changeFeedEnabled s.committed s.working.markers (mostAsked s.working.db) walker parent rfl
    maxDepth 1 fuel rfl (by omega) ⟨s.working.db,used,assignments,[],[],[]⟩ owners window (fun _ => mostAsked_bounds)
  rw [resolve_walk]
  unfold resolveIn
  rw [get_bind,onPart_on]
  cases done : walk cal sha256 walker maxDepth owners window ⟨s.working.db,used,assignments,[],[],[]⟩ with
  | error refusal =>
    rw [done] at walked
    obtain ⟨left,ended,framed⟩ := walked
    change (∀ run, Except.error refusal = .ok run → _) ∧ ∀ other, Except.error refusal = .error other → _
    refine ⟨fun run resolved => (nomatch resolved),fun other resolved => ?_⟩
    cases resolved
    exact ⟨⟨left.committed,⟨left.run.db,left.markers⟩⟩,congrArg (Option.map _) (bind_error ended),framed⟩
  | ok run =>
    rw [done] at walked
    change (∀ last, allAssigned run = .ok last → _) ∧ ∀ refusal, allAssigned run = .error refusal → _
    constructor
    · intro last checked
      cases allAssigned_same checked
      refine (congrArg (Option.map _) (bind_ok walked.1)).trans ?_
      rw [get_bind,showsWalk,checked]
      rfl
    · intro refusal checked
      refine ⟨showsHolds changeFeedEnabled s run,(congrArg (Option.map _) (bind_ok walked.1)).trans ?_,rfl⟩
      rw [get_bind,showsWalk,checked]
      rfl

-- The store a booking leaves: a replay changes nothing, a new one is marked row
-- by row.
def bookedStore (changeFeedEnabled : Bool) (store : Store) (next : Database) (view : BookingView) : Store :=
  ⟨next,if view.replayed = true then store.markers
    else marked changeFeedEnabled store.markers ((view.reservation :: view.children).map createdMarker)⟩

-- What a request comes to in a session of its own, told by its answer.
def settled {α : Type} (store : Store) (after : Database → α → Store) (answer : Answer (Database × α)) : Option (Answer α × Session) :=
  match answer with
  | .error refusal => some (.error refusal,opened store)
  | .ok (next,view) => some (.ok view,opened (after next view))

theorem settled_bind {α β : Type} {store : Store} {after : Database → β → Store} {answer : Answer α} {rest : α → Answer (Database × β)}
    {restIn : α → Working Session Refusal β} (each : ∀ value, answer = .ok value → (restIn value).on (opened store) = settled store after (rest value)) :
    (ask answer >>= restIn).on (opened store) = settled store after (answer >>= rest) := by
  cases answer with
  | error refusal => rfl
  | ok value => exact each value rfl

theorem ask_replay {store : Store} {answer : Answer BookingView} (replayed : ∀ view, answer = .ok view → view.replayed = true) :
    (ask answer).on (opened store) = settled store (bookedStore changeFeedEnabled store) (answer >>= fun view => .ok (store.db,view)) := by
  cases answer with
  | error refusal => rfl
  | ok view =>
    change some (Except.ok view,opened store) = some (Except.ok view,opened (bookedStore changeFeedEnabled store store.db view))
    unfold bookedStore
    rw [if_pos (replayed view rfl)]

theorem lost_replayed {db : Database} {payload : ReservationCreate} {key print : String} {currentUser : User} {view : BookingView}
    (answered : lost db payload key print currentUser = .ok view) : view.replayed = true := by
  unfold lost at answered
  dsimp only at answered
  split at answered
  · split at answered
    · cases answered
    · obtain ⟨_,_,later⟩ := bind_parts.mp answered
      obtain ⟨_,_,last⟩ := bind_parts.mp later
      obtain ⟨_,_,same⟩ := bind_parts.mp last
      cases same
      rfl
  · obtain ⟨_,_,later⟩ := bind_parts.mp answered
    obtain ⟨_,_,same⟩ := bind_parts.mp later
    cases same
    rfl

theorem replay_replayed {db : Database} {seen : Reservation} {print : String} {view : BookingView}
    (answered : replay db seen print = .ok view) : view.replayed = true := by
  obtain ⟨_,_,same⟩ := bind_parts.mp answered
  cases same
  rfl

theorem bookAnewIn_exact {store : Store} {fuel : Nat} (enough : walkFuel store.db ≤ fuel) (resource : Resource) (payload : ReservationCreate)
    (key print : String) (currentUser : User) :
    (bookAnewIn cal sha256 strip changeFeedEnabled fuel resource payload key print currentUser).on (opened store) =
      settled store (bookedStore changeFeedEnabled store) (bookAnew cal sha256 strip store.db resource payload key print currentUser) := by
  unfold bookAnewIn bookAnew
  rw [get_bind]
  dsimp only [opened]
  cases payload.externalRef.bind (byRef store.db currentUser.id) with
  | some taken => rfl
  | none =>
    refine settled_bind (fun _ _ => settled_bind (fun _ _ => settled_bind (fun _ _ => ?_)))
    generalize reservationRow strip store.db resource payload key print currentUser = reservation
    cases inserting : insertReservation store.db reservation with
    | error _ =>
      change (ask (lost store.db payload key print currentUser)).on (opened store) = _
      exact ask_replay (fun _ => lost_replayed)
    | ok inserted =>
      have fuelled : walkFuel inserted ≤ fuel := by
        rw [(insertReservation_parts.mp inserting).2]
        exact enough
      let began : Session := ⟨store,⟨inserted,marked changeFeedEnabled store.markers [createdMarker reservation]⟩⟩
      obtain ⟨accepts,refuses⟩ := @resolveIn_exact cal sha256 changeFeedEnabled began reservation fuel fuelled [(.resource,resource.id)]
        payload.asked [resource.id] (some currentUser.id) payload.assignments
      change ((tryCatch (resolveIn cal sha256 changeFeedEnabled fuel [(.resource,resource.id)] payload.asked [resource.id] (some reservation)
        (some currentUser.id) payload.assignments) _ : Working Session Refusal Run) >>= _).on began = settled store _ (_ >>= _)
      cases resolved : resolve cal sha256 inserted [(.resource,resource.id)] payload.asked [resource.id] (some reservation)
          (some currentUser.id) payload.assignments with
      | error refusal =>
        obtain ⟨left,ended,framed⟩ := refuses refusal resolved
        have back : (tryCatch (resolveIn cal sha256 changeFeedEnabled fuel [(.resource,resource.id)] payload.asked [resource.id]
            (some reservation) (some currentUser.id) payload.assignments) (fun refusal => do
              rollback
              throw refusal)).on began = some (.error refusal,opened store) := by
          rw [catch_error ended]
          change some (Except.error refusal,(⟨left.committed,left.committed⟩ : Session)) = _
          rw [framed]
          rfl
        exact bind_error back
      | ok held => exact (bind_ok (catch_ok (accepts held resolved))).trans rfl

-- In a session of its own, given the fuel for the walk, the call does what it
-- does to the database alone, and a refusal leaves the session as it was opened.
theorem createReservationIn_exact {store : Store} {fuel : Nat} (enough : walkFuel store.db ≤ fuel) (resourceId : Nat)
    (payload : ReservationCreate) (key : String) (currentUser : User) :
    (createReservationIn cal sha256 strip changeFeedEnabled fuel resourceId payload key currentUser).on (opened store) =
      settled store (bookedStore changeFeedEnabled store) (createReservation cal sha256 strip store.db resourceId payload key currentUser) := by
  unfold createReservationIn createReservation
  refine settled_bind (fun _ _ => ?_)
  rw [get_bind]
  refine settled_bind (fun resource _ => settled_bind (fun _ _ => ?_))
  dsimp only [opened]
  cases byKey store.db currentUser.id key with
  | some seen => exact ask_replay (fun _ => replay_replayed)
  | none => exact bookAnewIn_exact enough resource payload _ _ currentUser

-- What is let go is the booking and what was held for it.
def goneWith (db : Database) (reservation : Reservation) : List Reservation := reservation :: heldChildren db reservation

def letGo (changeFeedEnabled : Bool) (store : Store) (reservation : Reservation) : Store :=
  ⟨{store.db with reservations := store.db.reservations.map (fun r =>
      if r.id ∈ (goneWith store.db reservation).map Reservation.id then cancelled r else r)},
    marked changeFeedEnabled store.markers ((goneWith store.db reservation).map updatedMarker)⟩

theorem cancelReservationIn_parts (store : Store) (resourceId reservationId : Nat) (currentUser : User) :
    (∃ refusal, (cancelReservationIn changeFeedEnabled resourceId reservationId currentUser).on (opened store) =
      some (.error refusal,opened store)) ∨
    ∃ reservation ∈ store.db.reservations, reservation.id = reservationId ∧ reservation.resourceId = resourceId ∧
      (reservation.status = .cancelled ∧ (cancelReservationIn changeFeedEnabled resourceId reservationId currentUser).on (opened store) =
        some (.ok reservation,opened store) ∨
      reservation.status = .held ∧ (cancelReservationIn changeFeedEnabled resourceId reservationId currentUser).on (opened store) =
        some (.ok (cancelled reservation),opened (letGo changeFeedEnabled store reservation))) := by
  unfold cancelReservationIn
  cases requireRoles [.orgAdmin,.unitAdmin] currentUser with
  | error refusal => exact .inl ⟨refusal,rfl⟩
  | ok _ =>
    rw [ask_ok,get_bind]
    simp only [opened]
    cases known : store.db.reservations.find? (fun r => r.id = reservationId ∧ r.resourceId = resourceId) with
    | none => exact .inl ⟨notFound "Reservation not found",rfl⟩
    | some reservation =>
      have chosen := List.find?_some known
      rw [decide_eq_true_eq] at chosen
      simp only [found,ask_ok]
      cases allowed : ensure (currentUser.roleType = .orgAdmin ∨ reservation.requestedById = some currentUser.id)
          (refuse 403 notYourHold .forbidden) with
      | error refusal => exact .inl ⟨refusal,rfl⟩
      | ok _ =>
        refine .inr ⟨reservation,List.mem_of_find?_eq_some known,chosen.1,chosen.2,?_⟩
        rw [ask_ok]
        cases status : reservation.status with
        | cancelled => exact .inl ⟨rfl,rfl⟩
        | held => exact .inr ⟨rfl,rfl⟩

end ChronosLedger.BookingSessions
