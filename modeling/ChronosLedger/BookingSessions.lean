import ChronosLedger.Booking
import ChronosLedger.ChangeFeed
import ChronosLedger.Library.Sessions

-- The two booking calls as the session sees them: what is written before a
-- refusal is there until it is rolled back.
namespace ChronosLedger.BookingSessions
open Sessions ChangeFeed

structure Marker where
  reservationId : Nat
  changeKind : ChangeKind
  deriving DecidableEq, Repr

structure Store where
  db : Database
  markers : List Marker
  deriving DecidableEq, Repr

structure Session where
  committed : Store
  working : Store
  deriving DecidableEq, Repr

-- A walk holds in the session it was given; `run` carries its database.
structure Walking where
  committed : Store
  markers : List Marker
  run : Run
  deriving DecidableEq, Repr

def opened (store : Store) : Session := ⟨store,store⟩

-- change_feed_enabled, read on every call.
variable (cal : Recurrence) (sha256 strip : String → String) (changeFeedEnabled : Bool)

def record (markers : List Marker) (marker : Marker) : List Marker := if changeFeedEnabled = true then markers ++ [marker] else markers

def createdMarker (row : Reservation) : Marker := ⟨row.id,.created⟩

def updatedMarker (row : Reservation) : Marker := ⟨row.id,.updated⟩

section
variable (walker : Walker)

def stepIn (step : Run → Answer Run) : Working Walking Refusal Unit := do
  let run ← ask (step (← get).run)
  modify (fun w => {w with run := run})

def missIn (row : ResourceRequirement) (found : Problem) (missing : Nat) : Working Walking Refusal Unit :=
  stepIn (fun run => miss walker run row found missing)

-- Flushed, so the child has its id when its marker is written.
def holdIn (resource : Resource) (window : Window) (quantity : Nat) : Working Walking Refusal Unit := do
  stepIn (fun run => hold sha256 walker run resource window quantity)
  if walker.parent.isSome then
    modify (fun w => {w with markers := ((w.run.children.getLast?).map createdMarker).toList.foldl (record changeFeedEnabled) w.markers})

variable (inner : Nat → Window → Working Walking Refusal Unit)

def namedIn (row : ResourceRequirement) (resource : Option Resource) (window : Window) : Working Walking Refusal Unit :=
  match resource with
  | none => missIn walker row ("the required resource no longer exists",[]) 1
  | some resource => do
    let run := (← get).run
    if resource.id ∈ run.used then missIn walker row (alreadyUsed resource) 1 else
    let quantity := if resource.mode = .pooled then row.quantity else 1
    match problem cal run.db resource window quantity with
    | some found => missIn walker row found 1
    | none => do
      holdIn sha256 changeFeedEnabled walker resource window quantity
      inner resource.id window

-- The loop over the names the caller sent, by its own condition: the walk below
-- takes names off the same list.
def wantedIn (row : ResourceRequirement) (kind : String) (window : Window) :
    Nat → Nat → List Problem → Working Walking Refusal (Nat × List Problem)
  | 0,_,_ => unfinished
  | fuel+1,got,seen =>
    if got+seen.length < row.quantity then do
      let run := (← get).run
      match assignedTo run kind with
      | [] => pure (got,seen)
      | id :: _ => do
        modify (fun w => {w with run := popAssigned w.run kind})
        let run := (← get).run
        match run.db.resource? id with
        | none => throw internalError
        | some resource =>
          let refused := if resource.id ∈ run.used then some (alreadyUsed resource) else problem cal run.db resource window 1
          match refused with
          | some found => wantedIn row kind window fuel got (seen ++ [found])
          | none => do
            holdIn sha256 changeFeedEnabled walker resource window 1
            inner resource.id window
            wantedIn row kind window fuel (got+1) seen
    else pure (got,seen)

def pickedIn (row : ResourceRequirement) (window : Window) (seen : List Problem) : List Resource → Nat → Working Walking Refusal Nat
  | [],got => pure got
  | candidate :: rest,got => do
    let run := (← get).run
    if got+seen.length ≥ row.quantity then pure got
    else if candidate.id ∈ run.used ∨ candidate.id ∈ walker.named then pickedIn row window seen rest got
    else match problem cal run.db candidate window 1 with
    | some _ => pickedIn row window seen rest got
    | none => do
      holdIn sha256 changeFeedEnabled walker candidate window 1
      inner candidate.id window
      pickedIn row window seen rest (got+1)

def kindIn (fuel : Nat) (row : ResourceRequirement) (kind : String) (window : Window) : Working Walking Refusal Unit := do
  let (got,seen) ← wantedIn cal sha256 changeFeedEnabled walker inner row kind window fuel 0 []
  let got ← pickedIn cal sha256 changeFeedEnabled walker inner row window seen (candidatesOf (← get).run.db kind) got
  let missing := row.quantity-got
  if missing = 0 then pure () else missIn walker row (kindMissing row kind seen missing) missing

def requirementIn (fuel depth : Nat) (window : Window) (row : ResourceRequirement) : Working Walking Refusal Unit :=
  if depth > maxDepth then missIn walker row tooDeep 1 else
  match padded window row.beforeMinutes row.afterMinutes with
  | none =>
    if walker.parent.isNone then missIn walker row (crossesMidnight,[]) 1
    else throw (refuse 422 s!"requirement {row.id}: {crossesMidnight}" .invalidValue)
  | some widened =>
    match row.target with
    | .named id => do namedIn cal sha256 changeFeedEnabled walker inner row ((← get).run.db.resource? id) widened
    | .kind code => kindIn cal sha256 changeFeedEnabled walker inner fuel row code widened

end

-- The recursion as it stands, one depth further down for each hold. The fuel
-- also bounds the turns of each loop over names.
def walkIn (walker : Walker) : Nat → Nat → List (RequirementOwner × Nat) → Window → Working Walking Refusal Unit
  | 0,_,_,_ => unfinished
  | fuel+1,depth,owners,window => owners.forM (fun owner => do
    let rows := requirementsOf (← get).run.db owner
    rows.forM (requirementIn cal sha256 changeFeedEnabled walker
      (fun id widened => walkIn walker fuel (depth+1) [(.resource,id)] widened) fuel depth window))

def allAssigned (run : Run) : Answer Run := do
  let left := (run.assigned.flatMap Prod.snd).insertionSort (fun a b => a ≤ b)
  ensure (left = []) (refuse 422 s!"assignments name resources no requirement asks for: {left}" .invalidValue)
  .ok run

def resolveIn (fuel : Nat) (owners : List (RequirementOwner × Nat)) (window : Window) (used : List Nat) (parent : Option Reservation)
    (requesterId : Option String) (assignments : List (String × List Nat)) : Working Session Refusal Run := do
  let session ← get
  let walker : Walker := ⟨session.working.db.defaultRequirementEnforcement,parent,requesterId,assignments.flatMap Prod.snd⟩
  onPart (fun s => ⟨s.committed,s.working.markers,⟨s.working.db,used,assignments,[],[],[]⟩⟩)
    (fun w => ⟨w.committed,⟨w.run.db,w.markers⟩⟩) (do
      walkIn cal sha256 changeFeedEnabled walker fuel 1 owners window
      ask (allAssigned (← get).run))

def rollback : Working Session Refusal Unit := modify (fun s => {s with working := s.committed})

def commit : Working Session Refusal Unit := modify (fun s => {s with committed := s.working})

def write (db : Database) (markers : List Marker) : Working Session Refusal Unit :=
  modify (fun s => {s with working := ⟨db,markers.foldl (record changeFeedEnabled) s.working.markers⟩})

-- An error the handler does not catch ends the request, and closing the session
-- rolls it back as well.
def bookAnewIn (fuel : Nat) (resource : Resource) (payload : ReservationCreate) (key print : String) (currentUser : User) :
    Working Session Refusal BookingView := do
  let db := (← get).working.db
  match payload.externalRef.bind (byRef db currentUser.id) with
  | some taken => throw (refTaken taken)
  | none => do
    ask (ensure (1 < payload.quantity → resource.mode = .pooled) (refuse 422 oneOfIt .invalidValue))
    ask (checkAssignments db payload.assignments)
    ask (bookingChecks cal db resource payload)
    let reservation := reservationRow strip db resource payload key print currentUser
    match insertReservation db reservation with
    | .error _ => do
      rollback
      ask (lost (← get).working.db payload key print currentUser)
    | .ok inserted => do
      write changeFeedEnabled inserted [createdMarker reservation]
      let held ← tryCatch (resolveIn cal sha256 changeFeedEnabled fuel [(.resource,resource.id)] payload.asked [resource.id] (some reservation)
        (some currentUser.id) payload.assignments) (fun refusal => do
          rollback
          throw refusal)
      commit
      pure ⟨reservation,held.children,held.unmet,false⟩

def createReservationIn (fuel resourceId : Nat) (payload : ReservationCreate) (key : String) (currentUser : User) :
    Working Session Refusal BookingView := do
  ask (requireRoles [.orgAdmin,.unitAdmin] currentUser)
  let db := (← get).working.db
  let resource ← ask (found (db.resource? resourceId) (notFound "Resource not found"))
  ask (ensureResourceScope currentUser resource)
  let print := fingerprint sha256 strip resourceId payload
  match byKey db currentUser.id key with
  | some seen => ask (replay db seen print)
  | none => bookAnewIn cal sha256 strip changeFeedEnabled fuel resource payload key print currentUser

def heldChildren (db : Database) (reservation : Reservation) : List Reservation :=
  (childrenOf db reservation).filter (fun child => child.status = .held)

def cancelReservationIn (resourceId reservationId : Nat) (currentUser : User) : Working Session Refusal Reservation := do
  ask (requireRoles [.orgAdmin,.unitAdmin] currentUser)
  let db := (← get).working.db
  let reservation ← ask (found (db.reservations.find? (fun r => r.id = reservationId ∧ r.resourceId = resourceId))
    (notFound "Reservation not found"))
  ask (ensure (currentUser.roleType = .orgAdmin ∨ reservation.requestedById = some currentUser.id) (refuse 403 notYourHold .forbidden))
  if reservation.status = .cancelled then pure reservation else do
    let children := heldChildren db reservation
    let gone := (reservation :: children).map Reservation.id
    write changeFeedEnabled {db with reservations := db.reservations.map (fun r => if r.id ∈ gone then cancelled r else r)}
      ((reservation :: children).map updatedMarker)
    commit
    pure (cancelled reservation)

inductive BookingCall where
  | create (resourceId : Nat) (payload : ReservationCreate) (key : String) (currentUser : User)
  | cancel (resourceId reservationId : Nat) (currentUser : User)
  deriving Repr

inductive Reply where
  | booked (view : BookingView)
  | letGo (reservation : Reservation)
  deriving DecidableEq, Repr

def callIn (fuel : Nat) : BookingCall → Working Session Refusal Reply
  | .create resourceId payload key currentUser => do
    pure (.booked (← createReservationIn cal sha256 strip changeFeedEnabled fuel resourceId payload key currentUser))
  | .cancel resourceId reservationId currentUser => do
    pure (.letGo (← cancelReservationIn changeFeedEnabled resourceId reservationId currentUser))

-- What a call comes to: the same from some fuel on.
def Answers (s : Session) (call : BookingCall) (reply : Answer Reply) (after : Session) : Prop :=
  ∃ bound, ∀ fuel ≥ bound, (callIn cal sha256 strip changeFeedEnabled fuel call).on s = some (reply,after)

def Calls (s : Session) (call : BookingCall) (after : Session) : Prop := ∃ reply, Answers cal sha256 strip changeFeedEnabled s call reply after

end ChronosLedger.BookingSessions
