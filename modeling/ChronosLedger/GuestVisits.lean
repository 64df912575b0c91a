import ChronosLedger.Library.Runs
import ChronosLedger.Tables

namespace ChronosLedger.GuestVisits

-- A visitor's check-in, as deciding, extending and announcing it read and write it.
-- Moments are in microseconds.
structure Visit where
  id : Nat
  guestName : String
  targetStaffId : String
  handshakeStatus : LogVerificationState
  decidedById : Option String
  visitExpiresAt : Option Int
  overstayNotifiedAt : Option Int
  deriving DecidableEq, Repr

structure Settings where
  guestAdminCanDecide : Bool
  guestVisitLengthMinutes : Nat
  guestVisitExtensionMaxMinutes : Nat
  deriving DecidableEq, Repr

structure GuestDecisionRequest where
  decision : LogVerificationState
  deriving DecidableEq, Repr

structure GuestExtensionRequest where
  minutes : Nat
  positive : 1 ≤ minutes
  deriving Repr

instance : DecidableEq GuestExtensionRequest := fun one two =>
  decidable_of_iff (one.minutes = two.minutes) (by cases one; cases two; simp)

inductive Request where
  | decide (entryId : Nat) (payload : GuestDecisionRequest)
  | extend (entryId : Nat) (payload : GuestExtensionRequest)
  deriving DecidableEq, Repr

inductive GuestError where
  | notFound
  | noExtensions
  | tooLong (minutes maximum : Nat)
  | noEnd
  deriving DecidableEq, Repr

def GuestError.statusCode : GuestError → Nat
  | .notFound => 404
  | .noExtensions => 422
  | .tooLong _ _ => 422
  | .noEnd => 409

def GuestError.detail : GuestError → String
  | .notFound => "Entry not found or not authorized"
  | .noExtensions => "This organization does not extend visits. The visitor checks in again instead, or " ++
      "GUEST_VISIT_EXTENSION_MAX_MINUTES is raised above 0."
  | .tooLong minutes maximum => s!"{minutes} minutes is longer than a single extension may be here, which is {maximum}."
  | .noEnd => "Only an approved visit that has an end can be extended."

def minutesLong (minutes : Nat) : Int := Int.ofNat minutes*60000000

-- An admin account with no unit of its own reaches only its own visitors.
def decidableBy (settings : Settings) (users : List User) (currentUser : User) (row : Visit) : Bool :=
  row.targetStaffId = currentUser.id || settings.guestAdminCanDecide && (currentUser.roleType = .orgAdmin ||
    currentUser.roleType = .unitAdmin && currentUser.unitCode.isSome &&
      users.any (fun user => user.id = row.targetStaffId && user.unitCode = currentUser.unitCode))

def entryFor (settings : Settings) (users : List User) (rows : List Visit) (currentUser : User) (entryId : Nat) : Except GuestError Visit :=
  match rows.find? (fun row => row.id = entryId && decidableBy settings users currentUser row) with
  | some entry => .ok entry
  | none => .error .notFound

-- What a request reads before it changes anything.
def read (settings : Settings) (users : List User) (rows : List Visit) (currentUser : User) : Request → Except GuestError Visit
  | .decide entryId _ => entryFor settings users rows currentUser entryId
  | .extend entryId payload =>
    if settings.guestVisitExtensionMaxMinutes = 0 then .error .noExtensions
    else if settings.guestVisitExtensionMaxMinutes < payload.minutes then .error (.tooLong payload.minutes settings.guestVisitExtensionMaxMinutes)
    else
      match entryFor settings users rows currentUser entryId with
      | .error problem => .error problem
      | .ok entry => if entry.handshakeStatus ≠ .verifiedApproved ∨ entry.visitExpiresAt = none then .error .noEnd else .ok entry

-- The entry as the request leaves it in its session: the end of a decision counts
-- from now, that of an extension from the later of now and the end there was.
def decided (settings : Settings) (currentUser : User) (now : Int) (payload : GuestDecisionRequest) (entry : Visit) : Visit :=
  {entry with
    handshakeStatus := payload.decision
    decidedById := some currentUser.id
    visitExpiresAt := if payload.decision = .verifiedApproved ∧ 0 < settings.guestVisitLengthMinutes then
      some (now+minutesLong settings.guestVisitLengthMinutes) else none
    overstayNotifiedAt := none}

def extended (now : Int) (payload : GuestExtensionRequest) (entry : Visit) : Visit :=
  {entry with visitExpiresAt := entry.visitExpiresAt.map (fun ends => max ends now+minutesLong payload.minutes),overstayNotifiedAt := none}

def Request.apply (request : Request) (settings : Settings) (currentUser : User) (now : Int) (entry : Visit) : Visit :=
  match request with
  | .decide _ payload => decided settings currentUser now payload entry
  | .extend _ payload => extended now payload entry

-- The UPDATE a session sends sets the columns whose value is not the one it read,
-- and leaves the others as they are by then.
def written {α : Type} [DecidableEq α] (loaded changed current : α) : α := if changed = loaded then current else changed

def flush (loaded changed current : Visit) : Visit :=
  {current with
    handshakeStatus := written loaded.handshakeStatus changed.handshakeStatus current.handshakeStatus
    decidedById := written loaded.decidedById changed.decidedById current.decidedById
    visitExpiresAt := written loaded.visitExpiresAt changed.visitExpiresAt current.visitExpiresAt
    overstayNotifiedAt := written loaded.overstayNotifiedAt changed.overstayNotifiedAt current.overstayNotifiedAt}

-- GUEST_VISIT_EXPIRED, to one person.
structure Notice where
  recipient : String
  transactionReference : Nat
  guestName : String
  visitExpiresAt : Int
  deriving DecidableEq, Repr

def recipients (entry : Visit) : List String :=
  entry.targetStaffId :: (entry.decidedById.filter (fun decider => decider ≠ "" && decider ≠ entry.targetStaffId)).toList

def noticesOf (entry : Visit) : List Notice :=
  match entry.visitExpiresAt with
  | some ends => (recipients entry).map (fun recipient => ⟨recipient,entry.id,entry.guestName,ends⟩)
  | none => []

def isOverdue (now : Int) (row : Visit) : Bool :=
  row.handshakeStatus = .verifiedApproved && row.visitExpiresAt.any (fun ends => ends ≤ now) && row.overstayNotifiedAt.isNone

def overdue (now : Int) (rows : List Visit) : List Visit := rows.filter (isOverdue now)

-- A sweep on its way: the rows it read, and the notices it has yet to send. It
-- commits once it has sent them all.
structure Sweep where
  now : Int
  entries : List Visit
  unsent : List Notice
  deriving DecidableEq, Repr

def stamped (sweep : Sweep) (row : Visit) : Visit :=
  match sweep.entries.find? (fun entry => entry.id = row.id) with
  | some entry => flush entry {entry with overstayNotifiedAt := some sweep.now} row
  | none => row

-- A request on its way: the entry it read and when.
structure InFlight where
  currentUser : User
  request : Request
  entry : Visit
  readAt : Int
  sent : Nat
  deriving DecidableEq, Repr

-- What is committed, the notices that went out, and whoever is between a read and
-- a commit. `sent` above counts the notices that had gone out by the read.
structure State where
  clock : Int
  users : List User
  rows : List Visit
  notices : List Notice
  requests : List InFlight
  sweeps : List Sweep
  deriving DecidableEq, Repr

inductive Op where
  | tick (later : Int)
  | begin (currentUser : User) (request : Request)
  | finish (position : Nat) (now : Int)
  | sweep
  | send (position : Nat)
  | close (position : Nat)
  deriving DecidableEq, Repr

def applyTo (rows : List Visit) (flight : InFlight) (settings : Settings) (now : Int) : List Visit :=
  rows.map (fun row => if row.id = flight.entry.id then
    flush flight.entry (flight.request.apply settings flight.currentUser now flight.entry) row else row)

def step (settings : Settings) (s : State) : Op → Option State
  | .tick later => if s.clock ≤ later then some {s with clock := later} else none
  | .begin currentUser request =>
    match read settings s.users s.rows currentUser request with
    | .error _ => some s
    | .ok entry => some {s with requests := s.requests ++ [⟨currentUser,request,entry,s.clock,s.notices.length⟩]}
  | .finish position now =>
    match s.requests[position]? with
    | none => none
    | some flight =>
      if flight.readAt ≤ now ∧ now ≤ s.clock then
        some {s with rows := applyTo s.rows flight settings now,requests := s.requests.eraseIdx position}
      else none
  | .sweep =>
    let entries := overdue s.clock s.rows
    some {s with sweeps := s.sweeps ++ [⟨s.clock,entries,entries.flatMap noticesOf⟩]}
  | .send position =>
    match s.sweeps[position]? with
    | none => none
    | some sweep =>
      match sweep.unsent with
      | [] => none
      | notice :: rest => some {s with notices := s.notices ++ [notice],sweeps := s.sweeps.set position {sweep with unsent := rest}}
  | .close position =>
    match s.sweeps[position]? with
    | none => none
    | some sweep =>
      if sweep.unsent = [] then some {s with rows := s.rows.map (stamped sweep),sweeps := s.sweeps.eraseIdx position} else none

abbrev Steps (settings : Settings) : State → Op → State → Prop := Runs.Acts (step settings)

end ChronosLedger.GuestVisits
