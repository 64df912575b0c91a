import ChronosLedger.ActingFor

namespace ChronosLedger.AdminRequests
open ActingFor

-- The four requests that change who administers an organization.
inductive Request where
  | createUser (payload : UserCreate)
  | updateUser (userId : String) (payload : UserUpdate)
  | deactivateUser (userId : String)
  | reactivateUser (userId : String)
  deriving DecidableEq, Repr

-- Nobody is told anything by `failed`: the transaction was rolled back.
inductive Answer where
  | done
  | refused (refusal : Refusal)
  | passwordChangeRequired
  | failed
  deriving DecidableEq, Repr

def Answer.detail : Answer → Option String
  | .refused refusal => some refusal.detail
  | .passwordChangeRequired => some "Change the initial password before using other endpoints"
  | _ => none

-- What a request writes. An update names the columns that differ from the row as
-- it was read; the two last ones write `deactivated_at` alone.
inductive Change where
  | insert (user : Account)
  | update (userId : String) (fields : UserUpdate)
  | deactivate (userId organizationId : String) (now : Int)
  | reactivate (userId : String)
  deriving DecidableEq, Repr

def Change.userId : Change → String
  | .insert user => user.id
  | .update userId _ => userId
  | .deactivate userId _ _ => userId
  | .reactivate userId => userId

def Change.emailAddress : Change → Option String
  | .insert user => some user.emailAddress
  | .update _ fields => fields.emailAddress
  | _ => none

def noFields : UserUpdate := ⟨none,none,none,none,none⟩

-- Nothing is flushed for a row that is as it was.
def Change.idle : Change → Bool
  | .update _ fields => fields = noFields
  | _ => false

def Change.apply (s : Directory) : Change → Directory
  | .insert user => {s with accounts := s.accounts ++ [user]}
  | .update userId fields => setAccount s userId fields.apply
  | .deactivate userId organizationId now => {setAccount s userId (fun user => {user with deactivatedAt := some now}) with
      refreshTokens := s.refreshTokens.filter (fun token => token.userId ≠ userId)
      apiKeys := s.apiKeys.filter (fun key => key.userId ≠ userId || key.organizationId ≠ organizationId)}
  | .reactivate userId => setAccount s userId (fun user => {user with deactivatedAt := none})

-- Where a request stands: the statement it sends next, with what it knows by then.
inductive Phase where
  | arrived
  | authenticated (caller : Account)
  | addressing (organizationId emailAddress : String) (change : Change) (manager : Option String)
  | managing (organizationId manager : String) (change : Change)
  | climbing (organizationId manager above : String) (change : Change) (seen : List String)
  | writing (change : Change)
  | written (change : Change)
  | over (answer : Answer)
  deriving DecidableEq, Repr

def refuse (refusal : Refusal) : Phase := .over (.refused refusal)

def firstLoginBlocks (user : Account) : Bool := user.initialLoginState && isAdmin user.roleType

-- What is asked of the caller alone.
def passRoles (caller : Account) : Request → Phase
  | .createUser payload =>
    if !isAdmin caller.roleType then refuse roleMissing
    else if isAdmin payload.roleType && caller.roleType ≠ .orgAdmin then
      refuse ⟨403,"Only an organization admin can create admin accounts",.insufficientRole⟩
    else if !inUnitScope caller payload.unitCode then refuse outsideUnit
    else .authenticated caller
  | _ => if isAdmin caller.roleType then .authenticated caller else refuse roleMissing

-- A person is held at the first-login gate, a key is not.
def authenticate (s : Directory) (callerId : String) (byKey : Bool) (request : Request) : Phase :=
  match getCurrentUser s callerId with
  | .error refusal => refuse refusal
  | .ok user => if !byKey && firstLoginBlocks user then .over .passwordChangeRequired else passRoles user request

def ready (change : Change) : Phase := if change.idle then .over .done else .writing change

-- One turn of the loop in _check_manager, up to its next SELECT.
def climb (organizationId manager : String) (change : Change) (seen : List String) : Option String → Phase
  | none => ready change
  | some above =>
    if above ∈ seen then ready change
    else if above = change.userId then
      refuse ⟨422,s!"{manager} already reports to {change.userId}, directly or through others",.invalidValue⟩
    else .climbing organizationId manager above change (above :: seen)

def managed (organizationId : String) (change : Change) : Option String → Phase
  | none => ready change
  | some manager =>
    if manager = change.userId then refuse ⟨422,"A user cannot be their own manager",.invalidValue⟩
    else .managing organizationId manager change

-- A row the session has loaded keeps the values it was loaded with.
def sessionOf (s : Directory) (caller : Account) : Directory := setAccount s caller.id (fun _ => caller)

def differing {α : Type} [DecidableEq α] (sent : Option α) (stored : α) : Option α := sent.filter (fun value => value ≠ stored)

def UserUpdate.changed (payload : UserUpdate) (user : Account) : UserUpdate :=
  ⟨differing payload.fullName user.fullName,differing payload.emailAddress user.emailAddress,differing payload.unitCode user.unitCode,
    differing payload.assignedBaseStation user.assignedBaseStation,differing payload.reportingLineManager user.reportingLineManager⟩

-- The SELECT of the target, or of the id a new account would take.
def readTarget (s : Directory) (caller : Account) (now : Int) : Request → Phase
  | .createUser payload =>
    if s.accounts.any (fun user => user.id = payload.id) then refuse ⟨409,"User ID already exists",.alreadyExists⟩
    else .addressing caller.organizationId payload.emailAddress (.insert (newAccount caller payload)) payload.reportingLineManager
  | .updateUser userId payload =>
    match managedAccount (sessionOf s caller) caller userId with
    | .error refusal => refuse refusal
    | .ok user =>
      if payload.unitCode.any (fun unit => !inUnitScope caller unit) then refuse outsideUnit
      else
        match payload.emailAddress with
        | some email => .addressing caller.organizationId email (.update user.id (UserUpdate.changed payload user)) payload.reportingLineManager.join
        | none => managed caller.organizationId (.update user.id (UserUpdate.changed payload user)) payload.reportingLineManager.join
  | .deactivateUser userId =>
    match managedAccount (sessionOf s caller) caller userId with
    | .error refusal => refuse refusal
    | .ok user =>
      if user.id = caller.id then refuse ⟨422,"You cannot deactivate your own account",.invalidValue⟩
      else if user.deactivatedAt ≠ none then .over .done
      else .writing (.deactivate user.id caller.organizationId now)
  | .reactivateUser userId =>
    match managedAccount (sessionOf s caller) caller userId with
    | .error refusal => refuse refusal
    | .ok user => if user.deactivatedAt = none then .over .done else .writing (.reactivate user.id)

-- Only an update leaves out the account itself.
def emailTaken (s : Directory) (emailAddress : String) : Change → Bool
  | .insert _ => s.accounts.any (fun other => other.emailAddress = emailAddress)
  | change => s.accounts.any (fun other => other.emailAddress = emailAddress && other.id ≠ change.userId)

def readEmail (s : Directory) (organizationId emailAddress : String) (change : Change) (manager : Option String) : Phase :=
  if emailTaken s emailAddress change then refuse ⟨409,"Email already registered",.emailTaken⟩ else managed organizationId change manager

def readManager (s : Directory) (organizationId manager : String) (change : Change) : Phase :=
  match accountIn s organizationId manager with
  | none => refuse (missing "Manager not found")
  | some row =>
    if row.deactivatedAt ≠ none then refuse ⟨422,"Manager is deactivated",.userDeactivated⟩
    else climb organizationId manager change [manager] row.reportingLineManager

-- A request in flight: who sent it, whether with a key, and how far it is.
structure Pending where
  callerId : String
  byKey : Bool
  request : Request
  phase : Phase
  deriving DecidableEq, Repr

structure AccountState where
  committed : Directory
  requests : List Pending
  deriving DecidableEq, Repr

def setPhase (s : AccountState) (k : Nat) (p : Pending) (phase : Phase) : AccountState :=
  {s with requests := s.requests.set k {p with phase := phase}}

-- Every SELECT sees what is committed when it runs.
def read (s : AccountState) (k : Nat) (now : Int) : Option AccountState :=
  match s.requests[k]? with
  | none => none
  | some p =>
    match p.phase with
    | .arrived => some (setPhase s k p (authenticate s.committed p.callerId p.byKey p.request))
    | .authenticated caller => some (setPhase s k p (readTarget s.committed caller now p.request))
    | .addressing organizationId email change manager => some (setPhase s k p (readEmail s.committed organizationId email change manager))
    | .managing organizationId manager change => some (setPhase s k p (readManager s.committed organizationId manager change))
    | .climbing organizationId manager above change seen => some (setPhase s k p
        (climb organizationId manager change seen ((accountIn s.committed organizationId above).bind Account.reportingLineManager)))
    | _ => none

-- A row or a value of the unique address that somebody else has written and not
-- committed is waited for.
def Phase.holds : Phase → Option Change
  | .written change => some change
  | _ => none

def waits (s : AccountState) (change : Change) : Bool := s.requests.any (fun p => p.phase.holds.any (fun other =>
  other.userId = change.userId || other.emailAddress.isSome && other.emailAddress = change.emailAddress ||
    s.committed.accounts.any (fun row => row.id = other.userId && some row.emailAddress = change.emailAddress)))

def Change.collides (s : Directory) (change : Change) : Bool :=
  (match change with
    | .insert user => s.accounts.any (fun row => row.id = user.id)
    | _ => false) ||
    s.accounts.any (fun row => row.id ≠ change.userId && some row.emailAddress = change.emailAddress)

-- The UPDATE or the INSERT, with the DELETEs that follow a deactivation.
def write (s : AccountState) (k : Nat) : Option AccountState :=
  match s.requests[k]? with
  | none => none
  | some p =>
    match p.phase with
    | .writing change =>
      if waits s change then none
      else if change.collides s.committed then some (setPhase s k p (.over .failed))
      else some (setPhase s k p (.written change))
    | _ => none

def commit (s : AccountState) (k : Nat) : Option AccountState :=
  match s.requests[k]? with
  | none => none
  | some p =>
    match p.phase with
    | .written change => some {setPhase s k p (.over .done) with committed := change.apply s.committed}
    | _ => none

-- At any point: the victim of a deadlock, a lost connection or a crash.
def rollback (s : AccountState) (k : Nat) : Option AccountState :=
  match s.requests[k]? with
  | none => none
  | some p =>
    match p.phase with
    | .over _ => none
    | _ => some (setPhase s k p (.over .failed))

inductive Operation where
  | arrive (callerId : String) (byKey : Bool) (request : Request)
  | read (request : Nat) (now : Int)
  | write (request : Nat)
  | commit (request : Nat)
  | rollback (request : Nat)
  deriving DecidableEq, Repr

def step (s : AccountState) : Operation → Option AccountState
  | .arrive callerId byKey request => some {s with requests := s.requests ++ [⟨callerId,byKey,request,.arrived⟩]}
  | .read k now => read s k now
  | .write k => write s k
  | .commit k => commit s k
  | .rollback k => rollback s k

abbrev Steps : AccountState → Operation → AccountState → Prop := Runs.Acts step

def AccountState.start (committed : Directory) : AccountState := ⟨committed,[]⟩

end ChronosLedger.AdminRequests
