import ChronosLedger.Library.Runs
import Mathlib.Data.List.Basic

namespace ChronosLedger.SignIns

-- The password stands for its hash.
structure Account where
  id : String
  credential : String
  deactivatedAt : Option Int
  deriving DecidableEq, Repr

-- A raw token and its hash are new at every mint, as the row's id is: the id
-- stands for all three. A family is a number too.
structure RefreshToken where
  id : Nat
  userId : String
  familyId : Nat
  expiresAt : Int
  consumedAt : Option Int
  deriving DecidableEq, Repr

inductive AuthError where
  | invalidCredentials | refreshTokenInvalid | refreshTokenExpired | refreshTokenUsed | refreshTokenReused | currentPasswordIncorrect
  | passwordUnchanged | accountNotFound | accountDeactivated | notFound
  deriving DecidableEq, Repr

def AuthError.statusCode : AuthError → Nat
  | .currentPasswordIncorrect => 400
  | .passwordUnchanged => 400
  | .notFound => 404
  | _ => 401

def AuthError.detail : AuthError → String
  | .invalidCredentials => "Invalid credentials"
  | .refreshTokenInvalid => "Invalid refresh token"
  | .refreshTokenExpired => "Refresh token expired"
  | .refreshTokenUsed => "Refresh token already used"
  | .refreshTokenReused => "Refresh token reused; sign in again"
  | .currentPasswordIncorrect => "Current password is incorrect"
  | .passwordUnchanged => "The new password is the one you already have"
  | .accountNotFound => "User not found"
  | .accountDeactivated => "Account deactivated"
  | .notFound => "User not found"

-- Nobody is told anything by `failed`: the transaction was rolled back.
inductive Answer where
  | session (token : Nat)
  | done
  | refused (error : AuthError)
  | failed
  deriving DecidableEq, Repr

-- Why a request deletes tokens, with what it writes besides.
inductive Removal where
  | expired (id : Nat)
  | purged (cutoff : Int)
  | reused (familyId : Nat)
  | loggedOut (familyId : Nat)
  | passwordChanged (userId newPassword : String)
  | passwordReset (userId rawPassword : String)
  | deactivated (userId : String) (now : Int)
  deriving DecidableEq, Repr

def Removal.covers : Removal → RefreshToken → Bool
  | .expired id,row => row.id = id
  | .purged cutoff,row => row.expiresAt < cutoff
  | .reused familyId,row => row.familyId = familyId
  | .loggedOut familyId,row => row.familyId = familyId
  | .passwordChanged userId _,row => row.userId = userId
  | .passwordReset userId _,row => row.userId = userId
  | .deactivated userId _,row => row.userId = userId

def Removal.answer : Removal → Answer
  | .expired _ => .refused .refreshTokenExpired
  | .reused _ => .refused .refreshTokenReused
  | _ => .done

-- What a request does next. The rows it has written and not committed are those
-- of `spent` and `exchanging`, consumed at `now`, and the deleted ones of
-- `removing`; `seen` is what the snapshot of its DELETE held.
inductive Phase where
  | spending (row : RefreshToken) (now : Int)
  | spent (row : RefreshToken) (now : Int)
  | exchanging (row : RefreshToken) (now : Int) (active : Bool)
  | signingIn (userId : String)
  | deleting (removal : Removal)
  | removing (removal : Removal) (seen remaining deleted : List Nat)
  | over (answer : Answer)
  deriving DecidableEq, Repr

structure Exchange where
  token : Nat
  successor : Nat
  familyId : Nat
  deriving DecidableEq, Repr

-- What is committed, and the requests. The last three are no columns: every family
-- begun, with its user; every exchange; and the families a committed removal ended.
structure SignInState where
  accounts : List Account
  tokens : List RefreshToken
  requests : List Phase
  nextToken : Nat
  nextFamily : Nat
  families : List (Nat × String)
  exchanges : List Exchange
  ended : List Nat
  deriving DecidableEq, Repr

def accountAt (s : SignInState) (id : String) : Option Account := s.accounts.find? (fun user => user.id = id)
def tokenAt (s : SignInState) (id : Nat) : Option RefreshToken := s.tokens.find? (fun row => row.id = id)

-- Instants are microseconds.
def reuseGrace : Int := 10*1000000
def slack : Int := 24*60*60*1000000

def login (s : SignInState) (userId password : String) : Phase :=
  match accountAt s userId with
  | some user => if user.credential = password ∧ user.deactivatedAt = none then .signingIn user.id else .over (.refused .invalidCredentials)
  | none => .over (.refused .invalidCredentials)

def refresh (s : SignInState) (token : Nat) (now : Int) : Phase :=
  match tokenAt s token with
  | none => .over (.refused .refreshTokenInvalid)
  | some row =>
    match row.consumedAt with
    | some consumedAt => if reuseGrace < now-consumedAt then .deleting (.reused row.familyId) else .over (.refused .refreshTokenUsed)
    | none => if row.expiresAt < now then .deleting (.expired row.id) else .spending row now

def logout (s : SignInState) (token : Nat) : Phase :=
  match tokenAt s token with
  | some row => .deleting (.loggedOut row.familyId)
  | none => .over .done

def changePassword (s : SignInState) (userId currentPassword newPassword : String) : Phase :=
  match accountAt s userId with
  | none => .over (.refused .accountNotFound)
  | some user =>
    if user.deactivatedAt ≠ none then .over (.refused .accountDeactivated)
    else if user.credential ≠ currentPassword then .over (.refused .currentPasswordIncorrect)
    else if newPassword = currentPassword then .over (.refused .passwordUnchanged)
    else .deleting (.passwordChanged user.id newPassword)

def resetUserPassword (s : SignInState) (userId rawPassword : String) : Phase :=
  match accountAt s userId with
  | some user => .deleting (.passwordReset user.id rawPassword)
  | none => .over (.refused .notFound)

def deactivateUser (s : SignInState) (userId : String) (now : Int) : Phase :=
  match accountAt s userId with
  | some user => if user.deactivatedAt = none then .deleting (.deactivated user.id now) else .over .done
  | none => .over (.refused .notFound)

def purgeExpiredRefreshTokens (now : Int) : Phase := .deleting (.purged (now-slack))

inductive Request where
  | login (userId password : String)
  | refresh (token : Nat) (now : Int)
  | logout (token : Nat)
  | changePassword (userId currentPassword newPassword : String)
  | resetUserPassword (userId rawPassword : String)
  | deactivateUser (userId : String) (now : Int)
  | purgeExpiredRefreshTokens (now : Int)
  deriving DecidableEq, Repr

-- What a request reads first decides how it goes on.
def begun (s : SignInState) : Request → Phase
  | .login userId password => login s userId password
  | .refresh token now => refresh s token now
  | .logout token => logout s token
  | .changePassword userId currentPassword newPassword => changePassword s userId currentPassword newPassword
  | .resetUserPassword userId rawPassword => resetUserPassword s userId rawPassword
  | .deactivateUser userId now => deactivateUser s userId now
  | .purgeExpiredRefreshTokens now => purgeExpiredRefreshTokens now

def setPhase (s : SignInState) (k : Nat) (phase : Phase) : SignInState := {s with requests := s.requests.set k phase}

-- The rows a transaction keeps locked until it ends.
def Phase.holds : Phase → List Nat
  | .spent row _ => [row.id]
  | .exchanging row _ _ => [row.id]
  | .removing _ _ _ deleted => deleted
  | _ => []

def locked (s : SignInState) (id : Nat) : Bool := s.requests.any (fun phase => id ∈ phase.holds)

-- The conditional update. It waits for a lock only on a row that is not consumed
-- yet, and looks at the row again once it has it.
def spend (s : SignInState) (k : Nat) : Option SignInState :=
  match s.requests[k]? with
  | some (.spending row now) =>
    if (tokenAt s row.id).any (fun current => current.consumedAt = none) then
      if locked s row.id then none else some (setPhase s k (.spent row now))
    else some (setPhase s k (.over (.refused .refreshTokenUsed)))
  | _ => none

def readUser (s : SignInState) (k : Nat) : Option SignInState :=
  match s.requests[k]? with
  | some (.spent row now) => some (setPhase s k (.exchanging row now ((accountAt s row.userId).any (fun user => user.deactivatedAt = none))))
  | _ => none

def startDelete (s : SignInState) (k : Nat) : Option SignInState :=
  match s.requests[k]? with
  | some (.deleting removal) =>
    let seen := (s.tokens.filter removal.covers).map RefreshToken.id
    some (setPhase s k (.removing removal seen seen []))
  | _ => none

-- A row of the snapshot, in whatever order the rows come, once nobody else has it
-- locked. One that is gone by then is passed over.
def deleteRow (s : SignInState) (k id : Nat) : Option SignInState :=
  match s.requests[k]? with
  | some (.removing removal seen remaining deleted) =>
    if id ∈ remaining ∧ locked s id = false then
      some (setPhase s k (.removing removal seen (remaining.erase id) (if (tokenAt s id).isSome then id :: deleted else deleted)))
    else none
  | _ => none

def endedBy (s : SignInState) : Removal → List Nat
  | .reused familyId => [familyId]
  | .loggedOut familyId => [familyId]
  | .passwordChanged userId _ => (s.families.filter (fun family => family.2 = userId)).map Prod.fst
  | .passwordReset userId _ => (s.families.filter (fun family => family.2 = userId)).map Prod.fst
  | .deactivated userId _ => (s.families.filter (fun family => family.2 = userId)).map Prod.fst
  | _ => []

def setAccount (s : SignInState) (id : String) (f : Account → Account) : List Account :=
  s.accounts.map (fun user => if user.id = id then f user else user)

def accountsAfter (s : SignInState) : Removal → List Account
  | .passwordChanged userId newPassword => setAccount s userId (fun user => {user with credential := newPassword})
  | .passwordReset userId rawPassword => setAccount s userId (fun user => {user with credential := rawPassword})
  | .deactivated userId now => setAccount s userId (fun user => {user with deactivatedAt := some now})
  | _ => s.accounts

def removed (s : SignInState) (removal : Removal) (deleted : List Nat) : SignInState :=
  {s with
    accounts := accountsAfter s removal
    tokens := s.tokens.filter (fun row => row.id ∉ deleted)
    ended := s.ended ++ endedBy s removal}

-- A mint without a family begins one.
def beginFamily (s : SignInState) (k : Nat) (userId : String) (expiresAt : Int) : SignInState :=
  {setPhase s k (.over (.session s.nextToken)) with
    tokens := s.tokens ++ [⟨s.nextToken,userId,s.nextFamily,expiresAt,none⟩]
    nextToken := s.nextToken+1
    nextFamily := s.nextFamily+1
    families := s.families ++ [(s.nextFamily,userId)]}

def consume (id : Nat) (now : Int) (tokens : List RefreshToken) : List RefreshToken :=
  tokens.map (fun row => if row.id = id then {row with consumedAt := some now} else row)

def exchange (s : SignInState) (k : Nat) (row : RefreshToken) (now expiresAt : Int) : SignInState :=
  {setPhase s k (.over (.session s.nextToken)) with
    tokens := consume row.id now s.tokens ++ [⟨s.nextToken,row.userId,row.familyId,expiresAt,none⟩]
    nextToken := s.nextToken+1
    exchanges := s.exchanges ++ [⟨row.id,s.nextToken,row.familyId⟩]}

-- The inserts are flushed with the COMMIT, so nobody sees them before it.
def commit (lifetime : Int) (s : SignInState) (k : Nat) (now : Int) : Option SignInState :=
  match s.requests[k]? with
  | some (.signingIn userId) => some (beginFamily s k userId (now+lifetime))
  | some (.exchanging row at_ true) => some (exchange s k row at_ (now+lifetime))
  | some (.exchanging row at_ false) =>
    some {setPhase s k (.over (.refused .refreshTokenInvalid)) with tokens := consume row.id at_ s.tokens}
  | some (.removing (.passwordChanged userId newPassword) _ [] deleted) =>
    some (beginFamily (removed s (.passwordChanged userId newPassword) deleted) k userId (now+lifetime))
  | some (.removing removal _ [] deleted) => some (setPhase (removed s removal deleted) k (.over removal.answer))
  | _ => none

-- At any point: the victim of a deadlock, a lost connection or a crash.
def rollback (s : SignInState) (k : Nat) : Option SignInState :=
  match s.requests[k]? with
  | some (.over _) => none
  | some _ => some (setPhase s k (.over .failed))
  | none => none

inductive Operation where
  | begin (request : Request)
  | spend (request : Nat)
  | readUser (request : Nat)
  | startDelete (request : Nat)
  | deleteRow (request id : Nat)
  | commit (request : Nat) (now : Int)
  | rollback (request : Nat)
  | reactivateUser (userId : String)
  deriving DecidableEq, Repr

def step (lifetime : Int) (s : SignInState) : Operation → Option SignInState
  | .begin request => some {s with requests := s.requests ++ [begun s request]}
  | .spend k => spend s k
  | .readUser k => readUser s k
  | .startDelete k => startDelete s k
  | .deleteRow k id => deleteRow s k id
  | .commit k now => commit lifetime s k now
  | .rollback k => rollback s k
  | .reactivateUser userId => some {s with accounts := setAccount s userId (fun user => {user with deactivatedAt := none})}

abbrev Steps (lifetime : Int) : SignInState → Operation → SignInState → Prop := Runs.Acts (step lifetime)

def SignInState.start (accounts : List Account) : SignInState := ⟨accounts,[],[],1,1,[],[],[]⟩

end ChronosLedger.SignIns
