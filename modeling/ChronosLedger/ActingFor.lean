import ChronosLedger.Library.Runs
import ChronosLedger.Tables

namespace ChronosLedger.ActingFor

inductive AccessReadiness where
  | openAdHoc | busy | criticalDoNotDisturb | veryFree
  deriving DecidableEq, Repr

-- The password stands for its hash, and the address is as normalize_email folds it.
structure Account where
  id : String
  organizationId : String
  fullName : String
  emailAddress : String
  credential : String
  roleType : InstitutionalRole
  unitCode : Option String
  assignedBaseStation : Option String
  currentOccupancyIndex : AccessReadiness
  reportingLineManager : Option String
  initialLoginState : Bool
  deactivatedAt : Option Int
  deriving DecidableEq, Repr

-- The raw key stands for its hash. The scopes are those between its commas.
structure ApiKey where
  id : Nat
  organizationId : String
  raw : String
  label : String
  userId : String
  scopes : List String
  expiresAt : Option Int
  deriving DecidableEq, Repr

structure RefreshToken where
  raw : String
  userId : String
  deriving DecidableEq, Repr

structure IssuerKey where
  id : Nat
  kid : String
  publicKey : String
  notBefore : Int
  notAfter : Option Int
  deriving DecidableEq, Repr

structure RoleMapEntry where
  id : Nat
  groupClaimValue : String
  roleType : InstitutionalRole
  unitCode : Option String
  deriving DecidableEq, Repr

structure Issuer where
  id : Nat
  organizationId : String
  issuer : String
  displayName : String
  audience : String
  enabled : Bool
  keys : List IssuerKey
  roleMap : List RoleMapEntry
  deriving DecidableEq, Repr

structure Link where
  id : Nat
  organizationId : String
  issuerId : Nat
  subject : String
  userId : String
  deriving DecidableEq, Repr

structure Directory where
  accounts : List Account
  apiKeys : List ApiKey
  refreshTokens : List RefreshToken
  issuers : List Issuer
  links : List Link
  nextId : Nat
  deriving DecidableEq, Repr

inductive Code where
  | apiKeyInvalid | apiKeyExpired | scopeMissing | impersonationNotAllowed | impersonationRefused | accountNotFound | accountDeactivated
  | insufficientRole | outsideUnit | forbidden | notFound | alreadyExists | emailTaken | invalidValue | userDeactivated | stateConflict
  | currentPasswordIncorrect | passwordUnchanged
  deriving DecidableEq, Repr

structure Refusal where
  statusCode : Nat
  detail : String
  code : Code
  deriving DecidableEq, Repr

inductive Method where
  | get | head | options | post | patch | put | delete
  deriving DecidableEq, Repr

def Method.reads : Method → Bool
  | .get => true
  | .head => true
  | .options => true
  | _ => false

-- A path is what stands between its slashes: the first part of "/a/b/" is empty,
-- and so is the last.
abbrev Path := List String

def trimEnd : Path → Path
  | [] => []
  | part :: rest =>
    match trimEnd rest with
    | [] => if part = "" then [] else [part]
    | kept => part :: kept

def trim (path : Path) : Path := trimEnd (path.dropWhile (fun part => part = ""))

def requiredScope (method : Method) (path : Path) : Option String :=
  match trim path with
  | api :: _ :: area :: _ => if api = "api" then some (area ++ (if method.reads then ":read" else ":write")) else none
  | _ => none

def wildcardScope : String := "*"
def impersonateScope : String := "impersonate"

def keyAllows (scopes : List String) (needed : Option String) : Bool :=
  scopes.contains wildcardScope || needed.any (fun scope => scopes.contains scope)

def keyMayImpersonate (scopes : List String) : Bool := scopes.contains impersonateScope

def actingForRefusedScopes : List String := ["auth:write","api-keys:write","federation:write"]

def actingForRefused (method : Method) (path : Path) : Bool :=
  (requiredScope method path).any (fun scope => actingForRefusedScopes.contains scope) ||
    !method.reads && ((trimEnd path).getLast? = some "reset-password" && 2 ≤ (trimEnd path).length)

def accountAt (s : Directory) (id : String) : Option Account := s.accounts.find? (fun user => user.id = id)
def apiKeyAt (s : Directory) (raw : String) : Option ApiKey := s.apiKeys.find? (fun key => key.raw = raw)

-- The gate, for a request with an API key and no bearer token. The header is as
-- stripped.
def getCurrentUserId (s : Directory) (apiKey : String) (actingFor : Option String) (now : Int) (method : Method) (path : Path) :
    Except Refusal String :=
  match apiKeyAt s apiKey with
  | none => .error ⟨401,"Invalid API key",.apiKeyInvalid⟩
  | some row =>
    if row.expiresAt.any (fun expires => expires ≤ now) then .error ⟨401,"API key expired",.apiKeyExpired⟩
    else if keyAllows row.scopes (requiredScope method path) then
      match actingFor with
      | none => .ok row.userId
      | some name =>
        if keyMayImpersonate row.scopes then
          if actingForRefused method path then
            .error ⟨403,"A key acting for someone cannot issue or change credentials",.impersonationNotAllowed⟩
          else
            match (if name = "" then none else accountAt s name) with
            | some person =>
              if person.organizationId = row.organizationId ∧ person.deactivatedAt = none then .ok person.id
              else .error ⟨403,"That user cannot be acted for",.impersonationRefused⟩
            | none => .error ⟨403,"That user cannot be acted for",.impersonationRefused⟩
        else .error ⟨403,"This API key does not hold the impersonate scope",.impersonationNotAllowed⟩
    else .error ⟨403,"API key is not scoped for " ++ (requiredScope method path).getD "this request",.scopeMissing⟩

-- A key is not held at the first-login gate.
def getCurrentUser (s : Directory) (userId : String) : Except Refusal Account :=
  match accountAt s userId with
  | none => .error ⟨401,"User not found",.accountNotFound⟩
  | some user => if user.deactivatedAt = none then .ok user else .error ⟨401,"Account deactivated",.accountDeactivated⟩

def isAdmin (role : InstitutionalRole) : Bool := role = .orgAdmin || role = .unitAdmin

def inUnitScope (caller : Account) (unitCode : Option String) : Bool :=
  caller.roleType ≠ .unitAdmin || caller.unitCode.isSome && unitCode = caller.unitCode

-- What a request leaves in the directory, and the credentials it chose or was handed.
inductive Credential where
  | password (raw : String)
  | apiKey (raw : String)
  | refreshToken (raw : String)
  | issuerKey (publicKey : String)
  deriving DecidableEq, Repr

abbrev Outcome := Except Refusal (Directory × List Credential)

def unchanged (s : Directory) : Outcome := .ok (s,[])

def roleMissing : Refusal := ⟨403,"Insufficient permissions",.insufficientRole⟩
def outsideUnit : Refusal := ⟨403,"Outside your unit",.outsideUnit⟩
def missing (detail : String) : Refusal := ⟨404,detail,.notFound⟩

def setAccount (s : Directory) (id : String) (f : Account → Account) : Directory :=
  {s with accounts := s.accounts.map (fun user => if user.id = id then f user else user)}

-- Rows of the caller's organization only.
def accountIn (s : Directory) (organizationId id : String) : Option Account :=
  s.accounts.find? (fun user => user.id = id && user.organizationId = organizationId)

def changePassword (s : Directory) (caller : Account) (currentPassword newPassword drawn : String) : Outcome :=
  if caller.credential ≠ currentPassword then .error ⟨400,"Current password is incorrect",.currentPasswordIncorrect⟩
  else if newPassword = currentPassword then .error ⟨400,"The new password is the one you already have",.passwordUnchanged⟩
  else .ok ({setAccount s caller.id (fun user => {user with credential := newPassword,initialLoginState := false}) with
    refreshTokens := s.refreshTokens.filter (fun token => token.userId ≠ caller.id) ++ [⟨drawn,caller.id⟩]},
    [.password newPassword,.refreshToken drawn])

structure ApiKeyCreate where
  label : String
  userId : String
  scopes : Option (List String)
  expiresAt : Option Int
  deriving DecidableEq, Repr

def createApiKey (s : Directory) (caller : Account) (payload : ApiKeyCreate) (now : Int) (drawn : String) : Outcome :=
  if caller.roleType ≠ .orgAdmin then .error roleMissing
  else
    match accountIn s caller.organizationId payload.userId with
    | none => .error (missing s!"User '{payload.userId}' not found")
    | some bound =>
      if bound.deactivatedAt ≠ none then .error ⟨409,s!"User '{payload.userId}' is deactivated",.userDeactivated⟩
      else if payload.expiresAt.any (fun expires => expires ≤ now) then
        .error ⟨422,"expires_at is in the past; the key would be dead on arrival",.invalidValue⟩
      else .ok ({s with
        apiKeys := s.apiKeys ++ [⟨s.nextId,caller.organizationId,drawn,payload.label,bound.id,payload.scopes.getD [wildcardScope],payload.expiresAt⟩]
        nextId := s.nextId+1},[.apiKey drawn])

-- A listed key shows the first twelve characters of its text, which open nothing.
def listApiKeys (s : Directory) (caller : Account) : Outcome := if caller.roleType ≠ .orgAdmin then .error roleMissing else unchanged s

def revokeApiKey (s : Directory) (caller : Account) (id : Nat) : Outcome :=
  if caller.roleType ≠ .orgAdmin then .error roleMissing
  else if s.apiKeys.any (fun key => key.id = id && key.organizationId = caller.organizationId) then
    .ok ({s with apiKeys := s.apiKeys.filter (fun key => key.id ≠ id)},[])
  else .error (missing s!"API key {id} not found")

def listUsers (s : Directory) (caller : Account) : Outcome := if isAdmin caller.roleType then unchanged s else .error roleMissing

structure UserCreate where
  id : String
  fullName : String
  emailAddress : String
  password : String
  roleType : InstitutionalRole
  unitCode : Option String
  assignedBaseStation : Option String
  reportingLineManager : Option String
  deriving DecidableEq, Repr

-- Whether `above`, or whoever is above them, is the user. A loop that predates the
-- check ends the walk, and so does an id nobody in the organization has.
def reportsTo (s : Directory) (organizationId userId : String) : Nat → List String → Option String → Bool
  | 0,_,_ => false
  | _,_,none => false
  | fuel+1,seen,some above =>
    if above ∈ seen then false
    else if above = userId then true
    else reportsTo s organizationId userId fuel (above :: seen) ((accountIn s organizationId above).bind Account.reportingLineManager)

def checkManager (s : Directory) (organizationId userId managerId : String) : Option Refusal :=
  if managerId = userId then some ⟨422,"A user cannot be their own manager",.invalidValue⟩
  else
    match accountIn s organizationId managerId with
    | none => some (missing "Manager not found")
    | some manager =>
      if manager.deactivatedAt ≠ none then some ⟨422,"Manager is deactivated",.userDeactivated⟩
      else if reportsTo s organizationId userId (s.accounts.length+1) [managerId] manager.reportingLineManager then
        some ⟨422,s!"{managerId} already reports to {userId}, directly or through others",.invalidValue⟩
      else none

-- An id and an address are looked up in the whole deployment.
def createUserRefusal (s : Directory) (caller : Account) (payload : UserCreate) : Option Refusal :=
  if !isAdmin caller.roleType then some roleMissing
  else if isAdmin payload.roleType && caller.roleType ≠ .orgAdmin then
    some ⟨403,"Only an organization admin can create admin accounts",.insufficientRole⟩
  else if !inUnitScope caller payload.unitCode then some outsideUnit
  else if s.accounts.any (fun user => user.id = payload.id) then some ⟨409,"User ID already exists",.alreadyExists⟩
  else if s.accounts.any (fun user => user.emailAddress = payload.emailAddress) then some ⟨409,"Email already registered",.emailTaken⟩
  else payload.reportingLineManager.bind (checkManager s caller.organizationId payload.id)

def newAccount (caller : Account) (payload : UserCreate) : Account :=
  ⟨payload.id,caller.organizationId,payload.fullName,payload.emailAddress,payload.password,payload.roleType,payload.unitCode,
    payload.assignedBaseStation,.openAdHoc,payload.reportingLineManager,true,none⟩

def createUser (s : Directory) (caller : Account) (payload : UserCreate) : Outcome :=
  match createUserRefusal s caller payload with
  | some refusal => .error refusal
  | none => .ok ({s with accounts := s.accounts ++ [newAccount caller payload]},[.password payload.password])

def listAvailableStaff (s : Directory) : Outcome := unchanged s

def getUser (s : Directory) (caller : Account) (userId : String) : Outcome :=
  if caller.id ≠ userId ∧ !isAdmin caller.roleType then .error ⟨403,"Access denied",.forbidden⟩
  else
    match accountIn s caller.organizationId userId with
    | none => .error (missing "User not found")
    | some user => if caller.id ≠ userId ∧ !inUnitScope caller user.unitCode then .error outsideUnit else unchanged s

-- The account an admin is about to change, once they are allowed to change it.
def managedAccount (s : Directory) (caller : Account) (userId : String) : Except Refusal Account :=
  if isAdmin caller.roleType then
    match accountIn s caller.organizationId userId with
    | none => .error (missing "User not found")
    | some user =>
      if isAdmin user.roleType && caller.roleType ≠ .orgAdmin then
        .error ⟨403,"Only an organization admin can modify admin accounts",.insufficientRole⟩
      else if !inUnitScope caller user.unitCode then .error outsideUnit
      else .ok user
  else .error roleMissing

-- A field is none where the request leaves it out.
structure UserUpdate where
  fullName : Option String
  emailAddress : Option String
  unitCode : Option (Option String)
  assignedBaseStation : Option (Option String)
  reportingLineManager : Option (Option String)
  deriving DecidableEq, Repr

def UserUpdate.apply (payload : UserUpdate) (user : Account) : Account :=
  {user with
    fullName := payload.fullName.getD user.fullName
    emailAddress := payload.emailAddress.getD user.emailAddress
    unitCode := payload.unitCode.getD user.unitCode
    assignedBaseStation := payload.assignedBaseStation.getD user.assignedBaseStation
    reportingLineManager := payload.reportingLineManager.getD user.reportingLineManager}

def updateUser (s : Directory) (caller : Account) (userId : String) (payload : UserUpdate) : Outcome :=
  match managedAccount s caller userId with
  | .error refusal => .error refusal
  | .ok user =>
    if payload.unitCode.any (fun unit => !inUnitScope caller unit) then .error outsideUnit
    else if payload.emailAddress.any (fun email => s.accounts.any (fun other => other.emailAddress = email && other.id ≠ user.id)) then
      .error ⟨409,"Email already registered",.emailTaken⟩
    else
      match payload.reportingLineManager.join.bind (checkManager s caller.organizationId user.id) with
      | some refusal => .error refusal
      | none => .ok (setAccount s user.id payload.apply,[])

def resetUserPassword (s : Directory) (caller : Account) (userId drawn : String) : Outcome :=
  match managedAccount s caller userId with
  | .error refusal => .error refusal
  | .ok user => .ok ({setAccount s user.id (fun user => {user with credential := drawn,initialLoginState := true}) with
      refreshTokens := s.refreshTokens.filter (fun token => token.userId ≠ user.id)},[.password drawn])

def deactivateUser (s : Directory) (caller : Account) (userId : String) (now : Int) : Outcome :=
  match managedAccount s caller userId with
  | .error refusal => .error refusal
  | .ok user =>
    if user.id = caller.id then .error ⟨422,"You cannot deactivate your own account",.invalidValue⟩
    else if user.deactivatedAt ≠ none then unchanged s
    else .ok ({setAccount s user.id (fun user => {user with deactivatedAt := some now}) with
      refreshTokens := s.refreshTokens.filter (fun token => token.userId ≠ user.id)
      apiKeys := s.apiKeys.filter (fun key => key.userId ≠ user.id || key.organizationId ≠ caller.organizationId)},[])

def reactivateUser (s : Directory) (caller : Account) (userId : String) : Outcome :=
  match managedAccount s caller userId with
  | .error refusal => .error refusal
  | .ok user => .ok (setAccount s user.id (fun user => {user with deactivatedAt := none}),[])

def updateUserStatus (s : Directory) (caller : Account) (userId : String) (status : AccessReadiness) : Outcome :=
  if caller.id ≠ userId ∧ caller.roleType ≠ .orgAdmin then .error ⟨403,"Can only update own status",.forbidden⟩
  else
    match accountIn s caller.organizationId userId with
    | none => .error (missing "User not found")
    | some user => .ok (setAccount s user.id (fun user => {user with currentOccupancyIndex := status}),[])

end ChronosLedger.ActingFor
