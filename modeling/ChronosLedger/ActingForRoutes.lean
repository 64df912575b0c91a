import ChronosLedger.ActingFor

namespace ChronosLedger.ActingFor

-- Every federation route takes an organization's admin.
def asOrgAdmin (caller : Account) (outcome : Outcome) : Outcome := if caller.roleType ≠ .orgAdmin then .error roleMissing else outcome

def issuerIn (s : Directory) (organizationId : String) (id : Nat) : Option Issuer :=
  s.issuers.find? (fun row => row.id = id && row.organizationId = organizationId)

def withIssuer (s : Directory) (caller : Account) (issuerId : Nat) (f : Issuer → Outcome) : Outcome :=
  asOrgAdmin caller (match issuerIn s caller.organizationId issuerId with
    | none => .error (missing s!"Issuer {issuerId} not found")
    | some row => f row)

def setIssuer (s : Directory) (id : Nat) (f : Issuer → Issuer) : Directory :=
  {s with issuers := s.issuers.map (fun row => if row.id = id then f row else row)}

structure IssuerCreate where
  issuer : String
  displayName : String
  audience : String
  enabled : Bool
  deriving DecidableEq, Repr

def createIssuer (s : Directory) (caller : Account) (payload : IssuerCreate) : Outcome :=
  asOrgAdmin caller (match s.issuers.find? (fun row => row.issuer = payload.issuer) with
    | some taken => .error ⟨409,s!"'{payload.issuer}' is already registered" ++
        (if taken.organizationId = caller.organizationId then s!" as issuer {taken.id}" else ""),.alreadyExists⟩
    | none => .ok ({s with
        issuers := s.issuers ++ [⟨s.nextId,caller.organizationId,payload.issuer,payload.displayName,payload.audience,payload.enabled,[],[]⟩]
        nextId := s.nextId+1},[]))

structure IssuerUpdate where
  displayName : Option String
  audience : Option String
  enabled : Option Bool
  deriving DecidableEq, Repr

def updateIssuer (s : Directory) (caller : Account) (issuerId : Nat) (payload : IssuerUpdate) : Outcome :=
  withIssuer s caller issuerId (fun row => .ok (setIssuer s row.id (fun row => {row with
    displayName := payload.displayName.getD row.displayName
    audience := payload.audience.getD row.audience
    enabled := payload.enabled.getD row.enabled}),[]))

def deleteIssuer (s : Directory) (caller : Account) (issuerId : Nat) : Outcome :=
  withIssuer s caller issuerId (fun row => .ok ({s with
    issuers := s.issuers.filter (fun other => other.id ≠ row.id)
    links := s.links.filter (fun link => link.issuerId ≠ row.id)},[]))

-- Whether the text loads as an Ed25519 public key is up to the cryptography package.
structure IssuerKeyCreate where
  kid : String
  publicKey : String
  loads : Bool
  notBefore : Option Int
  notAfter : Option Int
  deriving DecidableEq, Repr

def addKey (s : Directory) (caller : Account) (issuerId : Nat) (payload : IssuerKeyCreate) (now : Int) : Outcome :=
  withIssuer s caller issuerId (fun row =>
    if !payload.loads then .error ⟨422,"public_key is not an Ed25519 key; notes are signed with EdDSA only",.invalidValue⟩
    else if row.keys.any (fun key => key.kid = payload.kid) then
      .error ⟨409,s!"Issuer {row.id} already has a key with kid '{payload.kid}'",.alreadyExists⟩
    else if payload.notAfter.any (fun end_ => end_ ≤ payload.notBefore.getD now) then
      .error ⟨422,"not_after is not after not_before; the key would never be valid",.invalidValue⟩
    else .ok ({setIssuer s row.id (fun row => {row with
      keys := row.keys ++ [⟨s.nextId,payload.kid,payload.publicKey,payload.notBefore.getD now,payload.notAfter⟩]}) with nextId := s.nextId+1},
      [.issuerKey payload.publicKey]))

def withKey (s : Directory) (caller : Account) (issuerId keyId : Nat) (f : Issuer → IssuerKey → Outcome) : Outcome :=
  withIssuer s caller issuerId (fun row =>
    match row.keys.find? (fun key => key.id = keyId) with
    | none => .error (missing s!"Issuer {row.id} has no key {keyId}")
    | some key => f row key)

def retireKey (s : Directory) (caller : Account) (issuerId keyId : Nat) (notAfter : Int) : Outcome :=
  withKey s caller issuerId keyId (fun row key =>
    if notAfter ≤ key.notBefore then .error ⟨422,"not_after is not after not_before; delete the key instead",.invalidValue⟩
    else .ok (setIssuer s row.id (fun row => {row with
      keys := row.keys.map (fun other => if other.id = key.id then {other with notAfter := some notAfter} else other)}),[]))

def deleteKey (s : Directory) (caller : Account) (issuerId keyId : Nat) : Outcome :=
  withKey s caller issuerId keyId (fun row key =>
    .ok (setIssuer s row.id (fun row => {row with keys := row.keys.filter (fun other => other.id ≠ key.id)}),[]))

structure RoleMapEntryCreate where
  groupClaimValue : String
  roleType : InstitutionalRole
  unitCode : Option String
  deriving DecidableEq, Repr

def addRoleMapEntry (s : Directory) (caller : Account) (issuerId : Nat) (payload : RoleMapEntryCreate) : Outcome :=
  withIssuer s caller issuerId (fun row =>
    match row.roleMap.find? (fun entry => entry.groupClaimValue = payload.groupClaimValue) with
    | some taken => .error ⟨409,s!"Issuer {row.id} already maps group '{payload.groupClaimValue}'; delete entry {taken.id} to change it",
        .alreadyExists⟩
    | none => .ok ({setIssuer s row.id (fun row => {row with
        roleMap := row.roleMap ++ [⟨s.nextId,payload.groupClaimValue,payload.roleType,payload.unitCode⟩]}) with nextId := s.nextId+1},[]))

def deleteRoleMapEntry (s : Directory) (caller : Account) (issuerId entryId : Nat) : Outcome :=
  withIssuer s caller issuerId (fun row =>
    if row.roleMap.any (fun entry => entry.id = entryId) then
      .ok (setIssuer s row.id (fun row => {row with roleMap := row.roleMap.filter (fun entry => entry.id ≠ entryId)}),[])
    else .error (missing s!"Issuer {row.id} has no role map entry {entryId}"))

structure LinkCreate where
  issuerId : Nat
  subject : String
  userId : String
  deriving DecidableEq, Repr

def roleName : InstitutionalRole → String
  | .orgAdmin => "ORG_ADMIN"
  | .unitAdmin => "UNIT_ADMIN"
  | .staff => "STAFF"
  | .member => "MEMBER"

def createLink (s : Directory) (caller : Account) (payload : LinkCreate) : Outcome :=
  withIssuer s caller payload.issuerId (fun row =>
    match accountIn s caller.organizationId payload.userId with
    | none => .error (missing s!"User '{payload.userId}' not found")
    | some user =>
      if isAdmin user.roleType then
        .error ⟨409,s!"'{user.id}' is {roleName user.roleType} and cannot be linked: no issuer may hold a route to an admin account",.stateConflict⟩
      else
        match s.links.find? (fun link => link.issuerId = row.id && link.subject = payload.subject) with
        | some taken => .error ⟨409,s!"Subject '{payload.subject}' at issuer {row.id} is already linked to '{taken.userId}'",.alreadyExists⟩
        | none => .ok ({s with
            links := s.links ++ [⟨s.nextId,caller.organizationId,row.id,payload.subject,user.id⟩]
            nextId := s.nextId+1},[]))

def deleteLink (s : Directory) (caller : Account) (linkId : Nat) : Outcome :=
  asOrgAdmin caller (if s.links.any (fun link => link.id = linkId && link.organizationId = caller.organizationId) then
    .ok ({s with links := s.links.filter (fun link => link.id ≠ linkId)},[])
  else .error (missing s!"Link {linkId} not found"))

-- The routes of the four areas that take a caller, with their bodies. Signing in,
-- refreshing and signing out take none, and look at neither header.
inductive Route where
  | changePassword (currentPassword newPassword : String)
  | getMe
  | createApiKey (payload : ApiKeyCreate)
  | listApiKeys
  | revokeApiKey (keyId : Nat)
  | listUsers
  | createUser (payload : UserCreate)
  | listAvailableStaff
  | getUser (userId : String)
  | updateUser (userId : String) (payload : UserUpdate)
  | resetUserPassword (userId : String)
  | deactivateUser (userId : String)
  | reactivateUser (userId : String)
  | updateUserStatus (userId : String) (status : AccessReadiness)
  | createIssuer (payload : IssuerCreate)
  | listIssuers
  | updateIssuer (issuerId : Nat) (payload : IssuerUpdate)
  | deleteIssuer (issuerId : Nat)
  | addKey (issuerId : Nat) (payload : IssuerKeyCreate)
  | listKeys (issuerId : Nat)
  | retireKey (issuerId keyId : Nat) (notAfter : Int)
  | deleteKey (issuerId keyId : Nat)
  | addRoleMapEntry (issuerId : Nat) (payload : RoleMapEntryCreate)
  | listRoleMap (issuerId : Nat)
  | deleteRoleMapEntry (issuerId entryId : Nat)
  | createLink (payload : LinkCreate)
  | listLinks
  | deleteLink (linkId : Nat)
  deriving DecidableEq, Repr

def Route.method : Route → Method
  | .changePassword _ _ => .post
  | .getMe => .get
  | .createApiKey _ => .post
  | .listApiKeys => .get
  | .revokeApiKey _ => .delete
  | .listUsers => .get
  | .createUser _ => .post
  | .listAvailableStaff => .get
  | .getUser _ => .get
  | .updateUser _ _ => .patch
  | .resetUserPassword _ => .post
  | .deactivateUser _ => .post
  | .reactivateUser _ => .post
  | .updateUserStatus _ _ => .put
  | .createIssuer _ => .post
  | .listIssuers => .get
  | .updateIssuer _ _ => .patch
  | .deleteIssuer _ => .delete
  | .addKey _ _ => .post
  | .listKeys _ => .get
  | .retireKey _ _ _ => .patch
  | .deleteKey _ _ => .delete
  | .addRoleMapEntry _ _ => .post
  | .listRoleMap _ => .get
  | .deleteRoleMapEntry _ _ => .delete
  | .createLink _ => .post
  | .listLinks => .get
  | .deleteLink _ => .delete

def under (area : String) (rest : Path) : Path := "" :: "api" :: "v1" :: area :: rest

def Route.path : Route → Path
  | .changePassword _ _ => under "auth" ["change-password"]
  | .getMe => under "auth" ["me"]
  | .createApiKey _ => under "api-keys" [""]
  | .listApiKeys => under "api-keys" [""]
  | .revokeApiKey keyId => under "api-keys" [toString keyId]
  | .listUsers => under "users" [""]
  | .createUser _ => under "users" [""]
  | .listAvailableStaff => under "users" ["staff","available"]
  | .getUser userId => under "users" [userId]
  | .updateUser userId _ => under "users" [userId]
  | .resetUserPassword userId => under "users" [userId,"reset-password"]
  | .deactivateUser userId => under "users" [userId,"deactivate"]
  | .reactivateUser userId => under "users" [userId,"reactivate"]
  | .updateUserStatus userId _ => under "users" [userId,"status"]
  | .createIssuer _ => under "federation" ["issuers"]
  | .listIssuers => under "federation" ["issuers"]
  | .updateIssuer issuerId _ => under "federation" ["issuers",toString issuerId]
  | .deleteIssuer issuerId => under "federation" ["issuers",toString issuerId]
  | .addKey issuerId _ => under "federation" ["issuers",toString issuerId,"keys"]
  | .listKeys issuerId => under "federation" ["issuers",toString issuerId,"keys"]
  | .retireKey issuerId keyId _ => under "federation" ["issuers",toString issuerId,"keys",toString keyId]
  | .deleteKey issuerId keyId => under "federation" ["issuers",toString issuerId,"keys",toString keyId]
  | .addRoleMapEntry issuerId _ => under "federation" ["issuers",toString issuerId,"role-map"]
  | .listRoleMap issuerId => under "federation" ["issuers",toString issuerId,"role-map"]
  | .deleteRoleMapEntry issuerId entryId => under "federation" ["issuers",toString issuerId,"role-map",toString entryId]
  | .createLink _ => under "federation" ["links"]
  | .listLinks => under "federation" ["links"]
  | .deleteLink linkId => under "federation" ["links",toString linkId]

-- `drawn` is the secret a handler draws at random, where it draws one.
def handle (s : Directory) (caller : Account) (now : Int) (drawn : String) : Route → Outcome
  | .changePassword currentPassword newPassword => changePassword s caller currentPassword newPassword drawn
  | .getMe => unchanged s
  | .createApiKey payload => createApiKey s caller payload now drawn
  | .listApiKeys => listApiKeys s caller
  | .revokeApiKey keyId => revokeApiKey s caller keyId
  | .listUsers => listUsers s caller
  | .createUser payload => createUser s caller payload
  | .listAvailableStaff => listAvailableStaff s
  | .getUser userId => getUser s caller userId
  | .updateUser userId payload => updateUser s caller userId payload
  | .resetUserPassword userId => resetUserPassword s caller userId drawn
  | .deactivateUser userId => deactivateUser s caller userId now
  | .reactivateUser userId => reactivateUser s caller userId
  | .updateUserStatus userId status => updateUserStatus s caller userId status
  | .createIssuer payload => createIssuer s caller payload
  | .listIssuers => asOrgAdmin caller (unchanged s)
  | .updateIssuer issuerId payload => updateIssuer s caller issuerId payload
  | .deleteIssuer issuerId => deleteIssuer s caller issuerId
  | .addKey issuerId payload => addKey s caller issuerId payload now
  | .listKeys issuerId => withIssuer s caller issuerId (fun _ => unchanged s)
  | .retireKey issuerId keyId notAfter => retireKey s caller issuerId keyId notAfter
  | .deleteKey issuerId keyId => deleteKey s caller issuerId keyId
  | .addRoleMapEntry issuerId payload => addRoleMapEntry s caller issuerId payload
  | .listRoleMap issuerId => withIssuer s caller issuerId (fun _ => unchanged s)
  | .deleteRoleMapEntry issuerId entryId => deleteRoleMapEntry s caller issuerId entryId
  | .createLink payload => createLink s caller payload
  | .listLinks => asOrgAdmin caller (unchanged s)
  | .deleteLink linkId => deleteLink s caller linkId

-- A request with the key that names someone.
structure Request where
  actingFor : String
  route : Route
  now : Int
  drawn : String
  deriving DecidableEq, Repr

def admitted (s : Directory) (key : String) (request : Request) : Except Refusal Account :=
  match getCurrentUserId s key (some request.actingFor) request.now request.route.method request.route.path with
  | .error refusal => .error refusal
  | .ok userId => getCurrentUser s userId

def respond (s : Directory) (key : String) (request : Request) : Outcome :=
  match admitted s key request with
  | .error refusal => .error refusal
  | .ok caller => handle s caller request.now request.drawn request.route

def login (s : Directory) (emailAddress password : String) : Bool :=
  (s.accounts.find? (fun user => user.emailAddress = emailAddress)).any (fun user => user.credential = password && user.deactivatedAt.isNone)

-- Whether a credential opens anything now.
def works (s : Directory) : Credential → Bool
  | .password raw => s.accounts.any (fun user => login s user.emailAddress raw)
  | .apiKey raw => s.apiKeys.any (fun key => key.raw = raw)
  | .refreshToken raw => s.refreshTokens.any (fun token => token.raw = raw)
  | .issuerKey publicKey => s.issuers.any (fun row => row.keys.any (fun key => key.publicKey = publicKey))

-- What there is, and what the sender has chosen or been handed on the way.
structure Holder where
  directory : Directory
  held : List Credential
  deriving DecidableEq, Repr

def step (key : String) (s : Holder) (request : Request) : Option Holder :=
  match respond s.directory key request with
  | .ok (directory,credentials) => some ⟨directory,s.held ++ credentials⟩
  | .error _ => some s

abbrev Steps (key : String) : Holder → Request → Holder → Prop := Runs.Acts (step key)

end ChronosLedger.ActingFor
