import ChronosLedger.ActingForRoutes
import Mathlib.Data.List.Sort

namespace ChronosLedger.FederatedAccounts
open ActingFor

-- What a note turned out to say, once it was worth believing.
structure VerifiedNote where
  issuer : Issuer
  subject : String
  email : Option String
  fullName : Option String
  groups : List String
  deriving DecidableEq, Repr

-- What an attempt draws at random: the account's id, the password nobody holds and
-- the refresh token.
structure Drawn where
  userId : String
  secret : String
  refreshToken : String
  deriving DecidableEq, Repr

inductive Raised where
  | pointsAtNoAccount (issuer subject : String)
  | deactivated (userId issuer : String)
  | linkedAccountIsAdmin (userId issuer : String) (role : InstitutionalRole)
  | noEmailToProvisionWith (issuer subject : String)
  | emailAlreadyTaken (email : String)
  | integrityError
  deriving DecidableEq, Repr

def Raised.statusCode : Raised → Nat
  | .pointsAtNoAccount _ _ => 401
  | .deactivated _ _ => 401
  | .linkedAccountIsAdmin _ _ _ => 403
  | .noEmailToProvisionWith _ _ => 422
  | .emailAlreadyTaken _ => 409
  | .integrityError => 500

-- normalize_email, and the database's lower.
structure Folding where
  normalizeEmail : String → String
  lower : String → String

def nameColumnLimit : Nat := 120
def emailColumnLimit : Nat := 120

def roleMapOf (s : Directory) (issuerId : Nat) : List RoleMapEntry := ((s.issuers.find? (fun row => row.id = issuerId)).map Issuer.roleMap).getD []

def resolveRole (s : Directory) (issuerId : Nat) (groups : List String) : InstitutionalRole × Option String :=
  if groups = [] then (.member,none)
  else
    let matched := ((roleMapOf s issuerId).filter (fun entry => groups.contains entry.groupClaimValue)).insertionSort (fun one two => one.id ≤ two.id)
    match matched.find? (fun row => row.roleType = .staff) with
    | some row => (.staff,row.unitCode)
    | none =>
      match matched with
      | first :: _ => (.member,first.unitCode)
      | [] => (.member,none)

def isPair (issuerId : Nat) (subject : String) (link : Link) : Bool := link.issuerId = issuerId && link.subject = subject

def findLink (s : Directory) (note : VerifiedNote) : Option Link := s.links.find? (isPair note.issuer.id note.subject)

-- The account a link leads to, unless it is gone, switched off or an admin's.
def linked (s : Directory) (note : VerifiedNote) (link : Link) : Except Raised Account :=
  match accountAt s link.userId with
  | none => .error (.pointsAtNoAccount note.issuer.issuer note.subject)
  | some user =>
    if user.deactivatedAt ≠ none then .error (.deactivated user.id note.issuer.issuer)
    else if isAdmin user.roleType then .error (.linkedAccountIsAdmin user.id note.issuer.issuer user.roleType)
    else .ok user

def checkEmail (folding : Folding) (s : Directory) (note : VerifiedNote) : Except Raised String :=
  let email := folding.normalizeEmail (note.email.getD "")
  if email = "" ∨ emailColumnLimit < email.length then .error (.noEmailToProvisionWith note.issuer.issuer note.subject)
  else if s.accounts.any (fun user => folding.lower user.emailAddress = email) then .error (.emailAlreadyTaken email)
  else .ok email

-- The note's name, or what stands before the @, cut to the column.
def nameFor (note : VerifiedNote) (email : String) : String :=
  let name := match note.fullName with
    | some name => if name = "" then email.toList.takeWhile (fun c => c ≠ '@') else name.toList
    | none => email.toList.takeWhile (fun c => c ≠ '@')
  String.ofList (name.take nameColumnLimit)

def newUser (s : Directory) (note : VerifiedNote) (email : String) (drawn : Drawn) : Account :=
  ⟨drawn.userId,note.issuer.organizationId,nameFor note email,email,drawn.secret,(resolveRole s note.issuer.id note.groups).1,
    (resolveRole s note.issuer.id note.groups).2,none,.openAdHoc,none,false,none⟩

-- The flush: the account's row, then the link's, each held to the unique indexes
-- and the link to its issuer's row.
def insertUser (folding : Folding) (s : Directory) (user : Account) : Except Raised Directory :=
  if s.accounts.any (fun other => other.id = user.id || other.emailAddress = user.emailAddress ||
      folding.lower other.emailAddress = folding.lower user.emailAddress) then .error .integrityError
  else .ok {s with accounts := s.accounts ++ [user]}

def insertLink (s : Directory) (note : VerifiedNote) (userId : String) : Except Raised Directory :=
  if s.links.any (isPair note.issuer.id note.subject) || !s.issuers.any (fun row => row.id = note.issuer.id) then .error .integrityError
  else .ok {s with links := s.links ++ [⟨s.nextId,note.issuer.organizationId,note.issuer.id,note.subject,userId⟩],nextId := s.nextId+1}

-- What the session holds then, and what account_for gives or raises.
def flush (folding : Folding) (s : Directory) (note : VerifiedNote) (user : Account) : Directory × Except Raised Account :=
  match insertUser folding s user with
  | .error raised => (s,.error raised)
  | .ok s =>
    match insertLink s note user.id with
    | .error raised => (s,.error raised)
    | .ok s => (s,.ok user)

def accountFor (folding : Folding) (s : Directory) (note : VerifiedNote) (drawn : Drawn) : Directory × Except Raised Account :=
  match findLink s note with
  | some link => (s,linked s note link)
  | none =>
    match checkEmail folding s note with
    | .error raised => (s,.error raised)
    | .ok email => flush folding s note (newUser s note email drawn)

def mintRefreshToken (s : Directory) (userId raw : String) : Directory := {s with refreshTokens := s.refreshTokens ++ [⟨raw,userId⟩]}

-- What _issue commits and gives. A session that raises is rolled back, and one that
-- met a unique constraint is run once more.
def issue (folding : Folding) (s : Directory) (note : VerifiedNote) (first second : Drawn) : Directory × Except Raised (Account × String) :=
  match accountFor folding s note first with
  | (next,.ok user) => (mintRefreshToken next user.id first.refreshToken,.ok (user,first.refreshToken))
  | (_,.error .integrityError) =>
    match accountFor folding s note second with
    | (next,.ok user) => (mintRefreshToken next user.id second.refreshToken,.ok (user,second.refreshToken))
    | (_,.error raised) => (s,.error raised)
  | (_,.error raised) => (s,.error raised)

-- Between the statements of one call others may commit. An attempt has found no
-- link by the second stage, and no account with its address by the third.
inductive Stage where
  | opened
  | unlinked
  | untaken (user : Account)
  deriving DecidableEq, Repr

structure Attempt where
  note : VerifiedNote
  last : Bool
  stage : Stage
  deriving DecidableEq, Repr

structure Answer where
  issuerId : Nat
  subject : String
  userId : String
  deriving DecidableEq, Repr

-- What is committed, the calls on their way, and the answers given so far.
structure Site where
  directory : Directory
  attempts : List Attempt
  answers : List Answer
  deriving DecidableEq, Repr

inductive Op where
  | request (userId : String) (now : Int) (drawn : String) (route : Route)
  | begin (note : VerifiedNote)
  | proceed (position : Nat) (drawn : Drawn)
  deriving DecidableEq, Repr

def answered (s : Site) (position : Nat) (directory : Directory) (note : VerifiedNote) (userId raw : String) : Site :=
  ⟨mintRefreshToken directory userId raw,s.attempts.eraseIdx position,s.answers ++ [⟨note.issuer.id,note.subject,userId⟩]⟩

def dropped (s : Site) (position : Nat) : Site := {s with attempts := s.attempts.eraseIdx position}

def moved (s : Site) (position : Nat) (attempt : Attempt) : Site := {s with attempts := s.attempts.set position attempt}

def proceed (folding : Folding) (s : Site) (position : Nat) (attempt : Attempt) (drawn : Drawn) : Site :=
  match attempt.stage with
  | .opened =>
    match findLink s.directory attempt.note with
    | none => moved s position {attempt with stage := .unlinked}
    | some link =>
      match linked s.directory attempt.note link with
      | .error _ => dropped s position
      | .ok user => answered s position s.directory attempt.note user.id drawn.refreshToken
  | .unlinked =>
    match checkEmail folding s.directory attempt.note with
    | .error _ => dropped s position
    | .ok email => moved s position {attempt with stage := .untaken (newUser s.directory attempt.note email drawn)}
  | .untaken user =>
    match flush folding s.directory attempt.note user with
    | (next,.ok user) => answered s position next attempt.note user.id drawn.refreshToken
    | (_,.error _) => if attempt.last then dropped s position else moved s position {attempt with last := true,stage := .opened}

def step (folding : Folding) (s : Site) : Op → Option Site
  | .request userId now drawn route =>
    match getCurrentUser s.directory userId with
    | .error _ => some s
    | .ok caller =>
      match handle s.directory caller now drawn route with
      | .error _ => some s
      | .ok (directory,_) => some {s with directory := directory}
  | .begin note => some {s with attempts := s.attempts ++ [⟨note,false,.opened⟩]}
  | .proceed position drawn => (s.attempts[position]?).map (fun attempt => proceed folding s position attempt drawn)

abbrev Steps (folding : Folding) : Site → Op → Site → Prop := Runs.Acts (step folding)

end ChronosLedger.FederatedAccounts
