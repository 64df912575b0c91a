import ChronosLedger.Library.Runs
import Mathlib.Data.List.Basic

namespace ChronosLedger.Federation

-- Instants are microseconds since 1970, of real time.
def second : Nat := 1000000

inductive Item where
  | str (text : String)
  | other
  deriving DecidableEq, Repr

-- A claim, as far as the code tells one from another.
inductive Value where
  | str (text : String)
  | list (items : List Item)
  | other
  deriving DecidableEq, Repr

-- What int() makes of a claim that is an instant.
inductive Stamp where
  | seconds (value : Int)
  | missing
  | unreadable
  deriving DecidableEq, Repr

structure Claims where
  iss : Value
  aud : Value
  sub : Value
  jti : Value
  email : Value
  name : Value
  groups : Value
  exp : Stamp
  iat : Stamp
  nbf : Stamp
  deriving DecidableEq, Repr

structure FederatedIssuerKey where
  kid : String
  publicKey : String
  notBefore : Nat
  notAfter : Option Nat
  deriving DecidableEq, Repr

structure FederatedIssuer where
  id : Nat
  issuer : String
  audience : String
  enabled : Bool
  keys : List FederatedIssuerKey
  deriving DecidableEq, Repr

structure Settings where
  federatedIdentityEnabled : Bool
  federatedClockSkewSeconds : Nat
  federatedTokenMaxLifetimeSeconds : Nat
  deriving DecidableEq, Repr

-- What PyJWT reads in a note without a key, and whether a public key's signature
-- is on it. A note it cannot read has no header or no payload.
structure Jwt (Token : Type) where
  kid : Token → Option Value
  payload : Token → Option Claims
  signed : Token → String → Bool

inductive NoteRefusal where
  | unreadable
  | namesNoIssuer
  | notRegistered (name : String)
  | disabled (name : String)
  | namesNoKid (issuer : String)
  | noSuchKey (issuer kid : String)
  | notInUseYet (issuer kid : String)
  | retired (issuer kid : String)
  | didNotVerify (issuer : String)
  | livesTooLong (issuer : String) (cap : Nat)
  | carriesNoJti (issuer : String)
  | alreadyUsed (issuer : String)
  deriving DecidableEq, Repr

inductive Failure where
  | federationDisabled
  | noteRefused (reason : NoteRefusal)
  | replayCacheDown
  deriving DecidableEq, Repr

structure VerifiedNote where
  issuer : FederatedIssuer
  subject : String
  email : Option String
  fullName : Option String
  groups : List String
  deriving DecidableEq, Repr

def Value.text : Value → String
  | .str text => text
  | _ => ""

def Value.isStr : Value → Bool
  | .str _ => true
  | _ => false

def Value.nonempty : Value → Option String
  | .str text => if text = "" then none else some text
  | _ => none

def Item.strs : Item → Option String
  | .str text => some text
  | .other => none

def groupsFrom : Value → List String
  | .str text => [text]
  | .list items => items.filterMap Item.strs
  | .other => []

def registeredIssuer (issuers : List FederatedIssuer) (name : Value) : Except Failure FederatedIssuer :=
  match name.nonempty with
  | none => .error (.noteRefused .namesNoIssuer)
  | some name =>
    match issuers.find? (fun row => row.issuer = name) with
    | none => .error (.noteRefused (.notRegistered name))
    | some row => if row.enabled then .ok row else .error (.noteRefused (.disabled name))

def keyFor (kid : Value) (issuer : FederatedIssuer) (now : Nat) : Except Failure String :=
  match kid.nonempty with
  | none => .error (.noteRefused (.namesNoKid issuer.issuer))
  | some kid =>
    match issuer.keys.find? (fun key => key.kid = kid) with
    | none => .error (.noteRefused (.noSuchKey issuer.issuer kid))
    | some key =>
      if now < key.notBefore then .error (.noteRefused (.notInUseYet issuer.issuer kid))
      else if key.notAfter.any (fun end_ => end_ ≤ now) then .error (.noteRefused (.retired issuer.issuer kid))
      else .ok key.publicKey

-- The three checks PyJWT makes of instants, with its leeway.
def expired (now leeway : Nat) : Stamp → Bool
  | .seconds exp => exp*second ≤ (now : Int)-leeway*second
  | _ => true

def ahead (now leeway : Nat) : Stamp → Bool
  | .seconds instant => (now : Int)+leeway*second < instant*second
  | .missing => false
  | .unreadable => true

def answersTo (audience : String) : Value → Bool
  | .str text => text = audience
  | .list items => items.all (fun item => item.strs.isSome) && items.contains (.str audience)
  | .other => false

variable {Token : Type}

def decode (jwt : Jwt Token) (token : Token) (publicKey audience issuer : String) (leeway now : Nat) : Option Claims :=
  (jwt.payload token).filter (fun claims => jwt.signed token publicKey && claims.iat ≠ .missing && !ahead now leeway claims.iat &&
    !ahead now leeway claims.nbf && !expired now leeway claims.exp && claims.iss = .str issuer && answersTo audience claims.aud &&
    claims.sub.isStr && claims.jti.isStr)

def Stamp.value : Stamp → Int
  | .seconds value => value
  | _ => 0

-- Everything before the jti.
def checkNote (jwt : Jwt Token) (settings : Settings) (issuers : List FederatedIssuer) (now : Nat) (token : Token) :
    Except Failure (FederatedIssuer × Claims) :=
  if settings.federatedIdentityEnabled then
    match jwt.kid token,jwt.payload token with
    | some kid,some unverified =>
      match registeredIssuer issuers unverified.iss with
      | .error failure => .error failure
      | .ok issuer =>
        match keyFor kid issuer now with
        | .error failure => .error failure
        | .ok publicKey =>
          match decode jwt token publicKey issuer.audience issuer.issuer settings.federatedClockSkewSeconds now with
          | none => .error (.noteRefused (.didNotVerify issuer.issuer))
          | some claims =>
            if settings.federatedTokenMaxLifetimeSeconds < claims.exp.value-(now/second : Nat) then
              .error (.noteRefused (.livesTooLong issuer.issuer settings.federatedTokenMaxLifetimeSeconds))
            else .ok (issuer,claims)
    | _,_ => .error (.noteRefused .unreadable)
  else .error .federationDisabled

-- The digest is the first half of a SHA-256 in hexadecimal.
variable (digest : String → String)

def replayKey (issuer jti : String) : String := "fed:jti:" ++ digest (issuer ++ "\x00" ++ jti)

-- What the cache holds, with the instant at which each key goes.
abbrev Replay := List (String × Nat)

def Replay.holds (replay : Replay) (key : String) (now : Nat) : Bool := replay.any (fun record => record.1 = key ∧ now < record.2)

-- Redis answers a ttl of 0 with an error, which is taken for the cache being down.
def spendJti (replay : Replay) (now : Nat) (reachable : Bool) (issuer : String) (jti : Value) (ttl : Nat) : Except Failure Unit × Replay :=
  match jti.nonempty with
  | none => (.error (.noteRefused (.carriesNoJti issuer)),replay)
  | some jti =>
    if !reachable || ttl = 0 then (.error .replayCacheDown,replay)
    else if replay.holds (replayKey digest issuer jti) now then (.error (.noteRefused (.alreadyUsed issuer)),replay)
    else (.ok (),(replayKey digest issuer jti,now+ttl*second) :: replay)

def verifyNote (jwt : Jwt Token) (settings : Settings) (issuers : List FederatedIssuer) (replay : Replay) (now : Nat) (reachable : Bool)
    (token : Token) : Except Failure VerifiedNote × Replay :=
  match checkNote jwt settings issuers now token with
  | .error failure => (.error failure,replay)
  | .ok (issuer,claims) =>
    match spendJti digest replay now reachable issuer.issuer claims.jti
        (settings.federatedTokenMaxLifetimeSeconds+settings.federatedClockSkewSeconds) with
    | (.error failure,replay) => (.error failure,replay)
    | (.ok (),replay) => (.ok ⟨issuer,claims.sub.text,claims.email.nonempty,claims.name.nonempty,groupsFrom claims.groups⟩,replay)

structure Accepted (Token : Type) where
  token : Token
  issuer : String
  jti : String
  at_ : Nat

-- The last two are kept nowhere: the calls that succeeded, and every issuer's name
-- there has been.
structure NoteState (Token : Type) where
  now : Nat
  issuers : List FederatedIssuer
  replay : Replay
  accepted : List (Accepted Token)
  names : List String

def verify (jwt : Jwt Token) (settings : Settings) (s : NoteState Token) (reachable : Bool) (token : Token) :
    Except Failure VerifiedNote × Replay :=
  verifyNote digest jwt settings s.issuers s.replay s.now reachable token

def jtiOf (jwt : Jwt Token) (token : Token) : String := ((jwt.payload token).map (fun claims => claims.jti.text)).getD ""

inductive Operation (Token : Type) where
  | advanceTo (instant : Nat)
  | register (issuers : List FederatedIssuer)
  | verifyNote (token : Token) (reachable : Bool)
  deriving DecidableEq, Repr

def step (jwt : Jwt Token) (settings : Settings) (s : NoteState Token) : Operation Token → Option (NoteState Token)
  | .advanceTo instant => if s.now ≤ instant then some {s with now := instant} else none
  | .register issuers => some {s with issuers := issuers,names := s.names ++ issuers.map FederatedIssuer.issuer}
  | .verifyNote token reachable =>
    match verify digest jwt settings s reachable token with
    | (.ok note,replay) => some {s with
        replay := replay
        accepted := s.accepted ++ [⟨token,note.issuer.issuer,jtiOf jwt token,s.now⟩]}
    | (.error _,replay) => some {s with replay := replay}

abbrev Steps (jwt : Jwt Token) (settings : Settings) : NoteState Token → Operation Token → NoteState Token → Prop :=
  Runs.Acts (step digest jwt settings)

def NoteState.start (now : Nat) (issuers : List FederatedIssuer) : NoteState Token :=
  ⟨now,issuers,[],[],issuers.map FederatedIssuer.issuer⟩

end ChronosLedger.Federation
