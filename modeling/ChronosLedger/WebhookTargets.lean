import ChronosLedger.Refusals
import ChronosLedger.Webhooks

namespace ChronosLedger.Webhooks

-- Addresses as `ipaddress` has them, and a network as an address and the length
-- of its prefix.
inductive Address where
  | v4 (n : BitVec 32)
  | v6 (n : BitVec 128)
  deriving DecidableEq, Repr

def inNetwork {w : Nat} (n : BitVec w) (network : BitVec w × Nat) : Bool := n >>> (w-network.2) = network.1 >>> (w-network.2)

def inAny {w : Nat} (n : BitVec w) (networks : List (BitVec w × Nat)) : Bool := networks.any (inNetwork n)

def quad (a b c d : Nat) : BitVec 32 := BitVec.ofNat 32 (((a*256+b)*256+c)*256+d)

-- An IPv6 address by its first four groups, the rest being zero.
def groups (a b c d : Nat) : BitVec 128 := BitVec.ofNat 128 ((((a*65536+b)*65536+c)*65536+d)*18446744073709551616)

def privateV4 : List (BitVec 32 × Nat) :=
  [(quad 0 0 0 0,8),(quad 10 0 0 0,8),(quad 127 0 0 0,8),(quad 169 254 0 0,16),(quad 172 16 0 0,12),(quad 192 0 0 0,24),(quad 192 0 0 170,31),
    (quad 192 0 2 0,24),(quad 192 168 0 0,16),(quad 198 18 0 0,15),(quad 198 51 100 0,24),(quad 203 0 113 0,24),(quad 240 0 0 0,4),
    (quad 255 255 255 255,32)]

def privateV4Exceptions : List (BitVec 32 × Nat) := [(quad 192 0 0 9,32),(quad 192 0 0 10,32)]

def privateV6 : List (BitVec 128 × Nat) :=
  [(1,128),(0,128),(BitVec.ofNat 128 281470681743360,96),(groups 0x64 0xff9b 1 0,48),(groups 0x100 0 0 0,64),(groups 0x2001 0 0 0,23),
    (groups 0x2001 0xdb8 0 0,32),(groups 0x2002 0 0 0,16),(groups 0x3fff 0 0 0,20),(groups 0xfc00 0 0 0,7),(groups 0xfe80 0 0 0,10)]

def privateV6Exceptions : List (BitVec 128 × Nat) :=
  [(groups 0x2001 1 0 0+1,128),(groups 0x2001 1 0 0+2,128),(groups 0x2001 3 0 0,32),(groups 0x2001 4 0x112 0,48),(groups 0x2001 0x20 0 0,28),
    (groups 0x2001 0x30 0 0,28)]

def reservedV6 : List (BitVec 128 × Nat) :=
  [(0,8),(groups 0x100 0 0 0,8),(groups 0x200 0 0 0,7),(groups 0x400 0 0 0,6),(groups 0x800 0 0 0,5),(groups 0x1000 0 0 0,4),
    (groups 0x4000 0 0 0,3),(groups 0x6000 0 0 0,3),(groups 0x8000 0 0 0,3),(groups 0xa000 0 0 0,3),(groups 0xc000 0 0 0,3),
    (groups 0xe000 0 0 0,4),(groups 0xf000 0 0 0,5),(groups 0xf800 0 0 0,6),(groups 0xfe00 0 0 0,9)]

namespace Address

def isMulticast : Address → Bool
  | .v4 n => inNetwork n (quad 224 0 0 0,4)
  | .v6 n => inNetwork n (groups 0xff00 0 0 0,8)

def isUnspecified : Address → Bool
  | .v4 n => n = 0
  | .v6 n => n = 0

def isReserved : Address → Bool
  | .v4 n => inNetwork n (quad 240 0 0 0,4)
  | .v6 n => inAny n reservedV6

def isLoopback : Address → Bool
  | .v4 n => inNetwork n (quad 127 0 0 0,8)
  | .v6 n => n = 1

def isLinkLocal : Address → Bool
  | .v4 n => inNetwork n (quad 169 254 0 0,16)
  | .v6 n => inNetwork n (groups 0xfe80 0 0 0,10)

def isPrivate : Address → Bool
  | .v4 n => inAny n privateV4 && !inAny n privateV4Exceptions
  | .v6 n => inAny n privateV6 && !inAny n privateV6Exceptions

def isGlobal : Address → Bool
  | .v4 n => !inNetwork n (quad 100 64 0 0,10) && !isPrivate (.v4 n)
  | .v6 n => !isPrivate (.v6 n)

def ipv4Mapped : Address → Option Address
  | .v4 _ => none
  | .v6 n => if n >>> 32 = 0xffff then some (.v4 (n.setWidth 32)) else none

-- What the network stack takes the address for.
def judged (address : Address) : Address := address.ipv4Mapped.getD address

end Address

-- What `urlsplit` makes of a URL. Its port is an error where the number is none.
structure SplitUrl where
  scheme : String
  hostname : Option String
  username : Option String
  password : Option String
  port : Except Unit (Option Nat)
  path : String
  query : String

-- The text functions of the standard library that a URL goes through.
structure UrlReading where
  urlsplit : String → SplitUrl
  lower : String → String
  ipAddress : String → Option Address
  text : Address → String

structure TargetSettings where
  allowHttpHosts : List String
  allowPrivateTargets : Bool

structure Target where
  scheme : String
  host : String
  port : Nat
  address : Address
  path : String
  query : String
  deriving DecidableEq, Repr

variable (reading : UrlReading) (settings : TargetSettings)

def checkAddress (host : String) (address : Address) : Except String Unit :=
  let ip := address.judged
  if ip.isMulticast || ip.isUnspecified || ip.isReserved then
    .error (host ++ " resolves to " ++ reading.text address ++ ", which no receiver can be at")
  else if settings.allowPrivateTargets then .ok ()
  else if ip.isLoopback || ip.isPrivate || ip.isLinkLocal || !ip.isGlobal then
    .error (host ++ " resolves to " ++ reading.text address ++
      ", a loopback, private or link-local address; WEBHOOK_ALLOW_PRIVATE_TARGETS allows those")
  else .ok ()

-- `resolved` is what the resolver answers at the moment, `none` where it fails; a
-- host that is an address is not looked up.
def addressesOf (resolved : Option (List Address)) (host : String) : Except String (List Address) :=
  match reading.ipAddress host with
  | some address => .ok [address]
  | none =>
    match resolved with
    | some addresses => .ok addresses
    | none => .error (host ++ " does not resolve")

def portOf (parts : SplitUrl) (scheme : String) : Except String Nat :=
  match parts.port with
  | .error _ => .error "the port is not a number from 1 to 65535"
  | .ok (some (port+1)) => .ok (port+1)
  | .ok _ => .ok (if scheme = "https" then 443 else 80)

def refuseIf (condition : Prop) [Decidable condition] (message : String) : Except String Unit :=
  if condition then .error message else .ok ()

def vet (resolved : Option (List Address)) (url : String) : Except String Target := do
  let parts := reading.urlsplit url
  let scheme := reading.lower parts.scheme
  let host := reading.lower (parts.hostname.getD "")
  refuseIf (scheme ∉ ["http","https"]) "only https URLs are accepted"
  refuseIf (host = "") "the URL has no host"
  refuseIf (parts.username.isSome || parts.password.isSome) "the URL carries a user name or password, which would be stored in clear"
  refuseIf (scheme = "http" ∧ host ∉ settings.allowHttpHosts)
    ("plain http to " ++ host ++ " is not allowed; use https or list the host in WEBHOOK_ALLOW_HTTP_HOSTS")
  let port ← portOf parts scheme
  let addresses ← addressesOf reading resolved host
  match addresses with
  | [] => .error (host ++ " does not resolve")
  | first :: rest =>
    (first :: rest).forM (checkAddress reading settings host)
    .ok ⟨scheme,host,port,first,if parts.path = "" then "/" else parts.path,parts.query⟩

-- An address a receiver may be at.
structure Callable (address : Address) : Prop where
  real : address.judged.isMulticast = false ∧ address.judged.isUnspecified = false ∧ address.judged.isReserved = false
  outside : settings.allowPrivateTargets = false → address.judged.isLoopback = false ∧ address.judged.isPrivate = false ∧
    address.judged.isLinkLocal = false ∧ address.judged.isGlobal = true

-- What a URL was let through with.
structure Vetted (resolved : Option (List Address)) (url : String) (target : Target) : Prop where
  scheme : target.scheme = "https" ∨ target.scheme = "http" ∧ target.host ∈ settings.allowHttpHosts
  host : target.host = reading.lower ((reading.urlsplit url).hostname.getD "") ∧ target.host ≠ ""
  bare : (reading.urlsplit url).username = none ∧ (reading.urlsplit url).password = none
  callable : Callable settings target.address
  answers : reading.ipAddress target.host = some target.address ∨
    reading.ipAddress target.host = none ∧ ∃ addresses ∈ resolved, target.address ∈ addresses ∧ ∀ address ∈ addresses, Callable settings address

variable {reading : UrlReading} {settings : TargetSettings} {resolved : Option (List Address)} {url host : String} {target : Target}

theorem checkAddress_parts {address : Address} {done : Unit} (passed : checkAddress reading settings host address = .ok done) :
    Callable settings address := by
  unfold checkAddress at passed
  simp only at passed
  split at passed
  · cases passed
  · rename_i real
    simp only [Bool.or_eq_true,not_or,Bool.not_eq_true] at real
    refine ⟨⟨real.1.1,real.1.2,real.2⟩,fun closed => ?_⟩
    split at passed
    · rename_i opened
      rw [closed] at opened
      cases opened
    · split at passed
      · cases passed
      · rename_i outside
        simp only [Bool.or_eq_true,not_or,Bool.not_eq_true] at outside
        exact ⟨outside.1.1.1,outside.1.1.2,outside.1.2,by simpa using outside.2⟩

theorem forM_checked {addresses : List Address} {done : Unit} (passed : addresses.forM (checkAddress reading settings host) = .ok done) :
    ∀ address ∈ addresses, Callable settings address := by
  induction addresses with
  | nil => nofun
  | cons first rest ih =>
    obtain ⟨_,here,later⟩ := bind_parts.mp passed
    intro address member
    rcases List.mem_cons.mp member with rfl | tail
    · exact checkAddress_parts here
    · exact ih later address tail

theorem refuseIf_parts {condition : Prop} [Decidable condition] {message : String} {done : Unit}
    (passed : refuseIf condition message = .ok done) : ¬ condition := by
  unfold refuseIf at passed
  split at passed
  · cases passed
  · assumption

-- The address connected to is one the name was answered with at that very
-- moment, and every address of that answer passed.
theorem vet_parts (passed : vet reading settings resolved url = .ok target) : Vetted reading settings resolved url target := by
  unfold vet at passed
  simp only [bind_parts] at passed
  obtain ⟨_,secure,_,named,_,bare,_,plain,port,_,addresses,answered,rest⟩ := passed
  have secure := refuseIf_parts secure
  have named := refuseIf_parts named
  have bare := refuseIf_parts bare
  have plain := refuseIf_parts plain
  cases addresses with
  | nil => cases rest
  | cons first more =>
    simp only [bind_parts] at rest
    obtain ⟨_,checked,same⟩ := rest
    cases same
    have callable := forM_checked checked
    refine ⟨?_,⟨rfl,named⟩,?_,callable first (List.mem_cons_self ..),?_⟩
    · by_cases https : reading.lower (reading.urlsplit url).scheme = "https"
      · exact .inl https
      · have http : reading.lower (reading.urlsplit url).scheme = "http" := by simpa [https] using secure
        exact .inr ⟨http,by simpa [http] using plain⟩
    · simpa [Option.isSome_iff_ne_none] using bare
    · unfold addressesOf at answered
      split at answered
      · rename_i address literal
        cases answered
        exact .inl literal
      · rename_i name
        split at answered
        · rename_i found
          cases answered
          exact .inr ⟨name,_,rfl,List.mem_cons_self ..,callable⟩
        · cases answered

end ChronosLedger.Webhooks
