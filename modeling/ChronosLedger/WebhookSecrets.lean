import ChronosLedger.Webhooks
import ChronosLedger.Library.Runs

namespace ChronosLedger.Webhooks

abbrev Text := List Char

def secretPrefix : String := "whsec_"
def previousSecretLifetime : Int := 86400000000

-- The text of 32 bytes drawn at random stands after the whsec_.
def newSecret (drawn : String) : String := secretPrefix ++ drawn

def alphabet : Text := "ABCDEFGHIJKLMNOPQRSTUVWXYZabcdefghijklmnopqrstuvwxyz0123456789+/".toList

def sextet (n : Nat) : Char := alphabet.getD n '='

def b64encode : List UInt8 → Text
  | [] => []
  | [a] => [sextet (a.toNat/4),sextet (a.toNat%4*16),'=','=']
  | [a,b] => [sextet (a.toNat/4),sextet (a.toNat%4*16+b.toNat/16),sextet (b.toNat%16*4),'=']
  | a :: b :: c :: rest =>
    sextet (a.toNat/4) :: sextet (a.toNat%4*16+b.toNat/16) :: sextet (b.toNat%16*4+c.toNat/64) :: sextet (c.toNat%64) :: b64encode rest

-- hmac is the HMAC-SHA256 that a secret's key gives a text.
section
variable (hmac : String → Text → List UInt8)

-- What an attempt sends beside its body. The timestamp is in seconds.
structure Sent where
  id : Text
  timestamp : Int
  body : Text
  signature : Text
  deriving DecidableEq, Repr

def signed (id : Text) (timestamp : Int) (body : Text) : Text := id ++ '.' :: ((toString timestamp).toList ++ '.' :: body)

def digest (secret : String) (id : Text) (timestamp : Int) (body : Text) : Text := b64encode (hmac secret (signed id timestamp body))

def sign (secret : String) (id : Text) (timestamp : Int) (body : Text) : Text := "v1,".toList ++ digest hmac secret id timestamp body

def attempt (secrets : List String) (id : Text) (timestamp : Int) (body : Text) : Sent :=
  ⟨id,timestamp,body,[' '].intercalate (secrets.map (fun secret => sign hmac secret id timestamp body))⟩

def toleranceSeconds : Nat := 300

def cut (sign : Char) (text : Text) : Text × Text := (text.takeWhile (fun c => c ≠ sign),(text.dropWhile (fun c => c ≠ sign)).drop 1)

-- What the documentation has a receiver do, with every secret it holds.
def verify (held : List String) (clock : Int) (sent : Sent) : Bool :=
  if toleranceSeconds < (clock-sent.timestamp).natAbs then false
  else
    let expected := held.map (fun secret => digest hmac secret sent.id sent.timestamp sent.body)
    (sent.signature.splitOn ' ').any (fun candidate => (cut ',' candidate).1 = "v1".toList && expected.any (fun e => (cut ',' candidate).2 = e))

end

-- A secret somebody was shown, and what has become of it.
structure Shown where
  secret : String
  replacedAt : Option Int
  removed : Bool
  deriving DecidableEq, Repr

-- It is good until it is replaced, and for a day after that unless it is removed.
def Shown.good (shown : Shown) (now : Int) : Bool :=
  match shown.replacedAt with
  | none => true
  | some at_ => !shown.removed && now < at_+previousSecretLifetime

-- `past` are the rows that requests have read, and when. `shown` and the second of a
-- claim are no part of the program: the secrets shown so far, and the good ones when
-- a request was made ready.
structure Secrets where
  now : Int
  sub : WebhookSubscription
  past : List (Int × WebhookSubscription)
  shown : List Shown
  claims : List (List String × List String)
  deriving DecidableEq, Repr

inductive Rotating where
  | wait (microseconds : Nat)
  | read
  | rotate (read : Int × WebhookSubscription) (drawn : String)
  | remove (read : Int × WebhookSubscription)
  | claim
  deriving DecidableEq, Repr

def Shown.replacing (at_ : Int) (shown : Shown) : Shown := if shown.replacedAt.isSome then shown else {shown with replacedAt := some at_}

def Shown.removing (shown : Shown) : Shown := if shown.replacedAt.isSome then {shown with removed := true} else shown

def Secrets.good (s : Secrets) : List String := (s.shown.filter (fun shown => shown.good s.now)).map Shown.secret

-- A request writes the columns that differ from those it read.
def stepSecrets (s : Secrets) : Rotating → Option Secrets
  | .wait microseconds => some {s with now := s.now+microseconds}
  | .read => some {s with past := (s.now,s.sub) :: s.past}
  | .rotate read drawn =>
    if read ∈ s.past then
      if previousSecretLive read.2 read.1 then some s
      else
        let secret := newSecret drawn
        some {s with
          sub := {s.sub with
            previousSecret := some read.2.secret
            previousSecretExpiresAt := some (read.1+previousSecretLifetime)
            secret := secret}
          shown := s.shown.map (Shown.replacing read.1) ++ [⟨secret,none,false⟩]}
    else none
  | .remove read =>
    if read ∈ s.past then
      some {s with
        sub := {s.sub with
          previousSecret := if read.2.previousSecret.isSome then none else s.sub.previousSecret
          previousSecretExpiresAt := if read.2.previousSecretExpiresAt.isSome then none else s.sub.previousSecretExpiresAt}
        shown := s.shown.map Shown.removing}
    else none
  | .claim => some {s with claims := s.claims ++ [(signingSecrets s.sub s.now,s.good)]}

-- No request that changes the secrets writes over another's that it did not see.
def Serial (s : Secrets) : Rotating → Prop
  | .rotate read _ => read.2 = s.sub
  | .remove read => read.2 = s.sub
  | _ => True

instance (s : Secrets) (op : Rotating) : Decidable (Serial s op) := by
  cases op <;> unfold Serial <;> infer_instance

-- A subscription as it is made.
def Secrets.created (now : Int) (sub : WebhookSubscription) (drawn : String) : Secrets :=
  ⟨now,{sub with secret := newSecret drawn,previousSecret := none,previousSecretExpiresAt := none},[],[⟨newSecret drawn,none,false⟩],[]⟩

abbrev SecretSteps : Secrets → Rotating → Secrets → Prop := Runs.Acts stepSecrets

section
variable {hmac : String → Text → List UInt8} {secrets held : List String} {id body text rest : Text} {clock timestamp now : Int} {c : Char}

theorem sextet_plain (n : Nat) : sextet n ∈ '=' :: alphabet := by
  unfold sextet
  rw [List.getD_eq_getElem?_getD]
  cases found : alphabet[n]? with
  | none => simp
  | some c => simp [List.mem_of_getElem? found]

theorem b64encode_plain (bytes : List UInt8) : ∀ c ∈ b64encode bytes, c ∈ '=' :: alphabet := by
  induction bytes using b64encode.induct with
  | case1 => simp [b64encode]
  | case2 a => simp only [b64encode,List.forall_mem_cons]; exact ⟨sextet_plain _,sextet_plain _,by simp,by simp,by simp⟩
  | case3 a b => simp only [b64encode,List.forall_mem_cons]; exact ⟨sextet_plain _,sextet_plain _,sextet_plain _,by simp,by simp⟩
  | case4 a b c rest ih =>
    simp only [b64encode,List.forall_mem_cons]
    exact ⟨sextet_plain _,sextet_plain _,sextet_plain _,sextet_plain _,ih⟩

theorem digest_plain (secret : String) : ' ' ∉ digest hmac secret id timestamp body := by
  intro member
  exact absurd (b64encode_plain _ ' ' member) (by decide)

theorem sign_plain (secret : String) : ' ' ∉ sign hmac secret id timestamp body := by
  simp [sign,digest_plain]

theorem cut_first (plain : c ∉ text) (rest : Text) : cut c (text ++ c :: rest) = (text,rest) := by
  have all : ∀ d ∈ text, decide (d ≠ c) = true := by
    intro d member
    simp only [decide_eq_true_eq]
    rintro rfl
    exact plain member
  unfold cut
  rw [List.takeWhile_append_of_pos all,List.dropWhile_append_of_pos all,List.takeWhile_cons_of_neg (by simp),List.dropWhile_cons_of_neg (by simp)]
  simp

theorem cut_sign (secret : String) : cut ',' (sign hmac secret id timestamp body) = ("v1".toList,digest hmac secret id timestamp body) :=
  cut_first (show ',' ∉ "v1".toList by decide) _

-- The header is read as the signatures it was written from.
theorem attempt_split (some_ : secrets ≠ []) :
    (attempt hmac secrets id timestamp body).signature.splitOn ' ' = secrets.map (fun secret => sign hmac secret id timestamp body) := by
  apply List.splitOn_intercalate
  · intro part member
    obtain ⟨secret,_,rfl⟩ := List.mem_map.mp member
    exact sign_plain secret
  · simpa using some_

-- A recent request is accepted where a secret that is held signs it as one that it
-- was signed with does.
theorem verify_attempt (some_ : secrets ≠ []) :
    verify hmac held clock (attempt hmac secrets id timestamp body) = true ↔ (clock-timestamp).natAbs ≤ toleranceSeconds ∧
      ∃ mine ∈ held, ∃ theirs ∈ secrets, digest hmac theirs id timestamp body = digest hmac mine id timestamp body := by
  have split : (attempt hmac secrets id timestamp body).signature.splitOn ' ' = secrets.map (fun secret => sign hmac secret id timestamp body) :=
    attempt_split some_
  unfold verify
  rw [split]
  by_cases late : toleranceSeconds < (clock-timestamp).natAbs
  · simp [attempt,late,Nat.not_le.mpr late]
  · simp only [attempt,late,if_false,Nat.not_lt.mp late,true_and,List.any_map,List.any_eq_true,Function.comp,cut_sign,decide_true,Bool.true_and,
      decide_eq_true_eq]
    constructor
    · intro found
      obtain ⟨theirs,member,mine,held,same⟩ := found
      exact ⟨mine,held,theirs,member,same⟩
    · intro found
      obtain ⟨mine,held,theirs,member,same⟩ := found
      exact ⟨theirs,member,mine,held,same⟩

end

section
variable {s next : Secrets} {sub : WebhookSubscription} {shown : Shown} {read : Int × WebhookSubscription} {now : Int} {drawn secret : String}

-- What the row says of the secrets that were shown: the last one signs, and at most
-- the one before it still does.
structure Kept (s : Secrets) : Prop where
  current : ∃ before, s.shown = before ++ [⟨s.sub.secret,none,false⟩] ∧ ∀ shown ∈ before, shown.replacedAt.isSome
  some_ : ∀ shown ∈ s.shown, shown.secret ≠ ""
  good : ∀ shown ∈ s.shown, ∀ at_ ∈ shown.replacedAt, shown.good s.now →
    s.sub.previousSecret = some shown.secret ∧ s.sub.previousSecretExpiresAt = some (at_+previousSecretLifetime)
  previous : ∀ secret ∈ s.sub.previousSecret, ∃ shown ∈ s.shown, shown.secret = secret ∧ shown.removed = false ∧
    ∃ at_, shown.replacedAt = some at_ ∧ s.sub.previousSecretExpiresAt = some (at_+previousSecretLifetime)
  past : ∀ read ∈ s.past, read.1 ≤ s.now
  claims : ∀ claim ∈ s.claims, claim.1 ≠ [] ∧ claim.1.length ≤ 2 ∧ ∀ secret, secret ∈ claim.1 ↔ secret ∈ claim.2

theorem Kept.signs (kept : Kept s) (secret : String) : secret ∈ signingSecrets s.sub s.now ↔ secret ∈ s.good := by
  obtain ⟨before,all,replaced⟩ := kept.current
  have last : (⟨s.sub.secret,none,false⟩ : Shown) ∈ s.shown := by simp [all]
  unfold Secrets.good
  constructor
  · intro signs
    rcases List.mem_cons.mp signs with rfl | still
    · exact List.mem_map.mpr ⟨_,List.mem_filter.mpr ⟨last,rfl⟩,rfl⟩
    · split at still
      · rename_i live
        simp only [Option.mem_toList] at still
        obtain ⟨shown,member,is,unremoved,at_,then_,expires⟩ := kept.previous secret still
        have later := (Bool.and_eq_true _ _ ▸ live).2
        rw [expires] at later
        refine List.mem_map.mpr ⟨shown,List.mem_filter.mpr ⟨member,?_⟩,is⟩
        simpa [Shown.good,then_,unremoved] using later
      · cases still
  · intro good
    obtain ⟨shown,member,rfl⟩ := List.mem_map.mp good
    obtain ⟨there,good⟩ := List.mem_filter.mp member
    cases at_ : shown.replacedAt with
    | none =>
      have is : shown = ⟨s.sub.secret,none,false⟩ := by
        rcases List.mem_append.mp (all ▸ there) with old | new
        · have replaced := replaced shown old
          rw [at_] at replaced
          cases replaced
        · exact List.mem_singleton.mp new
      rw [is]
      exact List.mem_cons_self ..
    | some then_ =>
      obtain ⟨previous,expires⟩ := kept.good shown there then_ at_ good
      have later : s.now < then_+previousSecretLifetime := by
        have parts := good
        simp only [Shown.good,at_,Bool.and_eq_true,decide_eq_true_eq] at parts
        exact parts.2
      have live : previousSecretLive s.sub s.now = true := by simp [previousSecretLive,previous,expires,later,kept.some_ shown there]
      simp [signingSecrets,live,previous]

theorem signs_few (sub : WebhookSubscription) (now : Int) : signingSecrets sub now ≠ [] ∧ (signingSecrets sub now).length ≤ 2 := by
  refine ⟨List.cons_ne_nil _ _,?_⟩
  unfold signingSecrets
  cases sub.previousSecret <;> split <;> simp

theorem newSecret_some (drawn : String) : newSecret drawn ≠ "" := by
  intro same
  have length := congrArg String.length same
  rw [newSecret,String.length_append] at length
  have some_ : secretPrefix.length = 6 := by decide
  simp [some_] at length

theorem good_earlier {earlier : Int} (before : earlier ≤ now) (good : shown.good now) : shown.good earlier := by
  unfold Shown.good at good ⊢
  split at good
  · rfl
  · simp only [Bool.and_eq_true,decide_eq_true_eq] at good ⊢
    exact ⟨good.1,by omega⟩

theorem Kept.waits (kept : Kept s) (microseconds : Nat) : Kept {s with now := s.now+microseconds} := by
  refine ⟨kept.current,kept.some_,?_,kept.previous,?_,kept.claims⟩
  · intro shown member at_ then_ good
    exact kept.good shown member at_ then_ (good_earlier (by dsimp only; omega) good)
  · intro read member
    have before := kept.past read member
    dsimp only
    omega

theorem Kept.reads (kept : Kept s) : Kept {s with past := (s.now,s.sub) :: s.past} := by
  refine ⟨kept.current,kept.some_,kept.good,kept.previous,?_,kept.claims⟩
  intro read member
  rcases List.mem_cons.mp member with rfl | old
  · exact Int.le_refl _
  · exact kept.past read old

theorem Kept.last (kept : Kept s) (member : shown ∈ s.shown) (standing : shown.replacedAt = none) : shown = ⟨s.sub.secret,none,false⟩ := by
  obtain ⟨before,all,replaced⟩ := kept.current
  rcases List.mem_append.mp (all ▸ member) with old | new
  · have gone := replaced shown old
    simp [standing] at gone
  · exact List.mem_singleton.mp new

-- A secret is replaced when the one before it is no longer good, so none is cut off.
theorem Kept.rotates (kept : Kept s) (at_ : Int) (before : at_ ≤ s.now) (dead : previousSecretLive s.sub at_ = false) (drawn : String) :
    Kept {s with
      sub := {s.sub with
        previousSecret := some s.sub.secret
        previousSecretExpiresAt := some (at_+previousSecretLifetime)
        secret := newSecret drawn}
      shown := s.shown.map (Shown.replacing at_) ++ [⟨newSecret drawn,none,false⟩]} := by
  obtain ⟨front,all,replaced⟩ := kept.current
  refine ⟨⟨_,rfl,?_⟩,?_,?_,?_,kept.past,kept.claims⟩
  · intro shown member
    obtain ⟨old,_,rfl⟩ := List.mem_map.mp member
    unfold Shown.replacing
    split
    · assumption
    · rfl
  · intro shown member
    rcases List.mem_append.mp member with old | new
    · obtain ⟨was,there,rfl⟩ := List.mem_map.mp old
      have some_ := kept.some_ was there
      unfold Shown.replacing
      split <;> exact some_
    · obtain rfl := List.mem_singleton.mp new
      exact newSecret_some drawn
  · intro shown member then_ is good
    rcases List.mem_append.mp member with old | new
    · obtain ⟨was,there,rfl⟩ := List.mem_map.mp old
      cases standing : was.replacedAt with
      | none =>
        obtain rfl := kept.last there standing
        cases is
        exact ⟨rfl,rfl⟩
      | some earlier =>
        have same : was.replacing at_ = was := by simp [Shown.replacing,standing]
        rw [same] at good is
        obtain ⟨previous,expires⟩ := kept.good was there earlier standing good
        have late : ¬at_ < earlier+previousSecretLifetime := by simpa [previousSecretLive,previous,expires,kept.some_ was there] using dead
        have still : s.now < earlier+previousSecretLifetime := by
          simp only [Shown.good,standing,Bool.and_eq_true,decide_eq_true_eq] at good
          exact good.2
        omega
    · obtain rfl := List.mem_singleton.mp new
      cases is
  · intro secret is
    cases is
    exact ⟨⟨s.sub.secret,some at_,false⟩,by simp [all,Shown.replacing],rfl,rfl,at_,rfl,rfl⟩

theorem Kept.removes (kept : Kept s) :
    Kept {s with sub := {s.sub with previousSecret := none,previousSecretExpiresAt := none},shown := s.shown.map Shown.removing} := by
  obtain ⟨front,all,replaced⟩ := kept.current
  refine ⟨⟨front.map Shown.removing,by simp [all,Shown.removing],?_⟩,?_,?_,nofun,kept.past,kept.claims⟩
  · intro shown member
    obtain ⟨old,there,rfl⟩ := List.mem_map.mp member
    simp [Shown.removing,replaced old there]
  · intro shown member
    obtain ⟨old,there,rfl⟩ := List.mem_map.mp member
    have some_ := kept.some_ old there
    unfold Shown.removing
    split <;> exact some_
  · intro shown member at_ is good
    obtain ⟨old,there,rfl⟩ := List.mem_map.mp member
    unfold Shown.removing at is good
    split at is
    · rename_i gone
      rw [if_pos gone] at good
      have then_ : old.replacedAt = some at_ := is
      simp [Shown.good,then_] at good
    · rename_i standing
      simp [Option.mem_def.mp is] at standing

theorem Kept.preserved {op : Rotating} (kept : Kept s) (serial : Serial s op) (taken : stepSecrets s op = some next) : Kept next := by
  cases op with
  | wait microseconds =>
    cases taken
    exact kept.waits microseconds
  | read =>
    cases taken
    exact kept.reads
  | rotate read drawn =>
    simp only [stepSecrets] at taken
    split at taken
    · rename_i before
      split at taken
      · cases taken
        exact kept
      · rename_i dead
        cases taken
        have same : read.2 = s.sub := serial
        rw [same] at dead ⊢
        exact kept.rotates read.1 (kept.past read before) (by simpa using dead) drawn
    · cases taken
  | remove read =>
    simp only [stepSecrets] at taken
    split at taken
    · cases taken
      have same : read.2 = s.sub := serial
      have none_ : (if read.2.previousSecret.isSome then none else s.sub.previousSecret) = none := by
        rw [same]
        cases s.sub.previousSecret <;> rfl
      have endless : (if read.2.previousSecretExpiresAt.isSome then none else s.sub.previousSecretExpiresAt) = none := by
        rw [same]
        cases s.sub.previousSecretExpiresAt <;> rfl
      rw [none_,endless]
      exact kept.removes
    · cases taken
  | claim =>
    cases taken
    refine ⟨kept.current,kept.some_,kept.good,kept.previous,kept.past,?_⟩
    intro claim member
    rcases List.mem_append.mp member with old | new
    · exact kept.claims claim old
    · obtain rfl := List.mem_singleton.mp new
      exact ⟨(signs_few s.sub s.now).1,(signs_few s.sub s.now).2,kept.signs⟩

theorem created_kept (now : Int) (sub : WebhookSubscription) (drawn : String) : Kept (.created now sub drawn) where
  current := ⟨[],rfl,nofun⟩
  some_ := by
    intro shown member
    obtain rfl := List.mem_singleton.mp member
    exact newSecret_some drawn
  good := by
    intro shown member at_ is
    obtain rfl := List.mem_singleton.mp member
    cases is
  previous := nofun
  past := nofun
  claims := nofun

-- Rotated and removed in whatever order with whatever is sent, each change seeing
-- the one before: a request carries one or two signatures, and a receiver accepts it
-- in time exactly where a secret it holds signs as one does that was good when the
-- request was made ready. A secret stays good until it is replaced and for a day
-- after, unless it is removed.
theorem secrets_overlap (hmac : String → Text → List UInt8) {s : Secrets}
    (path : Runs.Reached (Runs.Guarded SecretSteps Serial) (.created now sub drawn) s) :
    (∀ secret, secret ∈ signingSecrets s.sub s.now ↔ secret ∈ s.good) ∧
    ∀ claim ∈ s.claims, claim.1.length ≤ 2 ∧ ∀ (held : List String) (clock : Int) (id : Text) (timestamp : Int) (body : Text),
      verify hmac held clock (attempt hmac claim.1 id timestamp body) = true ↔ (clock-timestamp).natAbs ≤ toleranceSeconds ∧
        ∃ mine ∈ held, ∃ good ∈ claim.2, digest hmac good id timestamp body = digest hmac mine id timestamp body := by
  have kept : Kept s := by
    apply path.invariant Kept (created_kept now sub drawn)
    intro before op after kept taken
    exact kept.preserved taken.1 taken.2
  refine ⟨kept.signs,?_⟩
  intro claim member
  obtain ⟨some_,few,same⟩ := kept.claims claim member
  refine ⟨few,?_⟩
  intro held clock id timestamp body
  rw [verify_attempt some_]
  refine and_congr_right (fun _ => exists_congr (fun mine => and_congr_right (fun _ => exists_congr (fun theirs => ?_))))
  exact and_congr_left (fun _ => same theirs)

end

def subscribed : WebhookSubscription := ⟨1,"default","https://receiver.test/hook",[],true,none,0,0,"",none,none,0,[]⟩

-- A digest that depends on nothing but the secret.
def named (secret : String) (_ : Text) : List UInt8 := secret.toList.map (fun c => c.val.toUInt8)

def first : WebhookSubscription := {subscribed with secret := "whsec_one"}
def second : WebhookSubscription := {subscribed with secret := "whsec_two",previousSecret := some "whsec_one",previousSecretExpiresAt := some 86400000000}

-- While both are good either is accepted; once the first is removed it is not.
theorem moved_over : ∃ s, Runs.trace stepSecrets Serial (.created 0 subscribed "one")
      [.read,.rotate (0,first) "two",.wait 60000000,.claim,.read,.remove (60000000,second),.claim] = some s ∧
    (∃ claim ∈ s.claims, verify named ["whsec_one"] 60 (attempt named claim.1 "msg_1".toList 60 "body".toList) = true) ∧
    ∃ claim ∈ s.claims, verify named ["whsec_one"] 60 (attempt named claim.1 "msg_2".toList 60 "body".toList) = false := by
  obtain ⟨s,traced,claims⟩ := Option.map_eq_some_iff.mp (show (Runs.trace stepSecrets Serial (.created 0 subscribed "one")
      [.read,.rotate (0,first) "two",.wait 60000000,.claim,.read,.remove (60000000,second),.claim]).map Secrets.claims =
    some [(["whsec_two","whsec_one"],["whsec_one","whsec_two"]),(["whsec_two"],["whsec_two"])] by decide +kernel)
  have verified := (secrets_overlap named (Runs.trace_reached .start traced)).2
  have both := (verified (["whsec_two","whsec_one"],["whsec_one","whsec_two"]) (by simp [claims])).2 ["whsec_one"] 60
  have one := (verified (["whsec_two"],["whsec_two"]) (by simp [claims])).2 ["whsec_one"] 60
  refine ⟨s,traced,⟨_,by simp [claims],(both _ _ _).mpr ⟨by decide,"whsec_one",by simp,"whsec_one",by simp,rfl⟩⟩,
    ⟨(["whsec_two"],["whsec_two"]),by simp [claims],?_⟩⟩
  rw [← Bool.not_eq_true,one]
  intro accepted
  obtain ⟨_,mine,held,good,live,same⟩ := accepted
  simp only [List.mem_singleton] at held live
  subst held live
  exact absurd same (by decide +kernel)

-- Two rotations that read the same row: the second writes over the first, whose
-- secret was shown and never signs.
theorem rotated_at_once : (Runs.trace stepSecrets (fun _ _ => True) (.created 0 subscribed "one")
      [.read,.rotate (0,first) "two",.rotate (0,first) "three"]).map (fun s => (signingSecrets s.sub s.now,s.good)) =
    some (["whsec_three","whsec_one"],["whsec_one","whsec_two","whsec_three"]) := by
  decide +kernel

end ChronosLedger.Webhooks
