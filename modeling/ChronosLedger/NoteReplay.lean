import ChronosLedger.FederatedNotes
import Mathlib.Data.List.Nodup

namespace ChronosLedger.Federation

variable {Token : Type} {digest : String → String} {jwt : Jwt Token} {settings : Settings} {s next : NoteState Token} {token : Token}
variable {issuers : List FederatedIssuer} {issuer : FederatedIssuer} {claims : Claims} {now : Nat} {replay after : Replay}

-- What a note that passes every check before the jti says.
structure Vouched (jwt : Jwt Token) (settings : Settings) (issuers : List FederatedIssuer) (now : Nat) (token : Token) (issuer : FederatedIssuer)
    (claims : Claims) : Prop where
  payload : jwt.payload token = some claims
  registered : issuer ∈ issuers
  iss : claims.iss = .str issuer.issuer
  jti : claims.jti.isStr = true
  expiry : ∃ exp : Int, claims.exp = .seconds exp ∧ (now : Int) < (exp+settings.federatedClockSkewSeconds)*second ∧
    exp ≤ (now/second : Nat)+(settings.federatedTokenMaxLifetimeSeconds : Int)

theorem registeredIssuer_parts {name : Value} (found : registeredIssuer issuers name = .ok issuer) : issuer ∈ issuers := by
  unfold registeredIssuer at found
  split at found
  · cases found
  · split at found
    · cases found
    · rename_i row there
      split at found
      · cases found
        exact List.mem_of_find?_eq_some there
      · cases found

theorem decode_parts {publicKey audience name : String} {leeway : Nat} (decoded : decode jwt token publicKey audience name leeway now = some claims) :
    jwt.payload token = some claims ∧ claims.iss = .str name ∧ claims.jti.isStr = true ∧ expired now leeway claims.exp = false := by
  unfold decode at decoded
  obtain ⟨payload,checks⟩ := Option.filter_eq_some_iff.mp decoded
  simp only [Bool.and_eq_true,Bool.not_eq_true',decide_eq_true_eq] at checks
  exact ⟨payload,checks.1.1.1.2,checks.2,checks.1.1.1.1.2⟩

theorem unexpired {leeway : Nat} {stamp : Stamp} (live : expired now leeway stamp = false) :
    ∃ exp : Int, stamp = .seconds exp ∧ (now : Int) < (exp+leeway)*second := by
  cases stamp with
  | seconds exp =>
    refine ⟨exp,rfl,?_⟩
    have open_ := of_decide_eq_false live
    rw [Int.add_mul]
    omega
  | missing => cases live
  | unreadable => cases live

theorem checkNote_parts (checked : checkNote jwt settings issuers now token = .ok (issuer,claims)) : Vouched jwt settings issuers now token issuer claims := by
  unfold checkNote at checked
  split at checked
  · split at checked
    · split at checked
      · cases checked
      · rename_i row found
        split at checked
        · cases checked
        · split at checked
          · cases checked
          · rename_i decoded
            split at checked
            · cases checked
            · rename_i within
              cases checked
              obtain ⟨payload,iss,jti,live⟩ := decode_parts decoded
              obtain ⟨exp,stamp,before⟩ := unexpired live
              rw [stamp] at within
              dsimp only [Stamp.value] at within
              exact ⟨payload,registeredIssuer_parts found,iss,jti,exp,stamp,before,by omega⟩
    · cases checked
  · cases checked

theorem registeredIssuer_unused (issuers : List FederatedIssuer) (value : Value) (name : String) :
    registeredIssuer issuers value ≠ .error (.noteRefused (.alreadyUsed name)) := by
  unfold registeredIssuer
  split
  · nofun
  · split
    · nofun
    · split <;> nofun

theorem keyFor_unused (kid : Value) (issuer : FederatedIssuer) (now : Nat) (name : String) :
    keyFor kid issuer now ≠ .error (.noteRefused (.alreadyUsed name)) := by
  unfold keyFor
  split
  · nofun
  · split
    · nofun
    · split
      · nofun
      · split <;> nofun

-- None of the checks before the jti refuses a note as used.
theorem checkNote_unused (jwt : Jwt Token) (settings : Settings) (issuers : List FederatedIssuer) (now : Nat) (token : Token) (name : String) :
    checkNote jwt settings issuers now token ≠ .error (.noteRefused (.alreadyUsed name)) := by
  unfold checkNote
  split
  · split
    · split
      · rename_i failure failed
        intro same
        cases same
        exact registeredIssuer_unused _ _ name failed
      · split
        · rename_i failure failed
          intro same
          cases same
          exact keyFor_unused _ _ _ name failed
        · split
          · nofun
          · split <;> nofun
    · nofun
  · nofun

def ttl (settings : Settings) : Nat := settings.federatedTokenMaxLifetimeSeconds+settings.federatedClockSkewSeconds

theorem spendJti_parts (digest : String → String) (replay : Replay) (now : Nat) (reachable : Bool) (name : String) (jti : Value) (life : Nat) :
    (∃ failure, spendJti digest replay now reachable name jti life = (.error failure,replay) ∧
      (failure = .noteRefused (.alreadyUsed name) → ∃ text, jti = .str text ∧ replay.holds (replayKey digest name text) now = true) ∧
      ∀ other, failure = .noteRefused (.alreadyUsed other) → other = name) ∨
    ∃ text, jti = .str text ∧ replay.holds (replayKey digest name text) now = false ∧
      spendJti digest replay now reachable name jti life = (.ok (),(replayKey digest name text,now+life*second) :: replay) := by
  unfold spendJti
  cases jti with
  | str text =>
    by_cases empty : text = ""
    · left
      refine ⟨.noteRefused (.carriesNoJti name),?_,nofun,nofun⟩
      simp [Value.nonempty,empty]
    · have same : (Value.str text).nonempty = some text := by simp [Value.nonempty,empty]
      rw [same]
      dsimp only
      split
      · exact .inl ⟨.replayCacheDown,rfl,nofun,nofun⟩
      · split
        · rename_i held
          exact .inl ⟨_,rfl,fun _ => ⟨text,rfl,held⟩,fun other named => by cases named; rfl⟩
        · rename_i free
          exact .inr ⟨text,rfl,by simpa using free,rfl⟩
  | list items => exact .inl ⟨_,rfl,nofun,nofun⟩
  | other => exact .inl ⟨_,rfl,nofun,nofun⟩

-- A call that fails leaves the cache as it was, and one that finds its note used
-- finds its key. A call that succeeds did not, and leaves the key there.
theorem verify_parts (digest : String → String) (jwt : Jwt Token) (settings : Settings) (s : NoteState Token) (reachable : Bool) (token : Token) :
    (∃ failure, verify digest jwt settings s reachable token = (.error failure,s.replay) ∧
      ∀ name, failure = .noteRefused (.alreadyUsed name) → ∃ issuer claims text, Vouched jwt settings s.issuers s.now token issuer claims ∧
        issuer.issuer = name ∧ claims.jti = .str text ∧ s.replay.holds (replayKey digest name text) s.now = true) ∨
    ∃ note claims text, Vouched jwt settings s.issuers s.now token note.issuer claims ∧ claims.jti = .str text ∧
      s.replay.holds (replayKey digest note.issuer.issuer text) s.now = false ∧ verify digest jwt settings s reachable token =
        (.ok note,(replayKey digest note.issuer.issuer text,s.now+ttl settings*second) :: s.replay) := by
  unfold verify verifyNote
  cases checked : checkNote jwt settings s.issuers s.now token with
  | error failure =>
    refine .inl ⟨failure,rfl,?_⟩
    intro name same
    subst same
    exact absurd checked (checkNote_unused jwt settings s.issuers s.now token name)
  | ok pair =>
    obtain ⟨issuer,claims⟩ := pair
    have vouched := checkNote_parts checked
    dsimp only
    rcases spendJti_parts digest s.replay s.now reachable issuer.issuer claims.jti (ttl settings) with
      ⟨failure,result,used,named⟩ | ⟨text,jti,free,result⟩
    · left
      refine ⟨failure,?_,?_⟩
      · unfold ttl at result
        rw [result]
      · intro name same
        have mine := named name same
        subst mine
        obtain ⟨text,jti,held⟩ := used same
        exact ⟨issuer,claims,text,vouched,rfl,jti,held⟩
    · right
      refine ⟨⟨issuer,claims.sub.text,claims.email.nonempty,claims.name.nonempty,groupsFrom claims.groups⟩,claims,text,vouched,jti,free,?_⟩
      unfold ttl at result ⊢
      rw [result]

-- Every note that was accepted has its record, and every record its note.
structure Recorded (digest : String → String) (jwt : Jwt Token) (settings : Settings) (s : NoteState Token) : Prop where
  records : ∀ e ∈ s.accepted, (replayKey digest e.issuer e.jti,e.at_+ttl settings*second) ∈ s.replay
  notes : ∀ record ∈ s.replay, ∃ e ∈ s.accepted, record.1 = replayKey digest e.issuer e.jti
  vouched : ∀ e ∈ s.accepted, ∃ issuers issuer claims, Vouched jwt settings issuers e.at_ e.token issuer claims ∧ issuer.issuer = e.issuer ∧
    claims.jti = .str e.jti
  named : ∀ e ∈ s.accepted, e.issuer ∈ s.names
  known : ∀ issuer ∈ s.issuers, issuer.issuer ∈ s.names
  once : (s.accepted.map Accepted.token).Nodup

-- The record of a note outlives every instant at which the note still verifies.
theorem Vouched.recorded {later : Nat} {others : List FederatedIssuer} {other : FederatedIssuer} {same : Claims}
    (first : Vouched jwt settings issuers now token issuer claims) (again : Vouched jwt settings others later token other same) :
    later < now+ttl settings*second := by
  obtain ⟨exp,stamp,_,within⟩ := first.expiry
  obtain ⟨exp',stamp',live,_⟩ := again.expiry
  cases Option.some.inj (first.payload.symm.trans again.payload)
  cases stamp.symm.trans stamp'
  have floor : now/second*second ≤ now := Nat.div_mul_le_self now second
  unfold ttl second at *
  omega

theorem holds_of_mem {key : String} {until_ : Nat} (there : (key,until_) ∈ replay) (live : now < until_) : replay.holds key now = true := by
  unfold Replay.holds
  exact List.any_eq_true.mpr ⟨_,there,decide_eq_true ⟨rfl,live⟩⟩

theorem mem_of_holds {key : String} (held : replay.holds key now = true) : ∃ record ∈ replay, record.1 = key := by
  unfold Replay.holds at held
  obtain ⟨record,there,both⟩ := List.any_eq_true.mp held
  exact ⟨record,there,(of_decide_eq_true both).1⟩

theorem Recorded.unused (recorded : Recorded digest jwt settings s) {note : FederatedIssuer} {text : String}
    (vouched : Vouched jwt settings s.issuers s.now token note claims) (jti : claims.jti = .str text)
    (free : s.replay.holds (replayKey digest note.issuer text) s.now = false) : ∀ e ∈ s.accepted, e.token ≠ token := by
  intro e member same
  obtain ⟨issuers,issuer,before,first,name,jti_⟩ := recorded.vouched e member
  have record := recorded.records e member
  rw [same] at first
  have live := first.recorded vouched
  cases Option.some.inj (first.payload.symm.trans vouched.payload)
  have issuers_ : e.issuer = note.issuer := by
    have equal := first.iss.symm.trans vouched.iss
    rw [name] at equal
    exact Value.str.inj equal
  have texts : e.jti = text := Value.str.inj (jti_.symm.trans jti)
  rw [issuers_,texts] at record
  exact absurd (holds_of_mem record live) (by rw [free]; nofun)

theorem Recorded.accepts (recorded : Recorded digest jwt settings s) {note : FederatedIssuer} {text : String}
    (vouched : Vouched jwt settings s.issuers s.now token note claims) (jti : claims.jti = .str text)
    (free : s.replay.holds (replayKey digest note.issuer text) s.now = false) :
    Recorded digest jwt settings {s with
      replay := (replayKey digest note.issuer text,s.now+ttl settings*second) :: s.replay
      accepted := s.accepted ++ [⟨token,note.issuer,text,s.now⟩]} := by
  refine ⟨?_,?_,?_,?_,recorded.known,?_⟩
  · intro e member
    rcases List.mem_append.mp member with old | new
    · exact List.mem_cons_of_mem _ (recorded.records e old)
    · cases List.mem_singleton.mp new
      exact List.mem_cons_self
  · intro record member
    rcases List.mem_cons.mp member with rfl | old
    · exact ⟨_,List.mem_append_right _ (List.mem_singleton_self _),rfl⟩
    · obtain ⟨e,there,key⟩ := recorded.notes record old
      exact ⟨e,List.mem_append_left _ there,key⟩
  · intro e member
    rcases List.mem_append.mp member with old | new
    · exact recorded.vouched e old
    · cases List.mem_singleton.mp new
      exact ⟨s.issuers,note,claims,vouched,rfl,jti⟩
  · intro e member
    rcases List.mem_append.mp member with old | new
    · exact recorded.named e old
    · cases List.mem_singleton.mp new
      exact recorded.known note vouched.registered
  · rw [List.map_append,List.map_singleton,← List.concat_eq_append]
    apply recorded.once.concat
    intro member
    obtain ⟨e,there,same⟩ := List.mem_map.mp member
    exact recorded.unused vouched jti free e there same

theorem Recorded.preserved (recorded : Recorded digest jwt settings s) {op : Operation Token} (taken : step digest jwt settings s op = some next) :
    Recorded digest jwt settings next := by
  cases op with
  | advanceTo instant =>
    simp only [step,Option.ite_none_right_eq_some,Option.some.injEq] at taken
    obtain ⟨_,rfl⟩ := taken
    exact ⟨recorded.records,recorded.notes,recorded.vouched,recorded.named,recorded.known,recorded.once⟩
  | register issuers =>
    cases taken
    exact ⟨recorded.records,recorded.notes,recorded.vouched,fun e member => List.mem_append_left _ (recorded.named e member),
      fun issuer member => List.mem_append_right _ (List.mem_map_of_mem member),recorded.once⟩
  | verifyNote token reachable =>
    simp only [step] at taken
    rcases verify_parts digest jwt settings s reachable token with ⟨failure,result,_⟩ | ⟨note,claims,text,vouched,jti,free,result⟩
    · rw [result] at taken
      cases taken
      exact recorded
    · rw [result] at taken
      cases taken
      have same : jtiOf jwt token = text := by
        unfold jtiOf
        rw [vouched.payload,Option.map_some,jti]
        rfl
      rw [same]
      exact recorded.accepts vouched jti free

-- One issuer's name goes on after a NUL where the other's ends.
def Extends (longer name : String) : Prop := name.toList ++ ['\x00'] <+: longer.toList

instance (longer name : String) : Decidable (Extends longer name) := inferInstanceAs (Decidable (_ <+: _))

def NamesApart (names : List String) : Prop := ∀ a ∈ names, ∀ b ∈ names, ¬ Extends a b

instance (names : List String) : Decidable (NamesApart names) := inferInstanceAs (Decidable (∀ a ∈ names, ∀ b ∈ names, ¬ Extends a b))

theorem replayKey_parts (injective : Function.Injective digest) {a b j k : String} (same : replayKey digest a j = replayKey digest b k) :
    a = b ∧ j = k ∨ Extends a b ∨ Extends b a := by
  have strings := injective (String.append_right_inj _ |>.mp same)
  have chars := congrArg String.toList strings
  simp only [String.toList_append,List.append_assoc] at chars
  change a.toList ++ '\x00' :: j.toList = b.toList ++ '\x00' :: k.toList at chars
  rcases List.append_eq_append_iff.mp chars with ⟨rest,longer,tail⟩ | ⟨rest,longer,tail⟩
  · cases rest with
    | nil =>
      rw [List.append_nil] at longer
      exact .inl ⟨(String.toList_inj.mp longer).symm,String.toList_inj.mp (List.cons.inj tail).2⟩
    | cons c rest =>
      obtain ⟨rfl,_⟩ := List.cons.inj tail
      exact .inr (.inr ⟨rest,by rw [longer,List.append_assoc]; rfl⟩)
  · cases rest with
    | nil =>
      rw [List.append_nil] at longer
      exact .inl ⟨String.toList_inj.mp longer,(String.toList_inj.mp (List.cons.inj tail).2).symm⟩
    | cons c rest =>
      obtain ⟨rfl,_⟩ := List.cons.inj tail
      exact .inr (.inl ⟨rest,by rw [longer,List.append_assoc]; rfl⟩)

-- Exactly such names have jtis with one key between them.
theorem replayKey_meets_iff (injective : Function.Injective digest) {a b : String} (apart : a ≠ b) :
    (∃ j k, j ≠ "" ∧ k ≠ "" ∧ replayKey digest a j = replayKey digest b k) ↔ Extends a b ∨ Extends b a := by
  have meets : ∀ {longer name : String}, Extends longer name → ∃ j k, j ≠ "" ∧ k ≠ "" ∧ replayKey digest longer j = replayKey digest name k := by
    intro longer name extends_
    obtain ⟨rest,whole⟩ := extends_
    refine ⟨"n",String.ofList rest ++ "\x00" ++ "n",by decide,?_,?_⟩
    · intro empty
      have chars := congrArg String.toList empty
      simp at chars
    · apply congrArg (fun text => "fed:jti:" ++ digest text)
      apply String.toList_inj.mp
      simp only [String.toList_append,String.toList_ofList,← whole,List.append_assoc]
      rfl
  constructor
  · intro ⟨j,k,_,_,same⟩
    exact (replayKey_parts injective same).resolve_left (fun equal => apart equal.1)
  · intro either
    rcases either with one | two
    · exact meets one
    · obtain ⟨j,k,full,other,same⟩ := meets two
      exact ⟨k,j,other,full,same.symm⟩

theorem start_recorded (now : Nat) (issuers : List FederatedIssuer) : Recorded digest jwt settings (.start now issuers) :=
  ⟨fun _ member => absurd member List.not_mem_nil,fun _ member => absurd member List.not_mem_nil,fun _ member => absurd member List.not_mem_nil,
    fun _ member => absurd member List.not_mem_nil,fun _ member => List.mem_map_of_mem member,.nil⟩

-- A note is accepted once, a refused call records nothing, and where the names are
-- apart a note found used was preceded by one of its own issuer with its own jti.
-- Only names that are not can have one key.
theorem notes_accepted_once (injective : Function.Injective digest) (path : Runs.Reached (Steps digest jwt settings) (.start now issuers) s) :
    (s.accepted.map Accepted.token).Nodup ∧
    (∀ token reachable reason replay, verify digest jwt settings s reachable token = (.error (.noteRefused reason),replay) → replay = s.replay) ∧
    (NamesApart s.names → ∀ token reachable name replay,
      verify digest jwt settings s reachable token = (.error (.noteRefused (.alreadyUsed name)),replay) →
        ∃ e ∈ s.accepted, e.issuer = name ∧ e.jti = jtiOf jwt token) ∧
    ∀ a b : String, a ≠ b → ((∃ j k, j ≠ "" ∧ k ≠ "" ∧ replayKey digest a j = replayKey digest b k) ↔ Extends a b ∨ Extends b a) := by
  have recorded : Recorded digest jwt settings s :=
    path.invariant (Recorded digest jwt settings) (start_recorded now issuers) (fun _ _ _ held taken => held.preserved taken)
  refine ⟨recorded.once,?_,?_,fun a b apart => replayKey_meets_iff injective apart⟩
  · intro token reachable reason replay refused
    rcases verify_parts digest jwt settings s reachable token with ⟨failure,result,_⟩ | ⟨note,_,_,_,_,_,result⟩
    · exact (congrArg Prod.snd (result.symm.trans refused)).symm
    · cases congrArg Prod.fst (result.symm.trans refused)
  · intro apart token reachable name replay refused
    rcases verify_parts digest jwt settings s reachable token with ⟨failure,result,used⟩ | ⟨note,_,_,_,_,_,result⟩
    · obtain ⟨issuer,claims,text,vouched,rfl,jti,held⟩ := used name (Except.error.inj (congrArg Prod.fst (result.symm.trans refused)))
      obtain ⟨record,there,key⟩ := mem_of_holds held
      obtain ⟨e,member,own⟩ := recorded.notes record there
      have mine : jtiOf jwt token = text := by
        unfold jtiOf
        rw [vouched.payload,Option.map_some,jti]
        rfl
      have one := recorded.named e member
      have two := recorded.known issuer vouched.registered
      rcases replayKey_parts injective (own.symm.trans key) with ⟨same,jtis⟩ | crosses | crosses
      · exact ⟨e,member,same,jtis.trans mine.symm⟩
      · exact absurd crosses (apart _ one _ two)
      · exact absurd crosses (apart _ two _ one)
    · cases congrArg Prod.fst (result.symm.trans refused)

-- The digest of one string, and a text that is no digest for any other.
def digestOf (text : String) : String := if text = "https://id.example\x00n1" then "a944ba4ef8cee309cb0cb12eb29613e9" else "x" ++ text

theorem digestOf_injective : Function.Injective digestOf := by
  have digest_ : ∀ text : String, "a944ba4ef8cee309cb0cb12eb29613e9" ≠ "x" ++ text := by
    intro text same
    have chars := congrArg String.toList same
    rw [String.toList_append] at chars
    cases List.cons.inj chars
    contradiction
  intro a b same
  unfold digestOf at same
  split at same
  · split at same
    · rename_i one two
      exact one.trans two.symm
    · exact absurd same (digest_ b)
  · split at same
    · exact absurd same.symm (digest_ a)
    · exact String.append_right_inj _ |>.mp same

def registration (id : Nat) (name : String) : FederatedIssuer := ⟨id,name,"chronos",true,[⟨"k1","key of " ++ name,0,none⟩]⟩

def claimsOf (name jti : String) : Claims :=
  ⟨.str name,.str "chronos",.str "ada",.str jti,.other,.other,.other,.seconds 1100,.seconds 1000,.missing⟩

-- The notes are told by their number: each names an issuer, and has its signature.
def notesOf (names : Nat → String × String) : Jwt Nat :=
  ⟨fun _ => some (.str "k1"),fun n => some (claimsOf (names n).1 (names n).2),fun n key => key = "key of " ++ (names n).1⟩

def usual : Settings := ⟨true,60,120⟩

theorem second_copy_refused : ∃ s replay, Runs.trace (step digestOf (notesOf fun _ => ("https://id.example","n1")) usual) (fun _ _ => True)
    (.start (1000*second) [registration 1 "https://id.example"]) [.verifyNote 0 true,.advanceTo (1159*second)] = some s ∧
    verify digestOf (notesOf fun _ => ("https://id.example","n1")) usual s true 0 =
      (.error (.noteRefused (.alreadyUsed "https://id.example")),replay) ∧ replay = s.replay ∧ (s.accepted.map Accepted.token).Nodup ∧
    ∃ e ∈ s.accepted, e.issuer = "https://id.example" ∧ e.jti = "n1" := by
  have taken : ∃ s replay, Runs.trace (step digestOf (notesOf fun _ => ("https://id.example","n1")) usual) (fun _ _ => True)
      (.start (1000*second) [registration 1 "https://id.example"]) [.verifyNote 0 true,.advanceTo (1159*second)] = some s ∧
      verify digestOf (notesOf fun _ => ("https://id.example","n1")) usual s true 0 =
        (.error (.noteRefused (.alreadyUsed "https://id.example")),replay) ∧ s.names = ["https://id.example"] := ⟨_,_,rfl,rfl,rfl⟩
  obtain ⟨s,replay,run,refused,names⟩ := taken
  obtain ⟨once,nothing,mine,_⟩ := notes_accepted_once digestOf_injective (Runs.trace_reached .start run).unguard
  have apart : NamesApart s.names := by
    rw [names]
    decide
  exact ⟨s,replay,run,refused,nothing 0 true _ replay refused,once,mine apart 0 true _ replay refused⟩

-- Note 0 is of one issuer, note 1 of one whose name goes on after a NUL.
def twoIssuers (n : Nat) : String × String := if n = 0 then ("https://id.example","b\x00n1") else ("https://id.example\x00b","n1")

theorem other_issuer_refused : ∃ s replay, Runs.trace (step digestOf (notesOf twoIssuers) usual) (fun _ _ => True)
    (.start (1000*second) [registration 1 "https://id.example",registration 2 "https://id.example\x00b"]) [.verifyNote 0 true] = some s ∧
    verify digestOf (notesOf twoIssuers) usual s true 1 = (.error (.noteRefused (.alreadyUsed "https://id.example\x00b")),replay) ∧
    s.accepted.map Accepted.issuer = ["https://id.example"] := ⟨_,_,rfl,rfl,rfl⟩

end ChronosLedger.Federation
