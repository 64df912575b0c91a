import ChronosLedger.TokenFamilies

namespace ChronosLedger.SignIns

variable {lifetime : Int} {s next : SignInState} {k : Nat} {row : RefreshToken}

def Removal.revokes : Removal → Bool
  | .expired _ => false
  | .purged _ => false
  | _ => true

-- Nothing it covers was committed after its DELETE took its snapshot.
def sawAll (s : SignInState) : Phase → Bool
  | .removing removal seen _ _ => !removal.revokes || s.tokens.all (fun row => !removal.covers row || seen.contains row.id)
  | _ => true

def SnapshotsHold (s : SignInState) : Operation → Prop
  | .commit k _ => ∀ phase ∈ s.requests[k]?, sawAll s phase = true
  | _ => True

instance (s : SignInState) (op : Operation) : Decidable (SnapshotsHold s op) := by
  cases op <;> unfold SnapshotsHold <;> infer_instance

def Removal.family : Removal → Option Nat
  | .reused familyId => some familyId
  | .loggedOut familyId => some familyId
  | _ => none

def Phase.family : Phase → Option Nat
  | .deleting removal => removal.family
  | .removing removal _ _ _ => removal.family
  | _ => none

structure Closed (s : SignInState) : Prop where
  known : ∀ f ∈ s.ended, f < s.nextFamily
  gone : ∀ f ∈ s.ended, ∀ row ∈ s.tokens, row.familyId ≠ f
  named : ∀ phase ∈ s.requests, ∀ f ∈ phase.family, f < s.nextFamily

theorem family_known (once : Once s) (there : row ∈ s.tokens) : row.familyId < s.nextFamily := once.begun _ (once.known row there)

theorem Closed.phased (closed : Closed s) {phase : Phase} (named : ∀ f ∈ phase.family, f < s.nextFamily) : Closed (setPhase s k phase) := by
  refine ⟨closed.known,closed.gone,?_⟩
  intro other member f names
  rcases mem_setPhase member with rfl | ⟨j,_,old⟩
  · exact named f names
  · exact closed.named other (List.mem_of_getElem? old) f names

theorem begun_named (once : Once s) (request : Request) : ∀ f ∈ (begun s request).family, f < s.nextFamily := by
  cases request with
  | refresh token now =>
    dsimp only [begun,refresh]
    split
    · exact nofun
    · rename_i row found
      obtain ⟨there,_⟩ := tokenAt_parts found
      split
      · split
        · intro f names
          cases names
          exact family_known once there
        · exact nofun
      · split <;> exact nofun
  | logout token =>
    dsimp only [begun,logout]
    split
    · rename_i row found
      intro f names
      cases names
      exact family_known once (tokenAt_parts found).1
    · exact nofun
  | login userId password =>
    dsimp only [begun,login]
    split
    · split <;> exact nofun
    · exact nofun
  | changePassword userId currentPassword newPassword =>
    dsimp only [begun,changePassword]
    split
    · exact nofun
    · split
      · exact nofun
      · split
        · exact nofun
        · split <;> exact nofun
  | resetUserPassword userId rawPassword =>
    dsimp only [begun,resetUserPassword]
    split <;> exact nofun
  | deactivateUser userId now =>
    dsimp only [begun,deactivateUser]
    split
    · split <;> exact nofun
    · exact nofun
  | purgeExpiredRefreshTokens now => exact nofun

-- What a revocation ends, it covers.
theorem endedBy_covers (once : Once s) {removal : Removal} {f : Nat} (member : f ∈ endedBy s removal) (there : row ∈ s.tokens)
    (mine : row.familyId = f) : removal.covers row = true ∧ removal.revokes = true := by
  have ofUser : ∀ userId, f ∈ (s.families.filter (fun family => family.2 = userId)).map Prod.fst → row.userId = userId := by
    intro userId listed
    obtain ⟨family,owned,same⟩ := List.mem_map.mp listed
    obtain ⟨known,user⟩ := List.mem_filter.mp owned
    have one := once.owner _ (once.known row there) family known (mine.trans same.symm)
    exact (congrArg Prod.snd one).trans (of_decide_eq_true user)
  cases removal with
  | expired id => cases member
  | purged cutoff => cases member
  | reused familyId => exact ⟨decide_eq_true (mine.trans (List.mem_singleton.mp member)),rfl⟩
  | loggedOut familyId => exact ⟨decide_eq_true (mine.trans (List.mem_singleton.mp member)),rfl⟩
  | passwordChanged userId newPassword => exact ⟨decide_eq_true (ofUser userId member),rfl⟩
  | passwordReset userId rawPassword => exact ⟨decide_eq_true (ofUser userId member),rfl⟩
  | deactivated userId now => exact ⟨decide_eq_true (ofUser userId member),rfl⟩

theorem endedBy_known (once : Once s) (closed : Closed s) {removal : Removal} {seen remaining deleted : List Nat}
    (there : .removing removal seen remaining deleted ∈ s.requests) {f : Nat} (member : f ∈ endedBy s removal) : f < s.nextFamily := by
  have ofUser : ∀ userId, f ∈ (s.families.filter (fun family => family.2 = userId)).map Prod.fst → f < s.nextFamily := by
    intro userId listed
    obtain ⟨family,owned,rfl⟩ := List.mem_map.mp listed
    exact once.begun family (List.mem_filter.mp owned).1
  cases removal with
  | expired id => cases member
  | purged cutoff => cases member
  | reused familyId => exact closed.named _ there f (congrArg some (List.mem_singleton.mp member).symm)
  | loggedOut familyId => exact closed.named _ there f (congrArg some (List.mem_singleton.mp member).symm)
  | passwordChanged userId newPassword => exact ofUser userId member
  | passwordReset userId rawPassword => exact ofUser userId member
  | deactivated userId now => exact ofUser userId member

theorem Closed.removes (once : Once s) (closed : Closed s) {removal : Removal} {seen deleted : List Nat}
    (there : .removing removal seen [] deleted ∈ s.requests) (saw : sawAll s (.removing removal seen [] deleted) = true) :
    Closed (removed s removal deleted) := by
  refine ⟨?_,?_,closed.named⟩
  · intro f member
    rcases List.mem_append.mp member with old | new
    · exact closed.known f old
    · exact endedBy_known once closed there new
  · intro f member row stays mine
    obtain ⟨known,spared⟩ := List.mem_filter.mp stays
    rcases List.mem_append.mp member with old | new
    · exact closed.gone f old row known mine
    · obtain ⟨covered,revokes⟩ := endedBy_covers once new known mine
      dsimp only [sawAll] at saw
      rw [revokes] at saw
      have listed := List.all_eq_true.mp saw row known
      rw [covered] at listed
      obtain ⟨_,rest⟩ := once.seen removal seen [] deleted there row.id (by simpa using listed)
      rcases rest with left_ | taken | gone
      · exact List.not_mem_nil left_
      · exact of_decide_eq_true spared taken
      · exact gone row known rfl

theorem Closed.begins (closed : Closed s) (userId : String) (expiresAt : Int) : Closed (beginFamily s k userId expiresAt) := by
  refine ⟨fun f member => Nat.lt_succ_of_lt (closed.known f member),?_,?_⟩
  · intro f member row there mine
    rcases List.mem_append.mp there with old | new
    · exact closed.gone f member row old mine
    · cases List.mem_singleton.mp new
      exact Nat.ne_of_lt (closed.known f member) mine.symm
  · intro phase member f names
    rcases mem_setPhase (s := s) member with rfl | ⟨j,_,old⟩
    · cases names
    · exact Nat.lt_succ_of_lt (closed.named phase (List.mem_of_getElem? old) f names)

theorem Closed.consumed (closed : Closed s) (id : Nat) (now : Int) (answer : Answer) :
    Closed {setPhase s k (.over answer) with tokens := consume id now s.tokens} := by
  have over_ : Closed (setPhase s k (.over answer)) := closed.phased nofun
  refine ⟨over_.known,?_,over_.named⟩
  intro f member row there mine
  obtain ⟨old,known,⟨_,rfl⟩ | ⟨_,rfl⟩⟩ := mem_consume there
  · exact closed.gone f member old known mine
  · exact closed.gone f member _ known mine

theorem Closed.commits (once : Once s) (closed : Closed s) {now : Int} (saw : SnapshotsHold s (.commit k now))
    (taken : commit lifetime s k now = some next) : Closed next := by
  rcases commit_parts taken with ⟨userId,found,rfl⟩ | ⟨row,at_,found,rfl⟩ | ⟨row,at_,found,rfl⟩ | ⟨removal,seen,deleted,found,which⟩
  · exact closed.begins userId _
  · have consumed := closed.consumed (k := k) row.id at_ (.session s.nextToken)
    obtain ⟨current,known,_,family,_,_⟩ := once.exchanging_row (List.mem_of_getElem? found)
    refine ⟨consumed.known,?_,consumed.named⟩
    intro f member new there mine
    rcases List.mem_append.mp there with old | fresh
    · exact consumed.gone f member new old mine
    · cases List.mem_singleton.mp fresh
      exact closed.gone f member current known (family.trans mine)
  · exact closed.consumed row.id at_ _
  · have gone := closed.removes once (List.mem_of_getElem? found) (saw _ found)
    rcases which with rfl | ⟨userId,_,_,rfl⟩
    · exact gone.phased nofun
    · exact gone.begins userId _

theorem Closed.preserved (once : Once s) (closed : Closed s) {op : Operation} (saw : SnapshotsHold s op) (taken : step lifetime s op = some next) :
    Closed next := by
  cases op with
  | begin request =>
    cases taken
    refine ⟨closed.known,closed.gone,?_⟩
    intro phase member f names
    rcases List.mem_append.mp member with old | new
    · exact closed.named phase old f names
    · cases List.mem_singleton.mp new
      exact begun_named once request f names
  | spend k =>
    simp only [step,spend] at taken
    split at taken
    · split at taken
      · split at taken
        · cases taken
        · cases taken
          exact closed.phased (fun _ names => by cases names)
      · cases taken
        exact closed.phased (fun _ names => by cases names)
    · cases taken
  | readUser k =>
    simp only [step,readUser] at taken
    split at taken
    · cases taken
      exact closed.phased (fun _ names => by cases names)
    · cases taken
  | startDelete k =>
    simp only [step,startDelete] at taken
    split at taken
    · rename_i removal found
      cases taken
      have names : ∀ f ∈ removal.family, f < s.nextFamily := closed.named _ (List.mem_of_getElem? found)
      exact closed.phased names
    · cases taken
  | deleteRow k id =>
    simp only [step,deleteRow] at taken
    split at taken
    · rename_i removal seen remaining deleted found
      simp only [Option.ite_none_right_eq_some,Option.some.injEq] at taken
      obtain ⟨_,rfl⟩ := taken
      have names : ∀ f ∈ removal.family, f < s.nextFamily := closed.named _ (List.mem_of_getElem? found)
      exact closed.phased names
    · cases taken
  | commit k now => exact closed.commits once saw taken
  | rollback k =>
    simp only [step,rollback] at taken
    split at taken
    · cases taken
    · cases taken
      exact closed.phased (fun _ names => by cases names)
    · cases taken
  | reactivateUser userId =>
    cases taken
    exact ⟨closed.known,closed.gone,closed.named⟩

def exchangesOf (s : SignInState) (f : Nat) : List Exchange := s.exchanges.filter (fun e => e.familyId = f)

-- A family that has ended exchanges nothing any more, and stays ended.
theorem Closed.ended_kept (once : Once s) (closed : Closed s) {op : Operation} (taken : step lifetime s op = some next) {f : Nat} (ended : f ∈ s.ended) :
    f ∈ next.ended ∧ exchangesOf next f = exchangesOf s f := by
  cases op with
  | begin request =>
    cases taken
    exact ⟨ended,rfl⟩
  | spend k =>
    simp only [step,spend] at taken
    split at taken
    · split at taken
      · split at taken
        · cases taken
        · cases taken
          exact ⟨ended,rfl⟩
      · cases taken
        exact ⟨ended,rfl⟩
    · cases taken
  | readUser k =>
    simp only [step,readUser] at taken
    split at taken
    · cases taken
      exact ⟨ended,rfl⟩
    · cases taken
  | startDelete k =>
    simp only [step,startDelete] at taken
    split at taken
    · cases taken
      exact ⟨ended,rfl⟩
    · cases taken
  | deleteRow k id =>
    simp only [step,deleteRow] at taken
    split at taken
    · simp only [Option.ite_none_right_eq_some,Option.some.injEq] at taken
      obtain ⟨_,rfl⟩ := taken
      exact ⟨ended,rfl⟩
    · cases taken
  | commit k now =>
    rcases commit_parts taken with ⟨userId,_,rfl⟩ | ⟨row,at_,found,rfl⟩ | ⟨row,at_,_,rfl⟩ | ⟨removal,seen,deleted,_,rfl | ⟨userId,_,_,rfl⟩⟩
    · exact ⟨ended,rfl⟩
    · refine ⟨ended,?_⟩
      obtain ⟨current,known,_,family,_,_⟩ := once.exchanging_row (List.mem_of_getElem? found)
      have other : row.familyId ≠ f := family ▸ closed.gone f ended current known
      change (s.exchanges ++ [_]).filter _ = s.exchanges.filter _
      rw [List.filter_append,List.filter_cons_of_neg (by simpa using other),List.filter_nil,List.append_nil]
    · exact ⟨ended,rfl⟩
    · exact ⟨List.mem_append_left _ ended,rfl⟩
    · exact ⟨List.mem_append_left _ ended,rfl⟩
  | rollback k =>
    simp only [step,rollback] at taken
    split at taken
    · cases taken
    · cases taken
      exact ⟨ended,rfl⟩
    · cases taken
  | reactivateUser userId =>
    cases taken
    exact ⟨ended,rfl⟩

theorem start_once (accounts : List Account) : Once (.start accounts) := by
  refine ⟨.nil,?_,?_,?_,?_,?_,?_,?_,?_,?_,?_,.nil,?_⟩
  · exact fun _ member => absurd member List.not_mem_nil
  · exact fun _ member => absurd member List.not_mem_nil
  · exact fun _ member => absurd member List.not_mem_nil
  · exact fun _ member => absurd member List.not_mem_nil
  · exact fun _ member => absurd member List.not_mem_nil
  · exact fun _ member => absurd member List.not_mem_nil
  · exact fun _ member => absurd member List.not_mem_nil
  · exact fun _ _ _ _ found => absurd found (by simp [SignInState.start])
  · exact fun _ member => absurd member List.not_mem_nil
  · exact fun _ member => absurd member List.not_mem_nil
  · exact fun _ _ _ _ member => absurd member List.not_mem_nil

theorem start_closed (accounts : List Account) : Closed (.start accounts) :=
  ⟨fun _ member => absurd member List.not_mem_nil,fun _ member => absurd member List.not_mem_nil,fun _ member => absurd member List.not_mem_nil⟩

def unspentOf (s : SignInState) (f : Nat) : List RefreshToken := s.tokens.filter (fun row => row.familyId = f ∧ row.consumedAt = none)

theorem Once.unspent_one (once : Once s) (f : Nat) : (unspentOf s f).length ≤ 1 := by
  have rows : s.tokens.Nodup := List.Nodup.of_map _ once.ids
  cases equal : unspentOf s f with
  | nil => exact Nat.zero_le 1
  | cons a rest =>
    cases rest with
    | nil => exact Nat.le_refl 1
    | cons b rest =>
      have distinct : (unspentOf s f).Nodup := rows.filter _
      rw [equal] at distinct
      have parts : ∀ row ∈ unspentOf s f, row ∈ s.tokens ∧ row.familyId = f ∧ row.consumedAt = none := by
        intro row member
        obtain ⟨there,both⟩ := List.mem_filter.mp member
        exact ⟨there,of_decide_eq_true both⟩
      obtain ⟨thereA,ofA,openA⟩ := parts a (equal ▸ List.mem_cons_self)
      obtain ⟨thereB,ofB,openB⟩ := parts b (equal ▸ List.mem_cons_of_mem _ List.mem_cons_self)
      have same := once.live a thereA b thereB (ofA.trans ofB.symm) openA openB
      exact absurd (same ▸ List.mem_cons_self) (List.nodup_cons.mp distinct).1

-- Unspent tokens one a family, exchanges one a token, in every run. And where each
-- revocation saw all it was to end, what ended stays so.
theorem families_every_run {accounts : List Account} (path : Runs.Reached (Steps lifetime) (.start accounts) s) :
    (∀ f, (unspentOf s f).length ≤ 1) ∧ (s.exchanges.map Exchange.token).Nodup ∧
    (Runs.Reached (Runs.Guarded (Steps lifetime) SnapshotsHold) (.start accounts) s → ∀ f ∈ s.ended, ∀ later,
      Runs.Reached (Runs.Guarded (Steps lifetime) SnapshotsHold) s later →
        (∀ row ∈ later.tokens, row.familyId ≠ f) ∧ exchangesOf later f = exchangesOf s f) := by
  have once : Once s := path.invariant Once (start_once accounts) (fun _ _ _ held taken => held.preserved taken)
  refine ⟨once.unspent_one,once.once,?_⟩
  intro guarded f ended later onward
  have closed : Once s ∧ Closed s := by
    apply guarded.invariant (fun s => Once s ∧ Closed s) ⟨start_once accounts,start_closed accounts⟩
    intro before op after both taken
    exact ⟨both.1.preserved taken.2,both.2.preserved both.1 taken.1 taken.2⟩
  have stays : (Once later ∧ Closed later) ∧ f ∈ later.ended ∧ exchangesOf later f = exchangesOf s f := by
    apply onward.invariant (fun later => (Once later ∧ Closed later) ∧ f ∈ later.ended ∧ exchangesOf later f = exchangesOf s f) ⟨closed,ended,rfl⟩
    intro before op after holds taken
    obtain ⟨⟨one,still⟩,member,same⟩ := holds
    obtain ⟨kept,none_⟩ := still.ended_kept one taken.2 member
    exact ⟨⟨one.preserved taken.2,still.preserved one taken.1 taken.2⟩,kept,none_.trans same⟩
  exact ⟨stays.1.2.gone f stays.2.1,stays.2.2⟩

-- A logout that comes while a refresh waits to commit, and one that comes after.
def loggedOutAfter : List Operation := [.begin (.login "ada" "first"),.commit 0 0,.begin (.refresh 1 5),.spend 1,.readUser 1,.commit 1 6,
  .begin (.logout 1),.startDelete 2,.deleteRow 2 2,.deleteRow 2 1,.commit 2 7,.begin (.refresh 2 8)]

def ada : Account := ⟨"ada","first",none⟩

theorem logout_ends_family : ∃ s, Runs.trace (step 100) SnapshotsHold (.start [ada]) loggedOutAfter = some s ∧ s.ended = [1] ∧
    s.requests[3]? = some (.over (.refused .refreshTokenInvalid)) ∧ (unspentOf s 1).length ≤ 1 ∧ ∀ row ∈ s.tokens, row.familyId ≠ 1 := by
  have taken : ∃ s, Runs.trace (step 100) SnapshotsHold (.start [ada]) loggedOutAfter = some s ∧ s.ended = [1] ∧
      s.requests[3]? = some (.over (.refused .refreshTokenInvalid)) := ⟨_,rfl,rfl,rfl⟩
  obtain ⟨s,run,ended,refused⟩ := taken
  have path := Runs.trace_reached .start run
  obtain ⟨one,_,rest⟩ := families_every_run path.unguard
  exact ⟨s,run,ended,refused,one 1,(rest path 1 (ended ▸ List.mem_cons_self) s .start).1⟩

def loggedOutBetween : List Operation := [.begin (.login "ada" "first"),.commit 0 0,.begin (.refresh 1 5),.spend 1,.begin (.logout 1),.startDelete 2,
  .readUser 1,.commit 1 6,.deleteRow 2 1,.commit 2 7]

-- The family has ended, and the token the logout did not see is exchanged.
theorem ended_family_exchanges : ∃ s later, Runs.trace (step 100) (fun _ _ => True) (.start [ada]) loggedOutBetween = some s ∧ 1 ∈ s.ended ∧
    Runs.trace (step 100) (fun _ _ => True) s [.begin (.refresh 2 8),.spend 3,.readUser 3,.commit 3 9] = some later ∧
    exchangesOf s 1 = [⟨1,2,1⟩] ∧ exchangesOf later 1 = [⟨1,2,1⟩,⟨2,3,1⟩] := ⟨_,_,rfl,by decide,rfl,rfl,rfl⟩

end ChronosLedger.SignIns
