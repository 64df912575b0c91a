import Mathlib.Data.List.Nodup
import ChronosLedger.RefreshTokens

namespace ChronosLedger.SignIns

variable {lifetime : Int} {s next : SignInState} {k : Nat} {row : RefreshToken} {before after : Phase}

-- The row a refresh has read, and the one whose consumption it has written.
def Phase.reads : Phase → Option RefreshToken
  | .spending row _ => some row
  | .spent row _ => some row
  | .exchanging row _ _ => some row
  | _ => none

def Phase.writes : Phase → Option RefreshToken
  | .spent row _ => some row
  | .exchanging row _ _ => some row
  | _ => none

-- No two transactions hold one row, what they hold is there, and a row being
-- consumed was not consumed before.
structure Once (s : SignInState) : Prop where
  ids : (s.tokens.map RefreshToken.id).Nodup
  fresh : ∀ row ∈ s.tokens, row.id < s.nextToken
  known : ∀ row ∈ s.tokens, (row.familyId,row.userId) ∈ s.families
  begun : ∀ family ∈ s.families, family.1 < s.nextFamily
  owner : ∀ a ∈ s.families, ∀ b ∈ s.families, a.1 = b.1 → a = b
  read : ∀ phase ∈ s.requests, ∀ row ∈ phase.reads, row.id < s.nextToken ∧
    ∀ current ∈ s.tokens, current.id = row.id → current.familyId = row.familyId ∧ current.userId = row.userId
  held : ∀ phase ∈ s.requests, ∀ id ∈ phase.holds, ∃ row ∈ s.tokens, row.id = id
  unspent : ∀ phase ∈ s.requests, ∀ row ∈ phase.writes, ∀ current ∈ s.tokens, current.id = row.id → current.consumedAt = none
  apart : ∀ (j k : Nat) (one two : Phase), s.requests[j]? = some one → s.requests[k]? = some two → j ≠ k → ∀ id ∈ one.holds, id ∉ two.holds
  live : ∀ a ∈ s.tokens, ∀ b ∈ s.tokens, a.familyId = b.familyId → a.consumedAt = none → b.consumedAt = none → a = b
  used : ∀ e ∈ s.exchanges, e.token < s.nextToken ∧ ∀ row ∈ s.tokens, row.id = e.token → row.consumedAt ≠ none
  once : (s.exchanges.map Exchange.token).Nodup
  seen : ∀ removal seen remaining deleted, .removing removal seen remaining deleted ∈ s.requests → ∀ id ∈ seen, id < s.nextToken ∧
    (id ∈ remaining ∨ id ∈ deleted ∨ ∀ row ∈ s.tokens, row.id ≠ id)

theorem token_same (once : Once s) {a b : RefreshToken} (one : a ∈ s.tokens) (two : b ∈ s.tokens) (same : a.id = b.id) : a = b :=
  List.inj_on_of_nodup_map once.ids one two same

theorem tokenAt_parts {id : Nat} (found : tokenAt s id = some row) : row ∈ s.tokens ∧ row.id = id :=
  ⟨List.mem_of_find?_eq_some found,by simpa using List.find?_some found⟩

theorem tokenAt_none {id : Nat} (none_ : tokenAt s id = none) : ∀ row ∈ s.tokens, row.id ≠ id := by
  intro row member same
  exact absurd (decide_eq_true same) (List.find?_eq_none.mp none_ row member)

theorem locked_free {id : Nat} (free : locked s id = false) : ∀ phase ∈ s.requests, id ∉ phase.holds := by
  intro phase member holds
  unfold locked at free
  exact absurd (decide_eq_true holds) (List.any_eq_false.mp free phase member)

theorem setPhase_at {phase : Phase} {j : Nat} {moved : Phase} (found : (setPhase s k phase).requests[j]? = some moved) :
    j = k ∧ moved = phase ∨ j ≠ k ∧ s.requests[j]? = some moved := by
  unfold setPhase at found
  dsimp only at found
  rw [List.getElem?_set] at found
  split at found
  · rename_i same
    split at found
    · exact .inl ⟨same.symm,(Option.some.inj found).symm⟩
    · cases found
  · rename_i apart
    exact .inr ⟨fun same => apart same.symm,found⟩

theorem mem_setPhase {phase moved : Phase} (member : moved ∈ (setPhase s k phase).requests) :
    moved = phase ∨ ∃ j, j ≠ k ∧ s.requests[j]? = some moved := by
  obtain ⟨j,found⟩ := List.mem_iff_getElem?.mp member
  rcases setPhase_at found with ⟨_,same⟩ | ⟨apart,old⟩
  · exact .inl same
  · exact .inr ⟨j,apart,old⟩

-- What a phase has to bear out to be entered.
structure Enters (s : SignInState) (phase : Phase) : Prop where
  read : ∀ row ∈ phase.reads, row.id < s.nextToken ∧
    ∀ current ∈ s.tokens, current.id = row.id → current.familyId = row.familyId ∧ current.userId = row.userId
  held : ∀ id ∈ phase.holds, ∃ row ∈ s.tokens, row.id = id
  unspent : ∀ row ∈ phase.writes, ∀ current ∈ s.tokens, current.id = row.id → current.consumedAt = none
  seen : ∀ removal seen remaining deleted, phase = .removing removal seen remaining deleted → ∀ id ∈ seen, id < s.nextToken ∧
    (id ∈ remaining ∨ id ∈ deleted ∨ ∀ row ∈ s.tokens, row.id ≠ id)

theorem Once.enters (once : Once s) {phase : Phase} (there : phase ∈ s.requests) : Enters s phase :=
  ⟨once.read phase there,once.held phase there,once.unspent phase there,fun removal seen remaining deleted same =>
    once.seen removal seen remaining deleted (same ▸ there)⟩

-- A request goes on, and holds what it held and what nobody did.
theorem Once.phased (once : Once s) (found : s.requests[k]? = some before) (enters : Enters s after)
    (holds : ∀ id ∈ after.holds, id ∈ before.holds ∨ locked s id = false) : Once (setPhase s k after) := by
  have one : ∀ moved ∈ (setPhase s k after).requests, Enters s moved := by
    intro moved member
    rcases mem_setPhase member with rfl | ⟨j,_,old⟩
    · exact enters
    · exact once.enters (List.mem_of_getElem? old)
  have clear : ∀ (j : Nat) (other : Phase), s.requests[j]? = some other → j ≠ k → ∀ id ∈ after.holds, id ∉ other.holds := by
    intro j other old apart id taken
    rcases holds id taken with mine | free
    · exact once.apart k j before other found old apart.symm id mine
    · exact locked_free free other (List.mem_of_getElem? old)
  refine ⟨once.ids,once.fresh,once.known,once.begun,once.owner,fun phase member => (one phase member).read,fun phase member => (one phase member).held,
    fun phase member => (one phase member).unspent,?_,once.live,once.used,once.once,fun removal seen remaining deleted member =>
      (one _ member).seen removal seen remaining deleted rfl⟩
  intro i j a b foundA foundB apart id inA inB
  rcases setPhase_at foundA with ⟨atA,rfl⟩ | ⟨_,oldA⟩
  · rcases setPhase_at foundB with ⟨atB,_⟩ | ⟨offB,oldB⟩
    · exact apart (atA.trans atB.symm)
    · exact clear j b oldB offB id inA inB
  · rcases setPhase_at foundB with ⟨atB,rfl⟩ | ⟨_,oldB⟩
    · exact clear i a oldA (fun same => apart (same.trans atB.symm)) id inB inA
    · exact once.apart i j a b oldA oldB apart id inA inB

-- A phase that reads, holds and has seen nothing can always be entered.
theorem Enters.idle (s : SignInState) {phase : Phase} (reads : phase.reads = none) (holds : phase.holds = []) (writes : phase.writes = none)
    (other : ∀ removal seen remaining deleted, phase ≠ .removing removal seen remaining deleted) : Enters s phase := by
  refine ⟨?_,?_,?_,fun removal seen remaining deleted same => absurd same (other removal seen remaining deleted)⟩
  · rw [reads]
    exact nofun
  · rw [holds]
    exact fun _ member => absurd member List.not_mem_nil
  · rw [writes]
    exact nofun

theorem Once.closes (once : Once s) (found : s.requests[k]? = some before) (answer : Answer) : Once (setPhase s k (.over answer)) :=
  once.phased found (.idle s rfl rfl rfl nofun) (fun _ member => absurd member List.not_mem_nil)

-- Rows go or are consumed; those held stay as they are.
theorem Once.rewritten (once : Once s) (requests : next.requests = s.requests) (nextToken : next.nextToken = s.nextToken)
    (nextFamily : next.nextFamily = s.nextFamily) (families : next.families = s.families) (exchanges : next.exchanges = s.exchanges)
    (ids : (next.tokens.map RefreshToken.id).Sublist (s.tokens.map RefreshToken.id))
    (rows : ∀ row ∈ next.tokens, ∃ old ∈ s.tokens, row.id = old.id ∧ row.familyId = old.familyId ∧ row.userId = old.userId ∧
      (row.consumedAt = none → row = old))
    (kept : ∀ phase ∈ s.requests, ∀ id ∈ phase.holds, ∀ old ∈ s.tokens, old.id = id → old ∈ next.tokens) : Once next := by
  have nodup : (next.tokens.map RefreshToken.id).Nodup := once.ids.sublist ids
  refine ⟨nodup,?_,?_,?_,?_,?_,?_,?_,?_,?_,?_,?_,?_⟩
  · rw [nextToken]
    intro row member
    obtain ⟨old,there,id,_⟩ := rows row member
    exact id ▸ once.fresh old there
  · rw [families]
    intro row member
    obtain ⟨old,there,_,family,user,_⟩ := rows row member
    rw [family,user]
    exact once.known old there
  · rw [families,nextFamily]
    exact once.begun
  · rw [families]
    exact once.owner
  · rw [requests,nextToken]
    intro phase there row reads
    obtain ⟨below,same⟩ := once.read phase there row reads
    refine ⟨below,?_⟩
    intro current member id
    obtain ⟨old,known,sameId,family,user,_⟩ := rows current member
    rw [family,user]
    exact same old known (sameId.symm.trans id)
  · rw [requests]
    intro phase there id holds
    obtain ⟨old,known,same⟩ := once.held phase there id holds
    exact ⟨old,kept phase there id holds old known same,same⟩
  · rw [requests]
    intro phase there row writes current member id
    obtain ⟨old,known,sameId,_,_,_⟩ := rows current member
    have mine : row.id ∈ phase.holds := by
      cases phase <;> simp [Phase.writes] at writes <;> simp [Phase.holds,writes]
    have stays := kept phase there row.id mine old known (sameId.symm.trans id)
    rw [List.inj_on_of_nodup_map nodup member stays sameId]
    exact once.unspent phase there row writes old known (sameId.symm.trans id)
  · rw [requests]
    exact once.apart
  · intro a one b two family liveA liveB
    obtain ⟨oldA,knownA,_,_,_,sameA⟩ := rows a one
    obtain ⟨oldB,knownB,_,_,_,sameB⟩ := rows b two
    cases sameA liveA
    cases sameB liveB
    exact once.live _ knownA _ knownB family liveA liveB
  · rw [exchanges,nextToken]
    intro e spent
    obtain ⟨below,consumed⟩ := once.used e spent
    refine ⟨below,?_⟩
    intro row member id open_
    obtain ⟨old,known,_,_,_,same⟩ := rows row member
    cases same open_
    exact consumed _ known id open_
  · rw [exchanges]
    exact once.once
  · rw [requests,nextToken]
    intro removal seen remaining deleted there id listed
    obtain ⟨below,rest⟩ := once.seen removal seen remaining deleted there id listed
    refine ⟨below,rest.imp_right (Or.imp_right ?_)⟩
    intro gone row member same
    obtain ⟨old,known,sameId,_⟩ := rows row member
    exact gone old known (sameId.symm.trans same)

-- A new token, the only one of its family that is not consumed.
theorem Once.adds (once : Once s) {new : RefreshToken} (requests : next.requests = s.requests) (tokens : next.tokens = s.tokens ++ [new])
    (id : new.id = s.nextToken) (nextToken : next.nextToken = s.nextToken+1) (begun : ∀ family ∈ next.families, family.1 < next.nextFamily)
    (owner : ∀ a ∈ next.families, ∀ b ∈ next.families, a.1 = b.1 → a = b) (grows : ∀ family ∈ s.families, family ∈ next.families)
    (known : (new.familyId,new.userId) ∈ next.families) (alone : ∀ old ∈ s.tokens, old.familyId = new.familyId → old.consumedAt ≠ none)
    (used : ∀ e ∈ next.exchanges, e.token < s.nextToken ∧ ∀ row ∈ s.tokens, row.id = e.token → row.consumedAt ≠ none)
    (onceEach : (next.exchanges.map Exchange.token).Nodup) : Once next := by
  have cases_ : ∀ row ∈ next.tokens, row ∈ s.tokens ∨ row = new := by
    intro row member
    rw [tokens] at member
    exact (List.mem_append.mp member).imp_right List.mem_singleton.mp
  have stays : ∀ row ∈ s.tokens, row ∈ next.tokens := fun row member => tokens ▸ List.mem_append_left _ member
  refine ⟨?_,?_,?_,begun,owner,?_,?_,?_,?_,?_,?_,onceEach,?_⟩
  · rw [tokens,List.map_append,List.map_singleton,← List.concat_eq_append]
    apply once.ids.concat
    intro member
    obtain ⟨old,there,same⟩ := List.mem_map.mp member
    have below := once.fresh old there
    omega
  · intro row member
    rcases cases_ row member with old | rfl
    · have below := once.fresh row old
      omega
    · omega
  · intro row member
    rcases cases_ row member with old | rfl
    · exact grows _ (once.known row old)
    · exact known
  · rw [requests]
    intro phase there row reads
    obtain ⟨below,same⟩ := once.read phase there row reads
    refine ⟨by omega,?_⟩
    intro current member sameId
    rcases cases_ current member with old | rfl
    · exact same current old sameId
    · omega
  · rw [requests]
    intro phase there id_ holds
    obtain ⟨old,had,same⟩ := once.held phase there id_ holds
    exact ⟨old,stays old had,same⟩
  · rw [requests]
    intro phase there row writes current member sameId
    have reads : row ∈ phase.reads := by
      cases phase <;> simp [Phase.writes] at writes <;> simp [Phase.reads,writes]
    have below := (once.read phase there row reads).1
    rcases cases_ current member with old | rfl
    · exact once.unspent phase there row writes current old sameId
    · omega
  · rw [requests]
    exact once.apart
  · intro a one b two family liveA liveB
    rcases cases_ a one with oldA | rfl
    · rcases cases_ b two with oldB | rfl
      · exact once.live a oldA b oldB family liveA liveB
      · exact absurd liveA (alone a oldA family)
    · rcases cases_ b two with oldB | rfl
      · exact absurd liveB (alone b oldB family.symm)
      · rfl
  · rw [nextToken]
    intro e spent
    obtain ⟨below,consumed⟩ := used e spent
    refine ⟨by omega,?_⟩
    intro row member same
    rcases cases_ row member with old | rfl
    · exact consumed row old same
    · omega
  · rw [requests,nextToken]
    intro removal seen remaining deleted there id_ listed
    obtain ⟨below,rest⟩ := once.seen removal seen remaining deleted there id_ listed
    refine ⟨by omega,rest.imp_right (Or.imp_right ?_)⟩
    intro gone row member same
    rcases cases_ row member with old | rfl
    · exact gone row old same
    · omega

theorem mem_consume {id : Nat} {now : Int} {tokens : List RefreshToken} (member : row ∈ consume id now tokens) :
    ∃ old ∈ tokens, old.id = id ∧ row = {old with consumedAt := some now} ∨ old.id ≠ id ∧ row = old := by
  obtain ⟨old,there,rfl⟩ := List.mem_map.mp member
  refine ⟨old,there,?_⟩
  by_cases same : old.id = id
  · rw [if_pos same]
    exact .inl ⟨same,rfl⟩
  · rw [if_neg same]
    exact .inr ⟨same,rfl⟩

theorem consume_ids (id : Nat) (now : Int) (tokens : List RefreshToken) :
    (consume id now tokens).map RefreshToken.id = tokens.map RefreshToken.id := by
  unfold consume
  rw [List.map_map]
  apply List.map_congr_left
  intro row _
  dsimp only [Function.comp]
  split <;> rfl

theorem mem_consume_of_ne {id : Nat} (now : Int) {tokens : List RefreshToken} (there : row ∈ tokens) (apart : row.id ≠ id) :
    row ∈ consume id now tokens := by
  have image := List.mem_map_of_mem (f := fun row : RefreshToken => if row.id = id then {row with consumedAt := some now} else row) there
  rw [if_neg apart] at image
  exact image

-- The consumption of the row request k holds, once k is over.
theorem Once.consumed (once : Once s) {at_ : Int} {active : Bool} (found : s.requests[k]? = some (.exchanging row at_ active)) (answer : Answer) :
    Once {setPhase s k (.over answer) with tokens := consume row.id at_ s.tokens} := by
  refine (once.closes found answer).rewritten rfl rfl rfl rfl rfl ?_ ?_ ?_
  · rw [consume_ids]
    exact List.Sublist.refl _
  · intro current member
    obtain ⟨old,there,⟨_,rfl⟩ | ⟨_,rfl⟩⟩ := mem_consume member
    · exact ⟨old,there,rfl,rfl,rfl,nofun⟩
    · exact ⟨_,there,rfl,rfl,rfl,fun _ => rfl⟩
  · intro phase there id holds old known same
    apply mem_consume_of_ne at_ known
    rcases mem_setPhase there with rfl | ⟨j,apart,foundAt⟩
    · cases holds
    · intro mine
      apply once.apart j k phase _ foundAt found apart id holds
      exact List.mem_singleton.mpr (same.symm.trans mine)

theorem Once.exchanging_row (once : Once s) {at_ : Int} {active : Bool} (there : .exchanging row at_ active ∈ s.requests) :
    ∃ current ∈ s.tokens, current.id = row.id ∧ current.familyId = row.familyId ∧ current.userId = row.userId ∧ current.consumedAt = none := by
  obtain ⟨current,known,same⟩ := once.held _ there row.id (List.mem_singleton_self _)
  obtain ⟨family,user⟩ := (once.read _ there row rfl).2 current known same
  exact ⟨current,known,same,family,user,once.unspent _ there row rfl current known same⟩

theorem Once.exchanged (once : Once s) {at_ expiresAt : Int} {active : Bool} (found : s.requests[k]? = some (.exchanging row at_ active)) :
    Once (exchange s k row at_ expiresAt) := by
  obtain ⟨current,known,same,family,user,open_⟩ := once.exchanging_row (List.mem_of_getElem? found)
  have consumed := once.consumed found (.session s.nextToken)
  have below : row.id < s.nextToken := same ▸ once.fresh current known
  have marked : ∀ other ∈ consume row.id at_ s.tokens, other.id = row.id → other.consumedAt ≠ none := by
    intro other member id
    obtain ⟨old,_,⟨_,rfl⟩ | ⟨apart,rfl⟩⟩ := mem_consume member
    · exact nofun
    · exact absurd id apart
  refine consumed.adds rfl rfl rfl rfl once.begun once.owner (fun _ member => member) ?_ ?_ ?_ ?_
  · have owned := once.known current known
    rw [family,user] at owned
    exact owned
  · intro old member mine
    obtain ⟨was,there,⟨_,rfl⟩ | ⟨apart,rfl⟩⟩ := mem_consume member
    · exact nofun
    · intro unspent
      have equal := once.live _ there current known (mine.trans family.symm) unspent open_
      exact apart ((congrArg RefreshToken.id equal).trans same)
  · intro e member
    rcases List.mem_append.mp member with old | new
    · exact consumed.used e old
    · cases List.mem_singleton.mp new
      exact ⟨below,marked⟩
  · change ((s.exchanges ++ [_]).map Exchange.token).Nodup
    rw [List.map_append,List.map_singleton,← List.concat_eq_append]
    apply once.once.concat
    intro member
    obtain ⟨e,spent,id⟩ := List.mem_map.mp member
    exact (once.used e spent).2 current known (same.trans id.symm) open_

theorem Once.begins (once : Once s) (found : s.requests[k]? = some before) (userId : String) (expiresAt : Int) :
    Once (beginFamily s k userId expiresAt) := by
  refine (once.closes found (.session s.nextToken)).adds rfl rfl rfl rfl ?_ ?_ ?_ ?_ ?_ ?_ ?_
  · intro family member
    rcases List.mem_append.mp member with old | new
    · exact Nat.lt_succ_of_lt (once.begun family old)
    · cases List.mem_singleton.mp new
      exact Nat.lt_succ_self _
  · intro a one b two same
    rcases List.mem_append.mp one with oldA | newA
    · rcases List.mem_append.mp two with oldB | newB
      · exact once.owner a oldA b oldB same
      · cases List.mem_singleton.mp newB
        exact absurd same (Nat.ne_of_lt (once.begun a oldA))
    · cases List.mem_singleton.mp newA
      rcases List.mem_append.mp two with oldB | newB
      · exact absurd same.symm (Nat.ne_of_lt (once.begun b oldB))
      · exact (List.mem_singleton.mp newB).symm
  · exact fun _ member => List.mem_append_left _ member
  · exact List.mem_append_right _ (List.mem_singleton_self _)
  · intro old member same
    have below := once.begun _ (once.known old member)
    exact absurd same (Nat.ne_of_lt below)
  · exact once.used
  · exact once.once

-- The rows request k has deleted go, and nobody else holds one of them.
theorem Once.removes (once : Once s) {removal : Removal} {seen remaining deleted : List Nat}
    (found : s.requests[k]? = some (.removing removal seen remaining deleted)) (answer : Answer) :
    Once (setPhase (removed s removal deleted) k (.over answer)) := by
  refine (once.closes found answer).rewritten rfl rfl rfl rfl rfl ?_ ?_ ?_
  · exact List.filter_sublist.map _
  · intro row member
    exact ⟨row,(List.mem_filter.mp member).1,rfl,rfl,rfl,fun _ => rfl⟩
  · intro phase there id holds old known same
    rcases mem_setPhase there with rfl | ⟨j,apart,foundAt⟩
    · cases holds
    · refine List.mem_filter.mpr ⟨known,?_⟩
      have elsewhere := once.apart j k phase _ foundAt found apart id holds
      rw [same]
      exact decide_eq_true elsewhere

theorem beginFamily_setPhase (s : SignInState) (k : Nat) (phase : Phase) (userId : String) (expiresAt : Int) :
    beginFamily (setPhase s k phase) k userId expiresAt = beginFamily s k userId expiresAt := by
  unfold beginFamily setPhase
  simp only [List.set_set]

theorem Once.joined (once : Once s) {phase : Phase} (enters : Enters s phase) (holds : phase.holds = []) :
    Once {s with requests := s.requests ++ [phase]} := by
  have one : ∀ other ∈ s.requests ++ [phase], Enters s other := by
    intro other member
    rcases List.mem_append.mp member with old | new
    · exact once.enters old
    · exact List.mem_singleton.mp new ▸ enters
  refine ⟨once.ids,once.fresh,once.known,once.begun,once.owner,fun other member => (one other member).read,fun other member => (one other member).held,
    fun other member => (one other member).unspent,?_,once.live,once.used,once.once,fun removal seen remaining deleted member =>
      (one _ member).seen removal seen remaining deleted rfl⟩
  intro i j a b foundA foundB apart id inA inB
  have old : ∀ (j : Nat) (other : Phase), (s.requests ++ [phase])[j]? = some other → id ∈ other.holds → s.requests[j]? = some other := by
    intro j other found taken
    rw [List.getElem?_append] at found
    split at found
    · exact found
    · have same := List.mem_singleton.mp (List.mem_of_getElem? found)
      rw [same,holds] at taken
      exact absurd taken List.not_mem_nil
  exact once.apart i j a b (old i a foundA inA) (old j b foundB inB) apart id inA inB

theorem begun_enters (once : Once s) (request : Request) : Enters s (begun s request) ∧ (begun s request).holds = [] := by
  cases request with
  | refresh token now =>
    dsimp only [begun,refresh]
    split
    · exact ⟨.idle s rfl rfl rfl nofun,rfl⟩
    · rename_i row found
      obtain ⟨there,_⟩ := tokenAt_parts found
      split
      · split <;> exact ⟨.idle s rfl rfl rfl nofun,rfl⟩
      · split
        · exact ⟨.idle s rfl rfl rfl nofun,rfl⟩
        · refine ⟨⟨?_,fun _ member => absurd member List.not_mem_nil,nofun,nofun⟩,rfl⟩
          intro read same
          cases same
          refine ⟨once.fresh row there,?_⟩
          intro current member id
          rw [token_same once member there id]
          exact ⟨rfl,rfl⟩
  | login userId password =>
    dsimp only [begun,login]
    split
    · split <;> exact ⟨.idle s rfl rfl rfl nofun,rfl⟩
    · exact ⟨.idle s rfl rfl rfl nofun,rfl⟩
  | logout token =>
    dsimp only [begun,logout]
    split <;> exact ⟨.idle s rfl rfl rfl nofun,rfl⟩
  | changePassword userId currentPassword newPassword =>
    dsimp only [begun,changePassword]
    split
    · exact ⟨.idle s rfl rfl rfl nofun,rfl⟩
    · split
      · exact ⟨.idle s rfl rfl rfl nofun,rfl⟩
      · split
        · exact ⟨.idle s rfl rfl rfl nofun,rfl⟩
        · split <;> exact ⟨.idle s rfl rfl rfl nofun,rfl⟩
  | resetUserPassword userId rawPassword =>
    dsimp only [begun,resetUserPassword]
    split <;> exact ⟨.idle s rfl rfl rfl nofun,rfl⟩
  | deactivateUser userId now =>
    dsimp only [begun,deactivateUser]
    split
    · split <;> exact ⟨.idle s rfl rfl rfl nofun,rfl⟩
    · exact ⟨.idle s rfl rfl rfl nofun,rfl⟩
  | purgeExpiredRefreshTokens now => exact ⟨.idle s rfl rfl rfl nofun,rfl⟩

theorem Once.spends (once : Once s) (taken : spend s k = some next) : Once next := by
  unfold spend at taken
  split at taken
  · rename_i row now found
    have reading := once.enters (List.mem_of_getElem? found)
    split at taken
    · rename_i open_
      obtain ⟨current,there,unspent⟩ := (Option.any_eq_true _ _).mp open_
      obtain ⟨known,same⟩ := tokenAt_parts there
      split at taken
      · cases taken
      · rename_i free
        cases taken
        have free : locked s row.id = false := by simpa using free
        refine once.phased found ⟨reading.read,?_,?_,nofun⟩ ?_
        · intro id holds
          exact ⟨current,known,same.trans (List.mem_singleton.mp holds).symm⟩
        · intro written writes other member id
          cases writes
          rw [token_same once member known (id.trans same.symm)]
          exact of_decide_eq_true unspent
        · intro id holds
          exact .inr (List.mem_singleton.mp holds ▸ free)
    · cases taken
      exact once.closes found _
  · cases taken

theorem Once.readsUser (once : Once s) (taken : readUser s k = some next) : Once next := by
  unfold readUser at taken
  split at taken
  · rename_i row now found
    cases taken
    have spent := once.enters (List.mem_of_getElem? found)
    exact once.phased found ⟨spent.read,spent.held,spent.unspent,nofun⟩ (fun _ holds => .inl holds)
  · cases taken

theorem Once.startsDelete (once : Once s) (taken : startDelete s k = some next) : Once next := by
  unfold startDelete at taken
  split at taken
  · rename_i removal found
    cases taken
    refine once.phased found ⟨nofun,fun _ member => absurd member List.not_mem_nil,nofun,?_⟩ (fun _ member => absurd member List.not_mem_nil)
    intro why seen remaining deleted same id listed
    cases same
    obtain ⟨row,covered,rfl⟩ := List.mem_map.mp listed
    exact ⟨once.fresh row (List.mem_filter.mp covered).1,.inl listed⟩
  · cases taken

theorem Once.deletesRow (once : Once s) {id : Nat} (taken : deleteRow s k id = some next) : Once next := by
  unfold deleteRow at taken
  split at taken
  · rename_i removal seen remaining deleted found
    simp only [Option.ite_none_right_eq_some,Option.some.injEq] at taken
    obtain ⟨⟨_,free⟩,rfl⟩ := taken
    have removing := once.enters (List.mem_of_getElem? found)
    have grown : ∀ other ∈ deleted, other ∈ (if (tokenAt s id).isSome then id :: deleted else deleted) := by
      intro other member
      split
      · exact List.mem_cons_of_mem _ member
      · exact member
    have mine : ∀ other ∈ (if (tokenAt s id).isSome then id :: deleted else deleted), other ∈ deleted ∨ other = id ∧ (tokenAt s id).isSome := by
      intro other member
      split at member
      · rename_i there
        exact (List.mem_cons.mp member).elim (fun same => .inr ⟨same,there⟩) .inl
      · exact .inl member
    refine once.phased found ⟨nofun,?_,nofun,?_⟩ ?_
    · intro other holds
      rcases mine other holds with old | ⟨rfl,there⟩
      · exact removing.held other old
      · obtain ⟨row,found_⟩ := Option.isSome_iff_exists.mp there
        exact ⟨row,tokenAt_parts found_⟩
    · intro why seen_ remaining_ deleted_ same other listed
      cases same
      obtain ⟨below,rest⟩ := removing.seen _ _ _ _ rfl other listed
      refine ⟨below,?_⟩
      rcases rest with left_ | gone
      · by_cases same : other = id
        · subst same
          cases there : tokenAt s other with
          | none => exact .inr (.inr (tokenAt_none there))
          | some row => exact .inr (.inl List.mem_cons_self)
        · exact .inl ((List.mem_erase_of_ne same).mpr left_)
      · exact .inr (gone.imp_left (grown other))
    · intro other holds
      rcases mine other holds with old | ⟨rfl,_⟩
      · exact .inl old
      · exact .inr free
  · cases taken

theorem commit_parts {now : Int} (taken : commit lifetime s k now = some next) :
    (∃ userId, s.requests[k]? = some (.signingIn userId) ∧ next = beginFamily s k userId (now+lifetime)) ∨
    (∃ row at_, s.requests[k]? = some (.exchanging row at_ true) ∧ next = exchange s k row at_ (now+lifetime)) ∨
    (∃ row at_, s.requests[k]? = some (.exchanging row at_ false) ∧
      next = {setPhase s k (.over (.refused .refreshTokenInvalid)) with tokens := consume row.id at_ s.tokens}) ∨
    ∃ removal seen deleted, s.requests[k]? = some (.removing removal seen [] deleted) ∧
      (next = setPhase (removed s removal deleted) k (.over removal.answer) ∨
        ∃ userId newPassword, removal = .passwordChanged userId newPassword ∧ next = beginFamily (removed s removal deleted) k userId (now+lifetime)) := by
  unfold commit at taken
  split at taken
  · rename_i userId found
    exact .inl ⟨userId,found,(Option.some.inj taken).symm⟩
  · rename_i row at_ found
    exact .inr (.inl ⟨row,at_,found,(Option.some.inj taken).symm⟩)
  · rename_i row at_ found
    exact .inr (.inr (.inl ⟨row,at_,found,(Option.some.inj taken).symm⟩))
  · rename_i userId newPassword seen deleted found
    exact .inr (.inr (.inr ⟨_,seen,deleted,found,.inr ⟨userId,newPassword,rfl,(Option.some.inj taken).symm⟩⟩))
  · rename_i removal seen deleted _ found
    exact .inr (.inr (.inr ⟨removal,seen,deleted,found,.inl (Option.some.inj taken).symm⟩))
  · cases taken

theorem Once.commits (once : Once s) {now : Int} (taken : commit lifetime s k now = some next) : Once next := by
  rcases commit_parts taken with ⟨userId,found,rfl⟩ | ⟨row,at_,found,rfl⟩ | ⟨row,at_,found,rfl⟩ | ⟨removal,seen,deleted,found,rfl | ⟨userId,_,_,rfl⟩⟩
  · exact once.begins found userId _
  · exact once.exchanged found
  · exact once.consumed found _
  · exact once.removes found _
  · have gone := once.removes found removal.answer
    have bound := (List.getElem?_eq_some_iff.mp found).1
    have closed : (setPhase (removed s removal deleted) k (.over removal.answer)).requests[k]? = some (.over removal.answer) :=
      List.getElem?_set_self bound
    rw [← beginFamily_setPhase _ _ (.over removal.answer)]
    exact gone.begins closed userId _

theorem Once.preserved (once : Once s) {op : Operation} (taken : step lifetime s op = some next) : Once next := by
  cases op with
  | begin request =>
    cases taken
    obtain ⟨enters,holds⟩ := begun_enters once request
    exact once.joined enters holds
  | spend k => exact once.spends taken
  | readUser k => exact once.readsUser taken
  | startDelete k => exact once.startsDelete taken
  | deleteRow k id => exact once.deletesRow taken
  | commit k now => exact once.commits taken
  | rollback k =>
    simp only [step,rollback] at taken
    split at taken
    · cases taken
    · rename_i found
      cases taken
      exact once.closes found _
    · cases taken
  | reactivateUser userId =>
    cases taken
    exact ⟨once.ids,once.fresh,once.known,once.begun,once.owner,once.read,once.held,once.unspent,once.apart,once.live,once.used,once.once,once.seen⟩

end ChronosLedger.SignIns
