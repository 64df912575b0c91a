import ChronosLedger.EndedFamilies

namespace ChronosLedger.SignIns

variable {lifetime : Int} {s next : SignInState} {k : Nat} {before after : Phase}

-- A request that found its token consumed long enough ago to end the family.
def Phase.reuses : Phase → Bool
  | .deleting (.reused _) => true
  | .removing (.reused _) _ _ _ => true
  | .over (.refused .refreshTokenReused) => true
  | _ => false

def Phase.settled : Phase → Bool
  | .over _ => true
  | _ => false

-- What a step makes of one request. It reads no other row, and nothing is consumed
-- but the row it had read.
structure Advanced (s next : SignInState) (k : Nat) (before after : Phase) : Prop where
  found : s.requests[k]? = some before
  requests : next.requests = s.requests.set k after
  unsettled : before.settled = false
  reads : ∀ row ∈ after.reads, row ∈ before.reads
  reuses : after.reuses = true → before.reuses = true
  mints : next.nextToken = s.nextToken ∧ (∀ token, after ≠ .over (.session token)) ∨
    next.nextToken = s.nextToken+1 ∧ after = .over (.session s.nextToken)
  rows : ∀ row ∈ next.tokens, (row.consumedAt = none ∧ after = .over (.session row.id)) ∨
    ∃ old ∈ s.tokens, old.id = row.id ∧ (row.consumedAt ≠ none → old.consumedAt ≠ none ∨ ∃ read ∈ before.reads, read.id = row.id)

-- A request goes on and the table stays as it is.
theorem phased_advances (found : s.requests[k]? = some before) (unsettled : before.settled = false)
    (reads : ∀ row ∈ after.reads, row ∈ before.reads) (reuses : after.reuses = true → before.reuses = true)
    (mints : ∀ token, after ≠ .over (.session token)) : Advanced s (setPhase s k after) k before after :=
  ⟨found,rfl,unsettled,reads,reuses,.inl ⟨rfl,mints⟩,fun row member => .inr ⟨row,member,rfl,fun consumed => .inl consumed⟩⟩

theorem spend_advances (taken : spend s k = some next) : ∃ before after, Advanced s next k before after := by
  unfold spend at taken
  split at taken
  · rename_i row now found
    split at taken
    · split at taken
      · cases taken
      · cases taken
        exact ⟨_,_,phased_advances found rfl (fun _ reads => reads) nofun nofun⟩
    · cases taken
      exact ⟨_,_,phased_advances found rfl nofun nofun nofun⟩
  · cases taken

theorem answer_reuses {removal : Removal} {seen remaining deleted : List Nat} (reused : (Phase.over removal.answer).reuses = true) :
    (Phase.removing removal seen remaining deleted).reuses = true := by
  cases removal <;> first | rfl | cases reused

theorem removed_rows (removal : Removal) {deleted : List Nat} {row : RefreshToken} (member : row ∈ (removed s removal deleted).tokens) :
    row ∈ s.tokens := List.mem_of_mem_filter member

theorem commit_advances {now : Int} (taken : commit lifetime s k now = some next) : ∃ before after, Advanced s next k before after := by
  rcases commit_parts taken with ⟨userId,found,rfl⟩ | ⟨row,at_,found,rfl⟩ | ⟨row,at_,found,rfl⟩ | ⟨removal,seen,deleted,found,rfl | ⟨userId,_,_,rfl⟩⟩
  · refine ⟨_,_,found,rfl,rfl,nofun,nofun,.inr ⟨rfl,rfl⟩,?_⟩
    intro row member
    rcases List.mem_append.mp member with old | new
    · exact .inr ⟨row,old,rfl,fun consumed => .inl consumed⟩
    · cases List.mem_singleton.mp new
      exact .inl ⟨rfl,rfl⟩
  · refine ⟨_,_,found,rfl,rfl,nofun,nofun,.inr ⟨rfl,rfl⟩,?_⟩
    intro current member
    rcases List.mem_append.mp member with old | new
    · obtain ⟨was,there,⟨same,rfl⟩ | ⟨_,rfl⟩⟩ := mem_consume old
      · exact .inr ⟨was,there,rfl,fun _ => .inr ⟨row,rfl,same.symm⟩⟩
      · exact .inr ⟨_,there,rfl,fun consumed => .inl consumed⟩
    · cases List.mem_singleton.mp new
      exact .inl ⟨rfl,rfl⟩
  · refine ⟨_,_,found,rfl,rfl,nofun,nofun,.inl ⟨rfl,nofun⟩,?_⟩
    intro current member
    obtain ⟨was,there,⟨same,rfl⟩ | ⟨_,rfl⟩⟩ := mem_consume member
    · exact .inr ⟨was,there,rfl,fun _ => .inr ⟨row,rfl,same.symm⟩⟩
    · exact .inr ⟨_,there,rfl,fun consumed => .inl consumed⟩
  · refine ⟨_,_,found,rfl,rfl,nofun,answer_reuses,.inl ⟨rfl,?_⟩,?_⟩
    · cases removal <;> exact nofun
    · exact fun row member => .inr ⟨row,removed_rows removal member,rfl,fun consumed => .inl consumed⟩
  · refine ⟨_,_,found,rfl,rfl,nofun,nofun,.inr ⟨rfl,rfl⟩,?_⟩
    intro row member
    rcases List.mem_append.mp member with old | new
    · exact .inr ⟨row,removed_rows removal old,rfl,fun consumed => .inl consumed⟩
    · cases List.mem_singleton.mp new
      exact .inl ⟨rfl,rfl⟩

-- What a step can do to the requests.
theorem step_advances {op : Operation} (taken : step lifetime s op = some next) :
    (∃ request, op = .begin request ∧ next = {s with requests := s.requests ++ [begun s request]}) ∨
    (∃ k before after, Advanced s next k before after) ∨
    next.requests = s.requests ∧ next.tokens = s.tokens ∧ next.nextToken = s.nextToken := by
  cases op with
  | begin request => exact .inl ⟨request,rfl,(Option.some.inj taken).symm⟩
  | spend k => exact .inr (.inl ⟨k,spend_advances taken⟩)
  | readUser k =>
    simp only [step,readUser] at taken
    split at taken
    · rename_i found
      cases taken
      refine .inr (.inl ⟨k,_,_,phased_advances found rfl (fun _ reads => reads) (fun reused => absurd reused Bool.false_ne_true) ?_⟩)
      intro token same
      cases same
    · cases taken
  | startDelete k =>
    simp only [step,startDelete] at taken
    split at taken
    · rename_i removal found
      cases taken
      refine .inr (.inl ⟨k,_,_,phased_advances found rfl (fun _ reads => absurd reads (Option.not_mem_none _)) ?_ ?_⟩)
      · intro reused
        cases removal <;> first | rfl | cases reused
      · intro token same
        cases same
    · cases taken
  | deleteRow k id =>
    simp only [step,deleteRow] at taken
    split at taken
    · rename_i removal seen remaining deleted found
      split at taken
      · cases taken
        refine .inr (.inl ⟨k,_,_,phased_advances found rfl (fun _ reads => absurd reads (Option.not_mem_none _)) ?_ ?_⟩)
        · intro reused
          cases removal <;> first | rfl | cases reused
        · intro token same
          cases same
      · cases taken
    · cases taken
  | commit k now => exact .inr (.inl ⟨k,commit_advances taken⟩)
  | rollback k =>
    simp only [step,rollback] at taken
    split at taken
    · cases taken
    · rename_i phase unsettled found
      cases taken
      refine .inr (.inl ⟨k,_,_,phased_advances found ?_ (fun _ reads => absurd reads (Option.not_mem_none _))
        (fun reused => absurd reused Bool.false_ne_true) ?_⟩)
      · cases phase <;> first | rfl | exact absurd rfl (unsettled _)
      · intro token same
        cases same
    · cases taken
  | reactivateUser userId =>
    cases taken
    exact .inr (.inr ⟨rfl,rfl,rfl⟩)

-- A request that has just begun has minted nothing, and one that found its token
-- reused, or read a row, was asked to refresh it.
theorem begun_parts (s : SignInState) (request : Request) : (∀ token, begun s request ≠ .over (.session token)) ∧
    ((begun s request).reuses = true → ∃ token now, request = .refresh token now ∧
      ∃ row ∈ s.tokens, row.id = token ∧ row.consumedAt ≠ none) ∧
    ∀ row ∈ (begun s request).reads, ∃ now, request = .refresh row.id now ∧ row ∈ s.tokens := by
  cases request with
  | login userId password =>
    unfold begun login
    dsimp only
    split
    · split <;> exact ⟨nofun,nofun,nofun⟩
    · exact ⟨nofun,nofun,nofun⟩
  | refresh token now =>
    unfold begun refresh
    dsimp only
    split
    · exact ⟨nofun,nofun,nofun⟩
    · rename_i row found
      obtain ⟨there,id⟩ := tokenAt_parts found
      cases consumed : row.consumedAt with
      | some at_ =>
        dsimp only
        split
        · exact ⟨nofun,fun _ => ⟨token,now,rfl,row,there,id,by simp [consumed]⟩,nofun⟩
        · exact ⟨nofun,nofun,nofun⟩
      | none =>
        dsimp only
        split
        · exact ⟨nofun,nofun,nofun⟩
        · refine ⟨nofun,nofun,?_⟩
          intro other read
          cases Option.some.inj read
          exact ⟨now,by rw [id],there⟩
  | logout token =>
    unfold begun logout
    dsimp only
    split <;> exact ⟨nofun,nofun,nofun⟩
  | changePassword userId currentPassword newPassword =>
    unfold begun changePassword
    dsimp only
    split
    · exact ⟨nofun,nofun,nofun⟩
    · split
      · exact ⟨nofun,nofun,nofun⟩
      · split
        · exact ⟨nofun,nofun,nofun⟩
        · split <;> exact ⟨nofun,nofun,nofun⟩
  | resetUserPassword userId rawPassword =>
    unfold begun resetUserPassword
    dsimp only
    split <;> exact ⟨nofun,nofun,nofun⟩
  | deactivateUser userId now =>
    unfold begun deactivateUser
    dsimp only
    split
    · split <;> exact ⟨nofun,nofun,nofun⟩
    · exact ⟨nofun,nofun,nofun⟩
  | purgeExpiredRefreshTokens now => exact ⟨nofun,nofun,nofun⟩

-- Every token is the answer to one request, which stays answered with it.
structure Minted (s : SignInState) : Prop where
  below : ∀ (k token : Nat), s.requests[k]? = some (Phase.over (.session token)) → token < s.nextToken
  once : ∀ (j k token : Nat), s.requests[j]? = some (Phase.over (.session token)) → s.requests[k]? = some (Phase.over (.session token)) → j = k
  from_ : ∀ row ∈ s.tokens, ∃ k : Nat, s.requests[k]? = some (Phase.over (.session row.id))

theorem Advanced.at_ (advanced : Advanced s next k before after) (j : Nat) :
    next.requests[j]? = if k = j then some after else s.requests[j]? := by
  have bound := (List.getElem?_eq_some_iff.mp advanced.found).1
  rw [advanced.requests,List.getElem?_set]
  split
  · rename_i same
    cases same
    rfl
  · rfl

-- What is answered stays answered.
theorem Advanced.keeps (advanced : Advanced s next k before after) {j : Nat} {answer : Answer}
    (answered : s.requests[j]? = some (.over answer)) : next.requests[j]? = some (.over answer) := by
  rw [advanced.at_,if_neg]
  · exact answered
  · intro same
    cases same
    cases advanced.found.symm.trans answered
    cases advanced.unsettled

theorem Minted.advances (minted : Minted s) (advanced : Advanced s next k before after) : Minted next := by
  have named : ∀ (j token : Nat), next.requests[j]? = some (Phase.over (.session token)) →
      k = j ∧ token = s.nextToken ∧ next.nextToken = s.nextToken+1 ∨ s.requests[j]? = some (Phase.over (.session token)) ∧ token < s.nextToken := by
    intro j token answered
    rw [advanced.at_] at answered
    split at answered
    · rename_i same
      cases Option.some.inj answered
      rcases advanced.mints with ⟨_,other⟩ | ⟨more,is⟩
      · exact absurd rfl (other token)
      · cases is
        exact .inl ⟨same,rfl,more⟩
    · exact .inr ⟨answered,minted.below j token answered⟩
  have grows : s.nextToken ≤ next.nextToken := by
    rcases advanced.mints with ⟨same,_⟩ | ⟨more,_⟩ <;> omega
  refine ⟨?_,?_,?_⟩
  · intro j token answered
    rcases named j token answered with ⟨_,rfl,more⟩ | ⟨_,below⟩ <;> omega
  · intro i j token one two
    rcases named i token one with ⟨atOne,isOne,_⟩ | ⟨oldOne,belowOne⟩ <;> rcases named j token two with ⟨atTwo,isTwo,_⟩ | ⟨oldTwo,belowTwo⟩
    · exact atOne.symm.trans atTwo
    · omega
    · omega
    · exact minted.once i j token oldOne oldTwo
  · intro row member
    rcases advanced.rows row member with ⟨_,is⟩ | ⟨old,there,same,_⟩
    · exact ⟨k,by rw [advanced.at_,if_pos rfl,is]⟩
    · obtain ⟨j,answered⟩ := minted.from_ old there
      exact ⟨j,same ▸ advanced.keeps answered⟩

theorem joined_at {phase : Phase} (j : Nat) : (s.requests ++ [phase])[j]? =
    if j < s.requests.length then s.requests[j]? else if j = s.requests.length then some phase else none := by
  split
  · rename_i bound
    exact List.getElem?_append_left bound
  · rename_i bound
    rw [List.getElem?_append_right (by omega)]
    split
    · rename_i last
      simp [last]
    · rename_i last
      exact List.getElem?_eq_none (by simp only [List.length_singleton]; omega)

theorem joined_old {phase moved : Phase} {j : Nat} (found : s.requests[j]? = some moved) : (s.requests ++ [phase])[j]? = some moved := by
  have bound := (List.getElem?_eq_some_iff.mp found).1
  rw [joined_at,if_pos bound]
  exact found

theorem joined_cases {phase moved : Phase} {j : Nat} (found : (s.requests ++ [phase])[j]? = some moved) :
    s.requests[j]? = some moved ∨ j = s.requests.length ∧ moved = phase := by
  rw [joined_at] at found
  split at found
  · exact .inl found
  · split at found
    · rename_i last
      exact .inr ⟨last,(Option.some.inj found).symm⟩
    · cases found

theorem Minted.joins (minted : Minted s) {phase : Phase} (plain : ∀ token, phase ≠ Phase.over (.session token)) :
    Minted {s with requests := s.requests ++ [phase]} := by
  have old : ∀ (j token : Nat), (s.requests ++ [phase])[j]? = some (Phase.over (.session token)) → s.requests[j]? = some (Phase.over (.session token)) := by
    intro j token found
    rcases joined_cases found with old | ⟨_,new⟩
    · exact old
    · exact absurd new.symm (plain token)
  refine ⟨fun j token found => minted.below j token (old j token found),
    fun i j token one two => minted.once i j token (old i token one) (old j token two),?_⟩
  intro row member
  obtain ⟨j,found⟩ := minted.from_ row member
  exact ⟨j,joined_old found⟩

theorem start_minted (accounts : List Account) : Minted (.start accounts) :=
  ⟨fun _ _ found => by simp [SignInState.start] at found,fun _ _ _ found => by simp [SignInState.start] at found,nofun⟩

end ChronosLedger.SignIns
