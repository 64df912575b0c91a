import ChronosLedger.DeliveryOrder

namespace ChronosLedger.Webhooks
open ChangeFeed

variable {drawn : Nat → Nat → Nat} {s next : World} {sub : WebhookSubscription} {d : WebhookDelivery} {k : Nat} {claim : Claim}

-- No two claims of one delivery write the same lease.
def LeasesDistinct (s : World) : Operation → Prop
  | .claimDue => ∀ row ∈ dueRows s, ∀ claim ∈ s.claims, claim.outgoing.deliveryId = row.1.id → claim.outgoing.lease ≠ s.now+claimLease
  | _ => True

-- What a recorded attempt leaves as the next one's time, when it leaves one.
def retryAt (drawn : Nat → Nat → Nat) : Phase → Option Int
  | .read outcome attemptCount eventId _ now =>
    if outcome.succeeded ∨ maxAttempts ≤ attemptCount+1 then none else some (now+backoff drawn eventId (attemptCount+1))
  | _ => none

-- Nothing but a claim sets the next attempt to the instant at which the lease of
-- a claim not yet written down ends: no redelivery then, and no retry.
def ClearOfLeases (drawn : Nat → Nat → Nat) (s : World) : Operation → Prop
  | .redeliverWebhook _ id => ∀ claim ∈ s.claims, claim.phase ≠ .over → claim.outgoing.deliveryId = id → claim.outgoing.lease ≠ s.now
  | .recordWrite k => ∀ claim ∈ s.claims[k]?, ∀ at_ ∈ retryAt drawn claim.phase, ∀ other ∈ s.claims, other.replaced = true → other.phase ≠ .over →
      other.outgoing.deliveryId = claim.outgoing.deliveryId → other.outgoing.lease ≠ at_
  | _ => True

instance (s : World) (op : Operation) : Decidable (LeasesDistinct s op) := by
  induction op using Operation.casesOn <;> unfold LeasesDistinct <;> infer_instance

instance (s : World) (op : Operation) : Decidable (ClearOfLeases drawn s op) := by
  induction op using Operation.casesOn <;> unfold ClearOfLeases <;> infer_instance

def Sane (d : WebhookDelivery) : Prop :=
  match d.status with
  | .pending => d.attemptCount < maxAttempts ∧ d.nextAttemptAt ≠ none ∧ d.completedAt = none
  | .succeeded => d.nextAttemptAt = none ∧ d.completedAt ≠ none
  | .failed => d.nextAttemptAt = none ∧ d.completedAt ≠ none ∧ d.attemptCount = maxAttempts

theorem charged_sane {outcome : Outcome} {eventId : Nat} {now : Int} (sane : Sane d) (pending : d.status = .pending) :
    Sane (charged drawn outcome (d.attemptCount+1) eventId now d) := by
  unfold Sane at sane
  rw [pending] at sane
  obtain ⟨few,_,open_⟩ := sane
  unfold charged
  split
  · exact ⟨rfl,nofun⟩
  · split
    · rename_i most
      exact ⟨rfl,nofun,Nat.le_antisymm few most⟩
    · rename_i fewer
      unfold Sane
      dsimp only
      rw [pending]
      exact ⟨Nat.lt_of_not_le fewer,nofun,open_⟩

theorem redeliver_sane : Sane (redeliver s d) := ⟨Nat.zero_lt_succ 7,nofun,rfl⟩

theorem counted_pauses {outcome : Outcome} {attempts failures : Nat} {now : Int}
    (few : sub.pausedAt = none → sub.consecutiveFailures < pauseAfterFailedDeliveries) :
    (counted outcome attempts failures now sub).pausedAt = none →
      (counted outcome attempts failures now sub).consecutiveFailures < pauseAfterFailedDeliveries := by
  unfold counted
  split
  · split
    · exact few
    · intro _
      exact Nat.zero_lt_succ 4
  · split
    · dsimp only
      split
      · nofun
      · rename_i within
        intro unpaused
        by_contra many
        exact within ⟨Nat.le_of_not_lt many,unpaused⟩
    · exact few

-- The attempts written down for a delivery are those its count has, after those
-- there were at the last redelivery. A claim that was replaced finds its lease gone.
structure Counted (s : World) : Prop where
  exact_ : Exact s.spread
  sane : ∀ d ∈ s.deliveries, Sane d
  counts : ∀ d ∈ s.deliveries, (attemptsOf s d.id).length = d.attemptsBefore+d.attemptCount
  attempted : ∀ a ∈ s.attempts, a.deliveryId < s.nextDelivery
  claimed : ∀ claim ∈ s.claims, claim.outgoing.deliveryId < s.nextDelivery
  gone : ∀ claim ∈ s.claims, claim.replaced = true → claim.phase ≠ .over → ∀ d ∈ s.deliveries, d.id = claim.outgoing.deliveryId →
    d.nextAttemptAt ≠ some claim.outgoing.lease
  written : ∀ a ∈ s.attempts, ∃ claim, s.claims[a.claim]? = some claim ∧ claim.phase = .over
  onceEach : (s.attempts.map WebhookAttempt.claim).Nodup
  pauses : ∀ sub ∈ s.subscriptions, sub.pausedAt = none → sub.consecutiveFailures < pauseAfterFailedDeliveries

theorem Counted.aside (counted : Counted s) (exact_ : Exact next.spread) (deliveries : next.deliveries = s.deliveries)
    (claims : next.claims = s.claims) (attempts : next.attempts = s.attempts) (nextDelivery : next.nextDelivery = s.nextDelivery)
    (pauses : ∀ sub ∈ next.subscriptions, sub.pausedAt = none → sub.consecutiveFailures < pauseAfterFailedDeliveries) : Counted next := by
  refine ⟨exact_,?_,?_,?_,?_,?_,?_,?_,pauses⟩
  · rw [deliveries]
    exact counted.sane
  · unfold attemptsOf
    rw [deliveries,attempts]
    exact counted.counts
  · rw [attempts,nextDelivery]
    exact counted.attempted
  · rw [claims,nextDelivery]
    exact counted.claimed
  · rw [claims,deliveries]
    exact counted.gone
  · rw [attempts,claims]
    exact counted.written
  · rw [attempts]
    exact counted.onceEach

theorem pauses_set (pauses : ∀ sub ∈ s.subscriptions, sub.pausedAt = none → sub.consecutiveFailures < pauseAfterFailedDeliveries) {id : Nat}
    {f : WebhookSubscription → WebhookSubscription}
    (kept : ∀ sub, (sub.pausedAt = none → sub.consecutiveFailures < pauseAfterFailedDeliveries) →
      (f sub).pausedAt = none → (f sub).consecutiveFailures < pauseAfterFailedDeliveries) :
    ∀ sub ∈ (setSubscription s id f).subscriptions, sub.pausedAt = none → sub.consecutiveFailures < pauseAfterFailedDeliveries := by
  intro sub member
  obtain ⟨old,there,rfl⟩ := List.mem_map.mp member
  split
  · exact kept old (pauses old there)
  · exact pauses old there

theorem fanOutOne_pauses {batch : Nat} {waits : Bool} {locked : List Nat} {id : Nat}
    (pauses : ∀ sub ∈ s.subscriptions, sub.pausedAt = none → sub.consecutiveFailures < pauseAfterFailedDeliveries) :
    ∀ sub ∈ (fanOutOne batch waits locked s id).subscriptions, sub.pausedAt = none → sub.consecutiveFailures < pauseAfterFailedDeliveries := by
  unfold fanOutOne
  split
  · split
    · unfold fanOutTo
      dsimp only
      split
      · exact pauses
      · exact pauses_set pauses (fun _ few => few)
    · exact pauses
  · exact pauses

theorem fanOut_pauses (batch : Nat) (waits : Bool) (locked ids : List Nat)
    (pauses : ∀ sub ∈ s.subscriptions, sub.pausedAt = none → sub.consecutiveFailures < pauseAfterFailedDeliveries) :
    ∀ sub ∈ (ids.foldl (fanOutOne batch waits locked) s).subscriptions, sub.pausedAt = none →
      sub.consecutiveFailures < pauseAfterFailedDeliveries := by
  induction ids generalizing s with
  | nil => exact pauses
  | cons id rest ih => exact ih (fanOutOne_pauses pauses)

theorem Counted.added (counted : Counted s) (exact_ : Exact next.spread) {made : List WebhookDelivery} (adds : Adds s next made)
    (pauses : ∀ sub ∈ next.subscriptions, sub.pausedAt = none → sub.consecutiveFailures < pauseAfterFailedDeliveries) : Counted next := by
  refine ⟨exact_,?_,?_,?_,?_,?_,?_,?_,pauses⟩
  · intro d member
    rw [adds.deliveries] at member
    rcases List.mem_append.mp member with old | new
    · exact counted.sane d old
    · obtain ⟨pending,count,due,open_,_,_⟩ := adds.fresh d new
      unfold Sane
      rw [pending,count,due]
      exact ⟨Nat.zero_lt_succ 7,nofun,open_⟩
  · intro d member
    unfold attemptsOf
    rw [adds.attempts]
    rw [adds.deliveries] at member
    rcases List.mem_append.mp member with old | new
    · exact counted.counts d old
    · obtain ⟨_,count,_,_,before,id⟩ := adds.fresh d new
      rw [count,before]
      apply List.length_eq_zero_iff.mpr
      apply List.filter_eq_nil_iff.mpr
      intro a had same
      have below := counted.attempted a had
      have same := of_decide_eq_true same
      omega
  · rw [adds.attempts]
    exact fun a had => Nat.lt_of_lt_of_le (counted.attempted a had) adds.nextDelivery
  · rw [adds.claims]
    exact fun claim there => Nat.lt_of_lt_of_le (counted.claimed claim there) adds.nextDelivery
  · rw [adds.claims]
    intro claim there replaced open_ d member id
    rw [adds.deliveries] at member
    rcases List.mem_append.mp member with old | new
    · exact counted.gone claim there replaced open_ d old id
    · have fresh := (adds.fresh d new).2.2.2.2.2
      have below := counted.claimed claim there
      omega
  · rw [adds.attempts,adds.claims]
    exact counted.written
  · rw [adds.attempts]
    exact counted.onceEach

theorem Counted.claims (counted : Counted s) (exact_ : Exact (claimDue s).spread) (distinct : LeasesDistinct s .claimDue) :
    Counted (claimDue s) := by
  refine ⟨exact_,?_,?_,counted.attempted,?_,?_,?_,counted.onceEach,counted.pauses⟩
  · intro d member
    obtain ⟨old,known,rfl⟩ := List.mem_map.mp member
    have sane := counted.sane old known
    change Sane (leased s old)
    unfold leased
    split
    · rename_i listed
      obtain ⟨row,due,same⟩ := List.mem_map.mp listed
      obtain ⟨there,_,isDue_⟩ := mem_dueRows due
      have one := delivery_same counted.exact_ there known same
      have pending := (isDue_parts isDue_).1
      rw [one] at pending
      unfold Sane at sane ⊢
      dsimp only
      rw [pending] at sane ⊢
      exact ⟨sane.1,nofun,sane.2.2⟩
    · exact sane
  · intro d member
    obtain ⟨old,known,rfl⟩ := List.mem_map.mp member
    obtain ⟨letter,_,count,_,before⟩ := leased_kept (s := s) old
    change (attemptsOf s (leased s old).id).length = (leased s old).attemptsBefore+(leased s old).attemptCount
    rw [count,before,show (leased s old).id = old.id from congrArg Letter.id letter]
    exact counted.counts old known
  · intro taken member
    rcases mem_claimDue member with ⟨claim,there,same,_⟩ | ⟨row,due,rfl⟩
    · rw [same]
      exact counted.claimed claim there
    · exact (delivery_payload counted.exact_ (mem_dueRows due).1).2.2
  · intro taken member replaced open_ d known id
    obtain ⟨old,there,rfl⟩ := List.mem_map.mp known
    have id_ : (leased s old).id = old.id := congrArg Letter.id (leased_kept old).1
    change (leased s old).id = taken.outgoing.deliveryId at id
    change (leased s old).nextAttemptAt ≠ some taken.outgoing.lease
    rw [claimDue_claims] at member
    rcases List.mem_append.mp member with before | new
    · obtain ⟨claim,held,rfl⟩ := List.mem_map.mp before
      rw [(replace_kept _ claim).2] at open_
      rw [(replace_kept _ claim).1] at id ⊢
      unfold leased
      split
      · rename_i listed
        obtain ⟨row,due,same⟩ := List.mem_map.mp listed
        have apart := distinct row due claim held (id.symm.trans (id_.trans same.symm))
        intro equal
        exact apart (Option.some.inj equal).symm
      · rename_i unlisted
        have already : claim.replaced = true := by
          unfold replace at replaced
          rw [if_neg] at replaced
          · exact replaced
          · rw [← id,id_]
            exact unlisted
        exact counted.gone claim held already open_ old there (id_.symm.trans id)
    · obtain ⟨row,_,rfl⟩ := List.mem_map.mp new
      cases replaced
  · intro a had
    obtain ⟨claim,found,closed⟩ := counted.written a had
    refine ⟨replace ((dueRows s).map (fun row => row.1.id)) claim,?_,(replace_kept _ claim).2.trans closed⟩
    have bound := (List.getElem?_eq_some_iff.mp found).1
    rw [claimDue_claims,List.getElem?_append_left (by rw [List.length_map]; exact bound),List.getElem?_map,found]
    rfl

theorem setPhase_written (phase : Phase) (counted : Counted s) (found : s.claims[k]? = some claim) (open_ : claim.phase ≠ .over) :
    ∀ a ∈ s.attempts, ∃ moved, (setPhase s k phase).claims[a.claim]? = some moved ∧ moved.phase = .over ∧ a.claim ≠ k := by
  intro a had
  obtain ⟨before,there,closed⟩ := counted.written a had
  have apart : k ≠ a.claim := by
    intro same
    rw [same] at found
    cases Option.some.inj (found.symm.trans there)
    exact open_ closed
  refine ⟨before,?_,closed,apart.symm⟩
  rw [setPhase_claims,if_neg apart]
  exact there

theorem Counted.phased (counted : Counted s) (found : s.claims[k]? = some claim) (open_ : claim.phase ≠ .over) (phase : Phase)
    (received : List Outgoing) : Counted {setPhase s k phase with received := received} := by
  have there := List.mem_of_getElem? found
  refine ⟨counted.exact_,counted.sane,counted.counts,counted.attempted,?_,?_,?_,counted.onceEach,counted.pauses⟩
  · intro moved member
    obtain ⟨before,earlier,same,_⟩ := setPhase_outgoing found member
    rw [← same]
    exact counted.claimed before earlier
  · intro moved member replaced still d known id
    rcases mem_setPhase member with old | ⟨other,foundAt,rfl⟩
    · exact counted.gone moved old replaced still d known id
    · cases Option.some.inj (found.symm.trans foundAt)
      exact counted.gone claim there replaced open_ d known id
  · intro a had
    obtain ⟨moved,found_,closed,_⟩ := setPhase_written phase counted found open_ a had
    exact ⟨moved,found_,closed⟩

theorem charged_counts (drawn : Nat → Nat → Nat) (outcome : Outcome) (attempts eventId : Nat) (now : Int) (d : WebhookDelivery) :
    (charged drawn outcome attempts eventId now d).attemptCount = attempts ∧
      (charged drawn outcome attempts eventId now d).attemptsBefore = d.attemptsBefore := by
  unfold charged
  split
  · exact ⟨rfl,rfl⟩
  · split <;> exact ⟨rfl,rfl⟩

theorem charged_retry {outcome : Outcome} {attemptCount eventId failures : Nat} {now at_ : Int}
    (due : (charged drawn outcome (attemptCount+1) eventId now d).nextAttemptAt = some at_) :
    at_ ∈ retryAt drawn (.read outcome attemptCount eventId failures now) := by
  unfold charged at due
  dsimp only [retryAt]
  split at due
  · cases due
  · split at due
    · cases due
    · rename_i failed fewer
      rw [if_neg (not_or.mpr ⟨failed,fewer⟩)]
      exact due

-- The attempt of a claim that still had its lease.
theorem Counted.charges (counted : Counted s) (exact_ : Exact next.spread) {outcome : Outcome} {eventId : Nat} {now : Int} (failures : Nat)
    {a : WebhookAttempt} (known : d ∈ s.deliveries) (pending : d.status = .pending) (about : a.deliveryId = d.id)
    (deliveries : next.deliveries = (setDelivery s d.id (charged drawn outcome (d.attemptCount+1) eventId now)).deliveries)
    (claims : next.claims = s.claims) (attempts : next.attempts = s.attempts ++ [a]) (nextDelivery : next.nextDelivery = s.nextDelivery)
    (closed : ∃ claim, s.claims[a.claim]? = some claim ∧ claim.phase = .over) (first : ∀ old ∈ s.attempts, old.claim ≠ a.claim)
    (clear : ∀ other ∈ s.claims, other.replaced = true → other.phase ≠ .over → other.outgoing.deliveryId = d.id →
      ∀ at_ ∈ retryAt drawn (.read outcome d.attemptCount eventId failures now), other.outgoing.lease ≠ at_)
    (pauses : ∀ sub ∈ next.subscriptions, sub.pausedAt = none → sub.consecutiveFailures < pauseAfterFailedDeliveries) : Counted next := by
  have row : ∀ after ∈ next.deliveries, after = charged drawn outcome (d.attemptCount+1) eventId now d ∧ after.id = d.id ∨
      after ∈ s.deliveries ∧ after.id ≠ d.id := by
    intro after member
    rw [deliveries] at member
    obtain ⟨old,there,rfl⟩ := List.mem_map.mp member
    by_cases same : old.id = d.id
    · cases delivery_same counted.exact_ there known same
      rw [if_pos rfl]
      exact .inl ⟨rfl,congrArg Letter.id (charged_letter drawn outcome (d.attemptCount+1) eventId now d)⟩
    · rw [if_neg same]
      exact .inr ⟨there,same⟩
  have below := (delivery_payload counted.exact_ known).2.2
  refine ⟨exact_,?_,?_,?_,?_,?_,?_,?_,pauses⟩
  · intro after member
    rcases row after member with ⟨rfl,_⟩ | ⟨there,_⟩
    · exact charged_sane (counted.sane d known) pending
    · exact counted.sane after there
  · intro after member
    have split_ : attemptsOf next after.id = attemptsOf s after.id ++ if a.deliveryId = after.id then [a] else [] := by
      unfold attemptsOf
      rw [attempts,List.filter_append,List.filter_singleton]
      by_cases same : a.deliveryId = after.id <;> simp [same]
    rcases row after member with ⟨rfl,same⟩ | ⟨there,apart⟩
    · obtain ⟨count,before⟩ := charged_counts drawn outcome (d.attemptCount+1) eventId now d
      have had := counted.counts d known
      rw [split_,same,if_pos about,count,before,List.length_append,had]
      rfl
    · have had := counted.counts after there
      rw [split_,if_neg (fun same => apart (same.symm.trans about)),List.append_nil]
      exact had
  · rw [attempts,nextDelivery]
    intro one had
    rcases List.mem_append.mp had with old | new
    · exact counted.attempted one old
    · cases List.mem_singleton.mp new
      rw [about]
      exact below
  · rw [claims,nextDelivery]
    exact counted.claimed
  · rw [claims]
    intro other there replaced open_ after member id
    rcases row after member with ⟨rfl,same⟩ | ⟨old,_⟩
    · intro due
      exact clear other there replaced open_ (id.symm.trans same) _ (charged_retry due) rfl
    · exact counted.gone other there replaced open_ after old id
  · rw [attempts,claims]
    intro one had
    rcases List.mem_append.mp had with old | new
    · exact counted.written one old
    · cases List.mem_singleton.mp new
      exact closed
  · rw [attempts,List.map_append]
    apply nodup_append_fresh counted.onceEach
    intro member
    obtain ⟨old,had,same⟩ := List.mem_map.mp member
    exact first old had same

theorem Counted.held (counted : Counted s) (there : claim ∈ s.claims) (open_ : claim.phase ≠ .over) (known : d ∈ s.deliveries)
    (mine : d.id = claim.outgoing.deliveryId) (lease : d.nextAttemptAt = some claim.outgoing.lease) : claim.replaced = false := by
  cases replaced : claim.replaced with
  | false => rfl
  | true => exact absurd lease (counted.gone claim there replaced open_ d known mine)

theorem recordWrite_parts (written : recordWrite drawn s k = some next) :
    ∃ outgoing outcome attemptCount eventId failures now replaced,
      s.claims[k]? = some ⟨outgoing,.read outcome attemptCount eventId failures now,replaced⟩ ∧
      (next = setPhase s k .over ∨ ∃ d ∈ s.deliveries, d.id = outgoing.deliveryId ∧ d.status = .pending ∧ d.nextAttemptAt = some outgoing.lease ∧
        d.attemptCount = attemptCount ∧
        next.deliveries = (setDelivery s d.id (charged drawn outcome (attemptCount+1) eventId now)).deliveries ∧
        next.subscriptions = (setSubscription s outgoing.subscriptionId (counted outcome (attemptCount+1) failures now)).subscriptions ∧
        next.claims = (setPhase s k .over).claims ∧ next.nextDelivery = s.nextDelivery ∧
        next.attempts = s.attempts ++ [⟨d.id,now,outcome.statusCode,outcome.responseMs,outcome.error,outcome.excerpt,k⟩]) := by
  unfold recordWrite at written
  split at written
  · rename_i outgoing outcome attemptCount eventId failures now replaced found
    refine ⟨outgoing,outcome,attemptCount,eventId,failures,now,replaced,found,?_⟩
    split at written
    · rename_i held
      cases written
      obtain ⟨d,there,still⟩ := (Option.any_eq_true _ _).mp held
      obtain ⟨known,id⟩ := deliveryAt_parts there
      unfold stillHeld at still
      simp only [Bool.and_eq_true,decide_eq_true_eq] at still
      obtain ⟨⟨pending,lease⟩,count⟩ := still
      right
      refine ⟨d,known,id,pending,lease,count,?_,rfl,rfl,rfl,?_⟩
      · rw [id]
        rfl
      · rw [id]
        rfl
    · exact .inl (Option.some.inj written).symm
  · cases written

theorem Counted.wrote (counted : Counted s) (exact_ : Exact next.spread) (clear : ClearOfLeases drawn s (.recordWrite k))
    (written : recordWrite drawn s k = some next) : Counted next := by
  obtain ⟨outgoing,outcome,attemptCount,eventId,failures,now,replaced,found,which⟩ := recordWrite_parts written
  have over_ := counted.phased found nofun .over s.received
  rcases which with rfl | ⟨d,known,mine,pending,lease,rfl,deliveries,subscriptions,claims,nextDelivery,attempts⟩
  · exact over_
  apply over_.charges exact_ failures known pending rfl deliveries claims attempts nextDelivery
  · refine ⟨⟨outgoing,.over,replaced⟩,?_,rfl⟩
    change (setPhase s k .over).claims[k]? = _
    rw [setPhase_claims,if_pos rfl,found]
    rfl
  · intro old had
    obtain ⟨_,_,_,apart⟩ := setPhase_written .over counted found nofun old had
    exact apart
  · intro other there gone open_ same at_ due
    rcases mem_setPhase there with old | ⟨own,foundAt,rfl⟩
    · exact clear _ found at_ due other old gone open_ (same.trans mine)
    · exact absurd rfl open_
  · rw [subscriptions]
    exact pauses_set counted.pauses (fun _ few => counted_pauses few)

theorem Counted.redelivered (counted : Counted s) (exact_ : Exact next.spread) {subscriptionId id : Nat}
    (clear : ClearOfLeases drawn s (.redeliverWebhook subscriptionId id)) (again : redeliverWebhook s subscriptionId id = some next) :
    Counted next := by
  unfold redeliverWebhook at again
  simp only [Option.ite_none_right_eq_some,Option.some.injEq] at again
  obtain ⟨_,rfl⟩ := again
  have row : ∀ after ∈ (setDelivery s id (redeliver s)).deliveries, ∃ old ∈ s.deliveries, after.id = old.id ∧
      (old.id = id ∧ after = redeliver s old ∨ old.id ≠ id ∧ after = old) := by
    intro after member
    obtain ⟨old,there,rfl⟩ := List.mem_map.mp member
    by_cases same : old.id = id
    · rw [if_pos same]
      exact ⟨old,there,rfl,.inl ⟨same,rfl⟩⟩
    · rw [if_neg same]
      exact ⟨old,there,rfl,.inr ⟨same,rfl⟩⟩
  refine ⟨exact_,?_,?_,counted.attempted,?_,?_,?_,counted.onceEach,counted.pauses⟩
  · intro after member
    obtain ⟨old,there,_,⟨_,rfl⟩ | ⟨_,rfl⟩⟩ := row after member
    · exact redeliver_sane
    · exact counted.sane after there
  · intro after member
    obtain ⟨old,there,_,⟨_,rfl⟩ | ⟨_,rfl⟩⟩ := row after member
    · rfl
    · exact counted.counts after there
  · intro after member
    obtain ⟨claim,there,rfl⟩ := List.mem_map.mp member
    rw [(replace_kept _ claim).1]
    exact counted.claimed claim there
  · intro after member replaced open_ d known same
    obtain ⟨claim,there,rfl⟩ := List.mem_map.mp member
    rw [(replace_kept _ claim).1] at same ⊢
    rw [(replace_kept _ claim).2] at open_
    obtain ⟨old,had,sameId,⟨mine,rfl⟩ | ⟨apart,rfl⟩⟩ := row d known
    · intro due
      exact clear claim there open_ (same.symm.trans (sameId.trans mine)) (Option.some.inj due).symm
    · have already : claim.replaced = true := by
        unfold replace at replaced
        rw [if_neg] at replaced
        · exact replaced
        · intro listed
          exact apart (same.trans (List.mem_singleton.mp listed))
      exact counted.gone claim there already open_ d had same
  · intro a had
    obtain ⟨claim,found,closed⟩ := counted.written a had
    refine ⟨replace [id] claim,?_,(replace_kept _ claim).2.trans closed⟩
    change (s.claims.map (replace [id]))[a.claim]? = _
    rw [List.getElem?_map,found]
    rfl

theorem Counted.deleted (counted : Counted s) {id : Nat} (exact_ : Exact (deleteWebhook s id).spread) : Counted (deleteWebhook s id) := by
  have kept : ∀ d ∈ (deleteWebhook s id).deliveries, d ∈ s.deliveries ∧ attemptsOf (deleteWebhook s id) d.id = attemptsOf s d.id := by
    intro d member
    obtain ⟨known,others⟩ := List.mem_filter.mp member
    refine ⟨known,?_⟩
    unfold attemptsOf deleteWebhook
    rw [List.filter_filter]
    apply List.filter_congr
    intro a _
    by_cases about : a.deliveryId = d.id
    · have stays : a.deliveryId ∉ (s.deliveries.filter (fun d => d.subscriptionId = id)).map WebhookDelivery.id := by
        intro listed
        obtain ⟨other,there,same⟩ := List.mem_map.mp listed
        obtain ⟨had,ofIt⟩ := List.mem_filter.mp there
        cases delivery_same counted.exact_ had known (same.trans about)
        exact of_decide_eq_true others (of_decide_eq_true ofIt)
      rw [decide_eq_true stays,Bool.and_true]
    · rw [decide_eq_false about,Bool.false_and]
  refine ⟨exact_,?_,?_,?_,counted.claimed,?_,?_,?_,?_⟩
  · exact fun d member => counted.sane d (kept d member).1
  · intro d member
    rw [(kept d member).2]
    exact counted.counts d (kept d member).1
  · exact fun a had => counted.attempted a (List.mem_filter.mp had).1
  · exact fun claim there replaced open_ d known => counted.gone claim there replaced open_ d (kept d known).1
  · exact fun a had => counted.written a (List.mem_filter.mp had).1
  · exact counted.onceEach.sublist (List.filter_sublist.map _)
  · exact fun sub member => counted.pauses sub (List.mem_filter.mp member).1

def LeasesKept (drawn : Nat → Nat → Nat) (s : World) (op : Operation) : Prop := LeasesDistinct s op ∧ ClearOfLeases drawn s op

instance (s : World) (op : Operation) : Decidable (LeasesKept drawn s op) := inferInstanceAs (Decidable (_ ∧ _))

theorem Counted.preserved {op : Operation} (counted : Counted s) (admitted : LeasesKept drawn s op) (taken : step drawn s op = some next) :
    Counted next := by
  have exact_ : Exact next.spread := counted.exact_.path (step_path counted.exact_ taken)
  cases op with
  | change id at_ row =>
    obtain ⟨later,_,rfl⟩ := Option.map_eq_some_iff.mp taken
    exact counted.aside exact_ rfl rfl rfl rfl counted.pauses
  | advanceTo instant =>
    simp only [step,Option.ite_none_right_eq_some,Option.some.injEq] at taken
    obtain ⟨_,rfl⟩ := taken
    exact counted.aside exact_ rfl rfl rfl rfl counted.pauses
  | createWebhook =>
    cases taken
    apply counted.aside exact_ rfl rfl rfl rfl
    intro sub member
    rcases List.mem_append.mp member with old | new
    · exact counted.pauses sub old
    · cases List.mem_singleton.mp new
      exact fun _ => Nat.zero_lt_succ 4
  | updateWebhook =>
    cases taken
    exact counted.aside exact_ rfl rfl rfl rfl (pauses_set counted.pauses (fun _ few => few))
  | pause =>
    cases taken
    exact counted.aside exact_ rfl rfl rfl rfl (pauses_set counted.pauses (fun _ _ paused => by cases paused))
  | resumeWebhook =>
    cases taken
    exact counted.aside exact_ rfl rfl rfl rfl (pauses_set counted.pauses (fun _ _ _ => Nat.zero_lt_succ 4))
  | deleteWebhook id =>
    cases taken
    exact counted.deleted exact_
  | redeliverWebhook subscriptionId id => exact counted.redelivered exact_ admitted.2 taken
  | fanOut batch waits locked =>
    simp only [step,Option.ite_none_right_eq_some,Option.some.injEq] at taken
    obtain ⟨_,rfl⟩ := taken
    obtain ⟨made,adds⟩ := fanOut_adds counted.exact_ batch waits locked (s.subscriptions.map WebhookSubscription.id)
    exact counted.added exact_ adds (fanOut_pauses batch waits locked _ counted.pauses)
  | claimDue =>
    cases taken
    exact counted.claims exact_ admitted.1
  | send k outcome arrives =>
    simp only [step,send] at taken
    split at taken
    · rename_i outgoing replaced found
      split at taken
      · cases taken
      · cases taken
        exact counted.phased found (fun ended => by cases ended) _ _
    · cases taken
  | recordRead k =>
    simp only [step,recordRead] at taken
    split at taken
    · rename_i outgoing outcome replaced found
      split at taken
      · cases taken
        exact counted.phased found (fun ended => by cases ended) _ _
      · cases taken
        exact counted.phased found (fun ended => by cases ended) _ _
    · cases taken
  | recordWrite k => exact counted.wrote exact_ admitted.2 taken

theorem start_counted {resources : List ResourceRow} {reservations : List ReservationRow}
    (linked : ∀ held ∈ reservations, (resourceAt resources held.resourceId).isSome) (now : Int) :
    Counted (.start resources reservations linked now) := by
  refine ⟨start_exact linked now,?_,?_,?_,?_,?_,?_,.nil,?_⟩
  · exact fun _ member => absurd member List.not_mem_nil
  · exact fun _ member => absurd member List.not_mem_nil
  · exact fun _ member => absurd member List.not_mem_nil
  · exact fun _ member => absurd member List.not_mem_nil
  · exact fun _ member => absurd member List.not_mem_nil
  · exact fun _ member => absurd member List.not_mem_nil
  · exact fun _ member => absurd member List.not_mem_nil

-- A claim that was replaced writes nothing down.
theorem Counted.replaced_silent (counted : Counted s) (found : s.claims[k]? = some claim) (replaced : claim.replaced = true)
    (written : recordWrite drawn s k = some next) : next.attempts = s.attempts := by
  obtain ⟨outgoing,outcome,attemptCount,eventId,failures,now,was,there,which⟩ := recordWrite_parts written
  cases Option.some.inj (found.symm.trans there)
  rcases which with rfl | ⟨d,known,mine,_,lease,_⟩
  · rfl
  · have kept := counted.held (List.mem_of_getElem? found) nofun known mine lease
    exact absurd (kept.symm.trans replaced) nofun

theorem delivery_states {resources : List ResourceRow} {reservations : List ReservationRow}
    {linked : ∀ held ∈ reservations, (resourceAt resources held.resourceId).isSome} {now : Int}
    (path : Runs.Reached (Runs.Guarded (Steps drawn) (LeasesKept drawn)) (.start resources reservations linked now) s) :
    (∀ d ∈ s.deliveries, Sane d) ∧
    (∀ d ∈ s.deliveries, (attemptsOf s d.id).length = d.attemptsBefore+d.attemptCount) ∧
    (s.attempts.map WebhookAttempt.claim).Nodup ∧
    (∀ k claim next, s.claims[k]? = some claim → claim.replaced = true → Steps drawn s (.recordWrite k) next → next.attempts = s.attempts) ∧
    ∀ sub ∈ s.subscriptions, sub.pausedAt = none → sub.consecutiveFailures < pauseAfterFailedDeliveries := by
  have counted : Counted s := by
    apply path.invariant Counted (start_counted linked now)
    intro before op after held taken
    exact held.preserved taken.1 taken.2
  refine ⟨counted.sane,counted.counts,counted.onceEach,?_,counted.pauses⟩
  intro k claim next found replaced written
  exact counted.replaced_silent found replaced written

-- The first claim is replaced by a redelivery before it is written down.
def redeliveredWhileSending : List Operation := [.createWebhook "north" "https://north.example/hook" [(.resource,.created)] true "whsec_bm9ydGg=",
  .change 1 0 (.resource (labRow 1 "north" "Lab") .created),.fanOut 500 false [],.claimDue,.send 0 timedOut false,.recordRead 0,
  .advanceTo 20000000,.redeliverWebhook 1 1,.recordWrite 0,.claimDue,.send 1 (answered 503) true,.recordRead 1,.recordWrite 1]

theorem redelivery_counts_once : ∃ s, Runs.trace (step fun _ _ => 3000000) (LeasesKept fun _ _ => 3000000) (.start [] [] nofun 0)
    redeliveredWhileSending = some s ∧ s.claims.map Claim.replaced = [true,false] ∧
      ∃ d ∈ s.deliveries, d.nextAttemptAt = some 23000000 ∧ (attemptsOf s d.id).length = d.attemptCount ∧ Sane d := by
  have taken : ∃ s d, Runs.trace (step fun _ _ => 3000000) (LeasesKept fun _ _ => 3000000) (.start [] [] nofun 0)
      redeliveredWhileSending = some s ∧ s.claims.map Claim.replaced = [true,false] ∧ s.deliveries = [d] ∧ d.nextAttemptAt = some 23000000 ∧
      d.attemptsBefore = 0 :=
    ⟨_,_,rfl,rfl,rfl,rfl,rfl⟩
  obtain ⟨s,d,run,replaced,deliveries,due,before⟩ := taken
  have there : d ∈ s.deliveries := deliveries ▸ List.mem_cons_self
  obtain ⟨sane,counts,_⟩ := delivery_states (Runs.trace_reached .start run)
  refine ⟨s,run,replaced,d,there,due,?_,sane d there⟩
  rw [counts d there,before,Nat.zero_add]

-- The lease of the first claim runs out, a second claim is made, and the delivery
-- is redelivered at that same instant: the first claim finds its own lease again.
def redeliveredAtTheLease : List Operation := [.createWebhook "north" "https://north.example/hook" [(.resource,.created)] true "whsec_bm9ydGg=",
  .change 1 0 (.resource (labRow 1 "north" "Lab") .created),.fanOut 500 false [],.claimDue,.send 0 timedOut false,.advanceTo 60000000,.claimDue,
  .redeliverWebhook 1 1,.recordRead 0]

theorem replaced_claim_writes : ∃ s next claim, Runs.trace (step fun _ _ => 3000000) LeasesDistinct (.start [] [] nofun 0)
    redeliveredAtTheLease = some s ∧ s.claims[0]? = some claim ∧ claim.replaced = true ∧ Steps (fun _ _ => 3000000) s (.recordWrite 0) next ∧
      s.attempts = [] ∧ next.attempts.map WebhookAttempt.claim = [0] := ⟨_,_,_,rfl,rfl,rfl,rfl,rfl,rfl⟩

end ChronosLedger.Webhooks
