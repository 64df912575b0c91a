import Mathlib.Data.List.Induction
import ChronosLedger.DeliverySteps

namespace ChronosLedger.Webhooks
open ChangeFeed

variable {drawn : Nat → Nat → Nat} {s next : World} {sub : WebhookSubscription} {d : WebhookDelivery} {k : Nat} {claim : Claim}

-- Runs without redeliveries, deletions and changes of the event types, in which a
-- send is made before the lease of its claim runs out.
def InLease (s : World) : Operation → Prop
  | .redeliverWebhook _ _ => False
  | .deleteWebhook _ => False
  | .updateWebhook _ _ eventTypes _ => eventTypes = none
  | .send k _ _ => ∀ claim ∈ s.claims[k]?, s.now < claim.outgoing.lease
  | _ => True

instance (s : World) (op : Operation) : Decidable (InLease s op) := by
  induction op using Operation.casesOn <;> unfold InLease <;> infer_instance

-- What a receiver had of each delivery first, in the order it came.
def firsts (received : List Outgoing) : List Outgoing :=
  received.foldl (fun seen r => if seen.any (fun earlier => earlier.deliveryId = r.deliveryId) then seen else seen ++ [r]) []

theorem firsts_append (received : List Outgoing) (r : Outgoing) : firsts (received ++ [r]) =
    if (firsts received).any (fun earlier => earlier.deliveryId = r.deliveryId) then firsts received else firsts received ++ [r] := by
  unfold firsts
  rw [List.foldl_append]
  rfl

theorem mem_firsts {received : List Outgoing} {r : Outgoing} (member : r ∈ firsts received) : r ∈ received := by
  induction received using List.reverseRecOn with
  | nil => exact member
  | append_singleton rest last ih =>
    rw [firsts_append] at member
    split at member
    · exact List.mem_append_left _ (ih member)
    · rcases List.mem_append.mp member with old | new
      · exact List.mem_append_left _ (ih old)
      · exact List.mem_append_right _ new

theorem firsts_of_mem {received : List Outgoing} {r : Outgoing} (member : r ∈ received) :
    ∃ first ∈ firsts received, first.deliveryId = r.deliveryId := by
  induction received using List.reverseRecOn with
  | nil => cases member
  | append_singleton rest last ih =>
    rw [firsts_append]
    rcases List.mem_append.mp member with old | new
    · obtain ⟨first,there,same⟩ := ih old
      split
      · exact ⟨first,there,same⟩
      · exact ⟨first,List.mem_append_left _ there,same⟩
    · cases List.mem_singleton.mp new
      split
      · rename_i known
        obtain ⟨first,there,same⟩ := List.any_eq_true.mp known
        exact ⟨first,there,of_decide_eq_true same⟩
      · exact ⟨r,List.mem_append_right _ (List.mem_singleton_self r),rfl⟩

def inTurn (a b : Outgoing) : Prop :=
  a.subscriptionId = b.subscriptionId → a.payload.entity = b.payload.entity → a.payload.markerId < b.payload.markerId

def succeededIn : Phase → Bool
  | .sent outcome => outcome.succeeded
  | .read outcome _ _ _ _ => outcome.succeeded
  | _ => false

-- A claim that is not written down and whose lease has not run out still has its
-- delivery, and nobody else does. What was claimed has nothing pending before it.
structure Orderly (s : World) : Prop where
  exact_ : Exact s.spread
  known : ∀ claim ∈ s.claims, ∃ d ∈ s.deliveries, d.id = claim.outgoing.deliveryId ∧ d.subscriptionId = claim.outgoing.subscriptionId ∧
    d.payload = claim.outgoing.payload
  lease : ∀ claim ∈ s.claims, claim.phase ≠ .over → s.now < claim.outgoing.lease → ∀ d ∈ s.deliveries, d.id = claim.outgoing.deliveryId →
    d.status = .pending ∧ d.nextAttemptAt = some claim.outgoing.lease
  single : ∀ (j k : Nat) (a b : Claim), s.claims[j]? = some a → s.claims[k]? = some b → a.phase ≠ .over → b.phase ≠ .over →
    a.outgoing.deliveryId = b.outgoing.deliveryId → a.outgoing.lease = b.outgoing.lease → j = k
  passed : ∀ claim ∈ s.claims, ∀ d ∈ s.deliveries, d.subscriptionId = claim.outgoing.subscriptionId →
    d.entity = claim.outgoing.payload.entity → d.markerId < claim.outgoing.payload.markerId → d.status ≠ .pending
  arrived : ∀ claim ∈ s.claims, succeededIn claim.phase = true → ∃ r ∈ s.received, r.deliveryId = claim.outgoing.deliveryId
  done : ∀ d ∈ s.deliveries, d.status = .succeeded → ∃ r ∈ s.received, r.deliveryId = d.id
  sent : ∀ r ∈ s.received, ∃ claim ∈ s.claims, claim.outgoing = r
  order : (firsts s.received).Pairwise inTurn

theorem Orderly.claimed_row (orderly : Orderly s) (there : claim ∈ s.claims) : ∃ d ∈ s.deliveries, d.id = claim.outgoing.deliveryId ∧
    d.subscriptionId = claim.outgoing.subscriptionId ∧ d.entity = claim.outgoing.payload.entity ∧
    d.markerId = claim.outgoing.payload.markerId ∧ d.id < s.nextDelivery := by
  obtain ⟨d,known,id,mine,payload⟩ := orderly.known claim there
  obtain ⟨marker,entity,below⟩ := delivery_payload orderly.exact_ known
  exact ⟨d,known,id,mine,payload ▸ entity.symm,payload ▸ marker.symm,below⟩

-- Steps that leave the deliveries, the claims and the receptions alone.
theorem Orderly.aside (orderly : Orderly s) (exact_ : Exact next.spread) (deliveries : next.deliveries = s.deliveries)
    (claims : next.claims = s.claims) (received : next.received = s.received) (later : s.now ≤ next.now) : Orderly next := by
  refine ⟨exact_,?_,?_,?_,?_,?_,?_,?_,?_⟩
  · rw [claims,deliveries]
    exact orderly.known
  · rw [claims,deliveries]
    intro claim there open_ inside
    exact orderly.lease claim there open_ (Int.lt_of_le_of_lt later inside)
  · rw [claims]
    exact orderly.single
  · rw [claims,deliveries]
    exact orderly.passed
  · rw [claims,received]
    exact orderly.arrived
  · rw [deliveries,received]
    exact orderly.done
  · rw [claims,received]
    exact orderly.sent
  · rw [received]
    exact orderly.order

theorem Orderly.added (orderly : Orderly s) (exact_ : Exact next.spread) {made : List WebhookDelivery} (adds : Adds s next made) :
    Orderly next := by
  refine ⟨exact_,?_,?_,?_,?_,?_,?_,?_,?_⟩
  · rw [adds.claims,adds.deliveries]
    intro claim there
    obtain ⟨d,known,same⟩ := orderly.known claim there
    exact ⟨d,List.mem_append_left _ known,same⟩
  · rw [adds.claims,adds.deliveries,adds.now]
    intro claim there open_ inside d member id
    rcases List.mem_append.mp member with old | new
    · exact orderly.lease claim there open_ inside d old id
    · obtain ⟨row,_,same,_,_,_,below⟩ := orderly.claimed_row there
      have fresh := (adds.fresh d new).2.2.2.2.2
      omega
  · rw [adds.claims]
    exact orderly.single
  · rw [adds.claims,adds.deliveries]
    intro claim there d member mine entity before
    rcases List.mem_append.mp member with old | new
    · exact orderly.passed claim there d old mine entity before
    · obtain ⟨row,known,_,owner,_,marker,_⟩ := orderly.claimed_row there
      have later := adds.later d new row known (owner.trans mine.symm)
      omega
  · rw [adds.claims,adds.received]
    exact orderly.arrived
  · rw [adds.deliveries,adds.received]
    intro d member succeeded
    rcases List.mem_append.mp member with old | new
    · exact orderly.done d old succeeded
    · rw [(adds.fresh d new).1] at succeeded
      cases succeeded
  · rw [adds.claims,adds.received]
    exact orderly.sent
  · rw [adds.received]
    exact orderly.order

theorem mem_setPhase {phase : Phase} {moved : Claim} (member : moved ∈ (setPhase s k phase).claims) :
    moved ∈ s.claims ∨ ∃ claim, s.claims[k]? = some claim ∧ moved = {claim with phase := phase} := by
  obtain ⟨j,found⟩ := List.mem_iff_getElem?.mp member
  rw [setPhase_claims] at found
  split at found
  · rename_i same
    obtain ⟨claim,there,rfl⟩ := Option.map_eq_some_iff.mp found
    exact .inr ⟨claim,same ▸ there,rfl⟩
  · exact .inl (List.mem_of_getElem? found)

theorem setPhase_of_mem (k : Nat) (phase : Phase) (there : claim ∈ s.claims) : ∃ moved ∈ (setPhase s k phase).claims, moved.outgoing = claim.outgoing := by
  obtain ⟨j,found⟩ := List.mem_iff_getElem?.mp there
  have after : (setPhase s k phase).claims[j]? = _ := setPhase_claims
  rw [found] at after
  split at after
  · exact ⟨_,List.mem_of_getElem? after,rfl⟩
  · exact ⟨claim,List.mem_of_getElem? after,rfl⟩

theorem setPhase_outgoing {phase : Phase} (found : s.claims[k]? = some claim) {moved : Claim} (member : moved ∈ (setPhase s k phase).claims) :
    ∃ before ∈ s.claims, before.outgoing = moved.outgoing ∧ (moved.phase ≠ .over → before = moved ∨ before = claim ∧ moved.phase = phase) := by
  rcases mem_setPhase member with old | ⟨other,there,rfl⟩
  · exact ⟨moved,old,rfl,fun _ => .inl rfl⟩
  · cases Option.some.inj (found.symm.trans there)
    exact ⟨claim,List.mem_of_getElem? found,rfl,fun _ => .inr ⟨rfl,rfl⟩⟩

-- A claim that goes on to its next phase, and what the receiver has of it.
theorem Orderly.phased (orderly : Orderly s) (found : s.claims[k]? = some claim) (open_ : claim.phase ≠ .over) {phase : Phase}
    {received : List Outgoing} (arrives : succeededIn phase = true → ∃ r ∈ received, r.deliveryId = claim.outgoing.deliveryId)
    (grows : ∀ r ∈ s.received, r ∈ received) (sent : ∀ r ∈ received, r ∈ s.received ∨ r = claim.outgoing)
    (order : (firsts received).Pairwise inTurn) : Orderly {setPhase s k phase with received := received} := by
  have there := List.mem_of_getElem? found
  refine ⟨orderly.exact_,?_,?_,?_,?_,?_,?_,?_,order⟩
  · intro moved member
    obtain ⟨before,earlier,same,_⟩ := setPhase_outgoing found member
    rw [← same]
    exact orderly.known before earlier
  · intro moved member still inside d known id
    obtain ⟨before,earlier,same,phases⟩ := setPhase_outgoing found member
    rw [← same] at inside id ⊢
    rcases phases still with rfl | ⟨rfl,_⟩
    · exact orderly.lease before earlier still inside d known id
    · exact orderly.lease before earlier open_ inside d known id
  · intro i j a b one two openA openB delivery lease
    change (setPhase s k phase).claims[i]? = some a at one
    change (setPhase s k phase).claims[j]? = some b at two
    rw [setPhase_claims] at one two
    have before : ∀ (i : Nat) (a : Claim), (if k = i then (s.claims[i]?).map (fun claim => {claim with phase := phase}) else s.claims[i]?) = some a →
        a.phase ≠ .over → ∃ old, s.claims[i]? = some old ∧ old.phase ≠ .over ∧ old.outgoing = a.outgoing := by
      intro i a one openA
      split at one
      · rename_i same
        obtain ⟨old,foundAt,rfl⟩ := Option.map_eq_some_iff.mp one
        subst same
        cases Option.some.inj (found.symm.trans foundAt)
        exact ⟨claim,found,open_,rfl⟩
      · exact ⟨a,one,openA,rfl⟩
    obtain ⟨oldA,foundA,stillA,sameA⟩ := before i a one openA
    obtain ⟨oldB,foundB,stillB,sameB⟩ := before j b two openB
    exact orderly.single i j oldA oldB foundA foundB stillA stillB (by rw [sameA,sameB]; exact delivery) (by rw [sameA,sameB]; exact lease)
  · intro moved member
    obtain ⟨before,earlier,same,_⟩ := setPhase_outgoing found member
    rw [← same]
    exact orderly.passed before earlier
  · intro moved member succeeded
    rcases mem_setPhase member with old | ⟨other,foundAt,rfl⟩
    · obtain ⟨r,had,same⟩ := orderly.arrived moved old succeeded
      exact ⟨r,grows r had,same⟩
    · cases Option.some.inj (found.symm.trans foundAt)
      exact arrives succeeded
  · intro d known succeeded
    obtain ⟨r,had,same⟩ := orderly.done d known succeeded
    exact ⟨r,grows r had,same⟩
  · intro r member
    rcases sent r member with old | rfl
    · obtain ⟨before,earlier,same⟩ := orderly.sent r old
      obtain ⟨moved,later,equal⟩ := setPhase_of_mem k phase earlier
      exact ⟨moved,later,equal.trans same⟩
    · exact setPhase_of_mem _ _ there

-- The first reception of a delivery comes after that of every earlier one of its
-- row: whatever was received of a later one was claimed when this one was over.
theorem Orderly.sends (orderly : Orderly s) (found : s.claims[k]? = some claim) (open_ : claim.phase ≠ .over)
    (inside : s.now < claim.outgoing.lease) : (firsts (s.received ++ [claim.outgoing])).Pairwise inTurn := by
  rw [firsts_append]
  split
  · exact orderly.order
  · rename_i first
    apply List.pairwise_append.mpr
    refine ⟨orderly.order,List.pairwise_singleton _ _,?_⟩
    intro r member last single mine entity
    cases List.mem_singleton.mp single
    have there := List.mem_of_getElem? found
    obtain ⟨d,known,id,owner,about,marker,_⟩ := orderly.claimed_row there
    obtain ⟨earlier,claimed,rfl⟩ := orderly.sent r (mem_firsts member)
    obtain ⟨row,known_,id_,owner_,_,marker_,_⟩ := orderly.claimed_row claimed
    by_contra late
    have pending := (orderly.lease claim there open_ inside d known id).1
    rcases Nat.eq_or_lt_of_le (Nat.le_of_not_lt late) with tie | before
    · have one := delivery_once orderly.exact_ known known_ (by rw [owner,owner_,mine]) (by rw [marker,marker_,tie])
      apply first
      apply List.any_eq_true.mpr
      refine ⟨earlier.outgoing,member,?_⟩
      rw [← id_,← id,one]
      exact decide_eq_true rfl
    · refine orderly.passed earlier claimed d known (owner.trans mine.symm) (about.trans entity.symm) ?_ pending
      rw [marker]
      exact before

-- The attempt is written down and the delivery settled or set to wait. No other
-- claim holds it.
theorem Orderly.recorded (orderly : Orderly s) (exact_ : Exact next.spread) {f : WebhookDelivery → WebhookDelivery} {id : Nat}
    (kept : ∀ d, (f d).letter = d.letter) (deliveries : next.deliveries = (setDelivery s id f).deliveries) (claims : next.claims = s.claims)
    (received : next.received = s.received) (now : next.now = s.now) (was : ∀ d ∈ s.deliveries, d.id = id → d.status = .pending)
    (free : ∀ claim ∈ s.claims, claim.phase ≠ .over → s.now < claim.outgoing.lease → claim.outgoing.deliveryId ≠ id)
    (succeeds : ∀ d, (f d).status = .succeeded → d.status = .succeeded ∨ ∃ r ∈ s.received, r.deliveryId = id) : Orderly next := by
  have row : ∀ d ∈ next.deliveries, ∃ old ∈ s.deliveries, d.letter = old.letter ∧ (old.id = id ∧ d = f old ∨ old.id ≠ id ∧ d = old) := by
    intro d member
    rw [deliveries] at member
    obtain ⟨old,known,rfl⟩ := List.mem_map.mp member
    refine ⟨old,known,?_⟩
    by_cases same : old.id = id
    · rw [if_pos same]
      exact ⟨kept old,.inl ⟨same,rfl⟩⟩
    · rw [if_neg same]
      exact ⟨rfl,.inr ⟨same,rfl⟩⟩
  refine ⟨exact_,?_,?_,?_,?_,?_,?_,?_,?_⟩
  · rw [claims,deliveries]
    intro claim there
    obtain ⟨d,known,same,owner,payload⟩ := orderly.known claim there
    refine ⟨_,List.mem_map_of_mem known,?_⟩
    split
    · have letter := kept d
      exact ⟨(congrArg Letter.id letter).trans same,(congrArg Letter.readerId letter).trans owner,(congrArg Letter.payload letter).trans payload⟩
    · exact ⟨same,owner,payload⟩
  · rw [claims,now]
    intro claim there open_ inside d member same
    obtain ⟨old,known,letter,⟨mine,_⟩ | ⟨_,rfl⟩⟩ := row d member
    · have id_ : d.id = old.id := congrArg Letter.id letter
      exact absurd (same.symm.trans (id_.trans mine)) (free claim there open_ inside)
    · exact orderly.lease claim there open_ inside d known same
  · rw [claims]
    exact orderly.single
  · rw [claims]
    intro claim there d member mine entity before
    obtain ⟨old,known,letter,which⟩ := row d member
    have still := orderly.passed claim there old known ((congrArg Letter.readerId letter).symm.trans mine)
      ((congrArg Letter.entity letter).symm.trans entity) (lt_of_eq_of_lt (congrArg Letter.markerId letter).symm before)
    rcases which with ⟨same,_⟩ | ⟨_,rfl⟩
    · exact absurd (was old known same) still
    · exact still
  · rw [claims,received]
    exact orderly.arrived
  · rw [received]
    intro d member succeeded
    obtain ⟨old,known,letter,which⟩ := row d member
    have same : d.id = old.id := congrArg Letter.id letter
    rcases which with ⟨mine,rfl⟩ | ⟨_,rfl⟩
    · rcases succeeds old succeeded with already | ⟨r,had,about⟩
      · obtain ⟨r,had,about⟩ := orderly.done old known already
        exact ⟨r,had,about.trans same.symm⟩
      · exact ⟨r,had,about.trans (same.trans mine).symm⟩
    · exact orderly.done d known succeeded
  · rw [claims,received]
    exact orderly.sent
  · rw [received]
    exact orderly.order

theorem replace_kept (ids : List Nat) (claim : Claim) : (replace ids claim).outgoing = claim.outgoing ∧ (replace ids claim).phase = claim.phase := by
  unfold replace
  split <;> exact ⟨rfl,rfl⟩

def claimOf (s : World) (row : WebhookDelivery × WebhookSubscription) : Claim := ⟨outgoing s.now row.1 row.2,.claimed,false⟩

theorem claimDue_claims (s : World) :
    (claimDue s).claims = s.claims.map (replace ((dueRows s).map (fun row => row.1.id))) ++ (dueRows s).map (claimOf s) := rfl

theorem claimDue_deliveries (s : World) : (claimDue s).deliveries = s.deliveries.map (leased s) := rfl

theorem mem_claimDue {taken : Claim} (member : taken ∈ (claimDue s).claims) :
    (∃ claim ∈ s.claims, taken.outgoing = claim.outgoing ∧ taken.phase = claim.phase) ∨ ∃ row ∈ dueRows s, taken = claimOf s row := by
  rw [claimDue_claims] at member
  rcases List.mem_append.mp member with old | new
  · obtain ⟨claim,there,rfl⟩ := List.mem_map.mp old
    exact .inl ⟨claim,there,replace_kept _ claim⟩
  · obtain ⟨row,due,rfl⟩ := List.mem_map.mp new
    exact .inr ⟨row,due,rfl⟩

theorem claimDue_at {j : Nat} {taken : Claim} (found : (claimDue s).claims[j]? = some taken) :
    (∃ claim, s.claims[j]? = some claim ∧ taken.outgoing = claim.outgoing ∧ taken.phase = claim.phase) ∨
      ∃ i row, j = s.claims.length+i ∧ (dueRows s)[i]? = some row ∧ taken = claimOf s row := by
  rw [claimDue_claims,List.getElem?_append] at found
  split at found
  · rw [List.getElem?_map] at found
    obtain ⟨claim,there,rfl⟩ := Option.map_eq_some_iff.mp found
    exact .inl ⟨claim,there,replace_kept _ claim⟩
  · rename_i beyond
    rw [List.getElem?_map,List.length_map] at found
    obtain ⟨row,due,rfl⟩ := Option.map_eq_some_iff.mp found
    rw [List.length_map] at beyond
    exact .inr ⟨_,row,by omega,due,rfl⟩

-- A delivery whose lease still runs is not due.
theorem Orderly.not_due (orderly : Orderly s) (there : claim ∈ s.claims) (open_ : claim.phase ≠ .over) (inside : s.now < claim.outgoing.lease)
    {row : WebhookDelivery × WebhookSubscription} (due : row ∈ dueRows s) : row.1.id ≠ claim.outgoing.deliveryId := by
  intro same
  obtain ⟨known,_,isDue_⟩ := mem_dueRows due
  obtain ⟨_,⟨at_,next_,before⟩,_⟩ := isDue_parts isDue_
  have held := (orderly.lease claim there open_ inside row.1 known same).2
  cases Option.some.inj (held.symm.trans next_)
  omega

-- A claim whose lease is as long as that of a new one is still running.
theorem Orderly.not_taken (orderly : Orderly s) (there : claim ∈ s.claims) (open_ : claim.phase ≠ .over)
    (lease : claim.outgoing.lease = s.now+claimLease) {row : WebhookDelivery × WebhookSubscription} (due : row ∈ dueRows s) :
    row.1.id ≠ claim.outgoing.deliveryId := by
  refine orderly.not_due there open_ ?_ due
  rw [lease]
  unfold claimLease seconds
  omega

theorem Orderly.claimed_single (orderly : Orderly s) (i j : Nat) (a b : Claim) (one : (claimDue s).claims[i]? = some a)
    (two : (claimDue s).claims[j]? = some b) (openA : a.phase ≠ .over) (openB : b.phase ≠ .over)
    (delivery : a.outgoing.deliveryId = b.outgoing.deliveryId) (lease : a.outgoing.lease = b.outgoing.lease) : i = j := by
  rcases claimDue_at one with ⟨oldA,foundA,sameA,phaseA⟩ | ⟨m,rowA,indexA,dueA,rfl⟩
  · rcases claimDue_at two with ⟨oldB,foundB,sameB,phaseB⟩ | ⟨n,rowB,indexB,dueB,rfl⟩
    · exact orderly.single i j oldA oldB foundA foundB (phaseA ▸ openA) (phaseB ▸ openB) (sameA ▸ sameB ▸ delivery) (sameA ▸ sameB ▸ lease)
    · rw [sameA] at delivery lease
      exact absurd delivery.symm (orderly.not_taken (List.mem_of_getElem? foundA) (phaseA ▸ openA) lease (List.mem_of_getElem? dueB))
  · rcases claimDue_at two with ⟨oldB,foundB,sameB,phaseB⟩ | ⟨n,rowB,indexB,dueB,rfl⟩
    · rw [sameB] at delivery lease
      exact absurd delivery (orderly.not_taken (List.mem_of_getElem? foundB) (phaseB ▸ openB) lease.symm (List.mem_of_getElem? dueA))
    · have ids := dueRows_ids orderly.exact_
      have one_ : ((dueRows s).map (fun row => row.1.id))[m]? = some rowA.1.id := by rw [List.getElem?_map,dueA]; rfl
      have two_ : ((dueRows s).map (fun row => row.1.id))[n]? = some rowB.1.id := by rw [List.getElem?_map,dueB]; rfl
      have delivery : rowA.1.id = rowB.1.id := delivery
      rw [← delivery] at two_
      have bound := (List.getElem?_eq_some_iff.mp one_).1
      have same := (List.getElem?_inj bound ids).mp (one_.trans two_.symm)
      omega

theorem Orderly.claimed (orderly : Orderly s) (exact_ : Exact (claimDue s).spread) : Orderly (claimDue s) := by
  have row : ∀ d ∈ (claimDue s).deliveries, ∃ old ∈ s.deliveries, d = leased s old ∧ d.letter = old.letter ∧ d.status = old.status := by
    intro d member
    obtain ⟨old,known,rfl⟩ := List.mem_map.mp member
    exact ⟨old,known,rfl,(leased_kept old).1,(leased_kept old).2.1⟩
  have pays : ∀ row ∈ dueRows s, row.2.id = row.1.subscriptionId := fun row due => (subscriptionAt_parts (mem_dueRows due).2.1).2
  refine ⟨exact_,?_,?_,orderly.claimed_single,?_,?_,?_,?_,orderly.order⟩
  · intro taken member
    rw [claimDue_deliveries]
    rcases mem_claimDue member with ⟨claim,there,same,_⟩ | ⟨due,listed,rfl⟩
    · obtain ⟨d,known,id,owner,payload⟩ := orderly.known claim there
      have letter := (leased_kept (s := s) d).1
      rw [same]
      exact ⟨_,List.mem_map_of_mem known,(congrArg Letter.id letter).trans id,(congrArg Letter.readerId letter).trans owner,
        (congrArg Letter.payload letter).trans payload⟩
    · have letter := (leased_kept (s := s) due.1).1
      exact ⟨_,List.mem_map_of_mem (mem_dueRows listed).1,congrArg Letter.id letter,
        (congrArg Letter.readerId letter).trans (pays due listed).symm,congrArg Letter.payload letter⟩
  · intro taken member open_ inside d known id
    obtain ⟨old,there,rfl,letter,status⟩ := row d known
    have id_ : (leased s old).id = old.id := congrArg Letter.id letter
    rcases mem_claimDue member with ⟨claim,held,same,phase⟩ | ⟨due,listed,rfl⟩
    · rw [same] at inside id ⊢
      rw [phase] at open_
      have still := orderly.lease claim held open_ inside old there (id_.symm.trans id)
      refine ⟨status.trans still.1,?_⟩
      unfold leased
      rw [if_neg]
      · exact still.2
      · intro listed
        obtain ⟨due,isDue_,equal⟩ := List.mem_map.mp listed
        exact orderly.not_due held open_ inside isDue_ (equal.trans (id_.symm.trans id))
    · obtain ⟨there_,_,isDue_⟩ := mem_dueRows listed
      have one := delivery_same orderly.exact_ there there_ (id_.symm.trans id)
      subst one
      refine ⟨status.trans (isDue_parts isDue_).1,?_⟩
      unfold leased
      rw [if_pos (List.mem_map_of_mem listed)]
      rfl
  · intro taken member d known mine entity before
    obtain ⟨old,there,_,letter,status⟩ := row d known
    rw [status]
    have mine_ : old.subscriptionId = d.subscriptionId := (congrArg Letter.readerId letter).symm
    have entity_ : old.entity = d.entity := (congrArg Letter.entity letter).symm
    have marker_ : old.markerId = d.markerId := (congrArg Letter.markerId letter).symm
    rcases mem_claimDue member with ⟨claim,held,same,_⟩ | ⟨due,listed,rfl⟩
    · rw [same] at mine entity before
      exact orderly.passed claim held old there (mine_.trans mine) (entity_.trans entity) (lt_of_eq_of_lt marker_ before)
    · obtain ⟨there_,_,isDue_⟩ := mem_dueRows listed
      obtain ⟨marker,about,_⟩ := delivery_payload orderly.exact_ there_
      have clear := (isDue_parts isDue_).2.2.2
      exact clear old there (mine_.trans (mine.trans (pays due listed))) (entity_.trans (entity.trans about))
        (lt_of_eq_of_lt marker_ (lt_of_lt_of_eq before marker))
  · intro taken member succeeded
    rcases mem_claimDue member with ⟨claim,held,same,phase⟩ | ⟨due,_,rfl⟩
    · rw [phase] at succeeded
      rw [same]
      exact orderly.arrived claim held succeeded
    · cases succeeded
  · intro d known succeeded
    obtain ⟨old,there,_,letter,status⟩ := row d known
    have id_ : d.id = old.id := congrArg Letter.id letter
    rw [id_]
    exact orderly.done old there (status.symm.trans succeeded)
  · intro r member
    obtain ⟨claim,held,same⟩ := orderly.sent r member
    rw [claimDue_claims]
    exact ⟨_,List.mem_append_left _ (List.mem_map_of_mem held),(replace_kept _ claim).1.trans same⟩

theorem Orderly.wrote (orderly : Orderly s) (exact_ : Exact next.spread) (written : recordWrite drawn s k = some next) : Orderly next := by
  unfold recordWrite at written
  split at written
  · rename_i outgoing outcome attemptCount eventId failures now replaced found
    have closed : Orderly (setPhase s k .over) := orderly.phased found nofun nofun (fun _ member => member) (fun _ member => .inl member) orderly.order
    split at written
    · rename_i held
      cases written
      obtain ⟨row,there,still⟩ := (Option.any_eq_true _ _).mp held
      obtain ⟨known,id⟩ := deliveryAt_parts there
      unfold stillHeld at still
      simp only [Bool.and_eq_true,decide_eq_true_eq] at still
      obtain ⟨⟨pending,lease⟩,_⟩ := still
      apply closed.recorded exact_ (charged_letter drawn outcome (attemptCount+1) eventId now) rfl rfl rfl rfl
      · intro d member same
        rw [delivery_same orderly.exact_ member known (same.trans id.symm)]
        exact pending
      · intro claim member open_ inside same
        obtain ⟨j,foundAt⟩ := List.mem_iff_getElem?.mp member
        rw [setPhase_claims] at foundAt
        split at foundAt
        · obtain ⟨_,_,rfl⟩ := Option.map_eq_some_iff.mp foundAt
          exact open_ rfl
        · rename_i apart
          have mine := (orderly.lease claim (List.mem_of_getElem? foundAt) open_ inside row known (id.trans same.symm)).2
          have leases := Option.some.inj (mine.symm.trans lease)
          exact apart (orderly.single k j _ claim found foundAt nofun open_ same.symm leases.symm)
      · intro d settled
        unfold charged at settled
        split at settled
        · rename_i succeeded
          exact .inr (orderly.arrived _ (List.mem_of_getElem? found) succeeded)
        · split at settled
          · cases settled
          · exact .inl settled
    · cases written
      exact closed
  · cases written

theorem Orderly.preserved {op : Operation} (orderly : Orderly s) (admitted : InLease s op) (taken : step drawn s op = some next) : Orderly next := by
  have exact_ : Exact next.spread := orderly.exact_.path (step_path orderly.exact_ taken)
  cases op with
  | change id at_ row =>
    obtain ⟨later,_,rfl⟩ := Option.map_eq_some_iff.mp taken
    exact orderly.aside exact_ rfl rfl rfl (Int.le_refl _)
  | advanceTo instant =>
    simp only [step,Option.ite_none_right_eq_some,Option.some.injEq] at taken
    obtain ⟨later,rfl⟩ := taken
    exact orderly.aside exact_ rfl rfl rfl later
  | createWebhook =>
    cases taken
    exact orderly.aside exact_ rfl rfl rfl (Int.le_refl _)
  | updateWebhook =>
    cases taken
    exact orderly.aside exact_ rfl rfl rfl (Int.le_refl _)
  | pause =>
    cases taken
    exact orderly.aside exact_ rfl rfl rfl (Int.le_refl _)
  | resumeWebhook =>
    cases taken
    exact orderly.aside exact_ rfl rfl rfl (Int.le_refl _)
  | deleteWebhook => exact admitted.elim
  | redeliverWebhook => exact admitted.elim
  | fanOut batch waits locked =>
    simp only [step,Option.ite_none_right_eq_some,Option.some.injEq] at taken
    obtain ⟨_,rfl⟩ := taken
    obtain ⟨made,adds⟩ := fanOut_adds orderly.exact_ batch waits locked (s.subscriptions.map WebhookSubscription.id)
    exact orderly.added exact_ adds
  | claimDue =>
    cases taken
    exact orderly.claimed exact_
  | send k outcome arrives =>
    simp only [step,send] at taken
    split at taken
    · rename_i outgoing replaced found
      have inside := admitted _ found
      split at taken
      · cases taken
      · rename_i answered
        cases taken
        cases arrives with
        | true =>
          exact orderly.phased found (fun ended => by cases ended) (fun _ => ⟨outgoing,List.mem_append_right _ (List.mem_singleton_self _),rfl⟩)
            (fun _ member => List.mem_append_left _ member)
            (fun r member => (List.mem_append.mp member).imp_right List.mem_singleton.mp) (orderly.sends found (fun ended => by cases ended) inside)
        | false =>
          have failed : outcome.succeeded = false := by simpa using answered
          refine orderly.phased found (fun ended => by cases ended) ?_ (fun _ member => member) (fun _ member => .inl member) orderly.order
          intro succeeded
          exact absurd (failed.symm.trans succeeded) Bool.false_ne_true
    · cases taken
  | recordRead k =>
    simp only [step,recordRead] at taken
    split at taken
    · rename_i outgoing outcome replaced found
      split at taken
      · cases taken
        exact orderly.phased found (fun ended => by cases ended) (orderly.arrived _ (List.mem_of_getElem? found)) (fun _ member => member) (fun _ member => .inl member)
          orderly.order
      · cases taken
        exact orderly.phased found (fun ended => by cases ended) (fun done => by cases done) (fun _ member => member) (fun _ member => .inl member) orderly.order
    · cases taken
  | recordWrite k => exact orderly.wrote exact_ taken

-- Without changes of the event types every batch was taken with those of now.
def Steady (s : World) : Prop := ∀ sub ∈ s.subscriptions, ∀ c ∈ sub.crossings, c.wanted = sub.eventTypes

theorem Steady.set (steady : Steady s) {id : Nat} {f : WebhookSubscription → WebhookSubscription}
    (kept : ∀ sub, (∀ c ∈ sub.crossings, c.wanted = sub.eventTypes) → ∀ c ∈ (f sub).crossings, c.wanted = (f sub).eventTypes) :
    ∀ sub ∈ (setSubscription s id f).subscriptions, ∀ c ∈ sub.crossings, c.wanted = sub.eventTypes := by
  intro sub member
  obtain ⟨old,there,rfl⟩ := List.mem_map.mp member
  split
  · exact kept old (steady old there)
  · exact steady old there

theorem Steady.fanOne (steady : Steady s) (batch : Nat) (waits : Bool) (locked : List Nat) (id : Nat) :
    Steady (fanOutOne batch waits locked s id) := by
  unfold fanOutOne
  split
  · split
    · unfold fanOutTo
      dsimp only
      split
      · exact steady
      · apply steady.set
        intro sub same c member
        rcases List.mem_append.mp member with old | new
        · exact same c old
        · cases List.mem_singleton.mp new
          rfl
    · exact steady
  · exact steady

theorem Steady.fan (steady : Steady s) (batch : Nat) (waits : Bool) (locked ids : List Nat) :
    Steady (ids.foldl (fanOutOne batch waits locked) s) := by
  induction ids generalizing s with
  | nil => exact steady
  | cons id rest ih => exact ih (steady.fanOne batch waits locked id)

theorem counted_types (outcome : Outcome) (attempts failures : Nat) (now : Int) (sub : WebhookSubscription) :
    (counted outcome attempts failures now sub).eventTypes = sub.eventTypes := by
  unfold counted
  split
  · split <;> rfl
  · split <;> rfl

theorem Steady.preserved {op : Operation} (steady : Steady s) (admitted : InLease s op) (taken : step drawn s op = some next) : Steady next := by
  cases op with
  | change id at_ row =>
    obtain ⟨later,_,rfl⟩ := Option.map_eq_some_iff.mp taken
    exact steady
  | advanceTo instant =>
    simp only [step,Option.ite_none_right_eq_some,Option.some.injEq] at taken
    obtain ⟨_,rfl⟩ := taken
    exact steady
  | createWebhook organization url eventTypes active secret =>
    cases taken
    intro sub member
    rcases List.mem_append.mp member with old | new
    · exact steady sub old
    · cases List.mem_singleton.mp new
      exact fun _ crossed => absurd crossed List.not_mem_nil
  | updateWebhook id url eventTypes active =>
    cases admitted
    cases taken
    exact steady.set (fun _ same => same)
  | pause id =>
    cases taken
    exact steady.set (fun _ same => same)
  | resumeWebhook id =>
    cases taken
    exact steady.set (fun _ same => same)
  | deleteWebhook => exact admitted.elim
  | redeliverWebhook => exact admitted.elim
  | fanOut batch waits locked =>
    simp only [step,Option.ite_none_right_eq_some,Option.some.injEq] at taken
    obtain ⟨_,rfl⟩ := taken
    exact steady.fan batch waits locked _
  | claimDue =>
    cases taken
    exact steady
  | send k outcome arrives =>
    simp only [step,send] at taken
    split at taken
    · split at taken
      · cases taken
      · cases taken
        exact steady
    · cases taken
  | recordRead k =>
    simp only [step,recordRead] at taken
    split at taken
    · split at taken
      · cases taken
        exact steady
      · cases taken
        exact steady
    · cases taken
  | recordWrite k =>
    simp only [step,recordWrite] at taken
    split at taken
    · rename_i outgoing outcome attemptCount eventId failures now replaced found
      split at taken
      · cases taken
        apply steady.set
        intro sub same c member
        have crossings : (counted outcome (attemptCount+1) failures now sub).crossings = sub.crossings :=
          congrArg Reader.crossings (counted_reader outcome (attemptCount+1) failures now sub)
        rw [crossings] at member
        rw [counted_types]
        exact same c member
      · cases taken
        exact steady
    · cases taken

def UnderLease (s : World) (d : WebhookDelivery) : Prop :=
  d.status = .pending ∧ ∃ claim ∈ s.claims, claim.outgoing.deliveryId = d.id ∧ d.nextAttemptAt = some claim.outgoing.lease ∧
    s.now < claim.outgoing.lease

theorem Orderly.claims_in_turn (orderly : Orderly s) {taken : Claim} (new : taken ∈ (claimDue s).claims.drop s.claims.length)
    {earlier : WebhookDelivery} (there : earlier ∈ s.deliveries) (mine : earlier.subscriptionId = taken.outgoing.subscriptionId)
    (about : earlier.entity = taken.outgoing.payload.entity) (before : earlier.markerId < taken.outgoing.payload.markerId) :
    earlier.status ≠ .pending := by
  have dropped : (claimDue s).claims.drop s.claims.length = (dueRows s).map (claimOf s) := by
    rw [claimDue_claims]
    have length : (s.claims.map (replace ((dueRows s).map (fun row => row.1.id)))).length = s.claims.length := List.length_map _
    rw [← length,List.drop_left]
  rw [dropped] at new
  obtain ⟨due,listed,rfl⟩ := List.mem_map.mp new
  obtain ⟨known,found,isDue_⟩ := mem_dueRows listed
  obtain ⟨marker,entity,_⟩ := delivery_payload orderly.exact_ known
  have pays := (subscriptionAt_parts found).2
  exact (isDue_parts isDue_).2.2.2 earlier there (mine.trans pays) (about.trans entity) (lt_of_lt_of_eq before marker)

theorem Orderly.one_lease (orderly : Orderly s) {a b : WebhookDelivery} (one : a ∈ s.deliveries) (two : b ∈ s.deliveries)
    (mine : a.subscriptionId = b.subscriptionId) (about : a.entity = b.entity) (leaseA : UnderLease s a) (leaseB : UnderLease s b) : a = b := by
  have ahead : ∀ {a b : WebhookDelivery}, a ∈ s.deliveries → b ∈ s.deliveries → a.subscriptionId = b.subscriptionId → a.entity = b.entity →
      a.status = .pending → UnderLease s b → ¬a.markerId < b.markerId := by
    intro a b one two mine about pending lease before
    obtain ⟨_,claim,there,same,_⟩ := lease
    obtain ⟨row,known,id,owner,entity,marker,_⟩ := orderly.claimed_row there
    cases delivery_same orderly.exact_ known two (id.trans same)
    exact orderly.passed claim there a one (mine.trans owner) (about.trans entity) (lt_of_lt_of_eq before marker) pending
  apply delivery_once orderly.exact_ one two mine
  have notBefore := ahead one two mine about leaseA.1 leaseB
  have notAfter := ahead two one mine.symm about.symm leaseB.1 leaseA
  omega

theorem last_of_sorted {received : List Outgoing} {r : Outgoing} (sorted : received.Pairwise (fun a b => a.payload.markerId < b.payload.markerId))
    (member : r ∈ received) (most : ∀ other ∈ received, other.payload.markerId ≤ r.payload.markerId) : received.getLast? = some r := by
  have nonempty : received ≠ [] := List.ne_nil_of_mem member
  obtain ⟨init,last,rfl⟩ : ∃ init last, received = init ++ [last] := ⟨_,_,(List.dropLast_append_getLast nonempty).symm⟩
  rw [List.getLast?_append,List.getLast?_singleton,Option.some_or]
  rcases List.mem_append.mp member with earlier | single
  · have before := (List.pairwise_append.mp sorted).2.2 r earlier last (List.mem_singleton_self last)
    have after := most last (List.mem_append_right _ (List.mem_singleton_self last))
    omega
  · rw [List.mem_singleton.mp single]

-- What a receiver had first of one row, for one subscription.
def firstsOf (s : World) (sub : WebhookSubscription) (entity : Entity) : List Outgoing :=
  (firsts s.received).filter (fun r => r.subscriptionId = sub.id ∧ r.payload.entity = entity)

theorem Orderly.ends_current (orderly : Orderly s) (steady : Steady s) (there : sub ∈ s.subscriptions) {entity : Entity}
    (wants : ∀ change, sub.eventTypes.contains (entity.1,change) = true)
    (caught : latestMarkerId (markersOf sub.organizationId s.tables) ≤ sub.cursor)
    (finished : ∀ d ∈ s.deliveries, d.subscriptionId = sub.id → d.status = .succeeded)
    (changed : ∃ m ∈ markersOf sub.organizationId s.tables, m.entity = entity ∧ sub.startCursor < m.id) :
    ∃ last, (firstsOf s sub entity).getLast? = some last ∧ last.payload.row = currentRow s.tables entity := by
  obtain ⟨first,own,about,after⟩ := changed
  have named : first ∈ (markersOf sub.organizationId s.tables).filter (fun m => m.entity = entity) := by simpa using And.intro own about
  obtain ⟨newest,listed,equal⟩ := Feeds.latest_mem ChangeMarker.id (List.ne_nil_of_mem named)
  obtain ⟨owned,same⟩ := List.mem_filter.mp listed
  have same : newest.entity = entity := of_decide_eq_true same
  have most : ∀ m ∈ markersOf sub.organizationId s.tables, m.entity = entity → m.id ≤ newest.id := by
    intro m there_ named_
    rw [equal]
    exact Feeds.le_latest (List.mem_filter.mpr ⟨there_,decide_eq_true named_⟩)
  have served := orderly.exact_.served sub.reader (List.mem_map_of_mem there)
  have within : newest.id ≤ sub.cursor := Nat.le_trans (Feeds.le_latest owned) caught
  obtain ⟨c,crossed,spans⟩ := served.chained.covers (Nat.lt_of_lt_of_le after (most first own about)) within
  have wanted : c.wanted.contains (eventType newest) = true := by
    rw [steady sub there c crossed]
    have kind : newest.entityKind = entity.1 := congrArg Prod.fst same
    unfold eventType
    rw [kind]
    exact wants _
  obtain ⟨l,written,mine,marker⟩ := served.complete c crossed newest owned spans wanted
  obtain ⟨d,known,rfl⟩ := List.mem_map.mp written
  obtain ⟨r,had,id⟩ := orderly.done d known (finished d known mine)
  obtain ⟨begun,listed_,id_⟩ := firsts_of_mem had
  have mineOf : ∀ r ∈ firsts s.received, ∃ d ∈ s.deliveries, d.id = r.deliveryId ∧ d.subscriptionId = r.subscriptionId ∧ d.payload = r.payload := by
    intro r member
    obtain ⟨claim,claimed,rfl⟩ := orderly.sent r (mem_firsts member)
    exact orderly.known claim claimed
  obtain ⟨row,known_,rowId,owner,payload⟩ := mineOf begun listed_
  cases delivery_same orderly.exact_ known_ known (rowId.trans (id_.trans id))
  obtain ⟨payloadMarker,payloadEntity,_⟩ := delivery_payload orderly.exact_ known
  have due := delivery_due orderly.exact_ there known mine
  obtain ⟨m,m_own,m_marker,m_entity,_⟩ := due.about
  have marker : d.markerId = newest.id := marker
  have m_marker : d.markerId = m.id := m_marker
  have m_entity : d.entity = m.entity := m_entity
  cases orderly.exact_.rising.same (mem_markersOf.mp m_own).1 (mem_markersOf.mp owned).1 (m_marker.symm.trans marker)
  have entityOf : d.entity = entity := m_entity.trans same
  refine ⟨begun,?_,?_⟩
  · apply last_of_sorted
    · apply List.pairwise_filter.mpr
      apply orderly.order.imp
      intro a b turn atA atB
      obtain ⟨ofA,aboutA⟩ := of_decide_eq_true atA
      obtain ⟨ofB,aboutB⟩ := of_decide_eq_true atB
      exact turn (ofA.trans ofB.symm) (aboutA.trans aboutB.symm)
    · refine List.mem_filter.mpr ⟨listed_,decide_eq_true ⟨owner.symm.trans mine,?_⟩⟩
      rw [← payload]
      exact payloadEntity.trans entityOf
    · intro other member
      obtain ⟨had_,ours⟩ := List.mem_filter.mp member
      obtain ⟨ofOther,aboutOther⟩ := of_decide_eq_true ours
      obtain ⟨row_,written_,_,owner_,payload_⟩ := mineOf other had_
      obtain ⟨marker_,entity_,_⟩ := delivery_payload orderly.exact_ written_
      obtain ⟨n,n_own,n_marker,n_entity,_⟩ := (delivery_due orderly.exact_ there written_ (owner_.trans ofOther)).about
      have n_marker : row_.markerId = n.id := n_marker
      have n_entity : row_.entity = n.entity := n_entity
      have bound := most n n_own (n_entity.symm.trans (entity_.symm.trans (payload_ ▸ aboutOther)))
      rw [← payload_,← payload,marker_,payloadMarker,n_marker,marker]
      exact bound
  · rw [← payload]
    rcases due.body.known with current | ⟨late,late_own,late_about,beyond⟩
    · have current : d.payload.row = currentRow s.tables d.entity := current
      rw [current,entityOf]
    · have bound := most late late_own (Eq.trans late_about entityOf)
      have beyond : d.markerId < late.id := beyond
      omega

-- Events about one row in the order of its changes, and the last of them current.
theorem events_in_order {resources : List ResourceRow} {reservations : List ReservationRow}
    {linked : ∀ held ∈ reservations, (resourceAt resources held.resourceId).isSome} {now : Int}
    (path : Runs.Reached (Runs.Guarded (Steps drawn) InLease) (.start resources reservations linked now) s) :
    (∀ next, Steps drawn s .claimDue next → ∀ taken ∈ next.claims.drop s.claims.length, ∀ earlier ∈ s.deliveries,
      earlier.subscriptionId = taken.outgoing.subscriptionId → earlier.entity = taken.outgoing.payload.entity →
      earlier.markerId < taken.outgoing.payload.markerId → earlier.status ≠ .pending) ∧
    (∀ a ∈ s.deliveries, ∀ b ∈ s.deliveries, a.subscriptionId = b.subscriptionId → a.entity = b.entity → UnderLease s a → UnderLease s b → a = b) ∧
    (firsts s.received).Pairwise inTurn ∧
    (∀ sub ∈ s.subscriptions, ∀ entity, (∀ change, sub.eventTypes.contains (entity.1,change) = true) →
      latestMarkerId (markersOf sub.organizationId s.tables) ≤ sub.cursor →
      (∀ d ∈ s.deliveries, d.subscriptionId = sub.id → d.status = .succeeded) →
      (∃ m ∈ markersOf sub.organizationId s.tables, m.entity = entity ∧ sub.startCursor < m.id) →
      ∃ last, (firstsOf s sub entity).getLast? = some last ∧ last.payload.row = currentRow s.tables entity) := by
  have begun : Orderly (.start resources reservations linked now) := by
    refine ⟨start_exact linked now,?_,?_,?_,?_,?_,?_,?_,.nil⟩
    · exact fun _ member => absurd member List.not_mem_nil
    · exact fun _ member => absurd member List.not_mem_nil
    · exact fun _ _ _ _ found => absurd found (by simp [World.start])
    · exact fun _ member => absurd member List.not_mem_nil
    · exact fun _ member => absurd member List.not_mem_nil
    · exact fun _ member => absurd member List.not_mem_nil
    · exact fun _ member => absurd member List.not_mem_nil
  have run : Orderly s ∧ Steady s := by
    apply path.invariant (fun s => Orderly s ∧ Steady s) ⟨begun,fun _ member => absurd member List.not_mem_nil⟩
    intro before op after both taken
    exact ⟨both.1.preserved taken.1 taken.2,both.2.preserved taken.1 taken.2⟩
  obtain ⟨orderly,steady⟩ := run
  refine ⟨?_,?_,orderly.order,?_⟩
  · intro next taken claim new earlier there mine about before
    cases taken
    exact orderly.claims_in_turn new there mine about before
  · intro a one b two mine about leaseA leaseB
    exact orderly.one_lease one two mine about leaseA leaseB
  · intro sub there entity wants caught finished changed
    exact orderly.ends_current steady there wants caught finished changed

def answered (statusCode : Nat) : Outcome := ⟨some statusCode,40,none,none⟩
def timedOut : Outcome := ⟨none,15000,some "timed out",none⟩

-- The room's creation is received, but the answer is lost, and its renaming waits
-- for the second try.
def renamedWhileSending : List Operation := [.createWebhook "north" "https://north.example/hook" [(.resource,.created),(.resource,.updated)] true
  "whsec_bm9ydGg=",.change 1 0 (.resource (labRow 1 "north" "Lab") .created),.fanOut 500 false [],.claimDue,
  .change 2 0 (.resource (labRow 1 "north" "Wet Lab") .updated),.fanOut 500 false [],.send 0 timedOut true,.recordRead 0,.recordWrite 0,
  .advanceTo 5000000,.claimDue,.send 1 (answered 204) true,.recordRead 1,.recordWrite 1,.claimDue,.send 2 (answered 200) true,.recordRead 2,.recordWrite 2]

theorem renaming_received_last : ∃ s, Runs.trace (step fun _ _ => 0) InLease (.start [] [] nofun 0) renamedWhileSending = some s ∧
    s.received.map (fun r => r.payload.markerId) = [1,1,2] ∧ ∃ sub ∈ s.subscriptions, ∃ last,
      (firstsOf s sub (.resource,1)).getLast? = some last ∧ last.payload.row = some (.resource (labRow 1 "north" "Wet Lab")) := by
  have taken : ∃ s sub, Runs.trace (step fun _ _ => 0) InLease (.start [] [] nofun 0) renamedWhileSending = some s ∧ s.subscriptions = [sub] ∧
      s.received.map (fun r => r.payload.markerId) = [1,1,2] ∧ sub.eventTypes = [(.resource,.created),(.resource,.updated)] ∧
      latestMarkerId (markersOf sub.organizationId s.tables) = sub.cursor ∧ (∀ d ∈ s.deliveries, d.status = .succeeded) ∧
      (∃ m ∈ markersOf sub.organizationId s.tables, m.entity = (.resource,1) ∧ sub.startCursor < m.id) ∧
      currentRow s.tables (.resource,1) = some (.resource (labRow 1 "north" "Wet Lab")) :=
    ⟨_,_,rfl,rfl,rfl,rfl,rfl,by decide,by decide,rfl⟩
  obtain ⟨s,sub,run,subscriptions,received,eventTypes,caught,finished,changed,current⟩ := taken
  have there : sub ∈ s.subscriptions := subscriptions ▸ List.mem_cons_self
  obtain ⟨_,_,_,ends⟩ := events_in_order (Runs.trace_reached .start run)
  obtain ⟨last,ends,row⟩ := ends sub there (.resource,1) (by rw [eventTypes]; intro change; cases change <;> rfl) (Nat.le_of_eq caught)
    (fun d known _ => finished d known) changed
  exact ⟨s,run,received,sub,there,last,ends,row.trans current⟩

end ChronosLedger.Webhooks
