import ChronosLedger.FanOutRuns

namespace ChronosLedger.Webhooks
open ChangeFeed

variable {drawn : Nat → Nat → Nat} {s next : World} {sub : WebhookSubscription} {d : WebhookDelivery} {k : Nat} {claim : Claim}

theorem delivery_same (exact_ : Exact s.spread) {a b : WebhookDelivery} (one : a ∈ s.deliveries) (two : b ∈ s.deliveries) (same : a.id = b.id) :
    a = b := by
  have ids := exact_.ids
  change ((s.deliveries.map WebhookDelivery.letter).map Letter.id).Nodup at ids
  rw [List.map_map] at ids
  exact List.inj_on_of_nodup_map ids one two same

-- Two deliveries of one subscription about one marker are the same.
theorem delivery_once (exact_ : Exact s.spread) {a b : WebhookDelivery} (one : a ∈ s.deliveries) (two : b ∈ s.deliveries)
    (mine : a.subscriptionId = b.subscriptionId) (marker : a.markerId = b.markerId) : a = b := by
  have once := exact_.once
  change ((s.deliveries.map WebhookDelivery.letter).map (fun l => (l.readerId,l.markerId))).Nodup at once
  rw [List.map_map] at once
  exact List.inj_on_of_nodup_map once one two (Prod.ext mine marker)

theorem delivery_payload (exact_ : Exact s.spread) (there : d ∈ s.deliveries) :
    d.payload.markerId = d.markerId ∧ d.payload.entity = d.entity ∧ d.id < s.nextDelivery := by
  obtain ⟨r,_,_,due⟩ := exact_.due d.letter (List.mem_map_of_mem there)
  obtain ⟨m,_,marker,entity,payloadMarker,payloadEntity,_⟩ := due.about
  exact ⟨payloadMarker.trans marker.symm,payloadEntity.trans entity.symm,exact_.fresh d.letter (List.mem_map_of_mem there)⟩

theorem deliveryAt_parts {id : Nat} (found : deliveryAt s id = some d) : d ∈ s.deliveries ∧ d.id = id :=
  ⟨List.mem_of_find?_eq_some found,by simpa using List.find?_some found⟩

-- What a pass adds: pending deliveries under new ids, each about a later marker
-- than any its subscription had.
structure Adds (s next : World) (made : List WebhookDelivery) : Prop where
  deliveries : next.deliveries = s.deliveries ++ made
  claims : next.claims = s.claims
  received : next.received = s.received
  attempts : next.attempts = s.attempts
  now : next.now = s.now
  nextDelivery : s.nextDelivery ≤ next.nextDelivery
  fresh : ∀ d ∈ made, d.status = .pending ∧ d.attemptCount = 0 ∧ d.nextAttemptAt = some s.now ∧ d.completedAt = none ∧ d.attemptsBefore = 0 ∧
    s.nextDelivery ≤ d.id
  later : ∀ d ∈ made, ∀ old ∈ s.deliveries, old.subscriptionId = d.subscriptionId → old.markerId < d.markerId

theorem Adds.nothing (s : World) : Adds s s [] :=
  ⟨(List.append_nil _).symm,rfl,rfl,rfl,rfl,Nat.le_refl _,fun _ member => absurd member List.not_mem_nil,fun _ member => absurd member List.not_mem_nil⟩

theorem Adds.trans {middle : World} {one two : List WebhookDelivery} (first : Adds s middle one) (second : Adds middle next two) :
    Adds s next (one ++ two) := by
  refine ⟨?_,second.claims.trans first.claims,second.received.trans first.received,second.attempts.trans first.attempts,
    second.now.trans first.now,Nat.le_trans first.nextDelivery second.nextDelivery,?_,?_⟩
  · rw [second.deliveries,first.deliveries,List.append_assoc]
  · intro d member
    rcases List.mem_append.mp member with early | late
    · exact first.fresh d early
    · obtain ⟨status,count,due,completed,before,id⟩ := second.fresh d late
      exact ⟨status,count,first.now ▸ due,completed,before,Nat.le_trans first.nextDelivery id⟩
  · intro d member old known mine
    rcases List.mem_append.mp member with early | late
    · exact first.later d early old known mine
    · exact second.later d late old (first.deliveries ▸ List.mem_append_left _ known) mine

theorem fanOutTo_adds (exact_ : Exact s.spread) (there : sub ∈ s.subscriptions) (batch : Nat) (waits : Bool) :
    ∃ made, Adds s (fanOutTo s batch waits sub) made := by
  unfold fanOutTo
  dsimp only
  split
  · exact ⟨[],Adds.nothing s⟩
  · refine ⟨_,rfl,rfl,rfl,rfl,rfl,Nat.le_add_right _ _,?_,?_⟩
    · intro d member
      obtain ⟨id,m,_,low,_,rfl⟩ := mem_numbered member
      exact ⟨rfl,rfl,rfl,rfl,rfl,low⟩
    · intro d member old known mine
      obtain ⟨id,m,wanted,_,_,rfl⟩ := mem_numbered member
      have coming := (batchOf_page s batch waits sub).subset (List.mem_filter.mp wanted).1
      have due := delivery_due exact_ there known mine
      obtain ⟨marker,_,same,_,_,_,c,crossed,spans,_⟩ := due.about
      have bounds := (exact_.served sub.reader (List.mem_map_of_mem there)).chained.bounds.2 c crossed
      have same : old.markerId = marker.id := same
      have upTo := spans.2
      have cursor : c.upTo ≤ sub.cursor := bounds.2
      have after := (Feeds.mem_beyond.mp coming).2
      change old.markerId < m.id
      omega

theorem fanOutOne_adds (exact_ : Exact s.spread) (batch : Nat) (waits : Bool) (locked : List Nat) (id : Nat) :
    ∃ made, Adds s (fanOutOne batch waits locked s id) made := by
  unfold fanOutOne
  split
  · rename_i sub found
    split
    · exact fanOutTo_adds exact_ (subscriptionAt_parts found).1 batch waits
    · exact ⟨[],Adds.nothing s⟩
  · exact ⟨[],Adds.nothing s⟩

theorem fanOut_adds (exact_ : Exact s.spread) (batch : Nat) (waits : Bool) (locked ids : List Nat) :
    ∃ made, Adds s (ids.foldl (fanOutOne batch waits locked) s) made := by
  induction ids generalizing s with
  | nil => exact ⟨[],Adds.nothing s⟩
  | cons id rest ih =>
    obtain ⟨one,first⟩ := fanOutOne_adds exact_ batch waits locked id
    obtain ⟨two,second⟩ := ih (exact_.path (fanOutOne_path exact_ batch waits locked id))
    exact ⟨one ++ two,first.trans second⟩

theorem dueJoin_parts {row : WebhookDelivery × WebhookSubscription} (found : dueJoin s d = some row) :
    row.1 = d ∧ subscriptionAt s d.subscriptionId = some row.2 ∧ isDue s d row.2 = true := by
  obtain ⟨sub,there,found⟩ := Option.bind_eq_some_iff.mp found
  simp only [Option.ite_none_right_eq_some,Option.some.injEq] at found
  obtain ⟨due,rfl⟩ := found
  exact ⟨rfl,there,due⟩

theorem mem_dueRows {row : WebhookDelivery × WebhookSubscription} (member : row ∈ dueRows s) :
    row.1 ∈ s.deliveries ∧ subscriptionAt s row.1.subscriptionId = some row.2 ∧ isDue s row.1 row.2 = true := by
  have joined := (List.mem_insertionSort _).mp (List.mem_of_mem_take member)
  obtain ⟨d,there,found⟩ := List.mem_filterMap.mp joined
  obtain ⟨rfl,known,due⟩ := dueJoin_parts found
  exact ⟨there,known,due⟩

theorem isDue_parts (due : isDue s d sub = true) : d.status = .pending ∧ (∃ at_, d.nextAttemptAt = some at_ ∧ at_ ≤ s.now) ∧
    live sub = true ∧ ∀ earlier ∈ s.deliveries, earlier.subscriptionId = d.subscriptionId → earlier.entity = d.entity →
      earlier.markerId < d.markerId → earlier.status ≠ .pending := by
  unfold isDue heldUp at due
  simp only [Bool.and_eq_true,decide_eq_true_eq,Bool.not_eq_true',List.any_eq_false] at due
  obtain ⟨⟨⟨pending,time⟩,lives⟩,clear⟩ := due
  refine ⟨pending,?_,lives,?_⟩
  · cases next_ : d.nextAttemptAt with
    | none =>
      rw [next_] at time
      cases time
    | some at_ =>
      rw [next_] at time
      exact ⟨at_,rfl,by simpa using time⟩
  · intro earlier there mine entity marker still
    exact clear earlier there ⟨mine,entity,marker,still⟩

theorem filterMap_ids {rows : List WebhookDelivery} :
    ((rows.filterMap (dueJoin s)).map (fun row => row.1.id)).Sublist (rows.map WebhookDelivery.id) := by
  induction rows with
  | nil => exact List.Sublist.slnil
  | cons d rest ih =>
    cases found : dueJoin s d with
    | none =>
      rw [List.filterMap_cons_none found]
      exact ih.cons _
    | some row =>
      rw [List.filterMap_cons_some found,List.map_cons,List.map_cons,(dueJoin_parts found).1]
      exact ih.cons_cons _

theorem dueRows_ids (exact_ : Exact s.spread) : ((dueRows s).map (fun row => row.1.id)).Nodup := by
  have ids := exact_.ids
  change ((s.deliveries.map WebhookDelivery.letter).map Letter.id).Nodup at ids
  rw [List.map_map] at ids
  have joined : ((s.deliveries.filterMap (dueJoin s)).map (fun row => row.1.id)).Nodup := ids.sublist filterMap_ids
  have sorted := ((List.perm_insertionSort (fun a b => dueBefore a b = true) (s.deliveries.filterMap (dueJoin s))).map (fun row => row.1.id)).nodup_iff.mpr joined
  exact sorted.sublist ((List.take_sublist _ _).map _)

def leased (s : World) (d : WebhookDelivery) : WebhookDelivery :=
  if d.id ∈ (dueRows s).map (fun row => row.1.id) then {d with nextAttemptAt := some (s.now+claimLease)} else d

theorem leased_kept (d : WebhookDelivery) : (leased s d).letter = d.letter ∧ (leased s d).status = d.status ∧
    (leased s d).attemptCount = d.attemptCount ∧ (leased s d).completedAt = d.completedAt ∧ (leased s d).attemptsBefore = d.attemptsBefore := by
  unfold leased
  split <;> exact ⟨rfl,rfl,rfl,rfl,rfl⟩

theorem setPhase_claims {phase : Phase} {j : Nat} : (setPhase s k phase).claims[j]? =
    if k = j then (s.claims[j]?).map (fun claim => {claim with phase := phase}) else s.claims[j]? := by
  unfold setPhase
  rw [List.getElem?_modify]
  split <;> simp

end ChronosLedger.Webhooks
