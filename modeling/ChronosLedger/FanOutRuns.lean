import Mathlib.Data.List.TakeWhile
import ChronosLedger.FanOut

namespace ChronosLedger.Webhooks
open ChangeFeed

variable {drawn : Nat → Nat → Nat} {s next later : World} {sub : WebhookSubscription}

def WebhookSubscription.reader (sub : WebhookSubscription) : Reader :=
  ⟨sub.id,sub.organizationId,sub.startCursor,sub.cursor,sub.crossings⟩

def WebhookDelivery.letter (d : WebhookDelivery) : Letter := ⟨d.id,d.subscriptionId,d.markerId,d.entity,d.payload⟩

def World.spread (s : World) : Spread :=
  ⟨s.tables,s.subscriptions.map WebhookSubscription.reader,s.deliveries.map WebhookDelivery.letter,s.nextSubscription,s.nextDelivery⟩

theorem map_kept {α β : Type} {rows : List α} {f : α → α} {g : α → β} (kept : ∀ row ∈ rows, g (f row) = g row) :
    (rows.map f).map g = rows.map g := by
  rw [List.map_map]
  exact List.map_congr_left kept

theorem setSubscription_readers (id : Nat) {f : WebhookSubscription → WebhookSubscription} (kept : ∀ sub, (f sub).reader = sub.reader) :
    (setSubscription s id f).subscriptions.map WebhookSubscription.reader = s.subscriptions.map WebhookSubscription.reader := by
  apply map_kept
  intro sub _
  split
  · exact kept sub
  · rfl

theorem setSubscription_path {id : Nat} {f : WebhookSubscription → WebhookSubscription} (kept : ∀ sub, (f sub).reader = sub.reader) :
    SpreadPath s.spread (setSubscription s id f).spread := by
  unfold World.spread
  rw [setSubscription_readers id kept]
  exact .refl

theorem setDelivery_letters (id : Nat) (f : WebhookDelivery → WebhookDelivery) (kept : ∀ d, (f d).letter = d.letter) :
    (setDelivery s id f).deliveries.map WebhookDelivery.letter = s.deliveries.map WebhookDelivery.letter := by
  apply map_kept
  intro d _
  split
  · exact kept d
  · rfl

theorem charged_letter (drawn : Nat → Nat → Nat) (outcome : Outcome) (attempts eventId : Nat) (now : Int) (d : WebhookDelivery) :
    (charged drawn outcome attempts eventId now d).letter = d.letter := by
  unfold charged
  split
  · rfl
  · split <;> rfl

theorem counted_reader (outcome : Outcome) (attempts failures : Nat) (now : Int) (sub : WebhookSubscription) :
    (counted outcome attempts failures now sub).reader = sub.reader := by
  unfold counted
  split
  · split <;> rfl
  · split <;> rfl

theorem claimDue_spread : (claimDue s).spread = s.spread := by
  have letters : (claimDue s).deliveries.map WebhookDelivery.letter = s.deliveries.map WebhookDelivery.letter := by
    apply map_kept
    intro d _
    split <;> rfl
  unfold World.spread
  rw [letters]
  rfl

theorem send_spread {k : Nat} {outcome : Outcome} {arrives : Bool} (sent : send s k outcome arrives = some next) : next.spread = s.spread := by
  unfold send at sent
  split at sent
  · split at sent
    · cases sent
    · cases sent
      rfl
  · cases sent

theorem recordRead_spread {k : Nat} (read : recordRead s k = some next) : next.spread = s.spread := by
  unfold recordRead at read
  split at read
  · split at read
    · cases read
      rfl
    · cases read
      rfl
  · cases read

theorem recordWrite_spread {k : Nat} (written : recordWrite drawn s k = some next) : next.spread = s.spread := by
  unfold recordWrite at written
  split at written
  · rename_i outgoing outcome attemptCount eventId failures now replaced found
    split at written
    · cases written
      unfold World.spread
      rw [← setDelivery_letters (s := s) outgoing.deliveryId _ (charged_letter drawn outcome (attemptCount+1) eventId now),
        ← setSubscription_readers (s := s) outgoing.subscriptionId (counted_reader outcome (attemptCount+1) failures now)]
      rfl
    · cases written
      rfl
  · cases written

theorem redeliver_spread {subscriptionId deliveryId : Nat} (again : redeliverWebhook s subscriptionId deliveryId = some next) :
    next.spread = s.spread := by
  unfold redeliverWebhook at again
  split at again
  · cases again
    unfold World.spread
    rw [← setDelivery_letters (s := s) deliveryId (redeliver s) (fun _ => rfl)]
    rfl
  · cases again

theorem createWebhook_move {organization url secret : String} {eventTypes : List EventType} {active : Bool} :
    SpreadMove s.spread (createWebhook s organization url eventTypes active secret).spread := by
  have moved := SpreadMove.enter (t := s.spread) organization
  have equal : (createWebhook s organization url eventTypes active secret).spread = {s.spread with
      readers := s.spread.readers ++ [⟨s.spread.nextReader,organization,latestMarkerId (markersOf organization s.spread.tables),
        latestMarkerId (markersOf organization s.spread.tables),[]⟩]
      nextReader := s.spread.nextReader+1} := by
    unfold World.spread createWebhook
    simp only [List.map_append]
    rfl
  rw [equal]
  exact moved

theorem deleteWebhook_move {id : Nat} : SpreadMove s.spread (deleteWebhook s id).spread := by
  have moved := SpreadMove.leave (t := s.spread) id
  have equal : (deleteWebhook s id).spread = {s.spread with
      readers := s.spread.readers.filter (fun r => r.id ≠ id)
      letters := s.spread.letters.filter (fun l => l.readerId ≠ id)} := by
    unfold World.spread deleteWebhook
    simp only [List.filter_map]
    rfl
  rw [equal]
  exact moved

theorem subscription_same (exact_ : Exact s.spread) {a b : WebhookSubscription} (one : a ∈ s.subscriptions) (two : b ∈ s.subscriptions)
    (same : a.id = b.id) : a = b := by
  have distinct := exact_.distinct
  change ((s.subscriptions.map WebhookSubscription.reader).map Reader.id).Nodup at distinct
  rw [List.map_map] at distinct
  exact List.inj_on_of_nodup_map distinct one two same

theorem subscriptionAt_parts {id : Nat} (found : subscriptionAt s id = some sub) : sub ∈ s.subscriptions ∧ sub.id = id :=
  ⟨List.mem_of_find?_eq_some found,by simpa using List.find?_some found⟩

theorem subscriptionAt_mem (exact_ : Exact s.spread) (there : sub ∈ s.subscriptions) : subscriptionAt s sub.id = some sub := by
  cases found : subscriptionAt s sub.id with
  | none =>
    have missing := List.find?_eq_none.mp found sub there
    simp at missing
  | some other =>
    obtain ⟨member,same⟩ := subscriptionAt_parts found
    rw [subscription_same exact_ member there same]

theorem batchOf_page (s : World) (batch : Nat) (waits : Bool) (sub : WebhookSubscription) :
    batchOf s batch waits sub <+: Feeds.beyond ChangeMarker.id sub.cursor (markersOf sub.organizationId s.tables) :=
  (List.takeWhile_prefix _).trans (List.take_prefix _ _)

theorem chosen_letters (sub : WebhookSubscription) (markers : List ChangeMarker) (now : Int) (tables : FeedTables) (first : Nat) :
    (numbered (newDelivery now sub (currentRows tables ((chosen sub markers).map ChangeMarker.entity))) first (chosen sub markers)).map
      WebhookDelivery.letter = numbered (letterOf tables sub.id) first (wantedOf sub.eventTypes markers) := by
  have each : ∀ rest first, (∀ m ∈ rest, m ∈ chosen sub markers) →
      (numbered (newDelivery now sub (currentRows tables ((chosen sub markers).map ChangeMarker.entity))) first rest).map WebhookDelivery.letter =
        numbered (letterOf tables sub.id) first rest := by
    intro rest
    induction rest with
    | nil => exact fun _ _ => rfl
    | cons m rest ih =>
      intro first within
      have row := get_currentRows (t := tables) (List.mem_map_of_mem (f := ChangeMarker.entity) (within m List.mem_cons_self))
      have tail := ih (first+1) (fun m member => within m (List.mem_cons_of_mem _ member))
      have head : (newDelivery now sub (currentRows tables ((chosen sub markers).map ChangeMarker.entity)) first m).letter =
          letterOf tables sub.id first m := by
        unfold newDelivery letterOf WebhookDelivery.letter
        rw [row]
      unfold numbered
      rw [List.map_cons,head,tail]
  exact each _ first (fun _ member => member)

theorem numbered_length {β : Type} (make : Nat → ChangeMarker → β) (first : Nat) (markers : List ChangeMarker) :
    (numbered make first markers).length = markers.length := by
  induction markers generalizing first with
  | nil => rfl
  | cons m rest ih =>
    unfold numbered
    rw [List.length_cons,List.length_cons,ih]

theorem fanOutTo_path (exact_ : Exact s.spread) (there : sub ∈ s.subscriptions) (batch : Nat) (waits : Bool) :
    SpreadPath s.spread (fanOutTo s batch waits sub).spread := by
  unfold fanOutTo
  dsimp only
  cases ends : (batchOf s batch waits sub).getLast? with
  | none => exact .refl
  | some last =>
    have move := SpreadMove.cross (t := s.spread) (r := sub.reader) sub.eventTypes (List.mem_map_of_mem there) (batchOf_page s batch waits sub) ends
    have readers : (setSubscription s sub.id (fun sub => moved sub last)).subscriptions.map WebhookSubscription.reader =
        crossReaders (s.subscriptions.map WebhookSubscription.reader) sub.id last sub.eventTypes := by
      unfold setSubscription crossReaders
      rw [List.map_map,List.map_map]
      apply List.map_congr_left
      intro other member
      rw [Function.comp_apply,Function.comp_apply]
      by_cases same : other.id = sub.id
      · cases subscription_same exact_ member there same
        rw [if_pos rfl]
        exact (if_pos rfl).symm
      · rw [if_neg same]
        exact (if_neg same).symm
    refine .single ?_
    unfold World.spread
    dsimp only
    rw [readers,List.map_append,chosen_letters,numbered_length]
    exact move

theorem fanOutOne_path (exact_ : Exact s.spread) (batch : Nat) (waits : Bool) (locked : List Nat) (id : Nat) : SpreadPath s.spread (fanOutOne batch waits locked s id).spread := by
  unfold fanOutOne
  split
  · rename_i sub found
    split
    · exact fanOutTo_path exact_ (subscriptionAt_parts found).1 batch waits
    · exact .refl
  · exact .refl

theorem fanOut_path (exact_ : Exact s.spread) (batch : Nat) (waits : Bool) (locked ids : List Nat) :
    SpreadPath s.spread (ids.foldl (fanOutOne batch waits locked) s).spread := by
  induction ids generalizing s with
  | nil => exact .refl
  | cons id rest ih =>
    have first := fanOutOne_path exact_ batch waits locked id
    exact first.trans (ih (exact_.path first))

theorem step_path {op : Operation} (exact_ : Exact s.spread) (taken : step drawn s op = some next) : SpreadPath s.spread next.spread := by
  cases op with
  | change id at_ row =>
    obtain ⟨later,changed,rfl⟩ := Option.map_eq_some_iff.mp taken
    obtain ⟨m,changed⟩ := change_changed changed
    exact .single (.change changed)
  | advanceTo instant =>
    simp only [step,Option.ite_none_right_eq_some,Option.some.injEq] at taken
    obtain ⟨_,rfl⟩ := taken
    exact .refl
  | createWebhook organization url eventTypes active secret =>
    cases taken
    exact .single createWebhook_move
  | updateWebhook id url eventTypes active =>
    cases taken
    exact setSubscription_path (fun _ => rfl)
  | pause id =>
    cases taken
    exact setSubscription_path (fun _ => rfl)
  | resumeWebhook id =>
    cases taken
    exact setSubscription_path (fun _ => rfl)
  | deleteWebhook id =>
    cases taken
    exact .single deleteWebhook_move
  | redeliverWebhook subscriptionId deliveryId =>
    rw [redeliver_spread taken]
  | fanOut batch waits locked =>
    simp only [step,Option.ite_none_right_eq_some,Option.some.injEq] at taken
    obtain ⟨_,rfl⟩ := taken
    exact fanOut_path exact_ batch waits locked _
  | claimDue =>
    cases taken
    rw [claimDue_spread]
  | send k outcome arrives => rw [send_spread taken]
  | recordRead k => rw [recordRead_spread taken]
  | recordWrite k => rw [recordWrite_spread taken]

theorem start_exact {resources : List ResourceRow} {reservations : List ReservationRow}
    (linked : ∀ held ∈ reservations, (resourceAt resources held.resourceId).isSome) (now : Int) :
    Exact (World.start resources reservations linked now).spread := by
  refine ⟨.nil,?_,.nil,?_,.nil,.nil,?_,?_⟩ <;> exact fun _ member => absurd member List.not_mem_nil

theorem run_path (exact_ : Exact s.spread) (path : Runs.Reached (Steps drawn) s later) : SpreadPath s.spread later.spread := by
  induction path with
  | start => exact .refl
  | step prior taken ih => exact ih.trans (step_path (exact_.path ih) taken)

-- Of one pass: what it does for a subscription that is live and not locked.
theorem fanOutTo_frame (s : World) (batch : Nat) (waits : Bool) (other : WebhookSubscription) :
    (fanOutTo s batch waits other).tables = s.tables ∧ (fanOutTo s batch waits other).now = s.now ∧
      ∀ sub ∈ s.subscriptions, sub.id ≠ other.id → sub ∈ (fanOutTo s batch waits other).subscriptions := by
  unfold fanOutTo
  dsimp only
  split
  · exact ⟨rfl,rfl,fun _ there _ => there⟩
  · refine ⟨rfl,rfl,?_⟩
    intro sub there apart
    exact List.mem_map.mpr ⟨sub,there,if_neg apart⟩

theorem fanOutOne_frame (s : World) (batch : Nat) (waits : Bool) (locked : List Nat) (id : Nat) :
    (fanOutOne batch waits locked s id).tables = s.tables ∧ (fanOutOne batch waits locked s id).now = s.now ∧
      ∀ sub ∈ s.subscriptions, sub.id ≠ id → sub ∈ (fanOutOne batch waits locked s id).subscriptions := by
  unfold fanOutOne
  split
  · rename_i other found
    split
    · have frame := fanOutTo_frame s batch waits other
      rw [(subscriptionAt_parts found).2] at frame
      exact frame
    · exact ⟨rfl,rfl,fun _ there _ => there⟩
  · exact ⟨rfl,rfl,fun _ there _ => there⟩

theorem fanOut_frame (s : World) (batch : Nat) (waits : Bool) (locked ids : List Nat) :
    (ids.foldl (fanOutOne batch waits locked) s).tables = s.tables ∧ (ids.foldl (fanOutOne batch waits locked) s).now = s.now ∧
      ∀ sub ∈ s.subscriptions, sub.id ∉ ids → sub ∈ (ids.foldl (fanOutOne batch waits locked) s).subscriptions := by
  induction ids generalizing s with
  | nil => exact ⟨rfl,rfl,fun _ there _ => there⟩
  | cons id rest ih =>
    obtain ⟨tables,now,kept⟩ := fanOutOne_frame s batch waits locked id
    obtain ⟨tables_,now_,kept_⟩ := ih (fanOutOne batch waits locked s id)
    refine ⟨tables_.trans tables,now_.trans now,?_⟩
    intro sub there outside
    have apart : sub.id ≠ id ∧ sub.id ∉ rest := by simpa using outside
    exact kept_ sub (kept sub there apart.1) apart.2

def toCome (s : World) (sub : WebhookSubscription) : List ChangeMarker :=
  Feeds.beyond ChangeMarker.id sub.cursor (markersOf sub.organizationId s.tables)

-- The pass takes the subscription: it is live, not locked, and on PostgreSQL its
-- organization's markers are old enough.
structure Takes (s : World) (waits : Bool) (locked : List Nat) (sub : WebhookSubscription) : Prop where
  there : sub ∈ s.subscriptions
  lives : live sub = true
  unlocked : sub.id ∉ locked
  settled : waits = true → ∀ m ∈ markersOf sub.organizationId s.tables, m.at_ ≤ s.now-postgresCommitGrace

theorem Takes.batch {waits : Bool} {locked : List Nat} (takes : Takes s waits locked sub) (batch : Nat) :
    batchOf s batch waits sub = (toCome s sub).take batch := by
  apply List.takeWhile_eq_self_iff.mpr
  intro m member
  have own := (Feeds.mem_beyond.mp (List.mem_of_mem_take member)).1
  cases waits with
  | false => rfl
  | true =>
    have settled := takes.settled rfl m own
    simp only [Bool.true_and,Bool.not_eq_true',decide_eq_false_iff_not,Int.not_lt]
    exact settled

theorem Takes.moves {batch : Nat} {waits : Bool} {locked : List Nat} (takes : Takes s waits locked sub) (exact_ : Exact s.spread)
    (some_ : 1 ≤ batch) (more : toCome s sub ≠ []) :
    ∃ m ∈ toCome s sub, moved sub m ∈ (fanOutOne batch waits locked s sub.id).subscriptions := by
  have batch_ := takes.batch batch
  have nonempty : batchOf s batch waits sub ≠ [] := by
    rw [batch_]
    intro empty
    rcases List.take_eq_nil_iff.mp empty with zero | none_
    · omega
    · exact more none_
  obtain ⟨last,ends⟩ : ∃ last, (batchOf s batch waits sub).getLast? = some last := ⟨_,List.getLast?_eq_some_getLast nonempty⟩
  have member := List.mem_of_getLast? ends
  rw [batch_] at member
  refine ⟨last,List.mem_of_mem_take member,?_⟩
  have now : fanOutOne batch waits locked s sub.id = fanOutTo s batch waits sub := by
    unfold fanOutOne
    rw [subscriptionAt_mem exact_ takes.there]
    simp [takes.lives,takes.unlocked]
  rw [now]
  unfold fanOutTo
  dsimp only
  rw [ends]
  exact List.mem_map.mpr ⟨sub,takes.there,if_pos rfl⟩

theorem fold_splits {α β : Type} (f : β → α → β) {xs : List α} {x : α} (nodup : xs.Nodup) (member : x ∈ xs) (b : β) :
    ∃ before after : List α, x ∉ before ∧ xs.foldl f b = after.foldl f (f (before.foldl f b) x) := by
  obtain ⟨before,after,rfl⟩ := List.append_of_mem member
  refine ⟨before,after,?_,by rw [List.foldl_append,List.foldl_cons]⟩
  intro earlier
  exact (List.nodup_append.mp nodup).2.2 x earlier x List.mem_cons_self rfl

theorem onward_subscription (exact_ : Exact s.spread) (path : SpreadPath s.spread later.spread) (there : sub ∈ s.subscriptions)
    {again : WebhookSubscription} (kept : again ∈ later.subscriptions) (same : again.id = sub.id) :
    sub.cursor ≤ again.cursor ∧ sub.startCursor = again.startCursor ∧ sub.organizationId = again.organizationId := by
  have onward := exact_.onward_path path
  have below : again.reader.id < s.nextSubscription := by
    change again.id < _
    rw [same]
    exact (exact_.served sub.reader (List.mem_map_of_mem there)).below
  obtain ⟨before,known,id,up,began,of_⟩ := onward.readers again.reader (List.mem_map_of_mem kept) below
  obtain ⟨old,member,rfl⟩ := List.mem_map.mp known
  cases subscription_same exact_ member there (Eq.trans id same)
  exact ⟨up,began,of_⟩

theorem Takes.shortens {batch : Nat} {waits : Bool} {locked : List Nat} (takes : Takes s waits locked sub) (exact_ : Exact s.spread)
    (some_ : 1 ≤ batch) {again : WebhookSubscription} (kept : again ∈ (fanOut s batch waits locked).subscriptions) (same : again.id = sub.id) :
    (toCome (fanOut s batch waits locked) again).length ≤ (toCome s sub).length-1 := by
  have member : sub.id ∈ s.subscriptions.map WebhookSubscription.id := List.mem_map_of_mem takes.there
  have distinct : (s.subscriptions.map WebhookSubscription.id).Nodup := by
    have readers := exact_.distinct
    change ((s.subscriptions.map WebhookSubscription.reader).map Reader.id).Nodup at readers
    rw [List.map_map] at readers
    exact readers
  have whole := onward_subscription exact_ (fanOut_path exact_ batch waits locked _) takes.there kept same
  have tables : (fanOut s batch waits locked).tables = s.tables := (fanOut_frame s batch waits locked _).1
  unfold toCome
  rw [tables,← whole.2.2]
  by_cases more : toCome s sub = []
  · have shorter := Feeds.beyond_length ChangeMarker.id whole.1 (markersOf sub.organizationId s.tables)
    rw [show Feeds.beyond ChangeMarker.id sub.cursor (markersOf sub.organizationId s.tables) = [] from more] at shorter ⊢
    exact shorter
  · obtain ⟨before,after,apart,split⟩ := fold_splits (fanOutOne batch waits locked) distinct member s
    obtain ⟨tablesBefore,now,keeps⟩ := fanOut_frame s batch waits locked before
    have first := fanOut_path exact_ batch waits locked before
    have takes_ : Takes (before.foldl (fanOutOne batch waits locked) s) waits locked sub := by
      refine ⟨keeps sub takes.there apart,takes.lives,takes.unlocked,?_⟩
      rw [tablesBefore,now]
      exact takes.settled
    have same_ : toCome (before.foldl (fanOutOne batch waits locked) s) sub = toCome s sub := by
      unfold toCome
      rw [tablesBefore]
    obtain ⟨m,coming,movedThere⟩ := takes_.moves (exact_.path first) some_ (by rw [same_]; exact more)
    have second := fanOutOne_path (exact_.path first) batch waits locked sub.id
    have third := fanOut_path ((exact_.path first).path second) batch waits locked after
    unfold fanOut at kept
    rw [split] at kept
    have passed := (onward_subscription ((exact_.path first).path second) third movedThere kept same).1
    rw [same_] at coming
    obtain ⟨own,beyond⟩ := Feeds.mem_beyond.mp coming
    have shorter := Feeds.beyond_shorter own beyond passed
    omega

def isChange : Operation → Bool
  | .change _ _ _ => true
  | _ => false

-- A stretch of a run without new changes, counting the passes that take the
-- subscription.
inductive Passing (drawn : Nat → Nat → Nat) (id : Nat) (s : World) : Nat → World → Prop where
  | start : Passing drawn id s 0 s
  | other {n : Nat} {middle next : World} {op : Operation} (prior : Passing drawn id s n middle) (quiet : isChange op = false)
      (taken : step drawn middle op = some next) : Passing drawn id s n next
  | pass {n batch : Nat} {waits : Bool} {locked : List Nat} {middle next : World} {sub : WebhookSubscription}
      (prior : Passing drawn id s n middle) (same : sub.id = id) (takes : Takes middle waits locked sub)
      (taken : step drawn middle (.fanOut batch waits locked) = some next) : Passing drawn id s (n+1) next

theorem Passing.path {id n : Nat} (passing : Passing drawn id s n later) (exact_ : Exact s.spread) : SpreadPath s.spread later.spread := by
  induction passing with
  | start => exact .refl
  | other prior quiet taken ih => exact ih.trans (step_path (exact_.path ih) taken)
  | pass prior same takes taken ih => exact ih.trans (step_path (exact_.path ih) taken)

theorem quiet_tables {op : Operation} (quiet : isChange op = false) (taken : step drawn s op = some next) : next.tables = s.tables := by
  cases op with
  | change => cases quiet
  | advanceTo instant =>
    simp only [step,Option.ite_none_right_eq_some,Option.some.injEq] at taken
    obtain ⟨_,rfl⟩ := taken
    rfl
  | createWebhook =>
    cases taken
    rfl
  | updateWebhook =>
    cases taken
    rfl
  | pause =>
    cases taken
    rfl
  | resumeWebhook =>
    cases taken
    rfl
  | deleteWebhook =>
    cases taken
    rfl
  | redeliverWebhook => exact congrArg Spread.tables (redeliver_spread taken)
  | fanOut batch waits locked =>
    simp only [step,Option.ite_none_right_eq_some,Option.some.injEq] at taken
    obtain ⟨_,rfl⟩ := taken
    exact (fanOut_frame s batch waits locked _).1
  | claimDue =>
    cases taken
    rfl
  | send => exact congrArg Spread.tables (send_spread taken)
  | recordRead => exact congrArg Spread.tables (recordRead_spread taken)
  | recordWrite => exact congrArg Spread.tables (recordWrite_spread taken)

theorem subscription_before (exact_ : Exact s.spread) (path : SpreadPath s.spread later.spread) {id : Nat} (below : id < s.nextSubscription)
    {again : WebhookSubscription} (kept : again ∈ later.subscriptions) (same : again.id = id) : ∃ sub ∈ s.subscriptions, sub.id = id := by
  have below_ : again.reader.id < s.nextSubscription := lt_of_eq_of_lt same below
  obtain ⟨before,known,id_,_⟩ := (exact_.onward_path path).readers again.reader (List.mem_map_of_mem kept) below_
  obtain ⟨old,member,rfl⟩ := List.mem_map.mp known
  exact ⟨old,member,id_.trans same⟩

theorem Passing.shortens {n : Nat} (passing : Passing drawn sub.id s n later) (exact_ : Exact s.spread) (there : sub ∈ s.subscriptions)
    {again : WebhookSubscription} (kept : again ∈ later.subscriptions) (same : again.id = sub.id) :
    (toCome later again).length ≤ (toCome s sub).length-n := by
  have below : sub.id < s.nextSubscription := (exact_.served sub.reader (List.mem_map_of_mem there)).below
  induction passing generalizing again with
  | start =>
    cases subscription_same exact_ kept there same
    exact Nat.le_refl _
  | other prior quiet taken ih =>
    rename_i n middle next op
    have before := prior.path exact_
    have onward := step_path (exact_.path before) taken
    have below_ := Nat.lt_of_lt_of_le below (exact_.onward_path before).nextReader
    obtain ⟨old,known,id⟩ := subscription_before (exact_.path before) onward below_ kept same
    have whole := onward_subscription (exact_.path before) onward known kept (same.trans id.symm)
    have shorter := Feeds.beyond_length ChangeMarker.id whole.1 (markersOf old.organizationId middle.tables)
    have earlier := ih known id
    unfold toCome at earlier ⊢
    rw [quiet_tables quiet taken,← whole.2.2]
    omega
  | pass prior same_ takes taken ih =>
    rename_i n batch waits locked middle next taker
    have before := prior.path exact_
    have earlier := ih takes.there same_
    simp only [step,Option.ite_none_right_eq_some,Option.some.injEq] at taken
    obtain ⟨some_,rfl⟩ := taken
    have shorter := takes.shortens (exact_.path before) some_ kept (same.trans same_.symm)
    omega

theorem fanOutTo_live (batch : Nat) (waits : Bool) (other : WebhookSubscription) (there : sub ∈ s.subscriptions) :
    ∃ again ∈ (fanOutTo s batch waits other).subscriptions, again.id = sub.id ∧ live again = live sub := by
  unfold fanOutTo
  dsimp only
  split
  · exact ⟨sub,there,rfl,rfl⟩
  · refine ⟨_,List.mem_map_of_mem there,?_⟩
    split <;> exact ⟨rfl,rfl⟩

theorem fanOut_live (batch : Nat) (waits : Bool) (locked ids : List Nat) (there : sub ∈ s.subscriptions) :
    ∃ again ∈ (ids.foldl (fanOutOne batch waits locked) s).subscriptions, again.id = sub.id ∧ live again = live sub := by
  induction ids generalizing s sub with
  | nil => exact ⟨sub,there,rfl,rfl⟩
  | cons id rest ih =>
    have first : ∃ again ∈ (fanOutOne batch waits locked s id).subscriptions, again.id = sub.id ∧ live again = live sub := by
      unfold fanOutOne
      split
      · split
        · exact fanOutTo_live batch waits _ there
        · exact ⟨sub,there,rfl,rfl⟩
      · exact ⟨sub,there,rfl,rfl⟩
    obtain ⟨middle,known,same,lives⟩ := first
    obtain ⟨again,kept,same_,lives_⟩ := ih known
    exact ⟨again,kept,same_.trans same,lives_.trans lives⟩

-- A live subscription can be passed over any number of times.
theorem passes_go_on (drawn : Nat → Nat → Nat) (there : sub ∈ s.subscriptions) (lives : live sub = true) (n : Nat) :
    ∃ later, Passing drawn sub.id s n later ∧ ∃ again ∈ later.subscriptions, again.id = sub.id ∧ live again = true := by
  induction n with
  | zero => exact ⟨s,.start,sub,there,rfl,lives⟩
  | succ n ih =>
    obtain ⟨middle,passing,again,kept,same,lives_⟩ := ih
    have takes : Takes middle false [] again := ⟨kept,lives_,List.not_mem_nil,nofun⟩
    obtain ⟨last,there_,same_,lasting⟩ := fanOut_live 1 false [] (middle.subscriptions.map WebhookSubscription.id) kept
    exact ⟨fanOut middle 1 false [],.pass passing same takes (if_pos (Nat.le_refl 1)),last,there_,same_.trans same,lasting.trans lives_⟩

def deliveriesAbout (s : World) (sub : WebhookSubscription) (m : ChangeMarker) : List WebhookDelivery :=
  s.deliveries.filter (fun d => d.subscriptionId = sub.id ∧ d.markerId = m.id)

theorem mem_deliveriesAbout {m : ChangeMarker} {d : WebhookDelivery} :
    d ∈ deliveriesAbout s sub m ↔ d ∈ s.deliveries ∧ d.subscriptionId = sub.id ∧ d.markerId = m.id := by
  unfold deliveriesAbout
  rw [List.mem_filter,decide_eq_true_iff]

theorem delivery_due (exact_ : Exact s.spread) (there : sub ∈ s.subscriptions) {d : WebhookDelivery} (member : d ∈ s.deliveries)
    (mine : d.subscriptionId = sub.id) : Due s.tables sub.reader d.letter := by
  obtain ⟨r,known,same,due⟩ := exact_.due d.letter (List.mem_map_of_mem member)
  have same : r.id = sub.reader.id := same.trans mine
  cases exact_.reader known (List.mem_map_of_mem there) same
  exact due

theorem deliveriesAbout_once (exact_ : Exact s.spread) (m : ChangeMarker) : (deliveriesAbout s sub m).length ≤ 1 := by
  have once := exact_.once
  change ((s.deliveries.map WebhookDelivery.letter).map (fun l => (l.readerId,l.markerId))).Nodup at once
  rw [List.map_map] at once
  have within := once.sublist ((List.filter_sublist (p := fun d => d.subscriptionId = sub.id ∧ d.markerId = m.id)).map _)
  match about : deliveriesAbout s sub m with
  | [] => exact Nat.zero_le 1
  | [d] => exact Nat.le_refl 1
  | one :: two :: rest =>
    have first := (mem_deliveriesAbout.mp (about ▸ List.mem_cons_self : one ∈ deliveriesAbout s sub m)).2
    have second := (mem_deliveriesAbout.mp (about ▸ List.mem_cons_of_mem _ List.mem_cons_self : two ∈ deliveriesAbout s sub m)).2
    change ((deliveriesAbout s sub m).map _).Nodup at within
    rw [about] at within
    have apart := (List.nodup_cons.mp within).1
    refine absurd (List.mem_map.mpr ⟨two,List.mem_cons_self,?_⟩) apart
    exact Prod.ext (second.1.trans first.1.symm) (second.2.trans first.2.symm)

theorem deliveriesAbout_exact (exact_ : Exact s.spread) (there : sub ∈ s.subscriptions) {m : ChangeMarker}
    (own : m ∈ markersOf sub.organizationId s.tables) {c : Crossing} (crossed : c ∈ sub.crossings) (spans : c.spans m.id) :
    (deliveriesAbout s sub m).length = if c.wanted.contains (eventType m) then 1 else 0 := by
  have served := exact_.served sub.reader (List.mem_map_of_mem there)
  split
  · rename_i wanted
    obtain ⟨l,written,mine,about⟩ := served.complete c crossed m own spans wanted
    obtain ⟨d,member,rfl⟩ := List.mem_map.mp written
    have found : d ∈ deliveriesAbout s sub m := mem_deliveriesAbout.mpr ⟨member,mine,about⟩
    exact Nat.le_antisymm (deliveriesAbout_once exact_ m) (List.length_pos_of_mem found)
  · rename_i unwanted
    apply List.length_eq_zero_iff.mpr
    apply List.eq_nil_iff_forall_not_mem.mpr
    intro d member
    obtain ⟨written,mine,about⟩ := mem_deliveriesAbout.mp member
    obtain ⟨marker,owned,same,_,_,_,c_,crossed_,spans_,wanted⟩ := (delivery_due exact_ there written mine).about
    have one := exact_.rising.same (mem_markersOf.mp owned).1 (mem_markersOf.mp own).1 (same.symm.trans about)
    subst one
    cases served.chained.one crossed_ crossed spans_ spans
    exact unwanted wanted

-- One delivery for each marker that was wanted when the cursor went past it, none
-- for any other, and passes enough take the cursor to the newest marker.
theorem fan_out_exactly_once {resources : List ResourceRow} {reservations : List ReservationRow}
    {linked : ∀ held ∈ reservations, (resourceAt resources held.resourceId).isSome} {now : Int}
    (path : Runs.Reached (Steps drawn) (.start resources reservations linked now) s) (there : sub ∈ s.subscriptions) :
    (∀ later, Runs.Reached (Steps drawn) s later → ∀ again ∈ later.subscriptions, again.id = sub.id → sub.cursor ≤ again.cursor) ∧
    (∀ m ∈ markersOf sub.organizationId s.tables, sub.startCursor < m.id → m.id ≤ sub.cursor →
      ∃ c ∈ sub.crossings, c.spans m.id ∧ (∀ other ∈ sub.crossings, other.spans m.id → other = c) ∧
        (deliveriesAbout s sub m).length = if c.wanted.contains (eventType m) then 1 else 0) ∧
    (∀ d ∈ s.deliveries, d.subscriptionId = sub.id → ∃ m ∈ markersOf sub.organizationId s.tables,
      d.markerId = m.id ∧ sub.startCursor < m.id ∧ m.id ≤ sub.cursor) ∧
    (∀ m ∈ s.tables.markers, m.organizationId ≠ sub.organizationId ∨ m.id ≤ sub.startCursor ∨ sub.cursor < m.id → deliveriesAbout s sub m = []) ∧
    (live sub = true → ∀ n, ∃ later, Passing drawn sub.id s n later ∧ ∃ again ∈ later.subscriptions, again.id = sub.id ∧ live again = true) ∧
    (∀ n later, Passing drawn sub.id s n later → (toCome s sub).length ≤ n → ∀ again ∈ later.subscriptions, again.id = sub.id →
      again.cursor = max sub.startCursor (latestMarkerId (markersOf sub.organizationId later.tables))) := by
  have begun := start_exact linked now
  have exact_ : Exact s.spread := begun.path (run_path begun path)
  have served := exact_.served sub.reader (List.mem_map_of_mem there)
  have addressed : ∀ d ∈ s.deliveries, d.subscriptionId = sub.id → ∃ m ∈ markersOf sub.organizationId s.tables,
      d.markerId = m.id ∧ sub.startCursor < m.id ∧ m.id ≤ sub.cursor := by
    intro d member mine
    obtain ⟨m,own,same,_,_,_,c,crossed,spans,_⟩ := (delivery_due exact_ there member mine).about
    have bounds := served.chained.bounds.2 c crossed
    exact ⟨m,own,same,Nat.lt_of_le_of_lt bounds.1 spans.1,Nat.le_trans spans.2 bounds.2⟩
  refine ⟨?_,?_,addressed,?_,fun lives => passes_go_on drawn there lives,?_⟩
  · intro later run again kept same
    exact (onward_subscription exact_ (run_path exact_ run) there kept same).1
  · intro m own after within
    obtain ⟨c,crossed,spans⟩ := served.chained.covers after within
    exact ⟨c,crossed,spans,fun other member also => served.chained.one member crossed also spans,
      deliveriesAbout_exact exact_ there own crossed spans⟩
  · intro m known outside
    apply List.eq_nil_iff_forall_not_mem.mpr
    intro d member
    obtain ⟨written,mine,about⟩ := mem_deliveriesAbout.mp member
    obtain ⟨marker,own,same,after,within⟩ := addressed d written mine
    obtain ⟨there_,organization⟩ := mem_markersOf.mp own
    cases exact_.rising.same there_ known (same.symm.trans about)
    rcases outside with foreign | before | beyond
    · exact foreign organization
    · omega
    · omega
  · intro n later passing enough again kept same
    have whole := passing.path exact_
    obtain ⟨_,began,of_⟩ := onward_subscription exact_ whole there kept same
    have none_ : toCome later again = [] := by
      have shorter := passing.shortens exact_ there kept same
      exact List.length_eq_zero_iff.mp (by omega)
    have served_ := (exact_.path whole).served again.reader (List.mem_map_of_mem kept)
    have passed : latestMarkerId (markersOf again.organizationId later.tables) ≤ again.cursor := by
      by_contra beyond
      have some_ : markersOf again.organizationId later.tables ≠ [] := by
        intro empty
        rw [empty] at beyond
        exact beyond (Nat.zero_le _)
      obtain ⟨m,own,equal⟩ := Feeds.latest_mem ChangeMarker.id some_
      have coming : m ∈ toCome later again := Feeds.mem_beyond.mpr ⟨own,equal ▸ Nat.lt_of_not_le beyond⟩
      rw [none_] at coming
      cases coming
    have start := served_.chained.bounds.1
    rw [began,of_]
    rcases served_.stands with first | ⟨m,own,equal⟩
    · have first : again.cursor = again.startCursor := first
      omega
    · have reach : m.id ≤ latestMarkerId (markersOf again.organizationId later.tables) := Feeds.le_latest own
      have equal : m.id = again.cursor := equal
      have start : again.startCursor ≤ again.cursor := start
      omega

def labRow (id : Nat) (organization label : String) : ResourceRow :=
  ⟨⟨id,"LAB","ROOM",none,none,.exclusive,true,exclusive_bare⟩,organization,label,none,none,none,none⟩

-- Two organizations' rooms, passes of one marker each, and the updates no longer
-- wanted before the second.
def twoRooms : List Operation := [.createWebhook "north" "https://north.example/hook" [(.resource,.created),(.resource,.updated)] true "whsec_bm9ydGg=",
  .change 1 0 (.resource (labRow 1 "north" "Lab") .created),.change 2 0 (.resource (labRow 2 "south" "Lab") .created),
  .change 4 0 (.resource (labRow 1 "north" "Wet Lab") .updated),.fanOut 1 true [],.advanceTo 5000000,.fanOut 1 true [],
  .updateWebhook 1 none (some [(.resource,.created)]) none,.fanOut 1 true []]

theorem two_rooms_fanned_out : ∃ s sub, Runs.trace (step fun _ _ => 0) (fun _ _ => True) (.start [] [] nofun 0) twoRooms = some s ∧
    sub ∈ s.subscriptions ∧ sub.cursor = 4 ∧ s.deliveries.map WebhookDelivery.markerId = [1] ∧
      (deliveriesAbout s sub ⟨2,"south",.resource,2,.created,0⟩ = []) ∧ ∀ later, Runs.Reached (Steps fun _ _ => 0) s later →
        ∀ again ∈ later.subscriptions, again.id = sub.id → 4 ≤ again.cursor := by
  have taken : ∃ s sub, Runs.trace (step fun _ _ => 0) (fun _ _ => True) (.start [] [] nofun 0) twoRooms = some s ∧ s.subscriptions = [sub] ∧
      sub.cursor = 4 ∧ sub.organizationId = "north" ∧ s.deliveries.map WebhookDelivery.markerId = [1] ∧
      ⟨2,"south",.resource,2,.created,0⟩ ∈ s.tables.markers := ⟨_,_,rfl,rfl,rfl,rfl,by decide,by decide⟩
  obtain ⟨s,sub,run,subscriptions,cursor,organization,markers,foreign⟩ := taken
  have there : sub ∈ s.subscriptions := subscriptions ▸ List.mem_cons_self
  obtain ⟨onward,_,_,outside,_⟩ := fan_out_exactly_once (Runs.trace_reached .start run).unguard there
  refine ⟨s,sub,run,there,cursor,markers,outside _ foreign (.inl ?_),?_⟩
  · rw [organization]
    decide
  · intro later path again kept same
    rw [← cursor]
    exact onward later path again kept same

end ChronosLedger.Webhooks
