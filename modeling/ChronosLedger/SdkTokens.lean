import ChronosLedger.RefreshClients

namespace ChronosLedger.Sdk

open Rotations SignIns

-- `object` is the identity the transport compares.
structure Tokens where
  object : Nat
  accessToken : Nat
  refreshToken : Nat
  deriving DecidableEq, Repr

-- A thread of the client, which has been refused with the tokens it was sent with.
inductive Thread where
  | calling
  | sending (sentWith : Tokens)
  | waiting (sentWith : Tokens)
  | inside (sentWith : Tokens)
  | posting (sentWith : Tokens)
  | answered (sentWith : Tokens) (access fresh : Nat)
  | telling
  | back (worked : Bool)
  deriving DecidableEq, Repr

-- `objects` counts the pairs made so far. The last three are what happened.
structure Transport where
  tokens : Option Tokens
  objects : Nat
  lock : Option Nat
  threads : List Thread
  issued : List Nat
  presented : List Nat
  failed : List Nat
  deriving DecidableEq, Repr

inductive TransportMove where
  | connect (access fresh : Nat)
  | start
  | send (thread : Nat)
  | unauthorized (thread : Nat)
  | lock (thread : Nat)
  | compare (thread : Nat)
  | response (thread access fresh : Nat)
  | failure (thread : Nat)
  | assign (thread : Nat)
  | onTokens (thread : Nat)
  | resume (thread : Nat)
  deriving DecidableEq, Repr

def Thread.stage : Thread → Option (Stage Nat)
  | .inside _ => some .holding
  | .posting sentWith => some (.presenting sentWith.refreshToken)
  | .answered sentWith _ fresh => some (.returning sentWith.refreshToken fresh)
  | .telling => some .holding
  | _ => none

def Thread.sentWith : Thread → Option Tokens
  | .sending sentWith => some sentWith
  | .waiting sentWith => some sentWith
  | .inside sentWith => some sentWith
  | .posting sentWith => some sentWith
  | .answered sentWith _ _ => some sentWith
  | _ => none

-- The lock is let go when `_refresh` is over.
def Transport.goes (c : Transport) (thread : Nat) (after : Thread) : Transport :=
  {c with threads := c.threads.set thread after,lock := lockAfter Thread.stage c.lock thread after}

def Transport.act (c : Transport) : TransportMove → Option Transport
  | .connect access fresh =>
    if c.tokens = none ∧ c.threads = [] then
      some {c with tokens := some ⟨c.objects,access,fresh⟩,objects := c.objects+1,issued := c.issued ++ [fresh]}
    else none
  | .start => some {c with threads := c.threads ++ [.calling]}
  | .send thread =>
    match c.threads[thread]?,c.tokens with
    | some .calling,some tokens => some (c.goes thread (.sending tokens))
    | _,_ => none
  | .unauthorized thread =>
    match c.threads[thread]? with
    | some (.sending sentWith) => some (c.goes thread (.waiting sentWith))
    | _ => none
  | .lock thread =>
    match c.threads[thread]? with
    | some (.waiting sentWith) => if c.lock = none then some (c.goes thread (.inside sentWith)) else none
    | _ => none
  | .compare thread =>
    match c.threads[thread]? with
    | some (.inside sentWith) =>
      if c.tokens.map Tokens.object = some sentWith.object then
        some {c.goes thread (.posting sentWith) with presented := c.presented ++ [sentWith.refreshToken]}
      else some (c.goes thread (.back true))
    | _ => none
  | .response thread access fresh =>
    match c.threads[thread]? with
    | some (.posting sentWith) => some {c.goes thread (.answered sentWith access fresh) with issued := c.issued ++ [fresh]}
    | _ => none
  -- An error, a status that is not 200, or an answer that is not read as a pair.
  | .failure thread =>
    match c.threads[thread]? with
    | some (.posting sentWith) => some {c.goes thread (.back false) with failed := c.failed ++ [sentWith.refreshToken]}
    | _ => none
  | .assign thread =>
    match c.threads[thread]? with
    | some (.answered _ access fresh) =>
      some {c.goes thread .telling with tokens := some ⟨c.objects,access,fresh⟩,objects := c.objects+1}
    | _ => none
  | .onTokens thread =>
    match c.threads[thread]? with
    | some .telling => some (c.goes thread (.back true))
    | _ => none
  -- The request goes out again, or the call ends in its 401 and the thread makes another.
  | .resume thread =>
    match c.threads[thread]? with
    | some (.sending _) => some (c.goes thread .calling)
    | some (.back _) => some (c.goes thread .calling)
    | _ => none

def transport : Client Transport TransportMove where
  act := Transport.act
  brings := fun
    | .connect _ fresh => [fresh]
    | .response _ _ fresh => [fresh]
    | _ => []
  shows := fun c => fun
    | .compare thread =>
      match c.threads[thread]? with
      | some (.inside sentWith) => if c.tokens.map Tokens.object = some sentWith.object then [sentWith.refreshToken] else []
      | _ => []
    | _ => []

def Transport.start : Transport := ⟨none,0,none,[],[],[],[]⟩

variable {c next : Transport} {thread : Nat} {before after : Thread}

def Transport.view (c : Transport) : Store Nat Nat :=
  ⟨c.tokens.map Tokens.refreshToken,stageOf Thread.stage c.lock c.threads,[],c.issued,c.presented,c.failed⟩

-- Two pairs with one identity are one pair.
structure Transport.Kept (c : Transport) : Prop where
  exclusive : Exclusive Thread.stage c.lock c.threads
  current : ∀ tokens ∈ c.tokens, tokens.object < c.objects
  same : ∀ here ∈ c.threads, ∀ sentWith ∈ here.sentWith, sentWith.object < c.objects ∧
    ∀ tokens ∈ c.tokens, tokens.object = sentWith.object → tokens = sentWith

theorem Transport.Kept.going (kept : c.Kept) (after : Thread) (found : c.threads[thread]? = some before)
    (carried : ∀ sentWith ∈ after.sentWith, sentWith ∈ before.sentWith ∨ c.tokens = some sentWith) :
    ∀ here ∈ c.threads.set thread after, ∀ sentWith ∈ here.sentWith, sentWith.object < c.objects ∧
      ∀ tokens ∈ c.tokens, tokens.object = sentWith.object → tokens = sentWith := by
  intro here member sentWith carries
  rcases List.mem_or_eq_of_mem_set member with old | rfl
  · exact kept.same here old sentWith carries
  · rcases carried sentWith carries with was | now
    · exact kept.same before (List.mem_of_getElem? found) sentWith was
    · refine ⟨kept.current sentWith now,?_⟩
      intro tokens there _
      exact Option.some.inj (there.symm.trans now)

theorem Transport.Kept.goes (kept : c.Kept) (after : Thread) (found : c.threads[thread]? = some before)
    (enters : after.stage.isSome = true → before.stage.isSome = true ∨ c.lock = none)
    (carried : ∀ sentWith ∈ after.sentWith, sentWith ∈ before.sentWith ∨ c.tokens = some sentWith) : (c.goes thread after).Kept :=
  ⟨kept.exclusive.goes after found enters,kept.current,kept.going after found carried⟩

theorem Transport.Kept.idles (kept : c.Kept) (after : Thread) (found : c.threads[thread]? = some before) (was : before.stage = none)
    (out : after.stage = none) (carried : ∀ sentWith ∈ after.sentWith, sentWith ∈ before.sentWith ∨ c.tokens = some sentWith) :
    (c.goes thread after).Kept ∧ Does c.view [] [] (c.goes thread after).view := by
  refine ⟨kept.goes after found (by simp [out]) carried,?_⟩
  have same : (c.goes thread after).view = c.view := by
    simp [Transport.view,Transport.goes,stage_same after kept.exclusive found was out]
  exact same ▸ .nothing

theorem Transport.Kept.leaves (kept : c.Kept) (after : Thread) (found : c.threads[thread]? = some before) (inside : before.stage = some .holding)
    (out : after.stage = none) (empty : after.sentWith = none) : (c.goes thread after).Kept ∧ Does c.view [] [] (c.goes thread after).view := by
  refine ⟨kept.goes after found (by simp [out]) (by simp [empty]),.one .release ?_⟩
  simp [Rotations.step,Transport.view,Transport.goes,stage_at kept.exclusive found inside,
    stage_left after kept.exclusive found (by simp [inside]) out]

theorem Transport.Kept.compares (kept : c.Kept) (taken : c.act (.compare thread) = some next) :
    next.Kept ∧ Does c.view [] (transport.shows c (.compare thread)) next.view := by
  simp only [Transport.act] at taken
  split at taken
  · rename_i sentWith found
    split at taken <;> cases taken
    · rename_i same
      obtain ⟨current,has,object⟩ := Option.map_eq_some_iff.mp same
      have is := (kept.same _ (List.mem_of_getElem? found) sentWith rfl).2 current has object
      have still := kept.goes (.posting sentWith) found (fun _ => .inl rfl) (fun _ is => .inl is)
      refine ⟨⟨still.exclusive,still.current,still.same⟩,?_⟩
      have shown : transport.shows c (.compare thread) = [sentWith.refreshToken] := by
        simp only [transport,found]
        exact if_pos same
      have held : c.view.kept = some sentWith.refreshToken := by simp [Transport.view,has,is]
      have presents : Rotations.step c.view .present =
          some ({c.goes thread (.posting sentWith) with presented := c.presented ++ [sentWith.refreshToken]} : Transport).view := by
        simp [Rotations.step,Transport.view,Transport.goes,stage_at kept.exclusive found rfl,has,is,
          stage_within Thread.stage (.posting sentWith) found rfl]
      have does := Does.one .present presents
      simpa only [Store.shows,held,Option.toList_some,Move.brings,shown] using does
    · rename_i other
      have shown : transport.shows c (.compare thread) = [] := by
        simp only [transport,found]
        exact if_neg other
      rw [shown]
      exact kept.leaves (.back true) found rfl rfl rfl
  · cases taken

theorem Transport.Kept.spends (kept : c.Kept) {access fresh : Nat} (unseen : fresh ∉ c.issued)
    (taken : c.act (.response thread access fresh) = some next) : next.Kept ∧ Does c.view [fresh] [] next.view := by
  simp only [Transport.act] at taken
  split at taken
  · rename_i sentWith found
    cases taken
    have still := kept.goes (.answered sentWith access fresh) found (fun _ => .inl rfl) (fun _ is => .inl is)
    refine ⟨⟨still.exclusive,still.current,still.same⟩,.one (.answer fresh) ?_⟩
    simp [Rotations.step,Transport.view,Transport.goes,stage_at kept.exclusive found rfl,
      stage_within Thread.stage (.answered sentWith access fresh) found rfl,unseen]
  · cases taken

theorem Transport.Kept.fails (kept : c.Kept) (taken : c.act (.failure thread) = some next) : next.Kept ∧ Does c.view [] [] next.view := by
  simp only [Transport.act] at taken
  split at taken
  · rename_i sentWith found
    cases taken
    have still := kept.goes (.back false) found nofun nofun
    refine ⟨⟨still.exclusive,still.current,still.same⟩,.one .abandon ?_⟩
    simp [Rotations.step,Transport.view,Transport.goes,stage_at kept.exclusive found rfl,stage_left (.back false) kept.exclusive found rfl rfl]
  · cases taken

-- The new pair is another one than any thread was sent with.
theorem Transport.Kept.assigns (kept : c.Kept) (taken : c.act (.assign thread) = some next) : next.Kept ∧ Does c.view [] [] next.view := by
  simp only [Transport.act] at taken
  split at taken
  · rename_i sentWith access fresh found
    cases taken
    refine ⟨⟨kept.exclusive.goes .telling found (fun _ => .inl rfl),?_,?_⟩,.one .store ?_⟩
    · intro tokens is
      cases Option.some.inj is
      exact Nat.lt_succ_self c.objects
    · intro here member sentWith carries
      obtain ⟨older,_⟩ := kept.going .telling found nofun here member sentWith carries
      refine ⟨Nat.lt_succ_of_lt older,?_⟩
      intro tokens is same
      cases Option.some.inj is
      have newest : c.objects = sentWith.object := same
      omega
    · simp [Rotations.step,Transport.view,Transport.goes,stage_at kept.exclusive found rfl,stage_within Thread.stage .telling found rfl]
  · cases taken

theorem Transport.Kept.connects (kept : c.Kept) {access fresh : Nat} (unseen : fresh ∉ c.issued)
    (taken : c.act (.connect access fresh) = some next) : next.Kept ∧ Does c.view [fresh] [] next.view := by
  simp only [Transport.act,Option.ite_none_right_eq_some,Option.some.injEq] at taken
  obtain ⟨⟨none_,alone⟩,rfl⟩ := taken
  refine ⟨⟨kept.exclusive,?_,?_⟩,?_⟩
  · intro tokens is
    cases Option.some.inj is
    exact Nat.lt_succ_self c.objects
  · intro here member
    rw [alone] at member
    cases member
  · have grants : Rotations.step c.view (.grant fresh) = some {c.view with granted := [fresh],issued := c.issued ++ [fresh]} := by
      simp [Rotations.step,Transport.view,unseen]
    refine .move (.one (.grant fresh) grants) (.deposit fresh) ?_
    simp [Rotations.step,Transport.view]

-- The threads of a transport rotate one credential too.
theorem transport_rotates : transport.Rotates Transport.view Transport.Kept := by
  refine ⟨?_⟩
  intro c move next kept taken fresh
  cases move with
  | connect access new => exact kept.connects (fresh new (List.mem_singleton_self new)) taken
  | start =>
    cases taken
    obtain ⟨exclusive,same⟩ := kept.exclusive.joins Thread.calling rfl
    refine ⟨⟨exclusive,kept.current,?_⟩,?_⟩
    · intro here member sentWith carries
      rcases List.mem_append.mp member with old | new
      · exact kept.same here old sentWith carries
      · cases List.mem_singleton.mp new
        cases carries
    · have still : ({c with threads := c.threads ++ [.calling]} : Transport).view = c.view := by simp [Transport.view,same]
      exact still ▸ .nothing
  | send thread =>
    simp only [transport,Transport.act] at taken
    split at taken <;> cases taken
    rename_i tokens found has
    exact kept.idles (.sending tokens) found rfl rfl (fun _ is => .inr (has.trans is))
  | unauthorized thread =>
    simp only [transport,Transport.act] at taken
    split at taken <;> cases taken
    rename_i sentWith found
    exact kept.idles (.waiting sentWith) found rfl rfl (fun _ is => .inl is)
  | lock thread =>
    simp only [transport,Transport.act] at taken
    split at taken
    · rename_i sentWith found
      simp only [Option.ite_none_right_eq_some,Option.some.injEq] at taken
      obtain ⟨free,rfl⟩ := taken
      refine ⟨kept.goes (.inside sentWith) found (fun _ => .inr free) (fun _ is => .inl is),.one (.acquire thread) ?_⟩
      have empty : stageOf Thread.stage c.lock c.threads = none := by simp [stageOf,free]
      simp [Rotations.step,Transport.view,Transport.goes,empty,stage_within Thread.stage (.inside sentWith) found rfl]
    · cases taken
  | compare thread => exact kept.compares taken
  | response thread access new => exact kept.spends (fresh new (List.mem_singleton_self new)) taken
  | failure thread => exact kept.fails taken
  | assign thread => exact kept.assigns taken
  | onTokens thread =>
    simp only [transport,Transport.act] at taken
    split at taken <;> cases taken
    rename_i found
    exact kept.leaves (.back true) found rfl rfl rfl
  | resume thread =>
    simp only [transport,Transport.act] at taken
    split at taken <;> cases taken <;> rename_i found
    · exact kept.idles .calling found rfl rfl (fun _ carries => absurd carries (Option.not_mem_none _))
    · exact kept.idles .calling found rfl rfl (fun _ carries => absurd carries (Option.not_mem_none _))

theorem start_kept : Transport.start.Kept := ⟨⟨nofun,nofun⟩,nofun,nofun⟩

-- Two threads see a 401 with one pair. The answer to the first refresh is lost.
def lostAnswer : List (ClientOperation TransportMove) :=
  [.ask (.login "ada" "first"),.serve (.commit 0 0),.receive 0 (.connect 7 1),.move .start,.move .start,.move (.send 0),.move (.send 1),
    .move (.unauthorized 0),.move (.unauthorized 1),.move (.lock 0),.move (.compare 0),.arrive 1 5,.serve (.spend 1),.serve (.readUser 1),
    .serve (.commit 1 6),.move (.failure 0),.move (.lock 1),.move (.compare 1),.arrive 1 30000000]

end ChronosLedger.Sdk
