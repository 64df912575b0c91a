import Mathlib.Data.List.Nodup
import ChronosLedger.Library.Runs
import ChronosLedger.WebhookTargets

namespace ChronosLedger.Webhooks

def attemptDeadline : Int := seconds 15
def leaseMargin : Int := seconds 10

-- The last moment of a pass, counted from before its claim, an attempt starts at.
def lastStart : Int := claimLease-leaseMargin-attemptDeadline

def msSince (started now : Int) : Nat := ((now-started) / 1000).toNat

def short (text : String) : String := String.ofList (text.toList.take 200)

-- How far the thread of an attempt has come: the name is looked up, `gave_up` is
-- read, the request goes out, its outcome is appended to the result.
inductive Stage where
  | looking
  | vetted (target : Target)
  | going (target : Target)
  | requested (target : Target)
  | finished (outcome : Outcome)
  deriving DecidableEq, Repr

-- One attempt: when its pass decided on it, and what the pass has done to it
-- since. A client that is closed sends nothing more.
structure Attempt where
  outgoing : Outgoing
  decidedAt : Int
  stage : Stage
  gaveUp : Bool
  closed : Bool
  deriving DecidableEq, Repr

structure SentRequest where
  attempt : Nat
  at_ : Int
  target : Target
  deriving DecidableEq, Repr

-- Where a pass is: its start is read before it claims.
inductive Pass where
  | resting
  | started (at_ : Int)
  | sending (started : Int) (queue : List Outgoing)
  deriving DecidableEq, Repr

-- A worker: its pass, the attempt it waits for and the ones before. Threads it
-- gave up on go on by themselves. `recorded` is what each attempt was recorded
-- with.
structure Worker where
  now : Int
  pass : Pass
  current : Option Nat
  attempts : List Attempt
  requests : List SentRequest
  recorded : List (Nat × Outcome)
  deriving DecidableEq, Repr

-- `resolved` is an answer of the resolver, `none` where it fails; what a receiver
-- answers, and what a thread fails of, is the move's.
inductive SendMove where
  | tick (by_ : Nat)
  | startPass
  | claim (claimed : List Outgoing)
  | next
  | lookUp (attempt : Nat) (resolved : Option (List Address))
  | checkGaveUp (attempt : Nat)
  | post (attempt : Nat)
  | respond (attempt : Nat) (outcome : Outcome)
  | fail (attempt : Nat) (problem : String)
  | deadline
  | giveUp
  | join

variable (reading : UrlReading) (settings : TargetSettings)

def Worker.goes (w : Worker) (k : Nat) (attempt : Attempt) : Worker := {w with attempts := w.attempts.set k attempt}

def Worker.gone (w : Worker) (attempt : Attempt) (error : String) : Outcome := ⟨none,msSince attempt.decidedAt w.now,some error,none⟩

def Worker.finishes (w : Worker) (k : Nat) (attempt : Attempt) (outcome : Outcome) : Worker :=
  w.goes k {attempt with stage := .finished outcome}

def Worker.starts (w : Worker) (started : Int) (outgoing : Outgoing) (rest : List Outgoing) : Worker :=
  {w with
    pass := .sending started rest
    current := some w.attempts.length
    attempts := w.attempts ++ [⟨outgoing,w.now,.looking,false,false⟩]}

def Worker.sends (w : Worker) (k : Nat) (attempt : Attempt) (target : Target) : Worker :=
  {w.goes k {attempt with stage := .requested target} with requests := w.requests ++ [⟨k,w.now,target⟩]}

def Worker.closes (w : Worker) (k : Nat) (attempt : Attempt) (outcome : Outcome) : Worker :=
  {w.goes k {attempt with closed := true} with current := none,recorded := w.recorded ++ [(k,outcome)]}

def Worker.act (w : Worker) : SendMove → Option Worker
  | .tick by_ => some {w with now := w.now+by_}
  | .startPass => if w.pass = .resting then some {w with pass := .started w.now} else none
  | .claim claimed =>
    match w.pass with
    | .started at_ =>
      if ∀ outgoing ∈ claimed, outgoing.lease = w.now+claimLease then some {w with pass := .sending at_ claimed} else none
    | _ => none
  | .next =>
    match w.pass,w.current with
    | .sending _ [],none => some {w with pass := .resting}
    | .sending started (outgoing :: rest),none =>
      if lastStart < w.now-started then some {w with pass := .resting} else some (w.starts started outgoing rest)
    | _,_ => none
  | .lookUp k resolved => do
    let attempt ← w.attempts[k]?
    match attempt.stage with
    | .looking =>
      match vet reading settings resolved attempt.outgoing.url with
      | .ok target => some (w.goes k {attempt with stage := .vetted target})
      | .error refused => some (w.finishes k attempt (w.gone attempt (short ("refused: " ++ refused))))
    | _ => none
  | .checkGaveUp k => do
    let attempt ← w.attempts[k]?
    match attempt.stage with
    | .vetted target =>
      if attempt.gaveUp then some (w.finishes k attempt (w.gone attempt "timed out"))
      else some (w.goes k {attempt with stage := .going target})
    | _ => none
  | .post k => do
    let attempt ← w.attempts[k]?
    match attempt.stage with
    | .going target =>
      if attempt.closed then some (w.finishes k attempt (w.gone attempt (short "failed: RuntimeError")))
      else some (w.sends k attempt target)
    | _ => none
  | .respond k outcome => do
    let attempt ← w.attempts[k]?
    match attempt.stage with
    | .requested _ => some (w.finishes k attempt outcome)
    | _ => none
  | .fail k problem => do
    let attempt ← w.attempts[k]?
    match attempt.stage with
    | .finished _ => none
    | _ => some (w.finishes k attempt (w.gone attempt (short ("failed: " ++ problem))))
  | .deadline => do
    let k ← w.current
    let attempt ← w.attempts[k]?
    match attempt.stage with
    | .finished _ => none
    | _ => if attempt.decidedAt+attemptDeadline ≤ w.now then some (w.goes k {attempt with gaveUp := true}) else none
  | .giveUp => do
    let k ← w.current
    let attempt ← w.attempts[k]?
    if attempt.gaveUp then some (w.closes k attempt (w.gone attempt "timed out")) else none
  | .join => do
    let k ← w.current
    let attempt ← w.attempts[k]?
    match attempt.stage with
    | .finished outcome => if attempt.gaveUp then none else some (w.closes k attempt outcome)
    | _ => none

def Worker.idle (now : Int) : Worker := ⟨now,.resting,none,[],[],[]⟩

-- The process is not held up for more than the margin while it waits.
def Prompt (w : Worker) : SendMove → Prop
  | .tick by_ => ∀ k ∈ w.current, ∀ attempt ∈ w.attempts[k]?, w.now+by_ < attempt.decidedAt+attemptDeadline+leaseMargin
  | _ => True

instance (w : Worker) (move : SendMove) : Decidable (Prompt w move) := by
  unfold Prompt
  split <;> infer_instance

variable {reading : UrlReading} {settings : TargetSettings} {w after : Worker} {k j : Nat} {attempt before : Attempt}

def asked (requests : List SentRequest) (k : Nat) : Prop := ∃ sent ∈ requests, sent.attempt = k

-- What a thread has done shows in its stage.
def Fine (reading : UrlReading) (settings : TargetSettings) (requests : List SentRequest) (k : Nat) (attempt : Attempt) : Prop :=
  match attempt.stage with
  | .looking => ¬ asked requests k
  | .vetted target => ¬ asked requests k ∧ ∃ resolved, vet reading settings resolved attempt.outgoing.url = .ok target
  | .going target => ¬ asked requests k ∧ ∃ resolved, vet reading settings resolved attempt.outgoing.url = .ok target
  | .requested _ => asked requests k
  | .finished outcome => outcome.statusCode ≠ none → asked requests k

-- All a worker and its threads do.
inductive Does (reading : UrlReading) (settings : TargetSettings) (w : Worker) : SendMove → Worker → Prop where
  | tick (by_ : Nat) : Does reading settings w (.tick by_) {w with now := w.now+by_}
  | startPass {move : SendMove} : Does reading settings w move {w with pass := .started w.now}
  | claim {move : SendMove} {at_ : Int} {claimed : List Outgoing} (started : w.pass = .started at_)
      (leased : ∀ outgoing ∈ claimed, outgoing.lease = w.now+claimLease) : Does reading settings w move {w with pass := .sending at_ claimed}
  | ends {move : SendMove} : Does reading settings w move {w with pass := .resting}
  | starts {move : SendMove} {started : Int} {outgoing : Outgoing} {rest : List Outgoing} (sending : w.pass = .sending started (outgoing :: rest))
      (free : w.current = none) (early : w.now-started ≤ lastStart) : Does reading settings w move (w.starts started outgoing rest)
  | goes {move : SendMove} {k : Nat} {before attempt : Attempt} (found : w.attempts[k]? = some before)
      (same : attempt.outgoing = before.outgoing ∧ attempt.decidedAt = before.decidedAt ∧ attempt.closed = before.closed)
      (fine : Fine reading settings w.requests k before → Fine reading settings w.requests k attempt) :
      Does reading settings w move (w.goes k attempt)
  | sends {move : SendMove} {k : Nat} {before : Attempt} {target : Target} (found : w.attempts[k]? = some before)
      (stage : before.stage = .going target) (open_ : before.closed = false) : Does reading settings w move (w.sends k before target)
  | closes {move : SendMove} {k : Nat} {before : Attempt} {outcome : Outcome} (waits : w.current = some k) (found : w.attempts[k]? = some before)
      (status : Fine reading settings w.requests k before → outcome.statusCode ≠ none → asked w.requests k) :
      Does reading settings w move (w.closes k before outcome)

theorem act_does {move : SendMove} (taken : w.act reading settings move = some after) : Does reading settings w move after := by
  cases move with
  | tick by_ =>
    cases taken
    exact .tick by_
  | startPass =>
    simp only [Worker.act] at taken
    split at taken <;> cases taken
    exact .startPass
  | claim claimed =>
    simp only [Worker.act] at taken
    split at taken
    · rename_i at_ started
      split at taken <;> cases taken
      exact .claim started ‹_›
    · cases taken
  | next =>
    simp only [Worker.act] at taken
    split at taken
    · cases taken
      exact .ends
    · rename_i sending free
      split at taken <;> cases taken
      · exact .ends
      · exact .starts sending free (by omega)
    · cases taken
  | lookUp k resolved =>
    obtain ⟨before,found,taken⟩ := Option.bind_eq_some_iff.mp taken
    split at taken
    · rename_i looking
      split at taken <;> cases taken
      · rename_i target passed
        refine .goes found ⟨rfl,rfl,rfl⟩ (fun fine => ?_)
        simp only [Fine,looking] at fine
        exact ⟨fine,resolved,passed⟩
      · exact .goes found ⟨rfl,rfl,rfl⟩ (fun _ status => absurd rfl status)
    · cases taken
  | checkGaveUp k =>
    obtain ⟨before,found,taken⟩ := Option.bind_eq_some_iff.mp taken
    split at taken
    · rename_i target stage
      split at taken <;> cases taken
      · exact .goes found ⟨rfl,rfl,rfl⟩ (fun _ status => absurd rfl status)
      · refine .goes found ⟨rfl,rfl,rfl⟩ (fun fine => ?_)
        simpa only [Fine,stage] using fine
    · cases taken
  | post k =>
    obtain ⟨before,found,taken⟩ := Option.bind_eq_some_iff.mp taken
    split at taken
    · rename_i target stage
      split at taken <;> cases taken
      · exact .goes found ⟨rfl,rfl,rfl⟩ (fun _ status => absurd rfl status)
      · exact .sends found stage (by simpa using ‹¬ before.closed = true›)
    · cases taken
  | respond k outcome =>
    obtain ⟨before,found,taken⟩ := Option.bind_eq_some_iff.mp taken
    split at taken <;> cases taken
    rename_i target stage
    refine .goes found ⟨rfl,rfl,rfl⟩ (fun fine _ => ?_)
    simpa only [Fine,stage] using fine
  | fail k problem =>
    obtain ⟨before,found,taken⟩ := Option.bind_eq_some_iff.mp taken
    split at taken <;> cases taken
    exact .goes found ⟨rfl,rfl,rfl⟩ (fun _ status => absurd rfl status)
  | deadline =>
    obtain ⟨k,waits,taken⟩ := Option.bind_eq_some_iff.mp taken
    obtain ⟨before,found,taken⟩ := Option.bind_eq_some_iff.mp taken
    split at taken
    · cases taken
    · split at taken <;> cases taken
      exact .goes found ⟨rfl,rfl,rfl⟩ (fun fine => fine)
  | giveUp =>
    obtain ⟨k,waits,taken⟩ := Option.bind_eq_some_iff.mp taken
    obtain ⟨before,found,taken⟩ := Option.bind_eq_some_iff.mp taken
    split at taken <;> cases taken
    exact .closes waits found (fun _ status => absurd rfl status)
  | join =>
    obtain ⟨k,waits,taken⟩ := Option.bind_eq_some_iff.mp taken
    obtain ⟨before,found,taken⟩ := Option.bind_eq_some_iff.mp taken
    split at taken
    · rename_i outcome stage
      split at taken <;> cases taken
      refine .closes waits found (fun fine => ?_)
      simpa only [Fine,stage] using fine
    · cases taken

structure Sends (reading : UrlReading) (settings : TargetSettings) (w : Worker) : Prop where
  fine : ∀ k attempt, w.attempts[k]? = some attempt → Fine reading settings w.requests k attempt
  vetted : ∀ sent ∈ w.requests, ∃ attempt, w.attempts[sent.attempt]? = some attempt ∧
    ∃ resolved, vet reading settings resolved attempt.outgoing.url = .ok sent.target
  once : (w.requests.map SentRequest.attempt).Nodup
  current : ∀ k ∈ w.current, ∃ attempt, w.attempts[k]? = some attempt ∧ attempt.closed = false
  recorded : (w.recorded.map Prod.fst).Nodup ∧ ∀ pair ∈ w.recorded,
    (∃ attempt, w.attempts[pair.1]? = some attempt ∧ attempt.closed = true) ∧ (pair.2.statusCode ≠ none → asked w.requests pair.1)

theorem goes_at (found : w.attempts[k]? = some before) (j : Nat) :
    (w.goes k attempt).attempts[j]? = if j = k then some attempt else w.attempts[j]? := by
  obtain ⟨short,_⟩ := List.getElem?_eq_some_iff.mp found
  by_cases same : j = k
  · subst same
    simp [Worker.goes,short]
  · simp [Worker.goes,same,Ne.symm same]

theorem starts_at {started : Int} {outgoing : Outgoing} {rest : List Outgoing} :
    (w.starts started outgoing rest).attempts[j]? = some attempt ↔
      w.attempts[j]? = some attempt ∨ j = w.attempts.length ∧ attempt = ⟨outgoing,w.now,.looking,false,false⟩ := by
  show (w.attempts ++ [_])[j]? = _ ↔ _
  rcases Nat.lt_trichotomy j w.attempts.length with before | rfl | past
  · rw [List.getElem?_append_left before]
    constructor
    · exact .inl
    · rintro (old | ⟨last,_⟩)
      · exact old
      · omega
  · simp [eq_comm]
  · have beyond : (w.attempts ++ [⟨outgoing,w.now,.looking,false,false⟩])[j]? = none := List.getElem?_eq_none (by simp; omega)
    have old : w.attempts[j]? = none := List.getElem?_eq_none (by omega)
    simp [beyond,old,Nat.ne_of_gt past]

theorem asked_more {requests : List SentRequest} {sent : SentRequest} (there : asked requests k) : asked (requests ++ [sent]) k := by
  obtain ⟨other,member,same⟩ := there
  exact ⟨other,List.mem_append_left _ member,same⟩

theorem asked_other {requests : List SentRequest} {sent : SentRequest} (other : sent.attempt ≠ k) (absent : ¬ asked requests k) :
    ¬ asked (requests ++ [sent]) k := by
  rintro ⟨one,member,same⟩
  rcases List.mem_append.mp member with old | new
  · exact absent ⟨one,old,same⟩
  · cases List.mem_singleton.mp new
    exact other same

theorem Fine.more {requests : List SentRequest} {sent : SentRequest} (other : sent.attempt ≠ k)
    (fine : Fine reading settings requests k attempt) : Fine reading settings (requests ++ [sent]) k attempt := by
  unfold Fine at fine ⊢
  split
  · exact asked_other other (by simpa [*] using fine)
  · exact ⟨asked_other other (by simp_all),by simp_all⟩
  · exact ⟨asked_other other (by simp_all),by simp_all⟩
  · exact asked_more (by simp_all)
  · intro status
    exact asked_more (by simp_all)

-- A thread goes on, or is told to give up; it may have sent its request.
theorem Sends.moves {requests : List SentRequest} (sends : Sends reading settings w) (found : w.attempts[k]? = some before)
    (outgoing : attempt.outgoing = before.outgoing) (closed : attempt.closed = before.closed)
    (fine : ∀ (j : Nat) (other : Attempt), w.attempts[j]? = some other → Fine reading settings requests j (if j = k then attempt else other))
    (vetted : ∀ sent ∈ requests, sent ∈ w.requests ∨
      sent.attempt = k ∧ ∃ resolved, vet reading settings resolved before.outgoing.url = .ok sent.target)
    (once : (requests.map SentRequest.attempt).Nodup) (stays : ∀ k, asked w.requests k → asked requests k) :
    Sends reading settings {w.goes k attempt with requests := requests} := by
  have at_ : ∀ (j : Nat) (old : Attempt), w.attempts[j]? = some old → ∃ new : Attempt, (w.goes k attempt).attempts[j]? = some new ∧
      new.outgoing = old.outgoing ∧ new.closed = old.closed := by
    intro j old there
    rw [goes_at found]
    split
    · rename_i same
      subst same
      cases there.symm.trans found
      exact ⟨attempt,rfl,outgoing,closed⟩
    · exact ⟨old,there,rfl,rfl⟩
  refine ⟨?_,?_,once,?_,sends.recorded.1,?_⟩
  · intro j other there
    have there : (w.goes k attempt).attempts[j]? = some other := there
    rw [goes_at found] at there
    split at there
    · rename_i same
      cases there
      subst same
      simpa using fine j before found
    · rename_i apart
      simpa [apart] using fine j other there
  · intro sent member
    rcases vetted sent member with old | ⟨own,passed⟩
    · obtain ⟨old,there,resolved,passed⟩ := sends.vetted sent old
      obtain ⟨new,here,same,_⟩ := at_ _ _ there
      exact ⟨new,here,resolved,same ▸ passed⟩
    · obtain ⟨new,here,same,_⟩ := at_ k before found
      exact ⟨new,own ▸ here,same ▸ passed⟩
  · intro j waits
    obtain ⟨old,there,open_⟩ := sends.current j waits
    obtain ⟨new,here,_,same⟩ := at_ _ _ there
    exact ⟨new,here,same.trans open_⟩
  · intro pair member
    obtain ⟨⟨old,there,shut⟩,status⟩ := sends.recorded.2 pair member
    obtain ⟨new,here,_,same⟩ := at_ _ _ there
    exact ⟨⟨new,here,same.trans shut⟩,fun answered => stays _ (status answered)⟩

theorem Sends.goes (sends : Sends reading settings w) (found : w.attempts[k]? = some before) (outgoing : attempt.outgoing = before.outgoing)
    (closed : attempt.closed = before.closed) (fine : Fine reading settings w.requests k attempt) :
    Sends reading settings (w.goes k attempt) := by
  refine sends.moves found outgoing closed ?_ (fun _ member => .inl member) sends.once (fun _ there => there)
  intro j other there
  split
  · rename_i same
    exact same ▸ fine
  · exact sends.fine j other there

theorem Sends.posts {target : Target} (sends : Sends reading settings w) (found : w.attempts[k]? = some before)
    (stage : before.stage = .going target) : Sends reading settings (w.sends k before target) := by
  have fine := sends.fine k before found
  simp only [Fine,stage] at fine
  obtain ⟨absent,passed⟩ := fine
  refine sends.moves found rfl rfl ?_ ?_ ?_ (fun _ there => asked_more there)
  · intro j other there
    split
    · rename_i same
      exact ⟨_,List.mem_append_right _ (List.mem_singleton_self _),same.symm⟩
    · rename_i apart
      exact (sends.fine j other there).more (Ne.symm apart)
  · intro sent member
    rcases List.mem_append.mp member with old | new
    · exact .inl old
    · cases List.mem_singleton.mp new
      exact .inr ⟨rfl,passed⟩
  · have fresh : ∀ sent ∈ w.requests, sent.attempt ≠ k := fun sent member same => absent ⟨sent,member,same⟩
    simpa [List.nodup_append,sends.once] using fresh

-- The pass stops waiting: the client is closed and the outcome written down.
theorem Sends.closes {outcome : Outcome} (sends : Sends reading settings w) (waits : w.current = some k) (found : w.attempts[k]? = some before)
    (status : outcome.statusCode ≠ none → asked w.requests k) :
    Sends reading settings (w.closes k before outcome) := by
  obtain ⟨waited,here,open_⟩ := sends.current k waits
  cases here.symm.trans found
  have fresh : ∀ pair ∈ w.recorded, pair.1 ≠ k := by
    intro pair member same
    obtain ⟨⟨old,there,shut⟩,_⟩ := sends.recorded.2 pair member
    rw [same] at there
    cases there.symm.trans found
    rw [open_] at shut
    cases shut
  refine ⟨?_,?_,sends.once,nofun,?_,?_⟩
  · intro j other there
    have there : (w.goes k {before with closed := true}).attempts[j]? = some other := there
    rw [goes_at found] at there
    split at there
    · rename_i same
      cases there
      exact same ▸ sends.fine k before found
    · exact sends.fine j other there
  · intro sent member
    obtain ⟨old,there,resolved,passed⟩ := sends.vetted sent member
    show ∃ new, (w.goes k {before with closed := true}).attempts[sent.attempt]? = some new ∧ _
    rw [goes_at found]
    split
    · rename_i same
      rw [same] at there
      cases there.symm.trans found
      exact ⟨_,rfl,resolved,passed⟩
    · exact ⟨old,there,resolved,passed⟩
  · simpa [Worker.closes,List.nodup_append,sends.recorded.1] using fresh
  · intro pair member
    show (∃ new, (w.goes k {before with closed := true}).attempts[pair.1]? = some new ∧ _) ∧ _
    rw [goes_at found]
    rcases List.mem_append.mp member with old | new
    · obtain ⟨shut,status⟩ := sends.recorded.2 pair old
      rw [if_neg (fresh pair old)]
      exact ⟨shut,status⟩
    · cases List.mem_singleton.mp new
      rw [if_pos rfl]
      exact ⟨⟨_,rfl,rfl⟩,status⟩

-- A step of the clock, of the claim or between passes touches no attempt.
theorem Sends.still (sends : Sends reading settings w) (attempts : after.attempts = w.attempts) (requests : after.requests = w.requests)
    (current : after.current = w.current) (recorded : after.recorded = w.recorded) : Sends reading settings after :=
  ⟨by rw [attempts,requests]; exact sends.fine,by rw [attempts,requests]; exact sends.vetted,by rw [requests]; exact sends.once,
    by rw [attempts,current]; exact sends.current,by rw [attempts,requests,recorded]; exact sends.recorded⟩

theorem Sends.starts {started : Int} {outgoing : Outgoing} {rest : List Outgoing} (sends : Sends reading settings w) :
    Sends reading settings (w.starts started outgoing rest) := by
  refine ⟨?_,?_,sends.once,?_,sends.recorded.1,?_⟩
  · intro j other there
    rcases starts_at.mp there with old | ⟨rfl,rfl⟩
    · exact sends.fine j other old
    · rintro ⟨sent,member,at_⟩
      obtain ⟨one,here,_⟩ := sends.vetted sent member
      obtain ⟨short,_⟩ := List.getElem?_eq_some_iff.mp here
      omega
  · intro sent member
    obtain ⟨one,here,passed⟩ := sends.vetted sent member
    exact ⟨one,starts_at.mpr (.inl here),passed⟩
  · intro j waits
    cases waits
    exact ⟨_,starts_at.mpr (.inr ⟨rfl,rfl⟩),rfl⟩
  · intro pair member
    obtain ⟨⟨one,here,shut⟩,status⟩ := sends.recorded.2 pair member
    exact ⟨⟨one,starts_at.mpr (.inl here),shut⟩,status⟩

theorem Sends.preserved {move : SendMove} (sends : Sends reading settings w) (does : Does reading settings w move after) :
    Sends reading settings after := by
  cases does with
  | tick by_ => exact sends.still rfl rfl rfl rfl
  | startPass => exact sends.still rfl rfl rfl rfl
  | claim _ _ => exact sends.still rfl rfl rfl rfl
  | ends => exact sends.still rfl rfl rfl rfl
  | starts _ _ _ => exact sends.starts
  | goes found same fine => exact sends.goes found same.1 same.2.2 (fine (sends.fine _ _ found))
  | sends found stage _ => exact sends.posts found stage
  | closes waits found status => exact sends.closes waits found (status (sends.fine _ _ found))

theorem idle_sends (now : Int) : Sends reading settings (.idle now) :=
  ⟨fun _ _ there => by simp [Worker.idle] at there,fun _ member => absurd member List.not_mem_nil,.nil,nofun,.nil,
    fun _ member => absurd member List.not_mem_nil⟩

-- Whatever the resolver answers and whenever, a request goes to an address that
-- was vetted, over https or to a host that is listed, once for each attempt; and
-- an attempt is recorded once, with a status only where it was sent.
theorem requests_vetted {now : Int} (path : Runs.Reached (Runs.Acts (Worker.act reading settings)) (.idle now) w) :
    (∀ sent ∈ w.requests, ∃ attempt, w.attempts[sent.attempt]? = some attempt ∧
      ∃ resolved, Vetted reading settings resolved attempt.outgoing.url sent.target) ∧
    (w.requests.map SentRequest.attempt).Nodup ∧ (w.recorded.map Prod.fst).Nodup ∧
    ∀ pair ∈ w.recorded, pair.2.statusCode ≠ none → ∃ sent ∈ w.requests, sent.attempt = pair.1 := by
  have sends := path.invariant (Sends reading settings) (idle_sends now) (fun _ _ _ sends taken => sends.preserved (act_does taken))
  refine ⟨?_,sends.once,sends.recorded.1,fun pair member => (sends.recorded.2 pair member).2⟩
  intro sent member
  obtain ⟨attempt,there,resolved,passed⟩ := sends.vetted sent member
  exact ⟨attempt,there,resolved,vet_parts passed⟩

-- What `urlsplit` makes of an https URL that names no port, user or query.
def plainReading : UrlReading where
  urlsplit url :=
    let rest := url.toList.drop 8
    ⟨"https",some (String.ofList (rest.takeWhile (· != '/'))),none,none,.ok none,String.ofList (rest.dropWhile (· != '/')),""⟩
  lower text := String.ofList (text.toList.map Char.toLower)
  ipAddress _ := none
  text
    | .v4 n => ".".intercalate ([24,16,8,0].map (fun i => toString ((n >>> i).setWidth 8).toNat))
    | .v6 _ => ""

def hook (id lease : Nat) : Outgoing :=
  ⟨id,1,"https://north.example/hook",id,⟨(.resource,.created),0,id,(.resource,1),.created,0,none⟩,["whsec_bm9ydGg="],seconds lease⟩

def publicAddress : Address := .v4 (quad 93 184 216 34)
def hookTarget : Target := ⟨"https","north.example",443,publicAddress,"/hook",""⟩

-- The name leads outside when the first is sent and inside by the second.
def steered : List SendMove := [.startPass,.claim [hook 1 60,hook 2 60],.next,.lookUp 0 (some [publicAddress]),.checkGaveUp 0,.post 0,
  .respond 0 ⟨some 204,12,none,some ""⟩,.join,.next,.lookUp 1 (some [.v4 (quad 10 0 0 7)]),.join]

theorem short_whole {text : String} (few : text.toList.length ≤ 200) : short text = text := by
  unfold short
  rw [List.take_of_length_le few,String.ofList_toList]

-- Character by character, since a text is read through its bytes otherwise.
theorem refusal_text : short ("refused: " ++ ("north.example" ++ " resolves to " ++ "10.0.0.7" ++
      ", a loopback, private or link-local address; WEBHOOK_ALLOW_PRIVATE_TARGETS allows those")) =
    "refused: north.example resolves to 10.0.0.7, a loopback, " ++
      "private or link-local address; WEBHOOK_ALLOW_PRIVATE_TARGETS allows those" := by
  have same : "refused: " ++ ("north.example" ++ " resolves to " ++ "10.0.0.7" ++
      ", a loopback, private or link-local address; WEBHOOK_ALLOW_PRIVATE_TARGETS allows those") =
    "refused: north.example resolves to 10.0.0.7, a loopback, " ++
      "private or link-local address; WEBHOOK_ALLOW_PRIVATE_TARGETS allows those" := by
    apply String.toList_inj.mp
    simp only [String.toList_append]
    repeat rw [String.toList_ofList]
    rfl
  rw [short_whole,same]
  simp only [String.toList_append,List.length_append]
  repeat rw [String.toList_ofList]
  decide +kernel

theorem steered_refused : ∃ w, Runs.trace (Worker.act plainReading ⟨[],false⟩) (fun _ _ => True) (.idle 0) steered = some w ∧
    w.recorded.map (fun pair => (pair.1,pair.2.error)) = [(0,none),(1,some ("refused: north.example resolves to 10.0.0.7, a loopback, " ++
      "private or link-local address; WEBHOOK_ALLOW_PRIVATE_TARGETS allows those"))] ∧
    ∃ attempt, w.attempts[0]? = some attempt ∧ ∃ resolved, Vetted plainReading ⟨[],false⟩ resolved attempt.outgoing.url hookTarget := by
  obtain ⟨w,traced,recorded,requests⟩ : ∃ w, Runs.trace (Worker.act plainReading ⟨[],false⟩) (fun _ _ => True) (.idle 0) steered = some w ∧
      w.recorded.map (fun pair => (pair.1,pair.2.error)) = [(0,none),(1,some (short ("refused: " ++ ("north.example" ++ " resolves to " ++
        "10.0.0.7" ++ ", a loopback, private or link-local address; WEBHOOK_ALLOW_PRIVATE_TARGETS allows those"))))] ∧
      w.requests = [⟨0,0,hookTarget⟩] := ⟨_,rfl,rfl,rfl⟩
  rw [refusal_text] at recorded
  have vetted := (requests_vetted (Runs.trace_reached .start traced).unguard).1
  rw [requests] at vetted
  exact ⟨w,traced,recorded,vetted _ (List.mem_singleton_self _)⟩

-- Every attempt is decided on with its deadline and the margin left of its lease;
-- one whose client is open is the one waited for.
structure Timely (w : Worker) : Prop where
  started : ∀ at_ : Int, w.pass = .started at_ → at_ ≤ w.now
  sending : ∀ (at_ : Int) (queue : List Outgoing), w.pass = .sending at_ queue → at_ ≤ w.now ∧ ∀ outgoing ∈ queue, at_+claimLease ≤ outgoing.lease
  decided : ∀ (k : Nat) (attempt : Attempt), w.attempts[k]? = some attempt → attempt.decidedAt+attemptDeadline+leaseMargin ≤ attempt.outgoing.lease
  waited : ∀ (k : Nat) (attempt : Attempt), w.attempts[k]? = some attempt → attempt.closed = false →
    w.current = some k ∧ w.now < attempt.decidedAt+attemptDeadline+leaseMargin
  inside : ∀ sent ∈ w.requests, ∃ attempt, w.attempts[sent.attempt]? = some attempt ∧ sent.at_ < attempt.outgoing.lease

theorem Timely.goes {requests : List SentRequest} (timely : Timely w) (found : w.attempts[k]? = some before)
    (same : attempt.outgoing = before.outgoing ∧ attempt.decidedAt = before.decidedAt ∧ attempt.closed = before.closed)
    (inside : ∀ sent ∈ requests, sent ∈ w.requests ∨ sent.attempt = k ∧ sent.at_ < before.outgoing.lease) :
    Timely {w.goes k attempt with requests := requests} := by
  refine ⟨timely.started,timely.sending,?_,?_,?_⟩
  · intro j other there
    have there : (w.goes k attempt).attempts[j]? = some other := there
    rw [goes_at found] at there
    split at there
    · cases there
      rw [same.1,same.2.1]
      exact timely.decided k before found
    · exact timely.decided j other there
  · intro j other there open_
    have there : (w.goes k attempt).attempts[j]? = some other := there
    rw [goes_at found] at there
    split at there
    · rename_i here
      cases there
      rw [same.2.1,here]
      exact timely.waited k before found (same.2.2.symm.trans open_)
    · exact timely.waited j other there open_
  · intro sent member
    show ∃ new, (w.goes k attempt).attempts[sent.attempt]? = some new ∧ _
    rw [goes_at found]
    rcases inside sent member with old | ⟨own,early⟩
    · obtain ⟨one,there,early⟩ := timely.inside sent old
      split
      · rename_i here
        rw [here] at there
        cases there.symm.trans found
        exact ⟨attempt,rfl,same.1 ▸ early⟩
      · exact ⟨one,there,early⟩
    · rw [if_pos own]
      exact ⟨attempt,rfl,same.1 ▸ early⟩

theorem Timely.closes {outcome : Outcome} (timely : Timely w) (waits : w.current = some k) (found : w.attempts[k]? = some before) :
    Timely (w.closes k before outcome) := by
  refine ⟨timely.started,timely.sending,?_,?_,?_⟩
  · intro j other there
    have there : (w.goes k {before with closed := true}).attempts[j]? = some other := there
    rw [goes_at found] at there
    split at there
    · cases there
      exact timely.decided k before found
    · exact timely.decided j other there
  · intro j other there open_
    have there : (w.goes k {before with closed := true}).attempts[j]? = some other := there
    rw [goes_at found] at there
    split at there
    · cases there
      cases open_
    · rename_i apart
      -- Only the attempt waited for was open.
      exact absurd (Option.some.inj ((timely.waited j other there open_).1.symm.trans waits)) apart
  · intro sent member
    obtain ⟨one,there,early⟩ := timely.inside sent member
    show ∃ new, (w.goes k {before with closed := true}).attempts[sent.attempt]? = some new ∧ _
    rw [goes_at found]
    split
    · rename_i here
      rw [here] at there
      cases there.symm.trans found
      exact ⟨_,rfl,early⟩
    · exact ⟨one,there,early⟩

theorem Timely.starts {started : Int} {outgoing : Outgoing} {rest : List Outgoing} (timely : Timely w)
    (sending : w.pass = .sending started (outgoing :: rest)) (free : w.current = none) (early : w.now-started ≤ lastStart) :
    Timely (w.starts started outgoing rest) := by
  obtain ⟨past,leased⟩ := timely.sending started _ sending
  refine ⟨nofun,?_,?_,?_,?_⟩
  · intro at_ queue same
    cases same
    exact ⟨past,fun other member => leased other (List.mem_cons_of_mem _ member)⟩
  · intro j other there
    rcases starts_at.mp there with old | ⟨rfl,rfl⟩
    · exact timely.decided j other old
    · have lease := leased outgoing (List.mem_cons_self ..)
      unfold lastStart at early
      show w.now+attemptDeadline+leaseMargin ≤ outgoing.lease
      omega
  · intro j other there open_
    rcases starts_at.mp there with old | ⟨rfl,rfl⟩
    · rw [(timely.waited j other old open_).1] at free
      cases free
    · refine ⟨rfl,?_⟩
      show w.now < w.now+attemptDeadline+leaseMargin
      simp only [attemptDeadline,leaseMargin,seconds]
      omega
  · intro sent member
    obtain ⟨one,there,early⟩ := timely.inside sent member
    exact ⟨one,starts_at.mpr (.inl there),early⟩

theorem Timely.preserved {move : SendMove} (timely : Timely w) (prompt : Prompt w move) (does : Does reading settings w move after) :
    Timely after := by
  cases does with
  | tick by_ =>
    refine ⟨fun at_ same => ?_,fun at_ queue same => ⟨?_,(timely.sending at_ queue same).2⟩,timely.decided,?_,timely.inside⟩
    · exact Int.le_trans (timely.started at_ same) (by simp)
    · exact Int.le_trans (timely.sending at_ queue same).1 (by simp)
    · intro k attempt there open_
      have waits := (timely.waited k attempt there open_).1
      exact ⟨waits,prompt k waits attempt there⟩
  | startPass =>
    refine ⟨fun at_ same => ?_,nofun,timely.decided,timely.waited,timely.inside⟩
    cases same
    exact Int.le_refl _
  | claim started leased =>
    refine ⟨nofun,fun at_ queue same => ?_,timely.decided,timely.waited,timely.inside⟩
    cases same
    have past := timely.started _ started
    refine ⟨past,fun outgoing member => ?_⟩
    rw [leased outgoing member]
    exact Int.add_le_add_right past _
  | ends => exact ⟨nofun,nofun,timely.decided,timely.waited,timely.inside⟩
  | starts sending free early => exact timely.starts sending free early
  | goes found same _ => exact timely.goes found same (fun _ member => .inl member)
  | @sends _ k before target found stage open_ =>
    refine timely.goes found ⟨rfl,rfl,rfl⟩ (fun sent member => ?_)
    rcases List.mem_append.mp member with old | new
    · exact .inl old
    · cases List.mem_singleton.mp new
      have early := (timely.waited k before found open_).2
      have lease := timely.decided k before found
      exact .inr ⟨rfl,by show w.now < before.outgoing.lease; omega⟩
  | closes waits found _ => exact timely.closes waits found

theorem idle_timely (now : Int) : Timely (.idle now) :=
  ⟨nofun,nofun,fun _ _ there => by simp [Worker.idle] at there,fun _ _ there => by simp [Worker.idle] at there,
    fun _ member => absurd member List.not_mem_nil⟩

-- As long as the process is not held up for longer than the margin, every request
-- goes out before the lease of its claim runs out, whatever its thread waited for.
theorem requests_in_lease {now : Int} (path : Runs.Reached (Runs.Guarded (Runs.Acts (Worker.act reading settings)) Prompt) (.idle now) w) :
    ∀ sent ∈ w.requests, ∃ attempt, w.attempts[sent.attempt]? = some attempt ∧ sent.at_ < attempt.outgoing.lease :=
  (path.invariant Timely (idle_timely now) (fun _ _ _ timely taken => timely.preserved taken.1 (act_does taken.2))).inside

-- A thread that got past `gave_up` just before its time was over finds its client
-- closed; the next is sent from what is left of the lease.
def late : List SendMove := [.startPass,.claim [hook 1 60,hook 2 60],.next,.tick 14000000,.lookUp 0 (some [publicAddress]),.checkGaveUp 0,
  .tick 1000000,.deadline,.giveUp,.post 0,.next,.tick 3000000,.lookUp 1 (some [publicAddress]),.checkGaveUp 1,.post 1]

theorem late_unsent : ∃ w, Runs.trace (Worker.act plainReading ⟨[],false⟩) Prompt (.idle 0) late = some w ∧
    w.requests = [⟨1,seconds 18,hookTarget⟩] ∧ ∃ attempt, w.attempts[1]? = some attempt ∧ seconds 18 < attempt.outgoing.lease := by
  obtain ⟨w,traced,requests⟩ := Option.map_eq_some_iff.mp (show (Runs.trace (Worker.act plainReading ⟨[],false⟩) Prompt (.idle 0) late).map
      Worker.requests = some [⟨1,seconds 18,hookTarget⟩] by decide +kernel)
  have inside := requests_in_lease (Runs.trace_reached .start traced)
  rw [requests] at inside
  exact ⟨w,traced,requests,inside _ (List.mem_singleton_self _)⟩

end ChronosLedger.Webhooks
