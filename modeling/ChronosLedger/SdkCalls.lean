import Mathlib.Algebra.Order.Ring.Unbundled.Rat
import ChronosLedger.Idempotency

namespace ChronosLedger.Sdk

-- Seconds, on whichever clock.
structure RetryPolicy where
  maxAttempts : Nat
  baseDelay : Rat
  maxDelay : Rat
  deadline : Rat
  attempts : 1 ≤ maxAttempts
  delays : 0 ≤ baseDelay ∧ 0 ≤ maxDelay ∧ 0 ≤ deadline

-- Full jitter: a random wait between 0 and the capped exponential step.
def RetryPolicy.jitter (policy : RetryPolicy) (attempt : Nat) (drawn : Rat) : Rat :=
  drawn * min policy.maxDelay (policy.baseDelay * 2^attempt)

inductive RetryAfter where
  | seconds (value : Rat)
  | date (when_ : Rat)
  deriving DecidableEq, Repr

structure Response where
  status : Nat
  code : Option String
  retryAfter : Option RetryAfter
  deriving DecidableEq, Repr

-- A negative value is not a wait.
def retryAfter (response : Response) (now : Rat) : Option Rat :=
  match response.retryAfter with
  | none => none
  | some (.seconds value) => if 0 ≤ value then some value else none
  | some (.date when_) => some (max 0 (when_-now))

-- `error` is a failure that is not one of NO_RESPONSE_ERRORS.
inductive Outcome where
  | noResponse
  | error
  | response (response : Response)
  deriving DecidableEq, Repr

-- What one turn of the loop meets: whether it was sent with tokens, what came of
-- it, whether a refresh worked, the two clocks and the random number.
structure Try where
  sentWith : Bool
  outcome : Outcome
  refreshed : Bool
  clock : Rat
  time : Rat
  random : Rat
  deriving DecidableEq, Repr

-- What stays as it is for a whole call. `fresh` is the key made for it.
structure Call where
  retry : Option RetryPolicy
  apiKey : Bool
  method : String
  contentType : String
  idempotencyKey : Option String
  fresh : String
  started : Rat

def retryStatuses : List Nat := [429,502,503,504]
def inProgressCode : String := "IDEMPOTENCY_KEY_IN_PROGRESS"
def readMethods : List String := ["GET","HEAD","OPTIONS"]
def multipartPrefix : String := "multipart/"

def Call.key (call : Call) : Option String :=
  if call.method ∈ readMethods then call.idempotencyKey else some (call.idempotencyKey.getD call.fresh)

def Call.repeatable (call : Call) : Bool := !multipartPrefix.toList.isPrefixOf (Idempotency.lowered call.contentType).toList

def Call.policy (call : Call) : Option RetryPolicy := if call.repeatable then call.retry else none

def waitFor (call : Call) (attempt : Nat) (response : Option Response) (t : Try) : Option Rat :=
  match call.policy with
  | none => none
  | some policy =>
    if policy.maxAttempts ≤ attempt+1 then none
    else
      let wait := (response.bind (fun response => retryAfter response t.time)).getD (policy.jitter attempt t.random)
      if policy.deadline < t.clock+wait-call.started then none else some wait

-- `sends` are the keys the requests went out with, and `sleeps` the waits with the
-- instants they began.
structure Loop where
  attempt : Nat
  refreshed : Bool
  sends : List (Option String)
  sleeps : List (Rat × Rat)
  deriving DecidableEq, Repr

def Loop.start : Loop := ⟨0,false,[],[]⟩

inductive Answer where
  | returned (response : Response)
  | raised (response : Response)
  | failed
  deriving DecidableEq, Repr

inductive Turn where
  | again (loop : Loop)
  | finished (loop : Loop) (answer : Answer)
  deriving DecidableEq, Repr

def Loop.sleep (l : Loop) (t : Try) (wait : Rat) : Loop := {l with sleeps := l.sleeps ++ [(t.clock,wait)],attempt := l.attempt+1}

def retryable (response : Response) : Bool := response.status ∈ retryStatuses || response.code = some inProgressCode

def answered (call : Call) (l : Loop) (t : Try) (response : Response) : Turn :=
  if response.status < 400 then .finished l (.returned response)
  else if retryable response then
    match waitFor call l.attempt (some response) t with
    | some wait => .again (l.sleep t wait)
    | none => .finished l (.raised response)
  else .finished l (.raised response)

def Call.mayRefresh (call : Call) (l : Loop) (t : Try) : Bool := t.sentWith && !call.apiKey && !l.refreshed && call.repeatable

def Call.send (call : Call) (l : Loop) : Loop := {l with sends := l.sends ++ [call.key]}

def turn (call : Call) (l : Loop) (t : Try) : Turn :=
  match t.outcome with
  | .error => .finished (call.send l) .failed
  | .noResponse =>
    match waitFor call l.attempt none t with
    | some wait => .again ((call.send l).sleep t wait)
    | none => .finished (call.send l) .failed
  | .response response =>
    if response.status = 401 ∧ call.mayRefresh l t = true then
      if t.refreshed then .again {call.send l with refreshed := true}
      else answered call {call.send l with refreshed := true} t response
    else answered call (call.send l) t response

-- The loop, for as many turns as are given.
def handleRequest (call : Call) (l : Loop) : List Try → Turn
  | [] => .again l
  | t :: rest =>
    match turn call l t with
    | .again next => handleRequest call next rest
    | .finished next answer => .finished next answer

variable {call : Call} {l next : Loop} {t : Try} {tried tries : List Try}

@[simp] def Turn.loop : Turn → Loop
  | .again loop => loop
  | .finished loop _ => loop

def Turn.ended : Turn → Bool
  | .again _ => false
  | .finished _ _ => true

def Call.attempts (call : Call) : Nat := (call.policy.map RetryPolicy.maxAttempts).getD 1

-- What lets a request go out again: no answer, one that says so, or a 401 that a
-- refresh answered.
def Try.resends (t : Try) : Bool :=
  match t.outcome with
  | .error => false
  | .noResponse => true
  | .response response => 400 ≤ response.status && retryable response || response.status = 401 && t.sentWith && t.refreshed

theorem waitFor_some {attempt : Nat} {response : Option Response} {wait : Rat} (waits : waitFor call attempt response t = some wait) :
    ∃ policy, call.policy = some policy ∧ attempt+1 < policy.maxAttempts ∧ t.clock+wait-call.started ≤ policy.deadline := by
  unfold waitFor at waits
  split at waits
  · cases waits
  · rename_i policy has
    split at waits
    · cases waits
    · rename_i few
      dsimp only at waits
      split at waits
      · cases waits
      · rename_i early
        cases waits
        exact ⟨policy,has,by omega,not_lt.mp early⟩

theorem policy_repeatable {policy : RetryPolicy} (has : call.policy = some policy) : call.repeatable = true := by
  unfold Call.policy at has
  split at has
  · assumption
  · cases has

-- The two ways a turn leads to another: a wait within the policy, or the one refresh.
inductive Again (call : Call) (l : Loop) (t : Try) (next : Loop) : Prop where
  | slept (policy : RetryPolicy) (wait : Rat) (has : call.policy = some policy) (few : l.attempt+1 < policy.maxAttempts)
      (early : t.clock+wait-call.started ≤ policy.deadline) (attempt : next.attempt = l.attempt+1) (kept : l.refreshed = true → next.refreshed = true)
      (sleeps : next.sleeps = l.sleeps ++ [(t.clock,wait)])
  | refreshed (repeatable : call.repeatable = true) (first : l.refreshed = false) (attempt : next.attempt = l.attempt)
      (now : next.refreshed = true) (sleeps : next.sleeps = l.sleeps)

theorem answered_parts (call : Call) (l before : Loop) {response : Response} (bad : t.outcome = .response response) (attempt : before.attempt = l.attempt)
    (sleeps : before.sleeps = l.sleeps) (kept : l.refreshed = true → before.refreshed = true) :
    (answered call before t response).loop.sends = before.sends ∧
    (∀ next, answered call before t response = .again next → t.resends = true ∧ Again call l t next) ∧
    ((answered call before t response).ended = true → (answered call before t response).loop = before) := by
  unfold answered
  split
  · exact ⟨rfl,nofun,fun _ => rfl⟩
  · rename_i failing
    split
    · rename_i again
      split
      · rename_i wait waits
        refine ⟨rfl,?_,nofun⟩
        intro next same
        cases same
        obtain ⟨policy,has,few,early⟩ := waitFor_some waits
        refine ⟨by simp [Try.resends,bad,again]; omega,.slept policy wait has (attempt ▸ few) early ?_ kept ?_⟩
        · simp [Loop.sleep,attempt]
        · simp [Loop.sleep,sleeps]
      · exact ⟨rfl,nofun,fun _ => rfl⟩
    · exact ⟨rfl,nofun,fun _ => rfl⟩

theorem turn_parts (call : Call) (l : Loop) (t : Try) : (turn call l t).loop.sends = l.sends ++ [call.key] ∧
    (∀ next, turn call l t = .again next → t.resends = true ∧ Again call l t next) ∧
    ((turn call l t).ended = true → (turn call l t).loop.attempt = l.attempt ∧ (turn call l t).loop.sleeps = l.sleeps ∧
      (l.refreshed = true → (turn call l t).loop.refreshed = true)) := by
  unfold turn
  split
  · exact ⟨rfl,nofun,fun _ => ⟨rfl,rfl,id⟩⟩
  · rename_i silent
    split
    · rename_i wait waits
      refine ⟨rfl,?_,nofun⟩
      intro next same
      cases same
      obtain ⟨policy,has,few,early⟩ := waitFor_some waits
      exact ⟨by simp [Try.resends,silent],.slept policy wait has few early rfl id rfl⟩
    · exact ⟨rfl,nofun,fun _ => ⟨rfl,rfl,id⟩⟩
  · rename_i response bad
    split
    · rename_i may
      obtain ⟨unauthorized,may⟩ := may
      simp only [Call.mayRefresh,Bool.and_eq_true,Bool.not_eq_true'] at may
      obtain ⟨⟨⟨sentWith,_⟩,first⟩,repeatable⟩ := may
      split
      · rename_i worked
        refine ⟨rfl,?_,nofun⟩
        intro next same
        cases same
        exact ⟨by simp [Try.resends,bad,unauthorized,sentWith,worked],.refreshed repeatable first rfl rfl rfl⟩
      · obtain ⟨sends,again,ends⟩ := answered_parts call l {call.send l with refreshed := true} bad rfl rfl (fun _ => rfl)
        refine ⟨sends,again,fun finished => ?_⟩
        rw [ends finished]
        exact ⟨rfl,rfl,fun _ => rfl⟩
    · obtain ⟨sends,again,ends⟩ := answered_parts call l (call.send l) bad rfl rfl id
      refine ⟨sends,again,fun finished => ?_⟩
      rw [ends finished]
      exact ⟨rfl,rfl,id⟩

-- A call after turns that all led on.
structure Going (call : Call) (tried : List Try) (l : Loop) : Prop where
  keys : ∀ key ∈ l.sends, key = call.key
  counted : l.sends.length = tried.length
  slept : l.sleeps.length = l.attempt
  sent : l.sends.length ≤ l.attempt + if l.refreshed then 1 else 0
  few : l.attempt < call.attempts
  early : ∀ slept ∈ l.sleeps, ∃ policy ∈ call.policy, slept.1+slept.2-call.started ≤ policy.deadline
  once : call.repeatable = false → tried = []
  resends : ∀ t ∈ tried, t.resends = true

theorem attempts_pos (call : Call) : 0 < call.attempts := by
  unfold Call.attempts
  cases call.policy with
  | none => exact Nat.zero_lt_one
  | some policy => exact policy.attempts

theorem start_going (call : Call) : Going call [] .start :=
  ⟨nofun,rfl,rfl,Nat.zero_le _,attempts_pos call,nofun,fun _ => rfl,nofun⟩

theorem Going.sends (going : Going call tried l) {loop : Loop} (sent : loop.sends = l.sends ++ [call.key]) :
    (∀ key ∈ loop.sends, key = call.key) ∧ loop.sends.length = tried.length+1 := by
  rw [sent]
  refine ⟨?_,by simp [going.counted]⟩
  intro key member
  rcases List.mem_append.mp member with old | new
  · exact going.keys key old
  · exact List.mem_singleton.mp new

theorem Going.again (going : Going call tried l) (again : turn call l t = .again next) : Going call (tried ++ [t]) next := by
  obtain ⟨sent,leads,_⟩ := turn_parts call l t
  obtain ⟨resent,how⟩ := leads next again
  have sent : next.sends = l.sends ++ [call.key] := by
    rw [again] at sent
    exact sent
  obtain ⟨keys,counted⟩ := going.sends sent
  have resends : ∀ other ∈ tried ++ [t], other.resends = true := by
    intro other member
    rcases List.mem_append.mp member with old | new
    · exact going.resends other old
    · exact List.mem_singleton.mp new ▸ resent
  have before := going.sent
  have counts := going.counted
  have length : (tried ++ [t]).length = tried.length+1 := by simp
  cases how with
  | slept policy wait has few early attempt kept sleeps =>
    refine ⟨keys,by omega,by simp [sleeps,attempt,going.slept],?_,?_,?_,?_,resends⟩
    · by_cases was : l.refreshed = true
      · simp only [was,kept was,if_true] at before ⊢
        omega
      · simp only [was,Bool.false_eq_true,if_false] at before
        omega
    · simpa [attempt,Call.attempts,has] using few
    · intro slept member
      rw [sleeps] at member
      rcases List.mem_append.mp member with old | new
      · exact going.early slept old
      · cases List.mem_singleton.mp new
        exact ⟨policy,has,early⟩
    · intro once
      cases once.symm.trans (policy_repeatable has)
  | refreshed repeatable first attempt now sleeps =>
    refine ⟨keys,by omega,by simp [sleeps,attempt,going.slept],?_,attempt ▸ going.few,sleeps ▸ going.early,?_,resends⟩
    · simp only [first,now,if_true,Bool.false_eq_true,if_false] at before ⊢
      omega
    · intro once
      cases once.symm.trans repeatable

theorem one_key {sends : List (Option String)} (keys : ∀ key ∈ sends, key = call.key) : ∀ one ∈ sends, ∀ two ∈ sends, one = two :=
  fun one first two second => (keys one first).trans (keys two second).symm

theorem write_keyed {sends : List (Option String)} (keys : ∀ key ∈ sends, key = call.key) (write : call.method ∉ readMethods) : none ∉ sends := by
  intro member
  have nothing := keys none member
  simp [Call.key,write] at nothing

theorem Going.runs (going : Going call tried l) (tries : List Try) : (∀ next, handleRequest call l tries = .again next → Going call (tried ++ tries) next) ∧
    (∀ next answer, handleRequest call l tries = .finished next answer → ∃ prior t rest before, tries = prior ++ t :: rest ∧
      Going call (tried ++ prior) before ∧ turn call before t = .finished next answer) := by
  induction tries generalizing tried l with
  | nil =>
    refine ⟨?_,nofun⟩
    intro next same
    cases same
    simpa using going
  | cons t rest ih =>
    unfold handleRequest
    cases turned : turn call l t with
    | again middle =>
      obtain ⟨on,ends⟩ := ih (going.again turned)
      refine ⟨?_,?_⟩
      · intro next same
        simpa using on next same
      · intro next answer same
        obtain ⟨prior,last,after,before,rfl,still,finished⟩ := ends next answer same
        exact ⟨t :: prior,last,after,before,rfl,by simpa using still,finished⟩
    | finished last answer =>
      refine ⟨nofun,?_⟩
      intro next other same
      cases same
      exact ⟨[],t,rest,l,rfl,by simpa using going,turned⟩

-- Whatever a call meets, it is sent at most once more than the policy allows, the
-- once after a refresh, always under one key; a file upload is sent once. Only what
-- may be sent again was, no wait runs past the deadline, and the call ends.
theorem call_bounded (call : Call) (tries : List Try) : ∃ l, (handleRequest call .start tries).loop = l ∧
    l.sends.length ≤ call.attempts + (if l.refreshed then 1 else 0) ∧ (call.repeatable = false → l.sends.length ≤ 1) ∧
    (∀ one ∈ l.sends, ∀ two ∈ l.sends, one = two) ∧ (call.method ∉ readMethods → none ∉ l.sends) ∧ l.sleeps.length < call.attempts ∧
    (∀ slept ∈ l.sleeps, ∃ policy ∈ call.policy, slept.1+slept.2-call.started ≤ policy.deadline) ∧
    (∀ t ∈ tries.take (l.sends.length-1), t.resends = true) ∧
    (call.attempts < tries.length → (handleRequest call .start tries).ended = true) := by
  obtain ⟨on,ends⟩ := (start_going call).runs tries
  cases handled : handleRequest call .start tries with
  | again l =>
    have going : Going call tries l := on l handled
    have few := going.few
    have sent := going.sent
    have counted := going.counted
    refine ⟨l,rfl,by omega,?_,one_key going.keys,write_keyed going.keys,by simpa [going.slept] using few,going.early,?_,?_⟩
    · intro once
      simp [going.counted,going.once once]
    · exact fun t member => going.resends t (List.mem_of_mem_take member)
    · intro many
      split at sent <;> omega
  | finished l answer =>
    obtain ⟨prior,t,rest,before,rfl,going,finished⟩ := ends l answer handled
    have going : Going call prior before := going
    obtain ⟨sent,_,last⟩ := turn_parts call before t
    rw [finished] at sent last
    obtain ⟨keys,counted⟩ := going.sends sent
    have parts : l.attempt = before.attempt ∧ l.sleeps = before.sleeps ∧ (before.refreshed = true → l.refreshed = true) := last rfl
    obtain ⟨attempt,sleeps,kept⟩ := parts
    have counted : l.sends.length = prior.length+1 := counted
    have few := going.few
    have sends := going.sent
    have before_ := going.counted
    refine ⟨l,rfl,?_,?_,one_key keys,write_keyed keys,?_,sleeps ▸ going.early,?_,fun _ => rfl⟩
    · by_cases was : before.refreshed = true
      · simp only [was,kept was,if_true] at sends ⊢
        omega
      · simp only [was,Bool.false_eq_true,if_false] at sends
        omega
    · intro once
      simp [counted,going.once once]
    · rw [sleeps,going.slept]
      exact few
    · intro other member
      have taken : other ∈ prior := by simpa [counted] using member
      exact going.resends other taken

end ChronosLedger.Sdk
