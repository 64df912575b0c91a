import Mathlib.Data.List.Basic
import ChronosLedger.Library.Runs

namespace ChronosLedger.RateLimit

-- The key of one budget: its count, and the second it lapses at. A count made by
-- INCR has no expiry until EXPIRE gives it one.
structure Counter where
  count : Nat
  expiresAt : Option Int
  deriving DecidableEq, Repr

structure Budget where
  bucket : String
  subject : String
  limit : Nat
  window : Nat
  what : String
  deriving DecidableEq, Repr

-- Without a limit or a subject, or switched off, nothing is counted.
def Budget.applies (budget : Budget) (enabled : Bool) : Bool := 0 < budget.limit && budget.subject ≠ "" && enabled

structure Refusal where
  statusCode : Nat
  detail : String
  retryAfter : Int
  deriving DecidableEq, Repr

def ttl (key : Option Counter) (now : Int) : Int :=
  match key with
  | none => -2
  | some counter =>
    match counter.expiresAt with
    | none => -1
    | some at_ => at_-now

-- What is read of the key decides; none lets the request through.
def guard (budget : Budget) (key : Option Counter) (now : Int) : Option Refusal :=
  match key with
  | none => none
  | some counter =>
    if counter.count < budget.limit then none
    else
      let retryAfter := if 0 < ttl key now then ttl key now else budget.window
      some ⟨429,"Too many " ++ budget.what ++ ". Try again in " ++ toString retryAfter ++ " seconds.",retryAfter⟩

-- `through` are the requests let through and not counted yet, `counting` those
-- that were counted and are to set the expiry. The last two are since the key was
-- made: requests let through because it could not be read, and counts whose
-- requests never came to set an expiry.
structure Window where
  now : Int
  key : Option Counter
  through : List Nat
  counting : List Nat
  unread : Nat
  died : Nat
  deriving DecidableEq, Repr

inductive Operation where
  | wait (seconds : Nat)
  | guard (request : Nat)
  | unreachable (request : Nat)
  | finish (request : Nat)
  | spend (request : Nat)
  | uncounted (request : Nat) (counted : Bool)
  | expire (request : Nat)
  | die (request : Nat)
  deriving DecidableEq, Repr

def Window.incr (w : Window) : Window :=
  match w.key with
  | none => {w with key := some ⟨1,none⟩,unread := 0,died := 0}
  | some counter => {w with key := some {counter with count := counter.count+1}}

def step (budget : Budget) (w : Window) : Operation → Option Window
  | .wait seconds =>
    let now := w.now+seconds
    some {w with now := now,key := w.key.filter (fun counter => counter.expiresAt.all (fun at_ => now < at_))}
  | .guard request => if guard budget w.key w.now = none then some {w with through := request :: w.through} else some w
  | .unreachable request => some {w with through := request :: w.through,unread := w.unread+1}
  | .finish request => if request ∈ w.through then some {w with through := w.through.erase request} else none
  | .spend request =>
    if request ∈ w.through then
      let counted := w.incr
      some {counted with
        through := w.through.erase request
        counting := if ttl counted.key w.now < 0 then request :: w.counting else w.counting}
    else none
  -- Redis went away before the answer, which the server may have counted.
  | .uncounted request counted =>
    if request ∈ w.through then
      let counts := w.incr
      let through := w.through.erase request
      some (if counted then {counts with through := through,died := counts.died+1} else {w with through := through})
    else none
  | .expire request =>
    if request ∈ w.counting then
      some {w with
        counting := w.counting.erase request
        key := w.key.map (fun counter => {counter with expiresAt := some (w.now+budget.window)})}
    else none
  | .die request => if request ∈ w.counting then some {w with counting := w.counting.erase request,died := w.died+1} else none

abbrev Steps (budget : Budget) : Window → Operation → Window → Prop := Runs.Acts (step budget)

def Window.start (now : Int) : Window := ⟨now,none,[],[],0,0⟩

-- At most so many requests of this caller are in flight.
def Capped (inFlight : Nat) (w : Window) : Operation → Prop
  | .guard _ => w.through.length < inFlight
  | .unreachable _ => w.through.length < inFlight
  | _ => True

instance (inFlight : Nat) (w : Window) (op : Operation) : Decidable (Capped inFlight w op) := by
  cases op <;> unfold Capped <;> infer_instance

variable {budget : Budget} {w next : Window} {n : Nat}

structure Bounded (budget : Budget) (n : Nat) (w : Window) : Prop where
  capped : w.through.length ≤ n
  count : ∀ counter ∈ w.key, counter.count+w.through.length ≤ budget.limit-1+n+w.unread
  endless : ∀ counter ∈ w.key, counter.expiresAt = none → counter.count ≤ w.counting.length+w.died
  lapses : ∀ counter ∈ w.key, ∀ at_ ∈ counter.expiresAt, w.now < at_ ∧ at_ ≤ w.now+budget.window

theorem erase_length {request : Nat} {requests : List Nat} (member : request ∈ requests) :
    (requests.erase request).length+1 = requests.length := by
  have some_ := List.length_pos_of_mem member
  rw [List.length_erase_of_mem member]
  omega

theorem guard_passes {key : Option Counter} {now : Int} (passes : guard budget key now = none) : ∀ counter ∈ key, counter.count < budget.limit := by
  intro counter is
  cases is
  simp only [guard] at passes
  split at passes
  · assumption
  · cases passes

theorem start_bounded (budget : Budget) (n : Nat) (now : Int) : Bounded budget n (.start now) :=
  ⟨Nat.zero_le n,nofun,nofun,nofun⟩

theorem Bounded.waits (bounded : Bounded budget n w) (seconds : Nat) :
    Bounded budget n {w with now := w.now+seconds,key := w.key.filter (fun counter => counter.expiresAt.all (fun at_ => w.now+seconds < at_))} := by
  have kept : ∀ counter ∈ w.key.filter (fun counter => counter.expiresAt.all (fun at_ => w.now+seconds < at_)),
      counter ∈ w.key ∧ ∀ at_ ∈ counter.expiresAt, w.now+seconds < at_ := by
    intro counter is
    obtain ⟨there,later⟩ := Option.filter_eq_some_iff.mp is
    refine ⟨there,?_⟩
    intro at_ expires
    simpa [Option.mem_def.mp expires] using later
  refine ⟨bounded.capped,fun counter is => bounded.count counter (kept counter is).1,fun counter is => bounded.endless counter (kept counter is).1,?_⟩
  intro counter is at_ expires
  obtain ⟨there,later⟩ := kept counter is
  have before := bounded.lapses counter there at_ expires
  have now := later at_ expires
  exact ⟨now,by dsimp only; omega⟩

-- A request is let through after the key was read, or unread.
theorem Bounded.admits (bounded : Bounded budget n w) (request : Nat) (room : w.through.length < n) {unread : Nat}
    (few : ∀ counter ∈ w.key, counter.count < budget.limit ∧ unread = w.unread ∨ unread = w.unread+1) :
    Bounded budget n {w with through := request :: w.through,unread := unread} := by
  refine ⟨room,?_,bounded.endless,bounded.lapses⟩
  intro counter is
  have before := bounded.count counter is
  have one := few counter is
  show counter.count+(w.through.length+1) ≤ budget.limit-1+n+unread
  omega

theorem Bounded.leaves (bounded : Bounded budget n w) {request : Nat} (member : request ∈ w.through) :
    Bounded budget n {w with through := w.through.erase request} := by
  have fewer := erase_length member
  have capped := bounded.capped
  refine ⟨by show (w.through.erase request).length ≤ n; omega,?_,bounded.endless,bounded.lapses⟩
  intro counter is
  have before := bounded.count counter is
  show counter.count+(w.through.erase request).length ≤ budget.limit-1+n+w.unread
  omega

-- A request is counted as it leaves. Its count has an expiry, or the request is
-- there to set one, or died.
theorem Bounded.counts (bounded : Bounded budget n w) {request : Nat} (counting : List Nat) (died : Nat) (member : request ∈ w.through)
    (open_ : ∀ counter ∈ w.incr.key, counter.expiresAt = none → counting.length+died = w.counting.length+w.incr.died+1) :
    Bounded budget n {w.incr with through := w.through.erase request,counting := counting,died := died} := by
  have fewer := erase_length member
  have capped := bounded.capped
  cases none_ : w.key with
  | none =>
    simp only [Window.incr,none_] at open_ ⊢
    refine ⟨by show (w.through.erase request).length ≤ n; omega,?_,?_,?_⟩
    · intro counter is
      cases is
      show 1+(w.through.erase request).length ≤ budget.limit-1+n+0
      omega
    · intro counter is endless
      cases is
      have made := open_ _ rfl rfl
      show 1 ≤ counting.length+died
      omega
    · intro counter is at_ expires
      cases is
      cases expires
  | some old =>
    simp only [Window.incr,none_] at open_ ⊢
    refine ⟨by show (w.through.erase request).length ≤ n; omega,?_,?_,?_⟩
    · intro counter is
      cases is
      have before := bounded.count old none_
      show old.count+1+(w.through.erase request).length ≤ budget.limit-1+n+w.unread
      omega
    · intro counter is endless
      cases is
      have before := bounded.endless old none_ endless
      have made := open_ _ rfl endless
      show old.count+1 ≤ counting.length+died
      omega
    · intro counter is at_ expires
      cases is
      exact bounded.lapses old none_ at_ expires

theorem Bounded.expires (bounded : Bounded budget n w) (some_ : 0 < budget.window) {request : Nat} :
    Bounded budget n {w with
      counting := w.counting.erase request
      key := w.key.map (fun counter => {counter with expiresAt := some (w.now+budget.window)})} := by
  refine ⟨bounded.capped,?_,?_,?_⟩
  · intro counter is
    obtain ⟨old,there,rfl⟩ := Option.map_eq_some_iff.mp is
    exact bounded.count old there
  · intro counter is endless
    obtain ⟨old,_,rfl⟩ := Option.map_eq_some_iff.mp is
    cases endless
  · intro counter is at_ expires
    obtain ⟨old,_,rfl⟩ := Option.map_eq_some_iff.mp is
    cases expires
    exact ⟨by dsimp only; omega,Int.le_refl _⟩

theorem Bounded.dies (bounded : Bounded budget n w) {request : Nat} (member : request ∈ w.counting) :
    Bounded budget n {w with counting := w.counting.erase request,died := w.died+1} := by
  have fewer := erase_length member
  refine ⟨bounded.capped,bounded.count,?_,bounded.lapses⟩
  intro counter is endless
  have before := bounded.endless counter is endless
  show counter.count ≤ (w.counting.erase request).length+(w.died+1)
  omega

theorem incr_counting (w : Window) : w.incr.counting = w.counting := by
  unfold Window.incr
  split <;> rfl

theorem Bounded.preserved (bounded : Bounded budget n w) (some_ : 0 < budget.window) {op : Operation} (capped : Capped n w op)
    (taken : step budget w op = some next) : Bounded budget n next := by
  cases op with
  | wait seconds =>
    cases taken
    exact bounded.waits seconds
  | guard request =>
    simp only [step] at taken
    split at taken <;> cases taken
    · rename_i passes
      exact bounded.admits request capped (fun counter is => .inl ⟨guard_passes passes counter is,rfl⟩)
    · exact bounded
  | unreachable request =>
    cases taken
    exact bounded.admits request capped (fun _ _ => .inr rfl)
  | finish request =>
    simp only [step,Option.ite_none_right_eq_some,Option.some.injEq] at taken
    obtain ⟨member,rfl⟩ := taken
    exact bounded.leaves member
  | spend request =>
    simp only [step,Option.ite_none_right_eq_some,Option.some.injEq] at taken
    obtain ⟨member,rfl⟩ := taken
    refine bounded.counts (if ttl w.incr.key w.now < 0 then request :: w.counting else w.counting) w.incr.died member ?_
    intro counter is endless
    have unset : ttl w.incr.key w.now < 0 := by simp [ttl,Option.mem_def.mp is,endless]
    simp only [unset,if_true,List.length_cons]
    omega
  | uncounted request counted =>
    simp only [step,Option.ite_none_right_eq_some,Option.some.injEq] at taken
    obtain ⟨member,rfl⟩ := taken
    split
    · rw [incr_counting]
      refine bounded.counts w.counting (w.incr.died+1) member ?_
      intro counter is endless
      omega
    · exact bounded.leaves member
  | expire request =>
    simp only [step,Option.ite_none_right_eq_some,Option.some.injEq] at taken
    obtain ⟨_,rfl⟩ := taken
    exact bounded.expires some_
  | die request =>
    simp only [step,Option.ite_none_right_eq_some,Option.some.injEq] at taken
    obtain ⟨member,rfl⟩ := taken
    exact bounded.dies member

-- A refused caller is told a wait within the window, after which a count that
-- lapses has lapsed.
theorem Bounded.refuses (bounded : Bounded budget n w) (some_ : 0 < budget.window) {refusal : Refusal}
    (refused : guard budget w.key w.now = some refusal) : 0 < refusal.retryAfter ∧ refusal.retryAfter ≤ budget.window ∧
    ∀ counter ∈ w.key, counter.expiresAt ≠ none → (step budget w (.wait refusal.retryAfter.toNat)).bind Window.key = none := by
  cases there : w.key with
  | none =>
    rw [there] at refused
    cases refused
  | some counter =>
    simp only [guard,there] at refused
    split at refused
    · cases refused
    · cases refused
      dsimp only
      cases expires : counter.expiresAt with
      | none =>
        have unset : ttl (some counter) w.now = -1 := by simp [ttl,expires]
        rw [unset,if_neg (by decide)]
        refine ⟨by omega,Int.le_refl _,?_⟩
        intro other is lapses
        cases is
        exact absurd expires lapses
      | some at_ =>
        obtain ⟨later,within⟩ := bounded.lapses counter there at_ expires
        have left : ttl (some counter) w.now = at_-w.now := by simp [ttl,expires]
        rw [left,if_pos (by omega)]
        refine ⟨by omega,by omega,?_⟩
        intro other is _
        cases is
        simp only [step,there,Option.bind_some,Option.filter,expires,Option.all_some,decide_eq_true_eq]
        exact if_neg (by omega)

def signIns : Budget := ⟨"login-ip","192.0.2.1",2,900,"sign-in attempts from this address"⟩

end ChronosLedger.RateLimit
