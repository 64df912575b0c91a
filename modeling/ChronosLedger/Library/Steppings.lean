import Mathlib.Data.List.Basic

namespace Steppings

-- One turn of a loop: on from a state, or out of it with a result.
inductive Turn (σ ρ : Type) where
  | goes (state : σ)
  | stops (result : ρ)
  deriving DecidableEq, Repr

variable {σ τ κ ρ α : Type}

def Turn.andThen (turn : Turn σ ρ) (rest : σ → Turn τ ρ) : Turn τ ρ :=
  match turn with
  | .goes s => rest s
  | .stops result => .stops result

def Turn.Meets (turn : Turn σ ρ) (going : σ → Prop) (wanted : ρ → Prop) : Prop :=
  match turn with
  | .goes s => going s
  | .stops result => wanted result

@[simp] theorem goes_andThen (s : σ) (rest : σ → Turn τ ρ) : (Turn.goes s : Turn σ ρ).andThen rest = rest s := rfl

@[simp] theorem stops_andThen (result : ρ) (rest : σ → Turn τ ρ) : (Turn.stops result : Turn σ ρ).andThen rest = .stops result := rfl

theorem Turn.Meets.mono {turn : Turn σ ρ} {going later : σ → Prop} {wanted : ρ → Prop} (meets : turn.Meets going wanted)
    (more : ∀ s, going s → later s) : turn.Meets later wanted := by
  cases turn with
  | goes s => exact more s meets
  | stops result => exact meets

theorem Turn.Meets.andThen {turn : Turn σ ρ} {rest : σ → Turn τ ρ} {after : τ → Prop} {wanted : ρ → Prop} (going : σ → Prop)
    (first : turn.Meets going wanted) (second : ∀ s, going s → (rest s).Meets after wanted) : (turn.andThen rest).Meets after wanted := by
  cases turn with
  | goes s => exact second s first
  | stops result => exact first

-- Values handed over one by one until one of them ends it.
def feed (take : κ → α → Turn κ ρ) : List α → κ → Turn κ ρ
  | [],k => .goes k
  | a :: rest,k => (take k a).andThen (feed take rest)

def loop (turn : σ → Turn σ ρ) : Nat → σ → Option ρ
  | 0,_ => none
  | fuel+1,s =>
    match turn s with
    | .goes next => loop turn fuel next
    | .stops result => some result

-- What a run comes to: the same from some fuel on.
def Comes (run : Nat → Option ρ) (result : ρ) : Prop := ∃ bound, ∀ fuel ≥ bound, run fuel = some result

theorem Comes.only {run : Nat → Option ρ} {one two : ρ} (first : Comes run one) (second : Comes run two) : one = two := by
  obtain ⟨bound,always⟩ := first
  obtain ⟨bound',always'⟩ := second
  exact Option.some.inj ((always _ (Nat.le_max_left bound bound')).symm.trans (always' _ (Nat.le_max_right bound bound')))

theorem feed_append (take : κ → α → Turn κ ρ) (one two : List α) (k : κ) :
    feed take (one ++ two) k = (feed take one k).andThen (feed take two) := by
  induction one generalizing k with
  | nil => rfl
  | cons a rest ih =>
    change (take k a).andThen (feed take (rest ++ two)) = ((take k a).andThen (feed take rest)).andThen (feed take two)
    cases take k a with
    | goes next => exact ih next
    | stops _ => rfl

variable {turn : σ → Turn σ ρ} {s next : σ} {result : ρ}

theorem loop_succ (turn : σ → Turn σ ρ) (fuel : Nat) (s : σ) : loop turn (fuel+1) s = match turn s with
    | .goes next => loop turn fuel next
    | .stops result => some result := rfl

theorem loop_stops (stopped : turn s = .stops result) : Comes (loop turn · s) result := by
  refine ⟨1,fun fuel enough => ?_⟩
  obtain ⟨fuel,rfl⟩ : ∃ n, fuel = n+1 := ⟨fuel-1,by omega⟩
  change loop turn (fuel+1) s = _
  rw [loop_succ,stopped]

theorem loop_goes (gone : turn s = .goes next) : Comes (loop turn · s) result ↔ Comes (loop turn · next) result := by
  have one : ∀ fuel, loop turn (fuel+1) s = loop turn fuel next := fun fuel => by
    rw [loop_succ,gone]
  constructor
  · intro ⟨bound,always⟩
    exact ⟨bound,fun fuel enough => (one fuel).symm.trans (always _ (by omega))⟩
  · intro ⟨bound,always⟩
    refine ⟨bound+1,fun fuel enough => ?_⟩
    obtain ⟨fuel,rfl⟩ : ∃ n, fuel = n+1 := ⟨fuel-1,by omega⟩
    exact (one fuel).trans (always fuel (by omega))

-- What a turn from an allowed state may do, with nothing said of how often.
def Allows (turn : σ → Turn σ ρ) (holds : σ → Prop) (wanted : ρ → Prop) : Prop :=
  ∀ s, holds s → (turn s).Meets holds wanted

-- A measure that falls with every turn ends the loop, in something wanted.
theorem loop_meets (holds : σ → Prop) {wanted : ρ → Prop} (measure : σ → Nat)
    (each : ∀ s, holds s → (turn s).Meets (fun next => holds next ∧ measure next < measure s) wanted) (start : holds s) : ∃ result, Comes (loop turn · s) result ∧ wanted result := by
  induction size : measure s using Nat.strongRecOn generalizing s with
  | _ size ih =>
    have taken := each s start
    cases turned : turn s with
    | stops result =>
      rw [turned] at taken
      exact ⟨result,loop_stops turned,taken⟩
    | goes next =>
      rw [turned] at taken
      obtain ⟨kept,less⟩ := taken
      obtain ⟨result,comes,good⟩ := ih (measure next) (by omega) kept rfl
      exact ⟨result,(loop_goes turned).mpr comes,good⟩

-- If it ends, it ends in something wanted.
theorem loop_only (holds : σ → Prop) (wanted : ρ → Prop) (allows : Allows turn holds wanted) (start : holds s)
    (comes : Comes (loop turn · s) result) : wanted result := by
  obtain ⟨bound,always⟩ := comes
  have ended := always bound (Nat.le_refl _)
  clear always
  induction bound generalizing s with
  | zero => cases ended
  | succ fuel ih =>
    have taken := allows s start
    change loop turn (fuel+1) s = _ at ended
    rw [loop_succ] at ended
    cases turned : turn s with
    | stops other =>
      rw [turned] at taken ended
      cases ended
      exact taken
    | goes next =>
      rw [turned] at taken ended
      exact ih taken ended

end Steppings
