namespace Runs

-- Everything a system can be in after finitely many steps from its start. The
-- label says which operation a step was; a guarded run takes only steps whose
-- label the guard admits in the state it is taken from.
inductive Reached {σ ω : Type} (step : σ → ω → σ → Prop) (start : σ) : σ → Prop where
  | start : Reached step start start
  | step {s next : σ} {op : ω} (prior : Reached step start s) (taken : step s op next) : Reached step start next

def Guarded {σ ω : Type} (step : σ → ω → σ → Prop) (guard : σ → ω → Prop) (s : σ) (op : ω) (next : σ) : Prop :=
  guard s op ∧ step s op next

variable {σ ω : Type} {step : σ → ω → σ → Prop} {start middle s next : σ}

theorem Reached.invariant (holds : σ → Prop) (initial : holds start)
    (preserved : ∀ s op next, holds s → step s op next → holds next) (path : Reached step start s) : holds s := by
  induction path with
  | start => exact initial
  | step prior taken ih => exact preserved _ _ _ ih taken

theorem Reached.trans (one : Reached step start middle) (two : Reached step middle s) : Reached step start s := by
  induction two with
  | start => exact one
  | step prior taken ih => exact .step ih taken

theorem Reached.unguard {guard : σ → ω → Prop} (path : Reached (Guarded step guard) start s) : Reached step start s := by
  induction path with
  | start => exact .start
  | step prior taken ih => exact .step ih taken.2

-- A relation every step respects holds between the ends of every run.
theorem Reached.related {keeps : σ → σ → Prop} (same : ∀ s, keeps s s) (compose : ∀ a b c, keeps a b → keeps b c → keeps a c)
    (respected : ∀ s op next, step s op next → keeps s next) (path : Reached step start s) : keeps start s := by
  induction path with
  | start => exact same _
  | step prior taken ih => exact compose _ _ _ ih (respected _ _ _ taken)

-- A system given by a function that says what an operation leads to, if it can
-- be taken at all.
def Acts {σ ω : Type} (act : σ → ω → Option σ) (s : σ) (op : ω) (next : σ) : Prop := act s op = some next

-- The operations of a list taken in order, each admitted where it is taken.
def trace {σ ω : Type} (act : σ → ω → Option σ) (guard : σ → ω → Prop) [∀ s op, Decidable (guard s op)] : σ → List ω → Option σ
  | s,[] => some s
  | s,op :: rest => if guard s op then (act s op).bind (fun next => trace act guard next rest) else none

theorem trace_reached {act : σ → ω → Option σ} {guard : σ → ω → Prop} [∀ s op, Decidable (guard s op)] {ops : List ω}
    (path : Reached (Guarded (Acts act) guard) start middle) (taken : trace act guard middle ops = some s) :
    Reached (Guarded (Acts act) guard) start s := by
  induction ops generalizing middle with
  | nil =>
    cases taken
    exact path
  | cons op rest ih =>
    unfold trace at taken
    split at taken
    · rename_i admitted
      obtain ⟨next,acted,later⟩ := Option.bind_eq_some_iff.mp taken
      exact ih (.step path ⟨admitted,acted⟩) later
    · cases taken

end Runs
