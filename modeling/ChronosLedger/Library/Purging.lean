import ChronosLedger.Library.Runs

namespace Purging

variable {σ ω : Type}

-- A system seen by one party: a step of somebody else leaves the view as it is,
-- and a step of the party's own does to the view what it does to the whole.
structure Separates (act : σ → ω → Option σ) (guard : σ → ω → Prop) (holds : σ → Prop) (mine : ω → Prop)
    (view : σ → σ) : Prop where
  keeps : ∀ s op next, holds s → guard s op → act s op = some next → holds next
  others : ∀ s op next, holds s → guard s op → ¬ mine op → act s op = some next → view next = view s
  own : ∀ s op next, holds s → guard s op → mine op → act s op = some next → act (view s) op = some (view next)

def perform (act : σ → ω → Option σ) : σ → List ω → Option σ
  | s,[] => some s
  | s,op :: rest => (act s op).bind (fun next => perform act next rest)

variable {act : σ → ω → Option σ} {guard : σ → ω → Prop} {holds : σ → Prop} {mine : ω → Prop} {view : σ → σ}
  [DecidablePred mine] [∀ s op, Decidable (guard s op)] {start s : σ} {ops : List ω}

-- What is left of a run when everybody else's operations are struck out ends
-- in the same view.
theorem Separates.purged (separates : Separates act guard holds mine view) (fine : holds start)
    (traced : Runs.trace act guard start ops = some s) : perform act (view start) (ops.filter mine) = some (view s) := by
  induction ops generalizing start with
  | nil =>
    cases traced
    rfl
  | cons op rest ih =>
    unfold Runs.trace at traced
    split at traced
    · rename_i admitted
      obtain ⟨next,acted,later⟩ := Option.bind_eq_some_iff.mp traced
      have rest := ih (separates.keeps _ _ _ fine admitted acted) later
      by_cases own : mine op
      · have kept := separates.own _ _ _ fine admitted own acted
        simpa [own,perform,kept] using rest
      · have same := separates.others _ _ _ fine admitted own acted
        simpa [own,same] using rest
    · cases traced

end Purging
