import Mathlib.Data.List.Basic

-- A computation that may stop, and a forecast of it that never does. The forecast
-- runs on its own states, of those that are plain; what it records only grows,
-- and the record says whether the computation is still going.
structure Forecast (σ τ : Type) where
  grows : σ → σ → Prop
  plain : σ → Prop
  sound : σ → Prop
  mirrors : σ → τ → Prop
  same : ∀ s, grows s s
  compose : ∀ {a b c}, grows a b → grows b c → grows a c
  stays : ∀ {s next}, grows s next → plain s → plain next
  earlier : ∀ {s next}, grows s next → sound next → sound s

namespace Forecast

variable {σ τ ε ρ ρ' η η' κ : Type} {F : Forecast σ τ}

-- What a forecast with this record says of the outcome.
def Agrees (F : Forecast σ τ) (look : ρ → σ) (pairs : ρ → ρ' → Prop) (result : ρ) (outcome : Except ε ρ') : Prop :=
  (F.sound (look result) → ∃ done, outcome = .ok done ∧ pairs result done) ∧ (¬ F.sound (look result) → ∃ error, outcome = .error error)

def Foretells (F : Forecast σ τ) (s : σ) (from_ : κ → Prop) (look : ρ → σ) (pairs : ρ → ρ' → Prop) (dry : Except ε ρ)
    (real : κ → Except ε ρ') : Prop :=
  F.plain s → ∃ result, dry = .ok result ∧ F.grows s (look result) ∧ ∀ start, F.sound s → from_ start → F.Agrees look pairs result (real start)

-- The computation over states alone.
abbrev Tells (F : Forecast σ τ) (s : σ) (dry : Except ε σ) (real : τ → Except ε τ) : Prop :=
  F.Foretells s (F.mirrors s) id F.mirrors dry real

theorem Foretells.bind {s : σ} {from_ : κ → Prop} {look : ρ → σ} {pairs : ρ → ρ' → Prop} {look' : η → σ} {pairs' : η → η' → Prop}
    {dry : Except ε ρ} {real : κ → Except ε ρ'} {next : ρ → Except ε η} {next' : ρ' → Except ε η'}
    (first : F.Foretells s from_ look pairs dry real)
    (later : ∀ result, F.Foretells (look result) (pairs result) look' pairs' (next result) next') :
    F.Foretells s from_ look' pairs' (dry >>= next) (fun start => real start >>= next') := by
  intro plain
  obtain ⟨middle,done,grown,outcome⟩ := first plain
  obtain ⟨last,done',grown',outcome'⟩ := later middle (F.stays grown plain)
  refine ⟨last,by rw [done]; exact done',F.compose grown grown',fun start sound begun => ?_⟩
  obtain ⟨goes,stops⟩ := outcome start sound begun
  change F.Agrees look' pairs' last (real start >>= next')
  by_cases still : F.sound (look middle)
  · obtain ⟨real_,ran,paired⟩ := goes still
    rw [ran]
    exact outcome' real_ still paired
  · obtain ⟨error,stopped⟩ := stops still
    rw [stopped]
    exact ⟨fun sound' => absurd (F.earlier grown' sound') still,fun _ => ⟨error,rfl⟩⟩

-- The computation may be read off as another one on the states it starts from.
theorem Foretells.rewrite {s : σ} {from_ : κ → Prop} {look : ρ → σ} {pairs : ρ → ρ' → Prop} {dry : Except ε ρ}
    {real real' : κ → Except ε ρ'} (equal : ∀ start, from_ start → real start = real' start)
    (told : F.Foretells s from_ look pairs dry real') : F.Foretells s from_ look pairs dry real := by
  intro plain
  obtain ⟨result,done,grown,outcome⟩ := told plain
  exact ⟨result,done,grown,fun start sound begun => by rw [equal start begun]; exact outcome start sound begun⟩

theorem Foretells.pure {s : σ} {from_ : κ → Prop} {look : ρ → σ} {pairs : ρ → ρ' → Prop} (result : ρ) (real : κ → ρ')
    (here : look result = s) (paired : ∀ start, from_ start → pairs result (real start)) :
    F.Foretells s from_ look pairs (.ok result : Except ε ρ) (fun start => .ok (real start)) :=
  fun _ => ⟨result,rfl,here ▸ F.same s,fun start sound begun =>
    ⟨fun _ => ⟨_,rfl,paired start begun⟩,fun stopped => absurd (here.symm ▸ sound) stopped⟩⟩

theorem foldlM {α : Type} {step : σ → α → Except ε σ} {step' : τ → α → Except ε τ} {items : List α}
    (each : ∀ item ∈ items, ∀ s, F.Tells s (step s item) (fun t => step' t item)) (s : σ) :
    F.Tells s (items.foldlM step s) (fun t => items.foldlM step' t) := by
  induction items generalizing s with
  | nil => exact .pure s id rfl (fun _ begun => begun)
  | cons item rest ih =>
    exact (each item (List.mem_cons_self ..) s).bind (ih (fun other member => each other (List.mem_cons_of_mem _ member)))

end Forecast
