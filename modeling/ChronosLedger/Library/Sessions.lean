import Mathlib.Data.List.Basic

namespace Sessions

-- Work on a state that keeps what was written when it raises. It comes to
-- nothing where the fuel it was given runs out.
abbrev Working (σ ε α : Type) := ExceptT ε (StateT σ Option) α

variable {σ τ ε α β : Type}

def Working.on (work : Working σ ε α) (s : σ) : Option (Except ε α × σ) := StateT.run (ExceptT.run work) s

def unfinished : Working σ ε α := ExceptT.mk (fun _ => none)

def ask (answer : Except ε α) : Working σ ε α := ExceptT.mk (fun s => some (answer,s))

-- The same work on part of a larger state, put back whichever way it ends.
def onPart (view : σ → τ) (back : τ → σ) (work : Working τ ε α) : Working σ ε α :=
  ExceptT.mk (fun s => (work.on (view s)).map (fun ended => (ended.1,back ended.2)))

@[simp] theorem pure_on (value : α) (s : σ) : (pure value : Working σ ε α).on s = some (.ok value,s) := rfl

@[simp] theorem ask_on (answer : Except ε α) (s : σ) : (ask answer : Working σ ε α).on s = some (answer,s) := rfl

@[simp] theorem get_on (s : σ) : (get : Working σ ε σ).on s = some (.ok s,s) := rfl

@[simp] theorem modify_on (change : σ → σ) (s : σ) : (modify change : Working σ ε PUnit).on s = some (.ok (),change s) := rfl

@[simp] theorem throw_on (raised : ε) (s : σ) : (throw raised : Working σ ε α).on s = some (.error raised,s) := rfl

@[simp] theorem onPart_on (view : σ → τ) (back : τ → σ) (work : Working τ ε α) (s : σ) :
    (onPart view back work).on s = (work.on (view s)).map (fun ended => (ended.1,back ended.2)) := rfl

theorem bind_ok {first : Working σ ε α} {rest : α → Working σ ε β} {s next : σ} {value : α} (ended : first.on s = some (.ok value,next)) :
    (first >>= rest).on s = (rest value).on next := by
  change Option.bind (first.on s) _ = _
  rw [ended]
  rfl

theorem bind_error {first : Working σ ε α} {rest : α → Working σ ε β} {s next : σ} {raised : ε}
    (ended : first.on s = some (.error raised,next)) : (first >>= rest).on s = some (.error raised,next) := by
  change Option.bind (first.on s) _ = _
  rw [ended]
  rfl

@[simp] theorem get_bind (rest : σ → Working σ ε β) (s : σ) : (get >>= rest).on s = (rest s).on s := rfl

@[simp] theorem modify_bind (change : σ → σ) (rest : PUnit → Working σ ε β) (s : σ) :
    (modify change >>= rest).on s = (rest ()).on (change s) := rfl

@[simp] theorem pure_bind_on (value : α) (rest : α → Working σ ε β) (s : σ) : (pure value >>= rest).on s = (rest value).on s := rfl

@[simp] theorem ask_ok (value : α) (rest : α → Working σ ε β) (s : σ) : (ask (.ok value) >>= rest).on s = (rest value).on s := rfl

@[simp] theorem ask_error (raised : ε) (rest : α → Working σ ε β) (s : σ) : (ask (.error raised) >>= rest).on s = some (.error raised,s) := rfl

theorem catch_ok {work : Working σ ε α} {handler : ε → Working σ ε α} {s next : σ} {value : α} (ended : work.on s = some (.ok value,next)) :
    (tryCatch work handler).on s = some (.ok value,next) := by
  change Option.bind (work.on s) _ = _
  rw [ended]
  rfl

theorem catch_error {work : Working σ ε α} {handler : ε → Working σ ε α} {s next : σ} {raised : ε}
    (ended : work.on s = some (.error raised,next)) : (tryCatch work handler).on s = (handler raised).on next := by
  change Option.bind (work.on s) _ = _
  rw [ended]
  rfl

-- Work told by a function that knows nothing of how far a refusal got: it ends
-- where the function says, or raises what the function refuses with and leaves
-- the state inside the frame.
def Follows (shows : τ → σ) (holds : τ → Prop) (frame : σ → Prop) (work : Working σ ε α) (t : τ) (said : Except ε (τ × α)) : Prop :=
  match said with
  | .ok (next,value) => work.on (shows t) = some (.ok value,shows next) ∧ holds next
  | .error raised => ∃ left, work.on (shows t) = some (.error raised,left) ∧ frame left

-- A function with no value besides the state it ends in.
def valueless (said : Except ε τ) : Except ε (τ × Unit) := said.map (fun next => (next,()))

variable {shows : τ → σ} {holds : τ → Prop} {frame : σ → Prop} {work : Working σ ε α} {t : τ}

theorem Follows.bind {rest : α → Working σ ε β} {said : Except ε (τ × α)} {next : τ × α → Except ε (τ × β)}
    (first : Follows shows holds frame work t said) (second : ∀ later value, holds later → said = .ok (later,value) →
      Follows shows holds frame (rest value) later (next (later,value))) : Follows shows holds frame (work >>= rest) t (said >>= next) := by
  cases said with
  | error raised =>
    obtain ⟨left,ended,framed⟩ := first
    exact ⟨left,bind_error ended,framed⟩
  | ok pair =>
    obtain ⟨later,value⟩ := pair
    obtain ⟨ended,kept⟩ := first
    have after := second later value kept rfl
    unfold Follows at after ⊢
    rw [bind_ok ended]
    exact after

theorem Follows.next {work : Working σ ε Unit} {rest : Unit → Working σ ε β} {said : Except ε τ} {next : τ → Except ε (τ × β)}
    (first : Follows shows holds frame work t (valueless said)) (second : ∀ later, holds later → said = .ok later →
      Follows shows holds frame (rest ()) later (next later)) : Follows shows holds frame (work >>= rest) t (said >>= next) := by
  have both : (valueless said >>= fun pair => next pair.1) = (said >>= next) := by cases said <;> rfl
  rw [← both]
  refine first.bind (fun later value kept same => second later kept ?_)
  cases said with
  | error _ => cases same
  | ok _ =>
    cases same
    rfl

theorem Follows.then {work rest : Working σ ε Unit} {said : Except ε τ} {next : τ → Except ε τ}
    (first : Follows shows holds frame work t (valueless said)) (second : ∀ later, holds later → said = .ok later →
      Follows shows holds frame rest later (valueless (next later))) :
    Follows shows holds frame (work >>= fun _ => rest) t (valueless (said >>= next)) := by
  have both : valueless (said >>= next) = (said >>= fun later => valueless (next later)) := by cases said <;> rfl
  rw [both]
  exact first.next second

theorem Follows.read {rest : σ → Working σ ε β} {said : Except ε (τ × β)} (later : Follows shows holds frame (rest (shows t)) t said) :
    Follows shows holds frame (get >>= rest) t said := later

theorem Follows.changed {change : σ → σ} {rest : PUnit → Working σ ε β} {next : τ} {said : Except ε (τ × β)}
    (same : change (shows t) = shows next) (later : Follows shows holds frame (rest ()) next said) :
    Follows shows holds frame (modify change >>= rest) t said := by
  unfold Follows at later ⊢
  rw [modify_bind,same]
  exact later

theorem Follows.value (value : α) (kept : holds t) : Follows shows holds frame (pure value : Working σ ε α) t (.ok (t,value)) := ⟨rfl,kept⟩

theorem Follows.raised (raised : ε) (framed : frame (shows t)) : Follows shows holds frame (throw raised : Working σ ε α) t (.error raised) :=
  ⟨_,rfl,framed⟩

-- One item after the other, as a fold over the states.
theorem Follows.each {work : α → Working σ ε PUnit} {step : τ → α → Except ε τ} {items : List α} (start : holds t)
    (one : ∀ item ∈ items, ∀ t, holds t → Follows shows holds frame (work item) t (valueless (step t item))) :
    Follows shows holds frame (items.forM work) t (valueless (items.foldlM step t)) := by
  induction items generalizing t with
  | nil => exact ⟨rfl,start⟩
  | cons item rest ih =>
    rw [List.foldlM_cons]
    change Follows shows holds frame (work item >>= fun _ => rest.forM work) t _
    exact (one item (by simp) t start).then (fun later kept _ => ih kept (fun other member => one other (by simp [member])))

end Sessions
