import Mathlib.Data.List.Nodup
import ChronosLedger.Library.Runs

namespace Outboxes

-- What waits to be sent, under a key that is given out once.
structure Parcel (ρ : Type) where
  key : Nat
  content : ρ
  deriving DecidableEq, Repr

-- One pass over a queue: what it read at its start and has not come to yet, and
-- the attempt it waits on. Any number of them go through one queue at a time.
inductive Flush (ρ : Type) where
  | idle
  | walking (pending : List (Parcel ρ))
  | awaiting (attempt : Nat) (parcel : Parcel ρ) (pending : List (Parcel ρ))
  deriving DecidableEq, Repr

-- The last three are what happened: everything queued, what the nth attempt sent
-- and which status an attempt was answered with.
structure Outbox (ρ : Type) where
  queue : List (Parcel ρ)
  nextKey : Nat
  flushes : List (Flush ρ)
  queued : List (Parcel ρ)
  sent : List (Parcel ρ)
  answers : List (Nat × Nat)
  deriving DecidableEq, Repr

inductive Move (ρ : Type) where
  | add (content : ρ)
  | openFlush
  | begin (flush : Nat)
  | send (flush : Nat)
  | answer (attempt status : Nat)
  | settle (flush status : Nat) (removes : Bool)
  | fail (flush : Nat)
  | stop (flush : Nat)
  deriving DecidableEq, Repr

variable {ρ : Type}

def Flush.parcels : Flush ρ → List (Parcel ρ)
  | .idle => []
  | .walking pending => pending
  | .awaiting _ parcel pending => parcel :: pending

def Outbox.empty : Outbox ρ := ⟨[],0,[],[],[],[]⟩

def Outbox.goes (o : Outbox ρ) (flush : Nat) (after : Flush ρ) : Outbox ρ := {o with flushes := o.flushes.set flush after}

-- An attempt the other side may still answer.
def Outbox.Open (o : Outbox ρ) (attempt : Nat) : Prop := attempt < o.sent.length ∧ attempt ∉ o.answers.map Prod.fst

instance (o : Outbox ρ) (attempt : Nat) : Decidable (o.Open attempt) := inferInstanceAs (Decidable (_ ∧ _))

-- A final status takes the parcel out of the queue, where the deletion goes
-- through. Anything else, and an attempt that fails, leaves it there.
def Outbox.act (final : Nat → Bool) (o : Outbox ρ) : Move ρ → Option (Outbox ρ)
  | .add content =>
    let parcel := ⟨o.nextKey,content⟩
    some {o with queue := o.queue ++ [parcel],nextKey := o.nextKey+1,queued := o.queued ++ [parcel]}
  | .openFlush => some {o with flushes := o.flushes ++ [.idle]}
  | .begin flush =>
    match o.flushes[flush]? with
    | some .idle => some (o.goes flush (.walking o.queue))
    | _ => none
  | .send flush =>
    match o.flushes[flush]? with
    | some (.walking (parcel :: rest)) => some {o.goes flush (.awaiting o.sent.length parcel rest) with sent := o.sent ++ [parcel]}
    | _ => none
  | .answer attempt status => if o.Open attempt then some {o with answers := o.answers ++ [(attempt,status)]} else none
  | .settle flush status removes =>
    match o.flushes[flush]? with
    | some (.awaiting attempt parcel rest) =>
      if (attempt,status) ∈ o.answers then
        some {o.goes flush (.walking rest) with
          queue := if final status && removes then o.queue.filter (fun other => other.key ≠ parcel.key) else o.queue}
      else none
    | _ => none
  | .fail flush =>
    match o.flushes[flush]? with
    | some (.awaiting _ _ rest) => some (o.goes flush (.walking rest))
    | _ => none
  | .stop flush => if flush < o.flushes.length then some (o.goes flush .idle) else none

def Outbox.Answered (o : Outbox ρ) (parcel : Parcel ρ) (status : Nat) : Prop :=
  ∃ attempt, o.sent[attempt]? = some parcel ∧ (attempt,status) ∈ o.answers

-- Nothing queued is lost: it is in the queue until it was answered for good.
structure Posted (final : Nat → Bool) (o : Outbox ρ) : Prop where
  keys : (o.queued.map Parcel.key).Nodup
  below : ∀ parcel ∈ o.queued, parcel.key < o.nextKey
  waiting : ∀ parcel ∈ o.queue, parcel ∈ o.queued
  pending : ∀ flush ∈ o.flushes, ∀ parcel ∈ flush.parcels, parcel ∈ o.queued
  attempts : ∀ attempt parcel rest, .awaiting attempt parcel rest ∈ o.flushes → o.sent[attempt]? = some parcel
  sent : ∀ parcel ∈ o.sent, parcel ∈ o.queued
  answers : (o.answers.map Prod.fst).Nodup ∧ ∀ answer ∈ o.answers, answer.1 < o.sent.length
  kept : ∀ parcel ∈ o.queued, parcel ∈ o.queue ∨ ∃ status, final status = true ∧ o.Answered parcel status

variable {final : Nat → Bool} {o next : Outbox ρ} {flush attempt status : Nat} {after : Flush ρ}

theorem empty_posted : Posted final (.empty : Outbox ρ) := ⟨.nil,nofun,nofun,nofun,nofun,nofun,⟨.nil,nofun⟩,nofun⟩

theorem sent_extends {sent : List (Parcel ρ)} {parcel : Parcel ρ} (more : List (Parcel ρ)) (there : sent[attempt]? = some parcel) :
    (sent ++ more)[attempt]? = some parcel := by
  obtain ⟨short,_⟩ := List.getElem?_eq_some_iff.mp there
  rw [List.getElem?_append_left short]
  exact there

-- A pass that goes on with what it has read before.
theorem Posted.goes (posted : Posted final o) (flush : Nat) (within : ∀ parcel ∈ after.parcels, parcel ∈ o.queued)
    (waits : ∀ attempt parcel rest, after = .awaiting attempt parcel rest → o.sent[attempt]? = some parcel) :
    Posted final (o.goes flush after) := by
  refine {posted with pending := ?_,attempts := ?_}
  · intro other member
    rcases List.mem_or_eq_of_mem_set member with old | rfl
    · exact posted.pending other old
    · exact within
  · intro attempt parcel rest member
    rcases List.mem_or_eq_of_mem_set member with old | new
    · exact posted.attempts attempt parcel rest old
    · exact waits attempt parcel rest new.symm

theorem Posted.adds (posted : Posted final o) (content : ρ) : Posted final {o with
    queue := o.queue ++ [⟨o.nextKey,content⟩],nextKey := o.nextKey+1,queued := o.queued ++ [⟨o.nextKey,content⟩]} := by
  have grows : ∀ {parcel}, parcel ∈ o.queued → parcel ∈ o.queued ++ [⟨o.nextKey,content⟩] := fun member => List.mem_append_left _ member
  refine ⟨?_,?_,?_,fun other member parcel part => grows (posted.pending other member parcel part),posted.attempts,
    fun parcel member => grows (posted.sent parcel member),posted.answers,?_⟩
  · have newer : ∀ parcel ∈ o.queued, parcel.key ≠ o.nextKey := fun parcel member => Nat.ne_of_lt (posted.below parcel member)
    simpa [List.nodup_append,posted.keys] using newer
  · intro parcel member
    rcases List.mem_append.mp member with old | new
    · exact Nat.lt_succ_of_lt (posted.below parcel old)
    · cases List.mem_singleton.mp new
      exact Nat.lt_succ_self _
  · intro parcel member
    rcases List.mem_append.mp member with old | new
    · exact grows (posted.waiting parcel old)
    · exact List.mem_append_right _ new
  · intro parcel member
    rcases List.mem_append.mp member with old | new
    · exact (posted.kept parcel old).imp_left (fun there => List.mem_append_left _ there)
    · exact .inl (List.mem_append_right _ new)

theorem Posted.sends {parcel : Parcel ρ} {rest : List (Parcel ρ)} (posted : Posted final o)
    (found : o.flushes[flush]? = some (.walking (parcel :: rest))) :
    Posted final {o.goes flush (.awaiting o.sent.length parcel rest) with sent := o.sent ++ [parcel]} := by
  have read := posted.pending _ (List.mem_of_getElem? found)
  have sent : ∀ attempt other, o.sent[attempt]? = some other → (o.sent ++ [parcel])[attempt]? = some other :=
    fun _ _ there => sent_extends _ there
  have grown : Posted final {o with sent := o.sent ++ [parcel]} := by
    refine {posted with attempts := ?_,sent := ?_,answers := ⟨posted.answers.1,?_⟩,kept := ?_}
    · exact fun attempt other rest member => sent _ _ (posted.attempts attempt other rest member)
    · intro other member
      rcases List.mem_append.mp member with old | new
      · exact posted.sent other old
      · cases List.mem_singleton.mp new
        exact read _ (List.mem_cons_self ..)
    · intro answer member
      have before := posted.answers.2 answer member
      simp only [List.length_append]
      omega
    · intro other member
      rcases posted.kept other member with there | ⟨status,done,attempt,before,answered⟩
      · exact .inl there
      · exact .inr ⟨status,done,attempt,sent _ _ before,answered⟩
  refine grown.goes flush read ?_
  rintro attempt other left same
  cases same
  simp

theorem Posted.answered (posted : Posted final o) (opened : o.Open attempt) (status : Nat) :
    Posted final {o with answers := o.answers ++ [(attempt,status)]} := by
  refine {posted with answers := ⟨?_,?_⟩,kept := ?_}
  · have newer : ∀ answer ∈ o.answers, answer.1 ≠ attempt := fun answer member same => opened.2 (same ▸ List.mem_map_of_mem member)
    simpa [List.nodup_append,posted.answers.1] using newer
  · intro answer member
    rcases List.mem_append.mp member with old | new
    · exact posted.answers.2 answer old
    · cases List.mem_singleton.mp new
      exact opened.1
  · intro parcel member
    rcases posted.kept parcel member with there | ⟨status,done,attempt,before,answered⟩
    · exact .inl there
    · exact .inr ⟨status,done,attempt,before,List.mem_append_left _ answered⟩

-- What leaves the queue has the key of the parcel that was answered, and with
-- that is the parcel.
theorem Posted.settles {parcel : Parcel ρ} {rest : List (Parcel ρ)} (posted : Posted final o)
    (found : o.flushes[flush]? = some (.awaiting attempt parcel rest)) (answered : (attempt,status) ∈ o.answers) (done : final status = true) :
    Posted final {o.goes flush (.walking rest) with queue := o.queue.filter (fun other => other.key ≠ parcel.key)} := by
  have member := List.mem_of_getElem? found
  have read := posted.pending _ member
  have went : Posted final (o.goes flush (.walking rest)) :=
    posted.goes flush (fun other part => read other (List.mem_cons_of_mem _ part)) nofun
  refine {went with waiting := fun other there => posted.waiting other (List.mem_filter.mp there).1,kept := ?_}
  intro other queued
  rcases posted.kept other queued with there | done
  · by_cases same : other.key = parcel.key
    · have equal := List.inj_on_of_nodup_map posted.keys queued (read parcel (List.mem_cons_self ..)) same
      exact .inr ⟨status,done,attempt,equal ▸ posted.attempts attempt parcel rest member,answered⟩
    · exact .inl (List.mem_filter.mpr ⟨there,by simpa using same⟩)
  · exact .inr done

theorem act_posted {move : Move ρ} (posted : Posted final o) (taken : o.act final move = some next) : Posted final next := by
  cases move with
  | add content =>
    cases taken
    exact posted.adds content
  | openFlush =>
    cases taken
    refine {posted with pending := ?_,attempts := ?_}
    · intro other member
      rcases List.mem_append.mp member with old | new
      · exact posted.pending other old
      · cases List.mem_singleton.mp new
        nofun
    · intro attempt parcel rest member
      rcases List.mem_append.mp member with old | new
      · exact posted.attempts attempt parcel rest old
      · cases List.mem_singleton.mp new
  | begin flush =>
    simp only [Outbox.act] at taken
    split at taken <;> cases taken
    exact posted.goes flush posted.waiting nofun
  | send flush =>
    simp only [Outbox.act] at taken
    split at taken <;> cases taken
    rename_i found
    exact posted.sends found
  | answer attempt status =>
    simp only [Outbox.act] at taken
    split at taken <;> cases taken
    rename_i opened
    exact posted.answered opened status
  | settle flush status removes =>
    simp only [Outbox.act] at taken
    split at taken
    · rename_i attempt parcel rest found
      have read := posted.pending _ (List.mem_of_getElem? found)
      split at taken <;> cases taken
      rename_i answered
      split
      · rename_i removed
        exact posted.settles found answered (by simp_all)
      · exact posted.goes flush (fun other part => read other (List.mem_cons_of_mem _ part)) nofun
    · cases taken
  | fail flush =>
    simp only [Outbox.act] at taken
    split at taken <;> cases taken
    rename_i found
    have read := posted.pending _ (List.mem_of_getElem? found)
    exact posted.goes flush (fun other part => read other (List.mem_cons_of_mem _ part)) nofun
  | stop flush =>
    simp only [Outbox.act] at taken
    split at taken <;> cases taken
    exact posted.goes flush nofun nofun

-- What a move leaves of the history: attempts and answers are only added to.
theorem act_history {move : Move ρ} (taken : o.act final move = some next) :
    (∀ (attempt : Nat) (parcel : Parcel ρ), o.sent[attempt]? = some parcel → next.sent[attempt]? = some parcel) ∧
    ∀ answer ∈ next.answers, answer ∈ o.answers ∨ ∃ attempt status, move = .answer attempt status ∧ answer = (attempt,status) := by
  cases move with
  | answer attempt status =>
    simp only [Outbox.act] at taken
    split at taken <;> cases taken
    refine ⟨fun _ _ there => there,fun answer member => ?_⟩
    rcases List.mem_append.mp member with old | new
    · exact .inl old
    · exact .inr ⟨attempt,status,rfl,List.mem_singleton.mp new⟩
  | send flush =>
    simp only [Outbox.act] at taken
    split at taken <;> cases taken
    exact ⟨fun _ _ there => sent_extends _ there,fun _ old => .inl old⟩
  | add | openFlush =>
    cases taken
    exact ⟨fun _ _ there => there,fun _ old => .inl old⟩
  | begin | fail | stop =>
    simp only [Outbox.act] at taken
    split at taken <;> cases taken
    exact ⟨fun _ _ there => there,fun _ old => .inl old⟩
  | settle =>
    simp only [Outbox.act] at taken
    split at taken
    · split at taken <;> cases taken
      exact ⟨fun _ _ there => there,fun _ old => .inl old⟩
    · cases taken

theorem act_queued {move : Move ρ} {parcel : Parcel ρ} (taken : o.act final move = some next) (member : parcel ∈ next.queued) :
    parcel ∈ o.queued ∨ move = .add parcel.content := by
  cases move with
  | add content =>
    cases taken
    rcases List.mem_append.mp member with old | new
    · exact .inl old
    · cases List.mem_singleton.mp new
      exact .inr rfl
  | openFlush =>
    cases taken
    exact .inl member
  | begin | send | fail | stop | answer =>
    simp only [Outbox.act] at taken
    split at taken <;> cases taken
    exact .inl member
  | settle =>
    simp only [Outbox.act] at taken
    split at taken
    · split at taken <;> cases taken
      exact .inl member
    · cases taken

-- An answer somebody has is one there was before, or the one just given.
theorem act_answered {move : Move ρ} {parcel : Parcel ρ} (posted : Posted final o) (taken : o.act final move = some next)
    (answered : next.Answered parcel status) :
    o.Answered parcel status ∨ ∃ attempt, move = .answer attempt status ∧ o.sent[attempt]? = some parcel := by
  obtain ⟨attempt,there,answer⟩ := answered
  obtain ⟨sent,answers⟩ := act_history taken
  have before : attempt < o.sent.length → o.sent[attempt]? = some parcel := by
    intro within
    have same := (sent attempt _ (List.getElem?_eq_getElem within)).symm.trans there
    rw [List.getElem?_eq_getElem within,Option.some.inj same]
  rcases answers _ answer with old | ⟨attempt',status',given,same⟩
  · exact .inl ⟨attempt,before (posted.answers.2 _ old),old⟩
  · cases same
    subst given
    simp only [Outbox.act] at taken
    split at taken <;> cases taken
    exact .inr ⟨attempt,rfl,there⟩

end Outboxes
