import Mathlib.Data.List.Nodup

namespace Relays

-- Nodes that handle the messages they make themselves, pass them on once, and
-- handle what the others pass on. A channel hands a node what was passed on while
-- it listened, its own messages among the rest, and may lose any of it.
structure Relay (ν μ : Type) where
  handled : List (ν × μ)
  unsent : List (ν × μ)
  inbox : ν → List (ν × μ)

variable {ν μ : Type} {s : Relay ν μ} {node : ν} {message : μ}

def Relay.silent : Relay ν μ := ⟨[],[],fun _ => []⟩

def Relay.make (s : Relay ν μ) (node : ν) (message : μ) : Relay ν μ :=
  {s with handled := s.handled ++ [(node,message)],unsent := s.unsent ++ [(node,message)]}

def Relay.publish [DecidableEq ν] [DecidableEq μ] (s : Relay ν μ) (node : ν) (message : μ) (reaches : ν → Bool) : Relay ν μ :=
  {s with
    unsent := s.unsent.filter (fun other => other ≠ (node,message))
    inbox := fun other => if reaches other then s.inbox other ++ [(node,message)] else s.inbox other}

-- A message of its own comes back to a node and is passed over.
def Relay.take [DecidableEq ν] (s : Relay ν μ) (node origin : ν) (message : μ) (rest : List (ν × μ)) : Relay ν μ :=
  {s with
    handled := if origin = node then s.handled else s.handled ++ [(node,message)]
    inbox := fun other => if other = node then rest else s.inbox other}

-- Nobody handles a message twice.
structure Once (s : Relay ν μ) : Prop where
  once : s.handled.Nodup
  unsent : ∀ own ∈ s.unsent, own ∈ s.handled ∧ (∀ other ∈ s.handled, other.2 = own.2 → other = own) ∧
    ∀ node, ∀ packet ∈ s.inbox node, packet.2 ≠ own.2
  apart : ∀ node, ((s.inbox node).map Prod.snd).Nodup
  waits : ∀ node, ∀ packet ∈ s.inbox node, packet ∈ s.handled ∧ (packet.1 ≠ node → (node,packet.2) ∉ s.handled)

theorem nodup_append_one {α : Type} {l : List α} {a : α} (distinct : l.Nodup) (new : a ∉ l) : (l ++ [a]).Nodup := by
  simpa only [List.concat_eq_append] using List.Nodup.concat new distinct

theorem silent_once : Once (.silent : Relay ν μ) := ⟨.nil,nofun,fun _ => .nil,nofun⟩

theorem Once.fewer (once : Once s) {unsent : List (ν × μ)} (within : ∀ own ∈ unsent, own ∈ s.unsent) : Once {s with unsent := unsent} :=
  ⟨once.once,fun own member => once.unsent own (within own member),once.apart,once.waits⟩

theorem Once.makes (once : Once s) (node : ν) (unseen : ∀ other ∈ s.handled, other.2 ≠ message) : Once (s.make node message) := by
  refine ⟨?_,?_,once.apart,?_⟩
  · have new : (node,message) ∉ s.handled := fun member => unseen _ member rfl
    exact nodup_append_one once.once new
  · intro own member
    rcases List.mem_append.mp member with old | new
    · obtain ⟨there,only,quiet⟩ := once.unsent own old
      refine ⟨List.mem_append_left _ there,?_,quiet⟩
      intro other handled same
      rcases List.mem_append.mp handled with before | now
      · exact only other before same
      · cases List.mem_singleton.mp now
        exact absurd same.symm (unseen own there)
    · cases List.mem_singleton.mp new
      refine ⟨by simp [Relay.make],?_,?_⟩
      · intro other handled same
        rcases List.mem_append.mp handled with before | now
        · exact absurd same (unseen other before)
        · exact List.mem_singleton.mp now
      · exact fun other packet waiting => unseen packet (once.waits other packet waiting).1
  · intro other packet waiting
    obtain ⟨there,fresh⟩ := once.waits other packet waiting
    refine ⟨List.mem_append_left _ there,fun apart handled => ?_⟩
    rcases List.mem_append.mp handled with before | now
    · exact fresh apart before
    · cases List.mem_singleton.mp now
      exact unseen packet there rfl

theorem Once.publishes [DecidableEq ν] [DecidableEq μ] (once : Once s) (own : (node,message) ∈ s.unsent) (reaches : ν → Bool) : Once (s.publish node message reaches) := by
  obtain ⟨there,only,quiet⟩ := once.unsent _ own
  have arrives : ∀ other packet, packet ∈ (s.publish node message reaches).inbox other → packet ∈ s.inbox other ∨ packet = (node,message) := by
    intro other packet member
    simp only [Relay.publish] at member
    split at member
    · simpa using member
    · exact .inl member
  refine ⟨once.once,?_,?_,?_⟩
  · intro another member
    obtain ⟨old,different⟩ := List.mem_filter.mp member
    obtain ⟨handled,alone,silent⟩ := once.unsent another old
    refine ⟨handled,alone,?_⟩
    intro other packet arrived
    rcases arrives other packet arrived with before | rfl
    · exact silent other packet before
    · intro same
      exact of_decide_eq_true different (only another handled same.symm)
  · intro other
    simp only [Relay.publish]
    split
    · have new : message ∉ (s.inbox other).map Prod.snd := by
        intro member
        obtain ⟨packet,waiting,same⟩ := List.mem_map.mp member
        exact quiet other packet waiting same
      rw [List.map_append]
      exact nodup_append_one (once.apart other) new
    · exact once.apart other
  · intro other packet arrived
    rcases arrives other packet arrived with before | rfl
    · exact once.waits other packet before
    · refine ⟨there,fun apart handled => apart ?_⟩
      have same := only _ handled rfl
      exact (congrArg Prod.fst same).symm

theorem Once.takes [DecidableEq ν] (once : Once s) {origin : ν} {rest : List (ν × μ)} (waiting : s.inbox node = (origin,message) :: rest) :
    Once (s.take node origin message rest) := by
  have first : (origin,message) ∈ s.inbox node := waiting ▸ List.mem_cons_self
  obtain ⟨there,fresh⟩ := once.waits node _ first
  have apart := once.apart node
  rw [waiting,List.map_cons] at apart
  obtain ⟨unseen,apart⟩ := List.nodup_cons.mp apart
  have stays : ∀ other packet, packet ∈ (s.take node origin message rest).inbox other → packet ∈ s.inbox other ∧ (other = node → packet.2 ≠ message) := by
    intro other packet member
    simp only [Relay.take] at member
    split at member
    · rename_i same
      cases same
      exact ⟨waiting ▸ List.mem_cons_of_mem _ member,fun _ equal => unseen (List.mem_map.mpr ⟨packet,member,equal⟩)⟩
    · rename_i different
      exact ⟨member,fun same => absurd same different⟩
  have handled : ∀ entry, entry ∈ (s.take node origin message rest).handled → entry ∈ s.handled ∨ entry = (node,message) ∧ origin ≠ node := by
    intro entry member
    simp only [Relay.take] at member
    split at member
    · exact .inl member
    · rename_i different
      rcases List.mem_append.mp member with old | new
      · exact .inl old
      · exact .inr ⟨List.mem_singleton.mp new,different⟩
  have kept : ∀ entry ∈ s.handled, entry ∈ (s.take node origin message rest).handled := by
    intro entry member
    simp only [Relay.take]
    split
    · exact member
    · exact List.mem_append_left _ member
  refine ⟨?_,?_,?_,?_⟩
  · simp only [Relay.take]
    split
    · exact once.once
    · rename_i different
      have new : (node,message) ∉ s.handled := fresh different
      exact nodup_append_one once.once new
  · intro own member
    obtain ⟨old,only,quiet⟩ := once.unsent own member
    refine ⟨kept own old,?_,fun other packet arrived => quiet other packet (stays other packet arrived).1⟩
    intro entry member same
    rcases handled entry member with before | ⟨rfl,_⟩
    · exact only entry before same
    · have same : message = own.2 := same
      exact absurd same (quiet node _ first)
  · intro other
    simp only [Relay.take]
    split
    · exact apart
    · exact once.apart other
  · intro other packet arrived
    obtain ⟨before,different⟩ := stays other packet arrived
    obtain ⟨known,untaken⟩ := once.waits other packet before
    refine ⟨kept packet known,fun foreign now => ?_⟩
    rcases handled _ now with old | ⟨same,_⟩
    · exact untaken foreign old
    · cases same
      exact different rfl rfl

-- What waits at a node may be lost.
theorem Once.thins (once : Once s) {inbox : ν → List (ν × μ)} (within : ∀ node, (inbox node).Sublist (s.inbox node)) :
    Once {s with inbox := inbox} := by
  refine ⟨once.once,?_,?_,fun node packet member => once.waits node packet ((within node).subset member)⟩
  · intro own member
    obtain ⟨there,only,quiet⟩ := once.unsent own member
    exact ⟨there,only,fun node packet waiting => quiet node packet ((within node).subset waiting)⟩
  · exact fun node => (once.apart node).sublist ((within node).map Prod.snd)

end Relays
