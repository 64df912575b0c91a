import Mathlib.Logic.Function.Basic
import ChronosLedger.Library.Relays
import ChronosLedger.Library.Runs

namespace ChronosLedger.Sockets

inductive Body where
  | event (eventType payload : String)
  | close (code : Nat)
  deriving DecidableEq, Repr

-- `id` is no part of what is published: it tells one call from another.
structure Message where
  origin : Nat
  id : Nat
  to_ : Option String
  body : Body
  deriving DecidableEq, Repr

-- One process: its dict of sockets, whether its relay is subscribed and has its
-- client, and what the subscription holds for it.
structure Instance where
  activeSockets : List (String × Nat)
  subscribed : Bool
  client : Bool
  inbox : List Message
  deriving DecidableEq, Repr

def registerSession (active : List (String × Nat)) (userId : String) (socket : Nat) : List (String × Nat) :=
  if userId ∈ active.map Prod.fst then active.map (fun entry => if entry.1 = userId then (userId,socket) else entry)
  else active ++ [(userId,socket)]

def popSession (active : List (String × Nat)) (userId : String) : List (String × Nat) := active.filter (fun entry => entry.1 ≠ userId)

-- A stale connection that closes does not evict its replacement.
def terminateSession (active : List (String × Nat)) (userId : String) (socket : Option Nat) : List (String × Nat) :=
  match socket with
  | some socket => if (userId,socket) ∈ active then popSession active userId else active
  | none => popSession active userId

-- The sockets a message goes to here, and the dict once it has been looked at.
def targetsHere (active : List (String × Nat)) (message : Message) : List (String × Nat) :=
  match message.body,message.to_ with
  | .close _,_ => []
  | .event _ _,some userId => active.filter (fun entry => entry.1 = userId)
  | .event _ _,none => active

def activeAfter (active : List (String × Nat)) (message : Message) : List (String × Nat) :=
  match message.body,message.to_ with
  | .close _,some userId => popSession active userId
  | _,_ => active

-- A call or a relayed message under way: the sockets it has still to write to,
-- and whether it is published after that.
structure Task where
  instance_ : Nat
  message : Message
  targets : List (String × Nat)
  publishes : Bool
  deriving DecidableEq, Repr

def Task.key (t : Task) : Nat × Nat := (t.instance_,t.message.id)

-- A socket is its place in `owners`, which has the instance that took it and whose
-- it is. The last three are what happened: the calls, who handled which, and what
-- was written to which socket.
structure Brokers where
  instances : Nat → Instance
  tasks : List Task
  owners : List (Nat × String)
  messages : List Message
  handled : List (Nat × Nat)
  delivered : List (Nat × Nat)

inductive Operation where
  | register (instance_ : Nat) (userId : String)
  | disconnect (socket : Nat)
  | call (instance_ : Nat) (to_ : Option String) (body : Body)
  | send (instance_ id : Nat) (works : Bool)
  | publish (instance_ id : Nat) (reached : List Nat)
  | relay (instance_ : Nat)
  | finish (instance_ id : Nat)
  | subscribe (instance_ : Nat)
  | connected (instance_ : Nat)
  | lose (instance_ : Nat)
  deriving DecidableEq, Repr

def Brokers.change (s : Brokers) (i : Nat) (f : Instance → Instance) : Brokers :=
  {s with instances := Function.update s.instances i (f (s.instances i))}

-- A message is looked at, and its writes begin.
def Brokers.begin (s : Brokers) (i : Nat) (message : Message) (publishes : Bool) : Brokers :=
  {s.change i (fun here => {here with activeSockets := activeAfter here.activeSockets message}) with
    tasks := s.tasks ++ [⟨i,message,targetsHere (s.instances i).activeSockets message,publishes⟩]
    handled := s.handled ++ [(i,message.id)]}

def Brokers.taskAt (s : Brokers) (i id : Nat) : Option Task := s.tasks.find? (fun t => t.key = (i,id))

def writeFirst (i id : Nat) (t : Task) : Task := if t.key = (i,id) then {t with targets := t.targets.tail} else t

def step (s : Brokers) : Operation → Option Brokers
  | .register i userId =>
    some {s.change i (fun here => {here with activeSockets := registerSession here.activeSockets userId s.owners.length}) with
      owners := s.owners ++ [(i,userId)]}
  | .disconnect socket =>
    match s.owners[socket]? with
    | some (i,userId) => some (s.change i (fun here => {here with activeSockets := terminateSession here.activeSockets userId (some socket)}))
    | none => none
  | .call i to_ body =>
    let message : Message := ⟨i,s.messages.length,to_,body⟩
    some {s.begin i message true with messages := s.messages ++ [message]}
  -- A write that fails evicts whatever socket the user has by then.
  | .send i id works =>
    match s.taskAt i id with
    | some ⟨_,_,(userId,socket) :: _,_⟩ =>
      let s := {s with tasks := s.tasks.map (writeFirst i id)}
      if works then some {s with delivered := s.delivered ++ [(socket,id)]}
      else some (s.change i (fun here => {here with activeSockets := terminateSession here.activeSockets userId none}))
    | _ => none
  -- Without its client an instance passes nothing on, and what it publishes reaches
  -- some of those that are subscribed.
  | .publish i id reached =>
    match s.taskAt i id with
    | some ⟨_,message,[],true⟩ =>
      some {s with
        tasks := s.tasks.filter (fun t => t.key ≠ (i,id))
        instances := fun j =>
          if (s.instances i).client ∧ j ∈ reached ∧ (s.instances j).subscribed then
            {s.instances j with inbox := (s.instances j).inbox ++ [message]}
          else s.instances j}
    | _ => none
  -- One relayed message at a time.
  | .relay i =>
    match (s.instances i).inbox with
    | message :: rest =>
      if ∀ t ∈ s.tasks, t.instance_ = i → t.publishes = true then
        let s := s.change i (fun here => {here with inbox := rest})
        some (if message.origin = i then s else s.begin i message false)
      else none
    | [] => none
  | .finish i id =>
    match s.taskAt i id with
    | some ⟨_,_,[],false⟩ => some {s with tasks := s.tasks.filter (fun t => t.key ≠ (i,id))}
    | _ => none
  | .subscribe i => some (s.change i (fun here => {here with subscribed := true}))
  | .connected i => if (s.instances i).subscribed then some (s.change i (fun here => {here with client := true})) else none
  | .lose i => some (s.change i (fun here => {here with subscribed := false,client := false,inbox := []}))

def Brokers.start : Brokers := ⟨fun _ => ⟨[],false,false,[]⟩,[],[],[],[],[]⟩

open Relays

variable {s next : Brokers} {i id : Nat} {message : Message}

def Brokers.view (s : Brokers) : Relay Nat Nat :=
  ⟨s.handled,(s.tasks.filter Task.publishes).map Task.key,fun j => (s.instances j).inbox.map (fun message => (message.origin,message.id))⟩

def Message.isFor (message : Message) (userId : String) : Prop := message.to_ = none ∨ message.to_ = some userId

-- One socket a user and one user a socket, at each instance.
structure Dict (owners : List (Nat × String)) (i : Nat) (active : List (String × Nat)) : Prop where
  users : (active.map Prod.fst).Nodup
  owned : ∀ entry ∈ active, owners[entry.2]? = some (i,entry.1)

structure Kept (s : Brokers) : Prop where
  relays : Once s.view
  made : ∀ entry ∈ s.handled, entry.2 < s.messages.length
  waiting : ∀ j, ∀ message ∈ (s.instances j).inbox, s.messages[message.id]? = some message
  tasks : (s.tasks.map Task.key).Nodup
  running : ∀ t ∈ s.tasks, t.key ∈ s.handled ∧ s.messages[t.message.id]? = some t.message ∧ (t.targets.map Prod.snd).Nodup ∧
    ∀ entry ∈ t.targets, s.owners[entry.2]? = some (t.instance_,entry.1) ∧ t.message.isFor entry.1
  own : ∀ t ∈ s.tasks, t.publishes = true → t.message.origin = t.instance_
  active : ∀ j, Dict s.owners j (s.instances j).activeSockets
  delivered : s.delivered.Nodup
  past : ∀ d ∈ s.delivered, ∃ j userId message, s.owners[d.1]? = some (j,userId) ∧ s.messages[d.2]? = some message ∧ message.isFor userId ∧
    (j,d.2) ∈ s.handled ∧ ∀ t ∈ s.tasks, t.key = (j,d.2) → d.1 ∉ t.targets.map Prod.snd

theorem start_kept : Kept .start :=
  ⟨silent_once,nofun,fun _ => nofun,.nil,nofun,nofun,fun _ => ⟨.nil,nofun⟩,.nil,nofun⟩

theorem Dict.sockets {owners : List (Nat × String)} {active : List (String × Nat)} (dict : Dict owners i active) : (active.map Prod.snd).Nodup := by
  apply List.Nodup.map_on ?_ (List.Nodup.of_map _ dict.users)
  intro one first two second same
  have owner := dict.owned one first
  rw [same,dict.owned two second] at owner
  exact Prod.ext (congrArg Prod.snd (Option.some.inj owner)).symm same

theorem Dict.pops {owners : List (Nat × String)} {active : List (String × Nat)} (dict : Dict owners i active) (userId : String) :
    Dict owners i (popSession active userId) :=
  ⟨dict.users.sublist (List.filter_sublist.map _),fun entry member => dict.owned entry (List.mem_of_mem_filter member)⟩

theorem Dict.grows {owners : List (Nat × String)} {active : List (String × Nat)} (dict : Dict owners i active) (new : Nat × String) :
    Dict (owners ++ [new]) i active := by
  refine ⟨dict.users,fun entry member => ?_⟩
  have owned := dict.owned entry member
  rw [List.getElem?_append_left (List.getElem?_eq_some_iff.mp owned).1,owned]

theorem Dict.registers {owners : List (Nat × String)} {active : List (String × Nat)} (dict : Dict owners i active) (userId : String) :
    Dict (owners ++ [(i,userId)]) i (registerSession active userId owners.length) := by
  have grown := dict.grows (i,userId)
  have own : (owners ++ [(i,userId)])[owners.length]? = some (i,userId) := by simp
  unfold registerSession
  split
  · refine ⟨?_,?_⟩
    · have same : (active.map (fun entry => if entry.1 = userId then (userId,owners.length) else entry)).map Prod.fst = active.map Prod.fst := by
        rw [List.map_map]
        apply List.map_congr_left
        intro entry _
        simp only [Function.comp]
        split <;> simp_all
      exact same ▸ dict.users
    · intro entry member
      obtain ⟨old,there,rfl⟩ := List.mem_map.mp member
      split
      · exact own
      · exact grown.owned old there
  · rename_i absent
    refine ⟨?_,?_⟩
    · rw [List.map_append]
      exact nodup_append_one dict.users absent
    · intro entry member
      rcases List.mem_append.mp member with old | new
      · exact grown.owned entry old
      · cases List.mem_singleton.mp new
        exact own

theorem Dict.terminates {owners : List (Nat × String)} {active : List (String × Nat)} (dict : Dict owners i active) (userId : String)
    (socket : Option Nat) : Dict owners i (terminateSession active userId socket) := by
  unfold terminateSession
  split
  · split
    · exact dict.pops userId
    · exact dict
  · exact dict.pops userId

theorem Dict.looked {owners : List (Nat × String)} {active : List (String × Nat)} (dict : Dict owners i active) (message : Message) :
    Dict owners i (activeAfter active message) := by
  unfold activeAfter
  split
  · exact dict.pops _
  · exact dict

theorem Dict.targets {owners : List (Nat × String)} {active : List (String × Nat)} (dict : Dict owners i active) (message : Message) :
    ((targetsHere active message).map Prod.snd).Nodup ∧
    ∀ entry ∈ targetsHere active message, owners[entry.2]? = some (i,entry.1) ∧ message.isFor entry.1 := by
  unfold targetsHere
  split
  · exact ⟨.nil,nofun⟩
  · rename_i userId event to_
    refine ⟨dict.sockets.sublist (List.filter_sublist.map _),?_⟩
    intro entry member
    obtain ⟨there,same⟩ := List.mem_filter.mp member
    exact ⟨dict.owned entry there,.inr (to_.trans (congrArg some (of_decide_eq_true same)).symm)⟩
  · rename_i event to_
    exact ⟨dict.sockets,fun entry member => ⟨dict.owned entry member,.inl to_⟩⟩

theorem change_at (s : Brokers) (i j : Nat) (f : Instance → Instance) :
    (s.change i f).instances j = if j = i then f (s.instances i) else s.instances j := Function.update_apply ..

theorem Kept.changes (kept : Kept s) (f : Instance → Instance) (inbox : (f (s.instances i)).inbox.Sublist (s.instances i).inbox)
    (dict : Dict s.owners i (f (s.instances i)).activeSockets) : Kept (s.change i f) := by
  have within : ∀ j, ((s.change i f).instances j).inbox.Sublist (s.instances j).inbox := by
    intro j
    rw [change_at]
    split
    · rename_i same
      exact same ▸ inbox
    · exact List.Sublist.refl _
  refine ⟨kept.relays.thins (fun j => (within j).map _),kept.made,?_,kept.tasks,kept.running,kept.own,?_,kept.delivered,kept.past⟩
  · exact fun j message waits => kept.waiting j message ((within j).subset waits)
  · intro j
    rw [change_at]
    split
    · rename_i same
      exact same ▸ dict
    · exact kept.active j

theorem grown_at {α : Type} {l : List α} {a : α} {k : Nat} (found : l[k]? = some a) (more : List α) : (l ++ more)[k]? = some a := by
  rw [List.getElem?_append_left (List.getElem?_eq_some_iff.mp found).1,found]

theorem Kept.owns (kept : Kept s) (new : Nat × String) : Kept {s with owners := s.owners ++ [new]} := by
  refine ⟨kept.relays,kept.made,kept.waiting,kept.tasks,?_,kept.own,fun j => (kept.active j).grows new,kept.delivered,?_⟩
  · intro t member
    obtain ⟨handled,known,apart,owned⟩ := kept.running t member
    exact ⟨handled,known,apart,fun entry target => ⟨grown_at (owned entry target).1 _,(owned entry target).2⟩⟩
  · intro d member
    obtain ⟨j,userId,message,owner,rest⟩ := kept.past d member
    exact ⟨j,userId,message,grown_at owner _,rest⟩

theorem begin_at (s : Brokers) (i j : Nat) (message : Message) (publishes : Bool) : (s.begin i message publishes).instances j =
    if j = i then {s.instances i with activeSockets := activeAfter (s.instances i).activeSockets message} else s.instances j :=
  change_at s i j (fun here => {here with activeSockets := activeAfter here.activeSockets message})

theorem begin_inbox (s : Brokers) (i j : Nat) (message : Message) (publishes : Bool) :
    ((s.begin i message publishes).instances j).inbox = (s.instances j).inbox := by
  rw [begin_at]
  split <;> simp_all

-- A message that was not handled here before is, and its writes are to this
-- instance's own sockets.
theorem Kept.begins (kept : Kept s) (i : Nat) (message : Message) (publishes : Bool) (more : List Message)
    (relays : Once ({s.begin i message publishes with messages := s.messages ++ more} : Brokers).view)
    (there : (s.messages ++ more)[message.id]? = some message) (new : (i,message.id) ∉ s.handled) (own : publishes = true → message.origin = i) :
    Kept {s.begin i message publishes with messages := s.messages ++ more} := by
  have keys : (i,message.id) ∉ s.tasks.map Task.key := by
    intro member
    obtain ⟨t,task,same⟩ := List.mem_map.mp member
    exact new (same ▸ (kept.running t task).1)
  obtain ⟨apart,owned⟩ := (kept.active i).targets message
  refine ⟨relays,?_,?_,?_,?_,?_,?_,kept.delivered,?_⟩
  · intro entry member
    show entry.2 < (s.messages ++ more).length
    rcases List.mem_append.mp member with old | now
    · have below := kept.made entry old
      simp only [List.length_append]
      omega
    · cases List.mem_singleton.mp now
      exact (List.getElem?_eq_some_iff.mp there).1
  · intro j waiting member
    exact grown_at (kept.waiting j waiting (begin_inbox s i j message publishes ▸ member)) more
  · show ((s.tasks ++ [_]).map Task.key).Nodup
    rw [List.map_append]
    exact nodup_append_one kept.tasks keys
  · intro t member
    rcases List.mem_append.mp member with old | now
    · obtain ⟨handled,known,rest⟩ := kept.running t old
      exact ⟨List.mem_append_left _ handled,grown_at known more,rest⟩
    · cases List.mem_singleton.mp now
      exact ⟨List.mem_append_right _ (List.mem_singleton_self _),there,apart,owned⟩
  · intro t member publishes
    rcases List.mem_append.mp member with old | now
    · exact kept.own t old publishes
    · cases List.mem_singleton.mp now
      exact own publishes
  · intro j
    show Dict s.owners j ((s.begin i message publishes).instances j).activeSockets
    rw [begin_at]
    split
    · rename_i same
      exact same ▸ (kept.active i).looked message
    · exact kept.active j
  · intro d member
    obtain ⟨j,userId,other,owner,known,for_,handled,quiet⟩ := kept.past d member
    refine ⟨j,userId,other,owner,grown_at known more,for_,List.mem_append_left _ handled,?_⟩
    intro t task key
    rcases List.mem_append.mp task with old | now
    · exact quiet t old key
    · cases List.mem_singleton.mp now
      have same : (i,message.id) = (j,d.2) := key
      exact absurd (same ▸ handled) new

theorem Kept.calls (kept : Kept s) (i : Nat) (to_ : Option String) (body : Body) :
    Kept {s.begin i ⟨i,s.messages.length,to_,body⟩ true with messages := s.messages ++ [⟨i,s.messages.length,to_,body⟩]} := by
  have unseen : ∀ other ∈ s.handled, other.2 ≠ s.messages.length := fun other member => Nat.ne_of_lt (kept.made other member)
  apply kept.begins i ⟨i,s.messages.length,to_,body⟩ true [⟨i,s.messages.length,to_,body⟩]
  · have made := kept.relays.makes i unseen
    have same : ({s.begin i ⟨i,s.messages.length,to_,body⟩ true with messages := s.messages ++ [⟨i,s.messages.length,to_,body⟩]} : Brokers).view =
        s.view.make i s.messages.length := by
      simp only [Brokers.view,Relay.make,begin_inbox]
      simp [Brokers.begin,Brokers.change,Task.key,List.filter_append]
    exact same ▸ made
  · simp
  · exact fun member => unseen _ member rfl
  · exact fun _ => rfl

theorem taskAt_parts {t : Task} (found : s.taskAt i id = some t) : t ∈ s.tasks ∧ t.key = (i,id) := by
  have matched := List.find?_some found
  exact ⟨List.mem_of_find?_eq_some found,of_decide_eq_true matched⟩

theorem Kept.only (kept : Kept s) {a b : Task} (one : a ∈ s.tasks) (two : b ∈ s.tasks) (same : a.key = b.key) : a = b :=
  List.inj_on_of_nodup_map kept.tasks one two same

-- Tasks that are over, or have written to the first of their sockets.
theorem Kept.advances (kept : Kept s) {tasks : List Task} (keys : (tasks.map Task.key).Nodup)
    (from_ : ∀ t ∈ tasks, ∃ old ∈ s.tasks, old.key = t.key ∧ old.instance_ = t.instance_ ∧ old.message = t.message ∧
      old.publishes = t.publishes ∧ t.targets.Sublist old.targets) : Kept {s with tasks := tasks} := by
  refine ⟨kept.relays.fewer ?_,kept.made,kept.waiting,keys,?_,?_,kept.active,kept.delivered,?_⟩
  · intro own member
    obtain ⟨t,task,rfl⟩ := List.mem_map.mp member
    obtain ⟨there,publishes⟩ := List.mem_filter.mp task
    obtain ⟨old,before,key,_,_,same,_⟩ := from_ t there
    exact List.mem_map.mpr ⟨old,List.mem_filter.mpr ⟨before,same.trans publishes⟩,key⟩
  · intro t member
    obtain ⟨old,before,key,at_,message,_,fewer⟩ := from_ t member
    obtain ⟨handled,known,apart,owned⟩ := kept.running old before
    refine ⟨key ▸ handled,message ▸ known,apart.sublist (fewer.map _),?_⟩
    intro entry target
    exact at_ ▸ message ▸ owned entry (fewer.subset target)
  · intro t member publishes
    obtain ⟨old,before,_,at_,message,same,_⟩ := from_ t member
    exact at_ ▸ message ▸ kept.own old before (same.trans publishes)
  · intro d member
    obtain ⟨j,userId,message,owner,known,for_,handled,quiet⟩ := kept.past d member
    refine ⟨j,userId,message,owner,known,for_,handled,?_⟩
    intro t task key target
    obtain ⟨old,before,same,_,_,_,fewer⟩ := from_ t task
    exact quiet old before (same.trans key) ((fewer.map Prod.snd).subset target)

theorem writeFirst_parts (i id : Nat) (t : Task) : (writeFirst i id t).key = t.key ∧ (writeFirst i id t).instance_ = t.instance_ ∧
    (writeFirst i id t).message = t.message ∧ (writeFirst i id t).publishes = t.publishes ∧ (writeFirst i id t).targets.Sublist t.targets := by
  unfold writeFirst
  split
  · exact ⟨rfl,rfl,rfl,rfl,List.tail_sublist _⟩
  · exact ⟨rfl,rfl,rfl,rfl,List.Sublist.refl _⟩

theorem Kept.writes (kept : Kept s) (i id : Nat) : Kept {s with tasks := s.tasks.map (writeFirst i id)} := by
  apply kept.advances
  · have same : (s.tasks.map (writeFirst i id)).map Task.key = s.tasks.map Task.key := by
      rw [List.map_map]
      exact List.map_congr_left (fun t _ => (writeFirst_parts i id t).1)
    exact same ▸ kept.tasks
  · intro t member
    obtain ⟨old,there,rfl⟩ := List.mem_map.mp member
    obtain ⟨key,at_,message,publishes,fewer⟩ := writeFirst_parts i id old
    exact ⟨old,there,key.symm,at_.symm,message.symm,publishes.symm,fewer⟩

theorem Kept.drops (kept : Kept s) (key : Nat × Nat) : Kept {s with tasks := s.tasks.filter (fun t => t.key ≠ key)} := by
  apply kept.advances
  · exact kept.tasks.sublist (List.filter_sublist.map _)
  · intro t member
    exact ⟨t,List.mem_of_mem_filter member,rfl,rfl,rfl,rfl,List.Sublist.refl _⟩

-- A socket that is written to was not written to by the same message before.
theorem Kept.sends (kept : Kept s) {t : Task} {userId : String} {socket : Nat} {rest : List (String × Nat)}
    (found : s.taskAt i id = some t) (first : t.targets = (userId,socket) :: rest) :
    Kept {s with tasks := s.tasks.map (writeFirst i id),delivered := s.delivered ++ [(socket,id)]} := by
  obtain ⟨task,key⟩ := taskAt_parts found
  obtain ⟨handled,known,apart,owned⟩ := kept.running t task
  have at_ : t.instance_ = i := congrArg Prod.fst key
  have is : t.message.id = id := congrArg Prod.snd key
  obtain ⟨owner,for_⟩ := owned (userId,socket) (first ▸ List.mem_cons_self)
  have written := kept.writes i id
  refine ⟨written.relays,written.made,written.waiting,written.tasks,written.running,written.own,written.active,?_,?_⟩
  · apply nodup_append_one kept.delivered
    intro before
    obtain ⟨j,_,_,owns,_,_,_,quiet⟩ := kept.past (socket,id) before
    have here : (j,id) = (i,id) := by
      have same := congrArg Prod.fst (Option.some.inj (owns.symm.trans owner))
      rw [show j = t.instance_ from same,at_]
    exact quiet t task (key.trans here.symm) (by simp [first])
  · intro d member
    rcases List.mem_append.mp member with old | new
    · exact written.past d old
    · cases List.mem_singleton.mp new
      refine ⟨i,userId,t.message,at_ ▸ owner,is ▸ known,for_,key ▸ handled,?_⟩
      intro other there same
      obtain ⟨before,listed,rfl⟩ := List.mem_map.mp there
      have equal := kept.only listed task ((writeFirst_parts i id before).1.symm.trans (same.trans key.symm))
      cases equal
      rw [first] at apart
      simp only [writeFirst,key,if_true,first,List.tail_cons]
      exact (List.nodup_cons.mp apart).1

theorem Kept.publishes (kept : Kept s) {t : Task} (found : s.taskAt i id = some t) (publishes : t.publishes = true) (reaches : Nat → Bool) :
    Kept {s with
      tasks := s.tasks.filter (fun t => t.key ≠ (i,id))
      instances := fun j => if reaches j then {s.instances j with inbox := (s.instances j).inbox ++ [t.message]} else s.instances j} := by
  obtain ⟨task,key⟩ := taskAt_parts found
  obtain ⟨handled,known,_,_⟩ := kept.running t task
  have at_ : t.instance_ = i := congrArg Prod.fst key
  have is : t.message.id = id := congrArg Prod.snd key
  have origin : t.message.origin = i := (kept.own t task publishes).trans at_
  have own : (i,id) ∈ s.view.unsent := List.mem_map.mpr ⟨t,List.mem_filter.mpr ⟨task,publishes⟩,key⟩
  have dropped := kept.drops (i,id)
  refine ⟨?_,dropped.made,?_,dropped.tasks,dropped.running,dropped.own,?_,dropped.delivered,dropped.past⟩
  · have published := kept.relays.publishes own reaches
    have boxes : ∀ j, ((if reaches j then {s.instances j with inbox := (s.instances j).inbox ++ [t.message]} else s.instances j : Instance)).inbox.map
        (fun message => (message.origin,message.id)) = (s.view.publish i id reaches).inbox j := by
      intro j
      simp only [Relay.publish,Brokers.view]
      split <;> simp [origin,is]
    refine (published.fewer ?_).thins (fun j => (boxes j).symm ▸ List.Sublist.refl _)
    intro other member
    obtain ⟨task,there,rfl⟩ := List.mem_map.mp member
    obtain ⟨listed,publishing⟩ := List.mem_filter.mp there
    obtain ⟨before,different⟩ := List.mem_filter.mp listed
    exact List.mem_filter.mpr ⟨List.mem_map.mpr ⟨task,List.mem_filter.mpr ⟨before,publishing⟩,rfl⟩,different⟩
  · intro j message member
    dsimp only at member
    split at member
    · rcases List.mem_append.mp member with old | new
      · exact kept.waiting j message old
      · cases List.mem_singleton.mp new
        exact known
    · exact kept.waiting j message member
  · intro j
    dsimp only
    split
    · exact kept.active j
    · exact kept.active j

theorem Kept.takes (kept : Kept s) {rest : List Message} (waits : (s.instances i).inbox = message :: rest) :
    Kept (if message.origin = i then s.change i (fun here => {here with inbox := rest})
      else (s.change i (fun here => {here with inbox := rest})).begin i message false) := by
  have skipped : Kept (s.change i (fun here => {here with inbox := rest})) :=
    kept.changes (fun here => {here with inbox := rest}) (waits ▸ List.sublist_cons_self message rest) (kept.active i)
  split
  · exact skipped
  · rename_i foreign
    have packet : (message.origin,message.id) ∈ s.view.inbox i := List.mem_map.mpr ⟨message,waits ▸ List.mem_cons_self,rfl⟩
    have new : (i,message.id) ∉ s.handled := (kept.relays.waits i _ packet).2 foreign
    have there := kept.waiting i message (waits ▸ List.mem_cons_self)
    have first : s.view.inbox i = (message.origin,message.id) :: rest.map (fun message => (message.origin,message.id)) := by
      simp [Brokers.view,waits]
    have taken := kept.relays.takes first
    have same : ({(s.change i (fun here => {here with inbox := rest})).begin i message false with messages := s.messages ++ []} : Brokers).view =
        s.view.take i message.origin message.id (rest.map (fun message => (message.origin,message.id))) := by
      have boxes : ∀ j, (((s.change i (fun here => {here with inbox := rest})).begin i message false).instances j).inbox.map
          (fun message => (message.origin,message.id)) =
          if j = i then rest.map (fun message => (message.origin,message.id)) else s.view.inbox j := by
        intro j
        rw [begin_inbox,change_at]
        split <;> simp [Brokers.view]
      simp only [Brokers.view,Relay.take,boxes,if_neg foreign]
      simp [Brokers.begin,Brokers.change,List.filter_append]
    have begun := skipped.begins i message false [] (same ▸ taken) (by
      show (s.messages ++ [])[message.id]? = some message
      simpa using there) new (fun publishes => absurd publishes Bool.false_ne_true)
    simpa [Brokers.begin,Brokers.change] using begun

theorem Kept.preserved (kept : Kept s) {op : Operation} (taken : step s op = some next) : Kept next := by
  cases op with
  | register i userId =>
    cases taken
    have owned := kept.owns (i,userId)
    have grown := owned.changes (fun here => {here with activeSockets := registerSession here.activeSockets userId s.owners.length})
      (List.Sublist.refl _) ((kept.active i).registers userId)
    exact grown
  | disconnect socket =>
    simp only [step] at taken
    split at taken <;> cases taken
    exact kept.changes _ (List.Sublist.refl _) ((kept.active _).terminates _ (some socket))
  | call i to_ body =>
    cases taken
    exact kept.calls i to_ body
  | send i id works =>
    simp only [step] at taken
    split at taken
    · rename_i j message userId socket rest publishes found
      split at taken <;> cases taken
      · exact kept.sends found rfl
      · exact (kept.writes i id).changes _ (List.Sublist.refl _) ((kept.active i).terminates userId none)
    · cases taken
  | publish i id reached =>
    simp only [step] at taken
    split at taken <;> cases taken
    rename_i j message found
    have published := kept.publishes found rfl (fun j => (s.instances i).client ∧ j ∈ reached ∧ (s.instances j).subscribed)
    simpa using published
  | relay i =>
    simp only [step] at taken
    split at taken
    · rename_i message rest waits
      split at taken <;> cases taken
      exact kept.takes waits
    · cases taken
  | finish i id =>
    simp only [step] at taken
    split at taken <;> cases taken
    exact kept.drops (i,id)
  | subscribe i =>
    cases taken
    exact kept.changes (fun here => {here with subscribed := true}) (List.Sublist.refl _) (kept.active i)
  | connected i =>
    simp only [step,Option.ite_none_right_eq_some,Option.some.injEq] at taken
    obtain ⟨_,rfl⟩ := taken
    exact kept.changes (fun here => {here with client := true}) (List.Sublist.refl _) (kept.active i)
  | lose i =>
    cases taken
    exact kept.changes (fun here => {here with subscribed := false,client := false,inbox := []}) (List.nil_sublist _) (kept.active i)

-- However the instances, their relays and the sockets' coming and going interleave,
-- nothing is written to one socket twice, nor to a socket of anybody it is not for.
theorem written_once {s : Brokers} (path : Runs.Reached (Runs.Acts step) .start s) : s.delivered.Nodup ∧
    ∀ d ∈ s.delivered, ∃ i userId message, s.owners[d.1]? = some (i,userId) ∧ s.messages[d.2]? = some message ∧
      (message.to_ = none ∨ message.to_ = some userId) := by
  have kept : Kept s := path.invariant Kept start_kept (fun _ _ _ kept taken => kept.preserved taken)
  refine ⟨kept.delivered,?_⟩
  intro d member
  obtain ⟨i,userId,message,owner,known,for_,_⟩ := kept.past d member
  exact ⟨i,userId,message,owner,known,for_⟩

-- Ada has a socket on each of two instances, and the second one hears of it only
-- through the channel, which brings the first one its own message back.
def toAda : List Operation :=
  [.subscribe 0,.connected 0,.subscribe 1,.connected 1,.register 0 "ada",.register 1 "ada",.call 0 (some "ada") (.event "GUEST" "here"),
    .send 0 0 true,.publish 0 0 [0,1],.relay 0,.relay 1,.send 1 0 true,.finish 1 0]

theorem ada_written : ∃ s, Runs.trace step (fun _ _ => True) .start toAda = some s ∧ s.delivered = [(0,0),(1,0)] ∧ s.delivered.Nodup := by
  obtain ⟨s,traced,delivered⟩ : ∃ s, Runs.trace step (fun _ _ => True) .start toAda = some s ∧ s.delivered = [(0,0),(1,0)] := ⟨_,rfl,rfl⟩
  exact ⟨s,traced,delivered,(written_once (Runs.trace_reached .start traced).unguard).1⟩

end ChronosLedger.Sockets
