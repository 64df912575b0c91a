import Mathlib.Data.List.Basic
import Mathlib.Data.List.Count

namespace Rotations

-- Credentials that are good for one presentation, each of which is answered with
-- the next one. The parties share a store and a lock; whoever has the lock presents
-- what the store holds and puts what came back in its place.
inductive Stage (γ : Type) where
  | holding
  | presenting (used : γ)
  | returning (used fresh : γ)
  deriving DecidableEq, Repr

-- `granted` came from elsewhere (a sign-in) and is not in the store yet. The last
-- three are what happened: everything ever issued to these parties, what was
-- presented, in order, and what was presented without the answer being stored.
structure Store (ι γ : Type) where
  kept : Option γ
  lock : Option (ι × Stage γ)
  granted : List γ
  issued : List γ
  presented : List γ
  failed : List γ
  deriving DecidableEq, Repr

inductive Move (ι γ : Type) where
  | acquire (party : ι)
  | present
  | answer (fresh : γ)
  | fail
  | store
  | release
  | abandon
  | grant (fresh : γ)
  | deposit (fresh : γ)
  | clear
  deriving DecidableEq, Repr

section

variable {ι γ : Type} [DecidableEq γ] {s next : Store ι γ}

def step (s : Store ι γ) : Move ι γ → Option (Store ι γ)
  | .acquire party => if s.lock.isNone then some {s with lock := some (party,.holding)} else none
  | .present =>
    match s.lock,s.kept with
    | some (party,.holding),some used => some {s with lock := some (party,.presenting used),presented := s.presented ++ [used]}
    | _,_ => none
  | .answer fresh =>
    match s.lock with
    | some (party,.presenting used) =>
      if fresh ∈ s.issued then none else some {s with lock := some (party,.returning used fresh),issued := s.issued ++ [fresh]}
    | _ => none
  | .fail =>
    match s.lock with
    | some (party,.presenting used) => some {s with lock := some (party,.holding),failed := s.failed ++ [used]}
    | _ => none
  | .store =>
    match s.lock with
    | some (party,.returning _ fresh) => some {s with lock := some (party,.holding),kept := some fresh}
    | _ => none
  | .release =>
    match s.lock with
    | some (_,.holding) => some {s with lock := none}
    | _ => none
  -- The party goes away with the lock, and with what it was about to store.
  | .abandon =>
    match s.lock with
    | some (_,.holding) => some {s with lock := none}
    | some (_,.presenting used) => some {s with lock := none,failed := s.failed ++ [used]}
    | some (_,.returning used _) => some {s with lock := none,failed := s.failed ++ [used]}
    | none => none
  | .grant fresh => if fresh ∈ s.issued then none else some {s with granted := s.granted ++ [fresh],issued := s.issued ++ [fresh]}
  | .deposit fresh => if fresh ∈ s.granted then some {s with granted := s.granted.erase fresh,kept := some fresh} else none
  | .clear => some {s with kept := none}

def Store.empty : Store ι γ := ⟨none,none,[],[],[],[]⟩

-- The credential whose presentation is under way or just answered.
def Store.busy (s : Store ι γ) (c : γ) : Prop :=
  ∃ party, s.lock = some (party,.presenting c) ∨ ∃ fresh, s.lock = some (party,.returning c fresh)

structure Sound (s : Store ι γ) : Prop where
  known : ∀ c ∈ s.presented, c ∈ s.issued
  keeps : ∀ c ∈ s.kept, c ∈ s.issued ∧ c ∉ s.granted ∧ (c ∈ s.presented → c ∉ s.failed → s.busy c)
  waits : s.granted.Nodup ∧ ∀ c ∈ s.granted, c ∈ s.issued ∧ c ∉ s.presented
  using_ : ∀ c, s.busy c → c ∈ s.presented
  brings : ∀ party used fresh, s.lock = some (party,.returning used fresh) →
    fresh ∈ s.issued ∧ fresh ∉ s.granted ∧ fresh ∉ s.presented
  once : ∀ c, c ∉ s.failed → s.presented.count c ≤ 1

theorem empty_sound : Sound (.empty : Store ι γ) :=
  ⟨nofun,nofun,⟨.nil,nofun⟩,fun c busy => by simp [Store.busy,Store.empty] at busy,nofun,fun _ _ => Nat.zero_le 1⟩

theorem Sound.acquires (sound : Sound s) {party : ι} (free : s.lock = none) : Sound {s with lock := some (party,.holding)} := by
  refine ⟨sound.known,?_,sound.waits,fun c busy => by simp [Store.busy] at busy,nofun,sound.once⟩
  intro c kept
  obtain ⟨issued,apart,used⟩ := sound.keeps c kept
  refine ⟨issued,apart,fun before kept => ?_⟩
  have busy := used before kept
  simp [Store.busy,free] at busy

theorem Sound.presents (sound : Sound s) {party : ι} {used : γ} (held : s.lock = some (party,.holding)) (kept : s.kept = some used) :
    Sound {s with lock := some (party,.presenting used),presented := s.presented ++ [used]} := by
  obtain ⟨issued,apart,idle⟩ := sound.keeps used kept
  have idle : used ∈ s.presented → used ∈ s.failed := by
    intro before
    by_contra unfailed
    have busy := idle before unfailed
    simp [Store.busy,held] at busy
  refine ⟨?_,?_,⟨sound.waits.1,?_⟩,?_,nofun,?_⟩
  · intro c member
    rcases List.mem_append.mp member with old | new
    · exact sound.known c old
    · exact List.mem_singleton.mp new ▸ issued
  · intro c here
    cases Option.some.inj (kept.symm.trans here)
    exact ⟨issued,apart,fun _ _ => ⟨party,.inl rfl⟩⟩
  · intro c waiting
    obtain ⟨known,unused⟩ := sound.waits.2 c waiting
    refine ⟨known,fun member => ?_⟩
    rcases List.mem_append.mp member with old | new
    · exact unused old
    · exact apart (List.mem_singleton.mp new ▸ waiting)
  · intro c busy
    simp only [Store.busy,Option.some.injEq,Prod.mk.injEq,Stage.presenting.injEq,reduceCtorEq,and_false,exists_false,or_false] at busy
    obtain ⟨_,_,rfl⟩ := busy
    simp
  · intro c unfailed
    rw [List.count_append]
    by_cases same : c = used
    · cases same
      have fresh : used ∉ s.presented := fun before => unfailed (idle before)
      simp [List.count_eq_zero_of_not_mem fresh]
    · have other := sound.once c unfailed
      have none_ : List.count c [used] = 0 := List.count_eq_zero_of_not_mem (by simp [same])
      omega

theorem Sound.answers (sound : Sound s) {party : ι} {used fresh : γ} (held : s.lock = some (party,.presenting used))
    (unseen : fresh ∉ s.issued) : Sound {s with lock := some (party,.returning used fresh),issued := s.issued ++ [fresh]} := by
  have unused : fresh ∉ s.presented := fun before => unseen (sound.known fresh before)
  refine ⟨fun c member => List.mem_append_left _ (sound.known c member),?_,⟨sound.waits.1,?_⟩,?_,?_,sound.once⟩
  · intro c kept
    obtain ⟨issued,apart,busy⟩ := sound.keeps c kept
    refine ⟨List.mem_append_left _ issued,apart,fun before unfailed => ?_⟩
    obtain ⟨other,presenting | ⟨_,returning⟩⟩ := busy before unfailed
    · cases held.symm.trans presenting
      exact ⟨party,.inr ⟨fresh,rfl⟩⟩
    · cases held.symm.trans returning
  · intro c waiting
    obtain ⟨known,idle⟩ := sound.waits.2 c waiting
    exact ⟨List.mem_append_left _ known,idle⟩
  · intro c busy
    simp only [Store.busy,Option.some.injEq,Prod.mk.injEq,Stage.returning.injEq,reduceCtorEq,and_false,false_or] at busy
    obtain ⟨_,_,_,rfl,_⟩ := busy
    exact sound.using_ used ⟨party,.inl held⟩
  · intro other old new here
    cases Option.some.inj here
    refine ⟨by simp,fun waiting => ?_,unused⟩
    exact unseen (sound.waits.2 _ waiting).1

-- A presentation that ends without its answer in the store counts as failed.
theorem Sound.gives_up (sound : Sound s) {used : γ} {lock : Option (ι × Stage γ)} (busy : s.busy used)
    (idle : lock = none ∨ ∃ party, lock = some (party,.holding)) : Sound {s with lock := lock,failed := s.failed ++ [used]} := by
  have only : ∀ c, s.busy c → c = used := by
    intro c also
    obtain ⟨_,one | ⟨_,one⟩⟩ := busy <;> obtain ⟨_,two | ⟨_,two⟩⟩ := also <;> cases one.symm.trans two <;> rfl
  have quiet : ∀ c, ¬Store.busy {s with lock := lock,failed := s.failed ++ [used]} c := by
    intro c also
    rcases idle with rfl | ⟨_,rfl⟩ <;> simp [Store.busy] at also
  refine ⟨sound.known,?_,sound.waits,fun c also => absurd also (quiet c),?_,?_⟩
  · intro c kept
    obtain ⟨issued,apart,waiting⟩ := sound.keeps c kept
    refine ⟨issued,apart,fun before unfailed => ?_⟩
    simp only [List.mem_append,List.mem_singleton,not_or] at unfailed
    exact absurd (only c (waiting before unfailed.1)) unfailed.2
  · intro party old new here
    rcases idle with rfl | ⟨_,rfl⟩ <;> cases here
  · intro c unfailed
    exact sound.once c (fun failed => unfailed (List.mem_append_left _ failed))

theorem Sound.stores (sound : Sound s) {party : ι} {used fresh : γ} (held : s.lock = some (party,.returning used fresh)) :
    Sound {s with lock := some (party,.holding),kept := some fresh} := by
  obtain ⟨issued,apart,unused⟩ := sound.brings party used fresh held
  refine ⟨sound.known,?_,sound.waits,fun c busy => by simp [Store.busy] at busy,nofun,sound.once⟩
  intro c kept
  cases Option.some.inj kept
  exact ⟨issued,apart,fun before => absurd before unused⟩

theorem Sound.releases (sound : Sound s) {party : ι} (held : s.lock = some (party,.holding)) : Sound ({s with lock := none} : Store ι γ) := by
  refine ⟨sound.known,?_,sound.waits,fun c busy => by simp [Store.busy] at busy,nofun,sound.once⟩
  intro c kept
  obtain ⟨issued,apart,waiting⟩ := sound.keeps c kept
  refine ⟨issued,apart,fun before unfailed => ?_⟩
  have busy := waiting before unfailed
  simp [Store.busy,held] at busy

theorem Sound.grants (sound : Sound s) {fresh : γ} (unseen : fresh ∉ s.issued) :
    Sound {s with granted := s.granted ++ [fresh],issued := s.issued ++ [fresh]} := by
  have newer : ∀ c ∈ s.issued, c ≠ fresh := fun c member same => unseen (same ▸ member)
  refine ⟨fun c member => List.mem_append_left _ (sound.known c member),?_,⟨?_,?_⟩,sound.using_,?_,sound.once⟩
  · intro c kept
    obtain ⟨issued,apart,waiting⟩ := sound.keeps c kept
    exact ⟨List.mem_append_left _ issued,by simp [apart,newer c issued],waiting⟩
  · have apart : ∀ c ∈ s.granted, c ≠ fresh := fun c member => newer c (sound.waits.2 c member).1
    simpa [List.nodup_append,sound.waits.1] using apart
  · intro c member
    rcases List.mem_append.mp member with old | new
    · exact ⟨List.mem_append_left _ (sound.waits.2 c old).1,(sound.waits.2 c old).2⟩
    · cases List.mem_singleton.mp new
      exact ⟨by simp,fun before => unseen (sound.known _ before)⟩
  · intro party used other here
    obtain ⟨issued,apart,unused⟩ := sound.brings party used other here
    exact ⟨List.mem_append_left _ issued,by simp [apart,newer other issued],unused⟩

theorem Sound.deposits (sound : Sound s) {fresh : γ} (waiting : fresh ∈ s.granted) :
    Sound {s with granted := s.granted.erase fresh,kept := some fresh} := by
  obtain ⟨known,unused⟩ := sound.waits.2 fresh waiting
  refine ⟨sound.known,?_,⟨sound.waits.1.erase _,fun c member => sound.waits.2 c (List.mem_of_mem_erase member)⟩,sound.using_,?_,sound.once⟩
  · intro c kept
    cases Option.some.inj kept
    exact ⟨known,sound.waits.1.not_mem_erase,fun before => absurd before unused⟩
  · intro party used other here
    obtain ⟨issued,apart,idle⟩ := sound.brings party used other here
    exact ⟨issued,fun member => apart (List.mem_of_mem_erase member),idle⟩

theorem Sound.preserved (sound : Sound s) {move : Move ι γ} (taken : step s move = some next) : Sound next := by
  cases move with
  | acquire party =>
    simp only [step,Option.ite_none_right_eq_some,Option.isNone_iff_eq_none,Option.some.injEq] at taken
    obtain ⟨free,rfl⟩ := taken
    exact sound.acquires free
  | present =>
    simp only [step] at taken
    split at taken
    · rename_i held kept
      cases taken
      exact sound.presents held kept
    · cases taken
  | answer fresh =>
    simp only [step] at taken
    split at taken
    · rename_i held
      simp only [Option.ite_none_left_eq_some,Option.some.injEq] at taken
      obtain ⟨unseen,rfl⟩ := taken
      exact sound.answers held unseen
    · cases taken
  | fail =>
    simp only [step] at taken
    split at taken
    · rename_i held
      cases taken
      exact sound.gives_up ⟨_,.inl held⟩ (.inr ⟨_,rfl⟩)
    · cases taken
  | store =>
    simp only [step] at taken
    split at taken
    · rename_i held
      cases taken
      exact sound.stores held
    · cases taken
  | release =>
    simp only [step] at taken
    split at taken
    · rename_i held
      cases taken
      exact sound.releases held
    · cases taken
  | abandon =>
    simp only [step] at taken
    split at taken
    · rename_i held
      cases taken
      exact sound.releases held
    · rename_i held
      cases taken
      exact sound.gives_up ⟨_,.inl held⟩ (.inl rfl)
    · rename_i held
      cases taken
      exact sound.gives_up ⟨_,.inr ⟨_,held⟩⟩ (.inl rfl)
    · cases taken
  | grant fresh =>
    simp only [step,Option.ite_none_left_eq_some,Option.some.injEq] at taken
    obtain ⟨unseen,rfl⟩ := taken
    exact sound.grants unseen
  | deposit fresh =>
    simp only [step,Option.ite_none_right_eq_some,Option.some.injEq] at taken
    obtain ⟨waiting,rfl⟩ := taken
    exact sound.deposits waiting
  | clear =>
    cases taken
    exact ⟨sound.known,nofun,sound.waits,sound.using_,sound.brings,sound.once⟩

-- What a move issues, and what it presents.
def Move.brings : Move ι γ → List γ
  | .answer fresh => [fresh]
  | .grant fresh => [fresh]
  | _ => []

def Store.shows (s : Store ι γ) : Move ι γ → List γ
  | .present => s.kept.toList
  | _ => []

theorem step_parts {move : Move ι γ} (taken : step s move = some next) :
    next.issued = s.issued ++ move.brings ∧ next.presented = s.presented ++ s.shows move := by
  cases move with
  | present =>
    simp only [step] at taken
    split at taken
    · rename_i kept
      cases taken
      simp [Move.brings,Store.shows,kept]
    · cases taken
  | acquire party =>
    simp only [step,Option.ite_none_right_eq_some,Option.some.injEq] at taken
    obtain ⟨_,rfl⟩ := taken
    simp [Move.brings,Store.shows]
  | grant fresh =>
    simp only [step,Option.ite_none_left_eq_some,Option.some.injEq] at taken
    obtain ⟨_,rfl⟩ := taken
    simp [Move.brings,Store.shows]
  | deposit fresh =>
    simp only [step,Option.ite_none_right_eq_some,Option.some.injEq] at taken
    obtain ⟨_,rfl⟩ := taken
    simp [Move.brings,Store.shows]
  | clear =>
    cases taken
    simp [Move.brings,Store.shows]
  | answer fresh =>
    simp only [step] at taken
    split at taken
    · simp only [Option.ite_none_left_eq_some,Option.some.injEq] at taken
      obtain ⟨_,rfl⟩ := taken
      simp [Move.brings,Store.shows]
    · cases taken
  | fail | store | release | abandon =>
    simp only [step] at taken
    split at taken <;> cases taken <;> simp [Move.brings,Store.shows]

-- A few moves together, with what they issue and what they present.
inductive Does (s : Store ι γ) : List γ → List γ → Store ι γ → Prop where
  | nothing : Does s [] [] s
  | move {middle next : Store ι γ} {brings shows : List γ} (prior : Does s brings shows middle) (move : Move ι γ)
    (taken : step middle move = some next) : Does s (brings ++ move.brings) (shows ++ middle.shows move) next

theorem Does.one (move : Move ι γ) (taken : step s move = some next) : Does s move.brings (s.shows move) next :=
  .move .nothing move taken

theorem Does.sound {brings shows : List γ} (does : Does s brings shows next) (sound : Sound s) : Sound next := by
  induction does with
  | nothing => exact sound
  | move prior _ taken ih => exact ih.preserved taken

theorem Does.parts {brings shows : List γ} (does : Does s brings shows next) :
    next.issued = s.issued ++ brings ∧ next.presented = s.presented ++ shows := by
  induction does with
  | nothing => simp
  | move prior _ taken ih =>
    obtain ⟨issued,presented⟩ := step_parts taken
    simp [issued,presented,ih.1,ih.2]

end

-- Parties that do one thing after another, some of it with the lock.
variable {γ τ : Type} {stage : τ → Option (Stage γ)} {lock : Option Nat} {parties : List τ} {party : Nat} {before after : τ}

-- What the party with the lock is doing.
def stageOf (stage : τ → Option (Stage γ)) (lock : Option Nat) (parties : List τ) : Option (Nat × Stage γ) :=
  lock.bind (fun party => (parties[party]?.bind stage).map (fun stage => (party,stage)))

-- The lock of a party that goes on, which has it while it is at a stage.
def lockAfter (stage : τ → Option (Stage γ)) (lock : Option Nat) (party : Nat) (after : τ) : Option Nat :=
  if (stage after).isSome then some party else if lock = some party then none else lock

-- Nobody is inside without the lock, and nobody outside has it.
structure Exclusive (stage : τ → Option (Stage γ)) (lock : Option Nat) (parties : List τ) : Prop where
  inside : ∀ (party : Nat) (here : τ), parties[party]? = some here → (stage here).isSome = true → lock = some party
  held : ∀ party ∈ lock, ∃ here, parties[party]? = some here ∧ (stage here).isSome = true

theorem set_at (found : parties[party]? = some before) (other : Nat) :
    (parties.set party after)[other]? = if party = other then some after else parties[other]? := by
  obtain ⟨bound,_⟩ := List.getElem?_eq_some_iff.mp found
  rw [List.getElem?_set]
  split <;> simp_all

theorem Exclusive.goes (exclusive : Exclusive stage lock parties) (after : τ) (found : parties[party]? = some before)
    (enters : (stage after).isSome = true → (stage before).isSome = true ∨ lock = none) :
    Exclusive stage (lockAfter stage lock party after) (parties.set party after) := by
  have own : (stage before).isSome = true → lock = some party := exclusive.inside party before found
  refine ⟨?_,?_⟩
  · intro other here at_ inside
    rw [set_at found] at at_
    split at at_
    · rename_i same
      cases Option.some.inj at_
      simp [lockAfter,inside,same]
    · rename_i apart
      have holder := exclusive.inside other here at_ inside
      unfold lockAfter
      split
      · rename_i enter
        rcases enters enter with was | free
        · exact absurd (Option.some.inj ((own was).symm.trans holder)) apart
        · cases free.symm.trans holder
      · rw [if_neg (fun mine => apart (Option.some.inj (mine.symm.trans holder)))]
        exact holder
  · intro other member
    rw [set_at found]
    unfold lockAfter at member
    split at member
    · rename_i inside
      cases Option.some.inj member
      exact ⟨after,if_pos rfl,inside⟩
    · split at member
      · cases member
      · rename_i elsewhere
        obtain ⟨here,at_,inside⟩ := exclusive.held other member
        have apart : party ≠ other := fun same => elsewhere (same ▸ member)
        exact ⟨here,(if_neg apart).trans at_,inside⟩

theorem Exclusive.joins (exclusive : Exclusive stage lock parties) (after : τ) (outside : stage after = none) :
    Exclusive stage lock (parties ++ [after]) ∧ stageOf stage lock (parties ++ [after]) = stageOf stage lock parties := by
  have old : ∀ (party : Nat) (here : τ), parties[party]? = some here → (parties ++ [after])[party]? = some here := by
    intro party here found
    rw [List.getElem?_append_left (List.getElem?_eq_some_iff.mp found).1,found]
  have same : ∀ (party : Nat) (here : τ), (parties ++ [after])[party]? = some here → (stage here).isSome = true → parties[party]? = some here := by
    intro party here found inside
    rw [List.getElem?_append] at found
    split at found
    · exact found
    · cases List.mem_singleton.mp (List.mem_of_getElem? found)
      simp [outside] at inside
  refine ⟨⟨?_,?_⟩,?_⟩
  · exact fun party here found inside => exclusive.inside party here (same party here found inside) inside
  · intro party member
    obtain ⟨here,found,inside⟩ := exclusive.held party member
    exact ⟨here,old party here found,inside⟩
  · cases lock with
    | none => rfl
    | some party =>
      obtain ⟨here,found,_⟩ := exclusive.held party rfl
      simp [stageOf,found,old party here found]

theorem stage_at (exclusive : Exclusive stage lock parties) (found : parties[party]? = some before) {now : Stage γ}
    (inside : stage before = some now) : stageOf stage lock parties = some (party,now) := by
  have holder := exclusive.inside party before found (by simp [inside])
  simp [stageOf,holder,found,inside]

theorem stage_within (stage : τ → Option (Stage γ)) (after : τ) (found : parties[party]? = some before) {now : Stage γ} (inside : stage after = some now) :
    stageOf stage (lockAfter stage lock party after) (parties.set party after) = some (party,now) := by
  simp [stageOf,lockAfter,inside,set_at found]

theorem stage_left (after : τ) (exclusive : Exclusive stage lock parties) (found : parties[party]? = some before)
    (inside : (stage before).isSome = true) (out : stage after = none) :
    stageOf stage (lockAfter stage lock party after) (parties.set party after) = none := by
  have holder := exclusive.inside party before found inside
  simp [stageOf,lockAfter,out,holder]

theorem stage_same (after : τ) (exclusive : Exclusive stage lock parties) (found : parties[party]? = some before) (was : stage before = none)
    (out : stage after = none) : stageOf stage (lockAfter stage lock party after) (parties.set party after) = stageOf stage lock parties := by
  have other : lock ≠ some party := by
    intro mine
    obtain ⟨here,at_,inside⟩ := exclusive.held party mine
    cases found.symm.trans at_
    simp [was] at inside
  simp only [lockAfter,out,Option.isSome_none,Bool.false_eq_true,if_false,if_neg other]
  cases lock with
  | none => rfl
  | some holder =>
    have apart : party ≠ holder := fun same => other (same ▸ rfl)
    simp [stageOf,set_at found,apart]

end Rotations
