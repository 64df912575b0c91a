import Mathlib.Data.List.Basic
import Mathlib.Data.List.TakeDrop

namespace Feeds

variable {α ε ν : Type} {key : α → Nat} {names : α → ε} {log page : List α} {a last : α} {bound : Nat}

-- A log whose entries carry ids that only go up.
def Rising (key : α → Nat) (log : List α) : Prop := log.Pairwise (fun a b => key a < key b)

def beyond (key : α → Nat) (bound : Nat) (log : List α) : List α := log.filter (fun a => bound < key a)

-- The largest id of a log, 0 of an empty one.
def latest (key : α → Nat) (log : List α) : Nat := (log.map key).foldr max 0

theorem mem_beyond : a ∈ beyond key bound log ↔ a ∈ log ∧ bound < key a := by
  unfold beyond
  rw [List.mem_filter,decide_eq_true_iff]

theorem beyond_beyond {later : Nat} (up : bound ≤ later) (log : List α) :
    beyond key later log = (beyond key bound log).filter (fun a => later < key a) := by
  unfold beyond
  rw [List.filter_filter]
  apply List.filter_congr
  intro a _
  by_cases after : later < key a
  · simp [after,Nat.lt_of_le_of_lt up after]
  · simp [after]

-- Moving the bound up leaves less to come, and strictly less past an entry.
theorem beyond_length {later : Nat} (key : α → Nat) (up : bound ≤ later) (log : List α) : (beyond key later log).length ≤ (beyond key bound log).length := by
  rw [beyond_beyond up]
  exact List.length_filter_le _ _

theorem beyond_shorter {later : Nat} (member : a ∈ log) (after : bound < key a) (passed : key a ≤ later) :
    (beyond key later log).length < (beyond key bound log).length := by
  rw [beyond_beyond (Nat.le_of_lt (Nat.lt_of_lt_of_le after passed))]
  apply List.length_filter_lt_length_iff_exists.mpr
  exact ⟨a,mem_beyond.mpr ⟨member,after⟩,by simpa using passed⟩

theorem le_latest (member : a ∈ log) : key a ≤ latest key log := by
  unfold latest
  induction log with
  | nil => cases member
  | cons b rest ih =>
    rw [List.map_cons,List.foldr_cons]
    rcases List.mem_cons.mp member with rfl | tail
    · exact Nat.le_max_left _ _
    · exact Nat.le_trans (ih tail) (Nat.le_max_right _ _)

theorem latest_mem (key : α → Nat) (some_ : log ≠ []) : ∃ a ∈ log, key a = latest key log := by
  unfold latest
  induction log with
  | nil => exact absurd rfl some_
  | cons b rest ih =>
    rw [List.map_cons,List.foldr_cons]
    by_cases empty : rest = []
    · subst empty
      exact ⟨b,List.mem_cons_self,(Nat.max_zero _).symm⟩
    · obtain ⟨a,member,equal⟩ := ih empty
      rw [← equal]
      rcases Nat.le_total (key b) (key a) with below | above
      · exact ⟨a,List.mem_cons_of_mem _ member,(Nat.max_eq_right below).symm⟩
      · exact ⟨b,List.mem_cons_self,(Nat.max_eq_left above).symm⟩

theorem latest_append (log : List α) (a : α) : latest key (log ++ [a]) = max (latest key log) (key a) := by
  unfold latest
  induction log with
  | nil => exact (Nat.max_zero _).trans (Nat.zero_max _).symm
  | cons b rest ih =>
    rw [List.cons_append,List.map_cons,List.foldr_cons,ih,List.map_cons,List.foldr_cons,Nat.max_assoc]

theorem Rising.append (rising : Rising key log) (above : latest key log < key a) : Rising key (log ++ [a]) := by
  apply List.pairwise_append.mpr
  refine ⟨rising,List.pairwise_singleton _ _,?_⟩
  intro b member c single
  cases List.mem_singleton.mp single
  exact Nat.lt_of_le_of_lt (le_latest member) above

theorem Rising.same {b : α} (rising : Rising key log) (one : a ∈ log) (two : b ∈ log) (equal : key a = key b) : a = b := by
  unfold Rising at rising
  induction log with
  | nil => cases one
  | cons c rest ih =>
    obtain ⟨first,rising⟩ := List.pairwise_cons.mp rising
    rcases List.mem_cons.mp one with headOne | tailOne
    · rcases List.mem_cons.mp two with headTwo | tailTwo
      · exact headOne.trans headTwo.symm
      · exact absurd (headOne ▸ equal) (Nat.ne_of_lt (first b tailTwo))
    · rcases List.mem_cons.mp two with headTwo | tailTwo
      · exact absurd (headTwo ▸ equal).symm (Nat.ne_of_lt (first a tailOne))
      · exact ih rising tailOne tailTwo

-- A page is a first part of what there is, whole up to its last entry.
theorem page_exact (rising : Rising key log) (first : page <+: log) (ends : page.getLast? = some last) :
    a ∈ page ↔ a ∈ log ∧ key a ≤ key last := by
  obtain ⟨rest,rfl⟩ := first
  obtain ⟨init,rfl⟩ := List.getLast?_eq_some_iff.mp ends
  have split := List.pairwise_append.mp rising
  constructor
  · intro member
    refine ⟨List.mem_append_left _ member,?_⟩
    rcases List.mem_append.mp member with earlier | single
    · exact Nat.le_of_lt ((List.pairwise_append.mp split.1).2.2 a earlier last (List.mem_singleton_self _))
    · exact Nat.le_of_eq (congrArg key (List.mem_singleton.mp single))
  · intro ⟨member,within⟩
    rcases List.mem_append.mp member with taken | beyond
    · exact taken
    · have after := split.2.2 last (List.mem_append_right _ (List.mem_singleton_self _)) a beyond
      omega

-- A first part of a sorted list, and everything it leaves out.
theorem take_cut {r : α → α → Prop} (sorted : log.Pairwise r) (count : Nat) (member : a ∈ log) :
    a ∈ log.take count ∨ ∀ b ∈ log.take count, r b a := by
  rw [← List.take_append_drop count log] at sorted member
  rcases List.mem_append.mp member with taken | left
  · exact .inl taken
  · exact .inr (fun b taken => (List.pairwise_append.mp sorted).2.2 b taken a left)

-- What is held of an entity is its value, unless the log names the entity again
-- beyond the bound.
def Known (key : α → Nat) (names : α → ε) (log : List α) (value : ε → ν) (bound : Nat) (entity : ε) (held : ν) : Prop :=
  held = value entity ∨ ∃ a ∈ log, names a = entity ∧ bound < key a

variable {value changed : ε → ν} {entity : ε} {held : ν}

theorem Known.change (known : Known key names log value bound entity held) (above : bound < key a)
    (elsewhere : ∀ other, other ≠ names a → changed other = value other) : Known key names (log ++ [a]) changed bound entity held := by
  by_cases same : entity = names a
  · exact .inr ⟨a,List.mem_append_right _ (List.mem_singleton_self a),same.symm,above⟩
  · rcases known with equal | ⟨b,member,named,above⟩
    · exact .inl (equal.trans (elsewhere entity same).symm)
    · exact .inr ⟨b,List.mem_append_left _ member,named,above⟩

end Feeds
