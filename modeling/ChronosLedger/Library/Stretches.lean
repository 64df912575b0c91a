import ChronosLedger.Library.Levels

namespace Levels
open Spans

variable {α : Type*} [LinearOrder α]

-- A longest half-open stretch: all of its instants are among those asked for,
-- and no wider stretch is like that.
structure Longest (holds : α → Prop) (s : α × α) : Prop where
  proper : s.1 < s.2
  throughout : ∀ i, Covers s i → holds i
  widest : ∀ t : α × α, t.1 ≤ s.1 → s.2 ≤ t.2 → (∀ i, Covers t i → holds i) → t = s

-- In order, and with a gap between each and the next.
def Apart (spans : List (α × α)) : Prop := spans.Pairwise (fun a b => a.2 < b.1)

theorem Apart.cases {spans : List (α × α)} (apart : Apart spans) {s t : α × α} (left : s ∈ spans) (right : t ∈ spans) :
    s = t ∨ s.2 < t.1 ∨ t.2 < s.1 := by
  induction spans with
  | nil => cases left
  | cons head rest ih =>
    obtain ⟨first,later⟩ := List.pairwise_cons.mp apart
    rcases List.mem_cons.mp left with same | behind
    · rcases List.mem_cons.mp right with same' | behind'
      · exact .inl (same.trans same'.symm)
      · exact .inr (.inl (same ▸ first t behind'))
    · rcases List.mem_cons.mp right with same' | behind'
      · exact .inr (.inr (same' ▸ first s behind))
      · exact ih later behind behind'

section Exact

variable {spans : List (α × α)} {holds : α → Prop} {s t : α × α} {i : α}

-- A listed span ends where what is asked for ends.
theorem ends_there (proper : ∀ s ∈ spans, s.1 < s.2) (apart : Apart spans) (exact_ : ∀ i, (∃ s ∈ spans, Covers s i) ↔ holds i)
    (listed : s ∈ spans) : ¬ holds s.2 := by
  intro there
  obtain ⟨next,member,covers⟩ := (exact_ s.2).mpr there
  have full := proper s listed
  rcases apart.cases listed member with rfl | before | after
  · exact lt_irrefl _ covers.2
  · exact absurd covers.1 (not_le.mpr before)
  · exact absurd (lt_trans covers.2 after) (not_lt.mpr (le_of_lt full))

-- What meets a listed span and is asked for throughout lies inside it.
theorem inside_listed (proper : ∀ s ∈ spans, s.1 < s.2) (apart : Apart spans) (exact_ : ∀ i, (∃ s ∈ spans, Covers s i) ↔ holds i)
    (listed : s ∈ spans) (throughout : ∀ i, Covers t i → holds i) (one : Covers s i) (two : Covers t i) : s.1 ≤ t.1 ∧ t.2 ≤ s.2 := by
  have short : ∀ u ∈ spans, ∀ j, Covers u j → Covers t j → t.2 ≤ u.2 := by
    intro u member j inside shared
    by_contra beyond
    exact ends_there proper apart exact_ member (throughout u.2 ⟨le_trans shared.1 (le_of_lt inside.2),not_le.mp beyond⟩)
  refine ⟨?_,short s listed i one two⟩
  by_contra early
  have early := not_le.mp early
  have opens : Covers t t.1 := ⟨le_refl _,lt_of_le_of_lt two.1 two.2⟩
  obtain ⟨first,member,covers⟩ := (exact_ t.1).mpr (throughout t.1 opens)
  have reach := short first member t.1 covers opens
  rcases apart.cases listed member with rfl | before | after
  · exact absurd covers.1 (not_le.mpr early)
  · exact absurd (lt_of_lt_of_le before covers.1) (not_lt.mpr (le_of_lt (lt_trans early (proper s listed))))
  · exact absurd (lt_of_lt_of_le after one.1) (not_lt.mpr (le_of_lt (lt_of_lt_of_le two.2 reach)))

-- So the spans of an ordered list with gaps are the longest stretches of what
-- they cover, and all of them.
theorem mem_longest (proper : ∀ s ∈ spans, s.1 < s.2) (apart : Apart spans) (exact_ : ∀ i, (∃ s ∈ spans, Covers s i) ↔ holds i) :
    s ∈ spans ↔ Longest holds s := by
  constructor
  · intro listed
    have full := proper s listed
    refine ⟨full,fun i covers => (exact_ i).mp ⟨s,listed,covers⟩,?_⟩
    intro t opens closes throughout
    have within_ := inside_listed proper apart exact_ listed throughout (i := s.1) ⟨le_refl _,full⟩ ⟨opens,lt_of_lt_of_le full closes⟩
    exact Prod.ext (le_antisymm opens within_.1) (le_antisymm within_.2 closes)
  · intro longest
    have first : Covers s s.1 := ⟨le_refl _,longest.proper⟩
    obtain ⟨other,listed,covers⟩ := (exact_ s.1).mpr (longest.throughout _ first)
    have within_ := inside_listed proper apart exact_ listed longest.throughout covers first
    have same := longest.widest other within_.1 within_.2 (fun i inside => (exact_ i).mp ⟨other,listed,inside⟩)
    exact same ▸ listed

end Exact

theorem stretchesFrom_after {atLeast : Int} {levels : List (α × Int)} {x : α} (later : ∀ level ∈ levels, x < level.1) :
    (∀ s ∈ stretchesFrom atLeast none levels, x < s.1) ∧
    ∀ opened, x < opened → ∀ s ∈ stretchesFrom atLeast (some opened) levels, x < s.1 := by
  induction levels with
  | nil => simp [stretchesFrom]
  | cons level rest ih =>
    obtain ⟨at_,total⟩ := level
    obtain ⟨shut,opened⟩ := ih (fun level member => later level (List.mem_cons_of_mem _ member))
    have first : x < at_ := later (at_,total) (by simp)
    constructor
    · intro s member
      rw [stretchesFrom] at member
      split at member
      · exact opened at_ first s member
      · exact shut s member
    · intro since after s member
      rw [stretchesFrom] at member
      split at member
      · rcases List.mem_cons.mp member with rfl | member
        · exact after
        · exact shut s member
      · exact opened since after s member

-- A stretch is reported when it closes, and the next one opens at a later level.
theorem stretchesFrom_apart {atLeast : Int} {levels : List (α × Int)} (ordered : Ordered levels) :
    Apart (stretchesFrom atLeast none levels) ∧ ∀ opened, Apart (stretchesFrom atLeast (some opened) levels) := by
  induction levels with
  | nil => simp [stretchesFrom,Apart]
  | cons level rest ih =>
    obtain ⟨at_,total⟩ := level
    obtain ⟨later,tail⟩ := List.pairwise_cons.mp ordered
    obtain ⟨shut,opened⟩ := ih tail
    constructor
    · rw [stretchesFrom]
      split
      · exact opened at_
      · exact shut
    · intro since
      rw [stretchesFrom]
      split
      · exact List.pairwise_cons.mpr ⟨(stretchesFrom_after later).1,shut⟩
      · exact opened since

theorem stretches_apart (takings : List (Taking α)) (atLeast : Int) : Apart (stretches takings atLeast) :=
  (stretchesFrom_apart (levels_ordered takings)).1

-- The stretches are the longest ones in which the load reaches the mark.
theorem mem_stretches {takings : List (Taking α)} (proper : ∀ t ∈ takings, t.1.1 ≤ t.1.2) {atLeast : Int} (positive : 0 < atLeast)
    {s : α × α} : s ∈ stretches takings atLeast ↔ Longest (fun i => atLeast ≤ load takings i) s :=
  mem_longest stretches_proper (stretches_apart takings atLeast) (stretches_exact proper positive)

omit [LinearOrder α] in
theorem foldl_max_reached (rest : List (α × Int)) (start : Int) :
    rest.foldl (fun most level => max most level.2) start = start ∨
      ∃ level ∈ rest, rest.foldl (fun most level => max most level.2) start = level.2 := by
  induction rest generalizing start with
  | nil => exact .inl rfl
  | cons level rest ih =>
    rw [List.foldl_cons]
    rcases ih (max start level.2) with same | ⟨other,member,same⟩
    · rcases max_choice start level.2 with left | right
      · exact .inl (same.trans left)
      · exact .inr ⟨level,by simp,same.trans right⟩
    · exact .inr ⟨other,List.mem_cons_of_mem _ member,same⟩

-- The peak is the load of some instant, unless nothing is taken at all.
theorem peak_reached {takings : List (Taking α)} (proper : ∀ t ∈ takings, t.1.1 ≤ t.1.2) :
    peak takings = 0 ∨ ∃ i, (load takings i : Int) = peak takings := by
  unfold peak
  cases listed : levels takings with
  | nil => exact .inl rfl
  | cons level rest =>
    right
    have load_ : ∀ other ∈ level :: rest, other.2 = load takings other.1 := fun other member => level_load proper (listed ▸ member)
    rcases foldl_max_reached rest level.2 with same | ⟨other,member,same⟩
    · exact ⟨level.1,((load_ level (by simp)).symm.trans same.symm)⟩
    · exact ⟨other.1,((load_ other (List.mem_cons_of_mem _ member)).symm.trans same.symm)⟩

-- Of takings cut to a window, the largest load at an instant of the window.
theorem peak_window {window : α × α} (takings : List (Taking α)) :
    (∀ i, Covers window i → (load takings i : Int) ≤ peak (cutTakings window takings)) ∧
      (peak (cutTakings window takings) = 0 ∨ ∃ i, Covers window i ∧ (load takings i : Int) = peak (cutTakings window takings)) := by
  have proper : ∀ t ∈ cutTakings window takings, t.1.1 ≤ t.1.2 := cutTakings_proper
  have most := (peak_exact proper (peak_nonneg proper)).mp (le_refl _)
  constructor
  · intro i inside
    have bound := most i
    rw [load_cutTakings,if_pos inside] at bound
    exact bound
  · rcases peak_reached proper with none_ | ⟨i,same⟩
    · exact .inl none_
    · rw [load_cutTakings] at same
      by_cases inside : Covers window i
      · rw [if_pos inside] at same
        exact .inr ⟨i,inside,same⟩
      · rw [if_neg inside] at same
        exact .inl same.symm

end Levels
