import Mathlib.Algebra.BigOperators.Group.List.Basic
import Mathlib.Algebra.Order.BigOperators.Group.List
import Mathlib.Algebra.Order.Ring.Int
import Mathlib.Data.List.Sort
import Mathlib.Tactic.Ring
import ChronosLedger.Library.Spans

namespace Levels
open Spans

variable {α : Type*} [LinearOrder α]

-- One span of a stock and how many units of it the span takes.
abbrev Taking (α : Type*) := (α × α) × Nat

def load (takings : List (Taking α)) (i : α) : Nat :=
  (takings.map (fun t => if Covers t.1 i then t.2 else 0)).sum

-- A dictionary from instants to net changes, in insertion order. A key that is
-- there already keeps its place.
def bump : List (α × Int) → α → Int → List (α × Int)
  | [],key,change => [(key,change)]
  | (k,v) :: rest,key,change =>
    if k = key then (k,v+change) :: rest else (k,v) :: bump rest key change

def deltas (takings : List (Taking α)) : List (α × Int) :=
  takings.foldl (fun ds t => bump (bump ds t.1.1 t.2) t.1.2 (-t.2)) []

def totals : Int → List (α × Int) → List (α × Int)
  | _,[] => []
  | acc,(key,change) :: rest => (key,acc+change) :: totals (acc+change) rest

def levels (takings : List (Taking α)) : List (α × Int) :=
  totals 0 ((deltas takings).insertionSort (fun a b => a.1 ≤ b.1))

def peak (takings : List (Taking α)) : Int :=
  match levels takings with
  | [] => 0
  | (_,total) :: rest => rest.foldl (fun most level => max most level.2) total

def stretchesFrom (atLeast : Int) : Option α → List (α × Int) → List (α × α)
  | _,[] => []
  | none,(at_,total) :: rest =>
    if atLeast ≤ total then stretchesFrom atLeast (some at_) rest else stretchesFrom atLeast none rest
  | some opened,(at_,total) :: rest =>
    if total < atLeast then (opened,at_) :: stretchesFrom atLeast none rest
    else stretchesFrom atLeast (some opened) rest

def stretches (takings : List (Taking α)) (atLeast : Int) : List (α × α) :=
  stretchesFrom atLeast none (levels takings)

theorem load_append (one two : List (Taking α)) (i : α) : load (one ++ two) i = load one i + load two i := by
  simp [load]

theorem load_perm {one two : List (Taking α)} (same : one.Perm two) (i : α) : load one i = load two i :=
  (same.map _).sum_eq

theorem load_le_of_sublist {one two : List (Taking α)} (part : one.Sublist two) (i : α) : load one i ≤ load two i :=
  (part.map _).sum_le_sum (fun _ _ => Nat.zero_le _)

-- Leaving out takings that do not cover an instant leaves its load alone.
theorem load_filter {ι : Type*} (rows : List ι) (taking : ι → Taking α) (p : ι → Bool) {i : α}
    (kept : ∀ row ∈ rows, Covers (taking row).1 i → p row = true) :
    load ((rows.filter p).map taking) i = load (rows.map taking) i := by
  induction rows with
  | nil => rfl
  | cons row rest ih =>
    have tail := ih (fun r member => kept r (List.mem_cons_of_mem _ member))
    by_cases keep : p row = true
    · simp only [List.filter_cons_of_pos keep,List.map_cons,load,List.sum_cons] at tail ⊢
      rw [tail]
    · have away : ¬ Covers (taking row).1 i := fun covers => keep (kept row (by simp) covers)
      simp only [List.filter_cons_of_neg keep,List.map_cons,load,List.sum_cons,away,if_false,zero_add] at tail ⊢
      exact tail

-- Takings cut to a window, the ones cut away left out.
def cutTakings (window : α × α) (takings : List (Taking α)) : List (Taking α) :=
  takings.filterMap (fun t => if (cut window t.1).1 < (cut window t.1).2 then some (cut window t.1,t.2) else none)

theorem load_cutTakings (window : α × α) (takings : List (Taking α)) (i : α) :
    load (cutTakings window takings) i = if Covers window i then load takings i else 0 := by
  induction takings with
  | nil => simp [cutTakings,load]
  | cons t rest ih =>
    simp only [cutTakings,load] at ih ⊢
    by_cases proper : (cut window t.1).1 < (cut window t.1).2
    · simp only [List.filterMap_cons,proper,if_true,List.map_cons,List.sum_cons,ih,cut_covers]
      by_cases inside : Covers window i <;> simp [inside]
    · have away : ¬ (Covers t.1 i ∧ Covers window i) := fun both =>
        proper (lt_of_le_of_lt (cut_covers.mpr both).1 (cut_covers.mpr both).2)
      simp only [List.filterMap_cons,proper,if_false,List.map_cons,List.sum_cons,ih]
      by_cases inside : Covers window i
      · simp [inside,show ¬ Covers t.1 i from fun covers => away ⟨covers,inside⟩]
      · simp [inside]

theorem cutTakings_proper {window : α × α} {takings : List (Taking α)} : ∀ t ∈ cutTakings window takings, t.1.1 ≤ t.1.2 := by
  intro t member
  obtain ⟨u,_,equal⟩ := List.mem_filterMap.mp member
  split at equal
  · rename_i proper
    cases Option.some.inj equal
    exact le_of_lt proper
  · cases equal

-- The change up to an instant, read off the dictionary without sorting it.
def upTo (changes : List (α × Int)) (i : α) : Int :=
  ((changes.filter (fun c => c.1 ≤ i)).map Prod.snd).sum

theorem upTo_cons (c : α × Int) (rest : List (α × Int)) (i : α) :
    upTo (c :: rest) i = (if c.1 ≤ i then c.2 else 0) + upTo rest i := by
  by_cases early : c.1 ≤ i <;> simp [upTo,early]

theorem upTo_perm {one two : List (α × Int)} (same : one.Perm two) (i : α) : upTo one i = upTo two i :=
  ((same.filter _).map _).sum_eq

theorem upTo_bump (changes : List (α × Int)) (key : α) (change : Int) (i : α) :
    upTo (bump changes key change) i = upTo changes i + if key ≤ i then change else 0 := by
  induction changes with
  | nil => by_cases early : key ≤ i <;> simp [bump,upTo,early]
  | cons c rest ih =>
    obtain ⟨k,v⟩ := c
    by_cases same : k = key
    · subst same
      by_cases early : k ≤ i
      · simp [bump,upTo_cons,early]; ring
      · simp [bump,upTo_cons,early]
    · simp only [bump,same,if_false,upTo_cons,ih]
      ring

theorem upTo_deltas (takings : List (Taking α)) (proper : ∀ t ∈ takings, t.1.1 ≤ t.1.2) (i : α) :
    upTo (deltas takings) i = load takings i := by
  -- Generalised over the dictionary the fold starts from.
  have general : ∀ (takings : List (Taking α)) (start : List (α × Int)), (∀ t ∈ takings, t.1.1 ≤ t.1.2) →
      upTo (takings.foldl (fun ds t => bump (bump ds t.1.1 t.2) t.1.2 (-t.2)) start) i =
        upTo start i + load takings i := by
    intro takings
    induction takings with
    | nil => intro start _; simp [load]
    | cons t rest ih =>
      intro start proper
      have order := proper t (by simp)
      rw [List.foldl_cons,ih _ (fun u member => proper u (by simp [member])),upTo_bump,upTo_bump]
      have one : ((if t.1.1 ≤ i then (t.2 : Int) else 0) + if t.1.2 ≤ i then -(t.2 : Int) else 0) =
          ((if Covers t.1 i then t.2 else 0 : Nat) : Int) := by
        by_cases opened : t.1.1 ≤ i
        · by_cases closed : t.1.2 ≤ i
          · simp [Covers,opened,closed]
          · simp [Covers,opened,closed,not_le.mp closed]
        · have later : ¬ t.1.2 ≤ i := fun closed => opened (le_trans order closed)
          simp [Covers,opened,later]
      simp only [load,List.map_cons,List.sum_cons,Nat.cast_add] at one ⊢
      rw [← one]
      ring
  simpa [deltas,upTo] using general takings [] proper

theorem bump_keys (changes : List (α × Int)) (key : α) (change : Int) :
    (bump changes key change).map Prod.fst =
      if key ∈ changes.map Prod.fst then changes.map Prod.fst else changes.map Prod.fst ++ [key] := by
  induction changes with
  | nil => simp [bump]
  | cons c rest ih =>
    obtain ⟨k,v⟩ := c
    by_cases same : k = key
    · subst same; simp [bump]
    · have other : ¬ key = k := fun h => same h.symm
      simp only [bump,same,if_false,List.map_cons,ih,List.mem_cons,other,false_or]
      split <;> simp

theorem bump_nodup {changes : List (α × Int)} (distinct : (changes.map Prod.fst).Nodup) (key : α) (change : Int) :
    ((bump changes key change).map Prod.fst).Nodup := by
  rw [bump_keys]
  split
  · exact distinct
  · rename_i fresh
    exact List.nodup_append.mpr ⟨distinct,by simp,by
      intro a old b new equal
      simp only [List.mem_singleton] at new
      subst new; subst equal
      exact fresh old⟩

theorem deltas_nodup (takings : List (Taking α)) : ((deltas takings).map Prod.fst).Nodup := by
  have general : ∀ (takings : List (Taking α)) (start : List (α × Int)), (start.map Prod.fst).Nodup →
      ((takings.foldl (fun ds t => bump (bump ds t.1.1 t.2) t.1.2 (-t.2)) start).map Prod.fst).Nodup := by
    intro takings
    induction takings with
    | nil => intro start distinct; exact distinct
    | cons t rest ih =>
      intro start distinct
      exact ih _ (bump_nodup (bump_nodup distinct _ _) _ _)
  exact general takings [] (by simp)

-- Strictly increasing instants: what sorting a dictionary by its keys gives.
def Ordered (changes : List (α × Int)) : Prop := changes.Pairwise (fun a b => a.1 < b.1)

theorem sorted_deltas (takings : List (Taking α)) :
    Ordered ((deltas takings).insertionSort (fun a b => a.1 ≤ b.1)) := by
  have weak := List.pairwise_insertionSort (fun a b : α × Int => a.1 ≤ b.1) (deltas takings)
  have distinct : (((deltas takings).insertionSort (fun a b => a.1 ≤ b.1)).map Prod.fst).Nodup :=
    ((List.perm_insertionSort _ _).map Prod.fst).nodup_iff.mpr (deltas_nodup takings)
  have apart := List.pairwise_map.mp distinct
  exact weak.imp₂ (fun _ _ le ne => lt_of_le_of_ne le ne) apart

omit [LinearOrder α] in
theorem totals_keys (acc : Int) (changes : List (α × Int)) :
    (totals acc changes).map Prod.fst = changes.map Prod.fst := by
  induction changes generalizing acc with
  | nil => rfl
  | cons c rest ih => obtain ⟨k,v⟩ := c; simp [totals,ih]

-- The total in force at an instant: the last one set at or before it.
def inForce (start : Int) (levels : List (α × Int)) (i : α) : Int :=
  match (levels.filter (fun l => l.1 ≤ i)).getLast? with
  | none => start
  | some level => level.2

theorem ordered_totals {changes : List (α × Int)} (ordered : Ordered changes) (acc : Int) : Ordered (totals acc changes) := by
  have keys := totals_keys acc changes
  have one : (changes.map Prod.fst).Pairwise (· < ·) := List.pairwise_map.mpr ordered
  rw [← keys] at one
  exact List.pairwise_map.mp one

theorem filter_late {c : α × Int} {rest : List (α × Int)} (ordered : Ordered (c :: rest)) {i : α} (late : ¬ c.1 ≤ i) :
    rest.filter (fun l => l.1 ≤ i) = [] := by
  apply List.filter_eq_nil_iff.mpr
  intro l member
  have after := (List.pairwise_cons.mp ordered).1 l member
  have : ¬ l.1 ≤ i := fun early => late (le_of_lt (lt_of_lt_of_le after early))
  simpa using this

theorem inForce_cons {start : Int} {c : α × Int} {rest : List (α × Int)} (ordered : Ordered (c :: rest)) (i : α) :
    inForce start (c :: rest) i = if c.1 ≤ i then inForce c.2 rest i else start := by
  by_cases early : c.1 ≤ i
  · cases shown : rest.filter (fun l => l.1 ≤ i) with
    | nil => simp [inForce,early,shown]
    | cons d more =>
      obtain ⟨last,found⟩ := Option.isSome_iff_exists.mp (List.getLast?_isSome.mpr (List.cons_ne_nil d more))
      simp only [inForce,early,decide_true,List.filter_cons_of_pos,shown,if_true]
      rw [List.getLast?_cons_cons,found]
  · simp [inForce,early,filter_late ordered early]

theorem totals_inForce {changes : List (α × Int)} (ordered : Ordered changes) (acc : Int) (i : α) :
    inForce acc (totals acc changes) i = acc + upTo changes i := by
  induction changes generalizing acc with
  | nil => simp [totals,inForce,upTo]
  | cons c rest ih =>
    obtain ⟨k,v⟩ := c
    have tail : Ordered rest := (List.pairwise_cons.mp ordered).2
    have whole : Ordered (totals acc ((k,v) :: rest)) := ordered_totals ordered acc
    rw [totals] at whole ⊢
    rw [inForce_cons whole,upTo_cons]
    by_cases early : k ≤ i
    · simp only [early,if_true,ih tail]; ring
    · have none := filter_late ordered early
      simp [early,upTo,none]

theorem levels_inForce {takings : List (Taking α)} (proper : ∀ t ∈ takings, t.1.1 ≤ t.1.2) (i : α) :
    inForce 0 (levels takings) i = load takings i := by
  rw [levels,totals_inForce (sorted_deltas takings),zero_add,
    upTo_perm (List.perm_insertionSort _ _),upTo_deltas takings proper]

theorem levels_ordered (takings : List (Taking α)) : Ordered (levels takings) :=
  ordered_totals (sorted_deltas takings) 0

-- Each level is the load at the instant it is set.
theorem level_load {takings : List (Taking α)} (proper : ∀ t ∈ takings, t.1.1 ≤ t.1.2) {level : α × Int}
    (member : level ∈ levels takings) : level.2 = load takings level.1 := by
  rw [← levels_inForce proper]
  have ordered := levels_ordered takings
  obtain ⟨before,after,split⟩ := List.append_of_mem member
  rw [split] at ordered ⊢
  obtain ⟨_,later,earlier⟩ := List.pairwise_append.mp ordered
  have none : after.filter (fun l => l.1 ≤ level.1) = [] := by
    apply List.filter_eq_nil_iff.mpr
    intro l present
    have := (List.pairwise_cons.mp later).1 l present
    simpa using this
  simp [inForce,List.filter_append,none]

theorem inForce_level (start : Int) (levels : List (α × Int)) (i : α) :
    inForce start levels i = start ∨ ∃ level ∈ levels, level.1 ≤ i ∧ inForce start levels i = level.2 := by
  unfold inForce
  cases last : (levels.filter (fun l => l.1 ≤ i)).getLast? with
  | none => exact .inl rfl
  | some level =>
    have member := List.mem_of_getLast? last
    have parts := List.mem_filter.mp member
    exact .inr ⟨level,parts.1,by simpa using parts.2,rfl⟩

omit [LinearOrder α] in
theorem foldl_max (rest : List (α × Int)) (start bound : Int) :
    rest.foldl (fun most level => max most level.2) start ≤ bound ↔ start ≤ bound ∧ ∀ level ∈ rest, level.2 ≤ bound := by
  induction rest generalizing start with
  | nil => simp
  | cons level rest ih => simp [ih,and_assoc]

theorem peak_le {takings : List (Taking α)} {bound : Int} (positive : 0 ≤ bound) :
    peak takings ≤ bound ↔ ∀ level ∈ levels takings, level.2 ≤ bound := by
  unfold peak
  cases levels takings with
  | nil => simpa using positive
  | cons level rest => simpa using foldl_max rest level.2 bound

-- The peak is the largest load at any instant, or nothing where there is none.
theorem peak_exact {takings : List (Taking α)} (proper : ∀ t ∈ takings, t.1.1 ≤ t.1.2) {bound : Int}
    (positive : 0 ≤ bound) : peak takings ≤ bound ↔ ∀ i, (load takings i : Int) ≤ bound := by
  rw [peak_le positive]
  constructor
  · intro all i
    rw [← levels_inForce proper i]
    rcases inForce_level 0 (levels takings) i with none | ⟨level,member,_,equal⟩
    · rw [none]; exact positive
    · rw [equal]; exact all level member
  · intro all level member
    rw [level_load proper member]
    exact all level.1

theorem peak_nonneg {takings : List (Taking α)} (proper : ∀ t ∈ takings, t.1.1 ≤ t.1.2) : 0 ≤ peak takings := by
  unfold peak
  cases listed : levels takings with
  | nil => exact le_refl 0
  | cons level rest =>
    have first := level_load proper (show level ∈ levels takings by simp [listed])
    have most := ((foldl_max rest level.2 _).mp (le_refl _)).1
    dsimp only
    omega

theorem inForce_early {start : Int} {levels : List (α × Int)} {i : α} (early : ∀ level ∈ levels, i < level.1) :
    inForce start levels i = start := by
  have none : levels.filter (fun l => l.1 ≤ i) = [] := by
    apply List.filter_eq_nil_iff.mpr
    intro level member
    simpa using early level member
  simp [inForce,none]

-- Both readings at once: with no stretch open the mark is not reached yet, with
-- one open it has been reached since it opened. The last level closes whatever
-- is open, which is what makes the report complete.
theorem stretchesFrom_covers {atLeast : Int} {levels : List (α × Int)} (ordered : Ordered levels)
    (closing : ∀ level ∈ levels.getLast?, level.2 < atLeast) (i : α) :
    (∀ start, start < atLeast →
      ((∃ s ∈ stretchesFrom atLeast none levels, Covers s i) ↔ atLeast ≤ inForce start levels i)) ∧
    ∀ start opened, atLeast ≤ start → levels ≠ [] → (∀ level ∈ levels, opened < level.1) →
      ((∃ s ∈ stretchesFrom atLeast (some opened) levels, Covers s i) ↔
        opened ≤ i ∧ atLeast ≤ inForce start levels i) := by
  induction levels with
  | nil =>
    refine ⟨?_,fun _ _ _ nonempty => absurd rfl nonempty⟩
    intro start below
    simp [stretchesFrom,inForce,below]
  | cons level rest ih =>
    obtain ⟨at_,total⟩ := level
    obtain ⟨later,tail⟩ := List.pairwise_cons.mp ordered
    have closes : ∀ level ∈ rest.getLast?, level.2 < atLeast := by
      intro level last
      cases rest with
      | nil => simp at last
      | cons next more => exact closing level (by simpa [List.getLast?_cons_cons] using last)
    have more : atLeast ≤ total → rest ≠ [] := by
      rintro reached rfl
      have := closing (at_,total) (by simp)
      exact absurd reached (not_le.mpr this)
    have early : ¬ at_ ≤ i → inForce total rest i = total := fun late =>
      inForce_early (fun level member => lt_trans (not_le.mp late) (later level member))
    obtain ⟨shut,opened⟩ := ih tail closes
    constructor
    · intro start below
      rw [inForce_cons ordered]
      by_cases reached : atLeast ≤ total
      · simp only [stretchesFrom,reached,if_true]
        rw [opened total at_ reached (more reached) later]
        by_cases here : at_ ≤ i <;> simp [here,below]
      · simp only [stretchesFrom,reached,if_false]
        rw [shut total (not_le.mp reached)]
        by_cases here : at_ ≤ i
        · simp [here]
        · simp only [here,if_false,early here]
          exact iff_of_false reached (not_le.mpr below)
    · intro start since reachedBefore _ allLater
      have order : since < at_ := allLater (at_,total) (by simp)
      have restLater : ∀ level ∈ rest, since < level.1 := fun level member => allLater level (by simp [member])
      rw [inForce_cons ordered]
      by_cases below : total < atLeast
      · simp only [stretchesFrom,below,if_true,List.mem_cons,exists_eq_or_imp]
        rw [shut total below]
        by_cases here : at_ ≤ i
        · simp [Covers,here,le_of_lt (lt_of_lt_of_le order here)]
        · simp [Covers,here,early here,below,reachedBefore,not_le.mp here]
      · have reached := not_lt.mp below
        simp only [stretchesFrom,below,if_false]
        rw [opened total since reached (more reached) restLater]
        by_cases here : at_ ≤ i
        · simp [here]
        · simp [here,early here,reached,reachedBefore]

theorem sum_bump (changes : List (α × Int)) (key : α) (change : Int) :
    ((bump changes key change).map Prod.snd).sum = (changes.map Prod.snd).sum + change := by
  induction changes with
  | nil => simp [bump]
  | cons c rest ih =>
    obtain ⟨k,v⟩ := c
    by_cases same : k = key
    · subst same; simp [bump]; ring
    · simp [bump,same,ih]; ring

-- What is taken is given back, so after the last instant nothing is taken.
theorem sum_deltas (takings : List (Taking α)) : ((deltas takings).map Prod.snd).sum = 0 := by
  have general : ∀ (takings : List (Taking α)) (start : List (α × Int)),
      ((takings.foldl (fun ds t => bump (bump ds t.1.1 t.2) t.1.2 (-t.2)) start).map Prod.snd).sum =
        (start.map Prod.snd).sum := by
    intro takings
    induction takings with
    | nil => intro start; rfl
    | cons t rest ih =>
      intro start
      rw [List.foldl_cons,ih,sum_bump,sum_bump]
      ring
  simpa [deltas] using general takings []

omit [LinearOrder α] in
theorem totals_last (acc : Int) (changes : List (α × Int)) :
    ∀ level ∈ (totals acc changes).getLast?, level.2 = acc + (changes.map Prod.snd).sum := by
  induction changes generalizing acc with
  | nil => simp [totals]
  | cons c rest ih =>
    obtain ⟨k,v⟩ := c
    intro level last
    cases rest with
    | nil => simp [totals] at last; subst last; simp
    | cons next more =>
      have here := ih (acc+v) level (by simpa [totals,List.getLast?_cons_cons] using last)
      rw [here]
      simp [add_assoc]

-- The stretches cover exactly the instants at which the load reaches the mark.
theorem stretches_exact {takings : List (Taking α)} (proper : ∀ t ∈ takings, t.1.1 ≤ t.1.2) {atLeast : Int}
    (positive : 0 < atLeast) (i : α) :
    (∃ s ∈ stretches takings atLeast, Covers s i) ↔ atLeast ≤ load takings i := by
  have closing : ∀ level ∈ (levels takings).getLast?, level.2 < atLeast := by
    intro level last
    have total := totals_last 0 _ level last
    rw [((List.perm_insertionSort _ _).map Prod.snd).sum_eq,sum_deltas] at total
    omega
  rw [stretches,(stretchesFrom_covers (levels_ordered takings) closing i).1 0 positive,levels_inForce proper]

theorem stretchesFrom_proper {atLeast : Int} {levels : List (α × Int)} (ordered : Ordered levels) :
    (∀ s ∈ stretchesFrom atLeast none levels, s.1 < s.2) ∧
    ∀ opened, (∀ level ∈ levels, opened < level.1) → ∀ s ∈ stretchesFrom atLeast (some opened) levels, s.1 < s.2 := by
  induction levels with
  | nil => simp [stretchesFrom]
  | cons level rest ih =>
    obtain ⟨at_,total⟩ := level
    obtain ⟨later,tail⟩ := List.pairwise_cons.mp ordered
    obtain ⟨shut,opened⟩ := ih tail
    constructor
    · intro s member
      rw [stretchesFrom] at member
      split at member
      · exact opened at_ later s member
      · exact shut s member
    · intro since allLater s member
      rw [stretchesFrom] at member
      split at member
      · rcases List.mem_cons.mp member with rfl | rest
        · exact allLater (at_,total) (by simp)
        · exact shut s rest
      · exact opened since (fun level present => allLater level (by simp [present])) s member

theorem stretches_proper {takings : List (Taking α)} {atLeast : Int} :
    ∀ s ∈ stretches takings atLeast, s.1 < s.2 := (stretchesFrom_proper (levels_ordered takings)).1

end Levels
