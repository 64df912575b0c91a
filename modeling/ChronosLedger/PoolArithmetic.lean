import ChronosLedger.HoldMoves
import ChronosLedger.Operations
import ChronosLedger.Library.Stretches
import Mathlib.Data.List.Pairwise
import Mathlib.Order.Bounds.Basic

namespace ChronosLedger
open Spans

variable {cal : Recurrence} {db : Database} {resourceId : Nat} {mode : ResourceMode} {capacity : Nat} {holds : List Reservation}

-- The units some holds take at an instant.
def unitsAt (holds : List Reservation) (i : Int) : Nat := Levels.load (holds.map heldTaking) i

-- The instants a peak is asked about: those of the window, or all of them.
def Asked (window : Option (Int × Int)) (i : Int) : Prop := ∀ span ∈ window, Covers span i

-- A hold's part in a breach of the rules of a mode.
def TakesPart (mode : ResourceMode) (capacity : Nat) (holds : List Reservation) (held : Reservation) : Prop :=
  (mode = .exclusive ∧ (held.quantity ≠ 1 ∨ ∃ other ∈ holds, other ≠ held ∧ Meets (heldSpan held) (heldSpan other))) ∨
  (mode = .pooled ∧ ∃ i, Covers (heldSpan held) i ∧ capacity < unitsAt holds i)

-- No slot in service and no dated day is on the resource.
structure EmptyTimetable (db : Database) (resourceId : Nat) : Prop where
  slots : bookedSlots db (some resourceId) = []
  days : ∀ day, ¬ OnRoom db (some resourceId) day

theorem EmptyTimetable.free (empty : EmptyTimetable db resourceId) (window : Int × Int) :
    ¬ TimetableMeets cal db (some resourceId) window := by
  rintro (⟨booked,day,planned,here,_⟩ | ⟨day,on,_⟩)
  · have listed : booked ∈ bookedSlots db (some resourceId) := List.mem_filter.mpr ⟨planned.1,decide_eq_true here⟩
    rw [empty.slots] at listed
    cases listed
  · exact empty.days day on

theorem mem_poolStretches {atLeast : Nat} (positive : 1 ≤ atLeast) {stretch : Int × Int} :
    stretch ∈ poolStretches holds atLeast ↔ Levels.Longest (fun i => atLeast ≤ unitsAt holds i) stretch := by
  have longest := Levels.mem_stretches (takings_proper holds) (show 0 < (atLeast : Int) by omega) (s := stretch)
  simp only [Int.ofNat_le] at longest
  exact longest

theorem unitsAt_none {i : Int} (away : ∀ held ∈ holds, ¬ Covers (heldSpan held) i) : unitsAt holds i = 0 := by
  unfold unitsAt Levels.load
  rw [List.map_map]
  apply List.sum_eq_zero
  intro n listed
  obtain ⟨held,present,rfl⟩ := List.mem_map.mp listed
  simp [heldTaking,away held present]

-- The peak of the window, or of all there is.
theorem poolPeak_parts (holds : List Reservation) (window : Option (Int × Int)) :
    (∀ i, Asked window i → (unitsAt holds i : Int) ≤ poolPeak holds window) ∧
      (poolPeak holds window = 0 ∨ ∃ i, Asked window i ∧ (unitsAt holds i : Int) = poolPeak holds window) := by
  cases window with
  | some span =>
    rw [poolPeak_cut]
    have parts := @Levels.peak_window _ _ span (holds.map heldTaking)
    simpa [Asked,unitsAt] using parts
  | none =>
    have whole : poolPeak holds none = Levels.peak (holds.map heldTaking) := by
      unfold poolPeak
      rw [← List.filterMap_eq_map]
      congr 1
      apply List.filterMap_congr
      intro held _
      exact if_pos (heldSpan_proper held)
    have proper := takings_proper holds
    rw [whole]
    refine ⟨fun i _ => ?_,?_⟩
    · exact (Levels.peak_exact proper (Levels.peak_nonneg proper)).mp (le_refl _) i
    · rcases Levels.peak_reached proper with none_ | ⟨i,same⟩
      · exact .inl none_
      · exact .inr ⟨i,(fun _ there => by cases there),same⟩

theorem poolPeak_greatest {window : Option (Int × Int)} (some_ : ∃ i, Asked window i) :
    IsGreatest {n | ∃ i, Asked window i ∧ (unitsAt holds i : Int) = n} (poolPeak holds window) := by
  obtain ⟨most,reached⟩ := poolPeak_parts holds window
  refine ⟨?_,?_⟩
  · rcases reached with none_ | there
    · obtain ⟨i,asked⟩ := some_
      have bound := most i asked
      exact ⟨i,asked,by omega⟩
    · exact there
  · rintro n ⟨i,asked,rfl⟩
    exact most i asked

-- A hold meets a full stretch where it covers an instant that is too full.
theorem meets_stretch (held : Reservation) : (∃ stretch ∈ poolStretches holds (capacity+1), Meets (heldSpan held) stretch) ↔
    ∃ i, Covers (heldSpan held) i ∧ capacity < unitsAt holds i := by
  have full := fun i => Levels.stretches_exact (takings_proper holds) (show 0 < ((capacity+1 : Nat) : Int) by omega) i
  constructor
  · rintro ⟨stretch,listed,met⟩
    obtain ⟨i,one,two⟩ := (meets_iff_covers (heldSpan_proper held) (Levels.stretches_proper stretch listed)).mp met
    have above := (full i).mp ⟨stretch,listed,two⟩
    refine ⟨i,one,?_⟩
    unfold unitsAt
    omega
  · rintro ⟨i,covers,above⟩
    unfold unitsAt at above
    obtain ⟨stretch,listed,reaches⟩ := (full i).mpr (by omega)
    exact ⟨stretch,listed,covers_meets covers reaches⟩

-- The rows are keyed, so another id is another hold.
theorem breaksMode_exact (distinct : (holds.map Reservation.id).Nodup) {held : Reservation} (listed : held ∈ holds)
    (counted : mode ≠ .shared) : breaksMode mode capacity holds held = true ↔ TakesPart mode capacity holds held := by
  unfold breaksMode TakesPart
  have units := held.units
  have other_ : ∀ other ∈ holds, other.id ≠ held.id ↔ other ≠ held := fun other member =>
    not_congr ⟨same_of_key distinct member listed,fun same => same ▸ rfl⟩
  cases mode with
  | exclusive =>
    simp only [if_true,decide_eq_true_eq,reduceCtorEq,false_and,or_false,true_and]
    have single : 1 < held.quantity ↔ held.quantity ≠ 1 := by omega
    rw [single]
    refine or_congr Iff.rfl (exists_congr (fun other => and_congr_right (fun member => ?_)))
    rw [other_ other member]
  | pooled =>
    simp only [reduceCtorEq,if_false,false_and,false_or,true_and]
    rw [← meets_stretch]
    simp
  | shared => exact absurd rfl counted

-- Every misfit is either on the timetable or in a breach, and the list keeps the
-- order of the holds.
theorem foldl_min_le (values : List Int) (start : Int) :
    values.foldl min start ≤ start ∧ ∀ v ∈ values, values.foldl min start ≤ v := by
  induction values generalizing start with
  | nil => simp
  | cons head rest ih =>
    obtain ⟨low,all⟩ := ih (min start head)
    refine ⟨le_trans low (min_le_left _ _),?_⟩
    intro v member
    rcases List.mem_cons.mp member with rfl | old
    · exact le_trans low (min_le_right _ _)
    · exact all v old

theorem le_foldl_max (values : List Int) (start : Int) :
    start ≤ values.foldl max start ∧ ∀ v ∈ values, v ≤ values.foldl max start := by
  induction values generalizing start with
  | nil => simp
  | cons head rest ih =>
    obtain ⟨high,all⟩ := ih (max start head)
    refine ⟨le_trans (le_max_left _ _) high,?_⟩
    intro v member
    rcases List.mem_cons.mp member with rfl | old
    · exact le_trans (le_max_right _ _) high
    · exact all v old

theorem wouldNotFit_exact (distinct : (holds.map Reservation.id).Nodup) :
    (wouldNotFit cal db resourceId mode capacity holds).Sublist holds ∧ ∀ held ∈ holds,
      (held ∈ wouldNotFit cal db resourceId mode capacity holds ↔
        mode ≠ .shared ∧ (TimetableMeets cal db (some resourceId) (heldSpan held) ∨ TakesPart mode capacity holds held)) := by
  cases holds with
  | nil => exact ⟨List.Sublist.refl _,fun _ none_ => absurd none_ List.not_mem_nil⟩
  | cons head rest =>
    unfold wouldNotFit
    dsimp only
    by_cases shared : mode = .shared
    · rw [if_pos shared]
      refine ⟨List.nil_sublist _,fun held _ => ?_⟩
      exact iff_of_false List.not_mem_nil (fun both => both.1 shared)
    · rw [if_neg shared]
      refine ⟨List.filter_sublist,fun held listed => ?_⟩
      have low := (foldl_min_le ((head :: rest).map Reservation.reservedDate) head.reservedDate).2 _ (List.mem_map_of_mem listed)
      have high := (le_foldl_max ((head :: rest).map (fun held => dateOf (heldSpan held).2)) (dateOf (heldSpan head).2)).2 _
        (List.mem_map_of_mem listed)
      rw [show dateOf (heldSpan held).2 = lastDate held.reservedDate held.timeWindowStart held.timeWindowEnd by
        simp only [heldSpan,span_lastDate,combine_date]] at high
      have busy := occupied_meets cal db resourceId low high false
      simp only [Bool.false_eq_true,if_false,false_and,or_false] at busy
      rw [List.mem_filter,decide_eq_true_eq,breaksMode_exact distinct listed shared]
      simp only [listed,true_and,ne_eq,shared,not_false_eq_true]
      refine or_congr ?_ Iff.rfl
      rw [show heldSpan held = windowSpan held.reservedDate held.timeWindowStart held.timeWindowEnd from rfl,← busy]
      unfold clashing
      simp [List.filter_eq_nil_iff]

theorem fitsMode_exact (distinct : (holds.map Reservation.id).Nodup) :
    FitsMode mode capacity holds ↔ ∀ held ∈ holds, ¬ TakesPart mode capacity holds held := by
  unfold FitsMode TakesPart
  cases mode with
  | exclusive =>
    simp only [true_implies,reduceCtorEq,false_implies,and_true,true_and,false_and,or_false,not_or,not_not,not_exists,not_and]
    have both_ways : Std.Symm (fun a b : Reservation => ¬ Meets (heldSpan a) (heldSpan b)) := ⟨fun _ _ away met => away met.symm⟩
    constructor
    · intro ⟨single,apart⟩ held listed
      refine ⟨single held listed,fun other member unequal => ?_⟩
      exact apart.forall listed member (Ne.symm unequal)
    · intro fine
      have different : holds.Pairwise (· ≠ ·) := List.Nodup.of_map _ distinct
      refine ⟨fun held listed => (fine held listed).1,?_⟩
      exact different.imp_of_mem (fun {a b} left right unequal => (fine a left).2 b right (Ne.symm unequal))
  | pooled =>
    simp only [true_implies,reduceCtorEq,false_implies,true_and,false_and,false_or,not_exists,not_and,not_lt]
    constructor
    · intro fits held _ i _
      exact fits i
    · intro fine i
      by_cases there : ∃ held ∈ holds, Covers (heldSpan held) i
      · obtain ⟨held,listed,covers⟩ := there
        exact fine held listed i covers
      · have none_ : unitsAt holds i = 0 := unitsAt_none (fun held listed covers => there ⟨held,listed,covers⟩)
        unfold unitsAt at none_
        omega
  | shared => simp

-- What is summed, where it reaches a mark and whose doing that is.
theorem pool_arithmetic (cal : Recurrence) (db : Database) (resourceId : Nat) (mode : ResourceMode) (capacity : Nat)
    (holds : List Reservation) (distinct : (holds.map Reservation.id).Nodup) (empty : EmptyTimetable db resourceId) :
    (∀ atLeast, 1 ≤ atLeast → Levels.Apart (poolStretches holds atLeast) ∧
      ∀ stretch, stretch ∈ poolStretches holds atLeast ↔ Levels.Longest (fun i => atLeast ≤ unitsAt holds i) stretch) ∧
    (∀ window, (∃ i, Asked window i) → IsGreatest {n | ∃ i, Asked window i ∧ (unitsAt holds i : Int) = n} (poolPeak holds window)) ∧
    (∀ window, (∀ i, ¬ Asked window i) → poolPeak holds window = 0) ∧
    (wouldNotFit cal db resourceId mode capacity holds = [] ↔ FitsMode mode capacity holds) ∧
    (wouldNotFit cal db resourceId mode capacity holds).Sublist holds ∧
    ∀ held ∈ holds, held ∈ wouldNotFit cal db resourceId mode capacity holds ↔ TakesPart mode capacity holds held := by
  obtain ⟨part,each⟩ := @wouldNotFit_exact cal db resourceId mode capacity holds distinct
  have breach : ∀ held ∈ holds, held ∈ wouldNotFit cal db resourceId mode capacity holds ↔ TakesPart mode capacity holds held := by
    intro held listed
    rw [each held listed]
    have free := @EmptyTimetable.free cal _ _ empty (heldSpan held)
    constructor
    · rintro ⟨_,onto | takes⟩
      · exact absurd onto free
      · exact takes
    · intro takes
      refine ⟨?_,.inr takes⟩
      rcases takes with ⟨exclusive,_⟩ | ⟨pooled,_⟩
      · simp [exclusive]
      · simp [pooled]
  refine ⟨fun atLeast positive => ⟨Levels.stretches_apart _ _,fun stretch => mem_poolStretches positive⟩,
    fun window some_ => poolPeak_greatest some_,?_,?_,part,breach⟩
  · intro window none_
    rcases (poolPeak_parts holds window).2 with same | ⟨i,asked,_⟩
    · exact same
    · exact absurd asked (none_ i)
  · rw [fitsMode_exact distinct]
    constructor
    · intro same held listed takes
      have member := (breach held listed).mpr takes
      rw [same] at member
      cases member
    · intro fine
      apply List.eq_nil_iff_forall_not_mem.mpr
      intro held member
      have listed := part.subset member
      exact fine held listed ((breach held listed).mp member)

def deskHold (id : Nat) (start finish : Time) (proper : finish ≠ start) (units : Nat) (some_ : 1 ≤ units) : Reservation :=
  ⟨id,1,100,start,finish,"desks",none,toString id,"",none,units,.pooled,.held,none,proper,some_⟩

-- Two holds that touch at eleven, and one of both desks over the second of them.
def desks : List Reservation := [deskHold 1 (clock 9 0) (clock 11 0) nine_to_eleven 2 two_units,
  deskHold 2 (clock 11 0) (clock 13 0) eleven_to_one 1 one_unit,deskHold 3 (clock 12 0) (clock 14 0) (by decide) 2 two_units]

theorem pool_arithmetic_desks : poolStretches desks 3 = [windowSpan 100 (clock 12 0) (clock 13 0)] ∧ poolPeak desks none = 3 ∧
    ∀ held ∈ desks, held ∈ wouldNotFit plainRules (staffed 100) 1 .pooled 2 desks ↔ TakesPart .pooled 2 desks held := by
  refine ⟨by decide +kernel,by decide +kernel,?_⟩
  have empty : EmptyTimetable (staffed 100) 1 := ⟨rfl,fun _ on => absurd on.1 List.not_mem_nil⟩
  exact (pool_arithmetic plainRules (staffed 100) 1 .pooled 2 desks (by decide) empty).2.2.2.2.2

end ChronosLedger
