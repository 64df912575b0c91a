import ChronosLedger.Occupancy

namespace ChronosLedger
open Spans

-- The units of a resource that are held at an instant, over every booking on
-- record and with no range asked about.
def heldOn (db : Database) (resourceId : Nat) : List Reservation :=
  db.reservations.filter (fun held => held.resourceId = resourceId ∧ held.status = .held)

def heldLoad (db : Database) (resourceId : Nat) (i : Int) : Nat :=
  Levels.load ((heldOn db resourceId).map heldTaking) i

theorem mem_heldOn {db : Database} {resourceId : Nat} {held : Reservation} :
    held ∈ heldOn db resourceId ↔ held ∈ db.reservations ∧ held.resourceId = resourceId ∧ held.status = .held := by
  simp [heldOn]

theorem heldSpan_proper (held : Reservation) : (heldSpan held).1 < (heldSpan held).2 := span_proper held.window _

theorem takings_proper (holds : List Reservation) : ∀ t ∈ holds.map heldTaking, t.1.1 ≤ t.1.2 := by
  intro t member
  obtain ⟨held,_,rfl⟩ := List.mem_map.mp member
  exact le_of_lt (heldSpan_proper held)

-- The holds read for a range around a window carry its whole load.
theorem ranged_load {db : Database} {resourceId : Nat} {fromDate toDate day : Int} {start finish : Time} {i : Int}
    (opens : fromDate ≤ day) (closes : lastDate day start finish ≤ toDate) (inside : Covers (windowSpan day start finish) i) :
    Levels.load ((heldReservations db resourceId fromDate toDate).map heldTaking) i = heldLoad db resourceId i := by
  have split : heldReservations db resourceId fromDate toDate =
      (heldOn db resourceId).filter (fun held => fromDate-1 ≤ held.reservedDate ∧ held.reservedDate ≤ toDate) := by
    simp only [heldReservations,heldOn,List.filter_filter]
    congr 1
    funext held
    simp only [Bool.decide_and]
    grind
  rw [split,heldLoad]
  apply Levels.load_filter
  intro held _ covers
  have dated := meets_dated opens closes (covers_meets covers inside)
  simpa using dated

theorem poolPeak_cut (holds : List Reservation) (window : Int × Int) :
    poolPeak holds (some window) = Levels.peak (Levels.cutTakings window (holds.map heldTaking)) := by
  simp only [poolPeak,Levels.cutTakings,List.filterMap_map]
  rfl

-- The most units held at one moment of a window.
theorem poolState_exact (db : Database) (resourceId : Nat) (day : Int) (start finish : Time) {bound : Int} (positive : 0 ≤ bound) :
    (poolState db resourceId day start finish).1 ≤ bound ↔
      ∀ i, Covers (windowSpan day start finish) i → (heldLoad db resourceId i : Int) ≤ bound := by
  simp only [poolState,poolPeak_cut]
  rw [Levels.peak_exact Levels.cutTakings_proper positive]
  have each : ∀ i, Levels.load (Levels.cutTakings (windowSpan day start finish)
      (((heldReservations db resourceId day (lastDate day start finish)).filter
        (fun held => Meets (heldSpan held) (windowSpan day start finish))).map heldTaking)) i =
      if Covers (windowSpan day start finish) i then heldLoad db resourceId i else 0 := by
    intro i
    rw [Levels.load_cutTakings]
    by_cases inside : Covers (windowSpan day start finish) i
    · rw [if_pos inside,if_pos inside,← ranged_load (le_refl day) (le_refl _) inside]
      apply Levels.load_filter
      intro held _ covers
      exact decide_eq_true (covers_meets (x := heldSpan held) covers inside)
    · rw [if_neg inside,if_neg inside]
  simp only [each]
  constructor
  · intro all i inside
    simpa [inside] using all i
  · intro all i
    by_cases inside : Covers (windowSpan day start finish) i
    · simpa [inside] using all i inside
    · simpa [inside] using positive

theorem bounds_stretchInterval (span : Int × Int) : bounds (stretchInterval span) = span := by
  simp [bounds,stretchInterval,combine_split]

-- A full stretch reaches a window exactly when the pool is full at a moment of it.
theorem full_meets (holds : List Reservation) {capacity : Nat} {fromDate toDate day : Int} {start finish : Time}
    (sized : 1 ≤ capacity) (proper : finish ≠ start) (opens : fromDate ≤ day) (closes : lastDate day start finish ≤ toDate) :
    (∃ entry ∈ fullIntervals holds capacity fromDate toDate, Meets (bounds entry) (windowSpan day start finish)) ↔
      ∃ i, Covers (windowSpan day start finish) i ∧ capacity ≤ Levels.load (holds.map heldTaking) i := by
  have inside := window_inside opens closes
  have window := span_proper proper day
  have full := fun i => Levels.stretches_exact (takings_proper holds) (show 0 < (capacity : Int) by omega) i
  constructor
  · rintro ⟨entry,listed,met⟩
    obtain ⟨stretch,member,shown⟩ := List.mem_filterMap.mp listed
    dsimp only at shown
    split at shown
    · rename_i kept
      cases Option.some.inj shown
      rw [bounds_stretchInterval] at met
      obtain ⟨i,one,two⟩ := (meets_iff_covers kept window).mp met
      exact ⟨i,two,by exact_mod_cast (full i).mp ⟨stretch,member,(cut_covers.mp one).1⟩⟩
    · cases shown
  · rintro ⟨i,covers,load⟩
    obtain ⟨stretch,member,reaches⟩ := (full i).mpr (by exact_mod_cast load)
    have ranged : Covers (midnight fromDate,midnight (toDate+1)) i :=
      ⟨le_trans inside.1 covers.1,lt_of_lt_of_le covers.2 inside.2⟩
    have both := cut_covers.mpr ⟨reaches,ranged⟩
    refine ⟨_,List.mem_filterMap.mpr ⟨stretch,member,if_pos (lt_of_le_of_lt both.1 both.2)⟩,?_⟩
    rw [bounds_stretchInterval]
    exact covers_meets both covers

end ChronosLedger
