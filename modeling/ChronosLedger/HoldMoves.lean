import Mathlib.Logic.Relation
import ChronosLedger.BookingAgreement
import ChronosLedger.RequirementWalk
import ChronosLedger.Library.Runs

namespace ChronosLedger
open Spans

-- What the rules of a mode ask of some holds, each other aside from nothing.
def FitsMode (mode : ResourceMode) (capacity : Nat) (holds : List Reservation) : Prop :=
  (mode = .exclusive → (∀ held ∈ holds, held.quantity = 1) ∧ holds.Pairwise (fun a b => ¬ Meets (heldSpan a) (heldSpan b))) ∧
  (mode = .pooled → ∀ i, Levels.load (holds.map heldTaking) i ≤ capacity)

theorem FitsMode.part {mode : ResourceMode} {capacity : Nat} {one two : List Reservation} (fits : FitsMode mode capacity two)
    (part : one.Sublist two) : FitsMode mode capacity one := by
  refine ⟨fun exclusive => ?_,fun pooled i => ?_⟩
  · obtain ⟨single,apart⟩ := fits.1 exclusive
    exact ⟨fun held member => single held (part.subset member),apart.sublist part⟩
  · exact le_trans (Levels.load_le_of_sublist (part.map heldTaking) i) (fits.2 pooled i)

-- The holds of a resource that can still matter: dated yesterday or later.
def toCome (db : Database) (resourceId : Nat) : List Reservation :=
  (heldOn db resourceId).filter (fun held => db.orgToday-1 ≤ held.reservedDate)

theorem mem_toCome {db : Database} {resourceId : Nat} {held : Reservation} :
    held ∈ toCome db resourceId ↔ held ∈ heldOn db resourceId ∧ db.orgToday-1 ≤ held.reservedDate := by
  simp [toCome]

structure Fits (db : Database) : Prop where
  mode : ∀ resource ∈ db.resources, ∀ held ∈ toCome db resource.id, held.mode = resource.mode
  rules : ∀ resource ∈ db.resources, FitsMode resource.mode (resource.capacity.getD 0) (toCome db resource.id)

structure Keyed (db : Database) : Prop where
  resources : (db.resources.map Resource.id).Nodup
  reservations : (db.reservations.map Reservation.id).Nodup

-- A row that the checks of a booking let onto a resource.
structure Bookable (cal : Recurrence) (db : Database) (resource : Resource) (row : Reservation) : Prop where
  stored : resource ∈ db.resources
  on : row.resourceId = resource.id
  mode : row.mode = resource.mode
  status : row.status = .held
  fresh : row.id ∉ db.reservations.map Reservation.id
  single : resource.mode ≠ .pooled → row.quantity = 1
  timetable : resource.mode ≠ .shared → ¬ TimetableMeets cal db (some resource.id) (heldSpan row)
  holds : resource.mode = .exclusive → ¬ HoldMeets db resource.id (heldSpan row)
  pool : resource.mode = .pooled → ∀ i, Covers (heldSpan row) i →
    heldLoad db resource.id i+row.quantity ≤ resource.capacity.getD 0

-- The change of a resource that its bookings still to come go along with.
structure Refit (cal : Recurrence) (db : Database) (resource updated : Resource) : Prop where
  stored : resource ∈ db.resources
  same : updated.id = resource.id
  rules : updated.mode ≠ resource.mode ∨ updated.mode = .pooled ∧ updated.capacity ≠ resource.capacity →
    FitsMode updated.mode (updated.capacity.getD 0) (toCome db resource.id)
  timetable : updated.mode ≠ resource.mode → updated.mode ≠ .shared → ∀ held ∈ toCome db resource.id,
    ¬ TimetableMeets cal db (some resource.id) (heldSpan held)

def book (db : Database) (row : Reservation) : Database := {db with reservations := db.reservations ++ [row]}

def release (db : Database) (gone : Reservation → Bool) : Database :=
  {db with reservations := db.reservations.map (fun r => if gone r then cancelled r else r)}

def refit (db : Database) (updated : Resource) (toCome : List Reservation) : Database :=
  {db with
    resources := db.resources.map (fun r => if r.id = updated.id then updated else r)
    reservations := db.reservations.map (fun r => if r ∈ toCome then writeMode updated.mode r else r)}

def advance (db : Database) (days : Nat) : Database := {db with orgToday := db.orgToday+days}

-- All that bookings, cancellations and changes of a resource can do to the
-- database, each with what its checks established.
inductive HoldMove (cal : Recurrence) (db : Database) : Database → Prop where
  | book {resource : Resource} {row : Reservation} (bookable : Bookable cal db resource row) : HoldMove cal db (book db row)
  | release (gone : Reservation → Bool) : HoldMove cal db (release db gone)
  | refit {resource updated : Resource} (fits : Refit cal db resource updated) :
      HoldMove cal db (refit db updated (if updated.mode = resource.mode then [] else toCome db resource.id))
  | advance (days : Nat) : HoldMove cal db (advance db days)

abbrev HoldMoves (cal : Recurrence) : Database → Database → Prop := Relation.ReflTransGen (HoldMove cal)

theorem heldOn_book (db : Database) (row : Reservation) (resourceId : Nat) :
    heldOn (book db row) resourceId = heldOn db resourceId ++ heldOn {db with reservations := [row]} resourceId := by
  simp [heldOn,book]

theorem heldOn_release (db : Database) (gone : Reservation → Bool) (resourceId : Nat) :
    heldOn (release db gone) resourceId = (heldOn db resourceId).filter (fun held => !gone held) := by
  have kept : db.reservations.filter ((fun held => decide (held.resourceId = resourceId ∧ held.status = .held)) ∘
      (fun r => if gone r then cancelled r else r)) = (heldOn db resourceId).filter (fun held => !gone held) := by
    rw [heldOn,List.filter_filter]
    apply List.filter_congr
    intro row _
    cases away : gone row <;> simp [away,cancelled]
  rw [heldOn,ChronosLedger.release,List.filter_map,kept]
  refine (List.map_congr_left (fun row member => ?_)).trans (List.map_id _)
  have stays := (List.mem_filter.mp member).2
  simp only [Bool.not_eq_true'] at stays
  simp [stays]

theorem heldOn_refit (db : Database) (updated : Resource) (list : List Reservation) (resourceId : Nat) :
    heldOn (refit db updated list) resourceId = (heldOn db resourceId).map (fun r => if r ∈ list then writeMode updated.mode r else r) := by
  simp only [heldOn,refit,List.filter_map]
  congr 1
  apply List.filter_congr
  intro row _
  simp only [Function.comp_apply]
  split <;> rfl

theorem load_writeMode (mode : ResourceMode) (list rows : List Reservation) (i : Int) :
    Levels.load ((rows.map (fun r => if r ∈ list then writeMode mode r else r)).map heldTaking) i =
      Levels.load (rows.map heldTaking) i := by
  congr 1
  rw [List.map_map]
  apply List.map_congr_left
  intro row _
  simp only [Function.comp_apply]
  split <;> rfl

theorem FitsMode.writeMode {mode written : ResourceMode} {capacity : Nat} {holds list : List Reservation}
    (fits : FitsMode mode capacity holds) :
    FitsMode mode capacity (holds.map (fun r => if r ∈ list then writeMode written r else r)) := by
  have span : ∀ r : Reservation, heldSpan (if r ∈ list then ChronosLedger.writeMode written r else r) = heldSpan r := by
    intro r; split <;> rfl
  have units : ∀ r : Reservation, (if r ∈ list then ChronosLedger.writeMode written r else r).quantity = r.quantity := by
    intro r; split <;> rfl
  refine ⟨fun exclusive => ⟨?_,?_⟩,fun pooled i => ?_⟩
  · intro held member
    obtain ⟨r,old,rfl⟩ := List.mem_map.mp member
    rw [units]
    exact (fits.1 exclusive).1 r old
  · rw [List.pairwise_map]
    exact (fits.1 exclusive).2.imp (fun apart => by rwa [span,span])
  · rw [load_writeMode]
    exact fits.2 pooled i

theorem toCome_load (db : Database) (resourceId : Nat) (i : Int) :
    Levels.load ((toCome db resourceId).map heldTaking) i ≤ heldLoad db resourceId i :=
  Levels.load_le_of_sublist (List.filter_sublist.map heldTaking) i

theorem Keyed.preserved {cal : Recurrence} {db next : Database} (keyed : Keyed db) (move : HoldMove cal db next) : Keyed next := by
  cases move with
  | book bookable =>
    refine ⟨keyed.resources,?_⟩
    simp only [ChronosLedger.book,List.map_append,List.map_cons,List.map_nil]
    exact List.nodup_append.mpr ⟨keyed.reservations,by simp,by
      intro a old b new equal
      simp only [List.mem_singleton] at new
      subst new; subst equal
      exact bookable.fresh old⟩
  | release gone =>
    refine ⟨keyed.resources,?_⟩
    have ids : (ChronosLedger.release db gone).reservations.map Reservation.id = db.reservations.map Reservation.id := by
      simp only [ChronosLedger.release,List.map_map]
      apply List.map_congr_left
      intro row _
      simp only [Function.comp_apply]
      split <;> rfl
    rw [ids]
    exact keyed.reservations
  | refit fits =>
    constructor
    · have ids : ∀ updated list, (ChronosLedger.refit db updated list).resources.map Resource.id = db.resources.map Resource.id := by
        intro updated list
        simp only [ChronosLedger.refit,List.map_map]
        apply List.map_congr_left
        intro row _
        simp only [Function.comp_apply]
        split
        · rename_i same; exact same.symm
        · rfl
      rw [ids]
      exact keyed.resources
    · have ids : ∀ updated list, (ChronosLedger.refit db updated list).reservations.map Reservation.id = db.reservations.map Reservation.id := by
        intro updated list
        simp only [ChronosLedger.refit,List.map_map]
        apply List.map_congr_left
        intro row _
        simp only [Function.comp_apply]
        split <;> rfl
      rw [ids]
      exact keyed.reservations
  | advance days => exact ⟨keyed.resources,keyed.reservations⟩

-- A booking keeps every resource within its rules: the checks looked at all the
-- holds on record, of which those to come are part.
theorem Fits.book {cal : Recurrence} {db : Database} {resource : Resource} {row : Reservation} (fits : Fits db) (keyed : Keyed db)
    (bookable : Bookable cal db resource row) : Fits (book db row) := by
  have listed : ∀ id, toCome (ChronosLedger.book db row) id = toCome db id ++
      (if row.resourceId = id ∧ db.orgToday-1 ≤ row.reservedDate then [row] else []) := by
    intro id
    have today : (ChronosLedger.book db row).orgToday = db.orgToday := rfl
    simp only [toCome,heldOn_book,List.filter_append,today]
    congr 1
    by_cases here : row.resourceId = id <;> by_cases late : db.orgToday-1 ≤ row.reservedDate <;>
      simp only [heldOn,here,late,bookable.status,decide_true,decide_false,and_true,and_false,if_true,if_false,
        List.filter_cons,List.filter_nil,Bool.false_eq_true]
  have only : ∀ other ∈ db.resources, row.resourceId = other.id → other = resource := fun other stored same =>
    same_of_key keyed.resources stored bookable.stored (same.symm.trans bookable.on)
  constructor
  · intro other stored held member
    rw [listed,List.mem_append] at member
    rcases member with old | new
    · exact fits.mode other stored held old
    · split at new
      · rename_i here
        cases List.mem_singleton.mp new
        cases only other stored here.1
        exact bookable.mode
      · cases new
  · intro other stored
    rw [listed]
    split
    · rename_i here
      cases only other stored here.1
      refine ⟨fun exclusive => ⟨?_,?_⟩,fun pooled i => ?_⟩
      · intro held member
        rcases List.mem_append.mp member with old | new
        · exact ((fits.rules _ stored).1 exclusive).1 held old
        · cases List.mem_singleton.mp new
          exact bookable.single (by simp [exclusive])
      · refine List.pairwise_append.mpr ⟨((fits.rules _ stored).1 exclusive).2,by simp,?_⟩
        intro held old new member met
        cases List.mem_singleton.mp member
        obtain ⟨stored',on,taken⟩ := mem_heldOn.mp (mem_toCome.mp old).1
        exact bookable.holds exclusive ⟨held,stored',on,taken,met⟩
      · rw [List.map_append,Levels.load_append]
        by_cases covers : Covers (heldSpan row) i
        · have room := bookable.pool pooled i covers
          have part := toCome_load db resource.id i
          simp only [List.map_cons,List.map_nil,Levels.load,heldTaking,covers,if_true,List.sum_cons,List.sum_nil] at part ⊢
          simp only [heldLoad,Levels.load] at room part
          omega
        · have old := (fits.rules _ stored).2 pooled i
          simpa [Levels.load,heldTaking,covers] using old
    · rw [List.append_nil]
      exact fits.rules other stored

theorem Fits.release {db : Database} (fits : Fits db) (gone : Reservation → Bool) : Fits (release db gone) := by
  have part : ∀ id, (toCome (ChronosLedger.release db gone) id).Sublist (toCome db id) := by
    intro id
    simp only [toCome,heldOn_release]
    exact List.filter_sublist.filter _
  exact ⟨fun resource stored held member => fits.mode resource stored held ((part _).subset member),
    fun resource stored => (fits.rules resource stored).part (part _)⟩

theorem Fits.advance {db : Database} (fits : Fits db) (days : Nat) : Fits (advance db days) := by
  have part : ∀ id, (toCome (ChronosLedger.advance db days) id).Sublist (toCome db id) := by
    intro id
    refine List.monotone_filter_right _ (fun held late => ?_)
    have today : (ChronosLedger.advance db days).orgToday = db.orgToday+days := rfl
    simp only [decide_eq_true_eq,today] at late ⊢
    omega
  exact ⟨fun resource stored held member => fits.mode resource stored held ((part _).subset member),
    fun resource stored => (fits.rules resource stored).part (part _)⟩

theorem toCome_refit (db : Database) (updated : Resource) (list : List Reservation) (id : Nat) :
    toCome (refit db updated list) id = (toCome db id).map (fun r => if r ∈ list then writeMode updated.mode r else r) := by
  have today : (refit db updated list).orgToday = db.orgToday := rfl
  simp only [toCome,heldOn_refit,List.filter_map,today]
  congr 1
  apply List.filter_congr
  intro row _
  simp only [Function.comp_apply]
  split <;> rfl

theorem mem_refit {db : Database} {updated other : Resource} {list : List Reservation}
    (member : other ∈ (refit db updated list).resources) : other = updated ∨ other ∈ db.resources ∧ other.id ≠ updated.id := by
  obtain ⟨old,stored,rfl⟩ := List.mem_map.mp member
  split
  · exact .inl rfl
  · rename_i different
    exact .inr ⟨stored,different⟩

theorem Fits.refit {cal : Recurrence} {db : Database} {resource updated : Resource} (fits : Fits db)
    (change : Refit cal db resource updated) :
    Fits (refit db updated (if updated.mode = resource.mode then [] else toCome db resource.id)) := by
  have elsewhere : ∀ other : Resource, other.id ≠ updated.id → ∀ held ∈ toCome db other.id,
      held ∉ (if updated.mode = resource.mode then [] else toCome db resource.id) := by
    intro other different held here there
    split at there
    · cases there
    · have left := (mem_heldOn.mp (mem_toCome.mp here).1).2.1
      have right := (mem_heldOn.mp (mem_toCome.mp there).1).2.1
      exact different (left.symm.trans (right.trans change.same.symm))
  constructor
  · intro other member held listed
    rw [toCome_refit] at listed
    obtain ⟨row,old,rfl⟩ := List.mem_map.mp listed
    rcases mem_refit member with equal | ⟨stored,different⟩
    · rw [equal,change.same] at old
      rw [equal]
      by_cases same : updated.mode = resource.mode
      · simpa [same] using fits.mode resource change.stored row old
      · simp [same,old,writeMode]
    · rw [if_neg (elsewhere other different row old)]
      exact fits.mode other stored row old
  · intro other member
    rw [toCome_refit]
    refine FitsMode.writeMode ?_
    rcases mem_refit member with equal | ⟨stored,_⟩
    · rw [equal,change.same]
      by_cases changes : updated.mode ≠ resource.mode ∨ updated.mode = .pooled ∧ updated.capacity ≠ resource.capacity
      · exact change.rules changes
      · simp only [not_or,not_and,not_not] at changes
        have old := fits.rules resource change.stored
        refine ⟨fun exclusive => old.1 (changes.1 ▸ exclusive),fun pooled => ?_⟩
        rw [changes.2 pooled]
        exact old.2 (changes.1 ▸ pooled)
    · exact fits.rules other stored

theorem Fits.preserved {cal : Recurrence} {db next : Database} (fits : Fits db) (keyed : Keyed db) (move : HoldMove cal db next) :
    Fits next := by
  cases move with
  | book bookable => exact fits.book keyed bookable
  | release gone => exact fits.release gone
  | refit change => exact fits.refit change
  | advance days => exact fits.advance days

end ChronosLedger
