import Mathlib.Tactic.Common
import ChronosLedger.ChangeFeed

namespace ChronosLedger.ChangeFeed

variable {organization : String} {t later : FeedTables}

def owner (t : FeedTables) : Entity → Option String
  | (.resource,id) => (resourceAt t.resources id).map ResourceRow.organizationId
  | (.reservation,id) => (reservationAt t.reservations id).map ReservationRow.organizationId

-- What a change does: one marker more, under an id above the others, and no row
-- but the one it names reads otherwise.
structure Changed (t : FeedTables) (m : ChangeMarker) (later : FeedTables) : Prop where
  markers : later.markers = t.markers ++ [m]
  above : latestMarkerId t.markers < m.id
  elsewhere : ∀ entity, entity ≠ m.entity → currentRow later entity = currentRow t entity
  before : ∀ found ∈ owner t m.entity, found = m.organizationId
  owners : ∀ entity, owner later entity = if entity = m.entity then some m.organizationId else owner t entity

theorem resourceAt_put (t : FeedTables) (row : ResourceRow) (id : Nat) :
    resourceAt (t.putResource row).resources id = if row.id = id then some row else resourceAt t.resources id :=
  find_put (fun r : ResourceRow => r.id) t.resources row id

theorem reservationAt_put (t : FeedTables) (row : ReservationRow) (there : (resourceAt t.resources row.resourceId).isSome) (id : Nat) :
    reservationAt (t.putReservation row there).reservations id = if row.id = id then some row else reservationAt t.reservations id :=
  find_put (fun r : ReservationRow => r.id) t.reservations row id

theorem resourceAt_id {resources : List ResourceRow} {row : ResourceRow} {id : Nat} (found : resourceAt resources id = some row) : row.id = id := by
  unfold resourceAt at found
  simpa using List.find?_some found

theorem reservationAt_mem {reservations : List ReservationRow} {row : ReservationRow} {id : Nat}
    (found : reservationAt reservations id = some row) : row ∈ reservations := List.mem_of_find?_eq_some found

-- The view of a reservation names its resource by id and code, which no change
-- of the resource touches.
theorem view_put {row : ResourceRow} {kind : ChangeKind} (allowed : allowedResource (resourceAt t.resources row.id) row kind = true)
    {held : ReservationRow} (member : held ∈ t.reservations) :
    (resourceAt (t.putResource row).resources held.resourceId).map (fun resource => Row.reservation (reservationView held resource)) =
      (resourceAt t.resources held.resourceId).map (fun resource => Row.reservation (reservationView held resource)) := by
  rw [resourceAt_put]
  split
  · rename_i same
    obtain ⟨old,found⟩ := Option.isSome_iff_exists.mp (t.linked held member)
    rw [← same] at found ⊢
    rw [found] at allowed ⊢
    cases kind with
    | created => cases allowed
    | updated =>
      have kept : old.code = row.code ∧ old.organizationId = row.organizationId := by simpa [allowedResource] using allowed
      have id := resourceAt_id found
      simp [reservationView,kept.1,id]
  · rfl

theorem putResource_changed {row : ResourceRow} {kind : ChangeKind} {id : Nat} {at_ : Int} (above : latestMarkerId t.markers < id)
    (allowed : allowedResource (resourceAt t.resources row.id) row kind = true) :
    Changed t ⟨id,row.organizationId,.resource,row.id,kind,at_⟩
      ((t.putResource row).record ⟨id,row.organizationId,.resource,row.id,kind,at_⟩) := by
  refine ⟨rfl,above,?_,?_,?_⟩
  · intro entity apart
    obtain ⟨entityKind,other⟩ := entity
    cases entityKind with
    | resource =>
      have apart : row.id ≠ other := fun same => apart (by rw [ChangeMarker.entity,same])
      change (resourceAt (t.putResource row).resources other).map Row.resource = (resourceAt t.resources other).map Row.resource
      rw [resourceAt_put,if_neg apart]
    | reservation =>
      change (reservationAt t.reservations other).bind _ = (reservationAt t.reservations other).bind _
      cases found : reservationAt t.reservations other with
      | none => rfl
      | some held => exact view_put allowed (reservationAt_mem found)
  · intro found there
    change found ∈ (resourceAt t.resources row.id).map ResourceRow.organizationId at there
    cases old : resourceAt t.resources row.id with
    | none =>
      rw [old] at there
      cases there
    | some old_ =>
      rw [old] at there allowed
      cases kind with
      | created => cases allowed
      | updated =>
        have kept : old_.code = row.code ∧ old_.organizationId = row.organizationId := by simpa [allowedResource] using allowed
        exact (Option.some.inj there).symm.trans kept.2
  · intro entity
    obtain ⟨entityKind,other⟩ := entity
    cases entityKind with
    | resource =>
      change (resourceAt (t.putResource row).resources other).map ResourceRow.organizationId = _
      rw [resourceAt_put]
      by_cases same : row.id = other
      · rw [if_pos same,if_pos (by rw [ChangeMarker.entity,same])]
        rfl
      · rw [if_neg same,if_neg (by
          intro equal
          exact same (congrArg Prod.snd equal).symm)]
        rfl
    | reservation =>
      rw [if_neg (by intro equal; cases congrArg Prod.fst equal)]
      rfl

theorem putReservation_changed {row : ReservationRow} {kind : ChangeKind} {id : Nat} {at_ : Int} (above : latestMarkerId t.markers < id)
    (there : (resourceAt t.resources row.resourceId).isSome)
    (allowed : allowedReservation (reservationAt t.reservations row.id) row kind = true) :
    Changed t ⟨id,row.organizationId,.reservation,row.id,kind,at_⟩
      ((t.putReservation row there).record ⟨id,row.organizationId,.reservation,row.id,kind,at_⟩) := by
  refine ⟨rfl,above,?_,?_,?_⟩
  · intro entity apart
    obtain ⟨entityKind,other⟩ := entity
    cases entityKind with
    | resource => rfl
    | reservation =>
      have apart : row.id ≠ other := fun same => apart (by rw [ChangeMarker.entity,same])
      change (reservationAt (t.putReservation row there).reservations other).bind _ = (reservationAt t.reservations other).bind _
      rw [reservationAt_put,if_neg apart]
      rfl
  · intro found member
    change found ∈ (reservationAt t.reservations row.id).map ReservationRow.organizationId at member
    cases old : reservationAt t.reservations row.id with
    | none =>
      rw [old] at member
      cases member
    | some old_ =>
      rw [old] at member allowed
      cases kind with
      | created => cases allowed
      | updated =>
        have kept : old_.resourceId = row.resourceId ∧ old_.organizationId = row.organizationId := by
          simpa [allowedReservation] using allowed
        exact (Option.some.inj member).symm.trans kept.2
  · intro entity
    obtain ⟨entityKind,other⟩ := entity
    cases entityKind with
    | resource =>
      rw [if_neg (by intro equal; cases congrArg Prod.fst equal)]
      rfl
    | reservation =>
      change (reservationAt (t.putReservation row there).reservations other).map ReservationRow.organizationId = _
      rw [reservationAt_put]
      by_cases same : row.id = other
      · rw [if_pos same,if_pos (by rw [ChangeMarker.entity,same])]
        rfl
      · rw [if_neg same,if_neg (by
          intro equal
          exact same (congrArg Prod.snd equal).symm)]
        rfl

theorem change_changed {id : Nat} {at_ : Int} {row : RowChange} (changed : change t id at_ row = some later) :
    ∃ m, Changed t m later := by
  cases row with
  | resource row kind =>
    simp only [change,Option.ite_none_right_eq_some,Option.some.injEq] at changed
    obtain ⟨allowed,rfl⟩ := changed
    exact ⟨_,putResource_changed allowed.1 allowed.2⟩
  | reservation row kind =>
    dsimp only [change] at changed
    split at changed
    · rename_i there
      simp only [Option.ite_none_right_eq_some,Option.some.injEq] at changed
      obtain ⟨allowed,rfl⟩ := changed
      exact ⟨_,putReservation_changed allowed.1 there allowed.2⟩
    · cases changed

theorem mem_markersOf {m : ChangeMarker} : m ∈ markersOf organization t ↔ m ∈ t.markers ∧ m.organizationId = organization := by
  unfold markersOf
  rw [List.mem_filter,decide_eq_true_iff]

theorem Changed.mem {m other : ChangeMarker} (changed : Changed t m later) :
    other ∈ markersOf organization later ↔ other ∈ markersOf organization t ∨ other = m ∧ m.organizationId = organization := by
  rw [mem_markersOf,mem_markersOf,changed.markers,List.mem_append,List.mem_singleton]
  constructor
  · rintro ⟨old | rfl,own⟩
    · exact .inl ⟨old,own⟩
    · exact .inr ⟨rfl,own⟩
  · rintro (⟨old,own⟩ | ⟨rfl,own⟩)
    · exact ⟨.inl old,own⟩
    · exact ⟨.inr rfl,own⟩

theorem Changed.latest {m : ChangeMarker} (changed : Changed t m later) : latestMarkerId later.markers = m.id := by
  unfold latestMarkerId
  rw [changed.markers,Feeds.latest_append]
  exact Nat.max_eq_right (Nat.le_of_lt changed.above)

-- An entity of the organization whose row, as far as the bound goes, is the one held.
structure Knows (organization : String) (t : FeedTables) (bound : Nat) (entity : Entity) (held : Option Row) : Prop where
  own : owner t entity = some organization
  known : Feeds.Known ChangeMarker.id ChangeMarker.entity (markersOf organization t) (currentRow t) bound entity held

theorem Changed.owns {m : ChangeMarker} (changed : Changed t m later) {entity : Entity} (own : owner t entity = some organization) :
    owner later entity = some organization := by
  rw [changed.owners]
  split
  · rename_i same
    rw [changed.before organization (same ▸ own)]
  · exact own

theorem Knows.changed {bound : Nat} {entity : Entity} {held : Option Row} {m : ChangeMarker} (knows : Knows organization t bound entity held)
    (changed : Changed t m later) (reach : bound ≤ latestMarkerId t.markers) : Knows organization later bound entity held := by
  refine ⟨changed.owns knows.own,?_⟩
  by_cases own : m.organizationId = organization
  · have appended : markersOf organization later = markersOf organization t ++ [m] := by
      unfold markersOf
      rw [changed.markers,List.filter_append]
      simp [own]
    rw [appended]
    exact knows.known.change (Nat.lt_of_le_of_lt reach changed.above) changed.elsewhere
  · have apart : entity ≠ m.entity := by
      intro same
      exact own (changed.before organization (same ▸ knows.own)).symm
    have kept : markersOf organization later = markersOf organization t := by
      unfold markersOf
      rw [changed.markers,List.filter_append]
      simp [own]
    rcases knows.known with equal | beyond
    · exact .inl (equal.trans (changed.elsewhere entity apart).symm)
    · exact .inr (kept ▸ beyond)

theorem Changed.knows {bound : Nat} {held : Option Row} {m : ChangeMarker} (changed : Changed t m later) (own : m.organizationId = organization)
    (above : bound < m.id) : Knows organization later bound m.entity held := by
  refine ⟨?_,.inr ⟨m,changed.mem.mpr (.inr ⟨rfl,own⟩),rfl,above⟩⟩
  rw [changed.owners,if_pos rfl,own]

theorem lookup_rows {α : Type} (rows : List α) (key : α → Entity) (value : α → Option Row) {keys : List Entity} {entity : Entity}
    (asked : entity ∈ keys) : ((rows.filter (fun r => key r ∈ keys)).map (fun r => (key r,value r))).lookup entity =
      (rows.find? (fun r => key r = entity)).map value := by
  induction rows with
  | nil => rfl
  | cons r rest ih =>
    rw [List.filter_cons,List.find?_cons]
    by_cases same : key r = entity
    · subst same
      simp [asked]
    · have other : (entity == key r) = false := by simpa using Ne.symm same
      split
      · rw [List.map_cons,List.lookup_cons,other]
        simpa [same] using ih
      · simpa [same] using ih

theorem get_resource {keys : List Entity} {id : Nat} (asked : (EntityKind.resource,id) ∈ keys) :
    get (resourceRows t keys) (.resource,id) = currentRow t (.resource,id) := by
  unfold get resourceRows
  rw [lookup_rows t.resources (fun r => (EntityKind.resource,r.id)) (fun r => some (.resource r)) asked]
  simp only [Prod.mk.injEq,true_and,currentRow,resourceAt]
  cases t.resources.find? (fun r => decide (r.id = id)) <;> rfl

theorem get_reservation {keys : List Entity} {id : Nat} (asked : (EntityKind.reservation,id) ∈ keys) :
    get (reservationRows t keys) (.reservation,id) = currentRow t (.reservation,id) := by
  unfold get reservationRows
  rw [lookup_rows t.reservations (fun r => (EntityKind.reservation,r.id)) _ asked]
  simp only [Prod.mk.injEq,true_and,currentRow,reservationAt]
  cases t.reservations.find? (fun r => decide (r.id = id)) <;> rfl

theorem lookup_kind {rows : List (Entity × Option Row)} {kind : EntityKind} {entity : Entity} (kinds : ∀ row ∈ rows, row.1.1 = kind)
    (other : entity.1 ≠ kind) : rows.lookup entity = none := by
  induction rows with
  | nil => rfl
  | cons row rest ih =>
    have apart : (entity == row.1) = false := by
      have apart : entity ≠ row.1 := fun same => other (same ▸ kinds row List.mem_cons_self)
      simpa using apart
    rw [List.lookup_cons,apart]
    exact ih (fun row member => kinds row (List.mem_cons_of_mem _ member))

theorem resourceRows_kind {keys : List Entity} : ∀ row ∈ resourceRows t keys, row.1.1 = .resource := by
  intro row member
  obtain ⟨_,_,rfl⟩ := List.mem_map.mp member
  rfl

theorem reservationRows_kind {keys : List Entity} : ∀ row ∈ reservationRows t keys, row.1.1 = .reservation := by
  intro row member
  obtain ⟨_,_,rfl⟩ := List.mem_map.mp member
  rfl

-- Read together the two statements give each row as it is.
theorem get_currentRows {keys : List Entity} {entity : Entity} (asked : entity ∈ keys) : get (currentRows t keys) entity = currentRow t entity := by
  obtain ⟨kind,id⟩ := entity
  unfold currentRows get
  rw [List.lookup_append]
  cases kind with
  | resource =>
    rw [lookup_kind reservationRows_kind (by simp),Option.or_none]
    exact get_resource asked
  | reservation =>
    rw [lookup_kind resourceRows_kind (by simp),Option.none_or]
    exact get_reservation asked

end ChronosLedger.ChangeFeed
