import Mathlib.Data.List.Sort
import Mathlib.Data.List.Dedup
import Mathlib.Logic.Function.Basic
import ChronosLedger.Library.Runs
import ChronosLedger.Library.Feeds
import ChronosLedger.Tables

namespace ChronosLedger.ChangeFeed

inductive EntityKind where
  | resource | reservation
  deriving DecidableEq, Repr

inductive ChangeKind where
  | created | updated
  deriving DecidableEq, Repr

abbrev Entity := EntityKind × Nat

structure ChangeMarker where
  id : Nat
  organizationId : String
  entityKind : EntityKind
  entityId : Nat
  changeKind : ChangeKind
  at_ : Int
  deriving DecidableEq, Repr

def ChangeMarker.entity (m : ChangeMarker) : Entity := (m.entityKind,m.entityId)

-- The two tables the feed covers, with the columns that booking had no use for.
structure ResourceRow extends Resource where
  organizationId : String
  label : String
  userId : Option String
  latitude : Option Int
  longitude : Option Int
  altitudeTarget : Option Int
  deriving DecidableEq, Repr

structure ReservationRow extends Reservation where
  organizationId : String
  createdAt : Int
  cancelledAt : Option Int
  deriving DecidableEq, Repr

structure ReservationView where
  id : Nat
  resourceId : Nat
  resourceCode : String
  date : Int
  start : Time
  end_ : Time
  purpose : String
  quantity : Nat
  status : ReservationStatus
  requestedById : Option String
  idempotencyKey : String
  externalRef : Option String
  createdAt : Int
  cancelledAt : Option Int
  parentReservationId : Option Nat
  deriving DecidableEq, Repr

def reservationView (reservation : ReservationRow) (resource : ResourceRow) : ReservationView where
  id := reservation.id
  resourceId := resource.id
  resourceCode := resource.code
  date := reservation.reservedDate
  start := reservation.timeWindowStart
  end_ := reservation.timeWindowEnd
  purpose := reservation.purpose
  quantity := reservation.quantity
  status := reservation.status
  requestedById := reservation.requestedById
  idempotencyKey := reservation.idempotencyKey
  externalRef := reservation.externalRef
  createdAt := reservation.createdAt
  cancelledAt := reservation.cancelledAt
  parentReservationId := reservation.parentReservationId

inductive Row where
  | resource (row : ResourceRow)
  | reservation (view : ReservationView)
  deriving DecidableEq, Repr

def resourceAt (resources : List ResourceRow) (id : Nat) : Option ResourceRow := resources.find? (fun r => r.id = id)
def reservationAt (reservations : List ReservationRow) (id : Nat) : Option ReservationRow := reservations.find? (fun r => r.id = id)

-- The field is the foreign key of a reservation.
structure FeedTables where
  resources : List ResourceRow
  reservations : List ReservationRow
  markers : List ChangeMarker
  linked : ∀ held ∈ reservations, (resourceAt resources held.resourceId).isSome

-- An insert, or an update of the row with that id.
def put {α : Type} (id : α → Nat) (rows : List α) (row : α) : List α :=
  if (rows.find? (fun r => id r = id row)).isSome then rows.map (fun r => if id r = id row then row else r) else rows ++ [row]

theorem find_replaced {α : Type} {id : α → Nat} (rows : List α) (row : α) {other : Nat} (apart : id row ≠ other) :
    (rows.map (fun r => if id r = id row then row else r)).find? (fun r => id r = other) = rows.find? (fun r => id r = other) := by
  induction rows with
  | nil => rfl
  | cons r rest ih =>
    rw [List.map_cons,List.find?_cons,List.find?_cons,ih]
    by_cases same : id r = id row
    · have other_ : id r ≠ other := fun equal => apart (same.symm.trans equal)
      simp [same,apart]
    · rw [if_neg same]

theorem find_put {α : Type} (id : α → Nat) (rows : List α) (row : α) (other : Nat) :
    (put id rows row).find? (fun r => id r = other) = if id row = other then some row else rows.find? (fun r => id r = other) := by
  unfold put
  split
  · rename_i there
    split
    · rename_i asked
      subst asked
      induction rows with
      | nil => cases there
      | cons r rest ih =>
        rw [List.map_cons,List.find?_cons]
        by_cases same : id r = id row
        · simp [same]
        · rw [List.find?_cons] at there
          simp only [same,decide_false] at there
          simpa [same] using ih there
    · rename_i apart
      exact find_replaced rows row apart
  · rename_i missing
    rw [List.find?_append]
    split
    · rename_i asked
      subst asked
      have none_ : rows.find? (fun r => id r = id row) = none := by simpa using missing
      rw [none_]
      simp
    · rename_i apart
      simp [apart]

theorem mem_put {α : Type} {id : α → Nat} {rows : List α} {row r : α} (member : r ∈ put id rows row) : r = row ∨ r ∈ rows := by
  unfold put at member
  split at member
  · obtain ⟨before,there,equal⟩ := List.mem_map.mp member
    split at equal
    · exact .inl equal.symm
    · exact .inr (equal ▸ there)
  · rcases List.mem_append.mp member with old | new
    · exact .inr old
    · exact .inl (List.mem_singleton.mp new)

theorem linked_resource {resources : List ResourceRow} {row : ResourceRow} {id : Nat} (there : (resourceAt resources id).isSome) :
    (resourceAt (put (fun r => r.id) resources row) id).isSome := by
  unfold resourceAt at there ⊢
  rw [find_put (fun r : ResourceRow => r.id)]
  split
  · rfl
  · exact there

def FeedTables.putResource (t : FeedTables) (row : ResourceRow) : FeedTables :=
  {t with resources := put (fun r => r.id) t.resources row,linked := fun held member => linked_resource (t.linked held member)}

def FeedTables.putReservation (t : FeedTables) (row : ReservationRow) (there : (resourceAt t.resources row.resourceId).isSome) : FeedTables :=
  {t with
    reservations := put (fun r => r.id) t.reservations row
    linked := by
      intro held member
      rcases mem_put member with rfl | old
      · exact there
      · exact t.linked held old}

-- record: the marker of a change, in the transaction that changes the row. Its
-- id is the next of a sequence, of which a rolled back insert may have used some.
def FeedTables.record (t : FeedTables) (m : ChangeMarker) : FeedTables := {t with markers := t.markers ++ [m]}

-- What the routes that record do to a row: they insert it, or they update it and
-- leave its organization alone, the code of a resource and the resource of a
-- reservation with it.
inductive RowChange where
  | resource (row : ResourceRow) (changeKind : ChangeKind)
  | reservation (row : ReservationRow) (changeKind : ChangeKind)
  deriving DecidableEq, Repr

def allowedResource (before : Option ResourceRow) (row : ResourceRow) : ChangeKind → Bool
  | .created => before.isNone
  | .updated => before.any (fun old => old.code = row.code ∧ old.organizationId = row.organizationId)

def allowedReservation (before : Option ReservationRow) (row : ReservationRow) : ChangeKind → Bool
  | .created => before.isNone
  | .updated => before.any (fun old => old.resourceId = row.resourceId ∧ old.organizationId = row.organizationId)

def latestMarkerId (markers : List ChangeMarker) : Nat := Feeds.latest ChangeMarker.id markers

def change (t : FeedTables) (id : Nat) (at_ : Int) : RowChange → Option FeedTables
  | .resource row kind =>
    if latestMarkerId t.markers < id ∧ allowedResource (resourceAt t.resources row.id) row kind = true then
      some ((t.putResource row).record ⟨id,row.organizationId,.resource,row.id,kind,at_⟩)
    else none
  | .reservation row kind =>
    if there : (resourceAt t.resources row.resourceId).isSome then
      if latestMarkerId t.markers < id ∧ allowedReservation (reservationAt t.reservations row.id) row kind = true then
        some ((t.putReservation row there).record ⟨id,row.organizationId,.reservation,row.id,kind,at_⟩)
      else none
    else none

-- current_rows, one statement for each table. A row that has gone is absent; a
-- reservation comes with its resource, which the foreign key keeps there.
def resourceRows (t : FeedTables) (keys : List Entity) : List (Entity × Option Row) :=
  (t.resources.filter (fun r => (EntityKind.resource,r.id) ∈ keys)).map (fun r => ((.resource,r.id),some (.resource r)))

def reservationRows (t : FeedTables) (keys : List Entity) : List (Entity × Option Row) :=
  (t.reservations.filter (fun r => (EntityKind.reservation,r.id) ∈ keys)).map (fun r =>
    ((.reservation,r.id),(resourceAt t.resources r.resourceId).map (fun resource => .reservation (reservationView r resource))))

def currentRows (t : FeedTables) (keys : List Entity) : List (Entity × Option Row) := resourceRows t keys ++ reservationRows t keys

def get (rows : List (Entity × Option Row)) (entity : Entity) : Option Row := (rows.lookup entity).join

-- What an entity holds now.
def currentRow (t : FeedTables) : Entity → Option Row
  | (.resource,id) => (resourceAt t.resources id).map .resource
  | (.reservation,id) => (reservationAt t.reservations id).bind (fun held =>
      (resourceAt t.resources held.resourceId).map (fun resource => .reservation (reservationView held resource)))

-- One group per row that changed after the cursor.
structure Group where
  entity : Entity
  newest : Nat
  oldest : Nat
  deriving DecidableEq, Repr

def groupOf (late : List ChangeMarker) (entity : Entity) : Group :=
  let markers := late.filter (fun m => m.entity = entity)
  ⟨entity,latestMarkerId markers,(markers.map ChangeMarker.id).foldr min (latestMarkerId markers)⟩

def allGroups (markers : List ChangeMarker) (since : Nat) : List Group :=
  let late := Feeds.beyond ChangeMarker.id since markers
  ((late.map ChangeMarker.entity).dedup.map (groupOf late)).insertionSort (fun a b => a.newest ≤ b.newest)

def markersOf (organization : String) (t : FeedTables) : List ChangeMarker := t.markers.filter (fun m => m.organizationId = organization)

structure Change where
  cursor : Nat
  entity : Entity
  changeKind : ChangeKind
  at_ : Int
  row : Option Row
  deriving DecidableEq, Repr

structure Page where
  changes : List Change
  nextCursor : Nat
  deriving DecidableEq, Repr

def wanted (groups : List Group) : List Nat := groups.map Group.newest ++ groups.map Group.oldest

def entryOf (markers : List ChangeMarker) (rows : List (Entity × Option Row)) (group : Group) : Option Change := do
  let oldest ← markers.find? (fun m => m.id = group.oldest)
  let newest ← markers.find? (fun m => m.id = group.newest)
  pure ⟨group.newest,group.entity,oldest.changeKind,newest.at_,get rows group.entity⟩

def nextCursor (since : Nat) (changes : List Change) : Nat := (changes.getLast?.map Change.cursor).getD since

-- Where a poll of list_changes stands, statement by statement.
inductive Poll where
  | idle
  | grouped (groups : List Group)
  | marked (groups : List Group) (markers : List ChangeMarker)
  | roomed (groups : List Group) (markers : List ChangeMarker) (rows : List (Entity × Option Row))
  | answered (page : Page)
  deriving DecidableEq, Repr

-- The tables and a consumer of one organization's feed, its cursor and copies,
-- and the pages it was answered.
structure Consumer where
  tables : FeedTables
  cursor : Nat
  copies : Entity → Option Row
  poll : Poll
  pages : List Page

inductive Operation where
  | change (id : Nat) (at_ : Int) (change : RowChange)
  | ask (limit : Nat)
  | readMarkers
  | readResources
  | readReservations
  | receive
  | giveUp
  deriving DecidableEq, Repr

def apply (copies : Entity → Option Row) (changes : List Change) : Entity → Option Row :=
  changes.foldl (fun copies change => Function.update copies change.entity change.row) copies

def step (organization : String) (s : Consumer) : Operation → Option Consumer
  | .change id at_ row => (change s.tables id at_ row).map (fun tables => {s with tables := tables})
  | .ask limit =>
    if s.poll = .idle ∧ 1 ≤ limit then
      match (allGroups (markersOf organization s.tables) s.cursor).take limit with
      | [] => some {s with pages := s.pages ++ [⟨[],s.cursor⟩]}
      | groups => some {s with poll := .grouped groups}
    else none
  | .readMarkers =>
    match s.poll with
    | .grouped groups =>
      some {s with poll := .marked groups ((markersOf organization s.tables).filter (fun m => m.id ∈ wanted groups))}
    | _ => none
  | .readResources =>
    match s.poll with
    | .marked groups markers => some {s with poll := .roomed groups markers (resourceRows s.tables (groups.map Group.entity))}
    | _ => none
  | .readReservations =>
    match s.poll with
    | .roomed groups markers rows => do
      let changes ← groups.mapM (entryOf markers (rows ++ reservationRows s.tables (groups.map Group.entity)))
      pure {s with poll := .answered ⟨changes,nextCursor s.cursor changes⟩}
    | _ => none
  | .receive =>
    match s.poll with
    | .answered page =>
      some {s with
        poll := .idle
        cursor := page.nextCursor
        copies := apply s.copies page.changes
        pages := s.pages ++ [page]}
    | _ => none
  | .giveUp => some {s with poll := .idle}

abbrev Steps (organization : String) : Consumer → Operation → Consumer → Prop := Runs.Acts (step organization)

-- Rows there may be from before the feed was switched on, but no marker.
def Consumer.start (resources : List ResourceRow) (reservations : List ReservationRow)
    (linked : ∀ held ∈ reservations, (resourceAt resources held.resourceId).isSome) : Consumer :=
  ⟨⟨resources,reservations,[],linked⟩,0,fun _ => none,.idle,[]⟩

end ChronosLedger.ChangeFeed
