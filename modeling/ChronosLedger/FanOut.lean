import ChronosLedger.Webhooks
import ChronosLedger.FeedChanges

namespace ChronosLedger.Webhooks
open ChangeFeed

-- Fan-out without the sending: who reads the markers from where, and the letters
-- written about them.
structure Reader where
  id : Nat
  organizationId : String
  startCursor : Nat
  cursor : Nat
  crossings : List Crossing
  deriving DecidableEq, Repr

structure Letter where
  id : Nat
  readerId : Nat
  markerId : Nat
  entity : Entity
  payload : Payload
  deriving DecidableEq, Repr

structure Spread where
  tables : FeedTables
  readers : List Reader
  letters : List Letter
  nextReader : Nat
  nextLetter : Nat

def letterOf (tables : FeedTables) (readerId id : Nat) (m : ChangeMarker) : Letter :=
  ⟨id,readerId,m.id,m.entity,buildPayload m (currentRow tables m.entity)⟩

def Reader.cross (r : Reader) (last : ChangeMarker) (wanted : List EventType) : Reader :=
  {r with cursor := last.id,crossings := r.crossings ++ [⟨r.cursor,last.id,wanted⟩]}

def crossReaders (readers : List Reader) (id : Nat) (last : ChangeMarker) (wanted : List EventType) : List Reader :=
  readers.map (fun r => if r.id = id then r.cross last wanted else r)

def wantedOf (wanted : List EventType) (markers : List ChangeMarker) : List ChangeMarker :=
  markers.filter (fun m => wanted.contains (eventType m))

inductive SpreadMove (t : Spread) : Spread → Prop where
  | change {m : ChangeMarker} {later : FeedTables} (changed : Changed t.tables m later) : SpreadMove t {t with tables := later}
  | enter (organization : String) : SpreadMove t
      {t with
        readers := t.readers ++ [⟨t.nextReader,organization,latestMarkerId (markersOf organization t.tables),
          latestMarkerId (markersOf organization t.tables),[]⟩]
        nextReader := t.nextReader+1}
  | leave (id : Nat) : SpreadMove t
      {t with readers := t.readers.filter (fun r => r.id ≠ id),letters := t.letters.filter (fun l => l.readerId ≠ id)}
  | cross {r : Reader} {markers : List ChangeMarker} {last : ChangeMarker} (wanted : List EventType) (there : r ∈ t.readers)
      (page : markers <+: Feeds.beyond ChangeMarker.id r.cursor (markersOf r.organizationId t.tables)) (ends : markers.getLast? = some last) :
      SpreadMove t
        {t with
          readers := crossReaders t.readers r.id last wanted
          letters := t.letters ++ numbered (letterOf t.tables r.id) t.nextLetter (wantedOf wanted markers)
          nextLetter := t.nextLetter+(wantedOf wanted markers).length}

abbrev SpreadPath : Spread → Spread → Prop := Relation.ReflTransGen SpreadMove

-- The batches of a reader follow each other from the cursor it began with.
inductive Chained : Nat → List Crossing → Nat → Prop where
  | start (cursor : Nat) : Chained cursor [] cursor
  | next {start cursor : Nat} {crossings : List Crossing} (c : Crossing) (prior : Chained start crossings cursor) (since : c.since = cursor)
      (up : cursor < c.upTo) : Chained start (crossings ++ [c]) c.upTo

def Crossing.spans (c : Crossing) (id : Nat) : Prop := c.since < id ∧ id ≤ c.upTo

theorem Chained.bounds {start cursor : Nat} {crossings : List Crossing} (chained : Chained start crossings cursor) :
    start ≤ cursor ∧ ∀ c ∈ crossings, start ≤ c.since ∧ c.upTo ≤ cursor := by
  induction chained with
  | start => exact ⟨Nat.le_refl _,fun _ member => absurd member List.not_mem_nil⟩
  | next c prior since up ih =>
    refine ⟨Nat.le_trans ih.1 (Nat.le_of_lt up),?_⟩
    intro other member
    rcases List.mem_append.mp member with old | single
    · exact ⟨(ih.2 other old).1,Nat.le_trans (ih.2 other old).2 (Nat.le_of_lt up)⟩
    · cases List.mem_singleton.mp single
      exact ⟨since ▸ ih.1,Nat.le_refl _⟩

theorem Chained.covers {start cursor id : Nat} {crossings : List Crossing} (chained : Chained start crossings cursor) (after : start < id)
    (within : id ≤ cursor) : ∃ c ∈ crossings, c.spans id := by
  induction chained with
  | start => omega
  | next c prior since up ih =>
    rename_i cursor crossings
    rcases Nat.lt_or_ge cursor id with beyond | before
    · exact ⟨c,List.mem_append_right _ (List.mem_singleton_self c),since ▸ beyond,within⟩
    · obtain ⟨found,member,spans⟩ := ih before
      exact ⟨found,List.mem_append_left _ member,spans⟩

theorem Chained.one {start cursor id : Nat} {crossings : List Crossing} (chained : Chained start crossings cursor) {a b : Crossing}
    (one : a ∈ crossings) (two : b ∈ crossings) (spansOne : a.spans id) (spansTwo : b.spans id) : a = b := by
  induction chained with
  | start => cases one
  | next c prior since up ih =>
    rcases List.mem_append.mp one with oldOne | newOne
    · rcases List.mem_append.mp two with oldTwo | newTwo
      · exact ih oldOne oldTwo
      · cases List.mem_singleton.mp newTwo
        have before := (prior.bounds.2 a oldOne).2
        have after := spansTwo.1
        have within := spansOne.2
        omega
    · cases List.mem_singleton.mp newOne
      rcases List.mem_append.mp two with oldTwo | newTwo
      · have before := (prior.bounds.2 b oldTwo).2
        have after := spansOne.1
        have within := spansTwo.2
        omega
      · exact (List.mem_singleton.mp newTwo).symm

-- What there is of a reader: its batches lead to its cursor, and every marker of
-- its organization in one of them that was wanted there has its letter.
structure Served (t : Spread) (r : Reader) : Prop where
  below : r.id < t.nextReader
  chained : Chained r.startCursor r.crossings r.cursor
  reach : r.cursor ≤ latestMarkerId t.tables.markers
  stands : r.cursor = r.startCursor ∨ ∃ m ∈ markersOf r.organizationId t.tables, m.id = r.cursor
  complete : ∀ c ∈ r.crossings, ∀ m ∈ markersOf r.organizationId t.tables, c.spans m.id → c.wanted.contains (eventType m) = true →
    ∃ l ∈ t.letters, l.readerId = r.id ∧ l.markerId = m.id

-- A letter is about a marker of its reader's organization that was wanted in the
-- batch it came with, and its body is that row unless the row has changed since.
structure Due (tables : FeedTables) (r : Reader) (l : Letter) : Prop where
  about : ∃ m ∈ markersOf r.organizationId tables, l.markerId = m.id ∧ l.entity = m.entity ∧ l.payload.markerId = m.id ∧
    l.payload.entity = m.entity ∧ ∃ c ∈ r.crossings, c.spans m.id ∧ c.wanted.contains (eventType m) = true
  body : Knows r.organizationId tables l.markerId l.entity l.payload.row

structure Exact (t : Spread) : Prop where
  rising : Feeds.Rising ChangeMarker.id t.tables.markers
  owned : ∀ m ∈ t.tables.markers, owner t.tables m.entity = some m.organizationId
  distinct : (t.readers.map Reader.id).Nodup
  served : ∀ r ∈ t.readers, Served t r
  once : (t.letters.map (fun l => (l.readerId,l.markerId))).Nodup
  ids : (t.letters.map Letter.id).Nodup
  fresh : ∀ l ∈ t.letters, l.id < t.nextLetter
  due : ∀ l ∈ t.letters, ∃ r ∈ t.readers, r.id = l.readerId ∧ Due t.tables r l

variable {t next : Spread} {r : Reader} {l : Letter}

theorem latest_own (organization : String) (tables : FeedTables) :
    latestMarkerId (markersOf organization tables) ≤ latestMarkerId tables.markers := by
  by_cases empty : markersOf organization tables = []
  · rw [empty]
    exact Nat.zero_le _
  · obtain ⟨m,member,equal⟩ := Feeds.latest_mem ChangeMarker.id empty
    unfold latestMarkerId
    rw [← equal]
    exact Feeds.le_latest (mem_markersOf.mp member).1

theorem Due.changed {m : ChangeMarker} {later : FeedTables} (due : Due t.tables r l) (changed : Changed t.tables m later) : Due later r l := by
  obtain ⟨marker,member,about⟩ := due.about
  refine ⟨⟨marker,changed.mem.mpr (.inl member),about⟩,due.body.changed changed ?_⟩
  rw [about.1]
  exact Feeds.le_latest (mem_markersOf.mp member).1

theorem Exact.change {m : ChangeMarker} {later : FeedTables} (exact_ : Exact t) (changed : Changed t.tables m later) :
    Exact {t with tables := later} := by
  refine ⟨?_,?_,exact_.distinct,?_,exact_.once,exact_.ids,exact_.fresh,?_⟩
  · change Feeds.Rising ChangeMarker.id later.markers
    rw [changed.markers]
    exact exact_.rising.append changed.above
  · intro marker member
    change marker ∈ later.markers at member
    rw [changed.markers] at member
    rcases List.mem_append.mp member with old | new
    · exact changed.owns (exact_.owned marker old)
    · cases List.mem_singleton.mp new
      exact (changed.owners _).trans (if_pos rfl)
  · intro r member
    have served := exact_.served r member
    have above := Nat.lt_of_le_of_lt served.reach changed.above
    refine ⟨served.below,served.chained,?_,?_,?_⟩
    · change r.cursor ≤ latestMarkerId later.markers
      rw [changed.latest]
      exact Nat.le_of_lt above
    · rcases served.stands with begun | ⟨marker,there,equal⟩
      · exact .inl begun
      · exact .inr ⟨marker,changed.mem.mpr (.inl there),equal⟩
    · intro c crossed marker there spans wanted
      rcases changed.mem.mp there with old | ⟨rfl,_⟩
      · exact served.complete c crossed marker old spans wanted
      · have within := (served.chained.bounds.2 c crossed).2
        have upTo := spans.2
        omega
  · intro l member
    obtain ⟨r,there,same,due⟩ := exact_.due l member
    exact ⟨r,there,same,due.changed changed⟩

theorem nodup_append_fresh {α : Type} {xs : List α} {x : α} (nodup : xs.Nodup) (fresh : x ∉ xs) : (xs ++ [x]).Nodup := by
  apply List.nodup_append.mpr
  refine ⟨nodup,List.nodup_singleton x,?_⟩
  intro a member b single equal
  cases List.mem_singleton.mp single
  exact fresh (equal ▸ member)

theorem Exact.enter (exact_ : Exact t) (organization : String) : Exact {t with
    readers := t.readers ++ [⟨t.nextReader,organization,latestMarkerId (markersOf organization t.tables),
      latestMarkerId (markersOf organization t.tables),[]⟩]
    nextReader := t.nextReader+1} := by
  refine ⟨exact_.rising,exact_.owned,?_,?_,exact_.once,exact_.ids,exact_.fresh,?_⟩
  · rw [List.map_append]
    apply nodup_append_fresh exact_.distinct
    intro member
    obtain ⟨r,there,same⟩ := List.mem_map.mp member
    have below := (exact_.served r there).below
    have same : r.id = t.nextReader := same
    omega
  · intro r member
    rcases List.mem_append.mp member with old | new
    · have served := exact_.served r old
      exact ⟨Nat.lt_succ_of_lt served.below,served.chained,served.reach,served.stands,served.complete⟩
    · cases List.mem_singleton.mp new
      exact ⟨Nat.lt_succ_self _,.start _,latest_own _ _,.inl rfl,fun _ crossed => absurd crossed List.not_mem_nil⟩
  · intro l member
    obtain ⟨r,there,same,due⟩ := exact_.due l member
    exact ⟨r,List.mem_append_left _ there,same,due⟩

theorem Exact.leave (exact_ : Exact t) (id : Nat) : Exact
    {t with readers := t.readers.filter (fun r => r.id ≠ id),letters := t.letters.filter (fun l => l.readerId ≠ id)} := by
  refine ⟨exact_.rising,exact_.owned,?_,?_,?_,?_,?_,?_⟩
  · exact exact_.distinct.sublist (List.filter_sublist.map _)
  · intro r member
    obtain ⟨there,stays⟩ := List.mem_filter.mp member
    have served := exact_.served r there
    refine ⟨served.below,served.chained,served.reach,served.stands,?_⟩
    intro c crossed m own spans wanted
    obtain ⟨l,written,same,about⟩ := served.complete c crossed m own spans wanted
    exact ⟨l,List.mem_filter.mpr ⟨written,by rw [same]; exact stays⟩,same,about⟩
  · exact exact_.once.sublist (List.filter_sublist.map _)
  · exact exact_.ids.sublist (List.filter_sublist.map _)
  · intro l member
    exact exact_.fresh l (List.mem_filter.mp member).1
  · intro l member
    obtain ⟨there,stays⟩ := List.mem_filter.mp member
    obtain ⟨r,reader,same,due⟩ := exact_.due l there
    exact ⟨r,List.mem_filter.mpr ⟨reader,by rw [same]; exact stays⟩,same,due⟩

theorem mem_numbered {β : Type} {make : Nat → ChangeMarker → β} {first : Nat} {markers : List ChangeMarker} {b : β}
    (member : b ∈ numbered make first markers) : ∃ id m, m ∈ markers ∧ first ≤ id ∧ id < first+markers.length ∧ b = make id m := by
  induction markers generalizing first with
  | nil => cases member
  | cons m rest ih =>
    rcases List.mem_cons.mp member with rfl | later
    · exact ⟨first,m,List.mem_cons_self,Nat.le_refl _,by simp,rfl⟩
    · obtain ⟨id,found,there,low,high,equal⟩ := ih later
      refine ⟨id,found,List.mem_cons_of_mem _ there,by omega,?_,equal⟩
      rw [List.length_cons]
      omega

theorem numbered_of_mem {β : Type} (make : Nat → ChangeMarker → β) (first : Nat) {markers : List ChangeMarker} {m : ChangeMarker}
    (member : m ∈ markers) : ∃ id, make id m ∈ numbered make first markers := by
  induction markers generalizing first with
  | nil => cases member
  | cons head rest ih =>
    rcases List.mem_cons.mp member with rfl | later
    · exact ⟨first,List.mem_cons_self⟩
    · obtain ⟨id,there⟩ := ih (first+1) later
      exact ⟨id,List.mem_cons_of_mem _ there⟩

theorem numbered_map {β γ : Type} {make : Nat → ChangeMarker → β} {first : Nat} {markers : List ChangeMarker} {f : β → γ} {g : ChangeMarker → γ}
    (each : ∀ id, ∀ m ∈ markers, f (make id m) = g m) : (numbered make first markers).map f = markers.map g := by
  induction markers generalizing first with
  | nil => rfl
  | cons m rest ih =>
    rw [List.map_cons,← @ih (first+1) (fun id m member => each id m (List.mem_cons_of_mem _ member)),
      ← each first m List.mem_cons_self]
    rfl

theorem numbered_ids {β : Type} {make : Nat → ChangeMarker → β} {id : β → Nat} (given : ∀ n m, id (make n m) = n) (first : Nat)
    (markers : List ChangeMarker) : ((numbered make first markers).map id).Nodup := by
  induction markers generalizing first with
  | nil => exact .nil
  | cons m rest ih =>
    refine List.nodup_cons.mpr ⟨?_,ih (first+1)⟩
    intro member
    obtain ⟨b,there,same⟩ := List.mem_map.mp member
    obtain ⟨n,found,_,low,_,rfl⟩ := mem_numbered there
    rw [given,given] at same
    omega

theorem mem_crossReaders {id : Nat} {last : ChangeMarker} {wanted : List EventType} {crossed : Reader}
    (member : crossed ∈ crossReaders t.readers id last wanted) :
    ∃ r ∈ t.readers, crossed.id = r.id ∧ (r.id = id ∧ crossed = r.cross last wanted ∨ r.id ≠ id ∧ crossed = r) := by
  obtain ⟨r,there,rfl⟩ := List.mem_map.mp member
  refine ⟨r,there,?_⟩
  by_cases same : r.id = id
  · rw [if_pos same]
    exact ⟨rfl,.inl ⟨same,rfl⟩⟩
  · rw [if_neg same]
    exact ⟨rfl,.inr ⟨same,rfl⟩⟩

theorem crossReaders_ids (readers : List Reader) (id : Nat) (last : ChangeMarker) (wanted : List EventType) :
    (crossReaders readers id last wanted).map Reader.id = readers.map Reader.id := by
  unfold crossReaders
  rw [List.map_map]
  apply List.map_congr_left
  intro r member
  rw [Function.comp_apply]
  split <;> rfl

theorem Exact.reader (exact_ : Exact t) {a b : Reader} (one : a ∈ t.readers) (two : b ∈ t.readers) (same : a.id = b.id) : a = b :=
  List.inj_on_of_nodup_map exact_.distinct one two same

variable {markers : List ChangeMarker} {last : ChangeMarker} {wanted : List EventType}

theorem Exact.page (exact_ : Exact t) (page : markers <+: Feeds.beyond ChangeMarker.id r.cursor (markersOf r.organizationId t.tables))
    (ends : markers.getLast? = some last) {m : ChangeMarker} :
    m ∈ markers ↔ m ∈ markersOf r.organizationId t.tables ∧ r.cursor < m.id ∧ m.id ≤ last.id := by
  have sorted : Feeds.Rising ChangeMarker.id (Feeds.beyond ChangeMarker.id r.cursor (markersOf r.organizationId t.tables)) :=
    exact_.rising.sublist (List.filter_sublist.trans List.filter_sublist)
  rw [Feeds.page_exact sorted page ends,Feeds.mem_beyond,and_assoc]

theorem mem_wantedOf {m : ChangeMarker} : m ∈ wantedOf wanted markers ↔ m ∈ markers ∧ wanted.contains (eventType m) = true := List.mem_filter

theorem Due.cross (due : Due t.tables r l) (last : ChangeMarker) (wanted : List EventType) : Due t.tables (r.cross last wanted) l := by
  obtain ⟨m,own,marker,entity,payloadMarker,payloadEntity,c,crossed,spans⟩ := due.about
  exact ⟨⟨m,own,marker,entity,payloadMarker,payloadEntity,c,List.mem_append_left _ crossed,spans⟩,due.body⟩

theorem Exact.written (exact_ : Exact t) (page : markers <+: Feeds.beyond ChangeMarker.id r.cursor (markersOf r.organizationId t.tables))
    (ends : markers.getLast? = some last) (first : Nat) (written : l ∈ numbered (letterOf t.tables r.id) first (wantedOf wanted markers)) :
    l.readerId = r.id ∧ r.cursor < l.markerId ∧ Due t.tables (r.cross last wanted) l := by
  obtain ⟨id,m,chosen,_,_,rfl⟩ := mem_numbered written
  obtain ⟨member,contained⟩ := mem_wantedOf.mp chosen
  obtain ⟨own,after,within⟩ := (exact_.page page ends).mp member
  obtain ⟨there,owned⟩ := mem_markersOf.mp own
  refine ⟨rfl,after,⟨m,own,rfl,rfl,rfl,rfl,⟨r.cursor,last.id,wanted⟩,List.mem_append_right _ (List.mem_singleton_self _),⟨after,within⟩,contained⟩,
    ⟨?_,.inl rfl⟩⟩
  exact (exact_.owned m there).trans (congrArg some owned)

theorem Exact.served_cross (exact_ : Exact t) (there : r ∈ t.readers)
    (page : markers <+: Feeds.beyond ChangeMarker.id r.cursor (markersOf r.organizationId t.tables)) (ends : markers.getLast? = some last) :
    Served {t with
      readers := crossReaders t.readers r.id last wanted
      letters := t.letters ++ numbered (letterOf t.tables r.id) t.nextLetter (wantedOf wanted markers)
      nextLetter := t.nextLetter+(wantedOf wanted markers).length} (r.cross last wanted) := by
  have served := exact_.served r there
  obtain ⟨own,after,_⟩ := (exact_.page page ends).mp (List.mem_of_getLast? ends)
  have reach : last.id ≤ latestMarkerId t.tables.markers := Feeds.le_latest (mem_markersOf.mp own).1
  refine ⟨served.below,.next ⟨r.cursor,last.id,wanted⟩ served.chained rfl after,reach,.inr ⟨last,own,rfl⟩,?_⟩
  intro c crossed m marked spans contained
  rcases List.mem_append.mp crossed with old | new
  · obtain ⟨l,written,same,about⟩ := served.complete c old m marked spans contained
    exact ⟨l,List.mem_append_left _ written,same,about⟩
  · cases List.mem_singleton.mp new
    have member := (exact_.page page ends).mpr ⟨marked,spans.1,spans.2⟩
    obtain ⟨id,made⟩ := numbered_of_mem (letterOf t.tables r.id) t.nextLetter (mem_wantedOf.mpr ⟨member,contained⟩)
    exact ⟨_,List.mem_append_right _ made,rfl,rfl⟩

theorem Exact.cross (exact_ : Exact t) (there : r ∈ t.readers)
    (page : markers <+: Feeds.beyond ChangeMarker.id r.cursor (markersOf r.organizationId t.tables)) (ends : markers.getLast? = some last) :
    Exact {t with
      readers := crossReaders t.readers r.id last wanted
      letters := t.letters ++ numbered (letterOf t.tables r.id) t.nextLetter (wantedOf wanted markers)
      nextLetter := t.nextLetter+(wantedOf wanted markers).length} := by
  have written : ∀ l ∈ numbered (letterOf t.tables r.id) t.nextLetter (wantedOf wanted markers), _ :=
    fun l member => exact_.written page ends t.nextLetter member
  refine ⟨exact_.rising,exact_.owned,?_,?_,?_,?_,?_,?_⟩
  · change ((crossReaders t.readers r.id last wanted).map Reader.id).Nodup
    rw [crossReaders_ids]
    exact exact_.distinct
  · intro crossed member
    obtain ⟨before,reader,_,⟨same,rfl⟩ | ⟨other,rfl⟩⟩ := mem_crossReaders member
    · cases exact_.reader reader there same
      exact exact_.served_cross there page ends
    · have served := exact_.served crossed reader
      refine ⟨served.below,served.chained,served.reach,served.stands,?_⟩
      intro c crossing m marked spans contained
      obtain ⟨l,letter,about⟩ := served.complete c crossing m marked spans contained
      exact ⟨l,List.mem_append_left _ letter,about⟩
  · rw [List.map_append]
    apply List.nodup_append.mpr
    refine ⟨exact_.once,?_,?_⟩
    · have pairs : (numbered (letterOf t.tables r.id) t.nextLetter (wantedOf wanted markers)).map (fun l => (l.readerId,l.markerId)) =
          (wantedOf wanted markers).map (fun m => (r.id,m.id)) := numbered_map (fun _ _ _ => rfl)
      rw [pairs]
      have sorted : (wantedOf wanted markers).Pairwise (fun a b => a.id < b.id) :=
        List.Pairwise.sublist ((List.filter_sublist.trans page.sublist).trans (List.filter_sublist.trans List.filter_sublist)) exact_.rising
      apply List.pairwise_map.mpr
      apply sorted.imp
      intro a b below same
      exact Nat.ne_of_lt below (congrArg Prod.snd same)
    · intro pair old other fresh equal
      obtain ⟨l,letter,rfl⟩ := List.mem_map.mp old
      obtain ⟨made,new,rfl⟩ := List.mem_map.mp fresh
      obtain ⟨addressed,after,_⟩ := written made new
      obtain ⟨reader,known,same,due⟩ := exact_.due l letter
      have same : reader = r := exact_.reader known there (same.trans ((congrArg Prod.fst equal).trans addressed))
      subst same
      obtain ⟨m,_,marker,_,_,_,c,crossed,spans,_⟩ := due.about
      have within := ((exact_.served reader known).chained.bounds.2 c crossed).2
      have upTo := spans.2
      have markers_ : l.markerId = made.markerId := congrArg Prod.snd equal
      omega
  · rw [List.map_append]
    apply List.nodup_append.mpr
    refine ⟨exact_.ids,numbered_ids (fun _ _ => rfl) _ _,?_⟩
    intro id old other fresh equal
    obtain ⟨l,letter,rfl⟩ := List.mem_map.mp old
    obtain ⟨made,new,rfl⟩ := List.mem_map.mp fresh
    obtain ⟨n,_,_,low,_,rfl⟩ := mem_numbered new
    have below := exact_.fresh l letter
    have equal : l.id = n := equal
    omega
  · intro l member
    change l.id < t.nextLetter+(wantedOf wanted markers).length
    rcases List.mem_append.mp member with old | new
    · exact Nat.lt_of_lt_of_le (exact_.fresh l old) (Nat.le_add_right _ _)
    · obtain ⟨n,_,_,_,high,rfl⟩ := mem_numbered new
      exact high
  · intro l member
    have crossedReader : r.cross last wanted ∈ crossReaders t.readers r.id last wanted :=
      List.mem_map.mpr ⟨r,there,if_pos rfl⟩
    rcases List.mem_append.mp member with old | new
    · obtain ⟨reader,known,same,due⟩ := exact_.due l old
      by_cases mine : reader.id = r.id
      · cases exact_.reader known there mine
        exact ⟨_,crossedReader,same,due.cross last wanted⟩
      · exact ⟨reader,List.mem_map.mpr ⟨reader,known,if_neg mine⟩,same,due⟩
    · obtain ⟨addressed,_,due⟩ := written l new
      exact ⟨_,crossedReader,addressed.symm,due⟩

theorem Exact.preserved (exact_ : Exact t) (move : SpreadMove t next) : Exact next := by
  cases move with
  | change changed => exact exact_.change changed
  | enter organization => exact exact_.enter organization
  | leave id => exact exact_.leave id
  | cross wanted there page ends => exact exact_.cross there page ends

theorem Exact.path (exact_ : Exact t) (path : SpreadPath t next) : Exact next := by
  induction path with
  | refl => exact exact_
  | tail prior move ih => exact ih.preserved move

-- What does not go back: a reader that is still there, and the ids handed out.
structure Onward (t next : Spread) : Prop where
  nextReader : t.nextReader ≤ next.nextReader
  readers : ∀ r ∈ next.readers, r.id < t.nextReader →
    ∃ before ∈ t.readers, before.id = r.id ∧ before.cursor ≤ r.cursor ∧ before.startCursor = r.startCursor ∧
      before.organizationId = r.organizationId

theorem Onward.refl (t : Spread) : Onward t t := ⟨Nat.le_refl _,fun r there _ => ⟨r,there,rfl,Nat.le_refl _,rfl,rfl⟩⟩

theorem Onward.trans {middle : Spread} (one : Onward t middle) (two : Onward middle next) : Onward t next := by
  refine ⟨Nat.le_trans one.nextReader two.nextReader,?_⟩
  intro r there below
  obtain ⟨between,known,same,up,began,of_⟩ := two.readers r there (Nat.lt_of_lt_of_le below one.nextReader)
  obtain ⟨before,first,again,low,start,organization⟩ := one.readers between known (same ▸ below)
  exact ⟨before,first,again.trans same,Nat.le_trans low up,start.trans began,organization.trans of_⟩

theorem Exact.onward (exact_ : Exact t) (move : SpreadMove t next) : Onward t next := by
  cases move with
  | change changed => exact ⟨Nat.le_refl _,fun r there _ => ⟨r,there,rfl,Nat.le_refl _,rfl,rfl⟩⟩
  | enter organization =>
    refine ⟨Nat.le_succ _,?_⟩
    intro r there below
    rcases List.mem_append.mp there with old | new
    · exact ⟨r,old,rfl,Nat.le_refl _,rfl,rfl⟩
    · cases List.mem_singleton.mp new
      exact absurd below (Nat.lt_irrefl _)
  | leave id => exact ⟨Nat.le_refl _,fun r there _ => ⟨r,(List.mem_filter.mp there).1,rfl,Nat.le_refl _,rfl,rfl⟩⟩
  | cross wanted there page ends =>
    refine ⟨Nat.le_refl _,?_⟩
    intro crossed member _
    obtain ⟨before,reader,_,⟨same,rfl⟩ | ⟨_,rfl⟩⟩ := mem_crossReaders member
    · cases exact_.reader reader there same
      obtain ⟨_,after,_⟩ := (exact_.page page ends).mp (List.mem_of_getLast? ends)
      exact ⟨_,reader,rfl,Nat.le_of_lt after,rfl,rfl⟩
    · exact ⟨crossed,reader,rfl,Nat.le_refl _,rfl,rfl⟩

theorem Exact.onward_path (exact_ : Exact t) (path : SpreadPath t next) : Onward t next := by
  induction path with
  | refl => exact Onward.refl t
  | tail prior move ih => exact ih.trans ((exact_.path prior).onward move)

end ChronosLedger.Webhooks
