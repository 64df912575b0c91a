import ChronosLedger.FeedChanges

namespace ChronosLedger.ChangeFeed

variable {organization : String} {t later : FeedTables} {s next : Consumer} {cursor : Nat}

def boundOf (cursor : Nat) (groups : List Group) : Nat := (groups.getLast?.map Group.newest).getD cursor

-- What a page up to a bound has taken of the markers after the cursor: an entity
-- it leaves out has a marker after the bound.
structure Covers (organization : String) (t : FeedTables) (cursor : Nat) (entities : List Entity) (bound : Nat) : Prop where
  some_ : entities ≠ []
  ahead : cursor ≤ bound
  reach : bound ≤ latestMarkerId t.markers
  own : ∀ entity ∈ entities, owner t entity = some organization
  cut : ∀ m ∈ markersOf organization t, cursor < m.id →
    m.entity ∈ entities ∨ ∃ late ∈ markersOf organization t, late.entity = m.entity ∧ bound < late.id

theorem Covers.changed {entities : List Entity} {bound : Nat} {m : ChangeMarker} (covers : Covers organization t cursor entities bound)
    (changed : Changed t m later) : Covers organization later cursor entities bound := by
  have above := Nat.lt_of_le_of_lt covers.reach changed.above
  refine ⟨covers.some_,covers.ahead,?_,fun entity member => changed.owns (covers.own entity member),?_⟩
  · rw [changed.latest]
    exact Nat.le_of_lt above
  · intro marker member after
    rcases changed.mem.mp member with old | ⟨rfl,own⟩
    · rcases covers.cut marker old after with taken | ⟨late,there,same,beyond⟩
      · exact .inl taken
      · exact .inr ⟨late,changed.mem.mpr (.inl there),same,beyond⟩
    · exact .inr ⟨marker,member,rfl,above⟩

theorem groupOf_newest {late : List ChangeMarker} {m : ChangeMarker} (member : m ∈ late) :
    m.id ≤ (groupOf late m.entity).newest ∧ ∃ newest ∈ late, newest.entity = m.entity ∧ newest.id = (groupOf late m.entity).newest := by
  have named : m ∈ late.filter (fun other => other.entity = m.entity) := by simpa using member
  refine ⟨Feeds.le_latest named,?_⟩
  obtain ⟨newest,there,equal⟩ := Feeds.latest_mem ChangeMarker.id (List.ne_nil_of_mem named)
  obtain ⟨there,same⟩ := List.mem_filter.mp there
  exact ⟨newest,there,of_decide_eq_true same,equal⟩

theorem allGroups_sorted (markers : List ChangeMarker) (since : Nat) :
    (allGroups markers since).Pairwise (fun a b => a.newest ≤ b.newest) := List.pairwise_insertionSort _ _

-- Each group is of some marker after the cursor, its own newest among them.
theorem mem_allGroups {markers : List ChangeMarker} {since : Nat} {group : Group} :
    group ∈ allGroups markers since ↔ ∃ m ∈ Feeds.beyond ChangeMarker.id since markers,
      groupOf (Feeds.beyond ChangeMarker.id since markers) m.entity = group := by
  unfold allGroups
  simp only [List.mem_insertionSort,List.mem_map,List.mem_dedup]
  constructor
  · rintro ⟨entity,⟨m,member,rfl⟩,rfl⟩
    exact ⟨m,member,rfl⟩
  · rintro ⟨m,member,rfl⟩
    exact ⟨m.entity,⟨m,member,rfl⟩,rfl⟩

theorem group_parts {markers : List ChangeMarker} {since : Nat} {group : Group} (member : group ∈ allGroups markers since) :
    ∃ newest ∈ markers, since < newest.id ∧ newest.entity = group.entity ∧ newest.id = group.newest := by
  obtain ⟨m,there,rfl⟩ := mem_allGroups.mp member
  obtain ⟨_,newest,found,same,equal⟩ := groupOf_newest there
  obtain ⟨found,after⟩ := Feeds.mem_beyond.mp found
  exact ⟨newest,found,after,same,equal⟩

theorem boundOf_last {groups : List Group} {last : Group} (ends : groups.getLast? = some last) : boundOf cursor groups = last.newest := by
  unfold boundOf
  rw [ends]
  rfl

theorem groups_cover {limit : Nat} {group : Group} {rest : List Group} (rising : Feeds.Rising ChangeMarker.id t.markers)
    (owned : ∀ m ∈ markersOf organization t, owner t m.entity = some organization)
    (taken : (allGroups (markersOf organization t) cursor).take limit = group :: rest) :
    Covers organization t cursor ((group :: rest).map Group.entity) (boundOf cursor (group :: rest)) := by
  obtain ⟨last,ends⟩ : ∃ last, (group :: rest).getLast? = some last := ⟨_,List.getLast?_eq_some_getLast (by simp)⟩
  have listed : last ∈ group :: rest := List.mem_of_getLast? ends
  have inside : ∀ g ∈ group :: rest, g ∈ allGroups (markersOf organization t) cursor := by
    intro g member
    rw [← taken] at member
    exact List.mem_of_mem_take member
  obtain ⟨newest,there,after,same,equal⟩ := group_parts (inside last listed)
  rw [boundOf_last ends,← equal]
  refine ⟨by simp,Nat.le_of_lt after,Feeds.le_latest (mem_markersOf.mp there).1,?_,?_⟩
  · intro entity member
    obtain ⟨g,listed,rfl⟩ := List.mem_map.mp member
    obtain ⟨m,found,_,named,_⟩ := group_parts (inside g listed)
    rw [← named]
    exact owned m found
  · intro m member beyond
    have late := Feeds.mem_beyond.mpr ⟨member,beyond⟩
    obtain ⟨_,final,found,finalOf,finalId⟩ := groupOf_newest late
    have grouped := mem_allGroups.mpr ⟨m,late,rfl⟩
    rcases Feeds.take_cut (allGroups_sorted _ _) limit grouped with within | left
    · rw [taken] at within
      exact .inl (List.mem_map.mpr ⟨_,within,rfl⟩)
    · rw [taken] at left
      have order := left last listed
      rw [← equal,← finalId] at order
      obtain ⟨found,_⟩ := Feeds.mem_beyond.mp found
      rcases Nat.eq_or_lt_of_le order with tie | below
      · have one := rising.same (mem_markersOf.mp there).1 (mem_markersOf.mp found).1 tie
        rw [← finalOf,← one,same]
        exact .inl (List.mem_map.mpr ⟨last,listed,rfl⟩)
      · exact .inr ⟨final,found,finalOf,below⟩

-- Where each phase of a poll stands: what it has read is known up to the bound
-- its page will end at.
def Polled (organization : String) (t : FeedTables) (cursor : Nat) : Poll → Prop
  | .idle => True
  | .grouped groups => Covers organization t cursor (groups.map Group.entity) (boundOf cursor groups)
  | .marked groups _ => Covers organization t cursor (groups.map Group.entity) (boundOf cursor groups)
  | .roomed groups _ rows => Covers organization t cursor (groups.map Group.entity) (boundOf cursor groups) ∧
      (∀ row ∈ rows, row.1.1 = .resource) ∧
      ∀ id, (EntityKind.resource,id) ∈ groups.map Group.entity →
        Knows organization t (boundOf cursor groups) (.resource,id) (get rows (.resource,id))
  | .answered page => Covers organization t cursor (page.changes.map Change.entity) page.nextCursor ∧
      ∀ change ∈ page.changes, Knows organization t page.nextCursor change.entity change.row

theorem Polled.changed {m : ChangeMarker} {poll : Poll} (polled : Polled organization t cursor poll) (changed : Changed t m later) :
    Polled organization later cursor poll := by
  cases poll with
  | idle => trivial
  | grouped groups => exact Covers.changed polled changed
  | marked groups markers => exact Covers.changed polled changed
  | roomed groups markers rows =>
    obtain ⟨covers,kinds,known⟩ := polled
    exact ⟨covers.changed changed,kinds,fun id member => (known id member).changed changed covers.reach⟩
  | answered page =>
    obtain ⟨covers,known⟩ := polled
    exact ⟨covers.changed changed,fun change member => (known change member).changed changed covers.reach⟩

theorem entryOf_parts {markers : List ChangeMarker} {rows : List (Entity × Option Row)} {group : Group} {change : Change}
    (entry : entryOf markers rows group = some change) :
    change.cursor = group.newest ∧ change.entity = group.entity ∧ change.row = get rows group.entity := by
  unfold entryOf at entry
  simp only [Option.bind_eq_bind,Option.bind_eq_some_iff,Option.pure_def,Option.some.injEq] at entry
  obtain ⟨_,_,_,_,rfl⟩ := entry
  exact ⟨rfl,rfl,rfl⟩

theorem entries_parts {markers : List ChangeMarker} {rows : List (Entity × Option Row)} {groups : List Group} {changes : List Change}
    (entries : groups.mapM (entryOf markers rows) = some changes) : changes.map Change.cursor = groups.map Group.newest ∧
      changes.map Change.entity = groups.map Group.entity ∧ ∀ change ∈ changes, change.row = get rows change.entity := by
  induction groups generalizing changes with
  | nil =>
    rw [List.mapM_nil] at entries
    cases entries
    exact ⟨rfl,rfl,fun _ member => absurd member List.not_mem_nil⟩
  | cons group rest ih =>
    simp only [List.mapM_cons,Option.bind_eq_bind,Option.bind_eq_some_iff,Option.pure_def,Option.some.injEq] at entries
    obtain ⟨change,entry,others,tail,rfl⟩ := entries
    obtain ⟨cursors,entities,held⟩ := ih tail
    obtain ⟨cursor,entity,row⟩ := entryOf_parts entry
    refine ⟨?_,?_,?_⟩
    · rw [List.map_cons,List.map_cons,cursor,cursors]
    · rw [List.map_cons,List.map_cons,entity,entities]
    · intro other member
      rcases List.mem_cons.mp member with rfl | later
      · rw [row,entity]
      · exact held other later

theorem nextCursor_bound {groups : List Group} {changes : List Change} (cursors : changes.map Change.cursor = groups.map Group.newest) :
    nextCursor cursor changes = boundOf cursor groups := by
  unfold nextCursor boundOf
  rw [← List.getLast?_map,← List.getLast?_map,cursors]

theorem answer_polled {groups : List Group} {markers : List ChangeMarker} {rows : List (Entity × Option Row)} {changes : List Change}
    (polled : Polled organization t cursor (.roomed groups markers rows))
    (entries : groups.mapM (entryOf markers (rows ++ reservationRows t (groups.map Group.entity))) = some changes) :
    Polled organization t cursor (.answered ⟨changes,nextCursor cursor changes⟩) := by
  obtain ⟨covers,kinds,known⟩ := polled
  obtain ⟨cursors,entities,held⟩ := entries_parts entries
  rw [nextCursor_bound cursors]
  refine ⟨entities ▸ covers,?_⟩
  intro change member
  have asked : change.entity ∈ groups.map Group.entity := entities ▸ List.mem_map_of_mem member
  rw [held change member]
  generalize change.entity = entity at asked
  obtain ⟨kind,id⟩ := entity
  unfold get
  rw [List.lookup_append]
  cases kind with
  | resource =>
    rw [lookup_kind reservationRows_kind (by simp),Option.or_none]
    exact known id asked
  | reservation =>
    rw [lookup_kind kinds (by simp),Option.none_or]
    exact ⟨covers.own _ asked,.inl (get_reservation asked)⟩

theorem apply_parts (copies : Entity → Option Row) (changes : List Change) (entity : Entity) :
    (∃ change ∈ changes, change.entity = entity ∧ apply copies changes entity = change.row) ∨
      entity ∉ changes.map Change.entity ∧ apply copies changes entity = copies entity := by
  unfold apply
  induction changes generalizing copies with
  | nil => exact .inr ⟨List.not_mem_nil,rfl⟩
  | cons change rest ih =>
    rcases ih (Function.update copies change.entity change.row) with ⟨found,member,same,equal⟩ | ⟨absent,equal⟩
    · exact .inl ⟨found,List.mem_cons_of_mem _ member,same,equal⟩
    · by_cases same : entity = change.entity
      · refine .inl ⟨change,List.mem_cons_self,same.symm,equal.trans ?_⟩
        rw [same,Function.update_self]
      · refine .inr ⟨?_,equal.trans (Function.update_of_ne same _ _)⟩
        rw [List.map_cons,List.mem_cons]
        rintro (here | later)
        · exact same here
        · exact absent later

-- The copies are what the tables say of every entity that changed, or the feed
-- has a marker of it to come.
structure Following (organization : String) (s : Consumer) : Prop where
  rising : Feeds.Rising ChangeMarker.id s.tables.markers
  reach : s.cursor ≤ latestMarkerId s.tables.markers
  held : ∀ m ∈ markersOf organization s.tables, Knows organization s.tables s.cursor m.entity (s.copies m.entity)
  polled : Polled organization s.tables s.cursor s.poll
  behind : ∀ page ∈ s.pages, page.nextCursor ≤ s.cursor
  climbing : s.pages.Pairwise (fun a b => a.nextCursor ≤ b.nextCursor)

theorem Following.change {m : ChangeMarker} (following : Following organization s) (changed : Changed s.tables m later) :
    Following organization {s with tables := later} := by
  have above := Nat.lt_of_le_of_lt following.reach changed.above
  refine ⟨?_,?_,?_,following.polled.changed changed,following.behind,following.climbing⟩
  · change Feeds.Rising ChangeMarker.id later.markers
    rw [changed.markers]
    exact following.rising.append changed.above
  · change s.cursor ≤ latestMarkerId later.markers
    rw [changed.latest]
    exact Nat.le_of_lt above
  · intro marker member
    rcases changed.mem.mp member with old | ⟨rfl,own⟩
    · exact (following.held marker old).changed changed following.reach
    · exact changed.knows own above

theorem Following.polling (following : Following organization s) (poll : Poll) (polled : Polled organization s.tables s.cursor poll) :
    Following organization {s with poll := poll} :=
  ⟨following.rising,following.reach,following.held,polled,following.behind,following.climbing⟩

theorem paged {pages : List Page} (page : Page) (climbing : pages.Pairwise (fun a b => a.nextCursor ≤ b.nextCursor))
    (behind : ∀ earlier ∈ pages, earlier.nextCursor ≤ page.nextCursor) :
    (pages ++ [page]).Pairwise (fun a b => a.nextCursor ≤ b.nextCursor) ∧ ∀ earlier ∈ pages ++ [page], earlier.nextCursor ≤ page.nextCursor := by
  constructor
  · apply List.pairwise_append.mpr
    refine ⟨climbing,List.pairwise_singleton _ _,?_⟩
    intro earlier member last single
    cases List.mem_singleton.mp single
    exact behind earlier member
  · intro earlier member
    rcases List.mem_append.mp member with old | new
    · exact behind earlier old
    · cases List.mem_singleton.mp new
      exact Nat.le_refl _

theorem Following.received (following : Following organization s) {page : Page} (answered : s.poll = .answered page) :
    Following organization {s with poll := .idle,cursor := page.nextCursor,copies := apply s.copies page.changes,pages := s.pages ++ [page]} := by
  have polled := following.polled
  rw [answered] at polled
  obtain ⟨covers,known⟩ := polled
  obtain ⟨climbing,behind⟩ := paged page following.climbing (fun earlier member => Nat.le_trans (following.behind earlier member) covers.ahead)
  refine ⟨following.rising,covers.reach,?_,trivial,behind,climbing⟩
  intro m member
  have held := following.held m member
  rcases apply_parts s.copies page.changes m.entity with ⟨change,there,same,equal⟩ | ⟨absent,equal⟩
  · change Knows organization s.tables page.nextCursor m.entity (apply s.copies page.changes m.entity)
    rw [equal,← same]
    exact known change there
  · refine ⟨held.own,?_⟩
    rcases held.known with current | ⟨marker,there,same,after⟩
    · exact .inl (equal.trans current)
    · rcases covers.cut marker there after with taken | ⟨late,found,named,beyond⟩
      · exact absurd (same ▸ taken) absent
      · exact .inr ⟨late,found,named.trans same,beyond⟩

theorem asked_nothing (following : Following organization s) {limit : Nat} (some_ : 1 ≤ limit)
    (nothing : (allGroups (markersOf organization s.tables) s.cursor).take limit = []) :
    ∀ m ∈ markersOf organization s.tables, s.copies m.entity = currentRow s.tables m.entity := by
  intro m member
  rcases (following.held m member).known with current | ⟨late,there,_,after⟩
  · exact current
  · have grouped := mem_allGroups.mpr ⟨late,Feeds.mem_beyond.mpr ⟨there,after⟩,rfl⟩
    rcases List.take_eq_nil_iff.mp nothing with zero | empty
    · omega
    · rw [empty] at grouped
      cases grouped

theorem Following.preserved {op : Operation} (following : Following organization s) (taken : step organization s op = some next) :
    Following organization next := by
  cases op with
  | change id at_ row =>
    obtain ⟨later,changed,rfl⟩ := Option.map_eq_some_iff.mp taken
    obtain ⟨m,changed⟩ := change_changed changed
    exact following.change changed
  | ask limit =>
    simp only [step,Option.ite_none_right_eq_some] at taken
    obtain ⟨_,taken⟩ := taken
    split at taken
    · cases taken
      obtain ⟨climbing,behind⟩ := paged ⟨[],s.cursor⟩ following.climbing following.behind
      exact ⟨following.rising,following.reach,following.held,following.polled,behind,climbing⟩
    · rename_i groups some_
      cases taken
      cases grouped : (allGroups (markersOf organization s.tables) s.cursor).take limit with
      | nil => exact absurd grouped some_
      | cons group rest =>
        exact following.polling (.grouped _) (groups_cover following.rising (fun m member => (following.held m member).own) grouped)
  | readMarkers =>
    simp only [step] at taken
    split at taken
    · rename_i grouped
      cases taken
      have polled := following.polled
      rw [grouped] at polled
      exact following.polling (.marked _ _) polled
    · cases taken
  | readResources =>
    simp only [step] at taken
    split at taken
    · rename_i marked
      cases taken
      have covers := following.polled
      rw [marked] at covers
      apply following.polling
      refine ⟨covers,resourceRows_kind,?_⟩
      intro id asked
      exact ⟨covers.own _ asked,.inl (get_resource asked)⟩
    · cases taken
  | readReservations =>
    simp only [step] at taken
    split at taken
    · rename_i roomed
      simp only [Option.bind_eq_bind,Option.bind_eq_some_iff,Option.pure_def,Option.some.injEq] at taken
      obtain ⟨changes,entries,rfl⟩ := taken
      have polled := following.polled
      rw [roomed] at polled
      exact following.polling (.answered _) (answer_polled polled entries)
    · cases taken
  | receive =>
    simp only [step] at taken
    split at taken
    · rename_i answered
      cases taken
      exact following.received answered
    · cases taken
  | giveUp =>
    cases taken
    exact following.polling .idle trivial

theorem answered_nothing {op : Operation} {page : Page} (following : Following organization s) (taken : step organization s op = some next)
    (answered : next.pages = s.pages ++ [page]) (nothing : page.changes = []) :
    ∀ m ∈ markersOf organization next.tables, next.copies m.entity = currentRow next.tables m.entity := by
  have unanswered : s.pages ≠ s.pages ++ [page] := by simp
  cases op with
  | change id at_ row =>
    obtain ⟨later,_,rfl⟩ := Option.map_eq_some_iff.mp taken
    exact absurd answered unanswered
  | ask limit =>
    simp only [step,Option.ite_none_right_eq_some] at taken
    obtain ⟨asked,taken⟩ := taken
    split at taken
    · rename_i empty
      have known := asked_nothing following asked.2 empty
      cases taken
      exact known
    · cases taken
      exact absurd answered unanswered
  | readMarkers =>
    simp only [step] at taken
    split at taken
    · cases taken
      exact absurd answered unanswered
    · cases taken
  | readResources =>
    simp only [step] at taken
    split at taken
    · cases taken
      exact absurd answered unanswered
    · cases taken
  | readReservations =>
    simp only [step] at taken
    split at taken
    · simp only [Option.bind_eq_bind,Option.bind_eq_some_iff,Option.pure_def,Option.some.injEq] at taken
      obtain ⟨_,_,rfl⟩ := taken
      exact absurd answered unanswered
    · cases taken
  | receive =>
    simp only [step] at taken
    split at taken
    · rename_i found polled
      cases taken
      have same : found = page := by simpa using answered
      have covers := following.polled
      rw [polled,same] at covers
      exact absurd (congrArg (List.map Change.entity) nothing) covers.1.some_
    · cases taken
  | giveUp =>
    cases taken
    exact absurd answered unanswered

theorem start_following {resources : List ResourceRow} {reservations : List ReservationRow}
    {linked : ∀ held ∈ reservations, (resourceAt resources held.resourceId).isSome} :
    Following organization (.start resources reservations linked) :=
  ⟨.nil,Nat.zero_le _,fun _ member => absurd member List.not_mem_nil,trivial,fun _ member => absurd member List.not_mem_nil,.nil⟩

-- A poll that finds nothing is asked by a consumer that has everything.
theorem polling_loses_nothing {resources : List ResourceRow} {reservations : List ReservationRow}
    {linked : ∀ held ∈ reservations, (resourceAt resources held.resourceId).isSome}
    (path : Runs.Reached (Steps organization) (.start resources reservations linked) s) :
    s.pages.Pairwise (fun a b => a.nextCursor ≤ b.nextCursor) ∧ (∀ page ∈ s.pages, page.nextCursor ≤ s.cursor) ∧
      ∀ op next page, Steps organization s op next → next.pages = s.pages ++ [page] → page.changes = [] →
        ∀ m ∈ markersOf organization next.tables, next.copies m.entity = currentRow next.tables m.entity := by
  have run : Following organization s := by
    apply path.invariant (Following organization) start_following
    intro before op after following taken
    exact following.preserved taken
  refine ⟨run.climbing,run.behind,?_⟩
  intro op next page taken answered nothing
  exact answered_nothing run taken answered nothing

def hall (label : String) : ResourceRow :=
  ⟨⟨1,"HALL","ROOM",none,some 200,.exclusive,true,nofun⟩,"default",label,none,none,none,none⟩

def hallBooking (status : ReservationStatus) : ReservationRow :=
  ⟨⟨7,1,120,clock 19 0,clock 22 0,"concert",some "ada","spring","4d1f",none,1,.exclusive,status,none,by decide,one_unit⟩,
    "default",900,none⟩

-- The booking is cancelled while a page with room for one entry is being built,
-- and the hall renamed between two pages.
def changedWhilePolled : List Operation := [.change 1 900 (.resource (hall "Hall") .created),.change 2 901 (.reservation (hallBooking .held) .created),
  .ask 1,.readMarkers,.readResources,.readReservations,.change 4 902 (.resource (hall "Great Hall") .updated),.receive,
  .ask 1,.readMarkers,.change 5 903 (.reservation (hallBooking .cancelled) .updated),.readResources,.readReservations,.receive,
  .ask 1,.readMarkers,.readResources,.readReservations,.receive,.ask 1,.readMarkers,.readResources,.readReservations,.receive]

theorem copies_caught_up : ∃ s next, Runs.trace (step "default") (fun _ _ => True) (.start [] [] nofun) changedWhilePolled = some s ∧
    step "default" s (.ask 1) = some next ∧ s.pages.map Page.nextCursor = [1,2,4,5] ∧
      next.copies (.resource,1) = some (.resource (hall "Great Hall")) := by
  have taken : ∃ s next, Runs.trace (step "default") (fun _ _ => True) (.start [] [] nofun) changedWhilePolled = some s ∧
      step "default" s (.ask 1) = some next ∧ next.pages = s.pages ++ [⟨[],5⟩] ∧ s.pages.map Page.nextCursor = [1,2,4,5] ∧
      ⟨4,"default",.resource,1,.updated,902⟩ ∈ markersOf "default" next.tables ∧
      currentRow next.tables (.resource,1) = some (.resource (hall "Great Hall")) :=
    ⟨_,_,rfl,rfl,rfl,rfl,by decide,rfl⟩
  obtain ⟨s,next,run,asked,answered,cursors,marked,current⟩ := taken
  have path := (Runs.trace_reached .start run).unguard
  exact ⟨s,next,run,asked,cursors,((polling_loses_nothing path).2.2 (.ask 1) next ⟨[],5⟩ asked answered rfl _ marked).trans current⟩

end ChronosLedger.ChangeFeed
