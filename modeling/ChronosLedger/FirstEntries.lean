import ChronosLedger.FeedPolls

namespace ChronosLedger.ChangeFeed

variable {organization : String} {t later : FeedTables} {s next : Consumer} {cursor : Nat}

-- The first marker of every entity says it was created.
def Announced (t : FeedTables) : Prop :=
  ∀ m ∈ t.markers, (∀ other ∈ t.markers, other.entity = m.entity → m.id ≤ other.id) → m.changeKind = .created

instance (t : FeedTables) : Decidable (Announced t) := inferInstanceAs (Decidable (∀ m ∈ t.markers, _ → _))

-- The limit leaves an entity out whose creation lies no later than the last
-- change of one it keeps.
def Overtaken (organization : String) (s : Consumer) (limit : Nat) : Prop :=
  ∃ left ∈ (allGroups (markersOf organization s.tables) s.cursor).drop limit,
    ∃ taken ∈ (allGroups (markersOf organization s.tables) s.cursor).take limit,
      ∃ m ∈ markersOf organization s.tables, m.entity = left.entity ∧ m.changeKind = .created ∧ s.cursor < m.id ∧ m.id ≤ taken.newest

instance (s : Consumer) (limit : Nat) : Decidable (Overtaken organization s limit) :=
  inferInstanceAs (Decidable (∃ left ∈ List.drop _ _, ∃ taken ∈ List.take _ _, ∃ m ∈ markersOf _ _, _ ∧ _ ∧ _ ∧ _))

def InTurn (organization : String) (s : Consumer) : Operation → Prop
  | .ask limit => ¬ Overtaken organization s limit
  | _ => True

instance (s : Consumer) (op : Operation) : Decidable (InTurn organization s op) := by
  cases op <;> unfold InTurn <;> infer_instance

def Consumer.entries (s : Consumer) : List Change := s.pages.flatMap Page.changes

def firstEntry (s : Consumer) (entity : Entity) : Option Change := s.entries.find? (fun change => change.entity = entity)

-- What the consumer has had an entry of.
def Consumer.told (s : Consumer) (entity : Entity) : Prop := entity ∈ s.entries.map Change.entity

def Owned (t : FeedTables) : Prop := ∀ m ∈ t.markers, owner t m.entity = some m.organizationId

theorem Owned.changed {m : ChangeMarker} (owned : Owned t) (changed : Changed t m later) : Owned later := by
  intro marker member
  rw [changed.markers] at member
  rw [changed.owners]
  rcases List.mem_append.mp member with old | new
  · split
    · rename_i same
      have own := owned marker old
      rw [same] at own
      exact congrArg some (changed.before _ own).symm
    · exact owned marker old
  · cases List.mem_singleton.mp new
    exact if_pos rfl

theorem Announced.earlier {m : ChangeMarker} (announced : Announced later) (changed : Changed t m later) : Announced t := by
  intro marker member first
  refine announced marker (by simp [changed.markers,member]) (fun other there same => ?_)
  rw [changed.markers] at there
  rcases List.mem_append.mp there with old | new
  · exact first other old same
  · cases List.mem_singleton.mp new
    exact Nat.le_of_lt (Nat.lt_of_le_of_lt (Feeds.le_latest member) changed.above)

theorem foldr_min_le (ids : List Nat) (top : Nat) : ids.foldr min top ≤ top ∧ ∀ id ∈ ids, ids.foldr min top ≤ id := by
  induction ids with
  | nil => exact ⟨Nat.le_refl _,fun _ member => absurd member List.not_mem_nil⟩
  | cons id rest ih =>
    refine ⟨Nat.le_trans (Nat.min_le_right _ _) ih.1,fun other member => ?_⟩
    rcases List.mem_cons.mp member with rfl | tail
    · exact Nat.min_le_left _ _
    · exact Nat.le_trans (Nat.min_le_right _ _) (ih.2 other tail)

theorem foldr_min_mem (ids : List Nat) (top : Nat) : ids.foldr min top = top ∨ ids.foldr min top ∈ ids := by
  induction ids with
  | nil => exact .inl rfl
  | cons id rest ih =>
    rw [List.foldr_cons]
    rcases Nat.le_total id (rest.foldr min top) with first | later
    · rw [Nat.min_eq_left first]
      exact .inr List.mem_cons_self
    · rw [Nat.min_eq_right later]
      exact ih.imp (fun same => same) (List.mem_cons_of_mem _)

theorem groupOf_oldest {late : List ChangeMarker} {m : ChangeMarker} (member : m ∈ late) :
    (groupOf late m.entity).oldest ≤ m.id ∧ ∃ oldest ∈ late, oldest.entity = m.entity ∧ oldest.id = (groupOf late m.entity).oldest := by
  have named : m ∈ late.filter (fun other => other.entity = m.entity) := by simpa using member
  obtain ⟨_,newest,there,same,equal⟩ := groupOf_newest member
  refine ⟨(foldr_min_le _ _).2 _ (List.mem_map_of_mem named),?_⟩
  rcases foldr_min_mem ((late.filter (fun other => other.entity = m.entity)).map ChangeMarker.id)
    (latestMarkerId (late.filter (fun other => other.entity = m.entity))) with top | found
  · exact ⟨newest,there,same,equal.trans top.symm⟩
  · obtain ⟨oldest,kept,id⟩ := List.mem_map.mp found
    obtain ⟨listed,named⟩ := List.mem_filter.mp kept
    exact ⟨oldest,listed,of_decide_eq_true named,id⟩

-- Where the phases of a poll stand: an entity not told of yet that the page has
-- no entry of lies wholly beyond it, and one it has opens with its creation.
structure Opens (organization : String) (t : FeedTables) (told : Entity → Prop) (entities : List Entity) (bound : Nat) : Prop where
  within : bound ≤ latestMarkerId t.markers
  beyond : ∀ m ∈ markersOf organization t, ¬ told m.entity → m.entity ∉ entities → bound < m.id

def Begins (t : FeedTables) (told : Entity → Prop) (groups : List Group) : Prop :=
  ∀ group ∈ groups, ¬ told group.entity → ∃ m ∈ t.markers, m.id = group.oldest ∧ m.changeKind = .created

def Greets (organization : String) (t : FeedTables) (told : Entity → Prop) (cursor : Nat) : Poll → Prop
  | .idle => True
  | .grouped groups => Opens organization t told (groups.map Group.entity) (boundOf cursor groups) ∧ Begins t told groups
  | .marked groups markers => Opens organization t told (groups.map Group.entity) (boundOf cursor groups) ∧ Begins t told groups ∧
      ∀ m ∈ markers, m ∈ t.markers
  | .roomed groups markers _ => Opens organization t told (groups.map Group.entity) (boundOf cursor groups) ∧ Begins t told groups ∧
      ∀ m ∈ markers, m ∈ t.markers
  | .answered page => Opens organization t told (page.changes.map Change.entity) page.nextCursor ∧
      ∀ change ∈ page.changes, ¬ told change.entity → change.changeKind = .created

structure Greeted (organization : String) (s : Consumer) : Prop where
  rising : Feeds.Rising ChangeMarker.id s.tables.markers
  reach : s.cursor ≤ latestMarkerId s.tables.markers
  owned : Owned s.tables
  ahead : ∀ m ∈ markersOf organization s.tables, ¬ s.told m.entity → s.cursor < m.id
  first : ∀ entity, ∀ change ∈ firstEntry s entity, change.changeKind = .created
  poll : Greets organization s.tables s.told s.cursor s.poll

section
variable {told : Entity → Prop} {m : ChangeMarker} (written : Changed t m later)
include written

theorem Opens.changed {entities : List Entity} {bound : Nat} (opens : Opens organization t told entities bound) :
    Opens organization later told entities bound := by
  have above := Nat.lt_of_le_of_lt opens.within written.above
  refine ⟨?_,?_⟩
  · rw [written.latest]
    exact Nat.le_of_lt above
  · intro marker member unseen absent
    rcases written.mem.mp member with old | ⟨rfl,_⟩
    · exact opens.beyond marker old unseen absent
    · exact above

theorem Begins.changed {groups : List Group} (begins : Begins t told groups) : Begins later told groups := by
  intro group member unseen
  obtain ⟨marker,there,same⟩ := begins group member unseen
  exact ⟨marker,by simp [written.markers,there],same⟩

theorem Greets.changed {poll : Poll} (greets : Greets organization t told cursor poll) : Greets organization later told cursor poll := by
  have kept {marker : ChangeMarker} (there : marker ∈ t.markers) : marker ∈ later.markers := by simp [written.markers,there]
  cases poll with
  | idle => trivial
  | grouped groups => exact ⟨greets.1.changed written,greets.2.changed written⟩
  | marked groups markers => exact ⟨greets.1.changed written,greets.2.1.changed written,fun m member => kept (greets.2.2 m member)⟩
  | roomed groups markers rows => exact ⟨greets.1.changed written,greets.2.1.changed written,fun m member => kept (greets.2.2 m member)⟩
  | answered page => exact ⟨greets.1.changed written,greets.2⟩

end

theorem Greeted.change {m : ChangeMarker} (greeted : Greeted organization s) (changed : Changed s.tables m later) :
    Greeted organization {s with tables := later} := by
  have above := Nat.lt_of_le_of_lt greeted.reach changed.above
  refine ⟨?_,?_,greeted.owned.changed changed,?_,greeted.first,greeted.poll.changed changed⟩
  · change Feeds.Rising ChangeMarker.id later.markers
    rw [changed.markers]
    exact greeted.rising.append changed.above
  · change s.cursor ≤ latestMarkerId later.markers
    rw [changed.latest]
    exact Nat.le_of_lt above
  · intro marker member unseen
    rcases changed.mem.mp member with old | ⟨rfl,_⟩
    · exact greeted.ahead marker old unseen
    · exact above

theorem Greeted.polling (greeted : Greeted organization s) (poll : Poll) (greets : Greets organization s.tables s.told s.cursor poll) :
    Greeted organization {s with poll := poll} :=
  ⟨greeted.rising,greeted.reach,greeted.owned,greeted.ahead,greeted.first,greets⟩

-- The first marker of an entity whose markers all lie beyond the cursor.
theorem first_created (announced : Announced s.tables) (owned : Owned s.tables) {m : ChangeMarker} (member : m ∈ markersOf organization s.tables)
    (first : ∀ other ∈ markersOf organization s.tables, other.entity = m.entity → m.id ≤ other.id) : m.changeKind = .created := by
  obtain ⟨there,own⟩ := mem_markersOf.mp member
  refine announced m there (fun other listed same => first other (mem_markersOf.mpr ⟨listed,?_⟩) same)
  have one := owned m there
  rw [← same,owned other listed] at one
  exact (Option.some.inj one).trans own

theorem asked_greets (greeted : Greeted organization s) (announced : Announced s.tables) {limit : Nat} (turn : ¬ Overtaken organization s limit)
    {group : Group} {rest : List Group} (taken : (allGroups (markersOf organization s.tables) s.cursor).take limit = group :: rest)
    (within : boundOf s.cursor (group :: rest) ≤ latestMarkerId s.tables.markers) : Greets organization s.tables s.told s.cursor (.grouped (group :: rest)) := by
  -- The oldest marker of a group of an entity not told of is that entity's first.
  have opening : ∀ m ∈ markersOf organization s.tables, ¬ s.told m.entity → ∃ oldest ∈ markersOf organization s.tables,
      oldest.entity = m.entity ∧ oldest.changeKind = .created ∧ s.cursor < oldest.id ∧ oldest.id ≤ m.id ∧
      oldest.id = (groupOf (Feeds.beyond ChangeMarker.id s.cursor (markersOf organization s.tables)) m.entity).oldest := by
    intro m member unseen
    have late := Feeds.mem_beyond.mpr ⟨member,greeted.ahead m member unseen⟩
    obtain ⟨below,oldest,found,same,equal⟩ := groupOf_oldest late
    obtain ⟨listed,after⟩ := Feeds.mem_beyond.mp found
    refine ⟨oldest,listed,same,?_,after,equal ▸ below,equal⟩
    refine first_created announced greeted.owned listed (fun other there named => ?_)
    have others := groupOf_oldest (Feeds.mem_beyond.mpr ⟨there,greeted.ahead other there (by rw [named,same]; exact unseen)⟩)
    rw [named,same,← equal] at others
    exact others.1
  refine ⟨⟨within,?_⟩,?_⟩
  · intro m member unseen absent
    obtain ⟨oldest,listed,same,created,after,below,_⟩ := opening m member unseen
    have late := Feeds.mem_beyond.mpr ⟨member,greeted.ahead m member unseen⟩
    have grouped := mem_allGroups.mpr ⟨m,late,rfl⟩
    rw [← List.take_append_drop limit (allGroups _ _)] at grouped
    rcases List.mem_append.mp grouped with kept | left
    · rw [taken] at kept
      exact absurd (List.mem_map_of_mem kept) absent
    · obtain ⟨last,ends⟩ : ∃ last, (group :: rest).getLast? = some last := ⟨_,List.getLast?_eq_some_getLast (by simp)⟩
      have last_ : last ∈ (allGroups (markersOf organization s.tables) s.cursor).take limit := taken ▸ List.mem_of_getLast? ends
      rw [boundOf_last ends]
      by_contra early
      exact turn ⟨_,left,last,last_,oldest,listed,same,created,after,by omega⟩
  · intro g member unseen
    have inside : g ∈ allGroups (markersOf organization s.tables) s.cursor := List.mem_of_mem_take (taken ▸ member)
    obtain ⟨m,late,rfl⟩ := mem_allGroups.mp inside
    obtain ⟨oldest,listed,_,created,_,_,equal⟩ := opening m (Feeds.mem_beyond.mp late).1 unseen
    exact ⟨oldest,(mem_markersOf.mp listed).1,equal,created⟩

theorem entries_kinds {markers : List ChangeMarker} {rows : List (Entity × Option Row)} {groups : List Group} {changes : List Change}
    (entries : groups.mapM (entryOf markers rows) = some changes) {change : Change} (member : change ∈ changes) :
    ∃ group ∈ groups, change.entity = group.entity ∧ ∃ m ∈ markers, m.id = group.oldest ∧ change.changeKind = m.changeKind := by
  induction groups generalizing changes with
  | nil =>
    rw [List.mapM_nil] at entries
    cases entries
    exact absurd member List.not_mem_nil
  | cons group rest ih =>
    simp only [List.mapM_cons,Option.bind_eq_bind,Option.bind_eq_some_iff,Option.pure_def,Option.some.injEq] at entries
    obtain ⟨entry,made,others,tail,rfl⟩ := entries
    rcases List.mem_cons.mp member with rfl | later
    · unfold entryOf at made
      simp only [Option.bind_eq_bind,Option.bind_eq_some_iff,Option.pure_def,Option.some.injEq] at made
      obtain ⟨oldest,found,_,_,rfl⟩ := made
      exact ⟨group,List.mem_cons_self,rfl,oldest,List.mem_of_find?_eq_some found,by simpa using List.find?_some found,rfl⟩
    · obtain ⟨source,listed,rest_⟩ := ih tail later
      exact ⟨source,List.mem_cons_of_mem _ listed,rest_⟩

theorem answer_greets (greeted : Greeted organization s) {groups : List Group} {markers : List ChangeMarker}
    {rows : List (Entity × Option Row)} {changes : List Change} (greets : Greets organization s.tables s.told s.cursor (.roomed groups markers rows))
    (entries : groups.mapM (entryOf markers (rows ++ reservationRows s.tables (groups.map Group.entity))) = some changes) :
    Greets organization s.tables s.told s.cursor (.answered ⟨changes,nextCursor s.cursor changes⟩) := by
  obtain ⟨opens,begins,read⟩ := greets
  obtain ⟨cursors,entities,_⟩ := entries_parts entries
  rw [nextCursor_bound cursors]
  refine ⟨entities ▸ opens,fun change member unseen => ?_⟩
  obtain ⟨group,listed,same,m,found,id,kind⟩ := entries_kinds entries member
  obtain ⟨first,there,equal,created⟩ := begins group listed (same ▸ unseen)
  cases greeted.rising.same (read m found) there (id.trans equal.symm)
  exact kind.trans created

theorem Greeted.received (greeted : Greeted organization s) {page : Page} (answered : s.poll = .answered page) :
    Greeted organization {s with poll := .idle,cursor := page.nextCursor,copies := apply s.copies page.changes,pages := s.pages ++ [page]} := by
  have greets := greeted.poll
  rw [answered] at greets
  obtain ⟨opens,kinds⟩ := greets
  have entries : (s.pages ++ [page]).flatMap Page.changes = s.entries ++ page.changes := by simp [Consumer.entries]
  refine ⟨greeted.rising,opens.within,greeted.owned,?_,?_,trivial⟩
  · intro m member unseen
    change ¬ m.entity ∈ ((s.pages ++ [page]).flatMap Page.changes).map Change.entity at unseen
    rw [entries,List.map_append,List.mem_append,not_or] at unseen
    exact opens.beyond m member unseen.1 unseen.2
  · intro entity change found
    change ((s.pages ++ [page]).flatMap Page.changes).find? (fun change => change.entity = entity) = some change at found
    rw [entries,List.find?_append] at found
    cases earlier : s.entries.find? (fun change => change.entity = entity) with
    | some opening =>
      rw [earlier] at found
      cases Option.some.inj found
      exact greeted.first entity _ earlier
    | none =>
      rw [earlier,Option.none_or] at found
      have named : change.entity = entity := by simpa using List.find?_some found
      refine kinds change (List.mem_of_find?_eq_some found) (fun seen => ?_)
      obtain ⟨other,there,same⟩ := List.mem_map.mp seen
      have unlike := List.find?_eq_none.mp earlier other there
      simp [same,named] at unlike

-- A page with nothing on it tells of nothing.
theorem Greeted.nothing (greeted : Greeted organization s) : Greeted organization {s with pages := s.pages ++ [⟨[],s.cursor⟩]} := by
  have entries : ({s with pages := s.pages ++ [⟨[],s.cursor⟩]} : Consumer).entries = s.entries := by simp [Consumer.entries]
  have told : ({s with pages := s.pages ++ [⟨[],s.cursor⟩]} : Consumer).told = s.told := by
    funext entity
    unfold Consumer.told
    rw [entries]
  refine ⟨greeted.rising,greeted.reach,greeted.owned,?_,?_,?_⟩
  · rw [told]
    exact greeted.ahead
  · unfold firstEntry
    rw [entries]
    exact greeted.first
  · rw [told]
    exact greeted.poll

theorem Greeted.preserved {op : Operation} (following : Following organization s) (greeted : Greeted organization s)
    (announced : Announced s.tables) (turn : InTurn organization s op) (taken : step organization s op = some next) :
    Greeted organization next := by
  cases op with
  | change id at_ row =>
    obtain ⟨later,changed,rfl⟩ := Option.map_eq_some_iff.mp taken
    obtain ⟨m,changed⟩ := change_changed changed
    exact greeted.change changed
  | ask limit =>
    simp only [step,Option.ite_none_right_eq_some] at taken
    obtain ⟨_,taken⟩ := taken
    split at taken
    · cases taken
      exact greeted.nothing
    · rename_i groups some_
      cases taken
      cases grouped : (allGroups (markersOf organization s.tables) s.cursor).take limit with
      | nil => exact absurd grouped some_
      | cons group rest =>
        have covers := groups_cover following.rising (fun m member => (following.held m member).own) grouped
        exact greeted.polling _ (asked_greets greeted announced turn grouped covers.reach)
  | readMarkers =>
    simp only [step] at taken
    split at taken
    · rename_i grouped
      cases taken
      have greets := greeted.poll
      rw [grouped] at greets
      refine greeted.polling _ ⟨greets.1,greets.2,fun m member => ?_⟩
      exact (mem_markersOf.mp (List.mem_filter.mp member).1).1
    · cases taken
  | readResources =>
    simp only [step] at taken
    split at taken
    · rename_i marked
      cases taken
      have greets := greeted.poll
      rw [marked] at greets
      exact greeted.polling _ greets
    · cases taken
  | readReservations =>
    simp only [step] at taken
    split at taken
    · rename_i roomed
      simp only [Option.bind_eq_bind,Option.bind_eq_some_iff,Option.pure_def,Option.some.injEq] at taken
      obtain ⟨changes,entries,rfl⟩ := taken
      have greets := greeted.poll
      rw [roomed] at greets
      exact greeted.polling _ (answer_greets greeted greets entries)
    · cases taken
  | receive =>
    simp only [step] at taken
    split at taken
    · rename_i answered
      cases taken
      exact greeted.received answered
    · cases taken
  | giveUp =>
    cases taken
    exact greeted.polling .idle trivial

theorem announced_before {op : Operation} (taken : step organization s op = some next) (announced : Announced next.tables) :
    Announced s.tables := by
  cases op with
  | change id at_ row =>
    obtain ⟨later,changed,rfl⟩ := Option.map_eq_some_iff.mp taken
    obtain ⟨m,changed⟩ := change_changed changed
    exact announced.earlier changed
  | ask limit =>
    simp only [step,Option.ite_none_right_eq_some] at taken
    obtain ⟨_,taken⟩ := taken
    split at taken <;> (cases taken; exact announced)
  | readMarkers =>
    simp only [step] at taken
    split at taken
    · cases taken
      exact announced
    · cases taken
  | readResources =>
    simp only [step] at taken
    split at taken
    · cases taken
      exact announced
    · cases taken
  | readReservations =>
    simp only [step] at taken
    split at taken
    · simp only [Option.bind_eq_bind,Option.bind_eq_some_iff,Option.pure_def,Option.some.injEq] at taken
      obtain ⟨_,_,rfl⟩ := taken
      exact announced
    · cases taken
  | receive =>
    simp only [step] at taken
    split at taken
    · cases taken
      exact announced
    · cases taken
  | giveUp =>
    cases taken
    exact announced

-- A consumer whose polls leave out no entity created before the end of the page
-- hears of every entity first that it was created.
theorem first_entries_created {resources : List ResourceRow} {reservations : List ReservationRow}
    {linked : ∀ held ∈ reservations, (resourceAt resources held.resourceId).isSome}
    (path : Runs.Reached (Runs.Guarded (Steps organization) (InTurn organization)) (.start resources reservations linked) s)
    (announced : Announced s.tables) : ∀ entity, ∀ change ∈ firstEntry s entity, change.changeKind = .created := by
  have run : Following organization s ∧ (Announced s.tables → Greeted organization s) := by
    apply path.invariant (fun s => Following organization s ∧ (Announced s.tables → Greeted organization s))
    · refine ⟨start_following,fun _ => ⟨.nil,Nat.zero_le _,?_,?_,?_,trivial⟩⟩
      · exact fun _ member => absurd member List.not_mem_nil
      · exact fun _ member => absurd member List.not_mem_nil
      · intro entity change found
        cases found
    · intro before op after ⟨following,greeted⟩ ⟨turn,taken⟩
      refine ⟨following.preserved taken,fun announced => ?_⟩
      have acted : step organization before op = some after := taken
      have earlier := announced_before acted announced
      exact (greeted earlier).preserved following earlier turn taken
  exact (run.2 announced).first

theorem hall_announced : ∃ s, Runs.trace (step "default") (InTurn "default") (.start [] [] nofun) changedWhilePolled = some s ∧
    (firstEntry s (.resource,1)).isSome ∧ ∀ change ∈ firstEntry s (.resource,1), change.changeKind = .created := by
  have taken : ∃ s, Runs.trace (step "default") (InTurn "default") (.start [] [] nofun) changedWhilePolled = some s ∧
      Announced s.tables ∧ (firstEntry s (.resource,1)).isSome := ⟨_,rfl,by decide,rfl⟩
  obtain ⟨s,run,announced,told⟩ := taken
  exact ⟨s,run,told,first_entries_created (Runs.trace_reached .start run) announced (.resource,1)⟩

-- The hall is created, then booked, then renamed, and a page of one entry is
-- asked for: the booking's.
def renamedBeforePolled : List Operation := [.change 1 900 (.resource (hall "Hall") .created),
  .change 2 901 (.reservation (hallBooking .held) .created),.change 3 902 (.resource (hall "Great Hall") .updated),
  .ask 1,.readMarkers,.readResources,.readReservations,.receive,.ask 1,.readMarkers,.readResources,.readReservations,.receive]

theorem hall_first_updated : ∃ s, Runs.trace (step "default") (fun _ _ => True) (.start [] [] nofun) renamedBeforePolled = some s ∧
    Announced s.tables ∧ (firstEntry s (.resource,1)).map Change.changeKind = some .updated ∧
      ¬ ∀ s, Runs.Reached (Steps "default") (.start [] [] nofun) s → Announced s.tables →
        ∀ entity, ∀ change ∈ firstEntry s entity, change.changeKind = .created := by
  have taken : ∃ s, Runs.trace (step "default") (fun _ _ => True) (.start [] [] nofun) renamedBeforePolled = some s ∧
      Announced s.tables ∧ (firstEntry s (.resource,1)).map Change.changeKind = some .updated := ⟨_,rfl,by decide,rfl⟩
  obtain ⟨s,run,announced,told⟩ := taken
  refine ⟨s,run,announced,told,fun claimed => ?_⟩
  obtain ⟨change,first,updated⟩ := Option.map_eq_some_iff.mp told
  have created := claimed s (Runs.trace_reached .start run).unguard announced (.resource,1) change first
  rw [updated] at created
  cases created

end ChronosLedger.ChangeFeed
