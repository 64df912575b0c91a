import ChronosLedger.ArchiveTransfers

namespace ChronosLedger.Portability
open JsonText

variable {d d' : Dialect} {draws : Draws} {table : Table} {db start current after : Database} {keys : Nat} {row : Row} {rows : List Row}
  {includeSecrets : Bool}

def ordered (db : Database) (table : Table) : List Row := (db.rows table.name).insertionSort inOrder

theorem ordered_perm : (ordered db table).Perm (db.rows table.name) := List.perm_insertionSort _ _

theorem ordered_mem : row ∈ ordered db table ↔ row ∈ db.rows table.name := ordered_perm.mem_iff

theorem ordered_apart (listed : table ∈ exported) : (ordered db table).Pairwise (fun one two => table.apart d one two = true) ↔
    (db.rows table.name).Pairwise (fun one two => table.apart d one two = true) :=
  List.Perm.pairwise_iff (fun {one two} apart => by rw [apart_symm listed]; exact apart) ordered_perm

theorem ordered_lot (formed : WellFormed d db) (listed : table ∈ exported) : Lot d table (ordered db table) where
  held := fun row inside => formed.holds table listed row (ordered_mem.mp inside)
  sound := fun row inside => formed.sound table listed row (ordered_mem.mp inside)
  together := (List.Perm.pairwise_iff (fun {one two} => together_symm listed) ordered_perm).mpr (formed.together table listed)
  own := by
    intro row inside foreign member target
    have holds := formed.keys table listed row (ordered_mem.mp inside) foreign member
    rcases holds_parts.mp holds with empty | named
    · exact .inl empty
    · obtain ⟨other,there,names⟩ := named
      rw [target] at there
      exact .inr ⟨other,ordered_mem.mpr there,names⟩

-- What an export has of a table.
noncomputable def recordsOf (d : Dialect) (includeSecrets : Bool) (db : Database) (table : Table) : List (List (String × Scalar)) :=
  (ordered db table).map (fun row => table.record (omittedFrom includeSecrets table.name) (rowSays d row))

theorem exportTable_ordered : exportTable d includeSecrets none db table =
    (ordered db table).mapM (recordOf d (table.kept (omittedFrom includeSecrets table.name))) := by
  unfold exportTable ordered
  have all : (db.rows table.name).filter (ownedBy table none) = db.rows table.name := List.filter_eq_self.mpr (fun _ _ => rfl)
  rw [all]

theorem exportTable_records (listed : table ∈ exported) (lot : Lot d table (ordered db table)) :
    exportTable d includeSecrets none db table = some (recordsOf d includeSecrets db table) := by
  rw [exportTable_ordered]
  apply mapM_all
  intro row inside
  have parts := fun column member => said_parts (lot.held row inside column member)
  refine recordOf_contents (exported_regular listed).sound (fun column member => (parts column member).1) (fun column member => ?_)
  exact (parts column (kept_parts.mp member).1).2.2

theorem mapM_archive {records : Table → List (List (String × Scalar))}
    (each : ∀ table ∈ exported, exportTable d includeSecrets none db table = some (records table)) :
    exportArchive d includeSecrets none db = some (archiveOf includeSecrets (exported.map (fun table => (table.name,records table)))) := by
  unfold exportArchive
  have all : exported.mapM (fun table => (exportTable d includeSecrets none db table).map (fun records => (table.name,records))) =
      some (exported.map (fun table => (table.name,records table))) := by
    apply mapM_all
    intro table member
    rw [each table member]
    rfl
  rw [all]
  rfl

-- An export and what it holds.
noncomputable def archiveFor (d : Dialect) (includeSecrets : Bool) (db : Database) : Archive :=
  archiveOf includeSecrets (exported.map (fun table => (table.name,recordsOf d includeSecrets db table)))

theorem exportArchive_formed (includeSecrets : Bool) (formed : WellFormed d db) :
    exportArchive d includeSecrets none db = some (archiveFor d includeSecrets db) :=
  mapM_archive (fun _ listed => exportTable_records listed (ordered_lot formed listed))

theorem lookup_mapped {α β γ : Type} [BEq β] [LawfulBEq β] (key : α → β) (value : α → γ) {items : List α} {item : α}
    (distinct : (items.map key).Nodup) (member : item ∈ items) :
    (items.map (fun item => (key item,value item))).lookup (key item) = some (value item) := by
  induction items with
  | nil => cases member
  | cons first items ih =>
    obtain ⟨apart,distinct'⟩ := List.nodup_cons.mp distinct
    rw [List.map_cons,List.lookup_cons]
    rcases List.mem_cons.mp member with rfl | later
    · rw [beq_self_eq_true]
    · have other : (key item == key first) = false := by
        rw [beq_eq_false_iff_ne]
        intro same
        exact apart (same ▸ List.mem_map_of_mem later)
      rw [other]
      exact ih distinct' later

theorem exported_members : (exported.map (fun table => memberName table.name)).Nodup := by decide

theorem archiveOf_member {records : Table → List (List (String × Scalar))} (listed : table ∈ exported) :
    (archiveOf includeSecrets (exported.map (fun table => (table.name,records table)))).members.lookup (memberName table.name) =
      some (((records table).map line).flatten) := by
  unfold archiveOf
  dsimp only
  rw [List.map_map]
  exact lookup_mapped (fun table : Table => memberName table.name) (fun table => ((records table).map line).flatten) exported_members listed

theorem archiveFor_expected (listed : table ∈ exported) :
    (archiveFor d includeSecrets db).manifest.expected table.name = (recordsOf d includeSecrets db table).length := by
  unfold Manifest.expected archiveFor archiveOf
  dsimp only
  rw [List.map_map]
  cases found : ((exported.map (fun table => (⟨table.name,memberName table.name,((recordsOf d includeSecrets db table).length : Int)⟩ :
      Entry))).reverse).find?
      (fun entry => decide (entry.name = table.name)) with
  | none =>
    refine absurd (decide_eq_true rfl) (List.find?_eq_none.mp found
        ⟨table.name,memberName table.name,((recordsOf d includeSecrets db table).length : Int)⟩ ?_)
    rw [List.mem_reverse]
    exact List.mem_map.mpr ⟨table,listed,rfl⟩
  | some entry =>
    have named := List.find?_some found
    obtain ⟨other,member,rfl⟩ := List.mem_map.mp (List.mem_reverse.mp (List.mem_of_find?_eq_some found))
    have same : other = table := List.inj_on_of_nodup_map exported_names member listed (of_decide_eq_true named)
    subst same
    change ((List.find? _ _).map _).getD 0 = _
    erw [found]
    rfl

theorem listed_tables : (archiveFor d includeSecrets db).manifest.tables.map (fun entry => entry.name) =
    exported.map (fun table => table.name) := by
  unfold archiveFor archiveOf
  dsimp only
  rw [List.map_map,List.map_map]
  rfl

theorem listed_members : (archiveFor d includeSecrets db).members.map (fun member => member.1) =
    exported.map (fun table => memberName table.name) := by
  unfold archiveFor archiveOf
  dsimp only
  rw [List.map_map,List.map_map]
  rfl

theorem forM_all {α ε : Type} {f : α → Except ε Unit} {items : List α} (each : ∀ item ∈ items, f item = .ok ()) :
    items.forM f = .ok () := by
  induction items with
  | nil => rfl
  | cons item items ih =>
    change (f item).bind (fun _ => items.forM f) = _
    rw [each item List.mem_cons_self]
    exact ih (fun other member => each other (List.mem_cons_of_mem _ member))

-- The import takes an export's manifest.
theorem readManifest_archiveFor : readManifest (archiveFor d includeSecrets db) = .ok (archiveFor d includeSecrets db).manifest := by
  have entries : (archiveFor d includeSecrets db).manifest.tables.forM (checkEntry (archiveFor d includeSecrets db)) = .ok () := by
    apply forM_all
    intro entry member
    unfold checkEntry
    rw [listed_members]
    unfold archiveFor archiveOf at member
    dsimp only at member
    rw [List.map_map] at member
    obtain ⟨table,listed,rfl⟩ := List.mem_map.mp member
    have there : memberName table.name ∈ exported.map (fun table => memberName table.name) := List.mem_map.mpr ⟨table,listed,rfl⟩
    rw [if_neg (by rw [not_or,not_not,not_not]; exact ⟨rfl,there⟩),if_neg (by exact not_lt.mpr (Int.natCast_nonneg _))]
  have omissions : (archiveFor d includeSecrets db).manifest.omittedColumns.isPerm
      (omittedColumns (archiveFor d includeSecrets db).manifest.secretsIncluded) = true := List.isPerm_iff.mpr (.refl _)
  have tables : ((archiveFor d includeSecrets db).manifest.tables.map (fun entry => entry.name)).isPerm
      (exported.map (fun table => table.name)) =
      true := by
    rw [listed_tables]
    exact List.isPerm_iff.mpr (.refl _)
  have version : ¬formatVersion < (archiveFor d includeSecrets db).manifest.formatVersion := lt_irrefl _
  unfold readManifest
  dsimp only
  rw [if_neg (fun other => other rfl),if_neg version,if_neg (fun other => other rfl),if_neg (fun other => other rfl),omissions,
    if_neg (by simp),tables,if_neg (by simp),entries]
  rfl

-- Every table comes after those its rows name.
def placed : List String → List Table → Bool
  | _,[] => true
  | seen,table :: rest => table.foreignKeys.all (fun foreign => foreign.target = table.name ∨ foreign.target ∈ seen) &&
      placed (table.name :: seen) rest

theorem exported_placed : placed [] exported = true := by decide

theorem exported_targets : ∀ table ∈ exported, ∀ foreign ∈ table.foreignKeys, ∃ target ∈ exported, target.name = foreign.target ∧
    target.reads foreign.targetColumns = true ∧ ∀ name ∈ foreign.targetColumns, name ∉ omittedFrom false target.name := by
  decide

-- The rows a row names are there, once their tables are.
theorem foreign_arrived (formed : WellFormed d db) (listed : table ∈ exported) (inside : row ∈ ordered db table) {foreign : ForeignKey}
    (member : foreign ∈ table.foreignKeys) (there : ∀ target ∈ exported, target.name = foreign.target →
      current.rows target.name = arrived draws d d' includeSecrets target (ordered db target)) : foreign.holds current row = true := by
  obtain ⟨target,listed',named,reads_,open_⟩ := exported_targets table listed foreign member
  rcases holds_parts.mp (formed.keys table listed row (ordered_mem.mp inside) foreign member) with empty | found
  · exact holds_parts.mpr (.inl empty)
  · obtain ⟨other,within,names⟩ := found
    rw [← named] at within
    obtain ⟨number,_,_,arrives⟩ := mem_arrivals draws d target (omittedFrom includeSecrets target.name) 0 (ordered_mem.mpr within)
    refine holds_parts.mpr (.inr ⟨arriving draws d d' target (omittedFrom includeSecrets target.name) [] number other,?_,
        names_parts.mpr ?_⟩)
    · rw [← named,there target listed' named]
      unfold arriving
      rw [blanked_nil]
      exact List.mem_map.mpr ⟨_,arrives,rfl⟩
    · intro pair among
      have kept : pair.2 ∉ [] ++ omittedFrom includeSecrets target.name :=
        fun out => open_ pair.2 (List.of_mem_zip among).2 (omittedFrom_within out)
      rw [(arriving_alike listed' (formed.holds target listed' other within)).same reads_ (List.of_mem_zip among).2 kept]
      exact names_parts.mp names pair among

-- Table after table.
theorem tables_exact (formed : WellFormed d db) (sane : includeSecrets = false → draws.Sane keys) (few : (db.rows "api_keys").length ≤ keys)
    (takes : ∀ table ∈ exported, ∀ row ∈ db.rows table.name, ∀ column ∈ table.kept (omittedFrom includeSecrets table.name),
      Takes d' column.kind (row column.name) = true) (tables : List Table) (seen : List String)
          (within : ∀ table ∈ tables, table ∈ exported)
    (once : (tables.map Table.name).Nodup) (order : placed seen tables = true)
    (done : ∀ table ∈ exported, table.name ∈ seen → current.rows table.name = arrived draws d d' includeSecrets table (ordered db table))
    (left : ∀ table ∈ tables, current.rows table.name = [] ∧ table.name ∉ seen) :
    tables.foldlM (fun into table => load d' draws (archiveFor d includeSecrets db) table
        ((archiveFor d includeSecrets db).manifest.expected table.name)
      (omittedFrom includeSecrets table.name) into) current = .ok after ↔
      (∀ table ∈ tables, (db.rows table.name).Pairwise (fun one two => table.apart d' one two = true)) ∧
        after = tables.foldl (fun into table => into.put table.name
            (arrived draws d d' includeSecrets table (ordered db table))) current := by
  induction tables generalizing seen current with
  | nil =>
    constructor
    · intro same
      cases same
      exact ⟨fun _ member => (by cases member),rfl⟩
    · intro both
      rw [both.2]
      rfl
  | cons table tables ih =>
    have listed := within table List.mem_cons_self
    obtain ⟨out,once'⟩ := List.nodup_cons.mp once
    obtain ⟨before,order'⟩ := Bool.and_eq_true_iff.mp order
    have foreign : ∀ row ∈ ordered db table, ∀ foreign ∈ table.foreignKeys, foreign.target ≠ table.name →
        foreign.holds current row = true := by
      intro row inside foreign member other
      have named := of_decide_eq_true (List.all_eq_true.mp before foreign member)
      refine foreign_arrived formed listed inside member (fun target listed' same => done target listed' ?_)
      rw [same]
      exact named.resolve_left other
    have length : (archiveFor d includeSecrets db).manifest.expected table.name = (ordered db table).length := by
      rw [archiveFor_expected listed]
      unfold recordsOf
      rw [List.length_map]
    have entry : (archiveFor d includeSecrets db).members.lookup (memberName table.name) =
        some (((recordsOf d includeSecrets db table).map line).flatten) := archiveOf_member listed
    have read : lines (((recordsOf d includeSecrets db table).map line).flatten) =
        table.texts (omittedFrom includeSecrets table.name) ((ordered db table).map (rowSays d)) := by
      rw [lines_records]
      unfold recordsOf Table.texts
      rw [List.map_map,List.map_map]
      rfl
    have one := fun after => load_exact after listed (ordered_lot formed listed) sane
      (fun api => (ordered_perm.length_eq.trans (by rw [api])).le.trans few)
      (fun row inside => takes table listed row (ordered_mem.mp inside)) foreign entry read (left table List.mem_cons_self).1
    rw [List.foldlM_cons,length,List.forall_mem_cons,← ordered_apart listed]
    by_cases apart : (ordered db table).Pairwise (fun one two => table.apart d' one two = true)
    · rw [(one _).mpr ⟨apart,rfl⟩]
      refine (ih (table.name :: seen) (fun other inside => within other (List.mem_cons_of_mem _ inside)) once' order' ?_ ?_).trans
        (and_congr_left' (and_iff_right apart).symm)
      · intro other listed' inside
        by_cases same : other.name = table.name
        · rw [List.inj_on_of_nodup_map exported_names listed' listed same]
          exact put_rows
        · rw [put_other same]
          exact done other listed' ((List.mem_cons.mp inside).resolve_left same)
      · intro other inside
        have different : other.name ≠ table.name := fun same => out (same ▸ List.mem_map_of_mem inside)
        obtain ⟨empty,fresh⟩ := left other (List.mem_cons_of_mem _ inside)
        rw [put_other different]
        exact ⟨empty,fun both => (List.mem_cons.mp both).elim different fresh⟩
    · refine iff_of_false (fun went => ?_) (fun all => apart all.1.1)
      cases first : load d' draws (archiveFor d includeSecrets db) table (ordered db table).length (omittedFrom includeSecrets table.name)
          current with
      | error refusal =>
        rw [first] at went
        cases went
      | ok mid => exact apart ((one mid).mp first).1

-- The database after its tables are in.
noncomputable def landed (draws : Draws) (d d' : Dialect) (includeSecrets : Bool) (db start : Database) : Database :=
  exported.foldl (fun into table => into.put table.name (arrived draws d d' includeSecrets table (ordered db table))) start

theorem puts_rows (rowsOf : Table → List Row) {tables : List Table} (once : (tables.map Table.name).Nodup) (member : table ∈ tables) :
    (tables.foldl (fun into table => into.put table.name (rowsOf table)) start).rows table.name = rowsOf table := by
  induction tables using List.reverseRecOn with
  | nil => cases member
  | append_singleton tables last ih =>
    rw [List.foldl_append]
    rw [List.map_append,List.nodup_append] at once
    rcases List.mem_append.mp member with before | only
    · have other : table.name ≠ last.name :=
        once.2.2 table.name (List.mem_map_of_mem before) last.name (by simp)
      exact (put_other other).trans (ih once.1 before)
    · rw [List.mem_singleton.mp only]
      exact put_rows

theorem landed_rows (listed : table ∈ exported) :
    (landed draws d d' includeSecrets db start).rows table.name = arrived draws d d' includeSecrets table (ordered db table) :=
  puts_rows (fun table => arrived draws d d' includeSecrets table (ordered db table)) exported_names listed

def Vacant (db : Database) : Prop := ∀ name ∈ exported.map (fun table => table.name) ++ excluded, db.rows name = []

theorem refuseRows_vacant (vacant : Vacant start) : refuseRows start = .ok () := by
  unfold refuseRows
  have none_ : (exported.map (fun table => table.name) ++ excluded).filter (fun name => (start.rows name).isEmpty = false) = [] := by
    rw [List.filter_eq_nil_iff]
    intro name member
    rw [vacant name member]
    simp
  rw [none_]
  rfl

-- All the tables go in just when no constraint is in the way.
theorem loadTables_exact (formed : WellFormed d db) (vacant : Vacant start)
    (sane : includeSecrets = false → draws.Sane (db.rows "api_keys").length)
    (takes : ∀ table ∈ exported, ∀ row ∈ db.rows table.name, ∀ column ∈ table.kept (omittedFrom includeSecrets table.name),
      Takes d' column.kind (row column.name) = true) :
    loadTables d' draws (archiveFor d includeSecrets db) start = .ok after ↔
      (∀ table ∈ exported, (db.rows table.name).Pairwise (fun one two => table.apart d' one two = true)) ∧
        after = landed draws d d' includeSecrets db start := by
  refine tables_exact formed sane le_rfl takes exported [] (fun _ member => member) exported_names exported_placed ?_ ?_
  · intro table _ seen
    cases seen
  · intro table listed
    exact ⟨vacant table.name (List.mem_append_left _ (List.mem_map_of_mem listed)),List.not_mem_nil⟩

theorem inOrder_total (one two : Row) : inOrder one two ∨ inOrder two one := by
  unfold inOrder
  rcases lt_trichotomy (one "id").number (two "id").number with less | same | more
  · exact .inl (.inl less)
  · rcases le_total (one "id").letters (two "id").letters with before | behind
    · exact .inl (.inr ⟨same,before⟩)
    · exact .inr (.inr ⟨same.symm,behind⟩)
  · exact .inr (.inl more)

theorem inOrder_trans {one two three : Row} (first : inOrder one two) (second : inOrder two three) : inOrder one three := by
  unfold inOrder at *
  rcases first with less | both
  · rcases second with less' | both'
    · exact .inl (less.trans less')
    · exact .inl (less.trans_le both'.1.le)
  · rcases second with less' | both'
    · exact .inl (both.1.le.trans_lt less')
    · exact .inr ⟨both.1.trans both'.1,both.2.trans both'.2⟩

instance : Std.Total inOrder := ⟨inOrder_total⟩
instance : IsTrans Row inOrder := ⟨fun _ _ _ => inOrder_trans⟩

theorem ordered_sorted : (ordered db table).Pairwise inOrder := List.pairwise_insertionSort _ _

-- The order is of the keys.
theorem ids_sorted {shown : List Row} (same : shown.map (fun row => row "id") = rows.map (fun row => row "id"))
    (sorted : rows.Pairwise inOrder) :
    shown.Pairwise inOrder := by
  let before (one two : Cell) : Prop := one.number < two.number ∨ one.number = two.number ∧ one.letters ≤ two.letters
  have ids : (rows.map (fun row => row "id")).Pairwise before := List.pairwise_map.mpr sorted
  rw [← same] at ids
  have back := List.pairwise_map.mp ids
  exact back

-- A row of the database that has what arrived in all that an export shows.
def Shows (d : Dialect) (table : Table) (omitted : List String) (contents : Column → Content) (row : Row) : Prop :=
  ∀ column ∈ table.kept omitted, row column.name = (contents column).cell d column.kind

theorem shown_ids (listed : table ∈ exported) (held : ∀ row ∈ rows, Held d table row) {omitted : List String}
    (within : ∀ name ∈ omitted, name ∈ omittedFrom false table.name) {count : Nat} {shown : List Row}
    (shows_ : List.Forall₂ (Shows d' table omitted) (draws.arrivals table omitted count (rows.map (rowSays d))) shown) :
    shown.map (fun row => row "id") = rows.map (fun row => row "id") := by
  have regular := exported_regular listed
  obtain ⟨key,keyed,named,neutral⟩ := key_listed regular
  have kept : key.name ∉ omitted := by
    rw [named]
    exact fun out => regular.keyed (List.mem_append_right _ (within _ out))
  induction rows generalizing count shown with
  | nil =>
    cases shows_
    rfl
  | cons row rows ih =>
    rw [List.map_cons,Draws.arrivals] at shows_
    cases shows_ with
    | @cons _ row' _ rest first later =>
      have id := first key (kept_parts.mpr ⟨keyed,kept⟩)
      rw [moved_cell listed (held row List.mem_cons_self) keyed kept neutral,named] at id
      rw [List.map_cons,List.map_cons,id,ih (fun other inside => held other (List.mem_cons_of_mem _ inside)) later]

theorem records_shown (listed : table ∈ exported) {omitted : List String} {arrivals : List (Column → Content)} {shown : List Row}
    (of : ∀ contents ∈ arrivals, ∀ column ∈ table.columns, (contents column).Of column)
    (shows_ : List.Forall₂ (Shows d' table omitted) arrivals shown) :
    shown.mapM (recordOf d' (table.kept omitted)) = some (arrivals.map (table.record omitted)) := by
  induction shows_ with
  | nil => rfl
  | cons first _ ih =>
    rw [List.mapM_cons,recordOf_contents (exported_regular listed).sound (of _ List.mem_cons_self) first,
      ih (fun contents inside => of contents (List.mem_cons_of_mem _ inside))]
    rfl

-- What the second export has of a table.
theorem exportTable_shown (listed : table ∈ exported) (lot : Lot d table rows) (sorted : rows.Pairwise inOrder)
    (of : ∀ contents ∈ arrivalsOf draws d includeSecrets table rows, ∀ column ∈ table.columns, (contents column).Of column)
    (shows_ : List.Forall₂ (Shows d' table (omittedFrom includeSecrets table.name)) (arrivalsOf draws d includeSecrets table rows)
      (after.rows table.name)) :
    exportTable d' includeSecrets none after table =
      some ((arrivalsOf draws d includeSecrets table rows).map (table.record (omittedFrom includeSecrets table.name))) := by
  have still : ordered after table = after.rows table.name :=
    (ids_sorted (shown_ids listed lot.held (fun name => omittedFrom_within) shows_) sorted).insertionSort_eq
  rw [exportTable_ordered,still,records_shown listed of shows_]

theorem arrived_shows (listed : table ∈ exported) {omitted : List String} {arrivals : List (Column → Content)} :
    List.Forall₂ (Shows d' table omitted) arrivals (arrivals.map (table.saying d')) := by
  rw [List.forall₂_map_right_iff,List.forall₂_same]
  intro contents _ column kept
  exact saying_at (exported_columns table listed).1 (kept_parts.mp kept).1

end ChronosLedger.Portability
