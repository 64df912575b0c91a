import ChronosLedger.ArchiveWrites

namespace ChronosLedger.Portability
open JsonText

-- The columns an import of a redacted archive sets anew.
def redated (table : String) : List String :=
  if table = "webhook_subscriptions" then ["paused_at","previous_secret_expires_at","updated_at"] else []

-- Two lines with one record but for some of its entries.
def LineBut (allowed : List String) (text text' : List Char) : Prop :=
  if allowed = [] then text = text'
  else ∃ record record', readRecord text = some record ∧ readRecord text' = some record' ∧ record.map Prod.fst = record'.map Prod.fst ∧
    ∀ name ∈ record.map Prod.fst, name ∉ allowed → entryOf record name = entryOf record' name

-- Two archives that are one, line by line, but for these.
def SameBut (allowed : String → List String) (one two : Archive) : Prop :=
  one.manifest = two.manifest ∧ ∀ table ∈ exported, ∃ text text', one.members.lookup (memberName table.name) = some text ∧
    two.members.lookup (memberName table.name) = some text' ∧ List.Forall₂ (LineBut (allowed table.name)) (lines text) (lines text')

-- Exported with its secrets, imported into another database and exported
-- again, a database gives one archive.
def RoundTrips (d d' : Dialect) (draws : Draws) (password : Option String) (db start : Database) : Prop :=
  ∃ archive after, exportArchive d true none db = some archive ∧
    importArchive d' draws password archive start = (after,.ok archive.manifest) ∧ exportArchive d' true none after = some archive

-- Without them, one but for the columns set anew.
def RedactedTrips (d d' : Dialect) (draws : Draws) (password : Option String) (db start : Database) : Prop :=
  ∃ archive after again, exportArchive d false none db = some archive ∧
    importArchive d' draws password archive start = (after,.ok archive.manifest) ∧ exportArchive d' false none after = some again ∧
    SameBut redated archive again

-- An import of the seeded administrator's account without its hash needs a
-- password for it.
def Admitted (password : Option String) (db : Database) : Prop :=
  (∃ row ∈ db.rows "users", row "id" = .text seededAdminId) → password.getD "" ≠ ""

variable {d d' : Dialect} {draws : Draws} {password : Option String} {table : Table} {column : Column} {db start after : Database}
  {includeSecrets : Bool} {archive again : Archive} {row : Row}

theorem importArchive_parts {manifest : Manifest} (manifested : readManifest archive = .ok manifest) :
    importArchive d draws password archive start = (after,.ok archive.manifest) ↔
      manifest = archive.manifest ∧ importBody d draws password archive start = .ok after := by
  unfold importArchive transaction
  rw [manifested]
  dsimp only
  cases importBody d draws password archive start with
  | error refusal => simp
  | ok held => simp [eq_comm,and_comm]

theorem importBody_vacant (vacant : Vacant start) : importBody d draws password archive start =
    (loadTables d draws archive start).bind (fun loaded =>
      if archive.manifest.secretsIncluded then .ok loaded else openAdmin d draws password loaded) := by
  unfold importBody
  rw [refuseRows_vacant vacant]
  rfl

theorem import_exact (vacant : Vacant start) : importArchive d' draws password (archiveFor d includeSecrets db) start =
      (after,.ok (archiveFor d includeSecrets db).manifest) ↔
    ∃ loaded, loadTables d' draws (archiveFor d includeSecrets db) start = .ok loaded ∧
      (if includeSecrets then .ok loaded else openAdmin d' draws password loaded) = .ok after := by
  rw [importArchive_parts readManifest_archiveFor,importBody_vacant vacant]
  have secrets : (archiveFor d includeSecrets db).manifest.secretsIncluded = includeSecrets := rfl
  rw [secrets]
  cases loadTables d' draws (archiveFor d includeSecrets db) start with
  | error refusal => simp [Except.bind]
  | ok loaded => simp [Except.bind]

theorem mapM_parts {α β : Type} {f : α → Option β} {items : List α} {results : List β} (went : items.mapM f = some results) :
    List.Forall₂ (fun item result => f item = some result) items results := by
  induction items generalizing results with
  | nil =>
    cases went
    exact .nil
  | cons item items ih =>
    rw [List.mapM_cons] at went
    cases first : f item with
    | none =>
      rw [first] at went
      cases went
    | some result =>
      cases rest : items.mapM f with
      | none =>
        rw [first,rest] at went
        cases went
      | some results' =>
        rw [first,rest] at went
        cases went
        exact .cons first (ih rest)

theorem mapM_some {α β : Type} {f : α → Option β} {items : List α} {results : List β} (went : items.mapM f = some results) {item : α}
    (member : item ∈ items) : ∃ result ∈ results, f item = some result := by
  have parts := mapM_parts went
  clear went
  induction parts with
  | nil => cases member
  | cons first _ ih =>
    rcases List.mem_cons.mp member with rfl | later
    · exact ⟨_,List.mem_cons_self,first⟩
    · obtain ⟨result,inside,same⟩ := ih later
      exact ⟨result,List.mem_cons_of_mem _ inside,same⟩

theorem some_mapM {α β : Type} {f : α → Option β} {items : List α} {results : List β} (went : items.mapM f = some results) {result : β}
    (member : result ∈ results) : ∃ item ∈ items, f item = some result := by
  have parts := mapM_parts went
  clear went
  induction parts with
  | nil => cases member
  | cons first _ ih =>
    rcases List.mem_cons.mp member with rfl | later
    · exact ⟨_,List.mem_cons_self,first⟩
    · obtain ⟨item,inside,same⟩ := ih later
      exact ⟨item,List.mem_cons_of_mem _ inside,same⟩

-- An export has a record of every row, of every table.
theorem export_parts (went : exportArchive d includeSecrets none db = some archive) : ∃ records : Table → List (List (String × Scalar)),
    (∀ table ∈ exported, exportTable d includeSecrets none db table = some (records table)) ∧
      archive = archiveOf includeSecrets (exported.map (fun table => (table.name,records table))) := by
  have each : ∀ table ∈ exported, exportTable d includeSecrets none db table =
      some ((exportTable d includeSecrets none db table).getD []) := by
    intro table listed
    unfold exportArchive at went
    cases all : exported.mapM (fun table => (exportTable d includeSecrets none db table).map (fun records => (table.name,records))) with
    | none =>
      rw [all] at went
      cases went
    | some tables =>
      obtain ⟨_,_,one⟩ := mapM_some all listed
      cases records : exportTable d includeSecrets none db table with
      | none =>
        rw [records] at one
        cases one
      | some held => rfl
  refine ⟨fun table => (exportTable d includeSecrets none db table).getD [],each,?_⟩
  rw [mapM_archive each] at went
  exact (Option.some.inj went).symm

-- Every entry is how the database writes a row's value.
theorem recordOf_entry (listed : table ∈ exported) {omitted : List String} {record : List (String × Scalar)}
    (went : recordOf d (table.kept omitted) row = some record) (kept : column ∈ table.kept omitted) :
    ∃ form, written d column (row column.name) = some form ∧ entryOf (record.map parsed) column.name = .scalar form := by
  unfold recordOf at went
  have each : ∀ column ∈ sortedKeys (table.kept omitted), (written d column (row column.name)).map (fun form => (column.name,form)) =
      some (column.name,(written d column (row column.name)).getD .null) := by
    intro column inside
    obtain ⟨_,_,one⟩ := mapM_some went inside
    cases form : written d column (row column.name) with
    | none =>
      rw [form] at one
      cases one
    | some held => rfl
  obtain ⟨member,out⟩ := kept_parts.mp kept
  have one := each column (sortedKeys_kept.mpr ⟨member,out⟩)
  rw [mapM_all each] at went
  cases went
  cases form : written d column (row column.name) with
  | none =>
    rw [form] at one
    cases one
  | some held =>
    refine ⟨held,rfl,?_⟩
    rw [entryOf_forms (exported_columns table listed).1 member out (fun column => (written d column (row column.name)).getD .null),form]
    rfl

theorem exported_redated : ∀ table ∈ exported, ∀ column ∈ table.columns, column.name ∈ redated table.name → column.kind = .dateTime := by
  decide

-- A value written alike out of a database that has room for it fits there.
theorem written_fits {content : Content} {cell : Cell} (of : content.Of column) (takes : Takes d' column.kind cell = true)
    (same : written d' column cell = some (content.form column.kind)) : Fits d' column.kind content = true := by
  obtain ⟨name,kind,nullable⟩ := column
  cases d' with
  | sqlite => rfl
  | postgresql zone lower =>
    cases content with
    | number n =>
      obtain ⟨rfl | rfl,_⟩ := of
      · cases cell with
        | int m =>
          cases same
          exact takes
        | _ => cases same
      · rfl
    | text s =>
      rcases of with rfl | ⟨length,rfl⟩
      · cases cell with
        | text t =>
          cases same
          exact takes
        | _ => cases same
      · cases cell with
        | text t =>
          cases same
          exact takes
        | _ => cases same
    | _ => cases kind <;> rfl

-- Each record of the first export is in the second, but for what is set anew.
def Seen (includeSecrets : Bool) (d : Dialect) (db : Database) (records : Table → List (List (String × Scalar))) : Prop :=
  ∀ table ∈ exported, ∀ record ∈ recordsOf d includeSecrets db table, ∃ record' ∈ records table,
    ∀ column ∈ table.kept (omittedFrom includeSecrets table.name), column.name ∉ redated table.name →
      entryOf (record.map parsed) column.name = entryOf (record'.map parsed) column.name

theorem seen_takes (formed : WellFormed d db) (taken : Taken d' after) {records : Table → List (List (String × Scalar))}
    (exports : ∀ table ∈ exported, exportTable d' includeSecrets none after table = some (records table))
    (seen : Seen includeSecrets d db records) :
    ∀ table ∈ exported, ∀ row ∈ db.rows table.name, ∀ column ∈ table.kept (omittedFrom includeSecrets table.name),
      Takes d' column.kind (row column.name) = true := by
  intro table listed row inside column kept
  obtain ⟨member,out⟩ := kept_parts.mp kept
  obtain ⟨of,_,cell⟩ := said_parts (formed.holds table listed row inside column member)
  by_cases anew : column.name ∈ redated table.name
  · rw [exported_redated table listed column member anew]
    cases d' <;> rfl
  · have record : table.record (omittedFrom includeSecrets table.name) (rowSays d row) ∈ recordsOf d includeSecrets db table :=
      List.mem_map.mpr ⟨row,ordered_mem.mpr inside,rfl⟩
    obtain ⟨record',inside',same⟩ := seen table listed _ record
    have went := exports table listed
    rw [exportTable_ordered] at went
    obtain ⟨row',there,recorded⟩ := some_mapM went inside'
    obtain ⟨form,written_,entry⟩ := recordOf_entry listed recorded kept
    have forms := same column kept anew
    rw [entry,entryOf_record (exported_columns table listed).1 member out] at forms
    cases forms
    have fits := written_fits of (taken table listed row' (ordered_mem.mp there) column member) written_
    rw [cell,takes_cell of]
    exact fits

theorem parsed_line {record record' : List (String × Scalar)} (same : line record = line record') :
    record.map parsed = record'.map parsed := by
  have read := readRecord_line record
  rw [same,readRecord_line] at read
  exact (Option.some.inj read).symm

-- One archive has the records of the other.
theorem same_seen {records : Table → List (List (String × Scalar))}
    (same : archiveFor d includeSecrets db = archiveOf includeSecrets (exported.map (fun table => (table.name,records table)))) :
    Seen includeSecrets d db records := by
  intro table listed record inside
  have one : (archiveFor d includeSecrets db).members.lookup (memberName table.name) =
      some (((recordsOf d includeSecrets db table).map line).flatten) := archiveOf_member listed
  rw [same,archiveOf_member listed] at one
  have texts := congrArg lines (Option.some.inj one)
  rw [lines_records,lines_records] at texts
  have there : line record ∈ (records table).map line := by
    rw [texts]
    exact List.mem_map_of_mem inside
  obtain ⟨record',inside',lines_⟩ := List.mem_map.mp there
  exact ⟨record',inside',fun column _ _ => by rw [parsed_line lines_]⟩

theorem forall₂_left {α β : Type} {R : α → β → Prop} {items : List α} {others : List β} (all : List.Forall₂ R items others) {item : α}
    (member : item ∈ items) : ∃ other ∈ others, R item other := by
  induction all with
  | nil => cases member
  | cons first _ ih =>
    rcases List.mem_cons.mp member with rfl | later
    · exact ⟨_,List.mem_cons_self,first⟩
    · obtain ⟨other,inside,related⟩ := ih later
      exact ⟨other,List.mem_cons_of_mem _ inside,related⟩

theorem but_seen {records : Table → List (List (String × Scalar))}
    (same : SameBut redated (archiveFor d includeSecrets db)
        (archiveOf includeSecrets (exported.map (fun table => (table.name,records table))))) :
    Seen includeSecrets d db records := by
  intro table listed record inside
  obtain ⟨text,text',found,found',all⟩ := same.2 table listed
  have one : (archiveFor d includeSecrets db).members.lookup (memberName table.name) =
      some (((recordsOf d includeSecrets db table).map line).flatten) := archiveOf_member listed
  rw [archiveOf_member listed] at found'
  rw [one] at found
  cases found
  cases found'
  rw [lines_records,lines_records] at all
  obtain ⟨text,there,related⟩ := forall₂_left all (List.mem_map_of_mem inside)
  obtain ⟨record',inside',rfl⟩ := List.mem_map.mp there
  refine ⟨record',inside',fun column kept anew => ?_⟩
  unfold LineBut at related
  split at related
  · rw [parsed_line related]
  · obtain ⟨read,read',got,got',_,entries⟩ := related
    rw [readRecord_line] at got got'
    cases got
    cases got'
    refine entries column.name ?_ anew
    obtain ⟨row,_,rfl⟩ := List.mem_map.mp inside
    rw [List.map_map]
    exact record_found.mpr (List.mem_map_of_mem kept)

theorem arrivals_all {count : Nat} {all : List (Column → Content)} : draws.arrivals table [] count all = all := by
  induction all generalizing count with
  | nil => rfl
  | cons contents all ih => rw [Draws.arrivals,moved_all,ih]

theorem arrivals_of (formed : WellFormed d db) (listed : table ∈ exported)
    (sane : includeSecrets = false → draws.Sane (db.rows "api_keys").length)
    (takes : ∀ row ∈ db.rows table.name, ∀ column ∈ table.kept (omittedFrom includeSecrets table.name),
        Takes d' column.kind (row column.name) = true) :
    ∀ contents ∈ arrivalsOf draws d includeSecrets table (ordered db table), ∀ column ∈ table.columns, (contents column).Of column := by
  obtain ⟨key,keyed,named,neutral⟩ := key_listed (exported_regular listed)
  have linked : Linked table d' key (arrivalsOf draws d includeSecrets table (ordered db table)) :=
    arrivals_linked listed (ordered_lot formed listed) keyed named neutral sane (fun row inside => takes row (ordered_mem.mp inside))
  exact fun contents inside column member => (linked.says_ contents inside column member).1

-- What the second export is.
theorem export_shown (formed : WellFormed d db) (sane : includeSecrets = false → draws.Sane (db.rows "api_keys").length)
    (takes : ∀ table ∈ exported, ∀ row ∈ db.rows table.name, ∀ column ∈ table.kept (omittedFrom includeSecrets table.name),
      Takes d' column.kind (row column.name) = true)
    (shows_ : ∀ table ∈ exported, List.Forall₂ (Shows d' table (omittedFrom includeSecrets table.name))
      (arrivalsOf draws d includeSecrets table (ordered db table)) (after.rows table.name)) :
    exportArchive d' includeSecrets none after = some (archiveOf includeSecrets (exported.map (fun table => (table.name,
      (arrivalsOf draws d includeSecrets table (ordered db table)).map (table.record (omittedFrom includeSecrets table.name)))))) :=
  mapM_archive (fun table listed => exportTable_shown listed (ordered_lot formed listed) ordered_sorted
    (arrivals_of formed listed sane (takes table listed)) (shows_ table listed))

-- The round trip with secrets is exact where the other database can hold the
-- state.
theorem roundTrips_exact (formed : WellFormed d db) (vacant : Vacant start) :
    RoundTrips d d' draws password db start ↔ Portable d' true db := by
  have first := exportArchive_formed true formed
  have sane : true = false → draws.Sane (db.rows "api_keys").length := fun same => by cases same
  constructor
  · intro trip
    obtain ⟨archive,after,went,imported,again⟩ := trip
    rw [first] at went
    cases went
    obtain ⟨records,exports,same⟩ := export_parts again
    have body := ((importArchive_parts readManifest_archiveFor).mp imported).2
    have takes := seen_takes formed (import_taken vacant body) exports (same_seen same)
    obtain ⟨loaded,loads_,_⟩ := (import_exact vacant).mp imported
    exact ⟨takes,((loadTables_exact formed vacant sane takes).mp loads_).1⟩
  · intro portable
    have landed_ : loadTables d' draws (archiveFor d true db) start = .ok (landed draws d d' true db start) :=
      (loadTables_exact formed vacant sane portable.takes).mpr ⟨portable.apart,rfl⟩
    refine ⟨_,_,first,(import_exact vacant).mpr ⟨_,landed_,rfl⟩,?_⟩
    have shown : exportArchive d' true none (landed draws d d' true db start) = some (archiveOf true (exported.map (fun table =>
        (table.name,(arrivalsOf draws d true table (ordered db table)).map (table.record (omittedFrom true table.name)))))) := by
      refine export_shown formed sane portable.takes (fun table listed => ?_)
      rw [landed_rows listed]
      exact arrived_shows listed
    rw [shown]
    unfold archiveFor recordsOf arrivalsOf
    congr 2
    apply List.map_congr_left
    intro table _
    have none_ : omittedFrom true table.name = [] := rfl
    rw [none_,arrivals_all,List.map_map]
    rfl

theorem moved_redated {number : Nat} {contents : Column → Content} {omitted : List String} (kept : column.name ∉ omitted)
    (still : column.name ∉ redated table.name) : draws.moved table omitted number contents column = contents column := by
  unfold Draws.moved
  rw [if_neg kept]
  split
  · rename_i stops
    rw [stops.2.1,stops.2.2] at still
    exact absurd (by decide) still
  · split
    · rename_i ends
      rw [ends.2.1,ends.2.2] at still
      exact absurd (by decide) still
    · rfl

theorem arrivals_length {omitted : List String} {count : Nat} {all : List (Column → Content)} :
    (draws.arrivals table omitted count all).length = all.length := by
  induction all generalizing count with
  | nil => rfl
  | cons contents all ih => rw [Draws.arrivals,List.length_cons,List.length_cons,ih]

theorem record_same {omitted : List String} {contents contents' : Column → Content}
    (same : ∀ column ∈ table.columns, column.name ∉ omitted → contents column = contents' column) :
    table.record omitted contents = table.record omitted contents' := by
  unfold Table.record
  apply List.map_congr_left
  intro column inside
  obtain ⟨member,kept⟩ := sortedKeys_kept.mp inside
  rw [same column member kept]

theorem lines_but (draws : Draws) (omitted : List String) (count : Nat) (all : List (Column → Content)) (listed : table ∈ exported) :
    List.Forall₂ (LineBut (redated table.name)) (all.map (fun contents => line (table.record omitted contents)))
      ((draws.arrivals table omitted count all).map (fun contents => line (table.record omitted contents))) := by
  have distinct := (exported_columns table listed).1
  induction all generalizing count with
  | nil => exact .nil
  | cons contents all ih =>
    refine .cons ?_ (ih (count+1))
    unfold LineBut
    split
    · rename_i none_
      have same : table.record omitted contents = table.record omitted (draws.moved table omitted (count+1) contents) :=
        record_same (fun column _ kept => (moved_redated kept (by rw [none_]; exact List.not_mem_nil)).symm)
      exact congrArg line same
    · refine ⟨_,_,readRecord_line _,readRecord_line _,?_,?_⟩
      · rw [List.map_map,List.map_map]
        exact record_names.trans record_names.symm
      · intro name inside still
        rw [List.map_map] at inside
        obtain ⟨column,kept,rfl⟩ := List.mem_map.mp (record_found.mp inside)
        obtain ⟨member,out⟩ := kept_parts.mp kept
        rw [entryOf_record distinct member out,entryOf_record distinct member out,moved_redated out still]

theorem updateRow_free (db : Database) (id cell : Cell) {name : String} (free : ∀ foreign ∈ table.foreignKeys, name ∉ foreign.columns) :
    updateRow table db id name cell = some (db.put table.name ((db.rows table.name).map (filled name id cell))) := by
  unfold updateRow
  apply if_pos
  rw [List.all_eq_true]
  intro row _
  rw [Bool.or_eq_true]
  right
  rw [List.all_eq_true]
  intro foreign member
  rw [Bool.or_eq_true]
  exact .inl (decide_eq_true (free foreign member))

theorem users_listed : users ∈ exported := by simp [exported]

theorem users_free : ∀ foreign ∈ users.foreignKeys, "credential_secure_hash" ∉ foreign.columns := by decide

theorem filled_shows {contents : Column → Content} {id cell : Cell} (shows_ : Shows d' users (omittedFrom false users.name) contents row) :
    Shows d' users (omittedFrom false users.name) contents (filled "credential_secure_hash" id cell row) := by
  intro column kept
  have other : column.name ≠ "credential_secure_hash" := by
    intro same
    have out := (kept_parts.mp kept).2
    rw [same] at out
    exact out (by decide)
  unfold filled
  split
  · rw [Function.update_of_ne other]
    exact shows_ column kept
  · exact shows_ column kept

-- The administrator's password goes in over what arrived.
theorem openAdmin_landed (d' : Dialect) (start : Database) (formed : WellFormed d db) (sane : draws.Sane (db.rows "api_keys").length)
    (admitted : Admitted password db) :
    ∃ after, openAdmin d' draws password (landed draws d d' false db start) = .ok after ∧
      ∀ table ∈ exported, List.Forall₂ (Shows d' table (omittedFrom false table.name)) (arrivalsOf draws d false table (ordered db table))
        (after.rows table.name) := by
  have landed_ : ∀ table ∈ exported, List.Forall₂ (Shows d' table (omittedFrom false table.name))
      (arrivalsOf draws d false table (ordered db table)) ((landed draws d d' false db start).rows table.name) := by
    intro table listed
    rw [landed_rows listed]
    exact arrived_shows listed
  unfold openAdmin
  by_cases seeded : ((landed draws d d' false db start).rows "users").any (fun row => row "id" = .text seededAdminId) = true
  · have given : password.getD "" ≠ "" := by
      apply admitted
      obtain ⟨row',inside,id⟩ := List.any_eq_true.mp seeded
      have there : ((landed draws d d' false db start).rows users.name).map (fun row => row "id") =
          (ordered db users).map (fun row => row "id") :=
        shown_ids users_listed (ordered_lot formed users_listed).held (fun name => omittedFrom_within) (landed_ users users_listed)
      have listed : row' "id" ∈ (ordered db users).map (fun row => row "id") := by
        rw [← there]
        exact List.mem_map_of_mem inside
      obtain ⟨row,member,same⟩ := List.mem_map.mp listed
      exact ⟨row,ordered_mem.mp member,same.trans (of_decide_eq_true id)⟩
    obtain ⟨clean,short⟩ := sane.hashed (password.getD "")
    have stored : store d' (.string 255) (.text (draws.hashPassword (password.getD ""))) =
        some (.text (draws.hashPassword (password.getD ""))) := by
      cases d' with
      | sqlite => rfl
      | postgresql =>
        change (if plain _ = false then none else if String.length _ ≤ 255 then some _ else _) = _
        rw [if_neg (by rw [clean]; simp),if_pos short]
    have updated := updateRow_free (landed draws d d' false db start) (.text seededAdminId)
        (.text (draws.hashPassword (password.getD ""))) users_free
    rw [if_pos seeded,if_neg given,stored,Option.bind_some,updated]
    refine ⟨_,rfl,fun table listed => ?_⟩
    by_cases same : table.name = users.name
    · have one := List.inj_on_of_nodup_map exported_names listed users_listed same
      subst one
      rw [put_rows,List.forall₂_map_right_iff]
      exact (landed_ users users_listed).imp (fun _ _ => filled_shows)
    · rw [put_other same]
      exact landed_ table listed
  · rw [if_neg seeded]
    exact ⟨_,rfl,landed_⟩

-- The round trip without them is, under the same condition on what travels.
theorem redactedTrips_exact (formed : WellFormed d db) (vacant : Vacant start) (sane : draws.Sane (db.rows "api_keys").length)
    (admitted : Admitted password db) : RedactedTrips d d' draws password db start ↔ Portable d' false db := by
  have first := exportArchive_formed false formed
  have sane_ : false = false → draws.Sane (db.rows "api_keys").length := fun _ => sane
  constructor
  · intro trip
    obtain ⟨archive,after,again,went,imported,exported_,same⟩ := trip
    rw [first] at went
    cases went
    obtain ⟨records,exports,rfl⟩ := export_parts exported_
    have body := ((importArchive_parts readManifest_archiveFor).mp imported).2
    have takes := seen_takes formed (import_taken vacant body) exports (but_seen same)
    obtain ⟨loaded,loads_,_⟩ := (import_exact vacant).mp imported
    exact ⟨takes,((loadTables_exact formed vacant sane_ takes).mp loads_).1⟩
  · intro portable
    have landed_ : loadTables d' draws (archiveFor d false db) start = .ok (landed draws d d' false db start) :=
      (loadTables_exact formed vacant sane_ portable.takes).mpr ⟨portable.apart,rfl⟩
    obtain ⟨after,opened,shows_⟩ := openAdmin_landed d' start formed sane admitted
    refine ⟨_,after,_,first,(import_exact vacant).mpr ⟨_,landed_,opened⟩,export_shown formed sane_ portable.takes shows_,?_,?_⟩
    · unfold archiveFor archiveOf recordsOf arrivalsOf
      dsimp only
      rw [List.map_map,List.map_map]
      congr 1
      apply List.map_congr_left
      intro table _
      dsimp only [Function.comp]
      rw [List.length_map,List.length_map,arrivals_length,List.length_map]
    · intro table listed
      refine ⟨_,_,archiveOf_member listed,archiveOf_member listed,?_⟩
      rw [lines_records,lines_records]
      unfold recordsOf arrivalsOf
      rw [List.map_map,List.map_map]
      have but := lines_but draws (omittedFrom false table.name) 0 ((ordered db table).map (rowSays d)) listed
      rw [List.map_map] at but
      exact but

end ChronosLedger.Portability
