import ChronosLedger.ArchiveImport

namespace ChronosLedger.Portability
open JsonText

variable {d d' : Dialect} {draws : Draws} {table : Table} {db after : Database} {keys : Nat} {row : Row} {rows : List Row}
  {includeSecrets : Bool} {archive : Archive} {text : List Char}

noncomputable def arrivalsOf (draws : Draws) (d : Dialect) (includeSecrets : Bool) (table : Table) (rows : List Row) :
    List (Column → Content) :=
  draws.arrivals table (omittedFrom includeSecrets table.name) 0 (rows.map (rowSays d))

-- The rows a table has after the import.
noncomputable def arrived (draws : Draws) (d d' : Dialect) (includeSecrets : Bool) (table : Table) (rows : List Row) : List Row :=
  (arrivalsOf draws d includeSecrets table rows).map (table.saying d')

-- A key of a row on its way holds: it waits, or names a row that is there.
theorem arriving_holds {omitted : List String} {number : Nat} (listed : table ∈ exported)
    (within : ∀ name ∈ omitted, name ∈ omittedFrom false table.name) (held : Held d table row) {foreign : ForeignKey}
    (member : foreign ∈ table.foreignKeys) (holds : foreign.target ≠ table.name → foreign.holds db row = true) :
    foreign.holds db (arriving draws d d' table omitted table.deferred number row) = true := by
  have regular := exported_regular listed
  obtain ⟨reads_,open_⟩ := regular.refers foreign member
  by_cases own : foreign.target = table.name
  · obtain ⟨name,among,waits⟩ := (regular.own foreign member).mpr own
    obtain ⟨column,inside,rfl,_⟩ := reads_parts reads_ among
    refine holds_parts.mpr (.inl ⟨column.name,among,?_⟩)
    unfold arriving
    rw [saying_at regular.names inside,blanked,if_pos waits]
    rfl
  · have same : ∀ name ∈ foreign.columns, arriving draws d d' table omitted table.deferred number row name = row name := by
      intro name among
      refine (arriving_alike listed held).same reads_ among (fun out => ?_)
      rcases List.mem_append.mp out with waits | left
      · exact own ((regular.own foreign member).mp ⟨name,among,waits⟩)
      · exact open_ name among (within name left)
    rcases holds_parts.mp (holds own) with empty | named
    · obtain ⟨name,among,null⟩ := empty
      exact holds_parts.mpr (.inl ⟨name,among,(same name among).trans null⟩)
    · obtain ⟨other,inside,names⟩ := named
      refine holds_parts.mpr (.inr ⟨other,inside,names_parts.mpr (fun pair among => ?_)⟩)
      rw [same pair.1 (List.of_mem_zip among).1]
      exact names_parts.mp names pair among

theorem holds_same {foreign : ForeignKey} {one two : Database} (same : one.rows foreign.target = two.rows foreign.target) :
    foreign.holds one row = foreign.holds two row := by
  unfold ForeignKey.holds
  rw [same]

theorem arrivals_same (listed : table ∈ exported) {key : Column} (keyed : key ∈ table.columns) (named : key.name = "id")
    (neutral : key.kind.neutral = true) {omitted : List String} (within : ∀ name ∈ omitted, name ∈ omittedFrom false table.name)
    {originals : List (Column → Content)} {count : Nat} :
    List.Forall₂ (fun original contents : Column → Content => original key = contents key ∧
      ∀ column, Waits table column → original column = contents column) originals (draws.arrivals table omitted count originals) := by
  have regular := exported_regular listed
  induction originals generalizing count with
  | nil => exact .nil
  | cons original originals ih =>
    refine .cons ⟨?_,?_⟩ ih
    · refine (moved_kept listed keyed (fun out => regular.keyed ?_) neutral).symm
      rw [← named]
      exact List.mem_append_right _ (within _ out)
    · intro column waits
      obtain ⟨_,alike,kept⟩ := regular.deferred column waits.1 waits.2
      exact (moved_kept listed waits.1 (fun out => kept (within _ out)) alike).symm

-- The rows of a table between the passes.
noncomputable def planted (draws : Draws) (d d' : Dialect) (includeSecrets : Bool) (table : Table) (rows : List Row) : List Row :=
  (arrivalsOf draws d includeSecrets table rows).map (fun contents => table.saying d' (blanked table.deferred contents))

theorem storedRows_planted (regular : table.Regular) {values : List (String → Value)} {all : List (Column → Content)}
    (means : List.Forall₂ (fun (values : String → Value) contents => ∀ column ∈ table.columns,
      values column.name = (blanked table.deferred contents column).value column.kind) values all)
    (says_ : ∀ contents ∈ all, table.Says d' contents) :
    List.Forall₂ (fun values row => storedRow d' table values = some row) values
      (all.map (fun contents => table.saying d' (blanked table.deferred contents))) := by
  induction means with
  | nil => exact .nil
  | cons first _ ih =>
    exact .cons (storedRow_saying (blanked_saying regular (fun _ inside => inside) (says_ _ List.mem_cons_self)) first)
      (ih (fun contents inside => says_ contents (List.mem_cons_of_mem _ inside)))

theorem planted_pairwise (listed : table ∈ exported) (lot : Lot d table rows) (sane : includeSecrets = false → draws.Sane keys)
    (few : table.name = "api_keys" → rows.length ≤ keys) :
    (planted draws d d' includeSecrets table rows).Pairwise (fun one two => table.together d' one two = true) ↔
      rows.Pairwise (fun one two => table.apart d' one two = true) := by
  unfold planted arrivalsOf
  rw [List.pairwise_map]
  refine arrivals_pairwise lot.together ?_
  intro one inside two inside' number other low low' different together
  rw [Nat.zero_add] at low low'
  exact arriving_together listed (lot.held one inside) (lot.held two inside') sane (fun api => low.trans (few api))
      (fun api => low'.trans (few api))
    different together

theorem loaded_count {d : Dialect} {omitted : List String} {texts : List (List Char)} {values : List (String → Value)} {total : Nat}
    (decoded : decodeLines draws table omitted 0 texts = .ok values) :
    loadLines d draws table omitted 0 texts [] db = .ok (total,after) ↔ values.foldlM (insertRow d table) db = some after ∧
        total = texts.length := by
  have exact_ : loadLines d draws table omitted 0 texts [] db = .ok (total,after) ↔ _ := loadLines_exact decoded
  rw [List.nil_append,Nat.zero_add] at exact_
  exact exact_

-- Whatever its row says, a planted row is one of the table's on its way.
theorem planted_mem (listed : table ∈ exported) {key : Column} (linked : Linked table d' key (arrivalsOf draws d includeSecrets table rows))
    {row' : Row} (inside : row' ∈ planted draws d d' includeSecrets table rows) : ∃ row ∈ rows, ∃ number,
      row' = arriving draws d d' table (omittedFrom includeSecrets table.name) table.deferred number row ∧
        table.Says d' (blanked table.deferred (draws.moved table (omittedFrom includeSecrets table.name) number (rowSays d row))) := by
  obtain ⟨contents,member,rfl⟩ := List.mem_map.mp inside
  obtain ⟨row,held,number,_,_,rfl⟩ := arrivals_mem member
  exact ⟨row,held,number,rfl,blanked_saying (exported_regular listed) (fun _ inside => inside) (linked.says_ _ member)⟩

-- The rows go in just when they are apart.
theorem planted_inserts (listed : table ∈ exported) (lot : Lot d table rows) (sane : includeSecrets = false → draws.Sane keys)
    (few : table.name = "api_keys" → rows.length ≤ keys) {key : Column}
    (linked : Linked table d' key (arrivalsOf draws d includeSecrets table rows))
    (foreign : ∀ row ∈ rows, ∀ foreign ∈ table.foreignKeys, foreign.target ≠ table.name → foreign.holds db row = true)
    (empty : db.rows table.name = []) {values : List (String → Value)}
    (stored : List.Forall₂ (fun values row => storedRow d' table values = some row) values (planted draws d d' includeSecrets table rows)) :
    values.foldlM (insertRow d' table) db = some after ↔
      after = db.put table.name (planted draws d d' includeSecrets table rows) ∧
        rows.Pairwise (fun one two => table.apart d' one two = true) := by
  have within : ∀ name ∈ omittedFrom includeSecrets table.name, name ∈ omittedFrom false table.name := fun name => omittedFrom_within
  have sound : ∀ row' ∈ planted draws d d' includeSecrets table rows, table.sound row' = true := by
    intro row' inside
    obtain ⟨row,member,number,rfl,held⟩ := planted_mem listed linked inside
    exact saying_sound listed held ((arriving_alike listed (lot.held row member)).weaken (aside_within within)) (lot.sound row member)
  have holds : ∀ row' ∈ planted draws d d' includeSecrets table rows, ∀ foreign ∈ table.foreignKeys, ∀ later : Database,
      (∀ name, name ≠ table.name → later.rows name = db.rows name) → foreign.holds later row' = true := by
    intro row' inside foreign_ among later same
    obtain ⟨row,member,number,rfl,_⟩ := planted_mem listed linked inside
    refine arriving_holds listed within (lot.held row member) among (fun other => ?_)
    rw [holds_same (same foreign_.target other)]
    exact foreign row member foreign_ among other
  refine (insertRows_exact stored sound holds).trans ?_
  rw [empty,List.nil_append]
  refine and_congr_right (fun _ => (and_iff_left ?_).trans (planted_pairwise listed lot sane few))
  intro one inside
  cases inside

-- The second pass gives the planted rows their references.
theorem restore_planted (listed : table ∈ exported) {key : Column} (keyed : key ∈ table.columns) (named : key.name = "id")
    (neutral : key.kind.neutral = true) (linked : Linked table d' key (arrivalsOf draws d includeSecrets table rows)) :
    restore d' table (table.texts (omittedFrom includeSecrets table.name) (rows.map (rowSays d)))
      (db.put table.name (planted draws d d' includeSecrets table rows)) =
        .ok (db.put table.name (arrived draws d d' includeSecrets table rows)) := by
  have regular := exported_regular listed
  have within : ∀ name ∈ omittedFrom includeSecrets table.name, name ∈ omittedFrom false table.name := fun name => omittedFrom_within
  have keeps : ∀ name ∈ table.deferred, name ∉ omittedFrom includeSecrets table.name := by
    intro name waits out
    obtain ⟨foreign_,member,_,among⟩ := deferred_foreign waits
    exact (regular.refers foreign_ member).2 name among (within name out)
  have planted_ : (db.put table.name (planted draws d d' includeSecrets table rows)).rows table.name = _ := put_rows
  have went := restore_texts regular keyed named (fun out => regular.keyed (List.mem_append_right _ (within _ out))) keeps linked
    (arrivals_same listed keyed named neutral within) planted_
  rw [put_put] at went
  exact went

-- A table's import succeeds just when no constraint on two of its rows is in
-- the way.
theorem load_exact (after : Database) (listed : table ∈ exported) (lot : Lot d table rows) (sane : includeSecrets = false → draws.Sane keys)
    (few : table.name = "api_keys" → rows.length ≤ keys)
    (takes : ∀ row ∈ rows, ∀ column ∈ table.kept (omittedFrom includeSecrets table.name), Takes d' column.kind (row column.name) = true)
    (foreign : ∀ row ∈ rows, ∀ foreign ∈ table.foreignKeys, foreign.target ≠ table.name → foreign.holds db row = true)
    (entry : archive.members.lookup (memberName table.name) = some text)
    (read : lines text = table.texts (omittedFrom includeSecrets table.name) (rows.map (rowSays d))) (empty : db.rows table.name = []) :
    load d' draws archive table rows.length (omittedFrom includeSecrets table.name) db = .ok after ↔
      rows.Pairwise (fun one two => table.apart d' one two = true) ∧
        after = db.put table.name (arrived draws d d' includeSecrets table rows) := by
  have regular := exported_regular listed
  obtain ⟨key,keyed,named,neutral⟩ := key_listed regular
  have linked : Linked table d' key (arrivalsOf draws d includeSecrets table rows) :=
    arrivals_linked listed lot keyed named neutral sane takes
  have of : ∀ contents ∈ rows.map (rowSays d), ∀ column ∈ table.columns, (contents column).Of column := by
    intro contents inside column member
    obtain ⟨row,among,rfl⟩ := List.mem_map.mp inside
    exact (said_parts (lot.held row among column member)).1
  obtain ⟨values,decoded,means⟩ := decodeLines_texts draws 0 listed (fun name => omittedFrom_within) of
  have stored := storedRows_planted regular means linked.says_
  have inserts := fun mid => @planted_inserts d d' draws table db mid keys rows includeSecrets listed lot sane few key linked foreign empty values
    stored
  have restored := @restore_planted d d' draws table db rows includeSecrets listed key keyed named neutral linked
  have length : (table.texts (omittedFrom includeSecrets table.name) (rows.map (rowSays d))).length = rows.length := by
    unfold Table.texts
    rw [List.length_map,List.length_map]
  unfold load
  rw [entry]
  dsimp only
  rw [read]
  constructor
  · intro loaded
    cases first : loadLines d' draws table (omittedFrom includeSecrets table.name) 0
        (table.texts (omittedFrom includeSecrets table.name) (rows.map (rowSays d))) [] db with
    | error refusal =>
      rw [first] at loaded
      cases loaded
    | ok pair =>
      obtain ⟨total,mid⟩ := pair
      obtain ⟨went,rfl⟩ := (loaded_count decoded).mp first
      obtain ⟨rfl,apart⟩ := (inserts mid).mp went
      rw [first,length] at loaded
      change (if ((rows.length : Nat) : Int) = rows.length then restore d' table _ _ else _) = _ at loaded
      rw [if_pos rfl,restored] at loaded
      cases loaded
      exact ⟨apart,rfl⟩
  · intro both
    obtain ⟨apart,rfl⟩ := both
    rw [(loaded_count decoded).mpr ⟨(inserts _).mpr ⟨rfl,apart⟩,length.symm⟩]
    change (if ((rows.length : Nat) : Int) = rows.length then restore d' table _ _ else _) = _
    rw [if_pos rfl,restored]

end ChronosLedger.Portability
