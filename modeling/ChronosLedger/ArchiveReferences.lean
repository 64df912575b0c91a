import ChronosLedger.ArchiveLoads

namespace ChronosLedger.Portability
open JsonText

variable {d : Dialect} {table : Table} {key column : Column} {omitted : List String} {db after : Database} {count number : Nat}
  {contents : Column → Content} {all originals : List (Column → Content)} {row : Row}

theorem form_null {kind : Kind} {content : Content} : content.form kind = .null ↔ content = .null := by
  cases content <;> simp [Content.form]

def Entered (d : Dialect) (contents : Column → Content) (column : Column) : Prop :=
  (contents column).Of column ∧ Fits d column.kind (contents column) = true

theorem key_listed (regular : table.Regular) : ∃ key ∈ table.columns, key.name = "id" ∧ key.kind.neutral = true :=
  reads_parts regular.key (List.mem_singleton_self "id")

-- A line of the second pass sets the reference it has.
theorem restoreLine_record (distinct : (table.columns.map Column.name).Nodup) (keyed : key ∈ table.columns) (named : key.name = "id")
    (member : column ∈ table.columns) (kept : column.name ∉ omitted) (keptKey : "id" ∉ omitted) (id : Entered d contents key)
    (own : Entered d contents column) :
    restoreLine d table column number (line (table.record omitted contents)) db =
      if contents column = .null then .ok db
      else match updateRow table db ((contents key).cell d key.kind) column.name ((contents column).cell d column.kind) with
        | some after => .ok after
        | none => .error (.refusedReference table.name number column.name) := by
  have found : table.column "id" = some key := by
    rw [← named]
    exact column_listed distinct keyed
  have entryKey : entryOf ((table.record omitted contents).map parsed) key.name = .scalar ((contents key).form key.kind) :=
    entryOf_record distinct keyed (by rw [named]; exact keptKey)
  have decoded := decode_form own.1
  unfold restoreLine
  rw [readRecord_line,found]
  dsimp only
  rw [entryOf_record distinct member kept]
  by_cases null : contents column = .null
  · rw [if_pos null,null]
    rfl
  · rw [if_neg null,Option.map_some,entryKey,decode_form id.1]
    cases shape : (contents column).form column.kind with
    | null => exact absurd (form_null.mp shape) null
    | _ =>
      rw [shape] at decoded
      dsimp only
      rw [decoded]
      dsimp only
      rw [store_value id.1 id.2,store_value own.1 own.2]
      rfl

def filled (column : String) (id cell : Cell) (row : Row) : Row := if row "id" = id then Function.update row column cell else row

theorem filled_id {name : String} {id cell : Cell} (other : name ≠ "id") : filled name id cell row "id" = row "id" := by
  unfold filled
  split
  · exact Function.update_of_ne (Ne.symm other) _ _
  · rfl

theorem deferred_id (regular : table.Regular) {name : String} (waits : name ∈ table.deferred) : name ≠ "id" := by
  intro same
  rw [same] at waits
  exact regular.keyed (List.mem_append_left _ waits)

-- The row a reference names is there to be named.
theorem updateRow_names (regular : table.Regular) {name : String} (waits : name ∈ table.deferred) {id cell : Cell}
    (there : ∃ row ∈ db.rows table.name, row "id" = cell) :
    updateRow table db id name cell = some (db.put table.name ((db.rows table.name).map (filled name id cell))) := by
  have other := deferred_id regular waits
  unfold updateRow
  apply if_pos
  rw [put_rows,List.all_eq_true]
  intro row member
  obtain ⟨before,listed,rfl⟩ := List.mem_map.mp member
  change (decide (filled name id cell before "id" ≠ id) || _) = true
  rw [filled_id other,Bool.or_eq_true,decide_eq_true_eq]
  by_cases touched : before "id" = id
  · right
    rw [List.all_eq_true]
    intro foreign held
    rw [Bool.or_eq_true,decide_eq_true_eq]
    by_cases about : name ∈ foreign.columns
    · right
      have target := (regular.own foreign held).mp ⟨name,about,waits⟩
      obtain ⟨targets,single,columns⟩ := regular.selves foreign held target
      rw [columns,List.mem_singleton] at about
      obtain ⟨named,listed',same⟩ := there
      refine holds_parts.mpr (.inr ⟨filled name id cell named,?_,?_⟩)
      · rw [target,put_rows]
        exact List.mem_map.mpr ⟨named,listed',rfl⟩
      · rw [names_parts,columns,targets]
        intro pair inside
        rw [List.zip_cons_cons,List.zip_nil_left,List.mem_singleton] at inside
        subst inside
        change (if before "id" = id then Function.update before name cell else before) single = filled name id cell named "id"
        rw [if_pos touched,filled_id other,same,← about]
        exact Function.update_self _ _ _
    · exact .inl about
  · exact .inl touched

def touch (d : Dialect) (key column : Column) (row : Row) (contents : Column → Content) : Row :=
  if contents column = .null then row else filled column.name ((contents key).cell d key.kind) ((contents column).cell d column.kind) row

theorem touch_id (other : column.name ≠ "id") : touch d key column row contents "id" = row "id" := by
  unfold touch
  split
  · rfl
  · exact filled_id other

theorem restoreLines_texts (regular : table.Regular) (keyed : key ∈ table.columns) (named : key.name = "id")
    (member : column ∈ table.columns) (waits : column.name ∈ table.deferred) (kept : column.name ∉ omitted) (keptKey : "id" ∉ omitted)
    (same : List.Forall₂ (fun original contents : Column → Content => original key = contents key ∧
        original column = contents column) originals all)
    (says_ : ∀ contents ∈ all, table.Says d contents)
    (there : ∀ contents ∈ all, contents column ≠ .null → ∃ row ∈ db.rows table.name, row "id" = (contents column).cell d column.kind) :
    restoreLines d table column count (table.texts omitted originals) db =
      .ok (db.put table.name ((db.rows table.name).map (fun row => all.foldl (touch d key column) row))) := by
  have other := deferred_id regular waits
  induction same generalizing db count with
  | nil =>
    have still : (db.rows table.name).map (fun row => ([] : List (Column → Content)).foldl (touch d key column) row) = db.rows table.name :=
      List.map_id _
    rw [still,put_same]
    rfl
  | @cons original contents originals all both rest ih =>
    have held := says_ contents List.mem_cons_self
    have id : Entered d original key := by
      unfold Entered
      rw [both.1]
      exact held key keyed
    have own : Entered d original column := by
      unfold Entered
      rw [both.2]
      exact held column member
    have step : restoreLine d table column (count+1) (line (table.record omitted original)) db =
        .ok (db.put table.name ((db.rows table.name).map (fun row => touch d key column row contents))) := by
      rw [restoreLine_record regular.names keyed named member kept keptKey id own,both.1,both.2]
      by_cases null : contents column = .null
      · have still : (db.rows table.name).map (fun row => touch d key column row contents) = db.rows table.name := by
          unfold touch
          simp only [if_pos null,List.map_id']
        rw [if_pos null,still,put_same]
      · have names : updateRow table db ((contents key).cell d key.kind) column.name ((contents column).cell d column.kind) = _ :=
          updateRow_names regular waits (there contents List.mem_cons_self null)
        have each : (fun row => touch d key column row contents) =
            filled column.name ((contents key).cell d key.kind) ((contents column).cell d column.kind) := by
          funext row
          unfold touch
          rw [if_neg null]
        rw [if_neg null,names,each]
    have later := @ih (db.put table.name ((db.rows table.name).map (fun row => touch d key column row contents))) (count+1)
      (fun other listed => says_ other (List.mem_cons_of_mem _ listed)) (by
        intro later listed null
        obtain ⟨row,inside,found⟩ := there later (List.mem_cons_of_mem _ listed) null
        refine ⟨touch d key column row contents,?_,?_⟩
        · rw [put_rows]
          exact List.mem_map.mpr ⟨row,inside,rfl⟩
        · rw [touch_id other,found])
    rw [put_rows,put_put,List.map_map] at later
    unfold Table.texts at later ⊢
    rw [List.map_cons,restoreLines,step]
    exact later

theorem untouched (apart : ∀ contents ∈ all, row "id" ≠ (contents key).cell d key.kind) :
    all.foldl (touch d key column) row = row := by
  induction all with
  | nil => rfl
  | cons contents all ih =>
    have still : touch d key column row contents = row := by
      unfold touch filled
      rw [if_neg (apart contents List.mem_cons_self)]
      split <;> rfl
    rw [List.foldl_cons,still]
    exact ih (fun later member => apart later (List.mem_cons_of_mem _ member))

-- Of all the lines only its own touches a row.
theorem touched (other : column.name ≠ "id") (distinct : all.Pairwise
    (fun one two => (one key).cell d key.kind ≠ (two key).cell d key.kind))
    (member : contents ∈ all) (own : row "id" = (contents key).cell d key.kind) :
    all.foldl (touch d key column) row = touch d key column row contents := by
  induction all generalizing row with
  | nil => cases member
  | cons first all ih =>
    obtain ⟨apart,rest⟩ := List.pairwise_cons.mp distinct
    rw [List.foldl_cons]
    rcases List.mem_cons.mp member with rfl | later
    · apply untouched
      intro second inside
      rw [touch_id other,own]
      exact apart second inside
    · have still : touch d key column row first = row := by
        unfold touch filled
        rw [own,if_neg (Ne.symm (apart contents later))]
        split <;> rfl
      rw [still]
      exact ih rest later own

theorem touch_saying {more : List String} (distinct : (table.columns.map Column.name).Nodup) (keyed : key ∈ table.columns)
    (named : key.name = "id")
    (member : column ∈ table.columns) (other : column.name ≠ "id") (waitsNot : column.name ∉ more) (keyNot : "id" ∉ more) :
    touch d key column (table.saying d (blanked (column.name :: more) contents)) contents = table.saying d (blanked more contents) := by
  have one : ∀ held ∈ table.columns, held.name = column.name → held = column :=
    fun held listed same => List.inj_on_of_nodup_map distinct listed member same
  have later : ∀ held ∈ table.columns, held.name ≠ column.name →
      blanked (column.name :: more) contents held = blanked more contents held := by
    intro held _ apart
    unfold blanked
    simp [apart]
  unfold touch
  split
  · rename_i null
    unfold Table.saying
    apply dict_congr
    intro held listed
    by_cases same : held.name = column.name
    · rw [one held listed same]
      unfold blanked
      rw [if_pos List.mem_cons_self,if_neg waitsNot,null]
    · rw [later held listed same]
  · have own : table.saying d (blanked (column.name :: more) contents) "id" = (contents key).cell d key.kind := by
      have at_ : table.saying d (blanked (column.name :: more) contents) key.name = _ := saying_at distinct keyed
      rw [named] at at_
      rw [at_]
      unfold blanked
      rw [if_neg (by rw [named]; simp [Ne.symm other,keyNot])]
    unfold filled
    rw [if_pos own]
    funext name
    by_cases same : name = column.name
    · subst same
      rw [Function.update_self,saying_at distinct member]
      unfold blanked
      rw [if_neg waitsNot]
    · rw [Function.update_of_ne same]
      unfold Table.saying Table.dict
      cases found : table.column name with
      | none => rfl
      | some held =>
        have listed : held ∈ table.columns := List.mem_of_find?_eq_some found
        have called : held.name = name := of_decide_eq_true (List.find?_some (p := fun held : Column => decide (held.name = name)) found)
        dsimp only
        rw [later held listed (by rw [called]; exact same)]

theorem saying_id (distinct : (table.columns.map Column.name).Nodup) (keyed : key ∈ table.columns)
    (named : key.name = "id") {waiting : List String}
    (out : "id" ∉ waiting) : table.saying d (blanked waiting contents) "id" = (contents key).cell d key.kind := by
  have at_ : table.saying d (blanked waiting contents) key.name = _ := saying_at distinct keyed
  rw [named] at at_
  rw [at_]
  unfold blanked
  rw [if_neg (by rw [named]; exact out)]

def Waits (table : Table) (column : Column) : Prop := column ∈ table.columns ∧ column.name ∈ table.deferred

-- A file whose rows name one another.
structure Linked (table : Table) (d : Dialect) (key : Column) (all : List (Column → Content)) : Prop where
  says_ : ∀ contents ∈ all, table.Says d contents
  distinct : all.Pairwise (fun one two => (one key).cell d key.kind ≠ (two key).cell d key.kind)
  names : ∀ contents ∈ all, ∀ column, Waits table column → contents column ≠ .null →
    ∃ other ∈ all, (other key).cell d key.kind = (contents column).cell d column.kind

theorem restore_columns (db : Database) (regular : table.Regular) (keyed : key ∈ table.columns) (named : key.name = "id")
    (keptKey : "id" ∉ omitted)
    (keeps : ∀ name ∈ table.deferred, name ∉ omitted) (linked : Linked table d key all)
    (same : List.Forall₂ (fun original contents : Column → Content => original key = contents key ∧
      ∀ column, Waits table column → original column = contents column) originals all)
    {columns : List Column} (waits : ∀ column ∈ columns, Waits table column) (once : (columns.map Column.name).Nodup)
    (rows : db.rows table.name = all.map (fun contents => table.saying d (blanked (columns.map Column.name) contents))) :
    columns.foldlM (fun db column => restoreLines d table column 0 (table.texts omitted originals) db) db =
      .ok (db.put table.name (all.map (fun contents => table.saying d (blanked [] contents)))) := by
  induction columns generalizing db with
  | nil =>
    rw [List.map_nil] at rows
    have still : db.put table.name (all.map (fun contents => table.saying d (blanked [] contents))) = db := by
      rw [← rows]
      exact put_same
    rw [still]
    rfl
  | cons column columns ih =>
    obtain ⟨member,waiting⟩ := waits column List.mem_cons_self
    obtain ⟨out,once'⟩ := List.nodup_cons.mp once
    have other := deferred_id regular waiting
    have others : ∀ more : List Column, (∀ column ∈ more, Waits table column) → "id" ∉ more.map Column.name := by
      intro more all_ inside
      obtain ⟨held,listed,called⟩ := List.mem_map.mp inside
      exact deferred_id regular (all_ held listed).2 called
    have pass : restoreLines d table column 0 (table.texts omitted originals) db =
        .ok (db.put table.name (all.map (fun contents => table.saying d (blanked (columns.map Column.name) contents)))) := by
      have went : restoreLines d table column 0 (table.texts omitted originals) db = _ :=
        restoreLines_texts regular keyed named member waiting (keeps _ waiting) keptKey
        (same.imp (fun _ _ both => ⟨both.1,both.2 column ⟨member,waiting⟩⟩)) linked.says_ (by
          intro contents listed null
          obtain ⟨target,inside,found⟩ := linked.names contents listed column ⟨member,waiting⟩ null
          refine ⟨table.saying d (blanked ((column :: columns).map Column.name) target),?_,?_⟩
          · rw [rows]
            exact List.mem_map.mpr ⟨target,inside,rfl⟩
          · rw [saying_id regular.names keyed named (others _ waits),found])
      rw [went,rows,List.map_map]
      congr 2
      apply List.map_congr_left
      intro contents listed
      have own : table.saying d (blanked ((column :: columns).map Column.name) contents) "id" = _ :=
        saying_id regular.names keyed named (others (column :: columns) waits)
      rw [List.map_cons] at own
      change all.foldl (touch d key column) (table.saying d (blanked (column.name :: columns.map Column.name) contents)) = _
      rw [touched other linked.distinct listed own]
      exact touch_saying regular.names keyed named member other out
        (others columns (fun held inside => waits held (List.mem_cons_of_mem _ inside)))
    rw [List.foldlM_cons,pass]
    have later := ih (db.put table.name (all.map (fun contents => table.saying d (blanked (columns.map Column.name) contents))))
      (fun held inside => waits held (List.mem_cons_of_mem _ inside)) once' put_rows
    rw [put_put] at later
    exact later

theorem blanked_nil : blanked [] contents = contents := by
  funext column
  exact if_neg List.not_mem_nil

-- The second pass fills in every reference that waits.
theorem restore_texts (regular : table.Regular) (keyed : key ∈ table.columns) (named : key.name = "id") (keptKey : "id" ∉ omitted)
    (keeps : ∀ name ∈ table.deferred, name ∉ omitted) (linked : Linked table d key all)
    (same : List.Forall₂ (fun original contents : Column → Content => original key = contents key ∧
      ∀ column, Waits table column → original column = contents column) originals all)
    (rows : db.rows table.name = all.map (fun contents => table.saying d (blanked table.deferred contents))) :
    restore d table (table.texts omitted originals) db = .ok (db.put table.name (all.map (table.saying d))) := by
  have waits : ∀ column ∈ table.columns.filter (fun column => column.name ∈ table.deferred), Waits table column := by
    intro column inside
    obtain ⟨member,waiting⟩ := List.mem_filter.mp inside
    exact ⟨member,of_decide_eq_true waiting⟩
  have once : ((table.columns.filter (fun column => column.name ∈ table.deferred)).map Column.name).Nodup :=
    regular.names.sublist (List.filter_sublist.map _)
  have whole := restore_columns db regular keyed named keptKey keeps linked same waits once (by
    rw [rows]
    apply List.map_congr_left
    intro contents _
    unfold Table.saying
    apply dict_congr
    intro column member
    have both : column.name ∈ (table.columns.filter (fun column => column.name ∈ table.deferred)).map Column.name ↔
        column.name ∈ table.deferred := by
      constructor
      · intro inside
        obtain ⟨held,listed,called⟩ := List.mem_map.mp inside
        rw [← called]
        exact (waits held listed).2
      · intro waiting
        exact List.mem_map.mpr ⟨column,List.mem_filter.mpr ⟨member,decide_eq_true waiting⟩,rfl⟩
    unfold blanked
    rw [if_congr both.symm rfl rfl])
  unfold restore
  rw [whole]
  simp only [blanked_nil]

end ChronosLedger.Portability
