import ChronosLedger.ArchiveChains
import ChronosLedger.Library.Runs

namespace ChronosLedger.Portability
open JsonText Runs

variable {d d' : Dialect} {draws : Draws} {table : Table} {column : Column} {db start current after : Database} {omitted : List String}
  {count number : Nat} {archive : Archive} {password : Option String}

-- What an import does to the database: a row of a table goes in, or a column
-- of one is set.
inductive Write (d : Dialect) : Database → Table × Option Column → Database → Prop where
  | insert {table : Table} {db after : Database} {values : String → Value} (listed : table ∈ exported)
      (went : insertRow d table db values = some after) : Write d db (table,none) after
  | update {table : Table} {column : Column} {db after : Database} {id cell : Cell} {value : Value} (listed : table ∈ exported)
      (member : column ∈ table.columns) (stored : store d column.kind value = some cell)
      (went : updateRow table db id column.name cell = some after) : Write d db (table,some column) after

-- The second pass of a table only sets its columns that wait.
def Restoring (table : Table) (_ : Database) (op : Table × Option Column) : Prop :=
  op.1 = table ∧ ∃ column, op.2 = some column ∧ column.name ∈ table.deferred

theorem foldlM_reached {α ε σ ω : Type} {step : σ → ω → σ → Prop} {f : σ → α → Except ε σ} {items : List α}
    (each : ∀ item ∈ items, ∀ s next, f s item = .ok next → Reached step s next) {s last : σ} (went : items.foldlM f s = .ok last) :
    Reached step s last := by
  induction items generalizing s with
  | nil =>
    cases went
    exact .start
  | cons item items ih =>
    rw [List.foldlM_cons] at went
    cases first : f s item with
    | error problem =>
      rw [first] at went
      cases went
    | ok next =>
      rw [first] at went
      exact (each item List.mem_cons_self s next first).trans (ih (fun other member => each other (List.mem_cons_of_mem _ member)) went)

theorem insertRows_reached (listed : table ∈ exported) {batch : List (String → Value)} (went :
    batch.foldlM (insertRow d table) db = some after) :
    Reached (Write d) db after := by
  induction batch generalizing db with
  | nil =>
    cases went
    exact .start
  | cons row batch ih =>
    rw [List.foldlM_cons] at went
    cases first : insertRow d table db row with
    | none =>
      rw [first] at went
      cases went
    | some next =>
      rw [first] at went
      exact Reached.trans (.step .start (.insert listed first)) (ih went)

theorem loadLines_reached (listed : table ∈ exported) {texts : List (List Char)} {batch : List (String → Value)} {total : Nat}
    (went : loadLines d draws table omitted count texts batch db = .ok (total,after)) : Reached (Write d) db after := by
  induction texts generalizing count batch db with
  | nil =>
    rw [loadLines] at went
    cases inserted : insertBatch d table batch count db with
    | error refusal =>
      rw [inserted] at went
      cases went
    | ok held =>
      rw [inserted] at went
      cases went
      exact insertRows_reached listed (insertBatch_exact.mp inserted)
  | cons text texts ih =>
    rw [loadLines] at went
    cases read : decodeLine draws table omitted (count+1) text with
    | error refusal =>
      rw [read] at went
      cases went
    | ok row =>
      rw [read] at went
      change (if batchSize ≤ batch.length+1 then _ else _) = _ at went
      split at went
      · cases inserted : insertBatch d table (batch ++ [row]) (count+1) db with
        | error refusal =>
          rw [inserted] at went
          cases went
        | ok held =>
          rw [inserted] at went
          exact (insertRows_reached listed (insertBatch_exact.mp inserted)).trans (ih went)
      · exact ih went

theorem restoreLine_reached (listed : table ∈ exported) (waits : Waits table column) {text : List Char}
    (went : restoreLine d table column number text db = .ok after) : Reached (Guarded (Write d) (Restoring table)) db after := by
  unfold restoreLine at went
  split at went
  · cases went
  · split at went
    · cases went
      exact .start
    · split at went
      · rename_i kind id value _ _
        split at went
        · rename_i found
          cases went
          obtain ⟨key,_,rest⟩ := Option.bind_eq_some_iff.mp found
          obtain ⟨cell,stored,updated⟩ := Option.bind_eq_some_iff.mp rest
          exact .step .start ⟨⟨rfl,column,rfl,waits.2⟩,.update listed waits.1 stored updated⟩
        · cases went
      · cases went
      · cases went
      · cases went
        exact .start

theorem restoreLines_reached (listed : table ∈ exported) (waits : Waits table column) {texts : List (List Char)}
    (went : restoreLines d table column count texts db = .ok after) : Reached (Guarded (Write d) (Restoring table)) db after := by
  induction texts generalizing count db with
  | nil =>
    cases went
    exact .start
  | cons text texts ih =>
    rw [restoreLines] at went
    cases first : restoreLine d table column (count+1) text db with
    | error refusal =>
      rw [first] at went
      cases went
    | ok held =>
      rw [first] at went
      exact (restoreLine_reached listed waits first).trans (ih went)

theorem restore_reached (listed : table ∈ exported) {texts : List (List Char)} (went : restore d table texts db = .ok after) :
    Reached (Guarded (Write d) (Restoring table)) db after := by
  unfold restore at went
  refine foldlM_reached (fun column inside s next pass => ?_) went
  obtain ⟨member,waits⟩ := List.mem_filter.mp inside
  exact restoreLines_reached listed ⟨member,of_decide_eq_true waits⟩ pass

theorem load_reached (listed : table ∈ exported) {expected : Int} (went : load d draws archive table expected omitted db = .ok after) :
    Reached (Write d) db after := by
  unfold load at went
  split at went
  · cases went
  · rename_i text _
    cases first : loadLines d draws table omitted 0 (lines text) [] db with
    | error refusal =>
      rw [first] at went
      cases went
    | ok pair =>
      obtain ⟨total,mid⟩ := pair
      rw [first] at went
      change (if (total : Int) = expected then restore d table (lines text) mid else _) = _ at went
      split at went
      · exact (loadLines_reached listed first).trans (restore_reached listed went).unguard
      · cases went

theorem loadTables_reached (went : loadTables d draws archive db = .ok after) : Reached (Write d) db after :=
  foldlM_reached (fun _ listed _ _ loaded => load_reached listed loaded) went

theorem openAdmin_reached (went : openAdmin d draws password db = .ok after) : Reached (Write d) db after := by
  unfold openAdmin at went
  split at went
  · split at went
    · cases went
    · split at went
      · rename_i found
        cases went
        obtain ⟨cell,stored,updated⟩ := Option.bind_eq_some_iff.mp found
        have hash : required "credential_secure_hash" (.string 255) ∈ users.columns := by decide
        have listed : users ∈ exported := by simp [exported]
        exact .step .start (.update listed hash stored updated)
      · cases went
  · cases went
    exact .start

-- A whole import is a run of such writes.
theorem importBody_reached (went : importBody d draws password archive db = .ok after) : Reached (Write d) db after := by
  unfold importBody at went
  cases empty : refuseRows db with
  | error refusal =>
    rw [empty] at went
    cases went
  | ok _ =>
    rw [empty] at went
    change ((loadTables d draws archive db).bind fun loaded =>
        if archive.manifest.secretsIncluded then .ok loaded else openAdmin d draws password loaded) = _
      at went
    cases loads_ : loadTables d draws archive db with
    | error refusal =>
      rw [loads_] at went
      cases went
    | ok loaded =>
      rw [loads_] at went
      change (if archive.manifest.secretsIncluded then .ok loaded else openAdmin d draws password loaded) = _ at went
      split at went
      · cases went
        exact loadTables_reached loads_
      · exact (loadTables_reached loads_).trans (openAdmin_reached went)

-- What a column takes in it can hold.
theorem store_takes {kind : Kind} {value : Value} {cell : Cell} (stored : store d kind value = some cell) : Takes d kind cell = true := by
  cases d with
  | sqlite => rfl
  | postgresql zone lower =>
    cases kind with
    | integer =>
      cases value with
      | int n =>
        change (if fitsIn 32 n = true then some (Cell.int n) else none) = some cell at stored
        split at stored
        · rename_i fits
          cases stored
          exact fits
        · cases stored
      | none =>
        cases stored
        rfl
      | _ => cases stored
    | text =>
      cases value with
      | text s =>
        change (if plain s = true then some (Cell.text s) else none) = some cell at stored
        split at stored
        · rename_i clean
          cases stored
          exact clean
        · cases stored
      | none =>
        cases stored
        rfl
      | _ => cases stored
    | string length =>
      cases value with
      | text s =>
        change (if plain s = false then none else if s.length ≤ length then some (Cell.text s)
          else if (s.toList.drop length).all (fun c => c = ' ') then some (Cell.text (String.ofList (s.toList.take length))) else
              none) = some cell
          at stored
        split at stored
        · cases stored
        · rename_i clean
          rw [Bool.not_eq_false] at clean
          split at stored
          · rename_i short
            cases stored
            exact Bool.and_eq_true_iff.mpr ⟨clean,decide_eq_true short⟩
          · split at stored
            · cases stored
              refine Bool.and_eq_true_iff.mpr ⟨?_,decide_eq_true ?_⟩
              · unfold plain at clean ⊢
                rw [String.toList_ofList,List.all_eq_true]
                exact fun c inside => List.all_eq_true.mp clean c (List.mem_of_mem_take inside)
              · rw [← String.length_toList,String.toList_ofList]
                exact List.length_take_le _ _
            · cases stored
      | none =>
        cases stored
        rfl
      | _ => cases stored
    | _ => rfl

theorem storedRow_parts (listed : table ∈ exported) {values : String → Value} {row : Row} (stored : storedRow d table values = some row)
    (member : column ∈ table.columns) : store d column.kind (values column.name) = some (row column.name) := by
  unfold storedRow at stored
  split at stored
  · cases stored
  · rename_i all
    cases stored
    rw [dict_at (exported_columns table listed).1 member]
    rw [Bool.not_eq_true,List.any_eq_false] at all
    have some_ := all column member
    cases held : store d column.kind (values column.name) with
    | none =>
      rw [held] at some_
      exact absurd rfl some_
    | some cell => rfl

-- Every value in the database is one it can hold.
def Taken (d : Dialect) (db : Database) : Prop :=
  ∀ table ∈ exported, ∀ row ∈ db.rows table.name, ∀ column ∈ table.columns, Takes d column.kind (row column.name) = true

theorem updateRow_parts {id cell : Cell} {name : String} (went : updateRow table db id name cell = some after) :
    after = db.put table.name ((db.rows table.name).map (filled name id cell)) := by
  unfold updateRow at went
  dsimp only at went
  split at went
  · exact (Option.some.inj went).symm
  · cases went

theorem write_taken {op : Table × Option Column} (write : Write d current op after) (taken : Taken d current) : Taken d after := by
  intro other listed' row inside held member
  cases write with
  | @insert table _ _ values listed went =>
    obtain ⟨row',stored,rfl,_⟩ := insertRow_parts.mp went
    by_cases same : other.name = table.name
    · have one := List.inj_on_of_nodup_map exported_names listed' listed same
      subst one
      rw [put_rows] at inside
      rcases List.mem_append.mp inside with before | new
      · exact taken other listed' row before held member
      · rw [List.mem_singleton.mp new]
        exact store_takes (storedRow_parts listed' stored member)
    · rw [put_other same] at inside
      exact taken other listed' row inside held member
  | @update table column _ _ id cell value listed own stored went =>
    rw [updateRow_parts went] at inside
    by_cases same : other.name = table.name
    · have one := List.inj_on_of_nodup_map exported_names listed' listed same
      subst one
      rw [put_rows] at inside
      obtain ⟨before,there,rfl⟩ := List.mem_map.mp inside
      unfold filled
      split
      · by_cases named : held.name = column.name
        · have one := List.inj_on_of_nodup_map (exported_columns other listed').1 member own named
          subst one
          rw [Function.update_self]
          exact store_takes stored
        · rw [Function.update_of_ne named]
          exact taken other listed' before there held member
      · exact taken other listed' before there held member
    · rw [put_other same] at inside
      exact taken other listed' row inside held member

-- Nothing an import does puts in what a column cannot hold.
theorem import_taken (vacant : Vacant start) (went : importBody d draws password archive start = .ok after) : Taken d after := by
  refine (importBody_reached went).invariant (Taken d) ?_ (fun _ _ _ taken write => write_taken write taken)
  intro table listed row inside
  rw [vacant table.name (List.mem_append_left _ (List.mem_map_of_mem listed))] at inside
  cases inside

-- Two databases the same but for the columns of a table that wait.
structure Untouched (table : Table) (one two : Database) : Prop where
  elsewhere : ∀ name, name ≠ table.name → two.rows name = one.rows name
  rows : List.Forall₂ (fun row row' : Row => ∀ name, name ∉ table.deferred → row' name = row name) (one.rows table.name)
      (two.rows table.name)

theorem write_untouched {op : Table × Option Column} (write : Guarded (Write d) (Restoring table) current op after) :
    Untouched table current after := by
  obtain ⟨⟨same,column,own,waits⟩,step⟩ := write
  cases step with
  | insert => cases own
  | update listed member stored went =>
    cases own
    cases same
    rw [updateRow_parts went]
    refine ⟨fun name other => put_other other,?_⟩
    rw [put_rows,List.forall₂_map_right_iff,List.forall₂_same]
    intro row _ name kept
    unfold filled
    split
    · exact Function.update_of_ne (fun named => kept (by rw [named]; exact waits)) _ _
    · rfl

theorem keeping_trans {kept : String → Prop} {one two three : List Row}
    (first : List.Forall₂ (fun row row' : Row => ∀ name, kept name → row' name = row name) one two)
    (second : List.Forall₂ (fun row row' : Row => ∀ name, kept name → row' name = row name) two three) :
    List.Forall₂ (fun row row' : Row => ∀ name, kept name → row' name = row name) one three := by
  induction first generalizing three with
  | nil => exact second
  | cons same _ ih =>
    cases second with
    | cons same' later => exact .cons (fun name out => (same' name out).trans (same name out)) (ih later)

-- The second pass of a table sets nothing but the columns that wait.
theorem restore_untouched (listed : table ∈ exported) {texts : List (List Char)} (went : restore d table texts db = .ok after) :
    Untouched table db after := by
  refine (restore_reached listed went).related (fun s => ⟨fun _ _ => rfl,List.forall₂_same.mpr (fun _ _ _ _ => rfl)⟩) ?_
    (fun _ _ _ write => write_untouched write)
  intro one two three first second
  refine ⟨fun name other => (second.elsewhere name other).trans (first.elsewhere name other),?_⟩
  exact keeping_trans first.rows second.rows

end ChronosLedger.Portability
