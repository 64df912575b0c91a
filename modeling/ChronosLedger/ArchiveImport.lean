import ChronosLedger.ArchiveReferences

namespace ChronosLedger.Portability
open JsonText

-- What an import makes up fits its columns, and no two of that many keys have
-- one hash.
structure Draws.Sane (draws : Draws) (keys : Nat) : Prop where
  absent : plain draws.absentAccountHash = true ∧ draws.absentAccountHash.length ≤ 255
  hashes : ∀ number, plain (draws.keyHash number) = true ∧ (draws.keyHash number).length ≤ 64
  distinct : ∀ one ≤ keys, ∀ two ≤ keys, draws.keyHash one = draws.keyHash two → one = two
  secrets : ∀ number, plain (draws.secret number) = true ∧ (draws.secret number).length ≤ 100
  now : ∀ number, InRange (draws.now number)
  hashed : ∀ password, plain (draws.hashPassword password) = true ∧ (draws.hashPassword password).length ≤ 255

-- Whether a database takes a value that another holds.
def Takes (d : Dialect) (kind : Kind) (cell : Cell) : Bool :=
  match d,kind,cell with
  | .postgresql _ _,.integer,.int n => fitsIn 32 n
  | .postgresql _ _,.string length,.text s => plain s && decide (s.length ≤ length)
  | .postgresql _ _,.text,.text s => plain s
  | _,_,_ => true

-- A state of the database that its schema allows.
structure WellFormed (d : Dialect) (db : Database) : Prop where
  holds : ∀ table ∈ exported, ∀ row ∈ db.rows table.name, ∀ column ∈ table.columns, Holds d column (row column.name)
  sound : ∀ table ∈ exported, ∀ row ∈ db.rows table.name, table.sound row = true
  keys : ∀ table ∈ exported, ∀ row ∈ db.rows table.name, ∀ key ∈ table.foreignKeys, key.holds db row = true
  together : ∀ table ∈ exported, (db.rows table.name).Pairwise (fun one two => table.together d one two = true)

-- A state that another database can hold as well.
structure Portable (d : Dialect) (includeSecrets : Bool) (db : Database) : Prop where
  takes : ∀ table ∈ exported, ∀ row ∈ db.rows table.name, ∀ column ∈ table.kept (omittedFrom includeSecrets table.name),
    Takes d column.kind (row column.name) = true
  apart : ∀ table ∈ exported, (db.rows table.name).Pairwise (fun one two => table.apart d one two = true)

variable {d d' : Dialect} {draws : Draws} {table : Table} {key column : Column} {omitted : List String} {db after : Database}
  {count number keys : Nat} {contents : Column → Content} {content : Content} {all : List (Column → Content)} {row one two : Row}

theorem takes_cell (of : content.Of column) : Takes d' column.kind (content.cell d column.kind) = Fits d' column.kind content := by
  obtain ⟨name,kind,nullable⟩ := column
  cases d' with
  | sqlite => rfl
  | postgresql =>
    cases content with
    | number n => obtain ⟨rfl | rfl,_⟩ := of <;> rfl
    | text s => rcases of with rfl | ⟨length,rfl⟩ <;> rfl
    | null => cases kind <;> rfl
    | label s =>
      obtain ⟨members,rfl,_⟩ := of
      rfl
    | truth b =>
      cases of
      cases d <;> rfl
    | moment at_ =>
      obtain ⟨rfl,_⟩ := of
      cases d <;> rfl
    | units n =>
      obtain ⟨precision,scale,rfl,_⟩ := of
      cases d <;> rfl
    | _ => cases kind <;> rfl

-- The kinds stored alike have one cell on both.
theorem neutral_cell (d d' : Dialect) (of : content.Of column) (neutral : column.kind.neutral = true) :
    content.cell d column.kind = content.cell d' column.kind := by
  obtain ⟨name,kind,nullable⟩ := column
  cases content with
  | truth b =>
    cases of
    cases neutral
  | moment at_ =>
    obtain ⟨rfl,_⟩ := of
    cases neutral
  | units n =>
    obtain ⟨precision,scale,rfl,_⟩ := of
    cases neutral
  | _ => rfl

theorem cell_null {kind : Kind} : content.cell d kind = .null ↔ content = .null := by
  cases content <;> cases d <;> simp [Content.cell]

theorem exported_stopping : ∀ table ∈ exported, ∀ column ∈ table.columns, table.name = "webhook_subscriptions" →
    column.name = "paused_at" ∨ column.name = "previous_secret_expires_at" → column.kind = .dateTime ∧ column.nullable = true := by
  decide

theorem exported_hidden : ∀ table ∈ exported, ∀ column ∈ table.columns, column.name ∈ omittedFrom false table.name →
    if table.name = "users" ∧ column.name = "credential_secure_hash" then column.kind = .string 255
    else if table.name = "api_keys" ∧ column.name = "key_hash" then column.kind = .string 64
    else if table.name = "webhook_subscriptions" ∧ column.name = "secret" then column.kind = .string 100
    else column.nullable = true := by
  decide

theorem omittedFrom_within {includeSecrets : Bool} {table name : String} (out : name ∈ omittedFrom includeSecrets table) :
    name ∈ omittedFrom false table := by
  cases includeSecrets with
  | false => exact out
  | true => cases out

theorem moved_kept (listed : table ∈ exported) (member : column ∈ table.columns) (kept : column.name ∉ omitted)
    (neutral : column.kind.neutral = true) : draws.moved table omitted number contents column = contents column := by
  unfold Draws.moved
  rw [if_neg kept]
  split
  · rename_i stops
    have kind := (exported_stopping table listed column member stops.2.1 (.inl stops.2.2)).1
    rw [kind] at neutral
    cases neutral
  · split
    · rename_i ends
      have kind := (exported_stopping table listed column member ends.2.1 (.inr ends.2.2)).1
      rw [kind] at neutral
      cases neutral
    · rfl

theorem moved_all : draws.moved table [] number contents = contents := by
  funext column
  unfold Draws.moved
  rw [if_neg List.not_mem_nil,if_neg (fun both => both.1 rfl),if_neg (fun both => both.1 rfl)]

theorem redacted_saying (listed : table ∈ exported) (member : column ∈ table.columns) (out : column.name ∈ omittedFrom false table.name)
    (sane : draws.Sane keys) : (redactedContent draws number table.name column.name).Of column ∧
      Fits d column.kind (redactedContent draws number table.name column.name) = true := by
  have hidden := exported_hidden table listed column member out
  have wide : ∀ {length : Nat} {s : String}, plain s = true → s.length ≤ length → Fits d (.string length) (.text s) = true := by
    intro length s clean short
    cases d with
    | sqlite => rfl
    | postgresql => exact Bool.and_eq_true_iff.mpr ⟨clean,decide_eq_true short⟩
  unfold redactedContent
  by_cases account : table.name = "users" ∧ column.name = "credential_secure_hash"
  · rw [if_pos account] at hidden ⊢
    rw [hidden]
    exact ⟨.inr ⟨255,hidden⟩,wide sane.absent.1 sane.absent.2⟩
  · rw [if_neg account] at hidden ⊢
    by_cases api : table.name = "api_keys" ∧ column.name = "key_hash"
    · rw [if_pos api] at hidden ⊢
      rw [hidden]
      exact ⟨.inr ⟨64,hidden⟩,wide (sane.hashes number).1 (sane.hashes number).2⟩
    · rw [if_neg api] at hidden ⊢
      by_cases hook : table.name = "webhook_subscriptions" ∧ column.name = "secret"
      · rw [if_pos hook] at hidden ⊢
        rw [hidden]
        exact ⟨.inr ⟨100,hidden⟩,wide (sane.secrets number).1 (sane.secrets number).2⟩
      · rw [if_neg hook] at hidden ⊢
        exact ⟨hidden,fits_null⟩

-- What arrives is what the other database can hold.
theorem moved_saying (listed : table ∈ exported) (within : ∀ name ∈ omitted, name ∈ omittedFrom false table.name)
    (sane : omitted ≠ [] → draws.Sane keys) (of : ∀ column ∈ table.columns, (contents column).Of column)
    (fits : ∀ column ∈ table.columns, column.name ∉ omitted → Fits d column.kind (contents column) = true) :
    table.Says d (draws.moved table omitted number contents) := by
  intro column member
  unfold Draws.moved
  split
  · rename_i out
    exact redacted_saying listed member (within _ out) (sane (List.ne_nil_of_mem out))
  · rename_i kept
    split
    · rename_i stops
      obtain ⟨kind,nullable⟩ := exported_stopping table listed column member stops.2.1 (.inl stops.2.2)
      split
      · exact ⟨⟨kind,(sane stops.1).now number⟩,by rw [kind]; cases d <;> rfl⟩
      · exact ⟨of column member,fits column member kept⟩
    · split
      · rename_i ends
        exact ⟨(exported_stopping table listed column member ends.2.1 (.inr ends.2.2)).2,fits_null⟩
      · exact ⟨of column member,fits column member kept⟩

-- What a row says, column by column.
noncomputable def rowSays (d : Dialect) (row : Row) (column : Column) : Content := said d column (row column.name)

-- A row as it arrives, while some columns wait.
noncomputable def arriving (draws : Draws) (d d' : Dialect) (table : Table) (omitted waiting : List String) (number : Nat)
    (row : Row) : Row :=
  table.saying d' (blanked waiting (draws.moved table omitted number (rowSays d row)))

def Held (d : Dialect) (table : Table) (row : Row) : Prop := ∀ column ∈ table.columns, Holds d column (row column.name)

variable {waiting : List String} {other : Nat}

theorem moved_cell (listed : table ∈ exported) (held : Held d table row) (member : column ∈ table.columns) (kept : column.name ∉ omitted)
    (neutral : column.kind.neutral = true) :
    (draws.moved table omitted number (rowSays d row) column).cell d' column.kind = row column.name := by
  obtain ⟨of,_,cell⟩ := said_parts (held column member)
  rw [moved_kept listed member kept neutral,neutral_cell d' d (show (rowSays d row column).Of column from of) neutral]
  exact cell.symm

theorem arriving_alike (listed : table ∈ exported) (held : Held d table row) :
    table.Alike (waiting ++ omitted) (arriving draws d d' table omitted waiting number row) row := by
  intro column member kept neutral
  rw [List.mem_append,not_or] at kept
  unfold arriving
  rw [saying_at (exported_columns table listed).1 member,blanked,if_neg kept.1]
  exact moved_cell listed held member kept.2 neutral

theorem aside_within (within : ∀ name ∈ omitted, name ∈ omittedFrom false table.name) :
    ∀ name ∈ table.deferred ++ omitted, name ∈ table.aside := by
  intro name inside
  rcases List.mem_append.mp inside with waits | out
  · exact List.mem_append_left _ waits
  · exact List.mem_append_right _ (within name out)

theorem saying_sound (listed : table ∈ exported) (says_ : table.Says d contents)
    (alike : table.Alike table.aside (table.saying d contents) row)
    (sound : table.sound row = true) : table.sound (table.saying d contents) = true := by
  obtain ⟨_,checks⟩ := sound_parts.mp sound
  refine sound_parts.mpr ⟨?_,?_⟩
  · intro column member
    rw [saying_at (exported_columns table listed).1 member]
    by_cases null : contents column = .null
    · left
      have of := (says_ column member).1
      rw [null] at of
      exact of
    · exact .inr (fun same => null (cell_null.mp same))
  · intro check member
    rw [checks_alike listed member alike]
    exact checks check member

theorem exported_opening : ∀ table ∈ exported, ∀ names ∈ table.uniques, (∀ name ∈ names, name ∉ omittedFrom false table.name) ∨
    (∃ column ∈ table.columns, column.name ∈ names ∧ ¬(table.name = "users" ∧ column.name = "credential_secure_hash") ∧
      ¬(table.name = "api_keys" ∧ column.name = "key_hash") ∧ ¬(table.name = "webhook_subscriptions" ∧ column.name = "secret") ∧
      column.name ∈ omittedFrom false table.name ∧ column.name ∉ table.deferred) ∨
    (table.name = "api_keys" ∧ ∃ column ∈ table.columns, column.name = "key_hash" ∧ column.name ∈ names ∧
        column.name ∉ table.deferred) := by
  decide

theorem omittedFrom_api : omittedFrom false "api_keys" = ["key_hash"] := by decide

-- A value made up takes no other's place in a unique column.
theorem arriving_differ {includeSecrets : Bool} (listed : table ∈ exported) (held : Held d table one) (held' : Held d table two)
    (sane : includeSecrets = false → draws.Sane keys) (low : table.name = "api_keys" → number ≤ keys)
    (low' : table.name = "api_keys" → other ≤ keys) (apart : number ≠ other) {names : List String}
    (unique : names ∈ table.uniques) (differs : differ names one two = true) :
    differ names (arriving draws d d' table (omittedFrom includeSecrets table.name) table.deferred number one)
      (arriving draws d d' table (omittedFrom includeSecrets table.name) table.deferred other two) = true := by
  have distinct := (exported_columns table listed).1
  have alike : table.Alike (table.deferred ++ omittedFrom includeSecrets table.name)
    (arriving draws d d' table (omittedFrom includeSecrets table.name) table.deferred number one) one := arriving_alike listed held
  have alike' : table.Alike (table.deferred ++ omittedFrom includeSecrets table.name)
    (arriving draws d d' table (omittedFrom includeSecrets table.name) table.deferred other two) two := arriving_alike listed held'
  obtain ⟨reads_,waitsNot⟩ := exported_uniques table listed names unique
  by_cases open_ : ∀ name ∈ names, name ∉ omittedFrom includeSecrets table.name
  · refine differ_alike alike.symm alike'.symm reads_ ?_ differs
    intro name inside both
    rcases List.mem_append.mp both with waits | out
    · exact waitsNot name inside waits
    · exact open_ name inside out
  · cases includeSecrets with
    | true => exact absurd (fun name _ => List.not_mem_nil) open_
    | false =>
      rcases exported_opening table listed names unique with all_ | hidden | api
      · exact absurd all_ open_
      · obtain ⟨column,member,inside,account,key,hook,out,kept⟩ := hidden
        refine differ_parts.mpr ⟨column.name,inside,.inl ?_⟩
        unfold arriving
        rw [saying_at distinct member,blanked,if_neg kept,Draws.moved,if_pos out,redactedContent,if_neg account,if_neg key,if_neg hook]
        rfl
      · obtain ⟨table_,column,member,name,inside,kept⟩ := api
        have out : column.name ∈ omittedFrom false table.name := by
          rw [table_,omittedFrom_api,name]
          exact List.mem_singleton_self _
        have account : ¬(table.name = "users" ∧ column.name = "credential_secure_hash") := by
          intro both
          exact absurd (name.symm.trans both.2) (by decide)
        refine differ_parts.mpr ⟨column.name,inside,.inr (.inr ?_)⟩
        unfold arriving
        rw [saying_at distinct member,saying_at distinct member,blanked,blanked,if_neg kept,if_neg kept,Draws.moved,Draws.moved,
            if_pos out,if_pos out,
          redactedContent,redactedContent,if_neg account,if_neg account,if_pos ⟨table_,name⟩,if_pos ⟨table_,name⟩]
        intro same
        exact apart ((sane rfl).distinct number (low table_) other (low' table_) (Cell.text.inj same))

-- Two rows go in together just when no constraint on both is in the way.
theorem arriving_together {includeSecrets : Bool} (listed : table ∈ exported) (held : Held d table one) (held' : Held d table two)
    (sane : includeSecrets = false → draws.Sane keys) (low : table.name = "api_keys" → number ≤ keys)
    (low' : table.name = "api_keys" → other ≤ keys) (apart : number ≠ other)
    (together : table.together d one two = true) :
    table.together d' (arriving draws d d' table (omittedFrom includeSecrets table.name) table.deferred number one)
      (arriving draws d d' table (omittedFrom includeSecrets table.name) table.deferred other two) = true ↔
          table.apart d' one two = true := by
  obtain ⟨different,uniques,_⟩ := together_parts.mp together
  have within : ∀ name ∈ table.deferred ++ omittedFrom includeSecrets table.name, name ∈ table.aside :=
    aside_within (fun name => omittedFrom_within)
  have alike : table.Alike table.aside (arriving draws d d' table (omittedFrom includeSecrets table.name) table.deferred number one) one :=
    (arriving_alike listed held).weaken within
  have alike' : table.Alike table.aside (arriving draws d d' table (omittedFrom includeSecrets table.name) table.deferred other two) two :=
    (arriving_alike listed held').weaken within
  obtain ⟨_,read,keyed⟩ := exported_columns table listed
  rw [together_parts,apart_alike listed alike alike',alike.value "id" ⟨read,keyed⟩,alike'.value "id" ⟨read,keyed⟩]
  exact ⟨fun all => all.2.2,fun both => ⟨different,fun names unique =>
    arriving_differ listed held held' sane low low' apart unique (uniques names unique),both⟩⟩

variable {rows : List Row}

theorem arrivals_mem {arrival : Column → Content} (member : arrival ∈ draws.arrivals table omitted count (rows.map (rowSays d))) :
    ∃ row ∈ rows, ∃ number, count < number ∧ number ≤ count+rows.length ∧ arrival = draws.moved table omitted number (rowSays d row) := by
  induction rows generalizing count with
  | nil => cases member
  | cons row rows ih =>
    rw [List.map_cons,Draws.arrivals] at member
    rcases List.mem_cons.mp member with rfl | later
    · exact ⟨row,List.mem_cons_self,count+1,by omega,by rw [List.length_cons]; omega,rfl⟩
    · obtain ⟨held,inside,number,above,below,same⟩ := ih later
      exact ⟨held,List.mem_cons_of_mem _ inside,number,by omega,by rw [List.length_cons]; omega,same⟩

theorem mem_arrivals (draws : Draws) (d : Dialect) (table : Table) (omitted : List String) (count : Nat) (member : row ∈ rows) :
    ∃ number, count < number ∧ number ≤ count+rows.length ∧
    draws.moved table omitted number (rowSays d row) ∈ draws.arrivals table omitted count (rows.map (rowSays d)) := by
  induction rows generalizing count with
  | nil => cases member
  | cons first rows ih =>
    rw [List.map_cons,Draws.arrivals]
    rcases List.mem_cons.mp member with rfl | later
    · exact ⟨count+1,by omega,by rw [List.length_cons]; omega,List.mem_cons_self⟩
    · obtain ⟨number,above,below,inside⟩ := ih (count+1) later
      exact ⟨number,by omega,by rw [List.length_cons]; omega,List.mem_cons_of_mem _ inside⟩

-- What holds of any two rows and where they stand holds of all that arrive.
theorem arrivals_pairwise {T R : Row → Row → Prop} {S : (Column → Content) → (Column → Content) → Prop} (apart : rows.Pairwise T)
    (each : ∀ one ∈ rows, ∀ two ∈ rows, ∀ number other, number ≤ count+rows.length → other ≤ count+rows.length →
        number ≠ other → T one two →
      (S (draws.moved table omitted number (rowSays d one)) (draws.moved table omitted other (rowSays d two)) ↔ R one two)) :
    (draws.arrivals table omitted count (rows.map (rowSays d))).Pairwise S ↔ rows.Pairwise R := by
  induction rows generalizing count with
  | nil => exact iff_of_true .nil .nil
  | cons first rows ih =>
    obtain ⟨before,rest⟩ := List.pairwise_cons.mp apart
    rw [List.map_cons,Draws.arrivals,List.pairwise_cons,List.pairwise_cons]
    rw [List.length_cons] at each
    refine and_congr ⟨?_,?_⟩ (ih rest (fun one inside two inside' number other low low' => each one (List.mem_cons_of_mem _ inside) two
      (List.mem_cons_of_mem _ inside') number other (by omega) (by omega)))
    · intro all_ two inside
      obtain ⟨number,above,below,arrives⟩ := mem_arrivals draws d table omitted (count+1) inside
      exact (each first List.mem_cons_self two (List.mem_cons_of_mem _ inside) (count+1) number (by omega) (by omega) (by omega)
          (before two inside)).mp
        (all_ _ arrives)
    · intro all_ arrival arrives
      obtain ⟨two,inside,number,above,below,rfl⟩ := arrivals_mem arrives
      exact (each first List.mem_cons_self two (List.mem_cons_of_mem _ inside) (count+1) number (by omega) (by omega) (by omega)
          (before two inside)).mpr
        (all_ two inside)

theorem deferred_foreign {name : String} (waits : name ∈ table.deferred) : ∃ foreign ∈ table.foreignKeys, foreign.target = table.name ∧
    name ∈ foreign.columns := by
  unfold Table.deferred at waits
  obtain ⟨foreign,inside,names⟩ := List.mem_flatMap.mp waits
  obtain ⟨member,target⟩ := List.mem_filter.mp inside
  exact ⟨foreign,member,of_decide_eq_true target,names⟩

-- The rows of one table of an archive.
structure Lot (d : Dialect) (table : Table) (rows : List Row) : Prop where
  held : ∀ row ∈ rows, Held d table row
  sound : ∀ row ∈ rows, table.sound row = true
  together : rows.Pairwise (fun one two => table.together d one two = true)
  own : ∀ row ∈ rows, ∀ foreign ∈ table.foreignKeys, foreign.target = table.name →
    (∃ name ∈ foreign.columns, row name = .null) ∨ ∃ other ∈ rows, foreign.names row other = true

theorem arrivals_linked {includeSecrets : Bool} (listed : table ∈ exported) (lot : Lot d table rows) (keyed : key ∈ table.columns)
    (named : key.name = "id") (neutral : key.kind.neutral = true) (sane : includeSecrets = false → draws.Sane keys)
    (takes : ∀ row ∈ rows, ∀ column ∈ table.kept (omittedFrom includeSecrets table.name), Takes d' column.kind (row column.name) = true) :
    Linked table d' key (draws.arrivals table (omittedFrom includeSecrets table.name) 0 (rows.map (rowSays d))) := by
  have regular := exported_regular listed
  have keptKey : key.name ∉ omittedFrom includeSecrets table.name := by
    rw [named]
    exact fun out => regular.keyed (List.mem_append_right _ (omittedFrom_within out))
  refine ⟨?_,?_,?_⟩
  · intro arrival arrives
    obtain ⟨row,inside,number,_,_,rfl⟩ := arrivals_mem arrives
    have parts := fun column member => said_parts (lot.held row inside column member)
    have ready : omittedFrom includeSecrets table.name ≠ [] → draws.Sane keys := by
      intro some_
      cases includeSecrets with
      | true => exact absurd rfl some_
      | false => exact sane rfl
    refine moved_saying listed (fun name => omittedFrom_within) ready (fun column member => (parts column member).1) ?_
    intro column member kept
    obtain ⟨of,_,cell⟩ := parts column member
    have taken := takes row inside column (kept_parts.mpr ⟨member,kept⟩)
    rw [cell,takes_cell of] at taken
    exact taken
  · refine (arrivals_pairwise (R := fun _ _ => True) lot.together ?_).mpr (List.pairwise_of_forall (fun _ _ => trivial))
    intro one inside two inside' number other _ _ _ together
    refine iff_of_true ?_ trivial
    rw [moved_cell listed (lot.held one inside) keyed keptKey neutral,moved_cell listed (lot.held two inside') keyed keptKey neutral,named]
    exact (together_parts.mp together).1
  · intro arrival arrives column waits null
    obtain ⟨row,inside,number,_,_,rfl⟩ := arrivals_mem arrives
    obtain ⟨_,alike,kept⟩ := regular.deferred column waits.1 waits.2
    have kept' : column.name ∉ omittedFrom includeSecrets table.name := fun out => kept (omittedFrom_within out)
    obtain ⟨foreign,member,target,names⟩ := deferred_foreign waits.2
    obtain ⟨targets,single,columns⟩ := regular.selves foreign member target
    rw [columns,List.mem_singleton] at names
    have cell : (draws.moved table (omittedFrom includeSecrets table.name) number (rowSays d row) column).cell d' column.kind =
        row column.name :=
      moved_cell listed (lot.held row inside) waits.1 kept' alike
    rcases lot.own row inside foreign member target with empty | other
    · obtain ⟨name,among,null'⟩ := empty
      rw [columns,List.mem_singleton] at among
      rw [among,← names] at null'
      rw [null'] at cell
      exact absurd (cell_null.mp cell) null
    · obtain ⟨other,inside',named'⟩ := other
      obtain ⟨position,_,_,arrives'⟩ := mem_arrivals draws d table (omittedFrom includeSecrets table.name) 0 inside'
      refine ⟨_,arrives',?_⟩
      rw [moved_cell listed (lot.held other inside') keyed keptKey neutral,cell,named,names]
      rw [names_parts,columns,targets] at named'
      exact (named' (single,"id") (by simp)).symm

end ChronosLedger.Portability
