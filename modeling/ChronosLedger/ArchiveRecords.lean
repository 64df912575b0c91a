import ChronosLedger.ArchiveSchema

namespace ChronosLedger.Portability
open JsonText

section Dictionaries

variable {table : Table} {column : Column} {α : Type} {missing : α} {entry other : Column → α}

theorem column_listed (distinct : (table.columns.map Column.name).Nodup) (member : column ∈ table.columns) :
    table.column column.name = some column := by
  unfold Table.column
  cases found : table.columns.find? (fun held => held.name = column.name) with
  | none => exact absurd (decide_eq_true rfl) (List.find?_eq_none.mp found column member)
  | some held =>
    have same : held.name = column.name := of_decide_eq_true (List.find?_some (p := fun held : Column => held.name = column.name) found)
    rw [List.inj_on_of_nodup_map distinct (List.mem_of_find?_eq_some found) member same]

theorem dict_at (distinct : (table.columns.map Column.name).Nodup) (member : column ∈ table.columns) :
    table.dict missing entry column.name = entry column := by
  unfold Table.dict
  rw [column_listed distinct member]

theorem dict_congr (same : ∀ column ∈ table.columns, entry column = other column) :
    table.dict missing entry = table.dict missing other := by
  funext name
  unfold Table.dict Table.column
  cases found : table.columns.find? (fun held => held.name = name) with
  | none => rfl
  | some held => exact same held (List.mem_of_find?_eq_some found)

end Dictionaries

variable {table : Table} {d d' : Dialect} {row : Row} {column : Column} {cell : Cell} {contents : Column → Content} {omitted : List String}
  {draws : Draws} {number : Nat}

theorem mapM_all {α β : Type} {f : α → Option β} {g : α → β} {items : List α} (each : ∀ item ∈ items, f item = some (g item)) :
    items.mapM f = some (items.map g) := by
  induction items with
  | nil => rfl
  | cons item items ih =>
    rw [List.mapM_cons,each item List.mem_cons_self,ih (fun other member => each other (List.mem_cons_of_mem _ member))]
    rfl

-- What a cell of a column says.
open Classical in
noncomputable def said (d : Dialect) (column : Column) (cell : Cell) : Content :=
  if held : Holds d column cell then (holds_content held).choose else .null

theorem said_parts (held : Holds d column cell) : (said d column cell).Of column ∧ Fits d column.kind (said d column cell) = true ∧
    cell = (said d column cell).cell d column.kind := by
  unfold said
  rw [dif_pos held]
  exact (holds_content held).choose_spec

-- A row that says these.
def Table.saying (table : Table) (d : Dialect) (contents : Column → Content) : Row :=
  table.dict .null (fun column => (contents column).cell d column.kind)

theorem saying_at (distinct : (table.columns.map Column.name).Nodup) (member : column ∈ table.columns) :
    table.saying d contents column.name = (contents column).cell d column.kind := dict_at distinct member

-- What every row of an archive has for its columns.
def Table.record (table : Table) (omitted : List String) (contents : Column → Content) : List (String × Scalar) :=
  (sortedKeys (table.kept omitted)).map (fun column => (column.name,(contents column).form column.kind))

theorem kept_parts : column ∈ table.kept omitted ↔ column ∈ table.columns ∧ column.name ∉ omitted := by
  unfold Table.kept
  rw [List.mem_filter,decide_eq_true_eq]

theorem sortedKeys_perm (columns : List Column) : (sortedKeys columns).Perm columns := List.perm_insertionSort _ _

theorem sortedKeys_kept : column ∈ sortedKeys (table.kept omitted) ↔ column ∈ table.columns ∧ column.name ∉ omitted :=
  (sortedKeys_perm _).mem_iff.trans kept_parts

theorem recordOf_contents (sound : ∀ column ∈ table.columns, column.Sound) (of : ∀ column ∈ table.columns, (contents column).Of column)
    (written_ : ∀ column ∈ table.kept omitted, row column.name = (contents column).cell d column.kind) :
    recordOf d (table.kept omitted) row = some (table.record omitted contents) := by
  unfold recordOf Table.record
  apply mapM_all
  intro column member
  obtain ⟨listed,kept⟩ := sortedKeys_kept.mp member
  rw [written_ column (kept_parts.mpr ⟨listed,kept⟩),written_form (sound column listed) (of column listed)]
  rfl

theorem record_names : (table.record omitted contents).map Prod.fst = (sortedKeys (table.kept omitted)).map Column.name := by
  unfold Table.record
  rw [List.map_map]
  rfl

theorem record_found {name : String} : name ∈ (table.record omitted contents).map Prod.fst ↔
    name ∈ (table.kept omitted).map Column.name := by
  rw [record_names]
  exact ((sortedKeys_perm _).map _).mem_iff

-- Every entry of a record reads back as the form it has.
theorem entryOf_forms (distinct : (table.columns.map Column.name).Nodup) (member : column ∈ table.columns) (kept : column.name ∉ omitted)
    (forms : Column → Scalar) :
    entryOf (((sortedKeys (table.kept omitted)).map (fun column => (column.name,forms column))).map parsed) column.name =
        .scalar (forms column) := by
  unfold entryOf
  have there : (column.name,Json.scalar (forms column)) ∈
      (((sortedKeys (table.kept omitted)).map (fun column => (column.name,forms column))).map parsed).reverse := by
    rw [List.mem_reverse]
    exact List.mem_map.mpr ⟨_,List.mem_map.mpr ⟨column,sortedKeys_kept.mpr ⟨member,kept⟩,rfl⟩,rfl⟩
  cases found : ((((sortedKeys (table.kept omitted)).map (fun column => (column.name,forms column))).map parsed).reverse).find?
      (fun entry => entry.1 = column.name) with
  | none => exact absurd (decide_eq_true rfl) (List.find?_eq_none.mp found _ there)
  | some entry =>
    have same : entry.1 = column.name := by simpa using List.find?_some found
    obtain ⟨written_,listed,rfl⟩ := List.mem_map.mp (List.mem_reverse.mp (List.mem_of_find?_eq_some found))
    obtain ⟨other,held,rfl⟩ := List.mem_map.mp listed
    have one := List.inj_on_of_nodup_map distinct (sortedKeys_kept.mp held).1 member same
    subst one
    rfl

theorem entryOf_record (distinct : (table.columns.map Column.name).Nodup) (member : column ∈ table.columns) (kept : column.name ∉ omitted) :
    entryOf ((table.record omitted contents).map parsed) column.name = .scalar ((contents column).form column.kind) :=
  entryOf_forms distinct member kept (fun column => (contents column).form column.kind)

theorem newline_blank : skipBlanks [newline] = [] := by decide

theorem readRecord_line (record : List (String × Scalar)) : readRecord (line record) = some (record.map parsed) := by
  unfold readRecord line
  rw [loads_compact record newline_blank]

theorem lines_records (records : List (List (String × Scalar))) : lines ((records.map line).flatten) = records.map line := by
  have all : lines ((records.map compact).map (fun body => body ++ [newline])).flatten =
      (records.map compact).map (fun body => body ++ [newline]) := by
    apply lines_flatten
    intro body member c inside
    obtain ⟨record,_,rfl⟩ := List.mem_map.mp member
    exact compact_oneLine inside
  rw [List.map_map] at all
  exact all

-- What a secret left out becomes.
def redactedContent (draws : Draws) (number : Nat) (table column : String) : Content :=
  if table = "users" ∧ column = "credential_secure_hash" then .text draws.absentAccountHash
  else if table = "api_keys" ∧ column = "key_hash" then .text (draws.keyHash number)
  else if table = "webhook_subscriptions" ∧ column = "secret" then .text (draws.secret number)
  else .null

theorem redactedContent_value (kind : Kind) (table column : String) :
    (redactedContent draws number table column).value kind = redactedValue draws number table column := by
  unfold redactedContent redactedValue
  split_ifs <;> rfl

-- What a row says after its import.
def Draws.moved (draws : Draws) (table : Table) (omitted : List String) (number : Nat) (contents : Column → Content)
    (column : Column) : Content :=
  if column.name ∈ omitted then redactedContent draws number table.name column.name
  else if omitted ≠ [] ∧ table.name = "webhook_subscriptions" ∧ column.name = "paused_at" then
    if contents column = .null then .moment (draws.now number) else contents column
  else if omitted ≠ [] ∧ table.name = "webhook_subscriptions" ∧ column.name = "previous_secret_expires_at" then .null
  else contents column

-- What it says while some columns wait.
def blanked (waiting : List String) (contents : Column → Content) (column : Column) : Content :=
  if column.name ∈ waiting then .null else contents column

theorem value_none {kind : Kind} {content : Content} : content.value kind = .none ↔ content = .null := by
  cases content <;> simp [Content.value]

theorem exported_pausing : ∀ table ∈ exported, table.name = "webhook_subscriptions" → table.deferred = [] := by decide

def entering (draws : Draws) (table : Table) (omitted : List String) (number : Nat) (contents : Column → Content)
    (column : Column) : Content :=
  if column.name ∈ omitted then redactedContent draws number table.name column.name
  else if column.name ∈ table.deferred then .null
  else contents column

theorem valueOf_record (regular : table.Regular) (member : column ∈ table.columns) (of : (contents column).Of column) :
    valueOf draws table omitted number ((table.record omitted contents).map parsed) column =
      .ok ((entering draws table omitted number contents column).value column.kind) := by
  unfold valueOf entering
  split_ifs with out waits
  · rw [redactedContent_value]
  · rfl
  · rw [entryOf_record regular.names member out,decode_form of]

-- The values a line gives, before a webhook is paused.
def entered (draws : Draws) (table : Table) (omitted : List String) (number : Nat) (contents : Column → Content) : String → Value :=
  table.dict .none (fun column => (entering draws table omitted number contents column).value column.kind)

theorem decodeLine_entered (draws : Draws) (number : Nat) (listed : table ∈ exported) (of : ∀ column ∈ table.columns, (contents column).Of column) :
    decodeLine draws table omitted number (line (table.record omitted contents)) =
      .ok (pausing draws table omitted number (entered draws table omitted number contents)) := by
  have each : ∀ column ∈ table.columns, valueOf draws table omitted number ((table.record omitted contents).map parsed) column =
      .ok ((entering draws table omitted number contents column).value column.kind) :=
    fun column member => valueOf_record (exported_regular listed) member (of column member)
  unfold decodeLine
  rw [readRecord_line]
  have names : ((table.record omitted contents).map parsed).map (fun entry => entry.1) =
      (table.record omitted contents).map Prod.fst := by
    rw [List.map_map]
    rfl
  dsimp only
  rw [names,if_pos ⟨fun name => record_found.mp,fun name => record_found.mpr⟩]
  have quiet : table.columns.findSome? (fun column =>
      (failing (valueOf draws table omitted number ((table.record omitted contents).map parsed) column)).map
          (fun problem => (column.name,problem))) =
      none := by
    rw [List.findSome?_eq_none_iff]
    intro column member
    rw [each column member]
    rfl
  rw [quiet]
  have same : table.dict Value.none (fun column => held .none
      (valueOf draws table omitted number ((table.record omitted contents).map parsed) column)) =
      entered draws table omitted number contents := by
    apply dict_congr
    intro column member
    rw [each column member]
    rfl
  dsimp only
  rw [same]

theorem pausing_moved (draws : Draws) (number : Nat) (listed : table ∈ exported) (within : ∀ name ∈ omitted, name ∈ omittedFrom false table.name)
    (member : column ∈ table.columns) : pausing draws table omitted number (entered draws table omitted number contents) column.name =
      (blanked table.deferred (draws.moved table omitted number contents) column).value column.kind := by
  have value : entered draws table omitted number contents column.name = (entering draws table omitted number contents column).value column.kind :=
    dict_at (exported_regular listed).names member
  unfold pausing
  by_cases both : omitted ≠ [] ∧ table.name = "webhook_subscriptions"
  · rw [if_pos both]
    have wait : column.name ∉ table.deferred := by
      rw [exported_pausing table listed both.2]
      exact List.not_mem_nil
    have open_ : ∀ name ∈ omitted, name = "secret" ∨ name = "previous_secret" := by
      intro name out
      have left := within name out
      rw [both.2] at left
      simpa [omittedFrom,omittedColumns,secretColumns,List.lookup_cons] using left
    unfold blanked Draws.moved
    rw [if_neg wait]
    by_cases paused : column.name = "paused_at"
    · have kept : column.name ∉ omitted := by
        intro out
        rcases open_ _ out with same | same <;> exact absurd (paused.symm.trans same) (by decide)
      have own : (entering draws table omitted number contents column) = contents column := by
        unfold entering
        rw [if_neg kept,if_neg wait]
      have stops : omitted ≠ [] ∧ table.name = "webhook_subscriptions" ∧ column.name = "paused_at" := ⟨both.1,both.2,paused⟩
      rw [own] at value
      rw [if_neg kept,if_pos stops,if_pos paused,← paused,value]
      by_cases null : contents column = .null
      · rw [if_pos null,if_pos (value_none.mpr null)]
        rfl
      · rw [if_neg null,if_neg (fun none_ => null (value_none.mp none_))]
    · have runs : ¬(omitted ≠ [] ∧ table.name = "webhook_subscriptions" ∧ column.name = "paused_at") := fun all => paused all.2.2
      rw [if_neg runs,if_neg paused]
      by_cases expires : column.name = "previous_secret_expires_at"
      · have kept : column.name ∉ omitted := by
          intro out
          rcases open_ _ out with same | same <;> exact absurd (expires.symm.trans same) (by decide)
        have ends : omitted ≠ [] ∧ table.name = "webhook_subscriptions" ∧ column.name = "previous_secret_expires_at" :=
          ⟨both.1,both.2,expires⟩
        rw [if_neg kept,if_pos ends,if_pos expires]
        rfl
      · have lasts : ¬(omitted ≠ [] ∧ table.name = "webhook_subscriptions" ∧ column.name = "previous_secret_expires_at") :=
          fun all => expires all.2.2
        rw [if_neg lasts,if_neg expires,value]
        unfold entering
        rw [if_neg wait]
  · rw [if_neg both,value]
    unfold entering blanked Draws.moved
    by_cases wait : column.name ∈ table.deferred
    · have kept : column.name ∉ omitted := fun out => ((exported_regular listed).deferred column member wait).2.2 (within _ out)
      rw [if_neg kept,if_pos wait,if_pos wait]
    · have calm : ∀ name, ¬(omitted ≠ [] ∧ table.name = "webhook_subscriptions" ∧ column.name = name) := fun _ all => both ⟨all.1,all.2.1⟩
      rw [if_neg wait,if_neg wait,if_neg (calm _),if_neg (calm _)]

-- A line of an archive is taken as what it says.
theorem decodeLine_record (draws : Draws) (number : Nat) (listed : table ∈ exported)
    (within : ∀ name ∈ omitted, name ∈ omittedFrom false table.name)
    (of : ∀ column ∈ table.columns, (contents column).Of column) :
    ∃ values, decodeLine draws table omitted number (line (table.record omitted contents)) = .ok values ∧
      ∀ column ∈ table.columns,
        values column.name = (blanked table.deferred (draws.moved table omitted number contents) column).value column.kind :=
  ⟨_,decodeLine_entered draws number listed of,fun _ member => pausing_moved draws number listed within member⟩

end ChronosLedger.Portability
