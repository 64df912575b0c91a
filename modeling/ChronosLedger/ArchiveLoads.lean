import ChronosLedger.ArchiveRecords

namespace ChronosLedger.Portability
open JsonText

variable {d : Dialect} {draws : Draws} {table : Table} {omitted : List String} {db next after : Database} {count number : Nat}

@[simp] theorem put_rows {name : String} {rows : List Row} : (db.put name rows).rows name = rows := if_pos rfl

theorem put_other {name other : String} {rows : List Row} (apart : other ≠ name) : (db.put name rows).rows other = db.rows other :=
  if_neg apart

theorem put_put {name : String} {rows more : List Row} : (db.put name rows).put name more = db.put name more := by
  unfold Database.put
  congr 1
  funext other
  dsimp only
  split <;> rfl

theorem put_same {name : String} : db.put name (db.rows name) = db := by
  unfold Database.put
  congr 1
  funext other
  split
  · rename_i same
    rw [same]
  · rfl

-- The rows of a file, all read before any goes in.
def decodeLines (draws : Draws) (table : Table) (omitted : List String) : Nat → List (List Char) → Except Refusal (List (String → Value))
  | _,[] => .ok []
  | count,text :: rest => do
    let row ← decodeLine draws table omitted (count+1) text
    let rows ← decodeLines draws table omitted (count+1) rest
    .ok (row :: rows)

theorem insertBatch_exact {batch : List (String → Value)} :
    insertBatch d table batch number db = .ok after ↔ batch.foldlM (insertRow d table) db = some after := by
  unfold insertBatch
  cases batch.foldlM (insertRow d table) db <;> simp

-- They go in one after another, however they are batched.
theorem loadLines_exact {texts : List (List Char)} {values batch : List (String → Value)} {total : Nat}
    (decoded : decodeLines draws table omitted count texts = .ok values) :
    loadLines d draws table omitted count texts batch db = .ok (total,after) ↔
      (batch ++ values).foldlM (insertRow d table) db = some after ∧ total = count+texts.length := by
  induction texts generalizing count values batch db with
  | nil =>
    cases decoded
    rw [loadLines,List.append_nil]
    cases inserted : insertBatch d table batch count db with
    | error refusal =>
      refine iff_of_false (by cases ·) (fun both => ?_)
      rw [insertBatch_exact.mpr both.1] at inserted
      cases inserted
    | ok held =>
      rw [insertBatch_exact.mp inserted]
      simp [Except.map,eq_comm,and_comm]
  | cons text rest ih =>
    unfold decodeLines at decoded
    cases row : decodeLine draws table omitted (count+1) text with
    | error refusal =>
      rw [row] at decoded
      cases decoded
    | ok row_ =>
      rw [row] at decoded
      cases rows : decodeLines draws table omitted (count+1) rest with
      | error refusal =>
        rw [rows] at decoded
        cases decoded
      | ok rows_ =>
        rw [rows] at decoded
        cases decoded
        have length : count+(text :: rest).length = count+1+rest.length := by
          rw [List.length_cons]
          omega
        have joined : batch ++ row_ :: rows_ = (batch ++ [row_]) ++ rows_ := by simp
        rw [loadLines,row,length,joined]
        change (if batchSize ≤ batch.length+1 then _ else _) = _ ↔ _
        split
        · cases inserted : insertBatch d table (batch ++ [row_]) (count+1) db with
          | error refusal =>
            refine iff_of_false (by cases ·) (fun both => ?_)
            rw [List.foldlM_append] at both
            cases first : (batch ++ [row_]).foldlM (insertRow d table) db with
            | none =>
              rw [first] at both
              cases both.1
            | some held =>
              rw [insertBatch_exact.mpr first] at inserted
              cases inserted
          | ok held =>
            rw [List.foldlM_append,insertBatch_exact.mp inserted]
            exact ih rows
        · exact ih rows

theorem insertRow_parts {values : String → Value} : insertRow d table db values = some after ↔
    ∃ row, storedRow d table values = some row ∧ after = db.put table.name (db.rows table.name ++ [row]) ∧ table.sound row = true ∧
      (∀ other ∈ db.rows table.name, table.together d other row = true) ∧ ∀ key ∈ table.foreignKeys, key.holds after row = true := by
  unfold insertRow
  cases storedRow d table values with
  | none => simp
  | some row =>
    simp only [Option.bind_eq_bind,Option.bind_some,Option.some.injEq,exists_eq_left']
    split
    · rename_i all
      simp only [Bool.and_eq_true,List.all_eq_true] at all
      constructor
      · intro same
        cases same
        exact ⟨rfl,all.1.1,all.1.2,all.2⟩
      · intro parts
        rw [parts.1]
    · rename_i some_
      refine iff_of_false (by cases ·) (fun parts => some_ ?_)
      obtain ⟨rfl,sound,apart,keys⟩ := parts
      simp only [Bool.and_eq_true,List.all_eq_true]
      exact ⟨⟨sound,apart⟩,keys⟩

-- Sound rows whose keys hold go in just when no two of them clash.
theorem insertRows_exact {values : List (String → Value)} {rows : List Row}
    (stored : List.Forall₂ (fun values row => storedRow d table values = some row) values rows)
    (sound : ∀ row ∈ rows, table.sound row = true)
    (keys : ∀ row ∈ rows, ∀ key ∈ table.foreignKeys, ∀ later : Database, (∀ name, name ≠ table.name → later.rows name = db.rows name) →
      key.holds later row = true) :
    values.foldlM (insertRow d table) db = some after ↔ after = db.put table.name (db.rows table.name ++ rows) ∧
      rows.Pairwise (fun one two => table.together d one two = true) ∧
      ∀ one ∈ db.rows table.name, ∀ two ∈ rows, table.together d one two = true := by
  induction stored generalizing db with
  | nil =>
    rw [List.foldlM_nil,List.append_nil,put_same]
    constructor
    · intro same
      cases same
      exact ⟨rfl,.nil,fun _ _ _ member => by cases member⟩
    · intro both
      rw [both.1]
      rfl
  | @cons value row values rows first rest ih =>
    rw [List.foldlM_cons]
    have fits : ∀ key ∈ table.foreignKeys, key.holds (db.put table.name (db.rows table.name ++ [row])) row = true :=
      fun key member => keys row List.mem_cons_self key member _ (fun name other => put_other other)
    have later := @ih (db.put table.name (db.rows table.name ++ [row])) (fun other member => sound other (List.mem_cons_of_mem _ member))
      (fun other member key listed db' same => keys other (List.mem_cons_of_mem _ member) key listed db'
        (fun name apart => (same name apart).trans (put_other apart)))
    rw [put_rows,put_put,List.append_assoc,List.singleton_append] at later
    by_cases apart : ∀ other ∈ db.rows table.name, table.together d other row = true
    · have inserted : insertRow d table db value = some (db.put table.name (db.rows table.name ++ [row])) :=
        insertRow_parts.mpr ⟨row,first,rfl,sound row List.mem_cons_self,apart,fits⟩
      rw [inserted]
      refine later.trans (and_congr_right (fun _ => ?_))
      rw [List.pairwise_cons]
      constructor
      · intro both
        refine ⟨⟨fun two member => both.2 row (List.mem_append_right _ List.mem_cons_self) two member,both.1⟩,fun one before two
            member => ?_⟩
        rcases List.mem_cons.mp member with rfl | later_
        · exact apart one before
        · exact both.2 one (List.mem_append_left _ before) two later_
      · intro both
        refine ⟨both.1.2,fun one before two member => ?_⟩
        rcases List.mem_append.mp before with old | new
        · exact both.2 one old two (List.mem_cons_of_mem _ member)
        · rw [List.mem_singleton.mp new]
          exact both.1.1 two member
    · have refused : insertRow d table db value = none := by
        cases got : insertRow d table db value with
        | none => rfl
        | some held =>
          obtain ⟨row',same,_,_,apart',_⟩ := insertRow_parts.mp got
          rw [first] at same
          cases same
          exact absurd apart' apart
      rw [refused]
      refine iff_of_false (by cases ·) (fun all => apart (fun other before => all.2.2 other before row List.mem_cons_self))

-- What a table of one database can say.
def Table.Says (table : Table) (d : Dialect) (contents : Column → Content) : Prop :=
  ∀ column ∈ table.columns, (contents column).Of column ∧ Fits d column.kind (contents column) = true

theorem fits_null {kind : Kind} : Fits d kind .null = true := by cases d <;> cases kind <;> rfl

theorem blanked_saying {waiting : List String} {contents : Column → Content} (regular : table.Regular)
    (within : ∀ name ∈ waiting, name ∈ table.deferred) (says_ : table.Says d contents) : table.Says d (blanked waiting contents) := by
  intro column member
  unfold blanked
  split
  · rename_i waits
    exact ⟨(regular.deferred column member (within _ waits)).1,fits_null⟩
  · exact says_ column member

theorem storedRow_saying {values : String → Value} {contents : Column → Content} (says_ : table.Says d contents)
    (means : ∀ column ∈ table.columns, values column.name = (contents column).value column.kind) :
    storedRow d table values = some (table.saying d contents) := by
  have each : ∀ column ∈ table.columns, store d column.kind (values column.name) = some ((contents column).cell d column.kind) := by
    intro column member
    rw [means column member]
    exact store_value (says_ column member).1 (says_ column member).2
  unfold storedRow
  have none_ : table.columns.any (fun column => (store d column.kind (values column.name)).isNone) = false := by
    rw [List.any_eq_false]
    intro column member
    rw [each column member]
    simp
  rw [none_,if_neg (by simp)]
  unfold Table.saying
  congr 1
  apply dict_congr
  intro column member
  rw [each column member]
  rfl

-- What the rows of a file say after the import, from a line on.
def Draws.arrivals (draws : Draws) (table : Table) (omitted : List String) : Nat → List (Column → Content) → List (Column → Content)
  | _,[] => []
  | count,contents :: rest => draws.moved table omitted (count+1) contents :: draws.arrivals table omitted (count+1) rest

def Table.texts (table : Table) (omitted : List String) (all : List (Column → Content)) : List (List Char) :=
  all.map (fun contents => line (table.record omitted contents))

theorem decodeLines_texts (draws : Draws) (count : Nat) (listed : table ∈ exported)
    (within : ∀ name ∈ omitted, name ∈ omittedFrom false table.name)
    {all : List (Column → Content)} (of : ∀ contents ∈ all, ∀ column ∈ table.columns, (contents column).Of column) :
    ∃ values, decodeLines draws table omitted count (table.texts omitted all) = .ok values ∧
      List.Forall₂ (fun (values : String → Value) contents => ∀ column ∈ table.columns,
        values column.name = (blanked table.deferred contents column).value column.kind) values
            (draws.arrivals table omitted count all) := by
  induction all generalizing count with
  | nil => exact ⟨[],rfl,.nil⟩
  | cons contents all ih =>
    obtain ⟨row,decoded,means⟩ := decodeLine_record draws (count+1) listed within (of contents List.mem_cons_self)
    obtain ⟨rows,later,all_⟩ := ih (count+1) (fun other member => of other (List.mem_cons_of_mem _ member))
    refine ⟨row :: rows,?_,.cons means all_⟩
    unfold Table.texts at later ⊢
    rw [List.map_cons,decodeLines,decoded]
    change (decodeLines draws table omitted (count+1) _).bind _ = _
    rw [later]
    rfl

end ChronosLedger.Portability
