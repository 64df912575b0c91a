import ChronosLedger.Archive
import ChronosLedger.ArchiveContents

namespace ChronosLedger.Portability

-- The kinds both databases store alike.
def Kind.neutral : Kind → Bool
  | .boolean => false
  | .dateTime => false
  | .numeric _ _ => false
  | _ => true

def Table.reads (table : Table) (names : List String) : Bool :=
  names.all (fun name => table.columns.any (fun column => column.name = name && column.kind.neutral))

-- Columns an import does not take over from the archive at first.
def Table.aside (table : Table) : List String := table.deferred ++ omittedFrom false table.name

-- What the schema promises of its own tables.
structure Table.Regular (table : Table) : Prop where
  names : (table.columns.map Column.name).Nodup
  key : table.reads ["id"] = true
  keyed : "id" ∉ table.aside
  uniques : ∀ names ∈ table.uniques, table.reads names = true ∧ ∀ name ∈ names, name ∉ table.deferred
  refers : ∀ key ∈ table.foreignKeys, table.reads key.columns = true ∧ ∀ name ∈ key.columns, name ∉ omittedFrom false table.name
  own : ∀ key ∈ table.foreignKeys, (∃ name ∈ key.columns, name ∈ table.deferred) ↔ key.target = table.name
  selves : ∀ key ∈ table.foreignKeys, key.target = table.name → key.targetColumns = ["id"] ∧ ∃ name, key.columns = [name]
  deferred : ∀ column ∈ table.columns, column.name ∈ table.deferred →
    column.nullable = true ∧ column.kind.neutral = true ∧ column.name ∉ omittedFrom false table.name
  sound : ∀ column ∈ table.columns, column.Sound

variable {table : Table} {d d' : Dialect} {one two one' two' row row' : Row} {db next : Database} {column : Column} {names leaving :
    List String}

theorem exported_names : (exported.map Table.name).Nodup := by decide

theorem exported_columns : ∀ table ∈ exported, (table.columns.map Column.name).Nodup ∧ table.reads ["id"] = true ∧ "id" ∉ table.aside := by
  decide

theorem exported_uniques : ∀ table ∈ exported, ∀ names ∈ table.uniques, table.reads names = true ∧
    ∀ name ∈ names, name ∉ table.deferred := by
  decide

theorem exported_refers : ∀ table ∈ exported, ∀ key ∈ table.foreignKeys,
    table.reads key.columns = true ∧ ∀ name ∈ key.columns, name ∉ omittedFrom false table.name := by
  decide

theorem exported_own : ∀ table ∈ exported, ∀ key ∈ table.foreignKeys,
    ((∃ name ∈ key.columns, name ∈ table.deferred) ↔ key.target = table.name) ∧
      (key.target = table.name → key.targetColumns = ["id"] ∧ ∃ name ∈ key.columns, key.columns = [name]) := by
  decide

theorem exported_deferred : ∀ table ∈ exported, ∀ column ∈ table.columns, column.name ∈ table.deferred →
    column.nullable = true ∧ column.kind.neutral = true ∧ column.name ∉ omittedFrom false table.name := by
  decide

def Kind.precise : Kind → Bool
  | .numeric precision _ => precision ≤ 15
  | _ => true

theorem exported_precise : ∀ table ∈ exported, ∀ column ∈ table.columns, column.kind.precise = true := by decide

theorem exported_regular (listed : table ∈ exported) : table.Regular where
  names := (exported_columns table listed).1
  key := (exported_columns table listed).2.1
  keyed := (exported_columns table listed).2.2
  uniques := exported_uniques table listed
  refers := exported_refers table listed
  own := fun key member => (exported_own table listed key member).1
  selves := fun key member own => by
    obtain ⟨columns,name,_,same⟩ := (exported_own table listed key member).2 own
    exact ⟨columns,name,same⟩
  deferred := exported_deferred table listed
  sound := by
    intro column member precision scale kind
    have precise := exported_precise table listed column member
    rw [kind] at precise
    exact of_decide_eq_true precise

-- Two rows that say the same in the columns that are stored alike, those left
-- out apart.
def Table.Alike (table : Table) (leaving : List String) (one two : Row) : Prop :=
  ∀ column ∈ table.columns, column.name ∉ leaving → column.kind.neutral = true → one column.name = two column.name

theorem Table.Alike.symm (alike : table.Alike leaving one two) : table.Alike leaving two one :=
  fun column member kept neutral => (alike column member kept neutral).symm

theorem Table.Alike.weaken {more : List String} (alike : table.Alike leaving one two) (within : ∀ name ∈ leaving, name ∈ more) :
    table.Alike more one two :=
  fun column member kept => alike column member (fun left => kept (within _ left))

theorem reads_parts (reads : table.reads names = true) {name : String} (listed : name ∈ names) :
    ∃ column ∈ table.columns, column.name = name ∧ column.kind.neutral = true := by
  obtain ⟨column,member,both⟩ := List.any_eq_true.mp (List.all_eq_true.mp reads name listed)
  obtain ⟨same,neutral⟩ := Bool.and_eq_true_iff.mp both
  exact ⟨column,member,of_decide_eq_true same,neutral⟩

theorem Table.Alike.same (alike : table.Alike leaving one two) (reads : table.reads names = true) {name : String} (listed : name ∈ names)
    (kept : name ∉ leaving) : one name = two name := by
  obtain ⟨column,member,rfl,neutral⟩ := reads_parts reads listed
  exact alike column member kept neutral

theorem differ_parts : differ names one two = true ↔ ∃ name ∈ names, one name = .null ∨ two name = .null ∨ one name ≠ two name := by
  unfold differ
  simp only [List.any_eq_true,Bool.or_eq_true,decide_eq_true_eq]
  exact exists_congr (fun name => and_congr_right (fun _ => or_assoc))

theorem differ_alike (left : table.Alike leaving one one') (right : table.Alike leaving two two') (reads : table.reads names = true)
    (kept : ∀ name ∈ names, name ∉ leaving) (apart : differ names one two = true) : differ names one' two' = true := by
  obtain ⟨name,listed,differs⟩ := differ_parts.mp apart
  rw [left.same reads listed (kept name listed),right.same reads listed (kept name listed)] at differs
  exact differ_parts.mpr ⟨name,listed,differs⟩

theorem Table.Alike.value (alike : table.Alike leaving one two) (name : String) (reads : table.reads [name] = true ∧ name ∉ leaving) :
    one name = two name := alike.same reads.1 (List.mem_singleton_self name) reads.2

theorem exported_checked (listed : table ∈ exported) :
    table.checks = [] ∨ table = federatedRoleMap ∨ table = resources ∨ table = reservations ∨ table = resourceRequirements := by
  simp only [exported,List.mem_cons,List.not_mem_nil,or_false] at listed
  rcases listed with rfl | rfl | rfl | rfl | rfl | rfl | rfl | rfl | rfl | rfl | rfl | rfl | rfl | rfl | rfl | rfl | rfl | rfl |
      rfl | rfl | rfl |
    rfl | rfl
  all_goals first
    | exact .inl rfl
    | exact .inr (.inl rfl)
    | exact .inr (.inr (.inl rfl))
    | exact .inr (.inr (.inr (.inl rfl)))
    | exact .inr (.inr (.inr (.inr rfl)))

theorem exported_apart (listed : table ∈ exported) :
    table.apart = noneApart ∨ table = users ∨ table = reservations ∨ table = dailyLedger := by
  simp only [exported,List.mem_cons,List.not_mem_nil,or_false] at listed
  rcases listed with rfl | rfl | rfl | rfl | rfl | rfl | rfl | rfl | rfl | rfl | rfl | rfl | rfl | rfl | rfl | rfl | rfl | rfl |
      rfl | rfl | rfl |
    rfl | rfl
  all_goals first
    | exact .inl rfl
    | exact .inr (.inl rfl)
    | exact .inr (.inr (.inl rfl))
    | exact .inr (.inr (.inr rfl))

-- No check is about a column set aside.
theorem checks_alike (listed : table ∈ exported) {check : Row → Bool} (member : check ∈ table.checks)
    (alike : table.Alike table.aside one two) :
    check one = check two := by
  rcases exported_checked listed with none_ | rfl | rfl | rfl | rfl
  · rw [none_] at member
    cases member
  all_goals simp only [federatedRoleMap,resources,reservations,resourceRequirements,List.mem_cons,List.not_mem_nil,or_false] at member
  · subst member
    dsimp only
    rw [alike.value "role_type" (by decide)]
  · subst member
    dsimp only
    rw [alike.value "mode" (by decide),alike.value "capacity" (by decide)]
  · rcases member with rfl | rfl
    · dsimp only
      rw [alike.value "time_window_start" (by decide),alike.value "time_window_end" (by decide)]
    · dsimp only
      rw [alike.value "quantity" (by decide)]
  · rcases member with rfl | rfl | rfl
    · dsimp only
      rw [alike.value "target_resource_id" (by decide),alike.value "target_kind" (by decide)]
    · dsimp only
      rw [alike.value "quantity" (by decide)]
    · dsimp only
      rw [alike.value "before_minutes" (by decide),alike.value "after_minutes" (by decide)]

theorem noOverlap_alike {dateColumn : String} {concerns : Row → Bool}
    (left : ∀ name ∈ [dateColumn,"time_window_start","time_window_end","resource_id"], one name = one' name)
    (right : ∀ name ∈ [dateColumn,"time_window_start","time_window_end","resource_id"], two name = two' name)
    (about : concerns one = concerns one') (about' : concerns two = concerns two') :
    noOverlap dateColumn concerns d one two = noOverlap dateColumn concerns d one' two' := by
  simp only [List.mem_cons,List.not_mem_nil,or_false,forall_eq_or_imp,forall_eq] at left right
  unfold noOverlap
  rw [left.1,left.2.1,left.2.2.1,left.2.2.2,right.1,right.2.1,right.2.2.1,right.2.2.2,about,about']

-- Nor is a constraint on two rows.
theorem apart_alike (listed : table ∈ exported) (left : table.Alike table.aside one one') (right : table.Alike table.aside two two') :
    table.apart d one two = table.apart d one' two' := by
  rcases exported_apart listed with none_ | rfl | rfl | rfl
  · rw [none_]
    rfl
  · unfold users
    dsimp only
    rw [left.value "email_address" (by decide),right.value "email_address" (by decide)]
  · have read : reservations.reads ["reserved_date","time_window_start","time_window_end","resource_id"] = true := by decide
    have kept : ∀ name ∈ ["reserved_date","time_window_start","time_window_end","resource_id"], name ∉ reservations.aside :=
      by decide
    have these := fun name member => left.same read member (kept name member)
    have those := fun name member => right.same read member (kept name member)
    unfold reservations
    dsimp only
    refine noOverlap_alike these those ?_ ?_
    · rw [left.value "status" (by decide),left.value "mode" (by decide)]
    · rw [right.value "status" (by decide),right.value "mode" (by decide)]
  · have read : dailyLedger.reads ["target_date","time_window_start","time_window_end","resource_id"] = true := by decide
    have kept : ∀ name ∈ ["target_date","time_window_start","time_window_end","resource_id"], name ∉ dailyLedger.aside := by decide
    have these := fun name member => left.same read member (kept name member)
    have those := fun name member => right.same read member (kept name member)
    unfold dailyLedger
    dsimp only
    refine noOverlap_alike these those ?_ ?_
    · rw [left.value "resource_id" (by decide)]
    · rw [right.value "resource_id" (by decide)]

theorem differ_symm : differ names one two = true → differ names two one = true := by
  intro apart
  obtain ⟨name,listed,differs⟩ := differ_parts.mp apart
  refine differ_parts.mpr ⟨name,listed,?_⟩
  rcases differs with null | null | unequal
  · exact .inr (.inl null)
  · exact .inl null
  · exact .inr (.inr (Ne.symm unequal))

theorem noOverlap_symm (dateColumn : String) {concerns : Row → Bool} :
    noOverlap dateColumn concerns d one two = noOverlap dateColumn concerns d two one := by
  cases d with
  | sqlite => rfl
  | postgresql zone lower =>
    simp only [noOverlap]
    cases windowOf (one dateColumn) (one "time_window_start") (one "time_window_end") with
    | none => cases windowOf (two dateColumn) (two "time_window_start") (two "time_window_end") <;> rfl
    | some a =>
      cases windowOf (two dateColumn) (two "time_window_start") (two "time_window_end") with
      | none => rfl
      | some b =>
        dsimp only
        rw [Bool.and_comm (concerns one),decide_eq_decide.mpr (and_congr eq_comm and_comm)]

theorem apart_symm (listed : table ∈ exported) : table.apart d one two = table.apart d two one := by
  rcases exported_apart listed with none_ | rfl | rfl | rfl
  · rw [none_]
    rfl
  · exact decide_eq_decide.mpr ne_comm
  · unfold reservations
    dsimp only
    exact noOverlap_symm "reserved_date"
  · unfold dailyLedger
    dsimp only
    exact noOverlap_symm "target_date"

theorem together_parts : table.together d one two = true ↔
    one "id" ≠ two "id" ∧ (∀ names ∈ table.uniques, differ names one two = true) ∧ table.apart d one two = true := by
  unfold Table.together
  rw [Bool.and_eq_true,Bool.and_eq_true,decide_eq_true_eq,List.all_eq_true,and_assoc]

theorem together_symm (listed : table ∈ exported) (together : table.together d one two = true) : table.together d two one = true := by
  obtain ⟨different,uniques,apart⟩ := together_parts.mp together
  refine together_parts.mpr ⟨Ne.symm different,fun names member => differ_symm (uniques names member),?_⟩
  rw [apart_symm listed]
  exact apart

theorem sound_parts : table.sound row = true ↔
    (∀ column ∈ table.columns, column.nullable = true ∨ row column.name ≠ .null) ∧ ∀ check ∈ table.checks, check row = true := by
  unfold Table.sound
  simp [List.all_eq_true]

theorem holds_parts {key : ForeignKey} : key.holds db row = true ↔
    (∃ name ∈ key.columns, row name = .null) ∨ ∃ other ∈ db.rows key.target, key.names row other = true := by
  unfold ForeignKey.holds
  simp [List.any_eq_true]

theorem names_parts {key : ForeignKey} : key.names row one = true ↔
    ∀ pair ∈ key.columns.zip key.targetColumns, row pair.1 = one pair.2 := by
  unfold ForeignKey.names
  simp [List.all_eq_true]

end ChronosLedger.Portability
