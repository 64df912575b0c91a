import ChronosLedger.ArchiveRoundTrip

namespace ChronosLedger.Portability
open JsonText

-- What Python can have of a column.
def Value.Of (column : Column) : Value → Prop
  | .none => column.nullable = true
  | .member name => ∃ members, column.kind = .enumeration members ∧ name ∈ members
  | .bool _ => column.kind = .boolean
  | .int _ => column.kind = .integer ∨ column.kind = .bigInteger
  | .text _ => column.kind = .text ∨ ∃ length, column.kind = .string length
  | .date day => column.kind = .date ∧ 1 ≤ day ∧ day ≤ maxOrdinal
  | .time _ => column.kind = .time
  | .naive _ => column.kind = .dateTime
  | .aware _ _ => column.kind = .dateTime
  | .decimal _ => ∃ precision scale, column.kind = .numeric precision scale

variable {d d' : Dialect} {draws : Draws} {password : Option String} {column : Column} {cell : Cell} {db start :
    Database} {archive : Archive}

theorem moment_again (kind : column.kind = .dateTime) {at_ : Int} {form : Scalar} (written_ : isoUtc at_ = some form) :
    ∃ back, decode column (.scalar form) = .ok back ∧ encode column.kind back = some form := by
  unfold isoUtc at written_
  split at written_
  · rename_i range
    cases written_
    have of : (Content.moment at_).Of column := ⟨kind,range⟩
    have read := decode_form of
    have again := encode_value of
    exact ⟨_,read,again⟩
  · cases written_

-- What is written of a value is read as one of which the same is written.
theorem written_again {value : Value} {form : Scalar} (of : value.Of column) (written_ : encode column.kind value = some form) :
    ∃ back, decode column (.scalar form) = .ok back ∧ encode column.kind back = some form := by
  cases value with
  | none =>
    cases written_
    exact ⟨.none,if_pos of,rfl⟩
  | member name =>
    cases written_
    have held : decode column (.scalar (.str name)) = .ok (.member name) := by
      obtain ⟨members,kind,member⟩ := of
      obtain ⟨_,_,_⟩ := column
      cases kind
      exact if_pos member
    exact ⟨_,held,rfl⟩
  | bool b =>
    cases written_
    obtain ⟨_,_,_⟩ := column
    cases of
    exact ⟨.bool b,rfl,rfl⟩
  | int n =>
    cases written_
    obtain ⟨_,_,_⟩ := column
    rcases of with kind | kind
    · cases kind
      exact ⟨.int n,rfl,rfl⟩
    · cases kind
      exact ⟨.int n,rfl,rfl⟩
  | text s =>
    cases written_
    obtain ⟨_,_,_⟩ := column
    rcases of with kind | ⟨length,kind⟩
    · cases kind
      exact ⟨.text s,rfl,rfl⟩
    · cases kind
      exact ⟨.text s,rfl,rfl⟩
  | date day =>
    cases written_
    have of' : (Content.date day).Of column := of
    exact ⟨_,decode_form of',encode_value of'⟩
  | time at_ =>
    cases written_
    have of' : (Content.time at_).Of column := of
    exact ⟨_,decode_form of',encode_value of'⟩
  | naive wall => exact moment_again of written_
  | aware wall offset => exact moment_again of written_
  | decimal amount =>
    obtain ⟨name,kind,nullable⟩ := column
    obtain ⟨precision,scale,same⟩ := of
    cases same
    cases written_
    have low : (Decimals.quantize amount scale).exponent ≤ 0 := by
      change -(scale : Int) ≤ 0
      omega
    refine ⟨.decimal (Decimals.quantize amount scale),?_,?_⟩
    · refine (decode_numeric name nullable precision scale _).trans ?_
      rw [String.toList_ofList]
      exact congrArg (fun amount => reads amount Value.decimal) (Decimals.read_text low)
    · have still : Decimals.quantize (Decimals.quantize amount scale) scale = Decimals.quantize amount scale :=
        Decimals.quantize_scaled _ _ _
      change some (Scalar.str (String.ofList (Decimals.text (Decimals.quantize (Decimals.quantize amount scale) scale)))) = _
      rw [still]

-- A value of one database has its written form in the other.
theorem cell_travels (sound : column.Sound) (held : Holds d column cell) (takes : Takes d' column.kind cell = true) :
    ∃ form value cell', written d column cell = some form ∧ decode column (.scalar form) = .ok value ∧
      store d' column.kind value = some cell' ∧ written d' column cell' = some form := by
  obtain ⟨content,of,_,rfl⟩ := holds_content held
  rw [takes_cell of] at takes
  exact ⟨_,_,_,written_form sound of,decode_form of,store_value of takes,written_form sound of⟩

-- An import that raises leaves the database as it was.
theorem import_rolls_back {refusal : Refusal} (raised : (importArchive d draws password archive start).2 = .error refusal) :
    (importArchive d draws password archive start).1 = start := by
  unfold importArchive transaction at *
  cases manifested : readManifest archive with
  | error problem => rfl
  | ok manifest =>
    rw [manifested] at raised
    cases body : importBody d draws password archive start with
    | error problem => rfl
    | ok after =>
      rw [body] at raised
      cases raised

-- A database of its own kind can hold any state.
theorem portable_alike (formed : WellFormed d db) (includeSecrets : Bool) : Portable d includeSecrets db where
  takes := by
    intro table listed row inside column kept
    obtain ⟨of,fits,cell⟩ := said_parts (formed.holds table listed row inside column (kept_parts.mp kept).1)
    rw [cell,takes_cell of]
    exact fits
  apart := fun table listed => (formed.together table listed).imp (fun together => (together_parts.mp together).2.2)

theorem own_kind_trips (formed : WellFormed d db) (vacant : Vacant start) : RoundTrips d d draws password db start :=
  (roundTrips_exact formed vacant).mpr (portable_alike formed true)

-- Every reference of a row to one of its own table is as it was.
def Restored (db after : Database) : Prop := ∀ table ∈ exported,
  List.Forall₂ (fun row row' : Row => ∀ name ∈ table.deferred, row' name = row name) (ordered db table) (after.rows table.name)

theorem landed_restored (formed : WellFormed d db) : Restored db (landed draws d d' true db start) := by
  intro table listed
  have none_ : omittedFrom true table.name = [] := rfl
  rw [landed_rows listed]
  unfold arrived arrivalsOf
  rw [none_,arrivals_all,List.map_map,List.forall₂_map_right_iff,List.forall₂_same]
  intro row inside name waits
  obtain ⟨foreign,member,_,among⟩ := deferred_foreign waits
  obtain ⟨column,listed',rfl,neutral⟩ := reads_parts ((exported_regular listed).refers foreign member).1 among
  obtain ⟨of,_,cell⟩ := said_parts (formed.holds table listed row (ordered_mem.mp inside) column listed')
  refine (saying_at (exported_columns table listed).1 listed').trans ?_
  rw [neutral_cell d' d (show (rowSays d row column).Of column from of) neutral]
  exact cell.symm

-- The imported database has every row's references.
theorem import_restored (formed : WellFormed d db) (vacant : Vacant start) (portable : Portable d' true db) :
    ∃ archive after, exportArchive d true none db = some archive ∧
      importArchive d' draws password archive start = (after,.ok archive.manifest) ∧ Restored db after := by
  have landed_ : loadTables d' draws (archiveFor d true db) start = .ok (landed draws d d' true db start) :=
    (loadTables_exact formed vacant (fun same => by cases same) portable.takes).mpr ⟨portable.apart,rfl⟩
  exact ⟨_,_,exportArchive_formed true formed,(import_exact vacant).mpr ⟨_,landed_,rfl⟩,landed_restored formed⟩

def acme : Row := fun column =>
  match column with
  | "id" => .text "acme"
  | "name" => .text "Acme"
  | "created_at" => .wall 63900000000000000
  | "default_requirement_enforcement" => .text "REQUIRED"
  | _ => .null

-- Somebody who reports to themselves.
def person (name : String) : Row := fun column =>
  match column with
  | "id" => .text "U1"
  | "full_name" => .text name
  | "email_address" => .text "u1@acme.example"
  | "credential_secure_hash" => .text "!"
  | "role_type" => .text "STAFF"
  | "reporting_line_manager" => .text "U1"
  | "organization_id" => .text "acme"
  | _ => .null

-- A database of one account.
def staffed (name : String) : Database := (Database.empty.put "organizations" [acme]).put "users" [person name]

theorem staffed_rows (name : String) {table : Table} (listed : table ∈ exported) :
    (table = organizations ∧ (staffed name).rows table.name = [acme]) ∨
    (table = users ∧ (staffed name).rows table.name = [person name]) ∨ (staffed name).rows table.name = [] := by
  by_cases user : table.name = "users"
  · exact .inr (.inl ⟨List.inj_on_of_nodup_map exported_names listed users_listed user,by rw [user]; rfl⟩)
  · by_cases organization : table.name = "organizations"
    · have first : organizations ∈ exported := by simp [exported]
      exact .inl ⟨List.inj_on_of_nodup_map exported_names listed first organization,by rw [organization]; rfl⟩
    · exact .inr (.inr ((put_other user).trans (put_other organization)))

theorem staffed_mem {name : String} {table : Table} {row : Row} (listed : table ∈ exported)
    (inside : row ∈ (staffed name).rows table.name) :
    (table = organizations ∧ row = acme) ∨ (table = users ∧ row = person name) := by
  rcases staffed_rows name listed with one | one | none_
  · rw [one.2] at inside
    exact .inl ⟨one.1,List.mem_singleton.mp inside⟩
  · rw [one.2] at inside
    exact .inr ⟨one.1,List.mem_singleton.mp inside⟩
  · rw [none_] at inside
    cases inside

theorem staffed_pairwise {name : String} {table : Table} (listed : table ∈ exported) (R : Row → Row → Prop) :
    ((staffed name).rows table.name).Pairwise R := by
  rcases staffed_rows name listed with one | one | none_
  · rw [one.2]
    exact List.pairwise_singleton _ _
  · rw [one.2]
    exact List.pairwise_singleton _ _
  · rw [none_]
    exact .nil

theorem staffed_formed (name : String) : WellFormed .sqlite (staffed name) where
  holds := by
    intro table listed row inside column member
    rcases staffed_mem listed inside with both | both
    · obtain ⟨rfl,rfl⟩ := both
      simp only [organizations,List.mem_cons,List.not_mem_nil,or_false] at member
      rcases member with rfl | rfl | rfl | rfl
      · trivial
      · trivial
      · change InRange 63900000000000000
        decide
      · change "REQUIRED" ∈ ["REQUIRED","ADVISORY"]
        decide
    · obtain ⟨rfl,rfl⟩ := both
      simp only [users,List.mem_cons,List.not_mem_nil,or_false] at member
      rcases member with rfl | rfl | rfl | rfl | rfl | rfl | rfl | rfl | rfl | rfl | rfl | rfl | rfl
      all_goals first
        | trivial
        | rfl
        | (change "STAFF" ∈ ["ORG_ADMIN","UNIT_ADMIN","STAFF","MEMBER"]; decide)
  sound := by
    intro table listed row inside
    rcases staffed_mem listed inside with both | both
    · obtain ⟨rfl,rfl⟩ := both
      rfl
    · obtain ⟨rfl,rfl⟩ := both
      rfl
  keys := by
    intro table listed row inside foreign member
    rcases staffed_mem listed inside with both | both
    · obtain ⟨rfl,rfl⟩ := both
      cases member
    · obtain ⟨rfl,rfl⟩ := both
      simp only [users,List.mem_cons,List.not_mem_nil,or_false] at member
      rcases member with rfl | rfl <;> rfl
  together := fun _ listed => staffed_pairwise listed _

theorem staffed_portable {zone : Int → Int} {lower : String → String} {name : String} (clean : plain name = true)
    (short : name.length ≤ 120)
    (includeSecrets : Bool) : Portable (.postgresql zone lower) includeSecrets (staffed name) where
  takes := by
    intro table listed row inside column kept
    rcases staffed_mem listed inside with both | both
    · obtain ⟨rfl,rfl⟩ := both
      obtain ⟨member,_⟩ := kept_parts.mp kept
      simp only [organizations,List.mem_cons,List.not_mem_nil,or_false] at member
      rcases member with rfl | rfl | rfl | rfl <;> rfl
    · obtain ⟨rfl,rfl⟩ := both
      obtain ⟨member,_⟩ := kept_parts.mp kept
      simp only [users,List.mem_cons,List.not_mem_nil,or_false] at member
      rcases member with rfl | rfl | rfl | rfl | rfl | rfl | rfl | rfl | rfl | rfl | rfl | rfl | rfl
      all_goals first
        | rfl
        | exact Bool.and_eq_true_iff.mpr ⟨clean,decide_eq_true short⟩
  apart := fun _ listed => staffed_pairwise listed _

def idleDraws : Draws where
  absentAccountHash := "!"
  keyHash := fun _ => ""
  secret := fun _ => ""
  now := fun _ => 63900000000000000
  hashPassword := fun _ => ""

theorem vacant_empty : Vacant .empty := fun _ _ => rfl

def utc : Dialect := .postgresql (fun _ => 0) (fun s => s)

theorem idle_sane : idleDraws.Sane 0 where
  absent := by decide
  hashes := fun _ => ⟨rfl,Nat.zero_le _⟩
  distinct := fun _ low _ low' _ => (Nat.le_zero.mp low).trans (Nat.le_zero.mp low').symm
  secrets := fun _ => ⟨rfl,Nat.zero_le _⟩
  now := by
    intro number
    change InRange 63900000000000000
    decide
  hashed := fun _ => ⟨rfl,Nat.zero_le _⟩

theorem staffed_admitted (name : String) : Admitted none (staffed name) := by
  intro seeded
  obtain ⟨row,inside,id⟩ := seeded
  have one : row ∈ [person name] := inside
  rw [List.mem_singleton.mp one] at id
  change Cell.text "U1" = .text seededAdminId at id
  exact absurd id (by decide)

end ChronosLedger.Portability
