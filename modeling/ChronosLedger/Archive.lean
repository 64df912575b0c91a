import Mathlib.Data.List.Sort
import Mathlib.Data.String.Basic
import ChronosLedger.ArchiveTables

namespace ChronosLedger.Portability
open JsonText

structure Database where
  rows : String → List Row

def Database.empty : Database := ⟨fun _ => []⟩

def Database.put (db : Database) (table : String) (rows : List Row) : Database :=
  ⟨fun name => if name = table then rows else db.rows name⟩

def Table.column (table : Table) (name : String) : Option Column := table.columns.find? (fun column => column.name = name)

-- A dictionary with an entry for every column.
def Table.dict {α : Type} (table : Table) (missing : α) (entry : Column → α) : String → α := fun name =>
  match table.column name with
  | some column => entry column
  | none => missing

structure Entry where
  name : String
  file : String
  rows : Int
  deriving DecidableEq, Repr

structure Manifest where
  format : String
  formatVersion : Int
  schemaVersion : String
  secretsIncluded : Bool
  omittedColumns : List (String × List String)
  tables : List Entry
  deriving DecidableEq, Repr

-- The zip file: manifest.json as what it says, the others as their text.
structure Archive where
  manifest : Manifest
  members : List (String × List Char)
  deriving DecidableEq, Repr

def formatName : String := "chronos-ledger-archive"
def formatVersion : Int := 1
def schemaVersion : String := "6"
def batchSize : Nat := 1000
def seededAdminId : String := "ADMIN001"

def memberName (table : String) : String := table ++ ".jsonl"

def omittedColumns (includeSecrets : Bool) : List (String × List String) := if includeSecrets then [] else secretColumns

def omittedFrom (includeSecrets : Bool) (table : String) : List String := ((omittedColumns includeSecrets).lookup table).getD []

def Table.kept (table : Table) (omitted : List String) : List Column := table.columns.filter (fun column => column.name ∉ omitted)

def Cell.number : Cell → Int
  | .int n => n
  | _ => 0

def Cell.letters : Cell → String
  | .text s => s
  | _ => ""

-- ORDER BY the primary key: numbers by size, text by its bytes.
def inOrder (one two : Row) : Prop :=
  (one "id").number < (two "id").number ∨ (one "id").number = (two "id").number ∧ (one "id").letters ≤ (two "id").letters

instance (one two : Row) : Decidable (inOrder one two) := inferInstanceAs (Decidable (_ ∨ _))

def sortedKeys (columns : List Column) : List Column := columns.insertionSort (fun one two => one.name ≤ two.name)

def recordOf (d : Dialect) (columns : List Column) (row : Row) : Option (List (String × Scalar)) :=
  (sortedKeys columns).mapM (fun column => (written d column (row column.name)).map (fun form => (column.name,form)))

def line (record : List (String × Scalar)) : List Char := compact record ++ [newline]

def ownedBy (table : Table) (organization : Option String) (row : Row) : Bool :=
  match organization with
  | none => true
  | some id => row (if table.name = "organizations" then "id" else "organization_id") = .text id

def exportTable (d : Dialect) (includeSecrets : Bool) (organization : Option String) (db : Database) (table : Table) :
    Option (List (List (String × Scalar))) :=
  (((db.rows table.name).filter (ownedBy table organization)).insertionSort inOrder).mapM
    (recordOf d (table.kept (omittedFrom includeSecrets table.name)))

def archiveOf (includeSecrets : Bool) (tables : List (String × List (List (String × Scalar)))) : Archive where
  manifest :=
    { format := formatName,
      formatVersion := formatVersion,
      schemaVersion := schemaVersion,
      secretsIncluded := includeSecrets,
      omittedColumns := omittedColumns includeSecrets,
      tables := tables.map (fun table => ⟨table.1,memberName table.1,table.2.length⟩) }
  members := tables.map (fun table => (memberName table.1,(table.2.map line).flatten))

-- export_archive. It has no archive where a value has no written form.
def exportArchive (d : Dialect) (includeSecrets : Bool) (organization : Option String) (db : Database) : Option Archive :=
  (exported.mapM (fun table => (exportTable d includeSecrets organization db table).map (fun records => (table.name,records)))).map
    (archiveOf includeSecrets)

inductive Refusal where
  | notAnExport
  | newerFormat (version : Int)
  | unknownFormat (version : Int)
  | otherSchema (version : String)
  | otherOmissions (found : List (String × List String))
  | wrongTables (missing unexpected : List String)
  | noMember (table : String)
  | noRowCount (table : String)
  | notEmpty (holding : List String)
  | notAnObject (table : String) (line : Nat)
  | wrongColumns (table : String) (line : Nat) (missing unexpected : List String)
  | badValue (table : String) (line : Nat) (column : String) (problem : Problem)
  | refusedRows (table : String) (line : Nat)
  | wrongCount (table : String) (found expected : Int)
  | raised (table : String) (line : Nat) (problem : Problem)
  | refusedReference (table : String) (line : Nat) (column : String)
  | noPassword
  | refusedHash
  deriving DecidableEq, Repr

def sortedNames (names : List String) : List String := names.dedup.insertionSort (fun one two => one ≤ two)

def checkEntry (archive : Archive) (entry : Entry) : Except Refusal Unit :=
  if entry.file ≠ memberName entry.name ∨ entry.file ∉ archive.members.map (fun member => member.1) then .error (.noMember entry.name)
  else if entry.rows < 0 then .error (.noRowCount entry.name)
  else .ok ()

def readManifest (archive : Archive) : Except Refusal Manifest :=
  let manifest := archive.manifest
  let listed := manifest.tables.map (fun entry => entry.name)
  let wanted := exported.map (fun table => table.name)
  if manifest.format ≠ formatName then .error .notAnExport
  else if formatVersion < manifest.formatVersion then .error (.newerFormat manifest.formatVersion)
  else if manifest.formatVersion ≠ formatVersion then .error (.unknownFormat manifest.formatVersion)
  else if manifest.schemaVersion ≠ schemaVersion then .error (.otherSchema manifest.schemaVersion)
  else if manifest.omittedColumns.isPerm (omittedColumns manifest.secretsIncluded) = false then
    .error (.otherOmissions manifest.omittedColumns)
  else if listed.isPerm wanted = false then
    .error (.wrongTables (sortedNames (wanted.filter (fun name => name ∉ listed))) (sortedNames (listed.filter (fun name => name ∉ wanted))))
  else (manifest.tables.forM (checkEntry archive)).map (fun _ => manifest)

-- What an import makes up: the values that open nothing, its clock and the
-- hash of a password, by the line they are for.
structure Draws where
  absentAccountHash : String
  keyHash : Nat → String
  secret : Nat → String
  now : Nat → Int
  hashPassword : String → String

def redactedValue (draws : Draws) (line : Nat) (table column : String) : Value :=
  if table = "users" ∧ column = "credential_secure_hash" then .text draws.absentAccountHash
  else if table = "api_keys" ∧ column = "key_hash" then .text (draws.keyHash line)
  else if table = "webhook_subscriptions" ∧ column = "secret" then .text (draws.secret line)
  else .none

-- Columns naming a row of their own table.
def Table.deferred (table : Table) : List String :=
  (table.foreignKeys.filter (fun key => key.target = table.name)).flatMap (fun key => key.columns)

-- The entry that counts is the last of its key.
def entryOf (record : List (String × Json)) (name : String) : Json :=
  ((record.reverse.find? (fun entry => entry.1 = name)).map (fun entry => entry.2)).getD (.scalar .null)

def readRecord (text : List Char) : Option (List (String × Json)) :=
  match loads text with
  | some (.obj record) => some record
  | _ => none

def valueOf (draws : Draws) (table : Table) (omitted : List String) (line : Nat) (record : List (String × Json)) (column : Column) :
    Except Problem Value :=
  if column.name ∈ omitted then .ok (redactedValue draws line table.name column.name)
  else if column.name ∈ table.deferred then .ok .none
  else decode column (entryOf record column.name)

-- A subscription whose secret is lost goes in paused.
def pausing (draws : Draws) (table : Table) (omitted : List String) (line : Nat) (row : String → Value) : String → Value :=
  if omitted ≠ [] ∧ table.name = "webhook_subscriptions" then fun name =>
    if name = "paused_at" then (if row "paused_at" = .none then .aware (draws.now line) 0 else row "paused_at")
    else if name = "previous_secret_expires_at" then .none
    else row name
  else row

def failing {ε α : Type} (read : Except ε α) : Option ε :=
  match read with
  | .error problem => some problem
  | .ok _ => none

def held {ε α : Type} (missing : α) (read : Except ε α) : α :=
  match read with
  | .error _ => missing
  | .ok value => value

def decodeLine (draws : Draws) (table : Table) (omitted : List String) (line : Nat) (text : List Char) : Except Refusal (String → Value) :=
  match readRecord text with
  | none => .error (.notAnObject table.name line)
  | some record =>
    let found := record.map (fun entry => entry.1)
    let present := (table.kept omitted).map (fun column => column.name)
    if (∀ name ∈ found, name ∈ present) ∧ ∀ name ∈ present, name ∈ found then
      match table.columns.findSome? (fun column =>
        (failing (valueOf draws table omitted line record column)).map (fun problem => (column.name,problem))) with
      | some (column,problem) => .error (.badValue table.name line column problem)
      | none => .ok (pausing draws table omitted line (table.dict .none (fun column => held .none (valueOf draws table omitted line record column))))
    else .error (.wrongColumns table.name line (sortedNames (present.filter (fun name => name ∉ found)))
      (sortedNames (found.filter (fun name => name ∉ present))))

def storedRow (d : Dialect) (table : Table) (values : String → Value) : Option Row :=
  if table.columns.any (fun column => (store d column.kind (values column.name)).isNone) then none
  else some (table.dict .null (fun column => (store d column.kind (values column.name)).getD .null))

def ForeignKey.names (key : ForeignKey) (row other : Row) : Bool :=
  (key.columns.zip key.targetColumns).all (fun pair => row pair.1 = other pair.2)

-- A key with a null in it names no row.
def ForeignKey.holds (key : ForeignKey) (db : Database) (row : Row) : Bool :=
  key.columns.any (fun name => row name = .null) || (db.rows key.target).any (key.names row)

-- Nor does a null equal another in a unique column.
def differ (names : List String) (one two : Row) : Bool :=
  names.any (fun name => decide (one name = .null) || decide (two name = .null) || decide (one name ≠ two name))

def Table.together (table : Table) (d : Dialect) (one two : Row) : Bool :=
  decide (one "id" ≠ two "id") && table.uniques.all (fun names => differ names one two) && table.apart d one two

def Table.sound (table : Table) (row : Row) : Bool :=
  table.columns.all (fun column => column.nullable || decide (row column.name ≠ .null)) && table.checks.all (fun check => check row)

def insertRow (d : Dialect) (table : Table) (db : Database) (values : String → Value) : Option Database := do
  let row ← storedRow d table values
  let after := db.put table.name (db.rows table.name ++ [row])
  if table.sound row && (db.rows table.name).all (fun other => table.together d other row) && table.foreignKeys.all (fun key => key.holds after row)
  then some after else none

-- _insert.
def insertBatch (d : Dialect) (table : Table) (batch : List (String → Value)) (line : Nat) (db : Database) : Except Refusal Database :=
  match batch.foldlM (insertRow d table) db with
  | some after => .ok after
  | none => .error (.refusedRows table.name line)

-- The first pass, from a line on, with the rows that wait for their batch.
def loadLines (d : Dialect) (draws : Draws) (table : Table) (omitted : List String) :
    Nat → List (List Char) → List (String → Value) → Database → Except Refusal (Nat × Database)
  | count,[],batch,db => (insertBatch d table batch count db).map (fun after => (count,after))
  | count,text :: rest,batch,db => do
    let row ← decodeLine draws table omitted (count+1) text
    if batchSize ≤ batch.length+1 then do
      let after ← insertBatch d table (batch ++ [row]) (count+1) db
      loadLines d draws table omitted (count+1) rest [] after
    else loadLines d draws table omitted (count+1) rest (batch ++ [row]) db

-- UPDATE one column of the row with that id. The keys the column is part of
-- are looked up again.
def updateRow (table : Table) (db : Database) (id : Cell) (column : String) (cell : Cell) : Option Database :=
  let after := db.put table.name ((db.rows table.name).map (fun row => if row "id" = id then Function.update row column cell else row))
  if (after.rows table.name).all (fun row => decide (row "id" ≠ id) ||
    table.foreignKeys.all (fun key => decide (column ∉ key.columns) || key.holds after row)) then some after else none

-- Of a value the first pass did not read nothing is caught but the database's
-- own refusal.
def restoreLine (d : Dialect) (table : Table) (column : Column) (line : Nat) (text : List Char) (db : Database) : Except Refusal Database :=
  match readRecord text with
  | none => .error (.notAnObject table.name line)
  | some record =>
    match entryOf record column.name with
    | .scalar .null => .ok db
    | named =>
      match (table.column "id").map (fun key => (key.kind,decode key (entryOf record key.name))),decode column named with
      | some (kind,.ok id),.ok value =>
        match (store d kind id).bind (fun id => (store d column.kind value).bind (updateRow table db id column.name)) with
        | some after => .ok after
        | none => .error (.refusedReference table.name line column.name)
      | some (_,.error problem),_ => .error (.raised table.name line problem)
      | some (_,.ok _),.error problem => .error (.raised table.name line problem)
      | none,_ => .ok db

def restoreLines (d : Dialect) (table : Table) (column : Column) : Nat → List (List Char) → Database → Except Refusal Database
  | _,[],db => .ok db
  | count,text :: rest,db => do
    let after ← restoreLine d table column (count+1) text db
    restoreLines d table column (count+1) rest after

-- The second pass.
def restore (d : Dialect) (table : Table) (texts : List (List Char)) (db : Database) : Except Refusal Database :=
  (table.columns.filter (fun column => column.name ∈ table.deferred)).foldlM
    (fun db column => restoreLines d table column 0 texts db) db

-- _load.
def load (d : Dialect) (draws : Draws) (archive : Archive) (table : Table) (expected : Int) (omitted : List String) (db : Database) :
    Except Refusal Database :=
  match archive.members.lookup (memberName table.name) with
  | none => .error (.noMember table.name)
  | some text => do
    let (count,db) ← loadLines d draws table omitted 0 (lines text) [] db
    if (count : Int) = expected then restore d table (lines text) db
    else .error (.wrongCount table.name count expected)

def Manifest.expected (manifest : Manifest) (table : String) : Int :=
  ((manifest.tables.reverse.find? (fun entry => entry.name = table)).map (fun entry => entry.rows)).getD 0

def loadTables (d : Dialect) (draws : Draws) (archive : Archive) (db : Database) : Except Refusal Database :=
  exported.foldlM (fun db table =>
    load d draws archive table (archive.manifest.expected table.name) (omittedFrom archive.manifest.secretsIncluded table.name) db) db

-- _open_admin.
def openAdmin (d : Dialect) (draws : Draws) (password : Option String) (db : Database) : Except Refusal Database :=
  if (db.rows "users").any (fun row => row "id" = .text seededAdminId) then
    if password.getD "" = "" then .error .noPassword
    else
      match (store d (.string 255) (.text (draws.hashPassword (password.getD "")))).bind
        (updateRow users db (.text seededAdminId) "credential_secure_hash") with
      | some after => .ok after
      | none => .error .refusedHash
  else .ok db

-- _refuse_rows.
def refuseRows (db : Database) : Except Refusal Unit :=
  let holding := (exported.map (fun table => table.name) ++ excluded).filter (fun name => (db.rows name).isEmpty = false)
  if holding = [] then .ok () else .error (.notEmpty holding)

-- What runs in the import's one transaction.
def importBody (d : Dialect) (draws : Draws) (password : Option String) (archive : Archive) (db : Database) : Except Refusal Database := do
  refuseRows db
  let loaded ← loadTables d draws archive db
  if archive.manifest.secretsIncluded then .ok loaded else openAdmin d draws password loaded

-- A transaction that raises is rolled back.
def transaction {ε : Type} (body : Database → Except ε Database) (db : Database) : Database × Except ε Unit :=
  match body db with
  | .ok after => (after,.ok ())
  | .error problem => (db,.error problem)

-- import_archive.
def importArchive (d : Dialect) (draws : Draws) (password : Option String) (archive : Archive) (db : Database) :
    Database × Except Refusal Manifest :=
  match readManifest archive with
  | .error refusal => (db,.error refusal)
  | .ok manifest =>
    match transaction (importBody d draws password archive) db with
    | (after,.ok ()) => (after,.ok manifest)
    | (after,.error refusal) => (after,.error refusal)

end ChronosLedger.Portability
