import ChronosLedger.EnvFile
import ChronosLedger.Library.Runs

namespace ChronosLedger.Cli

def trimV (version : Text) : Text := version.dropWhile (fun c => c = 'v')

def tagFor (version : Text) : Text := 'v' :: trimV version

def u64Max : Nat := 18446744073709551615

def parseU64 (digits : Text) : Option Nat :=
  if !digits.isEmpty && digits.all Char.isDigit then
    let value := digits.foldl (fun value digit => value*10+(digit.toNat-48)) 0
    if value ≤ u64Max then some value else none
  else none

-- major.minor.patch, of a version with any number of v before it and any suffix.
def parse (version : Text) : Option (Nat × Nat × Nat) :=
  match ((trimV version).takeWhile (fun c => c ≠ '-' && c ≠ '+')).splitOn '.' with
  | [major,minor,patch] => do
    let major ← parseU64 major
    let minor ← parseU64 minor
    let patch ← parseU64 patch
    return (major,minor,patch)
  | _ => none

def compareVersions (a b : Text) : Option Ordering := do
  let (major,minor,patch) ← parse a
  let (major',minor',patch') ← parse b
  return (compare major major').then ((compare minor minor').then (compare patch patch'))

-- What a release's image answers for itself. A release before 0.15 has no schema
-- version to give.
structure Image where
  version : Text
  schemaVersion : Option Text
  deriving DecidableEq, Repr

-- The tables have no version of their own: they are as the image that built them
-- describes them.
structure Tables (δ : Type) where
  builtAt : Option Text
  content : δ
  deriving DecidableEq, Repr

structure BackupInfo where
  serverVersion : Option Text
  schemaVersion : Option Text
  deriving DecidableEq, Repr

structure Backup (δ : Type) where
  info : Option BackupInfo
  dump : Option (Tables δ)
  deriving DecidableEq, Repr

-- An upgrade that is under way: its target, and the server's answer and the .env
-- it began with.
structure Moving where
  target : Text
  health : Image
  env : Text
  deriving DecidableEq, Repr

-- The next thing the command does that can fail.
inductive Phase (δ : Type) where
  | idle
  | asking (moving : Option Moving)
  | dumping (info : BackupInfo) (moving : Option Moving)
  | describing (info : BackupInfo) (dump : Option (Tables δ)) (moving : Option Moving)
  | pinning (moving : Moving)
  | pulling (moving : Moving)
  | checking (moving : Moving)
  | raising
  | stopping (backup : Backup δ)
  | dropping (backup : Backup δ)
  | loading (backup : Backup δ)
  deriving DecidableEq, Repr

structure Server (δ : Type) where
  env : Text
  container : Option Image
  answering : Bool
  tables : Option (Tables δ)
  backups : List (Backup δ)
  phase : Phase δ
  deriving DecidableEq, Repr

inductive Command where
  | up
  | backup
  | upgrade (to_ : Text)
  | restore (file : Nat)
  deriving DecidableEq, Repr

-- `go` is the command's next step, done or failed; `loadPart` is a pg_restore that
-- failed on the way. The rest is the server's own doing, or the operator's.
inductive Operation (δ : Type) where
  | run (command : Command)
  | go (ok : Bool)
  | loadPart (content : δ)
  | kill
  | serve (content : δ)
  | stop
  | start
  | edit (env : Text)
  deriving DecidableEq, Repr

def versionKey : Text := "VERSION".toList

-- ${VERSION:-latest}
def pinTag (env : Text) : Text :=
  let version := (get env versionKey).getD []
  if version = [] then "latest".toList else version

def Server.health {δ : Type} (s : Server δ) : Option Image := if s.answering then s.container else none

def requireSameSchema (info : BackupInfo) (health : Image) : Bool :=
  match info.schemaVersion,health.schemaVersion with
  | some taken,some running => taken = running
  | _,_ => false

-- cli is the version of the CLI, registry the image behind each tag, and fresh what
-- a server puts into the tables it builds.
section
variable {δ : Type} (cli : Text) (registry : Text → Option Image) (fresh : δ)

def imageSchema (s : Server δ) : Option Text := (registry (pinTag s.env)).bind Image.schemaVersion

def describe (s : Server δ) : BackupInfo where
  serverVersion := (s.health.map Image.version).or (get s.env versionKey)
  schemaVersion := (s.health.bind Image.schemaVersion).or (imageSchema registry s)

def cliOlder (version : Text) : Bool := compareVersions cli version = some .lt

def upgrade (s : Server δ) (to_ : Text) : Phase δ :=
  let target := trimV to_
  if compareVersions target "0.0.0".toList = none then .idle
  else if cliOlder cli target then .idle
  else
    match compareVersions target ((get s.env versionKey).getD []) with
    | some .eq => .idle
    | some .lt => .idle
    | _ =>
      match s.health with
      | none => .idle
      | some health => if cliOlder cli health.version then .idle else .asking (some ⟨target,health,s.env⟩)

def restore (s : Server δ) (file : Nat) : Phase δ :=
  match s.backups[file]? with
  | none => .idle
  | some backup =>
    match backup.info,s.health with
    | some info,some health => if !cliOlder cli health.version && requireSameSchema info health then .stopping backup else .idle
    | _,_ => .idle

-- What a command that was agreed to does first, if anything.
def begin_ (s : Server δ) : Command → Phase δ
  | .up => .raising
  | .backup => .asking none
  | .upgrade to_ => upgrade cli s to_
  | .restore file => restore cli s file

-- A server that starts builds the tables it does not find.
def starts (s : Server δ) (image : Image) : Server δ :=
  {s with container := some image,answering := true,tables := some (s.tables.getD ⟨image.schemaVersion,fresh⟩)}

def backedUp (moving : Option Moving) : Phase δ := (moving.map Phase.pinning).getD .idle

def goes (s : Server δ) : Option (Server δ) :=
  match s.phase with
  | .idle => none
  | .asking moving => some {s with phase := .dumping (describe registry s) moving}
  | .dumping info moving => some {s with phase := .describing info s.tables moving}
  | .describing info dump moving => some {s with backups := s.backups ++ [⟨some info,dump⟩],phase := backedUp moving}
  | .pinning moving => some {s with env := set moving.env versionKey (tagFor moving.target),phase := .pulling moving}
  | .pulling moving => (registry (pinTag s.env)).map (fun _ => {s with phase := .checking moving})
  | .checking moving =>
    some (if imageSchema registry s = moving.health.schemaVersion then {s with phase := .raising} else {s with env := moving.env,phase := .idle})
  | .raising => (registry (pinTag s.env)).map (fun image => {starts fresh s image with phase := .idle})
  | .stopping backup => some {s with answering := false,phase := .dropping backup}
  | .dropping backup => some {s with tables := none,phase := .loading backup}
  | .loading backup => some {s with tables := backup.dump,phase := .raising}

-- A dump that gets no sidecar stays, and a pin that was not checked does.
def fails (s : Server δ) : Server δ :=
  match s.phase with
  | .describing _ dump _ => {s with backups := s.backups ++ [⟨none,dump⟩],phase := .idle}
  | .checking moving => {s with env := moving.env,phase := .idle}
  | _ => {s with phase := .idle}

def killed (s : Server δ) : Server δ :=
  match s.phase with
  | .describing _ dump _ => {s with backups := s.backups ++ [⟨none,dump⟩],phase := .idle}
  | _ => {s with phase := .idle}

def step (s : Server δ) : Operation δ → Option (Server δ)
  | .run command => match s.phase with
    | .idle => some {s with phase := begin_ cli s command}
    | _ => none
  | .go ok => match s.phase with
    | .idle => none
    | _ => if ok then goes registry fresh s else some (fails s)
  | .loadPart content => match s.phase with
    | .loading backup => some {s with tables := backup.dump.map (fun tables => {tables with content := content}),phase := .idle}
    | _ => none
  | .kill => some (killed s)
  | .serve content => if s.answering then some {s with tables := s.tables.map (fun tables => {tables with content := content})} else none
  | .stop => some {s with answering := false}
  | .start => s.container.map (starts fresh s)
  | .edit env => some {s with env := env}

end

abbrev Steps {δ : Type} (cli : Text) (registry : Text → Option Image) (fresh : δ) : Server δ → Operation δ → Server δ → Prop :=
  Runs.Acts (step cli registry fresh)

def Server.start {δ : Type} (env : Text) : Server δ := ⟨env,none,false,none,[],.idle⟩

-- The release the .env pins describes these tables.
def Pinned (registry : Text → Option Image) (schema : Option Text) (env : Text) : Prop :=
  (registry (pinTag env)).map Image.schemaVersion = some schema

instance (registry : Text → Option Image) (schema : Option Text) (env : Text) : Decidable (Pinned registry schema env) :=
  inferInstanceAs (Decidable (_ = _))

-- No upgrade is cut off between its pin and its check, and whoever edits the .env
-- pins a release of the same schema.
def Careful {δ : Type} (registry : Text → Option Image) (s : Server δ) (op : Operation δ) : Prop :=
  match op,s.phase with
  | .go false,.pulling _ => False
  | .kill,.pulling _ => False
  | .kill,.checking _ => False
  | .edit env,_ => (registry (pinTag env)).map Image.schemaVersion = (registry (pinTag s.env)).map Image.schemaVersion
  | _,_ => True

instance {δ : Type} (registry : Text → Option Image) (s : Server δ) (op : Operation δ) : Decidable (Careful registry s op) := by
  unfold Careful
  split <;> infer_instance

section
variable {δ : Type} {cli env : Text} {registry : Text → Option Image} {fresh : δ} {s next : Server δ} {schema : Option Text} {moving : Moving}
  {info : BackupInfo} {backup : Backup δ} {tables : Option (Tables δ)} {phase : Phase δ}

def Built (schema : Option Text) (tables : Option (Tables δ)) : Prop := ∀ built ∈ tables, built.builtAt = schema

-- A backup with a sidecar says what its tables are.
def Described (schema : Option Text) (backup : Backup δ) : Prop := ∀ info ∈ backup.info, info.schemaVersion = schema ∧ Built schema backup.dump

structure Moving.Fits (registry : Text → Option Image) (schema : Option Text) (moving : Moving) : Prop where
  served : moving.health.schemaVersion = schema
  pinned : Pinned registry schema moving.env

def Phase.Fits (registry : Text → Option Image) (schema : Option Text) (s : Server δ) : Phase δ → Prop
  | .idle => Pinned registry schema s.env
  | .raising => Pinned registry schema s.env
  | .asking moving => Pinned registry schema s.env ∧ ∀ one ∈ moving, Moving.Fits registry schema one
  | .dumping info moving => Pinned registry schema s.env ∧ info.schemaVersion = schema ∧ ∀ one ∈ moving, Moving.Fits registry schema one
  | .describing info dump moving =>
    Pinned registry schema s.env ∧ Described schema ⟨some info,dump⟩ ∧ ∀ one ∈ moving, Moving.Fits registry schema one
  | .pinning moving => Pinned registry schema s.env ∧ moving.Fits registry schema ∧ ∃ backup ∈ s.backups, backup.info.isSome
  | .pulling moving => moving.Fits registry schema ∧ ∃ backup ∈ s.backups, backup.info.isSome
  | .checking moving => moving.Fits registry schema ∧ (registry (pinTag s.env)).isSome ∧ ∃ backup ∈ s.backups, backup.info.isSome
  | .stopping backup => Pinned registry schema s.env ∧ Built schema backup.dump
  | .dropping backup => Pinned registry schema s.env ∧ Built schema backup.dump
  | .loading backup => Pinned registry schema s.env ∧ Built schema backup.dump

structure Fits (registry : Text → Option Image) (schema : Option Text) (s : Server δ) : Prop where
  container : ∀ image ∈ s.container, image.schemaVersion = schema
  tables : Built schema s.tables
  backups : ∀ backup ∈ s.backups, Described schema backup
  phase : s.phase.Fits registry schema s

-- The pin an upgrade writes is its target's tag, and every other setting is as it was.
theorem pin_written (feed : '\n' ∉ moving.target) (taken : goes registry fresh {s with phase := .pinning moving} = some next) :
    get next.env versionKey = some (trim (tagFor moving.target)) ∧
    ∀ other, other ≠ versionKey → '=' ∉ other → get next.env other = get moving.env other := by
  cases taken
  have start : '\n' ∉ versionKey := by decide
  have tag : '\n' ∉ tagFor moving.target := by
    intro member
    rcases List.mem_cons.mp member with same | later
    · cases same
    · exact feed (List.dropWhile_sublist _ |>.mem later)
  refine ⟨get_own start tag,?_⟩
  intro other another plain
  exact get_other start tag (by decide) plain another

theorem Pinned.image {image : Image} (pinned : Pinned registry schema env) (is : registry (pinTag env) = some image) : image.schemaVersion = schema := by
  simpa [Pinned,is] using pinned

theorem Pinned.answers (pinned : Pinned registry schema s.env) : imageSchema registry s = schema := by
  obtain ⟨image,is,same⟩ := Option.map_eq_some_iff.mp pinned
  simp [imageSchema,is,same]

theorem checked_pinned (there : (registry (pinTag s.env)).isSome) (same : imageSchema registry s = schema) : Pinned registry schema s.env := by
  obtain ⟨image,is⟩ := Option.isSome_iff_exists.mp there
  simpa [Pinned,imageSchema,is] using same

theorem Fits.health (fits : Fits registry schema s) : ∀ image ∈ s.health, image.schemaVersion = schema := by
  intro image is
  unfold Server.health at is
  split at is
  · exact fits.container image is
  · cases is

theorem Fits.describes (fits : Fits registry schema s) (pinned : Pinned registry schema s.env) : (describe registry s).schemaVersion = schema := by
  simp only [describe,pinned.answers]
  cases served : s.health with
  | none => rfl
  | some image => simp [fits.health image served]

theorem Fits.starts (fresh : δ) (fits : Fits registry schema s) {image : Image} (same : image.schemaVersion = schema) : Fits registry schema (starts fresh s image) := by
  refine ⟨?_,?_,fits.backups,?_⟩
  · intro running is
    cases is
    exact same
  · intro built is
    cases is
    cases there : s.tables with
    | none => exact same
    | some tables => exact fits.tables tables there
  · exact fits.phase

-- What a command first does is asked or done of a server that fits.
theorem Fits.upgrades (fits : Fits registry schema s) (pinned : Pinned registry schema s.env) (to_ : Text) :
    (upgrade cli s to_).Fits registry schema s := by
  unfold upgrade
  dsimp only
  split
  · exact pinned
  split
  · exact pinned
  split
  · exact pinned
  · exact pinned
  split
  · exact pinned
  · rename_i health served
    split
    · exact pinned
    · refine ⟨pinned,?_⟩
      intro one is
      cases is
      exact ⟨fits.health health served,pinned⟩

theorem Fits.restores (fits : Fits registry schema s) (pinned : Pinned registry schema s.env) (file : Nat) :
    (restore cli s file).Fits registry schema s := by
  unfold restore
  split
  · exact pinned
  · rename_i backup found
    split
    · rename_i info health described served
      split
      · exact ⟨pinned,(fits.backups backup (List.mem_of_getElem? found) info described).2⟩
      · exact pinned
    · exact pinned

theorem Fits.begins (fits : Fits registry schema s) (pinned : Pinned registry schema s.env) (command : Command) :
    (begin_ cli s command).Fits registry schema s := by
  cases command with
  | up => exact pinned
  | backup => exact ⟨pinned,nofun⟩
  | upgrade to_ => exact fits.upgrades pinned to_
  | restore file => exact fits.restores pinned file

theorem Fits.moves (fits : Fits registry schema s) (phase : Phase δ) (fits' : phase.Fits registry schema s) : Fits registry schema {s with phase := phase} := by
  refine ⟨fits.container,fits.tables,fits.backups,?_⟩
  cases phase <;> exact fits'

theorem Fits.goes (fits : Fits registry schema s) (taken : goes registry fresh s = some next) : Fits registry schema next := by
  have stands := fits.phase
  unfold Cli.goes at taken
  cases at_ : s.phase with
  | idle =>
    simp only [at_] at taken
    cases taken
  | asking moving =>
    simp only [at_] at taken stands
    cases taken
    exact fits.moves _ ⟨stands.1,fits.describes stands.1,stands.2⟩
  | dumping info moving =>
    simp only [at_] at taken stands
    cases taken
    obtain ⟨pinned,told,under⟩ := stands
    refine fits.moves _ ⟨pinned,?_,under⟩
    intro said is
    cases is
    exact ⟨told,fits.tables⟩
  | describing info dump moving =>
    simp only [at_] at taken stands
    cases taken
    obtain ⟨pinned,described,under⟩ := stands
    refine ⟨fits.container,fits.tables,?_,?_⟩
    · intro backup member
      rcases List.mem_append.mp member with old | new
      · exact fits.backups backup old
      · obtain rfl := List.mem_singleton.mp new
        exact described
    · cases moving with
      | none => exact pinned
      | some moving => exact ⟨pinned,under moving rfl,⟨some info,dump⟩,by simp,rfl⟩
  | pinning moving =>
    simp only [at_] at taken stands
    cases taken
    exact ⟨fits.container,fits.tables,fits.backups,stands.2⟩
  | pulling moving =>
    simp only [at_] at taken stands
    obtain ⟨image,is,rfl⟩ := Option.map_eq_some_iff.mp taken
    exact fits.moves _ ⟨stands.1,by simp [is],stands.2⟩
  | checking moving =>
    simp only [at_] at taken stands
    obtain ⟨under,there,_⟩ := stands
    cases taken
    split
    · rename_i same
      exact fits.moves .raising (checked_pinned there (same.trans under.served))
    · exact ⟨fits.container,fits.tables,fits.backups,under.pinned⟩
  | raising =>
    simp only [at_] at taken stands
    obtain ⟨image,is,rfl⟩ := Option.map_eq_some_iff.mp taken
    have started := fits.starts fresh (Pinned.image stands is)
    exact ⟨started.container,started.tables,started.backups,stands⟩
  | stopping backup =>
    simp only [at_] at taken stands
    cases taken
    exact ⟨fits.container,fits.tables,fits.backups,stands⟩
  | dropping backup =>
    simp only [at_] at taken stands
    cases taken
    exact ⟨fits.container,nofun,fits.backups,stands⟩
  | loading backup =>
    simp only [at_] at taken stands
    cases taken
    exact ⟨fits.container,stands.2,fits.backups,stands.1⟩

theorem Fits.drops (fits : Fits registry schema s) (pinned : Pinned registry schema s.env) : Fits registry schema {s with phase := .idle} :=
  fits.moves .idle pinned

theorem Fits.keeps (fits : Fits registry schema s) (pinned : Pinned registry schema s.env) (dump : Option (Tables δ)) :
    Fits registry schema {s with backups := s.backups ++ [⟨none,dump⟩],phase := .idle} := by
  refine ⟨fits.container,fits.tables,?_,pinned⟩
  intro backup member
  rcases List.mem_append.mp member with old | new
  · exact fits.backups backup old
  · obtain rfl := List.mem_singleton.mp new
    exact nofun

theorem Fits.fails (fits : Fits registry schema s) (checked : ∀ moving, s.phase ≠ .pulling moving) : Fits registry schema (fails s) := by
  have stands := fits.phase
  unfold Cli.fails
  cases at_ : s.phase with
  | describing info dump moving =>
    simp only [at_] at stands
    exact fits.keeps stands.1 dump
  | checking moving =>
    simp only [at_] at stands
    exact ⟨fits.container,fits.tables,fits.backups,stands.1.pinned⟩
  | pulling moving => exact absurd at_ (checked moving)
  | idle | raising =>
    simp only [at_] at stands
    exact fits.drops stands
  | asking | dumping | pinning | stopping | dropping | loading =>
    simp only [at_] at stands
    exact fits.drops stands.1

theorem Fits.killed (fits : Fits registry schema s) (checked : ∀ moving, s.phase ≠ .pulling moving ∧ s.phase ≠ .checking moving) :
    Fits registry schema (killed s) := by
  have stands := fits.phase
  unfold Cli.killed
  cases at_ : s.phase with
  | describing info dump moving =>
    simp only [at_] at stands
    exact fits.keeps stands.1 dump
  | checking moving => exact absurd at_ (checked moving).2
  | pulling moving => exact absurd at_ (checked moving).1
  | idle | raising =>
    simp only [at_] at stands
    exact fits.drops stands
  | asking | dumping | pinning | stopping | dropping | loading =>
    simp only [at_] at stands
    exact fits.drops stands.1

theorem Fits.edits (fits : Fits registry schema s)
    (same : (registry (pinTag env)).map Image.schemaVersion = (registry (pinTag s.env)).map Image.schemaVersion) :
    Fits registry schema {s with env := env} := by
  have pinned : Pinned registry schema s.env → Pinned registry schema env := fun before => same.trans before
  have stands := fits.phase
  refine ⟨fits.container,fits.tables,fits.backups,?_⟩
  cases at_ : s.phase with
  | pulling moving =>
    simp only [at_] at stands ⊢
    exact stands
  | checking moving =>
    simp only [at_] at stands ⊢
    refine ⟨stands.1,?_,stands.2.2⟩
    have there := congrArg Option.isSome same
    simpa using there.trans (by simpa using stands.2.1)
  | idle | raising =>
    simp only [at_] at stands ⊢
    exact pinned stands
  | asking | dumping | describing | pinning | stopping | dropping | loading =>
    simp only [at_] at stands ⊢
    exact ⟨pinned stands.1,stands.2⟩

theorem Fits.preserved {op : Operation δ} (fits : Fits registry schema s) (careful : Careful registry s op)
    (taken : step cli registry fresh s op = some next) : Fits registry schema next := by
  have stands := fits.phase
  cases op with
  | run command =>
    simp only [step] at taken
    split at taken
    · rename_i at_
      simp only [at_] at stands
      cases taken
      exact fits.moves _ (fits.begins stands command)
    · cases taken
  | go ok =>
    simp only [step] at taken
    split at taken
    · cases taken
    · split at taken
      · exact fits.goes taken
      · rename_i failed
        cases taken
        apply fits.fails
        intro moving at_
        simp [Careful,at_,failed] at careful
  | loadPart content =>
    simp only [step] at taken
    split at taken
    · rename_i backup at_
      simp only [at_] at stands
      cases taken
      refine ⟨fits.container,?_,fits.backups,stands.1⟩
      intro built is
      obtain ⟨whole,there,rfl⟩ := Option.map_eq_some_iff.mp is
      exact stands.2 whole there
    · cases taken
  | kill =>
    cases taken
    apply fits.killed
    intro moving
    constructor
    · intro at_
      simp [Careful,at_] at careful
    · intro at_
      simp [Careful,at_] at careful
  | serve content =>
    simp only [step,Option.ite_none_right_eq_some,Option.some.injEq] at taken
    obtain ⟨_,rfl⟩ := taken
    refine ⟨fits.container,?_,fits.backups,fits.phase⟩
    intro built is
    obtain ⟨whole,there,rfl⟩ := Option.map_eq_some_iff.mp is
    exact fits.tables whole there
  | stop =>
    cases taken
    exact ⟨fits.container,fits.tables,fits.backups,fits.phase⟩
  | start =>
    obtain ⟨image,there,rfl⟩ := Option.map_eq_some_iff.mp taken
    exact fits.starts fresh (fits.container image there)
  | edit env =>
    cases taken
    exact fits.edits careful

theorem start_fits (pinned : Pinned registry schema env) : Fits registry schema (Server.start env : Server δ) := ⟨nofun,nofun,nofun,pinned⟩

end

def releases (tag : Text) : Option Image :=
  if tag = "v0.15.0".toList then some ⟨"0.15.0".toList,some "6".toList⟩
  else if tag = "v0.16.0".toList then some ⟨"0.16.0".toList,some "6".toList⟩
  else if tag = "v0.17.0".toList then some ⟨"0.17.0".toList,some "7".toList⟩
  else none

def firstEnv : Text := "# pinned\nVERSION=v0.15.0\nDB_PASSWORD=x\n".toList

abbrev steps : Server Nat → Operation Nat → Option (Server Nat) := step "0.17.0".toList releases 0

def movedAndBack : List (Operation Nat) :=
  [.run .up,.go true,.serve 1,.run (.upgrade "v0.16.0".toList),.go true,.go true,.go true,.go true,.go true,.go true,.go true,.serve 2,
    .run (.restore 0),.go true,.go true,.go true,.go true]

-- A pull that fails leaves a pin nobody checked: asked again the upgrade has nothing
-- to do, and the next start runs the release on tables it does not describe.
theorem failed_pull_misfits : (Runs.trace steps (fun _ _ => True) (.start firstEnv)
      [.run .up,.go true,.run (.upgrade "0.17.0".toList),.go true,.go true,.go true,.go true,.go false,
        .run (.upgrade "0.17.0".toList),.run .up,.go true]).map (fun s => (s.container.map Image.schemaVersion,s.tables.map Tables.builtAt)) =
    some (some (some "7".toList),some (some "6".toList)) := by
  decide +kernel

end ChronosLedger.Cli
