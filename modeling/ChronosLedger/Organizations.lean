import Mathlib.Data.List.Nodup
import ChronosLedger.Library.Purging

namespace ChronosLedger.Organizations

-- A row by its table and primary key.
abbrev Id := String × String

inductive OnDelete where
  | restrict | cascade | setNull
  deriving DecidableEq, Repr

-- A foreign key of a row that is set.
structure Ref where
  target : Id
  rule : OnDelete
  deriving DecidableEq, Repr

structure Content where
  refs : List Ref
  data : String
  deriving DecidableEq, Repr

-- A row of a table that takes `OrganizationScoped`.
structure Row where
  id : Id
  organization : Option String
  content : Content
  deriving DecidableEq, Repr

-- What the sessions of a deployment share, and what each was handed. A key once
-- given out is not given out again.
structure System where
  rows : List Row
  used : List (Id × Option String)
  answers : List (Nat × List Row)
  deriving DecidableEq, Repr

-- One statement of a session. A deletion comes with everything the database takes
-- along, in the order it comes to it; the criteria and the changes are the caller's.
inductive Statement where
  | select (table : String) (wanted : Row → Bool) (everywhere : Bool)
  | follow (ref : Ref)
  | gather (id : Id) (table : String)
  | update (table : String) (wanted : Row → Bool) (change : Content → Content)
  | delete (table : String) (wanted : Row → Bool) (gone : List Id)
  | add (row : Row)
  | write (id : Id) (change : Content → Content)
  | remove (id : Id) (gone : List Id)

-- What each session has under `organization_id` in its info, and the tables
-- whose rows may be in no organization.
variable (session : Nat → Option String) (optional : String → Bool)

-- `_only_this_organization` on a select, an update or a delete.
def visible (organization : Option String) (everywhere : Bool) (row : Row) : Bool :=
  match organization with
  | none => true
  | some _ => everywhere || decide (row.organization = organization)

-- `_file_new_rows` before a flush.
def file (organization : Option String) (row : Row) : Row :=
  if optional row.id.1 = false ∧ row.organization = none then {row with organization := some (organization.getD "default")} else row

def chosen (organization : Option String) (everywhere : Bool) (table : String) (wanted : Row → Bool) (row : Row) : Bool :=
  decide (row.id.1 = table) && wanted row && visible organization everywhere row

def System.loaded (s : System) (n : Nat) : List Row := (s.answers.filter (fun answer => answer.1 = n)).flatMap Prod.snd

def System.answer (s : System) (n : Nat) (rows : List Row) : System := {s with answers := s.answers ++ [(n,rows)]}

def System.stored (s : System) (id : Id) : Prop := id ∈ s.rows.map Row.id

instance (s : System) (id : Id) : Decidable (s.stored id) := inferInstanceAs (Decidable (_ ∈ _))

def rewrite (hit : Row → Bool) (change : Content → Content) (row : Row) : Row :=
  if hit row then {row with content := change row.content} else row

-- The foreign keys of what is written name rows that are there.
def System.touch (s : System) (hit : Row → Bool) (change : Content → Content) : Option System :=
  if ∀ row ∈ s.rows, hit row = true → ∀ ref ∈ (change row.content).refs, s.stored ref.target then
    some {s with rows := s.rows.map (rewrite hit change)}
  else none

-- Each goes because it was asked for, or with one that went before it.
def Justified (rows : List Row) (hit : Row → Bool) : List Id → List Id → Prop
  | _,[] => True
  | earlier,id :: rest =>
    (∃ row ∈ rows, row.id = id ∧ (hit row = true ∨ ∃ ref ∈ row.content.refs, ref.rule = .cascade ∧ ref.target ∈ earlier)) ∧
      Justified rows hit (earlier ++ [id]) rest

instance decideJustified (rows : List Row) (hit : Row → Bool) : (earlier gone : List Id) → Decidable (Justified rows hit earlier gone)
  | _,[] => .isTrue trivial
  | earlier,id :: rest => @instDecidableAnd _ _ _ (decideJustified rows hit (earlier ++ [id]) rest)

-- What is asked for goes with all that cascades from it, and nothing that stays
-- has a key on it that does not become null.
structure Cascade (rows : List Row) (hit : Row → Bool) (gone : List Id) : Prop where
  whole : ∀ row ∈ rows, hit row = true → row.id ∈ gone
  only : Justified rows hit [] gone
  left : ∀ row ∈ rows, row.id ∉ gone → ∀ ref ∈ row.content.refs, ref.target ∈ gone → ref.rule = .setNull

instance (rows : List Row) (hit : Row → Bool) (gone : List Id) : Decidable (Cascade rows hit gone) :=
  decidable_of_iff ((∀ row ∈ rows, hit row = true → row.id ∈ gone) ∧ Justified rows hit [] gone ∧
    ∀ row ∈ rows, row.id ∉ gone → ∀ ref ∈ row.content.refs, ref.target ∈ gone → ref.rule = .setNull)
    ⟨fun all => ⟨all.1,all.2.1,all.2.2⟩,fun all => ⟨all.whole,all.only,all.left⟩⟩

def release (gone : List Id) (row : Row) : Row :=
  {row with content := {row.content with refs := row.content.refs.filter (fun ref => ref.target ∉ gone)}}

def System.erase (s : System) (hit : Row → Bool) (gone : List Id) : Option System :=
  if Cascade s.rows hit gone then some {s with rows := (s.rows.filter (fun row => row.id ∉ gone)).map (release gone)} else none

-- A relationship is loaded from a row the session has, and a row is written by its
-- key once it is loaded: neither gets the condition.
def System.act (s : System) : Nat × Statement → Option System
  | (n,.select table wanted everywhere) => some (s.answer n (s.rows.filter (chosen (session n) everywhere table wanted)))
  | (n,.follow ref) =>
    if ∃ row ∈ s.loaded n, ref ∈ row.content.refs then some (s.answer n (s.rows.filter (fun row => row.id = ref.target))) else none
  | (n,.gather id table) =>
    if id ∈ (s.loaded n).map Row.id then
      some (s.answer n (s.rows.filter (fun row => row.id.1 = table ∧ id ∈ row.content.refs.map Ref.target)))
    else none
  | (n,.update table wanted change) => s.touch (chosen (session n) false table wanted) change
  | (n,.delete table wanted gone) => s.erase (chosen (session n) false table wanted) gone
  | (n,.add row) =>
    let filed := file optional (session n) row
    if filed.id ∉ s.used.map Prod.fst ∧ ∀ ref ∈ filed.content.refs, s.stored ref.target then
      some ({s with rows := s.rows ++ [filed],used := s.used ++ [(filed.id,filed.organization)]}.answer n [filed])
    else none
  | (n,.write id change) =>
    if id ∈ (s.loaded n).map Row.id then
      (s.touch (fun row => row.id = id) change).map (fun next => next.answer n (next.rows.filter (fun row => row.id = id)))
    else none
  | (n,.remove id gone) => if id ∈ (s.loaded n).map Row.id then s.erase (fun row => row.id = id) gone else none

-- What the code of a session keeps to: a caller's session refers to what it has
-- loaded, or to what that refers to, and files under its own organization; a job's
-- refers to rows of the organization it files under.
def System.known (s : System) (n : Nat) (organization : Option String) (ref : Ref) : Prop :=
  match session n with
  | some _ => ref.target ∈ (s.loaded n).map Row.id ∨ ∃ row ∈ s.loaded n, ref.target ∈ row.content.refs.map Ref.target
  | none => (ref.target,organization) ∈ s.used

instance (s : System) (n : Nat) (organization : Option String) (ref : Ref) : Decidable (s.known session n organization ref) := by
  unfold System.known
  split <;> infer_instance

def System.Refers (s : System) (n : Nat) (hit : Row → Bool) (change : Content → Content) : Prop :=
  ∀ row ∈ s.rows, hit row = true → ∀ ref ∈ (change row.content).refs, ref ∈ row.content.refs ∨ s.known session n row.organization ref

instance (s : System) (n : Nat) (hit : Row → Bool) (change : Content → Content) : Decidable (s.Refers session n hit change) :=
  inferInstanceAs (Decidable (∀ row ∈ s.rows, _))

def System.Careful (s : System) : Nat × Statement → Prop
  | (n,.select _ _ everywhere) => session n ≠ none → everywhere = false
  | (n,.update table wanted change) => s.Refers session n (chosen (session n) false table wanted) change
  | (n,.write id change) => s.Refers session n (fun row => row.id = id) change
  | (n,.add row) => (session n ≠ none → (file optional (session n) row).organization = session n) ∧
    ∀ ref ∈ row.content.refs, s.known session n (file optional (session n) row).organization ref
  | _ => True

instance (s : System) (event : Nat × Statement) : Decidable (s.Careful session optional event) := by
  unfold System.Careful
  split <;> infer_instance

def System.empty : System := ⟨[],[],[]⟩

-- What one organization has of the deployment.
def System.view (organization : String) (s : System) : System where
  rows := s.rows.filter (fun row => row.organization = some organization)
  used := s.used.filter (fun key => key.2 = some organization)
  answers := s.answers.filter (fun answer => session answer.1 = some organization)

-- Rows refer to rows of their own organization, and a caller's session has been
-- handed its own organization's only.
structure Apart (s : System) : Prop where
  keys : (s.used.map Prod.fst).Nodup
  rows : ∀ row ∈ s.rows, (row.id,row.organization) ∈ s.used
  refs : ∀ row ∈ s.rows, ∀ ref ∈ row.content.refs, s.stored ref.target ∧ (ref.target,row.organization) ∈ s.used
  answers : ∀ answer ∈ s.answers, ∀ row ∈ answer.2, (row.id,row.organization) ∈ s.used ∧
    ∀ ref ∈ row.content.refs, (ref.target,row.organization) ∈ s.used
  confined : ∀ answer ∈ s.answers, session answer.1 ≠ none → ∀ row ∈ answer.2, row.organization = session answer.1

variable {session : Nat → Option String} {optional : String → Bool} {s next : System} {n : Nat} {organization : Option String} {id : Id}
  {hit : Row → Bool} {change : Content → Content} {gone : List Id} {row : Row}

theorem empty_apart : Apart session .empty := ⟨.nil,nofun,nofun,nofun,nofun⟩

-- A key is in one organization.
theorem Apart.same {one other : Option String} (apart : Apart session s) (here : (id,one) ∈ s.used) (there : (id,other) ∈ s.used) : one = other :=
  congrArg Prod.snd (List.inj_on_of_nodup_map apart.keys here there rfl)

theorem loaded_parts (member : row ∈ s.loaded n) : ∃ answer ∈ s.answers, answer.1 = n ∧ row ∈ answer.2 := by
  obtain ⟨answer,there,here⟩ := List.mem_flatMap.mp member
  obtain ⟨listed,from_⟩ := List.mem_filter.mp there
  exact ⟨answer,listed,of_decide_eq_true from_,here⟩

theorem Apart.loaded_own (apart : Apart session s) (caller : session n ≠ none) (member : id ∈ (s.loaded n).map Row.id) :
    (id,session n) ∈ s.used := by
  obtain ⟨row,loaded,rfl⟩ := List.mem_map.mp member
  obtain ⟨answer,listed,rfl,here⟩ := loaded_parts loaded
  rw [← apart.confined answer listed caller row here]
  exact (apart.answers answer listed row here).1

theorem Apart.loaded_refs (apart : Apart session s) (caller : session n ≠ none) (member : row ∈ s.loaded n)
    (part : id ∈ row.content.refs.map Ref.target) : (id,session n) ∈ s.used := by
  obtain ⟨answer,listed,rfl,here⟩ := loaded_parts member
  obtain ⟨ref,there,rfl⟩ := List.mem_map.mp part
  rw [← apart.confined answer listed caller row here]
  exact (apart.answers answer listed row here).2 ref there

theorem Apart.known {ref : Ref} (apart : Apart session s) (own : session n ≠ none → organization = session n)
    (known : s.known session n organization ref) : (ref.target,organization) ∈ s.used := by
  unfold System.known at known
  split at known
  · rename_i caller
    have signedIn : session n ≠ none := by simp [caller]
    rw [own signedIn]
    rcases known with loaded | ⟨row,loaded,part⟩
    · exact apart.loaded_own signedIn loaded
    · exact apart.loaded_refs signedIn loaded part
  · exact known

-- What a session changes or takes away is its own, if it is a caller's.
def Own (session : Nat → Option String) (s : System) (n : Nat) (hit : Row → Bool) : Prop :=
  session n ≠ none → ∀ row ∈ s.rows, hit row = true → row.organization = session n

theorem chosen_own (table : String) (wanted : Row → Bool) : Own session s n (chosen (session n) false table wanted) := by
  intro caller row _ hit
  obtain ⟨organization,here⟩ := Option.ne_none_iff_exists'.mp caller
  simp only [chosen,here,visible,Bool.and_eq_true,Bool.false_or,decide_eq_true_eq] at hit
  exact hit.2.trans here.symm

theorem Apart.key_own (apart : Apart session s) (member : id ∈ (s.loaded n).map Row.id) : Own session s n (fun row => row.id = id) := by
  intro caller row stored hit
  have same : row.id = id := by simpa using hit
  exact apart.same (same ▸ apart.rows row stored) (apart.loaded_own caller member)

theorem Apart.handed {rows : List Row} (apart : Apart session s) (stored : ∀ row ∈ rows, row ∈ s.rows)
    (own : session n ≠ none → ∀ row ∈ rows, row.organization = session n) : Apart session (s.answer n rows) := by
  refine {apart with answers := ?_,confined := ?_}
  · intro answer member row here
    rcases List.mem_append.mp member with old | new
    · exact apart.answers answer old row here
    · cases List.mem_singleton.mp new
      exact ⟨apart.rows row (stored row here),fun ref part => (apart.refs row (stored row here) ref part).2⟩
  · intro answer member caller row here
    rcases List.mem_append.mp member with old | new
    · exact apart.confined answer old caller row here
    · cases List.mem_singleton.mp new
      exact own caller row here

@[simp] theorem rewrite_id (hit : Row → Bool) (change : Content → Content) (row : Row) : (rewrite hit change row).id = row.id := by
  unfold rewrite
  split <;> rfl

@[simp] theorem rewrite_organization (hit : Row → Bool) (change : Content → Content) (row : Row) :
    (rewrite hit change row).organization = row.organization := by
  unfold rewrite
  split <;> rfl

theorem touch_parts (done : s.touch hit change = some next) : next = {s with rows := s.rows.map (rewrite hit change)} ∧
    ∀ row ∈ s.rows, hit row = true → ∀ ref ∈ (change row.content).refs, s.stored ref.target := by
  unfold System.touch at done
  split at done <;> cases done
  rename_i there
  exact ⟨rfl,there⟩

theorem rewritten_ids (rows : List Row) (hit : Row → Bool) (change : Content → Content) :
    (rows.map (rewrite hit change)).map Row.id = rows.map Row.id := by
  rw [List.map_map]
  exact List.map_congr_left (fun row _ => rewrite_id hit change row)

theorem Apart.touches (apart : Apart session s) (own : Own session s n hit) (refers : s.Refers session n hit change)
    (done : s.touch hit change = some next) : Apart session next := by
  obtain ⟨rfl,there⟩ := touch_parts done
  refine {apart with rows := ?_,refs := ?_}
  · intro row member
    obtain ⟨old,stored,rfl⟩ := List.mem_map.mp member
    simpa using apart.rows old stored
  · intro row member ref part
    obtain ⟨old,stored,rfl⟩ := List.mem_map.mp member
    simp only [System.stored,rewritten_ids,rewrite_organization]
    unfold rewrite at part
    split at part
    · rename_i hits
      refine ⟨there old stored hits ref part,?_⟩
      rcases refers old stored hits ref part with kept | known
      · exact (apart.refs old stored ref kept).2
      · exact apart.known (fun caller => own caller old stored hits) known
    · exact apart.refs old stored ref part

theorem erase_parts (done : s.erase hit gone = some next) :
    next = {s with rows := (s.rows.filter (fun row => row.id ∉ gone)).map (release gone)} ∧ Cascade s.rows hit gone := by
  unfold System.erase at done
  split at done <;> cases done
  rename_i cascade
  exact ⟨rfl,cascade⟩

theorem Apart.erases (apart : Apart session s) (done : s.erase hit gone = some next) : Apart session next := by
  obtain ⟨rfl,_⟩ := erase_parts done
  refine {apart with rows := ?_,refs := ?_}
  · intro row member
    obtain ⟨old,kept,rfl⟩ := List.mem_map.mp member
    exact apart.rows old (List.mem_filter.mp kept).1
  · intro row member ref part
    obtain ⟨old,kept,rfl⟩ := List.mem_map.mp member
    obtain ⟨part,stays⟩ := List.mem_filter.mp part
    obtain ⟨stored,used⟩ := apart.refs old (List.mem_filter.mp kept).1 ref part
    refine ⟨?_,used⟩
    obtain ⟨target,here,same⟩ := List.mem_map.mp stored
    have alive : target ∈ s.rows.filter (fun row => row.id ∉ gone) := List.mem_filter.mpr ⟨here,by rw [same]; exact stays⟩
    exact List.mem_map.mpr ⟨release gone target,List.mem_map_of_mem alive,same⟩

@[simp] theorem file_id (organization : Option String) (row : Row) : (file optional organization row).id = row.id := by
  unfold file
  split <;> rfl

@[simp] theorem file_content (organization : Option String) (row : Row) : (file optional organization row).content = row.content := by
  unfold file
  split <;> rfl

theorem Apart.adds {filed : Row} (apart : Apart session s) (fresh : filed.id ∉ s.used.map Prod.fst)
    (stored : ∀ ref ∈ filed.content.refs, s.stored ref.target) (own : session n ≠ none → filed.organization = session n)
    (known : ∀ ref ∈ filed.content.refs, s.known session n filed.organization ref) :
    Apart session ({s with rows := s.rows ++ [filed],used := s.used ++ [(filed.id,filed.organization)]}.answer n [filed]) := by
  have grows : ∀ {key}, key ∈ s.used → key ∈ s.used ++ [(filed.id,filed.organization)] := fun member => List.mem_append_left _ member
  have wider : Apart session {s with rows := s.rows ++ [filed],used := s.used ++ [(filed.id,filed.organization)]} := by
    refine ⟨?_,?_,?_,?_,apart.confined⟩
    · have other : ∀ key ∈ s.used, key.1 ≠ filed.id := fun key member same => fresh (same ▸ List.mem_map_of_mem member)
      simpa [List.nodup_append,apart.keys] using other
    · intro row member
      rcases List.mem_append.mp member with old | new
      · exact grows (apart.rows row old)
      · cases List.mem_singleton.mp new
        exact List.mem_append_right _ (List.mem_singleton_self _)
    · intro row member ref part
      have widens : s.stored ref.target → ref.target ∈ (s.rows ++ [filed]).map Row.id := by
        intro before
        rw [List.map_append]
        exact List.mem_append_left _ before
      rcases List.mem_append.mp member with old | new
      · obtain ⟨before,used⟩ := apart.refs row old ref part
        exact ⟨widens before,grows used⟩
      · cases List.mem_singleton.mp new
        exact ⟨widens (stored ref part),grows (apart.known own (known ref part))⟩
    · intro answer member row here
      obtain ⟨used,refs⟩ := apart.answers answer member row here
      exact ⟨grows used,fun ref part => grows (refs ref part)⟩
  refine wider.handed ?_ ?_
  · intro row member
    exact List.mem_append_right _ member
  · intro caller row member
    cases List.mem_singleton.mp member
    exact own caller

-- What a relationship leads to is in the organization of the row it starts from.
theorem Apart.follows {ref : Ref} (apart : Apart session s) (read : ∃ row ∈ s.loaded n, ref ∈ row.content.refs) (caller : session n ≠ none)
    (stored : row ∈ s.rows) (same : row.id = ref.target) : row.organization = session n := by
  obtain ⟨from_,loaded,part⟩ := read
  have used := apart.loaded_refs caller loaded (List.mem_map_of_mem part)
  exact apart.same (apart.rows row stored) (same ▸ used)

theorem Apart.gathers (apart : Apart session s) (read : id ∈ (s.loaded n).map Row.id) (caller : session n ≠ none) (stored : row ∈ s.rows)
    (part : id ∈ row.content.refs.map Ref.target) : row.organization = session n := by
  obtain ⟨ref,listed,same⟩ := List.mem_map.mp part
  exact apart.same (same ▸ (apart.refs row stored ref listed).2) (apart.loaded_own caller read)

theorem act_apart {event : Nat × Statement} (apart : Apart session s) (careful : s.Careful session optional event)
    (taken : s.act session optional event = some next) : Apart session next := by
  obtain ⟨n,statement⟩ := event
  cases statement with
  | select table wanted everywhere =>
    cases taken
    refine apart.handed (fun row member => (List.mem_filter.mp member).1) ?_
    intro caller row member
    obtain ⟨stored,wants⟩ := List.mem_filter.mp member
    rw [careful caller] at wants
    exact chosen_own table wanted caller row stored wants
  | follow ref =>
    simp only [System.act] at taken
    split at taken <;> cases taken
    rename_i read
    refine apart.handed (fun row member => (List.mem_filter.mp member).1) ?_
    intro caller row member
    obtain ⟨stored,same⟩ := List.mem_filter.mp member
    exact apart.follows read caller stored (of_decide_eq_true same)
  | gather id table =>
    simp only [System.act] at taken
    split at taken <;> cases taken
    rename_i read
    refine apart.handed (fun row member => (List.mem_filter.mp member).1) ?_
    intro caller row member
    obtain ⟨stored,part⟩ := List.mem_filter.mp member
    exact apart.gathers read caller stored (of_decide_eq_true part).2
  | update table wanted change => exact apart.touches (chosen_own table wanted) careful taken
  | delete table wanted gone => exact apart.erases taken
  | add row =>
    simp only [System.act] at taken
    split at taken <;> cases taken
    rename_i clear
    exact apart.adds clear.1 clear.2 careful.1 (by simpa using careful.2)
  | write id change =>
    simp only [System.act] at taken
    split at taken
    · rename_i read
      obtain ⟨wrote,done,rfl⟩ := Option.map_eq_some_iff.mp taken
      have whole := apart.touches (apart.key_own read) careful done
      refine whole.handed (fun row member => (List.mem_filter.mp member).1) ?_
      intro caller row member
      obtain ⟨stored,same⟩ := List.mem_filter.mp member
      obtain ⟨rfl,_⟩ := touch_parts done
      have equal : row.id = id := of_decide_eq_true same
      exact whole.same (equal ▸ whole.rows row stored) (apart.loaded_own caller read)
    · cases taken
  | remove id gone =>
    simp only [System.act] at taken
    split at taken
    · exact apart.erases taken
    · cases taken

-- Two callers and the nightly job, which copies a slot's organization onto its day.
def callers : Nat → Option String
  | 0 => some "default"
  | 1 => some "second"
  | _ => none

def audited (table : String) : Bool := table = "audit_records"

def slotOfDay : Ref := ⟨("structural_master_slots","1"),.setNull⟩

def nightly : List (Nat × Statement) :=
  [(1,.add ⟨("structural_master_slots","1"),none,⟨[],"Monday"⟩⟩),(2,.select "structural_master_slots" (fun _ => true) false),
    (2,.add ⟨("daily_ledger","1"),some "second",⟨[slotOfDay],"7 September"⟩⟩),(0,.select "daily_ledger" (fun _ => true) false),
    (1,.select "daily_ledger" (fun _ => true) false),(1,.follow slotOfDay)]

variable {o : String}

theorem view_answer_own (rows : List Row) (own : session n = some o) :
    (s.answer n rows).view session o = (s.view session o).answer n rows := by
  simp [System.view,System.answer,own]

theorem view_answer_other (rows : List Row) (other : session n ≠ some o) : (s.answer n rows).view session o = s.view session o := by
  simp [System.view,System.answer,other]

theorem loaded_view (own : session n = some o) : (s.view session o).loaded n = s.loaded n := by
  have same : ∀ answer : Nat × List Row, (decide (answer.1 = n) && decide (session answer.1 = some o)) = decide (answer.1 = n) := by
    intro answer
    by_cases here : answer.1 = n
    · simp [here,own]
    · simp [here]
  simp only [System.loaded,System.view,List.filter_filter,same]

theorem view_rewritten : ({s with rows := s.rows.map (rewrite hit change)} : System).view session o =
    {s.view session o with rows := (s.view session o).rows.map (rewrite hit change)} := by
  simp [System.view,List.filter_map,Function.comp_def]

theorem view_erased : ({s with rows := (s.rows.filter (fun row => row.id ∉ gone)).map (release gone)} : System).view session o =
    {s.view session o with rows := ((s.view session o).rows.filter (fun row => row.id ∉ gone)).map (release gone)} := by
  simp [System.view,List.filter_map,Function.comp_def,release,Bool.and_comm]

-- Everything that goes with a deletion is in one organization.
theorem Apart.gone_own (apart : Apart session s) (own : Own session s n hit) (caller : session n ≠ none) {earlier : List Id}
    (before : ∀ id ∈ earlier, (id,session n) ∈ s.used) (justified : Justified s.rows hit earlier gone) :
    ∀ id ∈ gone, (id,session n) ∈ s.used := by
  induction gone generalizing earlier with
  | nil => nofun
  | cons first rest ih =>
    obtain ⟨⟨row,stored,same,why⟩,later⟩ := justified
    have here : (first,session n) ∈ s.used := by
      have used := apart.rows row stored
      rcases why with hits | ⟨ref,part,_,gone⟩
      · rw [own caller row stored hits,same] at used
        exact used
      · have organization := apart.same (apart.refs row stored ref part).2 (before ref.target gone)
        rw [organization,same] at used
        exact used
    have longer : ∀ id ∈ earlier ++ [first], (id,session n) ∈ s.used := by
      intro id member
      rcases List.mem_append.mp member with old | new
      · exact before id old
      · exact List.mem_singleton.mp new ▸ here
    intro id member
    rcases List.mem_cons.mp member with rfl | tail
    · exact here
    · exact ih longer later id tail

theorem Apart.justified_view (apart : Apart session s) (own : session n = some o) {earlier : List Id}
    (mine : ∀ id ∈ gone, (id,session n) ∈ s.used) (justified : Justified s.rows hit earlier gone) : Justified (s.view session o).rows hit earlier gone := by
  induction gone generalizing earlier with
  | nil => trivial
  | cons first rest ih =>
    obtain ⟨⟨row,stored,same,why⟩,later⟩ := justified
    have organization := apart.same (apart.rows row stored) (same ▸ mine first (List.mem_cons_self ..))
    have seen : row ∈ (s.view session o).rows := List.mem_filter.mpr ⟨stored,by simp [organization,own]⟩
    exact ⟨⟨row,seen,same,why⟩,ih (fun id member => mine id (List.mem_cons_of_mem _ member)) later⟩

theorem Apart.seen (apart : Apart session s) (stored : s.stored id) (used : (id,some o) ∈ s.used) : (s.view session o).stored id := by
  obtain ⟨row,there,same⟩ := List.mem_map.mp stored
  have organization := apart.same (same ▸ apart.rows row there) used
  exact List.mem_map.mpr ⟨row,List.mem_filter.mpr ⟨there,by simp [organization]⟩,same⟩

theorem map_still {f : Row → Row} {rows : List Row} (still : ∀ row ∈ rows, f row = row) : rows.map f = rows :=
  (List.map_congr_left still).trans (List.map_id rows)

-- What one organization's session changes, another does not see.
theorem touch_other (own : Own session s n hit) (caller : session n ≠ none) (other : session n ≠ some o)
    (done : s.touch hit change = some next) : next.view session o = s.view session o := by
  obtain ⟨rfl,_⟩ := touch_parts done
  rw [view_rewritten,map_still]
  intro row member
  obtain ⟨stored,organization⟩ := List.mem_filter.mp member
  unfold rewrite
  split
  · rename_i hits
    exact absurd ((own caller row stored hits).symm.trans (of_decide_eq_true organization)) other
  · rfl

theorem Apart.erase_other (apart : Apart session s) (own : Own session s n hit) (caller : session n ≠ none) (other : session n ≠ some o)
    (done : s.erase hit gone = some next) : next.view session o = s.view session o := by
  obtain ⟨rfl,cascade⟩ := erase_parts done
  have mine := apart.gone_own own caller (fun _ first => absurd first List.not_mem_nil) cascade.only
  have elsewhere : ∀ id, (id,some o) ∈ s.used → id ∉ gone := fun id used there => other (apart.same (mine id there) used)
  have stays : ∀ row ∈ (s.view session o).rows, row.id ∉ gone ∧ ∀ ref ∈ row.content.refs, ref.target ∉ gone := by
    intro row member
    obtain ⟨stored,here⟩ := List.mem_filter.mp member
    have organization : row.organization = some o := of_decide_eq_true here
    exact ⟨elsewhere _ (organization ▸ apart.rows row stored),fun ref part => elsewhere _ (organization ▸ (apart.refs row stored ref part).2)⟩
  have kept : (s.view session o).rows.filter (fun row => row.id ∉ gone) = (s.view session o).rows :=
    List.filter_eq_self.mpr (fun row member => by simpa using (stays row member).1)
  have released : ∀ row ∈ (s.view session o).rows, release gone row = row := by
    intro row member
    have refs : row.content.refs.filter (fun ref => ref.target ∉ gone) = row.content.refs :=
      List.filter_eq_self.mpr (fun ref part => by simpa using (stays row member).2 ref part)
    simp only [release,refs]
  rw [view_erased,kept,map_still released]

theorem act_other {event : Nat × Statement} (apart : Apart session s) (careful : s.Careful session optional event)
    (caller : session event.1 ≠ none) (other : session event.1 ≠ some o) (taken : s.act session optional event = some next) :
    next.view session o = s.view session o := by
  obtain ⟨n,statement⟩ := event
  cases statement with
  | select table wanted everywhere =>
    cases taken
    exact view_answer_other _ other
  | follow | gather =>
    simp only [System.act] at taken
    split at taken <;> cases taken
    exact view_answer_other _ other
  | update table wanted change => exact touch_other (chosen_own table wanted) caller other taken
  | delete table wanted gone => exact apart.erase_other (chosen_own table wanted) caller other taken
  | add row =>
    simp only [System.act] at taken
    split at taken <;> cases taken
    have filed := careful.1 caller
    rw [view_answer_other _ other]
    simp [System.view,filed,other]
  | write id change =>
    simp only [System.act] at taken
    split at taken
    · rename_i read
      obtain ⟨wrote,done,rfl⟩ := Option.map_eq_some_iff.mp taken
      rw [view_answer_other _ other]
      exact touch_other (apart.key_own read) caller other done
    · cases taken
  | remove id gone =>
    simp only [System.act] at taken
    split at taken
    · rename_i read
      exact apart.erase_other (apart.key_own read) caller other taken
    · cases taken

-- A statement does to its organization's part what it does to the whole.
theorem touch_view (whole : Apart session next) (done : s.touch hit change = some next) :
    (s.view session o).touch hit change = some (next.view session o) := by
  obtain ⟨rfl,there⟩ := touch_parts done
  have stored : ∀ row ∈ (s.view session o).rows, hit row = true →
      ∀ ref ∈ (change row.content).refs, (s.view session o).stored ref.target := by
    intro row member hits ref part
    obtain ⟨stored,organization⟩ := List.mem_filter.mp member
    have refs := (whole.refs _ (List.mem_map_of_mem stored) ref (by simpa [rewrite,hits] using part)).2
    rw [rewrite_organization,of_decide_eq_true organization] at refs
    have after := whole.seen (by simpa only [System.stored,rewritten_ids] using there row stored hits ref part) refs
    simpa only [view_rewritten,System.stored,rewritten_ids] using after
  rw [view_rewritten]
  exact if_pos stored

theorem Apart.erase_view (apart : Apart session s) (hits : Own session s n hit) (own : session n = some o)
    (done : s.erase hit gone = some next) : (s.view session o).erase hit gone = some (next.view session o) := by
  obtain ⟨rfl,cascade⟩ := erase_parts done
  have mine := apart.gone_own hits (by simp [own]) (fun _ first => absurd first List.not_mem_nil) cascade.only
  have within : Cascade (s.view session o).rows hit gone :=
    ⟨fun row member => cascade.whole row (List.mem_filter.mp member).1,apart.justified_view own mine cascade.only,
      fun row member => cascade.left row (List.mem_filter.mp member).1⟩
  rw [view_erased]
  exact if_pos within

-- Where all the rows a condition takes are the organization's, it takes the same
-- from its part.
theorem chosen_view {wanted : Row → Bool} (mine : ∀ row ∈ s.rows, wanted row = true → row.organization = some o) :
    (s.view session o).rows.filter wanted = s.rows.filter wanted := by
  simp only [System.view,List.filter_filter]
  refine List.filter_congr (fun row member => ?_)
  by_cases wants : wanted row = true
  · simp [wants,mine row member wants]
  · simp [wants]

theorem act_own {event : Nat × Statement} (apart : Apart session s) (careful : s.Careful session optional event)
    (own : session event.1 = some o) (taken : s.act session optional event = some next) :
    (s.view session o).act session optional event = some (next.view session o) := by
  have whole := act_apart apart careful taken
  obtain ⟨n,statement⟩ := event
  have caller : session n ≠ none := by simp [own]
  cases statement with
  | select table wanted everywhere =>
    cases taken
    rw [view_answer_own _ own,System.act,chosen_view]
    intro row stored wants
    rw [careful caller] at wants
    exact (chosen_own table wanted caller row stored wants).trans own
  | follow ref =>
    simp only [System.act,loaded_view own] at taken ⊢
    split at taken <;> cases taken
    rename_i read
    rw [if_pos read,view_answer_own _ own,chosen_view]
    exact fun row stored same => (apart.follows read caller stored (of_decide_eq_true same)).trans own
  | gather id table =>
    simp only [System.act,loaded_view own] at taken ⊢
    split at taken <;> cases taken
    rename_i read
    rw [if_pos read,view_answer_own _ own,chosen_view]
    exact fun row stored part => (apart.gathers read caller stored (of_decide_eq_true part).2).trans own
  | update table wanted change => exact touch_view whole taken
  | delete table wanted gone => exact apart.erase_view (chosen_own table wanted) own taken
  | add row =>
    simp only [System.act] at taken ⊢
    split at taken <;> cases taken
    rename_i clear
    have filed : (file optional (session n) row).organization = some o := (careful.1 caller).trans own
    have fresh : (file optional (session n) row).id ∉ (s.view session o).used.map Prod.fst := by
      intro used
      obtain ⟨key,member,same⟩ := List.mem_map.mp used
      exact clear.1 (same ▸ List.mem_map_of_mem (List.mem_filter.mp member).1)
    have stored : ∀ ref ∈ (file optional (session n) row).content.refs, (s.view session o).stored ref.target := by
      intro ref part
      have known := apart.known (fun _ => careful.1 caller) (careful.2 ref (by simpa using part))
      exact apart.seen (clear.2 ref part) (filed ▸ known)
    rw [if_pos ⟨fresh,stored⟩,view_answer_own _ own]
    simp [System.view,filed]
  | write id change =>
    simp only [System.act,loaded_view own] at taken ⊢
    split at taken
    · rename_i read
      obtain ⟨wrote,done,rfl⟩ := Option.map_eq_some_iff.mp taken
      have written := apart.touches (apart.key_own read) careful done
      rw [if_pos read,touch_view written done,Option.map_some,view_answer_own _ own,chosen_view]
      intro row stored same
      have equal : row.id = id := of_decide_eq_true same
      obtain ⟨rfl,_⟩ := touch_parts done
      exact written.same (equal ▸ written.rows row stored) (own ▸ apart.loaded_own caller read)
    · cases taken
  | remove id gone =>
    simp only [System.act,loaded_view own] at taken ⊢
    split at taken
    · rename_i read
      rw [if_pos read]
      exact apart.erase_view (apart.key_own read) own taken
    · cases taken

-- Callers' sessions only, each of which keeps to the rules.
def Callers (session : Nat → Option String) (optional : String → Bool) (s : System) (event : Nat × Statement) : Prop :=
  session event.1 ≠ none ∧ s.Careful session optional event

instance (s : System) (event : Nat × Statement) : Decidable (Callers session optional s event) := inferInstanceAs (Decidable (_ ∧ _))

theorem separates (session : Nat → Option String) (optional : String → Bool) (o : String) :
    Purging.Separates (System.act session optional) (Callers session optional) (Apart session)
    (fun event => session event.1 = some o) (System.view session o) where
  keeps := fun _ _ _ apart careful taken => act_apart apart careful.2 taken
  others := fun _ _ _ apart careful other taken => act_other apart careful.2 careful.1 other taken
  own := fun _ _ _ apart careful own taken => act_own apart careful.2 own taken

-- Both have a room 101. One is booked and goes with its booking; the other is
-- renamed and read, and what its organization saw is what it sees alone.
def roomOf (key : String) : Row := ⟨("resources",key),none,⟨[],"101"⟩⟩

def twoRooms : List (Nat × Statement) :=
  [(0,.add (roomOf "1")),(1,.add (roomOf "2")),(0,.add ⟨("reservations","1"),none,⟨[⟨("resources","1"),.cascade⟩],"Review"⟩⟩),
    (1,.update "resources" (fun _ => true) (fun content => {content with data := "Mine now"})),
    (0,.delete "resources" (fun _ => true) [("resources","1"),("reservations","1")]),(1,.select "resources" (fun _ => true) false)]

end ChronosLedger.Organizations
