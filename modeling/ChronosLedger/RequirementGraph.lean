import ChronosLedger.Library.Runs
import ChronosLedger.Library.Worklist
import ChronosLedger.Records

namespace ChronosLedger.RequirementRules
open Relation

structure ResourceClass where
  code : String
  active : Bool
  deriving DecidableEq, Repr

-- Exactly one target, and the bounds of the schema.
structure RequirementCreate where
  target : RequirementTarget
  quantity : Nat
  beforeMinutes : Nat
  afterMinutes : Nat
  enforcement : Option RequirementEnforcement
  units : 1 ≤ quantity ∧ quantity ≤ 1000
  padding : beforeMinutes ≤ 1440 ∧ afterMinutes ≤ 1440
  deriving DecidableEq, Repr

inductive RequirementError where
  | unknownResourceClass (code : String)
  | targetMissing
  | needsPool
  | cycle
  | alreadyExists
  | notFound
  deriving DecidableEq, Repr

def RequirementError.statusCode : RequirementError → Nat
  | .alreadyExists => 409
  | .notFound => 404
  | _ => 422

def RequirementError.detail : RequirementError → String
  | .unknownResourceClass code => s!"{code} is not an active resource class of this organization"
  | .targetMissing => "the target resource does not exist in this organization"
  | .needsPool => "a quantity above 1 on a named resource needs it to be POOLED"
  | .cycle => "that requirement would make a resource need itself, through a cycle"
  | .alreadyExists => "that owner already requires that target"
  | .notFound => "Requirement not found"

-- The table, with what a requirement may name. The next id is the sequence's.
structure RequirementTable where
  classes : List ResourceClass
  resources : List Resource
  rows : List ResourceRequirement
  nextId : Nat
  deriving DecidableEq, Repr

def namedTarget (here : Nat) (row : ResourceRequirement) : Option Nat :=
  match row.target with
  | .named resourceId => if row.ownerKind = .resource ∧ row.ownerId = here then some resourceId else none
  | .kind _ => none

-- The rows of one owner in table order; the last of them is popped first.
def namedTargets (rows : List ResourceRequirement) (here : Nat) : List Nat := (rows.filterMap (namedTarget here)).reverse

-- Whether saving owner -> target would close a loop of named resources. The
-- loop goes round once for the target and once for each requirement at most.
def wouldCycle (rows : List ResourceRequirement) (ownerResourceId targetResourceId : Nat) : Option Bool :=
  Worklist.search (namedTargets rows) ownerResourceId (rows.length+2) [] [targetResourceId]

def requireActiveClass (t : RequirementTable) (code : String) : Except RequirementError Unit :=
  if t.classes.any (fun one => one.code = code && one.active) then .ok () else .error (.unknownResourceClass code)

def checkTarget (t : RequirementTable) (ownerKind : RequirementOwner) (ownerId : Nat) (payload : RequirementCreate) : Except RequirementError Unit :=
  match payload.target with
  | .kind code => requireActiveClass t code
  | .named resourceId =>
    match t.resources.find? (fun resource => resource.id = resourceId) with
    | none => .error .targetMissing
    | some target =>
      if 1 < payload.quantity ∧ target.mode ≠ .pooled then .error .needsPool
      else if ownerKind = .resource ∧ wouldCycle t.rows ownerId target.id = some true then .error .cycle
      else .ok ()

def requirementRow (id : Nat) (ownerKind : RequirementOwner) (ownerId : Nat) (payload : RequirementCreate) : ResourceRequirement :=
  ⟨id,ownerKind,ownerId,payload.target,payload.quantity,payload.beforeMinutes,payload.afterMinutes,payload.enforcement,payload.units.1⟩

def addRequirement (t : RequirementTable) (ownerKind : RequirementOwner) (ownerId : Nat) (payload : RequirementCreate) :
    Except RequirementError RequirementTable :=
  match checkTarget t ownerKind ownerId payload with
  | .error error => .error error
  | .ok _ =>
    if t.rows.any (fun row => row.ownerKind = ownerKind && row.ownerId = ownerId && row.target = payload.target) then .error .alreadyExists
    else .ok {t with rows := t.rows ++ [requirementRow t.nextId ownerKind ownerId payload],nextId := t.nextId+1}

def deleteRequirement (t : RequirementTable) (ownerKind : RequirementOwner) (ownerId requirementId : Nat) : Except RequirementError RequirementTable :=
  if t.rows.any (fun row => row.id = requirementId && row.ownerKind = ownerKind && row.ownerId = ownerId) then
    .ok {t with rows := t.rows.filter (fun row => row.id ≠ requirementId)}
  else .error .notFound

inductive Operation where
  | add (ownerKind : RequirementOwner) (ownerId : Nat) (payload : RequirementCreate)
  | delete (ownerKind : RequirementOwner) (ownerId requirementId : Nat)
  deriving DecidableEq, Repr

def perform (t : RequirementTable) : Operation → Except RequirementError RequirementTable
  | .add ownerKind ownerId payload => addRequirement t ownerKind ownerId payload
  | .delete ownerKind ownerId requirementId => deleteRequirement t ownerKind ownerId requirementId

-- A refused call is rolled back.
def step (t : RequirementTable) (op : Operation) : RequirementTable :=
  match perform t op with
  | .ok next => next
  | .error _ => t

-- A resource and one it names.
def Needs (rows : List ResourceRequirement) (owner target : Nat) : Prop :=
  ∃ row ∈ rows, row.ownerKind = .resource ∧ row.ownerId = owner ∧ row.target = .named target

variable {rows : List ResourceRequirement} {t next : RequirementTable} {owner target : Nat}

theorem namedTarget_exact {row : ResourceRequirement} : namedTarget owner row = some target ↔
    row.ownerKind = .resource ∧ row.ownerId = owner ∧ row.target = .named target := by
  unfold namedTarget
  cases named : row.target with
  | named resourceId =>
    simp only [Option.ite_none_right_eq_some,Option.some.injEq,RequirementTarget.named.injEq,and_assoc]
  | kind code => simp

theorem leads_exact : Worklist.Leads (namedTargets rows) owner target ↔ Needs rows owner target := by
  unfold Worklist.Leads namedTargets Needs
  simp only [List.mem_reverse,List.mem_filterMap,namedTarget_exact]

theorem reaches_exact : ReflTransGen (Worklist.Leads (namedTargets rows)) owner target ↔ ReflTransGen (Needs rows) owner target := by
  have same : Worklist.Leads (namedTargets rows) = Needs rows := by
    funext one two
    exact propext leads_exact
  rw [same]

-- The edges, one for each requirement that has one.
def edgeOf (row : ResourceRequirement) : Option (Nat × Nat) :=
  match row.target with
  | .named resourceId => if row.ownerKind = .resource then some (row.ownerId,resourceId) else none
  | .kind _ => none

theorem namedTargets_length (rows : List ResourceRequirement) (here : Nat) :
    (namedTargets rows here).length ≤ ((rows.filterMap edgeOf).filter (fun edge => edge.1 = here)).length := by
  unfold namedTargets
  rw [List.length_reverse]
  induction rows with
  | nil => simp
  | cons row rest ih =>
    cases found_ : namedTarget here row with
    | none =>
      rw [List.filterMap_cons_none found_]
      cases edge : edgeOf row with
      | none =>
        rw [List.filterMap_cons_none edge]
        exact ih
      | some pair =>
        rw [List.filterMap_cons_some edge,List.filter_cons]
        split
        · rw [List.length_cons]
          omega
        · exact ih
    | some targetId =>
      obtain ⟨kind,own,named⟩ := namedTarget_exact.mp found_
      have edge : edgeOf row = some (here,targetId) := by simp [edgeOf,named,kind,own]
      rw [List.filterMap_cons_some found_,List.filterMap_cons_some edge,List.filter_cons,if_pos (by simp)]
      simp only [List.length_cons]
      omega

theorem wouldCycle_ends (rows : List ResourceRequirement) (owner target : Nat) : ∃ found, wouldCycle rows owner target = some found := by
  apply Worklist.search_ends (namedTargets_length rows)
  have few : ((rows.filterMap edgeOf).filter (fun edge => edge.1 ∉ ([] : List Nat))).length ≤ rows.length :=
    (List.length_filter_le _ _).trans (List.length_filterMap_le _ _)
  rw [List.length_singleton]
  omega

theorem wouldCycle_exact {found : Bool} (done : wouldCycle rows owner target = some found) :
    found = true ↔ ReflTransGen (Needs rows) target owner := by
  have exact_ := Worklist.search_exact (fun _ inside => absurd inside List.not_mem_nil) List.not_mem_nil done
  simp only [List.mem_singleton,exists_eq_left] at exact_
  exact exact_.trans reaches_exact

theorem wouldCycle_true : wouldCycle rows owner target = some true ↔ ReflTransGen (Needs rows) target owner := by
  obtain ⟨found,done⟩ := wouldCycle_ends rows owner target
  rw [← wouldCycle_exact done,done,Option.some.injEq]

-- A requirement of an activity, or of any resource of a kind.
def Aside (row : ResourceRequirement) : Prop := row.ownerKind ≠ .resource ∨ ∃ code, row.target = .kind code

theorem needs_aside {row : ResourceRequirement} {before after : List ResourceRequirement} (aside : Aside row) :
    Needs (before ++ row :: after) = Needs (before ++ after) := by
  funext one two
  apply propext
  unfold Needs
  constructor
  · intro ⟨other,listed,kind,own,named⟩
    rcases List.mem_append.mp listed with early | late
    · exact ⟨other,List.mem_append_left _ early,kind,own,named⟩
    · rcases List.mem_cons.mp late with rfl | later
      · rcases aside with activity | ⟨code,other_⟩
        · exact absurd kind activity
        · rw [named] at other_
          cases other_
      · exact ⟨other,List.mem_append_right _ later,kind,own,named⟩
  · intro ⟨other,listed,kind,own,named⟩
    rcases List.mem_append.mp listed with early | late
    · exact ⟨other,List.mem_append_left _ early,kind,own,named⟩
    · exact ⟨other,List.mem_append_right _ (List.mem_cons_of_mem _ late),kind,own,named⟩

theorem wouldCycle_aside {row : ResourceRequirement} {before after : List ResourceRequirement} (aside : Aside row) (owner target : Nat) :
    wouldCycle (before ++ row :: after) owner target = wouldCycle (before ++ after) owner target := by
  obtain ⟨one,done⟩ := wouldCycle_ends (before ++ row :: after) owner target
  obtain ⟨two,done'⟩ := wouldCycle_ends (before ++ after) owner target
  have exact_ := wouldCycle_exact done
  rw [needs_aside aside,← wouldCycle_exact done'] at exact_
  rw [done,done',Bool.eq_iff_iff.mpr exact_]

-- What an accepted call may add to the graph.
theorem addRequirement_parts {ownerKind : RequirementOwner} {ownerId : Nat} {payload : RequirementCreate}
    (accepted : addRequirement t ownerKind ownerId payload = .ok next) : next.rows = t.rows ++ [requirementRow t.nextId ownerKind ownerId payload] ∧
      ∀ resourceId, ownerKind = .resource → payload.target = .named resourceId → ¬ ReflTransGen (Needs t.rows) resourceId ownerId := by
  unfold addRequirement at accepted
  cases checked : checkTarget t ownerKind ownerId payload with
  | error error => simp [checked] at accepted
  | ok done =>
    simp only [checked] at accepted
    split at accepted
    · cases accepted
    · cases accepted
      refine ⟨rfl,?_⟩
      intro resourceId kind named around
      unfold checkTarget at checked
      rw [named] at checked
      cases known : t.resources.find? (fun resource => resource.id = resourceId) with
      | none => simp [known] at checked
      | some resource =>
        have same : resource.id = resourceId := by simpa using List.find?_some known
        simp only [known] at checked
        split at checked
        · cases checked
        · rw [same,if_pos ⟨kind,wouldCycle_true.mpr around⟩] at checked
          cases checked

theorem acyclic_step (acyclic : Worklist.Acyclic (Needs t.rows)) (op : Operation) : Worklist.Acyclic (Needs (step t op).rows) := by
  unfold step
  cases accepted : perform t op with
  | error error => exact acyclic
  | ok next =>
    cases op with
    | add ownerKind ownerId payload =>
      obtain ⟨rows,apart⟩ := addRequirement_parts accepted
      dsimp only
      rw [rows]
      by_cases aside : Aside (requirementRow t.nextId ownerKind ownerId payload)
      · have same := @needs_aside _ t.rows [] aside
        rw [same,List.append_nil]
        exact acyclic
      · obtain ⟨kind,named⟩ : ownerKind = .resource ∧ ∃ resourceId, payload.target = .named resourceId := by
          constructor
          · exact by_contra (fun activity => aside (.inl activity))
          · cases target : payload.target with
            | named resourceId => exact ⟨resourceId,rfl⟩
            | kind code => exact absurd (.inr ⟨code,target⟩) aside
        obtain ⟨resourceId,named⟩ := named
        apply Worklist.Acyclic.mono ((Worklist.acyclic_withEdge acyclic).mpr (apart resourceId kind named))
        intro one two ⟨row,listed,kind',own,named'⟩
        rcases List.mem_append.mp listed with old | new
        · exact .inl ⟨row,old,kind',own,named'⟩
        · cases List.mem_singleton.mp new
          cases named.symm.trans named'
          exact .inr ⟨own.symm,rfl⟩
    | delete ownerKind ownerId requirementId =>
      simp only [perform,deleteRequirement] at accepted
      split at accepted
      · cases accepted
        apply acyclic.mono
        intro one two ⟨row,listed,rest⟩
        exact ⟨row,List.mem_of_mem_filter listed,rest⟩
      · cases accepted

abbrev Steps (t : RequirementTable) (op : Operation) (next : RequirementTable) : Prop := step t op = next

-- On every graph the search ends and says whether the owner can be reached from
-- the target, whatever is required of activities and of kinds; and from an empty
-- table no run of calls ever closes a loop.
theorem named_requirements_acyclic (rows : List ResourceRequirement) (owner target : Nat) (classes : List ResourceClass)
    (resources : List Resource) (nextId : Nat) :
    (∃ found, wouldCycle rows owner target = some found ∧ (found = true ↔ ReflTransGen (Needs rows) target owner)) ∧
    (∀ before row after, rows = before ++ row :: after → Aside row → wouldCycle rows owner target = wouldCycle (before ++ after) owner target) ∧
    ∀ t, Runs.Reached Steps ⟨classes,resources,[],nextId⟩ t → Worklist.Acyclic (Needs t.rows) := by
  refine ⟨?_,?_,?_⟩
  · obtain ⟨found,done⟩ := wouldCycle_ends rows owner target
    exact ⟨found,done,wouldCycle_exact done⟩
  · intro before row after same aside
    rw [same]
    exact wouldCycle_aside aside owner target
  · intro t path
    apply path.invariant (fun t => Worklist.Acyclic (Needs t.rows))
    · apply Worklist.acyclic_of_none
      intro one two ⟨row,listed,_⟩
      exact absurd listed List.not_mem_nil
    · intro t op next acyclic taken
      rw [← taken]
      exact acyclic_step acyclic op

def room (id : Nat) : Resource := ⟨id,"R",roomClass,none,none,.exclusive,true,exclusive_bare⟩

def naming (resourceId : Nat) : RequirementCreate := ⟨.named resourceId,1,0,0,none,by decide,by decide⟩

def threeRooms : RequirementTable := ⟨[],[room 1,room 2,room 3],[],1⟩

-- The third requirement would close the loop, and is not saved.
theorem closing_requirement_refused : Worklist.Acyclic (Needs (step (step (step threeRooms (.add .resource 1 (naming 2)))
      (.add .resource 2 (naming 3))) (.add .resource 3 (naming 1))).rows) ∧
    (step (step (step threeRooms (.add .resource 1 (naming 2))) (.add .resource 2 (naming 3))) (.add .resource 3 (naming 1))).rows.length = 2 :=
  ⟨(named_requirements_acyclic [] 1 1 [] [room 1,room 2,room 3] 1).2.2 _ (.step (.step (.step .start rfl) rfl) rfl),by decide⟩

end ChronosLedger.RequirementRules
