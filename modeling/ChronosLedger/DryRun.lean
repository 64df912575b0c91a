import Mathlib
import ChronosLedger.RequirementWalk
import ChronosLedger.Library.Forecast

namespace ChronosLedger
open Spans

variable {cal : Recurrence} {sha256 : String → String}

-- An entry a booking lives with: no refusal is made of it.
def Amenable (unmet : List UnmetRequirement) : Prop := ∀ entry ∈ unmet, entry.enforcement = .advisory ∧ entry.message ≠ crossesMidnight

instance : DecidablePred Amenable := fun unmet => by unfold Amenable; infer_instance

-- Nobody holds anything under the key the numbered child would have.
def KeyFree (sha256 : String → String) (parent : Reservation) (db : Database) (number : Nat) : Prop :=
  ∀ other ∈ db.reservations ++ [parent], other.requestedById = parent.requestedById →
    other.idempotencyKey ≠ childKey sha256 parent.idempotencyKey number

instance (parent : Reservation) (db : Database) : DecidablePred (KeyFree sha256 parent db) := fun number => by
  unfold KeyFree; infer_instance

def holdingOf (row : Reservation) : Holding := ⟨row.resourceId,⟨row.reservedDate,row.timeWindowStart,row.timeWindowEnd⟩,row.quantity⟩

-- Where a dry run stands and where the booking's own run stands next to it: as
-- far, with the booking and its children in the table.
structure Mirrors (sha256 : String → String) (parent : Reservation) (dry real : Run) : Prop where
  same : real = {dry with db := {dry.db with reservations := dry.db.reservations ++ parent :: real.children},children := real.children}
  children : real.children.map holdingOf = dry.took
  used : ∀ row ∈ parent :: real.children, row.resourceId ∈ dry.used
  keys : real.children.map (fun row => (row.requestedById,row.idempotencyKey)) =
    (List.range real.children.length).map (fun number => (parent.requestedById,childKey sha256 parent.idempotencyKey (number+1)))

def walkForecast (sha256 : String → String) (parent : Reservation) : Forecast Run Run where
  grows before after := after.db = before.db ∧ before.unmet <+: after.unmet ∧ before.took <+: after.took ∧
    (before.assigned = [] → after.assigned = [])
  plain run := run.assigned = []
  sound run := Amenable run.unmet ∧ ∀ number < run.took.length, KeyFree sha256 parent run.db (number+1)
  mirrors := Mirrors sha256 parent
  same _ := ⟨rfl,List.prefix_rfl,List.prefix_rfl,id⟩
  compose one two := ⟨two.1.trans one.1,one.2.1.trans two.2.1,one.2.2.1.trans two.2.2.1,two.2.2.2 ∘ one.2.2.2⟩
  stays grown := grown.2.2.2
  earlier grown sound := ⟨fun entry member => sound.1 entry (grown.2.1.subset member),
    fun number below => grown.1 ▸ sound.2 number (lt_of_lt_of_le below grown.2.2.1.length_le)⟩

theorem heldReservations_apart {db : Database} {extra : List Reservation} {resourceId : Nat} {fromDate toDate : Int}
    (apart : ∀ row ∈ extra, row.resourceId ≠ resourceId) :
    heldReservations {db with reservations := db.reservations ++ extra} resourceId fromDate toDate =
      heldReservations db resourceId fromDate toDate := by
  have none : extra.filter (fun held => held.resourceId = resourceId ∧ held.status = .held ∧
      fromDate-1 ≤ held.reservedDate ∧ held.reservedDate ≤ toDate) = [] := by
    refine List.filter_eq_nil_iff.mpr (fun row member => ?_)
    simp [apart row member]
  unfold heldReservations
  rw [List.filter_append,none,List.append_nil]

-- What a booking has put on the rooms it uses changes nothing for the others.
theorem problem_apart {db : Database} {extra : List Reservation} {resource : Resource} {window : Window} {quantity : Nat}
    (apart : ∀ row ∈ extra, row.resourceId ≠ resource.id) :
    problem cal {db with reservations := db.reservations ++ extra} resource window quantity = problem cal db resource window quantity := by
  unfold problem windowConflicts poolState
  simp only [heldReservations_apart apart]
  rfl

theorem Mirrors.problem {parent : Reservation} {dry real : Run} (mirrors : Mirrors sha256 parent dry real) {resource : Resource}
    (unused : resource.id ∉ dry.used) (window : Window) (quantity : Nat) :
    problem cal real.db resource window quantity = problem cal dry.db resource window quantity := by
  rw [mirrors.same]
  exact problem_apart (fun row member used => unused (used ▸ mirrors.used row member))

theorem childKey_injective (key : String) {one two : Nat} (same : childKey sha256 key one = childKey sha256 key two) : one = two :=
  Nat.repr_inj.mp ((String.append_right_inj _).mp same)

section
variable (requesterId : Option String) (default : RequirementEnforcement) (named : List Nat) (parent : Reservation)

def dryWalker : Walker := ⟨default,none,requesterId,named⟩
def realWalker : Walker := ⟨default,some parent,parent.requestedById,named⟩

theorem miss_tells (s : Run) (row : ResourceRequirement) (found : Problem) (missing : Nat) (message : found.1 ≠ crossesMidnight) :
    (walkForecast sha256 parent).Tells s (miss (dryWalker requesterId default named) s row found missing)
      (fun t => miss (realWalker default named parent) t row found missing) := by
  intro _
  refine ⟨{s with unmet := s.unmet ++ [gap (dryWalker requesterId default named) row found missing]},?_,
    ⟨rfl,List.prefix_append ..,List.prefix_rfl,id⟩,?_⟩
  · unfold miss dryWalker
    simp
  · rintro t sound mirrors
    unfold miss
    dsimp only
    cases enforced : enforcementOf (realWalker default named parent) row with
    | required =>
      rw [if_pos ⟨rfl,rfl⟩]
      refine ⟨fun still => ?_,fun _ => ⟨_,rfl⟩⟩
      have entry := still.1 (gap (dryWalker requesterId default named) row found missing) (List.mem_append_right _ (List.mem_singleton_self _))
      exact absurd (enforced.symm.trans entry.1) (by decide)
    | advisory =>
      rw [if_neg (by simp)]
      refine ⟨fun _ => ⟨_,rfl,?_⟩,fun stopped => absurd ⟨?_,sound.2⟩ stopped⟩
      · have same := mirrors.same
        exact {mirrors with same := by rw [same]; rfl}
      · intro entry member
        rcases List.mem_append.mp member with old | new
        · exact sound.1 entry old
        · rw [List.mem_singleton.mp new]
          exact ⟨enforced,message⟩

-- The row of the numbered child goes in exactly when its key is free.
theorem child_free {dry real : Run} (mirrors : Mirrors sha256 parent dry real) {caller : String} (asked : parent.requestedById = some caller)
    {child : Reservation} (by_ : child.requestedById = parent.requestedById) (bare : child.externalRef = none)
    (keyed : child.idempotencyKey = childKey sha256 parent.idempotencyKey (real.children.length+1)) :
    (∃ other ∈ real.db.reservations, sameKey other child ∨ sameRef other child) ↔
      ¬ KeyFree sha256 parent dry.db (real.children.length+1) := by
  have rows : real.db.reservations = dry.db.reservations ++ parent :: real.children := by rw [mirrors.same]
  constructor
  · rintro ⟨other,stored,key | ref⟩ free
    · obtain ⟨_,own,equal⟩ := key
      rw [by_] at own
      rw [keyed] at equal
      rw [rows,List.append_cons] at stored
      rcases List.mem_append.mp stored with old | earlier
      · exact free other old own equal
      · have listed : (other.requestedById,other.idempotencyKey) ∈ real.children.map (fun row => (row.requestedById,row.idempotencyKey)) :=
          List.mem_map_of_mem earlier
        rw [mirrors.keys] at listed
        obtain ⟨number,below,pair⟩ := List.mem_map.mp listed
        have less := List.mem_range.mp below
        have number_ := childKey_injective _ ((congrArg Prod.snd pair).trans equal)
        omega
    · obtain ⟨_,_,some_,equal⟩ := ref
      rw [equal,bare] at some_
      cases some_
  · intro taken
    unfold KeyFree at taken
    simp only [not_forall,not_not] at taken
    obtain ⟨other,stored,own,equal⟩ := taken
    refine ⟨other,?_,.inl ⟨by rw [own,asked]; rfl,own.trans by_.symm,equal.trans keyed.symm⟩⟩
    rw [rows,List.append_cons]
    exact List.mem_append_left _ stored

theorem hold_tells {caller : String} (asked : parent.requestedById = some caller) (s : Run) (resource : Resource) {window : Window}
    {quantity : Nat} (proper : window.finish ≠ window.start) (units : 1 ≤ quantity) :
    (walkForecast sha256 parent).Tells s (hold sha256 (dryWalker requesterId default named) s resource window quantity)
      (fun t => hold sha256 (realWalker default named parent) t resource window quantity) := by
  intro _
  refine ⟨{s with used := resource.id :: s.used,took := s.took ++ [⟨resource.id,window,quantity⟩]},rfl,
    ⟨rfl,List.prefix_rfl,List.prefix_append ..,id⟩,?_⟩
  rintro t sound mirrors
  have length : t.children.length = s.took.length := by rw [← mirrors.children,List.length_map]
  unfold hold realWalker
  dsimp only
  rw [dif_pos ⟨proper,units⟩]
  unfold insertReservation
  have taken := @child_free sha256 parent s t mirrors caller asked {
    id := nextId (t.db.reservations.map Reservation.id),resourceId := resource.id,reservedDate := window.date
    timeWindowStart := window.start,timeWindowEnd := window.finish,purpose := parent.purpose
    requestedById := parent.requestedById,idempotencyKey := childKey sha256 parent.idempotencyKey (t.children.length+1)
    requestFingerprint := childFingerprint sha256 parent.requestFingerprint (t.children.length+1),externalRef := none
    quantity := quantity,mode := resource.mode,status := .held,parentReservationId := some parent.id
    window := proper,units := units } rfl rfl rfl
  split
  · rename_i out
    refine ⟨fun still => ?_,fun _ => ⟨_,rfl⟩⟩
    have free := still.2 s.took.length (by simp)
    rw [← length] at free
    exact absurd free (taken.mp out)
  · rename_i in_
    have free := not_not.mp (mt taken.mpr in_)
    refine ⟨fun _ => ⟨_,rfl,?_⟩,fun stopped => absurd ⟨sound.1,?_⟩ stopped⟩
    · refine ⟨?_,?_,?_,?_⟩
      · rw [mirrors.same]
        simp
      · simp [mirrors.children,holdingOf]
      · intro row member
        simp only [List.mem_cons,List.mem_append,List.not_mem_nil,or_false] at member ⊢
        rcases member with rfl | old | rfl
        · exact .inr (mirrors.used _ (List.mem_cons_self ..))
        · exact .inr (mirrors.used row (List.mem_cons_of_mem _ old))
        · exact .inl rfl
      · simp [mirrors.keys,List.range_succ]
    · intro number below
      change number < (s.took ++ [(⟨resource.id,window,quantity⟩ : Holding)]).length at below
      rw [List.length_append] at below
      rcases Nat.lt_succ_iff_lt_or_eq.mp below with less | equal
      · exact sound.2 number less
      · rw [equal,← length]
        exact free

theorem padded_proper {window widened : Window} {before after : Nat} (proper : window.finish ≠ window.start)
    (padding : padded window before after = some widened) : widened.finish ≠ widened.start := by
  unfold padded at padding
  split at padding
  · cases padding
    exact proper
  · dsimp only at padding
    split at padding
    · cases padding
    · split at padding
      · cases padding
      · rename_i apart
        cases padding
        exact fun same => apart same.symm

-- Messages end in the sentence's own last letter, and only one ends in a t.
theorem ends_apart {front tail : String} {last : Char} (ending : tail.toList.getLast? = some last) (other : last ≠ 't') :
    front ++ tail ≠ crossesMidnight := by
  intro same
  have ends := congrArg (fun text => text.toList.getLast?) same
  simp only [String.toList_append,List.getLast?_append,ending,Option.some_or] at ends
  exact other (Option.some.inj (ends.trans (by decide)))

theorem problem_message {db : Database} {resource : Resource} {window : Window} {quantity : Nat} {found : Problem}
    (why : problem cal db resource window quantity = some found) : found.1 ≠ crossesMidnight := by
  unfold problem at why
  split at why
  · cases why
    exact @ends_apart _ _ 'e' (by decide) (by decide)
  · split at why
    · cases why
    · dsimp only at why
      split at why
      · cases why
      · cases why
        exact @ends_apart _ _ 'w' (by decide) (by decide)
    · dsimp only at why
      split at why
      · cases why
        exact @ends_apart _ _ 'w' (by decide) (by decide)
      · split at why
        · cases why
          exact @ends_apart _ _ 'w' (by decide) (by decide)
        · cases why

theorem kindMissing_message (row : ResourceRequirement) (kind : String) (seen : List Problem) (missing : Nat) :
    (kindMissing row kind seen missing).1 ≠ crossesMidnight := by
  unfold kindMissing
  exact @ends_apart _ _ 'g' (by decide) (by decide)

theorem alreadyUsed_message (resource : Resource) : (alreadyUsed resource).1 ≠ crossesMidnight :=
  @ends_apart _ _ 'g' (by decide) (by decide)

end

theorem Mirrors.resource {parent : Reservation} {s t : Run} (mirrors : Mirrors sha256 parent s t) (id : Nat) :
    t.db.resource? id = s.db.resource? id := by
  rw [mirrors.same]
  rfl

theorem Mirrors.candidates {parent : Reservation} {s t : Run} (mirrors : Mirrors sha256 parent s t) (kind : String) :
    candidatesOf t.db kind = candidatesOf s.db kind := by
  rw [mirrors.same]
  rfl

theorem Mirrors.requirements {parent : Reservation} {s t : Run} (mirrors : Mirrors sha256 parent s t)
    (owner : RequirementOwner × Nat) : requirementsOf t.db owner = requirementsOf s.db owner := by
  rw [mirrors.same]
  rfl

theorem Mirrors.inUse {parent : Reservation} {s t : Run} (mirrors : Mirrors sha256 parent s t) : t.used = s.used := by rw [mirrors.same]

theorem Mirrors.plain {parent : Reservation} {s t : Run} (mirrors : Mirrors sha256 parent s t) : t.assigned = s.assigned := by
  rw [mirrors.same]

-- Each branch of a walk, for a booking and for its dry run alike.
section
variable {walker : Walker} {inner : Run → Nat → Window → Answer Run} {run : Run} {row : ResourceRequirement} {resource : Resource}
  {window : Window} {found : Problem} {got : Nat} {seen : List Problem} {rest : List Resource} {kind : String}

theorem namedTarget_used (used : resource.id ∈ run.used) : namedTarget cal sha256 walker inner run row (some resource) window =
    miss walker run row (alreadyUsed resource) 1 := by
  unfold namedTarget
  exact if_pos used

theorem namedTarget_refused (unused : resource.id ∉ run.used)
    (why : problem cal run.db resource window (if resource.mode = .pooled then row.quantity else 1) = some found) :
    namedTarget cal sha256 walker inner run row (some resource) window = miss walker run row found 1 := by
  unfold namedTarget
  dsimp only
  rw [if_neg unused,why]

theorem namedTarget_free (unused : resource.id ∉ run.used)
    (free : problem cal run.db resource window (if resource.mode = .pooled then row.quantity else 1) = none) :
    namedTarget cal sha256 walker inner run row (some resource) window =
      hold sha256 walker run resource window (if resource.mode = .pooled then row.quantity else 1) >>= fun run => inner run resource.id window := by
  unfold namedTarget
  dsimp only
  rw [if_neg unused,free]

theorem pickedTargets_enough (enough : row.quantity ≤ got+seen.length) :
    pickedTargets cal sha256 walker inner row window seen (resource :: rest) run got = .ok (run,got) := by
  unfold pickedTargets
  exact if_pos enough

theorem pickedTargets_passed (short : ¬ row.quantity ≤ got+seen.length)
    (passed : (resource.id ∈ run.used ∨ resource.id ∈ walker.named) ∨ (problem cal run.db resource window 1).isSome) :
    pickedTargets cal sha256 walker inner row window seen (resource :: rest) run got =
      pickedTargets cal sha256 walker inner row window seen rest run got := by
  conv_lhs => unfold pickedTargets
  rw [if_neg short]
  by_cases out : resource.id ∈ run.used ∨ resource.id ∈ walker.named
  · rw [if_pos out]
  · obtain ⟨found,why⟩ := Option.isSome_iff_exists.mp (passed.resolve_left out)
    rw [if_neg out,why]

theorem pickedTargets_free (short : ¬ row.quantity ≤ got+seen.length) (unused : ¬ (resource.id ∈ run.used ∨ resource.id ∈ walker.named))
    (free : problem cal run.db resource window 1 = none) :
    pickedTargets cal sha256 walker inner row window seen (resource :: rest) run got =
      (hold sha256 walker run resource window 1 >>= fun run => inner run resource.id window) >>= fun run =>
        pickedTargets cal sha256 walker inner row window seen rest run (got+1) := by
  conv_lhs => unfold pickedTargets
  rw [if_neg short,if_neg unused,free,bind_assoc]

theorem assignedTargets_plain (plain : run.assigned = []) (left : Nat) :
    assignedTargets cal sha256 walker inner kind window left run got seen = .ok (run,got,seen) := by
  cases left with
  | zero => rfl
  | succ left =>
    unfold assignedTargets
    have none : assignedTo run kind = [] := by rw [assignedTo,plain]; rfl
    rw [none]

def kindFinish (walker : Walker) (row : ResourceRequirement) (kind : String) (picked : Run × Nat) : Answer Run :=
  if row.quantity-picked.2 = 0 then .ok picked.1
  else miss walker picked.1 row (kindMissing row kind [] (row.quantity-picked.2)) (row.quantity-picked.2)

theorem kindTargets_plain (plain : run.assigned = []) : kindTargets cal sha256 walker inner run row kind window =
    pickedTargets cal sha256 walker inner row window [] (candidatesOf run.db kind) run 0 >>= kindFinish walker row kind := by
  unfold kindTargets
  rw [assignedTargets_plain plain]
  rfl

end

section
variable {requesterId : Option String} {default : RequirementEnforcement} {named : List Nat} {parent : Reservation}

theorem kindFinish_tells (row : ResourceRequirement) (kind : String) (picked : Run × Nat) :
    (walkForecast sha256 parent).Foretells picked.1
      (fun picked' : Run × Nat => Mirrors sha256 parent picked.1 picked'.1 ∧ picked'.2 = picked.2) id (Mirrors sha256 parent)
      (kindFinish (dryWalker requesterId default named) row kind picked) (kindFinish (realWalker default named parent) row kind) := by
  by_cases enough : row.quantity-picked.2 = 0
  · have done : kindFinish (dryWalker requesterId default named) row kind picked = .ok picked.1 := if_pos enough
    rw [done]
    refine .rewrite (fun picked' mirrors => ?_) (.pure picked.1 Prod.fst rfl (fun _ mirrors => mirrors.1))
    unfold kindFinish
    rw [mirrors.2,if_pos enough]
  · intro plain
    obtain ⟨last,done,grown,outcome⟩ := miss_tells requesterId default named parent picked.1 row
      (kindMissing row kind [] (row.quantity-picked.2)) (row.quantity-picked.2) (kindMissing_message row kind [] _) plain
    refine ⟨last,?_,grown,fun picked' sound mirrors => ?_⟩
    · unfold kindFinish
      rw [if_neg enough,done]
    · unfold kindFinish
      rw [mirrors.2,if_neg enough]
      exact outcome picked'.1 sound mirrors.1

end

section
variable {requesterId : Option String} {default : RequirementEnforcement} {named : List Nat} {parent : Reservation} {caller : String}
  (asked : parent.requestedById = some caller) {dryInner realInner : Run → Nat → Window → Answer Run}
  (below : ∀ s id window, window.finish ≠ window.start →
    (walkForecast sha256 parent).Tells s (dryInner s id window) (fun t => realInner t id window))
include asked below

-- Taking a resource and then what it needs itself.
theorem take_tells (s : Run) (resource : Resource) {window : Window} {quantity : Nat} (proper : window.finish ≠ window.start)
    (units : 1 ≤ quantity) : (walkForecast sha256 parent).Tells s
      (hold sha256 (dryWalker requesterId default named) s resource window quantity >>= fun run => dryInner run resource.id window)
      (fun t => hold sha256 (realWalker default named parent) t resource window quantity >>= fun run => realInner run resource.id window) :=
  (hold_tells requesterId default named parent asked s resource proper units).bind (fun middle => below middle resource.id window proper)

theorem namedTarget_tells (s : Run) (row : ResourceRequirement) (id : Nat) {window : Window} (proper : window.finish ≠ window.start) :
    (walkForecast sha256 parent).Tells s
      (namedTarget cal sha256 (dryWalker requesterId default named) dryInner s row (s.db.resource? id) window)
      (fun t => namedTarget cal sha256 (realWalker default named parent) realInner t row (t.db.resource? id) window) := by
  cases there : s.db.resource? id with
  | none =>
    refine .rewrite (fun t mirrors => ?_) (miss_tells requesterId default named parent s row ("the required resource no longer exists",[]) 1
      (by decide))
    rw [mirrors.resource,there]
    rfl
  | some resource =>
    by_cases used : resource.id ∈ s.used
    · rw [namedTarget_used used]
      refine .rewrite (fun t mirrors => ?_) (miss_tells requesterId default named parent s row _ 1 (alreadyUsed_message resource))
      rw [mirrors.resource,there,namedTarget_used (by rwa [mirrors.inUse])]
    · have unused : ∀ {t}, Mirrors sha256 parent s t → resource.id ∉ t.used := fun mirrors => by rwa [mirrors.inUse]
      cases why : problem cal s.db resource window (if resource.mode = .pooled then row.quantity else 1) with
      | some found =>
        rw [namedTarget_refused used why]
        refine .rewrite (fun t mirrors => ?_) (miss_tells requesterId default named parent s row found 1 (problem_message why))
        rw [mirrors.resource,there,namedTarget_refused (unused mirrors) ((mirrors.problem used _ _).trans why)]
      | none =>
        rw [namedTarget_free used why]
        refine .rewrite (fun t mirrors => ?_) (take_tells asked below s resource proper ?_)
        · rw [mirrors.resource,there,namedTarget_free (unused mirrors) ((mirrors.problem used _ _).trans why)]
        · split
          · exact row.units
          · exact Nat.le_refl 1

theorem pickedTargets_tells (row : ResourceRequirement) {window : Window} (proper : window.finish ≠ window.start) (seen : List Problem)
    (candidates : List Resource) (s : Run) (got : Nat) : (walkForecast sha256 parent).Foretells s (Mirrors sha256 parent s) Prod.fst
      (fun picked picked' => Mirrors sha256 parent picked.1 picked'.1 ∧ picked'.2 = picked.2)
      (pickedTargets cal sha256 (dryWalker requesterId default named) dryInner row window seen candidates s got)
      (fun t => pickedTargets cal sha256 (realWalker default named parent) realInner row window seen candidates t got) := by
  induction candidates generalizing s got with
  | nil => exact .pure (s,got) (fun t => (t,got)) rfl (fun _ mirrors => ⟨mirrors,rfl⟩)
  | cons candidate rest ih =>
    by_cases enough : row.quantity ≤ got+seen.length
    · rw [pickedTargets_enough enough]
      refine .rewrite (fun t _ => pickedTargets_enough enough) ?_
      exact .pure (s,got) (fun t => (t,got)) rfl (fun _ mirrors => ⟨mirrors,rfl⟩)
    · by_cases out : candidate.id ∈ s.used ∨ candidate.id ∈ named
      · rw [pickedTargets_passed enough (.inl out)]
        refine .rewrite (fun t mirrors => pickedTargets_passed enough (.inl ?_)) (ih s got)
        rwa [mirrors.inUse]
      · have unused := fun used => out (.inl used)
        cases why : problem cal s.db candidate window 1 with
        | some found =>
          rw [pickedTargets_passed enough (.inr (by rw [why]; rfl))]
          refine .rewrite (fun t mirrors => pickedTargets_passed enough (.inr ?_)) (ih s got)
          rw [mirrors.problem unused,why]
          rfl
        | none =>
          rw [pickedTargets_free enough out why]
          refine .rewrite (fun t mirrors => pickedTargets_free enough ?_ ((mirrors.problem unused _ _).trans why)) ?_
          · rwa [mirrors.inUse]
          · exact (take_tells asked below s candidate proper (Nat.le_refl 1)).bind (fun middle => ih middle (got+1))

theorem kindTargets_tells (s : Run) (row : ResourceRequirement) (kind : String) {window : Window} (proper : window.finish ≠ window.start) :
    (walkForecast sha256 parent).Tells s (kindTargets cal sha256 (dryWalker requesterId default named) dryInner s row kind window)
      (fun t => kindTargets cal sha256 (realWalker default named parent) realInner t row kind window) := by
  intro plain
  rw [kindTargets_plain plain]
  refine Forecast.Foretells.rewrite (fun t mirrors => ?_) (Forecast.Foretells.bind
    (pickedTargets_tells asked below row proper [] (candidatesOf s.db kind) s 0) (kindFinish_tells row kind)) plain
  rw [kindTargets_plain (mirrors.plain.trans plain),mirrors.candidates]

-- A padding that leaves its day is a gap on a dry run and a refusal for real.
theorem requirementStep_tells (s : Run) (row : ResourceRequirement) {window : Window} (proper : window.finish ≠ window.start) :
    (walkForecast sha256 parent).Tells s (requirementStep cal sha256 (dryWalker requesterId default named) dryInner window s row)
      (fun t => requirementStep cal sha256 (realWalker default named parent) realInner window t row) := by
  unfold requirementStep
  cases padding : padded window row.beforeMinutes row.afterMinutes with
  | none =>
    intro _
    refine ⟨{s with unmet := s.unmet ++ [gap (dryWalker requesterId default named) row (crossesMidnight,[]) 1]},?_,
      ⟨rfl,List.prefix_append ..,List.prefix_rfl,id⟩,fun t _ _ => ⟨fun still => ?_,fun _ => ⟨_,rfl⟩⟩⟩
    · unfold miss dryWalker
      simp
    have entry := still.1 (gap (dryWalker requesterId default named) row (crossesMidnight,[]) 1)
      (List.mem_append_right _ (List.mem_singleton_self _))
    exact absurd rfl entry.2
  | some widened =>
    have proper := padded_proper proper padding
    cases row.target with
    | named id => exact namedTarget_tells asked below s row id proper
    | kind code => exact kindTargets_tells asked below s row code proper

end

section
variable {requesterId : Option String} {default : RequirementEnforcement} {named : List Nat} {parent : Reservation} {caller : String}

theorem walkRows_tells {dryStep realStep : Run → ResourceRequirement → Answer Run} (owners : List (RequirementOwner × Nat))
    (each : ∀ row s, (walkForecast sha256 parent).Tells s (dryStep s row) (fun t => realStep t row)) (s : Run) :
    (walkForecast sha256 parent).Tells s (walkRows dryStep owners s) (fun t => walkRows realStep owners t) := by
  refine Forecast.foldlM (fun owner _ s => ?_) s
  refine .rewrite (fun t mirrors => ?_) (Forecast.foldlM (fun row _ s => each row s) s)
  rw [mirrors.requirements]

-- The dry run of the walk foretells the booking's own: by induction on the depth
-- left, for any window.
theorem walk_tells (asked : parent.requestedById = some caller) (levels : Nat) (owners : List (RequirementOwner × Nat)) {window : Window}
    (proper : window.finish ≠ window.start) (s : Run) : (walkForecast sha256 parent).Tells s
      (walk cal sha256 (dryWalker requesterId default named) levels owners window s)
      (fun t => walk cal sha256 (realWalker default named parent) levels owners window t) := by
  induction levels generalizing owners window s with
  | zero => exact walkRows_tells owners (fun row s => miss_tells requesterId default named parent s row tooDeep 1 (by decide)) s
  | succ levels ih =>
    exact walkRows_tells owners (fun row s => requirementStep_tells asked (fun s id _ proper => ih [(.resource,id)] proper s) s row proper) s

end

end ChronosLedger
