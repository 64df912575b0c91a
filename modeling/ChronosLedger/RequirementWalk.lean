import ChronosLedger.Requirements

namespace ChronosLedger

-- What one step of a walk can do to its run: note a gap, hold a resource that
-- is free and unused, or take a name off the caller's list.
structure WalkSteps (cal : Recurrence) (sha256 : String → String) (walker : Walker) (keeps : Run → Run → Prop) : Prop where
  same : ∀ run, keeps run run
  rooms : ∀ run next, keeps run next → next.db.resources = run.db.resources
  compose : ∀ a b c, keeps a b → keeps b c → keeps a c
  missed : ∀ run row found missing next, miss walker run row found missing = .ok next → keeps run next
  popped : ∀ run kind, keeps run (popAssigned run kind)
  held : ∀ run resource window quantity next, resource ∈ run.db.resources → resource.id ∉ run.used →
    (resource.mode ≠ .pooled → quantity = 1) → problem cal run.db resource window quantity = none →
    hold sha256 walker run resource window quantity = .ok next → keeps run next

-- The same where a hold for one window and the walk over what the resource held
-- requires in turn are one step.
structure TakeSteps (cal : Recurrence) (sha256 : String → String) (walker : Walker) (inner : Run → Nat → Window → Answer Run)
    (window : Window) (keeps : Run → Run → Prop) : Prop where
  same : ∀ run, keeps run run
  rooms : ∀ run next, keeps run next → next.db.resources = run.db.resources
  compose : ∀ a b c, keeps a b → keeps b c → keeps a c
  missed : ∀ run row found missing next, miss walker run row found missing = .ok next → keeps run next
  popped : ∀ run kind, keeps run (popAssigned run kind)
  taken : ∀ run resource quantity middle next, resource ∈ run.db.resources → resource.id ∉ run.used →
    (resource.mode ≠ .pooled → quantity = 1) → problem cal run.db resource window quantity = none →
    hold sha256 walker run resource window quantity = .ok middle → inner middle resource.id window = .ok next → keeps run next

variable {cal : Recurrence} {sha256 : String → String} {walker : Walker} {keeps : Run → Run → Prop}

theorem WalkSteps.taking (steps : WalkSteps cal sha256 walker keeps) {inner : Run → Nat → Window → Answer Run} {window : Window}
    (below : ∀ run id next, inner run id window = .ok next → keeps run next) : TakeSteps cal sha256 walker inner window keeps where
  same := steps.same
  rooms := steps.rooms
  compose := steps.compose
  missed := steps.missed
  popped := steps.popped
  taken := fun run resource quantity middle next stored unused single free holding walked =>
    steps.compose _ _ _ (steps.held run resource window quantity middle stored unused single free holding) (below middle resource.id next walked)

theorem foldlM_keeps {α : Type} {step : Run → α → Answer Run} (compose : ∀ a b c, keeps a b → keeps b c → keeps a c) {items : List α}
    {start run next : Run} (reached : keeps start run)
    (each : ∀ run item next, item ∈ items → keeps start run → step run item = .ok next → keeps run next)
    (done : items.foldlM step run = .ok next) : keeps start next := by
  induction items generalizing run with
  | nil =>
    cases done
    exact reached
  | cons item rest ih =>
    rw [List.foldlM_cons,bind_parts] at done
    obtain ⟨middle,first,later⟩ := done
    have further := compose _ _ _ reached (each _ _ _ (by simp) reached first)
    exact ih further (fun r i n member => each r i n (by simp [member])) later

theorem candidates_stored {db : Database} {kind : String} : ∀ c ∈ candidatesOf db kind, c ∈ db.resources := by
  intro c member
  exact (List.mem_filter.mp ((List.mem_insertionSort _).mp member)).1

section
variable {inner : Run → Nat → Window → Answer Run} {window : Window} (steps : TakeSteps cal sha256 walker inner window keeps)
include steps

theorem namedTarget_keeps {run next : Run} {row : ResourceRequirement} {id : Nat}
    (done : namedTarget cal sha256 walker inner run row (run.db.resource? id) window = .ok next) : keeps run next := by
  unfold namedTarget at done
  split at done
  · exact steps.missed _ _ _ _ _ done
  · rename_i resource found_
    split at done
    · exact steps.missed _ _ _ _ _ done
    · rename_i unused
      dsimp only at done
      split at done
      · exact steps.missed _ _ _ _ _ done
      · rename_i free
        rw [bind_parts] at done
        obtain ⟨middle,first,later⟩ := done
        refine steps.taken _ _ _ _ _ (find_key found_).1 unused ?_ free first later
        intro single
        rw [if_neg single]

theorem assignedTargets_keeps {kind : String} {left : Nat} {run next : Run} {got got' : Nat}
    {seen seen' : List Problem}
    (done : assignedTargets cal sha256 walker inner kind window left run got seen = .ok (next,got',seen')) : keeps run next := by
  induction left generalizing run got seen with
  | zero =>
    cases done
    exact steps.same _
  | succ left ih =>
    unfold assignedTargets at done
    split at done
    · cases done
      exact steps.same _
    · dsimp only at done
      split at done
      · cases done
      · rename_i resource found_
        split at done
        · exact steps.compose _ _ _ (steps.popped _ _) (ih done)
        · rename_i free
          rw [bind_parts] at done
          obtain ⟨middle,first,rest⟩ := done
          rw [bind_parts] at rest
          obtain ⟨after,second,later⟩ := rest
          split at free
          · cases free
          · rename_i unused
            have taking := steps.taken _ _ _ _ _ (find_key found_).1 unused (fun _ => rfl) free first second
            exact steps.compose _ _ _ (steps.popped _ _) (steps.compose _ _ _ taking (ih later))

theorem pickedTargets_keeps {row : ResourceRequirement} {seen : List Problem} {candidates : List Resource}
    {run next : Run} {got got' : Nat} (listed : ∀ c ∈ candidates, c ∈ run.db.resources)
    (done : pickedTargets cal sha256 walker inner row window seen candidates run got = .ok (next,got')) : keeps run next := by
  induction candidates generalizing run got with
  | nil =>
    cases done
    exact steps.same _
  | cons candidate rest ih =>
    have tail : ∀ c ∈ rest, c ∈ run.db.resources := fun c member => listed c (by simp [member])
    unfold pickedTargets at done
    split at done
    · cases done
      exact steps.same _
    · split at done
      · exact ih tail done
      · rename_i unused
        split at done
        · exact ih tail done
        · rename_i free
          rw [bind_parts] at done
          obtain ⟨middle,first,more⟩ := done
          rw [bind_parts] at more
          obtain ⟨after,second,later⟩ := more
          have taking := steps.taken _ _ _ _ _ (listed candidate (by simp)) (fun used => unused (.inl used)) (fun _ => rfl) free first second
          exact steps.compose _ _ _ taking (ih (by rw [steps.rooms _ _ taking]; exact tail) later)

theorem kindTargets_keeps {run next : Run} {row : ResourceRequirement} {kind : String}
    (done : kindTargets cal sha256 walker inner run row kind window = .ok next) : keeps run next := by
  unfold kindTargets at done
  rw [bind_parts] at done
  obtain ⟨⟨chosen,got,seen⟩,first,rest⟩ := done
  rw [bind_parts] at rest
  obtain ⟨⟨picked,got'⟩,second,last⟩ := rest
  have one := assignedTargets_keeps steps first
  have two := steps.compose _ _ _ one (pickedTargets_keeps steps candidates_stored second)
  dsimp only at last
  split at last
  · cases last
    exact two
  · exact steps.compose _ _ _ two (steps.missed _ _ _ _ _ last)

end

theorem requirementStep_keeps {inner : Run → Nat → Window → Answer Run} {window : Window} {run next : Run} {row : ResourceRequirement}
    (missed : ∀ run found missing next, miss walker run row found missing = .ok next → keeps run next)
    (steps : ∀ widened, padded window row.beforeMinutes row.afterMinutes = some widened → TakeSteps cal sha256 walker inner widened keeps)
    (done : requirementStep cal sha256 walker inner window run row = .ok next) : keeps run next := by
  unfold requirementStep at done
  split at done
  · split at done
    · exact missed _ _ _ _ done
    · cases done
  · rename_i widened padding
    split at done
    · exact namedTarget_keeps (steps widened padding) done
    · exact kindTargets_keeps (steps widened padding) done

theorem walkRows_keeps {step : Run → ResourceRequirement → Answer Run} (same : ∀ run, keeps run run)
    (compose : ∀ a b c, keeps a b → keeps b c → keeps a c) {owners : List (RequirementOwner × Nat)} {start next : Run}
    (each : ∀ owner ∈ owners, ∀ before run row next, keeps start before → row ∈ requirementsOf before.db owner → keeps before run →
      step run row = .ok next → keeps run next)
    (done : walkRows step owners start = .ok next) : keeps start next := by
  refine foldlM_keeps compose (same start) (fun before owner after member reached owned => ?_) done
  exact foldlM_keeps compose (same before) (fun run row next asked further => each owner member before run row next reached asked further) owned

-- What every step keeps, the whole walk keeps: by induction on the depth left.
theorem walk_keeps (steps : WalkSteps cal sha256 walker keeps) {levels : Nat} {owners : List (RequirementOwner × Nat)}
    {window : Window} {run next : Run} (done : walk cal sha256 walker levels owners window run = .ok next) : keeps run next := by
  induction levels generalizing owners window run next with
  | zero => exact walkRows_keeps steps.same steps.compose (fun _ _ _ _ _ _ _ _ _ missed => steps.missed _ _ _ _ _ missed) done
  | succ levels ih =>
    refine walkRows_keeps steps.same steps.compose (fun _ _ _ _ _ _ _ _ _ stepped => ?_) done
    exact requirementStep_keeps (fun _ _ _ _ => steps.missed _ _ _ _ _) (fun _ _ => steps.taking (fun _ _ _ deeper => ih deeper)) stepped

theorem resolve_parts {db : Database} {owners : List (RequirementOwner × Nat)} {window : Window} {used : List Nat}
    {parent : Option Reservation} {requesterId : Option String} {assignments : List (String × List Nat)} {run : Run} :
    resolve cal sha256 db owners window used parent requesterId assignments = .ok run ↔
      walk cal sha256 ⟨db.defaultRequirementEnforcement,parent,requesterId,assignments.flatMap Prod.snd⟩ maxDepth owners window
        ⟨db,used,assignments,[],[],[]⟩ = .ok run ∧ (run.assigned.flatMap Prod.snd).insertionSort (fun a b => a ≤ b) = [] := by
  simp only [resolve,bind_parts,ensure_parts,Except.ok.injEq]
  constructor
  · rintro ⟨middle,walked,_,empty,rfl⟩
    exact ⟨walked,empty⟩
  · rintro ⟨walked,empty⟩
    exact ⟨run,walked,(),empty,rfl⟩

end ChronosLedger
