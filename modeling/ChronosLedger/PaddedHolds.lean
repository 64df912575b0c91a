import ChronosLedger.DryRun
import ChronosLedger.HoldRuns

namespace ChronosLedger
open Spans

variable {cal : Recurrence} {sha256 : String → String}

def Window.span (window : Window) : Int × Int := windowSpan window.date window.start window.finish

-- The window with its padding, as the two instants asked for.
def Window.widened (window : Window) (before after : Nat) : Int × Int := (window.span.1-before*minute,window.span.2+after*minute)

def fullDay : Int := 86400000000

-- It stays between the midnights and lasts over a day (by anything but another
-- whole day), which two clock readings on one date cannot say.
def OverADay (window : Window) (before after : Nat) : Prop :=
  midnight window.date ≤ (window.widened before after).1 ∧ (window.widened before after).2 ≤ midnight (dateOf (window.span.2-1)+1) ∧
    (window.widened before after).1+fullDay < (window.widened before after).2 ∧
    (window.widened before after).2 ≠ (window.widened before after).1+2*fullDay

instance (window : Window) (before after : Nat) : Decidable (OverADay window before after) := inferInstanceAs (Decidable (_ ∧ _ ∧ _ ∧ _))

theorem timeOf_val (i : Int) : ((timeOf i).val : Int) = i % 86400000000 := by
  have low := Int.emod_nonneg i (show (86400000000 : Int) ≠ 0 by decide)
  have high := Int.emod_lt_of_pos i (show (0 : Int) < 86400000000 by decide)
  have small : (i % 86400000000).toNat % 86400000000 = (i % 86400000000).toNat := Nat.mod_eq_of_lt (by omega)
  simp only [timeOf,Fin.val_ofNat,small]
  omega

theorem timeOf_same {i j : Int} : timeOf i = timeOf j ↔ i % 86400000000 = j % 86400000000 := by
  rw [Fin.ext_iff,← Int.ofNat_inj,timeOf_val,timeOf_val]

-- Two instants read as clock times on the date of the first stand for the two
-- instants again, as long as less than a day is between them.
theorem clocks_span {day opens closes : Int} (dated : dateOf opens = day) (later : opens < closes) (_within : closes ≤ midnight (day+2)) :
    windowSpan day (timeOf opens) (timeOf closes) = (opens,closes) ↔ closes < opens+fullDay := by
  have first := timeOf_val opens
  have second := timeOf_val closes
  unfold dateOf at dated
  simp only [windowSpan,combine,midnight,fullDay,Fin.lt_def,Prod.mk.injEq] at _within ⊢
  constructor
  · intro same
    split at same <;> omega
  · intro short
    split <;> omega

theorem span_within (window : Window) : window.span.1 < window.span.2+1 ∧ window.span.2 < window.span.1+fullDay ∧
    midnight window.date ≤ window.span.1 ∧ window.span.1 < midnight (window.date+1) :=
  ⟨Int.lt_add_one_of_le (span_ordered _ _ _),span_short _ _ _,span_opens _ _ _⟩

theorem padded_parts {window widened : Window} {before after : Nat} (padding : padded window before after = some widened) :
    before = 0 ∧ after = 0 ∧ widened = window ∨
    midnight window.date ≤ (window.widened before after).1 ∧ (window.widened before after).2 ≤ midnight (dateOf (window.span.2-1)+1) ∧
      timeOf (window.widened before after).1 ≠ timeOf (window.widened before after).2 ∧
      widened = ⟨window.date,timeOf (window.widened before after).1,timeOf (window.widened before after).2⟩ := by
  unfold padded at padding
  split at padding
  · rename_i none
    cases padding
    exact .inl ⟨none.1,none.2,rfl⟩
  · dsimp only at padding
    split at padding
    · cases padding
    · rename_i inside
      split at padding
      · cases padding
      · rename_i apart
        cases padding
        rw [not_or,not_lt,not_lt] at inside
        exact .inr ⟨inside.1,inside.2,apart,rfl⟩

-- What is asked for opens on the window's date and closes before the second
-- midnight after it.
theorem widened_within (window : Window) (proper : window.finish ≠ window.start) {before after : Nat}
    (low : midnight window.date ≤ (window.widened before after).1) (high : (window.widened before after).2 ≤ midnight (dateOf (window.span.2-1)+1)) :
    dateOf (window.widened before after).1 = window.date ∧ (window.widened before after).1 < (window.widened before after).2 ∧
      (window.widened before after).2 ≤ midnight (window.date+2) := by
  obtain ⟨_,short,opens,date⟩ := span_within window
  have ordered : window.span.1 < window.span.2 := span_proper proper window.date
  have some_ : (0 : Int) ≤ before*minute ∧ (0 : Int) ≤ after*minute := by simp only [minute]; omega
  simp only [Window.widened,midnight,dateOf,fullDay] at *
  omega

-- A hold made for a padded window covers what was asked, unless that is longer
-- than a day.
theorem padded_covers {window widened : Window} {before after : Nat} (proper : window.finish ≠ window.start)
    (padding : padded window before after = some widened) : widened.span = window.widened before after ↔ ¬ OverADay window before after := by
  obtain ⟨_,short,_⟩ := span_within window
  rcases padded_parts padding with ⟨rfl,rfl,rfl⟩ | ⟨low,high,apart,rfl⟩
  · have same : widened.widened 0 0 = widened.span := by simp [Window.widened]
    refine ⟨fun _ over_ => ?_,fun _ => same.symm⟩
    have long := over_.2.2.1
    rw [same] at long
    exact absurd long (by omega)
  · obtain ⟨dated,later,within⟩ := widened_within window proper low high
    refine (clocks_span dated later within).trans ⟨fun fits over_ => ?_,fun fits => ?_⟩
    · exact absurd over_.2.2.1 (by omega)
    · by_contra long
      have distinct := mt timeOf_same.mpr apart
      refine fits ⟨low,high,?_,?_⟩
      · simp only [fullDay] at long ⊢
        omega
      · simp only [fullDay]
        omega

-- Where it is not what was asked it does not reach as far either.
theorem padded_encloses {window widened : Window} {before after : Nat} (proper : window.finish ≠ window.start)
    (padding : padded window before after = some widened) :
    widened.span.1 ≤ (window.widened before after).1 ∧ (window.widened before after).2 ≤ widened.span.2 ↔ ¬ OverADay window before after := by
  constructor
  · intro covers over_
    have short := (span_within widened).2.1
    have long := over_.2.2.1
    omega
  · intro fits
    have same := (padded_covers proper padding).mpr fits
    rw [same]
    exact ⟨le_refl _,le_refl _⟩

-- What a walk asks for an owner: the booking's window where the walk began, the
-- window of its own hold for a resource already held.
def Origin (owners : List (RequirementOwner × Nat)) (window : Window) (took : List Holding) (owner : RequirementOwner × Nat)
    (around : Window) : Prop :=
  owner ∈ owners ∧ around = window ∨ ∃ held ∈ took, owner = (.resource,held.resourceId) ∧ around = held.window

-- Every hold is for a requirement of an owner, around that owner's window.
def Rooted (rows : List ResourceRequirement) (owners : List (RequirementOwner × Nat)) (window : Window) (took : List Holding) : Prop :=
  ∀ held ∈ took, held.window.finish ≠ held.window.start ∧ ∃ row ∈ rows, ∃ around,
    Origin owners window took (row.ownerKind,row.ownerId) around ∧ padded around row.beforeMinutes row.afterMinutes = some held.window

theorem Origin.proper {rows : List ResourceRequirement} {owners : List (RequirementOwner × Nat)} {window around : Window}
    {took : List Holding} {owner : RequirementOwner × Nat} (origin : Origin owners window took owner around)
    (proper : window.finish ≠ window.start) (rooted : Rooted rows owners window took) : around.finish ≠ around.start := by
  rcases origin with ⟨_,rfl⟩ | ⟨held,member,_,rfl⟩
  · exact proper
  · exact (rooted held member).1

structure Grows (owners : List (RequirementOwner × Nat)) (window : Window) (walker : Walker) (run next : Run) : Prop where
  rooms : next.db.resources = run.db.resources
  rows : next.db.requirements = run.db.requirements
  more : run.took ⊆ next.took
  rooted : Rooted run.db.requirements owners window run.took → Rooted next.db.requirements owners window next.took
  children : walker.parent.isSome → run.children.map holdingOf = run.took → next.children.map holdingOf = next.took

section
variable {owners : List (RequirementOwner × Nat)} {window : Window} {walker : Walker}

theorem Origin.grow {took more : List Holding} {owner : RequirementOwner × Nat} {around : Window}
    (origin : Origin owners window took owner around) (grown : took ⊆ more) : Origin owners window more owner around := by
  rcases origin with start | ⟨held,member,same⟩
  · exact .inl start
  · exact .inr ⟨held,grown member,same⟩

theorem Grows.refl (run : Run) : Grows owners window walker run run := ⟨rfl,rfl,List.Subset.refl _,id,fun _ => id⟩

theorem Grows.trans {one two three : Run} (first : Grows owners window walker one two) (second : Grows owners window walker two three) :
    Grows owners window walker one three :=
  ⟨second.rooms.trans first.rooms,second.rows.trans first.rows,List.Subset.trans first.more second.more,second.rooted ∘ first.rooted,
    fun real same => second.children real (first.children real same)⟩

theorem Grows.missed {run next : Run} {row : ResourceRequirement} {found : Problem} {missing : Nat}
    (missed : miss walker run row found missing = .ok next) : Grows owners window walker run next := by
  unfold miss at missed
  split at missed
  · cases missed
  · cases missed
    exact ⟨rfl,rfl,List.Subset.refl _,id,fun _ => id⟩

theorem hold_parts {run next : Run} {resource : Resource} {widened : Window} {quantity : Nat}
    (held : hold sha256 walker run resource widened quantity = .ok next) :
    next.db.resources = run.db.resources ∧ next.db.requirements = run.db.requirements ∧
      next.took = run.took ++ [⟨resource.id,widened,quantity⟩] ∧
      (walker.parent.isSome → next.children.map holdingOf = run.children.map holdingOf ++ [⟨resource.id,widened,quantity⟩]) := by
  unfold hold at held
  dsimp only at held
  split at held
  · rename_i none
    cases held
    refine ⟨rfl,rfl,rfl,fun real => ?_⟩
    rw [none] at real
    cases real
  · split at held
    · rw [bind_parts] at held
      obtain ⟨db,inserted,kept⟩ := held
      obtain ⟨_,rfl⟩ := insertReservation_parts.mp inserted
      cases kept
      refine ⟨rfl,rfl,rfl,fun _ => ?_⟩
      rw [List.map_append]
      rfl
    · cases held

-- A hold for a requirement of an owner the walk has reached.
theorem Grows.held (proper : window.finish ≠ window.start) {run next : Run} {resource : Resource} {around widened : Window} {quantity : Nat} {row : ResourceRequirement}
    (origin : Origin owners window run.took (row.ownerKind,row.ownerId) around) (stored : row ∈ run.db.requirements)
    (padding : padded around row.beforeMinutes row.afterMinutes = some widened)
    (holding : hold sha256 walker run resource widened quantity = .ok next) :
    Grows owners window walker run next ∧ Origin owners window next.took (.resource,resource.id) widened := by
  obtain ⟨rooms,rows,took,children⟩ := hold_parts holding
  have more : run.took ⊆ next.took := by
    rw [took]
    exact List.subset_append_left _ _
  refine ⟨⟨rooms,rows,more,fun rooted held member => ?_,fun real same => by rw [children real,same,took]⟩,?_⟩
  · rw [rows]
    rw [took] at member
    rcases List.mem_append.mp member with old | new
    · obtain ⟨fit,cause,listed,before,from_,same⟩ := rooted held old
      exact ⟨fit,cause,listed,before,from_.grow more,same⟩
    · cases List.mem_singleton.mp new
      exact ⟨padded_proper (origin.proper proper rooted) padding,row,stored,around,origin.grow more,padding⟩
  · exact .inr ⟨⟨resource.id,widened,quantity⟩,by simp [took],rfl,rfl⟩

theorem mem_requirementsOf {db : Database} {owner : RequirementOwner × Nat} {row : ResourceRequirement}
    (member : row ∈ requirementsOf db owner) : row ∈ db.requirements ∧ (row.ownerKind,row.ownerId) = owner := by
  obtain ⟨stored,asked⟩ := List.mem_filter.mp ((List.mem_insertionSort _).mp member)
  have both := of_decide_eq_true asked
  exact ⟨stored,Prod.ext both.1 both.2⟩

-- By induction on the depth left: a walk for owners it has reached holds nothing
-- that is not for a requirement of an owner reached by then.
theorem walk_grows (proper : window.finish ≠ window.start) {levels : Nat} {asking : List (RequirementOwner × Nat)} {around : Window} {run next : Run}
    (reached : ∀ owner ∈ asking, Origin owners window run.took owner around)
    (done : walk cal sha256 walker levels asking around run = .ok next) : Grows owners window walker run next := by
  induction levels generalizing asking around run next with
  | zero => exact walkRows_keeps Grows.refl (fun _ _ _ => Grows.trans) (fun _ _ _ _ _ _ _ _ _ missed => Grows.missed missed) done
  | succ levels ih =>
    refine walkRows_keeps Grows.refl (fun _ _ _ => Grows.trans) (fun owner asked before run row next first required second stepped => ?_) done
    obtain ⟨stored,owned⟩ := mem_requirementsOf required
    have origin : Origin owners window run.took (row.ownerKind,row.ownerId) around := by
      rw [owned]
      exact (reached owner asked).grow (List.Subset.trans first.more second.more)
    have listed : row ∈ run.db.requirements := by
      rw [second.rows]
      exact stored
    -- The rooms are kept whatever the owner; the rest holds once it is reached.
    let keeps (one two : Run) : Prop := two.db.resources = one.db.resources ∧
      (Origin owners window one.took (row.ownerKind,row.ownerId) around → row ∈ one.db.requirements → Grows owners window walker one two)
    have missed {one two : Run} {row' : ResourceRequirement} {found : Problem} {missing : Nat}
        (gap : miss walker one row' found missing = .ok two) : keeps one two :=
      have grows : Grows owners window walker one two := .missed gap
      ⟨grows.rooms,fun _ _ => grows⟩
    have whole : keeps run next := by
      refine requirementStep_keeps (fun _ _ _ _ => missed) (fun widened padding => ?_) stepped
      refine ⟨fun _ => ⟨rfl,fun _ _ => Grows.refl _⟩,fun _ _ kept => kept.1,?_,fun _ _ _ _ _ => missed,fun _ _ => ⟨rfl,fun _ _ => ?_⟩,?_⟩
      · intro one two three first second
        refine ⟨second.1.trans first.1,fun from_ there => ?_⟩
        have grows := first.2 from_ there
        exact grows.trans (second.2 (from_.grow grows.more) (by rw [grows.rows]; exact there))
      · exact ⟨rfl,rfl,List.Subset.refl _,id,fun _ => id⟩
      · intro one resource quantity middle last _ _ _ _ holding walked
        have inner : Origin owners window middle.took (.resource,resource.id) widened := by
          obtain ⟨_,_,took,_⟩ := hold_parts holding
          exact .inr ⟨⟨resource.id,widened,quantity⟩,by simp [took],rfl,rfl⟩
        have deeper : Grows owners window walker middle last := ih (by simpa using inner) walked
        refine ⟨deeper.rooms.trans (hold_parts holding).1,fun from_ there => ?_⟩
        exact (Grows.held proper from_ there padding holding).1.trans deeper
    exact whole.2 origin listed

end

-- Along a chain of requirements every hold covers the window of what it is for
-- with its padding, exactly as long as that is not over a day.
theorem padding_covers_chain (window : Window) (proper : window.finish ≠ window.start) :
    (∀ (widened : Window) (before after : Nat), padded window before after = some widened →
      (widened.span = window.widened before after ↔ ¬ OverADay window before after)) ∧
    ∀ (cal : Recurrence) (sha256 : String → String) (db : Database) (owners : List (RequirementOwner × Nat))
      (used : List Nat) (parent : Option Reservation) (requesterId : Option String) (assignments : List (String × List Nat)) (run : Run),
      resolve cal sha256 db owners window used parent requesterId assignments = .ok run →
      (parent.isSome → run.children.map holdingOf = run.took) ∧
      ∀ held ∈ run.took, ∃ row ∈ db.requirements, ∃ around, Origin owners window run.took (row.ownerKind,row.ownerId) around ∧
        padded around row.beforeMinutes row.afterMinutes = some held.window ∧
        (held.window.span.1 ≤ (around.widened row.beforeMinutes row.afterMinutes).1 ∧
          (around.widened row.beforeMinutes row.afterMinutes).2 ≤ held.window.span.2 ↔
            ¬ OverADay around row.beforeMinutes row.afterMinutes) := by
  refine ⟨fun widened before after padding => padded_covers proper padding,?_⟩
  intro cal sha256 db owners used parent requesterId assignments run resolved
  have grows := @walk_grows cal sha256 owners window _ proper _ owners window _ run (fun owner asked => .inl ⟨asked,rfl⟩) (resolve_parts.mp resolved).1
  have rooted : Rooted db.requirements owners window run.took := by
    rw [← grows.rows]
    exact grows.rooted (fun held member => absurd member List.not_mem_nil)
  refine ⟨fun real => grows.children real rfl,fun held member => ?_⟩
  obtain ⟨_,row,stored,around,origin,padding⟩ := rooted held member
  exact ⟨row,stored,around,origin,padding,padded_encloses (origin.proper proper rooted) padding⟩

-- A hall needs its crew an hour before, and the crew its van half an hour after.
def nightHall : Database := {staffed 90 with
  resources := [⟨1,"HALL","ROOM",none,none,.exclusive,true,exclusive_bare⟩,⟨2,"CREW","CREW",none,none,.exclusive,true,exclusive_bare⟩,
    ⟨3,"VAN","VAN",none,none,.exclusive,true,exclusive_bare⟩],
  requirements := [⟨1,.resource,1,.named 2,1,60,0,none,one_unit⟩,⟨2,.resource,2,.named 3,1,0,30,none,one_unit⟩]}

def nightShow : Window := ⟨101,clock 22 0,clock 2 0⟩

theorem night_show_covered : ∃ run, resolve plainRules id nightHall [(.resource,1)] nightShow [1] none none [] = .ok run ∧
    run.took.map Holding.window = [⟨101,clock 21 0,clock 2 0⟩,⟨101,clock 21 0,clock 2 30⟩] ∧
    Window.span ⟨101,clock 21 0,clock 2 0⟩ = nightShow.widened 60 0 ∧
    ∀ held ∈ run.took, ∃ row ∈ nightHall.requirements, ∃ around,
      Origin [(.resource,1)] nightShow run.took (row.ownerKind,row.ownerId) around ∧
        padded around row.beforeMinutes row.afterMinutes = some held.window ∧
        (held.window.span.1 ≤ (around.widened row.beforeMinutes row.afterMinutes).1 ∧
          (around.widened row.beforeMinutes row.afterMinutes).2 ≤ held.window.span.2 ↔
            ¬ OverADay around row.beforeMinutes row.afterMinutes) := by
  have covers := padding_covers_chain nightShow (by decide)
  have single := (covers.1 ⟨101,clock 21 0,clock 2 0⟩ 60 0 (by decide)).mpr (by decide)
  have resolved : ∃ run, resolve plainRules id nightHall [(.resource,1)] nightShow [1] none none [] = .ok run ∧
      run.took.map Holding.window = [⟨101,clock 21 0,clock 2 0⟩,⟨101,clock 21 0,clock 2 30⟩] := ⟨_,rfl,by decide⟩
  obtain ⟨run,done,windows⟩ := resolved
  exact ⟨run,done,windows,single,(covers.2 plainRules id nightHall _ _ _ _ _ run done).2⟩

-- Thirteen hours before a night of twelve: the hold is for one hour of the next
-- morning's clock, on the evening's date.
theorem long_padding_shrinks : ¬ ∀ (window widened : Window) (before after : Nat), window.finish ≠ window.start → before ≤ 1440 →
    after ≤ 1440 → padded window before after = some widened → widened.span = window.widened before after := by
  intro claimed
  have same := claimed ⟨0,clock 18 0,clock 6 0⟩ ⟨0,clock 5 0,clock 6 0⟩ 780 0 (by decide) (by decide) (by decide) (by decide)
  revert same
  decide

end ChronosLedger
