import ChronosLedger.RulePeriods

namespace ChronosLedger.RuleExpansion
open Steppings

variable {dateutil : Dateutil} {text : String} {rule : Rrule} {dtstart : Int}

def given (dtstart : Int) (days : List Int) : List Int := days.filter (fun day => dtstart ≤ day)

-- Where the generator returns: past UNTIL, or at a date COUNT has no more of.
def Stops (rule : Rrule) (dtstart : Int) (count : Option Int) (before : List Int) (day : Int) : Prop :=
  rule.passed day = true ∨ dtstart ≤ day ∧ ∃ n ∈ count, n ≤ (given dtstart before).length

theorem given_cons (dtstart day : Int) (rest : List Int) :
    given dtstart (day :: rest) = if dtstart ≤ day then day :: given dtstart rest else given dtstart rest := by
  unfold given
  rw [List.filter_cons]
  simp

theorem given_append (dtstart : Int) (one two : List Int) : given dtstart (one ++ two) = given dtstart one ++ given dtstart two :=
  List.filter_append ..

theorem given_sublist (dtstart : Int) (days : List Int) : (given dtstart days).Sublist days := List.filter_sublist

section
variable {count : Option Int} {day : Int} {rest : List Int}

theorem yields_past (past : rule.passed day = true) : yields rule dtstart count (day :: rest) = ([],none) := by
  unfold yields
  rw [if_pos past]

theorem yields_early (open_ : ¬ rule.passed day = true) (early : day < dtstart) :
    yields rule dtstart count (day :: rest) = yields rule dtstart count rest := by
  conv_lhs => unfold yields
  rw [if_neg open_,if_pos early]

theorem yields_uncounted (open_ : ¬ rule.passed day = true) (late : ¬ day < dtstart) : yields rule dtstart none (day :: rest) =
    (day :: (yields rule dtstart none rest).1,(yields rule dtstart none rest).2) := by
  conv_lhs => unfold yields
  rw [if_neg open_,if_neg late]

theorem yields_spent {n : Int} (open_ : ¬ rule.passed day = true) (late : ¬ day < dtstart) (spent : n-1 < 0) :
    yields rule dtstart (some n) (day :: rest) = ([],none) := by
  unfold yields
  rw [if_neg open_,if_neg late]
  exact if_pos spent

theorem yields_counted {n : Int} (open_ : ¬ rule.passed day = true) (late : ¬ day < dtstart) (left : ¬ n-1 < 0) :
    yields rule dtstart (some n) (day :: rest) =
      (day :: (yields rule dtstart (some (n-1)) rest).1,(yields rule dtstart (some (n-1)) rest).2) := by
  conv_lhs => unfold yields
  rw [if_neg open_,if_neg late]
  exact if_neg left

end

-- The generator returns inside these dates, or gets through all of them.
def Returns (rule : Rrule) (dtstart : Int) (count : Option Int) (days : List Int) : Prop :=
  ∃ before day after, days = before ++ day :: after ∧ Stops rule dtstart count before day ∧
    (∀ earlier other later, before = earlier ++ other :: later → ¬ Stops rule dtstart count earlier other) ∧
    yields rule dtstart count days = (given dtstart before,none)

def Passes (rule : Rrule) (dtstart : Int) (count : Option Int) (days : List Int) : Prop :=
  (∀ earlier other later, days = earlier ++ other :: later → ¬ Stops rule dtstart count earlier other) ∧
    ∃ left, yields rule dtstart count days = (given dtstart days,some left)

-- A date the generator goes on from, yielded or skipped.
theorem yields_on {count : Option Int} {day : Int} {rest : List Int} (left : Option Int) (skipped : List Int) (on : ¬ Stops rule dtstart count [] day)
    (later : ∀ before other, Stops rule dtstart count (day :: before) other ↔ Stops rule dtstart left before other)
    (kept : ∀ days, given dtstart (day :: days) = skipped ++ given dtstart days)
    (yielded : yields rule dtstart count (day :: rest) = (skipped ++ (yields rule dtstart left rest).1,(yields rule dtstart left rest).2))
    (ih : Returns rule dtstart left rest ∨ Passes rule dtstart left rest) :
    Returns rule dtstart count (day :: rest) ∨ Passes rule dtstart count (day :: rest) := by
  have first : ∀ days, (∀ earlier other after, days = earlier ++ other :: after → ¬ Stops rule dtstart left earlier other) →
      ∀ earlier other after, day :: days = earlier ++ other :: after → ¬ Stops rule dtstart count earlier other := by
    intro days none earlier other after split
    cases earlier with
    | nil =>
      cases split
      exact on
    | cons head earlier =>
      obtain ⟨rfl,tail⟩ := List.cons_eq_cons.mp split
      rw [later]
      exact none earlier other after tail
  rcases ih with ⟨before,other,after,split,stops,none,same⟩ | ⟨none,last,same⟩
  · refine .inl ⟨day :: before,other,after,by rw [split]; rfl,(later _ _).mpr stops,first before none,?_⟩
    rw [yielded,same,kept]
  · refine .inr ⟨first rest none,last,?_⟩
    rw [yielded,same,kept]

theorem yields_parts (rule : Rrule) (dtstart : Int) (count : Option Int) (days : List Int) :
    Returns rule dtstart count days ∨ Passes rule dtstart count days := by
  induction days generalizing count with
  | nil => exact .inr ⟨by simp,count,rfl⟩
  | cons day rest ih =>
    by_cases over_ : rule.passed day = true
    · refine .inl ⟨[],day,rest,rfl,.inl over_,by simp,?_⟩
      exact yields_past over_
    by_cases early : day < dtstart
    · have skip : ∀ days, given dtstart (day :: days) = given dtstart days := fun days => by rw [given_cons,if_neg (not_le.mpr early)]
      refine yields_on count [] ?_ ?_ skip ?_ (ih count)
      · rintro (past | ⟨late,_⟩)
        · exact over_ past
        · omega
      · intro before other
        unfold Stops
        rw [skip]
      · exact yields_early over_ early
    have late : dtstart ≤ day := not_lt.mp early
    have keep : ∀ days, given dtstart (day :: days) = [day] ++ given dtstart days := fun days => by rw [given_cons,if_pos late]; rfl
    cases count with
    | none =>
      refine yields_on none [day] ?_ ?_ keep ?_ (ih none)
      · rintro (past | ⟨_,n,known,_⟩)
        · exact over_ past
        · cases known
      · intro before other
        unfold Stops
        simp
      · exact yields_uncounted over_ early
    | some n =>
      by_cases spent : n-1 < 0
      · refine .inl ⟨[],day,rest,rfl,.inr ⟨late,n,rfl,?_⟩,by simp,?_⟩
        · change n ≤ (0 : Nat)
          omega
        · exact yields_spent over_ early spent
      · refine yields_on (some (n-1)) [day] ?_ ?_ keep ?_ (ih (some (n-1)))
        · rintro (past | ⟨_,m,known,few⟩)
          · exact over_ past
          · cases known
            change n ≤ (0 : Nat) at few
            omega
        · intro before other
          unfold Stops
          rw [keep]
          simp only [List.length_append,List.length_singleton,Option.mem_def,Option.some.injEq,exists_eq_left']
          have same : n ≤ ((1+(given dtstart before).length : Nat) : Int) ↔ n-1 ≤ ((given dtstart before).length : Int) := by omega
          rw [same]
        · exact yields_counted over_ early spent

-- The dates use the rule up, and what it yields of them until then is in order.
def UsedUp (rule : Rrule) (dtstart : Int) (days : List Int) : Prop :=
  ∃ before day after, days = before ++ day :: after ∧ Stops rule dtstart rule.count before day ∧ (given dtstart before).Pairwise (· < ·)

theorem usedUp_yields {days : List Int} : UsedUp rule dtstart days ↔
    (yields rule dtstart rule.count days).2 = none ∧ (yields rule dtstart rule.count days).1.Pairwise (· < ·) := by
  rcases yields_parts rule dtstart rule.count days with ⟨before,day,after,split,stops,none,same⟩ | ⟨none,left,same⟩
  · rw [same]
    refine ⟨fun ⟨front,other,rest,cut,stopped,ordered⟩ => ⟨rfl,?_⟩,fun ⟨_,ordered⟩ => ⟨before,day,after,split,stops,ordered⟩⟩
    -- The first place it returns at is no later than the one named.
    rcases List.append_eq_append_iff.mp (split.symm.trans cut) with ⟨more,whole,_⟩ | ⟨more,whole,tail⟩
    · rw [whole,given_append] at ordered
      exact (List.pairwise_append.mp ordered).1
    · cases more with
      | nil =>
        rw [List.append_nil] at whole
        exact whole ▸ ordered
      | cons head more =>
        obtain ⟨rfl,_⟩ := List.cons_eq_cons.mp tail
        exact absurd stopped (none front _ more whole)
  · rw [same]
    exact ⟨fun ⟨front,other,rest,cut,stopped,_⟩ => absurd stopped (none front other rest cut),fun ⟨returned,_⟩ => nomatch returned⟩

theorem yields_sublist (rule : Rrule) (dtstart : Int) (count : Option Int) (days : List Int) :
    (yields rule dtstart count days).1.Sublist days := by
  rcases yields_parts rule dtstart count days with ⟨before,day,after,split,_,_,same⟩ | ⟨_,left,same⟩
  · rw [same,split]
    exact (given_sublist _ _).trans (List.sublist_append_left _ _)
  · rw [same]
    exact given_sublist _ _

theorem yields_mem {count : Option Int} {days : List Int} {day : Int} (yielded : day ∈ (yields rule dtstart count days).1) :
    day ∈ days ∧ dtstart ≤ day ∧ rule.passed day = false := by
  have stopless : ∀ front, (∀ earlier other later, front = earlier ++ other :: later → ¬ Stops rule dtstart count earlier other) →
      day ∈ given dtstart front → dtstart ≤ day ∧ rule.passed day = false := by
    intro front none member
    obtain ⟨there,late⟩ := List.mem_filter.mp member
    obtain ⟨earlier,later,split⟩ := List.append_of_mem there
    refine ⟨by simpa using late,?_⟩
    cases passed : rule.passed day with
    | false => rfl
    | true => exact absurd (.inl passed) (none earlier day later split)
  refine ⟨(yields_sublist rule dtstart count days).subset yielded,?_⟩
  rcases yields_parts rule dtstart count days with ⟨before,_,_,_,_,none,same⟩ | ⟨none,_,same⟩
  · rw [same] at yielded
    exact stopless before none yielded
  · rw [same] at yielded
    exact stopless days none yielded

theorem yields_append (count : Option Int) (one two : List Int) : yields rule dtstart count (one ++ two) =
    match yields rule dtstart count one with
    | (front,none) => (front,none)
    | (front,some left) => (front ++ (yields rule dtstart left two).1,(yields rule dtstart left two).2) := by
  induction one generalizing count with
  | nil => rfl
  | cons day rest ih =>
    rw [List.cons_append]
    by_cases over_ : rule.passed day = true
    · rw [yields_past over_,yields_past over_]
    by_cases early : day < dtstart
    · rw [yields_early over_ early,yields_early over_ early]
      exact ih count
    cases count with
    | none =>
      rw [yields_uncounted over_ early,yields_uncounted over_ early,ih none]
      rcases yields rule dtstart none rest with ⟨front,_ | left⟩ <;> rfl
    | some n =>
      by_cases spent : n-1 < 0
      · rw [yields_spent over_ early spent,yields_spent over_ early spent]
      · rw [yields_counted over_ early spent,yields_counted over_ early spent,ih (some (n-1))]
        rcases yields rule dtstart (some (n-1)) rest with ⟨front,_ | left⟩ <;> rfl

theorem yields_append_returned {count : Option Int} {one : List Int} (two : List Int) (returned : (yields rule dtstart count one).2 = none) :
    yields rule dtstart count (one ++ two) = yields rule dtstart count one := by
  rw [yields_append]
  generalize yields rule dtstart count one = y at *
  obtain ⟨front,left⟩ := y
  cases returned
  rfl

theorem yields_append_left {count left : Option Int} {one : List Int} (two : List Int) (more : (yields rule dtstart count one).2 = some left) :
    yields rule dtstart count (one ++ two) =
      ((yields rule dtstart count one).1 ++ (yields rule dtstart left two).1,(yields rule dtstart left two).2) := by
  rw [yields_append]
  generalize yields rule dtstart count one = y at *
  obtain ⟨front,after⟩ := y
  cases more
  rfl

theorem yields_idle {count : Option Int} {days : List Int} (idle : ∀ day ∈ days, day < dtstart ∧ rule.passed day = false) :
    yields rule dtstart count days = ([],some count) := by
  induction days with
  | nil => rfl
  | cons day rest ih =>
    obtain ⟨⟨early,open_⟩,others⟩ := List.forall_mem_cons.mp idle
    rw [yields_early (by rw [open_]; decide) early]
    exact ih others

end ChronosLedger.RuleExpansion
