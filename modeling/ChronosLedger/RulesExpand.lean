import ChronosLedger.Refusals
import ChronosLedger.RuleYields

namespace ChronosLedger.RuleExpansion
open Steppings

variable {dateutil : Dateutil} {text : String} {rule : Rrule} {dtstart : Int} {κ β : Type} {consumer : Consumer κ β}

-- A consumer of dates in order: `kept` says what it holds when everything it was
-- handed is before a bound.
structure Reads (consumer : Consumer κ β) (kept : Int → κ → Prop) (wanted : Except String β → Prop) : Prop where
  fed : ∀ low given k, kept low k → given.Pairwise (· < ·) → (∀ day ∈ given, low ≤ day) →
    (feed consumer.take given k).Meets (fun k' => ∀ bound, low ≤ bound → (∀ day ∈ given, day < bound) → kept bound k') wanted
  done : ∀ bound k, kept bound k → wanted (consumer.done k)

-- Dates in order, all of them asked for.
def InOrder (first last : Int) (l : List Int) : Prop := l.Pairwise (· < ·) ∧ ∀ day ∈ l, first ≤ day ∧ day ≤ last

def Listing (first last bound : Int) (k : Bool × List Int) : Prop :=
  InOrder first last k.2 ∧ (∀ day ∈ k.2, day < bound) ∧ (k.1 = true → k.2 ≠ [])

theorem InOrder.more {first last day : Int} {l : List Int} (order : InOrder first last l) (later : ∀ other ∈ l, other < day)
    (low : first ≤ day) (high : day ≤ last) : InOrder first last (l ++ [day]) := by
  refine ⟨List.pairwise_append.mpr ⟨order.1,List.pairwise_singleton ..,?_⟩,List.forall_mem_append.mpr ⟨order.2,by simpa using ⟨low,high⟩⟩⟩
  intro other there new member
  rw [List.mem_singleton.mp member]
  exact later other there

theorem between_reads (first last : Int) : Reads (between first last) (Listing first last) (fun result => ∃ l, result = .ok l ∧ InOrder first last l) where
  done := fun bound k kept => ⟨k.2,rfl,kept.1⟩
  fed := by
    intro low given
    induction given generalizing low with
    | nil => exact fun k kept _ _ bound above _ => ⟨kept.1,fun day there => lt_of_lt_of_le (kept.2.1 day there) above,kept.2.2⟩
    | cons day rest ih =>
      rintro ⟨started,l⟩ ⟨order,earlier,some_⟩ sorted above
      obtain ⟨here,others⟩ := List.forall_mem_cons.mp above
      obtain ⟨next,sorted⟩ := List.pairwise_cons.mp sorted
      -- Whatever the date does to the list, the rest is handed over from the day after.
      have on : ∀ k, Listing first last (day+1) k → (feed (between first last).take rest k).Meets
          (fun k' => ∀ bound, low ≤ bound → (∀ other ∈ day :: rest, other < bound) → Listing first last bound k')
          (fun result => ∃ l, result = .ok l ∧ InOrder first last l) := fun k kept => by
        refine (ih (day+1) k kept sorted (fun other there => next other there)).mono (fun k' later bound _ all => ?_)
        exact later bound (all day (by simp)) (fun other there => all other (by simp [there]))
      have stays : Listing first last (day+1) (false,l) :=
        ⟨order,fun other there => lt_of_lt_of_le (earlier other there) (by omega),fun started => nomatch started⟩
      have takes : first ≤ day → day ≤ last → Listing first last (day+1) (true,l ++ [day]) := fun low high => by
        have before : ∀ other ∈ l, other < day := fun other there => lt_of_lt_of_le (earlier other there) here
        refine ⟨order.more before low high,List.forall_mem_append.mpr ⟨fun other there => ?_,by simp⟩,fun _ => by simp⟩
        have := before other there
        omega
      unfold feed
      have taken : (between first last).take (started,l) day = if day > last then .stops (.ok l) else if started = true then .goes (true,l ++ [day])
        else if day ≥ first then .goes (true,l ++ [day]) else .goes (false,l) := rfl
      rw [taken]
      by_cases past : day > last
      · rw [if_pos past]
        exact ⟨l,rfl,order⟩
      rw [if_neg past]
      cases started with
      | true =>
        rw [if_pos rfl,goes_andThen]
        refine on _ (takes ?_ (not_lt.mp past))
        obtain ⟨head,there⟩ := List.exists_mem_of_ne_nil l (some_ rfl)
        have begun := (order.2 head there).1
        have below := earlier head there
        change head < low at below
        omega
      | false =>
        rw [if_neg (by decide)]
        by_cases reached : day ≥ first
        · rw [if_pos reached,goes_andThen]
          exact on _ (takes reached (not_lt.mp past))
        · rw [if_neg reached,goes_andThen]
          exact on _ stays

theorem afterOrAt_reads (day : Int) : Reads (afterOrAt day) (fun _ _ => True) (fun result => ∃ hit, result = .ok hit) where
  done := fun _ _ _ => ⟨none,rfl⟩
  fed := by
    intro low given
    induction given generalizing low with
    | nil => exact fun _ _ _ _ _ _ _ => trivial
    | cons hit rest ih =>
      intro k _ sorted above
      unfold feed
      have taken : (afterOrAt day).take k hit = if hit ≥ day then .stops (.ok (some hit)) else .goes () := rfl
      rw [taken]
      by_cases reached : hit ≥ day
      · rw [if_pos reached]
        exact ⟨some hit,rfl⟩
      · rw [if_neg reached,goes_andThen]
        exact (ih low () trivial (List.pairwise_cons.mp sorted).2 (fun other there => above other (by simp [there]))).mono
          (fun _ _ _ _ _ => trivial)

theorem exists_above (low : Int) (days : List Int) : ∃ bound, low ≤ bound ∧ ∀ day ∈ days, day < bound := by
  induction days with
  | nil => exact ⟨low,le_refl _,by simp⟩
  | cons day rest ih =>
    obtain ⟨bound,above,all⟩ := ih
    refine ⟨max bound (day+1),le_trans above (le_max_left _ _),List.forall_mem_cons.mpr ⟨?_,fun other there => ?_⟩⟩
    · have := le_max_right bound (day+1)
      omega
    · exact lt_of_lt_of_le (all other there) (le_max_left _ _)

theorem days_parts {at_ day : Int} (there : day ∈ rule.days at_) : rule.opens at_ ≤ day ∧ day ≤ rule.closes at_ ∧ 1 ≤ day ∧ day ≤ maxDay := by
  obtain ⟨low,high⟩ := mem_datesBetween.mp there
  exact ⟨le_trans (le_max_right _ _) low,le_trans high (min_le_right _ _),le_trans (le_max_left _ _) low,le_trans high (min_le_left _ _)⟩

-- The dates of one step, as the BY parts leave them.
def stepDates (dateutil : Dateutil) (text : String) (rule : Rrule) (dtstart at_ : Int) : List Int :=
  dateutil.matching text dtstart (rule.days at_)

theorem stepDates_sorted (at_ : Int) : (stepDates dateutil text rule dtstart at_).Pairwise (· < ·) :=
  (datesBetween_ordered _ _).sublist (dateutil.matching_sublist _ _ _)

theorem stepDates_parts {at_ day : Int} (there : day ∈ stepDates dateutil text rule dtstart at_) :
    rule.opens at_ ≤ day ∧ day ≤ rule.closes at_ ∧ 1 ≤ day ∧ day ≤ maxDay :=
  days_parts ((dateutil.matching_sublist _ _ _).subset there)

theorem turnOn_returned {days : List Int} {count : Option Int} (k : κ) (returned : (yields rule dtstart count days).2 = none) :
    turnOn consumer rule dtstart days count k =
      (feed consumer.take (yields rule dtstart count days).1 k).andThen (fun k => .stops (consumer.done k)) := by
  change (feed consumer.take (yields rule dtstart count days).1 k).andThen _ = _
  rw [returned]

theorem turnOn_left {days : List Int} {count left : Option Int} (k : κ) (more : (yields rule dtstart count days).2 = some left) :
    turnOn consumer rule dtstart days count k =
      (feed consumer.take (yields rule dtstart count days).1 k).andThen (fun k => .goes (left,k)) := by
  change (feed consumer.take (yields rule dtstart count days).1 k).andThen _ = _
  rw [more]

section
variable {kept : Int → κ → Prop} {wanted : Except String β → Prop} (reads : Reads consumer kept wanted)
include reads

-- What is yielded of dates in order leaves the consumer with all of it read.
theorem Reads.turn {low : Int} {days : List Int} {k : κ} (before : kept low k) (count : Option Int)
    (sorted : (yields rule dtstart count days).1.Pairwise (· < ·)) (above : ∀ day ∈ (yields rule dtstart count days).1, low ≤ day) :
    (turnOn consumer rule dtstart days count k).Meets
      (fun ended => ∀ bound, low ≤ bound → (∀ day ∈ (yields rule dtstart count days).1, day < bound) → kept bound ended.2) wanted := by
  refine (reads.fed low _ k before sorted above).andThen _ (fun k' later => ?_)
  cases (yields rule dtstart count days).2 with
  | some left => exact later
  | none =>
    obtain ⟨bound,over_,all⟩ := exists_above low (yields rule dtstart count days).1
    exact reads.done bound k' (later bound over_ all)

theorem Reads.used {days : List Int} {k : κ} (used : UsedUp rule dtstart days) (start : ∀ bound, kept bound k) :
    ∃ result, turnOn consumer rule dtstart days rule.count k = .stops result ∧ wanted result := by
  obtain ⟨returned,sorted⟩ := usedUp_yields.mp used
  have met := reads.turn (start dtstart) rule.count sorted (fun day there => (yields_mem there).2.1)
  rw [turnOn_returned k returned] at met ⊢
  cases fed : feed consumer.take (yields rule dtstart rule.count days).1 k with
  | goes k' =>
    rw [fed] at met
    exact ⟨_,rfl,met⟩
  | stops result =>
    rw [fed] at met
    exact ⟨_,rfl,met⟩

-- Stepping forward ends with the calendar at the latest.
theorem Reads.forward (forward : 1 ≤ rule.interval) (dated : 1 ≤ dtstart) {k : κ} (start : ∀ bound, kept bound k) :
    ∃ result, Comes (expand dateutil consumer text rule dtstart k) result ∧ wanted result := by
  refine loop_meets (fun s => kept (rule.opens s.1) s.2.2 ∧ 1 ≤ rule.closes s.1) (fun s => (maxDay+1-rule.opens s.1).toNat) ?_
    ⟨start _,le_trans dated (starts_covers rule dtstart).2⟩
  rintro ⟨at_,count,k⟩ ⟨before,within⟩
  change 1 ≤ rule.closes at_ at within
  have part := yields_sublist rule dtstart count (stepDates dateutil text rule dtstart at_)
  have met := @Reads.turn rule dtstart _ _ _ _ _ reads _ _ _ before count ((stepDates_sorted at_).sublist part)
    (fun day there => (stepDates_parts (part.subset there)).1)
  refine met.andThen _ (fun ended later => ?_)
  have ahead := advance_later forward at_
  have open_ := opens_closes rule at_
  have next := opens_closes rule (rule.advance at_)
  have after := later (rule.opens (rule.advance at_)) (le_trans open_ (le_of_lt ahead))
    (fun day there => lt_of_le_of_lt (stepDates_parts (part.subset there)).2.1 ahead)
  unfold stepOn
  dsimp only
  split
  · exact reads.done _ _ after
  · rw [if_neg (by omega)]
    refine ⟨⟨after,?_⟩,?_⟩
    · change 1 ≤ rule.closes (rule.advance at_)
      omega
    · change (maxDay+1-rule.opens (rule.advance at_)).toNat < (maxDay+1-rule.opens at_).toNat
      omega

end

theorem turnOn_append (one two : List Int) (count : Option Int) (k : κ) : turnOn consumer rule dtstart (one ++ two) count k =
    (turnOn consumer rule dtstart one count k).andThen (fun ended => turnOn consumer rule dtstart two ended.1 ended.2) := by
  cases left : (yields rule dtstart count one).2 with
  | none =>
    have same := yields_append_returned two left
    rw [turnOn_returned k (by rw [same,left]),turnOn_returned k left,same]
    cases feed consumer.take (yields rule dtstart count one).1 k <;> rfl
  | some after =>
    rw [turnOn_left k left]
    change (feed consumer.take (yields rule dtstart count (one ++ two)).1 k).andThen _ = _
    rw [yields_append_left two left,feed_append]
    cases feed consumer.take (yields rule dtstart count one).1 k <;> rfl

def earlySteps (dateutil : Dateutil) (text : String) (rule : Rrule) (dtstart : Int) : List Int :=
  let one := rule.starts dtstart
  let two := rule.advance one
  stepDates dateutil text rule dtstart one ++ (stepDates dateutil text rule dtstart two ++ stepDates dateutil text rule dtstart (rule.advance two))

-- From a step that stays where it is the loop goes on with what the step left.
theorem still_step (still : rule.interval = 0) {at_ : Int} (low : 1 ≤ rule.closes at_) (high : rule.opens at_ ≤ maxDay) (count : Option Int) (k : κ) :
    turnOf dateutil consumer text rule dtstart (at_,count,k) =
      (turnOn consumer rule dtstart (stepDates dateutil text rule dtstart at_) count k).andThen
        (fun ended => .goes (rule.advance at_,ended.1,ended.2)) := by
  obtain ⟨opens,closes,_⟩ := advance_still still at_
  unfold turnOf
  congr 1
  funext ended
  unfold stepOn
  dsimp only
  rw [if_neg (by omega),if_neg (by omega)]

-- Two steps that stay put and are made of the same three turns.
theorem still_run (still : rule.interval = 0) (low : 1 ≤ dtstart) (high : dtstart ≤ maxDay) (k : κ) :
    (∀ result, turnOn consumer rule dtstart (earlySteps dateutil text rule dtstart) rule.count k = .stops result →
      Comes (expand dateutil consumer text rule dtstart k) result) ∧
    ∀ left k', turnOn consumer rule dtstart (earlySteps dateutil text rule dtstart) rule.count k = .goes (left,k') →
      ∀ result, Comes (expand dateutil consumer text rule dtstart k) result →
        Comes (loop (turnOf dateutil consumer text rule dtstart) · (rule.advance (rule.starts dtstart),left,k')) result := by
  obtain ⟨covers,covered⟩ := starts_covers rule dtstart
  obtain ⟨opens,closes,again⟩ := advance_still still (rule.starts dtstart)
  have first : turnOf dateutil consumer text rule dtstart (rule.starts dtstart,rule.count,k) = _ :=
    still_step still (by omega) (by omega) rule.count k
  have later : ∀ count k, turnOf dateutil consumer text rule dtstart (rule.advance (rule.starts dtstart),count,k) = _ :=
    still_step still (by omega) (by omega)
  rw [again] at later
  unfold earlySteps
  dsimp only
  rw [again,turnOn_append]
  cases one : turnOn consumer rule dtstart (stepDates dateutil text rule dtstart (rule.starts dtstart)) rule.count k with
  | stops result =>
    rw [one] at first
    refine ⟨fun other same => ?_,fun _ _ same => nomatch same⟩
    cases same
    exact loop_stops first
  | goes ended =>
    rw [one] at first
    rw [goes_andThen,turnOn_append]
    have second := later ended.1 ended.2
    cases two : turnOn consumer rule dtstart (stepDates dateutil text rule dtstart (rule.advance (rule.starts dtstart))) ended.1 ended.2 with
    | stops result =>
      rw [two] at second
      refine ⟨fun other same => ?_,fun _ _ same => nomatch same⟩
      cases same
      exact (loop_goes first).mpr (loop_stops second)
    | goes ended' =>
      rw [two] at second
      rw [goes_andThen]
      have third := later ended'.1 ended'.2
      refine ⟨fun other same => ?_,fun left k' same result comes => ?_⟩
      · rw [same] at third
        exact (loop_goes first).mpr ((loop_goes second).mpr (loop_stops third))
      · rw [same] at third
        exact (loop_goes third).mp ((loop_goes second).mp ((loop_goes first).mp comes))

-- Nobody asked for fewer dates than there are, so none is refused or left out.
theorem between_all (l given_ : List Int) (started : Bool) (inside : ∀ day ∈ given_, dtstart ≤ day ∧ day ≤ maxDay) :
    ∃ started', feed (between dtstart maxDay).take given_ (started,l) = .goes (started',l ++ given_) := by
  induction given_ generalizing l started with
  | nil => exact ⟨started,by rw [List.append_nil]; rfl⟩
  | cons day rest ih =>
    obtain ⟨⟨low,high⟩,others⟩ := List.forall_mem_cons.mp inside
    have taken : (between dtstart maxDay).take (started,l) day = .goes (true,l ++ [day]) := by
      change (if day > maxDay then _ else if started = true then _ else if day ≥ dtstart then _ else _) = _
      rw [if_neg (not_lt.mpr high)]
      split <;> rfl
    obtain ⟨started',fed⟩ := ih (l ++ [day]) true others
    refine ⟨started',?_⟩
    unfold feed
    rw [taken,goes_andThen,fed,List.append_assoc]
    rfl

-- A date once listed stays where it is in the list.
theorem between_extends (first last : Int) (given_ l : List Int) (k : Bool × List Int) (listed : l <+: k.2) :
    (feed (between first last).take given_ k).Meets (fun k' => l <+: k'.2) (fun result => ∀ dates, result = .ok dates → l <+: dates) := by
  induction given_ generalizing k with
  | nil => exact listed
  | cons day rest ih =>
    refine Turn.Meets.andThen (fun k' : Bool × List Int => l <+: k'.2) ?_ (fun k' => ih k')
    change (if day > last then .stops (.ok k.2) else if k.1 = true then .goes (true,k.2 ++ [day])
      else if day ≥ first then .goes (true,k.2 ++ [day]) else .goes (false,k.2) : Turn (Bool × List Int) (Except String (List Int))).Meets _ _
    split
    · intro dates same
      cases same
      exact listed
    · split
      · exact listed.trans (List.prefix_append ..)
      · split
        · exact listed.trans (List.prefix_append ..)
        · exact listed

-- occurrences, occurs_on and first_occurrence all come back, the first with
-- dates in order inside what was asked for.
structure Expands (dateutil : Dateutil) (text : String) (dtstart : Int) : Prop where
  listed : ∀ first last, ∃ dates, Comes (occurrences dateutil text dtstart first last) (.ok dates) ∧ InOrder (max first dtstart) last dates
  asked : ∀ day, ∃ answer, Comes (occursOn dateutil text dtstart day) (.ok answer)
  found : ∃ hit, Comes (firstOccurrence dateutil text dtstart) (.ok hit)

theorem occurrences_parsed (read : dateutil.rrulestr text = .ok rule) {first last : Int} (some_ : ¬ max first dtstart > last) :
    occurrences dateutil text dtstart first last = expand dateutil (between (max first dtstart) last) text rule dtstart (false,[]) := by
  funext fuel
  unfold occurrences
  dsimp only
  rw [if_neg some_,read]

theorem firstOccurrence_parsed (read : dateutil.rrulestr text = .ok rule) (day : Int) :
    firstOccurrence dateutil text day = expand dateutil (afterOrAt day) text rule day () := by
  funext fuel
  unfold firstOccurrence
  rw [read]

theorem Listing.empty (first last bound : Int) : Listing first last bound (false,[]) := ⟨⟨.nil,by simp⟩,by simp,by simp⟩

-- A rule whose expansion ends for everyone who reads dates in order.
theorem expands_of_ends (read : dateutil.rrulestr text = .ok rule)
    (ends : ∀ {κ β : Type} {consumer : Consumer κ β} {kept wanted}, Reads consumer kept wanted → ∀ k, (∀ bound, kept bound k) →
      ∃ result, Comes (expand dateutil consumer text rule dtstart k) result ∧ wanted result) : Expands dateutil text dtstart := by
  have listed : ∀ first last, ∃ dates, Comes (occurrences dateutil text dtstart first last) (.ok dates) ∧ InOrder (max first dtstart) last dates := by
    intro first last
    by_cases none : max first dtstart > last
    · refine ⟨[],⟨0,fun fuel _ => ?_⟩,.nil,by simp⟩
      unfold occurrences
      exact if_pos none
    · rw [occurrences_parsed read none]
      obtain ⟨result,comes,dates,rfl,order⟩ := ends (between_reads (max first dtstart) last) (false,[]) (Listing.empty _ _)
      exact ⟨dates,comes,order⟩
  refine ⟨listed,fun day => ?_,?_⟩
  · obtain ⟨dates,⟨bound,always⟩,_⟩ := listed day day
    exact ⟨!dates.isEmpty,bound,fun fuel enough => by unfold occursOn; rw [always fuel enough]; rfl⟩
  · rw [firstOccurrence_parsed read]
    obtain ⟨_,comes,hit,rfl⟩ := ends (afterOrAt_reads dtstart) () (fun _ => trivial)
    exact ⟨hit,comes⟩

-- What the whole calendar asked for comes to, if the rule expands.
theorem Expands.whole (expands : Expands dateutil text dtstart) (read : dateutil.rrulestr text = .ok rule) (high : dtstart ≤ maxDay) :
    ∃ dates, Comes (expand dateutil (between dtstart maxDay) text rule dtstart (false,[])) (.ok dates) ∧ dates.Pairwise (· < ·) := by
  obtain ⟨dates,comes,order⟩ := expands.listed dtstart maxDay
  rw [occurrences_parsed read (by rw [max_self]; omega),max_self] at comes
  exact ⟨dates,comes,order.1⟩

theorem earlySteps_dated {day : Int} (there : day ∈ earlySteps dateutil text rule dtstart) : day ≤ maxDay := by
  rcases List.mem_append.mp there with one | rest
  · exact (stepDates_parts one).2.2.2
  · rcases List.mem_append.mp rest with two | three
    · exact (stepDates_parts two).2.2.2
    · exact (stepDates_parts three).2.2.2

-- Steps that yield nothing more and use nothing up go on for ever.
theorem still_idle (still : rule.interval = 0) {at_ : Int} (stays : rule.advance at_ = at_) (low : 1 ≤ rule.closes at_) (high : rule.opens at_ ≤ maxDay)
    (idle : ∀ day ∈ stepDates dateutil text rule dtstart at_, day < dtstart ∧ rule.passed day = false) (count : Option Int) (k : κ)
    (result : Except String β) : ¬ Comes (loop (turnOf dateutil consumer text rule dtstart) · (at_,count,k)) result := by
  intro comes
  refine loop_only (fun s => s.1 = at_) (fun _ => False) ?_ rfl comes
  rintro ⟨here,count,k⟩ rfl
  have nothing : yields rule dtstart count _ = ([],some count) := yields_idle idle
  rw [still_step still low high,turnOn_left k (by rw [nothing]),nothing]
  exact stays

-- A date listed twice stays listed twice.
theorem still_twice (still : rule.interval = 0) {at_ : Int} (stays : rule.advance at_ = at_) (low : 1 ≤ rule.closes at_) (high : rule.opens at_ ≤ maxDay)
    {first last : Int} {count : Option Int} {k : Bool × List Int} {dates : List Int}
    (comes : Comes (loop (turnOf dateutil (between first last) text rule dtstart) · (at_,count,k)) (.ok dates)) : k.2 <+: dates := by
  refine loop_only (fun s => s.1 = at_ ∧ k.2 <+: s.2.2.2) (fun result => ∀ dates, result = .ok dates → k.2 <+: dates) ?_
    ⟨rfl,List.prefix_rfl⟩ comes dates rfl
  rintro ⟨here,count,k'⟩ ⟨rfl,listed⟩
  rw [still_step still low high]
  have fed := between_extends first last (yields rule dtstart count (stepDates dateutil text rule dtstart here)).1 k.2 k' listed
  refine Turn.Meets.andThen (fun ended : Option Int × Bool × List Int => k.2 <+: ended.2.2) ?_ (fun ended kept => ⟨stays,kept⟩)
  refine Turn.Meets.andThen _ fed (fun k'' kept => ?_)
  dsimp only
  cases (yields rule dtstart count (stepDates dateutil text rule dtstart here)).2 with
  | some left => exact kept
  | none =>
    intro dates same
    cases same
    exact kept

theorem still_exact (read : dateutil.rrulestr text = .ok rule) (still : rule.interval = 0) (low : 1 ≤ dtstart) (high : dtstart ≤ maxDay) :
    Expands dateutil text dtstart ↔ UsedUp rule dtstart (earlySteps dateutil text rule dtstart) := by
  constructor
  · intro expands
    obtain ⟨dates,comes,sorted⟩ := expands.whole read high
    obtain ⟨ends,goes⟩ := @still_run dateutil text rule dtstart _ _ (between dtstart maxDay) still low high (false,[])
    obtain ⟨started,fed⟩ := between_all [] (yields rule dtstart rule.count (earlySteps dateutil text rule dtstart)).1 false
      (fun day there => ⟨(yields_mem there).2.1,earlySteps_dated (yields_mem there).1⟩)
    rw [List.nil_append] at fed
    rw [usedUp_yields]
    cases returned : (yields rule dtstart rule.count (earlySteps dateutil text rule dtstart)).2 with
    | none =>
      have came := ends (.ok (yields rule dtstart rule.count (earlySteps dateutil text rule dtstart)).1) (by
        rw [turnOn_returned _ returned,fed]
        rfl)
      cases comes.only came
      exact ⟨rfl,sorted⟩
    | some left =>
      have went := goes left (started,(yields rule dtstart rule.count (earlySteps dateutil text rule dtstart)).1)
        (by rw [turnOn_left _ returned,fed]; rfl) _ comes
      obtain ⟨covers,covered⟩ := starts_covers rule dtstart
      obtain ⟨opens,closes,stays⟩ := advance_still still (rule.starts dtstart)
      rcases yields_parts rule dtstart rule.count (earlySteps dateutil text rule dtstart) with ⟨_,_,_,_,_,_,same⟩ | ⟨none,_,same⟩
      · rw [same] at returned
        cases returned
      let again := stepDates dateutil text rule dtstart (rule.advance (rule.starts dtstart))
      have whole : earlySteps dateutil text rule dtstart = stepDates dateutil text rule dtstart (rule.starts dtstart) ++ (again ++ again) := by
        unfold earlySteps
        dsimp only
        rw [stays]
      by_cases idle : given dtstart again = []
      · refine absurd went (still_idle still stays (by omega) (by omega) (fun day there => ?_) _ _ _)
        have early := List.filter_eq_nil_iff.mp idle day there
        simp only [decide_eq_true_eq,not_le] at early
        refine ⟨early,?_⟩
        cases passed : rule.passed day with
        | false => rfl
        | true =>
          have member : day ∈ earlySteps dateutil text rule dtstart := by
            rw [whole]
            exact List.mem_append_right _ (List.mem_append_left _ there)
          obtain ⟨before,after,split⟩ := List.append_of_mem member
          exact absurd (.inl passed) (none before day after split)
      · -- The second and the third step have listed the same dates.
        have kept := still_twice still stays (by omega) (by omega) went
        rw [same,whole,given_append,given_append] at kept
        have order := sorted.sublist kept.sublist
        obtain ⟨day,there⟩ := List.exists_mem_of_ne_nil _ idle
        exact absurd ((List.pairwise_append.mp (List.pairwise_append.mp order).2.1).2.2 day there day there) (lt_irrefl day)
  · intro used
    refine expands_of_ends read (fun reads k start => ?_)
    obtain ⟨result,stopped,good⟩ := reads.used used start
    exact ⟨result,(still_run still low high k).1 result stopped,good⟩

section
variable (back : rule.interval ≤ -1) (open_ : ∀ day, day < dtstart → rule.passed day = false)
include open_

-- Steps that have gone back before the start yield nothing and use nothing up.
theorem before_idle {at_ : Int} (gone : rule.closes at_ < dtstart) :
    ∀ day ∈ stepDates dateutil text rule dtstart at_, day < dtstart ∧ rule.passed day = false := by
  intro day there
  have early : day < dtstart := lt_of_le_of_lt (stepDates_parts there).2.1 gone
  exact ⟨early,open_ day early⟩

include back

theorem back_first : UsedUp rule dtstart (earlySteps dateutil text rule dtstart) ↔
    (yields rule dtstart rule.count (stepDates dateutil text rule dtstart (rule.starts dtstart))).2 = none := by
  have covers := (starts_covers rule dtstart).1
  have one := advance_earlier back (rule.starts dtstart)
  have two := advance_earlier back (rule.advance (rule.starts dtstart))
  have open_closes := opens_closes rule (rule.advance (rule.starts dtstart))
  rw [usedUp_yields]
  unfold earlySteps
  dsimp only
  cases returned : (yields rule dtstart rule.count (stepDates dateutil text rule dtstart (rule.starts dtstart))).2 with
  | none =>
    rw [yields_append_returned _ returned,returned]
    exact ⟨fun _ => rfl,fun _ => ⟨rfl,(stepDates_sorted _).sublist (yields_sublist _ _ _ _)⟩⟩
  | some left =>
    have second : ∀ day ∈ stepDates dateutil text rule dtstart (rule.advance (rule.starts dtstart)), _ := before_idle open_ (by omega)
    have third : ∀ day ∈ stepDates dateutil text rule dtstart (rule.advance (rule.advance (rule.starts dtstart))), _ :=
      before_idle open_ (by omega)
    have rest : yields rule dtstart left _ = ([],some left) := yields_idle (List.forall_mem_append.mpr ⟨second,third⟩)
    rw [yields_append_left _ returned,rest]
    exact ⟨fun used => (nomatch used.1),fun used => nomatch used⟩

-- The first step ends it or nothing does but the end of the calendar below.
theorem back_exact (read : dateutil.rrulestr text = .ok rule) (high : dtstart ≤ maxDay) :
    Expands dateutil text dtstart ↔ UsedUp rule dtstart (earlySteps dateutil text rule dtstart) := by
  have covers := (starts_covers rule dtstart).1
  constructor
  · intro expands
    rw [back_first back open_]
    obtain ⟨dates,comes,_⟩ := expands.whole read high
    cases returned : (yields rule dtstart rule.count (stepDates dateutil text rule dtstart (rule.starts dtstart))).2 with
    | none => rfl
    | some left =>
      obtain ⟨started,fed⟩ := between_all []
        (yields rule dtstart rule.count (stepDates dateutil text rule dtstart (rule.starts dtstart))).1 false
        (fun day there => ⟨(yields_mem there).2.1,(stepDates_parts (yields_mem there).1).2.2.2⟩)
      let start : Int × Option Int × Bool × List Int := (rule.starts dtstart,rule.count,false,[])
      obtain ⟨raised,error⟩ : ∃ raised, (Except.ok dates : Except String (List Int)) = .error raised := by
        refine loop_only (fun s => s = start ∨ rule.closes s.1 < dtstart) (fun result => ∃ raised, result = .error raised) ?_
          (.inl rfl) comes
        -- Every step after the first has gone back.
        have stepped : ∀ at_ count k, rule.opens at_ ≤ dtstart → (stepOn (between dtstart maxDay) rule at_ count k).Meets
            (fun s => s = start ∨ rule.closes s.1 < dtstart) (fun result => ∃ raised, result = .error raised) := by
          intro at_ count k reached
          have earlier := advance_earlier back at_
          have open_closes := opens_closes rule (rule.advance at_)
          unfold stepOn
          dsimp only
          rw [if_neg (by omega)]
          split
          · exact ⟨_,rfl⟩
          · exact .inr (lt_of_lt_of_le earlier reached)
        rintro s (rfl | gone)
        · unfold turnOf
          rw [show dateutil.matching text dtstart (rule.days start.1) = stepDates dateutil text rule dtstart (rule.starts dtstart) from rfl,
            turnOn_left _ returned,fed]
          exact stepped _ _ _ covers
        · obtain ⟨at_,count,k⟩ := s
          have nothing : yields rule dtstart count (stepDates dateutil text rule dtstart at_) = ([],some count) :=
            yields_idle (before_idle open_ gone)
          unfold turnOf
          rw [show dateutil.matching text dtstart (rule.days (at_,count,k).1) = stepDates dateutil text rule dtstart at_ from rfl,
            turnOn_left _ (by rw [nothing]),nothing]
          exact stepped _ _ _ (le_of_lt (lt_of_le_of_lt (opens_closes rule at_) gone))
      cases error
  · intro used
    rw [back_first back open_] at used
    refine expands_of_ends read (fun reads k start => ?_)
    have first : UsedUp rule dtstart (stepDates dateutil text rule dtstart (rule.starts dtstart)) :=
      usedUp_yields.mpr ⟨used,(stepDates_sorted _).sublist (yields_sublist _ _ _ _)⟩
    obtain ⟨result,stopped,good⟩ := reads.used first start
    refine ⟨result,loop_stops ?_,good⟩
    unfold turnOf
    change (turnOn _ rule dtstart (stepDates dateutil text rule dtstart (rule.starts dtstart)) rule.count k).andThen _ = _
    rw [stopped]
    rfl

end

-- A date a rule first gives from somewhere is in the calendar and not past UNTIL.
theorem firstOccurrence_given (read : dateutil.rrulestr text = .ok rule) {day hit : Int}
    (comes : Comes (firstOccurrence dateutil text day) (.ok (some hit))) : 1 ≤ hit ∧ hit ≤ maxDay ∧ rule.passed hit = false := by
  rw [firstOccurrence_parsed read] at comes
  refine loop_only (fun _ => True) (fun result => ∀ hit, result = .ok (some hit) → 1 ≤ hit ∧ hit ≤ maxDay ∧ rule.passed hit = false)
    ?_ trivial comes hit rfl
  rintro ⟨at_,count,k⟩ _
  have fed : ∀ days k, (∀ day ∈ days, 1 ≤ day ∧ day ≤ maxDay ∧ rule.passed day = false) →
      (feed (afterOrAt day).take days k).Meets (fun _ => True) (fun result => ∀ hit, result = .ok (some hit) →
        1 ≤ hit ∧ hit ≤ maxDay ∧ rule.passed hit = false) := by
    intro days k good
    induction days generalizing k with
    | nil => trivial
    | cons first rest ih =>
      obtain ⟨here,others⟩ := List.forall_mem_cons.mp good
      refine Turn.Meets.andThen (fun _ => True) ?_ (fun k _ => ih k others)
      change (if first ≥ day then .stops (.ok (some first)) else .goes () : Turn Unit (Except String (Option Int))).Meets _ _
      split
      · intro hit same
        cases same
        exact here
      · trivial
  have left : ∀ k : Unit, ∀ hit, (afterOrAt day).done k = .ok (some hit) → 1 ≤ hit ∧ hit ≤ maxDay ∧ rule.passed hit = false :=
    fun _ _ same => nomatch same
  refine Turn.Meets.andThen (fun _ => True) ?_ (fun ended _ => ?_)
  · refine Turn.Meets.andThen _ (fed _ k (fun day there => ?_)) (fun k' _ => ?_)
    · obtain ⟨member,_,passed⟩ := yields_mem there
      exact ⟨(stepDates_parts member).2.2.1,(stepDates_parts member).2.2.2,passed⟩
    · dsimp only
      split
      · trivial
      · exact left k'
  · unfold stepOn
    dsimp only
    split
    · exact left ended.2
    · split
      · exact fun _ same => nomatch same
      · trivial

theorem passed_earlier {day hit : Int} (open_ : rule.passed hit = false) (earlier : day < hit) : rule.passed day = false := by
  unfold Rrule.passed at open_ ⊢
  cases known : rule.until_ with
  | none => rfl
  | some last =>
    rw [known] at open_
    simp only [Option.any_some,decide_eq_false_iff_not,not_lt] at open_ ⊢
    exact le_trans (midnight_le.mpr (le_of_lt earlier)) open_

theorem normalize_read {strip upper : String → String} {value : String} (accepted : normalize dateutil strip upper value = .ok text) :
    ∃ rule, dateutil.rrulestr text = .ok rule := by
  unfold normalize at accepted
  obtain ⟨_,_,accepted⟩ := bind_parts.mp accepted
  obtain ⟨_,_,accepted⟩ := bind_parts.mp accepted
  obtain ⟨_,_,accepted⟩ := bind_parts.mp accepted
  obtain ⟨_,_,accepted⟩ := bind_parts.mp accepted
  obtain ⟨_,_,accepted⟩ := bind_parts.mp accepted
  obtain ⟨_,_,accepted⟩ := bind_parts.mp accepted
  obtain ⟨_,_,accepted⟩ := bind_parts.mp accepted
  split at accepted
  · cases accepted
  · rename_i rule read
    cases accepted
    exact ⟨rule,read⟩

theorem anchor_first {onOrAfter : Int} (anchored : Comes (anchor dateutil text onOrAfter) (.ok dtstart)) :
    Comes (firstOccurrence dateutil text onOrAfter) (.ok (some dtstart)) := by
  obtain ⟨bound,always⟩ := anchored
  refine ⟨bound,fun fuel enough => ?_⟩
  obtain ⟨ended,came,same⟩ := Option.map_eq_some_iff.mp (always fuel enough)
  rw [came]
  rcases ended with raised | none | hit
  · cases same
  · cases same
  · cases same
    rfl

-- dateutil on rules of FREQ, INTERVAL and COUNT alone, for concrete runs.
def plainNumber (setting : String) : Option Int :=
  let value (digits : List Char) : Option Int :=
    if digits ≠ [] ∧ digits.all Char.isDigit then some (digits.foldl (fun n c => 10*n+((c.toNat : Int)-48)) 0) else none
  match setting.toList with
  | '-' :: digits => (value digits).map (fun n => -n)
  | digits => value digits

def plainFrequency (setting : String) : Option Frequency :=
  [("YEARLY",Frequency.yearly),("MONTHLY",.monthly),("WEEKLY",.weekly),("DAILY",.daily)].lookup setting

def plainRrulestr (text : String) : Except String Rrule := do
  let parts ← (text.toList.splitOn ';').mapM partOf
  check (parts.all (fun part => part.1 ∈ ["FREQ","INTERVAL","COUNT"])) "unknown parameter"
  match (settingOf parts "FREQ").bind plainFrequency,(settingOf parts "INTERVAL").elim (some 1) plainNumber,
    (settingOf parts "COUNT").elim (some none) (fun setting => (plainNumber setting).map some) with
  | some freq,some interval,some count => .ok ⟨freq,interval,0,count,none⟩
  | _,_,_ => .error "invalid parameter"

def sameDay (freq : Frequency) (dtstart day : Int) : Bool :=
  match freq with
  | .daily => true
  | .weekly => weekday day = weekday dtstart
  | .monthly => civilDay day = civilDay dtstart
  | .yearly => civilMonth day = civilMonth dtstart ∧ civilDay day = civilDay dtstart

def plainDateutil : Dateutil where
  rrulestr := plainRrulestr
  matching := fun text dtstart days => days.filter (fun day => (plainRrulestr text).toOption.any (fun rule => sameDay rule.freq dtstart day))
  matching_sublist := fun _ _ _ => List.filter_sublist

theorem first_anchor {onOrAfter : Int} (found : Comes (firstOccurrence dateutil text onOrAfter) (.ok (some dtstart))) :
    Comes (anchor dateutil text onOrAfter) (.ok dtstart) := by
  obtain ⟨bound,always⟩ := found
  exact ⟨bound,fun fuel enough => by unfold anchor; rw [always fuel enough]; rfl⟩

-- The start is the first date of its own rule.
theorem anchored_once (read : dateutil.rrulestr text = .ok rule)
    (first : turnOf dateutil (afterOrAt dtstart) text rule dtstart (rule.starts dtstart,rule.count,()) = .stops (.ok (some dtstart))) :
    Comes (anchor dateutil text dtstart) (.ok dtstart) := by
  refine first_anchor ?_
  rw [firstOccurrence_parsed read]
  exact loop_stops first

-- COUNT ends it where the one step has enough dates, and only there.
example : UsedUp ⟨.daily,0,0,some 1,none⟩ 738000 (earlySteps plainDateutil "FREQ=DAILY;INTERVAL=0;COUNT=1" ⟨.daily,0,0,some 1,none⟩ 738000) :=
  usedUp_yields.mpr (by decide +kernel)

end ChronosLedger.RuleExpansion
