import ChronosLedger.ScheduledJobs
import Mathlib.Data.List.Perm.Basic

namespace ChronosLedger.Scheduled

variable {zone : Zone} {settings : Settings} {table : JobTable} {at_ : Time} {base wall lo hi previous mid current : Int} {jumps : List Jump}

-- A date at a jump: where the clock goes back, a wall time it has read is not of
-- a date after the one it goes back to; where it goes forward over a wall time,
-- the run, which is as long after the jump, is not after the next midnight.
def KeepsDate (wall lo hi : Int) : Int → List Jump → Prop
  | _,[] => True
  | base,jump :: rest => (jump.offset < base → wall < jump.at_+base → lo ≤ jump.at_+jump.offset) ∧
      (jump.at_+base < wall → wall < jump.at_+jump.offset → wall+(jump.offset-base) ≤ hi) ∧ KeepsDate wall lo hi jump.offset rest

-- The run of a wall time and the local date are passed in step.
def InStep (wall lo hi base : Int) (jumps : List Jump) : Prop := ∀ instant,
  (wall-wallOffset base jumps wall ≤ instant → lo ≤ instant+offsetAt base jumps instant) ∧
    (instant < wall-wallOffset base jumps wall → instant+offsetAt base jumps instant < hi)

-- Up to the next jump, and up to the end of what that jump repeats or skips, the
-- offset is this one.
theorem offset_before {jump : Jump} (settled : JumpsApart base (jump :: jumps)) {instant : Int}
    (early : instant < jump.at_+(jump.offset-base) ∨ instant < jump.at_+(base-jump.offset)) :
    offsetAt jump.offset jumps instant = jump.offset := by
  cases jumps with
  | nil => rfl
  | cons next rest =>
    obtain ⟨apart,_⟩ := settled
    have apart := apart next rfl
    have later : ¬ next.at_ ≤ instant := by omega
    simp only [offsetAt,if_neg later]

theorem wall_before {jump : Jump} (settled : JumpsApart base (jump :: jumps)) (early : wall < jump.at_+max base jump.offset) :
    wallOffset jump.offset jumps wall = jump.offset := by
  cases jumps with
  | nil => rfl
  | cons next rest =>
    obtain ⟨apart,_⟩ := settled
    have apart := apart next rfl
    have later : ¬ next.at_+max jump.offset next.offset ≤ wall := by omega
    simp only [wallOffset,if_neg later]

-- A wall time past the jump is read after it.
theorem wall_after {first : Int} (settled : JumpsApart base jumps) (start : first+base ≤ wall) (later : ∀ next ∈ jumps.head?, first ≤ next.at_) :
    first ≤ wall-wallOffset base jumps wall := by
  induction jumps generalizing base first with
  | nil =>
    simp only [wallOffset]
    omega
  | cons jump rest ih =>
    have here := later jump rfl
    simp only [wallOffset]
    split
    · rename_i reached
      obtain ⟨apart,settled'⟩ := settled
      have after := @ih jump.offset jump.at_ settled' (by omega) (fun next listed => by have := apart next listed; omega)
      omega
    · omega

theorem inStep_exact (settled : JumpsApart base jumps) (low : lo ≤ wall) (high : wall < hi) :
    InStep wall lo hi base jumps ↔ KeepsDate wall lo hi base jumps := by
  induction jumps generalizing base with
  | nil =>
    simp only [InStep,KeepsDate,wallOffset,offsetAt,iff_true]
    intro instant
    constructor <;> omega
  | cons jump rest ih =>
    obtain ⟨turn,next⟩ := jump
    obtain ⟨apart,settled'⟩ := id settled
    have after : turn+next ≤ wall → turn ≤ wall-wallOffset next rest wall :=
      fun start => wall_after settled' start (fun one listed => by have := apart one listed; simp only at this; omega)
    have wallEarly := @wall_before base wall rest ⟨turn,next⟩ settled
    have offEarly := fun instant => @offset_before base rest ⟨turn,next⟩ settled instant
    unfold KeepsDate
    rw [← ih settled']
    simp only [InStep,wallOffset,offsetAt] at wallEarly offEarly ⊢
    constructor
    · intro step
      refine ⟨?_,?_,?_⟩
      · intro back read
        have here := (step turn).1
        rw [if_neg (by omega),if_pos (le_refl turn),offEarly turn (by omega)] at here
        exact here (by omega)
      · intro skipped short
        have here := (step (wall-base-1)).2
        rw [if_neg (by omega),if_pos (by omega),offEarly _ (by omega)] at here
        have := here (by omega)
        omega
      · intro instant
        have here := step instant
        by_cases reached : turn ≤ instant
        · rw [if_pos reached] at here
          by_cases later : turn+max base next ≤ wall
          · rw [if_pos later] at here
            exact here
          · rw [if_neg later] at here
            have early := wallEarly (by omega)
            rw [early] at after ⊢
            by_cases soon : instant < turn+(next-base) ∨ instant < turn+(base-next)
            · rw [offEarly instant soon]
              constructor <;> intro _ <;> omega
            · refine ⟨fun _ => here.1 (by omega),?_⟩
              intro _
              omega
        · rw [offEarly instant (by omega)]
          by_cases later : turn+next ≤ wall
          · have := after later
            constructor <;> intro _ <;> omega
          · rw [wallEarly (by omega)]
            constructor <;> intro _ <;> omega
    · intro ⟨back,forth,step⟩ instant
      have here := step instant
      by_cases reached : turn ≤ instant
      · rw [if_pos reached]
        by_cases later : turn+max base next ≤ wall
        · rw [if_pos later]
          exact here
        · rw [if_neg later]
          have early := wallEarly (by omega)
          rw [early] at here
          by_cases soon : instant < turn+(next-base) ∨ instant < turn+(base-next)
          · rw [offEarly instant soon]
            constructor <;> intro _ <;> omega
          · refine ⟨fun _ => here.1 (by omega),?_⟩
            intro _
            omega
      · rw [if_neg reached]
        by_cases later : turn+max base next ≤ wall
        · rw [if_pos later]
          have := after (by omega)
          constructor <;> intro _ <;> omega
        · rw [if_neg later]
          constructor <;> intro _ <;> omega

def KeepsDates (zone : Zone) (at_ : Time) : Prop :=
  ∀ day, KeepsDate (combine day at_) (midnight day) (midnight (day+1)) zone.base zone.jumps

theorem keepsDates_exact (zone : Zone) (at_ : Time) : KeepsDates zone at_ ↔ ∀ day instant,
    (momentOf zone at_ day ≤ instant → day ≤ dateOf (zone.localOf instant)) ∧
      (instant < momentOf zone at_ day → dateOf (zone.localOf instant) ≤ day) := by
  have each : ∀ day, KeepsDate (combine day at_) (midnight day) (midnight (day+1)) zone.base zone.jumps ↔ ∀ instant,
      (momentOf zone at_ day ≤ instant → day ≤ dateOf (zone.localOf instant)) ∧
        (instant < momentOf zone at_ day → dateOf (zone.localOf instant) ≤ day) := by
    intro day
    obtain ⟨low,high⟩ := combine_bounds day at_
    rw [← inStep_exact zone.apart low high]
    apply forall_congr'
    intro instant
    have date : ∀ local_ : Int, (midnight day ≤ local_ ↔ day ≤ dateOf local_) ∧ (local_ < midnight (day+1) ↔ dateOf local_ ≤ day) := by
      intro local_
      simp only [midnight,dateOf]
      omega
    exact and_congr (imp_congr Iff.rfl (date _).1) (imp_congr Iff.rfl (date _).2)
  exact forall_congr' each

theorem days_append (first middle last : Int) (one : first ≤ middle+1) (two : middle ≤ last) :
    days first last = days first middle ++ days (middle+1) last := by
  have count : (last-first+1).toNat = (middle-first+1).toNat+(last-(middle+1)+1).toNat := by omega
  unfold days
  rw [count,List.range_add,List.map_append,List.map_map]
  congr 1
  apply List.map_congr_left
  intro n _
  simp only [Function.comp_apply,Int.ofNat_eq_natCast]
  omega

theorem mem_days {first last day : Int} : day ∈ days first last ↔ first ≤ day ∧ day ≤ last := by
  unfold days
  rw [List.mem_map]
  constructor
  · intro ⟨n,inside,same⟩
    have bound := List.mem_range.mp inside
    simp only [Int.ofNat_eq_natCast] at same
    omega
  · intro ⟨low,high⟩
    refine ⟨(day-first).toNat,List.mem_range.mpr (by omega),?_⟩
    simp only [Int.ofNat_eq_natCast]
    omega

theorem days_sorted (first last : Int) : (days first last).Pairwise (· < ·) := by
  unfold days
  apply List.Pairwise.map _ _ List.pairwise_lt_range
  intro one two less
  simp only [Int.ofNat_eq_natCast]
  omega

-- Of one sorted list, the part before a seam and the part after it.
theorem filter_seam {α : Type} {r : α → α → Prop} {xs : List α} {first second : α → Bool} (sorted : xs.Pairwise r)
    (apart : ∀ x, ¬ (first x = true ∧ second x = true)) (ordered : ∀ x y, r x y → ¬ (second x = true ∧ first y = true)) :
    xs.filter (fun x => first x || second x) = xs.filter first ++ xs.filter second := by
  induction xs with
  | nil => rfl
  | cons x xs ih =>
    obtain ⟨head,sorted⟩ := List.pairwise_cons.mp sorted
    have later := ih sorted
    cases inFirst : first x with
    | true =>
      have out : second x = false := by
        cases inSecond : second x with
        | false => rfl
        | true => exact absurd ⟨inFirst,inSecond⟩ (apart x)
      simp [inFirst,out,later]
    | false =>
      cases inSecond : second x with
      | false => simp [inFirst,inSecond,later]
      | true =>
        have none : xs.filter first = [] := by
          apply List.filter_eq_nil_iff.mpr
          intro y member inFirst'
          exact ordered x y (head y member) ⟨inSecond,inFirst'⟩
        simp [inFirst,inSecond,later,none]

def due (previous current moment : Int) : Bool := previous < moment && moment ≤ current

theorem dailyAt_filter (zone : Zone) (at_ : Time) (previous current : Int) : dailyAt zone at_ previous current =
    ((days (dateOf (zone.localOf previous)) (dateOf (zone.localOf current))).filter
      (fun day => due previous current (momentOf zone at_ day))).map (momentOf zone at_) := by
  unfold dailyAt
  generalize days _ _ = tried
  induction tried with
  | nil => rfl
  | cons day rest ih =>
    by_cases inside : previous < momentOf zone at_ day ∧ momentOf zone at_ day ≤ current
    · simp [due,inside,ih]
    · have out : due previous current (momentOf zone at_ day) = false := by simpa [due] using inside
      simp [out,inside,ih]

-- In step, any dates round the window's own may be tried as well.
theorem dailyAt_wide (keeps : KeepsDates zone at_) {low high : Int} (early : low ≤ dateOf (zone.localOf previous))
    (late : dateOf (zone.localOf current) ≤ high) : dailyAt zone at_ previous current =
      ((days low high).filter (fun day => due previous current (momentOf zone at_ day))).map (momentOf zone at_) := by
  have step := (keepsDates_exact zone at_).mp keeps
  have inside : ∀ day, due previous current (momentOf zone at_ day) = true →
      dateOf (zone.localOf previous) ≤ day ∧ day ≤ dateOf (zone.localOf current) := by
    intro day now
    simp only [due,Bool.and_eq_true,decide_eq_true_eq] at now
    exact ⟨(step day previous).2 now.1,(step day current).1 now.2⟩
  have outside : ∀ first last, (∀ day ∈ days first last, ¬ (dateOf (zone.localOf previous) ≤ day ∧ day ≤ dateOf (zone.localOf current))) →
      (days first last).filter (fun day => due previous current (momentOf zone at_ day)) = [] := by
    intro first last out
    apply List.filter_eq_nil_iff.mpr
    intro day member now
    exact out day member (inside day now)
  rw [dailyAt_filter]
  by_cases order : dateOf (zone.localOf previous) ≤ dateOf (zone.localOf current)
  · have before := days_append low (dateOf (zone.localOf previous)-1) high (by omega) (by omega)
    have behind := days_append (dateOf (zone.localOf previous)) (dateOf (zone.localOf current)) high (by omega) late
    rw [Int.sub_add_cancel] at before
    rw [before,behind,List.filter_append,List.filter_append,outside low _,outside _ high,List.nil_append,List.append_nil]
    · intro day member
      have := mem_days.mp member
      omega
    · intro day member
      have := mem_days.mp member
      omega
  · rw [outside low high,outside _ _]
    · intro day member
      omega
    · intro day member
      omega

theorem dailyAt_splits (keeps : KeepsDates zone at_) (one : previous ≤ mid) (two : mid ≤ current) :
    dailyAt zone at_ previous current = dailyAt zone at_ previous mid ++ dailyAt zone at_ mid current := by
  have step := (keepsDates_exact zone at_).mp keeps
  obtain ⟨low,lows⟩ : ∃ low, low ≤ dateOf (zone.localOf previous) ∧ low ≤ dateOf (zone.localOf mid) :=
    ⟨min (dateOf (zone.localOf previous)) (dateOf (zone.localOf mid)),Int.min_le_left _ _,Int.min_le_right _ _⟩
  obtain ⟨high,highs⟩ : ∃ high, dateOf (zone.localOf mid) ≤ high ∧ dateOf (zone.localOf current) ≤ high :=
    ⟨max (dateOf (zone.localOf mid)) (dateOf (zone.localOf current)),Int.le_max_left _ _,Int.le_max_right _ _⟩
  rw [dailyAt_wide keeps lows.1 highs.2,dailyAt_wide keeps lows.1 highs.1,dailyAt_wide keeps lows.2 highs.2,← List.map_append]
  have either : (fun day => due previous current (momentOf zone at_ day)) =
      fun day => due previous mid (momentOf zone at_ day) || due mid current (momentOf zone at_ day) := by
    funext day
    rw [Bool.eq_iff_iff]
    simp only [due,Bool.or_eq_true,Bool.and_eq_true,decide_eq_true_eq]
    omega
  rw [either,filter_seam (days_sorted low high)]
  · intro day both
    simp only [due,Bool.and_eq_true,decide_eq_true_eq] at both
    omega
  · intro day later less both
    simp only [due,Bool.and_eq_true,decide_eq_true_eq] at both
    have first := (step day mid).2 both.1.1
    have second := (step later mid).1 both.2.2
    omega

-- A zone has finitely many offsets, so the wall clock comes to every date.
theorem offset_bounded (base : Int) (jumps : List Jump) : ∃ bound, ∀ instant, -bound ≤ offsetAt base jumps instant ∧ offsetAt base jumps instant ≤ bound := by
  induction jumps generalizing base with
  | nil =>
    refine ⟨max base (-base),fun instant => ?_⟩
    simp only [offsetAt]
    omega
  | cons jump rest ih =>
    obtain ⟨bound,inside⟩ := ih jump.offset
    refine ⟨max (max base (-base)) bound,?_⟩
    intro instant
    simp only [offsetAt]
    split
    · have := inside instant
      omega
    · omega

theorem date_early (zone : Zone) (day limit : Int) : ∃ instant, instant < limit ∧ dateOf (zone.localOf instant) ≤ day := by
  obtain ⟨bound,inside⟩ := offset_bounded zone.base zone.jumps
  refine ⟨min (limit-1) (midnight day-bound),by omega,?_⟩
  have := inside (min (limit-1) (midnight day-bound))
  simp only [dateOf,Zone.localOf,midnight] at *
  omega

theorem date_late (zone : Zone) (day limit : Int) : ∃ instant, limit ≤ instant ∧ day ≤ dateOf (zone.localOf instant) := by
  obtain ⟨bound,inside⟩ := offset_bounded zone.base zone.jumps
  refine ⟨max limit (midnight day+bound),by omega,?_⟩
  have := inside (max limit (midnight day+bound))
  simp only [dateOf,Zone.localOf,midnight] at *
  omega

theorem dailyAt_count (zone : Zone) (at_ : Time) (previous current moment : Int) : (dailyAt zone at_ previous current).count moment =
    if previous < moment ∧ moment ≤ current then
      (days (dateOf (zone.localOf previous)) (dateOf (zone.localOf current))).countP (fun day => momentOf zone at_ day = moment) else 0 := by
  rw [dailyAt_filter,List.count_eq_countP,List.countP_map,List.countP_filter]
  by_cases inside : previous < moment ∧ moment ≤ current
  · rw [if_pos inside]
    apply List.countP_congr
    intro day _
    simp only [Function.comp_apply,beq_iff_eq,Bool.and_eq_true,decide_eq_true_eq,due]
    constructor
    · exact fun both => both.1
    · exact fun same => ⟨same,by rw [same]; exact inside⟩
  · rw [if_neg inside]
    apply List.countP_eq_zero.mpr
    intro day _ both
    simp only [Function.comp_apply,beq_iff_eq,Bool.and_eq_true,decide_eq_true_eq,due] at both
    exact inside (both.1 ▸ both.2)

-- A day that is told late or early is lost at a seam there.
theorem keeps_of_splits (splits : ∀ previous mid current, previous ≤ mid → mid ≤ current →
    (dailyAt zone at_ previous current).Perm (dailyAt zone at_ previous mid ++ dailyAt zone at_ mid current)) : KeepsDates zone at_ := by
  rw [keepsDates_exact]
  intro day mid
  have counts : ∀ previous current, previous ≤ mid → mid ≤ current → (dailyAt zone at_ previous current).count (momentOf zone at_ day) =
      (dailyAt zone at_ previous mid).count (momentOf zone at_ day)+(dailyAt zone at_ mid current).count (momentOf zone at_ day) := by
    intro previous current one two
    rw [(splits previous mid current one two).count_eq,List.count_append]
  have here : ∀ first last, first ≤ day → day ≤ last → 0 < (days first last).countP (fun other => momentOf zone at_ other = momentOf zone at_ day) :=
    fun first last low high => List.countP_pos_iff.mpr ⟨day,mem_days.mpr ⟨low,high⟩,by simp⟩
  constructor
  · intro come
    by_contra behind
    obtain ⟨previous,early,low⟩ := date_early zone (dateOf (zone.localOf mid)) (momentOf zone at_ day)
    obtain ⟨current,late,high⟩ := date_late zone day mid
    have total := counts previous current (by omega) late
    rw [dailyAt_count,dailyAt_count,dailyAt_count,if_pos ⟨early,by omega⟩,if_pos ⟨early,come⟩,if_neg (by omega),
      days_append _ (dateOf (zone.localOf mid)) _ (by omega) (by omega),List.countP_append] at total
    have lost := here (dateOf (zone.localOf mid)+1) (dateOf (zone.localOf current)) (by omega) high
    omega
  · intro soon
    by_contra ahead
    obtain ⟨previous,early,low⟩ := date_early zone day mid
    obtain ⟨current,late,high⟩ := date_late zone (dateOf (zone.localOf mid)) (momentOf zone at_ day)
    have total := counts previous current (by omega) (by omega)
    rw [dailyAt_count,dailyAt_count,dailyAt_count,if_pos ⟨by omega,late⟩,if_neg (by omega),if_pos ⟨soon,late⟩,
      days_append (dateOf (zone.localOf previous)) (dateOf (zone.localOf mid)-1) _ (by omega) (by omega),
      List.countP_append,Int.sub_add_cancel] at total
    have lost := here (dateOf (zone.localOf previous)) (dateOf (zone.localOf mid)-1) low (by omega)
    omega

def Moments.isDaily : Moments → Bool
  | .daily _ _ => true
  | _ => false

instance (table : JobTable) : IsTrans (Int × Job) (Before table) where
  trans := by
    intro one two three left right
    unfold Before at *
    omega

instance (table : JobTable) : Std.Total (Before table) where
  total := by
    intro one two
    unfold Before
    omega

theorem within_bounds {moments : Moments} {moment : Int} (listed : moment ∈ moments.within zone settings previous current) :
    previous < moment ∧ moment ≤ current := by
  have grid : ∀ interval, moment ∈ every interval previous current → previous < moment ∧ moment ≤ current := by
    intro interval inside
    unfold every at inside
    split at inside
    · cases List.mem_singleton.mp inside
      assumption
    · cases inside
  cases moments with
  | daily hour minute =>
    simp only [Moments.within,dailyAt_filter] at listed
    obtain ⟨day,kept,rfl⟩ := List.mem_map.mp listed
    simpa [due] using (List.mem_filter.mp kept).2
  | interval interval => exact grid interval listed
  | webhookInterval =>
    simp only [Moments.within,everyWebhookInterval] at listed
    split at listed
    · exact grid _ listed
    · cases listed

theorem mem_pairs {pair : Int × Job} (listed : pair ∈ pairs zone settings table previous current) :
    pair.2 ∈ table.jobs ∧ previous < pair.1 ∧ pair.1 ≤ current := by
  obtain ⟨job,there,inside⟩ := List.mem_flatMap.mp listed
  obtain ⟨moment,now,rfl⟩ := List.mem_map.mp inside
  exact ⟨there,within_bounds now⟩

theorem dueJobs_parts (forward : previous ≤ current) : ∃ whole, dueJobs zone settings table previous current = .ok whole ∧
    whole.Perm (pairs zone settings table previous current) ∧ whole.Pairwise (Before table) := by
  refine ⟨_,?_,List.perm_insertionSort (Before table) _,List.pairwise_insertionSort (Before table) _⟩
  unfold dueJobs
  rw [if_neg (by omega)]

theorem rank_same {one two : Job} (left : one ∈ table.jobs) (right : two ∈ table.jobs) (same : table.rank one = table.rank two) : one = two := by
  have names : one.name = two.name := List.idxOf_inj (List.mem_map_of_mem left) |>.mp same
  exact List.inj_on_of_nodup_map table.names left right names

-- One job's own moments.
theorem pairs_of (zone : Zone) (settings : Settings) (previous current : Int) {job : Job} (there : job ∈ table.jobs) :
    (pairs zone settings table previous current).filter (fun pair => pair.2 = job) =
      (job.moments.within zone settings previous current).map (fun moment => (moment,job)) := by
  have distinct : table.jobs.Nodup := table.names.of_map
  unfold pairs
  generalize table.jobs = jobs at *
  have others : ∀ jobs : List Job, job ∉ jobs → (jobs.flatMap (fun job => (job.moments.within zone settings previous current).map
      (fun moment => (moment,job)))).filter (fun pair => pair.2 = job) = [] := by
    intro jobs absent
    apply List.filter_eq_nil_iff.mpr
    intro pair listed same
    obtain ⟨other,inside,made⟩ := List.mem_flatMap.mp listed
    obtain ⟨moment,_,rfl⟩ := List.mem_map.mp made
    simp only [decide_eq_true_eq] at same
    exact absent (same ▸ inside)
  induction jobs with
  | nil => cases there
  | cons first rest ih =>
    obtain ⟨fresh,distinct⟩ := List.nodup_cons.mp distinct
    rw [List.flatMap_cons,List.filter_append]
    rcases List.mem_cons.mp there with rfl | later
    · rw [others rest fresh,List.append_nil]
      apply List.filter_eq_self.mpr
      intro pair made
      obtain ⟨moment,_,rfl⟩ := List.mem_map.mp made
      simp
    · rw [ih later distinct]
      have none : ((first.moments.within zone settings previous current).map (fun moment => (moment,first))).filter (fun pair => pair.2 = job) = [] := by
        apply List.filter_eq_nil_iff.mpr
        intro pair made same
        obtain ⟨moment,_,rfl⟩ := List.mem_map.mp made
        simp only [decide_eq_true_eq] at same
        exact fresh (same ▸ later)
      rw [none,List.nil_append]

def dailyOnly (pair : Int × Job) : Bool := pair.2.moments.isDaily

-- The daily jobs of a leap are those of its two parts, whatever the order.
theorem pairs_split (keeps : ∀ job ∈ table.jobs, ∀ hour minute, job.moments = .daily hour minute → KeepsDates zone (clock hour minute))
    (one : previous ≤ mid) (two : mid ≤ current) : ((pairs zone settings table previous current).filter dailyOnly).Perm
      ((pairs zone settings table previous mid).filter dailyOnly ++ (pairs zone settings table mid current).filter dailyOnly) := by
  have each : ∀ job ∈ table.jobs,
      ((job.moments.within zone settings previous current).map (fun moment => (moment,job))).filter dailyOnly =
        ((job.moments.within zone settings previous mid).map (fun moment => (moment,job))).filter dailyOnly ++
          ((job.moments.within zone settings mid current).map (fun moment => (moment,job))).filter dailyOnly := by
    intro job there
    cases daily : job.moments with
    | daily hour minute =>
      rw [← List.filter_append,← List.map_append]
      simp only [Moments.within]
      rw [dailyAt_splits (keeps job there hour minute daily) one two]
    | interval grid => simp [List.filter_map,dailyOnly,Function.comp_def,daily,Moments.isDaily]
    | webhookInterval => simp [List.filter_map,dailyOnly,Function.comp_def,daily,Moments.isDaily]
  unfold pairs
  simp only [List.filter_flatMap]
  rw [List.flatMap_congr each]
  exact (List.flatMap_append_perm table.jobs _ _).symm

theorem daily_splits (keeps : ∀ job ∈ table.jobs, ∀ hour minute, job.moments = .daily hour minute → KeepsDates zone (clock hour minute))
    (one : previous ≤ mid) (two : mid ≤ current) : ∃ whole first second, dueJobs zone settings table previous current = .ok whole ∧
      dueJobs zone settings table previous mid = .ok first ∧ dueJobs zone settings table mid current = .ok second ∧
        whole.filter dailyOnly = first.filter dailyOnly ++ second.filter dailyOnly := by
  obtain ⟨whole,all,wholes,sorted⟩ := @dueJobs_parts zone settings table previous current (by omega)
  obtain ⟨first,before,firsts,sortedFirst⟩ := @dueJobs_parts zone settings table previous mid one
  obtain ⟨second,behind,seconds,sortedSecond⟩ := @dueJobs_parts zone settings table mid current two
  refine ⟨whole,first,second,all,before,behind,?_⟩
  refine @List.Perm.eq_of_pairwise _ (Before table) _ _ ?_ ?_ ?_ ?_
  · intro one two left right le ge
    have inside : ∀ pair ∈ first.filter dailyOnly ++ second.filter dailyOnly, pair.2 ∈ table.jobs := by
      intro pair listed
      rcases List.mem_append.mp listed with old | new
      · exact (mem_pairs (firsts.mem_iff.mp (List.mem_of_mem_filter old))).1
      · exact (mem_pairs (seconds.mem_iff.mp (List.mem_of_mem_filter new))).1
    have there := (mem_pairs (wholes.mem_iff.mp (List.mem_of_mem_filter left))).1
    have ranks : one.1 = two.1 ∧ table.rank one.2 = table.rank two.2 := by
      unfold Before at le ge
      omega
    exact Prod.ext ranks.1 (rank_same there (inside two right) ranks.2)
  · exact sorted.filter dailyOnly
  · rw [List.pairwise_append]
    refine ⟨sortedFirst.filter dailyOnly,sortedSecond.filter dailyOnly,?_⟩
    intro one left two right
    have early := (mem_pairs (firsts.mem_iff.mp (List.mem_of_mem_filter left))).2.2
    have late := (mem_pairs (seconds.mem_iff.mp (List.mem_of_mem_filter right))).2.1
    exact .inl (by omega)
  · exact (wholes.filter dailyOnly).trans ((pairs_split keeps one two).trans
      ((firsts.filter dailyOnly).symm.append (seconds.filter dailyOnly).symm))

def OnGrid (grid : Interval) (mark : Int) : Prop := ∃ k : Int, mark = epoch+k*grid.seconds*1000000

-- Nothing, or the last mark of the window. From 1970 on, when int() drops a
-- fraction downward, nothing only where there is no mark.
def AtLastMark (grid : Interval) (previous current : Int) (marks : List Int) : Prop :=
  (marks = [] ∧ (epoch ≤ current → ∀ mark, OnGrid grid mark → ¬ (previous < mark ∧ mark ≤ current))) ∨
    ∃ mark, marks = [mark] ∧ OnGrid grid mark ∧ previous < mark ∧ mark ≤ current ∧ ∀ later, OnGrid grid later → later ≤ current → later ≤ mark

theorem markBefore_last (grid : Interval) (current : Int) : OnGrid grid (markBefore grid current) ∧
    (∀ later, OnGrid grid later → later ≤ current → later ≤ markBefore grid current) ∧
      (epoch ≤ current → markBefore grid current ≤ current) := by
  have positive : (0 : Int) < grid.seconds := by exact_mod_cast grid.positive
  have truncated := Int.mul_tdiv_add_tmod (current-epoch) 1000000
  have upper : current-epoch < ((current-epoch).tdiv 1000000+1)*1000000 := by
    have := Int.tmod_lt_of_pos (current-epoch) (show (0 : Int) < 1000000 by decide)
    omega
  unfold markBefore
  refine ⟨⟨_,rfl⟩,?_,?_⟩
  · intro later ⟨k,same⟩ here
    have few : k ≤ (current-epoch).tdiv 1000000/grid.seconds := by
      rw [Int.le_ediv_iff_mul_le positive]
      omega
    have := Int.mul_le_mul_of_nonneg_right few (Int.le_of_lt positive)
    omega
  · intro since
    have lower : (current-epoch).tdiv 1000000*1000000 ≤ current-epoch := by
      have := Int.tmod_nonneg 1000000 (show 0 ≤ current-epoch by omega)
      omega
    have := Int.ediv_mul_le ((current-epoch).tdiv 1000000) (Int.ne_of_gt positive)
    omega

theorem every_last (grid : Interval) (previous current : Int) : AtLastMark grid previous current (every grid previous current) := by
  obtain ⟨on,last,reached⟩ := markBefore_last grid current
  unfold every
  by_cases now : previous < markBefore grid current ∧ markBefore grid current ≤ current
  · rw [if_pos now]
    exact .inr ⟨_,rfl,on,now.1,now.2,last⟩
  · rw [if_neg now]
    refine .inl ⟨rfl,?_⟩
    intro since mark marked inside
    have low := last mark marked inside.2
    have high := reached since
    exact now ⟨by omega,high⟩

def Moments.grid (settings : Settings) : Moments → Option Interval
  | .daily _ _ => none
  | .interval grid => some grid
  | .webhookInterval => if settings.changeFeedEnabled then some settings.webhookDeliveryIntervalSeconds else none

-- What advancing the clock promises: a leap runs the daily jobs of its two parts
-- and nothing twice, all in order, and an interval job at most once, at the end.
structure RunsAlike (zone : Zone) (settings : Settings) (table : JobTable) : Prop where
  splits : ∀ previous mid current, previous ≤ mid → mid ≤ current → ∃ whole first second,
    dueJobs zone settings table previous current = .ok whole ∧ dueJobs zone settings table previous mid = .ok first ∧
      dueJobs zone settings table mid current = .ok second ∧
        whole.filter dailyOnly = first.filter dailyOnly ++ second.filter dailyOnly
  ordered : ∀ previous current whole, dueJobs zone settings table previous current = .ok whole → whole.Pairwise (Before table)
  intervals : ∀ previous current whole, dueJobs zone settings table previous current = .ok whole → ∀ job ∈ table.jobs,
    ∀ grid ∈ job.moments.grid settings, AtLastMark grid previous current ((whole.filter (fun pair => pair.2 = job)).map Prod.fst)

theorem dueJobs_forward {whole : List (Int × Job)} (told : dueJobs zone settings table previous current = .ok whole) : previous ≤ current := by
  unfold dueJobs at told
  split at told
  · cases told
  · omega

theorem due_of {whole : List (Int × Job)} (told : dueJobs zone settings table previous current = .ok whole) {job : Job}
    (there : job ∈ table.jobs) : ((whole.filter (fun pair => pair.2 = job)).map Prod.fst).Perm
      (job.moments.within zone settings previous current) := by
  obtain ⟨same,all,wholes,_⟩ := @dueJobs_parts zone settings table previous current (dueJobs_forward told)
  cases told.symm.trans all
  have mine := (wholes.filter (fun pair => decide (pair.2 = job))).map Prod.fst
  rw [pairs_of zone settings previous current there,List.map_map] at mine
  simpa [Function.comp_def] using mine

theorem interval_last {whole : List (Int × Job)} (told : dueJobs zone settings table previous current = .ok whole) {job : Job}
    (there : job ∈ table.jobs) {grid : Interval} (every_ : job.moments.grid settings = some grid) :
    AtLastMark grid previous current ((whole.filter (fun pair => pair.2 = job)).map Prod.fst) := by
  have own : job.moments.within zone settings previous current = every grid previous current := by
    cases shape : job.moments with
    | daily hour minute =>
      rw [shape] at every_
      cases every_
    | interval other =>
      rw [shape] at every_
      cases every_
      rfl
    | webhookInterval =>
      rw [shape] at every_
      simp only [Moments.grid] at every_
      split at every_
      · rename_i on
        cases every_
        simp [Moments.within,everyWebhookInterval,on]
      · cases every_
  have mine := due_of told there
  rw [own] at mine
  have one : (every grid previous current).length ≤ 1 := by
    unfold every
    split <;> simp
  cases made : every grid previous current with
  | nil =>
    rw [made] at mine
    rw [mine.eq_nil,← made]
    exact every_last grid previous current
  | cons mark rest =>
    rw [made,List.length_cons] at one
    have none : rest = [] := List.eq_nil_of_length_eq_zero (by omega)
    rw [made,none,List.perm_singleton] at mine
    rw [mine,← none,← made]
    exact every_last grid previous current

theorem runJobs_ok {due : List (Int × Job)} {s : Advance} (reached : s.clock ≤ current)
    (inside : ∀ pair ∈ due, s.clock ≤ pair.1 ∧ pair.1 ≤ current) (ordered : due.Pairwise (Before table)) :
    ∃ clock ≤ current, runJobs s due = .ok ⟨clock,s.ran ++ due.map (fun pair => (pair.1,pair.2.name))⟩ := by
  induction due generalizing s with
  | nil => exact ⟨s.clock,reached,by simp [runJobs]⟩
  | cons pair rest ih =>
    obtain ⟨moment,job⟩ := pair
    obtain ⟨head,ordered⟩ := List.pairwise_cons.mp ordered
    obtain ⟨here,others⟩ := List.forall_mem_cons.mp inside
    have forward : ¬ moment < s.clock := by omega
    have later : ∀ pair ∈ rest, moment ≤ pair.1 ∧ pair.1 ≤ current := by
      intro pair listed
      have after := head pair listed
      unfold Before at after
      exact ⟨by omega,(others pair listed).2⟩
    obtain ⟨clock,bound,ran⟩ := @ih {s with clock := moment,ran := s.ran ++ [(moment,job.name)]} here.2 later ordered
    refine ⟨clock,bound,?_⟩
    simp only [runJobs,advanceTo,if_neg forward]
    rw [ran]
    simp

-- Run in order, the jobs never turn the clock back, and it ends at the instant
-- that was asked for.
theorem runDueJobs_runs {whole : List (Int × Job)} (told : dueJobs zone settings table previous current = .ok whole) :
    runDueJobs true zone settings table previous previous current = .ok ⟨current,whole.map (fun pair => (pair.1,pair.2.name))⟩ := by
  have forward := dueJobs_forward told
  obtain ⟨same,all,wholes,sorted⟩ := @dueJobs_parts zone settings table previous current forward
  cases told.symm.trans all
  have inside : ∀ pair ∈ whole, previous ≤ pair.1 ∧ pair.1 ≤ current := by
    intro pair listed
    obtain ⟨_,low,high⟩ := mem_pairs (wholes.mem_iff.mp listed)
    exact ⟨Int.le_of_lt low,high⟩
  obtain ⟨clock,bound,ran⟩ := @runJobs_ok table current whole ⟨previous,[]⟩ forward inside sorted
  have reached : ¬ current < clock := by omega
  unfold runDueJobs
  simp [told,ran,advanceTo,reached]

-- The days of a leap are those of its steps exactly when the zone keeps the dates
-- of every daily job's time; the rest holds in every zone.
theorem leaps_and_steps (zone : Zone) (settings : Settings) (table : JobTable) : RunsAlike zone settings table ↔
    ∀ job ∈ table.jobs, ∀ hour minute, job.moments = .daily hour minute → KeepsDates zone (clock hour minute) := by
  constructor
  · intro alike job there hour minute daily
    apply keeps_of_splits
    intro previous mid current one two
    obtain ⟨whole,first,second,all,before,behind,same⟩ := alike.splits previous mid current one two
    have mine := congrArg (fun pairs => (pairs.filter (fun pair => decide (pair.2 = job))).map Prod.fst) same
    have only : ∀ pairs : List (Int × Job), (pairs.filter dailyOnly).filter (fun pair => decide (pair.2 = job)) =
        pairs.filter (fun pair => decide (pair.2 = job)) := by
      intro pairs
      rw [List.filter_filter]
      apply List.filter_congr
      intro pair _
      by_cases own : pair.2 = job
      · simp [own,dailyOnly,daily,Moments.isDaily]
      · simp [own]
    simp only [List.filter_append,only,List.map_append] at mine
    have left := due_of all there
    have right := (due_of before there).append (due_of behind there)
    rw [mine] at left
    have both := left.symm.trans right
    simpa only [daily,Moments.within] using both
  · intro keeps
    refine ⟨fun previous mid current one two => daily_splits keeps one two,?_,?_⟩
    · intro previous current whole told
      obtain ⟨same,all,_,sorted⟩ := @dueJobs_parts zone settings table previous current (dueJobs_forward told)
      cases told.symm.trans all
      exact sorted
    · intro previous current whole told job there grid every_
      exact interval_last told there every_

-- In March 2024 the clock in Nuuk went from 23:00 straight to midnight, an hour
-- over the time of a job at 23:30, which is told half an hour into the next date.
def nuuk : Zone where
  key := "America/Nuuk"
  base := -7200000000
  jumps := [⟨midnight 738976+3600000000,-3600000000⟩]
  apart := ⟨(fun _ listed => nomatch listed),trivial⟩
  named := by decide

def lateTable : JobTable := ⟨[⟨"late",.daily 23 30⟩],by decide⟩

def Gentle (zone : Zone) : Prop := (zone.base :: zone.jumps.map Jump.offset).IsChain (fun one two => two-one < 86400000000 ∧ one-two < 86400000000)

theorem half_past_lost : Gentle nuuk ∧ ¬ RunsAlike nuuk ⟨false,⟨5,by decide⟩⟩ lateTable := by
  refine ⟨by unfold Gentle; decide,?_⟩
  intro alike
  obtain ⟨whole,first,second,all,before,behind,same⟩ :=
    alike.splits (midnight 738976) (midnight 738976+3900000000) (midnight 738976+7200000000) (by decide) (by decide)
  have lost : first.filter dailyOnly ++ second.filter dailyOnly = [] := by
    cases before
    cases behind
    decide
  have kept : whole.filter dailyOnly ≠ [] := by
    cases all
    decide
  exact kept (same.trans lost)

end ChronosLedger.Scheduled
