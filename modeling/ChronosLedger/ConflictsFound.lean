import ChronosLedger.FindConflicts
import ChronosLedger.Operations

namespace ChronosLedger
open Spans

variable {cal : Recurrence} {sha256 : String → String} {db : Database} {fromDate toDate : Int}

-- The earlier of two places in _sort_key order. Equal keys keep the order of the
-- list, as sorted() does.
def SortsFirst (entries : List Entry) (i j : Fin entries.length) : Prop :=
  sortKey (entries.get i) < sortKey (entries.get j) ∨ sortKey (entries.get i) = sortKey (entries.get j) ∧ i < j

theorem before_sorts {entries : List Entry} {i j : Fin entries.length} :
    Sweeps.Before (fun a b => sortKey a ≤ sortKey b) entries i j ↔ SortsFirst entries i j := by
  change (¬ sortKey (entries.get j) ≤ sortKey (entries.get i) ∨ sortKey (entries.get i) ≤ sortKey (entries.get j) ∧ i < j) ↔ _
  unfold SortsFirst
  rw [not_le,le_iff_lt_or_eq]
  tauto

-- The pairs of places made of a list: those that meet and count, each once and
-- the one that sorts first in front.
structure Pairs (entries : List Entry) (counts : Entry → Entry → Bool) (pairs : List (Fin entries.length × Fin entries.length)) : Prop where
  nodup : pairs.Nodup
  exact_ : ∀ i j, (i,j) ∈ pairs ↔ i ≠ j ∧ Meets (entries.get i).span (entries.get j).span ∧ SortsFirst entries i j ∧
    counts (entries.get i) (entries.get j) = true

-- Of two places that meet and count either way, one order is there.
theorem Pairs.once {entries : List Entry} {counts : Entry → Entry → Bool} {pairs : List (Fin entries.length × Fin entries.length)}
    (made : Pairs entries counts pairs) (either : ∀ a b, counts a b = counts b a) {i j : Fin entries.length} (unequal : i ≠ j)
    (met : Meets (entries.get i).span (entries.get j).span) (counted : counts (entries.get i) (entries.get j) = true) :
    pairs.count (i,j)+pairs.count (j,i) = 1 := by
  have order := @Sweeps.Before.cases _ (fun a b => sortKey a ≤ sortKey b) ⟨fun a b => le_total _ _⟩ entries i j unequal
  rw [before_sorts,before_sorts] at order
  rcases order with ⟨here,other⟩ | ⟨there,other⟩
  · have one : (i,j) ∈ pairs := (made.exact_ i j).mpr ⟨unequal,met,here,counted⟩
    have none_ : (j,i) ∉ pairs := fun member => other ((made.exact_ j i).mp member).2.2.1
    rw [List.count_eq_one_of_mem made.nodup one,List.count_eq_zero_of_not_mem none_]
  · have one : (j,i) ∈ pairs := (made.exact_ j i).mpr ⟨Ne.symm unequal,met.symm,there,by rw [either]; exact counted⟩
    have none_ : (i,j) ∉ pairs := fun member => other ((made.exact_ i j).mp member).2.2.1
    rw [List.count_eq_one_of_mem made.nodup one,List.count_eq_zero_of_not_mem none_]

theorem sweep_pairs {entries : List Entry} (proper : ∀ entry ∈ entries, entry.starts < entry.ends) :
    ∃ pairs, Pairs entries (fun _ _ => true) pairs ∧ sweep entries = pairs.map (Prod.map entries.get entries.get) := by
  have totals : Std.Total (fun a b : Entry => sortKey a ≤ sortKey b) := ⟨fun _ _ => le_total _ _⟩
  have transitive : IsTrans Entry (fun a b => sortKey a ≤ sortKey b) := ⟨fun _ _ _ one two => le_trans one two⟩
  have timed : Sweeps.Timed Entry.span (fun a b => sortKey a ≤ sortKey b) := by
    intro a b first
    rcases Prod.Lex.le_iff.mp first with less | ⟨same,_⟩
    · exact le_of_lt less
    · exact le_of_eq same
  obtain ⟨pairs,nodup,same,each⟩ := Sweeps.sweep_exact timed proper
  refine ⟨pairs,⟨nodup,fun i j => ?_⟩,same⟩
  rw [each,before_sorts]
  simp

-- A kind of clash over some entries: one report for each pair of places.
def Reported (entries : List Entry) (counts : Entry → Entry → Bool) (report : Entry → Entry → Report) (reports : List Report) : Prop :=
  ∃ pairs, Pairs entries counts pairs ∧ reports.Perm (pairs.map (fun pair => report (entries.get pair.1) (entries.get pair.2)))

theorem swept_reported {entries : List Entry} (proper : ∀ entry ∈ entries, entry.starts < entry.ends) (counts : Entry → Entry → Bool)
    (report : Entry → Entry → Report) :
    Reported entries counts report (((sweep entries).filter (fun pair => counts pair.1 pair.2)).map (fun pair => report pair.1 pair.2)) := by
  obtain ⟨pairs,made,same⟩ := sweep_pairs proper
  refine ⟨pairs.filter (fun pair => counts (entries.get pair.1) (entries.get pair.2)),⟨made.nodup.filter _,fun i j => ?_⟩,?_⟩
  · rw [List.mem_filter,made.exact_]
    simp
    tauto
  · rw [same,List.filter_map,List.map_map]
    exact List.Perm.refl _

theorem resourceReports_parts {holds : List Reservation} {entries : List Entry} {resourceId : Nat} {report : Report}
    (made : report ∈ resourceReports db holds entries resourceId) : report.subject.resourceId = some resourceId ∧
      (report.kind = .resourceOverlap ∨ report.kind = .resourceOverbooked) := by
  unfold resourceReports at made
  cases known : db.resource? resourceId with
  | none => rw [known] at made; cases made
  | some resource =>
    rw [known] at made
    rcases List.mem_append.mp made with swept | full
    · obtain ⟨pair,_,rfl⟩ := List.mem_map.mp swept
      exact ⟨rfl,.inl rfl⟩
    · split at full
      · obtain ⟨stretch,_,rfl⟩ := List.mem_map.mp full
        exact ⟨congrArg some (find_key known).2,.inr rfl⟩
      · cases full

theorem memberReports_parts {entries : List Entry} {memberId : String} {report : Report}
    (made : report ∈ memberReports db entries memberId) : report.subject.memberId = some memberId ∧ report.kind = .memberOverlap := by
  obtain ⟨pair,_,rfl⟩ := List.mem_map.mp made
  exact ⟨rfl,rfl⟩

theorem leadReports_parts {days : List DailyLedger} {entries : List Entry} {leadId : String} {report : Report}
    (made : report ∈ leadReports db days entries leadId) : report.subject.leadId = some leadId ∧ report.kind = .leadOverlap := by
  unfold leadReports at made
  split at made
  · obtain ⟨pair,_,rfl⟩ := List.mem_map.mp made
    exact ⟨rfl,rfl⟩
  · cases made

theorem requirementReports_kind {entry : Entry} {report : Report} (made : report ∈ requirementReports cal sha256 db entry) :
    report.kind = .requirementUnmet := by
  unfold requirementReports at made
  split at made
  · cases made
  · dsimp only at made
    split at made
    · cases made
    · obtain ⟨gap,_,rfl⟩ := List.mem_map.mp made
      rfl

-- What is reported of a kind about one resource, member or lead.
def about {κ : Type} [DecidableEq κ] (kind : ReportKind) (whose : Subject → Option κ) (name : κ) (reports : List Report) : List Report :=
  (reports.filter (fun report => report.kind = kind)).filter (fun report => whose report.subject = some name)

theorem about_append {κ : Type} [DecidableEq κ] {kind : ReportKind} {whose : Subject → Option κ} {name : κ} (one two : List Report) :
    about kind whose name (one ++ two) = about kind whose name one ++ about kind whose name two := by
  simp [about]

theorem about_other {κ : Type} [DecidableEq κ] {kind : ReportKind} {whose : Subject → Option κ} {name : κ} {reports : List Report}
    (other : ∀ report ∈ reports, report.kind ≠ kind) : about kind whose name reports = [] := by
  unfold about
  have none_ : reports.filter (fun report => report.kind = kind) = [] :=
    List.filter_eq_nil_iff.mpr (fun report member => by simpa using other report member)
  rw [none_]
  rfl

-- A walk over the names of a dictionary adds to each name what is its own.
theorem about_walk {κ : Type} [DecidableEq κ] {kind : ReportKind} {whose : Subject → Option κ} {names : List κ} (distinct : names.Nodup)
    (part : κ → List Report) (own : ∀ name ∈ names, ∀ report ∈ part name, whose report.subject = some name) {name : κ}
    (away : name ∉ names → about kind whose name (part name) = []) :
    about kind whose name (names.flatMap part) = about kind whose name (part name) := by
  have walked := Groups.filter_own distinct (fun name => (part name).filter (fun report => report.kind = kind))
    (fun report => whose report.subject) (fun name listed report member => own name listed report (List.mem_filter.mp member).1) name
  unfold about at away ⊢
  rw [List.filter_flatMap,walked]
  split
  · rename_i listed
    refine (List.filter_eq_self.mpr (fun report member => ?_)).symm
    exact decide_eq_true (own name listed report (List.mem_filter.mp member).1)
  · rename_i absent
    exact (away absent).symm

theorem found_perm {κ : Type} [DecidableEq κ] (kind : ReportKind) (whose : Subject → Option κ) (name : κ) :
    (about kind whose name (findConflicts cal sha256 db fromDate toDate)).Perm
      (about kind whose name (foundConflicts cal sha256 db fromDate toDate)) :=
  ((List.perm_insertionSort _ _).filter _).filter _

theorem about_all {κ : Type} [DecidableEq κ] {kind : ReportKind} {whose : Subject → Option κ} {name : κ} {reports : List Report}
    (all : ∀ report ∈ reports, whose report.subject = some name ∧ report.kind = kind) : about kind whose name reports = reports := by
  unfold about
  rw [List.filter_eq_self.mpr (fun report member => decide_eq_true (all report member).2)]
  exact List.filter_eq_self.mpr (fun report member => decide_eq_true (all report member).1)

section Sides

variable {κ : Type} [DecidableEq κ] {kind : ReportKind} {whose : Subject → Option κ} {name : κ} {entries : List Entry}

theorem resourceSide_other {holds : List Reservation} (overlap : kind ≠ .resourceOverlap) (full : kind ≠ .resourceOverbooked) :
    about kind whose name (resourceSide db holds entries) = [] := by
  apply about_other
  intro report made same
  obtain ⟨_,_,mine⟩ := List.mem_flatMap.mp made
  rcases (resourceReports_parts mine).2 with is | is
  · exact overlap (same.symm.trans is)
  · exact full (same.symm.trans is)

theorem memberSide_other (other : kind ≠ .memberOverlap) : about kind whose name (memberSide db entries) = [] := by
  apply about_other
  intro report made same
  obtain ⟨_,_,mine⟩ := List.mem_flatMap.mp made
  exact other (same.symm.trans (memberReports_parts mine).2)

theorem leadSide_other {days : List DailyLedger} (other : kind ≠ .leadOverlap) : about kind whose name (leadSide db days entries) = [] := by
  apply about_other
  intro report made same
  obtain ⟨_,_,mine⟩ := List.mem_flatMap.mp made
  exact other (same.symm.trans (leadReports_parts mine).2)

theorem requirements_other (other : kind ≠ .requirementUnmet) :
    about kind whose name (entries.flatMap (requirementReports cal sha256 db)) = [] := by
  apply about_other
  intro report made same
  obtain ⟨_,_,mine⟩ := List.mem_flatMap.mp made
  exact other (same.symm.trans (requirementReports_kind mine))

end Sides

theorem resourceSide_overlaps {holds : List Reservation} {entries : List Entry} {resourceId : Nat} {resource : Resource}
    (known : db.resource? resourceId = some resource) :
    about .resourceOverlap Subject.resourceId resourceId (resourceSide db holds entries) =
      ((sweep (clashingOn resource.mode (Groups.group Entry.resourceId entries resourceId))).filter
        (fun pair => pairCounts resource.mode pair.1 pair.2)).map
          (fun pair => conflict .resourceOverlap { resourceId := some resourceId } pair.1 pair.2) := by
  have own : about .resourceOverlap Subject.resourceId resourceId (resourceReports db holds entries resourceId) =
      ((sweep (clashingOn resource.mode (Groups.group Entry.resourceId entries resourceId))).filter
        (fun pair => pairCounts resource.mode pair.1 pair.2)).map
          (fun pair => conflict .resourceOverlap { resourceId := some resourceId } pair.1 pair.2) := by
    unfold resourceReports
    rw [known]
    dsimp only
    rw [about_append,about_all,about_other,List.append_nil]
    · intro report full same
      split at full
      · obtain ⟨stretch,_,rfl⟩ := List.mem_map.mp full
        cases same
      · cases full
    · intro report swept
      obtain ⟨pair,_,rfl⟩ := List.mem_map.mp swept
      exact ⟨rfl,rfl⟩
  rw [← own]
  refine about_walk (Groups.keys_nodup _ _) _ (fun name _ report made => (resourceReports_parts made).1) (fun absent => ?_)
  rw [own,Groups.group_away absent]
  unfold clashingOn
  split <;> rfl

theorem memberSide_own {entries : List Entry} (memberId : String) :
    about .memberOverlap Subject.memberId memberId (memberSide db entries) = memberReports db entries memberId := by
  have own : about .memberOverlap Subject.memberId memberId (memberReports db entries memberId) = memberReports db entries memberId :=
    about_all (fun report made => memberReports_parts made)
  refine (about_walk (Groups.keys_nodup _ _) _ (fun name _ report made => (memberReports_parts made).1) (fun absent => ?_)).trans own
  have none_ : (attendances db entries).filter (fun row => row.memberId = memberId) = [] := by
    refine List.filter_eq_nil_iff.mpr (fun row member same => absent ?_)
    exact Groups.mem_keys.mpr ⟨row,member,congrArg some (of_decide_eq_true same)⟩
  rw [own]
  unfold memberReports attending
  rw [none_]
  rfl

theorem leadSide_own {days : List DailyLedger} {entries : List Entry} (leadId : String) :
    about .leadOverlap Subject.leadId leadId (leadSide db days entries) = leadReports db days entries leadId := by
  have own : about .leadOverlap Subject.leadId leadId (leadReports db days entries leadId) = leadReports db days entries leadId :=
    about_all (fun report made => leadReports_parts made)
  refine (about_walk (Groups.keys_nodup _ _) _ (fun name _ report made => (leadReports_parts made).1) (fun absent => ?_)).trans own
  rw [own]
  unfold leadReports
  rw [Groups.group_away absent]
  split <;> rfl

theorem clashingOn_part (mode : ResourceMode) (heldOn : List Entry) : (clashingOn mode heldOn).Sublist heldOn := by
  unfold clashingOn
  split
  · exact List.filter_sublist
  · exact List.Sublist.refl _

theorem attending_entries {entries : List Entry} {memberId : String} {entry : Entry} (member : entry ∈ attending db entries memberId) :
    entry ∈ entries := by
  obtain ⟨row,_,listed⟩ := List.mem_flatMap.mp member
  exact (List.mem_filter.mp listed).1

theorem Reported.perm {entries : List Entry} {counts : Entry → Entry → Bool} {report : Entry → Entry → Report} {one two : List Report}
    (reported : Reported entries counts report two) (same : one.Perm two) : Reported entries counts report one := by
  obtain ⟨pairs,made,listed⟩ := reported
  exact ⟨pairs,made,same.trans listed⟩

-- The sweep, of any entries, and what find_conflicts makes of it: for each
-- resource, each member and each lead one report for every two of their entries
-- that overlap and count, and no other report of the kind.
theorem conflict_sweep_exact (cal : Recurrence) (sha256 : String → String) (db : Database) (fromDate toDate : Int)
    (proper : ∀ entry ∈ conflictEntries cal db fromDate toDate, entry.starts < entry.ends) :
    (∀ entries : List Entry, (∀ entry ∈ entries, entry.starts < entry.ends) →
      ∃ pairs, Pairs entries (fun _ _ => true) pairs ∧ sweep entries = pairs.map (Prod.map entries.get entries.get) ∧
        ∀ i j, i ≠ j → Meets (entries.get i).span (entries.get j).span → pairs.count (i,j)+pairs.count (j,i) = 1) ∧
    (∀ resourceId resource, db.resource? resourceId = some resource →
      Reported (clashingOn resource.mode (Groups.group Entry.resourceId (conflictEntries cal db fromDate toDate) resourceId))
        (pairCounts resource.mode) (conflict .resourceOverlap { resourceId := some resourceId })
        (about .resourceOverlap Subject.resourceId resourceId (findConflicts cal sha256 db fromDate toDate))) ∧
    (∀ memberId, Reported (attending db (conflictEntries cal db fromDate toDate) memberId) (fun a b => !sameActivity a b)
      (conflict .memberOverlap { memberId := some memberId })
      (about .memberOverlap Subject.memberId memberId (findConflicts cal sha256 db fromDate toDate))) ∧
    ∀ leadId, (∃ user ∈ db.users, user.id = leadId ∧ user.deactivated = false) →
      Reported (Groups.group (leadingOf db (timedDays db fromDate toDate)) (conflictEntries cal db fromDate toDate) leadId)
        (fun a b => !sameActivity a b) (conflict .leadOverlap { leadId := some leadId })
        (about .leadOverlap Subject.leadId leadId (findConflicts cal sha256 db fromDate toDate)) := by
  refine ⟨?_,?_,?_,?_⟩
  · intro entries lasting
    obtain ⟨pairs,made,same⟩ := sweep_pairs lasting
    exact ⟨pairs,made,same,fun i j unequal met => made.once (fun _ _ => rfl) unequal met rfl⟩
  · intro resourceId resource known
    have part : (clashingOn resource.mode (Groups.group Entry.resourceId (conflictEntries cal db fromDate toDate) resourceId)).Sublist
        (conflictEntries cal db fromDate toDate) := (clashingOn_part _ _).trans List.filter_sublist
    have lasting := swept_reported (fun entry member => proper entry (part.subset member)) (pairCounts resource.mode)
      (conflict .resourceOverlap { resourceId := some resourceId })
    refine lasting.perm ((found_perm _ _ _).trans (List.Perm.of_eq ?_))
    unfold foundConflicts
    dsimp only
    rw [about_append,about_append,about_append,memberSide_other (by decide),requirements_other (by decide),leadSide_other (by decide),
      resourceSide_overlaps known,List.append_nil,List.append_nil,List.append_nil]
  · intro memberId
    have part : ∀ entry ∈ attending db (conflictEntries cal db fromDate toDate) memberId, entry.starts < entry.ends :=
      fun entry member => proper entry (attending_entries member)
    have lasting := swept_reported part (fun a b => !sameActivity a b)
      (conflict .memberOverlap { memberId := some memberId })
    refine lasting.perm ((found_perm _ _ _).trans (List.Perm.of_eq ?_))
    unfold foundConflicts
    dsimp only
    rw [about_append,about_append,about_append,resourceSide_other (by decide) (by decide),requirements_other (by decide),
      leadSide_other (by decide),memberSide_own,List.append_nil,List.append_nil,List.nil_append]
    rfl
  · intro leadId active
    have part : (Groups.group (leadingOf db (timedDays db fromDate toDate)) (conflictEntries cal db fromDate toDate) leadId).Sublist
        (conflictEntries cal db fromDate toDate) := List.filter_sublist
    have lasting := swept_reported (fun entry member => proper entry (part.subset member)) (fun a b => !sameActivity a b)
      (conflict .leadOverlap { leadId := some leadId })
    refine lasting.perm ((found_perm _ _ _).trans (List.Perm.of_eq ?_))
    unfold foundConflicts
    dsimp only
    rw [about_append,about_append,about_append,resourceSide_other (by decide) (by decide),requirements_other (by decide),
      memberSide_other (by decide),leadSide_own,List.append_nil,List.append_nil,List.nil_append]
    exact if_pos active

-- Two classes of one lead on one room, an hour of them at once.
def atrium : Resource := ⟨1,"Atrium","room",none,none,.exclusive,true,exclusive_bare⟩

def doubleBooked : Database := {staffed 100 with
  cycles := [⟨1,"Autumn",1,400,true⟩],resources := [atrium],
  activities := [⟨1,"CS101","Algorithms","CS",1,false⟩,⟨2,"CS102","Automata","CS",1,false⟩],
  slots := [⟨1,weeklyRule 2,100,clock 9 0,clock 11 0,1,some "registrar",some 1,false⟩,
    ⟨2,weeklyRule 2,100,clock 10 0,clock 12 0,2,some "registrar",some 1,false⟩]}

theorem conflict_sweep_double_booked :
    (findConflicts plainRules id doubleBooked 107 107).map Report.kind = [.leadOverlap,.resourceOverlap] ∧
    Reported (clashingOn atrium.mode (Groups.group Entry.resourceId (conflictEntries plainRules doubleBooked 107 107) 1)) (pairCounts atrium.mode)
      (conflict .resourceOverlap { resourceId := some 1 })
      (about .resourceOverlap Subject.resourceId 1 (findConflicts plainRules id doubleBooked 107 107)) :=
  ⟨by decide +kernel,(conflict_sweep_exact plainRules id doubleBooked 107 107 (by decide +kernel)).2.1 1 atrium rfl⟩

end ChronosLedger
