import Mathlib.Data.List.Sort
import Mathlib.Data.List.Perm.Basic
import ChronosLedger.Library.Spans

namespace Sweeps
open Spans

variable {ι κ α : Type*} [LinearOrder α]

-- The spans are taken in order; those still open when one starts are paired with
-- it, and it stays open after them.
def sweepFrom (span : ι → α × α) : List ι → List ι → List (ι × ι)
  | _,[] => []
  | openNow,entry :: rest =>
    let still := openNow.filter (fun other => (span entry).1 < (span other).2)
    still.map (fun other => (other,entry)) ++ sweepFrom span (still ++ [entry]) rest

def sweep (span : ι → α × α) (first : ι → ι → Prop) [DecidableRel first] (entries : List ι) : List (ι × ι) :=
  sweepFrom span [] (entries.insertionSort first)

-- Each entry against all before it, nothing forgotten.
def meetings (span : ι → α × α) : List ι → List ι → List (ι × ι)
  | _,[] => []
  | before,entry :: rest =>
    (before.filter (fun other => Meets (span other) (span entry))).map (fun other => (other,entry)) ++
      meetings span (before ++ [entry]) rest

-- The order the spans are swept in: by where they start.
def Timed (span : ι → α × α) (first : ι → ι → Prop) : Prop := ∀ a b, first a b → (span a).1 ≤ (span b).1

variable {span : ι → α × α}

theorem open_meets {other entry : ι} (earlier : (span other).1 ≤ (span entry).1) (proper : (span entry).1 < (span entry).2) :
    (span entry).1 < (span other).2 ↔ Meets (span other) (span entry) :=
  ⟨fun still => ⟨lt_of_le_of_lt earlier proper,still⟩,fun met => met.2⟩

-- What the sweep has let go of ended by the start of an entry it has taken, so it
-- meets none that is still to come.
theorem sweepFrom_meetings {rest before openNow : List ι} (starts : (before ++ rest).Pairwise (fun a b => (span a).1 ≤ (span b).1))
    (proper : ∀ entry ∈ before ++ rest, (span entry).1 < (span entry).2)
    (kept : ∀ entry ∈ rest, openNow.filter (fun other => (span entry).1 < (span other).2) =
      before.filter (fun other => (span entry).1 < (span other).2)) :
    sweepFrom span openNow rest = meetings span before rest := by
  induction rest generalizing before openNow with
  | nil => rfl
  | cons entry rest ih =>
    have same := kept entry (by simp)
    obtain ⟨_,later,cross⟩ := List.pairwise_append.mp starts
    obtain ⟨onward,_⟩ := List.pairwise_cons.mp later
    have met : before.filter (fun other => (span entry).1 < (span other).2) =
        before.filter (fun other => Meets (span other) (span entry)) := by
      refine List.filter_congr (fun other member => ?_)
      exact decide_eq_decide.mpr (open_meets (cross other member entry (by simp)) (proper entry (by simp)))
    unfold sweepFrom meetings
    dsimp only
    rw [same,met]
    congr 1
    refine ih (by simpa using starts) (by simpa using proper) ?_
    intro next member
    rw [List.filter_append,List.filter_append,← met]
    congr 1
    rw [List.filter_filter]
    refine List.filter_congr (fun other _ => ?_)
    have started := onward next member
    by_cases still : (span next).1 < (span other).2
    · simp [still,lt_of_le_of_lt started still]
    · simp [still]

theorem sweep_meetings {first : ι → ι → Prop} [DecidableRel first] [Std.Total first] [IsTrans ι first] (timed : Timed span first)
    {entries : List ι} (proper : ∀ entry ∈ entries, (span entry).1 < (span entry).2) :
    sweep span first entries = meetings span [] (entries.insertionSort first) := by
  have sorted := List.pairwise_insertionSort first entries
  refine sweepFrom_meetings (sorted.imp (fun {a b} before => timed a b before)) ?_ (fun _ _ => rfl)
  intro entry member
  exact proper entry ((List.mem_insertionSort first).mp member)

theorem pair_cons {a b entry : ι} {rest : List ι} : [a,b].Sublist (entry :: rest) ↔ [a,b].Sublist rest ∨ a = entry ∧ b ∈ rest := by
  rw [List.cons_sublist_cons']
  simp

theorem mem_meetings {before rest : List ι} {a b : ι} : (a,b) ∈ meetings span before rest ↔
    Meets (span a) (span b) ∧ ((a ∈ before ∧ b ∈ rest) ∨ [a,b].Sublist rest) := by
  induction rest generalizing before with
  | nil => simp [meetings]
  | cons entry rest ih =>
    have pair := @pair_cons _ a b entry rest
    simp only [meetings,List.mem_append,List.mem_map,List.mem_filter,decide_eq_true_eq,Prod.mk.injEq,ih,pair,List.mem_cons,
      List.not_mem_nil,or_false]
    constructor
    · rintro (⟨other,⟨there,met⟩,rfl,rfl⟩ | ⟨met,⟨old | rfl,later⟩ | both⟩)
      · exact ⟨met,.inl ⟨there,.inl rfl⟩⟩
      · exact ⟨met,.inl ⟨old,.inr later⟩⟩
      · exact ⟨met,.inr (.inr ⟨rfl,later⟩)⟩
      · exact ⟨met,.inr (.inl both)⟩
    · rintro ⟨met,⟨old,rfl | later⟩ | both | ⟨rfl,later⟩⟩
      · exact .inl ⟨a,⟨old,met⟩,rfl,rfl⟩
      · exact .inr ⟨met,.inl ⟨.inl old,later⟩⟩
      · exact .inr ⟨met,.inr both⟩
      · exact .inr ⟨met,.inl ⟨.inr rfl,later⟩⟩

-- No pair twice: the second of a pair says when it was made.
theorem meetings_nodup {before rest : List ι} (distinct : (before ++ rest).Nodup) : (meetings span before rest).Nodup := by
  induction rest generalizing before with
  | nil => exact List.nodup_nil
  | cons entry rest ih =>
    obtain ⟨old,new,apart⟩ := List.nodup_append.mp distinct
    obtain ⟨fresh,_⟩ := List.nodup_cons.mp new
    refine List.nodup_append.mpr ⟨?_,ih (by simpa using distinct),?_⟩
    · exact (old.filter _).map (fun x y same => (Prod.mk.inj same).1)
    · rintro ⟨a,b⟩ now other later rfl
      obtain ⟨c,_,same⟩ := List.mem_map.mp now
      obtain ⟨rfl,rfl⟩ := Prod.mk.inj same
      rcases (mem_meetings.mp later).2 with ⟨_,after⟩ | both
      · exact fresh after
      · exact fresh (both.subset (by simp))

theorem meetings_map {names : List κ} {f : κ → ι} {before : List κ} :
    (meetings (fun name => span (f name)) before names).map (Prod.map f f) = meetings span (before.map f) (names.map f) := by
  induction names generalizing before with
  | nil => rfl
  | cons name rest ih =>
    simp only [meetings,List.map_append,List.map_cons,ih,List.map_nil]
    congr 1
    rw [List.filter_map,List.map_map,List.map_map]
    rfl

-- Which of two places is swept first. Equal keys keep the order of the list.
def Before (first : ι → ι → Prop) (entries : List ι) (i j : Fin entries.length) : Prop :=
  ¬ first (entries.get j) (entries.get i) ∨ first (entries.get i) (entries.get j) ∧ i < j

theorem Before.cases (first : ι → ι → Prop) [total : Std.Total first] (entries : List ι) {i j : Fin entries.length} (unequal : i ≠ j) :
    (Before first entries i j ∧ ¬ Before first entries j i) ∨ (Before first entries j i ∧ ¬ Before first entries i j) := by
  unfold Before
  have either := total.total (entries.get i) (entries.get j)
  rcases lt_or_gt_of_ne unequal with less | less
  · have other := not_lt.mpr (le_of_lt less)
    tauto
  · have other := not_lt.mpr (le_of_lt less)
    tauto

-- Of two members one comes first, and in a list without repetition only one.
theorem pair_either {a b : ι} {entries : List ι} (left : a ∈ entries) (right : b ∈ entries) (unequal : a ≠ b) :
    [a,b].Sublist entries ∨ [b,a].Sublist entries := by
  induction entries with
  | nil => cases left
  | cons entry rest ih =>
    simp only [pair_cons]
    rcases List.mem_cons.mp left with same | behind
    · rcases List.mem_cons.mp right with same' | behind'
      · exact absurd (same.trans same'.symm) unequal
      · exact .inl (.inr ⟨same,behind'⟩)
    · rcases List.mem_cons.mp right with same' | behind'
      · exact .inr (.inr ⟨same',behind⟩)
      · exact (ih behind behind').imp .inl .inl

theorem pair_once {a b : ι} {entries : List ι} (distinct : entries.Nodup) (one : [a,b].Sublist entries) (two : [b,a].Sublist entries) :
    False := by
  induction entries with
  | nil => cases one
  | cons entry rest ih =>
    obtain ⟨fresh,tail⟩ := List.nodup_cons.mp distinct
    rcases pair_cons.mp one with later | ⟨same,behind⟩
    · rcases pair_cons.mp two with later' | ⟨same',_⟩
      · exact ih tail later later'
      · exact fresh (later.subset (by simp [same']))
    · rcases pair_cons.mp two with later' | ⟨same',_⟩
      · exact fresh (later'.subset (by simp [same]))
      · exact fresh (same' ▸ behind)

section Places

variable {first : ι → ι → Prop} [DecidableRel first] [total : Std.Total first] [IsTrans ι first]

def places (first : ι → ι → Prop) [DecidableRel first] (entries : List ι) : List (Fin entries.length) :=
  (List.finRange entries.length).insertionSort (fun i j => first (entries.get i) (entries.get j))

omit total [IsTrans ι first] in
theorem places_sorted (entries : List ι) : (places first entries).map entries.get = entries.insertionSort first := by
  unfold places
  rw [List.map_insertionSort _ first entries.get _ (fun _ _ _ _ => Iff.rfl),List.map_get_finRange]

omit total [IsTrans ι first] in
theorem places_nodup (entries : List ι) : (places first entries).Nodup :=
  (List.perm_insertionSort _ _).nodup_iff.mpr (List.nodup_finRange _)

-- In the sorted list one place comes before another exactly when it should.
theorem pair_places (entries : List ι) {i j : Fin entries.length} (unequal : i ≠ j) :
    [i,j].Sublist (places first entries) ↔ Before first entries i j := by
  have listed : ∀ k, k ∈ places first entries := fun k => (List.mem_insertionSort _).mpr (List.mem_finRange k)
  have totals : Std.Total (fun i j : Fin entries.length => first (entries.get i) (entries.get j)) := ⟨fun _ _ => total.total _ _⟩
  have transitive : IsTrans (Fin entries.length) (fun i j => first (entries.get i) (entries.get j)) :=
    ⟨fun _ _ _ one two => IsTrans.trans _ _ _ one two⟩
  have sorted := List.pairwise_insertionSort (fun i j => first (entries.get i) (entries.get j)) (List.finRange entries.length)
  have back : ∀ {i j : Fin entries.length}, i ≠ j → Before first entries i j → [i,j].Sublist (places first entries) := by
    rintro i j unequal (after | ⟨tied,less⟩)
    · rcases pair_either (listed i) (listed j) unequal with here | there
      · exact here
      · exact absurd (sorted.forall_sublist there) after
    · refine List.pair_sublist_insertionSort (r := fun i j => first (entries.get i) (entries.get j)) tied ?_
      rcases pair_either (List.mem_finRange i) (List.mem_finRange j) unequal with here | there
      · exact here
      · exact absurd ((List.pairwise_lt_finRange _).forall_sublist there) (not_lt.mpr (le_of_lt less))
  refine ⟨fun pair => ?_,back unequal⟩
  rcases Before.cases first entries unequal with here | there
  · exact here.1
  · exact (pair_once (places_nodup entries) pair (back (Ne.symm unequal) there.1)).elim

-- Every two places whose spans meet, once, the one that is first before the
-- other; and no other two.
theorem sweep_exact (timed : Timed span first) {entries : List ι} (proper : ∀ entry ∈ entries, (span entry).1 < (span entry).2) :
    ∃ pairs : List (Fin entries.length × Fin entries.length), pairs.Nodup ∧
      sweep span first entries = pairs.map (Prod.map entries.get entries.get) ∧
      ∀ i j, (i,j) ∈ pairs ↔ i ≠ j ∧ Meets (span (entries.get i)) (span (entries.get j)) ∧ Before first entries i j := by
  refine ⟨meetings (fun i => span (entries.get i)) [] (places first entries),meetings_nodup (places_nodup entries),?_,?_⟩
  · rw [sweep_meetings timed proper,meetings_map,places_sorted]
    rfl
  · intro i j
    rw [mem_meetings]
    by_cases unequal : i = j
    · subst unequal
      have none_ : ¬ [i,i].Sublist (places first entries) := fun pair => pair_once (places_nodup entries) pair pair
      simp [none_]
    · rw [pair_places entries unequal]
      simp [unequal]

end Places

end Sweeps
