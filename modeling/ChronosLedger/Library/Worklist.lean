import Mathlib.Logic.Relation
import Mathlib.Data.List.Basic

namespace Worklist
open Relation

universe u

variable {α : Type u} {r : α → α → Prop} {a b x y : α}

-- Nothing comes back to itself.
def Acyclic (r : α → α → Prop) : Prop := ∀ x, ¬ TransGen r x x

theorem Acyclic.mono {q : α → α → Prop} (acyclic : Acyclic r) (part : ∀ x y, q x y → r x y) : Acyclic q := by
  intro x loop
  exact acyclic x (TransGen.mono part x x loop)

theorem acyclic_of_none (none : ∀ x y, ¬ r x y) : Acyclic r := by
  intro x loop
  obtain ⟨y,edge,_⟩ := TransGen.head'_iff.mp loop
  exact none x y edge

def withEdge (r : α → α → Prop) (a b : α) (x y : α) : Prop := r x y ∨ x = a ∧ y = b

-- A path with one edge added: without it, or once through it.
theorem withEdge_paths (apart : ¬ ReflTransGen r b a) (path : TransGen (withEdge r a b) x y) :
    TransGen r x y ∨ ReflTransGen r x a ∧ ReflTransGen r b y := by
  induction path with
  | single edge =>
    rcases edge with old | ⟨rfl,rfl⟩
    · exact .inl (.single old)
    · exact .inr ⟨.refl,.refl⟩
  | tail _ edge ih =>
    rcases ih with before | ⟨toward,onward⟩
    · rcases edge with old | ⟨rfl,rfl⟩
      · exact .inl (before.tail old)
      · exact .inr ⟨before.to_reflTransGen,.refl⟩
    · rcases edge with old | ⟨rfl,rfl⟩
      · exact .inr ⟨toward,onward.tail old⟩
      · exact absurd onward apart

-- An edge closes a loop exactly when its end led back to its start.
theorem acyclic_withEdge (acyclic : Acyclic r) : Acyclic (withEdge r a b) ↔ ¬ ReflTransGen r b a := by
  constructor
  · intro still back
    have around : TransGen (withEdge r a b) a a := by
      apply TransGen.head' (b := b) (.inr ⟨rfl,rfl⟩)
      exact ReflTransGen.mono (fun _ _ => .inl) _ _ back
    exact still a around
  · intro apart x loop
    rcases withEdge_paths apart loop with old | ⟨toward,onward⟩
    · exact acyclic x old
    · exact apart (onward.trans toward)

variable [DecidableEq α] {next : α → List α} {goal : α}

def Leads (next : α → List α) (x y : α) : Prop := y ∈ next x

-- A search of what can be reached. The goal is asked about first, and what has
-- been seen is passed over.
def search (next : α → List α) (goal : α) : Nat → List α → List α → Option Bool
  | 0,_,_ => none
  | _+1,_,[] => some false
  | fuel+1,seen,here :: todo =>
    if here = goal then some true
    else if here ∈ seen then search next goal fuel seen todo
    else search next goal fuel (here :: seen) (next here ++ todo)

-- What has been seen leads to what has been seen or is still to be looked at.
def Closed (next : α → List α) (seen todo : List α) : Prop := ∀ x ∈ seen, ∀ y ∈ next x, y ∈ seen ∨ y ∈ todo

omit [DecidableEq α] in
theorem Closed.leaves {seen todo : List α} (closed : Closed next seen todo) (unseen : goal ∉ seen) (path : ReflTransGen (Leads next) x goal)
    (inside : x ∈ seen) : ∃ y ∈ todo, y ∉ seen ∧ ReflTransGen (Leads next) y goal := by
  induction path using ReflTransGen.head_induction_on with
  | refl => exact absurd inside unseen
  | @head x y edge rest ih =>
    by_cases there : y ∈ seen
    · exact ih there
    · rcases closed x inside y edge with old | todo_
      · exact absurd old there
      · exact ⟨y,todo_,there,rest⟩

theorem search_exact {fuel : Nat} {seen todo : List α} {found : Bool} (closed : Closed next seen todo) (unseen : goal ∉ seen)
    (done : search next goal fuel seen todo = some found) : found = true ↔ ∃ x ∈ todo, ReflTransGen (Leads next) x goal := by
  induction fuel generalizing seen todo with
  | zero => cases done
  | succ fuel ih =>
    cases todo with
    | nil =>
      cases done
      simp
    | cons here todo =>
      unfold search at done
      by_cases reached : here = goal
      · rw [if_pos reached] at done
        cases done
        exact iff_of_true rfl ⟨here,List.mem_cons_self,reached ▸ .refl⟩
      · rw [if_neg reached] at done
        by_cases old : here ∈ seen
        · rw [if_pos old] at done
          have closed' : Closed next seen todo := by
            intro x inside y edge
            rcases closed x inside y edge with seen_ | listed
            · exact .inl seen_
            · rcases List.mem_cons.mp listed with rfl | later
              · exact .inl old
              · exact .inr later
          rw [ih closed' unseen done]
          constructor
          · intro ⟨x,listed,path⟩
            exact ⟨x,List.mem_cons_of_mem _ listed,path⟩
          · intro ⟨x,listed,path⟩
            rcases List.mem_cons.mp listed with rfl | later
            · obtain ⟨y,todo_,_,rest⟩ := closed'.leaves unseen path old
              exact ⟨y,todo_,rest⟩
            · exact ⟨x,later,path⟩
        · rw [if_neg old] at done
          have closed' : Closed next (here :: seen) (next here ++ todo) := by
            intro x inside y edge
            rcases List.mem_cons.mp inside with rfl | before
            · exact .inr (List.mem_append_left _ edge)
            · rcases closed x before y edge with seen_ | listed
              · exact .inl (List.mem_cons_of_mem _ seen_)
              · rcases List.mem_cons.mp listed with rfl | later
                · exact .inl List.mem_cons_self
                · exact .inr (List.mem_append_right _ later)
          have unseen' : goal ∉ here :: seen := by
            simp only [List.mem_cons,not_or]
            exact ⟨fun same => reached same.symm,unseen⟩
          rw [ih closed' unseen' done]
          constructor
          · intro ⟨x,listed,path⟩
            rcases List.mem_append.mp listed with new | later
            · exact ⟨here,List.mem_cons_self,path.head new⟩
            · exact ⟨x,List.mem_cons_of_mem _ later,path⟩
          · intro ⟨x,listed,path⟩
            rcases List.mem_cons.mp listed with rfl | later
            · rcases path.cases_head with same | ⟨y,edge,rest⟩
              · exact absurd same reached
              · exact ⟨y,List.mem_append_left _ edge,rest⟩
            · exact ⟨x,List.mem_append_right _ later,path⟩

-- Every edge is followed once, so a search of finitely many ends.
theorem search_ends {edges : List (α × α)} (listed : ∀ x, (next x).length ≤ (edges.filter (fun edge => edge.1 = x)).length)
    {fuel : Nat} {seen todo : List α} (enough : todo.length+(edges.filter (fun edge => edge.1 ∉ seen)).length < fuel) :
    ∃ found, search next goal fuel seen todo = some found := by
  induction fuel generalizing seen todo with
  | zero => omega
  | succ fuel ih =>
    cases todo with
    | nil => exact ⟨false,rfl⟩
    | cons here todo =>
      rw [List.length_cons] at enough
      unfold search
      by_cases reached : here = goal
      · exact ⟨true,if_pos reached⟩
      · rw [if_neg reached]
        by_cases old : here ∈ seen
        · rw [if_pos old]
          exact ih (by omega)
        · rw [if_neg old]
          apply ih
          have apart : (edges.filter (fun edge => edge.1 ∉ seen)).length =
              (edges.filter (fun edge => edge.1 = here)).length+(edges.filter (fun edge => edge.1 ∉ here :: seen)).length := by
            clear enough ih listed
            induction edges with
            | nil => rfl
            | cons edge rest ih =>
              simp only [List.filter_cons,List.mem_cons,not_or]
              by_cases same : edge.1 = here
              · have unseen : edge.1 ∉ seen := same ▸ old
                simp only [same,old,not_true_eq_false,not_false_eq_true,decide_true,decide_false,false_and,if_true,Bool.false_eq_true,if_false,
                  List.length_cons]
                simp only [List.mem_cons,not_or] at ih
                omega
              · simp only [List.mem_cons,not_or] at ih
                by_cases seen_ : edge.1 ∈ seen
                · simp only [same,seen_,not_true_eq_false,decide_false,and_false,Bool.false_eq_true,if_false]
                  exact ih
                · simp only [same,seen_,not_false_eq_true,decide_true,decide_false,and_self,if_true,Bool.false_eq_true,if_false,List.length_cons]
                  omega
          have few := listed here
          rw [List.length_append]
          omega

end Worklist
