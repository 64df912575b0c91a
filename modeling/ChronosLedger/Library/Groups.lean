import Mathlib.Data.List.Basic
import Mathlib.Data.List.Nodup

namespace Groups

variable {ι κ β : Type*} [DecidableEq κ]

-- A dictionary of lists: the keys as they are first met, and the entries of one.
def keys (key : ι → Option κ) (entries : List ι) : List κ := (entries.filterMap key).eraseDups

def group (key : ι → Option κ) (entries : List ι) (name : κ) : List ι := entries.filter (fun entry => key entry = some name)

theorem eraseDups_nodup : ∀ (names : List κ), names.eraseDups.Nodup
  | [] => by simp
  | name :: rest => by
    rw [List.eraseDups_cons]
    refine List.nodup_cons.mpr ⟨?_,eraseDups_nodup _⟩
    simp [List.mem_eraseDups]
termination_by names => names.length
decreasing_by exact Nat.lt_succ_of_le (List.length_filter_le _ _)

theorem keys_nodup (key : ι → Option κ) (entries : List ι) : (keys key entries).Nodup := eraseDups_nodup _

theorem mem_keys {key : ι → Option κ} {entries : List ι} {name : κ} : name ∈ keys key entries ↔ ∃ entry ∈ entries, key entry = some name := by
  simp [keys,List.mem_eraseDups]

theorem group_away {key : ι → Option κ} {entries : List ι} {name : κ} (away : name ∉ keys key entries) : group key entries name = [] := by
  refine List.filter_eq_nil_iff.mpr (fun entry member => ?_)
  have other : key entry ≠ some name := fun same => away (mem_keys.mpr ⟨entry,member,same⟩)
  simpa using other

-- What one name's part of a walk over names adds, found again by whose it is.
theorem filter_own {names : List κ} (distinct : names.Nodup) (part : κ → List β) (whose : β → Option κ)
    (own : ∀ name ∈ names, ∀ made ∈ part name, whose made = some name) (name : κ) :
    (names.flatMap part).filter (fun made => whose made = some name) = if name ∈ names then part name else [] := by
  induction names with
  | nil => rfl
  | cons head rest ih =>
    obtain ⟨fresh,tail⟩ := List.nodup_cons.mp distinct
    have later := ih tail (fun other member => own other (List.mem_cons_of_mem _ member))
    rw [List.flatMap_cons,List.filter_append,later]
    by_cases same : name = head
    · subst same
      have all : (part name).filter (fun made => whose made = some name) = part name :=
        List.filter_eq_self.mpr (fun made member => decide_eq_true (own name (by simp) made member))
      simp [all,fresh]
    · have none_ : (part head).filter (fun made => whose made = some name) = [] := by
        refine List.filter_eq_nil_iff.mpr (fun made member => ?_)
        simp [own head (by simp) made member,Ne.symm same]
      simp [none_,same]

end Groups
