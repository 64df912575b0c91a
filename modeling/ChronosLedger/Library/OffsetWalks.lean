import Mathlib.Data.List.Sort
import Mathlib.Data.List.Nodup

namespace OffsetWalks

-- A table is read through one window after another, each starting where the last
-- one ended, while its rows come and go. `counted` and `selected` are the rows at
-- the two moments of one look.
structure Look (ρ : Type) where
  counted : List ρ
  selected : List ρ

variable {ρ κ : Type} [LinearOrder κ] {key : ρ → κ} {r : ρ} {rows : List ρ} {looks : List (Look ρ)} {size offset n : Nat}

def ordered (key : ρ → κ) (rows : List ρ) : List ρ := rows.insertionSort (fun a b => key a ≤ key b)

def window (key : ρ → κ) (size offset : Nat) (rows : List ρ) : List ρ := ((ordered key rows).drop offset).take size

-- How many rows stand before one.
def before (key : ρ → κ) (r : ρ) (rows : List ρ) : Nat := rows.countP (fun other => key other < key r)

-- What the looks gave, and whether the walk was over by then: at an empty window,
-- or one that reaches as far as was counted.
def walk (key : ρ → κ) (size : Nat) : Nat → List (Look ρ) → List ρ × Bool
  | _,[] => ([],false)
  | offset,look :: rest =>
    let rows := window key size offset look.selected
    if rows = [] ∨ look.counted.length ≤ offset+rows.length then (rows,true)
    else
      let (more,ended) := walk key size (offset+rows.length) rest
      (rows ++ more,ended)

theorem at_rank {sorted : List ρ} (increasing : sorted.Pairwise (fun a b => key a < key b)) (member : r ∈ sorted) :
    sorted[before key r sorted]? = some r := by
  induction sorted with
  | nil => cases member
  | cons first rest ih =>
    obtain ⟨above,increasing⟩ := List.pairwise_cons.mp increasing
    rcases List.mem_cons.mp member with rfl | later
    · have none_ : before key r rest = 0 := by
        simp only [before,List.countP_eq_zero,decide_eq_true_eq,not_lt]
        exact fun other there => (above other there).le
      have nothing : before key r (r :: rest) = 0 := by simpa [before] using none_
      rw [nothing]
      rfl
    · have more : before key r (first :: rest) = before key r rest+1 := by simp [before,above r later]
      rw [more,List.getElem?_cons_succ]
      exact ih increasing later

theorem ordered_rank (unique : (rows.map key).Nodup) (member : r ∈ rows) :
    (ordered key rows).Nodup ∧ (ordered key rows)[before key r rows]? = some r := by
  have same : (ordered key rows).Perm rows := List.perm_insertionSort _ rows
  have keys : ((ordered key rows).map key).Nodup := (same.map key).nodup_iff.mpr unique
  have sorted : (ordered key rows).Pairwise (fun a b => key a ≤ key b) :=
    List.pairwise_insertionSort (fun a b => key a ≤ key b) rows
  have increasing : (ordered key rows).Pairwise (fun a b => key a < key b) := by
    have apart := List.pairwise_map.mp keys
    exact (sorted.and apart).imp (fun both => lt_of_le_of_ne both.1 both.2)
  have rank : before key r (ordered key rows) = before key r rows := same.countP_eq _
  exact ⟨.of_map key keys,rank ▸ at_rank increasing (same.mem_iff.mpr member)⟩

theorem before_lt (unique : (rows.map key).Nodup) (member : r ∈ rows) : before key r rows < rows.length := by
  obtain ⟨_,there⟩ := ordered_rank unique member
  have bound := (List.getElem?_eq_some_iff.mp there).1
  simpa [ordered] using bound

theorem walk_ends (bounded : ∀ look ∈ looks, look.counted.length ≤ n) (reached : offset ≤ n) (many : n < offset+looks.length) :
    (walk key size offset looks).2 = true := by
  induction looks generalizing offset with
  | nil =>
    simp only [List.length_nil] at many
    omega
  | cons look rest ih =>
    have few := bounded look List.mem_cons_self
    unfold walk
    dsimp only
    split
    · rfl
    · rename_i goes
      obtain ⟨some_,short⟩ := not_or.mp goes
      have more := List.length_pos_iff.mpr some_
      simp only [List.length_cons] at many
      exact ih (fun look member => bounded look (List.mem_cons_of_mem _ member)) (by omega) (by omega)

theorem walk_selected {other : ρ} (given : other ∈ (walk key size offset looks).1) : ∃ look ∈ looks, other ∈ look.selected := by
  induction looks generalizing offset with
  | nil => cases given
  | cons look rest ih =>
    have selected : ∀ other ∈ window key size offset look.selected, other ∈ look.selected := by
      intro other member
      have there := List.mem_of_mem_drop (List.mem_of_mem_take member)
      exact (List.mem_insertionSort _).mp there
    unfold walk at given
    dsimp only at given
    split at given
    · exact ⟨look,List.mem_cons_self,selected other given⟩
    · rcases List.mem_append.mp given with here | later
      · exact ⟨look,List.mem_cons_self,selected other here⟩
      · obtain ⟨look,member,there⟩ := ih later
        exact ⟨look,List.mem_cons_of_mem _ member,there⟩

theorem window_full (unique : (rows.map key).Nodup) (member : r ∈ rows) (past : offset+size ≤ before key r rows) :
    (window key size offset rows).length = size := by
  have bound := before_lt unique member
  simp only [window,ordered,List.length_take,List.length_drop,List.length_insertionSort]
  omega

variable [DecidableEq ρ]

-- A window holds a row once when the row's rank is within it.
theorem window_count (size offset : Nat) (unique : (rows.map key).Nodup) (member : r ∈ rows) :
    (window key size offset rows).count r = if offset ≤ before key r rows ∧ before key r rows < offset+size then 1 else 0 := by
  obtain ⟨distinct,there⟩ := ordered_rank unique member
  have inside : r ∈ window key size offset rows ↔ offset ≤ before key r rows ∧ before key r rows < offset+size := by
    rw [window,List.mem_iff_getElem?]
    constructor
    · rintro ⟨i,found⟩
      rw [List.getElem?_take,List.getElem?_drop] at found
      split at found
      · have bound := (List.getElem?_eq_some_iff.mp there).1
        have rank := (List.getElem?_inj bound distinct).mp (there.trans found.symm)
        omega
      · cases found
    · intro within
      refine ⟨before key r rows-offset,?_⟩
      rw [List.getElem?_take,if_pos (by omega),List.getElem?_drop,Nat.add_sub_cancel' within.1]
      exact there
  have nodup : (window key size offset rows).Nodup := (distinct.sublist (List.drop_sublist ..)).sublist (List.take_sublist ..)
  rw [nodup.count]
  simp only [inside]

-- The row is there at every look.
def Stays (key : ρ → κ) (r : ρ) (looks : List (Look ρ)) : Prop :=
  ∀ look ∈ looks, (look.selected.map key).Nodup ∧ r ∈ look.selected

theorem walk_passed (size : Nat) (stays : Stays key r looks) (passed : ∀ look ∈ looks, before key r look.selected < offset) :
    (walk key size offset looks).1.count r = 0 := by
  induction looks generalizing offset with
  | nil => rfl
  | cons look rest ih =>
    obtain ⟨unique,member⟩ := stays look List.mem_cons_self
    have rank := passed look List.mem_cons_self
    have nothing : (window key size offset look.selected).count r = 0 := by
      rw [window_count size offset unique member,if_neg (by omega)]
    unfold walk
    dsimp only
    split
    · exact nothing
    · rw [List.count_append,nothing,Nat.zero_add]
      apply ih (fun look member => stays look (List.mem_cons_of_mem _ member))
      intro other there
      have passed := passed other (List.mem_cons_of_mem _ there)
      omega

-- While the rows before it only go, a row is given at most once.
theorem walk_no_repeat (size offset : Nat) (stays : Stays key r looks) (falls : looks.Pairwise (fun a b => before key r b.selected ≤ before key r a.selected)) :
    (walk key size offset looks).1.count r ≤ 1 := by
  induction looks generalizing offset with
  | nil => exact Nat.zero_le 1
  | cons look rest ih =>
    obtain ⟨unique,member⟩ := stays look List.mem_cons_self
    obtain ⟨below,falls⟩ := List.pairwise_cons.mp falls
    have later : Stays key r rest := fun look member => stays look (List.mem_cons_of_mem _ member)
    have here := window_count size offset unique member
    unfold walk
    dsimp only
    split
    · rw [here]
      split <;> omega
    · rw [List.count_append,here]
      split
      · rename_i within
        have reached : before key r look.selected < offset+(window key size offset look.selected).length := by
          have bound := before_lt unique member
          simp only [window,ordered,List.length_take,List.length_drop,List.length_insertionSort]
          omega
        have nothing := walk_passed size later (fun other there => Nat.lt_of_le_of_lt (below other there) reached)
        omega
      · have once := ih (offset+(window key size offset look.selected).length) later falls
        omega

-- While rows before it only come, a walk that is over has given it.
theorem walk_no_skip (some_ : 0 < size) (stays : Stays key r looks) (rises : looks.Pairwise (fun a b => before key r a.selected ≤ before key r b.selected))
    (counted : ∀ look ∈ looks, before key r look.selected < look.counted.length) (ahead : ∀ look ∈ looks, offset ≤ before key r look.selected)
    (ended : (walk key size offset looks).2 = true) : r ∈ (walk key size offset looks).1 := by
  induction looks generalizing offset with
  | nil => cases ended
  | cons look rest ih =>
    obtain ⟨unique,member⟩ := stays look List.mem_cons_self
    obtain ⟨above,rises⟩ := List.pairwise_cons.mp rises
    have here := window_count size offset unique member
    have rank := ahead look List.mem_cons_self
    have known := counted look List.mem_cons_self
    unfold walk at ended ⊢
    dsimp only at ended ⊢
    by_cases within : before key r look.selected < offset+size
    · rw [if_pos ⟨rank,within⟩] at here
      have given : r ∈ window key size offset look.selected := List.count_pos_iff.mp (by omega)
      split
      · exact given
      · exact List.mem_append_left _ given
    · have full := window_full unique member (not_lt.mp within)
      have goes : ¬(window key size offset look.selected = [] ∨ look.counted.length ≤ offset+(window key size offset look.selected).length) := by
        rintro (empty | past)
        · rw [empty] at full
          simp only [List.length_nil] at full
          omega
        · omega
      rw [if_neg goes] at ended ⊢
      apply List.mem_append_right
      apply ih (fun look member => stays look (List.mem_cons_of_mem _ member)) rises (fun look member => counted look (List.mem_cons_of_mem _ member)) ?_ ended
      intro other there
      have more := above other there
      omega

end OffsetWalks
