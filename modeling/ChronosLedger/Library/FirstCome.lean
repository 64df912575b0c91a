import Mathlib.Data.List.Basic

namespace FirstCome

variable {α : Type*}

-- First come, first served. Each item is taken unless it is refused outright or
-- clashes with one taken before it.
def pick (refused : α → Prop) [DecidablePred refused] (clash : α → α → Prop) [DecidableRel clash] : List α → List α → List α
  | _,[] => []
  | taken,item :: rest =>
    if refused item ∨ ∃ other ∈ taken, clash other item then pick refused clash taken rest
    else item :: pick refused clash (taken ++ [item]) rest

variable {refused strict : α → Prop} [DecidablePred refused] [DecidablePred strict] {clash : α → α → Prop} [DecidableRel clash]

theorem pick_sublist (taken offered : List α) : (pick refused clash taken offered).Sublist offered := by
  induction offered generalizing taken with
  | nil => exact .slnil
  | cons item rest ih =>
    unfold pick
    split
    · exact (ih taken).cons item
    · exact (ih _).cons_cons item

theorem pick_clear {taken offered : List α} {item : α} (member : item ∈ pick refused clash taken offered) :
    ¬ refused item ∧ ∀ other ∈ taken, ¬ clash other item := by
  induction offered generalizing taken with
  | nil => cases member
  | cons first rest ih =>
    unfold pick at member
    split at member
    · exact ih member
    · rename_i free
      obtain ⟨open_,apart⟩ := not_or.mp free
      rcases List.mem_cons.mp member with rfl | later
      · exact ⟨open_,fun other there met => apart ⟨other,there,met⟩⟩
      · obtain ⟨open',apart'⟩ := ih later
        exact ⟨open',fun other there => apart' other (List.mem_append_left _ there)⟩

-- What is not taken was refused, or met something that was.
theorem pick_left {taken offered : List α} {item : α} (member : item ∈ offered) (left : item ∉ pick refused clash taken offered) :
    refused item ∨ ∃ other ∈ taken ++ pick refused clash taken offered, clash other item := by
  induction offered generalizing taken with
  | nil => cases member
  | cons first rest ih =>
    unfold pick at left ⊢
    split at left
    · rename_i out
      rw [if_pos out]
      rcases List.mem_cons.mp member with rfl | later
      · rcases out with no | ⟨other,there,met⟩
        · exact .inl no
        · exact .inr ⟨other,List.mem_append_left _ there,met⟩
      · exact ih later left
    · rename_i free
      rw [if_neg free]
      rcases List.mem_cons.mp member with rfl | later
      · exact absurd (List.mem_cons_self ..) left
      · rcases ih later (fun there => left (List.mem_cons_of_mem _ there)) with no | ⟨other,there,met⟩
        · exact .inl no
        · exact .inr ⟨other,by simpa [List.append_assoc] using there,met⟩

theorem pick_none {taken offered : List α} (out : ∀ item ∈ offered, refused item ∨ ∃ other ∈ taken, clash other item) :
    pick refused clash taken offered = [] := by
  induction offered with
  | nil => rfl
  | cons item rest ih =>
    unfold pick
    rw [if_pos (out item (List.mem_cons_self ..))]
    exact ih (fun other later => out other (List.mem_cons_of_mem _ later))

-- Of two doors, one refusing more than the other, both take the same items
-- exactly when the stricter one refuses nothing the other takes.
theorem pick_agree (more : ∀ item, refused item → strict item) (taken offered : List α) :
    pick strict clash taken offered = pick refused clash taken offered ↔
      ∀ item ∈ pick refused clash taken offered, ¬ strict item := by
  constructor
  · intro same item member
    rw [← same] at member
    exact (pick_clear member).1
  · induction offered generalizing taken with
    | nil => exact fun _ => rfl
    | cons item rest ih =>
      intro admitted
      unfold pick at admitted ⊢
      split at admitted
      · rename_i out
        rw [if_pos out,if_pos (out.imp (more item) id)]
        exact ih taken admitted
      · rename_i free
        obtain ⟨_,apart⟩ := not_or.mp free
        rw [if_neg free,if_neg (not_or.mpr ⟨admitted item (List.mem_cons_self ..),apart⟩)]
        rw [ih _ (fun other later => admitted other (List.mem_cons_of_mem _ later))]

-- The same door for the same items.
theorem pick_congr {taken offered : List α} (same : ∀ item ∈ offered, refused item ↔ strict item) :
    pick refused clash taken offered = pick strict clash taken offered := by
  induction offered generalizing taken with
  | nil => rfl
  | cons item rest ih =>
    have later : ∀ {taken}, pick refused clash taken rest = pick strict clash taken rest :=
      ih (fun other member => same other (List.mem_cons_of_mem _ member))
    unfold pick
    simp only [same item (List.mem_cons_self ..),later]

end FirstCome
