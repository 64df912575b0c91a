import Mathlib.Data.List.Basic

namespace Joins

universe u

variable {α : Type u} [DecidableEq α] {sep : α} {xs ys : List (List α)} {text : List α}

-- Texts joined by a separator that they may themselves hold.
def join (sep : α) (parts : List (List α)) : List α := [sep].intercalate parts

-- What lies between the separators, whoever put them there.
def cuts (sep : α) (parts : List (List α)) : List (List α) := parts.flatMap (fun part => part.splitOn sep)

theorem split_length (sep : α) (text : List α) : (text.splitOn sep).length = text.count sep+1 := by
  induction text with
  | nil => rfl
  | cons c rest ih =>
    rw [List.splitOn_cons_eq_if_modifyHead,List.count_cons]
    split
    · rw [List.length_cons,ih]
    · rw [List.length_modifyHead,ih]

theorem split_injective {one two : List α} (same : one.splitOn sep = two.splitOn sep) : one = two := by
  have back : [sep].intercalate (one.splitOn sep) = one := List.intercalate_splitOn sep
  rw [← back,same,List.intercalate_splitOn]

omit [DecidableEq α] in
theorem join_cons {part : List α} {rest : List (List α)} (more : rest ≠ []) : join sep (part :: rest) = part ++ sep :: join sep rest := by
  unfold join
  rw [List.intercalate_cons_of_ne_nil more,List.append_assoc,List.singleton_append]

theorem split_join (full : xs ≠ []) : (join sep xs).splitOn sep = cuts sep xs := by
  induction xs with
  | nil => exact absurd rfl full
  | cons part rest ih =>
    cases rest with
    | nil => simp [join,cuts]
    | cons next rest =>
      rw [join_cons (List.cons_ne_nil next rest),List.splitOn_append_cons_self,ih (List.cons_ne_nil next rest)]
      rfl

-- Two lists are joined to one text exactly when they are cut alike.
theorem join_exact (full : xs ≠ []) (full' : ys ≠ []) : join sep xs = join sep ys ↔ cuts sep xs = cuts sep ys := by
  constructor
  · intro same
    rw [← split_join full,← split_join full',same]
  · intro same
    apply @split_injective α _ sep
    rw [split_join full,split_join full',same]

theorem cuts_head {one two : List α} (count : one.count sep = two.count sep) (same : cuts sep (one :: xs) = cuts sep (two :: ys)) :
    one = two ∧ cuts sep xs = cuts sep ys := by
  have lengths : (one.splitOn sep).length = (two.splitOn sep).length := by
    rw [split_length,split_length,count]
  obtain ⟨head,tail⟩ := List.append_inj same lengths
  exact ⟨split_injective head,tail⟩

-- With as many separators in each text as in the one across, they are the same.
theorem cuts_same (counts : xs.map (List.count sep) = ys.map (List.count sep)) (same : cuts sep xs = cuts sep ys) : xs = ys := by
  induction xs generalizing ys with
  | nil =>
    cases ys with
    | nil => rfl
    | cons other rest' => cases counts
  | cons part rest ih =>
    cases ys with
    | nil => cases counts
    | cons other rest' =>
      obtain ⟨count,counts'⟩ := List.cons.inj counts
      obtain ⟨rfl,tail⟩ := cuts_head count same
      rw [ih counts' tail]

theorem cuts_full (part : List α) (rest : List (List α)) : cuts sep (part :: rest) ≠ [] := by
  unfold cuts
  rw [List.flatMap_cons]
  exact fun none => List.splitOn_ne_nil sep part (List.append_eq_nil_iff.mp none).1

-- The first piece opens as the first text does.
theorem cuts_opens {label : List α} (plain : sep ∉ label) (part : List α) (rest : List (List α)) :
    ∃ opened more, cuts sep ((label ++ part) :: rest) = (label ++ opened) :: more := by
  induction label with
  | nil =>
    obtain ⟨opened,more,cut⟩ := List.exists_cons_of_ne_nil (cuts_full part rest)
    exact ⟨opened,more,cut⟩
  | cons c label ih =>
    simp only [List.mem_cons,not_or] at plain
    obtain ⟨opened,more,cut⟩ := ih plain.2
    refine ⟨opened,more,?_⟩
    simp only [cuts,List.flatMap_cons] at cut ⊢
    cases split : (label ++ part).splitOn sep with
    | nil => exact absurd split (List.splitOn_ne_nil sep _)
    | cons first others =>
      rw [split,List.cons_append] at cut
      obtain ⟨same,tail⟩ := List.cons.inj cut
      rw [List.cons_append,List.splitOn_cons_eq_if_modifyHead,if_neg (by simpa using Ne.symm plain.1),split,List.modifyHead_cons,
        List.cons_append,same,tail]
      rfl

theorem cuts_cons {part : List α} (plain : sep ∉ part) (rest : List (List α)) : cuts sep (part :: rest) = part :: cuts sep rest := by
  unfold cuts
  rw [List.flatMap_cons,List.splitOn_eq_singleton plain,List.singleton_append]

end Joins
