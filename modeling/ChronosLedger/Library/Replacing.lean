import Mathlib.Data.List.Basic

namespace Replacing

universe u

variable {α : Type u} [DecidableEq α] {new tail part rest text : List α} {c d mark : α}

-- One text put in for another from left to right, and never looked at again. A
-- match is counted down while it is stepped over.
def scan (old new : List α) : Nat → List α → List α
  | _,[] => []
  | skip+1,_ :: rest => scan old new skip rest
  | 0,c :: rest => if old.isPrefixOf (c :: rest) then new ++ scan old new (old.length-1) rest else c :: scan old new 0 rest

def replace (old new text : List α) : List α := scan old new 0 text

-- What stands between the separators, found from left to right as well.
def cut (sep : List α) : Nat → List α → List (List α)
  | _,[] => [[]]
  | skip+1,_ :: rest => cut sep skip rest
  | 0,c :: rest => if sep.isPrefixOf (c :: rest) then [] :: cut sep (sep.length-1) rest else (cut sep 0 rest).modifyHead (c :: ·)

def split (sep text : List α) : List (List α) := cut sep 0 text

theorem scan_over (old : List α) : scan old new part.length (part ++ rest) = replace old new rest := by
  induction part with
  | nil => rfl
  | cons c part ih => exact ih

theorem replace_nil (old : List α) : replace old new [] = [] := rfl

theorem replace_match : replace (c :: tail) new (c :: (tail ++ rest)) = new ++ replace (c :: tail) new rest := by
  have found : (c :: tail).isPrefixOf (c :: (tail ++ rest)) = true := by simp
  have over_ : scan (c :: tail) new tail.length (tail ++ rest) = replace (c :: tail) new rest := scan_over _
  simp only [replace,scan,found,if_true,List.length_cons,Nat.add_sub_cancel]
  rw [over_]
  rfl

theorem replace_step (none : ¬ (c :: tail) <+: d :: rest) : replace (c :: tail) new (d :: rest) = d :: replace (c :: tail) new rest := by
  have missed : (c :: tail).isPrefixOf (d :: rest) = false := by
    rw [← Bool.not_eq_true,List.isPrefixOf_iff_prefix]
    exact none
  simp [replace,scan,missed]

-- A text without the first character of what is sought is passed over.
theorem replace_plain (plain : c ∉ part) : replace (c :: tail) new (part ++ rest) = part ++ replace (c :: tail) new rest := by
  induction part with
  | nil => rfl
  | cons d part ih =>
    obtain ⟨other,plain⟩ := not_or.mp (mt List.mem_cons.mpr plain)
    rw [List.cons_append,replace_step,ih plain]
    · rfl
    · intro found
      exact other (List.cons_prefix_cons.mp found).1

theorem replace_one (text : List α) : replace [c] new text = text.flatMap (fun d => if d = c then new else [d]) := by
  induction text with
  | nil => rfl
  | cons d rest ih =>
    rw [List.flatMap_cons]
    by_cases same : d = c
    · subst same
      rw [if_pos rfl,← ih]
      exact replace_match
    · rw [if_neg same,replace_step,ih]
      · rfl
      · intro found
        exact same (List.cons_prefix_cons.mp found).1.symm

theorem replace_one_plain (text : List α) (clean : d ∈ new → False) (same : d = c ∨ d ∉ text) : d ∉ replace [c] new text := by
  rw [replace_one]
  intro there
  obtain ⟨e,inside,out⟩ := List.mem_flatMap.mp there
  split at out
  · exact clean out
  · rename_i other
    cases List.mem_singleton.mp out
    rcases same with same | absent
    · exact other same
    · exact absent inside

theorem cut_over (sep : List α) : cut sep part.length (part ++ rest) = split sep rest := by
  induction part with
  | nil => rfl
  | cons c part ih => exact ih

theorem split_match : split (c :: tail) (c :: (tail ++ rest)) = [] :: split (c :: tail) rest := by
  have found : (c :: tail).isPrefixOf (c :: (tail ++ rest)) = true := by simp
  have over_ : cut (c :: tail) tail.length (tail ++ rest) = split (c :: tail) rest := cut_over _
  simp only [split,cut,found,if_true,List.length_cons,Nat.add_sub_cancel]
  rw [over_]
  rfl

theorem split_plain (plain : c ∉ part) : split (c :: tail) (part ++ rest) = (split (c :: tail) rest).modifyHead (part ++ ·) := by
  induction part with
  | nil =>
    rw [List.nil_append]
    cases split (c :: tail) rest <;> rfl
  | cons d part ih =>
    obtain ⟨other,plain⟩ := not_or.mp (mt List.mem_cons.mpr plain)
    have missed : (c :: tail).isPrefixOf (d :: (part ++ rest)) = false := by
      rw [← Bool.not_eq_true,List.isPrefixOf_iff_prefix]
      exact fun found => other (List.cons_prefix_cons.mp found).1
    have next : split (c :: tail) (d :: (part ++ rest)) = (split (c :: tail) (part ++ rest)).modifyHead (d :: ·) := by
      simp [split,cut,missed]
    rw [List.cons_append,next,ih plain,List.modifyHead_modifyHead]
    rfl

theorem split_all (plain : c ∉ part) : split (c :: tail) part = [part] := by
  have whole : split (c :: tail) (part ++ []) = [part ++ []] := split_plain plain
  simpa using whole

omit [DecidableEq α] in
theorem intercalate_more (sep : List α) (part next : List α) (more : List (List α)) :
    sep.intercalate (part :: next :: more) = part ++ (sep ++ sep.intercalate (next :: more)) := by
  rw [List.intercalate_cons_of_ne_nil (List.cons_ne_nil next more),List.append_assoc]

-- Texts without the separator's first character come back one by one.
theorem split_intercalate {parts : List (List α)} (full : parts ≠ []) (plain : ∀ part ∈ parts, c ∉ part) :
    split (c :: tail) ((c :: tail).intercalate parts) = parts := by
  induction parts with
  | nil => exact absurd rfl full
  | cons part more ih =>
    obtain ⟨head,others⟩ := List.forall_mem_cons.mp plain
    cases more with
    | nil => simpa using split_all head
    | cons next more =>
      rw [intercalate_more,split_plain head,List.cons_append,split_match,ih (List.cons_ne_nil next more) others]
      simp

-- A line broken in places, each break the separator and a mark.
def broken (sep : List α) (mark : α) (pieces : List (List α)) : List α := (sep ++ [mark]).intercalate pieces

theorem unbreak_pieces {pieces : List (List α)} (full : pieces ≠ []) (plain : ∀ part ∈ pieces, c ∉ part) :
    replace (c :: tail ++ [mark]) [] (broken (c :: tail) mark pieces ++ rest) =
      pieces.flatten ++ replace (c :: tail ++ [mark]) [] rest := by
  unfold broken
  induction pieces with
  | nil => exact absurd rfl full
  | cons part more ih =>
    obtain ⟨head,others⟩ := List.forall_mem_cons.mp plain
    cases more with
    | nil =>
      have passed : replace (c :: (tail ++ [mark])) [] (part ++ rest) = part ++ replace (c :: (tail ++ [mark])) [] rest := replace_plain head
      simpa using passed
    | cons next more =>
      have later := ih (List.cons_ne_nil next more) others
      have passed := @replace_plain α _ [] (tail ++ [mark]) part (c :: tail ++ [mark] ++
        ((c :: tail ++ [mark]).intercalate (next :: more) ++ rest)) c head
      have found := @replace_match α _ [] (tail ++ [mark]) ((c :: tail ++ [mark]).intercalate (next :: more) ++ rest) c
      rw [intercalate_more,List.append_assoc,List.append_assoc]
      simp only [List.cons_append,List.append_assoc] at later passed found ⊢
      rw [passed,found,later]
      simp

-- A separator with no mark behind it stays.
theorem unbreak_keeps (clean : c ∉ tail) (open_ : ¬ [mark] <+: rest) :
    replace (c :: tail ++ [mark]) [] (c :: tail ++ rest) = c :: tail ++ replace (c :: tail ++ [mark]) [] rest := by
  have missed : ¬ (c :: (tail ++ [mark])) <+: c :: (tail ++ rest) := by
    intro found
    exact open_ ((List.prefix_append_right_inj tail).mp (List.cons_prefix_cons.mp found).2)
  have first := @replace_step α _ [] (tail ++ [mark]) (tail ++ rest) c c missed
  have second := @replace_plain α _ [] (tail ++ [mark]) tail rest c clean
  simp only [List.cons_append]
  rw [first,second]

-- Lines that are broken and then joined are the lines joined once the breaks are
-- taken out, when none of them opens with the mark.
theorem unbreak_lines {lines : List (List (List α))} (clean : c ∉ tail) (plain : ∀ pieces ∈ lines, ∀ part ∈ pieces, c ∉ part)
    (opens : ∀ pieces ∈ lines, ∃ d part more, pieces = (d :: part) :: more ∧ d ≠ mark) :
    replace (c :: tail ++ [mark]) [] ((c :: tail).intercalate (lines.map (broken (c :: tail) mark))) =
      (c :: tail).intercalate (lines.map List.flatten) := by
  induction lines with
  | nil => rfl
  | cons pieces others ih =>
    obtain ⟨head,plains⟩ := List.forall_mem_cons.mp plain
    obtain ⟨⟨d,part,more,rfl,_⟩,openings⟩ := List.forall_mem_cons.mp opens
    have full : (d :: part) :: more ≠ [] := List.cons_ne_nil _ _
    cases others with
    | nil =>
      have whole := @unbreak_pieces α _ tail [] c mark _ full head
      simpa [replace_nil] using whole
    | cons next others =>
      have later := ih plains openings
      obtain ⟨e,second,more',same,unmarked⟩ := openings next (List.mem_cons_self ..)
      have open_ : ¬ [mark] <+: (c :: tail).intercalate ((next :: others).map (broken (c :: tail) mark)) := by
        intro found
        have front : ∃ after, (c :: tail).intercalate ((next :: others).map (broken (c :: tail) mark)) = e :: after := by
          subst same
          cases others <;> cases more' <;> simp [broken]
        obtain ⟨after,shape⟩ := front
        rw [shape] at found
        exact unmarked (List.cons_prefix_cons.mp found).1.symm
      rw [List.map_cons,List.map_cons,List.map_cons,List.map_cons,intercalate_more,intercalate_more,unbreak_pieces full head,
        ← List.map_cons,unbreak_keeps clean open_,later]
      rfl

-- The lines as they stand in the text: every one after the first opens with the mark.
def opened (mark : α) : List (List α) → List (List α)
  | [] => []
  | first :: more => first :: more.map (mark :: ·)

omit [DecidableEq α] in
theorem broken_opened (sep : List α) (mark : α) (pieces : List (List α)) : broken sep mark pieces = sep.intercalate (opened mark pieces) := by
  unfold broken
  induction pieces with
  | nil => rfl
  | cons first more ih =>
    cases more with
    | nil => simp [opened]
    | cons second more =>
      have shifted : ∀ one : List α, ∀ others : List (List α), sep.intercalate ((mark :: one) :: others.map (mark :: ·)) =
          mark :: sep.intercalate (one :: others.map (mark :: ·)) := by
        intro one others
        cases others <;> simp [List.map_cons]
      rw [intercalate_more,ih]
      simp [opened,shifted]

omit [DecidableEq α] in
theorem intercalate_append (sep : List α) {one two : List (List α)} (left : one ≠ []) (right : two ≠ []) :
    sep.intercalate (one ++ two) = sep.intercalate one ++ (sep ++ sep.intercalate two) := by
  induction one with
  | nil => exact absurd rfl left
  | cons part more ih =>
    cases more with
    | nil =>
      obtain ⟨next,others,rfl⟩ := List.exists_cons_of_ne_nil right
      simp
    | cons next more =>
      have later := ih (List.cons_ne_nil next more)
      simp only [List.cons_append,intercalate_more,List.append_assoc] at later ⊢
      rw [later]

omit [DecidableEq α] in
theorem intercalate_flatten (sep : List α) {groups : List (List (List α))} (full : ∀ group ∈ groups, group ≠ []) :
    sep.intercalate (groups.map sep.intercalate) = sep.intercalate groups.flatten := by
  induction groups with
  | nil => rfl
  | cons group others ih =>
    obtain ⟨head,fulls⟩ := List.forall_mem_cons.mp full
    cases others with
    | nil => simp
    | cons next others =>
      have some_ : (next :: others).flatten ≠ [] := by
        obtain ⟨part,more,same⟩ := List.exists_cons_of_ne_nil (fulls next (List.mem_cons_self ..))
        simp [same]
      rw [List.flatten_cons,intercalate_append sep head some_,← ih fulls,List.map_cons,List.map_cons,intercalate_more]

end Replacing
