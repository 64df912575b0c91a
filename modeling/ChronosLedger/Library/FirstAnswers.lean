import Mathlib.Order.Basic

namespace FirstAnswers

variable {κ α ι ρ : Type*} [BEq κ]

-- Answers kept by key. A key that has one already takes no other.
def offer (found : List (κ × α)) (offered : κ × α) : List (κ × α) :=
  if (found.lookup offered.1).isSome then found else offered :: found

def gather (found offers : List (κ × α)) : List (κ × α) := offers.foldl offer found

theorem lookup_offer [LawfulBEq κ] (found : List (κ × α)) (offered : κ × α) (key : κ) :
    (offer found offered).lookup key = (found.lookup key).or ([offered].lookup key) := by
  unfold offer
  obtain ⟨name,answer⟩ := offered
  by_cases same : key = name
  · subst same
    cases known : found.lookup key <;> simp [known]
  · have other : (key == name) = false := by simpa using same
    split <;> simp [List.lookup_cons,other]

theorem gather_lookup [LawfulBEq κ] (found offers : List (κ × α)) (key : κ) :
    (gather found offers).lookup key = (found.lookup key).or (offers.lookup key) := by
  unfold gather
  induction offers generalizing found with
  | nil => simp
  | cons offered rest ih =>
    rw [List.foldl_cons,ih,lookup_offer,Option.or_assoc,← List.lookup_append]
    rfl

-- A loop whose every step only offers gathers what its steps offer.
theorem steps_gather {step : List (κ × α) → ι → List (κ × α)} (told : ι → List (κ × α))
    (each : ∀ found item, step found item = gather found (told item)) (items : List ι) (found : List (κ × α)) :
    items.foldl step found = gather found (items.flatMap told) := by
  induction items generalizing found with
  | nil => rfl
  | cons item rest ih =>
    rw [List.foldl_cons,ih,each,List.flatMap_cons]
    unfold gather
    rw [List.foldl_append]

theorem lookup_flatMap (told : ι → List (κ × α)) (items : List ι) (key : κ) :
    (items.flatMap told).lookup key = items.findSome? (fun item => (told item).lookup key) := by
  induction items with
  | nil => rfl
  | cons item rest ih =>
    rw [List.flatMap_cons,List.lookup_append,ih,List.findSome?_cons]
    cases (told item).lookup key <;> rfl

theorem lookup_filter [LawfulBEq κ] {offers : List (κ × α)} (keep : κ → Bool) {key : κ} (kept : keep key = true) :
    (offers.filter (fun offered => keep offered.1)).lookup key = offers.lookup key := by
  induction offers with
  | nil => rfl
  | cons offered rest ih =>
    obtain ⟨name,answer⟩ := offered
    by_cases same : key = name
    · subst same
      simp [kept]
    · have other : (key == name) = false := by simpa using same
      rw [List.filter_cons,List.lookup_cons,other]
      split <;> simp [List.lookup_cons,other,ih]

-- The first answer of a sorted list is the answer of its least item that has
-- one. Where no two such items are of one rank it does not matter what else is
-- in the list, nor in what order the ties of the rest come.
theorem findSome_sorted [PartialOrder ρ] {answer : ι → Option α} (rank : ι → ρ) {one two : List ι}
    (sorted : one.Pairwise (fun a b => rank a ≤ rank b)) (sorted' : two.Pairwise (fun a b => rank a ≤ rank b))
    (same : ∀ item, (answer item).isSome → (item ∈ one ↔ item ∈ two))
    (apart : ∀ a ∈ one, ∀ b ∈ one, (answer a).isSome → (answer b).isSome → rank a = rank b → a = b) :
    one.findSome? answer = two.findSome? answer := by
  have least : ∀ {items : List ι} {found}, items.Pairwise (fun a b => rank a ≤ rank b) → items.findSome? answer = some found →
      ∃ first ∈ items, answer first = some found ∧ ∀ item ∈ items, (answer item).isSome → rank first ≤ rank item := by
    intro items found sorted some_
    obtain ⟨before,first,after,rfl,answers,silent⟩ := List.findSome?_eq_some_iff.mp some_
    refine ⟨first,by simp,answers,?_⟩
    intro item member told
    rcases List.mem_append.mp member with early | late
    · simp [silent item early] at told
    · rcases List.mem_cons.mp late with rfl | later
      · exact le_refl _
      · exact (List.pairwise_cons.mp (List.pairwise_append.mp sorted).2.1).1 item later
  have none_ : ∀ {items others : List ι}, (∀ item, (answer item).isSome → item ∈ others → item ∈ items) →
      items.findSome? answer = none → others.findSome? answer = none := by
    intro items others within silent
    refine List.findSome?_eq_none_iff.mpr (fun item member => ?_)
    cases told : answer item with
    | none => rfl
    | some found =>
      have no := List.findSome?_eq_none_iff.mp silent item (within item (by simp [told]) member)
      rw [told] at no
      cases no
  cases left : one.findSome? answer with
  | none => exact (none_ (fun item told => (same item told).mpr) left).symm
  | some found =>
    cases right : two.findSome? answer with
    | none => rw [none_ (fun item told => (same item told).mp) right] at left; cases left
    | some found' =>
      obtain ⟨a,here,answers,lowest⟩ := least sorted left
      obtain ⟨b,there,answers',lowest'⟩ := least sorted' right
      have a_tells : (answer a).isSome := by simp [answers]
      have b_tells : (answer b).isSome := by simp [answers']
      have b_here := (same b b_tells).mpr there
      have below := lowest b b_here b_tells
      have above := lowest' a ((same a a_tells).mp here) a_tells
      have equal := apart a here b b_here a_tells b_tells (le_antisymm below above)
      rw [← answers,← answers',equal]

theorem findSome_one {answer : ι → Option α} {items : List ι} {found : α} (told : ∃ item ∈ items, answer item = some found)
    (each : ∀ item ∈ items, ∀ other, answer item = some other → other = found) : items.findSome? answer = some found := by
  cases first : items.findSome? answer with
  | none =>
    obtain ⟨item,member,answers⟩ := told
    rw [List.findSome?_eq_none_iff.mp first item member] at answers
    cases answers
  | some other =>
    obtain ⟨item,member,answers⟩ := List.exists_of_findSome?_eq_some first
    rw [each item member other answers]

theorem findSome_single {answer : ι → Option α} {items : List ι} {only : ι} (member : only ∈ items)
    (each : ∀ item ∈ items, item = only) : items.findSome? answer = answer only := by
  cases told : answer only with
  | none => exact List.findSome?_eq_none_iff.mpr (fun item there => each item there ▸ told)
  | some found =>
    refine findSome_one ⟨only,member,told⟩ ?_
    intro item there other answers
    rw [each item there,told] at answers
    exact (Option.some.inj answers).symm

theorem findSome_congr {answer other : ι → Option α} {items : List ι} (same : ∀ item ∈ items, answer item = other item) :
    items.findSome? answer = items.findSome? other := by
  induction items with
  | nil => rfl
  | cons item rest ih =>
    rw [List.findSome?_cons,List.findSome?_cons,same item (List.mem_cons_self ..),
      ih (fun later member => same later (List.mem_cons_of_mem _ member))]

end FirstAnswers
