import ChronosLedger.Library.OffsetWalks

namespace ChronosLedger.Paging

open OffsetWalks

structure Page where
  limit : Option Nat
  offset : Nat
  positive : ∀ n ∈ limit, 1 ≤ n

-- Anything else is refused with a 422 before the route runs.
def Page.of (limit : Option Int) (offset : Int) : Option Page :=
  if fits : (∀ n ∈ limit, 1 ≤ n) ∧ 0 ≤ offset then
    some ⟨limit.map Int.toNat,offset.toNat,by
      intro n member
      obtain ⟨m,there,rfl⟩ := Option.map_eq_some_iff.mp member
      have least := fits.1 m there
      omega⟩
  else none

variable {ρ κ : Type} [LinearOrder κ] {key : ρ → κ} {r : ρ} {looks : List (Look ρ)} {pageSize offset : Nat}

-- The rows of a page and the total that goes into the header. Unless everything is
-- asked for at once, they come from two statements.
def Page.rows (page : Page) (key : ρ → κ) (look : Look ρ) : List ρ × Nat :=
  if page.limit = none ∧ page.offset = 0 then (ordered key look.selected,look.selected.length)
  else
    let rows := (ordered key look.selected).drop page.offset
    (match page.limit with
      | some limit => rows.take limit
      | none => rows,look.counted.length)

-- The client's walk over what a route gives at one look after another, with the
-- total as the header has it. It raises at a refused page.
def paginate (fetch : Page → Look ρ → List ρ × Option Nat) (pageSize : Nat) : Nat → List (Look ρ) → Option (List ρ × Bool)
  | _,[] => some ([],false)
  | offset,look :: rest =>
    match Page.of (some pageSize) offset with
    | none => none
    | some page =>
      let (rows,total) := fetch page look
      let offset := offset+rows.length
      if rows = [] ∨ total.all (fun total => total ≤ offset) then some (rows,true)
      else (paginate fetch pageSize offset rest).map (fun (more,ended) => (rows ++ more,ended))

def route (key : ρ → κ) (page : Page) (look : Look ρ) : List ρ × Option Nat :=
  let (rows,total) := page.rows key look
  (rows,some total)

theorem page_window (key : ρ → κ) (positive : 0 < pageSize) (offset : Nat) (look : Look ρ) : ∃ page, Page.of (some pageSize) offset = some page ∧
    route key page look = (window key pageSize offset look.selected,some look.counted.length) := by
  have fits : (∀ n ∈ (some (pageSize : Int)), 1 ≤ n) ∧ (0 : Int) ≤ offset := by
    refine ⟨?_,Int.natCast_nonneg offset⟩
    intro n is
    cases is
    omega
  exact ⟨_,dif_pos fits,by simp [route,Page.rows,window]⟩

theorem paginate_walks (positive : 0 < pageSize) : paginate (route key) pageSize offset looks = some (walk key pageSize offset looks) := by
  induction looks generalizing offset with
  | nil => rfl
  | cons look rest ih =>
    obtain ⟨page,is,gives⟩ := page_window key positive offset look
    unfold paginate walk
    simp only [is,gives,Option.all_some,decide_eq_true_eq]
    split
    · rfl
    · rw [ih]
      rfl

-- As many rows stand before this one whenever the table is read.
def Unmoved (key : ρ → κ) (r : ρ) (looks : List (Look ρ)) : Prop :=
  ∃ n, ∀ look ∈ looks, (look.counted.map key).Nodup ∧ r ∈ look.counted ∧ before key r look.counted = n ∧ before key r look.selected = n

theorem unmoved_parts (unmoved : Unmoved key r looks) : looks.Pairwise (fun a b => before key r a.selected = before key r b.selected) ∧
    ∀ look ∈ looks, before key r look.selected < look.counted.length := by
  obtain ⟨n,still⟩ := unmoved
  constructor
  · apply List.pairwise_of_forall_mem_list
    intro a first b second
    rw [(still a first).2.2.2,(still b second).2.2.2]
  · intro look member
    obtain ⟨unique,there,counted,selected⟩ := still look member
    have bound := before_lt unique there
    omega

variable [DecidableEq ρ]

-- A row that is there all through a walk: given at most once while rows before it
-- only go, not skipped while they only come, and exactly once while neither. What
-- is given was in the table, and the walk ends unless the table grows without bound.
theorem paginate_rows (positive : 0 < pageSize) (stays : Stays key r looks) :
    ∃ rows ended, paginate (route key) pageSize 0 looks = some (rows,ended) ∧
    (looks.Pairwise (fun a b => before key r b.selected ≤ before key r a.selected) → rows.count r ≤ 1) ∧
    (looks.Pairwise (fun a b => before key r a.selected ≤ before key r b.selected) →
      (∀ look ∈ looks, before key r look.selected < look.counted.length) → ended = true → r ∈ rows) ∧
    (Unmoved key r looks → rows.count r ≤ 1 ∧ (ended = true → rows.count r = 1)) ∧
    (∀ other ∈ rows, ∃ look ∈ looks, other ∈ look.selected) ∧
    ∀ n, (∀ look ∈ looks, look.counted.length ≤ n) → n < looks.length → ended = true := by
  have ahead : ∀ look ∈ looks, 0 ≤ before key r look.selected := fun _ _ => Nat.zero_le _
  refine ⟨_,_,paginate_walks positive,walk_no_repeat pageSize 0 stays,?_,?_,fun other given => walk_selected given,?_⟩
  · exact fun rises counted ended => walk_no_skip positive stays rises counted ahead ended
  · intro unmoved
    obtain ⟨same,counted⟩ := unmoved_parts unmoved
    have once := walk_no_repeat pageSize 0 stays (same.imp (fun equal => equal.symm.le))
    refine ⟨once,fun ended => ?_⟩
    have given := walk_no_skip positive stays (same.imp (fun equal => equal.le)) counted ahead ended
    have some_ := List.count_pos_iff.mpr given
    omega
  · exact fun n bounded many => walk_ends bounded (Nat.zero_le n) (by omega)

def growing : List (Look Nat) := [⟨[5,3,1],[5,3,1]⟩,⟨[1,3,5,8],[8,5,3,1]⟩]

theorem growing_once : ∃ rows ended, paginate (route id) 2 0 growing = some (rows,ended) ∧ rows = [1,3,5,8] ∧ rows.count 5 = 1 := by
  have stays : Stays id 5 growing := by simp [Stays,growing]
  have unmoved : Unmoved id 5 growing := ⟨2,by decide⟩
  obtain ⟨rows,ended,walked,_,_,once,_,ends⟩ := paginate_rows (by decide : 0 < 2) stays
  have is : paginate (route id) 2 0 growing = some ([1,3,5,8],true) := by decide
  rw [is] at walked
  cases walked
  exact ⟨_,_,is,rfl,(once unmoved).2 rfl⟩

end ChronosLedger.Paging
