import Mathlib.Tactic.Common
import ChronosLedger.Idempotency

namespace ChronosLedger.Idempotency

variable {hash : Nat → String} {s next : KeyState}

-- What a step can do, one case for each way a statement can come out.
inductive Change (hash : Nat → String) (s : KeyState) : Operation → KeyState → Prop where
  | found {request : Nat} {row : IdempotencyRecord} (arriving : s.phase request = .arriving) (there : s.row = some row) :
      Change hash s (.find request) ({s with began := Function.update s.began request s.settled}.at_ request
        (.answered (answer row (hash request))))
  | free {request : Nat} (arriving : s.phase request = .arriving) (none_ : s.row = none) :
      Change hash s (.find request) ({s with began := Function.update s.began request s.settled}.at_ request .inserting)
  | outrun {request : Nat} (inserting : s.phase request = .inserting) : Change hash s (.insert request) (s.at_ request .outrun)
  | claims {request : Nat} (inserting : s.phase request = .inserting) (unclaimed : s.claimed = none) (none_ : s.row = none) :
      Change hash s (.insert request) ({s with claimed := some request}.at_ request .running)
  | answered {request : Nat} {reply : Reply} (outrun : s.phase request = .outrun) :
      Change hash s (.findAgain request) (s.at_ request (.answered reply))
  | committed {request : Nat} {sent : Sent} (running : s.phase request = .running) :
      Change hash s (.commit request sent) (commit hash s request sent)
  | rolledBack {request : Nat} {sent : Sent} (running : s.phase request = .running) :
      Change hash s (.rollback request sent) (rollback s request sent)
  | looked {request : Nat} {sent : Sent} (ended : s.phase request = .ended sent) :
      Change hash s (.look request) (s.at_ request (.looked sent s.row))
  | idle {request : Nat} {sent : Sent} {seen : Option IdempotencyRecord} (looked : s.phase request = .looked sent seen)
      (why : ∀ row ∈ seen, s.row.map IdempotencyRecord.id = some row.id → row.requestHash = hash request → storedResponse sent = none) :
      Change hash s (.write request) (s.at_ request .over)
  | stored {request : Nat} {sent : Sent} {seen row : IdempotencyRecord} {response : Response}
      (looked : s.phase request = .looked sent (some seen)) (there : s.row = some row) (same : row.id = seen.id)
      (reached : reaches hash s request = some (row,some response)) :
      Change hash s (.write request)
        ((noteSettled {s with row := some {row with response := some response}} request response).at_ request .over)
  | removed {request : Nat} {sent : Sent} {seen row : IdempotencyRecord} (looked : s.phase request = .looked sent (some seen))
      (there : s.row = some row) (reached : reaches hash s request = some (row,none)) :
      Change hash s (.write request) ({s with row := none}.at_ request .over)
  | added {request : Nat} {sent : Sent} {response : Response} (looked : s.phase request = .looked sent none) (none_ : s.row = none)
      (unclaimed : s.claimed = none) : Change hash s (.write request)
        ((noteSettled {s with row := some ⟨s.nextId,hash request,some response,request⟩,claimed := none,nextId := s.nextId+1} request
          response).at_ request .over)

theorem settle_changes {request : Nat} {sent : Sent} {seen : Option IdempotencyRecord} (looked : s.phase request = .looked sent seen)
    (settled : (settle hash s request sent seen).map (fun s => s.at_ request .over) = some next) : Change hash s (.write request) next := by
  unfold settle at settled
  cases seen with
  | none =>
    dsimp only at settled
    cases stored : storedResponse sent with
    | none =>
      rw [stored] at settled
      cases settled
      exact .idle looked nofun
    | some response =>
      rw [stored] at settled
      dsimp only at settled
      cases claimed : s.claimed with
      | some other =>
        rw [claimed] at settled
        cases settled
      | none =>
        cases there : s.row with
        | some row =>
          rw [claimed,there] at settled
          cases settled
          exact .idle looked nofun
        | none =>
          rw [claimed,there] at settled
          cases settled
          exact .added looked there claimed
  | some seen =>
    dsimp only at settled
    split at settled
    · rename_i other
      cases settled
      apply Change.idle looked
      intro row member _ same
      cases Option.mem_some_iff.mp member
      exact absurd same other
    · rename_i same
      have same := not_not.mp same
      cases stored : storedResponse sent with
      | some response =>
        rw [stored] at settled
        dsimp only at settled
        split at settled
        · rename_i there
          obtain ⟨row,here,id⟩ := Option.map_eq_some_iff.mp there
          rw [here] at settled
          cases settled
          have reached : reaches hash s request = some (row,some response) := by
            unfold reaches
            simp [looked,here,same,id,stored]
          exact .stored looked here id reached
        · rename_i gone
          cases settled
          apply Change.idle looked
          intro row member there
          cases Option.mem_some_iff.mp member
          exact absurd there gone
      | none =>
        rw [stored] at settled
        dsimp only at settled
        split at settled
        · rename_i claim
          obtain ⟨row,here,id⟩ := Option.map_eq_some_iff.mp claim.2
          cases settled
          apply Change.removed looked here
          unfold reaches
          simp [looked,here,same,id,stored,claim.1]
        · cases settled
          exact .idle looked (fun _ _ _ _ => stored)

theorem step_changes {op : Operation} (taken : step hash s op = some next) : Change hash s op next := by
  cases op with
  | find request =>
    simp only [step,Option.ite_none_right_eq_some,Option.some.injEq] at taken
    obtain ⟨arriving,rfl⟩ := taken
    cases there : s.row with
    | some row =>
      have now : find hash s request = {s with began := Function.update s.began request s.settled}.at_ request
          (.answered (answer row (hash request))) := by
        unfold find
        rw [there]
      rw [now]
      exact .found arriving there
    | none =>
      have now : find hash s request = {s with began := Function.update s.began request s.settled}.at_ request .inserting := by
        unfold find
        rw [there]
      rw [now]
      exact .free arriving there
  | insert request =>
    simp only [step,Option.ite_none_right_eq_some] at taken
    obtain ⟨inserting,taken⟩ := taken
    unfold insert at taken
    split at taken
    · cases taken
    · cases taken
      exact .outrun inserting
    · rename_i unclaimed none_
      cases taken
      exact .claims inserting unclaimed none_
  | findAgain request =>
    simp only [step,Option.ite_none_right_eq_some,Option.some.injEq] at taken
    obtain ⟨outrun,rfl⟩ := taken
    unfold findAgain
    split <;> exact .answered outrun
  | commit request sent =>
    simp only [step,Option.ite_none_right_eq_some,Option.some.injEq] at taken
    obtain ⟨running,rfl⟩ := taken
    exact .committed running
  | rollback request sent =>
    simp only [step,Option.ite_none_right_eq_some,Option.some.injEq] at taken
    obtain ⟨running,rfl⟩ := taken
    exact .rolledBack running
  | look request =>
    simp only [step] at taken
    split at taken
    · rename_i ended
      cases taken
      exact .looked ended
    · cases taken
  | write request =>
    simp only [step] at taken
    split at taken
    · rename_i looked
      exact settle_changes looked taken
    · cases taken

theorem at_other {request other : Nat} {phase : Phase} (apart : other ≠ request) : (s.at_ request phase).phase other = s.phase other :=
  Function.update_of_ne apart _ _

theorem at_own (request : Nat) (phase : Phase) : (s.at_ request phase).phase request = phase := Function.update_self _ _ _

theorem noteSettled_parts (s : KeyState) (request : Nat) (response : Response) : ∃ settled,
    noteSettled s request response = {s with settled := settled} ∧
      ∀ entry ∈ settled, entry ∈ s.settled ∨ entry = (request,response) ∧ request ∈ s.effects := by
  unfold noteSettled
  split
  · rename_i noted
    refine ⟨_,rfl,fun entry member => ?_⟩
    rcases List.mem_append.mp member with old | new
    · exact .inl old
    · exact .inr ⟨List.mem_singleton.mp new,noted.1⟩
  · exact ⟨s.settled,rfl,fun _ member => .inl member⟩

-- The key is in one transaction at a time, and in none once it is in the table;
-- what has taken effect is in the table.
structure OneClaim (s : KeyState) : Prop where
  held : s.claimed ≠ none → s.row = none
  runs : ∀ request, s.phase request = .running → s.claimed = some request
  kept : s.effects ≠ [] → s.row ≠ none
  once : s.effects.length ≤ 1

theorem OneClaim.idle (one : OneClaim s) {t : KeyState} {request : Nat} {phase : Phase} (rows : t.row = none ↔ s.row = none)
    (claimed : t.claimed = s.claimed) (phases : t.phase = s.phase) (effects : t.effects = s.effects) (still : phase ≠ .running) :
    OneClaim (t.at_ request phase) := by
  refine ⟨fun held => rows.mpr (one.held (claimed ▸ held)),?_,fun some_ => mt rows.mp (one.kept (effects ▸ some_)),effects ▸ one.once⟩
  intro other running
  by_cases same : other = request
  · rw [same,at_own] at running
    exact absurd running still
  · rw [at_other same,phases] at running
    exact claimed.trans (one.runs other running)

theorem OneClaim.preserved (one : OneClaim s) {op : Operation} (keeps : KeepsClaims hash s op) (change : Change hash s op next) :
    OneClaim next := by
  cases change with
  | found => exact one.idle Iff.rfl rfl rfl rfl nofun
  | free => exact one.idle Iff.rfl rfl rfl rfl nofun
  | outrun => exact one.idle Iff.rfl rfl rfl rfl nofun
  | claims inserting unclaimed none_ =>
    rename_i request
    refine ⟨fun _ => none_,?_,fun some_ => absurd none_ (one.kept some_),one.once⟩
    intro other running
    by_cases same : other = request
    · rw [same]
      rfl
    · rw [at_other same] at running
      have held := one.runs other running
      rw [unclaimed] at held
      cases held
  | answered => exact one.idle Iff.rfl rfl rfl rfl nofun
  | committed running =>
    rename_i request sent
    have held := one.runs request running
    have none_ := one.held (by rw [held]; exact Option.some_ne_none _)
    have fresh : s.effects = [] := by
      by_contra some_
      exact one.kept some_ none_
    refine ⟨fun claimed => absurd rfl claimed,?_,fun _ => Option.some_ne_none _,?_⟩
    · intro other running'
      by_cases same : other = request
      · rw [same] at running'
        cases (at_own request (.ended sent)).symm.trans running'
      · have before : s.phase other = .running := (at_other same).symm.trans running'
        exact absurd (Option.some.inj ((one.runs other before).symm.trans held)) same
    · change (s.effects ++ [request]).length ≤ 1
      rw [fresh]
      exact Nat.le_refl 1
  | rolledBack running =>
    rename_i request sent
    have held := one.runs request running
    refine ⟨fun claimed => absurd rfl claimed,?_,one.kept,one.once⟩
    intro other running'
    by_cases same : other = request
    · rw [same] at running'
      cases (at_own request (.ended sent)).symm.trans running'
    · have before : s.phase other = .running := (at_other same).symm.trans running'
      exact absurd (Option.some.inj ((one.runs other before).symm.trans held)) same
  | looked => exact one.idle Iff.rfl rfl rfl rfl nofun
  | idle => exact one.idle Iff.rfl rfl rfl rfl nofun
  | stored looked there same reached =>
    rename_i request sent seen row response
    obtain ⟨settled,framed,_⟩ := noteSettled_parts {s with row := some {row with response := some response}} request response
    rw [framed]
    exact one.idle (by simp [there]) rfl rfl rfl nofun
  | removed looked there reached =>
    unfold KeepsClaims at keeps
    exact absurd rfl (keeps _ reached)
  | added looked none_ unclaimed =>
    rename_i request sent response
    obtain ⟨settled,framed,_⟩ := noteSettled_parts {s with
      row := some ⟨s.nextId,hash request,some response,request⟩,claimed := none,nextId := s.nextId+1} request response
    rw [framed]
    refine ⟨fun claimed => absurd rfl claimed,?_,fun _ => Option.some_ne_none _,one.once⟩
    intro other running
    by_cases same : other = request
    · rw [same,at_own] at running
      cases running
    · rw [at_other same] at running
      have held := one.runs other running
      rw [unclaimed] at held
      cases held

-- As long as no settlement deletes a claim, one key has one effect.
theorem one_effect_per_key (path : Runs.Reached (Runs.Guarded (Steps hash) (KeepsClaims hash)) .empty s) : s.effects.length ≤ 1 := by
  have begun : OneClaim .empty := ⟨fun claimed => absurd rfl claimed,nofun,fun some_ => absurd rfl some_,Nat.zero_le 1⟩
  have run : OneClaim s := by
    apply path.invariant OneClaim begun
    intro before op after one taken
    exact one.preserved taken.1 (step_changes taken.2)
  exact run.once

def sameHash : Nat → String := fun _ => "5f0c"

def failed : Sent := ⟨some 500,[],["Internal server error"],true⟩
def refused : Sent := ⟨some 409,[("content-type","application/json")],["taken"],true⟩
def succeeded : Sent := ⟨some 200,[("content-type","application/json")],["done"],true⟩

-- A first attempt fails and is rolled back; its retry commits before the first
-- one's settlement runs, which finds the retry's claim and lets go of it.
theorem two_effects_under_one_key : ∃ s, Runs.Reached (Steps sameHash) .empty s ∧ s.effects = [2,3] := by
  have taken : ∃ s, Runs.trace (step sameHash) (fun _ _ => True) .empty [.find 1,.insert 1,.rollback 1 failed,.find 2,.insert 2,
      .commit 2 succeeded,.look 1,.write 1,.find 3,.insert 3,.commit 3 succeeded] = some s ∧ s.effects = [2,3] := ⟨_,rfl,rfl⟩
  obtain ⟨s,taken,effects⟩ := taken
  exact ⟨s,(Runs.trace_reached .start taken).unguard,effects⟩

def retried : List Operation := [.find 1,.insert 1,.rollback 1 failed,.look 1,.write 1,.find 2,.insert 2,.commit 2 succeeded,.look 2,.write 2,.find 3]

-- Settled before the retry begins, it leaves the retry its claim.
theorem one_effect_after_failure : ∃ s, Runs.trace (step sameHash) (KeepsClaims sameHash) .empty retried = some s ∧ s.effects = [2] ∧
    s.effects.length ≤ 1 := by
  have taken : ∃ s, Runs.trace (step sameHash) (KeepsClaims sameHash) .empty retried = some s ∧ s.effects = [2] := ⟨_,rfl,rfl⟩
  obtain ⟨s,taken,effects⟩ := taken
  exact ⟨s,taken,effects,one_effect_per_key (Runs.trace_reached .start taken)⟩

end ChronosLedger.Idempotency
