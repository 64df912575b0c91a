import ChronosLedger.IdempotencyRuns

namespace ChronosLedger.Idempotency

variable {hash : Nat → String} {s next : KeyState}

-- The row is the one the request claimed.
def HasRow (hash : Nat → String) (s : KeyState) (request : Nat) (row : IdempotencyRecord) : Prop :=
  s.row = some row ∧ row.claimedBy = request ∧ row.requestHash = hash request

def Settling (phase : Phase) : Prop := (∃ sent, phase = .ended sent) ∨ ∃ sent seen, phase = .looked sent seen

-- What took effect keeps its row until it has settled, what settled a 2xx keeps
-- it for good, and a request that arrives after that is told so.
structure Lasting (hash : Nat → String) (s : KeyState) : Prop where
  held : s.claimed ≠ none → s.row = none
  runs : ∀ request, s.phase request = .running → s.claimed = some request
  past : ∀ request ∈ s.effects, Settling (s.phase request) ∨ s.phase request = .over
  owned : ∀ request ∈ s.effects, Settling (s.phase request) → ∃ row, HasRow hash s request row
  seen : ∀ request ∈ s.effects, ∀ sent seen, s.phase request = .looked sent seen → seen.map IdempotencyRecord.id = s.row.map IdempotencyRecord.id
  settled : ∀ entry ∈ s.settled, entry.1 ∈ s.effects ∧ s.phase entry.1 = .over ∧
    ∃ row, HasRow hash s entry.1 row ∧ row.response = some entry.2
  told : ∀ request, ∀ entry ∈ s.began request, ∃ reply, s.phase request = .answered reply ∧
    (hash request = hash entry.1 → reply = .replay entry.2)

theorem Lasting.fresh (lasting : Lasting hash s) {request : Nat} (silent : ∀ reply, s.phase request ≠ .answered reply) :
    s.began request = [] := by
  apply List.eq_nil_iff_forall_not_mem.mpr
  intro entry member
  obtain ⟨reply,answered,_⟩ := lasting.told request entry member
  exact silent reply answered

-- With no row nothing has settled and nothing is to settle.
theorem Lasting.vacant (lasting : Lasting hash s) (none_ : s.row = none) : s.settled = [] ∧ ∀ request ∈ s.effects, s.phase request = .over := by
  constructor
  · apply List.eq_nil_iff_forall_not_mem.mpr
    intro entry member
    obtain ⟨_,_,row,has,_⟩ := lasting.settled entry member
    cases none_.symm.trans has.1
  · intro request member
    rcases lasting.past request member with settling | closed
    · obtain ⟨row,has⟩ := lasting.owned request member settling
      cases none_.symm.trans has.1
    · exact closed

theorem Lasting.runsOn (lasting : Lasting hash s) {request : Nat} {phase : Phase} (still : phase ≠ .running) :
    ∀ other, (s.at_ request phase).phase other = .running → s.claimed = some other := by
  intro other running
  by_cases same : other = request
  · rw [same,at_own] at running
    exact absurd running still
  · exact lasting.runs other ((at_other same).symm.trans running)

-- Whoever has the claim is the one that runs.
theorem Lasting.noneRuns (lasting : Lasting hash s) {request : Nat} {phase : Phase} (held : s.claimed = some request) (still : phase ≠ .running) :
    ∀ other, (s.at_ request phase).phase other ≠ .running := by
  intro other running
  have own := lasting.runsOn still other running
  cases Option.some.inj (own.symm.trans held)
  exact still ((at_own request phase).symm.trans running)

theorem Lasting.toldOn (lasting : Lasting hash s) {request : Nat} {phase : Phase} (silent : ∀ reply, s.phase request ≠ .answered reply) :
    ∀ other, ∀ entry ∈ s.began other, ∃ reply, (s.at_ request phase).phase other = .answered reply ∧
      (hash other = hash entry.1 → reply = .replay entry.2) := by
  intro other entry member
  by_cases same : other = request
  · rw [same,lasting.fresh silent] at member
    cases member
  · rw [at_other same]
    exact lasting.told other entry member

-- A request that moves on by itself, of those that have no effect to settle.
theorem Lasting.moved (lasting : Lasting hash s) {request : Nat} {phase : Phase} (still : phase ≠ .running)
    (off : ¬ Settling (s.phase request) ∧ s.phase request ≠ .over ∧ ∀ reply, s.phase request ≠ .answered reply) :
    Lasting hash (s.at_ request phase) := by
  have outside : request ∉ s.effects := fun member => (lasting.past request member).elim off.1 off.2.1
  have apart : ∀ {other}, other ∈ s.effects → (s.at_ request phase).phase other = s.phase other :=
    fun member => at_other (fun same => outside (same ▸ member))
  refine ⟨lasting.held,lasting.runsOn still,?_,?_,?_,?_,lasting.toldOn off.2.2⟩
  · intro other member
    rw [apart member]
    exact lasting.past other member
  · intro other member settling
    rw [apart member] at settling
    exact lasting.owned other member settling
  · intro other member sent seen looked
    rw [apart member] at looked
    exact lasting.seen other member sent seen looked
  · intro entry member
    obtain ⟨effect,closed,kept⟩ := lasting.settled entry member
    exact ⟨effect,(apart effect).trans closed,kept⟩

-- A request arrives, and is answered from the row when there is one.
theorem Lasting.arrived (lasting : Lasting hash s) {request : Nat} (arriving : s.phase request = .arriving) {phase : Phase}
    (still : phase ≠ .running) (told : ∀ entry ∈ s.settled, ∃ reply, phase = .answered reply ∧
      (hash request = hash entry.1 → reply = .replay entry.2)) :
    Lasting hash ({s with began := Function.update s.began request s.settled}.at_ request phase) := by
  have moved : Lasting hash (s.at_ request phase) := by
    apply lasting.moved still
    rw [arriving]
    exact ⟨fun settling => settling.elim nofun nofun,nofun,nofun⟩
  refine ⟨moved.held,moved.runs,moved.past,moved.owned,moved.seen,moved.settled,?_⟩
  intro other entry member
  by_cases same : other = request
  · rw [same] at member ⊢
    have now : entry ∈ s.settled := by
      rw [← show Function.update s.began request s.settled request = s.settled from Function.update_self ..]
      exact member
    rw [at_own]
    exact told entry now
  · have before : entry ∈ s.began other := by
      rw [← show Function.update s.began request s.settled other = s.began other from Function.update_of_ne same ..]
      exact member
    exact moved.told other entry before

theorem Lasting.committed (lasting : Lasting hash s) {request : Nat} {sent : Sent} (running : s.phase request = .running) :
    Lasting hash (commit hash s request sent) := by
  have held := lasting.runs request running
  have none_ := lasting.held (by rw [held]; exact Option.some_ne_none _)
  obtain ⟨unsettled,done⟩ := lasting.vacant none_
  have apart : ∀ {other}, other ∈ s.effects → other ≠ request := by
    intro other member same
    rw [same] at member
    cases running.symm.trans (done request member)
  have silent : ∀ reply, s.phase request ≠ .answered reply := by
    rw [running]
    exact nofun
  have idle : ∀ other, (s.at_ request (.ended sent)).phase other ≠ .running := lasting.noneRuns held (by simp)
  refine ⟨fun claimed => absurd rfl claimed,fun other running' => absurd running' (idle other),?_,?_,?_,?_,lasting.toldOn silent⟩
  · intro other member
    rcases List.mem_append.mp member with old | new
    · exact .inr ((at_other (apart old)).trans (done other old))
    · rw [List.mem_singleton.mp new]
      exact .inl (.inl ⟨sent,at_own ..⟩)
  · intro other member settling
    rcases List.mem_append.mp member with old | new
    · rw [show (commit hash s request sent).phase other = .over from (at_other (apart old)).trans (done other old)] at settling
      exact settling.elim nofun nofun
    · rw [List.mem_singleton.mp new]
      exact ⟨_,rfl,rfl,rfl⟩
  · intro other member sent' seen looked
    rcases List.mem_append.mp member with old | new
    · cases ((at_other (apart old)).trans (done other old)).symm.trans looked
    · rw [List.mem_singleton.mp new] at looked
      cases (at_own request (.ended sent)).symm.trans looked
  · intro entry member
    rw [show (commit hash s request sent).settled = s.settled from rfl,unsettled] at member
    cases member

-- A request that finds neither row nor claim takes the claim.
theorem Lasting.claims (lasting : Lasting hash s) {request : Nat} (inserting : s.phase request = .inserting) (unclaimed : s.claimed = none)
    (none_ : s.row = none) : Lasting hash ({s with claimed := some request}.at_ request .running) := by
  obtain ⟨unsettled,done⟩ := lasting.vacant none_
  have outside : ∀ {other}, other ∈ s.effects → other ≠ request := by
    intro other member same
    rw [same] at member
    cases inserting.symm.trans (done request member)
  have closed : ∀ other ∈ s.effects, ({s with claimed := some request}.at_ request .running).phase other = .over :=
    fun other member => (at_other (outside member)).trans (done other member)
  have silent : ∀ reply, s.phase request ≠ .answered reply := by
    rw [inserting]
    exact nofun
  refine ⟨fun _ => none_,?_,fun other member => .inr (closed other member),?_,?_,?_,lasting.toldOn silent⟩
  · intro other running
    by_cases same : other = request
    · rw [same]
      rfl
    · have held := lasting.runs other ((at_other same).symm.trans running)
      cases unclaimed.symm.trans held
  · intro other member settling
    rw [closed other member] at settling
    exact settling.elim nofun nofun
  · intro other member sent seen looked
    cases (closed other member).symm.trans looked
  · intro entry member
    have before : entry ∈ s.settled := member
    rw [unsettled] at before
    cases before

theorem Lasting.rolledBack (lasting : Lasting hash s) {request : Nat} {sent : Sent} (running : s.phase request = .running) :
    Lasting hash ({s with claimed := none}.at_ request (.ended sent)) := by
  have moved : Lasting hash (s.at_ request (.ended sent)) := by
    apply lasting.moved (by simp)
    rw [running]
    exact ⟨fun settling => settling.elim nofun nofun,nofun,nofun⟩
  have idle : ∀ other, (s.at_ request (.ended sent)).phase other ≠ .running := lasting.noneRuns (lasting.runs request running) (by simp)
  exact ⟨fun claimed => absurd rfl claimed,fun other running' => absurd running' (idle other),moved.past,moved.owned,moved.seen,
    moved.settled,moved.told⟩

-- What a request reads of the row before it settles is the row.
theorem Lasting.looks (lasting : Lasting hash s) {request : Nat} {sent : Sent} (ended : s.phase request = .ended sent) :
    Lasting hash (s.at_ request (.looked sent s.row)) := by
  have settling : Settling (s.phase request) := .inl ⟨sent,ended⟩
  have silent : ∀ reply, s.phase request ≠ .answered reply := by
    rw [ended]
    exact nofun
  refine ⟨lasting.held,lasting.runsOn nofun,?_,?_,?_,?_,lasting.toldOn silent⟩
  · intro other member
    by_cases same : other = request
    · rw [same,at_own]
      exact .inl (.inr ⟨_,_,rfl⟩)
    · rw [at_other same]
      exact lasting.past other member
  · intro other member settling'
    by_cases same : other = request
    · exact lasting.owned other member (same ▸ settling)
    · rw [at_other same] at settling'
      exact lasting.owned other member settling'
  · intro other member sent' seen looked
    by_cases same : other = request
    · rw [same,at_own] at looked
      cases looked
      rfl
    · exact lasting.seen other member sent' seen ((at_other same).symm.trans looked)
  · intro entry member
    obtain ⟨effect,closed,kept⟩ := lasting.settled entry member
    refine ⟨effect,?_,kept⟩
    rw [at_other (fun same => by cases (same ▸ closed).symm.trans ended)]
    exact closed

-- The settlement of a request that leaves the row of whatever took effect alone.
theorem Lasting.settledOff (lasting : Lasting hash s) {request : Nat} {sent : Sent} {seen : Option IdempotencyRecord}
    (looked : s.phase request = .looked sent seen) : Lasting hash (s.at_ request .over) := by
  have silent : ∀ reply, s.phase request ≠ .answered reply := by
    rw [looked]
    exact nofun
  refine ⟨lasting.held,lasting.runsOn nofun,?_,?_,?_,?_,lasting.toldOn silent⟩
  · intro other member
    by_cases same : other = request
    · exact .inr (same ▸ at_own ..)
    · rw [at_other same]
      exact lasting.past other member
  · intro other member settling
    by_cases same : other = request
    · rw [same,at_own] at settling
      exact settling.elim nofun nofun
    · rw [at_other same] at settling
      exact lasting.owned other member settling
  · intro other member sent' seen' looked'
    by_cases same : other = request
    · rw [same,at_own] at looked'
      cases looked'
    · exact lasting.seen other member sent' seen' ((at_other same).symm.trans looked')
  · intro entry member
    obtain ⟨effect,closed,kept⟩ := lasting.settled entry member
    refine ⟨effect,?_,kept⟩
    by_cases same : entry.1 = request
    · rw [same]
      exact at_own ..
    · exact (at_other same).trans closed

-- A settlement that keeps off the rows of others has no effect before it.
theorem Lasting.alone (lasting : Lasting hash s) {request : Nat} {sent : Sent} {seen : Option IdempotencyRecord} {row : IdempotencyRecord}
    (looked : s.phase request = .looked sent seen) (there : s.row = some row) (off : row.claimedBy ∈ s.effects → row.claimedBy = request) :
    s.settled = [] ∧ ∀ other ∈ s.effects, (s.at_ request .over).phase other = .over := by
  have owner : ∀ other ∈ s.effects, ∀ row', HasRow hash s other row' → other = request := by
    intro other member row' has
    cases Option.some.inj (there.symm.trans has.1)
    exact has.2.1 ▸ off (has.2.1.symm ▸ member)
  constructor
  · apply List.eq_nil_iff_forall_not_mem.mpr
    intro entry member
    obtain ⟨effect,closed,row',has,_⟩ := lasting.settled entry member
    rw [owner entry.1 effect row' has,looked] at closed
    cases closed
  · intro other member
    by_cases same : other = request
    · rw [same]
      exact at_own ..
    · rw [at_other same]
      rcases lasting.past other member with settling | closed
      · obtain ⟨row',has⟩ := lasting.owned other member settling
        exact absurd (owner other member row' has) same
      · exact closed

-- With nothing left to settle the row is free to change.
theorem Lasting.rewritten {t : KeyState} (lasting : Lasting hash s) (claimed : t.claimed ≠ none → t.row = none)
    (claims : t.claimed = s.claimed) (phases : t.phase = s.phase) (effects : t.effects = s.effects) (begans : t.began = s.began)
    (done : ∀ other ∈ s.effects, s.phase other = .over) (settled : ∀ entry ∈ t.settled, entry.1 ∈ s.effects ∧
      ∃ row, HasRow hash t entry.1 row ∧ row.response = some entry.2) : Lasting hash t := by
  have closed : ∀ other ∈ t.effects, t.phase other = .over := by
    rw [effects,phases]
    exact done
  refine ⟨claimed,?_,fun other member => .inr (closed other member),?_,?_,?_,?_⟩
  · intro other running
    rw [phases] at running
    exact claims.trans (lasting.runs other running)
  · intro other member settling
    rw [closed other member] at settling
    exact settling.elim nofun nofun
  · intro other member sent seen looked
    cases (closed other member).symm.trans looked
  · intro entry member
    obtain ⟨effect,kept⟩ := settled entry member
    exact ⟨effects ▸ effect,closed _ (effects ▸ effect),kept⟩
  · rw [begans,phases]
    exact lasting.told

theorem Lasting.preserved (lasting : Lasting hash s) {op : Operation} (keeps : KeepsOff hash s op) (change : Change hash s op next) :
    Lasting hash next := by
  cases change with
  | found arriving there =>
    rename_i request row
    refine lasting.arrived arriving (by simp) ?_
    intro entry member
    obtain ⟨_,_,row',has,response⟩ := lasting.settled entry member
    cases Option.some.inj (there.symm.trans has.1)
    refine ⟨_,rfl,fun same => ?_⟩
    unfold answer
    rw [if_neg (by rw [has.2.2,same]; exact not_not.mpr rfl),response]
  | free arriving none_ =>
    refine lasting.arrived arriving (by simp) ?_
    rw [(lasting.vacant none_).1]
    exact nofun
  | outrun inserting =>
    apply lasting.moved (by simp)
    rw [inserting]
    exact ⟨fun settling => settling.elim nofun nofun,nofun,nofun⟩
  | claims inserting unclaimed none_ => exact lasting.claims inserting unclaimed none_
  | answered outrun =>
    apply lasting.moved (by simp)
    rw [outrun]
    exact ⟨fun settling => settling.elim nofun nofun,nofun,nofun⟩
  | committed running => exact lasting.committed running
  | rolledBack running => exact lasting.rolledBack running
  | looked ended => exact lasting.looks ended
  | idle looked => exact lasting.settledOff looked
  | stored looked there same reached =>
    rename_i request sent seen row response
    unfold KeepsOff at keeps
    obtain ⟨unsettled,done⟩ := lasting.alone looked there (keeps _ reached)
    have unclaimed : s.claimed = none := by
      by_contra claimed
      cases (lasting.held claimed).symm.trans there
    obtain ⟨settled,framed,noted⟩ := noteSettled_parts {s with row := some {row with response := some response}} request response
    rw [framed]
    refine (lasting.settledOff looked).rewritten (fun claimed => absurd unclaimed claimed) rfl rfl rfl rfl done ?_
    intro entry member
    obtain ⟨rfl,effect⟩ := (noted entry member).resolve_left (by rw [unsettled]; exact List.not_mem_nil)
    obtain ⟨row',has⟩ := lasting.owned request effect (by rw [looked]; exact .inr ⟨_,_,rfl⟩)
    cases Option.some.inj (there.symm.trans has.1)
    exact ⟨effect,_,⟨rfl,has.2.1,has.2.2⟩,rfl⟩
  | removed looked there reached =>
    rename_i request sent seen row
    unfold KeepsOff at keeps
    obtain ⟨unsettled,done⟩ := lasting.alone looked there (keeps _ reached)
    refine (lasting.settledOff looked).rewritten (fun _ => rfl) rfl rfl rfl rfl done ?_
    intro entry member
    have before : entry ∈ s.settled := member
    rw [unsettled] at before
    cases before
  | added looked none_ unclaimed =>
    rename_i request sent response
    obtain ⟨unsettled,done⟩ := lasting.vacant none_
    have outside : request ∉ s.effects := by
      intro member
      cases looked.symm.trans (done request member)
    obtain ⟨settled,framed,noted⟩ := noteSettled_parts {s with
      row := some ⟨s.nextId,hash request,some response,request⟩,claimed := none,nextId := s.nextId+1} request response
    rw [framed]
    refine (lasting.settledOff looked).rewritten (fun claimed => absurd rfl claimed) unclaimed.symm rfl rfl rfl ?_ ?_
    · intro other member
      have apart : other ≠ request := fun same => outside (same ▸ member)
      exact (at_other apart).trans (done other member)
    · intro entry member
      rcases noted entry member with old | ⟨_,effect⟩
      · have before : entry ∈ s.settled := old
        rw [unsettled] at before
        cases before
      · exact absurd effect outside

-- As long as no settlement writes on the row of another request that took
-- effect, whoever arrives after a 2xx is settled is told just that.
theorem replays_report_effect (path : Runs.Reached (Runs.Guarded (Steps hash) (KeepsOff hash)) .empty s) {request : Nat}
    {entry : Nat × Response} (settled : entry ∈ s.began request) (same : hash request = hash entry.1) :
    s.phase request = .answered (.replay entry.2) := by
  have begun : Lasting hash .empty := by
    refine ⟨fun claimed => absurd rfl claimed,?_,?_,?_,?_,?_,?_⟩ <;> simp [KeyState.empty]
  have run : Lasting hash s := by
    apply path.invariant (Lasting hash) begun
    intro before op after lasting taken
    exact lasting.preserved taken.1 (step_changes taken.2)
  obtain ⟨reply,answered,told⟩ := run.told request entry settled
  rw [answered,told same]

-- A refused attempt that settles after the one that took effect leaves its
-- refusal for the requests to come.
def overwritten : List Operation := [.find 1,.insert 1,.rollback 1 refused,.find 2,.insert 2,.commit 2 succeeded,.look 2,.write 2,.look 1,.write 1,
  .find 3]

def doneResponse : Response := ⟨200,[("content-type","application/json")],"done"⟩
def takenResponse : Response := ⟨409,[("content-type","application/json")],"taken"⟩

theorem replay_reports_refusal : ∃ s, Runs.Reached (Steps sameHash) .empty s ∧ s.effects = [2] ∧ (2,doneResponse) ∈ s.began 3 ∧
    s.phase 3 = .answered (.replay takenResponse) := by
  have taken : ∃ s, Runs.trace (step sameHash) (fun _ _ => True) .empty overwritten = some s ∧ s.effects = [2] ∧
      (2,doneResponse) ∈ s.began 3 ∧ s.phase 3 = .answered (.replay takenResponse) := ⟨_,rfl,by decide,by decide,by decide⟩
  obtain ⟨s,taken,told⟩ := taken
  exact ⟨s,(Runs.trace_reached .start taken).unguard,told⟩

-- Settled by nobody else, the row tells a later request what its own request sent.
def settledFirst : List Operation := [.find 1,.insert 1,.commit 1 succeeded,.find 2,.look 1,.write 1,.find 3]

theorem replay_reports_success : ∃ s, Runs.trace (step sameHash) (KeepsOff sameHash) .empty settledFirst = some s ∧
    s.phase 2 = .answered .inProgress ∧ s.phase 3 = .answered (.replay doneResponse) := by
  have taken : ∃ s, Runs.trace (step sameHash) (KeepsOff sameHash) .empty settledFirst = some s ∧ s.phase 2 = .answered .inProgress ∧
      (1,doneResponse) ∈ s.began 3 := ⟨_,rfl,by decide,by decide⟩
  obtain ⟨s,taken,waiting,settled⟩ := taken
  exact ⟨s,taken,waiting,replays_report_effect (Runs.trace_reached .start taken) settled rfl⟩

end ChronosLedger.Idempotency
