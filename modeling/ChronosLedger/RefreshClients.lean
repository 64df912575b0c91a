import ChronosLedger.Library.Rotations
import ChronosLedger.PresentedTokens

namespace ChronosLedger.SignIns

open Rotations

-- What a client does on its own, what each move of it sends to be refreshed, and
-- which session it takes in.
structure Client (σ μ : Type) where
  act : σ → μ → Option σ
  brings : μ → List Nat
  shows : σ → μ → List Nat

-- One client of the server, with whatever else the server is asked. A refresh the
-- client presents travels before it arrives, and may be lost; what arrived is
-- `posted`, with the request it became. `own` are the requests of this client, and
-- `taken` those whose session it has received.
structure Clients (σ : Type) where
  server : SignInState
  store : σ
  flight : List Nat
  posted : List (Nat × Nat)
  own : List Nat
  taken : List Nat
  deriving DecidableEq, Repr

inductive ClientOperation (μ : Type) where
  | serve (op : Operation)
  | ask (request : Request)
  | arrive (token : Nat) (now : Int)
  | lose (token : Nat)
  | receive (request : Nat) (move : μ)
  | move (move : μ)
  deriving DecidableEq, Repr

variable {σ μ ι : Type}

-- A token is the client's when one of its own requests was answered with it.
def Clients.ours (s : Clients σ) (token : Nat) : Bool :=
  s.own.any (fun k => s.server.requests[k]? = some (.over (.session token)))

def Request.refreshes : Request → Option Nat
  | .refresh token _ => some token
  | _ => none

def Operation.presents : Operation → Option Nat
  | .begin request => request.refreshes
  | _ => none

-- Nobody else has the client's tokens.
def Secret (s : Clients σ) : ClientOperation μ → Prop
  | .serve op => ∀ token ∈ op.presents, s.ours token = false
  | _ => True

instance (s : Clients σ) (op : ClientOperation μ) : Decidable (Secret s op) := by
  unfold Secret
  split <;> infer_instance

-- An answer is received once, and only by the client that asked.
def Clients.receives (s : Clients σ) (k fresh : Nat) : Bool :=
  k ∈ s.own ∧ k ∉ s.taken ∧ s.server.requests[k]? = some (.over (.session fresh))

def Client.step (client : Client σ μ) (lifetime : Int) (s : Clients σ) : ClientOperation μ → Option (Clients σ)
  | .serve op => (SignIns.step lifetime s.server op).map (fun server => {s with server := server})
  | .ask request =>
    match request.refreshes with
    | some _ => none
    | none => (SignIns.step lifetime s.server (.begin request)).map (fun server => {s with server := server,own := s.server.requests.length :: s.own})
  | .arrive token now =>
    if token ∈ s.flight then
      (SignIns.step lifetime s.server (.begin (.refresh token now))).map (fun server => {s with
        server := server
        flight := s.flight.erase token
        posted := (token,s.server.requests.length) :: s.posted
        own := s.server.requests.length :: s.own})
    else none
  | .lose token => some {s with flight := s.flight.erase token}
  | .receive k move =>
    if ∀ fresh ∈ client.brings move, s.receives k fresh then
      (client.act s.store move).map (fun store => {s with store := store,flight := client.shows s.store move ++ s.flight,taken := k :: s.taken})
    else none
  | .move move =>
    if client.brings move = [] then
      (client.act s.store move).map (fun store => {s with store := store,flight := client.shows s.store move ++ s.flight})
    else none

-- A client whose moves are moves of a store and its lock.
structure Client.Rotates (client : Client σ μ) (view : σ → Store ι Nat) (holds : σ → Prop) : Prop where
  does : ∀ a move b, holds a → client.act a move = some b → (∀ fresh ∈ client.brings move, fresh ∉ (view a).issued) →
    holds b ∧ Does (view a) (client.brings move) (client.shows a move) (view b)

def Clients.start (accounts : List Account) (store : σ) : Clients σ := ⟨.start accounts,store,[],[],[],[]⟩

variable {lifetime : Int} {server after : SignInState} {own : List Nat} {posted : List (Nat × Nat)} {s next : Clients σ}
  {client : Client σ μ} {view : σ → Store ι Nat} {holds : σ → Prop}

def Ours (server : SignInState) (own : List Nat) (token : Nat) : Prop :=
  ∃ k ∈ own, server.requests[k]? = some (Phase.over (.session token))

theorem ours_iff {token : Nat} : s.ours token = true ↔ Ours s.server s.own token := by
  simp [Clients.ours,Ours]

-- Whoever reads or consumed a token of the client was posted by it, and a request
-- that found such a token used came after another that was posted with it.
structure Traced (server : SignInState) (own : List Nat) (posted : List (Nat × Nat)) : Prop where
  once : Once server
  minted : Minted server
  bounded : ∀ k ∈ own, k < server.requests.length
  posts : ∀ post ∈ posted, post.2 ∈ own
  reads : ∀ (k : Nat) (phase : Phase), server.requests[k]? = some phase → ∀ row ∈ phase.reads, Ours server own row.id → (row.id,k) ∈ posted
  used : ∀ row ∈ server.tokens, row.consumedAt ≠ none → Ours server own row.id → ∃ k, (row.id,k) ∈ posted
  reuses : ∀ post ∈ posted, ∀ phase, server.requests[post.2]? = some phase → phase.reuses = true → ∃ other ∈ posted, other.1 = post.1 ∧ other.2 ≠ post.2

theorem start_traced (accounts : List Account) : Traced (.start accounts) [] [] := by
  refine ⟨start_once accounts,start_minted accounts,nofun,nofun,?_,nofun,nofun⟩
  intro k phase found
  simp [SignInState.start] at found

-- What the client comes to own at this step nobody has read or consumed.
theorem Traced.advances (traced : Traced server own posted) {k : Nat} {before phase : Phase} (once : Once after)
    (advanced : Advanced server after k before phase) : Traced after own posted := by
  have owned : ∀ token, token < server.nextToken → Ours after own token → Ours server own token := by
    intro token below ⟨j,member,answered⟩
    rw [advanced.at_] at answered
    split at answered
    · cases Option.some.inj answered
      rcases advanced.mints with ⟨_,other⟩ | ⟨_,is⟩
      · exact absurd rfl (other token)
      · cases is
        omega
    · exact ⟨j,member,answered⟩
  refine ⟨once,traced.minted.advances advanced,?_,traced.posts,?_,?_,?_⟩
  · intro j member
    simpa [advanced.requests] using traced.bounded j member
  · intro j moved found row reads ours
    rw [advanced.at_] at found
    split at found
    · rename_i same
      cases same
      cases Option.some.inj found
      have read := advanced.reads row reads
      have below := (traced.once.read before (List.mem_of_getElem? advanced.found) row read).1
      exact traced.reads k before advanced.found row read (owned row.id below ours)
    · have below := (traced.once.read moved (List.mem_of_getElem? found) row reads).1
      exact traced.reads j moved found row reads (owned row.id below ours)
  · intro row member consumed ours
    rcases advanced.rows row member with ⟨open_,_⟩ | ⟨old,there,same,how⟩
    · exact absurd open_ consumed
    · have ours : Ours server own old.id := owned old.id (traced.once.fresh old there) (same ▸ ours)
      rcases how consumed with was | ⟨read,reading,is⟩
      · exact same ▸ traced.used old there was ours
      · have same : read.id = old.id := is.trans same.symm
        exact ⟨k,is ▸ traced.reads k before advanced.found read reading (same ▸ ours)⟩
  · intro post member moved found reuses
    rw [advanced.at_] at found
    split at found
    · rename_i same
      cases Option.some.inj found
      exact traced.reuses post member before (same ▸ advanced.found) (advanced.reuses reuses)
    · exact traced.reuses post member moved found reuses

theorem Traced.unmoved (traced : Traced server own posted) (once : Once after) (requests : after.requests = server.requests)
    (tokens : after.tokens = server.tokens) (nextToken : after.nextToken = server.nextToken) : Traced after own posted := by
  have ours : ∀ token, Ours after own token → Ours server own token := fun token => by simp [Ours,requests]
  refine ⟨once,⟨?_,?_,?_⟩,?_,traced.posts,?_,?_,?_⟩
  · simpa [requests,nextToken] using traced.minted.below
  · simpa [requests] using traced.minted.once
  · simpa [requests,tokens] using traced.minted.from_
  · simpa [requests] using traced.bounded
  · intro k phase found row reads owned
    exact traced.reads k phase (requests ▸ found) row reads (ours _ owned)
  · intro row member consumed owned
    exact traced.used row (tokens ▸ member) consumed (ours _ owned)
  · intro post member phase found reuses
    exact traced.reuses post member phase (requests ▸ found) reuses

-- A request begins. If it presents a token of the client, it is posted by the client.
theorem Traced.joins (traced : Traced server own posted) {request : Request} {owns : List Nat} {sends : List (Nat × Nat)}
    (once : Once {server with requests := server.requests ++ [begun server request]})
    (more : ∀ k ∈ owns, k ∈ own ∨ k = server.requests.length) (kept : ∀ k ∈ own, k ∈ owns) (sent : ∀ post ∈ posted, post ∈ sends)
    (sending : ∀ post ∈ sends, post ∈ posted ∨ request.refreshes = some post.1 ∧ Ours server own post.1 ∧ post.2 = server.requests.length ∧ post.2 ∈ owns)
    (presented : ∀ token ∈ request.refreshes, Ours server own token → (token,server.requests.length) ∈ sends) :
    Traced {server with requests := server.requests ++ [begun server request]} owns sends := by
  obtain ⟨plain,reusing,reading⟩ := begun_parts server request
  have ours : ∀ token, Ours {server with requests := server.requests ++ [begun server request]} owns token → Ours server own token := by
    intro token ⟨k,member,answered⟩
    rcases joined_cases answered with old | ⟨_,new⟩
    · have bound := (List.getElem?_eq_some_iff.mp old).1
      rcases more k member with mine | last
      · exact ⟨k,mine,old⟩
      · omega
    · exact absurd new.symm (plain token)
  refine ⟨once,traced.minted.joins plain,?_,?_,?_,?_,?_⟩
  · intro k member
    have len : (server.requests ++ [begun server request]).length = server.requests.length+1 := by simp
    rcases more k member with mine | last
    · have bound := traced.bounded k mine
      show k < (server.requests ++ [begun server request]).length
      omega
    · show k < (server.requests ++ [begun server request]).length
      omega
  · intro post member
    rcases sending post member with old | ⟨_,_,_,mine⟩
    · exact kept post.2 (traced.posts post old)
    · exact mine
  · intro k phase found row reads owned
    rcases joined_cases found with old | ⟨last,rfl⟩
    · exact sent _ (traced.reads k phase old row reads (ours _ owned))
    · obtain ⟨now,rfl,_⟩ := reading row reads
      exact last ▸ presented row.id rfl (ours _ owned)
  · intro row member consumed owned
    obtain ⟨k,post⟩ := traced.used row member consumed (ours _ owned)
    exact ⟨k,sent _ post⟩
  · intro post member phase found reuses
    rcases joined_cases found with old | ⟨last,rfl⟩
    · have bound := (List.getElem?_eq_some_iff.mp old).1
      rcases sending post member with before | ⟨_,_,at_,_⟩
      · obtain ⟨other,there,same,apart⟩ := traced.reuses post before phase old reuses
        exact ⟨other,sent _ there,same,apart⟩
      · omega
    · obtain ⟨token,now,rfl,row,there,rfl,consumed⟩ := reusing reuses
      rcases sending post member with before | ⟨is,owned,_,_⟩
      · have bound := traced.bounded _ (traced.posts post before)
        omega
      · have is : row.id = post.1 := Option.some.inj is
        obtain ⟨k,earlier⟩ := traced.used row there consumed (is ▸ owned)
        have bound : k < server.requests.length := traced.bounded k (traced.posts _ earlier)
        exact ⟨_,sent _ earlier,is,by show k ≠ post.2; omega⟩

-- What a request was answered it stays answered.
theorem answer_stays {op : Operation} (taken : step lifetime server op = some after) {k : Nat} {answer : Answer}
    (answered : server.requests[k]? = some (.over answer)) : after.requests[k]? = some (.over answer) := by
  rcases step_advances taken with ⟨_,_,rfl⟩ | ⟨_,_,_,advanced⟩ | ⟨requests,_,_⟩
  · exact joined_old answered
  · exact advanced.keeps answered
  · rw [requests,answered]

structure Watched (view : σ → Store ι Nat) (s : Clients σ) : Prop where
  traced : Traced s.server s.own s.posted
  sound : Rotations.Sound (view s.store)
  indexes : (s.posted.map Prod.snd).Nodup
  sent : ∀ token, (s.posted.map Prod.fst).count token + s.flight.count token ≤ (view s.store).presented.count token
  issued : ∀ token ∈ (view s.store).issued, ∃ k ∈ s.own, k ∈ s.taken ∧ s.server.requests[k]? = some (Phase.over (.session token))

theorem Watched.serves (watched : Watched view s) {op : Operation} (secret : ∀ token ∈ op.presents, s.ours token = false) (taken : step lifetime s.server op = some after) :
    Watched view {s with server := after} := by
  have once := watched.traced.once.preserved taken
  refine ⟨?_,watched.sound,watched.indexes,watched.sent,?_⟩
  · rcases step_advances taken with ⟨request,rfl,rfl⟩ | ⟨_,_,_,advanced⟩ | ⟨requests,tokens,nextToken⟩
    · refine watched.traced.joins once (fun _ mine => .inl mine) (fun _ mine => mine) (fun _ post => post) (fun _ post => .inl post) ?_
      intro token presents ours
      have apart := secret token presents
      rw [ours_iff.mpr ours] at apart
      cases apart
    · exact watched.traced.advances once advanced
    · exact watched.traced.unmoved once requests tokens nextToken
  · intro token member
    obtain ⟨k,mine,received,answered⟩ := watched.issued token member
    exact ⟨k,mine,received,answer_stays taken answered⟩

theorem Watched.asks (watched : Watched view s) {request : Request} (other : request.refreshes = none)
    (taken : step lifetime s.server (.begin request) = some after) : Watched view {s with server := after,own := s.server.requests.length :: s.own} := by
  have once := watched.traced.once.preserved taken
  cases taken
  refine ⟨?_,watched.sound,watched.indexes,watched.sent,?_⟩
  · refine watched.traced.joins once ?_ (fun _ mine => List.mem_cons_of_mem _ mine) (fun _ post => post) (fun _ post => .inl post) ?_
    · intro k member
      exact (List.mem_cons.mp member).symm
    · intro token presents
      rw [other] at presents
      cases presents
  · intro token member
    obtain ⟨k,mine,received,answered⟩ := watched.issued token member
    exact ⟨k,List.mem_cons_of_mem _ mine,received,joined_old answered⟩

theorem count_erase_member {token : Nat} {flight : List Nat} (member : token ∈ flight) (other : Nat) :
    (if token = other then 1 else 0) + (flight.erase token).count other = flight.count other := by
  have positive := List.count_pos_iff.mpr member
  rw [List.count_erase]
  by_cases same : token = other
  · cases same
    simp only [if_true,beq_self_eq_true]
    omega
  · simp [same]

theorem Watched.arrives (watched : Watched view s) {token : Nat} {now : Int} (flying : token ∈ s.flight)
    (taken : step lifetime s.server (.begin (.refresh token now)) = some after) :
    Watched view {s with
      server := after
      flight := s.flight.erase token
      posted := (token,s.server.requests.length) :: s.posted
      own := s.server.requests.length :: s.own} := by
  have once := watched.traced.once.preserved taken
  have presented : token ∈ (view s.store).presented := by
    have flies := List.count_pos_iff.mpr flying
    have sent := watched.sent token
    exact List.count_pos_iff.mp (by omega)
  obtain ⟨k,mine,_,answered⟩ := watched.issued token (watched.sound.known token presented)
  have ours : Ours s.server s.own token := ⟨k,mine,answered⟩
  cases taken
  refine ⟨?_,watched.sound,?_,?_,?_⟩
  · refine watched.traced.joins once ?_ (fun _ mine => List.mem_cons_of_mem _ mine) (fun _ post => List.mem_cons_of_mem _ post) ?_ ?_
    · intro k member
      exact (List.mem_cons.mp member).symm
    · intro post member
      rcases List.mem_cons.mp member with rfl | old
      · exact .inr ⟨rfl,ours,rfl,List.mem_cons_self⟩
      · exact .inl old
    · intro other presents _
      cases Option.some.inj presents
      exact List.mem_cons_self
  · have unused : s.server.requests.length ∉ s.posted.map Prod.snd := by
      intro member
      obtain ⟨post,there,same⟩ := List.mem_map.mp member
      have bound := watched.traced.bounded _ (watched.traced.posts post there)
      omega
    exact List.nodup_cons.mpr ⟨unused,watched.indexes⟩
  · intro other
    have counted := count_erase_member flying other
    have sent := watched.sent other
    simp only [List.map_cons,List.count_cons,beq_iff_eq]
    omega
  · intro other member
    obtain ⟨k,mine,received,answered⟩ := watched.issued other member
    exact ⟨k,List.mem_cons_of_mem _ mine,received,joined_old answered⟩

theorem Watched.moves (watched : Watched view s) {store : σ} {brings shows : List Nat} (does : Does (view s.store) brings shows (view store))
    {received : List Nat} (more : ∀ k ∈ s.taken, k ∈ received)
    (brought : ∀ token ∈ brings, ∃ k ∈ s.own, k ∈ received ∧ s.server.requests[k]? = some (Phase.over (.session token))) :
    Watched view {s with store := store,flight := shows ++ s.flight,taken := received} := by
  obtain ⟨issued,presented⟩ := does.parts
  refine ⟨watched.traced,does.sound watched.sound,watched.indexes,?_,?_⟩
  · intro token
    have sent := watched.sent token
    show (s.posted.map Prod.fst).count token + (shows ++ s.flight).count token ≤ (view store).presented.count token
    rw [presented,List.count_append,List.count_append]
    omega
  · intro token member
    change token ∈ (view store).issued at member
    rw [issued] at member
    rcases List.mem_append.mp member with old | new
    · obtain ⟨k,mine,kept,answered⟩ := watched.issued token old
      exact ⟨k,mine,more k kept,answered⟩
    · exact brought token new

theorem Watched.receives (watched : Watched view s) {k fresh : Nat} (receives : s.receives k fresh = true) :
    k ∈ s.own ∧ s.server.requests[k]? = some (Phase.over (.session fresh)) ∧ fresh ∉ (view s.store).issued := by
  obtain ⟨mine,untaken,answered⟩ := of_decide_eq_true receives
  refine ⟨mine,answered,fun issued => ?_⟩
  obtain ⟨j,_,taken,also⟩ := watched.issued fresh issued
  exact untaken (watched.traced.minted.once j k fresh also answered ▸ taken)

theorem Watched.preserved (rotates : client.Rotates view holds) (watched : Watched view s) (held : holds s.store) {op : ClientOperation μ}
    (secret : Secret s op) (taken : client.step lifetime s op = some next) : Watched view next ∧ holds next.store := by
  cases op with
  | serve op =>
    obtain ⟨server,stepped,rfl⟩ := Option.map_eq_some_iff.mp taken
    exact ⟨watched.serves secret stepped,held⟩
  | ask request =>
    simp only [Client.step] at taken
    split at taken
    · cases taken
    · rename_i other
      obtain ⟨server,stepped,rfl⟩ := Option.map_eq_some_iff.mp taken
      exact ⟨watched.asks other stepped,held⟩
  | arrive token now =>
    simp only [Client.step,Option.ite_none_right_eq_some] at taken
    obtain ⟨flying,taken⟩ := taken
    obtain ⟨server,stepped,rfl⟩ := Option.map_eq_some_iff.mp taken
    exact ⟨watched.arrives flying stepped,held⟩
  | lose token =>
    cases taken
    refine ⟨⟨watched.traced,watched.sound,watched.indexes,?_,watched.issued⟩,held⟩
    intro other
    have fewer := (List.erase_sublist (l := s.flight) (a := token)).count_le other
    have sent := watched.sent other
    show (s.posted.map Prod.fst).count other + (s.flight.erase token).count other ≤ (view s.store).presented.count other
    omega
  | receive k move =>
    simp only [Client.step,Option.ite_none_right_eq_some] at taken
    obtain ⟨receives,taken⟩ := taken
    obtain ⟨store,acted,rfl⟩ := Option.map_eq_some_iff.mp taken
    have answers := fun fresh member => watched.receives (receives fresh member)
    obtain ⟨kept,does⟩ := rotates.does s.store move store held acted (fun fresh member => (answers fresh member).2.2)
    refine ⟨watched.moves does (fun _ => List.mem_cons_of_mem k) ?_,kept⟩
    intro token member
    obtain ⟨mine,answered,_⟩ := answers token member
    exact ⟨k,mine,List.mem_cons_self,answered⟩
  | move move =>
    simp only [Client.step,Option.ite_none_right_eq_some] at taken
    obtain ⟨nothing,taken⟩ := taken
    obtain ⟨store,acted,rfl⟩ := Option.map_eq_some_iff.mp taken
    obtain ⟨kept,does⟩ := rotates.does s.store move store held acted (by simp [nothing])
    exact ⟨watched.moves does (fun _ kept => kept) (by simp [nothing]),kept⟩

theorem start_watched (accounts : List Account) {store : σ} (empty : view store = .empty) : Watched view (.start accounts store) :=
  ⟨start_traced accounts,empty ▸ Rotations.empty_sound,.nil,fun _ => Nat.zero_le _,by simp [Clients.start,empty,Store.empty]⟩

theorem two_counted {α : Type} [DecidableEq α] {posts : List (α × Nat)} {a b : α × Nat} (one : a ∈ posts) (two : b ∈ posts)
    (same : b.1 = a.1) (apart : b.2 ≠ a.2) : 2 ≤ (posts.map Prod.fst).count a.1 := by
  have distinct : [a,b].Nodup := by simpa using fun equal : a = b => apart (equal ▸ rfl)
  have within : [a,b] ⊆ posts.filter (fun post => post.1 == a.1) := by
    intro post member
    rcases List.mem_pair.mp member with rfl | rfl
    · simp [one]
    · simp [two,same]
  have counted := (List.subperm_of_subset distinct within).length_le
  rw [List.count,List.countP_map,List.countP_eq_length_filter]
  exact counted

-- The server finds a token of the client used only where an earlier presentation
-- of that token failed.
theorem Watched.reuse_after_failure (watched : Watched view s) {token k : Nat} {phase : Phase} (post : (token,k) ∈ s.posted)
    (found : s.server.requests[k]? = some phase) (reuses : phase.reuses = true) : token ∈ (view s.store).failed := by
  obtain ⟨other,there,same,apart⟩ := watched.traced.reuses _ post phase found reuses
  have twice := two_counted post there same apart
  have sent := watched.sent token
  by_contra unfailed
  have once := watched.sound.once token unfailed
  simp only at twice
  omega

theorem Client.Rotates.reuse_after_failure (rotates : client.Rotates view holds) {accounts : List Account} {store : σ} (empty : view store = .empty)
    (held : holds store) (path : Runs.Reached (Runs.Guarded (Runs.Acts (client.step lifetime)) Secret) (.start accounts store) s) {token k : Nat}
    {phase : Phase} (post : (token,k) ∈ s.posted) (found : s.server.requests[k]? = some phase) (reuses : phase.reuses = true) :
    token ∈ (view s.store).failed := by
  have both : Watched view s ∧ holds s.store := by
    apply path.invariant (fun s => Watched view s ∧ holds s.store) ⟨start_watched accounts empty,held⟩
    intro before op after both taken
    exact both.1.preserved rotates both.2 taken.1 taken.2
  exact both.1.reuse_after_failure post found reuses

end ChronosLedger.SignIns
