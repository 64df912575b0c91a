import Mathlib.Data.List.Nodup
import ChronosLedger.RefreshClients

namespace ChronosLedger.SignIns

open Rotations

-- Where a tab is in a refresh. From `entered` to `caught` it has the lock; what
-- the callback came to is `returned`. A tab without a session clears the storage.
inductive Tab where
  | idle
  | waiting (failedWith : Option Nat)
  | entered (failedWith : Option Nat)
  | missing (failedWith : Option Nat)
  | posting (failedWith : Option Nat) (stored : Nat)
  | answered (stored access fresh : Nat)
  | halfway (stored access fresh : Nat)
  | caught (failedWith : Option Nat)
  | returned (token : Option Nat)
  | clearing
  | closed
  deriving DecidableEq, Repr

-- The two items of the storage, the lock, the tabs, and the sessions that came
-- with a sign-in or a changed password and are not written yet, each with the access
-- token that is written first. The last three are what happened.
structure Browser where
  token : Option Nat
  refresh : Option Nat
  lock : Option Nat
  tabs : List Tab
  sessions : List (Option Nat × Nat)
  issued : List Nat
  presented : List Nat
  failed : List Nat
  deriving DecidableEq, Repr

inductive BrowserMove where
  | openTab
  | unauthorized (tab : Nat) (sent : Option Nat)
  | lockGranted (tab : Nat)
  | checkRenewed (tab : Nat)
  | readRefresh (tab : Nat)
  | response (tab access fresh : Nat)
  | rejected (tab : Nat)
  | setToken (tab : Nat)
  | setRefresh (tab : Nat)
  | resume (tab : Nat)
  | clearRefresh (tab : Nat)
  | signedIn (access : Option Nat) (fresh : Nat)
  | saveToken (access fresh : Nat)
  | saveRefresh (fresh : Nat)
  | removeToken
  | removeRefresh
  | closeTab (tab : Nat)
  deriving DecidableEq, Repr

def Tab.stage : Tab → Option (Stage Nat)
  | .entered _ => some .holding
  | .missing _ => some .holding
  | .caught _ => some .holding
  | .posting _ stored => some (.presenting stored)
  | .answered stored _ fresh => some (.returning stored fresh)
  | .halfway stored _ fresh => some (.returning stored fresh)
  | _ => none

-- The refresh token whose answer a tab is still waiting for or has not written.
def Tab.spends : Tab → List Nat
  | .posting _ stored => [stored]
  | .answered stored _ _ => [stored]
  | .halfway stored _ _ => [stored]
  | _ => []

-- The lock is let go when the callback is over, or the tab is gone.
def Browser.goes (b : Browser) (tab : Nat) (after : Tab) : Browser :=
  {b with tabs := b.tabs.set tab after,lock := lockAfter Tab.stage b.lock tab after}

def Browser.renewedElsewhere (b : Browser) (failedWith : Option Nat) : Option Nat :=
  b.token.filter (fun current => some current ≠ failedWith)

def Browser.act (b : Browser) : BrowserMove → Option Browser
  | .openTab => some {b with tabs := b.tabs ++ [.idle]}
  | .unauthorized tab sent =>
    match b.tabs[tab]? with
    | some .idle => some (b.goes tab (.waiting sent))
    | _ => none
  | .lockGranted tab =>
    match b.tabs[tab]? with
    | some (.waiting failedWith) => if b.lock = none then some (b.goes tab (.entered failedWith)) else none
    | _ => none
  | .checkRenewed tab =>
    match b.tabs[tab]? with
    | some (.entered failedWith) =>
      match b.renewedElsewhere failedWith with
      | some renewed => some (b.goes tab (.returned (some renewed)))
      | none => some (b.goes tab (.missing failedWith))
    | some (.caught failedWith) => some (b.goes tab (.returned (b.renewedElsewhere failedWith)))
    | _ => none
  | .readRefresh tab =>
    match b.tabs[tab]? with
    | some (.missing failedWith) =>
      match b.refresh with
      | none => some (b.goes tab (.returned none))
      | some stored => some {b.goes tab (.posting failedWith stored) with presented := b.presented ++ [stored]}
    | _ => none
  | .response tab access fresh =>
    match b.tabs[tab]? with
    | some (.posting _ stored) => some {b.goes tab (.answered stored access fresh) with issued := b.issued ++ [fresh]}
    | _ => none
  | .rejected tab =>
    match b.tabs[tab]? with
    | some (.posting failedWith stored) => some {b.goes tab (.caught failedWith) with failed := b.failed ++ [stored]}
    | _ => none
  | .setToken tab =>
    match b.tabs[tab]? with
    | some (.answered stored access fresh) => some {b.goes tab (.halfway stored access fresh) with token := some access}
    | _ => none
  | .setRefresh tab =>
    match b.tabs[tab]? with
    | some (.halfway _ access fresh) => some {b.goes tab (.returned (some access)) with refresh := some fresh}
    | _ => none
  -- The request that was refused goes out again, or the storage is cleared.
  | .resume tab =>
    match b.tabs[tab]? with
    | some (.returned (some _)) => some (b.goes tab .idle)
    | some (.returned none) => some {b.goes tab .clearing with token := none}
    | _ => none
  | .clearRefresh tab =>
    match b.tabs[tab]? with
    | some .clearing => some {b.goes tab .idle with refresh := none}
    | _ => none
  | .signedIn access fresh => some {b with sessions := b.sessions ++ [(access,fresh)],issued := b.issued ++ [fresh]}
  | .saveToken access fresh =>
    if (some access,fresh) ∈ b.sessions then
      some {b with token := some access,sessions := b.sessions.map (fun session => if session.2 = fresh then (none,fresh) else session)}
    else none
  | .saveRefresh fresh =>
    if (none,fresh) ∈ b.sessions then some {b with refresh := some fresh,sessions := b.sessions.erase (none,fresh)} else none
  | .removeToken => some {b with token := none}
  | .removeRefresh => some {b with refresh := none}
  | .closeTab tab =>
    match b.tabs[tab]? with
    | some before => some {b.goes tab .closed with failed := b.failed ++ before.spends}
    | none => none

def browser : Client Browser BrowserMove where
  act := Browser.act
  brings := fun
    | .response _ _ fresh => [fresh]
    | .signedIn _ fresh => [fresh]
    | _ => []
  shows := fun b => fun
    | .readRefresh _ => b.refresh.toList
    | _ => []

def Browser.start : Browser := ⟨none,none,none,[],[],[],[],[]⟩

variable {b next : Browser} {tab : Nat} {before after : Tab}

-- The storage's refresh token, and the lock, as rotations of one credential.
def Browser.view (b : Browser) : Store Nat Nat :=
  ⟨b.refresh,stageOf Tab.stage b.lock b.tabs,b.sessions.map Prod.snd,b.issued,b.presented,b.failed⟩

structure Browser.Kept (b : Browser) : Prop where
  exclusive : Exclusive Tab.stage b.lock b.tabs
  apart : (b.sessions.map Prod.snd).Nodup
  issued : ∀ fresh ∈ b.sessions.map Prod.snd, fresh ∈ b.issued

theorem erase_session {access : Option Nat} {fresh : Nat} {sessions : List (Option Nat × Nat)} (apart : (sessions.map Prod.snd).Nodup)
    (member : (access,fresh) ∈ sessions) : (sessions.erase (access,fresh)).map Prod.snd = (sessions.map Prod.snd).erase fresh := by
  induction sessions with
  | nil => cases member
  | cons session rest ih =>
    obtain ⟨unseen,apart⟩ := List.nodup_cons.mp apart
    by_cases first : session = (access,fresh)
    · simp [first]
    · have there : (access,fresh) ∈ rest := by simpa [Ne.symm first] using member
      have other : session.2 ≠ fresh := fun same => unseen (same ▸ List.mem_map_of_mem there)
      simp [first,other,ih apart there]

theorem saved_sessions (fresh : Nat) (sessions : List (Option Nat × Nat)) :
    (sessions.map (fun session => if session.2 = fresh then (none,fresh) else session)).map Prod.snd = sessions.map Prod.snd := by
  rw [List.map_map]
  apply List.map_congr_left
  intro session _
  simp only [Function.comp]
  split <;> simp_all

-- One tab goes on while the storage stays, outside the lock.
theorem Browser.Kept.idles (kept : b.Kept) (found : b.tabs[tab]? = some before) (was : before.stage = none) (out : after.stage = none) :
    (b.goes tab after).Kept ∧ (b.goes tab after).view = b.view := by
  have exclusive := kept.exclusive.goes after found (by simp [out])
  refine ⟨⟨exclusive,kept.apart,kept.issued⟩,?_⟩
  simp [Browser.view,Browser.goes,stage_same after kept.exclusive found was out]

theorem Browser.Kept.stays (kept : b.Kept) (after : Tab) (found : b.tabs[tab]? = some before) (inside : before.stage.isSome = true) :
    Exclusive Tab.stage (lockAfter Tab.stage b.lock tab after) (b.tabs.set tab after) :=
  kept.exclusive.goes after found (fun _ => .inl inside)

theorem Browser.Kept.checks (kept : b.Kept) (taken : b.act (.checkRenewed tab) = some next) : next.Kept ∧ Does b.view [] [] next.view := by
  have leaves : ∀ here token, b.tabs[tab]? = some here → here.stage = some .holding →
      (b.goes tab (.returned token)).Kept ∧ Does b.view [] [] (b.goes tab (.returned token)).view := by
    intro here token found inside
    refine ⟨⟨kept.stays (.returned token) found (by simp [inside]),kept.apart,kept.issued⟩,?_⟩
    refine .one .release ?_
    simp [Rotations.step,Browser.view,stage_at kept.exclusive found inside,Browser.goes,
      stage_left (.returned token) kept.exclusive found (by simp [inside]) rfl]
  simp only [Browser.act] at taken
  split at taken
  · rename_i failedWith found
    split at taken <;> cases taken
    · exact leaves _ _ found rfl
    · refine ⟨⟨kept.stays (.missing failedWith) found rfl,kept.apart,kept.issued⟩,?_⟩
      have same : (b.goes tab (.missing failedWith)).view = b.view := by
        simp [Browser.view,Browser.goes,stage_at kept.exclusive found rfl,stage_within Tab.stage (.missing failedWith) found rfl]
      exact same ▸ .nothing
  · rename_i found
    cases taken
    exact leaves _ _ found rfl
  · cases taken

theorem Browser.Kept.reads (kept : b.Kept) (taken : b.act (.readRefresh tab) = some next) :
    next.Kept ∧ Does b.view [] b.refresh.toList next.view := by
  simp only [Browser.act] at taken
  split at taken
  · rename_i failedWith found
    have at_ := stage_at kept.exclusive found rfl
    split at taken
    · rename_i empty
      cases taken
      refine ⟨⟨kept.stays (.returned none) found rfl,kept.apart,kept.issued⟩,?_⟩
      rw [empty]
      refine .one .release ?_
      simp [Rotations.step,Browser.view,Browser.goes,at_,stage_left (.returned none) kept.exclusive found rfl rfl]
    · rename_i stored full
      cases taken
      refine ⟨⟨kept.stays (.posting failedWith stored) found rfl,kept.apart,kept.issued⟩,?_⟩
      have presents : Rotations.step b.view .present = some ({b.goes tab (.posting failedWith stored) with presented := b.presented ++ [stored]} : Browser).view := by
        simp [Rotations.step,Browser.view,Browser.goes,at_,full,stage_within Tab.stage (.posting failedWith stored) found rfl]
      exact .one .present presents
  · cases taken

theorem Browser.Kept.spends (kept : b.Kept) {access fresh : Nat} (unseen : fresh ∉ b.issued) (taken : b.act (.response tab access fresh) = some next) :
    next.Kept ∧ Does b.view [fresh] [] next.view := by
  simp only [Browser.act] at taken
  split at taken
  · rename_i stored found
    cases taken
    refine ⟨⟨kept.stays (.answered stored access fresh) found rfl,kept.apart,fun session member => List.mem_append_left _ (kept.issued session member)⟩,?_⟩
    refine .one (.answer fresh) ?_
    simp [Rotations.step,Browser.view,Browser.goes,stage_at kept.exclusive found rfl,stage_within Tab.stage (.answered stored access fresh) found rfl,unseen]
  · cases taken

theorem Browser.Kept.rejects (kept : b.Kept) (taken : b.act (.rejected tab) = some next) : next.Kept ∧ Does b.view [] [] next.view := by
  simp only [Browser.act] at taken
  split at taken
  · rename_i failedWith stored found
    cases taken
    refine ⟨⟨kept.stays (.caught failedWith) found rfl,kept.apart,kept.issued⟩,.one .fail ?_⟩
    simp [Rotations.step,Browser.view,Browser.goes,stage_at kept.exclusive found rfl,stage_within Tab.stage (.caught failedWith) found rfl]
  · cases taken

theorem Browser.Kept.writes (kept : b.Kept) (taken : b.act (.setToken tab) = some next) : next.Kept ∧ Does b.view [] [] next.view := by
  simp only [Browser.act] at taken
  split at taken
  · rename_i stored access fresh found
    cases taken
    refine ⟨⟨kept.stays (.halfway stored access fresh) found rfl,kept.apart,kept.issued⟩,?_⟩
    have same : ({b.goes tab (.halfway stored access fresh) with token := some access} : Browser).view = b.view := by
      simp [Browser.view,Browser.goes,stage_at kept.exclusive found rfl,stage_within Tab.stage (.halfway stored access fresh) found rfl]
    exact same ▸ .nothing
  · cases taken

-- The new refresh token is stored, and with that the lock is let go.
theorem Browser.Kept.rewrites (kept : b.Kept) (taken : b.act (.setRefresh tab) = some next) : next.Kept ∧ Does b.view [] [] next.view := by
  simp only [Browser.act] at taken
  split at taken
  · rename_i stored access fresh found
    cases taken
    refine ⟨⟨kept.stays (.returned (some access)) found rfl,kept.apart,kept.issued⟩,?_⟩
    have stores : Rotations.step b.view .store = some {b.view with lock := some (tab,.holding),kept := some fresh} := by
      simp [Rotations.step,Browser.view,stage_at kept.exclusive found rfl]
    refine .move (.one .store stores) .release ?_
    simp [Rotations.step,Browser.view,Browser.goes,stage_left (.returned (some access)) kept.exclusive found rfl rfl]
  · cases taken

theorem Browser.Kept.closes (kept : b.Kept) (taken : b.act (.closeTab tab) = some next) : next.Kept ∧ Does b.view [] [] next.view := by
  simp only [Browser.act] at taken
  split at taken
  · rename_i before found
    cases taken
    refine ⟨⟨kept.exclusive.goes .closed found (by simp [Tab.stage]),kept.apart,kept.issued⟩,?_⟩
    by_cases inside : before.stage.isSome = true
    · have left := stage_left .closed kept.exclusive found inside rfl
      refine .one .abandon ?_
      cases before with
      | entered | missing | caught | posting | answered | halfway =>
        simp [Rotations.step,Browser.view,Browser.goes,stage_at kept.exclusive found rfl,left,Tab.spends]
      | _ => cases inside
    · have outside : before.stage = none := by simpa using inside
      have quiet : before.spends = [] := by cases before <;> first | rfl | cases outside
      have same : ({b.goes tab .closed with failed := b.failed ++ before.spends} : Browser).view = b.view := by
        simp [Browser.view,Browser.goes,quiet,stage_same .closed kept.exclusive found outside rfl]
      exact same ▸ .nothing
  · cases taken

theorem Browser.Kept.opens (kept : b.Kept) : ({b with tabs := b.tabs ++ [.idle]} : Browser).Kept ∧
    ({b with tabs := b.tabs ++ [.idle]} : Browser).view = b.view := by
  obtain ⟨exclusive,same⟩ := kept.exclusive.joins Tab.idle rfl
  exact ⟨⟨exclusive,kept.apart,kept.issued⟩,by simp [Browser.view,same]⟩

theorem Browser.Kept.signsIn (kept : b.Kept) (access : Option Nat) {fresh : Nat} (unseen : fresh ∉ b.issued) :
    ({b with sessions := b.sessions ++ [(access,fresh)],issued := b.issued ++ [fresh]} : Browser).Kept ∧
    Does b.view [fresh] [] ({b with sessions := b.sessions ++ [(access,fresh)],issued := b.issued ++ [fresh]} : Browser).view := by
  refine ⟨⟨kept.exclusive,?_,?_⟩,.one (.grant fresh) ?_⟩
  · have newer : ∀ other ∈ b.sessions.map Prod.snd, other ≠ fresh := fun other member same => unseen (same ▸ kept.issued other member)
    simpa [List.nodup_append,kept.apart] using newer
  · intro other member
    simp only [List.map_append,List.map_cons,List.map_nil,List.mem_append,List.mem_singleton] at member
    rcases member with old | rfl
    · exact List.mem_append_left _ (kept.issued other old)
    · simp
  · simp [Rotations.step,Browser.view,unseen]

theorem Browser.Kept.saves (kept : b.Kept) {fresh : Nat} (member : (none,fresh) ∈ b.sessions) :
    ({b with refresh := some fresh,sessions := b.sessions.erase (none,fresh)} : Browser).Kept ∧
    Does b.view [] [] ({b with refresh := some fresh,sessions := b.sessions.erase (none,fresh)} : Browser).view := by
  have erased := erase_session kept.apart member
  have there : fresh ∈ b.sessions.map Prod.snd := List.mem_map_of_mem member
  refine ⟨⟨kept.exclusive,?_,?_⟩,.one (.deposit fresh) ?_⟩
  · exact erased ▸ kept.apart.erase fresh
  · intro other kept_
    rw [erased] at kept_
    exact kept.issued other (List.mem_of_mem_erase kept_)
  · simp only [Rotations.step,Browser.view,erased]
    exact if_pos there

-- The tabs of a browser, one callback at a time, rotate one credential.
theorem browser_rotates : browser.Rotates Browser.view Browser.Kept := by
  refine ⟨?_⟩
  intro b move next kept taken fresh
  have idles : ∀ tab before after, b.tabs[tab]? = some before → before.stage = none → after.stage = none →
      (b.goes tab after).Kept ∧ Does b.view [] [] (b.goes tab after).view := by
    intro tab before after found was out
    obtain ⟨still,same⟩ := kept.idles found was out
    exact ⟨still,same ▸ .nothing⟩
  cases move with
  | openTab =>
    cases taken
    exact ⟨kept.opens.1,kept.opens.2 ▸ .nothing⟩
  | unauthorized tab sent =>
    simp only [browser,Browser.act] at taken
    split at taken <;> cases taken
    rename_i found
    exact idles tab .idle _ found rfl rfl
  | lockGranted tab =>
    simp only [browser,Browser.act] at taken
    split at taken
    · rename_i failedWith found
      simp only [Option.ite_none_right_eq_some,Option.some.injEq] at taken
      obtain ⟨free,rfl⟩ := taken
      refine ⟨⟨kept.exclusive.goes (.entered failedWith) found (fun _ => .inr free),kept.apart,kept.issued⟩,.one (.acquire tab) ?_⟩
      have empty : stageOf Tab.stage b.lock b.tabs = none := by simp [stageOf,free]
      simp [Rotations.step,Browser.view,Browser.goes,empty,stage_within Tab.stage (.entered failedWith) found rfl]
    · cases taken
  | checkRenewed tab => exact kept.checks taken
  | readRefresh tab => exact kept.reads taken
  | response tab access new => exact kept.spends (fresh new (List.mem_singleton_self new)) taken
  | rejected tab => exact kept.rejects taken
  | setToken tab => exact kept.writes taken
  | setRefresh tab => exact kept.rewrites taken
  | resume tab =>
    simp only [browser,Browser.act] at taken
    split at taken <;> cases taken <;> rename_i found
    · exact idles tab _ .idle found rfl rfl
    · obtain ⟨still,does⟩ := idles tab _ .clearing found rfl rfl
      exact ⟨⟨still.exclusive,still.apart,still.issued⟩,does⟩
  | clearRefresh tab =>
    simp only [browser,Browser.act] at taken
    split at taken <;> cases taken
    rename_i found
    obtain ⟨still,does⟩ := idles tab _ .idle found rfl rfl
    exact ⟨⟨still.exclusive,still.apart,still.issued⟩,.move does .clear rfl⟩
  | signedIn access new =>
    cases taken
    exact kept.signsIn access (fresh new (List.mem_singleton_self new))
  | saveToken access new =>
    simp only [browser,Browser.act,Option.ite_none_right_eq_some,Option.some.injEq] at taken
    obtain ⟨_,rfl⟩ := taken
    have same := saved_sessions new b.sessions
    refine ⟨⟨kept.exclusive,same ▸ kept.apart,same ▸ kept.issued⟩,?_⟩
    simp only [Browser.view,same]
    exact .nothing
  | saveRefresh new =>
    simp only [browser,Browser.act,Option.ite_none_right_eq_some,Option.some.injEq] at taken
    obtain ⟨member,rfl⟩ := taken
    exact kept.saves member
  | removeToken =>
    cases taken
    exact ⟨⟨kept.exclusive,kept.apart,kept.issued⟩,.nothing⟩
  | removeRefresh =>
    cases taken
    exact ⟨⟨kept.exclusive,kept.apart,kept.issued⟩,.one .clear rfl⟩
  | closeTab tab => exact kept.closes taken

theorem start_kept : Browser.start.Kept := ⟨⟨nofun,nofun⟩,.nil,nofun⟩

-- A tab that is closed between its refresh and the answer, and another one that
-- presents what is still stored, half a minute later.
def closedMidway : List (ClientOperation BrowserMove) :=
  [.ask (.login "ada" "first"),.serve (.commit 0 0),.receive 0 (.signedIn (some 7) 1),.move (.saveToken 7 1),.move (.saveRefresh 1),
    .move .openTab,.move .openTab,.move (.unauthorized 0 (some 7)),.move (.unauthorized 1 (some 7)),.move (.lockGranted 0),.move (.checkRenewed 0),
    .move (.readRefresh 0),.arrive 1 5,.serve (.spend 1),.serve (.readUser 1),.serve (.commit 1 6),.move (.closeTab 0),.move (.lockGranted 1),
    .move (.checkRenewed 1),.move (.readRefresh 1),.arrive 1 30000000]

end ChronosLedger.SignIns
