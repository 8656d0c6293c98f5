import KsmbdTools.Management.Requests

/-! Operations on users leave shares, sessions and the configuration alone. -/

namespace KsmbdTools.Management

structure OnlyUsers (before after : State) : Prop where
  globalConf : after.globalConf = before.globalConf
  reloading : after.reloading = before.reloading
  shares : after.shares = before.shares
  sharesTable : after.sharesTable = before.sharesTable
  sessions : after.sessions = before.sessions
  sessionsTable : after.sessionsTable = before.sessionsTable

namespace OnlyUsers

theorem refl (state : State) : OnlyUsers state state := ⟨rfl, rfl, rfl, rfl, rfl, rfl⟩

theorem trans {first middle last : State} (a : OnlyUsers first middle) (b : OnlyUsers middle last) :
    OnlyUsers first last :=
  ⟨b.globalConf.trans a.globalConf, b.reloading.trans a.reloading, b.shares.trans a.shares,
    b.sharesTable.trans a.sharesTable, b.sessions.trans a.sessions, b.sessionsTable.trans a.sessionsTable⟩

theorem users (state : State) (users : Heap User) (usersTable : HashTable CStr (Ref User)) :
    OnlyUsers state { state with users, usersTable } := ⟨rfl, rfl, rfl, rfl, rfl, rfl⟩

theorem faulted (state : State) (users : Heap User) (usersTable : HashTable CStr (Ref User)) (faulted : Bool) :
    OnlyUsers state { state with users, usersTable, faulted } := ⟨rfl, rfl, rfl, rfl, rfl, rfl⟩

theorem foldl {α : Type} {step : State → α → State} (one : ∀ state item, OnlyUsers state (step state item))
    (items : List α) (state : State) : OnlyUsers state (items.foldl step state) := by
  induction items generalizing state with
  | nil => exact refl state
  | cons item items ih => exact (one state item).trans (ih _)

end OnlyUsers

namespace State
variable (platform : Platform)

theorem usmRemoveUser_only (state : State) (user : Ref User) : OnlyUsers state (state.usmRemoveUser user) := by
  unfold usmRemoveUser
  split
  · exact .refl state
  · split
    · exact .faulted state _ _ _
    · split
      · exact .faulted state _ _ _
      · exact .refl state

theorem putUser_only (state : State) (user : Ref User) : OnlyUsers state (state.putUser user) := by
  have lowered := OnlyUsers.users state
    (state.users.modify user fun record => { record with refCount := record.refCount - 1 }) state.usersTable
  simp only [putUser]
  split
  · exact lowered
  · split
    · exact lowered.trans (usmRemoveUser_only _ user)
    · exact lowered

theorem putKsmbdUser_only (state : State) (user : Option (Ref User)) : OnlyUsers state (state.putKsmbdUser user) := by
  cases user with
  | none => exact .refl state
  | some user => exact state.putUser_only user

theorem getKsmbdUser_only (state : State) (user : Ref User) : OnlyUsers state (state.getKsmbdUser user).1 := by
  unfold getKsmbdUser
  split
  · exact .refl state
  · split
    · exact .users state _ _
    · exact .refl state

theorem usmLookupUser_only (state : State) (name : Option CStr) : OnlyUsers state (state.usmLookupUser name).1 := by
  unfold usmLookupUser
  split
  · exact .refl state
  · exact state.getKsmbdUser_only _

theorem resetFailedLogins_only (state : State) (user : Ref User) : OnlyUsers state (state.resetFailedLogins user) :=
  .users state _ _

theorem lookupGuest_only (state : State) (record : Share) : OnlyUsers state (state.lookupGuest record).1 := by
  have first := state.usmLookupUser_only record.guestAccount
  unfold lookupGuest
  split
  next found => rw [found] at first; exact first
  next missing => rw [missing] at first; exact first.trans (usmLookupUser_only _ _)

theorem freeUserMaps_only (state : State) (maps : ShareMaps) : OnlyUsers state (state.freeUserMaps maps) :=
  .foldl putUser_only _ state

theorem usmAddNewUser_only (state : State) (name pwd : CStr) :
    OnlyUsers state (state.usmAddNewUser platform name pwd).1 := by
  unfold usmAddNewUser
  split
  · exact .faulted state _ _ _
  · split
    · exact .refl state
    · exact .users state _ _

theorem usmAddGuestAccount_only (state : State) (name : CStr) :
    OnlyUsers state (state.usmAddGuestAccount platform name).1 := by
  have added := state.usmAddNewUser_only platform name guestPassword
  unfold usmAddGuestAccount
  split
  next refused => rw [refused] at added; exact added
  next fresh accepted =>
    rw [accepted] at added
    have found := fresh.usmLookupUser_only (some name)
    split
    next missing => rw [missing] at found; exact added.trans found
    next current user seen =>
      rw [seen] at found
      exact (added.trans found).trans ((OnlyUsers.users current _ current.usersTable).trans (putUser_only _ user))

theorem addUserPassword_only (state : State) (name pwd : CStr) :
    OnlyUsers state (state.addUserPassword platform name pwd) := by
  have found := state.usmLookupUser_only (some name)
  unfold addUserPassword
  split
  next current user seen =>
    rw [seen] at found
    refine found.trans (OnlyUsers.trans ?_ (putUser_only _ user))
    unfold usmUpdateUserPassword
    split
    · exact .refl current
    · exact .faulted current _ _ _
  next missing => rw [missing] at found; exact found.trans (usmAddNewUser_only platform _ name pwd)

theorem usmRemoveAllUsers_only (state : State) : OnlyUsers state state.usmRemoveAllUsers :=
  (OnlyUsers.foldl (fun current user => (OnlyUsers.users current _ current.usersTable).trans (putUser_only _ user))
    _ state).trans (.users _ _ _)

theorem usmHandleLogoutRequest_only (state : State) (req : LogoutRequest) :
    OnlyUsers state (state.usmHandleLogoutRequest req) := by
  have found := state.usmLookupUser_only (some req.account.str)
  unfold usmHandleLogoutRequest
  split
  · exact .refl state
  · split
    next missing => rw [missing] at found; exact found
    next current user seen =>
      rw [seen] at found
      exact found.trans ((OnlyUsers.users current _ current.usersTable).trans (putUser_only _ user))

theorem usmHandleLoginRequest_only (state : State) (req : LoginRequest) :
    OnlyUsers state (state.usmHandleLoginRequest req).1 := by
  have named := state.usmLookupUser_only (some req.account.str)
  have first : OnlyUsers state (if req.account.bytes.head? == some 0 then (state, none)
      else state.usmLookupUser (some req.account.str)).1 := by
    split
    · exact .refl state
    · exact named
  unfold usmHandleLoginRequest
  split
  · exact .refl state
  · dsimp only
    generalize (if req.account.bytes.head? == some 0 then (state, none)
      else state.usmLookupUser (some req.account.str)) = looked at first ⊢
    obtain ⟨current, user⟩ := looked
    cases user with
    | some user => exact first.trans (putUser_only _ user)
    | none =>
      have guest := current.usmLookupUser_only current.globalConf.guestAccount
      dsimp only
      split
      · exact first
      · split
        · split
          next missing => rw [missing] at guest; exact first.trans guest
          next seen => rw [seen] at guest; exact (first.trans guest).trans (putUser_only _ _)
        · exact first

end State

/-- A relation between the state before and after that a user put back and a change to the
shares keep. -/
structure SharesKeep (kept : State → State → Prop) : Prop where
  refl (state : State) : kept state state
  trans {first middle last : State} (one : kept first middle) (two : kept middle last) : kept first last
  putUser (state : State) (user : Ref User) : kept state (state.putUser user)
  shares (state : State) (shares : Heap Share) (sharesTable : HashTable CStr (Ref Share)) :
    kept state { state with shares, sharesTable }

namespace SharesKeep
variable {platform : Platform} {kept : State → State → Prop} (keeps : SharesKeep kept) (state : State)

include keeps

theorem foldl {α : Type} {step : State → α → State} (one : ∀ state item, kept state (step state item))
    (items : List α) : kept state (items.foldl step state) := by
  induction items generalizing state with
  | nil => exact keeps.refl state
  | cons item items ih => exact keeps.trans (one state item) (ih _)

theorem killKsmbdShare (share : Ref Share) : kept state (state.killKsmbdShare share) := by
  unfold State.killKsmbdShare
  split
  · exact keeps.refl state
  · exact keeps.trans (keeps.foldl state keeps.putUser _) (keeps.shares _ _ _)

theorem shmRemoveShare (share : Ref Share) : kept state (state.shmRemoveShare platform share) := by
  simp only [State.shmRemoveShare]
  split
  · exact keeps.refl state
  · split
    · exact keeps.killKsmbdShare state share
    · split
      · exact keeps.trans (keeps.shares state _ _) (keeps.killKsmbdShare _ share)
      · exact keeps.refl state

theorem putKsmbdShare (share : Option (Ref Share)) : kept state (state.putKsmbdShare platform share) := by
  cases share with
  | none => exact keeps.refl state
  | some share =>
    simp only [State.putKsmbdShare, Option.elim_some, State.putShare]
    split
    · exact keeps.shares state _ _
    · split
      · exact keeps.trans (keeps.shares state _ _) (keeps.shmRemoveShare _ share)
      · exact keeps.shares state _ _

theorem shmCloseConnection (share : Option (Ref Share)) : kept state (state.shmCloseConnection share) := by
  cases share with
  | none => exact keeps.refl state
  | some share => exact keeps.shares state _ _

theorem tcmTreeConnFree (conn : TreeConn) : kept state (state.tcmTreeConnFree platform conn) :=
  keeps.trans (keeps.shmCloseConnection state conn.share) (keeps.putKsmbdShare _ conn.share)

theorem putKsmbdUser (user : Option (Ref User)) : kept state (state.putKsmbdUser user) := by
  cases user with
  | none => exact keeps.refl state
  | some user => exact keeps.putUser state user

theorem outError (attempt : Attempt) : kept state (state.outError platform attempt) :=
  keeps.trans (keeps.tcmTreeConnFree state attempt.conn) <| keeps.trans (keeps.shmCloseConnection _ attempt.share) <|
    keeps.trans (keeps.putKsmbdShare _ attempt.share) (keeps.putKsmbdUser _ attempt.user)

end SharesKeep

namespace State

theorem shmLookupShare_shares {platform : Platform} (state : State) (name : CStr) :
    ∃ shares, (state.shmLookupShare platform name).1 = { state with shares } := by
  unfold shmLookupShare getKsmbdShare
  split
  · exact ⟨_, rfl⟩
  · split
    · exact ⟨_, rfl⟩
    · split <;> exact ⟨_, rfl⟩

theorem shmOpenConnection_shares (state : State) (share : Ref Share) :
    ∃ shares, (state.shmOpenConnection share).1 = { state with shares } := by
  unfold shmOpenConnection
  split
  · exact ⟨_, rfl⟩
  · split <;> exact ⟨_, rfl⟩

end State

end KsmbdTools.Management
