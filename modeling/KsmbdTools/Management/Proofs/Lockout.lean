import KsmbdTools.Flags
import KsmbdTools.Management.Proofs.Login

/-! The delay of sessions after failed logins. Everything but a logout and the account lookup of a tree connect keeps
the failed logins and the flags of every user. -/

namespace KsmbdTools.Management
variable (platform : Platform)

/-- No user is added, and each one left has its name, failed logins and flags as before. -/
structure LoginsKept (before after : State) : Prop where
  table : ∀ name user, after.usersTable.lookup name = some user → before.usersTable.lookup name = some user
  record : ∀ user record, after.users.get? user = some record → ∃ old, before.users.get? user = some old ∧
    record.name = old.name ∧ record.failedLoginCount = old.failedLoginCount ∧ record.flags = old.flags

namespace LoginsKept

theorem ofUsers {before after : State} (users : after.users = before.users) (table : after.usersTable = before.usersTable) :
    LoginsKept before after :=
  ⟨by rw [table]; exact fun _ _ => id, by rw [users]; exact fun _ record found => ⟨record, found, rfl, rfl, rfl⟩⟩

theorem refl (state : State) : LoginsKept state state := ofUsers rfl rfl

theorem trans {first middle last : State} (one : LoginsKept first middle) (two : LoginsKept middle last) :
    LoginsKept first last := by
  refine ⟨fun name user entry => one.table name user (two.table name user entry), fun user record found => ?_⟩
  obtain ⟨between, seen, name, count, flags⟩ := two.record user record found
  obtain ⟨old, known, name', count', flags'⟩ := one.record user between seen
  exact ⟨old, known, name.trans name', count.trans count', flags.trans flags'⟩

theorem past {before between after : State} (kept : LoginsKept between after) (users : between.users = before.users)
    (table : between.usersTable = before.usersTable) : LoginsKept before after := (ofUsers users table).trans kept

theorem modify (state : State) (user : Ref User) {f : User → User} (name : ∀ record, (f record).name = record.name)
    (count : ∀ record, (f record).failedLoginCount = record.failedLoginCount)
    (flags : ∀ record, (f record).flags = record.flags) :
    LoginsKept state { state with users := state.users.modify user f } := by
  refine ⟨fun _ _ => id, fun other record found => ?_⟩
  rw [Heap.get?_modify] at found
  split at found
  · obtain ⟨old, seen, rfl⟩ := Option.map_eq_some_iff.mp found
    exact ⟨old, seen, name old, count old, flags old⟩
  · exact ⟨record, found, rfl, rfl, rfl⟩

theorem free (state : State) (user : Ref User) : LoginsKept state (state.killKsmbdUser user) := by
  refine ⟨fun _ _ => id, fun other record found => ?_⟩
  rw [State.killKsmbdUser, Heap.get?_free] at found
  split at found
  · cases found
  · exact ⟨record, found, rfl, rfl, rfl⟩

theorem erase (state : State) (name : CStr) : LoginsKept state { state with usersTable := state.usersTable.erase name } := by
  refine ⟨fun other user entry => ?_, fun _ record found => ⟨record, found, rfl, rfl, rfl⟩⟩
  by_cases same : other = name
  · rw [same, AList.lookup_erase] at entry
    cases entry
  · rwa [AList.lookup_erase_ne same] at entry

theorem change {before after : State} (kept : LoginsKept before after) (user : Ref User) {f : User → User}
    (reads : ∀ record old : User, record.name = old.name → record.failedLoginCount = old.failedLoginCount →
      record.flags = old.flags → (f record).name = (f old).name ∧
        (f record).failedLoginCount = (f old).failedLoginCount ∧ (f record).flags = (f old).flags) :
    LoginsKept { before with users := before.users.modify user f } { after with users := after.users.modify user f } := by
  refine ⟨kept.table, fun other record found => ?_⟩
  rw [Heap.get?_modify] at found ⊢
  split at found
  next same =>
    obtain ⟨changed, seen, rfl⟩ := Option.map_eq_some_iff.mp found
    obtain ⟨old, known, name, count, flags⟩ := kept.record other changed seen
    exact ⟨f old, by rw [if_pos same, known, Option.map_some], reads changed old name count flags⟩
  next different =>
    rw [if_neg different]
    exact kept.record other record found

theorem reset {before after : State} (kept : LoginsKept before after) (user : Ref User) :
    LoginsKept (before.resetFailedLogins user) (after.resetFailedLogins user) :=
  kept.change user fun _ _ name _ flags => ⟨name, rfl, congrArg (clearFlag · UserFlag.delaySession) flags⟩

theorem keyed {before after : State} (kept : LoginsKept before after) (keyed : UsersKeyed before) : UsersKeyed after := by
  intro name user record entry found
  obtain ⟨old, seen, same, -⟩ := kept.record user record found
  rw [same]
  exact keyed name user old (kept.table name user entry) seen

end LoginsKept

/-- The failed logins are kept but for those of one user, if any, who has none now. -/
def ForgetsLogins (forgotten : Option (Ref User)) (before after : State) : Prop :=
  match forgotten with
  | none => LoginsKept before after
  | some user => LoginsKept (before.resetFailedLogins user) after

theorem ForgetsLogins.past {forgotten : Option (Ref User)} {before between after : State}
    (forgets : ForgetsLogins forgotten between after) (users : between.users = before.users)
    (table : between.usersTable = before.usersTable) : ForgetsLogins forgotten before after := by
  cases forgotten with
  | none => exact LoginsKept.past forgets users table
  | some user => exact ((LoginsKept.ofUsers users table).reset user).trans forgets

namespace State
variable (state : State)

theorem usmRemoveUser_logins (user : Ref User) : LoginsKept state (state.usmRemoveUser user) := by
  unfold usmRemoveUser
  split
  · exact .refl state
  · split
    · exact .free state user
    · split
      · exact (LoginsKept.erase state _).trans (.free _ user)
      · exact .refl state

theorem putUser_logins (user : Ref User) : LoginsKept state (state.putUser user) := by
  have lowered := LoginsKept.modify state user (f := fun record => { record with refCount := record.refCount - 1 })
    (fun _ => rfl) (fun _ => rfl) (fun _ => rfl)
  simp only [putUser]
  split
  · exact lowered
  · split
    · exact lowered.trans (usmRemoveUser_logins _ user)
    · exact lowered

theorem usmLookupUser_logins (name : Option CStr) : LoginsKept state (state.usmLookupUser name).1 := by
  unfold usmLookupUser
  split
  · exact .refl state
  · unfold getKsmbdUser
    split
    · exact .refl state
    · split
      · exact .modify state _ (fun _ => rfl) (fun _ => rfl) (fun _ => rfl)
      · exact .refl state

theorem lookupGuest_logins (record : Share) : LoginsKept state (state.lookupGuest record).1 := by
  have first := state.usmLookupUser_logins record.guestAccount
  unfold lookupGuest
  split
  next found => rw [found] at first; exact first
  next missing => rw [missing] at first; exact first.trans (usmLookupUser_logins _ _)

theorem sharesKeep_logins : SharesKeep LoginsKept := ⟨.refl, .trans, putUser_logins, fun _ _ _ => .ofUsers rfl rfl⟩

theorem killKsmbdSession_logins (sess : Ref Session) : LoginsKept state (state.killKsmbdSession platform sess) := by
  unfold killKsmbdSession
  split
  · exact .refl state
  · exact ((sharesKeep_logins.foldl state sharesKeep_logins.tcmTreeConnFree _).trans
      (sharesKeep_logins.putKsmbdUser _ _)).trans (.ofUsers rfl rfl)

theorem smRemoveSession_logins (sess : Ref Session) : LoginsKept state (state.smRemoveSession platform sess) := by
  unfold smRemoveSession
  split
  · exact .refl state
  · split
    · exact (killKsmbdSession_logins platform _ sess).past rfl rfl
    · exact .refl state

theorem putSession_logins (sess : Ref Session) : LoginsKept state (state.putSession platform sess) := by
  simp only [putSession]
  split
  · exact .ofUsers rfl rfl
  · split
    · exact (smRemoveSession_logins platform _ sess).past rfl rfl
    · exact .ofUsers rfl rfl

variable {state platform}

theorem smLookupSession_logins {after : State} {id : UInt64} {found : Option (Ref Session)}
    (looked : state.smLookupSession id = some (after, found)) : LoginsKept state after := by
  unfold smLookupSession getSession at looked
  split at looked
  · cases looked
    exact .refl state
  · split at looked
    · cases looked
    · split at looked
      · cases looked
        exact .ofUsers rfl rfl
      · cases looked
        exact .refl state

theorem insertSession_logins {after : State} {id : UInt64} {fresh : Ref Session} {inserted : Option (Ref Session)}
    (ran : state.insertSession platform id fresh = some (after, inserted)) : LoginsKept state after := by
  obtain ⟨⟨current, found⟩, looked, ran⟩ := Option.bind_eq_some_iff.mp ran
  have first := smLookupSession_logins looked
  cases found with
  | none =>
    dsimp only at ran
    split at ran <;> cases ran
    · exact first.trans (.ofUsers rfl rfl)
    · exact first.trans ((killKsmbdSession_logins platform _ fresh).past rfl rfl)
  | some sess =>
    have killed := first.trans (killKsmbdSession_logins platform current fresh)
    dsimp only at ran
    split at ran <;> cases ran
    · exact killed.trans (.ofUsers rfl rfl)
    · exact killed.trans ((killKsmbdSession_logins platform _ sess).past rfl rfl)

theorem smHandleTreeConnect_logins {after : State} {memory : Memory} {id : UInt64} {user : Option (Ref User)}
    {conn : TreeConn} {retries : Nat} {bound : Bool}
    (ran : state.smHandleTreeConnect platform memory id user conn retries = some (after, bound)) :
    LoginsKept state after := by
  induction retries generalizing state with
  | zero => cases ran
  | succ retries ih =>
    obtain ⟨⟨current, found⟩, looked, ran⟩ := Option.bind_eq_some_iff.mp ran
    have first := smLookupSession_logins looked
    cases found with
    | some sess =>
      cases ran
      exact first.trans (.ofUsers rfl rfl)
    | none =>
      dsimp only at ran
      split at ran
      · cases ran
        exact first
      · obtain ⟨⟨next, inserted⟩, added, ran⟩ := Option.bind_eq_some_iff.mp ran
        have second := first.trans ((insertSession_logins added).past rfl rfl)
        cases inserted with
        | some sess =>
          cases ran
          exact second.trans (.ofUsers rfl rfl)
        | none => exact second.trans (ih ran)

theorem smCheckSessionsCapacity_logins {after : State} {id : UInt64} {room : Bool}
    (ran : state.smCheckSessionsCapacity platform id = some (after, room)) : LoginsKept state after := by
  obtain ⟨⟨current, found⟩, looked, ran⟩ := Option.bind_eq_some_iff.mp ran
  have first := smLookupSession_logins looked
  cases found with
  | some sess =>
    cases ran
    exact first.trans (putSession_logins platform current sess)
  | none =>
    dsimp only at ran
    split at ran <;> cases ran
    · exact first
    · exact first.trans (.ofUsers rfl rfl)

theorem refuse_logins {after : State} {attempt : Attempt} {status : TreeConnStatus} {resp : TreeConnectResponse}
    (ran : state.refuse platform attempt status = some (after, resp)) : LoginsKept state after := by
  cases ran
  exact sharesKeep_logins.outError state attempt

theorem bindTreeConn_logins {after : State} {memory : Memory} {retries : Nat} {req : TreeConnectRequest} {share : Ref Share}
    {user : Ref User} {flags : UInt32} {resp : TreeConnectResponse}
    (ran : state.bindTreeConn platform memory retries req share user flags = some (after, resp)) :
    LoginsKept state after := by
  obtain ⟨⟨current, bound⟩, connected, ran⟩ := Option.bind_eq_some_iff.mp ran
  have first := smHandleTreeConnect_logins connected
  dsimp only at ran
  split at ran
  · cases ran
    exact first.trans (.ofUsers rfl rfl)
  · cases ran
    exact first.trans (sharesKeep_logins.outError current _)

theorem connectAccount_logins {after : State} {memory : Memory} {retries : Nat} {req : TreeConnectRequest}
    {share : Ref Share} {record : Share} {resp : TreeConnectResponse}
    (ran : state.connectAccount platform memory retries req share record = some (after, resp)) :
    ForgetsLogins (state.usmLookupUser (some req.account.str)).2 state after := by
  have looked := state.usmLookupUser_logins (some req.account.str)
  unfold connectAccount at ran
  generalize state.usmLookupUser (some req.account.str) = found at looked ran
  obtain ⟨current, user⟩ := found
  cases user with
  | none => exact looked.trans (refuse_logins ran)
  | some user =>
    refine (looked.reset user).trans ?_
    dsimp only at ran
    split at ran
    · exact refuse_logins ran
    · exact bindTreeConn_logins ran
    · obtain ⟨⟨checked, room⟩, capacity, ran⟩ := Option.bind_eq_some_iff.mp ran
      have first := smCheckSessionsCapacity_logins capacity
      dsimp only at ran
      split at ran
      · exact first.trans (bindTreeConn_logins ran)
      · exact first.trans (refuse_logins ran)

end State

def looksUpAccount (state : State) (memory : Memory) (req : TreeConnectRequest) : Bool :=
  memory.conn && (refuseRequest state.globalConf req).isNone &&
    match state.shmLookupShare platform req.share.str with
    | (_, none) => false
    | (state, some share) =>
      match state.shares.get? share with
      | none => false
      | some record =>
        match state.shmOpenConnection share with
        | (_, false) => false
        | (state, true) => (refusePeer platform state.globalConf record req).isNone && !connectsAsGuest state req record

def accountLookedUp (state : State) (memory : Memory) (req : TreeConnectRequest) : Option (Ref User) :=
  if looksUpAccount platform state memory req then (state.usmLookupUser (some req.account.str)).2 else none

namespace State
variable {platform} {state : State}

theorem usmLookupUser_congr {other : State} (users : other.users = state.users) (table : other.usersTable = state.usersTable)
    (name : Option CStr) : (other.usmLookupUser name).2 = (state.usmLookupUser name).2 := by
  unfold usmLookupUser getKsmbdUser
  rw [users, table]
  cases name.bind (AList.lookup · state.usersTable) with
  | none => rfl
  | some user =>
    dsimp only
    cases state.users.get? user with
    | none => rfl
    | some record =>
      dsimp only
      split <;> rfl

theorem connectShare_logins {after : State} {memory : Memory} {retries : Nat} {req : TreeConnectRequest} {share : Ref Share}
    {record : Share} {resp : TreeConnectResponse}
    (ran : state.connectShare platform memory retries req share record = some (after, resp)) :
    ForgetsLogins (if (refusePeer platform state.globalConf record req).isNone && !connectsAsGuest state req record then
      (state.usmLookupUser (some req.account.str)).2 else none) state after := by
  unfold connectShare at ran
  unfold connectsAsGuest
  cases peer : refusePeer platform state.globalConf record req with
  | some status =>
    rw [peer] at ran
    exact refuse_logins ran
  | none =>
    rw [peer] at ran
    dsimp only at ran
    cases requested : guestRequested req with
    | false =>
      rw [requested] at ran
      exact connectAccount_logins ran
    | true =>
      rw [requested, if_pos rfl] at ran
      have looked := state.lookupGuest_logins record
      cases guest : state.lookupGuest record with
      | mk current user =>
        rw [guest] at ran looked
        cases user with
        | some user => exact looked.trans (bindTreeConn_logins ran)
        | none =>
          obtain rfl := lookupGuest_none guest
          exact connectAccount_logins ran

theorem tcmHandleTreeConnect_logins {after : State} {memory : Memory} {retries : Nat} {req : TreeConnectRequest}
    {resp : TreeConnectResponse} (ran : state.tcmHandleTreeConnect platform memory retries req = some (after, resp)) :
    ForgetsLogins (accountLookedUp platform state memory req) state after := by
  have stays (missed : looksUpAccount platform state memory req = false) (kept : LoginsKept state after) :
      ForgetsLogins (accountLookedUp platform state memory req) state after := by
    rw [accountLookedUp, missed]
    exact kept
  unfold tcmHandleTreeConnect at ran
  cases allocated : memory.conn with
  | false =>
    rw [allocated] at ran
    cases ran
    exact stays (by rw [looksUpAccount, allocated]; rfl) (.refl state)
  | true =>
    rw [allocated, Bool.not_true, if_neg Bool.false_ne_true] at ran
    cases accepted : refuseRequest state.globalConf req with
    | some status =>
      rw [accepted] at ran
      exact stays (by rw [looksUpAccount, allocated, accepted]; rfl) (refuse_logins ran)
    | none =>
      rw [accepted] at ran
      obtain ⟨shares, same⟩ := @shmLookupShare_shares platform state req.share.str
      cases looked : state.shmLookupShare platform req.share.str with
      | mk current share =>
        dsimp only at ran
        rw [looked] at same ran
        dsimp only at same
        have users : current.users = state.users := by rw [same]
        have table : current.usersTable = state.usersTable := by rw [same]
        cases share with
        | none =>
          exact stays (by rw [looksUpAccount, allocated, accepted, looked]; rfl) ((refuse_logins ran).past users table)
        | some share =>
          dsimp only at ran
          cases found : current.shares.get? share with
          | none =>
            rw [found] at ran
            cases ran
          | some record =>
            rw [found] at ran
            dsimp only at ran
            obtain ⟨counts, same⟩ := current.shmOpenConnection_shares share
            cases opening : current.shmOpenConnection share with
            | mk opened counted =>
              rw [opening] at same ran
              dsimp only at same
              replace users : opened.users = state.users := by rw [same, users]
              replace table : opened.usersTable = state.usersTable := by rw [same, table]
              cases counted with
              | false =>
                refine stays ?_ ((refuse_logins ran).past users table)
                simp only [looksUpAccount, allocated, accepted, looked, found, opening, Bool.and_false]
              | true =>
                have forgets := (connectShare_logins ran).past users table
                rw [usmLookupUser_congr users table] at forgets
                simpa only [accountLookedUp, looksUpAccount, allocated, accepted, looked, found, opening, Option.isNone_none,
                  Bool.true_and] using forgets

theorem usmHandleLogoutRequest_logins {req : LogoutRequest} {user : Ref User} (terminated : req.account.terminated = true)
    (known : (state.usmLookupUser (some req.account.str)).2 = some user) :
    LoginsKept { state with users := state.users.modify user (countLogout req.accountFlags) }
      (state.usmHandleLogoutRequest req) := by
  have looked := state.usmLookupUser_logins (some req.account.str)
  unfold usmHandleLogoutRequest
  rw [terminated, Bool.not_true, if_neg Bool.false_ne_true]
  generalize state.usmLookupUser (some req.account.str) = found at looked known ⊢
  obtain ⟨current, found⟩ := found
  cases known
  refine (looked.change user fun record old name count flags => ?_).trans (putUser_logins _ user)
  unfold countLogout
  rw [count, flags]
  split
  · split
    · exact ⟨name, rfl, rfl⟩
    · exact ⟨name, rfl, rfl⟩
  · exact ⟨name, rfl, rfl⟩

theorem usmHandleLogoutRequest_unknown {req : LogoutRequest}
    (unknown : (req.account.terminated && (state.usmLookupUser (some req.account.str)).2.isSome) = false) :
    LoginsKept state (state.usmHandleLogoutRequest req) := by
  unfold usmHandleLogoutRequest
  cases terminated : req.account.terminated with
  | false => exact .refl state
  | true =>
    have looked := state.usmLookupUser_logins (some req.account.str)
    rw [terminated, Bool.true_and] at unknown
    rw [Bool.not_true, if_neg Bool.false_ne_true]
    generalize state.usmLookupUser (some req.account.str) = found at looked unknown ⊢
    obtain ⟨current, found⟩ := found
    cases found with
    | none => exact looked
    | some user => cases unknown

end State

/-! A request is served to its end whenever the sessions are sound, whatever can be allocated. -/

theorem OnlyUsers.sameSessions {before after : State} (only : OnlyUsers before after) : SameSessions before after :=
  ⟨only.globalConf, only.sessions, only.sessionsTable⟩

namespace SameSessions

theorem trans {first middle last : State} (one : SameSessions first middle) (two : SameSessions middle last) :
    SameSessions first last :=
  ⟨two.globalConf.trans one.globalConf, two.sessions.trans one.sessions, two.sessionsTable.trans one.sessionsTable⟩

theorem sound {before after : State} (same : SameSessions before after) (sound : SessionsSound before) :
    SessionsSound after :=
  sound.congr same.sessions same.sessionsTable

end SameSessions

/-- The call returns, and every session is sound. -/
def ReturnsSound {α : Type} (result : Option (State × α)) : Prop :=
  ∃ after answer, result = some (after, answer) ∧ SessionsSound after

namespace State
variable (state : State)

theorem sharesKeep_sessions : SharesKeep SameSessions :=
  ⟨fun _ => ⟨rfl, rfl, rfl⟩, .trans, fun state user => (state.putUser_only user).sameSessions, fun _ _ _ => ⟨rfl, rfl, rfl⟩⟩

theorem shmLookupShare_sound (name : CStr) (sound : SessionsSound state) :
    SessionsSound (state.shmLookupShare platform name).1 := by
  obtain ⟨shares, same⟩ := @shmLookupShare_shares platform state name
  rw [same]
  exact sound.congr rfl rfl

theorem shmOpenConnection_sound (share : Ref Share) (sound : SessionsSound state) :
    SessionsSound (state.shmOpenConnection share).1 := by
  obtain ⟨shares, same⟩ := state.shmOpenConnection_shares share
  rw [same]
  exact sound.congr rfl rfl

variable {platform state} {memory : Memory} {retries : Nat} {req : TreeConnectRequest} {share : Ref Share} {record : Share}

theorem refuse_returns (sound : SessionsSound state) (attempt : Attempt) (status : TreeConnStatus) :
    ReturnsSound (state.refuse platform attempt status) :=
  ⟨_, _, rfl, (sharesKeep_sessions.outError state attempt).sound sound⟩

theorem bindTreeConn_returns (sound : SessionsSound state) (user : Ref User) (flags : UInt32) :
    ReturnsSound (state.bindTreeConn platform memory (retries + 1) req share user flags) := by
  cases known : state.sessionsTable.lookup req.sessionId with
  | some sess =>
    simp only [bindTreeConn, smHandleTreeConnect_known platform sound known, Option.bind_eq_bind,
      Option.bind_some, ↓reduceIte]
    exact ⟨_, _, rfl, (sound.join sess (req.conn share flags)).congr rfl rfl⟩
  | none =>
    cases made : memory.sess with
    | true =>
      simp only [bindTreeConn, smHandleTreeConnect_unknown platform known made, Option.bind_eq_bind, Option.bind_some,
        ↓reduceIte]
      exact ⟨_, _, rfl, (sound.openNew known (some user) (req.conn share flags)).congr rfl rfl⟩
    | false =>
      simp only [bindTreeConn, smHandleTreeConnect_unallocated platform known made, Option.bind_eq_bind, Option.bind_some,
        Bool.false_eq_true, ↓reduceIte]
      exact ⟨_, _, rfl, (sharesKeep_sessions.outError state _).sound sound⟩

theorem smCheckSessionsCapacity_returns (sound : SessionsSound state) (id : UInt64) :
    ReturnsSound (state.smCheckSessionsCapacity platform id) := by
  cases known : state.sessionsTable.lookup id with
  | some sess => exact ⟨_, _, smCheckSessionsCapacity_known platform sound known, sound⟩
  | none =>
    rw [smCheckSessionsCapacity, smLookupSession_none known]
    show ReturnsSound (if _ then _ else _)
    split
    · exact ⟨_, _, rfl, sound⟩
    · exact ⟨_, _, rfl, sound.congr rfl rfl⟩

theorem connectAccount_returns (sound : SessionsSound state) :
    ReturnsSound (state.connectAccount platform memory (retries + 1) req share record) := by
  have looked := (state.usmLookupUser_only (some req.account.str)).sameSessions.sound sound
  unfold connectAccount
  generalize state.usmLookupUser (some req.account.str) = found at looked ⊢
  obtain ⟨current, user⟩ := found
  cases user with
  | none => exact refuse_returns looked _ _
  | some user =>
    have reset : SessionsSound (current.resetFailedLogins user) := looked.congr rfl rfl
    dsimp only
    split
    · exact refuse_returns reset _ _
    · exact bindTreeConn_returns reset user _
    · obtain ⟨checked, room, ran, sound⟩ := @smCheckSessionsCapacity_returns platform _ reset req.sessionId
      rw [ran]
      show ReturnsSound (if room then _ else _)
      split
      · exact bindTreeConn_returns sound user _
      · exact refuse_returns sound _ _

theorem connectShare_returns (sound : SessionsSound state) :
    ReturnsSound (state.connectShare platform memory (retries + 1) req share record) := by
  have looked := (state.lookupGuest_only record).sameSessions.sound sound
  unfold connectShare
  split
  · exact refuse_returns sound _ _
  · split
    · generalize state.lookupGuest record = found at looked ⊢
      obtain ⟨current, user⟩ := found
      cases user with
      | none => exact connectAccount_returns looked
      | some user => exact bindTreeConn_returns looked user _
    · exact connectAccount_returns sound

/-- A share that the lookup answers has its record. -/
theorem shmLookupShare_record {name : CStr} {current : State}
    (looked : state.shmLookupShare platform name = (current, some share)) : current.shares.Live share := by
  unfold shmLookupShare getKsmbdShare at looked
  split at looked
  · cases looked
  · split at looked
    · cases looked
    next record found =>
      split at looked
      · cases looked
        exact ⟨_, by rw [Heap.get?_modify_self, found]; rfl⟩
      · cases looked

theorem tcmHandleTreeConnect_returns (sound : SessionsSound state) :
    ReturnsSound (state.tcmHandleTreeConnect platform memory (retries + 1) req) := by
  unfold tcmHandleTreeConnect
  split
  · exact ⟨_, _, rfl, sound⟩
  · split
    · exact refuse_returns sound _ _
    · have same := state.shmLookupShare_sound platform req.share.str sound
      cases looked : state.shmLookupShare platform req.share.str with
      | mk current found =>
        rw [looked] at same
        cases found with
        | none => exact refuse_returns same _ _
        | some share =>
          obtain ⟨record, found⟩ := shmLookupShare_record looked
          simp only [found]
          have opened := current.shmOpenConnection_sound share same
          generalize current.shmOpenConnection share = opening at opened ⊢
          obtain ⟨opening, counted⟩ := opening
          cases counted with
          | false => exact refuse_returns opened _ _
          | true => exact connectShare_returns opened

end State

/-- What a request is to the failed logins of one account. -/
inductive LoginEvent where
  | failure
  | reset
  | other
  deriving DecidableEq, Repr

def loginEvent (name : CStr) (state : State) : Request → LoginEvent
  | .logout req =>
    if req.account.terminated && req.account.str == name then
      if testFlag req.accountFlags UserFlag.badPassword then .failure else .reset
    else .other
  | .treeConnect memory req => if looksUpAccount platform state memory req && req.account.str == name then .reset else .other
  | _ => .other

def consecutiveFailures (events : List LoginEvent) : Nat := (events.reverse.takeWhile (· ≠ .reset)).count .failure

def Present (name : CStr) (user : Ref User) (state : State) : Prop := (state.usmLookupUser (some name)).2 = some user

def PresentThroughout (retries : Nat) (name : CStr) (user : Ref User) (state : State) : List Request → Prop
  | [] => Present name user state
  | request :: requests => Present name user state ∧
      ∀ step ∈ state.serve platform retries request, PresentThroughout retries name user step.1 requests

instance (name : CStr) (user : Ref User) (state : State) : Decidable (Present name user state) :=
  inferInstanceAs (Decidable (_ = _))

instance decidablePresentThroughout (retries : Nat) (name : CStr) (user : Ref User) :
    (state : State) → (requests : List Request) → Decidable (PresentThroughout platform retries name user state requests)
  | state, [] => inferInstanceAs (Decidable (Present name user state))
  | state, request :: requests =>
    have (step : State × Option TreeConnStatus) := decidablePresentThroughout retries name user step.1 requests
    inferInstanceAs (Decidable (Present name user state ∧ ∀ step ∈ state.serve platform retries request,
      PresentThroughout platform retries name user step.1 requests))

def Request.isLockout : Request → Bool
  | .logout _ | .treeConnect .. => true
  | _ => false

theorem consecutiveFailures_snoc (events : List LoginEvent) (event : LoginEvent) :
    consecutiveFailures (events ++ [event]) =
      match event with
      | .failure => consecutiveFailures events + 1
      | .reset => 0
      | .other => consecutiveFailures events := by
  cases event <;> simp [consecutiveFailures]

/-- The record tells how many failures there were, up to eleven. -/
structure CountsFailures (failures : Nat) (record : User) : Prop where
  flag : testFlag record.flags UserFlag.delaySession = true ↔ 11 ≤ failures
  count : record.failedLoginCount = min 10 failures

namespace CountsFailures
variable {failures : Nat} {record : User}

theorem congr {other : User} (counts : CountsFailures failures record)
    (count : other.failedLoginCount = record.failedLoginCount) (flags : other.flags = record.flags) :
    CountsFailures failures other := ⟨by rw [flags]; exact counts.flag, by rw [count]; exact counts.count⟩

theorem failed {flags : UInt32} (bad : testFlag flags UserFlag.badPassword = true)
    (counts : CountsFailures failures record) : CountsFailures (failures + 1) (State.countLogout flags record) := by
  obtain ⟨flag, count⟩ := counts
  rw [State.countLogout, if_pos bad]
  split
  next few =>
    refine ⟨?_, ?_⟩
    · show testFlag record.flags _ = true ↔ _
      rw [flag]
      omega
    · show record.failedLoginCount + 1 = _
      omega
  next many =>
    refine ⟨?_, ?_⟩
    · rw [iff_true_left (testFlag_setFlag_self (by decide))]
      omega
    · show record.failedLoginCount = _
      omega

theorem forgotten (record : User) :
    CountsFailures 0 { record with failedLoginCount := 0, flags := clearFlag record.flags UserFlag.delaySession } :=
  ⟨iff_of_false (by rw [testFlag_clearFlag_self]; exact Bool.false_ne_true) (by decide), rfl⟩

end CountsFailures

section Run
variable {platform} {state after : State} {name : CStr} {user : Ref User}

theorem UsersKeyed.modify (keyed : UsersKeyed state) (target : Ref User) {f : User → User}
    (names : ∀ record, (f record).name = record.name) :
    UsersKeyed { state with users := state.users.modify target f } := by
  intro key other record entry found
  rw [Heap.get?_modify] at found
  split at found
  · obtain ⟨old, seen, rfl⟩ := Option.map_eq_some_iff.mp found
    rw [names]
    exact keyed key other old entry seen
  · exact keyed key other record entry found

theorem Present.entry (present : Present name user state) :
    state.usersTable.lookup name = some user ∧ ∃ record, state.users.get? user = some record := by
  unfold Present State.usmLookupUser State.getKsmbdUser at present
  rw [Option.bind_some] at present
  split at present
  · cases present
  next found entry =>
    split at present
    · cases present
    next record seen =>
      split at present <;> cases present
      exact ⟨entry, record, seen⟩

theorem UsersKeyed.other (keyed : UsersKeyed state) {first second : CStr} {one two : Ref User}
    (here : Present first one state) (there : Present second two state) (different : first ≠ second) : one ≠ two := by
  rintro rfl
  obtain ⟨entry, record, seen⟩ := here.entry
  exact different ((keyed first one record entry seen).symm.trans (keyed second one record there.entry.1 seen))

/-- Every record of the user counts the failures among the events. -/
structure Tallied (name : CStr) (user : Ref User) (events : List LoginEvent) (state : State) : Prop where
  keyed : UsersKeyed state
  counts : ∀ record, state.users.get? user = some record → CountsFailures (consecutiveFailures events) record

namespace Tallied
variable {events : List LoginEvent}

theorem kept (tallied : Tallied name user events state) (kept : LoginsKept state after) :
    Tallied name user events after := by
  refine ⟨kept.keyed tallied.keyed, fun record seen => ?_⟩
  obtain ⟨old, known, -, count, flags⟩ := kept.record user record seen
  exact (tallied.counts old known).congr count flags

theorem changed {f : User → User} {event : LoginEvent} (tallied : Tallied name user events state)
    (names : ∀ record, (f record).name = record.name)
    (counts : ∀ record, CountsFailures (consecutiveFailures events) record →
      CountsFailures (consecutiveFailures (events ++ [event])) (f record)) :
    Tallied name user (events ++ [event]) { state with users := state.users.modify user f } := by
  refine ⟨tallied.keyed.modify user names, fun record seen => ?_⟩
  rw [Heap.get?_modify_self] at seen
  obtain ⟨old, known, rfl⟩ := Option.map_eq_some_iff.mp seen
  exact counts old (tallied.counts old known)

theorem others {f : User → User} {target : Ref User} (tallied : Tallied name user events state)
    (names : ∀ record, (f record).name = record.name) (different : user ≠ target) :
    Tallied name user events { state with users := state.users.modify target f } := by
  refine ⟨tallied.keyed.modify target names, fun record seen => ?_⟩
  rw [Heap.get?_modify_ne different] at seen
  exact tallied.counts record seen

theorem idle (tallied : Tallied name user events state) : Tallied name user (events ++ [.other]) state :=
  ⟨tallied.keyed, by rw [consecutiveFailures_snoc]; exact tallied.counts⟩

theorem logout {req : LogoutRequest} (tallied : Tallied name user events state) (here : Present name user state) :
    Tallied name user (events ++ [loginEvent platform name state (.logout req)]) (state.usmHandleLogoutRequest req) := by
  have names (record : User) : (State.countLogout req.accountFlags record).name = record.name := by
    unfold State.countLogout
    split
    · split <;> rfl
    · rfl
  simp only [loginEvent]
  cases terminated : req.account.terminated with
  | false => exact tallied.idle.kept (State.usmHandleLogoutRequest_unknown (by rw [terminated]; rfl))
  | true =>
    by_cases same : req.account.str = name
    · have known : (state.usmLookupUser (some req.account.str)).2 = some user := by rw [same]; exact here
      rw [same, beq_self_eq_true, Bool.true_and, if_pos rfl]
      refine (tallied.changed names fun record counts => ?_).kept (State.usmHandleLogoutRequest_logins terminated known)
      rw [consecutiveFailures_snoc]
      cases bad : testFlag req.accountFlags UserFlag.badPassword with
      | true => exact counts.failed bad
      | false =>
        rw [State.countLogout, bad]
        exact .forgotten record
    · rw [beq_false_of_ne same, Bool.and_false, if_neg Bool.false_ne_true]
      cases known : (state.usmLookupUser (some req.account.str)).2 with
      | none => exact tallied.idle.kept (State.usmHandleLogoutRequest_unknown (by rw [known, terminated]; rfl))
      | some target =>
        have different : user ≠ target := tallied.keyed.other here known (Ne.symm same)
        exact (tallied.idle.others names different).kept (State.usmHandleLogoutRequest_logins terminated known)

theorem connect {memory : Memory} {req : TreeConnectRequest} (tallied : Tallied name user events state)
    (here : Present name user state) (forgets : ForgetsLogins (accountLookedUp platform state memory req) state after) :
    Tallied name user (events ++ [loginEvent platform name state (.treeConnect memory req)]) after := by
  simp only [loginEvent]
  cases looks : looksUpAccount platform state memory req with
  | false =>
    rw [accountLookedUp, looks] at forgets
    exact tallied.idle.kept forgets
  | true =>
    rw [accountLookedUp, looks, if_pos rfl] at forgets
    by_cases same : req.account.str = name
    · rw [same, show (state.usmLookupUser (some name)).2 = some user from here] at forgets
      rw [same, beq_self_eq_true, Bool.true_and, if_pos rfl]
      have fresh : Tallied name user (events ++ [.reset]) (state.resetFailedLogins user) := by
        refine tallied.changed (fun _ => rfl) fun record _ => ?_
        rw [consecutiveFailures_snoc]
        exact .forgotten record
      exact fresh.kept forgets
    · rw [beq_false_of_ne same, Bool.and_false, if_neg Bool.false_ne_true]
      cases known : (state.usmLookupUser (some req.account.str)).2 with
      | none =>
        rw [known] at forgets
        exact tallied.idle.kept forgets
      | some target =>
        rw [known] at forgets
        have different : user ≠ target := tallied.keyed.other here known (Ne.symm same)
        have fresh : Tallied name user (events ++ [.other]) (state.resetFailedLogins target) :=
          tallied.idle.others (fun _ => rfl) different
        exact fresh.kept forgets

theorem serve {retries : Nat} {request : Request} {answer : Option TreeConnStatus} (tallied : Tallied name user events state)
    (here : Present name user state) (kind : request.isLockout = true)
    (served : state.serve platform retries request = some (after, answer)) :
    Tallied name user (events ++ [loginEvent platform name state request]) after := by
  cases request with
  | logout req =>
    cases served
    exact tallied.logout here
  | treeConnect memory req =>
    obtain ⟨⟨final, resp⟩, ran, same⟩ := Option.map_eq_some_iff.mp served
    cases same
    exact tallied.connect here (State.tcmHandleTreeConnect_logins ran)
  | login | treeDisconnect | reload => cases kind

end Tallied

theorem serve_returns {retries : Nat} {request : Request} (kind : request.isLockout = true) (sound : SessionsSound state) :
    ReturnsSound (state.serve platform (retries + 1) request) := by
  cases request with
  | logout req => exact ⟨_, _, rfl, (state.usmHandleLogoutRequest_only req).sameSessions.sound sound⟩
  | treeConnect memory req =>
    obtain ⟨after, resp, ran, sound⟩ := @State.tcmHandleTreeConnect_returns platform state memory retries req sound
    exact ⟨after, some resp.status, by simp [State.serve, ran], sound⟩
  | login | treeDisconnect | reload => cases kind

theorem run_tallied {retries : Nat} {requests : List Request} {events : List LoginEvent}
    (kinds : ∀ request ∈ requests, request.isLockout = true) (sound : SessionsSound state)
    (tallied : Tallied name user events state)
    (present : PresentThroughout platform (retries + 1) name user state requests) :
    ∃ final written, state.runWith platform (fun state request _ events =>
        events ++ [loginEvent platform name state request]) (retries + 1) events requests = some (final, written) ∧
      Present name user final ∧ Tallied name user written final := by
  induction requests generalizing state events with
  | nil => exact ⟨state, events, rfl, present, tallied⟩
  | cons request requests ih =>
    obtain ⟨kind, others⟩ := List.forall_mem_cons.mp kinds
    obtain ⟨next, answer, served, sound⟩ := @serve_returns platform state retries request kind sound
    obtain ⟨final, written, ran, kept⟩ :=
      ih others sound (tallied.serve present.1 kind served) (present.2 (next, answer) served)
    exact ⟨final, written, by rw [State.runWith, served]; exact ran, kept⟩

end Run

/-- Every history of logouts and tree connects through which the user is found under the name is served to its end.
Sessions are then delayed exactly after eleven failures since the last reset, and the count is that of the failures up
to ten. -/
theorem delay_session_counts_failures (retries : Nat) (name : CStr) (user : Ref User) (start : State)
    (requests : List Request) (consistent : Consistent platform start) (keyed : UsersKeyed start)
    (fresh : ∀ record, start.users.get? user = some record →
      testFlag record.flags UserFlag.delaySession = false ∧ record.failedLoginCount = 0)
    (kinds : ∀ request ∈ requests, request.isLockout = true)
    (present : PresentThroughout platform (retries + 1) name user start requests) :
    ∃ final events record,
      start.runWith platform (fun state request _ events => events ++ [loginEvent platform name state request]) (retries + 1)
        [] requests = some (final, events) ∧
      final.users.get? user = some record ∧
      (testFlag record.flags UserFlag.delaySession = true ↔ 11 ≤ consecutiveFailures events) ∧
      record.failedLoginCount = min 10 (consecutiveFailures events) := by
  have begins : Tallied name user [] start := by
    refine ⟨keyed, fun record seen => ?_⟩
    obtain ⟨flag, count⟩ := fresh record seen
    exact ⟨iff_of_false (by rw [flag]; exact Bool.false_ne_true) (by decide), count⟩
  obtain ⟨final, events, ran, there, tallied⟩ := run_tallied kinds consistent.sessions begins present
  obtain ⟨-, record, seen⟩ := there.entry
  exact ⟨final, events, record, ran, seen, (tallied.counts record seen).flag, (tallied.counts record seen).count⟩

namespace Scenario

def badLogout : Request := .logout { account := .ofStr 256 account, accountFlags := UserFlag.badPassword }

def oneShare : State := loaded { name := shareName }

theorem oneShare_keyed : UsersKeyed oneShare := by
  intro name user record entry held
  have entries : ∀ entry ∈ oneShare.usersTable.entries, ∀ record ∈ oneShare.users.get? entry.2, record.name = entry.1 := by
    decide +kernel
  exact entries ⟨name, user⟩ (AList.mem_lookup_iff.mp entry) record held

/-- Three failures, a tree connect that looks the account up, and eleven more. -/
def lockedOut : List Request :=
  List.replicate 3 badLogout ++ .treeConnect {} (connect 7 1) :: List.replicate 11 badLogout

/-- The tree connect resets the count, and the failures behind it delay the sessions of the account. -/
theorem delay_session_eleven :
    ∃ final events record,
      oneShare.runWith plainPlatform (fun state request _ events =>
        events ++ [loginEvent plainPlatform account state request]) 1 [] lockedOut = some (final, events) ∧
      events = List.replicate 3 .failure ++ .reset :: List.replicate 11 .failure ∧
      final.users.get? ⟨0⟩ = some record ∧
      (testFlag record.flags UserFlag.delaySession = true ↔ 11 ≤ consecutiveFailures events) ∧
      record.failedLoginCount = min 10 (consecutiveFailures events) := by
  have fresh : ∀ record ∈ oneShare.users.get? ⟨0⟩,
      testFlag record.flags UserFlag.delaySession = false ∧ record.failedLoginCount = 0 := by decide +kernel
  obtain ⟨final, events, record, ran, counted⟩ := delay_session_counts_failures plainPlatform 0 account
    ⟨0⟩ oneShare lockedOut (loaded_consistent _) oneShare_keyed fresh (by decide +kernel) (by decide +kernel)
  refine ⟨final, events, record, ran, ?_, counted⟩
  have written : (oneShare.runWith plainPlatform
      (fun state request _ events => events ++ [loginEvent plainPlatform account state request]) 1 [] lockedOut).map
      (fun result => result.2) = some (List.replicate 3 .failure ++ .reset :: List.replicate 11 .failure) := by
    decide +kernel
  rw [ran] at written
  exact Option.some.inj written

end Scenario

end KsmbdTools.Management
