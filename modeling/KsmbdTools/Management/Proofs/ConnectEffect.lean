import KsmbdTools.Management.Proofs.Counting
import KsmbdTools.Management.Proofs.UserMoves

/-! Everything a tree connect can do to a sound state, said once. The results
about request histories are case analyses over `ConnectEffect`. -/

namespace KsmbdTools.Management
variable (platform : Platform)

namespace OnlyUsers

theorem withShare {before after : State} (only : OnlyUsers before after) (share : Ref Share) (change : Share → Share) :
    OnlyUsers (before.withShare share change) (after.withShare share change) :=
  ⟨only.globalConf, only.reloading, by simp only [State.withShare, only.shares], only.sharesTable, only.sessions,
    only.sessionsTable⟩

theorem withSession {before after : State} (only : OnlyUsers before after) (sess : Ref Session)
    (change : Session → Session) : OnlyUsers (before.withSession sess change) (after.withSession sess change) :=
  ⟨only.globalConf, only.reloading, only.shares, only.sharesTable, by simp only [State.withSession, only.sessions],
    only.sessionsTable⟩

theorem withNewSession {before after : State} (only : OnlyUsers before after) (id : UInt64) (user : Option (Ref User))
    (conn : TreeConn) : OnlyUsers (before.withNewSession id user conn) (after.withNewSession id user conn) :=
  ⟨only.globalConf, only.reloading, only.shares, only.sharesTable, by simp only [State.withNewSession, only.sessions],
    by simp only [State.withNewSession, only.sessions, only.sessionsTable]⟩

end OnlyUsers

def openShare (record : Share) : Share :=
  { record with refCount := record.refCount + 1, numConnections := record.numConnections + 1 }

def bindShare (record : Share) : Share :=
  { openShare record with flags := clearFlag record.flags ShareFlag.update }

def joinSession (conn : TreeConn) (record : Session) : Session :=
  { record with refCounter := record.refCounter + 1, treeConns := record.treeConns ++ [conn] }

def TreeConnectRequest.conn (req : TreeConnectRequest) (share : Ref Share) (flags : UInt32) : TreeConn :=
  { id := req.connectId, share := some share, flags }

def shareFull (record : Share) : Prop := record.maxConnections ≠ 0 ∧ record.maxConnections ≤ record.numConnections

instance (record : Share) : Decidable (shareFull record) := inferInstanceAs (Decidable (_ ∧ _))

def connectsAsGuest (state : State) (req : TreeConnectRequest) (record : Share) : Bool :=
  guestRequested req && (state.lookupGuest record).2.isSome

def connectUser (state : State) (req : TreeConnectRequest) (record : Share) : Option (Ref User) :=
  if connectsAsGuest state req record then (state.lookupGuest record).2
  else (state.usmLookupUser (some req.account.str)).2

/-- Does an admitted connect reach `bind` without `sm_check_sessions_capacity`? -/
def skipsCapacityCheck (state : State) (req : TreeConnectRequest) (record : Share) : Bool :=
  connectsAsGuest state req record ||
    match admitUser record req.account.str 0 with
    | .bind _ => true
    | _ => false

/-- The connect passes every check up to the capacity check, for this share and
this account. -/
structure Admitted (state : State) (req : TreeConnectRequest) (share : Ref Share) (record : Share) (user : Ref User) :
    Prop where
  accepted : refuseRequest state.globalConf req = none
  known : state.sharesTable.lookup (shmCasefoldShareName platform req.share.str) = some share
  found : state.shares.get? share = some record
  room : ¬shareFull record
  peer : refusePeer platform state.globalConf record req = none
  account : connectUser state req record = some user
  maps : connectsAsGuest state req record = false → admitUser record req.account.str 0 ≠ .refuse

namespace State

def spendCapacity (state : State) (checked : Bool) : State :=
  { state with globalConf := { state.globalConf with
    sessionsCap := if checked then state.globalConf.sessionsCap - 1 else state.globalConf.sessionsCap } }

end State

inductive ConnectEffect (state : State) (memory : Memory) (req : TreeConnectRequest) :
    State → TreeConnectResponse → Prop where
  | refused {after resp} (status : resp.status ≠ .ok) (only : OnlyUsers state after) (users : UsersMove state after 0) :
    ConnectEffect state memory req after resp
  | full {share record} (allocated : memory.conn = true) (accepted : refuseRequest state.globalConf req = none)
    (known : state.sharesTable.lookup (shmCasefoldShareName platform req.share.str) = some share)
    (found : state.shares.get? share = some record) (full : shareFull record) :
    ConnectEffect state memory req (state.withShare share State.closeConnection) { status := .tooManyConns }
  | joined {share record sess after resp} (user : Ref User) (flags : UInt32) (status : resp.status = .ok)
    (admitted : Admitted platform state req share record user)
    (session : state.sessionsTable.lookup req.sessionId = some sess)
    (only : OnlyUsers ((state.withShare share bindShare).withSession sess (joinSession (req.conn share flags))) after)
    (users : UsersMove state after (reference user)) :
    ConnectEffect state memory req after resp
  | opened {share record after resp} (user : Ref User) (flags : UInt32) (status : resp.status = .ok)
    (admitted : Admitted platform state req share record user)
    (fresh : state.sessionsTable.lookup req.sessionId = none)
    (capacity : skipsCapacityCheck state req record = false → 1 ≤ state.globalConf.sessionsCap)
    (only : OnlyUsers (((state.withShare share bindShare).spendCapacity
      (!skipsCapacityCheck state req record)).withNewSession req.sessionId (some user) (req.conn share flags)) after)
    (users : UsersMove state after (reference user)) (made : memory.sess = true) :
    ConnectEffect state memory req after resp
  | unallocated {share record user after resp} (failed : memory.sess = false) (status : resp.status ≠ .ok)
    (admitted : Admitted platform state req share record user)
    (fresh : state.sessionsTable.lookup req.sessionId = none) :
    ConnectEffect state memory req after resp

theorem admitUser_bind_iff (record : Share) (account : CStr) (first second : UInt32) :
    (∃ flags, admitUser record account first = .bind flags) ↔ ∃ flags, admitUser record account second = .bind flags := by
  unfold admitUser
  split
  · simp
  · split
    · simp
    · split
      · simp
      · split
        · simp
        · split <;> simp

/-- The share is looked up and counted, and a looked up user is held. -/
structure Holding (state : State) (share : Ref Share) (user : Ref User) (current : State) : Prop where
  only : OnlyUsers (state.withShare share openShare) current
  users : UsersMove state current (reference user)
  live : ∃ record, current.users.get? user = some record ∧ record.refCount ≠ 1

namespace State

theorem lookupGuest_some {state current : State} {record : Share} {user : Ref User}
    (found : state.lookupGuest record = (current, some user)) :
    UsersMove state current (reference user) ∧ ∃ record, current.users.get? user = some record ∧ record.refCount ≠ 1 := by
  unfold lookupGuest at found
  split at found
  next seen => cases found; exact usmLookupUser_some seen
  next missing =>
    obtain rfl := usmLookupUser_none missing
    exact usmLookupUser_some found

theorem lookupGuest_none {state current : State} {record : Share}
    (missing : state.lookupGuest record = (current, none)) : current = state := by
  unfold lookupGuest at missing
  split at missing
  · cases missing
  next first =>
    obtain rfl := usmLookupUser_none first
    exact usmLookupUser_none missing

private theorem getKsmbdUser_withShare (state : State) (share : Ref Share) (change : Share → Share) (user : Ref User) :
    (state.withShare share change).getKsmbdUser user =
      ((state.getKsmbdUser user).1.withShare share change, (state.getKsmbdUser user).2) := by
  unfold getKsmbdUser
  have same : (state.withShare share change).users = state.users := rfl
  rw [same]
  cases state.users.get? user with
  | none => rfl
  | some record =>
    by_cases zero : record.refCount = 0
    · simp [zero]
    · simp [zero, withShare]

theorem usmLookupUser_withShare (state : State) (share : Ref Share) (change : Share → Share)
    (name : Option CStr) :
    (state.withShare share change).usmLookupUser name =
      ((state.usmLookupUser name).1.withShare share change, (state.usmLookupUser name).2) := by
  unfold usmLookupUser
  have same : (state.withShare share change).usersTable = state.usersTable := rfl
  rw [same]
  cases name.bind (AList.lookup · state.usersTable) with
  | none => rfl
  | some user => exact getKsmbdUser_withShare state share change user

theorem lookupGuest_withShare (state : State) (share : Ref Share) (change : Share → Share) (record : Share) :
    ((state.withShare share change).lookupGuest record).2 = (state.lookupGuest record).2 := by
  unfold lookupGuest
  rw [usmLookupUser_withShare]
  cases looked : state.usmLookupUser record.guestAccount with
  | mk current found =>
    cases found with
    | some user => rfl
    | none =>
      obtain rfl := usmLookupUser_none looked
      have second := usmLookupUser_withShare current share change current.globalConf.guestAccount
      change ((current.withShare share change).usmLookupUser current.globalConf.guestAccount).2 = _
      rw [second]

private theorem release_openShare {record : Share} (counted : 0 ≤ record.numConnections) :
    { closeConnection (openShare record) with refCount := (closeConnection (openShare record)).refCount - 1 } = record := by
  have positive : 0 < record.numConnections + 1 := by omega
  simp [closeConnection, openShare, positive]

theorem outError_opened {state current : State} (sound : SharesSound state) {share : Ref Share} {record : Share}
    (found : state.shares.get? share = some record) (only : OnlyUsers (state.withShare share openShare) current)
    (user : Option (Ref User)) :
    ∃ released, current.outError platform { share := some share, user } = released.putKsmbdUser user ∧
      OnlyUsers state released ∧ released.users = current.users ∧ released.usersTable = current.usersTable := by
  have positive := sound.held share record found
  have opened : current.shares.get? share = some (openShare record) := by
    rw [only.shares]
    simp [withShare, found]
  have shared : (openShare record).refCount ≠ 1 := by
    simp only [openShare]
    omega
  refine ⟨_, outError_share platform opened shared user, ?_, rfl, rfl⟩
  refine ⟨only.globalConf, only.reloading, ?_, only.sharesTable, only.sessions, only.sessionsTable⟩
  change current.shares.modify share _ = state.shares
  rw [only.shares]
  simp only [withShare, Heap.modify_modify]
  apply Heap.modify_eq_self
  intro value seen
  obtain rfl : record = value := by rw [found] at seen; exact Option.some.inj seen
  exact release_openShare (sound.counted share record found)

theorem refuse_holding {state current : State} (sound : SharesSound state) {share : Ref Share} {record : Share}
    (found : state.shares.get? share = some record) {user : Ref User} (holding : Holding state share user current)
    (memory : Memory) (req : TreeConnectRequest) {status : TreeConnStatus} (refused : status ≠ .ok) :
    ∃ after resp, current.refuse platform { share := some share, user := some user } status = some (after, resp) ∧
      ConnectEffect platform state memory req after resp := by
  obtain ⟨released, exit, only, sameUsers, sameTable⟩ := outError_opened platform sound found holding.only (some user)
  obtain ⟨live, seen, shared⟩ := holding.live
  refine ⟨_, { status }, rfl, .refused refused ?_ ?_⟩
  · rw [exit]
    exact only.trans (released.putUser_only user)
  · rw [exit]
    have moved : UsersMove state released (reference user) :=
      ⟨sameTable.trans holding.users.table, by rw [sameUsers]; exact holding.users.refs⟩
    have alive : released.users.get? user = some live := by rw [sameUsers]; exact seen
    have balanced := moved.trans (putUser_moves alive shared)
    rw [add_neg_cancel] at balanced
    exact balanced

theorem refuse_opened {state current : State} (sound : SharesSound state) {share : Ref Share} {record : Share}
    (found : state.shares.get? share = some record) (only : OnlyUsers (state.withShare share openShare) current)
    (users : UsersMove state current 0) (memory : Memory) (req : TreeConnectRequest) {status : TreeConnStatus}
    (refused : status ≠ .ok) :
    ∃ after resp, current.refuse platform { share := some share } status = some (after, resp) ∧
      ConnectEffect platform state memory req after resp := by
  obtain ⟨released, exit, kept, sameUsers, sameTable⟩ := outError_opened platform sound found only none
  refine ⟨_, { status }, rfl, .refused refused ?_ ?_⟩
  · rw [exit]
    exact kept
  · rw [exit]
    exact ⟨sameTable.trans users.table, by simpa only [putKsmbdUser, Option.elim_none, sameUsers] using users.refs⟩

private theorem clearUpdate_bindShare (state : State) (share : Ref Share) :
    (state.withShare share openShare).clearShareUpdate share = state.withShare share bindShare := by
  simp only [clearShareUpdate, withShare, Heap.modify_modify]
  rfl

theorem bindTreeConn_known {state current : State} (sound : SessionsSound state) {share : Ref Share} {record : Share}
    {memory : Memory} {req : TreeConnectRequest} {sess : Ref Session} {user : Ref User}
    (admitted : Admitted platform state req share record user)
    (session : state.sessionsTable.lookup req.sessionId = some sess)
    (holding : Holding state share user current) (retries : Nat) (flags : UInt32) :
    ∃ after resp, current.bindTreeConn platform memory (retries + 1) req share user flags = some (after, resp) ∧
      ConnectEffect platform state memory req after resp := by
  have currentSound : SessionsSound current := sound.congr holding.only.sessions holding.only.sessionsTable
  have seen : current.sessionsTable.lookup req.sessionId = some sess := by
    rw [holding.only.sessionsTable]
    exact session
  simp only [bindTreeConn, smHandleTreeConnect_known platform currentSound seen, Option.bind_eq_bind, Option.bind_some,
    ↓reduceIte]
  refine ⟨_, _, rfl, .joined user flags rfl admitted session ?_ ?_⟩
  · have joined := (holding.only.withSession sess (joinSession (req.conn share flags))).withShare share
      fun record => { record with flags := clearFlag record.flags ShareFlag.update }
    rw [← clearUpdate_bindShare]
    exact joined
  · exact ⟨holding.users.table, holding.users.refs⟩

theorem bindTreeConn_unknown {state current : State} {share : Ref Share} {record : Share}
    {memory : Memory} {req : TreeConnectRequest} {user : Ref User}
    (admitted : Admitted platform state req share record user)
    (fresh : state.sessionsTable.lookup req.sessionId = none)
    (capacity : skipsCapacityCheck state req record = false → 1 ≤ state.globalConf.sessionsCap)
    (only : OnlyUsers ((state.withShare share openShare).spendCapacity (!skipsCapacityCheck state req record)) current)
    (users : UsersMove state current (reference user)) (retries : Nat) (flags : UInt32) :
    ∃ after resp, current.bindTreeConn platform memory (retries + 1) req share user flags = some (after, resp) ∧
      ConnectEffect platform state memory req after resp := by
  have unknown : current.sessionsTable.lookup req.sessionId = none := by
    rw [only.sessionsTable]
    exact fresh
  cases allocated : memory.sess with
  | false =>
    simp only [bindTreeConn, smHandleTreeConnect_unallocated platform unknown allocated, Option.bind_eq_bind,
      Option.bind_some, Bool.false_eq_true, ↓reduceIte]
    exact ⟨_, _, rfl, .unallocated allocated (by simp) admitted fresh⟩
  | true =>
    simp only [bindTreeConn, smHandleTreeConnect_unknown platform unknown allocated, Option.bind_eq_bind,
      Option.bind_some, ↓reduceIte]
    refine ⟨_, _, rfl, .opened user flags rfl admitted fresh capacity ?_ ?_ allocated⟩
    · have made := (only.withNewSession req.sessionId (some user) (req.conn share flags)).withShare share
        fun record => { record with flags := clearFlag record.flags ShareFlag.update }
      rw [← clearUpdate_bindShare]
      exact made
    · exact ⟨users.table, users.refs⟩

theorem skipsCapacityCheck_bind {state : State} {req : TreeConnectRequest} {record : Share} {first second : UInt32}
    (admitted : admitUser record req.account.str first = .bind second) : skipsCapacityCheck state req record = true := by
  obtain ⟨flags, bound⟩ := (admitUser_bind_iff record req.account.str first 0).mp ⟨second, admitted⟩
  simp [skipsCapacityCheck, bound]

theorem skipsCapacityCheck_account {state : State} {req : TreeConnectRequest} {record : Share} {first second : UInt32}
    (account : connectsAsGuest state req record = false)
    (admitted : admitUser record req.account.str first = .bindWithinCapacity second) :
    skipsCapacityCheck state req record = false := by
  rw [skipsCapacityCheck, account, Bool.false_or]
  split
  next flags bound =>
    obtain ⟨other, contrary⟩ := (admitUser_bind_iff record req.account.str 0 first).mp ⟨flags, bound⟩
    rw [admitted] at contrary
    cases contrary
  · rfl

theorem bindTreeConn_unchecked {state current : State} (sound : SessionsSound state) {share : Ref Share} {record : Share}
    {memory : Memory} {req : TreeConnectRequest} {user : Ref User}
    (admitted : Admitted platform state req share record user)
    (skips : skipsCapacityCheck state req record = true) (holding : Holding state share user current)
    (retries : Nat) (flags : UInt32) :
    ∃ after resp, current.bindTreeConn platform memory (retries + 1) req share user flags = some (after, resp) ∧
      ConnectEffect platform state memory req after resp := by
  cases session : state.sessionsTable.lookup req.sessionId with
  | some sess => exact bindTreeConn_known platform sound admitted session holding retries flags
  | none =>
    refine bindTreeConn_unknown platform admitted session (by simp [skips]) ?_ holding.users retries flags
    rw [skips]
    exact holding.only

theorem connectAccount_checked {state current : State} (shares : SharesSound state) (sessions : SessionsSound state)
    {share : Ref Share} {record : Share} {memory : Memory} {req : TreeConnectRequest} {user : Ref User}
    (admitted : Admitted platform state req share record user)
    (checks : skipsCapacityCheck state req record = false) (holding : Holding state share user current)
    (retries : Nat) (flags : UInt32) :
    ∃ after resp, (do
      let (state, room) ← current.smCheckSessionsCapacity platform req.sessionId
      if room then state.bindTreeConn platform memory (retries + 1) req share user flags
      else state.refuse platform { share := some share, user := some user } .tooManySessions) = some (after, resp) ∧
      ConnectEffect platform state memory req after resp := by
  have currentSound : SessionsSound current := sessions.congr holding.only.sessions holding.only.sessionsTable
  cases session : state.sessionsTable.lookup req.sessionId with
  | some sess =>
    have seen : current.sessionsTable.lookup req.sessionId = some sess := by
      rw [holding.only.sessionsTable]
      exact session
    simp only [smCheckSessionsCapacity_known platform currentSound seen, Option.bind_eq_bind, Option.bind_some, ↓reduceIte]
    exact bindTreeConn_known platform sessions admitted session holding retries flags
  | none =>
    have unseen : current.sessionsTable.lookup req.sessionId = none := by
      rw [holding.only.sessionsTable]
      exact session
    have conf : current.globalConf = state.globalConf := holding.only.globalConf
    by_cases exhausted : state.globalConf.sessionsCap < 1
    · simp only [smCheckSessionsCapacity, smLookupSession_none unseen, Option.bind_eq_bind, Option.bind_some, conf,
        exhausted, ↓reduceIte, Bool.false_eq_true]
      exact refuse_holding platform shares admitted.found holding memory req (by decide)
    · simp only [smCheckSessionsCapacity, smLookupSession_none unseen, Option.bind_eq_bind, Option.bind_some, conf,
        exhausted, ↓reduceIte]
      have moved : UsersMove state { current with globalConf := { state.globalConf with
          sessionsCap := state.globalConf.sessionsCap - 1 } } (reference user) :=
        ⟨holding.users.table, holding.users.refs⟩
      refine bindTreeConn_unknown platform admitted session (fun _ => by omega) ?_ moved retries flags
      rw [checks]
      exact ⟨rfl, holding.only.reloading, holding.only.shares, holding.only.sharesTable, holding.only.sessions,
        holding.only.sessionsTable⟩

theorem admitUser_refuse_iff (record : Share) (account : CStr) (first second : UInt32) :
    admitUser record account first = .refuse ↔ admitUser record account second = .refuse := by
  unfold admitUser
  split
  · simp
  · split
    · simp
    · split
      · simp
      · split
        · simp
        · split <;> simp

theorem connectAccount_effect {state : State} (shares : SharesSound state) (sessions : SessionsSound state)
    {share : Ref Share} {record : Share} {req : TreeConnectRequest}
    (accepted : refuseRequest state.globalConf req = none)
    (known : state.sharesTable.lookup (shmCasefoldShareName platform req.share.str) = some share)
    (found : state.shares.get? share = some record) (room : ¬shareFull record)
    (peer : refusePeer platform state.globalConf record req = none)
    (account : connectsAsGuest state req record = false) (memory : Memory) (retries : Nat) :
    ∃ after resp, (state.withShare share openShare).connectAccount platform memory (retries + 1) req share
        { record with refCount := record.refCount + 1 } = some (after, resp) ∧
      ConnectEffect platform state memory req after resp := by
  have kept : UsersMove state (state.withShare share openShare) 0 := ⟨rfl, (UsersMove.refl state).refs⟩
  have looked := (state.withShare share openShare).usmLookupUser_only (some req.account.str)
  have same := usmLookupUser_withShare state share openShare (some req.account.str)
  unfold connectAccount
  split
  next missing =>
    obtain rfl := usmLookupUser_none missing
    exact refuse_opened platform shares found (.refl _) kept memory req (by decide)
  next held user seen =>
    have named : connectUser state req record = some user := by
      have answer : (state.usmLookupUser (some req.account.str)).2 = some user := (congrArg Prod.snd (same.symm.trans seen))
      simp [connectUser, account, answer]
    rw [seen] at looked
    obtain ⟨moved, live, alive, shared⟩ := usmLookupUser_some seen
    -- clearing the failed logins keeps the count that the lookup raised
    have cleared := UsersMove.modify held user (fun record =>
      { record with failedLoginCount := 0, flags := clearFlag record.flags UserFlag.delaySession }) 0 (by simp)
    have still : UsersMove held (held.resetFailedLogins user) 0 := by
      have none : (fun other : Ref User => if other = user then (0 : Int) else 0) = 0 := by funext other; simp
      rw [none] at cleared
      exact cleared
    have holding : Holding state share user (held.resetFailedLogins user) := by
      refine ⟨looked.trans (held.resetFailedLogins_only user), ?_,
        { live with failedLoginCount := 0, flags := clearFlag live.flags UserFlag.delaySession }, ?_, shared⟩
      · simpa using (kept.trans moved).trans still
      · simp [resetFailedLogins, alive]
    have admits {flags : UInt32} (passed : admitUser record req.account.str flags ≠ .refuse) :
        Admitted platform state req share record user :=
      ⟨accepted, known, found, room, peer, named,
        fun _ refused => passed ((admitUser_refuse_iff record req.account.str flags 0).mpr refused)⟩
    dsimp only
    split
    · exact refuse_holding platform shares found holding memory req (by decide)
    next bound =>
      exact bindTreeConn_unchecked platform sessions (admits fun refused => by cases bound.symm.trans refused)
        (skipsCapacityCheck_bind bound) holding retries _
    next bound =>
      exact connectAccount_checked platform shares sessions (admits fun refused => by cases bound.symm.trans refused)
        (skipsCapacityCheck_account account bound) holding retries _

theorem connectShare_effect {state : State} (shares : SharesSound state) (sessions : SessionsSound state)
    {share : Ref Share} {record : Share} {req : TreeConnectRequest}
    (accepted : refuseRequest state.globalConf req = none)
    (known : state.sharesTable.lookup (shmCasefoldShareName platform req.share.str) = some share)
    (found : state.shares.get? share = some record) (room : ¬shareFull record) (memory : Memory) (retries : Nat) :
    ∃ after resp, (state.withShare share openShare).connectShare platform memory (retries + 1) req share
        { record with refCount := record.refCount + 1 } = some (after, resp) ∧
      ConnectEffect platform state memory req after resp := by
  have kept : UsersMove state (state.withShare share openShare) 0 := ⟨rfl, (UsersMove.refl state).refs⟩
  have guest := lookupGuest_withShare state share openShare record
  unfold connectShare
  split
  next status refusal =>
    have refused : status ≠ .ok := by
      rintro rfl
      unfold refusePeer at refusal
      split at refusal
      · cases refusal
      · split at refusal <;> cases refusal
    exact refuse_opened platform shares found (.refl _) kept memory req refused
  next peer =>
    split
    next requested =>
      have only := (state.withShare share openShare).lookupGuest_only { record with refCount := record.refCount + 1 }
      split
      next current user seen =>
        rw [seen] at only
        obtain ⟨moved, live⟩ := lookupGuest_some seen
        have answer : (state.lookupGuest record).2 = some user := by
          rw [← guest]
          exact congrArg Prod.snd seen
        have asGuest : connectsAsGuest state req record = true := by simp [connectsAsGuest, requested, answer]
        have admitted : Admitted platform state req share record user :=
          ⟨accepted, known, found, room, peer, by simp [connectUser, asGuest, answer], by simp [asGuest]⟩
        have held : Holding state share user current := ⟨only, by simpa using kept.trans moved, live⟩
        exact bindTreeConn_unchecked platform sessions admitted (by simp [skipsCapacityCheck, asGuest]) held retries _
      next current missing =>
        obtain rfl := lookupGuest_none missing
        have absent : (state.lookupGuest record).2 = none := by
          rw [← guest]
          exact congrArg Prod.snd missing
        exact connectAccount_effect platform shares sessions accepted known found room peer
          (by simp [connectsAsGuest, absent]) memory retries
    next account =>
      exact connectAccount_effect platform shares sessions accepted known found room peer
        (by simp [connectsAsGuest, account]) memory retries

private theorem shmOpenConnection_full {state : State} {share : Ref Share} {record : Share}
    (found : state.shares.get? share = some record)
    (full : record.maxConnections ≠ 0 ∧ record.maxConnections ≤ record.numConnections) :
    state.shmOpenConnection share = (state, false) := by
  simp [shmOpenConnection, found, full]

theorem shmOpenConnection_room {state : State} {share : Ref Share} {record : Share}
    (found : state.shares.get? share = some record)
    (room : ¬(record.maxConnections ≠ 0 ∧ record.maxConnections ≤ record.numConnections)) :
    state.shmOpenConnection share =
      (state.withShare share fun record => { record with numConnections := record.numConnections + 1 }, true) := by
  simp only [shmOpenConnection, found, if_neg room]
  rfl

theorem open_lookup (state : State) (share : Ref Share) :
    (state.withShare share fun record => { record with refCount := record.refCount + 1 }).withShare share
      (fun record => { record with numConnections := record.numConnections + 1 }) = state.withShare share openShare := by
  simp only [withShare, Heap.modify_modify]
  rfl

/-- The exit of a full share takes back the lookup's reference and also closes a
connection that was never counted. -/
private theorem release_lookup (state : State) (share : Ref Share) :
    ((state.withShare share fun record => { record with refCount := record.refCount + 1 }).withShare share fun record =>
      { closeConnection record with refCount := (closeConnection record).refCount - 1 }).putKsmbdUser none =
      state.withShare share closeConnection := by
  simp only [withShare, Heap.modify_modify, putKsmbdUser, Option.elim_none]
  congr 2
  funext record
  simp only [Function.comp_apply, closeConnection]
  split <;> simp

theorem tcmHandleTreeConnect_effect {state : State} (shares : SharesSound state) (sessions : SessionsSound state)
    (memory : Memory) (req : TreeConnectRequest) (retries : Nat) :
    ∃ after resp, state.tcmHandleTreeConnect platform memory (retries + 1) req = some (after, resp) ∧
      ConnectEffect platform state memory req after resp := by
  have unchanged {status : TreeConnStatus} (refused : status ≠ .ok) :
      ConnectEffect platform state memory req state { status } := .refused refused (.refl state) (.refl state)
  unfold tcmHandleTreeConnect
  split
  · exact ⟨state, _, rfl, unchanged (by decide)⟩
  next allocated =>
    split
    next status refusal =>
      refine ⟨state, _, rfl, unchanged ?_⟩
      rintro rfl
      unfold refuseRequest at refusal
      split at refusal
      · cases refusal
      · split at refusal <;> cases refusal
    next accepted =>
      cases known : state.sharesTable.lookup (shmCasefoldShareName platform req.share.str) with
      | none =>
        rw [shmLookupShare_none platform known]
        exact ⟨state, _, rfl, unchanged (by decide)⟩
      | some share =>
        obtain ⟨record, found⟩ := shares.tabled _ _ known
        have positive := shares.held share record found
        have held : (state.withShare share fun record => { record with refCount := record.refCount + 1 }).shares.get? share =
            some { record with refCount := record.refCount + 1 } := by simp [withShare, found]
        rw [shmLookupShare_some platform shares known]
        simp only [held]
        by_cases full : shareFull record
        · have refused := shmOpenConnection_full held full
          have shared : record.refCount + 1 ≠ 1 := by omega
          simp only [refused, refuse, outError_share platform held shared]
          refine ⟨_, _, rfl, ?_⟩
          rw [release_lookup]
          exact .full (by simpa using allocated) accepted known found full
        · have counted := shmOpenConnection_room held full
          simp only [counted]
          rw [open_lookup]
          exact connectShare_effect platform shares sessions accepted known found full memory retries

end State

end KsmbdTools.Management
