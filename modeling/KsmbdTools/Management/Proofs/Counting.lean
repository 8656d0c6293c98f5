import KsmbdTools.Management.Proofs.UserFrames

/-! What one share or session operation does to a table whose entries are live
and whose live records are held. -/

namespace KsmbdTools.Management
variable (platform : Platform)

structure SharesSound (state : State) : Prop where
  tabled : ∀ key share, state.sharesTable.lookup key = some share → state.shares.Live share
  held : ∀ share record, state.shares.get? share = some record → 0 < record.refCount
  counted : ∀ share record, state.shares.get? share = some record → 0 ≤ record.numConnections

structure SessionsSound (state : State) : Prop where
  tabled : ∀ id sess, state.sessionsTable.lookup id = some sess → ∃ record, state.sessions.get? sess = some record ∧
    record.id = id
  listed : ∀ sess record, state.sessions.get? sess = some record → state.sessionsTable.lookup record.id = some sess
  counted : ∀ sess record, state.sessions.get? sess = some record → record.refCounter = record.treeConns.length
  used : ∀ sess record, state.sessions.get? sess = some record → record.treeConns ≠ []

theorem SharesSound.congr {before after : State} (sound : SharesSound before)
    (shares : after.shares = before.shares) (table : after.sharesTable = before.sharesTable) : SharesSound after :=
  ⟨by rw [shares, table]; exact sound.tabled, by rw [shares]; exact sound.held, by rw [shares]; exact sound.counted⟩

theorem SessionsSound.congr {before after : State} (sound : SessionsSound before)
    (sessions : after.sessions = before.sessions) (table : after.sessionsTable = before.sessionsTable) :
    SessionsSound after :=
  ⟨by rw [sessions, table]; exact sound.tabled, by rw [sessions, table]; exact sound.listed,
    by rw [sessions]; exact sound.counted, by rw [sessions]; exact sound.used⟩

theorem SessionsSound.positive {state : State} (sound : SessionsSound state) {sess : Ref Session} {record : Session}
    (found : state.sessions.get? sess = some record) : 0 < record.refCounter := by
  have counted := sound.counted sess record found
  have nonempty := List.length_pos_iff.mpr (sound.used sess record found)
  omega

namespace State

def withShare (state : State) (share : Ref Share) (change : Share → Share) : State :=
  { state with shares := state.shares.modify share change }

def withSession (state : State) (sess : Ref Session) (change : Session → Session) : State :=
  { state with sessions := state.sessions.modify sess change }

theorem shmLookupShare_some {state : State} (sound : SharesSound state) {name : CStr} {share : Ref Share}
    (known : state.sharesTable.lookup (shmCasefoldShareName platform name) = some share) :
    state.shmLookupShare platform name =
      (state.withShare share fun record => { record with refCount := record.refCount + 1 }, some share) := by
  obtain ⟨record, found⟩ := sound.tabled _ _ known
  have positive := sound.held share record found
  have nonzero : record.refCount ≠ 0 := by omega
  simp [shmLookupShare, known, getKsmbdShare, found, nonzero, withShare]

theorem shmLookupShare_none {state : State} {name : CStr}
    (unknown : state.sharesTable.lookup (shmCasefoldShareName platform name) = none) :
    state.shmLookupShare platform name = (state, none) := by
  simp [shmLookupShare, unknown]

theorem putShare_held {state : State} {share : Ref Share} {record : Share}
    (found : state.shares.get? share = some record) (shared : record.refCount ≠ 1) :
    state.putShare platform share =
      state.withShare share fun record => { record with refCount := record.refCount - 1 } := by
  have remaining : record.refCount - 1 ≠ 0 := by omega
  simp [putShare, found, remaining, withShare]

theorem smLookupSession_some {state : State} (sound : SessionsSound state) {id : UInt64} {sess : Ref Session}
    (known : state.sessionsTable.lookup id = some sess) :
    state.smLookupSession id =
      some (state.withSession sess fun record => { record with refCounter := record.refCounter + 1 }, some sess) := by
  obtain ⟨record, found, -⟩ := sound.tabled id sess known
  have positive := sound.positive found
  have nonzero : record.refCounter ≠ 0 := by omega
  simp [smLookupSession, known, getSession, found, nonzero, withSession]

theorem smLookupSession_none {state : State} {id : UInt64} (unknown : state.sessionsTable.lookup id = none) :
    state.smLookupSession id = some (state, none) := by
  simp [smLookupSession, unknown]

theorem putSession_held {state : State} {sess : Ref Session} {record : Session}
    (found : state.sessions.get? sess = some record) (shared : record.refCounter ≠ 1) :
    state.putSession platform sess =
      state.withSession sess fun record => { record with refCounter := record.refCounter - 1 } := by
  have remaining : record.refCounter - 1 ≠ 0 := by omega
  simp [putSession, found, remaining, withSession]

theorem smCheckSessionsCapacity_known {state : State} (sound : SessionsSound state) {id : UInt64} {sess : Ref Session}
    (known : state.sessionsTable.lookup id = some sess) :
    state.smCheckSessionsCapacity platform id = some (state, true) := by
  obtain ⟨record, found, -⟩ := sound.tabled id sess known
  have positive := sound.positive found
  have raised : (state.withSession sess fun record => { record with refCounter := record.refCounter + 1 }).sessions.get?
      sess = some { record with refCounter := record.refCounter + 1 } := by simp [withSession, found]
  have shared : record.refCounter + 1 ≠ 1 := by omega
  simp only [smCheckSessionsCapacity, smLookupSession_some sound known, Option.bind_eq_bind, Option.bind_some,
    putSession_held platform raised shared]
  simp only [withSession, Heap.modify_modify]
  rw [Heap.modify_eq_self (by simp)]

theorem smHandleTreeConnect_known {state : State} (sound : SessionsSound state) {id : UInt64} {sess : Ref Session}
    (known : state.sessionsTable.lookup id = some sess) (memory : Memory) (user : Option (Ref User)) (conn : TreeConn)
    (retries : Nat) :
    state.smHandleTreeConnect platform memory id user conn (retries + 1) =
      some (state.withSession sess fun record =>
        { record with refCounter := record.refCounter + 1, treeConns := record.treeConns ++ [conn] }, true) := by
  simp only [smHandleTreeConnect, smLookupSession_some sound known, Option.bind_eq_bind, Option.bind_some, linkTreeConn,
    withSession, Heap.modify_modify]
  rfl

def withNewSession (state : State) (id : UInt64) (user : Option (Ref User)) (conn : TreeConn) : State :=
  let (sessions, sess) := state.sessions.alloc { id, user, treeConns := [conn], refCounter := 1 }
  { state with sessions, sessionsTable := state.sessionsTable.insert id sess }

theorem smHandleTreeConnect_unknown {state : State} {id : UInt64} (unknown : state.sessionsTable.lookup id = none)
    {memory : Memory} (allocated : memory.sess = true) (user : Option (Ref User)) (conn : TreeConn) (retries : Nat) :
    state.smHandleTreeConnect platform memory id user conn (retries + 1) =
      some (state.withNewSession id user conn, true) := by
  have absent : id ∉ state.sessionsTable := AList.lookup_eq_none.mp unknown
  simp only [smHandleTreeConnect, Option.bind_eq_bind, Option.bind_some, allocated,
    Bool.not_true, Bool.false_eq_true, ↓reduceIte, newKsmbdSession, insertSession, smLookupSession, unknown,
    HashTable.add, absent, not_false_eq_true, decide_true, linkTreeConn, Heap.modify_alloc, withNewSession]
  rfl

theorem smHandleTreeConnect_unallocated {state : State} {id : UInt64} (unknown : state.sessionsTable.lookup id = none)
    {memory : Memory} (failed : memory.sess = false) (user : Option (Ref User)) (conn : TreeConn) (retries : Nat) :
    state.smHandleTreeConnect platform memory id user conn (retries + 1) = some (state, false) := by
  simp [smHandleTreeConnect, smLookupSession_none unknown, failed]

theorem outError_share {state : State} {share : Ref Share} {record : Share}
    (found : state.shares.get? share = some record) (shared : record.refCount ≠ 1) (user : Option (Ref User)) :
    state.outError platform { share := some share, user } =
      (state.withShare share fun record =>
        { closeConnection record with refCount := (closeConnection record).refCount - 1 }).putKsmbdUser user := by
  have closed : (state.withShare share closeConnection).shares.get? share = some (closeConnection record) := by
    simp [withShare, found]
  have kept : (closeConnection record).refCount ≠ 1 := by
    unfold closeConnection
    split <;> exact shared
  have put := putShare_held platform closed kept
  simp only [withShare, Heap.modify_modify] at put ⊢
  simp only [outError, tcmTreeConnFree, shmCloseConnection, putKsmbdShare, Option.elim_none, Option.elim_some, put]
  rfl

end State
end KsmbdTools.Management
