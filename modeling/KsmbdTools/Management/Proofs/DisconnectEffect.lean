import KsmbdTools.Management.Proofs.Consistency

/-! Everything a tree disconnect can do to a consistent state. -/

namespace KsmbdTools.Management
variable (platform : Platform)

def dropShare (record : Share) : Share :=
  { State.closeConnection record with refCount := (State.closeConnection record).refCount - 1 }

/-- One connection to the share goes; a share outside the table goes with its
last one. -/
structure ShareDropped (before after : State) (share : Ref Share) (record : Share) : Prop where
  table : after.sharesTable = before.sharesTable
  shares : after.shares = if record.refCount = 1 then before.shares.free share else before.shares.modify share dropShare
  users : after.users = (if record.refCount = 1 then before.freeUserMaps record.maps else before).users ∧
    after.usersTable = (if record.refCount = 1 then before.freeUserMaps record.maps else before).usersTable

structure SameSessions (before after : State) : Prop where
  globalConf : after.globalConf = before.globalConf
  sessions : after.sessions = before.sessions
  sessionsTable : after.sessionsTable = before.sessionsTable

namespace State

theorem closeConnection_refCount (record : Share) : (closeConnection record).refCount = record.refCount := by
  unfold closeConnection
  split <;> rfl

theorem closeConnection_freeing (record : Share) : (closeConnection record).freeing = record.freeing := by
  unfold closeConnection
  split <;> rfl

theorem closeConnection_maps (record : Share) : (closeConnection record).maps = record.maps := by
  unfold closeConnection
  split <;> rfl

private theorem putUser_users {first second : State} (users : first.users = second.users)
    (table : first.usersTable = second.usersTable) (user : Ref User) :
    (first.putUser user).users = (second.putUser user).users ∧
      (first.putUser user).usersTable = (second.putUser user).usersTable := by
  simp only [putUser, usmRemoveUser, users, table]
  cases (second.users.modify user fun record => { record with refCount := record.refCount - 1 }).get? user with
  | none => exact ⟨rfl, rfl⟩
  | some record =>
    by_cases zero : record.refCount = 0
    · by_cases freeing : record.freeing = true
      · simp [zero, freeing, killKsmbdUser]
      · by_cases named : record.name ∈ second.usersTable <;> simp [zero, freeing, named, killKsmbdUser]
    · simp [zero]

theorem putKsmbdUser_users {first second : State} (users : first.users = second.users)
    (table : first.usersTable = second.usersTable) (user : Option (Ref User)) :
    (first.putKsmbdUser user).users = (second.putKsmbdUser user).users ∧
      (first.putKsmbdUser user).usersTable = (second.putKsmbdUser user).usersTable := by
  cases user with
  | none => exact ⟨users, table⟩
  | some user => exact putUser_users users table user

theorem freeUserMaps_users {first second : State} (users : first.users = second.users)
    (table : first.usersTable = second.usersTable) (maps : ShareMaps) :
    (first.freeUserMaps maps).users = (second.freeUserMaps maps).users ∧
      (first.freeUserMaps maps).usersTable = (second.freeUserMaps maps).usersTable := by
  unfold freeUserMaps
  generalize maps.holders = holders
  induction holders generalizing first second with
  | nil => exact ⟨users, table⟩
  | cons user holders ih => exact ih (putUser_users users table user).1 (putUser_users users table user).2

/-- `tcm_tree_conn_free` on a share that leaves with its last reference only when
it is out of the table. -/
theorem tcmTreeConnFree_drops {state : State} {conn : TreeConn} {share : Ref Share} {record : Share}
    (refers : conn.share = some share) (found : state.shares.get? share = some record)
    (last : record.refCount = 1 → record.freeing = true) :
    ShareDropped state (state.tcmTreeConnFree platform conn) share record ∧
      SameSessions state (state.tcmTreeConnFree platform conn) := by
  have closed : (state.withShare share closeConnection).shares.get? share = some (closeConnection record) := by
    simp [withShare, found]
  have freed : state.tcmTreeConnFree platform conn = (state.withShare share closeConnection).putShare platform share := by
    simp only [tcmTreeConnFree, refers, shmCloseConnection, putKsmbdShare, Option.elim_some]
    rfl
  rw [freed]
  by_cases one : record.refCount = 1
  · have dropped : (state.withShare share dropShare).shares.get? share = some (dropShare record) := by
      simp [withShare, found]
    have zero : (dropShare record).refCount = 0 := by simp [dropShare, closeConnection_refCount, one]
    have retired : (dropShare record).freeing = true := by simp [dropShare, closeConnection_freeing, last one]
    have removed : (state.withShare share closeConnection).putShare platform share =
        (state.withShare share dropShare).killKsmbdShare share := by
      have lowered : (state.withShare share closeConnection).withShare share
          (fun record => { record with refCount := record.refCount - 1 }) = state.withShare share dropShare := by
        simp only [withShare, Heap.modify_modify]
        rfl
      have found : (((state.withShare share closeConnection).shares.modify share
          fun record => { record with refCount := record.refCount - 1 }).get? share) = some (dropShare record) :=
        (congrArg (fun current => current.shares.get? share) lowered).trans dropped
      simp only [putShare, found, zero, ↓reduceIte, shmRemoveShare]
      simp only [retired, ↓reduceIte]
      exact congrArg (fun current => killKsmbdShare current share) lowered
    rw [removed]
    simp only [killKsmbdShare, dropped]
    have only := (state.withShare share dropShare).freeUserMaps_only (dropShare record).maps
    have maps : (dropShare record).maps = record.maps := closeConnection_maps record
    refine ⟨⟨only.sharesTable, ?_, ?_⟩, ⟨only.globalConf, only.sessions, only.sessionsTable⟩⟩
    · rw [only.shares, if_pos one]
      exact Heap.free_modify _ _ _
    · rw [if_pos one, ← maps]
      apply freeUserMaps_users <;> rfl
  · have shared : (closeConnection record).refCount ≠ 1 := by rw [closeConnection_refCount]; exact one
    rw [putShare_held platform closed shared]
    refine ⟨⟨rfl, ?_, ?_⟩, ⟨rfl, rfl, rfl⟩⟩
    · rw [if_neg one]
      simp only [withShare, Heap.modify_modify]
      rfl
    · rw [if_neg one]
      exact ⟨rfl, rfl⟩

end State

def leaveSession (rest : List TreeConn) (record : Session) : Session :=
  { record with treeConns := rest, refCounter := record.refCounter - 1 }

inductive DisconnectEffect (state : State) (sessId connId : UInt64) : State → Prop where
  | unchanged
    (absent : ∀ sess record, state.sessionsTable.lookup sessId = some sess → state.sessions.get? sess = some record →
      ∀ conn ∈ record.treeConns, conn.id ≠ connId) :
    DisconnectEffect state sessId connId state
  | left {sess record front conn back share held after}
    (session : state.sessionsTable.lookup sessId = some sess) (found : state.sessions.get? sess = some record)
    (split : record.treeConns = front ++ conn :: back) (first : ∀ other ∈ front, other.id ≠ connId)
    (matched : conn.id = connId) (remaining : front ++ back ≠ [])
    (refers : conn.share = some share) (located : state.shares.get? share = some held)
    (dropped : ShareDropped state after share held) (globalConf : after.globalConf = state.globalConf)
    (sessions : after.sessions = state.sessions.modify sess (leaveSession (front ++ back)))
    (sessionsTable : after.sessionsTable = state.sessionsTable) :
    DisconnectEffect state sessId connId after
  | closed {sess record conn share held middle after}
    (session : state.sessionsTable.lookup sessId = some sess) (found : state.sessions.get? sess = some record)
    (only : record.treeConns = [conn]) (matched : conn.id = connId)
    (refers : conn.share = some share) (located : state.shares.get? share = some held)
    (dropped : ShareDropped state middle share held) (shares : after.shares = middle.shares)
    (sharesTable : after.sharesTable = middle.sharesTable)
    (user : after.users = (middle.putKsmbdUser record.user).users ∧
      after.usersTable = (middle.putKsmbdUser record.user).usersTable)
    (globalConf : after.globalConf = { state.globalConf with sessionsCap := state.globalConf.sessionsCap + 1 })
    (sessions : after.sessions = state.sessions.free sess)
    (sessionsTable : after.sessionsTable = state.sessionsTable.erase sessId) :
    DisconnectEffect state sessId connId after

theorem find_split {conns : List TreeConn} {connId : UInt64} {conn : TreeConn}
    (seen : conns.find? (·.id == connId) = some conn) :
    ∃ front back, conns = front ++ conn :: back ∧ conns.eraseP (·.id == connId) = front ++ back ∧
      conn.id = connId ∧ ∀ other ∈ front, other.id ≠ connId := by
  obtain ⟨matched, front, back, split, before⟩ := List.find?_eq_some_iff_append.mp seen
  have missed : ∀ other ∈ front, other.id ≠ connId := fun other member => by simpa using before other member
  refine ⟨front, back, split, ?_, by simpa using matched, missed⟩
  rw [split, List.eraseP_append_right _ (fun other member => by simpa using missed other member)]
  simp [matched]

namespace State

private theorem lookup_put {state : State} (sound : SessionsSound state) {sess : Ref Session} {record : Session}
    (found : state.sessions.get? sess = some record) :
    (state.withSession sess fun record => { record with refCounter := record.refCounter + 1 }).putSession platform sess =
      state := by
  have positive := sound.positive found
  have raised : (state.withSession sess fun record => { record with refCounter := record.refCounter + 1 }).sessions.get?
      sess = some { record with refCounter := record.refCounter + 1 } := by simp [withSession, found]
  have shared : record.refCounter + 1 ≠ 1 := by omega
  rw [putSession_held platform raised shared]
  simp only [withSession, Heap.modify_modify]
  rw [Heap.modify_eq_self (by simp)]

private theorem putSession_last {state : State} {sess : Ref Session} {record : Session}
    (found : state.sessions.get? sess = some record) (one : record.refCounter = 1) (none : record.treeConns = [])
    (listed : record.id ∈ state.sessionsTable) :
    ∃ after, state.putSession platform sess = after ∧ after.globalConf = state.globalConf ∧
      after.sessions = state.sessions.free sess ∧ after.sessionsTable = state.sessionsTable.erase record.id ∧
      after.shares = state.shares ∧ after.sharesTable = state.sharesTable ∧
      after.users = (state.putKsmbdUser record.user).users ∧
      after.usersTable = (state.putKsmbdUser record.user).usersTable := by
  have lowered : (state.sessions.modify sess fun record => { record with refCounter := record.refCounter - 1 }).get? sess =
      some { record with refCounter := record.refCounter - 1 } := by simp [found]
  have zero : record.refCounter - 1 = 0 := by omega
  refine ⟨_, rfl, ?_⟩
  simp only [putSession, lowered, zero, ↓reduceIte, smRemoveSession, listed, killKsmbdSession, none, List.foldl_nil]
  have only := putKsmbdUser_only { state with
    sessions := state.sessions.modify sess fun record => { record with refCounter := record.refCounter - 1 }
    sessionsTable := state.sessionsTable.erase record.id } record.user
  refine ⟨only.globalConf, ?_, only.sessionsTable, only.shares, only.sharesTable, ?_⟩
  · rw [only.sessions]
    exact Heap.free_modify _ _ _
  · apply putKsmbdUser_users <;> rfl

private theorem last_retired {state : State} (consistent : Consistent platform state) {sess : Ref Session}
    {record : Session} (found : state.sessions.get? sess = some record) {conn : TreeConn} (member : conn ∈ record.treeConns)
    {share : Ref Share} (refers : conn.share = some share) {held : Share} (located : state.shares.get? share = some held)
    (one : held.refCount = 1) : held.freeing = true := by
  have balanced := consistent.balance share held located
  have connected : 0 < state.connections share := by
    refine (Heap.total_pos_iff _ _).mpr ⟨sess, record, found, ?_⟩
    exact List.countP_pos_iff.mpr ⟨conn, member, by simp [refers]⟩
  apply consistent.retired share held located
  intro inside
  simp only [tableReferences, inside, ↓reduceIte] at balanced
  omega

private theorem put_unlinked {state : State} (consistent : Consistent platform state) {sessId connId : UInt64}
    {sess : Ref Session} {record : Session} (session : state.sessionsTable.lookup sessId = some sess)
    (found : state.sessions.get? sess = some record) (same : record.id = sessId) {front back : List TreeConn}
    {conn : TreeConn} (split : record.treeConns = front ++ conn :: back) (matched : conn.id = connId)
    (first : ∀ other ∈ front, other.id ≠ connId) {unlinked : State} (users : unlinked.users = state.users)
    (usersTable : unlinked.usersTable = state.usersTable) (shares : unlinked.shares = state.shares)
    (sharesTable : unlinked.sharesTable = state.sharesTable) (sessionsTable : unlinked.sessionsTable = state.sessionsTable)
    (sessions : unlinked.sessions = state.sessions.modify sess fun record => { record with treeConns := front ++ back })
    (globalConf : unlinked.globalConf = if (front ++ back).isEmpty then
      { state.globalConf with sessionsCap := state.globalConf.sessionsCap + 1 } else state.globalConf) :
    DisconnectEffect state sessId connId ((unlinked.tcmTreeConnFree platform conn).putSession platform sess) := by
  have member : conn ∈ record.treeConns := by simp [split]
  obtain ⟨share, refers, held, located⟩ := consistent.referred sess record found conn member
  have alive : unlinked.shares.get? share = some held := by rw [shares]; exact located
  obtain ⟨dropped, kept⟩ := tcmTreeConnFree_drops platform refers alive
    (last_retired platform consistent found member refers located)
  have released : ShareDropped state (unlinked.tcmTreeConnFree platform conn) share held :=
    ⟨dropped.table.trans sharesTable, by rw [dropped.shares, shares], by
      split
      next one =>
        have put := freeUserMaps_users users usersTable held.maps
        have given := dropped.users
        rw [if_pos one] at given
        exact ⟨given.1.trans put.1, given.2.trans put.2⟩
      next many =>
        have given := dropped.users
        rw [if_neg many] at given
        exact ⟨given.1.trans users, given.2.trans usersTable⟩⟩
  have counted := consistent.sessions.counted sess record found
  have current : (unlinked.tcmTreeConnFree platform conn).sessions.get? sess =
      some { record with treeConns := front ++ back } := by
    rw [kept.sessions, sessions]
    simp [found]
  rw [split, List.length_append, List.length_cons] at counted
  by_cases rest : front ++ back = []
  · obtain ⟨rfl, rfl⟩ := List.append_eq_nil_iff.mp rest
    have listed : record.id ∈ (unlinked.tcmTreeConnFree platform conn).sessionsTable := by
      rw [kept.sessionsTable, sessionsTable, same]
      exact AList.lookup_isSome.mp (by simp [session])
    obtain ⟨after, put, conf, gone, table, sameShares, sameTable, user⟩ :=
      putSession_last platform current (by simpa using counted) rfl listed
    rw [put]
    refine .closed session found (by simpa using split) matched refers located released sameShares sameTable user ?_ ?_ ?_
    · rw [conf, kept.globalConf, globalConf]
      rfl
    · rw [gone, kept.sessions, sessions]
      exact Heap.free_modify _ _ _
    · rw [table, kept.sessionsTable, sessionsTable]
      exact congrArg (AList.erase · state.sessionsTable) same
  · have several : record.refCounter ≠ 1 := by
      have nonempty := List.length_pos_iff.mpr rest
      rw [List.length_append] at nonempty
      omega
    rw [putSession_held platform current several]
    refine .left session found split first matched rest refers located
      ⟨released.table, released.shares, released.users⟩ ?_ ?_ ?_
    · change (unlinked.tcmTreeConnFree platform conn).globalConf = _
      rw [kept.globalConf, globalConf, if_neg (by simpa using rest)]
    · change (unlinked.tcmTreeConnFree platform conn).sessions.modify sess _ = _
      rw [kept.sessions, sessions, Heap.modify_modify]
      rfl
    · exact kept.sessionsTable.trans sessionsTable

/-- On a consistent state a tree disconnect always answers, with one of the effects. -/
theorem smHandleTreeDisconnect_effect {state : State} (consistent : Consistent platform state) (sessId connId : UInt64) :
    ∃ after, state.smHandleTreeDisconnect platform sessId connId = some after ∧
      DisconnectEffect state sessId connId after := by
  have sound := consistent.sessions
  cases session : state.sessionsTable.lookup sessId with
  | none =>
    refine ⟨state, by simp [smHandleTreeDisconnect, smLookupSession_none session], .unchanged ?_⟩
    intro sess record known
    rw [session] at known
    cases known
  | some sess =>
    obtain ⟨record, found, same⟩ := sound.tabled sessId sess session
    have raised : (state.withSession sess fun record =>
        { record with refCounter := record.refCounter + 1 }).sessions.get? sess =
          some { record with refCounter := record.refCounter + 1 } := by simp [withSession, found]
    simp only [smHandleTreeDisconnect, smLookupSession_some sound session, Option.bind_eq_bind, Option.bind_some,
      unlinkTreeConn, raised]
    cases seen : record.treeConns.find? (·.id == connId) with
    | none =>
      refine ⟨state, by simp only [lookup_put platform sound found], .unchanged ?_⟩
      intro other current known located conn member
      rw [session] at known
      obtain rfl := Option.some.inj known
      rw [found] at located
      obtain rfl := Option.some.inj located
      simpa using List.find?_eq_none.mp seen conn member
    | some conn =>
      obtain ⟨front, back, split, erased, matched, first⟩ := find_split seen
      refine ⟨_, rfl, ?_⟩
      simp only [erased]
      have unlinked : ((state.sessions.modify sess fun record =>
          { record with refCounter := record.refCounter + 1 }).modify sess fun record =>
            { record with treeConns := front ++ back, refCounter := record.refCounter - 1 }) =
          state.sessions.modify sess fun record => { record with treeConns := front ++ back } := by
        rw [Heap.modify_modify]
        congr 1
        funext record
        simp
      by_cases rest : (front ++ back).isEmpty = true
      · rw [if_pos rest]
        exact put_unlinked platform consistent session found same split matched first rfl rfl rfl rfl rfl unlinked
          (by rw [if_pos rest]; rfl)
      · rw [if_neg rest]
        exact put_unlinked platform consistent session found same split matched first rfl rfl rfl rfl rfl unlinked
          (by rw [if_neg rest]; rfl)

end State
end KsmbdTools.Management
