import KsmbdTools.Management.Proofs.ConnectEffect

/-! References of shares and sessions are exactly the table entries and the live
tree connections. Every request keeps this as long as sessions can be allocated. -/

namespace KsmbdTools.Management
variable (platform : Platform)

def Session.connections (record : Session) (share : Ref Share) : Nat := record.treeConns.countP (·.share == some share)

namespace State

def connections (state : State) (share : Ref Share) : Nat := state.sessions.total (·.connections share)

def tableReferences (state : State) (share : Ref Share) : Nat :=
  if share ∈ HashTable.values state.sharesTable then 1 else 0

end State

structure Consistent (state : State) : Prop where
  sessions : SessionsSound state
  shares : SharesSound state
  named : ∀ key share record, state.sharesTable.lookup key = some share → state.shares.get? share = some record →
    shmCasefoldShareName platform record.name = key ∧ record.freeing = false
  retired : ∀ share record, state.shares.get? share = some record → share ∉ HashTable.values state.sharesTable →
    record.freeing = true
  balance : ∀ share record, state.shares.get? share = some record →
    record.refCount = state.tableReferences share + state.connections share
  referred : ∀ sess record, state.sessions.get? sess = some record → ∀ conn ∈ record.treeConns,
    ∃ share, conn.share = some share ∧ state.shares.Live share

namespace Consistent
variable {platform}

theorem congr {before after : State} (consistent : Consistent platform before) (only : OnlyUsers before after) :
    Consistent platform after := by
  refine ⟨consistent.sessions.congr only.sessions only.sessionsTable,
    consistent.shares.congr only.shares only.sharesTable, ?_, ?_, ?_, ?_⟩
  · rw [only.shares, only.sharesTable]; exact consistent.named
  · rw [only.shares, only.sharesTable]; exact consistent.retired
  · simp only [State.tableReferences, State.connections, only.shares, only.sharesTable, only.sessions]
    exact consistent.balance
  · rw [only.sessions, only.shares]; exact consistent.referred

/-- What keeps the references right: every record left is the one of before, and has gained
or lost as many references as its share has connections. -/
theorem moved {state after : State} (consistent : Consistent platform state) (table : after.sharesTable = state.sharesTable)
    (sessions : SessionsSound after)
    (back : ∀ share record, after.shares.get? share = some record → ∃ old, state.shares.get? share = some old ∧
      record.name = old.name ∧ record.freeing = old.freeing ∧ (0 ≤ old.numConnections → 0 ≤ record.numConnections) ∧
      0 < record.refCount ∧ record.refCount + state.connections share = old.refCount + after.connections share)
    (tabled : ∀ key share, state.sharesTable.lookup key = some share → after.shares.Live share)
    (referred : ∀ sess record, after.sessions.get? sess = some record → ∀ conn ∈ record.treeConns,
      ∃ share, conn.share = some share ∧ after.shares.Live share) : Consistent platform after := by
  refine ⟨sessions, ⟨by rwa [table], ?_, ?_⟩, ?_, ?_, ?_, referred⟩
  · intro share record found
    obtain ⟨old, -, -, -, -, positive, -⟩ := back share record found
    exact positive
  · intro share record found
    obtain ⟨old, seen, -, -, counted, -⟩ := back share record found
    exact counted (consistent.shares.counted share old seen)
  · rw [table]
    intro key share record known found
    obtain ⟨old, seen, name, freeing, -⟩ := back share record found
    rw [name, freeing]
    exact consistent.named key share old known seen
  · rw [table]
    intro share record found outside
    obtain ⟨old, seen, -, freeing, -⟩ := back share record found
    rw [freeing]
    exact consistent.retired share old seen outside
  · intro share record found
    obtain ⟨old, seen, -, -, -, -, moved⟩ := back share record found
    have balanced := consistent.balance share old seen
    have same : after.tableReferences share = state.tableReferences share := by rw [State.tableReferences, table]; rfl
    rw [same]
    omega

theorem withShare {state : State} (consistent : Consistent platform state) (share : Ref Share) {change : Share → Share}
    (name : ∀ record, (change record).name = record.name) (freeing : ∀ record, (change record).freeing = record.freeing)
    (refs : ∀ record, (change record).refCount = record.refCount)
    (counted : ∀ record, 0 ≤ record.numConnections → 0 ≤ (change record).numConnections) :
    Consistent platform (state.withShare share change) := by
  have live : ∀ other, state.shares.Live other → (state.withShare share change).shares.Live other := fun _ alive =>
    alive.modify change
  refine consistent.moved rfl (consistent.sessions.congr rfl rfl) ?_
    (fun key other known => live other (consistent.shares.tabled key other known)) ?_
  · intro other record found
    rw [State.withShare, Heap.get?_modify] at found
    split at found
    · obtain ⟨old, seen, rfl⟩ := Option.map_eq_some_iff.mp found
      refine ⟨old, seen, name old, freeing old, counted old, ?_, by rw [refs]; rfl⟩
      rw [refs]
      exact consistent.shares.held other old seen
    · exact ⟨record, found, rfl, rfl, id, consistent.shares.held other record found, rfl⟩
  · intro sess record found conn member
    obtain ⟨other, refers, alive⟩ := consistent.referred sess record found conn member
    exact ⟨other, refers, live other alive⟩

theorem closeConnection {state : State} (consistent : Consistent platform state) (share : Ref Share) :
    Consistent platform (state.withShare share State.closeConnection) := by
  refine consistent.withShare share ?_ ?_ ?_ ?_ <;> intro record <;> simp only [State.closeConnection]
  · split <;> rfl
  · split <;> rfl
  · split <;> rfl
  · intro counted
    split
    · show 0 ≤ record.numConnections - 1
      omega
    · exact counted

theorem attach {state after : State} (consistent : Consistent platform state) {key : CStr} {share : Ref Share}
    (known : state.sharesTable.lookup key = some share) (shares : after.shares = state.shares.modify share bindShare)
    (table : after.sharesTable = state.sharesTable) (sessions : SessionsSound after)
    (connections : ∀ other, after.connections other = state.connections other + if other = share then 1 else 0)
    (referred : ∀ sess record, after.sessions.get? sess = some record → ∀ conn ∈ record.treeConns,
      conn.share = some share ∨ ∃ sess old, state.sessions.get? sess = some old ∧ conn ∈ old.treeConns) :
    Consistent platform after := by
  have live : ∀ other, state.shares.Live other → after.shares.Live other := fun _ alive => shares ▸ alive.modify bindShare
  refine consistent.moved table sessions ?_ (fun key other known => live other (consistent.shares.tabled key other known)) ?_
  · intro other record found
    rw [shares, Heap.get?_modify] at found
    rw [connections other]
    split at found
    next same =>
      obtain ⟨old, seen, rfl⟩ := Option.map_eq_some_iff.mp found
      have positive := consistent.shares.held other old seen
      refine ⟨old, seen, rfl, rfl, ?_, ?_, ?_⟩ <;> simp only [bindShare, openShare, same, ↓reduceIte] <;> omega
    next different =>
      exact ⟨record, found, rfl, rfl, id, consistent.shares.held other record found, by rw [if_neg different]; rfl⟩
  · intro sess record found conn member
    rcases referred sess record found conn member with new | ⟨sess, old, seen, inside⟩
    · exact ⟨share, new, live share (consistent.shares.tabled key share known)⟩
    · obtain ⟨other, refers, alive⟩ := consistent.referred sess old seen conn inside
      exact ⟨other, refers, live other alive⟩

end Consistent

/-! Session tables after one more connection. -/

namespace SessionsSound

theorem join {state : State} (sound : SessionsSound state) (sess : Ref Session) (conn : TreeConn) :
    SessionsSound (state.withSession sess (joinSession conn)) := by
  have back : ∀ other record, (state.withSession sess (joinSession conn)).sessions.get? other = some record →
      ∃ old, state.sessions.get? other = some old ∧ (record = old ∨ record = joinSession conn old) := by
    intro other record found
    rw [State.withSession, Heap.get?_modify] at found
    split at found
    · obtain ⟨old, seen, rfl⟩ := Option.map_eq_some_iff.mp found
      exact ⟨old, seen, .inr rfl⟩
    · exact ⟨record, found, .inl rfl⟩
  refine ⟨?_, ?_, ?_, ?_⟩
  · intro id other known
    obtain ⟨record, found, same⟩ := sound.tabled id other known
    by_cases equal : other = sess
    · exact ⟨joinSession conn record, by simp [State.withSession, ← equal, found], same⟩
    · exact ⟨record, by rw [State.withSession, Heap.get?_modify_ne equal]; exact found, same⟩
  · intro other record found
    obtain ⟨old, seen, rfl | rfl⟩ := back other record found
    · exact sound.listed other record seen
    · exact sound.listed other old seen
  · intro other record found
    obtain ⟨old, seen, rfl | rfl⟩ := back other record found
    · exact sound.counted other record seen
    · simp [joinSession, sound.counted other old seen]
  · intro other record found
    obtain ⟨old, seen, rfl | rfl⟩ := back other record found
    · exact sound.used other record seen
    · simp [joinSession]

theorem openNew {state : State} (sound : SessionsSound state) {id : UInt64} (fresh : state.sessionsTable.lookup id = none)
    (user : Option (Ref User)) (conn : TreeConn) : SessionsSound (state.withNewSession id user conn) := by
  let made : Session := { id, user, treeConns := [conn], refCounter := 1 }
  have back : ∀ other record, (state.withNewSession id user conn).sessions.get? other = some record →
      (other = (state.sessions.alloc made).2 ∧ record = made) ∨
        (other ≠ (state.sessions.alloc made).2 ∧ state.sessions.get? other = some record) := fun _ _ =>
    Heap.get?_alloc_cases
  have distinct : ∀ other record, state.sessions.get? other = some record → record.id ≠ id := by
    intro other record seen same
    have listed := sound.listed other record seen
    rw [same, fresh] at listed
    cases listed
  refine ⟨?_, ?_, ?_, ?_⟩
  · intro other sess known
    change (state.sessionsTable.insert id (state.sessions.alloc made).2).lookup other = some sess at known
    change ∃ record, (state.sessions.alloc made).1.get? sess = some record ∧ record.id = other
    by_cases same : other = id
    · rw [same, AList.lookup_insert] at known
      cases known
      exact ⟨made, Heap.get?_alloc_new _ _, same.symm⟩
    · rw [AList.lookup_insert_ne same] at known
      obtain ⟨record, found, equal⟩ := sound.tabled other sess known
      exact ⟨record, by rw [Heap.get?_alloc_old made (Heap.get?_lt found)]; exact found, equal⟩
  · intro other record found
    change (state.sessionsTable.insert id (state.sessions.alloc made).2).lookup record.id = some other
    rcases back other record found with ⟨rfl, rfl⟩ | ⟨-, seen⟩
    · exact AList.lookup_insert _
    · rw [AList.lookup_insert_ne (distinct other record seen)]
      exact sound.listed other record seen
  · intro other record found
    rcases back other record found with ⟨-, rfl⟩ | ⟨-, seen⟩
    · rfl
    · exact sound.counted other record seen
  · intro other record found
    rcases back other record found with ⟨-, rfl⟩ | ⟨-, seen⟩
    · simp [made]
    · exact sound.used other record seen

end SessionsSound

namespace State

theorem connections_join {state : State} {sess : Ref Session} {record : Session}
    (found : state.sessions.get? sess = some record) (conn : TreeConn) (other : Ref Share) :
    (state.withSession sess (joinSession conn)).connections other =
      state.connections other + if conn.share = some other then 1 else 0 := by
  have moved := Heap.total_modify (joinSession conn) (·.connections other) found
  have grown : (joinSession conn record).connections other =
      record.connections other + if conn.share = some other then 1 else 0 := by
    simp [Session.connections, joinSession, List.countP_append, List.countP_singleton]
  rw [grown] at moved
  change (state.sessions.modify sess (joinSession conn)).total _ = state.sessions.total _ + _
  omega

theorem connections_openNew (state : State) (id : UInt64) (user : Option (Ref User)) (conn : TreeConn)
    (other : Ref Share) :
    (state.withNewSession id user conn).connections other =
      state.connections other + if conn.share = some other then 1 else 0 := by
  change (state.sessions.alloc _).1.total _ = state.sessions.total _ + _
  rw [Heap.total_alloc]
  simp [Session.connections, List.countP_singleton]

theorem connections_joined {state after : State} {sess : Ref Session} {record : Session} {req : TreeConnectRequest}
    {share : Ref Share} {flags : UInt32} (found : state.sessions.get? sess = some record)
    (only : OnlyUsers ((state.withShare share bindShare).withSession sess (joinSession (req.conn share flags))) after)
    (other : Ref Share) : after.connections other = state.connections other + if other = share then 1 else 0 := by
  have grown := connections_join found (req.conn share flags) other
  simp only [TreeConnectRequest.conn, Option.some.injEq, eq_comm (a := share)] at grown
  rw [← grown, connections, only.sessions]
  rfl

theorem connections_opened {state after : State} {id : UInt64} {user : Ref User} {req : TreeConnectRequest}
    {share : Ref Share} {flags : UInt32} {checked : Bool}
    (only : OnlyUsers (((state.withShare share bindShare).spendCapacity checked).withNewSession id (some user)
      (req.conn share flags)) after)
    (other : Ref Share) : after.connections other = state.connections other + if other = share then 1 else 0 := by
  have grown := state.connections_openNew id (some user) (req.conn share flags) other
  simp only [TreeConnectRequest.conn, Option.some.injEq, eq_comm (a := share)] at grown
  rw [← grown, connections, only.sessions]
  rfl

end State

namespace Consistent
variable {platform}

/-- A tree connect keeps the references right when the session it needs can be
allocated. -/
theorem connect {state after : State} {memory : Memory} {req : TreeConnectRequest} {resp : TreeConnectResponse}
    (consistent : Consistent platform state)
    (allocated : ∀ share record user, Admitted platform state req share record user →
      state.sessionsTable.lookup req.sessionId = none → memory.sess = true)
    (effect : ConnectEffect platform state memory req after resp) : Consistent platform after := by
  cases effect with
  | refused status only users => exact consistent.congr only
  | full allocatedConn accepted known found full => exact consistent.closeConnection _
  | @joined share record sess after resp user flags status admitted session only users =>
    obtain ⟨old, seen, -⟩ := consistent.sessions.tabled _ _ session
    refine Consistent.congr ?_ only
    refine consistent.attach admitted.known rfl rfl
      (consistent.sessions.join sess (req.conn share flags) |>.congr rfl rfl) ?_ ?_
    · exact State.connections_joined seen (.refl _)
    · intro other current located conn member
      change (state.sessions.modify sess (joinSession (req.conn share flags))).get? other = some current at located
      rw [Heap.get?_modify] at located
      split at located
      · obtain ⟨before, present, rfl⟩ := Option.map_eq_some_iff.mp located
        rcases List.mem_append.mp member with inside | new
        · exact .inr ⟨other, before, present, inside⟩
        · rw [List.mem_singleton.mp new]
          exact .inl rfl
      · exact .inr ⟨other, current, located, member⟩
  | @opened share record after resp user flags status admitted fresh capacity only users =>
    refine Consistent.congr ?_ only
    refine consistent.attach admitted.known rfl rfl
      (consistent.sessions.openNew fresh (some user) (req.conn share flags) |>.congr rfl rfl) ?_ ?_
    · exact State.connections_opened (.refl _)
    · intro other current located conn member
      let made : Session := ⟨req.sessionId, some user, [req.conn share flags], 1⟩
      change (state.sessions.alloc made).1.get? other = some current at located
      rcases Heap.get?_alloc_cases located with ⟨-, rfl⟩ | ⟨-, old⟩
      · rw [List.mem_singleton.mp member]
        exact .inl rfl
      · exact .inr ⟨other, current, old, member⟩
  | unallocated failed status admitted fresh =>
    rw [allocated _ _ _ admitted fresh] at failed
    cases failed

end Consistent
end KsmbdTools.Management
