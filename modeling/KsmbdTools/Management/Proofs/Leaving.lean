import KsmbdTools.Management.Proofs.DisconnectEffect

/-! References after a disconnect. A session goes with its last connection, a share
out of the table with the last connection to it. -/

namespace KsmbdTools.Management
variable {platform : Platform}

namespace State

theorem no_connections {state : State} {share : Ref Share} (none : state.connections share = 0) {sess : Ref Session}
    {record : Session} (found : state.sessions.get? sess = some record) {conn : TreeConn}
    (member : conn ∈ record.treeConns) : conn.share ≠ some share := by
  intro refers
  have connected : 0 < state.connections share := by
    refine (Heap.total_pos_iff _ _).mpr ⟨sess, record, found, ?_⟩
    exact List.countP_pos_iff.mpr ⟨conn, member, by simp [refers]⟩
  omega

theorem connections_empty {state : State} (sound : SessionsSound state) (empty : state.sessionsTable = ∅)
    (share : Ref Share) : state.connections share = 0 := by
  by_contra positive
  obtain ⟨sess, record, found, -⟩ := (Heap.total_pos_iff _ _).mp (Nat.pos_of_ne_zero positive)
  have listed := sound.listed sess record found
  rw [empty, AList.lookup_empty] at listed
  cases listed

end State

namespace Consistent

theorem detach {state after : State} (consistent : Consistent platform state) {share : Ref Share} {held : Share}
    (located : state.shares.get? share = some held) (table : after.sharesTable = state.sharesTable)
    (shares : after.shares = if held.refCount = 1 then state.shares.free share else state.shares.modify share dropShare)
    (sessions : SessionsSound after)
    (connections : ∀ other, after.connections other + (if other = share then 1 else 0) = state.connections other)
    (referred : ∀ sess record, after.sessions.get? sess = some record → ∀ conn ∈ record.treeConns,
      ∃ sess old, state.sessions.get? sess = some old ∧ conn ∈ old.treeConns) :
    Consistent platform after := by
  have balanced := consistent.balance share held located
  have lost := connections share
  simp only [↓reduceIte] at lost
  have positive := consistent.shares.held share held located
  -- a share freed here is out of the table and nothing refers to it any more
  have freed : held.refCount = 1 → share ∉ HashTable.values state.sharesTable ∧ after.connections share = 0 := by
    intro one
    by_cases inside : share ∈ HashTable.values state.sharesTable
    · simp only [State.tableReferences, inside, ↓reduceIte] at balanced
      omega
    · simp only [State.tableReferences, inside, ↓reduceIte] at balanced
      exact ⟨inside, by omega⟩
  have live : ∀ other, state.shares.Live other → (other = share → held.refCount ≠ 1) → after.shares.Live other :=
    fun _ alive kept => shares ▸ alive.drop dropShare kept
  refine consistent.moved table sessions ?_ ?_ ?_
  · intro other record found
    have before := consistent.shares.held other
    have fewer := connections other
    rw [shares] at found
    split at found
    next one =>
      rw [Heap.get?_free] at found
      split at found
      · cases found
      next different =>
        rw [if_neg different] at fewer
        exact ⟨record, found, rfl, rfl, id, before record found, by omega⟩
    next many =>
      rw [Heap.get?_modify] at found
      split at found
      next same =>
        obtain ⟨old, seen, rfl⟩ := Option.map_eq_some_iff.mp found
        subst same
        obtain rfl := Option.some.inj (located.symm.trans seen)
        refine ⟨held, seen, ?_, State.closeConnection_freeing held, fun counted => ?_, ?_, ?_⟩
        · simp only [dropShare, State.closeConnection]; split <;> rfl
        · simp only [dropShare, State.closeConnection]
          split
          · show 0 ≤ held.numConnections - 1
            omega
          · exact counted
        · simp only [dropShare, State.closeConnection_refCount]
          omega
        · simp only [dropShare, State.closeConnection_refCount]
          omega
      next different =>
        rw [if_neg different] at fewer
        exact ⟨record, found, rfl, rfl, id, before record found, by omega⟩
  · intro key other known
    refine live other (consistent.shares.tabled key other known) fun same one => ?_
    exact (freed one).1 (HashTable.mem_values.mpr ⟨key, same ▸ known⟩)
  · intro sess record found conn member
    obtain ⟨before, old, seen, inside⟩ := referred sess record found conn member
    obtain ⟨other, refers, alive⟩ := consistent.referred before old seen conn inside
    refine ⟨other, refers, live other alive fun same one => ?_⟩
    exact State.no_connections (freed one).2 found member (same ▸ refers)

end Consistent

namespace SessionsSound

theorem leave {state after : State} (sound : SessionsSound state) {sess : Ref Session} {record : Session}
    {front back : List TreeConn} {conn : TreeConn} (found : state.sessions.get? sess = some record)
    (split : record.treeConns = front ++ conn :: back) (remaining : front ++ back ≠ [])
    (sessions : after.sessions = state.sessions.modify sess (leaveSession (front ++ back)))
    (table : after.sessionsTable = state.sessionsTable) : SessionsSound after := by
  have counted := sound.counted sess record found
  rw [split, List.length_append, List.length_cons] at counted
  have traced : ∀ other current, after.sessions.get? other = some current →
      (other = sess ∧ current = leaveSession (front ++ back) record) ∨ state.sessions.get? other = some current := by
    intro other current located
    rw [sessions, Heap.get?_modify] at located
    split at located
    next same =>
      rw [same, found] at located
      exact .inl ⟨same, (Option.some.inj located).symm⟩
    · exact .inr located
  refine ⟨?_, ?_, ?_, ?_⟩
  · rw [table, sessions]
    intro id other known
    obtain ⟨current, seen, named⟩ := sound.tabled id other known
    by_cases same : other = sess
    · exact ⟨leaveSession (front ++ back) current, by rw [same] at seen ⊢; simp [seen], named⟩
    · exact ⟨current, by rw [Heap.get?_modify_ne same]; exact seen, named⟩
  · rw [table]
    intro other current located
    rcases traced other current located with ⟨rfl, rfl⟩ | seen
    · exact sound.listed other record found
    · exact sound.listed other current seen
  · intro other current located
    rcases traced other current located with ⟨-, rfl⟩ | seen
    · simp only [leaveSession, List.length_append]
      push_cast at counted ⊢
      omega
    · exact sound.counted other current seen
  · intro other current located
    rcases traced other current located with ⟨-, rfl⟩ | seen
    · exact remaining
    · exact sound.used other current seen

theorem close {state after : State} (sound : SessionsSound state) {id : UInt64} {sess : Ref Session}
    (session : state.sessionsTable.lookup id = some sess) (sessions : after.sessions = state.sessions.free sess)
    (table : after.sessionsTable = state.sessionsTable.erase id) : SessionsSound after := by
  have back : ∀ other current, after.sessions.get? other = some current →
      other ≠ sess ∧ state.sessions.get? other = some current := by
    intro other current located
    rw [sessions, Heap.get?_free] at located
    split at located
    · cases located
    next different => exact ⟨different, located⟩
  refine ⟨?_, ?_, ?_, ?_⟩
  · rw [table, sessions]
    intro other current known
    have different : other ≠ id := by
      rintro rfl
      rw [AList.lookup_erase] at known
      cases known
    rw [AList.lookup_erase_ne different] at known
    obtain ⟨record, seen, named⟩ := sound.tabled other current known
    have distinct : current ≠ sess := by
      rintro rfl
      obtain ⟨again, same, name⟩ := sound.tabled id current session
      rw [seen] at same
      rw [← Option.some.inj same, named] at name
      exact different name
    exact ⟨record, by rw [Heap.get?_free_ne distinct]; exact seen, named⟩
  · rw [table]
    intro other current located
    obtain ⟨different, seen⟩ := back other current located
    have listed := sound.listed other current seen
    have distinct : current.id ≠ id := by
      intro same
      rw [same, session] at listed
      exact different (Option.some.inj listed).symm
    rw [AList.lookup_erase_ne distinct]
    exact listed
  · exact fun other current located => sound.counted other current (back other current located).2
  · exact fun other current located => sound.used other current (back other current located).2

end SessionsSound

private theorem refers_iff {conn : TreeConn} {share : Ref Share} (refers : conn.share = some share) (other : Ref Share) :
    (conn.share == some other) = decide (other = share) := by
  rw [refers]
  by_cases same : share = other
  · simp [same]
  · simp [same, Ne.symm same]

namespace State

theorem connections_left {state after : State} {sess : Ref Session} {record : Session} {front back : List TreeConn}
    {conn : TreeConn} {share : Ref Share} (found : state.sessions.get? sess = some record)
    (split : record.treeConns = front ++ conn :: back) (refers : conn.share = some share)
    (sessions : after.sessions = state.sessions.modify sess (leaveSession (front ++ back))) (other : Ref Share) :
    after.connections other + (if other = share then 1 else 0) = state.connections other := by
  have moved := Heap.total_modify (leaveSession (front ++ back)) (·.connections other) found
  have lost : (leaveSession (front ++ back) record).connections other + (if other = share then 1 else 0) =
      record.connections other := by
    simp only [Session.connections, leaveSession, split, List.countP_append, List.countP_cons, refers_iff refers,
      decide_eq_true_eq]
    omega
  simp only [connections, sessions]
  omega

theorem connections_closed {state after : State} {sess : Ref Session} {record : Session} {conn : TreeConn}
    {share : Ref Share} (found : state.sessions.get? sess = some record) (only : record.treeConns = [conn])
    (refers : conn.share = some share) (sessions : after.sessions = state.sessions.free sess) (other : Ref Share) :
    after.connections other + (if other = share then 1 else 0) = state.connections other := by
  have moved := Heap.total_free (·.connections other) found
  have lost : record.connections other = if other = share then 1 else 0 := by
    simp only [Session.connections, only, List.countP_singleton, refers_iff refers, decide_eq_true_eq]
  simp only [connections, sessions]
  omega

end State

namespace Consistent

theorem disconnect {state after : State} {sessId connId : UInt64} (consistent : Consistent platform state)
    (effect : DisconnectEffect state sessId connId after) : Consistent platform after := by
  cases effect with
  | unchanged absent => exact consistent
  | @left sess record front conn back share held after session found split first matched remaining refers located
      dropped globalConf sessions sessionsTable =>
    refine consistent.detach located dropped.table dropped.shares
      (consistent.sessions.leave found split remaining sessions sessionsTable) ?_ ?_
    · exact State.connections_left found split refers sessions
    · intro other current seen item member
      rw [sessions, Heap.get?_modify] at seen
      split at seen
      · obtain ⟨old, present, rfl⟩ := Option.map_eq_some_iff.mp seen
        refine ⟨sess, record, found, ?_⟩
        rw [split]
        rcases List.mem_append.mp member with inside | inside
        · exact List.mem_append_left _ inside
        · exact List.mem_append_right _ (List.mem_cons_of_mem _ inside)
      · exact ⟨other, current, seen, member⟩
  | @closed sess record conn share held middle after session found only matched refers located dropped shares
      sharesTable user globalConf sessions sessionsTable =>
    refine consistent.detach located (sharesTable.trans dropped.table) (shares.trans dropped.shares)
      (consistent.sessions.close session sessions sessionsTable) ?_ ?_
    · exact State.connections_closed found only refers sessions
    · intro other current seen item member
      rw [sessions, Heap.get?_free] at seen
      split at seen
      · cases seen
      · exact ⟨other, current, seen, member⟩

end Consistent
end KsmbdTools.Management
