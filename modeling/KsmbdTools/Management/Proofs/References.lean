import KsmbdTools.Management.Proofs.Histories

/-! The live tree connections are those answered with OK and not disconnected
since. A ledger of them is written beside the run, and the tables, lists and
reference counts of the daemon agree with it. -/

namespace KsmbdTools.Management
variable {platform : Platform}

structure LiveConn where
  session : UInt64
  tree : UInt64
  share : Ref Share
  deriving DecidableEq

def LiveConn.isNamed (sessId connId : UInt64) (live : LiveConn) : Bool := live.tree == connId && live.session == sessId

variable (platform) in
/-- A disconnect ends the oldest connection of the session under the id. -/
def writeLedger (state : State) (request : Request) (answer : Option TreeConnStatus) (ledger : List LiveConn) :
    List LiveConn :=
  match request, answer with
  | .treeConnect _ req, some .ok =>
    ledger ++ ((state.sharesTable.lookup (shmCasefoldShareName platform req.share.str)).map
      (LiveConn.mk req.sessionId req.connectId)).toList
  | .treeDisconnect sessId connId, _ => ledger.eraseP (LiveConn.isNamed sessId connId)
  | _, _ => ledger

namespace State

def treeConns (state : State) (id : UInt64) : List TreeConn :=
  ((state.sessionsTable.lookup id).bind state.sessions.get?).elim [] (·.treeConns)

theorem treeConns_congr {before after : State} (sessions : after.sessions = before.sessions)
    (table : after.sessionsTable = before.sessionsTable) (id : UInt64) : after.treeConns id = before.treeConns id := by
  rw [treeConns, treeConns, sessions, table]

theorem treeConns_some {state : State} {id : UInt64} {sess : Ref Session} {record : Session}
    (session : state.sessionsTable.lookup id = some sess) (found : state.sessions.get? sess = some record) :
    state.treeConns id = record.treeConns := by
  simp [treeConns, session, found]

theorem session_unique {state : State} (sound : SessionsSound state) {id other : UInt64} {sess : Ref Session}
    (session : state.sessionsTable.lookup id = some sess) (known : state.sessionsTable.lookup other = some sess) :
    other = id := by
  obtain ⟨record, found, named⟩ := sound.tabled id sess session
  obtain ⟨again, seen, same⟩ := sound.tabled other sess known
  rw [found] at seen
  rw [← same, ← Option.some.inj seen, named]

theorem treeConns_modify {state after : State} (sound : SessionsSound state) {id : UInt64} {sess : Ref Session}
    {record : Session} {change : Session → Session} (session : state.sessionsTable.lookup id = some sess)
    (found : state.sessions.get? sess = some record) (sessions : after.sessions = state.sessions.modify sess change)
    (table : after.sessionsTable = state.sessionsTable) (other : UInt64) :
    after.treeConns other = if other = id then (change record).treeConns else state.treeConns other := by
  by_cases same : other = id
  · subst same
    simp [treeConns, table, sessions, session, found]
  · rw [if_neg same, treeConns, treeConns, table, sessions]
    cases known : state.sessionsTable.lookup other with
    | none => rfl
    | some current =>
      have different : current ≠ sess := fun equal => same (session_unique sound session (equal ▸ known))
      simp [Heap.get?_modify_ne different]

theorem treeConns_opened {state after : State} (sound : SessionsSound state) {id : UInt64} {user : Option (Ref User)}
    {conn : TreeConn} (fresh : state.sessionsTable.lookup id = none)
    (sessions : after.sessions = (state.withNewSession id user conn).sessions)
    (table : after.sessionsTable = (state.withNewSession id user conn).sessionsTable) (other : UInt64) :
    after.treeConns other = if other = id then state.treeConns other ++ [conn] else state.treeConns other := by
  rw [treeConns_congr sessions table]
  by_cases same : other = id
  · subst same
    simp [treeConns, withNewSession, fresh]
  · simp only [treeConns, withNewSession, AList.lookup_insert_ne same, same, ↓reduceIte]
    cases known : state.sessionsTable.lookup other with
    | none => rfl
    | some current =>
      obtain ⟨record, found, -⟩ := sound.tabled other current known
      simp only [Option.bind_some, Heap.get?_alloc_old _ (Heap.get?_lt found)]

theorem treeConns_closed {state after : State} (sound : SessionsSound state) {id : UInt64} {sess : Ref Session}
    (session : state.sessionsTable.lookup id = some sess) (sessions : after.sessions = state.sessions.free sess)
    (table : after.sessionsTable = state.sessionsTable.erase id) (other : UInt64) :
    after.treeConns other = if other = id then [] else state.treeConns other := by
  by_cases same : other = id
  · subst same
    simp [treeConns, table]
  · rw [if_neg same, treeConns, treeConns, table, sessions, AList.lookup_erase_ne same]
    cases known : state.sessionsTable.lookup other with
    | none => rfl
    | some current =>
      have different : current ≠ sess := fun equal => same (session_unique sound session (equal ▸ known))
      simp [Heap.get?_free_ne different]

end State

/-- The ledger lists the connections of every session in order, and their shares. -/
structure Follows (state : State) (ledger : List LiveConn) : Prop where
  conns : ∀ id, (state.treeConns id).map (fun conn => (conn.id, conn.share)) =
    (ledger.filter (·.session == id)).map fun live => (live.tree, some live.share)
  shares : ∀ share, state.connections share = ledger.countP (·.share == share)

namespace Follows

theorem congr {before after : State} {ledger : List LiveConn} (follows : Follows before ledger)
    (sessions : after.sessions = before.sessions) (table : after.sessionsTable = before.sessionsTable) :
    Follows after ledger := by
  refine ⟨fun id => ?_, fun share => ?_⟩
  · rw [State.treeConns_congr sessions table]
    exact follows.conns id
  · rw [State.connections, sessions]
    exact follows.shares share

theorem attach {state after : State} {ledger : List LiveConn} {req : TreeConnectRequest} {share : Ref Share}
    (follows : Follows state ledger) (flags : UInt32)
    (conns : ∀ other, after.treeConns other =
      if other = req.sessionId then state.treeConns other ++ [req.conn share flags] else state.treeConns other)
    (connections : ∀ other, after.connections other = state.connections other + if other = share then 1 else 0) :
    Follows after (ledger ++ [⟨req.sessionId, req.connectId, share⟩]) := by
  refine ⟨fun id => ?_, fun other => ?_⟩
  · rw [conns, List.filter_append, List.map_append, ← follows.conns id]
    by_cases same : id = req.sessionId
    · simp [same, TreeConnectRequest.conn]
    · simp [same, Ne.symm same]
  · rw [connections, follows.shares, List.countP_append, List.countP_singleton]
    by_cases same : other = share
    · simp [same]
    · simp [same, Ne.symm same]

theorem entry {state : State} {ledger : List LiveConn} {sessId connId : UInt64} {front back : List TreeConn}
    {conn : TreeConn} {share : Ref Share} (follows : Follows state ledger)
    (split : state.treeConns sessId = front ++ conn :: back) (first : ∀ other ∈ front, other.id ≠ connId)
    (matched : conn.id = connId) (refers : conn.share = some share) :
    ledger.find? (LiveConn.isNamed sessId connId) = some ⟨sessId, connId, share⟩ := by
  have listed := congrArg (List.find? (·.1 == connId)) (follows.conns sessId)
  have seen : ((front ++ conn :: back).map fun conn => (conn.id, conn.share)).find? (·.1 == connId) =
      some (connId, some share) := by
    have none : front.find? ((·.1 == connId) ∘ fun conn => (conn.id, conn.share)) = none :=
      List.find?_eq_none.mpr fun other member => by simpa using first other member
    rw [List.find?_map, List.find?_append, none]
    simp [matched, refers]
  rw [split, seen, List.find?_map, List.find?_filter] at listed
  obtain ⟨live, found, same⟩ := Option.map_eq_some_iff.mp listed.symm
  have named : (fun live : LiveConn => decide ((live.session == sessId) = true ∧
      ((·.1 == connId) ∘ fun live : LiveConn => (live.tree, some live.share)) live = true)) =
      LiveConn.isNamed sessId connId := by
    funext live
    rw [Bool.eq_iff_iff]
    simp [LiveConn.isNamed, and_comm]
  rw [named] at found
  have ids := List.find?_some found
  simp only [LiveConn.isNamed, Bool.and_eq_true, beq_iff_eq] at ids
  cases live
  simp_all

theorem detach {state after : State} {ledger : List LiveConn} {sessId connId : UInt64} {front back : List TreeConn}
    {conn : TreeConn} {share : Ref Share} (follows : Follows state ledger)
    (split : state.treeConns sessId = front ++ conn :: back) (first : ∀ other ∈ front, other.id ≠ connId)
    (matched : conn.id = connId) (refers : conn.share = some share)
    (conns : ∀ other, after.treeConns other = if other = sessId then front ++ back else state.treeConns other)
    (connections : ∀ other, after.connections other + (if other = share then 1 else 0) = state.connections other) :
    Follows after (ledger.eraseP (LiveConn.isNamed sessId connId)) := by
  have found := follows.entry split first matched refers
  obtain ⟨named, before, later, whole, earlier⟩ := List.find?_eq_some_iff_append.mp found
  have erased : ledger.eraseP (LiveConn.isNamed sessId connId) = before ++ later := by
    rw [whole, List.eraseP_append_right _ (by simpa using earlier), List.eraseP_cons_of_pos named]
  refine ⟨fun id => ?_, fun other => ?_⟩
  · rw [conns]
    split
    next same =>
      subst same
      have listed := congrArg (List.eraseP (·.1 == connId)) (follows.conns id)
      have kept : ((front ++ conn :: back).map fun conn => (conn.id, conn.share)).eraseP (·.1 == connId) =
          (front ++ back).map fun conn => (conn.id, conn.share) := by
        rw [List.eraseP_map, List.eraseP_append_right _ (fun other member => by simpa using first other member),
          List.eraseP_cons_of_pos (by simpa using matched)]
      rw [split, kept, List.eraseP_map, List.eraseP_filter] at listed
      exact listed
    next different =>
      rw [follows.conns id, erased, whole]
      simp [Ne.symm different]
  · have lost := connections other
    rw [follows.shares other, whole, List.countP_append, List.countP_cons] at lost
    rw [erased, List.countP_append]
    by_cases same : other = share
    · simp only [same, ↓reduceIte, beq_self_eq_true] at lost ⊢
      omega
    · simp only [same, ↓reduceIte, beq_iff_eq, Ne.symm same] at lost
      omega

theorem step {state after : State} {request : Request} {answer : Option TreeConnStatus} {ledger : List LiveConn}
    (consistent : Consistent platform state) (follows : Follows state ledger)
    (allocates : Allocates platform state request) (effect : Effect platform state request after answer) :
    Follows after (writeLedger platform state request answer ledger) := by
  have sound := consistent.sessions
  cases effect with
  | login only users => exact follows.congr only.sessions only.sessionsTable
  | logout only users => exact follows.congr only.sessions only.sessionsTable
  | reload reshared => exact follows.congr reshared.sessions reshared.sessionsTable
  | @connect memory req after resp effect =>
    have refusal : resp.status ≠ .ok → writeLedger platform state (.treeConnect memory req) (some resp.status) ledger =
        ledger := by
      intro refused
      cases seen : resp.status <;> simp_all [writeLedger]
    cases effect with
    | refused status only users =>
      rw [refusal status]
      exact follows.congr only.sessions only.sessionsTable
    | full allocated accepted known found full =>
      rw [refusal (by simp)]
      exact follows.congr rfl rfl
    | joined user flags status admitted session only users =>
      obtain ⟨record, found, -⟩ := sound.tabled _ _ session
      simp only [writeLedger, status, admitted.known, Option.map_some, Option.toList_some]
      refine follows.attach flags (fun other => ?_) (State.connections_joined found only)
      rw [State.treeConns_modify sound session found only.sessions only.sessionsTable other]
      split
      next same =>
        rw [same, State.treeConns_some session found]
        rfl
      · rfl
    | opened user flags status admitted fresh capacity only users =>
      simp only [writeLedger, status, admitted.known, Option.map_some, Option.toList_some]
      exact follows.attach flags (State.treeConns_opened sound fresh only.sessions only.sessionsTable)
        (State.connections_opened only)
    | unallocated failed status admitted fresh =>
      rw [allocates _ _ _ admitted fresh] at failed
      cases failed
  | @disconnect sessId connId after effect =>
    cases effect with
    | unchanged absent =>
      simp only [writeLedger]
      rwa [List.eraseP_of_forall_not]
      intro live member named
      obtain ⟨tree, session⟩ : live.tree = connId ∧ live.session = sessId := by simpa [LiveConn.isNamed] using named
      have listed : (live.tree, some live.share) ∈ (state.treeConns sessId).map fun conn => (conn.id, conn.share) := by
        rw [follows.conns sessId]
        exact List.mem_map.mpr ⟨live, List.mem_filter.mpr ⟨member, by simpa using session⟩, rfl⟩
      obtain ⟨conn, inside, same⟩ := List.mem_map.mp listed
      cases known : state.sessionsTable.lookup sessId with
      | none => simp [State.treeConns, known] at inside
      | some sess =>
        obtain ⟨record, found, -⟩ := sound.tabled _ _ known
        rw [State.treeConns_some known found] at inside
        exact absent sess record known found conn inside ((congrArg Prod.fst same).trans tree)
    | left session found split first matched remaining refers located dropped globalConf sessions sessionsTable =>
      exact follows.detach ((State.treeConns_some session found).trans split) first matched refers
        (State.treeConns_modify sound session found sessions sessionsTable)
        (State.connections_left found split refers sessions)
    | closed session found only matched refers located dropped shares sharesTable user globalConf sessions sessionsTable =>
      have split : state.treeConns sessId = [] ++ _ :: [] := (State.treeConns_some session found).trans only
      exact follows.detach split (by simp) matched refers
        (State.treeConns_closed sound session sessions sessionsTable)
        (State.connections_closed found only refers sessions)

theorem empty {state : State} (sound : SessionsSound state) (none : state.sessionsTable = ∅) : Follows state [] :=
  ⟨fun id => by simp [State.treeConns, none], fun share => State.connections_empty sound none share⟩

theorem session_iff {state : State} {ledger : List LiveConn} (follows : Follows state ledger)
    (sound : SessionsSound state) (id : UInt64) :
    id ∈ state.sessionsTable ↔ ∃ live ∈ ledger, live.session = id := by
  have listed := congrArg List.length (follows.conns id)
  simp only [List.length_map] at listed
  rw [← AList.lookup_isSome]
  cases known : state.sessionsTable.lookup id with
  | none =>
    have none : ledger.filter (·.session == id) = [] := by
      rw [← List.length_eq_zero_iff, ← listed, State.treeConns, known]
      rfl
    simpa using List.filter_eq_nil_iff.mp none
  | some sess =>
    obtain ⟨record, found, -⟩ := sound.tabled id sess known
    have positive := List.length_pos_of_ne_nil (sound.used sess record found)
    rw [State.treeConns_some known found] at listed
    obtain ⟨live, member⟩ := List.exists_mem_of_length_pos (listed ▸ positive)
    obtain ⟨inside, named⟩ := List.mem_filter.mp member
    simpa using ⟨live, inside, by simpa using named⟩

end Follows

namespace Consistent

theorem live_iff {state : State} (consistent : Consistent platform state) (share : Ref Share) :
    state.shares.Live share ↔ 0 < state.tableReferences share + state.connections share := by
  constructor
  · rintro ⟨record, found⟩
    have positive := consistent.shares.held share record found
    have balance := consistent.balance share record found
    omega
  · intro referenced
    by_cases tabled : share ∈ HashTable.values state.sharesTable
    · obtain ⟨key, known⟩ := HashTable.mem_values.mp tabled
      exact consistent.shares.tabled key share known
    · have connected : 0 < state.connections share := by simpa [State.tableReferences, tabled] using referenced
      obtain ⟨sess, record, found, counted⟩ := (Heap.total_pos_iff _ _).mp connected
      obtain ⟨conn, member, refers⟩ := List.countP_pos_iff.mp counted
      obtain ⟨other, named, live⟩ := consistent.referred sess record found conn member
      obtain rfl : other = share := by simpa [named] using refers
      exact live

end Consistent

/-- A refusal takes back every reference it took. On a full share it also uncounts a
connection, which is no reference. -/
theorem ConnectEffect.refused_references {state after : State} {memory : Memory} {req : TreeConnectRequest}
    {resp : TreeConnectResponse} (allocates : Allocates platform state (.treeConnect memory req))
    (effect : ConnectEffect platform state memory req after resp) (refused : resp.status ≠ .ok) :
    after.sessionsTable = state.sessionsTable ∧
      ∀ share, (after.shares.get? share).map (·.refCount) = (state.shares.get? share).map (·.refCount) := by
  cases effect with
  | refused status only users => exact ⟨only.sessionsTable, fun share => by rw [only.shares]⟩
  | @full named record allocated accepted known found full =>
    refine ⟨rfl, fun share => ?_⟩
    rw [State.withShare, Heap.get?_modify]
    split
    · cases state.shares.get? share with
      | none => rfl
      | some current => simp [State.closeConnection_refCount]
    · rfl
  | joined user flags status admitted session only users => exact absurd status refused
  | opened user flags status admitted fresh capacity only users => exact absurd status refused
  | unallocated failed status admitted fresh =>
    rw [allocates _ _ _ admitted fresh] at failed
    cases failed

/-- From its first load on, through any requests and reloads, the daemon's sessions
and share references are those of the live connections in the ledger. -/
theorem references_consistent (platform : Platform) (globalConf : SmbconfGlobal) (config : Config) (retries : Nat)
    (requests : List Request) (allocates : ∀ memory req, Request.treeConnect memory req ∈ requests → memory.sess = true) :
    ∃ final ledger,
      (({ globalConf } : State).loadConfig platform config).1.runWith platform (writeLedger platform) (retries + 1) []
        requests = some (final, ledger) ∧
      (({ globalConf } : State).loadConfig platform config).1.run platform (retries + 1) requests = some final ∧
      (∀ id, id ∈ final.sessionsTable ↔ ∃ live ∈ ledger, live.session = id) ∧
      (∀ id, (final.treeConns id).map (fun conn => (conn.id, conn.share)) =
        (ledger.filter (·.session == id)).map fun live => (live.tree, some live.share)) ∧
      (∀ sess record, final.sessions.get? sess = some record → record.refCounter = record.treeConns.length) ∧
      (∀ share record, final.shares.get? share = some record → record.refCount =
        (if share ∈ HashTable.values final.sharesTable then 1 else 0 : Nat) + ledger.countP (·.share == share)) ∧
      (∀ share, final.shares.Live share ↔
        0 < (if share ∈ HashTable.values final.sharesTable then 1 else 0) + ledger.countP (·.share == share)) ∧
      ∀ memory req, memory.sess = true →
        ∃ after resp, final.tcmHandleTreeConnect platform memory (retries + 1) req = some (after, resp) ∧
          (resp.status ≠ .ok → after.sessionsTable = final.sessionsTable ∧
            ∀ share, (after.shares.get? share).map (·.refCount) = (final.shares.get? share).map (·.refCount)) := by
  have loaded := (Consistent.initial platform globalConf).load config
  have empty := Follows.empty loaded.consistent.sessions loaded.sessionsTable
  have meets : ∀ current : State, ∀ request ∈ requests, Allocates platform current request := by
    intro current request member
    cases request with
    | treeConnect memory req => exact fun _ _ _ _ _ => allocates memory req member
    | login | logout | treeDisconnect | reload => trivial
  obtain ⟨final, ledger, written, ran, consistent, follows⟩ := State.run_keeps (writeLedger platform) (Allocates platform)
    Follows retries (fun _ _ met => met)
    (fun _ _ _ _ _ consistent follows met effect => follows.step consistent met effect)
    requests _ [] loaded.consistent empty (.of_forall meets)
  refine ⟨final, ledger, written, ran, follows.session_iff consistent.sessions, follows.conns,
    consistent.sessions.counted, fun share record found => ?_, fun share => ?_, fun memory req allocated => ?_⟩
  · rw [← follows.shares share]
    exact consistent.balance share record found
  · rw [← follows.shares share]
    exact consistent.live_iff share
  · obtain ⟨after, resp, answered, effect⟩ :=
      State.tcmHandleTreeConnect_effect platform consistent.shares consistent.sessions memory req retries
    exact ⟨after, resp, answered, effect.refused_references fun _ _ _ _ _ => allocated⟩

/-- A connection survives the reload that takes its share out of the table, and the
share goes with the disconnect. -/
theorem references_consistent_reloaded :
    ∃ final ledger,
      (({} : State).loadConfig Scenario.plainPlatform (Scenario.config { name := Scenario.shareName })).1.runWith
        Scenario.plainPlatform (writeLedger Scenario.plainPlatform) 1 []
        [.treeConnect {} (Scenario.connect 1 1), .reload {}, .treeDisconnect 1 1] = some (final, ledger) ∧
      ∀ share, final.shares.Live share ↔
        0 < (if share ∈ HashTable.values final.sharesTable then 1 else 0) + ledger.countP (·.share == share) := by
  obtain ⟨final, ledger, written, -, -, -, -, -, live, -⟩ := references_consistent Scenario.plainPlatform {}
    (Scenario.config { name := Scenario.shareName }) 0
    [.treeConnect {} (Scenario.connect 1 1), .reload {}, .treeDisconnect 1 1] (by simp)
  exact ⟨final, ledger, written, live⟩

end KsmbdTools.Management
