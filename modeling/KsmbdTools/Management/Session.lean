import KsmbdTools.Management.Share

/-! The session table. Every function below is cut where the source takes and
releases a lock, so that the sections can also be interleaved. `none` stands for
a run that uses a freed session or retries for ever. -/

namespace KsmbdTools.Management

variable (platform : Platform)

structure Memory where
  conn : Bool := true
  sess : Bool := true

namespace State

def tcmTreeConnFree (state : State) (conn : TreeConn) : State :=
  (state.shmCloseConnection conn.share).putKsmbdShare platform conn.share

def killKsmbdSession (state : State) (sess : Ref Session) : State :=
  match state.sessions.get? sess with
  | none => state
  | some record =>
    let state := record.treeConns.foldl (tcmTreeConnFree platform) state
    let state := state.putKsmbdUser record.user
    { state with sessions := state.sessions.free sess }

/-- `new_ksmbd_session` once the allocation has succeeded. -/
def newKsmbdSession (state : State) (id : UInt64) (user : Option (Ref User)) : State × Ref Session :=
  let (sessions, sess) := state.sessions.alloc { id, user, refCounter := 1 }
  ({ state with sessions }, sess)

/-- `__sm_remove_session`. -/
def smRemoveSession (state : State) (sess : Ref Session) : State :=
  match state.sessions.get? sess with
  | none => state
  | some record =>
    if record.id ∈ state.sessionsTable then
      { state with sessionsTable := state.sessionsTable.erase record.id }.killKsmbdSession platform sess
    else state

/-- `__get_session`. -/
def getSession (state : State) (sess : Ref Session) : Option (State × Option (Ref Session)) :=
  match state.sessions.get? sess with
  | none => none
  | some record =>
    if record.refCounter ≠ 0 then
      some ({ state with sessions := state.sessions.modify sess fun record =>
        { record with refCounter := record.refCounter + 1 } }, some sess)
    else some (state, none)

/-- `__put_session`. -/
def putSession (state : State) (sess : Ref Session) : State :=
  let state := { state with sessions := state.sessions.modify sess fun record =>
    { record with refCounter := record.refCounter - 1 } }
  match state.sessions.get? sess with
  | none => state
  | some record => if record.refCounter = 0 then state.smRemoveSession platform sess else state

def smLookupSession (state : State) (id : UInt64) : Option (State × Option (Ref Session)) :=
  match state.sessionsTable.lookup id with
  | none => some (state, none)
  | some sess => state.getSession sess

/-- The section of `sm_handle_tree_connect` under the table's writer lock, for a
session `fresh` made since the lookup. A session found there is inserted again,
and an insertion that replaces an entry kills what it has just inserted. -/
def insertSession (state : State) (id : UInt64) (fresh : Ref Session) : Option (State × Option (Ref Session)) := do
  let (state, lookup) ← state.smLookupSession id
  let (state, sess) := match lookup with
    | some sess => (state.killKsmbdSession platform fresh, sess)
    | none => (state, fresh)
  let (sessionsTable, inserted) := HashTable.add state.sessionsTable id sess
  let state := { state with sessionsTable }
  if inserted then some (state, some sess)
  else some (state.killKsmbdSession platform sess, none)

/-- The section under the session's own lock; the list grows at its end. -/
def linkTreeConn (state : State) (sess : Ref Session) (conn : TreeConn) : State :=
  { state with sessions := state.sessions.modify sess fun record =>
    { record with treeConns := record.treeConns ++ [conn] } }

/-- The answer is whether the call returned 0. `retries` bounds `goto retry`. -/
def smHandleTreeConnect (state : State) (memory : Memory) (id : UInt64) (user : Option (Ref User)) (conn : TreeConn) :
    Nat → Option (State × Bool)
  | 0 => none
  | retries + 1 => do
    let (state, lookup) ← state.smLookupSession id
    match lookup with
    | some sess => some (state.linkTreeConn sess conn, true)
    | none =>
      if !memory.sess then some (state, false)
      else
        let (state, fresh) := state.newKsmbdSession id user
        let (state, inserted) ← state.insertSession platform id fresh
        match inserted with
        | some sess => some (state.linkTreeConn sess conn, true)
        | none => state.smHandleTreeConnect memory id user conn retries

def smCheckSessionsCapacity (state : State) (id : UInt64) : Option (State × Bool) := do
  let (state, lookup) ← state.smLookupSession id
  match lookup with
  | some sess => some (state.putSession platform sess, true)
  | none =>
    let cap := state.globalConf.sessionsCap
    if cap < 1 then some (state, false)
    else some ({ state with globalConf := { state.globalConf with sessionsCap := cap - 1 } }, true)

/-- Capacity comes back when the last connection of the session goes. -/
def unlinkTreeConn (state : State) (sess : Ref Session) (connId : UInt64) : State :=
  match state.sessions.get? sess with
  | none => state
  | some record =>
    match record.treeConns.find? (·.id == connId) with
    | none => state
    | some conn =>
      let rest := record.treeConns.eraseP (·.id == connId)
      let state := { state with sessions := state.sessions.modify sess fun record =>
        { record with treeConns := rest, refCounter := record.refCounter - 1 } }
      let cap := state.globalConf.sessionsCap
      let state :=
        if rest.isEmpty then { state with globalConf := { state.globalConf with sessionsCap := cap + 1 } } else state
      state.tcmTreeConnFree platform conn

def smHandleTreeDisconnect (state : State) (sessId connId : UInt64) : Option State := do
  let (state, lookup) ← state.smLookupSession sessId
  match lookup with
  | none => some state
  | some sess => some ((state.unlinkTreeConn platform sess connId).putSession platform sess)

end State
end KsmbdTools.Management
