import KsmbdTools.Management.Session

/-! Two calls of `sm_handle_tree_connect` at once. A call advances by one section
under a lock at a time, so a schedule is a list of callers. -/

namespace KsmbdTools.Management
variable (platform : Platform)

structure Call where
  user : Option (Ref User)
  conn : TreeConn
  /-- Does `new_ksmbd_session` get its memory? -/
  allocates : Bool := true

/-- Where a call stands. `faulted` has used a freed session. -/
inductive Phase where
  | lookup
  | insert (fresh : Ref Session)
  | link (sess : Ref Session)
  | returned (ok : Bool)
  | faulted
  deriving DecidableEq

namespace Phase

def holds : Phase → Option (Ref Session)
  | .insert sess | .link sess => some sess
  | _ => none

def isOver : Phase → Bool
  | .returned _ | .faulted => true
  | _ => false

end Phase

/-- The next section of the call. The session is made after the table's reader
lock is released, but nobody else can see it before it is inserted. -/
def Call.advance (call : Call) (id : UInt64) (state : State) : Phase → State × Phase
  | .lookup =>
    match state.smLookupSession id with
    | none => (state, .faulted)
    | some (state, some sess) => (state, .link sess)
    | some (state, none) =>
      if !call.allocates then (state, .returned false)
      else
        let (state, fresh) := state.newKsmbdSession id call.user
        (state, .insert fresh)
  | .insert fresh =>
    match state.insertSession platform id fresh with
    | none => (state, .faulted)
    | some (state, some sess) => (state, .link sess)
    | some (state, none) => (state, .lookup)
  | .link sess =>
    if (state.sessions.get? sess).isSome then (state.linkTreeConn sess call.conn, .returned true)
    else (state, .faulted)
  | .returned ok => (state, .returned ok)
  | .faulted => (state, .faulted)

def Call.alone (call : Call) (id : UInt64) : Nat → State → Phase → State × Phase
  | 0, state, phase => (state, phase)
  | sections + 1, state, phase =>
    let (state, phase) := call.advance platform id state phase
    call.alone id sections state phase

inductive Caller where
  | first
  | second
  deriving DecidableEq

def Caller.other : Caller → Caller
  | .first => .second
  | .second => .first

structure Race where
  state : State
  phase : Caller → Phase

namespace Race

def start (state : State) : Race := ⟨state, fun _ => .lookup⟩

def step (id : UInt64) (calls : Caller → Call) (race : Race) (who : Caller) : Race :=
  let (state, phase) := (calls who).advance platform id race.state (race.phase who)
  ⟨state, Function.update race.phase who phase⟩

def run (id : UInt64) (calls : Caller → Call) (race : Race) (schedule : List Caller) : Race :=
  schedule.foldl (step platform id calls) race

def Over (race : Race) : Prop := ∀ who, (race.phase who).isOver = true

/-- No session of the table and none a call still works with has been destroyed. -/
structure Sound (race : Race) : Prop where
  tabled : ∀ id sess, race.state.sessionsTable.lookup id = some sess → race.state.sessions.Live sess
  held : ∀ who sess, (race.phase who).holds = some sess → race.state.sessions.Live sess

end Race
end KsmbdTools.Management
