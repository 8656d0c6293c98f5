import KsmbdTools.Management.Files

/-! `login_request_ext` beside a reload of the user table. Each of the two advances by one section under a lock at a
time, so an interleaving is a list of parties. -/

namespace KsmbdTools.Management
variable (platform : Platform)

/-- `struct ksmbd_login_response_ext` without its handle; `payload` are the ids that were copied behind it. -/
structure LoginResponseExt where
  ngroups : Nat := 0
  payload : List UInt32 := []
  deriving DecidableEq

def loginResponseExtSize : Nat := 136

/-- The groups that a message of `KSMBD_IPC_MAX_MESSAGE_SIZE` bytes has room for. -/
def maxNgroups : Nat := (4096 - loginResponseExtSize) / 4

def LoginRequest.accountName (req : LoginRequest) : Option CStr :=
  if !req.account.terminated then none
  else if req.account.bytes.head? == some 0 then none
  else some req.account.str

/-- The lookup, with the group ids of the record it finds. They are never changed, so it makes no difference that they
are read behind the section. -/
def State.lookupGroups (state : State) (name : Option CStr) : State × Option (Ref User) × List UInt32 :=
  match state.usmLookupUser name with
  | (state, none) => (state, none, [])
  | (state, some user) => (state, some user, ((state.users.get? user).map (·.sgid)).getD [])

/-- `login_response_payload_sz` of an account with so many groups, an `int`. -/
def loginResponsePayloadSz (ngroups : Nat) : Int := toInt32 (4 * ngroups)

/-- The end of `usm_handle_login_request_ext`. The count of a record is the length of its list, so it is not negative. -/
def copyGroups (groups : List UInt32) : LoginResponseExt :=
  let ngroups := if maxNgroups < groups.length then maxNgroups else groups.length
  { ngroups, payload := groups.take ngroups }

structure LoginExtCall where
  req : LoginRequest
  /-- Is the message as long as the request? -/
  valid : Bool := true
  /-- Does the reply get its memory? -/
  allocates : Bool := true

inductive LoginExtPhase where
  /-- Before `login_response_payload_sz`. -/
  | size
  | sized (payloadSz : Int) (user : Option (Ref User))
  /-- Before `usm_handle_login_request_ext`. -/
  | allocated (payloadSz : Int)
  | answered (payloadSz : Int) (resp : LoginResponseExt) (user : Option (Ref User))
  | returned (reply : Option (Int × LoginResponseExt))

namespace LoginExtPhase

def isSize : LoginExtPhase → Bool
  | .size => true
  | _ => false

def isAllocated : LoginExtPhase → Bool
  | .allocated _ => true
  | _ => false

def reply : LoginExtPhase → Option (Int × LoginResponseExt)
  | .answered payloadSz resp _ => some (payloadSz, resp)
  | .returned reply => reply
  | _ => none

end LoginExtPhase

def LoginExtCall.advance (call : LoginExtCall) (state : State) : LoginExtPhase → State × LoginExtPhase
  | .size =>
    let (state, user, groups) := state.lookupGroups call.req.accountName
    (state, .sized (loginResponsePayloadSz groups.length) user)
  | .sized payloadSz user =>
    -- The sum is a `size_t`.
    let size := ((loginResponseExtSize + payloadSz) % 2 ^ 64).toNat
    (state.putKsmbdUser user, if ipcMsgAlloc call.allocates size then .allocated payloadSz else .returned none)
  | .allocated payloadSz =>
    if !call.valid then (state, .answered payloadSz {} none)
    else
      let (state, user, groups) := state.lookupGroups call.req.accountName
      (state, .answered payloadSz (copyGroups groups) user)
  | .answered payloadSz resp user => (state.putKsmbdUser user, .returned (some (payloadSz, resp)))
  | .returned reply => (state, .returned reply)

/-- Where `usm_remove_all_users` and `cp_parse_pwddb` of a reload stand. -/
inductive ReloadPhase where
  | remove (pwddb : FileContents)
  | parse (entries : List CStr)
  | update (user : Ref User) (pwd : CStr) (entries : List CStr)
  | put (user : Ref User) (entries : List CStr)
  | add (name pwd : CStr) (entries : List CStr)
  | finished (ok : Bool)

/-- The next section of the reload. A new record is made before its section, but nobody else can see it. -/
def ReloadPhase.advance (state : State) : ReloadPhase → State × ReloadPhase
  | .remove pwddb =>
    (state.usmRemoveAllUsers, match pwddb with
      | .missing => .finished true
      | .unreadable => .finished false
      | .bytes contents => .parse (fileEntries contents))
  | .parse [] => (state, .finished true)
  | .parse (entry :: entries) =>
    if entry.isEmpty then (state, .parse entries)
    else match isAUserPassword platform entry with
      | none => (state, .finished false)
      | some (name, pwd) =>
        match state.usmLookupUser (some name) with
        | (state, some user) => (state, .update user pwd entries)
        | (state, none) => (state, .add name pwd entries)
  | .update user pwd entries => (state.usmUpdateUserPassword platform user pwd, .put user entries)
  | .put user entries => (state.putUser user, .parse entries)
  | .add name pwd entries => ((state.usmAddNewUser platform name pwd).1, .parse entries)
  | .finished ok => (state, .finished ok)

def ReloadPhase.alone : Nat → State → ReloadPhase → State × ReloadPhase
  | 0, state, phase => (state, phase)
  | sections + 1, state, phase =>
    let (state, phase) := phase.advance platform state
    phase.alone sections state

inductive Party where
  | login
  | reload
  deriving DecidableEq

structure LoginRace where
  state : State
  login : LoginExtPhase
  reload : ReloadPhase

namespace LoginRace

def start (state : State) (pwddb : FileContents) : LoginRace := ⟨state, .size, .remove pwddb⟩

def step (call : LoginExtCall) (race : LoginRace) : Party → LoginRace
  | .login =>
    let (state, login) := call.advance race.state race.login
    { race with state, login }
  | .reload =>
    let (state, reload) := race.reload.advance platform race.state
    { race with state, reload }

def run (call : LoginExtCall) (race : LoginRace) (schedule : List Party) : LoginRace :=
  schedule.foldl (step platform call) race

/-- The ids that were copied are within the payload that was allocated, and are as many as the reply says. -/
def Fits (race : LoginRace) : Prop :=
  ∀ payloadSz resp, race.login.reply = some (payloadSz, resp) →
    4 * (resp.payload.length : Int) ≤ payloadSz ∧ resp.ngroups = resp.payload.length

end LoginRace
end KsmbdTools.Management
