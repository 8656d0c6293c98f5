import KsmbdTools.Management.TreeConn

/-! The daemon between two configuration loads: requests are served one at a
time, and a reload replaces users and shares under the open sessions. -/

namespace KsmbdTools.Management

variable (platform : Platform)

/-- What the password file and the configuration file say once parsed. -/
structure Config where
  globalConf : SmbconfGlobal := {}
  users : List (CStr × CStr) := []
  shares : List ShareGroup := []

namespace State

def addShares (state : State) (groups : List ShareGroup) : State × Bool :=
  groups.foldl (fun (state, added) group =>
    let (state, ok) := state.shmAddNewShare platform group
    (state, added && ok)) (state, true)

private theorem addShares_fold (groups : List ShareGroup) (state : State) (added : Bool) :
    groups.foldl (fun (state, added) group =>
        let (state, ok) := state.shmAddNewShare platform group
        (state, added && ok)) (state, added) =
      ((state.addShares platform groups).1, added && (state.addShares platform groups).2) := by
  induction groups generalizing state added with
  | nil => simp [addShares]
  | cons group groups ih =>
    unfold addShares
    simp only [List.foldl_cons]
    rw [ih, ih]
    simp [Bool.and_assoc]

theorem addShares_cons (state : State) (group : ShareGroup) (groups : List ShareGroup) :
    state.addShares platform (group :: groups) =
      (((state.shmAddNewShare platform group).1.addShares platform groups).1,
        (state.shmAddNewShare platform group).2 &&
        ((state.shmAddNewShare platform group).1.addShares platform groups).2) := by
  conv_lhs => unfold addShares
  rw [List.foldl_cons]
  refine (addShares_fold platform groups (state.shmAddNewShare platform group).1
    (true && (state.shmAddNewShare platform group).2)).trans ?_
  rw [Bool.true_and]

/-- `load_config` of the daemon, with whether it returned 0. A reload reads no
global setting. Shares are added only when the guest account could be. -/
def loadConfig (state : State) (config : Config) : State × Bool :=
  let state := state.usmRemoveAllUsers
  let state := config.users.foldl (fun state entry => state.addUserPassword platform entry.1 entry.2) state
  let state := state.shmRemoveAllShares platform
  let state := if state.reloading then state else { state with globalConf := config.globalConf }
  match state.globalConf.guestAccount.elim (state, true) (state.usmAddGuestAccount platform ·) with
  | (state, false) => (state, false)
  | (state, true) => state.addShares platform config.shares

end State

inductive Request where
  | login (req : LoginRequest)
  | logout (req : LogoutRequest)
  | treeConnect (memory : Memory) (req : TreeConnectRequest)
  | treeDisconnect (sessId connId : UInt64)
  | reload (config : Config)

namespace State

/-- The state after the request and, for a tree connect, its answer. -/
def serve (retries : Nat) (state : State) : Request → Option (State × Option TreeConnStatus)
  | .login req => some ((state.usmHandleLoginRequest req).1, none)
  | .logout req => some (state.usmHandleLogoutRequest req, none)
  | .treeConnect memory req =>
    (state.tcmHandleTreeConnect platform memory retries req).map fun (state, resp) => (state, some resp.status)
  | .treeDisconnect sessId connId => (state.tcmHandleTreeDisconnect platform sessId connId).map (·, none)
  | .reload config =>
    -- the signal handler has raised `KSMBD_SHOULD_RELOAD_CONFIG`; only a load that succeeds clears it
    let (state, loaded) := { state with reloading := true }.loadConfig platform config
    some ({ state with reloading := !loaded }, none)

def run (retries : Nat) (state : State) : List Request → Option State
  | [] => some state
  | request :: requests => do
    let (state, _) ← state.serve platform retries request
    state.run retries requests

end State
end KsmbdTools.Management
