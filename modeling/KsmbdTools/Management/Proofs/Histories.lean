import KsmbdTools.Management.Proofs.Reload

/-! What one request does to a consistent state, and from it what a history of
requests keeps. -/

namespace KsmbdTools.Management
variable (platform : Platform)

inductive Effect (state : State) : Request → State → Option TreeConnStatus → Prop where
  | login {req after} (only : OnlyUsers state after) (users : UsersMove state after 0) :
    Effect state (.login req) after none
  | logout {req after} (only : OnlyUsers state after) (users : UsersMove state after 0) :
    Effect state (.logout req) after none
  | connect {memory req after resp} (effect : ConnectEffect platform state memory req after resp) :
    Effect state (.treeConnect memory req) after (some resp.status)
  | disconnect {sessId connId after} (effect : DisconnectEffect state sessId connId after) :
    Effect state (.treeDisconnect sessId connId) after none
  | reload {config after} (reshared : Reshared platform state after) :
    Effect state (.reload config) after none

def Allocates (state : State) : Request → Prop
  | .treeConnect memory req => ∀ share record user, Admitted platform state req share record user →
      state.sessionsTable.lookup req.sessionId = none → memory.sess = true
  | _ => True

/-- Tree connects and disconnects, the requests that open and close sessions. -/
def Request.isTree : Request → Bool
  | .treeConnect .. | .treeDisconnect .. => true
  | _ => false

variable {platform}

theorem Effect.consistent {state after : State} {request : Request} {answer : Option TreeConnStatus}
    (consistent : Consistent platform state) (allocates : Allocates platform state request)
    (effect : Effect platform state request after answer) : Consistent platform after := by
  cases effect with
  | login only users => exact consistent.congr only
  | logout only users => exact consistent.congr only
  | connect effect => exact consistent.connect allocates effect
  | disconnect effect => exact consistent.disconnect effect
  | reload reshared => exact reshared.consistent

namespace State

theorem serve_effect {state : State} (consistent : Consistent platform state) (retries : Nat) (request : Request) :
    ∃ after answer, state.serve platform (retries + 1) request = some (after, answer) ∧
      Effect platform state request after answer := by
  cases request with
  | login req =>
    exact ⟨_, none, rfl, .login (state.usmHandleLoginRequest_only req) (state.usmHandleLoginRequest_moves req)⟩
  | logout req =>
    exact ⟨_, none, rfl, .logout (state.usmHandleLogoutRequest_only req) (state.usmHandleLogoutRequest_moves req)⟩
  | treeConnect memory req =>
    obtain ⟨after, resp, answered, effect⟩ :=
      tcmHandleTreeConnect_effect platform consistent.shares consistent.sessions memory req retries
    exact ⟨after, some resp.status, by simp [serve, answered], .connect effect⟩
  | treeDisconnect sessId connId =>
    obtain ⟨after, answered, effect⟩ := smHandleTreeDisconnect_effect platform consistent sessId connId
    exact ⟨after, none, by simp [serve, tcmHandleTreeDisconnect, answered], .disconnect effect⟩
  | reload config =>
    have raised := consistent.setConf state.globalConf true
    have loaded := raised.trans (raised.consistent.load config)
    exact ⟨_, none, rfl, .reload (loaded.trans (loaded.consistent.setConf _ _))⟩

variable (platform)

/-- A run with a note kept beside the state, written from what each request finds
and how it is answered. -/
def runWith {γ : Type} (note : State → Request → Option TreeConnStatus → γ → γ) (retries : Nat) (state : State) (noted : γ) :
    List Request → Option (State × γ)
  | [] => some (state, noted)
  | request :: requests => do
    let (after, answer) ← state.serve platform retries request
    after.runWith note retries (note state request answer noted) requests

/-- Every request of the history meets the condition in the state it is served in. -/
def Meets (condition : State → Request → Prop) (retries : Nat) (state : State) : List Request → Prop
  | [] => True
  | request :: requests => condition state request ∧
      ∀ after answer, state.serve platform retries request = some (after, answer) →
        after.Meets condition retries requests

variable {platform}

theorem Meets.weaken {strong weak : State → Request → Prop} {retries : Nat} {requests : List Request} {state : State}
    (meets : state.Meets platform strong retries requests)
    (implies : ∀ current, ∀ request ∈ requests, strong current request → weak current request) :
    state.Meets platform weak retries requests := by
  induction requests generalizing state with
  | nil => trivial
  | cons request requests ih =>
    refine ⟨implies state request List.mem_cons_self meets.1, fun after answer served => ?_⟩
    exact ih (meets.2 after answer served) fun current item member => implies current item (List.mem_cons_of_mem _ member)

theorem Meets.of_forall {condition : State → Request → Prop} {retries : Nat} {requests : List Request} {state : State}
    (every : ∀ current, ∀ request ∈ requests, condition current request) :
    state.Meets platform condition retries requests := by
  induction requests generalizing state with
  | nil => trivial
  | cons request requests ih =>
    exact ⟨every state request List.mem_cons_self,
      fun _ _ _ => ih fun current item member => every current item (List.mem_cons_of_mem _ member)⟩

/-- The run rule: what every effect keeps under the condition holds at the end of
every history that meets it, and the history is served to its end. -/
theorem run_keeps {γ : Type} (note : State → Request → Option TreeConnStatus → γ → γ)
    (condition : State → Request → Prop) (invariant : State → γ → Prop) (retries : Nat)
    (allocates : ∀ state request, condition state request → Allocates platform state request)
    (step : ∀ state request after answer noted, Consistent platform state → invariant state noted →
      condition state request → Effect platform state request after answer →
        invariant after (note state request answer noted))
    (requests : List Request) (state : State) (noted : γ) (consistent : Consistent platform state)
    (holds : invariant state noted) (meets : state.Meets platform condition (retries + 1) requests) :
    ∃ final written, state.runWith platform note (retries + 1) noted requests = some (final, written) ∧
      state.run platform (retries + 1) requests = some final ∧ Consistent platform final ∧ invariant final written := by
  induction requests generalizing state noted with
  | nil => exact ⟨state, noted, rfl, rfl, consistent, holds⟩
  | cons request requests ih =>
    obtain ⟨met, later⟩ := meets
    obtain ⟨after, answer, served, effect⟩ := serve_effect consistent retries request
    obtain ⟨final, written, ranWith, ran, kept⟩ := ih after (note state request answer noted)
      (effect.consistent consistent (allocates state request met))
      (step state request after answer noted consistent holds met effect) (later after answer served)
    exact ⟨final, written, by simp [runWith, served, ranWith], by simp [run, served, ran], kept⟩

theorem run_trees (condition : State → Request → Prop) (invariant : State → Prop) (retries : Nat)
    (allocates : ∀ state request, condition state request → Allocates platform state request)
    (connect : ∀ state memory req after resp, Consistent platform state → invariant state →
      condition state (.treeConnect memory req) → ConnectEffect platform state memory req after resp → invariant after)
    (disconnect : ∀ state sessId connId after, Consistent platform state → invariant state →
      DisconnectEffect state sessId connId after → invariant after)
    (requests : List Request) (state : State) (consistent : Consistent platform state) (holds : invariant state)
    (trees : ∀ request ∈ requests, request.isTree = true) (meets : state.Meets platform condition (retries + 1) requests) :
    ∃ final, state.run platform (retries + 1) requests = some final ∧ Consistent platform final ∧ invariant final := by
  have step : ∀ current request after answer (noted : Unit), Consistent platform current → invariant current →
      request.isTree = true ∧ condition current request → Effect platform current request after answer →
        invariant after := by
    intro current request after answer _ consistent holds met effect
    cases effect with
    | connect effect => exact connect current _ _ after _ consistent holds met.2 effect
    | disconnect effect => exact disconnect current _ _ after consistent holds effect
    | login | logout | reload => cases met.1
  obtain ⟨final, -, -, ran, kept⟩ := run_keeps (fun _ _ _ noted => noted)
    (fun current request => request.isTree = true ∧ condition current request) (fun current _ => invariant current)
    retries (fun current request met => allocates current request met.2) step requests state () consistent holds
    (meets.weaken fun current request member met => ⟨trees request member, met⟩)
  exact ⟨final, ran, kept⟩

end State

/-! One small configuration, for concrete histories. -/

namespace Scenario

/-- A platform without system accounts, on which names fold as ASCII. -/
def plainPlatform : Platform where
  utf8Normalize := some
  utf8Casefold := asciiStrdown
  utf8Validate _ := true
  inetPton _ _ := none
  getpwnam _ := none
  getgrouplist _ := []
  getgrnam _ := none
  getpwuid _ := none
  gethostname := none
  base64Decode := some
  gconvert _ _ bytes := some bytes
  utf8Strlen := List.length

def account : CStr := [97]

def shareName : CStr := [100]

def config (share : ShareGroup) : Config :=
  { globalConf := { sessionsCap := 2 }, users := [(account, [])], shares := [share] }

def loaded (share : ShareGroup) : State := (({} : State).loadConfig plainPlatform (config share)).1

theorem loaded_consistent (share : ShareGroup) : Consistent plainPlatform (loaded share) :=
  ((Consistent.initial plainPlatform {}).load _).consistent

def connect (sessionId connectId : UInt64) : TreeConnectRequest :=
  { sessionId, connectId, account := .ofStr 256 account, share := .ofStr 64 shareName, peerAddr := .ofStr 64 [49] }

end Scenario
end KsmbdTools.Management
