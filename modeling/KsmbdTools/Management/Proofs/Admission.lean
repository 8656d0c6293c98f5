import KsmbdTools.Management.Proofs.Histories

/-! When a tree connect is answered with OK, and what the share's lists of hosts and
users have to do with it. -/

namespace KsmbdTools.Management
variable (platform : Platform)

/-- The connect passes every check and finds, or can make, its session. -/
structure Connects (state : State) (memory : Memory) (req : TreeConnectRequest) (share : Ref Share) (record : Share)
    (user : Ref User) : Prop where
  allocated : memory.conn = true
  admitted : Admitted platform state req share record user
  session : (state.sessionsTable.lookup req.sessionId).isSome ∨
    memory.sess = true ∧ (skipsCapacityCheck state req record = true ∨ 1 ≤ state.globalConf.sessionsCap)

namespace State
variable {platform} {state current : State} {memory : Memory} {req : TreeConnectRequest} {share : Ref Share}
  {record : Share} {user : Ref User}

theorem bindTreeConn_status (sessions : SessionsSound current)
    (session : (current.sessionsTable.lookup req.sessionId).isSome ∨ memory.sess = true) (retries : Nat)
    (share : Ref Share) (user : Ref User) (flags : UInt32) :
    ∃ after resp, current.bindTreeConn platform memory (retries + 1) req share user flags = some (after, resp) ∧
      resp.status = .ok := by
  cases known : current.sessionsTable.lookup req.sessionId with
  | some sess =>
    simp only [bindTreeConn, smHandleTreeConnect_known platform sessions known, Option.bind_eq_bind, Option.bind_some,
      ↓reduceIte]
    exact ⟨_, _, rfl, rfl⟩
  | none =>
    have allocated : memory.sess = true := by simpa [known] using session
    simp only [bindTreeConn, smHandleTreeConnect_unknown platform known allocated, Option.bind_eq_bind, Option.bind_some,
      ↓reduceIte]
    exact ⟨_, _, rfl, rfl⟩

theorem connectAccount_status (sessions : SessionsSound state) (account : connectsAsGuest state req record = false)
    (connects : Connects platform state memory req share record user) (retries : Nat) :
    ∃ after resp, (state.withShare share openShare).connectAccount platform memory (retries + 1) req share
        { record with refCount := record.refCount + 1 } = some (after, resp) ∧ resp.status = .ok := by
  have named : (state.usmLookupUser (some req.account.str)).2 = some user := by
    have bound := connects.admitted.account
    rwa [connectUser, account, if_neg Bool.false_ne_true] at bound
  obtain ⟨seen, looked⟩ : ∃ seen, (state.withShare share openShare).usmLookupUser (some req.account.str) =
      (seen, some user) := ⟨_, by rw [usmLookupUser_withShare, named]⟩
  have only := (state.withShare share openShare).usmLookupUser_only (some req.account.str)
  rw [looked] at only
  have held : OnlyUsers (state.withShare share openShare) (seen.resetFailedLogins user) :=
    only.trans (seen.resetFailedLogins_only user)
  have sound := sessions.congr held.sessions held.sessionsTable
  have table : (seen.resetFailedLogins user).sessionsTable = state.sessionsTable := held.sessionsTable
  unfold connectAccount
  rw [looked]
  dsimp only
  split
  next refused =>
    exact absurd ((admitUser_refuse_iff record req.account.str _ 0).mp refused) (connects.admitted.maps account)
  next =>
    exact bindTreeConn_status sound (by rw [table]; exact connects.session.imp_right And.left) retries share user _
  next bound =>
    have checks := skipsCapacityCheck_account account bound
    cases known : state.sessionsTable.lookup req.sessionId with
    | some sess =>
      rw [smCheckSessionsCapacity_known platform sound (table ▸ known)]
      exact bindTreeConn_status sound (.inl (by rw [table, known]; rfl)) retries share user _
    | none =>
      obtain ⟨allocated, room⟩ : memory.sess = true ∧ 1 ≤ state.globalConf.sessionsCap := by
        simpa [known, checks] using connects.session
      have unseen := smLookupSession_none (table ▸ known)
      have capacity : ¬(seen.resetFailedLogins user).globalConf.sessionsCap < 1 := by
        rw [held.globalConf]
        exact Int.not_lt.mpr room
      simp only [smCheckSessionsCapacity, unseen, Option.bind_eq_bind, Option.bind_some, if_neg capacity, ↓reduceIte]
      refine bindTreeConn_status ?_ (.inr allocated) retries share user _
      exact sound.congr rfl rfl

theorem connectShare_status (sessions : SessionsSound state)
    (connects : Connects platform state memory req share record user) (retries : Nat) :
    ∃ after resp, (state.withShare share openShare).connectShare platform memory (retries + 1) req share
        { record with refCount := record.refCount + 1 } = some (after, resp) ∧ resp.status = .ok := by
  have peer : refusePeer platform (state.withShare share openShare).globalConf
      { record with refCount := record.refCount + 1 } req = none := connects.admitted.peer
  have guest := lookupGuest_withShare state share openShare record
  have only := (state.withShare share openShare).lookupGuest_only { record with refCount := record.refCount + 1 }
  unfold connectShare
  rw [peer]
  dsimp only
  split
  next requested =>
    split
    next current other seen =>
      rw [seen] at only
      have table : current.sessionsTable = state.sessionsTable := only.sessionsTable
      exact bindTreeConn_status (sessions.congr only.sessions only.sessionsTable)
        (by rw [table]; exact connects.session.imp_right And.left) retries share other _
    next current missing =>
      obtain rfl := lookupGuest_none missing
      have absent : (state.lookupGuest record).2 = none := by
        rw [← guest]
        exact congrArg Prod.snd missing
      exact connectAccount_status sessions (by simp [connectsAsGuest, absent]) connects retries
  next account => exact connectAccount_status sessions (by simp [connectsAsGuest, account]) connects retries

theorem tcmHandleTreeConnect_connects (shares : SharesSound state) (sessions : SessionsSound state)
    (connects : Connects platform state memory req share record user) (retries : Nat) :
    ∃ after resp, state.tcmHandleTreeConnect platform memory (retries + 1) req = some (after, resp) ∧
      resp.status = .ok := by
  have accepted := connects.admitted.accepted
  have known := connects.admitted.known
  have found := connects.admitted.found
  have held : (state.withShare share fun record => { record with refCount := record.refCount + 1 }).shares.get? share =
      some { record with refCount := record.refCount + 1 } := by simp [withShare, found]
  have counted := shmOpenConnection_room held connects.admitted.room
  rw [open_lookup] at counted
  simp only [tcmHandleTreeConnect, connects.allocated, Bool.not_true, Bool.false_eq_true, ↓reduceIte, accepted,
    shmLookupShare_some platform shares known, held, counted]
  exact connectShare_status sessions connects retries

theorem tcmHandleTreeConnect_ok_iff (shares : SharesSound state) (sessions : SessionsSound state) {retries : Nat}
    {after : State} {resp : TreeConnectResponse}
    (answered : state.tcmHandleTreeConnect platform memory (retries + 1) req = some (after, resp)) :
    resp.status = .ok ↔ ∃ share record user, Connects platform state memory req share record user := by
  constructor
  · intro status
    have allocated : memory.conn = true := by
      cases conn : memory.conn with
      | true => rfl
      | false =>
        simp only [tcmHandleTreeConnect, conn, Bool.not_false, ↓reduceIte, Option.some.injEq, Prod.mk.injEq] at answered
        rw [← answered.2] at status
        cases status
    obtain ⟨_, _, same, effect⟩ := tcmHandleTreeConnect_effect platform shares sessions memory req retries
    cases answered.symm.trans same
    cases effect with
    | refused refused => exact absurd status refused
    | full => cases status
    | unallocated _ refused => exact absurd status refused
    | joined user flags _ admitted session => exact ⟨_, _, user, allocated, admitted, .inl (by rw [session]; rfl)⟩
    | opened user flags _ admitted fresh capacity _ _ made =>
      refine ⟨_, _, user, allocated, admitted, .inr ⟨made, ?_⟩⟩
      cases skips : skipsCapacityCheck state req _ with
      | true => exact .inl rfl
      | false => exact .inr (capacity skips)
  · rintro ⟨share, record, user, connects⟩
    obtain ⟨_, _, same, status⟩ := tcmHandleTreeConnect_connects shares sessions connects retries
    cases answered.symm.trans same
    exact status

end State

def State.requestedShare (state : State) (req : TreeConnectRequest) : Option Share :=
  (state.sharesTable.lookup (shmCasefoldShareName platform req.share.str)).bind state.shares.get?

theorem Connects.requestedShare {state : State} {memory : Memory} {req : TreeConnectRequest} {share : Ref Share}
    {record : Share} {user : Ref User} (connects : Connects platform state memory req share record user) :
    state.requestedShare platform req = some record := by
  rw [State.requestedShare, connects.admitted.known]
  exact connects.admitted.found

/-! Hosts. -/

def Listed (hosts : Option (List CStr)) (peer : CStr) : Prop :=
  ∃ patterns ∈ hosts, ∃ pattern ∈ patterns, matchHostCidr platform pattern peer = true

/-- What the manual says of `hosts allow` and `hosts deny`. -/
def HostPolicy (share : Share) (peer : CStr) : Prop :=
  ¬Listed platform share.hostsDeny peer ∧ (share.hostsAllow.isSome → Listed platform share.hostsAllow peer)

theorem listed_iff (hosts : Option (List CStr)) (peer : CStr) :
    Listed platform hosts peer ↔ shmLookupHostsMap platform hosts peer = .present := by
  cases hosts with
  | none => simp [Listed, shmLookupHostsMap]
  | some patterns =>
    cases matched : patterns.any (matchHostCidr platform · peer) <;> simp_all [Listed, shmLookupHostsMap]

theorem hostDenied_eq_false_iff (share : Share) (peer : CStr) :
    hostDenied platform share peer = false ↔
      Listed platform share.hostsAllow peer ∨ share.hostsAllow = none ∧ ¬Listed platform share.hostsDeny peer := by
  rw [listed_iff, listed_iff, hostDenied]
  cases allow : share.hostsAllow with
  | none => simp [shmLookupHostsMap]
  | some patterns => cases matched : patterns.any (matchHostCidr platform · peer) <;> simp [shmLookupHostsMap, matched]

/-- A connect that is answered with OK respects the lists, unless the peer stands in both. -/
theorem host_policy_iff {state : State} (shares : SharesSound state) (sessions : SessionsSound state) {memory : Memory}
    {retries : Nat} {req : TreeConnectRequest} {after : State} {resp : TreeConnectResponse}
    (answered : state.tcmHandleTreeConnect platform memory (retries + 1) req = some (after, resp)) :
    (resp.status = .ok → ∀ record ∈ state.requestedShare platform req, HostPolicy platform record req.peerAddr.str) ↔
      ¬∃ share record user, Connects platform state memory req share record user ∧
        Listed platform record.hostsAllow req.peerAddr.str ∧ Listed platform record.hostsDeny req.peerAddr.str := by
  rw [State.tcmHandleTreeConnect_ok_iff shares sessions answered]
  constructor
  · rintro respected ⟨share, record, user, connects, _, deny⟩
    exact (respected ⟨share, record, user, connects⟩ record (connects.requestedShare platform)).1 deny
  · rintro apart ⟨share, record, user, connects⟩ other named
    obtain rfl : record = other := Option.some.inj ((connects.requestedShare platform).symm.trans named)
    have passed : hostDenied platform record req.peerAddr.str = false := by
      have peer := connects.admitted.peer
      unfold refusePeer at peer
      split at peer
      · cases peer
      next allowed => simpa using allowed
    rcases (hostDenied_eq_false_iff platform record _).mp passed with allow | ⟨absent, undenied⟩
    · exact ⟨fun deny => apart ⟨share, record, user, connects, allow, deny⟩, fun _ => allow⟩
    · refine ⟨undenied, fun present => ?_⟩
      rw [absent] at present
      cases present

/-- A peer that `hosts deny` does not name. -/
theorem host_policy_iff_plain :
    let state := Scenario.loaded { name := Scenario.shareName, hostsDeny := some [[50]] }
    ∀ record ∈ state.requestedShare Scenario.plainPlatform (Scenario.connect 1 1),
      HostPolicy Scenario.plainPlatform record (Scenario.connect 1 1).peerAddr.str := by
  intro state
  have consistent : Consistent Scenario.plainPlatform state := Scenario.loaded_consistent _
  have status : (state.tcmHandleTreeConnect Scenario.plainPlatform {} 1 (Scenario.connect 1 1)).map (·.2.status) =
      some .ok := by decide +kernel
  obtain ⟨⟨after, resp⟩, answered, ok⟩ := Option.map_eq_some_iff.mp status
  refine (host_policy_iff Scenario.plainPlatform consistent.shares consistent.sessions answered).mpr ?_ ok
  rintro ⟨share, record, user, connects, allow, _⟩
  have lists : ∀ record ∈ state.requestedShare Scenario.plainPlatform (Scenario.connect 1 1), record.hostsAllow = none := by
    decide +kernel
  rw [lists record (connects.requestedShare Scenario.plainPlatform)] at allow
  obtain ⟨_, absent, _⟩ := allow
  cases absent

/-- A peer that both lists name is let in. -/
theorem denied_host_connects :
    let state := Scenario.loaded { name := Scenario.shareName, hostsAllow := some [[49]], hostsDeny := some [[49]] }
    (state.tcmHandleTreeConnect Scenario.plainPlatform {} 1 (Scenario.connect 1 1)).map (·.2.status) = some .ok ∧
      (state.requestedShare Scenario.plainPlatform (Scenario.connect 1 1)).isSome ∧
      ∀ record ∈ state.requestedShare Scenario.plainPlatform (Scenario.connect 1 1),
        ¬HostPolicy Scenario.plainPlatform record (Scenario.connect 1 1).peerAddr.str := by
  intro state
  refine ⟨by decide +kernel, by decide +kernel, ?_⟩
  intro record named policy
  have lists : ∀ record ∈ state.requestedShare Scenario.plainPlatform (Scenario.connect 1 1),
      shmLookupHostsMap Scenario.plainPlatform record.hostsDeny (Scenario.connect 1 1).peerAddr.str = .present := by
    decide +kernel
  exact policy.1 ((listed_iff Scenario.plainPlatform _ _).mpr (lists record named))

/-! Users. -/

/-- The account a connect is bound to: the share's guest account, the global one, or the
account of the request. -/
def boundName (state : State) (req : TreeConnectRequest) (record : Share) : Option CStr :=
  if connectsAsGuest state req record then
    if (state.usmLookupUser record.guestAccount).2.isSome then record.guestAccount else state.globalConf.guestAccount
  else some req.account.str

theorem connectUser_eq (state : State) (req : TreeConnectRequest) (record : Share) :
    connectUser state req record = (state.usmLookupUser (boundName state req record)).2 := by
  unfold connectUser boundName
  split
  next =>
    unfold State.lookupGuest
    split
    next seen => simp [seen]
    next missing =>
      have same := State.usmLookupUser_none missing
      simp [missing, same]
  next => rfl

/-- What the manual says of `invalid users` and `valid users`. -/
def UserPolicy (share : Share) (name : CStr) : Prop :=
  shmLookupUsersMap share .invalidUsers name ≠ .present ∧
    (share.maps.validUsers.isSome → shmLookupUsersMap share .validUsers name = .present)

/-- The ways around the lists. A guest is bound without a look at them, and so is an
administrator; the read and write lists come before `valid users`. -/
def BypassesLists (state : State) (req : TreeConnectRequest) (record : Share) : Prop :=
  if connectsAsGuest state req record then ∃ name ∈ boundName state req record, ¬UserPolicy record name
  else
    shmLookupUsersMap record .adminUsers req.account.str = .present ∧ ¬UserPolicy record req.account.str ∨
    (shmLookupUsersMap record .readList req.account.str = .present ∨
      shmLookupUsersMap record .writeList req.account.str = .present) ∧
      shmLookupUsersMap record .validUsers req.account.str = .missing

theorem validUsers_missing_iff (share : Share) (name : CStr) :
    shmLookupUsersMap share .validUsers name = .missing ↔
      share.maps.validUsers.isSome ∧ shmLookupUsersMap share .validUsers name ≠ .present := by
  unfold shmLookupUsersMap ShareMaps.get
  cases share.maps.validUsers with
  | none => simp
  | some users => by_cases listed : name ∈ users <;> simp [listed]

/-- An account that the maps do not refuse is on the right side of both lists, unless it
got around them. -/
theorem admitUser_policy {record : Share} {account : CStr} (admitted : admitUser record account 0 ≠ .refuse)
    (admin : shmLookupUsersMap record .adminUsers account ≠ .present)
    (listed : shmLookupUsersMap record .validUsers account = .missing →
      shmLookupUsersMap record .readList account ≠ .present ∧ shmLookupUsersMap record .writeList account ≠ .present) :
    UserPolicy record account := by
  unfold admitUser at admitted
  rw [if_neg admin] at admitted
  have valid : shmLookupUsersMap record .invalidUsers account ≠ .present := by
    intro invalid
    rw [if_pos invalid] at admitted
    exact admitted rfl
  refine ⟨valid, fun present => ?_⟩
  by_contra outside
  have missing := (validUsers_missing_iff record account).mpr ⟨present, outside⟩
  obtain ⟨reads, writes⟩ := listed missing
  rw [if_neg valid, if_neg reads, if_neg writes, missing] at admitted
  exact admitted rfl

/-- A connect that is answered with OK respects the lists of users, unless it goes around
them. -/
theorem user_policy_iff {state : State} (shares : SharesSound state) (sessions : SessionsSound state) {memory : Memory}
    {retries : Nat} {req : TreeConnectRequest} {after : State} {resp : TreeConnectResponse}
    (answered : state.tcmHandleTreeConnect platform memory (retries + 1) req = some (after, resp)) :
    (resp.status = .ok → ∀ record ∈ state.requestedShare platform req, ∀ name ∈ boundName state req record,
        UserPolicy record name) ↔
      ¬∃ share record user, Connects platform state memory req share record user ∧ BypassesLists state req record := by
  rw [State.tcmHandleTreeConnect_ok_iff shares sessions answered]
  constructor
  · rintro respected ⟨share, record, user, connects, bypasses⟩
    have policy := respected ⟨share, record, user, connects⟩ record (connects.requestedShare platform)
    unfold BypassesLists at bypasses
    split at bypasses
    next =>
      obtain ⟨name, bound, violated⟩ := bypasses
      exact violated (policy name bound)
    next account =>
      have own := policy req.account.str (by simp [boundName, account])
      rcases bypasses with ⟨_, violated⟩ | ⟨_, missing⟩
      · exact violated own
      · obtain ⟨present, outside⟩ := (validUsers_missing_iff record _).mp missing
        exact outside (own.2 present)
  · rintro straight ⟨share, record, user, connects⟩ other named name bound
    obtain rfl : record = other := Option.some.inj ((connects.requestedShare platform).symm.trans named)
    have kept : ¬BypassesLists state req record := fun bypasses => straight ⟨share, record, user, connects, bypasses⟩
    unfold BypassesLists at kept
    split at kept
    next =>
      by_contra violated
      exact kept ⟨name, bound, violated⟩
    next account =>
      obtain rfl : req.account.str = name := by simpa [boundName, account] using bound
      rw [not_or] at kept
      by_contra violated
      refine violated (admitUser_policy (connects.admitted.maps (by simpa using account))
        (fun admin => kept.1 ⟨admin, violated⟩) fun missing => ?_)
      exact ⟨fun reads => kept.2 ⟨.inl reads, missing⟩, fun writes => kept.2 ⟨.inr writes, missing⟩⟩

/-- An account on the list of valid users. -/
theorem user_policy_iff_valid :
    let state := Scenario.loaded { name := Scenario.shareName, validUsers := some [Scenario.account] }
    ∀ record ∈ state.requestedShare Scenario.plainPlatform (Scenario.connect 1 1),
      ∀ name ∈ boundName state (Scenario.connect 1 1) record, UserPolicy record name := by
  intro state
  have consistent : Consistent Scenario.plainPlatform state := Scenario.loaded_consistent _
  have status : (state.tcmHandleTreeConnect Scenario.plainPlatform {} 1 (Scenario.connect 1 1)).map (·.2.status) =
      some .ok := by decide +kernel
  obtain ⟨⟨after, resp⟩, answered, ok⟩ := Option.map_eq_some_iff.mp status
  refine (user_policy_iff Scenario.plainPlatform consistent.shares consistent.sessions answered).mpr ?_ ok
  rintro ⟨share, record, user, connects, bypasses⟩
  have lists : ∀ record ∈ state.requestedShare Scenario.plainPlatform (Scenario.connect 1 1),
      record.maps.adminUsers = none ∧ record.maps.readList = none ∧ record.maps.writeList = none := by decide +kernel
  obtain ⟨admin, reads, writes⟩ := lists record (connects.requestedShare Scenario.plainPlatform)
  have account : connectsAsGuest state (Scenario.connect 1 1) record = false := by
    simp [connectsAsGuest, show guestRequested (Scenario.connect 1 1) = false by decide]
  simp [BypassesLists, account, shmLookupUsersMap, ShareMaps.get, admin, reads, writes] at bypasses

/-- A user of the read list is let in although `valid users` does not name it, and a guest
although `invalid users` does. -/
theorem lists_bypassed :
    let readers := Scenario.loaded
      { name := Scenario.shareName, validUsers := some [], readList := some [Scenario.account] }
    let guests := Scenario.loaded
      { name := Scenario.shareName, flags := ShareFlag.guestOk, guestAccount := some [103], invalidUsers := some [[103]] }
    let guest := { Scenario.connect 1 1 with accountFlags := 16 }
    (readers.tcmHandleTreeConnect Scenario.plainPlatform {} 1 (Scenario.connect 1 1)).map (·.2.status) = some .ok ∧
      (∃ record ∈ readers.requestedShare Scenario.plainPlatform (Scenario.connect 1 1),
        boundName readers (Scenario.connect 1 1) record = some Scenario.account ∧ ¬UserPolicy record Scenario.account) ∧
    (guests.tcmHandleTreeConnect Scenario.plainPlatform {} 1 guest).map (·.2.status) = some .ok ∧
      ∃ record ∈ guests.requestedShare Scenario.plainPlatform guest,
        boundName guests guest record = some [103] ∧ ¬UserPolicy record [103] := by
  intro readers guests guest
  have reader : ∀ record ∈ readers.requestedShare Scenario.plainPlatform (Scenario.connect 1 1),
      boundName readers (Scenario.connect 1 1) record = some Scenario.account ∧ record.maps.validUsers.isSome ∧
        shmLookupUsersMap record .validUsers Scenario.account ≠ .present := by decide +kernel
  have visitor : ∀ record ∈ guests.requestedShare Scenario.plainPlatform guest,
      boundName guests guest record = some [103] ∧ shmLookupUsersMap record .invalidUsers [103] = .present := by
    decide +kernel
  obtain ⟨first, readShare⟩ := Option.isSome_iff_exists.mp
    (show (readers.requestedShare Scenario.plainPlatform (Scenario.connect 1 1)).isSome by decide +kernel)
  obtain ⟨second, guestShare⟩ := Option.isSome_iff_exists.mp
    (show (guests.requestedShare Scenario.plainPlatform guest).isSome by decide +kernel)
  obtain ⟨firstName, present, outside⟩ := reader first readShare
  obtain ⟨secondName, invalid⟩ := visitor second guestShare
  exact ⟨by decide +kernel, ⟨first, readShare, firstName, fun policy => outside (policy.2 present)⟩, by decide +kernel,
    second, guestShare, secondName, fun policy => policy.1 invalid⟩

end KsmbdTools.Management
