import KsmbdTools.Config.Proofs.CoupledKeys

/-! Whether a tree connection may write: the flags of the share, the read list and the
write list. -/

namespace KsmbdTools.Config
open Management State

variable {platform : Platform}

/-- A share as loading its section leaves it; a connection only clears its update mark. -/
def LoadedShare (platform : Platform) (record : Share) : Prop :=
  ∃ (state : State) (name : CStr) (pipe : Bool) (value : ShareConf → Option CStr) (loaded : Share),
    (state.initShareFromGroup platform (shareGroup name pipe value)).2 = some loaded ∧ record.maps = loaded.maps ∧
      (record.flags = loaded.flags ∨ record.flags = clearFlag loaded.flags ShareFlag.update)

theorem writeable_readonly_apart (value : ShareConf → Option CStr) :
    (testFlag (shareConfFlags value) ShareFlag.writeable && testFlag (shareConfFlags value) ShareFlag.readonly) = false := by
  rw [testFlag_writeable, testFlag_readonly]
  rcases writeSetting value with _ | _ | _ <;> rfl

theorem addGroupMap_admin {list : ShareUsers × Option (List CStr)} (other : list.1 ≠ .adminUsers)
    (entry : State × ShareMaps) : (addGroupMap platform entry list).2.adminUsers = entry.2.adminUsers := by
  obtain ⟨map, names⟩ := list
  cases names with
  | none => rfl
  | some names => cases map <;> first | exact absurd rfl other | rfl

theorem initShareFromGroup_loaded {state : State} {group : ShareGroup} {share : Share}
    (made : (state.initShareFromGroup platform group).2 = some share) :
    share.maps.adminUsers = none ∧ ∃ state : State, share.flags = state.shareFlags group := by
  unfold initShareFromGroup at made
  split at made
  · cases made
  · dsimp only at made
    split at made
    · cases made
    split at made
    · cases made
    · cases made
      refine ⟨?_, _, rfl⟩
      simp only [List.foldl_cons, List.foldl_nil]
      rw [addGroupMap_admin (by simp), addGroupMap_admin (by simp), addGroupMap_admin (by simp), addGroupMap_admin (by simp)]

theorem LoadedShare.maps_flags {record : Share} (loaded : LoadedShare platform record) :
    record.maps.adminUsers = none ∧
      (testFlag record.flags ShareFlag.writeable && testFlag record.flags ShareFlag.readonly) = false := by
  obtain ⟨state, name, pipe, value, share, made, maps, flags⟩ := loaded
  obtain ⟨admin, later, given⟩ := initShareFromGroup_loaded made
  have kept : ∀ flag ∈ [ShareFlag.writeable, ShareFlag.readonly], testFlag record.flags flag =
      testFlag (shareConfFlags value) flag := by
    intro flag listed
    have update : ∀ flag ∈ [ShareFlag.writeable, ShareFlag.readonly], ShareFlag.update &&& flag = 0 :=
      List.forall_mem_cons.mpr ⟨by decide, List.forall_mem_singleton.mpr (by decide)⟩
    have same : testFlag record.flags flag = testFlag share.flags flag := by
      rcases flags with equal | cleared
      · rw [equal]
      · rw [cleared, testFlag_clearFlag_other (update flag listed)]
    rw [same, given, testFlag_shareFlags]
    · rfl
    · simp only [List.mem_cons, List.not_mem_nil, or_false] at listed ⊢
      rcases listed with rfl | rfl <;> simp
  refine ⟨maps ▸ admin, ?_⟩
  rw [kept _ (by simp), kept _ (by simp), writeable_readonly_apart]

theorem refuse_status {state : State} {attempt : Attempt} {status : TreeConnStatus} {after : State}
    {resp : TreeConnectResponse} (refused : state.refuse platform attempt status = some (after, resp)) :
    resp.status = status := by
  cases refused
  rfl

theorem bindTreeConn_flags {state : State} {memory : Memory} {retries : Nat} {req : TreeConnectRequest} {share : Ref Share}
    {user : Ref User} {flags : UInt32} {after : State} {resp : TreeConnectResponse}
    (bound : state.bindTreeConn platform memory retries req share user flags = some (after, resp)) :
    resp.connectionFlags = flags.toUInt16 := by
  obtain ⟨⟨current, answer⟩, -, rest⟩ := Option.bind_eq_some_iff.mp bound
  dsimp only at rest
  split at rest <;> cases rest <;> rfl

/-- What the share and the user give before the lists are looked at. -/
def StartFlags (record : Share) (flags : UInt32) : Prop :=
  flags = shareConnFlags record ∨ flags = setFlag (shareConnFlags record) TreeConnFlag.guestAccount

/-- The flags of an accepted connection are those the lists of the share leave. -/
def AdmittedFlags (record : Share) (account : CStr) (sent : UInt16) : Prop :=
  ∃ start flags, StartFlags record start ∧ sent = flags.toUInt16 ∧
    (admitUser record account start = .bind flags ∨ admitUser record account start = .bindWithinCapacity flags)

theorem connectAccount_flags {state : State} {memory : Memory} {retries : Nat} {req : TreeConnectRequest} {share : Ref Share}
    {record : Share} {after : State} {resp : TreeConnectResponse}
    (answered : state.connectAccount platform memory retries req share record = some (after, resp))
    (ok : resp.status = .ok) : AdmittedFlags record req.account.str resp.connectionFlags := by
  unfold connectAccount at answered
  split at answered
  · rw [refuse_status answered] at ok
    cases ok
  · rename_i current user found
    dsimp only at answered
    generalize (((current.resetFailedLogins user).users.get? user).map fun record =>
      testFlag record.flags UserFlag.guestAccount).getD false = guest at answered
    obtain ⟨start, known, starts⟩ : ∃ start, StartFlags record start ∧
        (if guest then setFlag (shareConnFlags record) TreeConnFlag.guestAccount else shareConnFlags record) = start := by
      cases guest
      · exact ⟨_, .inl rfl, rfl⟩
      · exact ⟨_, .inr rfl, rfl⟩
    rw [starts] at answered
    split at answered
    · rw [refuse_status answered] at ok
      cases ok
    · rename_i flags admitted
      exact ⟨start, flags, known, bindTreeConn_flags answered, .inl admitted⟩
    · rename_i flags admitted
      obtain ⟨⟨later, room⟩, -, rest⟩ := Option.bind_eq_some_iff.mp answered
      dsimp only at rest
      split at rest
      · exact ⟨start, flags, known, bindTreeConn_flags rest, .inr admitted⟩
      · rw [refuse_status rest] at ok
        cases ok

/-- The request named the share of `record`, and was answered on the path of ordinary accounts. -/
theorem tcmHandleTreeConnect_flags {state : State} {memory : Memory} {retries : Nat} {req : TreeConnectRequest}
    {share : Ref Share} {record : Share} {after : State} {resp : TreeConnectResponse}
    (known : state.sharesTable.lookup (shmCasefoldShareName platform req.share.str) = some share)
    (found : state.shares.get? share = some record) (account : guestRequested req = false)
    (answered : state.tcmHandleTreeConnect platform memory retries req = some (after, resp)) (ok : resp.status = .ok) :
    ∃ held : Share, held.flags = record.flags ∧ held.maps = record.maps ∧
      AdmittedFlags held req.account.str resp.connectionFlags := by
  unfold tcmHandleTreeConnect at answered
  split at answered
  · cases answered
    cases ok
  split at answered
  · rename_i status refused
    rw [refuse_status answered] at ok
    rw [ok] at refused
    unfold refuseRequest at refused
    split_ifs at refused <;> cases refused
  simp only [shmLookupShare, known, getKsmbdShare, found] at answered
  by_cases counted : record.refCount ≠ 0
  · rw [if_pos counted] at answered
    simp only [Heap.get?_modify_self, found, Option.map_some] at answered
    split at answered
    · rw [refuse_status answered] at ok
      cases ok
    · refine ⟨{ record with refCount := record.refCount + 1 }, rfl, rfl, ?_⟩
      unfold connectShare at answered
      split at answered
      · rename_i status refused
        rw [refuse_status answered] at ok
        rw [ok] at refused
        unfold refusePeer at refused
        split_ifs at refused <;> cases refused
      · rw [account] at answered
        simp only [Bool.false_eq_true, if_false] at answered
        exact connectAccount_flags answered ok
  · rw [if_neg counted] at answered
    rw [refuse_status answered] at ok
    cases ok

theorem StartFlags.kept {record : Share} {start : UInt32} (known : StartFlags record start) :
    testFlag start TreeConnFlag.writable = testFlag record.flags ShareFlag.writeable ∧
      testFlag start TreeConnFlag.readOnly = testFlag record.flags ShareFlag.readonly := by
  have plain : testFlag (shareConnFlags record) TreeConnFlag.writable = testFlag record.flags ShareFlag.writeable ∧
      testFlag (shareConnFlags record) TreeConnFlag.readOnly = testFlag record.flags ShareFlag.readonly := by
    unfold shareConnFlags
    cases testFlag record.flags ShareFlag.writeable <;> cases testFlag record.flags ShareFlag.readonly <;>
      cases testFlag record.flags ShareFlag.update <;> decide
  rcases known with rfl | rfl
  · exact plain
  · rw [testFlag_setFlag_other (by decide), testFlag_setFlag_other (by decide)]
    exact plain

theorem admitUser_congr {held record : Share} (maps : held.maps = record.maps) (account : CStr) (flags : UInt32) :
    admitUser held account flags = admitUser record account flags := by
  have same : ∀ list, shmLookupUsersMap held list account = shmLookupUsersMap record list account := by
    intro list
    simp only [shmLookupUsersMap, maps]
  simp only [admitUser, same]

theorem AdmittedFlags.congr {held record : Share} {account : CStr} {sent : UInt16} (flags : held.flags = record.flags)
    (maps : held.maps = record.maps) (admitted : AdmittedFlags held account sent) : AdmittedFlags record account sent := by
  obtain ⟨start, last, known, same, answer⟩ := admitted
  refine ⟨start, last, ?_, same, ?_⟩
  · simpa only [StartFlags, shareConnFlags, flags] using known
  · simpa only [admitUser_congr maps] using answer

def Listed (record : Share) (list : ShareUsers) (account : CStr) : Prop := shmLookupUsersMap record list account = .present

instance (record : Share) (list : ShareUsers) (account : CStr) : Decidable (Listed record list account) :=
  inferInstanceAs (Decidable (shmLookupUsersMap record list account = .present))

/-- The read list goes before the write list, and this before the flags of the share. -/
def WritePermission (record : Share) (account : CStr) (sent : UInt16) : Prop :=
  (if Listed record .readList account then
      testFlag sent.toUInt32 TreeConnFlag.readOnly = true ∧ testFlag sent.toUInt32 TreeConnFlag.writable = false
    else if Listed record .writeList account then
      testFlag sent.toUInt32 TreeConnFlag.writable = true ∧ testFlag sent.toUInt32 TreeConnFlag.readOnly = false
    else testFlag sent.toUInt32 TreeConnFlag.writable = testFlag record.flags ShareFlag.writeable ∧
      testFlag sent.toUInt32 TreeConnFlag.readOnly = testFlag record.flags ShareFlag.readonly) ∧
    ¬(testFlag sent.toUInt32 TreeConnFlag.writable = true ∧ testFlag sent.toUInt32 TreeConnFlag.readOnly = true)

theorem AdmittedFlags.sent {record : Share} {account : CStr} {sent : UInt16} (admitted : AdmittedFlags record account sent)
    (admin : record.maps.adminUsers = none) :
    testFlag sent.toUInt32 TreeConnFlag.readOnly =
        (decide (Listed record .readList account) || testFlag record.flags ShareFlag.readonly) ∧
      testFlag sent.toUInt32 TreeConnFlag.writable = (!decide (Listed record .readList account) &&
        (decide (Listed record .writeList account) || testFlag record.flags ShareFlag.writeable)) := by
  obtain ⟨start, flags, known, rfl, answer⟩ := admitted
  obtain ⟨writable, readOnly⟩ := known.kept
  have unset : shmLookupUsersMap record .adminUsers account ≠ .present := by simp [shmLookupUsersMap, ShareMaps.get, admin]
  rw [testFlag_toUInt16 (by decide), testFlag_toUInt16 (by decide), ← readOnly, ← writable]
  unfold admitUser at answer
  rw [if_neg unset] at answer
  split_ifs at answer with invalid reads writes
  · rcases answer with refused | refused <;> cases refused
  · have last : flags = clearFlag (setFlag start TreeConnFlag.readOnly) TreeConnFlag.writable := by
      rcases answer with same | same <;> cases same
      rfl
    rw [last, testFlag_clearFlag_other (by decide), testFlag_setFlag_self (by decide), testFlag_clearFlag_self]
    simp [Listed, reads]
  · have last : flags = setFlag start TreeConnFlag.writable := by
      rcases answer with same | same <;> cases same
      rfl
    rw [last, testFlag_setFlag_other (by decide), testFlag_setFlag_self (by decide)]
    simp [Listed, reads, writes]
  · have last : flags = start := by
      revert answer
      split <;> rintro (same | same) <;> cases same <;> rfl
    rw [last]
    simp [Listed, reads, writes]

/-- A connection has the permissions of the lists and of the share, unless the write list
is to lift the share's own restriction. -/
theorem write_permission_iff (platform : Platform) (state : State) (memory : Memory) (retries : Nat)
    (req : TreeConnectRequest) (share : Ref Share) (record : Share) (after : State) (resp : TreeConnectResponse)
    (known : state.sharesTable.lookup (shmCasefoldShareName platform req.share.str) = some share)
    (found : state.shares.get? share = some record) (loaded : LoadedShare platform record)
    (account : guestRequested req = false)
    (answered : state.tcmHandleTreeConnect platform memory retries req = some (after, resp)) (ok : resp.status = .ok) :
    WritePermission record req.account.str resp.connectionFlags ↔
      ¬(testFlag record.flags ShareFlag.readonly = true ∧ Listed record .writeList req.account.str ∧
        ¬Listed record .readList req.account.str) := by
  obtain ⟨admin, apart⟩ := loaded.maps_flags
  obtain ⟨held, flags, maps, admitted⟩ := tcmHandleTreeConnect_flags known found account answered ok
  obtain ⟨readOnly, writable⟩ := (admitted.congr flags maps).sent admin
  rw [WritePermission, readOnly, writable]
  revert apart
  by_cases reads : Listed record .readList req.account.str
  · cases testFlag record.flags ShareFlag.readonly <;> simp [reads]
  · by_cases writes : Listed record .writeList req.account.str <;>
      cases testFlag record.flags ShareFlag.writeable <;> cases testFlag record.flags ShareFlag.readonly <;>
        simp [reads, writes]

namespace Scenario
open Management.Scenario

/-- A share with `read only = yes`, and the account of the scenario in its write list. -/
def restricted : ShareConf → Option CStr
  | .readOnly => some (ascii "yes")
  | .writeList => some account
  | _ => none

def readable : ShareConf → Option CStr
  | .readOnly => some (ascii "yes")
  | _ => none

def oneAccount : State := (({ globalConf := { sessionsCap := 2 } } : State).usmAddNewUser plainPlatform account []).1

def shareOf (value : ShareConf → Option CStr) : Share :=
  ((oneAccount.initShareFromGroup plainPlatform (shareGroup shareName false value)).2).getD { name := [] }

def sharing (value : ShareConf → Option CStr) : State :=
  (oneAccount.shmAddNewShare plainPlatform (shareGroup shareName false value)).1

theorem shareOf_loaded {value : ShareConf → Option CStr}
    (made : (oneAccount.initShareFromGroup plainPlatform (shareGroup shareName false value)).2.isSome = true) :
    LoadedShare plainPlatform (shareOf value) := by
  obtain ⟨share, equal⟩ := Option.isSome_iff_exists.mp made
  refine ⟨oneAccount, shareName, false, value, share, equal, ?_⟩
  rw [shareOf, equal, Option.getD_some]
  exact ⟨rfl, .inl rfl⟩

end Scenario

/-- The account of a readable share gets a connection that reads. -/
theorem write_permission_readable :
    ∃ after resp, (Scenario.sharing Scenario.readable).tcmHandleTreeConnect Management.Scenario.plainPlatform {} 1
        (Management.Scenario.connect 1 1) = some (after, resp) ∧
      WritePermission (Scenario.shareOf Scenario.readable) Management.Scenario.account resp.connectionFlags := by
  have status : ((Scenario.sharing Scenario.readable).tcmHandleTreeConnect Management.Scenario.plainPlatform {} 1
      (Management.Scenario.connect 1 1)).map (·.2.status) = some .ok := by decide +kernel
  obtain ⟨⟨after, resp⟩, answered, ok⟩ := Option.map_eq_some_iff.mp status
  exact ⟨after, resp, answered, (write_permission_iff _ _ _ _ _ ⟨0⟩ (Scenario.shareOf Scenario.readable) after resp
    (by decide +kernel) rfl (Scenario.shareOf_loaded (by decide +kernel)) (by decide +kernel) answered ok).mpr
      (by decide +kernel)⟩

/-- The write list leaves the restriction of the share beside the permission it gives. -/
theorem write_permission_both :
    LoadedShare Management.Scenario.plainPlatform (Scenario.shareOf Scenario.restricted) ∧
      ∃ after resp, (Scenario.sharing Scenario.restricted).tcmHandleTreeConnect Management.Scenario.plainPlatform {} 1
          (Management.Scenario.connect 1 1) = some (after, resp) ∧ resp.status = .ok ∧
        testFlag resp.connectionFlags.toUInt32 TreeConnFlag.writable = true ∧
        testFlag resp.connectionFlags.toUInt32 TreeConnFlag.readOnly = true ∧
        ¬WritePermission (Scenario.shareOf Scenario.restricted) Management.Scenario.account resp.connectionFlags := by
  have answer : ((Scenario.sharing Scenario.restricted).tcmHandleTreeConnect Management.Scenario.plainPlatform {} 1
      (Management.Scenario.connect 1 1)).map (fun result => (result.2.status, result.2.connectionFlags)) =
        some (.ok, 6) := by decide +kernel
  obtain ⟨⟨after, resp⟩, answered, same⟩ := Option.map_eq_some_iff.mp answer
  obtain ⟨ok, flags⟩ := Prod.mk.inj same
  have flags : resp.connectionFlags = 6 := flags
  refine ⟨Scenario.shareOf_loaded (by decide +kernel), after, resp, answered, ok, by rw [flags]; decide,
    by rw [flags]; decide, fun permitted => permitted.2 ?_⟩
  rw [flags]
  decide

end KsmbdTools.Config
