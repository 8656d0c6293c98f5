import KsmbdTools.Management.ShareConfig
import KsmbdTools.Management.Proofs.Histories

/-! The ids that `force user` and `force group` stand for, from the system's databases
to the answer the kernel server gets. -/

namespace KsmbdTools.Management
variable (platform : Platform)

/-- The record is what adding the section has put into the share table. -/
def NewShare (state : State) (group : ShareGroup) (record : Share) : Prop :=
  state.sharesTable.lookup (shmCasefoldShareName platform group.name) = none ∧
    ∃ share, (state.shmAddNewShare platform group).1.sharesTable.lookup (shmCasefoldShareName platform group.name) =
        some share ∧
      (state.shmAddNewShare platform group).1.shares.get? share = some record

/-- The answer carries the ids of the system for the names of the section. -/
structure CarriesIds (group : ShareGroup) (resp : ShareConfigResponse) : Prop where
  user : ∀ name ∈ group.forceUser, ∃ uid gid, platform.getpwnam name = some (uid, gid) ∧ resp.forceUid.toUInt32 = uid ∧
    (group.forceGroup = none → resp.forceGid.toUInt32 = gid)
  group : ∀ name ∈ group.forceGroup, ∃ gid members, platform.getgrnam name = some (gid, members) ∧
    resp.forceGid.toUInt32 = gid

/-- The names exist, and their ids are not the mark for no id once cut to 16 bits. -/
structure Forceable (group : ShareGroup) : Prop where
  user : ∀ name ∈ group.forceUser, ∃ uid gid, platform.getpwnam name = some (uid, gid) ∧ uid.toUInt16 ≠ 65535 ∧
    (group.forceGroup = none → gid.toUInt16 ≠ 65535)
  group : ∀ name ∈ group.forceGroup, ∃ gid members, platform.getgrnam name = some (gid, members) ∧
    gid.toUInt16 ≠ 65535

structure NarrowIds (group : ShareGroup) : Prop where
  user : ∀ name ∈ group.forceUser, ∀ uid gid, platform.getpwnam name = some (uid, gid) →
    uid < 65536 ∧ (group.forceGroup = none → gid < 65536)
  group : ∀ name ∈ group.forceGroup, ∀ gid members, platform.getgrnam name = some (gid, members) → gid < 65536

/-- Nothing but the ids can make the section refused. -/
structure Acceptable (state : State) (group : ShareGroup) : Prop where
  free : state.sharesTable.lookup (shmCasefoldShareName platform group.name) = none
  comment : group.comment.elim true platform.utf8Validate = true
  guest : (group.guestAccount.elim (state, true) (state.usmAddGuestAccount platform ·)).2 = true

theorem toUInt32_toUInt16_eq_iff (id : UInt32) : id.toUInt16.toUInt32 = id ↔ id < 65536 := by
  rw [← UInt32.toNat_inj, UInt32.lt_iff_toNat_lt]
  simp

structure CutIds (group : ShareGroup) (ids : ForcedIds) : Prop where
  user : ∀ name ∈ group.forceUser, ∀ uid gid, platform.getpwnam name = some (uid, gid) →
    ids.forceUid = uid.toUInt16 ∧ (group.forceGroup = none → ids.forceGid = gid.toUInt16)
  group : ∀ name ∈ group.forceGroup, ∀ gid members, platform.getgrnam name = some (gid, members) →
    ids.forceGid = gid.toUInt16

variable {platform}

theorem forceGroup_some_iff {ids after : ForcedIds} {name : CStr} :
    forceGroup platform ids name = some after ↔ ∃ gid members, platform.getgrnam name = some (gid, members) ∧
      gid.toUInt16 ≠ 65535 ∧ after = { ids with forceGid := gid.toUInt16 } := by
  unfold forceGroup
  cases platform.getgrnam name with
  | none => simp
  | some entry =>
    obtain ⟨gid, members⟩ := entry
    by_cases reserved : gid.toUInt16 = 65535
    · simp [reserved]
    · simp [reserved, @eq_comm _ after]

theorem forceUser_some_iff {ids after : ForcedIds} {name : CStr} :
    forceUser platform ids name = some after ↔ ∃ uid gid, platform.getpwnam name = some (uid, gid) ∧
      uid.toUInt16 ≠ 65535 ∧ (ids.forceGid = 65535 → gid.toUInt16 ≠ 65535) ∧
      after = { forceUid := uid.toUInt16, forceGid := if ids.forceGid = 65535 then gid.toUInt16 else ids.forceGid } := by
  unfold forceUser
  cases platform.getpwnam name with
  | none => simp
  | some entry =>
    obtain ⟨uid, gid⟩ := entry
    by_cases reserved : uid.toUInt16 = 65535
    · simp [reserved]
    · by_cases unset : ids.forceGid = 65535
      · by_cases missing : gid.toUInt16 = 65535
        · simp [reserved, unset, missing]
        · simp [reserved, unset, missing, @eq_comm _ after]
      · simp [reserved, unset, @eq_comm _ after]

theorem forcedIds_cut {group : ShareGroup} {ids : ForcedIds} (forced : forcedIds platform group = some ids) :
    Forceable platform group ∧ CutIds platform group ids := by
  obtain ⟨base, grouped, used⟩ := Option.bind_eq_some_iff.mp forced
  cases asked : group.forceGroup with
  | none =>
    simp only [asked, Option.elim_none, Option.some.injEq] at grouped
    subst grouped
    cases named : group.forceUser with
    | none => exact ⟨⟨by simp [named], by simp [asked]⟩, ⟨by simp [named], by simp [asked]⟩⟩
    | some name =>
      simp only [named, Option.elim_some, forceUser_some_iff] at used
      obtain ⟨uid, gid, found, userFits, groupFits, rfl⟩ := used
      exact ⟨⟨by simpa [named, found] using ⟨userFits, fun _ => groupFits trivial⟩, by simp [asked]⟩,
        ⟨by simp [named, found], by simp [asked]⟩⟩
  | some name =>
    simp only [asked, Option.elim_some, forceGroup_some_iff] at grouped
    obtain ⟨gid, members, found, fits, rfl⟩ := grouped
    cases named : group.forceUser with
    | none =>
      simp only [named, Option.elim_none, Option.some.injEq] at used
      subst used
      exact ⟨⟨by simp [named], by simpa [asked, found] using fits⟩, ⟨by simp [named], by simp [asked, found]⟩⟩
    | some user =>
      simp only [named, Option.elim_some, forceUser_some_iff] at used
      obtain ⟨uid, primary, known, userFits, -, rfl⟩ := used
      exact ⟨⟨by simp [named, known, userFits, asked], by simpa [asked, found] using fits⟩,
        ⟨by simp [named, known, asked], by simp [asked, found, fits]⟩⟩

theorem forcedIds_isSome {group : ShareGroup} (forceable : Forceable platform group) :
    ∃ ids, forcedIds platform group = some ids := by
  unfold forcedIds
  cases asked : group.forceGroup with
  | none =>
    cases named : group.forceUser with
    | none => exact ⟨_, rfl⟩
    | some name =>
      obtain ⟨uid, gid, found, userFits, groupFits⟩ := forceable.user name named
      exact ⟨_, forceUser_some_iff.mpr ⟨uid, gid, found, userFits, fun _ => groupFits asked, rfl⟩⟩
  | some name =>
    obtain ⟨gid, members, found, fits⟩ := forceable.group name asked
    have grouped := (@forceGroup_some_iff platform {} _ name).mpr ⟨gid, members, found, fits, rfl⟩
    simp only [Option.elim_some, grouped, Option.bind_eq_bind, Option.bind_some]
    cases named : group.forceUser with
    | none => exact ⟨_, rfl⟩
    | some user =>
      obtain ⟨uid, primary, known, userFits, -⟩ := forceable.user user named
      exact ⟨_, forceUser_some_iff.mpr ⟨uid, primary, known, userFits, fun unset => absurd unset fits, rfl⟩⟩

namespace State

theorem initShareFromGroup_ids {state : State} {group : ShareGroup} {record : Share}
    (made : (state.initShareFromGroup platform group).2 = some record) :
    record.name = group.name ∧ forcedIds platform group = some ⟨record.forceUid, record.forceGid⟩ ∧
      group.comment.elim true platform.utf8Validate = true ∧
      (group.guestAccount.elim (state, true) (state.usmAddGuestAccount platform ·)).2 = true := by
  unfold initShareFromGroup at made
  split at made
  · simp at made
  · rename_i valid
    dsimp only at made
    split at made
    · simp at made
    · rename_i guest
      split at made
      · simp at made
      · rename_i ids forced
        cases made
        exact ⟨rfl, forced, by simpa using valid, by simpa using guest⟩

theorem initShareFromGroup_isSome {state : State} {group : ShareGroup} {ids : ForcedIds}
    (valid : group.comment.elim true platform.utf8Validate = true)
    (guest : (group.guestAccount.elim (state, true) (state.usmAddGuestAccount platform ·)).2 = true)
    (forced : forcedIds platform group = some ids) :
    ∃ record, (state.initShareFromGroup platform group).2 = some record := by
  unfold initShareFromGroup
  simp [valid, guest, forced]

end State

theorem newShare_iff {state : State} {group : ShareGroup} {record : Share} :
    NewShare platform state group record ↔
      state.sharesTable.lookup (shmCasefoldShareName platform group.name) = none ∧
        (state.initShareFromGroup platform group).2 = some record := by
  unfold NewShare
  refine and_congr_right fun free => ?_
  have table := (state.initShareFromGroup_spec platform group).1.sharesTable
  unfold State.shmAddNewShare
  rcases read : state.initShareFromGroup platform group with ⟨after, made⟩
  replace table : after.sharesTable = state.sharesTable := by rw [← table, read]
  cases made with
  | none => simp [table, free]
  | some share =>
    have name : share.name = group.name := (State.initShareFromGroup_ids (congrArg Prod.snd read)).1
    have absent : shmCasefoldShareName platform group.name ∉ after.sharesTable := by
      rw [table, ← AList.lookup_eq_none]
      exact free
    simp [absent, name]

theorem shmHandleShareConfigRequest_ids (conf : SmbconfGlobal) (record : Share) (resp : ShareConfigResponse) :
    (shmHandleShareConfigRequest conf record resp).1.forceUid = record.forceUid ∧
      (shmHandleShareConfigRequest conf record resp).1.forceGid = record.forceGid := by
  unfold shmHandleShareConfigRequest
  dsimp only
  split
  · exact ⟨rfl, rfl⟩
  · split <;> exact ⟨rfl, rfl⟩

theorem carriesIds_iff_narrow {group : ShareGroup} {resp : ShareConfigResponse} (forceable : Forceable platform group)
    (cut : CutIds platform group ⟨resp.forceUid, resp.forceGid⟩) :
    CarriesIds platform group resp ↔ NarrowIds platform group := by
  constructor
  · intro carries
    constructor
    · intro name named uid gid found
      obtain ⟨same, primary⟩ := cut.user name named uid gid found
      obtain ⟨_, _, again, user, group⟩ := carries.user name named
      cases found.symm.trans again
      simp only at same primary
      exact ⟨(toUInt32_toUInt16_eq_iff _).mp (same ▸ user),
        fun unset => (toUInt32_toUInt16_eq_iff _).mp (primary unset ▸ group unset)⟩
    · intro name named gid members found
      obtain ⟨_, _, again, delivered⟩ := carries.group name named
      cases found.symm.trans again
      exact (toUInt32_toUInt16_eq_iff _).mp (cut.group name named gid members found ▸ delivered)
  · intro narrow
    constructor
    · intro name named
      obtain ⟨uid, gid, found, -⟩ := forceable.user name named
      obtain ⟨same, primary⟩ := cut.user name named uid gid found
      obtain ⟨userNarrow, groupNarrow⟩ := narrow.user name named uid gid found
      simp only at same primary
      refine ⟨uid, gid, found, ?_, fun unset => ?_⟩
      · rw [same, toUInt32_toUInt16_eq_iff]
        exact userNarrow
      · rw [primary unset, toUInt32_toUInt16_eq_iff]
        exact groupNarrow unset
    · intro name named
      obtain ⟨gid, members, found, -⟩ := forceable.group name named
      have same := cut.group name named gid members found
      simp only at same
      refine ⟨gid, members, found, ?_⟩
      rw [same, toUInt32_toUInt16_eq_iff]
      exact narrow.group name named gid members found

/-- The ids reach the kernel server unchanged exactly if no accepted section names an
id above 16 bits. -/
theorem forced_ids_delivered_iff (state : State) (group : ShareGroup) :
    (∀ record, NewShare platform state group record → ∀ conf resp,
        CarriesIds platform group (shmHandleShareConfigRequest conf record resp).1) ↔
      (Acceptable platform state group → Forceable platform group → NarrowIds platform group) := by
  constructor
  · intro delivered acceptable forceable
    obtain ⟨ids, forced⟩ := forcedIds_isSome forceable
    obtain ⟨record, made⟩ := State.initShareFromGroup_isSome acceptable.comment acceptable.guest forced
    have carries := delivered record (newShare_iff.mpr ⟨acceptable.free, made⟩) state.globalConf {}
    obtain ⟨user, group⟩ := shmHandleShareConfigRequest_ids state.globalConf record {}
    obtain ⟨-, read, -⟩ := State.initShareFromGroup_ids made
    rw [← user, ← group] at read
    exact (carriesIds_iff_narrow forceable (forcedIds_cut read).2).mp carries
  · intro fits record new conf resp
    obtain ⟨free, made⟩ := newShare_iff.mp new
    obtain ⟨-, read, comment, guest⟩ := State.initShareFromGroup_ids made
    obtain ⟨user, group⟩ := shmHandleShareConfigRequest_ids conf record resp
    rw [← user, ← group] at read
    obtain ⟨forceable, cut⟩ := forcedIds_cut read
    exact (carriesIds_iff_narrow forceable cut).mpr (fits ⟨free, comment, guest⟩ forceable)

namespace Scenario

/-- Two accounts of the system whose ids agree in their low halves. -/
def farPlatform : Platform :=
  { plainPlatform with
    getpwnam := fun name => if name = [97] then some (1000, 1000) else if name = [98] then some (66536, 66536) else none }

/-- The id that a share forced to the user gets, as the kernel is told. -/
def deliveredUid (user : CStr) : Option UInt16 := do
  let group : ShareGroup := { name := [115], path := some [47], forceUser := some user }
  let state := (({} : State).shmAddNewShare farPlatform group).1
  let record ← (state.sharesTable.lookup [115]).bind state.shares.get?
  return (shmHandleShareConfigRequest {} record {}).1.forceUid

end Scenario

/-- The shares of two users with different ids are accepted and delivered with one id. -/
theorem far_id_wraps :
    (Scenario.farPlatform.getpwnam [97]).map (·.1) = some 1000 ∧
      (Scenario.farPlatform.getpwnam [98]).map (·.1) = some 66536 ∧
      Scenario.deliveredUid [97] = some 1000 ∧ Scenario.deliveredUid [98] = some 1000 := by
  decide +kernel

end KsmbdTools.Management
