import KsmbdTools.Management.Files
import KsmbdTools.Management.Proofs.ForcedIds

/-! What a reload that fails leaves of the tables. -/

namespace KsmbdTools.Management
variable {platform : Platform}

namespace State

theorem parseEntries_valid (entries : List CStr) (state : State)
    (valid : ∀ entry ∈ entries, entry = [] ∨ (isAUserPassword platform entry).isSome = true) :
    parseEntries (processPwddbEntry platform) state entries =
      ((entries.filterMap (isAUserPassword platform)).foldl
        (fun state entry => state.addUserPassword platform entry.1 entry.2) state, true) := by
  induction entries generalizing state with
  | nil => rfl
  | cons entry entries ih =>
    have rest := fun other member => valid other (List.mem_cons_of_mem entry member)
    cases valid entry List.mem_cons_self with
    | inl empty =>
      subst empty
      have skipped : isAUserPassword platform [] = none := rfl
      rw [List.filterMap_cons_none skipped]
      exact ih state rest
    | inr accepted =>
      obtain ⟨⟨name, password⟩, read⟩ := Option.isSome_iff_exists.mp accepted
      have nonempty : entry.isEmpty = false := by
        cases entry with
        | nil => cases read
        | cons => rfl
      rw [List.filterMap_cons_some read]
      simp only [parseEntries, processPwddbEntry, nonempty, read]
      exact ih _ rest

/-- With a database of valid lines this is the load of what the files say. -/
theorem loadFiles_sections (state : State) (contents : List UInt8) (config : Config)
    (formed : config.Formed platform)
    (valid : ∀ entry ∈ fileEntries contents, entry = [] ∨ (isAUserPassword platform entry).isSome = true) :
    state.loadFiles platform (.bytes contents) (.sections config formed) =
      state.loadConfig platform
        { config with users := (fileEntries contents).filterMap (isAUserPassword platform) } := by
  unfold loadFiles cpParsePwddb
  simp only [parseEntries_valid _ _ valid]
  rfl

end State

/-- The table is the same, and so are the flags of every record. -/
structure FlagsKept (before after : State) : Prop where
  table : after.usersTable = before.usersTable
  flags : ∀ user, (after.users.get? user).map (·.flags) = (before.users.get? user).map (·.flags)

namespace FlagsKept

theorem trans {first middle last : State} (one : FlagsKept first middle) (two : FlagsKept middle last) :
    FlagsKept first last :=
  ⟨two.table.trans one.table, fun user => (two.flags user).trans (one.flags user)⟩

theorem modify (state : State) (user : Ref User) (change : User → User) {faulted : Bool}
    (same : ∀ record, (change record).flags = record.flags) :
    FlagsKept state { state with users := state.users.modify user change, faulted } := by
  refine ⟨rfl, fun other => ?_⟩
  rw [Heap.get?_modify]
  split
  · next equal => cases state.users.get? other <;> simp [same]
  · rfl

theorem lookup {state current : State} {name : Option CStr} {user : Ref User}
    (found : state.usmLookupUser name = (current, some user)) : FlagsKept state current := by
  unfold State.usmLookupUser at found
  split at found
  · cases found
  · unfold State.getKsmbdUser at found
    split at found
    · cases found
    · split at found
      · cases found
        exact modify state _ _ fun _ => rfl
      · cases found

theorem put {state : State} {user : Ref User} {record : User} (found : state.users.get? user = some record)
    (shared : record.refCount ≠ 1) : FlagsKept state (state.putUser user) := by
  have remaining : record.refCount - 1 ≠ 0 := by omega
  have same : state.putUser user =
      { state with users := state.users.modify user fun record => { record with refCount := record.refCount - 1 } } := by
    simp [State.putUser, found, remaining]
  rw [same]
  exact modify state user _ fun _ => rfl

theorem lookup_put {state current : State} {name : Option CStr} {user : Ref User} {faulted : Bool}
    (found : state.usmLookupUser name = (current, some user)) (change : User → User)
    (same : ∀ record, (change record).refCount = record.refCount ∧ (change record).flags = record.flags) :
    FlagsKept state ({ current with users := current.users.modify user change, faulted }.putUser user) := by
  obtain ⟨-, record, held, shared⟩ := State.usmLookupUser_some found
  have changed : FlagsKept current { current with users := current.users.modify user change, faulted } :=
    modify current user change fun record => (same record).2
  have back : FlagsKept { current with users := current.users.modify user change, faulted }
      ({ current with users := current.users.modify user change, faulted }.putUser user) :=
    put (show _ = some (change record) by simp [held]) (by rw [(same record).1]; exact shared)
  exact ((lookup found).trans changed).trans back

theorem lookup_put_same {state current : State} {name : Option CStr} {user : Ref User}
    (found : state.usmLookupUser name = (current, some user)) : FlagsKept state (current.putUser user) := by
  obtain ⟨-, record, held, shared⟩ := State.usmLookupUser_some found
  exact (lookup found).trans (put held shared)

end FlagsKept

def NoGuests (state : State) : Prop :=
  ∀ name user record, state.usersTable.lookup name = some user → state.users.get? user = some record →
    testFlag record.flags UserFlag.guestAccount = false

def Marked (state : State) (name : CStr) : Prop :=
  ∃ user record, state.usersTable.lookup name = some user ∧ state.users.get? user = some record ∧
    testFlag record.flags UserFlag.guestAccount = true

theorem FlagsKept.marked {before after : State} {name : CStr} (kept : FlagsKept before after)
    (marked : Marked before name) : Marked after name := by
  obtain ⟨user, record, entry, held, flag⟩ := marked
  have same := kept.flags user
  rw [held, Option.map_some, Option.map_eq_some_iff] at same
  obtain ⟨record', held', flags⟩ := same
  exact ⟨user, record', by rw [kept.table]; exact entry, held', by rw [flags]; exact flag⟩

theorem FlagsKept.noGuests {before after : State} (kept : FlagsKept before after) (none : NoGuests before) :
    NoGuests after := by
  intro name user record entry held
  have same := kept.flags user
  rw [held, Option.map_some, eq_comm, Option.map_eq_some_iff] at same
  obtain ⟨record', held', flags⟩ := same
  rw [← flags]
  exact none name user record' (by rw [← kept.table]; exact entry) held'

section Accounts
variable (platform : Platform)

theorem newKsmbdUser_flags {name pwd : CStr} {user : User} (made : newKsmbdUser platform name pwd = some user) :
    user.flags = 0 := by
  unfold newKsmbdUser at made
  split at made
  · cases made
  · split at made
    · cases made
    · split at made <;> cases made <;> rfl

theorem NoGuests.addNewUser {state : State} (none : NoGuests state) (name pwd : CStr) :
    NoGuests (state.usmAddNewUser platform name pwd).1 := by
  unfold State.usmAddNewUser
  split
  · exact none
  · next user made =>
    split
    · exact none
    · intro other ref record entry held
      dsimp only at entry held
      rcases Heap.get?_alloc_cases held with ⟨-, rfl⟩ | ⟨fresh, held⟩
      · rw [newKsmbdUser_flags platform made]
        rfl
      · by_cases same : other = name
        · rw [same, AList.lookup_insert] at entry
          exact absurd (Option.some.inj entry).symm fresh
        · rw [AList.lookup_insert_ne same] at entry
          exact none other ref record entry held

theorem NoGuests.addUserPassword {state : State} (none : NoGuests state) (name pwd : CStr) :
    NoGuests (state.addUserPassword platform name pwd) := by
  unfold State.addUserPassword
  split
  · next current user found =>
    refine FlagsKept.noGuests ?_ none
    unfold State.usmUpdateUserPassword
    split
    · exact FlagsKept.lookup_put_same found
    · exact FlagsKept.lookup_put found _ fun _ => ⟨rfl, rfl⟩
  · next current missing =>
    rw [State.usmLookupUser_none missing]
    exact none.addNewUser platform name pwd

theorem NoGuests.parseEntries {state : State} (none : NoGuests state) (entries : List CStr) :
    NoGuests (parseEntries (State.processPwddbEntry platform) state entries).1 := by
  induction entries generalizing state with
  | nil => exact none
  | cons entry entries ih =>
    have one : NoGuests (state.processPwddbEntry platform entry).1 := by
      unfold State.processPwddbEntry
      split
      · exact none
      · split
        · exact none
        · exact none.addUserPassword platform _ _
    unfold Management.parseEntries
    split
    · next refused => rw [refused] at one; exact one
    · next read => rw [read] at one; exact ih one

theorem NoGuests.parsePwddb (state : State) (pwddb : FileContents) :
    NoGuests (state.usmRemoveAllUsers.cpParsePwddb platform pwddb).1 := by
  have none : NoGuests state.usmRemoveAllUsers := by
    intro name user record entry
    simp [State.usmRemoveAllUsers] at entry
  cases pwddb with
  | missing => exact none
  | unreadable => exact none
  | bytes contents => exact none.parseEntries platform _

def KeepsMarks (before after : State) : Prop := ∀ name, Marked before name → Marked after name

theorem addNewUser_keepsMarks (state : State) (name pwd : CStr) :
    KeepsMarks state (state.usmAddNewUser platform name pwd).1 := by
  intro guest marked
  unfold State.usmAddNewUser
  split
  · exact marked
  · next user made =>
    split
    · exact marked
    · next absent =>
      obtain ⟨ref, record, entry, held, flag⟩ := marked
      have other : guest ≠ name := by
        rintro rfl
        rw [AList.lookup_eq_none.mpr absent] at entry
        cases entry
      refine ⟨ref, record, ?_, ?_, flag⟩
      · exact (AList.lookup_insert_ne other).trans entry
      · exact (Heap.get?_alloc_old user (Heap.get?_lt held)).trans held

theorem testFlag_setFlag (flags : UInt32) : testFlag (setFlag flags UserFlag.guestAccount) UserFlag.guestAccount = true := by
  have fourth : Nat.testBit 16 4 = true := by decide
  have bit : ((flags ||| 16) &&& 16).toNat.testBit 4 = true := by simp [Nat.testBit_and, Nat.testBit_or, fourth]
  simp only [testFlag, setFlag, UserFlag.guestAccount, bne_iff_ne]
  intro zero
  simp [zero] at bit

theorem lookup_entry {state current : State} {name : CStr} {user : Ref User}
    (found : state.usmLookupUser (some name) = (current, some user)) : state.usersTable.lookup name = some user := by
  unfold State.usmLookupUser at found
  split at found
  · cases found
  · next ref entry =>
    unfold State.getKsmbdUser at found
    split at found
    · cases found
    · split at found
      · cases found
        exact entry
      · cases found

theorem mark_keepsMarks {state current : State} {name : CStr} {user : Ref User}
    (found : state.usmLookupUser (some name) = (current, some user)) :
    KeepsMarks state ({ current with users := current.users.modify user fun record =>
        { record with flags := setFlag record.flags UserFlag.guestAccount } }.putUser user) ∧
      Marked ({ current with users := current.users.modify user fun record =>
        { record with flags := setFlag record.flags UserFlag.guestAccount } }.putUser user) name := by
  obtain ⟨moved, record, held, shared⟩ := State.usmLookupUser_some found
  let marked : State := { current with users := current.users.modify user fun record =>
    { record with flags := setFlag record.flags UserFlag.guestAccount } }
  have seen : marked.users.get? user = some { record with flags := setFlag record.flags UserFlag.guestAccount } := by
    simp [marked, held]
  have back : FlagsKept marked (marked.putUser user) := FlagsKept.put seen shared
  have keeps : KeepsMarks current marked := by
    intro guest ⟨ref, other, entry, heldOther, flag⟩
    by_cases same : ref = user
    · subst same
      exact ⟨ref, _, entry, seen, testFlag_setFlag _⟩
    · exact ⟨ref, other, entry, (Heap.get?_modify_ne same).trans heldOther, flag⟩
  refine ⟨fun guest had => back.marked (keeps guest ((FlagsKept.lookup found).marked had)), back.marked ?_⟩
  refine ⟨user, _, ?_, seen, testFlag_setFlag _⟩
  exact (congrArg (AList.lookup name) (FlagsKept.lookup found).table).trans (lookup_entry found)

theorem addGuestAccount_keepsMarks (state : State) (name : CStr) :
    KeepsMarks state (state.usmAddGuestAccount platform name).1 := by
  have added := addNewUser_keepsMarks platform state name State.guestPassword
  unfold State.usmAddGuestAccount
  split
  · next refused => rw [refused] at added; exact added
  · next current new =>
    rw [new] at added
    split
    · next missing =>
      rw [State.usmLookupUser_none missing]
      exact added
    · next found => exact fun guest had => (mark_keepsMarks found).1 guest (added guest had)

theorem addGuestAccount_marks {state after : State} {name : CStr}
    (added : state.usmAddGuestAccount platform name = (after, true)) : Marked after name := by
  unfold State.usmAddGuestAccount at added
  split at added
  · cases added
  · split at added
    · cases added
    · next found =>
      cases added
      exact (mark_keepsMarks found).2

theorem addMapUser_keepsMarks (entry : State × HashTable CStr (Ref User)) (name : CStr) :
    KeepsMarks entry.1 (State.addMapUser entry name).1 := by
  obtain ⟨state, map⟩ := entry
  unfold State.addMapUser
  dsimp only
  split
  · exact fun _ had => had
  · split
    · next missing =>
      rw [State.usmLookupUser_none missing]
      exact fun _ had => had
    · next current user found =>
      split
      · exact fun _ had => (FlagsKept.lookup found).marked had
      · split
        · exact fun _ had => (FlagsKept.lookup_put_same found).marked had
        · exact fun _ had => (FlagsKept.lookup found).marked had

theorem addUsersMap_keepsMarks (state : State) (names : List CStr) :
    KeepsMarks state (state.addUsersMap platform names).1 := by
  have fold : ∀ (items : List CStr) (entry : State × HashTable CStr (Ref User)),
      KeepsMarks entry.1 (items.foldl State.addMapUser entry).1 := by
    intro items
    induction items with
    | nil => exact fun entry _ had => had
    | cons item items ih => exact fun entry guest had => ih _ guest (addMapUser_keepsMarks entry item guest had)
  exact fold (State.expandNames platform names) (state, ∅)

theorem addGroupMaps_keepsMarks (lists : List (ShareUsers × Option (List CStr))) (entry : State × ShareMaps) :
    KeepsMarks entry.1 (lists.foldl (State.addGroupMap platform) entry).1 := by
  induction lists generalizing entry with
  | nil => exact fun _ had => had
  | cons list lists ih =>
    intro guest had
    refine ih _ guest ?_
    unfold State.addGroupMap
    split
    · exact had
    · exact addUsersMap_keepsMarks platform entry.1 _ guest had

theorem initShareFromGroup_keepsMarks (state : State) (group : ShareGroup) :
    KeepsMarks state (state.initShareFromGroup platform group).1 := by
  unfold State.initShareFromGroup
  split
  · exact fun _ had => had
  · have guest : KeepsMarks state (group.guestAccount.elim (state, true) (state.usmAddGuestAccount platform ·)).1 := by
      cases group.guestAccount with
      | none => exact fun _ had => had
      | some name => exact addGuestAccount_keepsMarks platform state name
    dsimp only
    split
    · exact guest
    · split
      · exact guest
      · exact fun name had => addGroupMaps_keepsMarks platform _ (_, {}) name (guest name had)

end Accounts

section Sections
variable (platform : Platform)

/-- A section enters the table under its folded name, or the table stays as it is. Only a
pipe that cannot be added is an error. -/
theorem shmAddNewShare_table (state : State) (group : ShareGroup)
    (free : shmCasefoldShareName platform group.name ∉ state.sharesTable) :
    KeepsMarks state (state.shmAddNewShare platform group).1 ∧
      (((state.shmAddNewShare platform group).2 = true ∧ ∃ share,
          (state.shmAddNewShare platform group).1.sharesTable =
            state.sharesTable.insert (shmCasefoldShareName platform group.name) share) ∨
        ((state.shmAddNewShare platform group).2 = !group.pipe ∧
          (state.shmAddNewShare platform group).1.sharesTable = state.sharesTable)) := by
  have marks := initShareFromGroup_keepsMarks platform state group
  have table := (state.initShareFromGroup_spec platform group).1.sharesTable
  unfold State.shmAddNewShare
  split
  · next refused =>
    rw [refused] at marks table
    exact ⟨marks, .inr ⟨rfl, table⟩⟩
  · next current share made =>
    rw [made] at marks table
    have name : share.name = group.name := (State.initShareFromGroup_ids (congrArg Prod.snd made)).1
    dsimp only at table ⊢
    rw [name, table, if_neg free]
    exact ⟨marks, .inl ⟨rfl, _, rfl⟩⟩

/-- Folded names of the sections: each once, and none in the table yet. -/
structure Fresh (state : State) (groups : List ShareGroup) : Prop where
  distinct : (groups.map fun group => shmCasefoldShareName platform group.name).Nodup
  free : ∀ group ∈ groups, shmCasefoldShareName platform group.name ∉ state.sharesTable

variable {platform}

theorem shmAddNewShare_other {state : State} {group : ShareGroup} {key : CStr}
    (free : shmCasefoldShareName platform group.name ∉ state.sharesTable)
    (other : key ≠ shmCasefoldShareName platform group.name) :
    key ∈ (state.shmAddNewShare platform group).1.sharesTable ↔ key ∈ state.sharesTable := by
  obtain ⟨-, ⟨-, share, table⟩ | ⟨-, table⟩⟩ := shmAddNewShare_table platform state group free
  · rw [table, AList.mem_insert]
    exact or_iff_right other
  · rw [table]

theorem shmAddNewShare_plain {state : State} {group : ShareGroup}
    (free : shmCasefoldShareName platform group.name ∉ state.sharesTable) (plain : group.pipe = false) :
    (state.shmAddNewShare platform group).2 = true := by
  obtain ⟨-, ⟨ok, -⟩ | ⟨ok, -⟩⟩ := shmAddNewShare_table platform state group free
  · exact ok
  · rw [ok, plain]
    rfl

theorem Fresh.rest {state : State} {group : ShareGroup} {groups : List ShareGroup}
    (fresh : Fresh platform state (group :: groups)) :
    Fresh platform (state.shmAddNewShare platform group).1 groups := by
  obtain ⟨outside, distinct⟩ := List.nodup_cons.mp fresh.distinct
  refine ⟨distinct, fun other member => ?_⟩
  have different : shmCasefoldShareName platform other.name ≠ shmCasefoldShareName platform group.name := by
    intro same
    exact outside (List.mem_map.mpr ⟨other, member, same⟩)
  rw [shmAddNewShare_other (fresh.free group List.mem_cons_self) different]
  exact fresh.free other (List.mem_cons_of_mem group member)

theorem addShares_keepsMarks {groups : List ShareGroup} {state : State} (fresh : Fresh platform state groups) :
    KeepsMarks state (state.addShares platform groups).1 := by
  induction groups generalizing state with
  | nil => exact fun _ had => had
  | cons group groups ih =>
    have one := (shmAddNewShare_table platform state group (fresh.free group List.mem_cons_self)).1
    rw [State.addShares_cons]
    exact fun guest had => ih fresh.rest guest (one guest had)

theorem addShares_other {groups : List ShareGroup} {state : State} {key : CStr} (fresh : Fresh platform state groups)
    (others : ∀ group ∈ groups, group.pipe = false ∧ key ≠ shmCasefoldShareName platform group.name) :
    (state.addShares platform groups).2 = true ∧
      (key ∈ (state.addShares platform groups).1.sharesTable ↔ key ∈ state.sharesTable) := by
  induction groups generalizing state with
  | nil => exact ⟨rfl, .rfl⟩
  | cons group groups ih =>
    obtain ⟨plain, other⟩ := others group List.mem_cons_self
    have free := fresh.free group List.mem_cons_self
    obtain ⟨later, kept⟩ := ih fresh.rest fun group member => others group (List.mem_cons_of_mem _ member)
    rw [State.addShares_cons]
    exact ⟨by rw [shmAddNewShare_plain free plain, later]; rfl, kept.trans (shmAddNewShare_other free other)⟩

/-- The sections are added without error exactly if `ipc$` is in the table afterwards. -/
theorem addShares_ipc {groups : List ShareGroup} {state : State} {key : CStr} (fresh : Fresh platform state groups)
    (absent : key ∉ state.sharesTable) (present : ∃ group ∈ groups, group.pipe = true)
    (pipe : ∀ group ∈ groups, group.pipe = true ↔ shmCasefoldShareName platform group.name = key) :
    (state.addShares platform groups).2 = true ↔ key ∈ (state.addShares platform groups).1.sharesTable := by
  induction groups generalizing state with
  | nil => simp at present
  | cons group groups ih =>
    have free := fresh.free group List.mem_cons_self
    rw [State.addShares_cons]
    by_cases named : shmCasefoldShareName platform group.name = key
    · -- the pipe itself: the sections behind it have other names
      have isPipe := (pipe group List.mem_cons_self).mpr named
      have others : ∀ other ∈ groups, other.pipe = false ∧ key ≠ shmCasefoldShareName platform other.name := by
        intro other member
        have different : shmCasefoldShareName platform other.name ≠ key := by
          intro same
          exact (List.nodup_cons.mp fresh.distinct).1 (List.mem_map.mpr ⟨other, member, same.trans named.symm⟩)
        refine ⟨?_, different.symm⟩
        rw [← Bool.not_eq_true, pipe other (List.mem_cons_of_mem group member)]
        exact different
      obtain ⟨later, kept⟩ := addShares_other fresh.rest others
      rw [later, Bool.and_true, kept]
      obtain ⟨-, ⟨ok, share, inserted⟩ | ⟨ok, same⟩⟩ := shmAddNewShare_table platform state group free
      · simp [ok, inserted, named]
      · simp [ok, isPipe, same, absent]
    · have plain : group.pipe = false := by
        rw [← Bool.not_eq_true, pipe group List.mem_cons_self]
        exact named
      have present' : ∃ group ∈ groups, group.pipe = true := by
        obtain ⟨other, member, isPipe⟩ := present
        rcases List.mem_cons.mp member with rfl | member
        · rw [plain] at isPipe
          cases isPipe
        · exact ⟨other, member, isPipe⟩
      rw [shmAddNewShare_plain free plain, Bool.true_and]
      exact ih fresh.rest (by rw [shmAddNewShare_other free (Ne.symm named)]; exact absent) present'
        fun other member => pipe other (List.mem_cons_of_mem group member)

theorem addShares_globalConf (groups : List ShareGroup) (state : State) :
    (state.addShares platform groups).1.globalConf = state.globalConf := by
  induction groups generalizing state with
  | nil => rfl
  | cons group groups ih =>
    have only := (state.initShareFromGroup_spec platform group).1.globalConf
    rw [State.addShares_cons, ih]
    unfold State.shmAddNewShare
    split
    · next refused => rw [refused] at only; exact only
    · next made =>
      rw [made] at only
      dsimp only
      split
      · exact (State.freeUserMaps_only _ _).globalConf.trans only
      · exact only

end Sections

def Share.settings (record : Share) : Share × List (Option (List CStr)) :=
  ({ record with refCount := 0, numConnections := 0, freeing := false, maps := {},
                 flags := clearFlag record.flags ShareFlag.update },
    ShareUsers.all.map fun map => (record.maps.get map).map AList.keys)

/-- The two tables as logins and tree connects see them. -/
structure SameTables (before after : State) : Prop where
  users : ∀ name, (before.usersTable.lookup name).map (fun user => (before.users.get? user).map fun record =>
      (record.pass, record.flags)) =
    (after.usersTable.lookup name).map fun user => (after.users.get? user).map fun record => (record.pass, record.flags)
  shares : ∀ key, (before.sharesTable.lookup key).map (fun share => (before.shares.get? share).map Share.settings) =
    (after.sharesTable.lookup key).map fun share => (after.shares.get? share).map Share.settings

theorem SameTables.no_marked {before after : State} {name : CStr} (same : SameTables before after)
    (marked : Marked before name) : ¬NoGuests after := by
  intro none
  obtain ⟨user, record, entry, held, flag⟩ := marked
  have kept := same.users name
  rw [entry, Option.map_some, held, Option.map_some, eq_comm, Option.map_eq_some_iff] at kept
  obtain ⟨user', entry', seen⟩ := kept
  obtain ⟨record', held', equal⟩ := Option.map_eq_some_iff.mp seen
  have plain := none name user' record' entry' held'
  have flags : record'.flags = record.flags := (Prod.mk.inj equal).2
  rw [flags, flag] at plain
  cases plain

theorem SameTables.share {before after : State} {key : CStr} (same : SameTables before after)
    (present : key ∈ before.sharesTable) : key ∈ after.sharesTable := by
  have kept := congrArg Option.isSome (same.shares key)
  rw [Option.isSome_map, Option.isSome_map, AList.lookup_isSome.mpr present] at kept
  exact AList.lookup_isSome.mp kept.symm

section Loads
variable {platform : Platform}

theorem Config.Formed.fresh {config : Config} (formed : config.Formed platform) {state : State}
    (empty : state.sharesTable = ∅) : Fresh platform state config.shares :=
  ⟨formed.distinct, fun _ _ => by rw [empty]; exact AList.notMem_empty _⟩

/-- A load that succeeds has marked its guest account and added `ipc$`; one whose
configuration file fails it is left without `ipc$`. -/
theorem finalize_outcome {state after : State} {config : Config} {ok : Bool} (formed : config.Formed platform)
    (empty : state.sharesTable = ∅) (finished : state.finalizeSmbconfParser platform config = (after, ok)) :
    (ok = true ↔ shmCasefoldShareName platform ipcName ∈ after.sharesTable) ∧
      (ok = true → ∀ guest ∈ after.globalConf.guestAccount, Marked after guest) := by
  unfold State.finalizeSmbconfParser at finished
  generalize ready_eq : (if state.reloading then state else { state with globalConf := config.globalConf }) =
    ready at finished
  have bare : ready.sharesTable = ∅ := by
    rw [← ready_eq]
    split <;> exact empty
  have only : OnlyUsers ready (ready.globalConf.guestAccount.elim (ready, true)
      (ready.usmAddGuestAccount platform ·)).1 := by
    cases ready.globalConf.guestAccount with
    | none => exact .refl ready
    | some name => exact ready.usmAddGuestAccount_only platform name
  dsimp only at finished
  split at finished
  · next current refused =>
    cases finished
    rw [refused] at only
    have table : after.sharesTable = ∅ := only.sharesTable.trans bare
    exact ⟨iff_of_false (by decide) (by rw [table]; exact AList.notMem_empty _), by simp⟩
  · next current added =>
    rw [added] at only
    have none : current.sharesTable = ∅ := only.sharesTable.trans bare
    have fresh := formed.fresh none
    have result := congrArg Prod.snd finished
    have final := congrArg Prod.fst finished
    dsimp only at result final
    rw [← result, ← final]
    refine ⟨addShares_ipc fresh (by rw [none]; exact AList.notMem_empty _) formed.ipc formed.pipe, ?_⟩
    intro _ guest named
    rw [addShares_globalConf, only.globalConf] at named
    have marked : ready.usmAddGuestAccount platform guest = (current, true) := by
      rw [← added, Option.mem_def.mp named]
      rfl
    exact addShares_keepsMarks fresh guest (addGuestAccount_marks platform marked)

/-- No reload that fails leaves the tables of the load before it: the guest account has lost
its mark, or `ipc$` is gone. -/
theorem failed_reload_loses_tables (start state after : State) (pwddb newPwddb : FileContents)
    (smbconf newSmbconf : Smbconf platform) (loaded : start.loadFiles platform pwddb smbconf = (state, true))
    (guest : state.globalConf.guestAccount.isSome = true)
    (failed : { state with reloading := true }.loadFiles platform newPwddb newSmbconf = (after, false)) :
    ¬SameTables state after := by
  intro same
  obtain ⟨name, named⟩ := Option.isSome_iff_exists.mp guest
  have held : Marked state name ∧ shmCasefoldShareName platform ipcName ∈ state.sharesTable := by
    unfold State.loadFiles at loaded
    split at loaded
    · cases loaded
    · cases smbconf with
      | unreadable => cases loaded
      | malformed => cases loaded
      | sections config formed =>
        obtain ⟨ipc, marks⟩ := finalize_outcome formed rfl loaded
        exact ⟨marks rfl name named, ipc.mp rfl⟩
  unfold State.loadFiles at failed
  split at failed
  · next parsed =>
    cases failed
    have none := NoGuests.parsePwddb platform { state with reloading := true } newPwddb
    rw [parsed] at none
    exact same.no_marked held.1 none
  · have lost : shmCasefoldShareName platform ipcName ∉ after.sharesTable := by
      cases newSmbconf with
      | unreadable =>
        cases failed
        exact AList.notMem_empty _
      | malformed =>
        cases failed
        exact AList.notMem_empty _
      | sections config formed =>
        have ipc := (finalize_outcome formed rfl failed).1
        simpa using ipc
    exact lost (same.share held.2)

end Loads

namespace Scenario

def ipcConfig : Config :=
  { globalConf := { guestAccount := some [103] }, shares := [{ name := ipcName, pipe := true }] }

theorem ipcConfig_formed : ipcConfig.Formed plainPlatform :=
  ⟨by decide, ⟨_, List.mem_singleton_self _, rfl⟩, by decide⟩

/-- The daemon with the account `a` of the line `a:AQ==`, the guest account and `ipc$`. -/
def firstLoad : State × Bool :=
  ({} : State).loadFiles plainPlatform (.bytes [97, 58, 65, 81, 61, 61, 10]) (.sections ipcConfig ipcConfig_formed)

/-- A reload whose password database has the line `!`. -/
def badReload : State × Bool :=
  { firstLoad.1 with reloading := true }.loadFiles plainPlatform (.bytes [33, 10]) (.sections ipcConfig ipcConfig_formed)

def loginStatus (state : State) : UInt16 :=
  (state.usmHandleLoginRequest { account := .ofStr 256 account }).2.status

end Scenario

/-- One bad line takes all accounts away: the login that was good is one of a bad user. -/
theorem bad_line_empties_users :
    Scenario.firstLoad.2 = true ∧ Scenario.badReload.2 = false ∧
      Scenario.loginStatus Scenario.firstLoad.1 = UserFlag.ok.toUInt16 ∧
      Scenario.loginStatus Scenario.badReload.1 = UserFlag.badUser.toUInt16 := by
  decide +kernel

theorem failed_reload_loses_tables_bad_line : ¬SameTables Scenario.firstLoad.1 Scenario.badReload.1 := by
  have first : Scenario.firstLoad = (Scenario.firstLoad.1, true) := Prod.ext rfl (by decide +kernel)
  have second : Scenario.badReload = (Scenario.badReload.1, false) := Prod.ext rfl (by decide +kernel)
  exact failed_reload_loses_tables {} Scenario.firstLoad.1 Scenario.badReload.1 _ _ _ _ first (by decide +kernel) second

end KsmbdTools.Management
