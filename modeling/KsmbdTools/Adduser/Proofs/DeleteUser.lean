import KsmbdTools.Adduser.Proofs.Printing

/-! What is left behind a deleted account. The record is freed whatever its count is, and the check before looks at the
guest account and at three of the user maps only, so a share that names the account in another map keeps a reference
to nothing. -/

namespace KsmbdTools.Adduser
open Management
variable {state : State} {name : CStr} {user : Ref User}

def HeldByShare (state : State) (user : Ref User) : Prop :=
  ∃ key share record kind map name, state.sharesTable.lookup key = some share ∧ state.shares.get? share = some record ∧
    record.maps.get kind = some map ∧ map.lookup name = some user

/-- Behind the deletion no map holds the record, and one that held it before has the command refused. All that the
maps hold is there when the shares are torn down. -/
def DeletesCleanly (state : State) (name : CStr) (stored : Bool) : Prop :=
  ∃ result, commandDeleteUser state name stored = some result ∧
    (∀ user, state.usersTable.lookup name = some user →
      (result.error = none → ¬HeldByShare result.state user) ∧
      (HeldByShare state user → result.error = some .einval ∧ result.contents = none ∧
        result.state.usersTable.lookup name = some user)) ∧
    ∀ user, HeldByShare result.state user → (result.state.users.get? user).isSome

/-- No share names the account among those kept out or among the readers. -/
def UnlistedElsewhere (state : State) (name : CStr) : Prop :=
  ∀ key share record, state.sharesTable.lookup key = some share → state.shares.get? share = some record →
    shmLookupUsersMap record .invalidUsers name ≠ .present ∧ shmLookupUsersMap record .readList name ≠ .present

theorem heldByShare_congr {other : State} (table : other.sharesTable = state.sharesTable)
    (shares : other.shares = state.shares) : HeldByShare other user ↔ HeldByShare state user := by
  rw [HeldByShare, table, shares, HeldByShare]

theorem listed_iff {record : Share} {kind : ShareUsers} :
    shmLookupUsersMap record kind name = .present ↔ ∃ map user, record.maps.get kind = some map ∧
      map.lookup name = some user := by
  unfold shmLookupUsersMap
  cases record.maps.get kind with
  | none => simp
  | some map =>
    simp only [Option.some.injEq, exists_and_left, exists_eq_left']
    rw [← Option.isSome_iff_exists, AList.lookup_isSome]
    split <;> simp_all

theorem heldByShare_iff (sound : UsersSound state) (shares : SharesTabled state)
    (entry : state.usersTable.lookup name = some user) :
    HeldByShare state user ↔ ∃ key share record kind, state.sharesTable.lookup key = some share ∧
      state.shares.get? share = some record ∧ shmLookupUsersMap record kind name = .present := by
  constructor
  · rintro ⟨key, share, record, kind, map, other, known, seen, kept, found⟩
    obtain ⟨record', seen', tabled⟩ := shares key share known
    cases seen.symm.trans seen'
    have same : other = name := by
      by_contra different
      exact sound.apart entry (tabled kind map kept other user found) different rfl
    exact ⟨key, share, record, kind, known, seen, listed_iff.mpr ⟨map, user, kept, same ▸ found⟩⟩
  · rintro ⟨key, share, record, kind, known, seen, listed⟩
    obtain ⟨map, second, kept, found⟩ := listed_iff.mp listed
    obtain ⟨record', seen', tabled⟩ := shares key share known
    cases seen.symm.trans seen'
    cases entry.symm.trans (tabled kind map kept name second found)
    exact ⟨key, share, record, kind, map, name, known, seen, kept, found⟩

theorem unheld_iff (sound : UsersSound state) (shares : SharesTabled state)
    (entry : state.usersTable.lookup name = some user) (transient : isTransientUser state name = true) :
    ¬HeldByShare state user ↔ UnlistedElsewhere state name := by
  rw [heldByShare_iff sound shares entry]
  constructor
  · intro unheld key share record known seen
    exact ⟨fun listed => unheld ⟨key, share, record, _, known, seen, listed⟩,
      fun listed => unheld ⟨key, share, record, _, known, seen, listed⟩⟩
  · rintro unlisted ⟨key, share, record, kind, known, seen, listed⟩
    obtain ⟨invalid, read⟩ := unlisted key share record known seen
    have member : share ∈ HashTable.values state.sharesTable :=
      List.mem_map_of_mem (f := (·.2)) (AList.mem_lookup_iff.mp known)
    have free : shareRequiresUser record name = false := by
      have every := (Bool.and_eq_true_iff.mp transient).2
      have here := List.all_eq_true.mp every share member
      simpa [seen] using here
    simp only [shareRequiresUser, Bool.or_eq_false_iff, beq_eq_false_iff_ne] at free
    cases kind with
    | adminUsers => exact free.1.1.2 listed
    | validUsers => exact free.2 listed
    | invalidUsers => exact invalid listed
    | readList => exact read listed
    | writeList => exact free.1.2 listed

theorem held_live (sound : UsersSound state) (shares : SharesTabled state) (held : HeldByShare state user) :
    (state.users.get? user).isSome := by
  obtain ⟨key, share, record, kind, map, other, known, seen, kept, found⟩ := held
  obtain ⟨record', seen', tabled⟩ := shares key share known
  cases seen.symm.trans seen'
  obtain ⟨account, there, -⟩ := sound other user (tabled kind map kept other user found)
  rw [there]
  rfl

def withoutUser (state : State) (name : CStr) (user : Ref User) : State :=
  { state with
    users := state.users.free user
    usersTable := state.usersTable.erase name
    faulted := state.faulted || state.clearsBeyond user }

theorem usmRemoveUser_erases (sound : UsersSound state) (entry : state.usersTable.lookup name = some user) :
    (state.withUser user User.lent).usmRemoveUser user = withoutUser state name user := by
  obtain ⟨record, seen, named, -, alive⟩ := sound name user entry
  have taken : (state.withUser user User.lent).users.get? user = some record.lent := by
    rw [State.withUser, Heap.get?_modify_self, seen, Option.map_some]
  have tabled : record.lent.name ∈ (state.withUser user User.lent).usersTable := by
    show record.name ∈ state.usersTable
    rw [named, ← AList.lookup_isSome, entry]
    rfl
  have unmarked : record.lent.freeing = false := alive
  simp only [State.usmRemoveUser, taken, unmarked, Bool.false_eq_true, if_false, if_pos tabled, State.killKsmbdUser]
  show { state with
    users := (state.users.modify user User.lent).free user
    usersTable := state.usersTable.erase record.name
    faulted := state.faulted || (state.withUser user User.lent).clearsBeyond user } = _
  rw [Heap.free_modify, named, UsersSound.clearsBeyond_lent]
  rfl

theorem withoutUser_sound (sound : UsersSound state) (entry : state.usersTable.lookup name = some user) :
    UsersSound (withoutUser state name user) := by
  intro other second known
  replace known : (state.usersTable.erase name).lookup other = some second := known
  have different : other ≠ name := by
    rintro rfl
    rw [AList.lookup_erase] at known
    cases known
  rw [AList.lookup_erase_ne different] at known
  obtain ⟨record, seen, kept⟩ := sound other second known
  exact ⟨record, (Heap.get?_free_ne (sound.apart entry known different)).trans seen, kept⟩

theorem commandDeleteUser_removes (sound : UsersSound state) (entry : state.usersTable.lookup name = some user)
    (transient : isTransientUser state name = true) (stored : Bool) :
    ∃ contents, commandDeleteUser state name stored =
      some { state := withoutUser state name user, contents := some contents,
             error := if stored then none else some .einval } := by
  obtain ⟨names, -, -, written⟩ := getConfContents_lines (withoutUser_sound sound entry)
  have passed : isTransientUser (state.withUser user User.lent) name = true := transient
  refine ⟨names.flatMap fun other => accountLine other ((printedPassword (withoutUser state name user) other).getD []), ?_⟩
  simp only [commandDeleteUser, sound.lookup_some entry, passed, if_true, usmRemoveUser_erases sound entry,
    writeConf, written]
  rfl

theorem commandDeleteUser_required (sound : UsersSound state) (entry : state.usersTable.lookup name = some user)
    (required : isTransientUser state name = false) (stored : Bool) :
    commandDeleteUser state name stored = some { state := state.withUser user User.lent, error := some .einval } := by
  have stopped : isTransientUser (state.withUser user User.lent) name = false := required
  simp only [commandDeleteUser, sound.lookup_some entry, stopped, Bool.false_eq_true, if_false]

/-- A deletion leaves nothing behind exactly if no share names the account where the check does not look. -/
theorem deletes_cleanly_iff (platform : Platform) (created : Bool) (pwddb : FileContents) (smbconf : Smbconf platform)
    (state : State) (name : CStr) (stored : Bool) (loaded : loadConfig platform created pwddb smbconf = (state, true)) :
    DeletesCleanly state name stored ↔ (isTransientUser state name = true → UnlistedElsewhere state name) := by
  obtain ⟨sound, shares, -⟩ := loadConfig_configured loaded
  cases entry : state.usersTable.lookup name with
  | none =>
    have refused : commandDeleteUser state name stored = some { state, error := some .einval } := by
      simp only [commandDeleteUser, UsersSound.lookup_none entry]
    refine ⟨fun _ _ key share record known seen => ?_, fun _ => ⟨_, refused, fun user known => ?_, fun user held => ?_⟩⟩
    · -- No map has a name that the user table does not have.
      obtain ⟨record', seen', tabled⟩ := shares key share known
      cases seen.symm.trans seen'
      have unlisted (kind : ShareUsers) : shmLookupUsersMap record kind name ≠ .present := by
        intro listed
        obtain ⟨map, user, kept, found⟩ := listed_iff.mp listed
        cases entry.symm.trans (tabled kind map kept name user found)
      exact ⟨unlisted _, unlisted _⟩
    · cases entry.symm.trans known
    · exact held_live sound shares held
  | some user =>
    cases transient : isTransientUser state name with
    | false =>
      have refused := commandDeleteUser_required sound entry transient stored
      refine ⟨fun _ => nofun, fun _ => ⟨_, refused, fun second known => ⟨?_, fun _ => ⟨rfl, rfl, known⟩⟩, ?_⟩⟩
      · intro succeeded
        cases succeeded
      · intro second held
        have there := held_live sound shares ((heldByShare_congr rfl rfl).mp held)
        show ((state.users.modify user User.lent).get? second).isSome
        rw [Heap.get?_modify]
        split <;> simpa using there
    | true =>
      obtain ⟨contents, removed⟩ := commandDeleteUser_removes sound entry transient stored
      have same : HeldByShare (withoutUser state name user) user ↔ HeldByShare state user := heldByShare_congr rfl rfl
      rw [← unheld_iff sound shares entry transient]
      constructor
      · rintro ⟨result, ran, cleanly, -⟩ - held
        cases removed.symm.trans ran
        cases ((cleanly user entry).2 held).2.1
      · intro unheld
        replace unheld := unheld rfl
        refine ⟨_, removed, fun second known => ?_, fun second held => ?_⟩
        · cases entry.symm.trans known
          exact ⟨fun _ held => unheld (same.mp held), fun held => absurd held unheld⟩
        · replace held := (heldByShare_congr rfl rfl).mp held
          have apart : second ≠ user := by
            rintro rfl
            exact unheld held
          show ((state.users.free user).get? second).isSome
          rw [Heap.get?_free_ne apart]
          exact held_live sound shares held

namespace Scenario
open Management.Scenario

def listing (share : ShareGroup) : Config := { ipcConfig with shares := share :: ipcConfig.shares }

def sectionsOf (share : ShareGroup) (named : share.name = shareName) (plain : share.pipe = false) : Smbconf plainPlatform :=
  .sections (listing share) ⟨by
    simp only [listing, List.map_cons, named]
    decide +kernel, ⟨_, List.mem_cons_of_mem _ (List.mem_singleton_self _), rfl⟩, by
    simp only [listing, List.forall_mem_cons, named, plain]
    decide +kernel⟩

/-- The account `a` of the line `a:AQ==`, kept out of the one share. -/
def keptOut : State × Bool :=
  loadConfig plainPlatform false (.bytes [97, 58, 65, 81, 61, 61, 10])
    (sectionsOf { name := shareName, invalidUsers := some [account] } rfl rfl)

def letIn : State × Bool :=
  loadConfig plainPlatform false (.bytes [97, 58, 65, 81, 61, 61, 10])
    (sectionsOf { name := shareName, validUsers := some [account] } rfl rfl)

end Scenario

/-- The account is deleted, and the share goes on to name its record. -/
theorem deleted_user_held : Scenario.keptOut.2 = true ∧
    ¬DeletesCleanly Scenario.keptOut.1 Management.Scenario.account true := by
  have ok : Scenario.keptOut.2 = true := by decide +kernel
  have loaded : loadConfig _ _ _ _ = (Scenario.keptOut.1, true) := Prod.ext (x := Scenario.keptOut) rfl ok
  obtain ⟨sound, shares, -⟩ := loadConfig_configured loaded
  have transient : isTransientUser Scenario.keptOut.1 Management.Scenario.account = true := by decide +kernel
  have listed : ((Scenario.keptOut.1.sharesTable.lookup Management.Scenario.shareName).bind
      Scenario.keptOut.1.shares.get?).any (shmLookupUsersMap · .invalidUsers Management.Scenario.account == .present) =
        true := by decide +kernel
  have tabled : (Scenario.keptOut.1.usersTable.lookup Management.Scenario.account).isSome = true := by decide +kernel
  obtain ⟨user, entry⟩ := Option.isSome_iff_exists.mp tabled
  obtain ⟨record, found, present⟩ := Option.any_eq_true _ _ |>.mp listed
  obtain ⟨share, known, seen⟩ := Option.bind_eq_some_iff.mp found
  have held : HeldByShare Scenario.keptOut.1 user :=
    (heldByShare_iff sound shares entry).mpr ⟨_, share, record, .invalidUsers, known, seen, eq_of_beq present⟩
  obtain ⟨contents, removed⟩ := commandDeleteUser_removes sound entry transient true
  refine ⟨ok, ?_⟩
  rintro ⟨result, ran, cleanly, -⟩
  cases removed.symm.trans ran
  exact (cleanly user entry).1 rfl ((heldByShare_congr rfl rfl).mpr held)

theorem deletes_cleanly_let_in :
    Scenario.letIn.2 = true ∧ DeletesCleanly Scenario.letIn.1 Management.Scenario.account true := by
  have ok : Scenario.letIn.2 = true := by decide +kernel
  have loaded : loadConfig _ _ _ _ = (Scenario.letIn.1, true) := Prod.ext (x := Scenario.letIn) rfl ok
  have required : isTransientUser Scenario.letIn.1 Management.Scenario.account = false := by decide +kernel
  refine ⟨ok, (deletes_cleanly_iff _ _ _ _ _ _ _ loaded).mpr fun transient => ?_⟩
  rw [required] at transient
  cases transient

end KsmbdTools.Adduser
