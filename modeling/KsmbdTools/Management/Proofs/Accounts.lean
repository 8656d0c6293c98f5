import KsmbdTools.Flags
import KsmbdTools.Management.Proofs.FailedReload
import KsmbdTools.Management.Proofs.Login

/-! The user table as a map from names to passwords and guest marks, while the two files are loaded. A reference that
is taken and given back leaves no trace, so each operation is a change of one record or a new one. -/

namespace KsmbdTools.Management
variable {platform : Platform}

namespace State

def withUser (state : State) (user : Ref User) (change : User → User) : State :=
  { state with users := state.users.modify user change }

/-- The password text of the account, and whether it is marked as a guest. -/
def account? (state : State) (name : CStr) : Option (CStr × Bool) :=
  (state.usersTable.lookup name).bind fun user =>
    (state.users.get? user).map fun record => (record.passB64, testFlag record.flags UserFlag.guestAccount)

end State

/-- Every entry of the user table is a record of its name that is held. -/
def UsersSound (state : State) : Prop :=
  ∀ name user, state.usersTable.lookup name = some user → ∃ record, state.users.get? user = some record ∧
    record.name = name ∧ 1 ≤ record.refCount ∧ record.freeing = false

def User.lent (record : User) : User := { record with refCount := record.refCount + 1 }

def User.withPassword (pwd pass : List UInt8) (record : User) : User :=
  { record with passB64 := pwd, pass, passSz := toInt32 pass.length }

def User.marked (record : User) : User := { record with flags := setFlag record.flags UserFlag.guestAccount }

namespace UsersSound
variable {state : State} {name : CStr} {user : Ref User}

theorem keyed (sound : UsersSound state) : UsersKeyed state := by
  intro name user record entry seen
  obtain ⟨record', seen', named, -⟩ := sound name user entry
  cases seen.symm.trans seen'
  exact named

theorem apart (sound : UsersSound state) {other : CStr} {second : Ref User} (one : state.usersTable.lookup name = some user)
    (two : state.usersTable.lookup other = some second) (different : other ≠ name) : second ≠ user := by
  rintro rfl
  obtain ⟨record, seen, named, -⟩ := sound name second one
  exact different ((sound.keyed other second record two seen).symm.trans named)

theorem lookup_none (absent : state.usersTable.lookup name = none) : state.usmLookupUser (some name) = (state, none) := by
  simp [State.usmLookupUser, absent]

theorem lookup_some (sound : UsersSound state) (entry : state.usersTable.lookup name = some user) :
    state.usmLookupUser (some name) = (state.withUser user User.lent, some user) := by
  obtain ⟨record, seen, -, held, -⟩ := sound name user entry
  have nonzero : record.refCount ≠ 0 := by omega
  simp only [State.usmLookupUser, Option.bind_some, entry, State.getKsmbdUser, seen, if_pos nonzero]
  rfl

theorem withUser (sound : UsersSound state) {change : User → User} (names : ∀ record, (change record).name = record.name)
    (refs : ∀ record, record.refCount ≤ (change record).refCount)
    (freeing : ∀ record, (change record).freeing = record.freeing) : UsersSound (state.withUser user change) := by
  intro other second entry
  obtain ⟨record, seen, named, held, kept⟩ := sound other second entry
  have more := refs record
  by_cases same : second = user
  · refine ⟨change record, ?_, (names record).trans named, by omega, (freeing record).trans kept⟩
    rw [State.withUser, ← same, Heap.get?_modify_self, seen, Option.map_some]
  · exact ⟨record, by rw [State.withUser, Heap.get?_modify_ne same, seen], named, held, kept⟩

theorem put_back (sound : UsersSound state) (entry : state.usersTable.lookup name = some user) (change : User → User)
    (apart : ∀ record, { change record.lent with refCount := (change record.lent).refCount - 1 } = change record)
    (refs : ∀ record, (change record).refCount = record.refCount) :
    ((state.withUser user User.lent).withUser user change).putUser user = state.withUser user change := by
  obtain ⟨record, seen, -, held, -⟩ := sound name user entry
  have back : ((state.withUser user User.lent).withUser user change).users.modify user
      (fun record => { record with refCount := record.refCount - 1 }) = state.users.modify user change := by
    simp only [State.withUser, Heap.modify_modify]
    congr 1
    funext record
    exact apart record
  have same : { (state.withUser user User.lent).withUser user change with users := state.users.modify user change } =
      state.withUser user change := rfl
  have changed : (state.withUser user change).users.get? user = some (change record) := by
    rw [State.withUser, Heap.get?_modify_self, seen, Option.map_some]
  have positive : (change record).refCount ≠ 0 := by rw [refs]; omega
  rw [State.putUser, back, same]
  simp only [changed, if_neg positive]

theorem withUser_id (state : State) (user : Ref User) : state.withUser user id = state := by
  have same : state.users.modify user id = state.users := Heap.modify_eq_self fun _ _ => rfl
  rw [State.withUser, same]

theorem put_unchanged (sound : UsersSound state) (entry : state.usersTable.lookup name = some user) :
    (state.withUser user User.lent).putUser user = state := by
  have back : ((state.withUser user User.lent).withUser user id).putUser user = state.withUser user id :=
    sound.put_back entry id (fun record => by simp [User.lent]) (fun _ => rfl)
  rwa [withUser_id, withUser_id] at back

end UsersSound

/-- The tables after a change of the users alone, with the accounts it makes. Users that were there stay. -/
structure Accounts (before after : State) (accounts : CStr → Option (CStr × Bool)) : Prop where
  only : OnlyUsers before after
  sound : UsersSound after
  kept : ∀ name user, before.usersTable.lookup name = some user → after.usersTable.lookup name = some user
  accounts : ∀ name, after.account? name = accounts name

namespace Accounts
variable {state : State} {name : CStr} {user : Ref User}

theorem refl (sound : UsersSound state) : Accounts state state state.account? :=
  ⟨.refl state, sound, fun _ _ => id, fun _ => rfl⟩

theorem faulted (sound : UsersSound state) (faulted : Bool) : Accounts state { state with faulted } state.account? :=
  ⟨.faulted state _ _ _, sound, fun _ _ => id, fun _ => rfl⟩

theorem trans {first middle last : State} {one two : CStr → Option (CStr × Bool)} (a : Accounts first middle one)
    (b : Accounts middle last two) : Accounts first last two :=
  ⟨a.only.trans b.only, b.sound, fun name user entry => b.kept name user (a.kept name user entry), b.accounts⟩

theorem withUser (sound : UsersSound state) (entry : state.usersTable.lookup name = some user) (change : User → User)
    (after : CStr × Bool → CStr × Bool) (names : ∀ record, (change record).name = record.name)
    (refs : ∀ record, record.refCount ≤ (change record).refCount)
    (freeing : ∀ record, (change record).freeing = record.freeing)
    (accounts : ∀ record, ((change record).passB64, testFlag (change record).flags UserFlag.guestAccount) =
      after (record.passB64, testFlag record.flags UserFlag.guestAccount)) :
    Accounts state (state.withUser user change)
      fun other => if other = name then (state.account? other).map after else state.account? other := by
  refine ⟨.users state _ _, sound.withUser names refs freeing, fun _ _ => id, fun other => ?_⟩
  show ((state.usersTable.lookup other).bind fun second => ((state.users.modify user change).get? second).map _) = _
  by_cases same : other = name
  · rw [if_pos same, same, State.account?, entry, Option.bind_some, Option.bind_some, Heap.get?_modify_self,
      Option.map_map, Option.map_map]
    refine congrArg (Option.map · _) (funext fun record => accounts record)
  · rw [if_neg same, State.account?]
    cases known : state.usersTable.lookup other with
    | none => rfl
    | some second => rw [Option.bind_some, Option.bind_some, Heap.get?_modify_ne (sound.apart entry known same)]

theorem lent (sound : UsersSound state) (entry : state.usersTable.lookup name = some user) :
    Accounts state (state.withUser user User.lent) state.account? := by
  have changed := withUser sound entry User.lent id (fun _ => rfl)
    (fun record => by show record.refCount ≤ record.refCount + 1; omega) (fun _ => rfl) (fun _ => rfl)
  refine ⟨changed.only, changed.sound, changed.kept, fun other => ?_⟩
  rw [changed.accounts]
  split
  · rw [Option.map_id, id]
  · rfl

theorem alloc (sound : UsersSound state) (absent : state.usersTable.lookup name = none) {record : User}
    (named : record.name = name) (held : record.refCount = 1) (alive : record.freeing = false) :
    Accounts state { state with users := (state.users.alloc record).1,
                                usersTable := state.usersTable.insert name (state.users.alloc record).2 }
      fun other => if other = name then some (record.passB64, testFlag record.flags UserFlag.guestAccount)
        else state.account? other := by
  have old {other : CStr} {second : Ref User} (known : state.usersTable.lookup other = some second) :
      (state.users.alloc record).1.get? second = state.users.get? second := by
    obtain ⟨existing, seen, -⟩ := sound other second known
    exact Heap.get?_alloc_old record (Heap.get?_lt seen)
  have entries (other : CStr) (different : other ≠ name) :
      (state.usersTable.insert name (state.users.alloc record).2).lookup other = state.usersTable.lookup other :=
    AList.lookup_insert_ne different
  refine ⟨.users state _ _, ?_, ?_, ?_⟩
  · intro other second known
    by_cases same : other = name
    · rw [same, AList.lookup_insert] at known
      cases known
      exact ⟨record, Heap.get?_alloc_new _ _, named.trans same.symm, by omega, alive⟩
    · replace known : (state.usersTable.insert name (state.users.alloc record).2).lookup other = some second := known
      rw [entries other same] at known
      rw [old known]
      exact sound other second known
  · intro other second known
    have different : other ≠ name := by
      rintro rfl
      rw [absent] at known
      cases known
    exact (entries other different).trans known
  · intro other
    show ((state.usersTable.insert name (state.users.alloc record).2).lookup other).bind (fun second =>
      ((state.users.alloc record).1.get? second).map _) = _
    by_cases same : other = name
    · rw [if_pos same, same, AList.lookup_insert, Option.bind_some, Heap.get?_alloc_new, Option.map_some]
    · rw [if_neg same, entries other same, State.account?]
      cases known : state.usersTable.lookup other with
      | none => rfl
      | some second => rw [Option.bind_some, Option.bind_some, old known]

end Accounts

/-- What a line of the database makes of the accounts. A text that cannot be decoded is left out. -/
def setPassword (platform : Platform) (name pwd : CStr) (accounts : CStr → Option (CStr × Bool)) :
    CStr → Option (CStr × Bool) := fun other =>
  if other = name then
    match accounts name, platform.base64Decode pwd with
    | some (_, guest), some _ => some (pwd, guest)
    | some old, none => some old
    | none, some pass => if pass.length < 2 ^ 31 then some (pwd, false) else none
    | none, none => none
  else accounts other

def markGuest (name : CStr) (accounts : CStr → Option (CStr × Bool)) : CStr → Option (CStr × Bool) := fun other =>
  if other = name then some (((accounts name).map (·.1)).getD State.guestPassword, true) else accounts other

theorem newKsmbdUser_fields {name pwd : CStr} {record : User} (made : newKsmbdUser platform name pwd = some record) :
    record.name = name ∧ record.passB64 = pwd ∧ record.refCount = 1 ∧ record.freeing = false ∧ record.flags = 0 ∧
      ∃ pass, platform.base64Decode pwd = some pass ∧ pass.length < 2 ^ 31 ∧ record.pass = pass := by
  unfold newKsmbdUser at made
  split at made
  · cases made
  next pass decoded =>
    split at made
    · cases made
    next short =>
      split at made <;> cases made <;> exact ⟨rfl, rfl, rfl, rfl, rfl, pass, decoded, by omega, rfl⟩

theorem newKsmbdUser_some {name pwd : CStr} {pass : List UInt8} (decoded : platform.base64Decode pwd = some pass)
    (short : pass.length < 2 ^ 31) : ∃ record, newKsmbdUser platform name pwd = some record := by
  unfold newKsmbdUser
  rw [decoded]
  dsimp only
  rw [if_neg (by omega)]
  split <;> exact ⟨_, rfl⟩

namespace UsersSound
variable {state : State} {name pwd : CStr} {user : Ref User}

theorem account_none (absent : state.usersTable.lookup name = none) : state.account? name = none := by
  rw [State.account?, absent, Option.bind_none]

theorem account_some (sound : UsersSound state) (entry : state.usersTable.lookup name = some user) :
    ∃ record, state.users.get? user = some record ∧ record.name = name ∧
      state.account? name = some (record.passB64, testFlag record.flags UserFlag.guestAccount) := by
  obtain ⟨record, seen, named, -⟩ := sound name user entry
  exact ⟨record, seen, named, by rw [State.account?, entry, Option.bind_some, seen, Option.map_some]⟩

theorem addNewUser_eq (absent : state.usersTable.lookup name = none) {record : User}
    (made : newKsmbdUser platform name pwd = some record) :
    state.usmAddNewUser platform name pwd =
      ({ state with users := (state.users.alloc record).1,
                    usersTable := state.usersTable.insert name (state.users.alloc record).2 }, true) := by
  have outside : name ∉ state.usersTable := AList.lookup_eq_none.mp absent
  simp only [State.usmAddNewUser, made, if_neg outside]

theorem addNewUser (sound : UsersSound state) (absent : state.usersTable.lookup name = none) {record : User}
    (made : newKsmbdUser platform name pwd = some record) :
    ∃ after, state.usmAddNewUser platform name pwd = (after, true) ∧
      Accounts state after fun other => if other = name then some (pwd, false) else state.account? other := by
  obtain ⟨named, text, held, alive, flags, -⟩ := newKsmbdUser_fields made
  refine ⟨_, addNewUser_eq absent made, ?_⟩
  have added := Accounts.alloc sound absent named held alive
  rw [text, flags, testFlag_zero] at added
  exact added

theorem clearsBeyond_lent (state : State) (user : Ref User) :
    (state.withUser user User.lent).clearsBeyond user = state.clearsBeyond user := by
  rw [State.clearsBeyond, State.withUser, Heap.get?_modify_self, Option.any_map]
  rfl

theorem addUserPassword_known (sound : UsersSound state) (entry : state.usersTable.lookup name = some user)
    {pass : List UInt8} (decoded : platform.base64Decode pwd = some pass) :
    state.addUserPassword platform name pwd =
      { state with faulted := state.faulted || state.clearsBeyond user }.withUser user (User.withPassword pwd pass) := by
  have before : UsersSound { state with faulted := state.faulted || state.clearsBeyond user } := sound
  simp only [State.addUserPassword, sound.lookup_some entry, State.usmUpdateUserPassword, decoded, clearsBeyond_lent]
  exact before.put_back entry (User.withPassword pwd pass) (fun record => by simp [User.lent, User.withPassword])
    (fun _ => rfl)

theorem addUserPassword_undecoded (sound : UsersSound state) (undecoded : platform.base64Decode pwd = none) :
    ∃ faulted, state.addUserPassword platform name pwd = { state with faulted } := by
  cases entry : state.usersTable.lookup name with
  | none =>
    exact ⟨true, by simp only [State.addUserPassword, lookup_none entry, State.usmAddNewUser, newKsmbdUser, undecoded]⟩
  | some user =>
    refine ⟨state.faulted, ?_⟩
    simp only [State.addUserPassword, sound.lookup_some entry, State.usmUpdateUserPassword, undecoded,
      sound.put_unchanged entry]

theorem addUserPassword_new (absent : state.usersTable.lookup name = none) :
    state.addUserPassword platform name pwd = (state.usmAddNewUser platform name pwd).1 := by
  simp only [State.addUserPassword, lookup_none absent]

theorem addUserPassword_long (absent : state.usersTable.lookup name = none) {pass : List UInt8}
    (decoded : platform.base64Decode pwd = some pass) (long : 2 ^ 31 ≤ pass.length) :
    state.addUserPassword platform name pwd = { state with faulted := true } := by
  rw [addUserPassword_new absent]
  simp only [State.usmAddNewUser, newKsmbdUser, decoded, if_pos long]

theorem addUserPassword (sound : UsersSound state) :
    Accounts state (state.addUserPassword platform name pwd) (setPassword platform name pwd state.account?) := by
  -- The accounts are as asked for if they are for the name.
  have unchanged {faulted : Bool} (same : state.addUserPassword platform name pwd = { state with faulted })
      (here : setPassword platform name pwd state.account? name = state.account? name) :
      Accounts state (state.addUserPassword platform name pwd) (setPassword platform name pwd state.account?) := by
    have accounts : setPassword platform name pwd state.account? = state.account? := by
      funext other
      by_cases own : other = name
      · rw [own, here]
      · rw [setPassword, if_neg own]
    rw [same, accounts]
    exact .faulted sound faulted
  cases decoded : platform.base64Decode pwd with
  | none =>
    obtain ⟨faulted, same⟩ := sound.addUserPassword_undecoded decoded
    refine unchanged same ?_
    rw [setPassword, if_pos rfl, decoded]
    cases state.account? name <;> rfl
  | some pass =>
    cases entry : state.usersTable.lookup name with
    | none =>
      have empty := account_none entry
      by_cases short : pass.length < 2 ^ 31
      · obtain ⟨record, made⟩ := @newKsmbdUser_some platform name _ _ decoded short
        obtain ⟨after, added, accounts⟩ := sound.addNewUser entry made
        rw [addUserPassword_new entry, added]
        refine ⟨accounts.only, accounts.sound, accounts.kept, fun other => ?_⟩
        rw [accounts.accounts, setPassword, empty, decoded]
        simp only [if_pos short]
      · refine unchanged (addUserPassword_long entry decoded (Nat.le_of_not_lt short)) ?_
        rw [setPassword, if_pos rfl, empty, decoded]
        simp only [if_neg short]
    | some user =>
      obtain ⟨record, seen, named, account⟩ := sound.account_some entry
      have before := Accounts.faulted sound (state.faulted || state.clearsBeyond user)
      have changed := before.trans (.withUser before.sound entry (User.withPassword pwd pass) (fun old => (pwd, old.2))
        (fun _ => rfl) (fun _ => Int.le_refl _) (fun _ => rfl) (fun _ => rfl))
      rw [sound.addUserPassword_known entry decoded]
      refine ⟨changed.only, changed.sound, changed.kept, fun other => ?_⟩
      rw [changed.accounts, setPassword, account, decoded, funext before.accounts]
      by_cases here : other = name
      · rw [if_pos here, if_pos here, here, account, Option.map_some]
      · rw [if_neg here, if_neg here]

theorem addGuestAccount_made (sound : UsersSound state) {record : User}
    (made : newKsmbdUser platform name State.guestPassword = some record) :
    ∃ after, state.usmAddGuestAccount platform name = (after, true) ∧
      Accounts state after (markGuest name state.account?) := by
  -- The account is marked as soon as it is there.
  have marks {current : State} {user : Ref User} (sound : UsersSound current)
      (entry : current.usersTable.lookup name = some user) :
      ((current.withUser user User.lent).withUser user User.marked).putUser user = current.withUser user User.marked ∧
      Accounts current (current.withUser user User.marked)
        fun other =>
          if other = name then (current.account? other).map (fun old => (old.1, true)) else current.account? other := by
    refine ⟨sound.put_back entry User.marked (fun record => by simp [User.lent, User.marked]) (fun _ => rfl), ?_⟩
    refine Accounts.withUser sound entry User.marked _ (fun _ => rfl) (fun _ => Int.le_refl _)
      (fun _ => rfl) fun record => ?_
    exact congrArg (record.passB64, ·) (testFlag_setFlag_self (by decide))
  unfold State.usmAddGuestAccount
  cases entry : state.usersTable.lookup name with
  | some user =>
    have present : name ∈ state.usersTable := AList.lookup_isSome.mp (by rw [entry]; rfl)
    obtain ⟨back, changed⟩ := marks sound entry
    simp only [State.usmAddNewUser, made, if_pos present]
    rw [sound.lookup_some entry]
    refine ⟨_, congrArg (·, true) back, changed.only, changed.sound, changed.kept, fun other => ?_⟩
    obtain ⟨record, -, -, account⟩ := sound.account_some entry
    rw [changed.accounts, markGuest, account]
    by_cases here : other = name
    · rw [if_pos here, if_pos here, here, account]
      rfl
    · rw [if_neg here, if_neg here]
  | none =>
    obtain ⟨current, new, accounts⟩ := sound.addNewUser entry made
    have account : current.account? name = some (State.guestPassword, false) := by rw [accounts.accounts, if_pos rfl]
    cases there : current.usersTable.lookup name with
    | none =>
      rw [account_none there] at account
      cases account
    | some user =>
      obtain ⟨back, marked⟩ := marks accounts.sound there
      have changed := accounts.trans marked
      simp only [new]
      rw [accounts.sound.lookup_some there]
      refine ⟨_, congrArg (·, true) back, changed.only, changed.sound, changed.kept, fun other => ?_⟩
      rw [changed.accounts, markGuest, account_none entry]
      by_cases here : other = name
      · rw [if_pos here, if_pos here, here, account]
        rfl
      · rw [if_neg here, if_neg here, accounts.accounts, if_neg here]

theorem addGuestAccount (sound : UsersSound state) {after : State}
    (added : state.usmAddGuestAccount platform name = (after, true)) :
    Accounts state after (markGuest name state.account?) := by
  cases made : newKsmbdUser platform name State.guestPassword with
  | none => simp [State.usmAddGuestAccount, State.usmAddNewUser, made] at added
  | some record =>
    obtain ⟨current, ran, accounts⟩ := sound.addGuestAccount_made made
    cases ran.symm.trans added
    exact accounts

theorem addGuestAccount_refused (sound : UsersSound state) {after : State}
    (refused : state.usmAddGuestAccount platform name = (after, false)) : after = { state with faulted := true } := by
  cases made : newKsmbdUser platform name State.guestPassword with
  | none =>
    simp only [State.usmAddGuestAccount, State.usmAddNewUser, made] at refused
    cases refused
    rfl
  | some record =>
    obtain ⟨current, ran, -⟩ := sound.addGuestAccount_made made
    cases ran.symm.trans refused

end UsersSound

/-- The entries of the map are those of the user table for their names. -/
def MapTabled (state : State) (map : HashTable CStr (Ref User)) : Prop :=
  ∀ name user, map.lookup name = some user → state.usersTable.lookup name = some user

def MapsTabled (state : State) (maps : ShareMaps) : Prop := ∀ kind map, maps.get kind = some map → MapTabled state map

def SharesTabled (state : State) : Prop :=
  ∀ key share, state.sharesTable.lookup key = some share → ∃ record, state.shares.get? share = some record ∧
    MapsTabled state record.maps

namespace MapTabled
variable {state after : State} {map : HashTable CStr (Ref User)}

theorem grow (tabled : MapTabled state map)
    (kept : ∀ name user, state.usersTable.lookup name = some user → after.usersTable.lookup name = some user) :
    MapTabled after map := fun name user found => kept name user (tabled name user found)

theorem insert (tabled : MapTabled state map) {name : CStr} {user : Ref User}
    (entry : state.usersTable.lookup name = some user) : MapTabled state (map.insert name user) := by
  intro other second found
  by_cases same : other = name
  · rw [same, AList.lookup_insert] at found
    cases found
    rwa [same]
  · rw [AList.lookup_insert_ne same] at found
    exact tabled other second found

theorem addMapUser (sound : UsersSound state) (tabled : MapTabled state map) (name : CStr) :
    Accounts state (State.addMapUser (state, map) name).1 state.account? ∧
      MapTabled (State.addMapUser (state, map) name).1 (State.addMapUser (state, map) name).2 := by
  have stays := Accounts.refl sound
  unfold State.addMapUser
  dsimp only
  split
  · exact ⟨stays, tabled⟩
  · cases entry : state.usersTable.lookup name with
    | none =>
      rw [UsersSound.lookup_none entry]
      exact ⟨stays, tabled⟩
    | some user =>
      obtain ⟨record, seen, named, -⟩ := sound name user entry
      have taken : (state.withUser user User.lent).users.get? user = some record.lent := by
        rw [State.withUser, Heap.get?_modify_self, seen, Option.map_some]
      rw [sound.lookup_some entry]
      simp only [taken]
      split
      · rw [sound.put_unchanged entry]
        exact ⟨stays, tabled⟩
      · refine ⟨.lent sound entry, ?_⟩
        show MapTabled (state.withUser user User.lent) (map.insert record.name user)
        rw [named]
        exact MapTabled.insert tabled entry

theorem addUsersMap (sound : UsersSound state) (names : List CStr) :
    Accounts state (state.addUsersMap platform names).1 state.account? ∧
      MapTabled (state.addUsersMap platform names).1 (state.addUsersMap platform names).2 := by
  have fold : ∀ (names : List CStr) (state : State) (map : HashTable CStr (Ref User)), UsersSound state →
      MapTabled state map → Accounts state (names.foldl State.addMapUser (state, map)).1 state.account? ∧
        MapTabled (names.foldl State.addMapUser (state, map)).1 (names.foldl State.addMapUser (state, map)).2 := by
    intro names
    induction names with
    | nil => exact fun state map sound tabled => ⟨.refl sound, tabled⟩
    | cons name names ih =>
      intro state map sound tabled
      obtain ⟨one, between⟩ := addMapUser sound tabled name
      obtain ⟨more, last⟩ := ih _ _ one.sound between
      refine ⟨?_, last⟩
      have all := one.trans more
      exact ⟨all.only, all.sound, all.kept, fun other => (all.accounts other).trans (one.accounts other)⟩
  exact fold _ state ∅ sound fun name user found => by simp at found

end MapTabled

theorem ShareMaps.get_set (maps : ShareMaps) (kind other : ShareUsers) (map : HashTable CStr (Ref User)) :
    (maps.set kind map).get other = if other = kind then some map else maps.get other := by
  cases kind <;> cases other <;> rfl

namespace MapsTabled
variable {state after : State} {maps : ShareMaps}

theorem grow (tabled : MapsTabled state maps)
    (kept : ∀ name user, state.usersTable.lookup name = some user → after.usersTable.lookup name = some user) :
    MapsTabled after maps := fun kind map found => (tabled kind map found).grow kept

theorem set (tabled : MapsTabled state maps) (kind : ShareUsers) {map : HashTable CStr (Ref User)}
    (new : MapTabled state map) : MapsTabled state (maps.set kind map) := by
  intro other found same
  rw [ShareMaps.get_set] at same
  split at same
  · cases same
    exact new
  · exact tabled other found same

theorem addGroupMaps (sound : UsersSound state) (tabled : MapsTabled state maps)
    (lists : List (ShareUsers × Option (List CStr))) :
    Accounts state (lists.foldl (State.addGroupMap platform) (state, maps)).1 state.account? ∧
      MapsTabled (lists.foldl (State.addGroupMap platform) (state, maps)).1
        (lists.foldl (State.addGroupMap platform) (state, maps)).2 := by
  induction lists generalizing state maps with
  | nil => exact ⟨.refl sound, tabled⟩
  | cons list lists ih =>
    obtain ⟨kind, names⟩ := list
    cases names with
    | none => exact ih sound tabled
    | some names =>
      obtain ⟨one, map⟩ := @MapTabled.addUsersMap platform state sound names
      obtain ⟨more, last⟩ := ih one.sound ((tabled.grow one.kept).set kind map)
      refine ⟨?_, last⟩
      have all := one.trans more
      exact ⟨all.only, all.sound, all.kept, fun other => (all.accounts other).trans (one.accounts other)⟩

end MapsTabled

def markGuests (guests : List CStr) (accounts : CStr → Option (CStr × Bool)) : CStr → Option (CStr × Bool) :=
  guests.foldl (fun accounts guest => markGuest guest accounts) accounts

/-- What the configuration makes of the accounts: more guests, and nothing else. -/
def MarksGuests (before after : State) : Prop := ∃ guests, Accounts before after (markGuests guests before.account?)

theorem MarksGuests.of_unchanged {before after : State} (accounts : Accounts before after before.account?) :
    MarksGuests before after := ⟨[], accounts⟩

theorem markGuests_append (guests more : List CStr) (accounts : CStr → Option (CStr × Bool)) :
    markGuests (guests ++ more) accounts = markGuests more (markGuests guests accounts) := List.foldl_append

theorem MarksGuests.trans {first middle last : State} (one : MarksGuests first middle) (two : MarksGuests middle last) :
    MarksGuests first last := by
  obtain ⟨guests, marked⟩ := one
  obtain ⟨more, again⟩ := two
  refine ⟨guests ++ more, ?_⟩
  rw [markGuests_append, ← funext marked.accounts]
  exact marked.trans again

/-- A share section: its guest account is marked, and its maps are made of accounts. -/
theorem UsersSound.initShare {state : State} (sound : UsersSound state) (group : ShareGroup) :
    MarksGuests state (state.initShareFromGroup platform group).1 ∧
      ∀ share, (state.initShareFromGroup platform group).2 = some share →
        MapsTabled (state.initShareFromGroup platform group).1 share.maps := by
  have stays : MarksGuests state state := .of_unchanged (.refl sound)
  have guest : MarksGuests state (group.guestAccount.elim (state, true) (state.usmAddGuestAccount platform ·)).1 := by
    cases group.guestAccount with
    | none => exact stays
    | some name =>
      simp only [Option.elim_some]
      cases added : state.usmAddGuestAccount platform name with
      | mk current ok =>
        cases ok with
        | true => exact ⟨[name], sound.addGuestAccount added⟩
        | false =>
          obtain rfl := sound.addGuestAccount_refused added
          exact .of_unchanged (.faulted sound true)
  unfold State.initShareFromGroup
  split
  · exact ⟨stays, by simp⟩
  · dsimp only
    split
    · exact ⟨guest, by simp⟩
    · split
      · exact ⟨guest, by simp⟩
      · obtain ⟨guests, marked⟩ := guest
        have empty : MapsTabled (group.guestAccount.elim (state, true) (state.usmAddGuestAccount platform ·)).1 {} := by
          intro kind map found
          cases kind <;> cases found
        obtain ⟨maps, tabled⟩ := @MapsTabled.addGroupMaps platform _ _ marked.sound empty
          [(.validUsers, group.validUsers), (.invalidUsers, group.invalidUsers), (.readList, group.readList),
            (.writeList, group.writeList)]
        refine ⟨.trans ⟨guests, marked⟩ (.of_unchanged maps), fun share made => ?_⟩
        cases made
        exact tabled

/-- The tables behind the configuration: accounts that were there have at most become guests, and the maps of the
shares are made of accounts. -/
structure Configured (before after : State) : Prop where
  sound : UsersSound after
  shares : SharesTabled after
  guests : ∃ guests, ∀ name, after.account? name = markGuests guests before.account? name

namespace Configured
variable {first middle last state : State}

theorem refl (sound : UsersSound state) (shares : SharesTabled state) : Configured state state :=
  ⟨sound, shares, [], fun _ => rfl⟩

theorem trans (one : Configured first middle) (two : Configured middle last) : Configured first last := by
  obtain ⟨guests, marked⟩ := one.guests
  obtain ⟨more, again⟩ := two.guests
  refine ⟨two.sound, two.shares, guests ++ more, fun name => ?_⟩
  rw [again, markGuests_append, ← funext marked]

theorem users (shares : SharesTabled first) (marks : MarksGuests first middle) : Configured first middle := by
  obtain ⟨guests, marked⟩ := marks
  refine ⟨marked.sound, fun key share known => ?_, guests, marked.accounts⟩
  rw [marked.only.sharesTable] at known
  obtain ⟨record, seen, maps⟩ := shares key share known
  exact ⟨record, by rw [marked.only.shares, seen], maps.grow marked.kept⟩

theorem addNewShare (sound : UsersSound state) (shares : SharesTabled state) {group : ShareGroup}
    (free : shmCasefoldShareName platform group.name ∉ state.sharesTable) :
    Configured state (state.shmAddNewShare platform group).1 := by
  obtain ⟨marks, maps⟩ := @UsersSound.initShare platform state sound group
  have ready := users shares marks
  have table := (state.initShareFromGroup_spec platform group).1.sharesTable
  have names (share : Share) (made : (state.initShareFromGroup platform group).2 = some share) : share.name = group.name :=
    (State.initShareFromGroup_ids made).1
  unfold State.shmAddNewShare
  generalize state.initShareFromGroup platform group = made at ready maps table names
  obtain ⟨current, share⟩ := made
  cases share with
  | none => exact ready
  | some share =>
    dsimp only at table ⊢
    rw [names share rfl, table, if_neg free]
    refine ready.trans ⟨ready.sound, fun key other known => ?_, [], fun _ => rfl⟩
    by_cases same : key = shmCasefoldShareName platform group.name
    · rw [same, AList.lookup_insert] at known
      cases known
      exact ⟨share, Heap.get?_alloc_new _ _, maps share rfl⟩
    · replace known : (state.sharesTable.insert (shmCasefoldShareName platform group.name)
        (current.shares.alloc share).2).lookup key = some other := known
      rw [AList.lookup_insert_ne same, ← table] at known
      obtain ⟨record, seen, tabled⟩ := ready.shares key other known
      exact ⟨record, (Heap.get?_alloc_old share (Heap.get?_lt seen)).trans seen, tabled⟩

theorem addShares {groups : List ShareGroup} (sound : UsersSound state) (shares : SharesTabled state)
    (fresh : Fresh platform state groups) : Configured state (state.addShares platform groups).1 := by
  induction groups generalizing state with
  | nil => exact .refl sound shares
  | cons group groups ih =>
    have one := addNewShare sound shares (fresh.free group List.mem_cons_self)
    rw [State.addShares_cons]
    exact one.trans (ih one.sound one.shares fresh.rest)

theorem finalize {config : Config} (sound : UsersSound state) (empty : state.sharesTable = ∅)
    (formed : config.Formed platform) : Configured state (state.finalizeSmbconfParser platform config).1 := by
  unfold State.finalizeSmbconfParser
  have bare (other : State) (same : other.sharesTable = ∅) : SharesTabled other := by
    intro key share known
    rw [same] at known
    simp at known
  have set : Configured state (if state.reloading then state else { state with globalConf := config.globalConf }) := by
    split
    · exact .refl sound (bare state empty)
    · exact ⟨sound, bare _ empty, [], fun _ => rfl⟩
  have table : (if state.reloading then state else { state with globalConf := config.globalConf }).sharesTable = ∅ := by
    split <;> exact empty
  generalize (if state.reloading then state else { state with globalConf := config.globalConf }) = ready at set table
  dsimp only
  cases ready.globalConf.guestAccount with
  | none => exact set.trans (addShares set.sound set.shares (formed.fresh table))
  | some name =>
    have only := ready.usmAddGuestAccount_only platform name
    simp only [Option.elim_some]
    cases added : ready.usmAddGuestAccount platform name with
    | mk current ok =>
      rw [added] at only
      cases ok with
      | false =>
        obtain rfl := set.sound.addGuestAccount_refused added
        exact set.trans (users set.shares (.of_unchanged (.faulted set.sound true)))
      | true =>
        have marked := set.trans (users set.shares ⟨[name], set.sound.addGuestAccount added⟩)
        exact marked.trans (addShares marked.sound marked.shares (formed.fresh (only.sharesTable.trans table)))

end Configured

theorem UsersSound.parseEntries {state : State} (sound : UsersSound state) (entries : List CStr) :
    ∃ accounts, Accounts state (parseEntries (State.processPwddbEntry platform) state entries).1 accounts := by
  induction entries generalizing state with
  | nil => exact ⟨_, .refl sound⟩
  | cons entry entries ih =>
    unfold Management.parseEntries
    have line : ∃ accounts, Accounts state (state.processPwddbEntry platform entry).1 accounts := by
      unfold State.processPwddbEntry
      split
      · exact ⟨_, .refl sound⟩
      · split
        · exact ⟨_, .refl sound⟩
        · exact ⟨_, sound.addUserPassword⟩
    obtain ⟨accounts, one⟩ := line
    generalize state.processPwddbEntry platform entry = done at one ⊢
    obtain ⟨next, ok⟩ := done
    cases ok with
    | false => exact ⟨_, one⟩
    | true =>
      obtain ⟨more, rest⟩ := ih one.sound
      exact ⟨more, one.trans rest⟩

end KsmbdTools.Management
