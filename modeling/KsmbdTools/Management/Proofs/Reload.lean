import KsmbdTools.Management.Proofs.Leaving

/-! A configuration load empties the share table and fills it again under the
open connections. Shares still in use survive outside the table. -/

namespace KsmbdTools.Management
variable {platform : Platform}

/-- The share table half taken down: the shares in `left` still have the reference
of their entry. -/
structure Retiring (state : State) (left : List (Ref Share)) : Prop where
  listed : ∀ share ∈ left, state.shares.Live share
  held : ∀ share record, state.shares.get? share = some record → 0 < record.refCount
  counted : ∀ share record, state.shares.get? share = some record → 0 ≤ record.numConnections
  retired : ∀ share record, state.shares.get? share = some record → share ∉ left → record.freeing = true
  balance : ∀ share record, state.shares.get? share = some record →
    record.refCount = (if share ∈ left then 1 else 0 : Nat) + state.connections share
  referred : ∀ sess record, state.sessions.get? sess = some record → ∀ conn ∈ record.treeConns,
    ∃ share, conn.share = some share ∧ state.shares.Live share

theorem Consistent.retiring {state : State} (consistent : Consistent platform state) :
    Retiring state (HashTable.values state.sharesTable) where
  listed := fun share member => by
    obtain ⟨key, known⟩ := HashTable.mem_values.mp member
    exact consistent.shares.tabled key share known
  held := consistent.shares.held
  counted := consistent.shares.counted
  retired := consistent.retired
  balance := consistent.balance
  referred := consistent.referred

theorem Consistent.values_nodup {state : State} (consistent : Consistent platform state) :
    (HashTable.values state.sharesTable).Nodup := by
  refine List.Nodup.map_on ?_ (List.nodupKeys_iff_pairwise.mp state.sharesTable.nodupKeys |>.imp ?_)
  · rintro ⟨first, share⟩ one ⟨second, other⟩ two same
    obtain rfl : share = other := same
    have firstKnown : state.sharesTable.lookup first = some share := AList.mem_lookup_iff.mpr one
    have secondKnown : state.sharesTable.lookup second = some share := AList.mem_lookup_iff.mpr two
    obtain ⟨record, found⟩ := consistent.shares.tabled first share firstKnown
    have firstName := (consistent.named first share record firstKnown found).1
    have secondName := (consistent.named second share record secondKnown found).1
    rw [← firstName, ← secondName]
  · rintro _ _ different rfl
    exact different rfl

def retireShare (record : Share) : Share := { record with freeing := true, refCount := record.refCount - 1 }

namespace State

variable (platform) in
theorem retire_step {state : State} {share : Ref Share} {record : Share}
    (found : state.shares.get? share = some record) :
    ∃ after, ({ state with shares := state.shares.modify share fun record => { record with freeing := true } }).putShare
        platform share = after ∧ after.sessions = state.sessions ∧ after.sessionsTable = state.sessionsTable ∧
      after.sharesTable = state.sharesTable ∧
      after.shares = if record.refCount = 1 then state.shares.free share else state.shares.modify share retireShare := by
  have marked : (state.withShare share fun record => { record with freeing := true }).shares.get? share =
      some { record with freeing := true } := by simp [withShare, found]
  refine ⟨_, rfl, ?_⟩
  change ((state.withShare share fun record => { record with freeing := true }).putShare platform share).sessions = _ ∧
    ((state.withShare share fun record => { record with freeing := true }).putShare platform share).sessionsTable = _ ∧
    ((state.withShare share fun record => { record with freeing := true }).putShare platform share).sharesTable = _ ∧
    ((state.withShare share fun record => { record with freeing := true }).putShare platform share).shares = _
  by_cases one : record.refCount = 1
  · have lowered : ((state.shares.modify share fun record => { record with freeing := true }).modify share
        fun record => { record with refCount := record.refCount - 1 }).get? share = some (retireShare record) := by
      simp [found, retireShare]
    have zero : (retireShare record).refCount = 0 := by simp [retireShare, one]
    have only := freeUserMaps_only ((state.withShare share fun record => { record with freeing := true }).withShare share
      fun record => { record with refCount := record.refCount - 1 }) (retireShare record).maps
    simp only [putShare, withShare, lowered, zero, ↓reduceIte, shmRemoveShare, killKsmbdShare,
      show (retireShare record).freeing = true from rfl, if_pos one] at only ⊢
    refine ⟨only.sessions, only.sessionsTable, only.sharesTable, ?_⟩
    rw [only.shares, Heap.free_modify, Heap.free_modify]
  · rw [putShare_held platform marked one, if_neg one]
    refine ⟨rfl, rfl, rfl, ?_⟩
    simp only [withShare, Heap.modify_modify]
    rfl

end State

theorem Retiring.step {state after : State} {share : Ref Share} {left : List (Ref Share)} {record : Share}
    (retiring : Retiring state (share :: left)) (once : share ∉ left) (found : state.shares.get? share = some record)
    (sessions : after.sessions = state.sessions)
    (shares : after.shares =
      if record.refCount = 1 then state.shares.free share else state.shares.modify share retireShare) :
    Retiring after left := by
  have connections : ∀ other, after.connections other = state.connections other := fun other => by
    rw [State.connections, sessions, State.connections]
  have balanced := retiring.balance share record found
  simp only [List.mem_cons_self, ↓reduceIte] at balanced
  have back : ∀ other current, after.shares.get? other = some current →
      (other = share ∧ current = retireShare record ∧ record.refCount ≠ 1) ∨
        (other ≠ share ∧ state.shares.get? other = some current) := by
    intro other current seen
    rw [shares] at seen
    split at seen
    · rw [Heap.get?_free] at seen
      split at seen
      · cases seen
      next different => exact .inr ⟨different, seen⟩
    next many =>
      rw [Heap.get?_modify] at seen
      split at seen
      next same =>
        rw [same, found] at seen
        exact .inl ⟨same, (Option.some.inj seen).symm, many⟩
      next different => exact .inr ⟨different, seen⟩
  have live : ∀ other, state.shares.Live other → (other = share → record.refCount ≠ 1) → after.shares.Live other :=
    fun _ alive kept => shares ▸ alive.drop retireShare kept
  refine ⟨?_, ?_, ?_, ?_, ?_, ?_⟩
  · intro other member
    refine live other (retiring.listed other (List.mem_cons_of_mem _ member)) fun same => ?_
    exact absurd (same ▸ member) once
  · intro other current seen
    rcases back other current seen with ⟨-, rfl, many⟩ | ⟨-, old⟩
    · have positive := retiring.held share record found
      simp only [retireShare]
      omega
    · exact retiring.held other current old
  · intro other current seen
    rcases back other current seen with ⟨-, rfl, -⟩ | ⟨-, old⟩
    · exact retiring.counted share record found
    · exact retiring.counted other current old
  · intro other current seen outside
    rcases back other current seen with ⟨-, rfl, -⟩ | ⟨different, old⟩
    · rfl
    · exact retiring.retired other current old (by simp [different, outside])
  · intro other current seen
    rw [connections other]
    rcases back other current seen with ⟨rfl, rfl, -⟩ | ⟨different, old⟩
    · simp only [retireShare, once, ↓reduceIte]
      push_cast at balanced ⊢
      omega
    · have before := retiring.balance other current old
      simpa [List.mem_cons, different] using before
  · rw [sessions]
    intro sess current seen conn member
    obtain ⟨other, refers, alive⟩ := retiring.referred sess current seen conn member
    refine ⟨other, refers, live other alive fun same one => ?_⟩
    -- the freed share had no connection left
    have none : state.connections share = 0 := by push_cast at balanced; omega
    exact State.no_connections none seen member (same ▸ refers)

variable (platform) in
theorem Retiring.fold {left : List (Ref Share)} (state : State) (retiring : Retiring state left) (once : left.Nodup) :
    ∃ after, left.foldl (fun state share => ({ state with shares := state.shares.modify share fun record =>
        { record with freeing := true } }).putShare platform share) state = after ∧ Retiring after [] ∧
      after.sessions = state.sessions ∧ after.sessionsTable = state.sessionsTable := by
  induction left generalizing state with
  | nil => exact ⟨state, rfl, retiring, rfl, rfl⟩
  | cons share left ih =>
    obtain ⟨outside, rest⟩ := List.nodup_cons.mp once
    obtain ⟨record, found⟩ := retiring.listed share List.mem_cons_self
    obtain ⟨middle, stepped, sessions, sessionsTable, -, shares⟩ := State.retire_step platform found
    obtain ⟨after, folded, done, sameSessions, sameTable⟩ := ih middle (retiring.step outside found sessions shares) rest
    refine ⟨after, ?_, done, sameSessions.trans sessions, sameTable.trans sessionsTable⟩
    rw [List.foldl_cons, stepped]
    exact folded

namespace State
variable (platform)

theorem addMapUser_only (entry : State × HashTable CStr (Ref User)) (name : CStr) :
    OnlyUsers entry.1 (addMapUser entry name).1 := by
  obtain ⟨state, map⟩ := entry
  have looked := state.usmLookupUser_only (some name)
  unfold addMapUser
  dsimp only
  split
  · exact .refl state
  · split
    next missing => rw [missing] at looked; exact looked
    next current user seen =>
      rw [seen] at looked
      split
      · exact looked
      · split
        · exact looked.trans (current.putUser_only user)
        · exact looked

theorem addUsersMap_only (state : State) (names : List CStr) : OnlyUsers state (state.addUsersMap platform names).1 := by
  have fold : ∀ (items : List CStr) (entry : State × HashTable CStr (Ref User)),
      OnlyUsers entry.1 (items.foldl addMapUser entry).1 := by
    intro items
    induction items with
    | nil => exact fun entry => .refl entry.1
    | cons item items ih => exact fun entry => (addMapUser_only entry item).trans (ih _)
  exact fold (expandNames platform names) (state, ∅)

theorem addGroupMaps_only (lists : List (ShareUsers × Option (List CStr))) (entry : State × ShareMaps) :
    OnlyUsers entry.1 (lists.foldl (addGroupMap platform) entry).1 := by
  induction lists generalizing entry with
  | nil => exact .refl entry.1
  | cons list lists ih =>
    refine OnlyUsers.trans ?_ (ih _)
    unfold addGroupMap
    split
    · exact .refl entry.1
    · exact addUsersMap_only platform entry.1 _

theorem initShareFromGroup_spec (state : State) (group : ShareGroup) :
    OnlyUsers state (state.initShareFromGroup platform group).1 ∧
      ∀ share, (state.initShareFromGroup platform group).2 = some share →
        share.refCount = 1 ∧ share.numConnections = 0 ∧ share.freeing = false := by
  unfold initShareFromGroup
  split
  · exact ⟨.refl state, by simp⟩
  · have guest : OnlyUsers state (group.guestAccount.elim (state, true) (state.usmAddGuestAccount platform ·)).1 := by
      cases group.guestAccount with
      | none => exact .refl state
      | some name => exact state.usmAddGuestAccount_only platform name
    dsimp only
    split
    · exact ⟨guest, by simp⟩
    split
    · exact ⟨guest, by simp⟩
    · have maps := addGroupMaps_only platform [(.validUsers, group.validUsers), (.invalidUsers, group.invalidUsers),
        (.readList, group.readList), (.writeList, group.writeList)]
        ((group.guestAccount.elim (state, true) (state.usmAddGuestAccount platform ·)).1, {})
      refine ⟨guest.trans maps, ?_⟩
      intro share same
      cases same
      exact ⟨rfl, rfl, rfl⟩

end State

/-- Shares may have gone or come; references are right and every session is as it
was. -/
structure Reshared (platform : Platform) (before after : State) : Prop where
  consistent : Consistent platform after
  sessions : after.sessions = before.sessions
  sessionsTable : after.sessionsTable = before.sessionsTable

theorem Reshared.trans {first middle last : State} (one : Reshared platform first middle)
    (two : Reshared platform middle last) : Reshared platform first last :=
  ⟨two.consistent, two.sessions.trans one.sessions, two.sessionsTable.trans one.sessionsTable⟩

namespace Consistent

theorem removeAllShares {state : State} (consistent : Consistent platform state) :
    Reshared platform state (state.shmRemoveAllShares platform) := by
  obtain ⟨after, folded, done, sessions, sessionsTable⟩ :=
    Retiring.fold platform state consistent.retiring consistent.values_nodup
  have emptied : state.shmRemoveAllShares platform = { after with sharesTable := ∅ } := by
    rw [← folded]
    rfl
  rw [emptied]
  refine ⟨?_, sessions, sessionsTable⟩
  refine ⟨consistent.sessions.congr sessions sessionsTable, ⟨?_, done.held, done.counted⟩, ?_, ?_, ?_, done.referred⟩
  · intro key share known
    simp at known
  · intro key share record known
    simp at known
  · intro share record found outside
    exact done.retired share record found (by simp)
  · intro share record found
    simpa [State.tableReferences, HashTable.values, State.connections] using done.balance share record found

/-- Nothing can refer to a share that does not exist. -/
theorem no_connections {state : State} (consistent : Consistent platform state) {share : Ref Share}
    (unknown : state.shares.get? share = none) : state.connections share = 0 := by
  by_contra some
  obtain ⟨sess, record, found, counted⟩ := (Heap.total_pos_iff _ _).mp (Nat.pos_of_ne_zero some)
  obtain ⟨conn, member, refers⟩ := List.countP_pos_iff.mp counted
  obtain ⟨other, named, value, alive⟩ := consistent.referred sess record found conn member
  have same : other = share := by simpa [named] using refers
  rw [same, unknown] at alive
  cases alive

theorem not_tabled {state : State} (consistent : Consistent platform state) {share : Ref Share}
    (unknown : state.shares.get? share = none) : share ∉ HashTable.values state.sharesTable := by
  intro inside
  obtain ⟨key, known⟩ := HashTable.mem_values.mp inside
  obtain ⟨record, found⟩ := consistent.shares.tabled key share known
  rw [unknown] at found
  cases found

theorem addShare {state : State} (consistent : Consistent platform state) {share : Share}
    (fresh : state.sharesTable.lookup (shmCasefoldShareName platform share.name) = none) (refs : share.refCount = 1)
    (connections : share.numConnections = 0) (kept : share.freeing = false) :
    Consistent platform { state with
      shares := (state.shares.alloc share).1
      sharesTable := state.sharesTable.insert (shmCasefoldShareName platform share.name) (state.shares.alloc share).2 } := by
  let key := shmCasefoldShareName platform share.name
  let made := (state.shares.alloc share).2
  have unknown : state.shares.get? made = none := Heap.alloc_fresh _ _
  have back : ∀ other record, (state.shares.alloc share).1.get? other = some record →
      (other = made ∧ record = share) ∨ (other ≠ made ∧ state.shares.get? other = some record) := fun _ _ =>
    Heap.get?_alloc_cases
  have live : ∀ other, state.shares.Live other → (state.shares.alloc share).1.Live other := by
    rintro other ⟨record, found⟩
    exact ⟨record, by rw [Heap.get?_alloc_old share (Heap.get?_lt found)]; exact found⟩
  have values : ∀ other, other ∈ HashTable.values (state.sharesTable.insert key made) ↔
      other = made ∨ other ∈ HashTable.values state.sharesTable := by
    intro other
    rw [HashTable.values, AList.entries_insert_of_notMem (AList.lookup_eq_none.mp fresh), List.map_cons, List.mem_cons]
    rfl
  refine ⟨consistent.sessions.congr rfl rfl, ⟨?_, ?_, ?_⟩, ?_, ?_, ?_, ?_⟩
  · intro other current known
    change (state.sharesTable.insert key made).lookup other = some current at known
    by_cases same : other = key
    · rw [same, AList.lookup_insert] at known
      exact ⟨share, by rw [← Option.some.inj known]; exact Heap.get?_alloc_new _ _⟩
    · rw [AList.lookup_insert_ne same] at known
      exact live current (consistent.shares.tabled other current known)
  · intro other record found
    rcases back other record found with ⟨-, rfl⟩ | ⟨-, old⟩
    · omega
    · exact consistent.shares.held other record old
  · intro other record found
    rcases back other record found with ⟨-, rfl⟩ | ⟨-, old⟩
    · omega
    · exact consistent.shares.counted other record old
  · intro other current record known found
    change (state.sharesTable.insert key made).lookup other = some current at known
    rcases back current record found with ⟨same, rfl⟩ | ⟨different, old⟩
    · by_cases equal : other = key
      · exact ⟨equal.symm, kept⟩
      · rw [AList.lookup_insert_ne equal, same] at known
        exact absurd (HashTable.mem_values.mpr ⟨other, known⟩) (consistent.not_tabled unknown)
    · by_cases equal : other = key
      · rw [equal, AList.lookup_insert] at known
        exact absurd (Option.some.inj known).symm different
      · rw [AList.lookup_insert_ne equal] at known
        exact consistent.named other current record known old
  · intro other record found missing
    change other ∉ HashTable.values (state.sharesTable.insert key made) at missing
    rw [values other, not_or] at missing
    rcases back other record found with ⟨same, -⟩ | ⟨-, old⟩
    · exact absurd same missing.1
    · exact consistent.retired other record old missing.2
  · intro other record found
    change record.refCount = (if other ∈ HashTable.values (state.sharesTable.insert key made) then 1 else 0 : Nat) +
      state.connections other
    rcases back other record found with ⟨same, rfl⟩ | ⟨different, old⟩
    · rw [same, consistent.no_connections unknown, if_pos ((values made).mpr (.inl rfl)), refs]
      rfl
    · have before := consistent.balance other record old
      simpa only [values, different, false_or, State.tableReferences] using before
  · intro sess record found conn member
    obtain ⟨other, refers, alive⟩ := consistent.referred sess record found conn member
    exact ⟨other, refers, live other alive⟩

theorem users {state after : State} (consistent : Consistent platform state) (only : OnlyUsers state after) :
    Reshared platform state after := ⟨consistent.congr only, only.sessions, only.sessionsTable⟩

theorem addNewShare {state : State} (consistent : Consistent platform state) (group : ShareGroup) :
    Reshared platform state (state.shmAddNewShare platform group).1 := by
  obtain ⟨only, fields⟩ := State.initShareFromGroup_spec platform state group
  unfold State.shmAddNewShare
  split
  next refused => rw [refused] at only; exact consistent.users only
  next current share made =>
    rw [made] at only fields
    obtain ⟨refs, connections, kept⟩ := fields share rfl
    have ready := consistent.users only
    refine ready.trans ?_
    dsimp only
    split
    · exact ready.consistent.users (current.freeUserMaps_only share.maps)
    next absent => exact ⟨ready.consistent.addShare (AList.lookup_eq_none.mpr absent) refs connections kept, rfl, rfl⟩

theorem addShares {state : State} (consistent : Consistent platform state) (groups : List ShareGroup) :
    Reshared platform state (state.addShares platform groups).1 := by
  induction groups generalizing state with
  | nil => exact ⟨consistent, rfl, rfl⟩
  | cons group groups ih =>
    rw [State.addShares_cons]
    exact (consistent.addNewShare group).trans (ih (consistent.addNewShare group).consistent)

theorem setConf {state : State} (consistent : Consistent platform state) (globalConf : SmbconfGlobal) (reloading : Bool) :
    Reshared platform state { state with globalConf, reloading } :=
  ⟨⟨consistent.sessions.congr rfl rfl, consistent.shares.congr rfl rfl, consistent.named, consistent.retired,
    consistent.balance, consistent.referred⟩, rfl, rfl⟩

theorem load {state : State} (consistent : Consistent platform state) (config : Config) :
    Reshared platform state (state.loadConfig platform config).1 := by
  have users := OnlyUsers.foldl (fun current (entry : CStr × CStr) =>
    current.addUserPassword_only platform entry.1 entry.2) config.users state.usmRemoveAllUsers
  have replaced := consistent.users (state.usmRemoveAllUsers_only.trans users)
  have cleared := replaced.trans replaced.consistent.removeAllShares
  unfold State.loadConfig
  dsimp only
  generalize State.shmRemoveAllShares platform _ = bare at cleared ⊢
  have configured : Reshared platform state
      (if bare.reloading then bare else { bare with globalConf := config.globalConf }) := by
    split
    · exact cleared
    · exact cleared.trans (cleared.consistent.setConf config.globalConf bare.reloading)
  generalize (if bare.reloading then bare else { bare with globalConf := config.globalConf }) = ready at configured ⊢
  have guest : Reshared platform state
      (ready.globalConf.guestAccount.elim (ready, true) (ready.usmAddGuestAccount platform ·)).1 := by
    cases ready.globalConf.guestAccount with
    | none => exact configured
    | some name => exact configured.trans (configured.consistent.users (ready.usmAddGuestAccount_only platform name))
  split
  next refused => rw [refused] at guest; exact guest
  next added => rw [added] at guest; exact guest.trans (guest.consistent.addShares config.shares)

variable (platform) in
theorem initial (globalConf : SmbconfGlobal) : Consistent platform { globalConf } := by
  refine ⟨⟨?_, ?_, ?_, ?_⟩, ⟨?_, ?_, ?_⟩, ?_, ?_, ?_, ?_⟩ <;> intros <;> simp_all

end Consistent

end KsmbdTools.Management
