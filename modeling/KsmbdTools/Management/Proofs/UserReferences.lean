import KsmbdTools.Management.Proofs.Histories

/-! References to the users of the table. A connect that opens a session hands its
reference over to it; a connect that joins one drops it on the floor. -/

namespace KsmbdTools.Management
variable {platform : Platform} {table : HashTable CStr (Ref User)}

namespace State

def userSessions (state : State) (user : Ref User) : Nat :=
  state.sessions.total fun record => if record.user = some user then 1 else 0

def mapEntries (state : State) (user : Ref User) : Nat := state.shares.total fun record => record.maps.holders.count user

end State

/-- Every user of the table is counted right, and a user outside it is on its way
out, so that its last put does not touch the table. -/
structure UsersBalanced (table : HashTable CStr (Ref User)) (state : State) : Prop where
  kept : state.usersTable = table
  tabled : ∀ name user, table.lookup name = some user → ∃ record, state.users.get? user = some record ∧
    record.refCount = 1 + state.userSessions user + state.mapEntries user
  retired : ∀ user record, state.users.get? user = some record → user ∉ HashTable.values table → record.freeing = true

/-- How far the users of the table move; others may go. -/
structure TabledMove (before after : State) (change : Ref User → Int) : Prop where
  table : after.usersTable = before.usersTable
  refs : ∀ user ∈ HashTable.values before.usersTable, (after.users.get? user).map (·.refCount) =
    (before.users.get? user).map (·.refCount + change user)
  freeing : ∀ user record, after.users.get? user = some record →
    ∃ old, before.users.get? user = some old ∧ record.freeing = old.freeing

namespace TabledMove

theorem refl (state : State) : TabledMove state state 0 := ⟨rfl, by simp, fun _ record found => ⟨record, found, rfl⟩⟩

theorem trans {first middle last : State} {a b : Ref User → Int} (one : TabledMove first middle a)
    (two : TabledMove middle last b) : TabledMove first last (a + b) := by
  refine ⟨two.table.trans one.table, fun user tabled => ?_, fun user record found => ?_⟩
  · have left := one.refs user tabled
    have right := two.refs user (one.table ▸ tabled)
    cases start : first.users.get? user <;> cases seen : middle.users.get? user <;> simp_all [add_assoc]
  · obtain ⟨current, seen, same⟩ := two.freeing user record found
    obtain ⟨old, present, equal⟩ := one.freeing user current seen
    exact ⟨old, present, same.trans equal⟩

theorem of_users {before after : State} {change : Ref User → Int} (move : UsersMove before after change) :
    TabledMove before after change := by
  refine ⟨move.table, fun user _ => ?_, fun user record found => ?_⟩
  · have refs := congrArg (Option.map Prod.fst) (move.refs user)
    simpa [Option.map_map, Function.comp_def] using refs
  · have refs := move.refs user
    rw [found] at refs
    obtain ⟨old, seen, same⟩ := Option.map_eq_some_iff.mp refs.symm
    exact ⟨old, seen, (congrArg Prod.snd same).symm⟩

theorem congr {before after other : State} {change : Ref User → Int} (move : TabledMove before after change)
    (users : other.users = after.users) (table : other.usersTable = after.usersTable) : TabledMove before other change :=
  ⟨table.trans move.table, by rw [users]; exact move.refs, by rw [users]; exact move.freeing⟩

/-- A put that leaves a user of the table referenced. A user outside the table may
go with it. -/
theorem put {state : State} {user : Ref User}
    (held : user ∈ HashTable.values state.usersTable → ∃ record, state.users.get? user = some record ∧ record.refCount ≠ 1)
    (retired : ∀ record, state.users.get? user = some record → user ∉ HashTable.values state.usersTable →
      record.freeing = true) : TabledMove state (state.putUser user) (-reference user) := by
  by_cases tabled : user ∈ HashTable.values state.usersTable
  · obtain ⟨record, found, shared⟩ := held tabled
    exact of_users (State.putUser_moves found shared)
  · cases found : state.users.get? user with
    | none =>
      have same : state.putUser user = state := by
        simp only [State.putUser]
        rw [Heap.modify_eq_self (by simp [found]), found]
      rw [same]
      refine ⟨rfl, fun other member => ?_, fun _ record seen => ⟨record, seen, rfl⟩⟩
      have different : other ≠ user := fun equal => tabled (equal ▸ member)
      simp [reference, different]
    | some record =>
      by_cases shared : record.refCount ≠ 1
      · exact of_users (State.putUser_moves found shared)
      · have last : record.refCount - 1 = 0 := by omega
        obtain ⟨faulted, gone⟩ : ∃ faulted, state.putUser user = { state with users := state.users.free user, faulted } := by
          simp [State.putUser, State.usmRemoveUser, State.killKsmbdUser, found, last, retired record found tabled,
            Heap.free_modify]
        rw [gone]
        refine ⟨rfl, fun other member => ?_, fun other current seen => ?_⟩
        · have different : other ≠ user := fun equal => tabled (equal ▸ member)
          simp [Heap.get?_free_ne different, reference, different]
        · change (state.users.free user).get? other = some current at seen
          rw [Heap.get?_free] at seen
          split at seen
          · cases seen
          · exact ⟨current, seen, rfl⟩

theorem puts {holders : List (Ref User)} {state : State}
    (held : ∀ user ∈ HashTable.values state.usersTable,
      ∃ record, state.users.get? user = some record ∧ holders.count user < record.refCount)
    (retired : ∀ user record, state.users.get? user = some record → user ∉ HashTable.values state.usersTable →
      record.freeing = true) :
    TabledMove state (holders.foldl State.putUser state) fun user => -(holders.count user : Int) := by
  induction holders generalizing state with
  | nil => exact refl state
  | cons user holders ih =>
    have first : TabledMove state (state.putUser user) (-reference user) := by
      refine put (fun tabled => ?_) (retired user)
      obtain ⟨record, found, several⟩ := held user tabled
      rw [List.count_cons_self] at several
      exact ⟨record, found, by omega⟩
    have rest : TabledMove (state.putUser user) (holders.foldl State.putUser (state.putUser user)) fun other =>
        -(holders.count other : Int) := ih ?_ ?_
    · have both := first.trans rest
      refine ⟨both.table, fun other tabled => ?_, both.freeing⟩
      rw [List.foldl_cons, both.refs other tabled]
      congr 1
      funext record
      by_cases same : other = user
      · simp only [Pi.add_apply, Pi.neg_apply, reference, same, ↓reduceIte, List.count_cons_self]
        push_cast
        omega
      · simp [reference, same, Ne.symm same]
    · intro other tabled
      rw [first.table] at tabled
      obtain ⟨record, found, several⟩ := held other tabled
      have moved := first.refs other tabled
      rw [found] at moved
      obtain ⟨current, seen, count⟩ := Option.map_eq_some_iff.mp moved
      refine ⟨current, seen, ?_⟩
      rw [List.count_cons] at several
      by_cases same : other = user
      · simp only [same, beq_self_eq_true, ↓reduceIte, Pi.neg_apply, reference] at several count ⊢
        push_cast at several
        omega
      · simp only [beq_iff_eq, Ne.symm same, same, ↓reduceIte, Pi.neg_apply, reference] at several count ⊢
        omega
    · intro other record found outside
      rw [first.table] at outside
      obtain ⟨old, seen, same⟩ := first.freeing other record found
      rw [same]
      exact retired other old seen outside

end TabledMove

namespace UsersBalanced

theorem move {before after : State} {change : Ref User → Int} (balanced : UsersBalanced table before)
    (move : TabledMove before after change)
    (counts : ∀ user, (after.userSessions user + after.mapEntries user : Int) =
      before.userSessions user + before.mapEntries user + change user) : UsersBalanced table after := by
  refine ⟨move.table.trans balanced.kept, fun name user known => ?_, fun user record found outside => ?_⟩
  · obtain ⟨record, found, count⟩ := balanced.tabled name user known
    have moved := move.refs user (HashTable.mem_values.mpr ⟨name, balanced.kept ▸ known⟩)
    rw [found] at moved
    obtain ⟨current, seen, same⟩ := Option.map_eq_some_iff.mp moved
    have total := counts user
    dsimp only at same
    exact ⟨current, seen, by omega⟩
  · obtain ⟨old, seen, same⟩ := move.freeing user record found
    rw [same]
    exact balanced.retired user old seen outside

end UsersBalanced

namespace State

theorem mapEntries_kept {state after : State} {share : Ref Share} {change : Share → Share}
    (shares : after.shares = state.shares.modify share change) (maps : ∀ record, (change record).maps = record.maps)
    (user : Ref User) : after.mapEntries user = state.mapEntries user := by
  rw [mapEntries, shares]
  exact Heap.total_modify_same fun record _ => by rw [maps]

theorem userSessions_kept {state after : State} {sess : Ref Session} {change : Session → Session}
    (sessions : after.sessions = state.sessions.modify sess change) (users : ∀ record, (change record).user = record.user)
    (user : Ref User) : after.userSessions user = state.userSessions user := by
  rw [userSessions, sessions]
  exact Heap.total_modify_same fun record _ => by rw [users]

end State

theorem ShareDropped.moves {before after : State} {share : Ref Share} {record : Share}
    (balanced : UsersBalanced table before) (located : before.shares.get? share = some record)
    (dropped : ShareDropped before after share record) :
    TabledMove before after fun user => (after.mapEntries user : Int) - before.mapEntries user := by
  obtain ⟨-, shares, users, kept⟩ := dropped
  by_cases last : record.refCount = 1
  · rw [if_pos last] at shares users kept
    have lost : ∀ user, after.mapEntries user + record.maps.holders.count user = before.mapEntries user := by
      intro user
      rw [State.mapEntries, shares]
      exact Heap.total_free _ located
    have change : (fun user => (after.mapEntries user : Int) - before.mapEntries user) =
        fun user => -(record.maps.holders.count user : Int) := by
      funext user
      have total := lost user
      omega
    rw [change]
    refine (TabledMove.puts (fun user tabled => ?_) (balanced.kept ▸ balanced.retired)).congr users kept
    rw [balanced.kept] at tabled
    obtain ⟨name, known⟩ := HashTable.mem_values.mp tabled
    obtain ⟨current, found, count⟩ := balanced.tabled name user known
    have total := lost user
    exact ⟨current, found, by omega⟩
  · rw [if_neg last] at shares users kept
    have same : (fun user => (after.mapEntries user : Int) - before.mapEntries user) = 0 := by
      funext user
      simp [State.mapEntries_kept shares State.closeConnection_maps user]
    rw [same]
    exact (TabledMove.refl before).congr users kept

namespace UsersBalanced

theorem connect {state after : State} {memory : Memory} {req : TreeConnectRequest} {resp : TreeConnectResponse}
    (balanced : UsersBalanced table state)
    (opens : ∀ share record user, Admitted platform state req share record user →
      state.sessionsTable.lookup req.sessionId = none ∧ memory.sess = true)
    (effect : ConnectEffect platform state memory req after resp) : UsersBalanced table after := by
  cases effect with
  | refused status only users =>
    refine balanced.move (.of_users users) fun user => ?_
    simp only [State.userSessions, State.mapEntries, only.sessions, only.shares, Pi.zero_apply, add_zero]
  | @full share record allocated accepted known found full =>
    refine balanced.move (TabledMove.refl state |>.congr rfl rfl) fun user => ?_
    have kept : (state.withShare share State.closeConnection).mapEntries user = state.mapEntries user :=
      State.mapEntries_kept rfl State.closeConnection_maps user
    rw [kept]
    simp [State.userSessions, State.withShare]
  | joined user flags status admitted session only users =>
    rw [(opens _ _ _ admitted).1] at session
    cases session
  | @opened share record after resp user flags status admitted fresh capacity only users =>
    refine balanced.move (.of_users users) fun other => ?_
    have maps := State.mapEntries_kept only.shares (fun _ => rfl) other
    have sessions : after.userSessions other = state.userSessions other + if some user = some other then 1 else 0 := by
      rw [State.userSessions, only.sessions]
      exact Heap.total_alloc _ _ _
    rw [maps, sessions]
    by_cases same : other = user
    · simp [reference, same]
      omega
    · simp [reference, same, Ne.symm same]
  | unallocated failed status admitted fresh =>
    rw [(opens _ _ _ admitted).2] at failed
    cases failed

theorem disconnect {state after : State} {sessId connId : UInt64} (balanced : UsersBalanced table state)
    (effect : DisconnectEffect state sessId connId after) : UsersBalanced table after := by
  cases effect with
  | unchanged absent => exact balanced
  | left session found split first matched remaining refers located dropped globalConf sessions sessionsTable =>
    refine balanced.move (dropped.moves balanced located) fun user => ?_
    have kept := State.userSessions_kept sessions (fun _ => rfl) user
    omega
  | @closed sess record conn share held middle after session found only matched refers located dropped shares sharesTable
      user globalConf sessions sessionsTable =>
    have first := dropped.moves balanced located
    have fewer : ∀ other, after.userSessions other + (if record.user = some other then 1 else 0) =
        state.userSessions other := by
      intro other
      rw [State.userSessions, sessions]
      exact Heap.total_free (fun record => if record.user = some other then 1 else 0) found
    have maps : ∀ other, after.mapEntries other = middle.mapEntries other := by
      intro other
      rw [State.mapEntries, shares]
      rfl
    cases owner : record.user with
    | none =>
      rw [owner] at user fewer
      refine balanced.move (first.congr user.1 user.2) fun other => ?_
      have same := fewer other
      rw [maps other]
      simp only [reduceCtorEq, ↓reduceIte, Nat.add_zero] at same
      omega
    | some owned =>
      rw [owner] at user fewer
      -- the session still counts, so the put below is not the table's
      have put : TabledMove middle (middle.putUser owned) (-reference owned) := by
        refine .put (fun tabled => ?_) fun current seen outside => ?_
        · rw [first.table] at tabled
          obtain ⟨name, known⟩ := HashTable.mem_values.mp tabled
          obtain ⟨current, seen, count⟩ := balanced.tabled name owned (balanced.kept ▸ known)
          have moved := first.refs owned tabled
          rw [seen] at moved
          obtain ⟨later, present, same⟩ := Option.map_eq_some_iff.mp moved
          have mine := fewer owned
          simp only [↓reduceIte] at mine
          dsimp only at same
          exact ⟨later, present, by omega⟩
        · rw [first.table, balanced.kept] at outside
          obtain ⟨old, present, same⟩ := first.freeing owned current seen
          rw [same]
          exact balanced.retired owned old present outside
      refine balanced.move ((first.trans put).congr user.1 user.2) fun other => ?_
      have same := fewer other
      rw [maps other]
      by_cases mine : other = owned
      · simp only [mine, ↓reduceIte, Pi.add_apply, Pi.neg_apply, reference] at same ⊢
        omega
      · simp only [mine, Ne.symm mine, Option.some.injEq, ↓reduceIte, Pi.add_apply, Pi.neg_apply, reference] at same ⊢
        omega

end UsersBalanced

variable (platform) in
def OpensSession (state : State) : Request → Prop
  | .treeConnect memory req => ∀ share record user, Admitted platform state req share record user →
      state.sessionsTable.lookup req.sessionId = none ∧ memory.sess = true
  | .reload _ => False
  | _ => True

theorem UsersBalanced.step {state after : State} {request : Request} {answer : Option TreeConnStatus}
    (balanced : UsersBalanced table state) (opens : OpensSession platform state request)
    (effect : Effect platform state request after answer) : UsersBalanced table after := by
  have same (only : OnlyUsers state after) (users : UsersMove state after 0) : UsersBalanced table after := by
    refine balanced.move (.of_users users) fun user => ?_
    simp only [State.userSessions, State.mapEntries, only.sessions, only.shares, Pi.zero_apply, add_zero]
  cases effect with
  | login only users => exact same only users
  | logout only users => exact same only users
  | connect effect => exact balanced.connect opens effect
  | disconnect effect => exact balanced.disconnect effect
  | reload reshared => cases opens

/-- Every user of the table is counted right in every state that a history of logins,
logouts, connects and disconnects reaches, if no connect is let in on a session
already open. -/
theorem user_references_conserved (start : State) (retries : Nat) (requests : List Request)
    (consistent : Consistent platform start) (balanced : UsersBalanced start.usersTable start)
    (opens : start.Meets platform (OpensSession platform) (retries + 1) requests) :
    ∃ final, start.run platform (retries + 1) requests = some final ∧
      ∀ name user, start.usersTable.lookup name = some user → ∃ record, final.users.get? user = some record ∧
        record.refCount = 1 + final.userSessions user + final.mapEntries user := by
  have allocates : ∀ state request, OpensSession platform state request → Allocates platform state request := by
    intro state request met
    cases request with
    | treeConnect memory req => exact fun share record user admitted _ => (met share record user admitted).2
    | login | logout | treeDisconnect | reload => trivial
  obtain ⟨final, -, -, ran, -, kept⟩ := State.run_keeps (fun _ _ _ noted => noted) (OpensSession platform)
    (fun state (_ : Unit) => UsersBalanced start.usersTable state) retries allocates
    (fun _ _ _ _ _ _ balanced met effect => balanced.step met effect) requests start () consistent balanced opens
  exact ⟨final, ran, kept.tabled⟩

/-- Two trees on one session, both disconnected: the second connect's reference to
the account stays. -/
theorem user_reference_leaks :
    ∃ user final, (Scenario.loaded { name := Scenario.shareName }).usersTable.lookup Scenario.account = some user ∧
      ((Scenario.loaded { name := Scenario.shareName }).users.get? user).map (·.refCount) = some 1 ∧
      (Scenario.loaded { name := Scenario.shareName }).run Scenario.plainPlatform 1
        [.treeConnect {} (Scenario.connect 1 1), .treeConnect {} (Scenario.connect 1 2), .treeDisconnect 1 1,
          .treeDisconnect 1 2] = some final ∧
      (final.users.get? user).map (·.refCount) = some 2 ∧ final.userSessions user = 0 ∧ final.mapEntries user = 0 := by
  have reached : ((Scenario.loaded { name := Scenario.shareName }).run Scenario.plainPlatform 1
      [.treeConnect {} (Scenario.connect 1 1), .treeConnect {} (Scenario.connect 1 2), .treeDisconnect 1 1,
        .treeDisconnect 1 2]).map (fun final => ((final.users.get? ⟨0⟩).map (·.refCount), final.userSessions ⟨0⟩,
          final.mapEntries ⟨0⟩)) = some (some 2, 0, 0) := by decide +kernel
  obtain ⟨final, ran, same⟩ := Option.map_eq_some_iff.mp reached
  simp only [Prod.mk.injEq] at same
  exact ⟨⟨0⟩, final, by decide +kernel, by decide +kernel, ran, same⟩

private theorem scenario_balanced : UsersBalanced
    (Scenario.loaded { name := Scenario.shareName, validUsers := some [Scenario.account] }).usersTable
    (Scenario.loaded { name := Scenario.shareName, validUsers := some [Scenario.account] }) := by
  generalize state_eq : Scenario.loaded { name := Scenario.shareName, validUsers := some [Scenario.account] } = state
  have counted : state.usersTable.entries.all (fun entry => decide ((state.users.get? entry.2).map (·.refCount) =
      some (1 + state.userSessions entry.2 + state.mapEntries entry.2))) = true := by
    rw [← state_eq]
    decide +kernel
  have single : state.users.cells.length = 1 := by
    rw [← state_eq]
    decide +kernel
  have first : ⟨0⟩ ∈ HashTable.values state.usersTable := by
    rw [← state_eq]
    decide +kernel
  refine ⟨rfl, fun name user known => ?_, fun user record found outside => ?_⟩
  · have held := List.all_eq_true.mp counted ⟨name, user⟩ (AList.mem_lookup_iff.mp known)
    obtain ⟨record, found, same⟩ := Option.map_eq_some_iff.mp (of_decide_eq_true held)
    exact ⟨record, found, same⟩
  · have bound := Heap.get?_lt found
    have zero : user.addr = 0 := by omega
    obtain rfl : user = ⟨0⟩ := congrArg Ref.mk zero
    exact absurd first outside

private theorem scenario_opens :
    (Scenario.loaded { name := Scenario.shareName, validUsers := some [Scenario.account] }).Meets Scenario.plainPlatform
      (OpensSession Scenario.plainPlatform) 1 [.treeConnect {} (Scenario.connect 1 1), .treeDisconnect 1 1] := by
  have fresh : (Scenario.loaded { name := Scenario.shareName, validUsers := some [Scenario.account] }).sessionsTable.lookup
      (Scenario.connect 1 1).sessionId = none := by decide +kernel
  exact ⟨fun _ _ _ _ => ⟨fresh, rfl⟩, fun _ _ _ => ⟨trivial, fun _ _ _ => trivial⟩⟩

/-- The account is also held by the share's list of valid users. -/
theorem user_references_conserved_listed :
    ∃ final, (Scenario.loaded { name := Scenario.shareName, validUsers := some [Scenario.account] }).run
        Scenario.plainPlatform 1 [.treeConnect {} (Scenario.connect 1 1), .treeDisconnect 1 1] = some final ∧
      ∀ name user, (Scenario.loaded { name := Scenario.shareName, validUsers := some [Scenario.account] }).usersTable.lookup
          name = some user → ∃ record, final.users.get? user = some record ∧
        record.refCount = 1 + final.userSessions user + final.mapEntries user :=
  user_references_conserved (Scenario.loaded { name := Scenario.shareName, validUsers := some [Scenario.account] }) 0 _
    (Scenario.loaded_consistent _) scenario_balanced scenario_opens

end KsmbdTools.Management
