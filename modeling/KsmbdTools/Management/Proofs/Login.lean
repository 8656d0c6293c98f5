import KsmbdTools.Management.Spnego
import KsmbdTools.Management.Proofs.Histories

/-! Whose record answers a login: the account's own, the guest's, or none. -/

namespace KsmbdTools

theorem CharArray.head_eq_zero_iff {size : Nat} (field : CharArray size) (terminated : field.terminated = true) :
    (field.bytes.head? == some 0) = field.str.isEmpty := by
  obtain ⟨bytes, length⟩ := field
  cases bytes with
  | nil => simp [CharArray.terminated, strnlen, str, ← length] at terminated
  | cons byte rest => by_cases zero : byte = 0 <;> simp [str, zero]

theorem CharArray.strlcpy_str {size : Nat} (field : CharArray (size + 1)) (str : CStr) :
    (field.strlcpy str).str = (str.take size).takeWhile (· != 0) := by
  have fits : (str.take size ++ [0]).length ≤ size + 1 := by
    simp only [List.length_append, List.length_take, List.length_singleton]
    omega
  simp only [strlcpy, CharArray.str, Nat.add_sub_cancel]
  rw [List.take_append, List.take_of_length_le fits, List.append_assoc, List.takeWhile_append]
  split
  · next whole =>
    have same := (List.takeWhile_prefix (· != 0)).eq_of_length whole
    simp [same]
  · rfl

theorem CharArray.strlcpy_terminated {size : Nat} (field : CharArray (size + 1)) (str : CStr) :
    (field.strlcpy str).terminated = true := by
  have shorter := (List.takeWhile_sublist (l := str.take size) (· != 0)).length_le
  have bound := List.length_take_le size str
  simp only [terminated, strnlen, strlcpy_str, decide_eq_true_eq]
  omega

namespace Management

def State.userRecord? (state : State) (name : Option CStr) : Option User := do
  let user ← name.bind (AList.lookup · state.usersTable)
  let record ← state.users.get? user
  if record.refCount ≠ 0 then some record else none

def State.mapsToGuest (state : State) (req : LoginRequest) : Bool :=
  state.globalConf.mapToGuest == mapToGuestBadUser && !testFlag req.flags ignoreMapToGuest

def State.loginRecord? (state : State) (req : LoginRequest) : Option User :=
  if req.account.str.isEmpty then state.userRecord? state.globalConf.guestAccount
  else (state.userRecord? (some req.account.str)).or
    (if state.mapsToGuest req then state.userRecord? state.globalConf.guestAccount else none)

namespace State

theorem usmLookupUser_of_none {state : State} {name : Option CStr} (missing : state.userRecord? name = none) :
    state.usmLookupUser name = (state, none) := by
  unfold usmLookupUser
  unfold userRecord? at missing
  cases entry : name.bind (AList.lookup · state.usersTable) with
  | none => rfl
  | some user =>
    cases seen : state.users.get? user with
    | none => simp [getKsmbdUser, seen]
    | some record =>
      have released : record.refCount = 0 := by simpa [entry, seen] using missing
      simp [getKsmbdUser, seen, released]

theorem usmLookupUser_of_some {state : State} {name : Option CStr} {record : User}
    (found : state.userRecord? name = some record) :
    ∃ current user, state.usmLookupUser name = (current, some user) ∧
      (current.answerLogin user).2 = handleLoginRequest record := by
  unfold userRecord? at found
  obtain ⟨user, entry, found⟩ := Option.bind_eq_some_iff.mp found
  obtain ⟨seen, held, found⟩ := Option.bind_eq_some_iff.mp found
  split at found
  · next referred =>
    cases found
    refine ⟨_, user, by simp [usmLookupUser, entry, getKsmbdUser, held, referred]; rfl, ?_⟩
    simp [answerLogin, held, handleLoginRequest, User.passHash]
  · cases found

theorem usmHandleLoginRequest_answer (state : State) (req : LoginRequest) (terminated : req.account.terminated = true) :
    (state.usmHandleLoginRequest req).2 =
      ((state.loginRecord? req).map handleLoginRequest).getD { status := UserFlag.badUser.toUInt16 } := by
  have guest {result : State × LoginResponse}
      (missing : ∀ current, state.usmLookupUser state.globalConf.guestAccount = (current, none) →
        result.2 = { status := UserFlag.badUser.toUInt16 })
      (found : ∀ current user, state.usmLookupUser state.globalConf.guestAccount = (current, some user) →
        result = current.answerLogin user) :
      result.2 = ((state.userRecord? state.globalConf.guestAccount).map handleLoginRequest).getD
        { status := UserFlag.badUser.toUInt16 } := by
    cases record : state.userRecord? state.globalConf.guestAccount with
    | none => exact missing _ (usmLookupUser_of_none record)
    | some user =>
      obtain ⟨current, ref, looked, answer⟩ := usmLookupUser_of_some record
      rw [found current ref looked, answer]
      rfl
  unfold usmHandleLoginRequest loginRecord?
  rw [req.account.head_eq_zero_iff terminated]
  simp only [terminated, Bool.not_true, Bool.false_eq_true, if_false]
  by_cases empty : req.account.str.isEmpty = true
  · simp only [empty, if_true, Bool.not_true, Bool.false_and, Bool.false_eq_true, if_false, Bool.true_or]
    exact guest (fun _ looked => by rw [looked]) (fun _ _ looked => by rw [looked])
  · simp only [empty]
    cases record : state.userRecord? (some req.account.str) with
    | some user =>
      obtain ⟨current, ref, looked, answer⟩ := usmLookupUser_of_some record
      simp [looked, answer]
    | none =>
      simp only [usmLookupUser_of_none record, Option.none_or]
      by_cases maps : state.mapsToGuest req = true
      · obtain ⟨setting, asked⟩ : state.globalConf.mapToGuest = mapToGuestBadUser ∧
            testFlag req.flags ignoreMapToGuest = false := by simpa [mapsToGuest] using maps
        simp [maps, setting, asked, mapToGuestBadUser]
        exact guest (fun _ looked => by rw [looked]) (fun _ _ looked => by rw [looked])
      · simp only [maps, Bool.false_eq_true, if_false, Option.map_none, Option.getD_none]
        split
        · rfl
        · split
          · next ignored mapped =>
            exfalso
            simp_all [mapsToGuest]
          · rfl

end State

def UsersKeyed (state : State) : Prop :=
  ∀ name user record, state.usersTable.lookup name = some user → state.users.get? user = some record → record.name = name

/-- The configured guest account, if the table has it, is marked as a guest. -/
def GuestFlagged (state : State) : Prop :=
  ∀ record, state.userRecord? state.globalConf.guestAccount = some record →
    testFlag record.flags UserFlag.guestAccount = true

/-- Hash and account of the answer are those of the table's own record for the account. -/
structure ReleasesOwn (state : State) (account : CStr) (resp : LoginResponse) : Prop where
  nonempty : account ≠ []
  record : ∃ user record, state.usersTable.lookup account = some user ∧ state.users.get? user = some record ∧
    testFlag record.flags UserFlag.guestAccount = false ∧ resp.hash = record.passHash ∧ record.name = account
  account : resp.account = account

theorem handleLoginRequest_released {user : User} (released : (handleLoginRequest user).hash ≠ [])
    (short : user.name.length ≤ 256) :
    testFlag user.flags UserFlag.guestAccount = false ∧ (handleLoginRequest user).hash = user.passHash ∧
      (handleLoginRequest user).account = user.name := by
  unfold handleLoginRequest at released ⊢
  by_cases guest : testFlag user.flags UserFlag.guestAccount = true
  · simp [guest] at released
  · by_cases long : user.passSz < 0 ∨ 18 < user.passSz
    · simp [guest, long] at released
    · simp [guest, long, Nat.not_lt.mpr short]

theorem State.userRecord?_some_iff {state : State} {name : CStr} {record : User} :
    state.userRecord? (some name) = some record ↔ ∃ user, state.usersTable.lookup name = some user ∧
      state.users.get? user = some record ∧ record.refCount ≠ 0 := by
  simp only [State.userRecord?, Option.bind_eq_bind, Option.bind_some, Option.bind_eq_some_iff]
  constructor
  · rintro ⟨user, entry, seen, held, found⟩
    split at found
    · next referred =>
      cases found
      exact ⟨user, entry, held, referred⟩
    · cases found
  · rintro ⟨user, entry, held, referred⟩
    exact ⟨user, entry, record, held, if_pos referred⟩

theorem State.loginRecord?_cases {state : State} {req : LoginRequest} {record : User}
    (answered : state.loginRecord? req = some record) :
    (req.account.str ≠ [] ∧ state.userRecord? (some req.account.str) = some record) ∨
      (state.userRecord? state.globalConf.guestAccount = some record ∧
        (req.account.str = [] ∨ state.mapsToGuest req = true)) := by
  unfold loginRecord? at answered
  split at answered
  · next empty => exact .inr ⟨answered, .inl (by simpa using empty)⟩
  · next nonempty =>
    cases own : state.userRecord? (some req.account.str) with
    | some found =>
      rw [own, Option.some_or] at answered
      exact .inl ⟨by simpa using nonempty, answered⟩
    | none =>
      rw [own, Option.none_or] at answered
      split at answered
      · next maps => exact .inr ⟨answered, .inr maps⟩
      · cases answered

/-- A hash leaves the daemon only as the answer to a login of its own account, and an
unknown account gets someone's ids only if it is empty or mapped to guest. -/
theorem login_releases_own (state : State) (req : LoginRequest) (terminated : req.account.terminated = true)
    (keyed : UsersKeyed state) (flagged : GuestFlagged state) :
    ((state.usmHandleLoginRequest req).2.hash ≠ [] →
        ReleasesOwn state req.account.str (state.usmHandleLoginRequest req).2) ∧
      (req.account.str ∉ state.usersTable →
        (state.usmHandleLoginRequest req).2 ≠ { status := UserFlag.badUser.toUInt16 } →
          req.account.str = [] ∨ state.globalConf.mapToGuest = mapToGuestBadUser ∧
            testFlag req.flags ignoreMapToGuest = false) := by
  have short : req.account.str.length < 256 := of_decide_eq_true terminated
  rw [state.usmHandleLoginRequest_answer req terminated]
  cases answered : state.loginRecord? req with
  | none => simp
  | some record =>
    simp only [Option.map_some, Option.getD_some]
    rcases State.loginRecord?_cases answered with ⟨nonempty, found⟩ | ⟨found, mapped⟩
    · obtain ⟨user, entry, held, -⟩ := State.userRecord?_some_iff.mp found
      have name := keyed _ user record entry held
      constructor
      · intro released
        obtain ⟨plain, hash, account⟩ := handleLoginRequest_released released (by rw [name]; omega)
        exact ⟨nonempty, ⟨user, record, entry, held, plain, hash, name⟩, account.trans name⟩
      · intro unknown
        rw [AList.lookup_eq_none.mpr unknown] at entry
        cases entry
    · constructor
      · intro released
        -- a guest's record gives no hash
        simp [handleLoginRequest, flagged record found] at released
      · intro _ _
        simpa [State.mapsToGuest] using mapped

namespace Scenario

/-- An account with a hash, a guest account, and unknown accounts mapped to guest. -/
def guestMapped : State :=
  (({} : State).loadConfig plainPlatform
    { globalConf := { mapToGuest := mapToGuestBadUser, guestAccount := some [103] }, users := [(account, [1, 2])] }).1

theorem guestMapped_keyed : UsersKeyed guestMapped := by
  intro name user record entry held
  have entries : ∀ entry ∈ guestMapped.usersTable.entries, ∀ record ∈ guestMapped.users.get? entry.2,
      record.name = entry.1 := by decide +kernel
  exact entries ⟨name, user⟩ (AList.mem_lookup_iff.mp entry) record held

theorem guestMapped_flagged : GuestFlagged guestMapped := by
  have marked : ∀ record ∈ guestMapped.userRecord? guestMapped.globalConf.guestAccount,
      testFlag record.flags UserFlag.guestAccount = true := by decide +kernel
  exact fun record found => marked record found

end Scenario

theorem login_releases_own_loaded :
    (Scenario.guestMapped.usmHandleLoginRequest { account := .ofStr 256 Scenario.account }).2.hash = [1, 2] ∧
      ReleasesOwn Scenario.guestMapped (CharArray.ofStr 256 Scenario.account).str
        (Scenario.guestMapped.usmHandleLoginRequest { account := .ofStr 256 Scenario.account }).2 := by
  have hash : (Scenario.guestMapped.usmHandleLoginRequest { account := .ofStr 256 Scenario.account }).2.hash = [1, 2] := by
    decide +kernel
  have own := login_releases_own Scenario.guestMapped { account := .ofStr 256 Scenario.account } (by decide +kernel)
    Scenario.guestMapped_keyed Scenario.guestMapped_flagged
  exact ⟨hash, own.1 (by rw [hash]; decide)⟩

/-! The Kerberos login. -/

/-- The checks of the handler that stand before the login. -/
structure ReachesLogin (memory : SpnegoMemory) (req : SpnegoAuthenRequest) (out : SpnegoAuthOut) : Prop where
  reply : ipcMsgAlloc memory.reply spnegoResponseSize = true
  header : spnegoRequestSize ≤ req.msgSz
  blob : req.spnegoBlobLen.toNat ≤ req.msgSz - spnegoRequestSize
  key : out.sessKey.length ≤ 65535
  token : out.spnegoBlob.length ≤ 65535
  extended : ipcMsgAlloc memory.extended
    (spnegoResponseSize + out.sessKey.length + out.spnegoBlob.length) = true

def loginAccount (name : CStr) : CStr := (name.take 255).takeWhile (· != 0)

/-- The account is unknown, and only the flags of the request keep it from the guest's record. -/
structure ReadsFlags (state : State) (account : CStr) : Prop where
  nonempty : account ≠ []
  unknown : state.userRecord? (some account) = none
  setting : state.globalConf.mapToGuest = mapToGuestBadUser
  guest : ∃ record, state.userRecord? state.globalConf.guestAccount = some record

def State.kerberosLogin (authen : SpnegoAuthenRequest → Option SpnegoAuthOut) (memory : SpnegoMemory) (state : State)
    (req : SpnegoAuthenRequest) (stack : LoginRequest) : Option LoginResponse :=
  (state.spnegoAuthenRequest authen memory stack req).2.1.map (·.loginResponse)

section Kerberos
variable {authen : SpnegoAuthenRequest → Option SpnegoAuthOut} {memory : SpnegoMemory} {state : State}
  {req : SpnegoAuthenRequest} {out : SpnegoAuthOut} {name : CStr}

theorem kerberosLogin_reached (succeeds : authen req = some out) (named : out.userName = some name)
    (reached : ReachesLogin memory req out) (stack : LoginRequest) :
    state.kerberosLogin authen memory req stack =
      some (state.usmHandleLoginRequest { stack with account := stack.account.strlcpy name }).2 := by
  have bounded : ¬(65535 < out.sessKey.length ∨ 65535 < out.spnegoBlob.length) := by
    have key := reached.key
    have token := reached.token
    omega
  unfold State.kerberosLogin State.spnegoAuthenRequest
  simp only [reached.reply, Nat.not_lt.mpr reached.header, Nat.not_lt.mpr reached.blob, succeeds, bounded, reached.extended,
    named, Bool.not_true, Bool.false_eq_true, if_false]
  split <;> rfl

theorem kerberosLogin_refused (succeeds : authen req = some out) (refused : ¬ReachesLogin memory req out)
    (first second : LoginRequest) :
    state.kerberosLogin authen memory req first = state.kerberosLogin authen memory req second := by
  unfold State.kerberosLogin State.spnegoAuthenRequest
  simp only [succeeds]
  split
  · rfl
  next reply =>
  split
  · rfl
  next header =>
  split
  · rfl
  next blob =>
  split
  · rfl
  next bounded =>
  split
  · rfl
  next extended =>
  exact absurd ⟨by simpa using reply, by omega, by omega, by omega, by omega, by simpa using extended⟩ refused

theorem kerberosLogin_answer (succeeds : authen req = some out) (named : out.userName = some name)
    (reached : ReachesLogin memory req out) (stack : LoginRequest) :
    state.kerberosLogin authen memory req stack = some
      (((state.loginRecord? { stack with account := stack.account.strlcpy name }).map handleLoginRequest).getD
        { status := UserFlag.badUser.toUInt16 }) := by
  rw [kerberosLogin_reached succeeds named reached, State.usmHandleLoginRequest_answer]
  exact CharArray.strlcpy_terminated stack.account name

theorem loginRecord?_of_guest {state : State} {req : LoginRequest} (reads : ReadsFlags state req.account.str) :
    state.loginRecord? req = if testFlag req.flags ignoreMapToGuest then none
      else state.userRecord? state.globalConf.guestAccount := by
  have nonempty : req.account.str.isEmpty = false := by simpa using reads.nonempty
  cases asked : testFlag req.flags ignoreMapToGuest <;>
    simp [State.loginRecord?, State.mapsToGuest, nonempty, reads.unknown, reads.setting, asked]

theorem loginRecord?_congr {state : State} {first second : LoginRequest}
    (same : first.account.str = second.account.str) (free : ¬ReadsFlags state first.account.str) :
    state.loginRecord? first = state.loginRecord? second := by
  unfold State.loginRecord?
  rw [← same]
  split
  · rfl
  next nonempty =>
  cases own : state.userRecord? (some first.account.str) with
  | some record => rfl
  | none =>
    simp only [Option.none_or]
    by_cases setting : state.globalConf.mapToGuest = mapToGuestBadUser
    · have absent : state.userRecord? state.globalConf.guestAccount = none := by
        refine Option.eq_none_iff_forall_ne_some.mpr fun record found => free ?_
        exact ⟨by simpa using nonempty, own, setting, record, found⟩
      simp [absent]
    · simp [State.mapsToGuest, setting]

theorem toUInt16_or_one_ne (flags : UInt32) : (flags ||| 1).toUInt16 ≠ 8 := by
  intro same
  have odd : (flags ||| 1).toUInt16.toNat % 2 = 1 := by simp
  simp [same] at odd

theorem handleLoginRequest_ne (user : User) : handleLoginRequest user ≠ { status := UserFlag.badUser.toUInt16 } := by
  intro same
  have status := congrArg LoginResponse.status same
  have extended : setFlag (setFlag user.flags UserFlag.ok) UserFlag.extension =
      user.flags ||| UserFlag.extension ||| 1 := by
    simp only [setFlag, UserFlag.ok, UInt32.or_assoc, UInt32.or_comm 1]
  have filled : (if user.sgid.isEmpty then setFlag user.flags UserFlag.ok
      else setFlag (setFlag user.flags UserFlag.ok) UserFlag.extension).toUInt16 ≠ 8 := by
    split
    · exact toUInt16_or_one_ne _
    · rw [extended]
      exact toUInt16_or_one_ne _
  unfold handleLoginRequest at status
  dsimp only at status
  split at status
  · exact filled status
  · have invalid : (0 : UInt16) ≠ UserFlag.badUser.toUInt16 := by decide
    split at status
    · exact invalid status
    · split at status
      · exact invalid status
      · exact filled status

end Kerberos

/-- The answer to a Kerberos login depends on what the stack held exactly if the name is
unknown and unknown names are mapped to a guest account that exists. -/
theorem kerberos_login_independent_iff (authen : SpnegoAuthenRequest → Option SpnegoAuthOut) (memory : SpnegoMemory)
    (state : State) (req : SpnegoAuthenRequest) (out : SpnegoAuthOut) (name : CStr)
    (succeeds : authen req = some out) (named : out.userName = some name) :
    (∀ first second, state.kerberosLogin authen memory req first = state.kerberosLogin authen memory req second) ↔
      ¬(ReachesLogin memory req out ∧ ReadsFlags state (loginAccount name)) := by
  have copied (stack : LoginRequest) : (stack.account.strlcpy name).str = loginAccount name :=
    CharArray.strlcpy_str stack.account name
  constructor
  · rintro independent ⟨reached, reads⟩
    obtain ⟨record, guest⟩ := reads.guest
    let stack (flags : UInt32) : LoginRequest := { account := .ofStr 256 [], flags }
    have same := independent (stack 0) (stack 1)
    rw [kerberosLogin_answer succeeds named reached, kerberosLogin_answer succeeds named reached,
      loginRecord?_of_guest (by rw [copied]; exact reads), loginRecord?_of_guest (by rw [copied]; exact reads),
        guest] at same
    have mapped : testFlag 0 ignoreMapToGuest = false := by decide
    have kept : testFlag 1 ignoreMapToGuest = true := by decide
    simp only [stack, mapped, kept, Bool.false_eq_true, if_false, if_true, Option.map_some, Option.map_none,
      Option.getD_some, Option.getD_none, Option.some.injEq] at same
    exact handleLoginRequest_ne record same
  · intro excluded first second
    by_cases reached : ReachesLogin memory req out
    · have free : ¬ReadsFlags state (loginAccount name) := fun reads => excluded ⟨reached, reads⟩
      have records : state.loginRecord? { first with account := first.account.strlcpy name } =
          state.loginRecord? { second with account := second.account.strlcpy name } :=
        loginRecord?_congr ((copied first).trans (copied second).symm) (by rw [copied]; exact free)
      rw [kerberosLogin_answer succeeds named reached, kerberosLogin_answer succeeds named reached, records]
    · exact kerberosLogin_refused succeeds reached first second

namespace Scenario

/-- The GSS library accepts the token and gives the name, without key and token. -/
def authenAs (name : CStr) : SpnegoAuthenRequest → Option SpnegoAuthOut :=
  fun _ => some { spnegoBlob := [], sessKey := [], userName := some name }

def token : SpnegoAuthenRequest := { handle := 1, spnegoBlobLen := 0, spnegoBlob := [], msgSz := 8 }

def stackWith (flags : UInt32) : LoginRequest := { account := .ofStr 256 [], flags }

end Scenario

/-- An unknown name is the guest or a bad user, as the stack happens to say. -/
theorem stack_decides_login :
    (Scenario.guestMapped.kerberosLogin (Scenario.authenAs [120]) {} Scenario.token (Scenario.stackWith 0)).map (·.status) =
        some (UserFlag.ok ||| UserFlag.guestAccount).toUInt16 ∧
      (Scenario.guestMapped.kerberosLogin (Scenario.authenAs [120]) {} Scenario.token (Scenario.stackWith 1)).map
        (·.status) = some UserFlag.badUser.toUInt16 := by
  decide +kernel

/-- For a name in the table both stacks give one answer. -/
theorem kerberos_login_independent_known :
    Scenario.guestMapped.kerberosLogin (Scenario.authenAs Scenario.account) {} Scenario.token (Scenario.stackWith 0) =
      Scenario.guestMapped.kerberosLogin (Scenario.authenAs Scenario.account) {} Scenario.token (Scenario.stackWith 1) := by
  have excluded : ¬(ReachesLogin {} Scenario.token { spnegoBlob := [], sessKey := [], userName := some Scenario.account } ∧
      ReadsFlags Scenario.guestMapped (loginAccount Scenario.account)) := by
    rintro ⟨-, reads⟩
    have known : (Scenario.guestMapped.userRecord? (some (loginAccount Scenario.account))).isSome = true := by decide +kernel
    simp [reads.unknown] at known
  exact (kerberos_login_independent_iff _ {} Scenario.guestMapped Scenario.token _ Scenario.account rfl rfl).mpr excluded _ _

end Management
end KsmbdTools
