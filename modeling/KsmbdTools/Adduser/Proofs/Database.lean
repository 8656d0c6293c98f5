import KsmbdTools.Adduser.Proofs.DeleteUser
import KsmbdTools.Config.Proofs.Rewritten
import KsmbdTools.Management.Proofs.Pwddb

/-! The password database from one run of the user tool to the next: what a command writes is parsed as the accounts it
was written from. -/

namespace KsmbdTools.Adduser
open Management
variable {platform : Platform} {state : State} {name pwd : CStr}

/-- A line gives the account back: it is of the grammar, and its text is not too long for a new account. -/
structure Storable (platform : Platform) (name pwd : CStr) : Prop where
  account : AccountName platform name
  password : PasswordText pwd
  decodes : ∃ pass, platform.base64Decode pwd = some pass ∧ pass.length < 2 ^ 31

def Printable (platform : Platform) (state : State) : Prop :=
  ∀ name pwd, printedPassword state name = some pwd → Storable platform name pwd

theorem Storable.plain (storable : Storable platform name pwd) : ∀ byte ∈ name ++ 58 :: pwd, byte ≠ 10 ∧ byte ≠ 0 := by
  obtain ⟨account, ⟨text, pad, rfl, -, alphabet⟩, -⟩ := storable
  intro byte member
  have checked : cpPrintable byte || base64Char byte || byte == 58 || byte == 61 := by
    have := account.printable byte
    have := alphabet byte
    grind
  constructor <;> rintro rfl <;> cases checked

section Lines
variable {names : List CStr} {text : CStr → CStr}

theorem fileEntries_lines (given : names ≠ []) (storable : ∀ name ∈ names, Storable platform name (text name)) :
    fileEntries (names.flatMap fun name => accountLine name (text name)) = names.map fun name =>
      name ++ 58 :: text name := by
  have lines := Config.fileEntries_lines (mt List.map_eq_nil_iff.mp given)
    (List.forall_mem_map.mpr fun name member newline => ((storable name member).plain 10 newline).1 rfl)
    (List.forall_mem_map.mpr fun name member zero => ((storable name member).plain 0 zero).2 rfl)
  rwa [List.flatMap_map] at lines

theorem parseEntries_accounts (once : names.Nodup) (storable : ∀ name ∈ names, Storable platform name (text name))
    (sound : UsersSound state) (absent : ∀ name ∈ names, state.usersTable.lookup name = none) :
    ∃ after, parseEntries (State.processPwddbEntry platform) state (names.map fun name => name ++ 58 :: text name) =
        (after, true) ∧
      ∀ other, after.account? other = if other ∈ names then some (text other, false) else state.account? other := by
  induction names generalizing state with
  | nil => exact ⟨state, rfl, fun _ => by simp⟩
  | cons name names ih =>
    obtain ⟨here, later⟩ := List.forall_mem_cons.mp storable
    obtain ⟨free, others⟩ := List.forall_mem_cons.mp absent
    obtain ⟨outside, once⟩ := List.nodup_cons.mp once
    obtain ⟨pass, decodes, short⟩ := here.decodes
    obtain ⟨record, made⟩ := @newKsmbdUser_some platform name _ _ decodes short
    obtain ⟨next, added, accounts⟩ := sound.addNewUser free made
    have line : state.processPwddbEntry platform (name ++ 58 :: text name) = (next, true) := by
      rw [processPwddbEntry_line ⟨rfl, here.account, here.password⟩, UsersSound.addUserPassword_new free, added]
    cases (UsersSound.addNewUser_eq free made).symm.trans added
    obtain ⟨after, ran, each⟩ := ih once later accounts.sound fun other member =>
      (AList.lookup_insert_ne (ne_of_mem_of_not_mem member outside)).trans (others other member)
    refine ⟨after, ?_, fun other => ?_⟩
    · simp only [List.map_cons, parseEntries, line]
      exact ran
    · rw [each, accounts.accounts]
      by_cases same : other = name
      · simp [same, outside]
      · simp [same]

end Lines

/-- The command writes a database that is parsed as these accounts. -/
def Writes (platform : Platform) (result : Option CommandResult) (accounts : CStr → Option CStr) : Prop :=
  ∃ after contents error parsed, result = some ⟨after, some contents, error⟩ ∧
    cpParsePwddb platform true (.bytes contents) = (parsed, true) ∧
    ∀ name, parsed.account? name = (accounts name).map (·, false)

theorem writeConf_writes (sound : UsersSound state) (printable : Printable platform state) (stored : Bool) :
    Writes platform (writeConf state stored) (printedPassword state) := by
  obtain ⟨names, once, each, written⟩ := getConfContents_lines sound
  have storable : ∀ name ∈ names, Storable platform name ((printedPassword state name).getD []) := by
    intro name member
    obtain ⟨pwd, printed⟩ := Option.isSome_iff_exists.mp ((each name).mp member)
    rw [printed]
    exact printable name pwd printed
  obtain ⟨parsed, ran, accounts⟩ :=
    @parseEntries_accounts platform {} names _ once storable sound_empty fun _ _ => rfl
  refine ⟨state, _, _, parsed, by rw [writeConf, written]; rfl, ?_, fun name => ?_⟩
  · cases names with
    | nil => exact ran
    | cons name names =>
      rw [cpParsePwddb, fileEntries_lines (List.cons_ne_nil name names) storable]
      exact ran
  · rw [accounts]
    cases printed : printedPassword state name with
    | none => simpa [each, printed] using UsersSound.account_none rfl
    | some pwd => simp [each, printed]

theorem addUserPassword_writes (sound : UsersSound state) (printable : Printable platform state)
    (storable : Storable platform name pwd) (plain : ∀ account ∈ state.account? name, account.2 = false) (stored : Bool) :
    Writes platform (writeConf (state.addUserPassword platform name pwd) stored)
      (Function.update (printedPassword state) name (some pwd)) := by
  obtain ⟨pass, decodes, short⟩ := storable.decodes
  have changed : Accounts state (state.addUserPassword platform name pwd) _ := sound.addUserPassword
  have updated : printedPassword (state.addUserPassword platform name pwd) =
      Function.update (printedPassword state) name (some pwd) := by
    funext other
    rw [printedPassword, changed.accounts, setPassword, decodes, Function.update_apply]
    split
    · cases account : state.account? name with
      | none => simp only [if_pos short]; rfl
      | some old => simp [plain old account]
    · rfl
  rw [← updated]
  refine writeConf_writes changed.sound (fun other text printed => ?_) stored
  rw [updated, Function.update_apply] at printed
  split at printed
  next own =>
    cases printed
    exact own ▸ storable
  next => exact printable other text printed

def ShortLines (platform : Platform) (entries : List CStr) : Prop :=
  ∀ entry ∈ entries, ∀ line ∈ isAUserPassword platform entry, ∀ pass ∈ platform.base64Decode line.2, pass.length < 2 ^ 31

theorem parsed_storable {entries : List CStr} (short : ShortLines platform entries) (sound : UsersSound state)
    (before : ∀ name account, state.account? name = some account → Storable platform name account.1) :
    ∀ name account, (parseEntries (State.processPwddbEntry platform) state entries).1.account? name = some account →
      Storable platform name account.1 := by
  induction entries generalizing state with
  | nil => exact before
  | cons entry entries ih =>
    obtain ⟨here, later⟩ := List.forall_mem_cons.mp short
    by_cases line : ∃ name pwd, PwddbLine platform entry name pwd
    · obtain ⟨name, pwd, line⟩ := line
      simp only [parseEntries, processPwddbEntry_line line]
      have changed : Accounts state (state.addUserPassword platform name pwd) _ := sound.addUserPassword
      refine ih later changed.sound fun other account known => ?_
      cases decodes : platform.base64Decode pwd with
      | none =>
        obtain ⟨faulted, same⟩ := sound.addUserPassword_undecoded decodes
        rw [same] at known
        exact before other account known
      | some pass =>
        rw [changed.accounts, setPassword, decodes] at known
        split at known
        next own =>
          have bound := here (name, pwd) (isAUserPassword_iff.mpr line) pass decodes
          have text : account.1 = pwd := by
            cases old : state.account? name <;> simp only [old, if_pos bound] at known <;> cases known <;> rfl
          exact own ▸ text ▸ ⟨line.account, line.password, pass, decodes, bound⟩
        next => exact before other account known
    · rw [parseEntries, processPwddbEntry_other line]
      cases entry.isEmpty with
      | false => exact before
      | true => exact ih later sound before

theorem markGuests_plain {guests : List CStr} {accounts : CStr → Option (CStr × Bool)}
    (marked : markGuests guests accounts name = some (pwd, false)) : accounts name = some (pwd, false) := by
  induction guests generalizing accounts with
  | nil => exact marked
  | cons guest guests ih =>
    have earlier : markGuest guest accounts name = some (pwd, false) := ih marked
    rw [markGuest] at earlier
    split at earlier
    · cases earlier
    · exact earlier

theorem account_of_printed (printed : printedPassword state name = some pwd) : state.account? name = some (pwd, false) := by
  obtain ⟨⟨text, guest⟩, account, shown⟩ := Option.bind_eq_some_iff.mp printed
  cases guest <;> cases shown
  exact account

/-- Any database that the tool accepts, with any configuration: a password that is stored for a new account, or for one
that is no guest, changes that account in the database, and the others keep their texts. Guests are not written. -/
theorem stored_password_framed (platform : Platform) (host : Host) (created : Bool) (old : List UInt8)
    (smbconf : Smbconf platform) (state : State) (loaded : loadConfig platform created (.bytes old) smbconf = (state, true))
    (short : ShortLines platform (fileEntries old)) (name pwd : CStr) (typed password : Option CStr) (stored : Bool)
    (computed : processPassword platform host typed password = some pwd) (storable : Storable platform name pwd) :
    (state.usersTable.lookup name = none → Writes platform (commandAddUser platform host state name typed password stored)
      (Function.update (printedPassword state) name (some pwd))) ∧
    ((printedPassword state name).isSome → Writes platform (commandUpdateUser platform host state name typed password stored)
      (Function.update (printedPassword state) name (some pwd))) := by
  obtain ⟨sound, -, guests, marked⟩ := loadConfig_configured loaded
  have printable : Printable platform state := fun name pwd printed =>
    parsed_storable short sound_empty (fun _ _ known => by cases known) name (pwd, false)
      (markGuests_plain ((marked name).symm.trans (account_of_printed printed)))
  have written := addUserPassword_writes sound printable storable
  constructor
  · intro absent
    obtain ⟨pass, decodes, bound⟩ := storable.decodes
    obtain ⟨record, made⟩ := @newKsmbdUser_some platform name _ _ decodes bound
    replace written := written (by simp [UsersSound.account_none absent]) stored
    rw [UsersSound.addUserPassword_new absent] at written
    simp only [commandAddUser, UsersSound.lookup_none absent, computed]
    rwa [UsersSound.addNewUser_eq absent made] at written ⊢
  · intro shown
    obtain ⟨text, printed⟩ := Option.isSome_iff_exists.mp shown
    obtain ⟨user, entry, -⟩ := Option.bind_eq_some_iff.mp (account_of_printed printed)
    replace written := written (by simp [account_of_printed printed]) stored
    simpa only [State.addUserPassword, commandUpdateUser, sound.lookup_some entry, computed] using written

namespace Scenario
open Management.Scenario

/-- The `index`-th character of the alphabet of base64. -/
def base64Letter (index : Nat) : UInt8 :=
  if index < 26 then .ofNat (65 + index) else if index < 52 then .ofNat (71 + index)
  else if index < 62 then .ofNat (index - 4) else if index = 62 then 43 else 47

/-- `g_base64_encode`. -/
def gBase64Encode : List UInt8 → CStr
  | a :: b :: c :: rest =>
    base64Letter (a.toNat / 4) :: base64Letter (a.toNat % 4 * 16 + b.toNat / 16) ::
      base64Letter (b.toNat % 16 * 4 + c.toNat / 64) :: base64Letter (c.toNat % 64) :: gBase64Encode rest
  | [a, b] =>
    [base64Letter (a.toNat / 4), base64Letter (a.toNat % 4 * 16 + b.toNat / 16), base64Letter (b.toNat % 16 * 4), 61]
  | [a] => [base64Letter (a.toNat / 4), base64Letter (a.toNat % 4 * 16), 61, 61]
  | [] => []

/-- Base64 as glib has it, and UTF-16 for what is ASCII. -/
def toolPlatform : Platform := { base64Platform with gconvert := fun _ _ text => some (text.flatMap ([·, 0])) }

def toolHost : Host := ⟨true, ⟨⟨0, 0, 0, 0⟩, List.replicate 64 0, 0⟩, gBase64Encode⟩

/-- `a:AQ==` and `b:Ag==`. -/
def twoLines : List UInt8 := [97, 58, 65, 81, 61, 61, 10, 98, 58, 65, 103, 61, 61, 10]

def twoConfig : Smbconf toolPlatform :=
  .sections (listing { name := shareName, validUsers := some [account] })
    ⟨by decide +kernel, ⟨_, List.mem_cons_of_mem _ (List.mem_singleton_self _), rfl⟩, by decide +kernel⟩

def twoAccounts : State × Bool := loadConfig toolPlatform false (.bytes twoLines) twoConfig

/-- `4PujgmjQ7GbvHLRS1YheUw==`, which the tool stores for the password `abc`. -/
def abcText : CStr :=
  [52, 80, 117, 106, 103, 109, 106, 81, 55, 71, 98, 118, 72, 76, 82, 83, 49, 89, 104, 101, 85, 119, 61, 61]

theorem abcText_storable {name : CStr} (named : AccountName toolPlatform name) : Storable toolPlatform name abcText :=
  ⟨named, ⟨abcText.take 22, 2, rfl, by decide, by decide +kernel⟩, _, rfl, by decide +kernel⟩

end Scenario

open Scenario in
/-- The accounts `a` and `b`: `abc` is given for the new account `c`, and typed for `b`. -/
theorem stored_password_framed_two : twoAccounts.2 = true ∧
    Writes toolPlatform (commandAddUser toolPlatform toolHost twoAccounts.1 [99] none (some [97, 98, 99]) true)
      (Function.update (printedPassword twoAccounts.1) [99] (some abcText)) ∧
    Writes toolPlatform (commandUpdateUser toolPlatform toolHost twoAccounts.1 [98] (some [97, 98, 99]) none true)
      (Function.update (printedPassword twoAccounts.1) [98] (some abcText)) := by
  have ok : twoAccounts.2 = true := by decide +kernel
  have loaded : loadConfig _ _ _ _ = (twoAccounts.1, true) := Prod.ext (x := twoAccounts) rfl ok
  have short : ShortLines toolPlatform (fileEntries twoLines) := by
    unfold ShortLines
    decide +kernel
  refine ⟨ok,
    (stored_password_framed toolPlatform toolHost false _ _ _ loaded short [99] abcText none (some [97, 98, 99]) true
      (by decide +kernel) (abcText_storable ?_)).1 (by decide +kernel),
    (stored_password_framed toolPlatform toolHost false _ _ _ loaded short [98] abcText (some [97, 98, 99]) none true
      (by decide +kernel) (abcText_storable ?_)).2 (by decide +kernel)⟩
  all_goals exact ⟨by decide, by decide, rfl, List.forall_mem_singleton.mpr rfl, by decide⟩

end KsmbdTools.Adduser
