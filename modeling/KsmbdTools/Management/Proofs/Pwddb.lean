import KsmbdTools.Base64
import KsmbdTools.Texts
import KsmbdTools.Management.Proofs.Accounts

/-! The grammar of the password database, and what a line that is accepted does to the user table. -/

namespace KsmbdTools.Management
variable {platform : Platform}

/-- Does the name keep to its length, its charset and its characters? -/
structure AccountName (platform : Platform) (name : CStr) : Prop where
  nonempty : 1 ≤ name.length
  short : name.length ≤ 255
  valid : platform.utf8Validate name = true
  printable : ∀ byte ∈ name, cpPrintable byte = true
  undivided : 58 ∉ name

def PasswordText (body : CStr) : Prop :=
  ∃ text pad, body = text ++ List.replicate pad 61 ∧ text ≠ [] ∧ ∀ byte ∈ text, base64Char byte = true

structure PwddbLine (platform : Platform) (entry name body : CStr) : Prop where
  split : entry = name ++ 58 :: body
  account : AccountName platform name
  password : PasswordText body

theorem usmUserName_iff {name : CStr} (undivided : 58 ∉ name) :
    usmUserName platform name = true ↔ AccountName platform name := by
  simp only [usmUserName, Bool.and_eq_true, Bool.not_eq_true', List.isEmpty_eq_false_iff, decide_eq_true_eq,
    List.all_eq_true, bne_iff_ne, ne_eq]
  constructor
  · rintro ⟨⟨⟨nonempty, short⟩, valid⟩, each⟩
    exact ⟨List.length_pos_iff.mpr nonempty, by omega, valid, fun byte member => (each byte member).1, undivided⟩
  · rintro ⟨nonempty, short, valid, printable, -⟩
    refine ⟨⟨⟨List.length_pos_iff.mp nonempty, by omega⟩, valid⟩, fun byte member => ⟨printable byte member, ?_⟩⟩
    rintro rfl
    exact undivided member

/-- Padding is skipped from the right, so a text is the same as its body without padding. -/
theorem passwordText_iff {body : CStr} :
    PasswordText body ↔ body.rdropWhile (· == 61) ≠ [] ∧ (body.rdropWhile (· == 61)).all base64Char = true := by
  constructor
  · rintro ⟨text, pad, rfl, nonempty, alphabet⟩
    have ends : Texts.Ends (· == (61 : UInt8)) text := by
      intro byte last
      have member := alphabet byte (List.mem_of_getLast? last)
      by_contra padding
      obtain rfl : byte = 61 := by simpa using padding
      cases member
    rw [Texts.rdropWhile_blanks ends (fun byte member => by rw [List.eq_of_mem_replicate member]; rfl)]
    exact ⟨nonempty, List.all_eq_true.mpr alphabet⟩
  · rintro ⟨nonempty, alphabet⟩
    obtain ⟨padding, split, all⟩ := Texts.rdropWhile_split (· == (61 : UInt8)) body
    refine ⟨_, padding.length, ?_, nonempty, List.all_eq_true.mp alphabet⟩
    have same : padding = List.replicate padding.length 61 :=
      List.eq_replicate_iff.mpr ⟨rfl, fun byte member => eq_of_beq (all byte member)⟩
    rw [← same, ← split]

theorem isAUserPassword_iff {entry name body : CStr} :
    isAUserPassword platform entry = some (name, body) ↔ PwddbLine platform entry name body := by
  unfold isAUserPassword
  constructor
  · intro parsed
    dsimp only at parsed
    split at parsed
    · cases parsed
    next first password found =>
      split at parsed
      next accepted =>
        cases parsed
        simp only [Bool.and_eq_true, Bool.not_eq_true', List.isEmpty_eq_false_iff] at accepted
        obtain ⟨⟨named, nonempty⟩, alphabet⟩ := accepted
        exact ⟨Texts.split_of_dropWhile_ne found, (usmUserName_iff (Texts.not_mem_takeWhile_ne entry)).mp named,
          passwordText_iff.mpr ⟨nonempty, alphabet⟩⟩
      · cases parsed
  · rintro ⟨rfl, account, password⟩
    obtain ⟨nonempty, alphabet⟩ := passwordText_iff.mp password
    have named := (usmUserName_iff account.undivided).mpr account
    rw [Texts.takeWhile_ne account.undivided, Texts.dropWhile_ne account.undivided]
    dsimp only
    rw [if_pos]
    simp only [Bool.and_eq_true, Bool.not_eq_true', List.isEmpty_eq_false_iff]
    exact ⟨⟨named, nonempty⟩, alphabet⟩

/-- The account has the text as its password, and that is all that has changed. An account that was there keeps its
record, and its entry in the table, with all but the password. -/
structure StoresPassword (platform : Platform) (name body : CStr) (before after : State) : Prop where
  only : OnlyUsers before after
  stored : ∃ user record, after.usersTable.lookup name = some user ∧ after.users.get? user = some record ∧
    record.name = name ∧ record.passB64 = body ∧ platform.base64Decode body = some record.pass
  kept : ∀ user record, before.usersTable.lookup name = some user → before.users.get? user = some record →
    after.usersTable.lookup name = some user ∧
      ∃ pass passSz, after.users.get? user = some { record with passB64 := body, pass, passSz }
  others : ∀ other, other ≠ name → after.usersTable.lookup other = before.usersTable.lookup other ∧
    ∀ user, before.usersTable.lookup other = some user → after.users.get? user = before.users.get? user

namespace StoresPassword
variable {state : State} {name body : CStr} {user : Ref User} {pass : List UInt8}

theorem known (sound : UsersSound state) (entry : state.usersTable.lookup name = some user)
    (decoded : platform.base64Decode body = some pass) :
    StoresPassword platform name body state (state.addUserPassword platform name body) := by
  rw [sound.addUserPassword_known entry decoded]
  obtain ⟨record, seen, named, -⟩ := sound name user entry
  have changed (record : User) (seen : state.users.get? user = some record) :
      (state.users.modify user (User.withPassword body pass)).get? user = some (record.withPassword body pass) := by
    rw [Heap.get?_modify_self, seen, Option.map_some]
  refine ⟨.faulted state _ _ _, ⟨user, _, entry, changed record seen, named, rfl, decoded⟩, ?_,
    fun other different => ⟨rfl, ?_⟩⟩
  · intro user' record' entry' seen'
    cases entry.symm.trans entry'
    exact ⟨entry, pass, _, changed record' seen'⟩
  · intro second entry'
    exact Heap.get?_modify_ne (sound.apart entry entry' different)

theorem new (sound : UsersSound state) (absent : state.usersTable.lookup name = none)
    (decoded : platform.base64Decode body = some pass) (short : pass.length < 2 ^ 31) :
    StoresPassword platform name body state (state.addUserPassword platform name body) := by
  obtain ⟨record, made⟩ := @newKsmbdUser_some platform name _ _ decoded short
  obtain ⟨named, text, -, -, -, pass', decoded', -, stored⟩ := newKsmbdUser_fields made
  rw [UsersSound.addUserPassword_new absent, UsersSound.addNewUser_eq absent made]
  refine ⟨.users state _ _, ⟨_, record, AList.lookup_insert _, Heap.get?_alloc_new _ _, named, text, stored ▸ decoded'⟩,
    ?_, ?_⟩
  · intro user record entry
    cases absent.symm.trans entry
  · intro other different
    refine ⟨AList.lookup_insert_ne different, fun user entry => ?_⟩
    obtain ⟨record', seen, -⟩ := sound other user entry
    exact Heap.get?_alloc_old record (Heap.get?_lt seen)

end StoresPassword

/-- A line is accepted exactly if it is empty or of the grammar; if of the grammar it stores the password, and
otherwise the tables stay as they are. No memory is freed twice or cleared beyond its end. -/
structure FollowsGrammar (platform : Platform) (state : State) (entry : CStr) : Prop where
  accepted : (state.processPwddbEntry platform entry).2 = true ↔ entry = [] ∨ ∃ name body, PwddbLine platform entry name body
  stores : ∀ name body, PwddbLine platform entry name body →
    StoresPassword platform name body state (state.processPwddbEntry platform entry).1
  otherwise : (¬∃ name body, PwddbLine platform entry name body) → (state.processPwddbEntry platform entry).1 = state
  survives : (state.processPwddbEntry platform entry).1.faulted = false

theorem processPwddbEntry_line {state : State} {entry name body : CStr} (line : PwddbLine platform entry name body) :
    state.processPwddbEntry platform entry = (state.addUserPassword platform name body, true) := by
  have nonempty : entry.isEmpty = false := by
    rw [line.split]
    cases name <;> rfl
  simp only [State.processPwddbEntry, nonempty, isAUserPassword_iff.mpr line, Bool.false_eq_true, if_false]

theorem processPwddbEntry_other {state : State} {entry : CStr} (other : ¬∃ name body, PwddbLine platform entry name body) :
    state.processPwddbEntry platform entry = (state, entry.isEmpty) := by
  have refused : isAUserPassword platform entry = none := by
    cases parsed : isAUserPassword platform entry with
    | none => rfl
    | some account => exact absurd ⟨_, _, isAUserPassword_iff.mp parsed⟩ other
  cases empty : entry.isEmpty with
  | true => simp only [State.processPwddbEntry, empty, if_true]
  | false => simp only [State.processPwddbEntry, empty, refused, Bool.false_eq_true, if_false]

/-- A password of a new account has to fit an `int`, and so had the one that is replaced. -/
structure SizesFit (platform : Platform) (state : State) (name body : CStr) : Prop where
  fresh : state.usersTable.lookup name = none → ∀ pass, platform.base64Decode body = some pass → pass.length < 2 ^ 31
  stored : ∀ user record, state.usersTable.lookup name = some user → state.users.get? user = some record → 0 ≤ record.passSz

section Faults
variable {state : State} {entry name body : CStr} {user : Ref User} {pass : List UInt8}

theorem addUserPassword_faulted (sound : UsersSound state) (known : state.usersTable.lookup name = some user) {record : User}
    (seen : state.users.get? user = some record) (decoded : platform.base64Decode body = some pass) :
    (state.addUserPassword platform name body).faulted = (state.faulted || decide (record.passSz < 0)) := by
  rw [sound.addUserPassword_known known decoded, State.withUser, State.clearsBeyond, seen, Option.any_some]

theorem new_long_faults (line : PwddbLine platform entry name body) (absent : state.usersTable.lookup name = none)
    (decoded : platform.base64Decode body = some pass) (long : 2 ^ 31 ≤ pass.length) :
    ¬FollowsGrammar platform state entry := by
  intro follows
  have survives := follows.survives
  rw [processPwddbEntry_line line, UsersSound.addUserPassword_long absent decoded long] at survives
  cases survives

theorem negative_size_faults (sound : UsersSound state) (line : PwddbLine platform entry name body)
    (known : state.usersTable.lookup name = some user) {record : User} (seen : state.users.get? user = some record)
    (negative : record.passSz < 0) (decoded : platform.base64Decode body = some pass) :
    ¬FollowsGrammar platform state entry := by
  intro follows
  have survives := follows.survives
  rw [processPwddbEntry_line line, addUserPassword_faulted sound known seen decoded, decide_eq_true negative,
    Bool.or_true] at survives
  cases survives

end Faults

/-- The grammar is followed exactly if the sizes of the passwords fit: that of the line for a new account, and else the
one that the account had. -/
theorem pwddb_grammar_iff (platform : Platform) (state : State) (entry : CStr) (sound : UsersSound state)
    (alive : state.faulted = false) (decodes : ∀ text, (platform.base64Decode text).isSome = true) :
    FollowsGrammar platform state entry ↔
      ∀ name body, PwddbLine platform entry name body → SizesFit platform state name body := by
  constructor
  · intro follows name body line
    obtain ⟨pass, decoded⟩ := Option.isSome_iff_exists.mp (decodes body)
    refine ⟨fun absent pass decoded => ?_, fun user record known seen => ?_⟩
    · by_contra long
      exact new_long_faults line absent decoded (Nat.le_of_not_lt long) follows
    · by_contra negative
      exact negative_size_faults sound line known seen (Int.not_le.mp negative) decoded follows
  · intro fits
    by_cases grammar : ∃ name body, PwddbLine platform entry name body
    · obtain ⟨name, body, line⟩ := grammar
      obtain ⟨pass, decoded⟩ := Option.isSome_iff_exists.mp (decodes body)
      obtain ⟨fresh, stored⟩ := fits name body line
      have ran : state.processPwddbEntry platform entry = _ := processPwddbEntry_line line
      have each : StoresPassword platform name body state (state.addUserPassword platform name body) ∧
          (state.addUserPassword platform name body).faulted = false := by
        cases known : state.usersTable.lookup name with
        | none =>
          obtain ⟨record, made⟩ := @newKsmbdUser_some platform name _ _ decoded (fresh known pass decoded)
          refine ⟨.new sound known decoded (fresh known pass decoded), ?_⟩
          rw [UsersSound.addUserPassword_new known, UsersSound.addNewUser_eq known made, alive]
        | some user =>
          obtain ⟨record, seen, -⟩ := sound name user known
          refine ⟨.known sound known decoded, ?_⟩
          rw [addUserPassword_faulted sound known seen decoded, alive,
            decide_eq_false (Int.not_lt.mpr (stored user record known seen)), Bool.or_false]
      refine ⟨?_, fun other text same => ?_, fun other => absurd ⟨name, body, line⟩ other, by rw [ran]; exact each.2⟩
      · rw [ran]
        exact iff_of_true rfl (.inr ⟨name, body, line⟩)
      · -- a line is of the grammar in one way
        cases (isAUserPassword_iff.mpr same).symm.trans (isAUserPassword_iff.mpr line)
        rw [ran]
        exact each.1
    · have ran : state.processPwddbEntry platform entry = _ := processPwddbEntry_other grammar
      refine ⟨?_, fun name body line => absurd ⟨name, body, line⟩ grammar, fun _ => by rw [ran], by rw [ran]; exact alive⟩
      rw [ran]
      exact List.isEmpty_iff.trans (or_iff_left grammar).symm

namespace Scenario

def base64Platform : Platform := { plainPlatform with base64Decode := fun text => some (Base64.decode text) }

/-- `a:AQ==`. -/
def shortLine : CStr := [97, 58, 65, 81, 61, 61]

/-- `a:` with four characters `A` for every three bytes. -/
def longLine (count : Nat) : CStr := [97] ++ 58 :: List.replicate (4 * count) 65

theorem longLine_grammar {count : Nat} (some : 0 < count) :
    PwddbLine base64Platform (longLine count) [97] (List.replicate (4 * count) 65) := by
  refine ⟨rfl, ⟨by decide, by decide, rfl, by decide +kernel, by decide⟩, _, 0, (List.append_nil _).symm, ?_,
    fun byte member => by rw [List.eq_of_mem_replicate member]; rfl⟩
  rw [List.ne_nil_iff_length_pos, List.length_replicate]
  omega

theorem longLine_decoded (count : Nat) :
    base64Platform.base64Decode (List.replicate (4 * count) 65) = some (List.replicate (3 * count) 0) :=
  congrArg some (Base64.decode_zeros count)

theorem shortLine_grammar : PwddbLine base64Platform shortLine [97] [65, 81, 61, 61] :=
  isAUserPassword_iff.mp (by decide +kernel)

/-- The account `a`, with the password of the short line. -/
def oneByte : State := (({} : State).processPwddbEntry base64Platform shortLine).1

theorem oneByte_sound : UsersSound oneByte := by
  have empty : UsersSound ({} : State) := fun name user known => by simp at known
  have changed : Accounts {} (({} : State).addUserPassword base64Platform [97] [65, 81, 61, 61]) _ := empty.addUserPassword
  rw [oneByte, processPwddbEntry_line shortLine_grammar]
  exact changed.sound

end Scenario

open Scenario in
/-- The line `a:` with 2863311532 characters, which stand for 2147483649 bytes. For a new account name and password are
freed twice. For one that is there they are stored with a negative size, which the next line of the account clears. -/
theorem pwddb_line_dropped :
    ¬FollowsGrammar base64Platform {} (longLine 715827883) ∧
      ¬FollowsGrammar base64Platform (oneByte.processPwddbEntry base64Platform (longLine 715827883)).1 shortLine := by
  have long : PwddbLine base64Platform (longLine 715827883) _ _ := longLine_grammar (by decide)
  refine ⟨new_long_faults long rfl (longLine_decoded _) (by rw [List.length_replicate]; decide), ?_⟩
  obtain ⟨user, known⟩ : ∃ user, oneByte.usersTable.lookup [97] = some user :=
    Option.isSome_iff_exists.mp (by decide +kernel)
  obtain ⟨record, seen, -⟩ := oneByte_sound [97] user known
  have ran := oneByte_sound.addUserPassword_known known (longLine_decoded 715827883)
  have changed : Accounts oneByte (oneByte.addUserPassword base64Platform [97] (List.replicate (4 * 715827883) 65)) _ :=
    oneByte_sound.addUserPassword
  have stored : (oneByte.addUserPassword base64Platform [97] (List.replicate (4 * 715827883) 65)).users.get? user =
      some (record.withPassword (List.replicate (4 * 715827883) 65) (List.replicate (3 * 715827883) 0)) := by
    rw [ran, State.withUser, Heap.get?_modify_self, seen, Option.map_some]
  rw [processPwddbEntry_line long]
  refine negative_size_faults changed.sound shortLine_grammar (changed.kept _ _ known) stored ?_ rfl
  show toInt32 (List.replicate (3 * 715827883) (0 : UInt8)).length < 0
  rw [List.length_replicate]
  decide

open Scenario in
/-- The short line, for a new account and once more for the same one. -/
theorem pwddb_grammar_short :
    FollowsGrammar base64Platform {} shortLine ∧ FollowsGrammar base64Platform oneByte shortLine := by
  have parsed : isAUserPassword base64Platform shortLine = some ([97], [65, 81, 61, 61]) := by decide +kernel
  have one : base64Platform.base64Decode [65, 81, 61, 61] = some [1] := by decide +kernel
  have sizes : ∀ user ∈ oneByte.usersTable.lookup [97], ∀ record ∈ oneByte.users.get? user, 0 ≤ record.passSz := by
    decide +kernel
  refine ⟨(pwddb_grammar_iff base64Platform {} _ (fun name user known => by simp at known) rfl fun _ => rfl).mpr ?_,
    (pwddb_grammar_iff base64Platform oneByte _ oneByte_sound (by decide +kernel) fun _ => rfl).mpr ?_⟩
  · intro name body line
    cases parsed.symm.trans (isAUserPassword_iff.mpr line)
    refine ⟨fun _ pass decoded => ?_, fun user record known => by cases known⟩
    cases one.symm.trans decoded
    decide
  · intro name body line
    cases parsed.symm.trans (isAUserPassword_iff.mpr line)
    refine ⟨fun _ pass decoded => ?_, fun user record known seen => sizes user known record seen⟩
    cases one.symm.trans decoded
    decide

end KsmbdTools.Management
