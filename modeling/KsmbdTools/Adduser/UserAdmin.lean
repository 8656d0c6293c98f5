import KsmbdTools.Adduser.Md4
import KsmbdTools.Config.Smbconf

/-! The commands of the user tool (`user_admin.c`). Each works on tables that were loaded from the two files, and
writes the whole password database again from the user table. `none` is a read of a record that was freed. -/

namespace KsmbdTools.Adduser
open Management

/-- What the tool takes from its host besides the platform: the order of bytes, the memory under the MD4 context, and
`g_base64_encode`. -/
structure Host where
  little : Bool
  mctx : Md4Ctx
  base64Encode : List UInt8 → CStr

/-- `MAX_NT_PWD_LEN`. -/
def maxNtPwdLen : Nat := 129

section Password
variable (platform : Platform) (host : Host)

/-- `__md4_hash`. -/
def md4Hash (password : List UInt8) : List UInt8 :=
  (md4Final host.little (md4Update host.little (md4Init host.mctx) password)).1

/-- `process_password` for a given password, or for the one that was typed at the prompt; `none` is `-EINVAL`. -/
def processPassword (typed password : Option CStr) : Option CStr :=
  match password.or typed with
  | none => none
  | some text =>
    if text.length < maxNtPwdLen then
      (platform.gconvert .utf16le .utf8 text).map fun wide => host.base64Encode (md4Hash host wide)
    else none

end Password

inductive CommandError where
  | eexist
  | einval
  | enomem
  deriving DecidableEq, Repr

/-- What a command leaves: the tables, the text it gave to `set_conf_contents`, and its error. -/
structure CommandResult where
  state : State
  contents : Option (List UInt8) := none
  error : Option CommandError := none

/-- The names of all accounts but guests, in the order of `strcmp`. -/
def newUserNl (state : State) : Option (List CStr) := do
  let records ← (HashTable.values state.usersTable).mapM state.users.get?
  let named := (records.filter fun record => !testFlag record.flags UserFlag.guestAccount).map (·.name)
  some (named.insertionSort fun left right => Config.strcmpLe left right)

def entryLine (record : User) : List UInt8 := record.name ++ 58 :: record.passB64 ++ [10]

/-- One turn of the loop of `get_conf_contents`. -/
def printUser (printed : State × List UInt8) (name : CStr) : Option (State × List UInt8) :=
  match printed.1.usmLookupUser (some name) with
  | (_, none) => none
  | (state, some user) => (state.users.get? user).map fun record => (state.putUser user, printed.2 ++ entryLine record)

def getConfContents (state : State) : Option (State × List UInt8) := do
  let names ← newUserNl state
  names.foldlM printUser (state, [])

/-- The end of every command that comes so far; `stored` is whether the file could be written. -/
def writeConf (state : State) (stored : Bool) : Option CommandResult := do
  let (state, contents) ← getConfContents state
  some { state, contents := some contents, error := if stored then none else some .einval }

/-- Does the share need the account? The lists of those kept out and of readers are not looked at. -/
def shareRequiresUser (share : Share) (name : CStr) : Bool :=
  share.guestAccount == some name || shmLookupUsersMap share .adminUsers name == .present ||
    shmLookupUsersMap share .writeList name == .present || shmLookupUsersMap share .validUsers name == .present

/-- `__is_transient_user`. -/
def isTransientUser (state : State) (name : CStr) : Bool :=
  state.globalConf.guestAccount != some name &&
    (HashTable.values state.sharesTable).all fun share => !((state.shares.get? share).any (shareRequiresUser · name))

section Commands
variable (platform : Platform) (host : Host)

def commandAddUser (state : State) (name : CStr) (typed password : Option CStr) (stored : Bool) : Option CommandResult :=
  match state.usmLookupUser (some name) with
  | (state, some user) => some { state := state.putUser user, error := some .eexist }
  | (state, none) =>
    match processPassword platform host typed password with
    | none => some { state, error := some .einval }
    | some pwd =>
      match state.usmAddNewUser platform name pwd with
      | (state, false) => some { state, error := some .enomem }
      | (state, true) => writeConf state stored

/-- A password that is refused leaves the reference of the lookup. -/
def commandUpdateUser (state : State) (name : CStr) (typed password : Option CStr) (stored : Bool) : Option CommandResult :=
  match state.usmLookupUser (some name) with
  | (state, none) => some { state, error := some .einval }
  | (state, some user) =>
    match processPassword platform host typed password with
    | none => some { state, error := some .einval }
    | some pwd => writeConf ((state.usmUpdateUserPassword platform user pwd).putUser user) stored

def commandDeleteUser (state : State) (name : CStr) (stored : Bool) : Option CommandResult :=
  match state.usmLookupUser (some name) with
  | (state, none) => some { state, error := some .einval }
  | (state, some user) =>
    if isTransientUser state name then writeConf (state.usmRemoveUser user) stored
    else some { state, error := some .einval }

/-- `cp_parse_pwddb` of the user tool, which makes a missing file; `created` is whether it could. -/
def cpParsePwddb (created : Bool) : FileContents → State × Bool
  | .missing => ({}, created)
  | .unreadable => ({}, false)
  | .bytes contents => parseEntries (State.processPwddbEntry platform) {} (fileEntries contents)

/-- `load_config` of the user tool. A missing configuration file is read as an empty one. -/
def loadConfig (created : Bool) (pwddb : FileContents) (smbconf : Smbconf platform) : State × Bool :=
  match cpParsePwddb platform created pwddb with
  | (state, false) => (state, false)
  | (state, true) => state.cpParseSmbconf platform smbconf

end Commands

end KsmbdTools.Adduser
