import KsmbdTools.Management.Requests

/-! Loading from the two files: the password database is applied line by line, and the
configuration file is applied once all of it has been read. -/

namespace KsmbdTools.Management

inductive FileContents where
  /-- `ENOENT`. -/
  | missing
  | unreadable
  | bytes (contents : List UInt8)

/-- The lines of a mapped file. The last one need not end in a newline. -/
def splitLines : List UInt8 → List (List UInt8)
  | [] => []
  | byte :: rest =>
    if byte = 10 then [] :: splitLines rest
    else match splitLines rest with
      | [] => [[byte]]
      | line :: lines => (byte :: line) :: lines

/-- The entries of a mapped file. `g_strndup` ends an entry at a NUL, and an empty file
is one empty entry. -/
def fileEntries (contents : List UInt8) : List CStr :=
  if contents.isEmpty then [[]] else (splitLines contents).map (·.takeWhile (· != 0))

/-- `__mmap_parse_file` from the mapped contents on: the first entry that is refused ends it. -/
def parseEntries {σ : Type} (processEntry : σ → CStr → σ × Bool) (state : σ) : List CStr → σ × Bool
  | [] => (state, true)
  | entry :: entries =>
    match processEntry state entry with
    | (state, false) => (state, false)
    | (state, true) => parseEntries processEntry state entries

def cpPrintable (byte : UInt8) : Bool := (32 ≤ byte && byte != 127) || byte == 9

variable (platform : Platform)

/-- The bytes of `name` up to `p`. -/
def usmUserName (name : CStr) : Bool :=
  !name.isEmpty && decide (name.length < 256) && platform.utf8Validate name &&
    name.all fun byte => cpPrintable byte && byte != 58

def base64Char (byte : UInt8) : Bool :=
  (48 ≤ byte && byte ≤ 57) || (65 ≤ byte && byte ≤ 90) || (97 ≤ byte && byte ≤ 122) || byte == 43 || byte == 47

/-- Name and password of a line; `none` is an invalid entry. Padding is skipped from the
right. -/
def isAUserPassword (entry : CStr) : Option (CStr × CStr) :=
  let name := entry.takeWhile (· != 58)
  match entry.dropWhile (· != 58) with
  | [] => none
  | _ :: password =>
    let text := (password.reverse.dropWhile (· == 61)).reverse
    if usmUserName platform name && !text.isEmpty && text.all base64Char then some (name, password) else none

namespace State

def processPwddbEntry (state : State) (entry : CStr) : State × Bool :=
  if entry.isEmpty then (state, true)
  else match isAUserPassword platform entry with
    | none => (state, false)
    | some (name, password) => (state.addUserPassword platform name password, true)

/-- `cp_parse_pwddb` of the daemon, which goes on without a user database. -/
def cpParsePwddb (state : State) : FileContents → State × Bool
  | .missing => (state, true)
  | .unreadable => (state, false)
  | .bytes contents => parseEntries (processPwddbEntry platform) state (fileEntries contents)

end State

/-- `ipc$`. -/
def ipcName : CStr := [105, 112, 99, 36]

/-- The parser keeps one group for each folded name, and always one for `[ipc$]`, which
is its `parser.ipc`. -/
structure Config.Formed (config : Config) : Prop where
  distinct : (config.shares.map fun group => shmCasefoldShareName platform group.name).Nodup
  ipc : ∃ group ∈ config.shares, group.pipe = true
  pipe : ∀ group ∈ config.shares,
    (group.pipe = true ↔ shmCasefoldShareName platform group.name = shmCasefoldShareName platform ipcName)

/-- What `__mmap_parse_file` makes of the configuration file. -/
inductive Smbconf where
  /-- Not there, or not readable. -/
  | unreadable
  /-- Some line is neither a group nor a key and its value. -/
  | malformed
  | sections (config : Config) (formed : config.Formed platform)

namespace State

/-- `finalize_smbconf_parser`. -/
def finalizeSmbconfParser (state : State) (config : Config) : State × Bool :=
  let state := if state.reloading then state else { state with globalConf := config.globalConf }
  match state.globalConf.guestAccount.elim (state, true) (state.usmAddGuestAccount platform ·) with
  | (state, false) => (state, false)
  | (state, true) => state.addShares platform config.shares

def cpParseSmbconf (state : State) : Smbconf platform → State × Bool
  | .unreadable => (state, false)
  | .malformed => (state, false)
  | .sections config _ => state.finalizeSmbconfParser platform config

/-- `load_config` of the daemon on its two files. The worker pool of the first load is
kept, so nothing after the configuration file fails on a reload. -/
def loadFiles (state : State) (pwddb : FileContents) (smbconf : Smbconf platform) : State × Bool :=
  match state.usmRemoveAllUsers.cpParsePwddb platform pwddb with
  | (state, false) => (state, false)
  | (state, true) => (state.shmRemoveAllShares platform).cpParseSmbconf platform smbconf

end State

end KsmbdTools.Management
