import KsmbdTools.Config.ShareConf
import KsmbdTools.Management.Files
import Mathlib.Data.List.DropRight
import Mathlib.Data.List.Sort

/-! The configuration file: its line grammar, the groups the parser keeps, and the text
the share commands write back. -/

namespace KsmbdTools.Config
open Management

def isAsciiSpaceTab (byte : UInt8) : Bool := byte == 32 || byte == 9

def startsComment (byte : UInt8) : Bool := byte == 59 || byte == 35

def cpSmbconfEol : CStr → Bool
  | [] => true
  | byte :: _ => startsComment byte

def cpLtrim (text : CStr) : CStr := text.dropWhile isAsciiSpaceTab

def cpRtrim : CStr → CStr
  | [] => []
  | first :: rest => first :: rest.rdropWhile isAsciiSpaceTab

structure KeyValue where
  key : CStr
  value : CStr
  deriving DecidableEq

/-- `struct smbconf_group`. Keys are compared without regard to ASCII case. -/
structure SmbconfGroup where
  name : CStr
  kv : HashTable CStr KeyValue := ∅
  deriving DecidableEq

/-- `struct smbconf_parser`. Groups are found by their folded names, which also stand for
the pointers to them. -/
structure SmbconfParser where
  groups : HashTable CStr SmbconfGroup := ∅
  current : Option CStr := none
  global : Option CStr := none
  ipc : Option CStr := none
  deriving DecidableEq

def globalName : CStr := ascii "global"

variable (platform : Platform)

def shmShareName (name : CStr) : Bool :=
  !name.isEmpty && decide (name.length < 64) && platform.utf8Validate name &&
    name.all fun byte => cpPrintable byte && byte != 91 && byte != 93

def isAGroup : CStr → Option CStr
  | 91 :: entry =>
    let name := entry.takeWhile (· != 93)
    match entry.dropWhile (· != 93) with
    | [] => none
    | _ :: behind => if shmShareName platform name && cpSmbconfEol (cpLtrim behind) then some name else none
  | _ => none

namespace SmbconfParser

def isAKeyValue (parser : SmbconfParser) (entry : CStr) : Option CStr :=
  let key := entry.takeWhile (· != 61)
  match entry.dropWhile (· != 61) with
  | [] => none
  | _ :: behind =>
    if key.isEmpty || !(key.all fun byte => cpPrintable byte && !startsComment byte) || parser.current.isNone then none
    else
      let blanks := behind.takeWhile isAsciiSpaceTab
      let value := (cpLtrim behind).takeWhile (!startsComment ·)
      if value.all cpPrintable then some (key ++ 61 :: (blanks ++ value)) else none

def addGroup (parser : SmbconfParser) (name : CStr) : SmbconfParser :=
  let key := shmCasefoldShareName platform name
  if key ∈ parser.groups then { parser with current := some key }
  else
    let parser := { parser with groups := parser.groups.insert key { name }, current := some key }
    if parser.global.isNone && key == shmCasefoldShareName platform globalName then { parser with global := some key }
    else if parser.ipc.isNone && key == shmCasefoldShareName platform ipcName then { parser with ipc := some key }
    else parser

/-- The group `parser.current` points to, changed. -/
def modifyCurrent (parser : SmbconfParser) (change : SmbconfGroup → SmbconfGroup) : SmbconfParser :=
  match parser.current with
  | none => parser
  | some key =>
    match parser.groups.lookup key with
    | none => parser
    | some group => { parser with groups := parser.groups.insert key (change group) }

end SmbconfParser

/-- Key and value around the first `=`. -/
def entryPair (entry : CStr) : KeyValue :=
  ⟨cpRtrim (entry.takeWhile (· != 61)), cpLtrim ((entry.dropWhile (· != 61)).drop 1)⟩

def addKeyValue (kv : HashTable CStr KeyValue) (entry : CStr) : HashTable CStr KeyValue :=
  let pair := entryPair entry
  if cpSmbconfEol pair.value || asciiStrdown pair.key ∈ kv then kv else kv.insert (asciiStrdown pair.key) pair

namespace SmbconfParser

def addGroupKeyValue (parser : SmbconfParser) (entry : CStr) : SmbconfParser :=
  parser.modifyCurrent fun group => { group with kv := addKeyValue group.kv entry }

def processSmbconfEntry (parser : SmbconfParser) (entry : CStr) : SmbconfParser × Bool :=
  let entry := cpLtrim entry
  if cpSmbconfEol entry then (parser, true)
  else match isAGroup platform entry with
    | some name => (parser.addGroup platform name, true)
    | none =>
      match parser.isAKeyValue entry with
      | some entry => (parser.addGroupKeyValue entry, true)
      | none => (parser, false)

/-- `__mmap_parse_file` on the contents of a file, from an empty parser. -/
def parseFile (contents : List UInt8) : SmbconfParser × Bool :=
  parseEntries (processSmbconfEntry platform) {} (fileEntries contents)

end SmbconfParser

/-- `g_strstrip`. -/
def gStrstrip (text : CStr) : CStr := (text.dropWhile Strtol.isSpace).rdropWhile Strtol.isSpace

/-- The share key that an option sets. Two of them are none in `[global]`. -/
def optionConf (isGlobal : Bool) (key : CStr) : Option ShareConf :=
  ShareConf.all.find? fun conf => (!isGlobal || !conf.isGlobal) && shmShareConfig key conf

namespace SmbconfParser

/-- One option of `cp_parse_external_smbconf_group`; others than share keys are ignored. -/
def applyOption (isGlobal : Bool) (parser : SmbconfParser) (option : CStr) : SmbconfParser :=
  let option := cpLtrim option
  if cpSmbconfEol option then parser
  else match parser.isAKeyValue option with
    | none => parser
    | some option =>
      match optionConf isGlobal (gStrstrip (option.takeWhile (· != 61))) with
      | none => parser
      | some conf =>
        (parser.modifyCurrent fun group => { group with kv := group.kv.erase (asciiStrdown conf.key) }).addGroupKeyValue
          option

def cpParseExternalSmbconfGroup (parser : SmbconfParser) (name : CStr) (options : List CStr) : SmbconfParser :=
  let parser := parser.addGroup platform name
  options.foldl (applyOption (parser.current == parser.global)) parser

end SmbconfParser

/-- `strcmp` puts the one text not behind the other. -/
def strcmpLe : CStr → CStr → Bool
  | [], _ => true
  | _ :: _, [] => false
  | left :: lefts, right :: rights => left < right || left == right && strcmpLe lefts rights

namespace SmbconfParser

def isGlobalGroup (parser : SmbconfParser) (group : SmbconfGroup) : Bool :=
  parser.global == some (shmCasefoldShareName platform group.name)

def toFront (key : Option CStr) (groups : List SmbconfGroup) : List SmbconfGroup :=
  let found := fun group : SmbconfGroup => key == some (shmCasefoldShareName platform group.name)
  groups.filter found ++ groups.filter (!found ·)

/-- The groups in the order they are written: `[global]`, `[ipc$]` and the others by name.
`none` is a read of a group that was freed. -/
def newShareNl (parser : SmbconfParser) : Option (List SmbconfGroup) :=
  if parser.ipc.any (· ∉ parser.groups) || parser.global.any (· ∉ parser.groups) then none
  else
    let sorted := parser.groups.values.insertionSort fun left right => strcmpLe left.name right.name
    some (toFront platform parser.global (toFront platform parser.ipc sorted))

end SmbconfParser

/-- The pairs of a group, those with a share key apart, both by key. -/
def newShareKl (isGlobal : Bool) (group : SmbconfGroup) : List KeyValue × List KeyValue :=
  let byKey := List.insertionSort fun left right : KeyValue => strcmpLe left.key right.key
  let isShareKey := fun pair : KeyValue => (optionConf isGlobal pair.key).isSome
  (byKey (group.kv.values.filter (!isShareKey ·)), byKey (group.kv.values.filter isShareKey))

/-- A tab, then `key = value`. -/
def pairLine (pair : KeyValue) : CStr := 9 :: (pair.key ++ ascii " = " ++ pair.value)

def plainHeading (isGlobal : Bool) (plain : List KeyValue) : List CStr :=
  if plain.isEmpty then [] else [9 :: ascii (if isGlobal then "; global parameters" else "; parameters")]

def sharedHeading (isGlobal : Bool) (plain shared : List KeyValue) : List CStr :=
  if shared.isEmpty then []
  else (if plain.isEmpty then [] else [[]]) ++
    [9 :: ascii (if isGlobal then "; default share parameters" else "; share parameters")]

def groupLines (isGlobal : Bool) (group : SmbconfGroup) : List CStr :=
  let (plain, shared) := newShareKl isGlobal group
  [91 :: (group.name ++ [93])] ++ plainHeading isGlobal plain ++ plain.map pairLine ++
    sharedHeading isGlobal plain shared ++ shared.map pairLine ++ [[]]

namespace SmbconfParser

def confLines (parser : SmbconfParser) : Option (List CStr) :=
  (parser.newShareNl platform).map fun groups =>
    [ascii "; see ksmbd.conf(5) for details", []] ++
      groups.flatMap fun group => groupLines (parser.isGlobalGroup platform group) group

def getConfContents (parser : SmbconfParser) : Option (List UInt8) :=
  (parser.confLines platform).map fun lines => lines.flatMap (· ++ [10])

end SmbconfParser

inductive CommandRet where
  | ok
  | eexist
  | einval
  deriving DecidableEq, Repr

/-- The answer of a share command, with the contents of the file it leaves. -/
structure CommandResult where
  file : List UInt8
  ret : CommandRet
  deriving DecidableEq

/-- `set_conf_contents`: the old contents stay when the write fails. -/
def setConfContents (writes : Bool) (file contents : List UInt8) : CommandResult :=
  if writes then ⟨contents, .ok⟩ else ⟨file, .einval⟩

/-- `__get_options` without values: every share key is cleared, but for those commented out. -/
def getOptions (isGlobal : Bool) : List CStr :=
  ShareConf.all.map fun conf =>
    (if isGlobal && conf.isGlobal || conf.isBroken then ascii "; " else []) ++ conf.key ++ ascii " = "

namespace SmbconfParser

/-- With options given, so that nothing is prompted for. `none` is a read of freed memory. -/
def commandAddShare (writes : Bool) (file : List UInt8) (parser : SmbconfParser) (name : CStr) (options : List CStr) :
    Option CommandResult :=
  if shmCasefoldShareName platform name ∈ parser.groups then some ⟨file, .eexist⟩
  else ((parser.cpParseExternalSmbconfGroup platform name options).getConfContents platform).map
    (setConfContents writes file)

def commandUpdateShare (writes : Bool) (file : List UInt8) (parser : SmbconfParser) (name : CStr) (options : List CStr) :
    Option CommandResult :=
  if shmCasefoldShareName platform name ∉ parser.groups then some ⟨file, .einval⟩
  else ((parser.cpParseExternalSmbconfGroup platform name options).getConfContents platform).map
    (setConfContents writes file)

/-- `[global]` keeps its group and loses the share keys. The group of `parser.ipc` may be
freed here. -/
def commandDeleteShare (writes : Bool) (file : List UInt8) (parser : SmbconfParser) (name : CStr) : Option CommandResult :=
  let key := shmCasefoldShareName platform name
  if key ∉ parser.groups then some ⟨file, .einval⟩
  else if parser.global == some key then parser.commandUpdateShare platform writes file name (getOptions true)
  else ({ parser with groups := parser.groups.erase key }.getConfContents platform).map (setConfContents writes file)

end SmbconfParser
end KsmbdTools.Config
