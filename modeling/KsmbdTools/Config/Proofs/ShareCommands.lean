import KsmbdTools.Config.Proofs.Rewritten

/-! Adding, updating and deleting a share: what the rewritten configuration file says. -/

namespace KsmbdTools.Config
open Management Texts

variable {platform : Platform}

/-- What an option sets: the pair of a valid line whose key is a share key. -/
def optionSetting (isGlobal : Bool) (option : CStr) : Option KeyValue :=
  if cpSmbconfEol (cpLtrim option) then none
  else
    ((({ current := some [] } : SmbconfParser).isAKeyValue (cpLtrim option)).map entryPair).filter fun pair =>
      (optionConf isGlobal pair.key).isSome

def lastSetting (isGlobal : Bool) (options : List CStr) (key : CStr) : Option KeyValue :=
  ((options.filterMap (optionSetting isGlobal)).filter (asciiStrdown ·.key == key)).getLast?

def settingValue (old : Option CStr) : Option KeyValue → Option CStr
  | none => old
  | some pair => if pair.value = [] then none else some pair.value

theorem isSpace_eq_of_printable {byte : UInt8} (printable : cpPrintable byte = true) :
    Strtol.isSpace byte = isAsciiSpaceTab byte := by
  simp only [cpPrintable, Strtol.isSpace, isAsciiSpaceTab, Bool.or_eq_true, Bool.and_eq_true, decide_eq_true_eq,
    bne_iff_ne, beq_iff_eq, UInt8.le_iff_toNat_le, ne_eq, ← UInt8.toNat_inj] at *
  rw [Bool.eq_iff_iff]
  simp only [Bool.or_eq_true, Bool.and_eq_true, decide_eq_true_eq, beq_iff_eq, ← UInt8.toNat_inj,
    UInt8.reduceToNat] at *
  omega

theorem KeyLine.gStrstrip_key {key blanks value : CStr} (line : KeyLine key blanks value)
    (starts : Starts isAsciiSpaceTab key) : gStrstrip key = cpRtrim key := by
  have white : ∀ byte ∈ key, Strtol.isSpace byte = isAsciiSpaceTab byte :=
    fun byte member => isSpace_eq_of_printable (line.keyBytes byte member).1
  obtain ⟨first, rest, rfl⟩ := List.exists_cons_of_ne_nil line.keySome
  obtain ⟨tail, split, all⟩ := rdropWhile_split isAsciiSpaceTab rest
  have trimmed : first :: rest = cpRtrim (first :: rest) ++ tail := by rw [cpRtrim, List.cons_append, ← split]
  have front : Starts Strtol.isSpace (first :: rest) := by
    intro byte head
    rw [white byte (List.mem_of_mem_head? head)]
    exact starts byte head
  have back : Ends Strtol.isSpace (cpRtrim (first :: rest)) := by
    intro byte last
    rw [white byte (mem_of_mem_cpRtrim (List.mem_of_getLast? last))]
    exact ends_cpRtrim starts byte last
  have spaces : ∀ byte ∈ tail, Strtol.isSpace byte = true := by
    intro byte member
    rw [white byte (trimmed ▸ List.mem_append_right _ member)]
    exact all byte member
  rw [gStrstrip, dropWhile_of_starts front]
  conv_lhs => rw [trimmed]
  exact rdropWhile_blanks back spaces

/-- Whether a line is a key and its value depends on the parser only by its having a group. -/
theorem SmbconfParser.isAKeyValue_congr {parser other : SmbconfParser} (same : parser.current.isNone = other.current.isNone)
    (entry : CStr) : parser.isAKeyValue entry = other.isAKeyValue entry := by
  simp only [SmbconfParser.isAKeyValue, same]

theorem optionConf_some {isGlobal : Bool} {key : CStr} {conf : ShareConf} (found : optionConf isGlobal key = some conf) :
    asciiStrdown key = conf.key := by
  have := List.find?_some found
  simp only [shmShareConfig, Bool.and_eq_true, beq_iff_eq] at this
  rw [this.2.2, ShareConf.asciiStrdown_key]

theorem lookup_addKeyValue_erase {kv : HashTable CStr KeyValue} {key blanks value : CStr} (line : KeyLine key blanks value)
    (other : CStr) :
    (addKeyValue (kv.erase (asciiStrdown (cpRtrim key))) (key ++ 61 :: (blanks ++ value))).lookup other =
      if asciiStrdown (cpRtrim key) = other then (if value = [] then none else some ⟨cpRtrim key, value⟩)
      else kv.lookup other := by
  rw [addKeyValue_line line]
  generalize asciiStrdown (cpRtrim key) = folded
  have erased : folded ∉ kv.erase folded := by simp
  by_cases empty : value = []
  · rw [if_pos (.inl empty)]
    by_cases same : folded = other
    · subst same
      simp [empty]
    · rw [if_neg same, AList.lookup_erase_ne (Ne.symm same)]
  · rw [if_neg (by simp [empty])]
    by_cases same : folded = other
    · subst same
      simp [empty]
    · rw [if_neg same, AList.lookup_insert_ne (Ne.symm same), AList.lookup_erase_ne (Ne.symm same)]

namespace SmbconfParser
variable {parser base : SmbconfParser}

theorem Reading.applyOption {name : CStr} {group : SmbconfGroup} (reading : Reading base parser name group)
    (isGlobal : Bool) (option : CStr) :
    ∃ changed, Reading base (parser.applyOption isGlobal option) name changed ∧
      ∀ key, changed.kv.lookup key = match optionSetting isGlobal option with
        | some pair => if asciiStrdown pair.key = key then (if pair.value = [] then none else some pair)
          else group.kv.lookup key
        | none => group.kv.lookup key := by
  have same : parser.isAKeyValue (cpLtrim option) = ({ current := some [] } : SmbconfParser).isAKeyValue (cpLtrim option) :=
    isAKeyValue_congr (by rw [reading.current]; rfl) _
  simp only [SmbconfParser.applyOption, optionSetting, ← same]
  by_cases eol : cpSmbconfEol (cpLtrim option) = true
  · exact ⟨group, by simpa [eol] using reading, fun key => by simp [eol]⟩
  rcases accepted : parser.isAKeyValue (cpLtrim option) with _ | cut
  · exact ⟨group, by simpa [eol] using reading, fun key => by simp⟩
  obtain ⟨key, blanks, value, line, starts, rfl⟩ := keyLine_of_accepted accepted
  simp only [eol, Bool.false_eq_true, if_false, takeWhile_ne line.keyPlain, line.gStrstrip_key starts, Option.map_some,
    line.entryPair_eq]
  rcases found : optionConf isGlobal (cpRtrim key) with _ | conf
  · exact ⟨group, reading, fun other => by simp [Option.filter_some, found]⟩
  have keyed : asciiStrdown conf.key = asciiStrdown (cpRtrim key) := by
    rw [ShareConf.asciiStrdown_key, optionConf_some found]
  have changed :=
    (reading.modifyCurrent fun group => { group with kv := group.kv.erase (asciiStrdown conf.key) }).modifyCurrent
    fun group => { group with kv := addKeyValue group.kv (key ++ 61 :: (blanks ++ value)) }
  refine ⟨_, changed, fun other => ?_⟩
  simp only [Option.filter_some, found, Option.isSome_some, if_true, keyed]
  exact lookup_addKeyValue_erase line other

theorem addGroup_named (parser : SmbconfParser) (name : CStr) :
    ∃ group, Reading parser (parser.addGroup platform name) (shmCasefoldShareName platform name) group ∧
      ∀ key, group.kv.lookup key = parser.pair? (shmCasefoldShareName platform name) key := by
  by_cases old : shmCasefoldShareName platform name ∈ parser.groups
  · obtain ⟨group, found⟩ := mem_groups_iff.mp old
    refine ⟨group, ?_, fun key => by simp [pair?, found]⟩
    simp only [addGroup, old, if_true]
    exact ⟨rfl, found, fun _ _ => rfl⟩
  · exact ⟨_, addGroup_reading old, fun key => by simp [pair?, AList.lookup_eq_none.mpr old]⟩

/-- What options do to the named group, and that they do nothing else. -/
structure Configured (parser after : SmbconfParser) (named : CStr) (isGlobal : Bool) (options : List CStr) : Prop where
  groups : ∀ name, name ∈ after.groups ↔ name = named ∨ name ∈ parser.groups
  others : ∀ name key, name ≠ named → after.pair? name key = parser.pair? name key
  pairs : ∀ key, after.pair? named key = match lastSetting isGlobal options key with
    | some pair => if pair.value = [] then none else some pair
    | none => parser.pair? named key

end SmbconfParser

namespace SmbconfParser
variable {parser after again : SmbconfParser} {named : CStr} {isGlobal : Bool} {options : List CStr}

theorem Formed.pair_formed (formed : parser.Formed platform) {name key : CStr} {pair : KeyValue}
    (found : parser.pair? name key = some pair) : key = asciiStrdown pair.key ∧ pair.Formed := by
  obtain ⟨group, here, stored⟩ := Option.bind_eq_some_iff.mp found
  exact (formed.groups name group here).2.pairs key pair stored

/-- The file says what it said, but for the settings of the named group. -/
structure Updated (parser again : SmbconfParser) (named : CStr) (isGlobal : Bool) (options : List CStr) : Prop where
  groups : ∀ name, name ∈ again.groups ↔ name = named ∨ name ∈ parser.groups
  others : ∀ name key, name ≠ named → again.value? name key = parser.value? name key
  values : ∀ key, again.value? named key = settingValue (parser.value? named key) (lastSetting isGlobal options key)

/-- The file says what it said, but for the named group. -/
structure Removed (parser again : SmbconfParser) (named : CStr) : Prop where
  groups : ∀ name, name ∈ again.groups ↔ name ≠ named ∧ name ∈ parser.groups
  values : ∀ name key, name ≠ named → again.value? name key = parser.value? name key

theorem Configured.updated (configured : Configured parser after named isGlobal options) :
    Updated parser after named isGlobal options where
  groups := configured.groups
  others name key differs := by rw [value?, value?, configured.others name key differs]
  values key := by
    rw [value?, value?, configured.pairs]
    rcases lastSetting isGlobal options key with _ | pair
    · rfl
    · simp only [settingValue]
      split_ifs <;> rfl

end SmbconfParser

/-- A share command with its options; adding and updating are given at least one. -/
inductive ShareCommand where
  | add (option : CStr) (options : List CStr)
  | update (option : CStr) (options : List CStr)
  | delete

namespace ShareCommand
open SmbconfParser

/-- The command on a file that was read into `parser`. -/
def run (platform : Platform) (writes : Bool) (file : List UInt8) (parser : SmbconfParser) (name : CStr) :
    ShareCommand → Option CommandResult
  | .add option options => parser.commandAddShare platform writes file name (option :: options)
  | .update option options => parser.commandUpdateShare platform writes file name (option :: options)
  | .delete => parser.commandDeleteShare platform writes file name

def Gives (platform : Platform) (parser again : SmbconfParser) (name : CStr) : ShareCommand → Prop
  | .add option options | .update option options =>
    Updated parser again (shmCasefoldShareName platform name)
      (decide (shmCasefoldShareName platform name = shmCasefoldShareName platform globalName)) (option :: options)
  | .delete => Removed parser again (shmCasefoldShareName platform name)

end ShareCommand

namespace SmbconfParser
variable {parser after : SmbconfParser}

end SmbconfParser

namespace Scenario
open Management.Scenario

end Scenario

end KsmbdTools.Config
