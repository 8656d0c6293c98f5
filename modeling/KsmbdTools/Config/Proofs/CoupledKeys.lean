import KsmbdTools.Flags
import KsmbdTools.Config.Proofs.Inheritance

/-! Keys that drive one flag together: `read only` with its opposites, and `vfs objects`
with `streams` and `acl xattr`. -/

namespace KsmbdTools.Config
open Management

variable {platform : Platform} {flags flag other yes no : UInt32}

theorem testFlag_boolFlag_other (apart : flag &&& other = 0) (value : Option CStr) :
    testFlag (boolFlag flag value flags) other = testFlag flags other := by
  cases value with
  | none => rfl
  | some v =>
    simp only [boolFlag]
    split_ifs
    · exact testFlag_setFlag_other apart
    · exact testFlag_clearFlag_other apart

theorem testFlag_boolFlag_self (nonzero : flag ≠ 0) (value : Option CStr) :
    testFlag (boolFlag flag value flags) flag = (value.map cpGetGroupKvBool).getD (testFlag flags flag) := by
  cases value with
  | none => rfl
  | some v =>
    simp only [boolFlag]
    cases read : cpGetGroupKvBool v
    · simpa [read] using testFlag_clearFlag_self flags flag
    · simpa [read] using testFlag_setFlag_self nonzero

theorem testFlag_eitherFlag_other (first : yes &&& other = 0) (second : no &&& other = 0) (value : Option CStr) :
    testFlag (eitherFlag yes no value flags) other = testFlag flags other := by
  cases value with
  | none => rfl
  | some v =>
    simp only [eitherFlag]
    split_ifs
    · rw [testFlag_clearFlag_other second, testFlag_setFlag_other first]
    · rw [testFlag_setFlag_other second, testFlag_clearFlag_other first]

theorem testFlag_eitherFlag_yes (nonzero : yes ≠ 0) (apart : no &&& yes = 0) (value : Option CStr) :
    testFlag (eitherFlag yes no value flags) yes = (value.map cpGetGroupKvBool).getD (testFlag flags yes) := by
  cases value with
  | none => rfl
  | some v =>
    simp only [eitherFlag, Option.map_some, Option.getD_some]
    cases cpGetGroupKvBool v
    · simp only [Bool.false_eq_true, if_false]
      rw [testFlag_setFlag_other apart, testFlag_clearFlag_self]
    · simp only [if_true]
      rw [testFlag_clearFlag_other apart, testFlag_setFlag_self nonzero]

theorem testFlag_eitherFlag_no (nonzero : no ≠ 0) (value : Option CStr) :
    testFlag (eitherFlag yes no value flags) no = (value.map fun v => !cpGetGroupKvBool v).getD (testFlag flags no) := by
  cases value with
  | none => rfl
  | some v =>
    simp only [eitherFlag, Option.map_some, Option.getD_some]
    cases cpGetGroupKvBool v
    · simp only [Bool.false_eq_true, if_false]
      exact testFlag_setFlag_self nonzero
    · simp only [if_true]
      exact testFlag_clearFlag_self _ _

theorem testFlag_vfsFlags_other (acl : ShareFlag.aclXattr &&& other = 0) (streams : ShareFlag.streams &&& other = 0)
    (value : Option CStr) : testFlag (vfsFlags value flags) other = testFlag flags other := by
  cases value with
  | none => rfl
  | some v =>
    have kept : ∀ (objects : List CStr) (flags : UInt32), testFlag (objects.foldl (fun flags object =>
        if object = ascii "acl_xattr" then setFlag flags ShareFlag.aclXattr
        else if object = ascii "streams_xattr" then setFlag flags ShareFlag.streams
        else flags) flags) other = testFlag flags other := by
      intro objects
      induction objects with
      | nil => exact fun _ => rfl
      | cons object rest ih =>
        intro flags
        rw [List.foldl_cons, ih]
        split_ifs
        · exact testFlag_setFlag_other acl
        · exact testFlag_setFlag_other streams
        · rfl
    rw [vfsFlags, kept, testFlag_clearFlag_other streams, testFlag_clearFlag_other acl]

def writeKeys : List ShareConf := [.readOnly, .writable, .writeable, .writeOk]

def writeMeaning (key : ShareConf) (v : CStr) : Bool :=
  if key = .readOnly then !cpGetGroupKvBool v else cpGetGroupKvBool v

/-- Whether a share may be written to, by the first of the keys that has a value. -/
def writeSetting (value : ShareConf → Option CStr) : Option Bool :=
  writeKeys.findSome? fun key => (value key).map (writeMeaning key)

theorem writeSetting_eq (value : ShareConf → Option CStr) :
    writeSetting value = ((value .readOnly).map fun v => !cpGetGroupKvBool v).or
      (((value .writable).or ((value .writeable).or (value .writeOk))).map cpGetGroupKvBool) := by
  simp only [writeSetting, writeKeys, List.findSome?_cons, List.findSome?_nil]
  rcases value .readOnly with _ | v
  · rcases value .writable with _ | v
    · rcases value .writeable with _ | v
      · rcases value .writeOk with _ | v <;> rfl
      · rfl
    · rfl
  · rfl

theorem testFlag_writing (value : ShareConf → Option CStr) (written : Bool) :
    testFlag (shareConfFlags value) (if written then ShareFlag.writeable else ShareFlag.readonly) =
      (writeSetting value == some written) := by
  rw [writeSetting_eq]
  cases written
  all_goals
    simp (disch := decide) only [shareConfFlags, testFlag_boolFlag_other, testFlag_eitherFlag_other,
      testFlag_vfsFlags_other, Bool.false_eq_true, if_true, if_false]
    rcases value .readOnly with _ | v
    · simp (disch := decide) only [Option.isSome_none, Bool.false_eq_true, if_false, testFlag_eitherFlag_yes,
        testFlag_boolFlag_other, testFlag_eitherFlag_no, testFlag_zero, Option.map_none, Option.getD_none, Option.none_or]
      rcases (value .writable).or ((value .writeable).or (value .writeOk)) with _ | v
      · rfl
      · cases read : cpGetGroupKvBool v <;> simp [read]
    · simp (disch := decide) only [Option.isSome_some, if_true, testFlag_boolFlag_other, testFlag_eitherFlag_no,
        testFlag_eitherFlag_yes]
      cases read : cpGetGroupKvBool v <;> simp [read]

theorem testFlag_writeable (value : ShareConf → Option CStr) :
    testFlag (shareConfFlags value) ShareFlag.writeable = (writeSetting value == some true) := testFlag_writing value true

theorem testFlag_readonly (value : ShareConf → Option CStr) :
    testFlag (shareConfFlags value) ShareFlag.readonly = (writeSetting value == some false) := testFlag_writing value false

theorem testFlag_streams {value : ShareConf → Option CStr} {v : CStr} (set : value .streams = some v) :
    testFlag (shareConfFlags value) ShareFlag.streams = cpGetGroupKvBool v := by
  simp (disch := decide) only [shareConfFlags, testFlag_boolFlag_other, testFlag_eitherFlag_yes, set, Option.map_some,
    Option.getD_some]

theorem testFlag_aclXattr {value : ShareConf → Option CStr} {v : CStr} (set : value .aclXattr = some v) :
    testFlag (shareConfFlags value) ShareFlag.aclXattr = cpGetGroupKvBool v := by
  simp (disch := decide) only [shareConfFlags, testFlag_boolFlag_other, testFlag_boolFlag_self, set, Option.map_some,
    Option.getD_some]

theorem testFlag_shareFlags (state : State) (group : ShareGroup)
    (own : flag ∈ [ShareFlag.readonly, ShareFlag.writeable, ShareFlag.streams, ShareFlag.aclXattr]) :
    testFlag (state.shareFlags group) flag = testFlag group.flags flag := by
  have apart : ∀ flag ∈ [ShareFlag.readonly, ShareFlag.writeable, ShareFlag.streams, ShareFlag.aclXattr],
      ShareFlag.available &&& flag = 0 ∧ ShareFlag.pipe &&& flag = 0 ∧ ShareFlag.update &&& flag = 0 := by
    intro flag listed
    simp only [List.mem_cons, List.not_mem_nil, or_false] at listed
    rcases listed with rfl | rfl | rfl | rfl <;> decide
  obtain ⟨available, pipe, update⟩ := apart flag own
  simp only [State.shareFlags]
  split_ifs <;> simp only [testFlag_setFlag_other update, testFlag_setFlag_other pipe, testFlag_setFlag_other available]

/-- What `[global]` says by keys that have precedence over those of the share. -/
def precedingSetting (own global : ShareConf → Option CStr) : Option Bool :=
  (writeKeys.takeWhile fun key => (own key).isNone).findSome? fun key => (global key).map (writeMeaning key)

theorem writeSetting_or (own global : ShareConf → Option CStr) {key : ShareConf} (member : key ∈ writeKeys)
    (set : (own key).isSome = true) :
    writeSetting (fun key => (own key).or (global key)) = (precedingSetting own global).or (writeSetting own) := by
  have all : ∀ keys : List ShareConf, key ∈ keys →
      (keys.findSome? fun key => ((own key).or (global key)).map (writeMeaning key)) =
        ((keys.takeWhile fun key => (own key).isNone).findSome? fun key => (global key).map (writeMeaning key)).or
          (keys.findSome? fun key => (own key).map (writeMeaning key)) := by
    intro keys
    induction keys with
    | nil => simp
    | cons first rest ih =>
      intro inside
      rcases given : own first with _ | v
      · have later : key ∈ rest := by
          rcases List.mem_cons.mp inside with rfl | later
          · simp [given] at set
          · exact later
        rw [List.takeWhile_cons_of_pos (by simp [given]), List.findSome?_cons, List.findSome?_cons, List.findSome?_cons,
          given, Option.none_or]
        rcases global first with _ | w
        · exact ih later
        · rfl
      · rw [List.takeWhile_cons_of_neg (by simp [given]), List.findSome?_cons, List.findSome?_cons, given]
        rfl
  exact all writeKeys member

def OwnWriting (own : ShareConf → Option CStr) (flags : UInt32) : Prop :=
  (∃ key ∈ writeKeys, (own key).isSome = true) →
    testFlag flags ShareFlag.readonly = (writeSetting own == some false) ∧
      testFlag flags ShareFlag.writeable = (writeSetting own == some true)

/-- The listed objects alone decide about streams and access lists. -/
def OwnObjects (own global : ShareConf → Option CStr) (flags : UInt32) : Prop :=
  ∀ v, own .vfsObjects = some v → own .streams = none → own .aclXattr = none → global .streams = none →
    global .aclXattr = none → (testFlag flags ShareFlag.streams = true ↔ ascii "streams_xattr" ∈ cpGetGroupKvList v) ∧
      (testFlag flags ShareFlag.aclXattr = true ↔ ascii "acl_xattr" ∈ cpGetGroupKvList v)

/-- No key of `[global]` with precedence over those of the share says otherwise. -/
def NotOverruled (own global : ShareConf → Option CStr) : Prop :=
  (∃ key ∈ writeKeys, (own key).isSome = true) →
    precedingSetting own global = none ∨ precedingSetting own global = writeSetting own

/-- None of the two objects is listed where the default of its key clears it. -/
def NoneListed (own global : ShareConf → Option CStr) : Prop :=
  ∀ v, own .vfsObjects = some v → own .streams = none → own .aclXattr = none → global .streams = none →
    global .aclXattr = none → ascii "streams_xattr" ∉ cpGetGroupKvList v ∧ ascii "acl_xattr" ∉ cpGetGroupKvList v

theorem writeSetting_flags_iff {first second : Option Bool} (some : second.isSome = true) :
    (((first == Option.some false) = (second == Option.some false) ∧
      (first == Option.some true) = (second == Option.some true)) ↔ first = second) := by
  rcases first with _ | _ | _ <;> rcases second with _ | _ | _ <;> simp_all

theorem writeSetting_isSome {value : ShareConf → Option CStr} {key : ShareConf} (member : key ∈ writeKeys)
    (set : (value key).isSome = true) : (writeSetting value).isSome = true := by
  rw [writeSetting, List.findSome?_isSome_iff]
  exact ⟨key, member, by rwa [Option.isSome_map]⟩

theorem ownWriting_iff {own global : ShareConf → Option CStr} (value : ShareConf → Option CStr) {flags : UInt32}
    (inherits : ∀ key ∈ writeKeys, value key = (own key).or (global key))
    (read : testFlag flags ShareFlag.readonly = (writeSetting value == some false))
    (write : testFlag flags ShareFlag.writeable = (writeSetting value == some true)) :
    OwnWriting own flags ↔ NotOverruled own global := by
  have same : writeSetting value = writeSetting fun key => (own key).or (global key) := by
    have rows := inherits
    simp only [writeKeys, List.mem_cons, List.not_mem_nil, or_false, forall_eq_or_imp, forall_eq] at rows
    simp only [writeSetting, writeKeys, List.findSome?_cons, List.findSome?_nil, rows]
  unfold OwnWriting NotOverruled
  refine imp_congr_right fun ⟨key, member, set⟩ => ?_
  rw [read, write, same, writeSetting_or own global member set, writeSetting_flags_iff (writeSetting_isSome member set)]
  cases precedingSetting own global <;> simp

theorem ownObjects_iff {own global : ShareConf → Option CStr} (value : ShareConf → Option CStr) {flags : UInt32}
    (inherits : ∀ key ∈ [ShareConf.streams, .aclXattr], value key = ((own key).or (global key)).or (some (ascii "no")))
    (streams : ∀ v, value .streams = some v → testFlag flags ShareFlag.streams = cpGetGroupKvBool v)
    (acl : ∀ v, value .aclXattr = some v → testFlag flags ShareFlag.aclXattr = cpGetGroupKvBool v) :
    OwnObjects own global flags ↔ NoneListed own global := by
  unfold OwnObjects NoneListed
  refine forall_congr' fun v => imp_congr_right fun _ => imp_congr_right fun noStreams => imp_congr_right fun noAcl =>
    imp_congr_right fun noStreams' => imp_congr_right fun noAcl' => ?_
  have cleared := streams (ascii "no") (by rw [inherits _ (by simp), noStreams, noStreams']; rfl)
  have dropped := acl (ascii "no") (by rw [inherits _ (by simp), noAcl, noAcl']; rfl)
  rw [cleared, dropped, show cpGetGroupKvBool (ascii "no") = false by decide]
  simp

/-- A share has the flags of its own section, exactly if no key of `[global]` overrules it
and no listed object is cleared by a default. -/
theorem coupled_keys_iff (platform : Platform)
    (apart : shmCasefoldShareName platform globalName ≠ shmCasefoldShareName platform ipcName) (reloading : Bool)
    (guest : Option CStr → Bool) (start conf : GlobalConf) (file : List UInt8) (parser : SmbconfParser)
    (loaded : cpParseSmbconf platform reloading guest start file = some (conf, parser)) (name : CStr)
    (group : SmbconfGroup) (found : parser.groups.lookup name = some group)
    (share : name ≠ shmCasefoldShareName platform globalName) (state : State) :
    (OwnWriting (givenValue platform file name)
        (state.shareFlags (shareGroup group.name (parser.ipc == some name) (SmbconfParser.shareValue group))) ∧
      OwnObjects (givenValue platform file name) (givenValue platform file (shmCasefoldShareName platform globalName))
        (state.shareFlags (shareGroup group.name (parser.ipc == some name) (SmbconfParser.shareValue group)))) ↔
      NotOverruled (givenValue platform file name) (givenValue platform file (shmCasefoldShareName platform globalName)) ∧
        NoneListed (givenValue platform file name)
          (givenValue platform file (shmCasefoldShareName platform globalName)) := by
  obtain ⟨-, values⟩ := loaded_values apart loaded
  have member := SmbconfParser.mem_groups_iff.mpr ⟨group, found⟩
  have value : ∀ key : ShareConf, key.isBroken = false → key ≠ .comment → key ≠ .guestOk →
      SmbconfParser.shareValue group key = inheritedValue platform file name key := by
    intro key whole comment guestOk
    rw [SmbconfParser.shareValue_eq found]
    exact values name member share key whole fun _ => ⟨comment, guestOk⟩
  refine and_congr (ownWriting_iff (SmbconfParser.shareValue group) (fun key inside => ?_) ?_ ?_)
    (ownObjects_iff (SmbconfParser.shareValue group) (fun key inside => ?_) ?_ ?_)
  · simp only [writeKeys, List.mem_cons, List.not_mem_nil, or_false] at inside
    rcases inside with rfl | rfl | rfl | rfl <;> rw [value _ (by decide) (by decide) (by decide), inheritedValue] <;>
      simp [ShareConf.isGlobal, ShareConf.defconf, cpSmbconfEol, ascii, startsComment]
  · rw [testFlag_shareFlags _ _ (by simp)]
    exact testFlag_readonly _
  · rw [testFlag_shareFlags _ _ (by simp)]
    exact testFlag_writeable _
  · simp only [List.mem_cons, List.not_mem_nil, or_false] at inside
    rcases inside with rfl | rfl <;> rw [value _ (by decide) (by decide) (by decide), inheritedValue,
      Option.or_assoc] <;> rfl
  · intro v set
    rw [testFlag_shareFlags _ _ (by simp)]
    exact testFlag_streams set
  · intro v set
    rw [testFlag_shareFlags _ _ (by simp)]
    exact testFlag_aclXattr set

namespace Scenario

/-- A share that may be written to by its own section, and is read-only in `[global]`. -/
def overruledFile : List UInt8 :=
  ascii "[global]" ++ [10] ++ ascii "read only = yes" ++ [10] ++ ascii "[s]" ++ [10] ++ ascii "writable = yes" ++ [10] ++
    ascii "[t]" ++ [10] ++ ascii "vfs objects = streams_xattr acl_xattr" ++ [10]

/-- The share says the same as `[global]`, and lists no object. -/
def agreedFile : List UInt8 :=
  ascii "[global]" ++ [10] ++ ascii "writable = no" ++ [10] ++ ascii "[s]" ++ [10] ++ ascii "read only = no" ++ [10]

end Scenario

theorem coupled_keys_agreed :
    ∃ conf parser group, cpParseSmbconf Management.Scenario.plainPlatform false (fun _ => true) {} Scenario.agreedFile =
        some (conf, parser) ∧ parser.groups.lookup (ascii "s") = some group ∧
      OwnWriting (givenValue Management.Scenario.plainPlatform Scenario.agreedFile (ascii "s"))
        (({} : State).shareFlags
          (shareGroup group.name (parser.ipc == some (ascii "s")) (SmbconfParser.shareValue group))) := by
  have accepted : (cpParseSmbconf Management.Scenario.plainPlatform false (fun _ => true) {} Scenario.agreedFile).isSome =
      true := by decide +kernel
  obtain ⟨⟨conf, parser⟩, loaded⟩ := Option.isSome_iff_exists.mp accepted
  obtain ⟨groups, -⟩ := loaded_values (by decide +kernel) loaded
  obtain ⟨group, found⟩ := SmbconfParser.mem_groups_iff.mp ((groups (ascii "s")).mpr (by decide +kernel))
  refine ⟨conf, parser, group, loaded, found, ((coupled_keys_iff _ (by decide +kernel) _ _ _ conf _ parser loaded _ group
    found (by decide +kernel) {}).mpr ⟨fun _ => .inl (by decide +kernel), fun v listed => ?_⟩).1⟩
  have none : givenValue Management.Scenario.plainPlatform Scenario.agreedFile (ascii "s") .vfsObjects = none := by
    decide +kernel
  rw [none] at listed
  cases listed

/-- `[s]` is not writable though it says so, and `[t]` has neither of its objects. -/
theorem coupled_keys_overruled :
    ∃ conf parser s t, cpParseSmbconf Management.Scenario.plainPlatform false (fun _ => true) {} Scenario.overruledFile =
        some (conf, parser) ∧ parser.groups.lookup (ascii "s") = some s ∧ parser.groups.lookup (ascii "t") = some t ∧
      ¬OwnWriting (givenValue Management.Scenario.plainPlatform Scenario.overruledFile (ascii "s"))
        (({} : State).shareFlags (shareGroup s.name (parser.ipc == some (ascii "s")) (SmbconfParser.shareValue s))) ∧
      ¬OwnObjects (givenValue Management.Scenario.plainPlatform Scenario.overruledFile (ascii "t"))
        (givenValue Management.Scenario.plainPlatform Scenario.overruledFile (ascii "global"))
        (({} : State).shareFlags (shareGroup t.name (parser.ipc == some (ascii "t")) (SmbconfParser.shareValue t))) := by
  have accepted : (cpParseSmbconf Management.Scenario.plainPlatform false (fun _ => true) {} Scenario.overruledFile).isSome =
      true := by decide +kernel
  obtain ⟨⟨conf, parser⟩, loaded⟩ := Option.isSome_iff_exists.mp accepted
  obtain ⟨groups, values⟩ := loaded_values (by decide +kernel) loaded
  obtain ⟨s, first⟩ := SmbconfParser.mem_groups_iff.mp ((groups (ascii "s")).mpr (by decide +kernel))
  obtain ⟨t, second⟩ := SmbconfParser.mem_groups_iff.mp ((groups (ascii "t")).mpr (by decide +kernel))
  have readOnly : SmbconfParser.shareValue s .readOnly = some (ascii "yes") := by
    rw [SmbconfParser.shareValue_eq first, values _ (SmbconfParser.mem_groups_iff.mpr ⟨s, first⟩) (by decide +kernel) _ rfl
      (by decide +kernel)]
    decide +kernel
  have streams : SmbconfParser.shareValue t .streams = some (ascii "no") := by
    rw [SmbconfParser.shareValue_eq second, values _ (SmbconfParser.mem_groups_iff.mpr ⟨t, second⟩) (by decide +kernel) _ rfl
      (by decide +kernel)]
    decide +kernel
  refine ⟨conf, parser, s, t, loaded, first, second, fun writing => ?_, fun objects => ?_⟩
  · have written := (writing ⟨.writable, by decide, by decide +kernel⟩).2
    rw [testFlag_shareFlags _ _ (by simp), shareGroup, testFlag_writeable, writeSetting_eq, readOnly, Option.map_some,
      Option.some_or] at written
    revert written
    decide +kernel
  · have listed := (objects (ascii "streams_xattr acl_xattr") (by decide +kernel) (by decide +kernel)
      (by decide +kernel) (by decide +kernel) (by decide +kernel)).1
    rw [testFlag_shareFlags _ _ (by simp), shareGroup, testFlag_streams streams] at listed
    revert listed
    decide +kernel

end KsmbdTools.Config
