import KsmbdTools.Config.Proofs.Inheritance

/-! Numeric limits: a value is narrowed to its field before it is checked. -/

namespace KsmbdTools.Config
open Management

variable {platform : Platform}

structure Numeral (text : CStr) (number : Nat) : Prop where
  some : text ≠ []
  digits : ∀ byte ∈ text, Strtol.isDigit byte = true
  leading : text.head? = Option.some 48 → text = [48]
  value : Strtol.value text = number

namespace Numeral
variable {text : CStr} {number : Nat}

theorem isDigit_bounds {byte : UInt8} (digit : Strtol.isDigit byte = true) : 48 ≤ byte.toNat ∧ byte.toNat ≤ 57 := by
  simpa [Strtol.isDigit, UInt8.le_iff_toNat_le] using digit

theorem digit?_ten {byte : UInt8} (digit : Strtol.isDigit byte = true) :
    Strtoul.digit? 10 byte = Option.some (byte.toNat - 48) := by
  obtain ⟨-, high⟩ := isDigit_bounds digit
  simp only [Strtoul.digit?, digit, if_true]
  rw [Option.filter_some_pos]
  exact decide_eq_true (by omega)

theorem value_ten (digits : ∀ byte ∈ text, Strtol.isDigit byte = true) :
    Strtoul.value 10 text = Strtol.value text := by
  have all : ∀ total, text.foldl (fun total byte => 10 * total + (Strtoul.digit? 10 byte).getD 0) total =
      text.foldl (fun total digit => 10 * total + (digit.toNat - 48)) total := by
    induction text with
    | nil => exact fun _ => rfl
    | cons byte rest ih =>
      intro total
      rw [List.foldl_cons, List.foldl_cons, digit?_ten (digits byte List.mem_cons_self), Option.getD_some]
      exact ih (fun other later => digits other (List.mem_cons_of_mem _ later)) _
  exact all 0

theorem takeWhile_digits {digit : UInt8 → Bool} {tail : CStr} (digits : ∀ byte ∈ text, digit byte = true)
    (stops : ∀ byte ∈ tail.head?, digit byte = false) : (text ++ tail).takeWhile digit = text := by
  rw [List.takeWhile_append_of_pos digits]
  cases tail with
  | nil => rw [List.takeWhile_nil, List.append_nil]
  | cons byte rest => rw [List.takeWhile_cons_of_neg (by rw [stops byte rfl]; exact Bool.false_ne_true), List.append_nil]

theorem strtoul_ten (numeral : Numeral text number) (fits : number < 2 ^ 64) {tail : CStr}
    (stops : ∀ byte ∈ tail.head?, (Strtoul.digit? 10 byte).isSome = false) {base : Nat}
    (detected : Strtoul.detectBase base (text ++ tail) = (10, text ++ tail)) :
    Strtoul.strtoul base (text ++ tail) = ⟨number, tail, true, false⟩ := by
  obtain ⟨first, rest, split⟩ := List.exists_cons_of_ne_nil numeral.some
  obtain ⟨low, high⟩ := isDigit_bounds (numeral.digits first (by simp [split]))
  have space : Strtol.isSpace first = false := by
    have apart : first ≠ 32 := by rintro rfl; simp at low
    simp only [Strtol.isSpace, Bool.or_eq_false_iff, beq_eq_false_iff_ne, ne_eq, apart, not_false_eq_true, true_and,
      Bool.and_eq_false_iff, decide_eq_false_iff_not, UInt8.le_iff_toNat_le]
    right
    simp only [UInt8.reduceToNat]
    omega
  have signless (sign : UInt8) (small : sign.toNat < 48) : (text ++ tail).head? ≠ Option.some sign := by
    rw [split, List.cons_append, List.head?_cons]
    rintro equal
    rw [Option.some.inj equal] at low
    omega
  have body : (text ++ tail).dropWhile Strtol.isSpace = text ++ tail := by
    rw [split, List.cons_append, List.dropWhile_cons_of_neg (by simp [space])]
  have all : (text ++ tail).takeWhile (fun byte => (Strtoul.digit? 10 byte).isSome) = text :=
    takeWhile_digits (fun byte member => by rw [digit?_ten (numeral.digits byte member)]; rfl) stops
  have small : ¬ 2 ^ 64 ≤ Strtoul.value 10 text := by rw [value_ten numeral.digits, numeral.value]; omega
  simp only [Strtoul.strtoul, body, beq_eq_false_iff_ne.mpr (signless 45 (by decide)),
    beq_eq_false_iff_ne.mpr (signless 43 (by decide)), Bool.or_self, Bool.false_eq_true, if_false, detected, all,
    List.isEmpty_eq_false_iff.mpr numeral.some, small, List.drop_left]
  rw [value_ten numeral.digits, numeral.value]

theorem cpGetGroupKvLong_eq (numeral : Numeral text number) (fits : number < 2 ^ 64) : cpGetGroupKvLong text = number := by
  have read : Strtoul.strtoul 10 text = ⟨number, [], true, false⟩ := by
    simpa only [List.append_nil] using @strtoul_ten text number numeral fits [] (fun _ none => by cases none) 10 rfl
  rw [cpGetGroupKvLong, cpGetGroupKvLongBase, read]
  rfl

/-- A numeral is read whole, without a base in front; a zero is read as an octal one. -/
theorem strtoul_zero (numeral : Numeral text number) (fits : number < 2 ^ 64) {tail : CStr}
    (stops : ∀ byte ∈ tail.head?, (Strtoul.digit? 10 byte).isSome = false)
    (unmarked : ∀ byte ∈ tail.head?, asciiLower byte ≠ 120) :
    Strtoul.strtoul 0 (text ++ tail) = ⟨number, tail, true, false⟩ := by
  by_cases zero : text.head? = Option.some 48
  · obtain rfl := numeral.leading zero
    have detected : Strtoul.detectBase 0 (48 :: tail) = (8, 48 :: tail) := by
      cases tail with
      | nil => rfl
      | cons mark rest =>
        cases rest with
        | nil => rfl
        | cons byte rest =>
          have plain : (asciiLower mark == 120) = false := beq_eq_false_iff_ne.mpr (unmarked mark rfl)
          simp only [Strtoul.detectBase, ne_eq, not_true_eq_false, if_false, plain, Bool.false_and, Bool.false_eq_true]
    have octal : ∀ byte ∈ tail.head?, (Strtoul.digit? 8 byte).isSome = false := by
      intro byte first
      have none := stops byte first
      unfold Strtoul.digit? at none ⊢
      generalize (if Strtol.isDigit byte = true then _ else _ : Option Nat) = value at none ⊢
      cases value with
      | none => rfl
      | some value =>
        simp only [Option.isSome_filter, Option.any_some, decide_eq_false_iff_not] at none ⊢
        omega
    have all : (48 :: tail).takeWhile (fun byte => (Strtoul.digit? 8 byte).isSome) = [48] :=
      @takeWhile_digits [48] _ tail (by decide +kernel) octal
    have value : Strtoul.value 8 [48] = 0 := by decide
    have number_eq : number = 0 := by rw [← numeral.value]; decide
    have body : (48 :: tail).dropWhile Strtol.isSpace = 48 :: tail := List.dropWhile_cons_of_neg (by decide)
    have signless : ((48 :: tail).head? == Option.some 45) = false ∧ ((48 :: tail).head? == Option.some 43) = false :=
      ⟨rfl, rfl⟩
    rw [List.singleton_append]
    simp only [Strtoul.strtoul, body, signless.1, signless.2, Bool.or_self, Bool.false_eq_true, if_false, detected, all,
      List.isEmpty_cons, value, List.length_singleton, List.drop_succ_cons, List.drop_zero, number_eq]
    rfl
  · have detected : Strtoul.detectBase 0 (text ++ tail) = (10, text ++ tail) := by
      obtain ⟨first, rest, rfl⟩ := List.exists_cons_of_ne_nil numeral.some
      have apart : first ≠ 48 := fun same => zero (by rw [same]; rfl)
      simp [Strtoul.detectBase, apart]
    exact numeral.strtoul_ten fits stops detected

theorem cpMemparse_eq (numeral : Numeral text number) (fits : number < 2 ^ 64) : cpMemparse text = number := by
  have read : Strtoul.strtoul 0 text = ⟨number, [], true, false⟩ := by
    simpa only [List.append_nil] using
      @strtoul_zero text number numeral fits [] (fun _ none => by cases none) (fun _ none => by cases none)
  rw [cpMemparse, read]
  rfl

end Numeral

namespace SmbconfParser
variable {parser : SmbconfParser}

theorem pair?_addEntries_some {here name key : CStr} {pair : KeyValue} {entries : List CStr}
    (current : parser.current = some here) (member : here ∈ parser.groups) (stored : parser.pair? name key = some pair) :
    (entries.foldl addGroupKeyValue parser).pair? name key = some pair := by
  induction entries generalizing parser with
  | nil => exact stored
  | cons entry rest ih =>
    rw [List.foldl_cons]
    refine ih (by rw [addGroupKeyValue_current, current]) (mem_addGroupKeyValue.mpr member) ?_
    rw [pair?_addGroupKeyValue current member, stored, Option.some_or]

end SmbconfParser

theorem stealParams_field {α : Type} (field : GlobalConf → α) (reloading : Bool) {params : List GlobalParam}
    (leaves : ∀ param ∈ params, ∀ v conf, field (param.set v conf) = field conf)
    (state : HashTable CStr KeyValue × GlobalConf) :
    field (params.foldl (stealParam reloading) state).2 = field state.2 := by
  induction params generalizing state with
  | nil => rfl
  | cons param rest ih =>
    rw [List.foldl_cons, ih fun other later => leaves other (List.mem_cons_of_mem _ later)]
    simp only [stealParam]
    split
    · rfl
    · cases reloading
      · exact leaves param List.mem_cons_self _ _
      · rfl

theorem stealParams_at {α : Type} (field : GlobalConf → α) {front back : List GlobalParam} {param : GlobalParam}
    {pair : KeyValue} {result : α} {state : HashTable CStr KeyValue × GlobalConf}
    (others : ∀ other ∈ front, param.key ≠ other.key)
    (before : ∀ other ∈ front, ∀ v conf, field (other.set v conf) = field conf)
    (behind : ∀ other ∈ back, ∀ v conf, field (other.set v conf) = field conf)
    (stored : state.1.lookup param.key = some pair)
    (sets : ∀ conf, field conf = field state.2 → field (param.set pair.value conf) = result) :
    field ((front ++ param :: back).foldl (stealParam false) state).2 = result := by
  have kept := stealParams_field field false before state
  have still := lookup_stealParams false others state
  rw [List.foldl_append, List.foldl_cons, stealParams_field field false behind]
  generalize front.foldl (stealParam false) state = middle at kept still
  obtain ⟨kv, conf⟩ := middle
  simp only [stealParam, still, stored, Bool.false_eq_true, if_false]
  exact sets conf kept

/-- Where a parameter that is set in the file ends up: its field, behind all the others. -/
theorem loaded_field {α : Type} (field : GlobalConf → α) {file : List UInt8} {guest : Option CStr → Bool}
    {start conf : GlobalConf} {parser : SmbconfParser} {front back : List GlobalParam} {param : GlobalParam}
    {pair : KeyValue} {result : α} (loaded : cpParseSmbconf platform false guest start file = some (conf, parser))
    (split : trailingParams = front ++ param :: back)
    (given : firstGiven (assignments platform none (fileEntries file)) (shmCasefoldShareName platform globalName) param.key =
      some pair)
    (others : ∀ other ∈ leadingParams ++ front, param.key ≠ other.key)
    (before : ∀ other ∈ leadingParams ++ front, ∀ v conf, field (other.set v conf) = field conf)
    (behind : ∀ other ∈ back, ∀ v conf, field (other.set v conf) = field conf)
    (sets : ∀ conf, field conf = field start → field (param.set pair.value conf) = result) : field conf = result := by
  unfold cpParseSmbconf at loaded
  split at loaded
  · cases loaded
  · rename_i parsed ran
    have accepted : (parseEntries (SmbconfParser.processSmbconfEntry platform) {} (fileEntries file)).2 = true :=
      congrArg Prod.snd ran
    have first : (parseEntries (SmbconfParser.processSmbconfEntry platform) {} (fileEntries file)).1 = parsed :=
      congrArg Prod.fst ran
    have formed : parsed.Formed platform := first ▸ SmbconfParser.Formed.empty.parseEntries _
    have stored : parsed.pair? (shmCasefoldShareName platform globalName) param.key = some pair := by
      rw [← first, SmbconfParser.pair?_parseEntries SmbconfParser.Formed.empty accepted]
      exact given
    obtain ⟨set, -, -⟩ := SmbconfParser.addGlobal_pairs formed false
    obtain ⟨kv, processed, -⟩ := SmbconfParser.finalized_eq_some loaded
    have found : (parsed.addGlobal platform false).globalKv.lookup param.key = some pair := by
      rw [SmbconfParser.globalKv_lookup set, SmbconfParser.addGlobal]
      exact SmbconfParser.pair?_addEntries_some (SmbconfParser.addGroup_current _ _)
        (SmbconfParser.mem_addGroup.mpr (.inl rfl)) (by rw [SmbconfParser.pair?_addGroup, stored])
    simp only [processGlobalConfKv, Option.ite_none_right_eq_some, Option.some.injEq] at processed
    have last : _ = conf := congrArg Prod.snd processed.2
    rw [← last, ← List.foldl_append, split, ← List.append_assoc]
    exact stealParams_at field others before behind found sets

/-- The numeric settings with a range; the last is the one of a share. -/
inductive Limit where
  | tcpPort
  | ipcTimeout
  | maxConnections
  | maxIpConnections
  | maxActiveSessions
  | maxWorkerThreads
  | shareMaxConnections (name : CStr)

namespace Limit

def key : Limit → CStr
  | .tcpPort => ascii "tcp port"
  | .ipcTimeout => ascii "ipc timeout"
  | .maxConnections => ascii "max connections"
  | .maxIpConnections => ascii "max ip connections"
  | .maxActiveSessions => ascii "max active sessions"
  | .maxWorkerThreads => ascii "max worker threads"
  | .shareMaxConnections _ => ShareConf.maxConnections.key

def sectionName (platform : Platform) : Limit → CStr
  | .shareMaxConnections name => name
  | _ => shmCasefoldShareName platform globalName

def used (conf : GlobalConf) (parser : SmbconfParser) : Limit → Int
  | .tcpPort => conf.tcpPort.toNat
  | .ipcTimeout => conf.ipcTimeout.toNat
  | .maxConnections => conf.maxConnections.toNat
  | .maxIpConnections => conf.maxIpConnections.toNat
  | .maxActiveSessions => conf.sessionsCap
  | .maxWorkerThreads => conf.maxWorkerThreads
  | .shareMaxConnections name =>
    (shareGroup name (parser.ipc == some name) fun key => parser.value? name key.key).maxConnections

def intended (number : Nat) : Limit → Int
  | .tcpPort => if number ≤ 65535 then number else 445
  | .ipcTimeout => if number ≤ 65535 then number else 0
  | .maxConnections | .maxIpConnections | .maxActiveSessions | .shareMaxConnections _ =>
    if 1 ≤ number ∧ number ≤ 65536 then number else 65536
  | .maxWorkerThreads => if number < 1 then 4 else if number ≤ 64 then number else 64

/-- The number is the same after it is narrowed, or its fallback is hit all the same. -/
def Fits (number : Nat) : Limit → Prop
  | .tcpPort => number ≤ 65535 ∨ number % 2 ^ 16 = 445
  | .ipcTimeout => number ≤ 65535 ∨ number % 2 ^ 16 = 0
  | .maxConnections | .maxIpConnections | .maxActiveSessions | .shareMaxConnections _ =>
    number ≤ 65536 ∨ number % 2 ^ 32 = 0 ∨ 65536 ≤ number % 2 ^ 32
  | .maxWorkerThreads => number ≤ 64 ∨ (64 ≤ number % 2 ^ 32 ∧ number % 2 ^ 32 < 2 ^ 31)

end Limit

theorem limitConnections_toNat (number : Nat) : (limitConnections number).toNat =
    if number % 2 ^ 32 = 0 ∨ 65536 < number % 2 ^ 32 then 65536 else number % 2 ^ 32 := by
  have zero : UInt32.ofNat number = 0 ↔ number % 2 ^ 32 = 0 := by
    rw [← UInt32.toNat_inj, UInt32.toNat_ofNat', UInt32.toNat_zero]
  have above : 65536 < UInt32.ofNat number ↔ 65536 < number % 2 ^ 32 := by
    rw [UInt32.lt_iff_toNat_lt, UInt32.toNat_ofNat']
    rfl
  simp only [limitConnections, zero, above]
  split_ifs
  · rfl
  · exact UInt32.toNat_ofNat'

theorem toInt32_nat (number : Nat) : toInt32 number =
    if number % 2 ^ 32 < 2 ^ 31 then ((number % 2 ^ 32 : Nat) : Int) else ((number % 2 ^ 32 : Nat) : Int) - 2 ^ 32 := by
  unfold toInt32
  split_ifs <;> omega

theorem keys_apart {key : CStr} {params : List GlobalParam} (none : key ∉ params.map (·.key)) :
    ∀ other ∈ params, key ≠ other.key := by
  rintro other member rfl
  exact none (List.mem_map.mpr ⟨other, member, rfl⟩)

theorem setTcpPort_eq (number : Nat) (conf : GlobalConf) : setTcpPort number conf =
    { conf with tcpPort := if conf.tcpPort ≠ 0 then conf.tcpPort else UInt16.ofNat number } := by
  have never : ¬ 65535 < (UInt16.ofNat number).toNat := by
    have := (UInt16.ofNat number).toNat_lt
    omega
  simp only [setTcpPort, never, if_false]
  split_ifs <;> rfl

theorem setIpcTimeout_eq (number : Nat) (conf : GlobalConf) : setIpcTimeout number conf =
    { conf with ipcTimeout := UInt16.ofNat number } := by
  have never : ¬ 65535 < (UInt16.ofNat number).toNat := by
    have := (UInt16.ofNat number).toNat_lt
    omega
  simp only [setIpcTimeout, never, if_false]

def GlobalParam.Leaves {α : Type} (field : GlobalConf → α) (param : GlobalParam) : Prop :=
  ∀ v conf, field (param.set v conf) = field conf

section Leaves
variable {α : Type} {field : GlobalConf → α} {key : String}

theorem leaves_string {set : Option CStr → GlobalConf → GlobalConf}
    (leaves : ∀ text conf, field (set text conf) = field conf) : (stringParam key set).Leaves field :=
  fun _ conf => leaves _ conf

theorem leaves_long {set : Nat → GlobalConf → GlobalConf} (leaves : ∀ number conf, field (set number conf) = field conf) :
    (longParam key set).Leaves field := fun _ conf => leaves _ conf

theorem leaves_size {set : Nat → GlobalConf → GlobalConf} (leaves : ∀ size conf, field (set size conf) = field conf) :
    (sizeParam key set).Leaves field := fun _ conf => leaves _ conf

theorem leaves_bool {set : Bool → GlobalConf → GlobalConf} (leaves : ∀ yes conf, field (set yes conf) = field conf) :
    (boolParam key set).Leaves field := fun _ conf => leaves _ conf

theorem leaves_opt {set : ConfigOpt → GlobalConf → GlobalConf} (leaves : ∀ opt conf, field (set opt conf) = field conf) :
    (optParam key set).Leaves field := fun _ conf => leaves _ conf

end Leaves

def limitFields (conf : GlobalConf) : UInt16 × UInt16 × UInt32 × UInt32 × Int × Int :=
  (conf.tcpPort, conf.ipcTimeout, conf.maxConnections, conf.maxIpConnections, conf.sessionsCap, conf.maxWorkerThreads)

theorem GlobalParam.Leaves.comp {α : Type} {param : GlobalParam} (plain : param.Leaves limitFields)
    (part : UInt16 × UInt16 × UInt32 × UInt32 × Int × Int → α) : param.Leaves fun conf => part (limitFields conf) :=
  fun v conf => congrArg part (plain v conf)

theorem leadingParams_plain : ∀ param ∈ leadingParams, param.Leaves limitFields := by
  simp only [leadingParams, List.forall_mem_cons]
  exact ⟨leaves_string fun _ _ => rfl, leaves_string fun _ _ => rfl, leaves_string fun _ _ => rfl,
    leaves_string fun _ _ => rfl, leaves_opt fun _ _ => rfl, leaves_string fun _ _ => rfl, leaves_string fun _ _ => rfl,
    List.forall_mem_nil _⟩

theorem sessionParams_plain : ∀ param ∈ sessionParams.drop 3, param.Leaves limitFields := by
  simp only [sessionParams, List.drop_succ_cons, List.drop_zero, List.forall_mem_cons]
  refine ⟨leaves_long fun _ _ => rfl, leaves_long fun number conf => ?_, fun v conf => ?_, leaves_bool fun _ _ => rfl,
    fun v conf => ?_, leaves_long fun _ _ => rfl, List.forall_mem_nil _⟩
  · obtain ⟨anon, set⟩ : ∃ anon, setRestrictAnon number conf = { conf with restrictAnon := anon } := ⟨_, rfl⟩
    rw [set]
    rfl
  · rfl
  · rfl

theorem protocolParams_plain : ∀ param ∈ protocolParams, param.Leaves limitFields := by
  simp only [protocolParams, List.forall_mem_cons]
  exact ⟨leaves_bool fun _ _ => rfl, leaves_string fun _ _ => rfl, leaves_size fun _ _ => rfl, leaves_size fun _ _ => rfl,
    leaves_size fun _ _ => rfl, leaves_opt fun _ _ => rfl, leaves_long fun _ _ => rfl, leaves_string fun _ _ => rfl,
    leaves_string fun _ _ => rfl, leaves_bool fun _ _ => rfl, leaves_bool fun _ _ => rfl, leaves_size fun _ _ => rfl,
    leaves_size fun _ _ => rfl, List.forall_mem_nil _⟩

theorem connectionParams_plain : ∀ param ∈ (connectionParams.drop 1).take 6, param.Leaves limitFields := by
  simp only [connectionParams, List.drop_succ_cons, List.drop_zero, List.take_succ_cons, List.take_zero,
    List.forall_mem_cons]
  exact ⟨leaves_bool fun _ _ => rfl, leaves_bool fun _ _ => rfl, leaves_string fun _ _ => rfl, leaves_bool fun _ _ => rfl,
    leaves_bool fun _ _ => rfl, leaves_bool fun _ _ => rfl, List.forall_mem_nil _⟩

theorem serverLimitParams_plain : ∀ param ∈ serverLimitParams, param.Leaves limitFields := by
  simp only [serverLimitParams, List.forall_mem_cons]
  exact ⟨leaves_long fun _ _ => rfl, leaves_long fun _ _ => rfl, leaves_long fun _ _ => rfl, leaves_long fun _ _ => rfl,
    leaves_bool fun _ _ => rfl, leaves_string fun _ _ => rfl, leaves_string fun _ _ => rfl, leaves_long fun _ _ => rfl,
    leaves_size fun _ _ => rfl, leaves_long fun _ _ => rfl, leaves_long fun _ _ => rfl, leaves_long fun _ _ => rfl,
    leaves_long fun _ _ => rfl, leaves_long fun _ _ => rfl, leaves_long fun _ _ => rfl, List.forall_mem_nil _⟩

section Limits
variable {file : List UInt8} {guest : Option CStr → Bool} {start conf : GlobalConf} {parser : SmbconfParser}
  {pair : KeyValue}

theorem setSessionsCap_only (number : Nat) (conf : GlobalConf) :
    ∃ cap, setSessionsCap number conf = { conf with sessionsCap := cap } := ⟨_, rfl⟩

theorem setMaxWorkerThreads_only (number : Nat) (conf : GlobalConf) :
    ∃ threads, setMaxWorkerThreads number conf = { conf with maxWorkerThreads := threads } := ⟨_, rfl⟩

def limitThreads (number : Nat) : Int :=
  let threads := if toInt32 number < 1 then 4 else toInt32 number
  if 64 < threads then 64 else threads

theorem setSessionsCap_field (number : Nat) (conf : GlobalConf) :
    (setSessionsCap number conf).sessionsCap = limitShareConnections number := by
  simp only [setSessionsCap, limitShareConnections]

theorem setMaxWorkerThreads_field (number : Nat) (conf : GlobalConf) :
    (setMaxWorkerThreads number conf).maxWorkerThreads = limitThreads number := by
  simp only [setMaxWorkerThreads, limitThreads]

theorem leaves_sessionsCap {α : Type} {field : GlobalConf → α}
    (leaves : ∀ cap conf, field { conf with sessionsCap := cap } = field conf) :
    (longParam "max active sessions" setSessionsCap).Leaves field := by
  refine leaves_long fun number conf => ?_
  obtain ⟨cap, set⟩ := setSessionsCap_only number conf
  rw [set]
  exact leaves cap conf

theorem leaves_maxWorkerThreads {α : Type} {field : GlobalConf → α}
    (leaves : ∀ threads conf, field { conf with maxWorkerThreads := threads } = field conf) :
    (longParam "max worker threads" setMaxWorkerThreads).Leaves field := by
  refine leaves_long fun number conf => ?_
  obtain ⟨threads, set⟩ := setMaxWorkerThreads_only number conf
  rw [set]
  exact leaves threads conf

theorem leaves_tcpPort {α : Type} {field : GlobalConf → α}
    (leaves : ∀ port conf, field { conf with tcpPort := port } = field conf) :
    (longParam "tcp port" setTcpPort).Leaves field := by
  refine leaves_long fun number conf => ?_
  rw [setTcpPort_eq]
  exact leaves _ conf

theorem leaves_ipcTimeout {α : Type} {field : GlobalConf → α}
    (leaves : ∀ timeout conf, field { conf with ipcTimeout := timeout } = field conf) :
    (longParam "ipc timeout" setIpcTimeout).Leaves field := by
  refine leaves_long fun number conf => ?_
  rw [setIpcTimeout_eq]
  exact leaves _ conf

def limitParams : List GlobalParam := [longParam "max active sessions" setSessionsCap, longParam "tcp port" setTcpPort,
  longParam "ipc timeout" setIpcTimeout,
  sizeParam "max connections" fun size conf => { conf with maxConnections := limitConnections size },
  sizeParam "max ip connections" fun size conf => { conf with maxIpConnections := limitConnections size },
  longParam "max worker threads" setMaxWorkerThreads]

theorem plain_or_limit : ∀ param ∈ leadingParams ++ trailingParams, param.Leaves limitFields ∨ param ∈ limitParams := by
  have split : leadingParams ++ trailingParams = leadingParams ++ (limitParams.take 3 ++ sessionParams.drop 3 ++
      protocolParams ++ (limitParams.drop 3).take 1 ++ (connectionParams.drop 1).take 6 ++ limitParams.drop 4 ++
      serverLimitParams) := rfl
  intro param member
  rw [split] at member
  simp only [List.mem_append] at member
  rcases member with leading | ((((((session | session) | protocol) | connection) | connection) | connection) | server)
  · exact .inl (leadingParams_plain param leading)
  · exact .inr (List.mem_of_mem_take session)
  · exact .inl (sessionParams_plain param session)
  · exact .inl (protocolParams_plain param protocol)
  · exact .inr (List.mem_of_mem_drop (List.mem_of_mem_take connection))
  · exact .inl (connectionParams_plain param connection)
  · exact .inr (List.mem_of_mem_drop connection)
  · exact .inl (serverLimitParams_plain param server)

theorem globalKeys_nodup : ((leadingParams ++ trailingParams).map (·.key)).Nodup := by decide +kernel

abbrev GivenGlobally (platform : Platform) (file : List UInt8) (key : CStr) (pair : KeyValue) : Prop :=
  firstGiven (assignments platform none (fileEntries file)) (shmCasefoldShareName platform globalName) key = some pair

theorem loaded_limit {α : Type} (part : UInt16 × UInt16 × UInt32 × UInt32 × Int × Int → α) (index : Nat)
    {param : GlobalParam} {result : α} (loaded : cpParseSmbconf platform false guest start file = some (conf, parser))
    (here : trailingParams[index]? = some param)
    (limits : ∀ other ∈ limitParams, other.key ≠ param.key → other.Leaves fun conf => part (limitFields conf))
    (given : GivenGlobally platform file param.key pair)
    (sets : ∀ conf, part (limitFields conf) = part (limitFields start) →
      part (limitFields (param.set pair.value conf)) = result) : part (limitFields conf) = result := by
  obtain ⟨inside, rfl⟩ := List.getElem?_eq_some_iff.mp here
  have split : trailingParams = trailingParams.take index ++ trailingParams[index] :: trailingParams.drop (index + 1) := by
    rw [← List.drop_eq_getElem_cons inside, List.take_append_drop]
  generalize trailingParams[index] = param at limits given sets split
  generalize trailingParams.take index = front at split
  generalize trailingParams.drop (index + 1) = back at split
  have distinct : param.key ∉ (leadingParams ++ front ++ back).map (·.key) := by
    have nodup := globalKeys_nodup
    rw [split, ← List.append_assoc, List.map_append, List.map_cons, List.nodup_middle, List.nodup_cons] at nodup
    rw [List.map_append]
    exact nodup.1
  have leaves : ∀ other ∈ leadingParams ++ front ++ back, other.Leaves fun conf => part (limitFields conf) := by
    intro other member
    have listed : other ∈ leadingParams ++ trailingParams := by
      rw [split]
      simp only [List.mem_append, List.mem_cons] at member ⊢
      tauto
    rcases plain_or_limit other listed with plain | limit
    · exact plain.comp part
    · exact limits other limit fun same => distinct (List.mem_map.mpr ⟨other, member, same⟩)
  exact loaded_field (fun conf => part (limitFields conf)) loaded split given
    (keys_apart fun listed => distinct (by rw [List.map_append]; exact List.mem_append_left _ listed))
    (fun other member => leaves other (List.mem_append_left _ member))
    (fun other member => leaves other (List.mem_append_right _ member)) sets

theorem shareGroup_maxConnections (name : CStr) (pipe : Bool) (value : ShareConf → Option CStr) :
    (shareGroup name pipe value).maxConnections =
      ((value .maxConnections).map fun v => limitShareConnections (cpMemparse v)).getD 0 := rfl

variable (loaded : cpParseSmbconf platform false guest start file = some (conf, parser))

include loaded

theorem loaded_sessionsCap (given : GivenGlobally platform file (ascii "max active sessions") pair) :
    conf.sessionsCap = limitShareConnections (cpGetGroupKvLong pair.value) := by
  have here : trailingParams[0]? = some (longParam "max active sessions" setSessionsCap) := rfl
  refine loaded_limit (·.2.2.2.2.1) 0 loaded here ?_ given fun conf _ => ?_
  · simp only [limitParams, List.forall_mem_cons]
    exact ⟨fun own => absurd rfl own, fun _ => leaves_tcpPort fun _ _ => rfl, fun _ => leaves_ipcTimeout fun _ _ => rfl,
      fun _ => leaves_size fun _ _ => rfl, fun _ => leaves_size fun _ _ => rfl,
      fun _ => leaves_maxWorkerThreads fun _ _ => rfl, List.forall_mem_nil _⟩
  · simp only [longParam, limitFields, setSessionsCap_field]

theorem loaded_tcpPort (port : start.tcpPort = 0) (given : GivenGlobally platform file (ascii "tcp port") pair) :
    conf.tcpPort = UInt16.ofNat (cpGetGroupKvLong pair.value) := by
  have here : trailingParams[1]? = some (longParam "tcp port" setTcpPort) := rfl
  refine loaded_limit (·.1) 1 loaded here ?_ given fun conf same => ?_
  · simp only [limitParams, List.forall_mem_cons]
    exact ⟨fun _ => leaves_sessionsCap fun _ _ => rfl, fun own => absurd rfl own, fun _ => leaves_ipcTimeout fun _ _ => rfl,
      fun _ => leaves_size fun _ _ => rfl, fun _ => leaves_size fun _ _ => rfl,
      fun _ => leaves_maxWorkerThreads fun _ _ => rfl, List.forall_mem_nil _⟩
  · have free : conf.tcpPort = 0 := same.trans port
    simp only [longParam, limitFields, setTcpPort_eq, free, ne_eq, not_true_eq_false, if_false]

theorem loaded_ipcTimeout (given : GivenGlobally platform file (ascii "ipc timeout") pair) :
    conf.ipcTimeout = UInt16.ofNat (cpGetGroupKvLong pair.value) := by
  have here : trailingParams[2]? = some (longParam "ipc timeout" setIpcTimeout) := rfl
  refine loaded_limit (·.2.1) 2 loaded here ?_ given fun conf _ => ?_
  · simp only [limitParams, List.forall_mem_cons]
    exact ⟨fun _ => leaves_sessionsCap fun _ _ => rfl, fun _ => leaves_tcpPort fun _ _ => rfl, fun own => absurd rfl own,
      fun _ => leaves_size fun _ _ => rfl, fun _ => leaves_size fun _ _ => rfl,
      fun _ => leaves_maxWorkerThreads fun _ _ => rfl, List.forall_mem_nil _⟩
  · simp only [longParam, limitFields, setIpcTimeout_eq]

theorem loaded_maxConnections (given : GivenGlobally platform file (ascii "max connections") pair) :
    conf.maxConnections = limitConnections (cpMemparse pair.value) := by
  have here : trailingParams[22]? = some (sizeParam "max connections" fun size conf =>
    { conf with maxConnections := limitConnections size }) := rfl
  refine loaded_limit (·.2.2.1) 22 loaded here ?_ given fun conf _ => rfl
  simp only [limitParams, List.forall_mem_cons]
  exact ⟨fun _ => leaves_sessionsCap fun _ _ => rfl, fun _ => leaves_tcpPort fun _ _ => rfl,
    fun _ => leaves_ipcTimeout fun _ _ => rfl, fun own => absurd rfl own, fun _ => leaves_size fun _ _ => rfl,
    fun _ => leaves_maxWorkerThreads fun _ _ => rfl, List.forall_mem_nil _⟩

theorem loaded_maxIpConnections (given : GivenGlobally platform file (ascii "max ip connections") pair) :
    conf.maxIpConnections = limitConnections (cpMemparse pair.value) := by
  have here : trailingParams[29]? = some (sizeParam "max ip connections" fun size conf =>
    { conf with maxIpConnections := limitConnections size }) := rfl
  refine loaded_limit (·.2.2.2.1) 29 loaded here ?_ given fun conf _ => rfl
  simp only [limitParams, List.forall_mem_cons]
  exact ⟨fun _ => leaves_sessionsCap fun _ _ => rfl, fun _ => leaves_tcpPort fun _ _ => rfl,
    fun _ => leaves_ipcTimeout fun _ _ => rfl, fun _ => leaves_size fun _ _ => rfl, fun own => absurd rfl own,
    fun _ => leaves_maxWorkerThreads fun _ _ => rfl, List.forall_mem_nil _⟩

theorem loaded_maxWorkerThreads (given : GivenGlobally platform file (ascii "max worker threads") pair) :
    conf.maxWorkerThreads = limitThreads (cpGetGroupKvLong pair.value) := by
  have here : trailingParams[30]? = some (longParam "max worker threads" setMaxWorkerThreads) := rfl
  refine loaded_limit (·.2.2.2.2.2) 30 loaded here ?_ given fun conf _ => ?_
  · simp only [limitParams, List.forall_mem_cons]
    exact ⟨fun _ => leaves_sessionsCap fun _ _ => rfl, fun _ => leaves_tcpPort fun _ _ => rfl,
      fun _ => leaves_ipcTimeout fun _ _ => rfl, fun _ => leaves_size fun _ _ => rfl, fun _ => leaves_size fun _ _ => rfl,
      fun own => absurd rfl own, List.forall_mem_nil _⟩
  · simp only [longParam, limitFields, setMaxWorkerThreads_field]

theorem loaded_shareMaxConnections {name : CStr}
    (apart : shmCasefoldShareName platform globalName ≠ shmCasefoldShareName platform ipcName)
    (member : name ∈ parser.groups) (share : name ≠ shmCasefoldShareName platform globalName)
    (given : firstGiven (assignments platform none (fileEntries file)) name ShareConf.maxConnections.key = some pair) :
    (Limit.shareMaxConnections name).used conf parser = limitShareConnections (cpMemparse pair.value) := by
  have own : parser.value? name ShareConf.maxConnections.key = some pair.value := by
    rw [(loaded_values apart loaded).2 name member share .maxConnections rfl fun _ => ⟨nofun, nofun⟩, inheritedValue,
      givenValue, given, Option.map_some, Option.some_or]
  rw [Limit.used, shareGroup_maxConnections, own, Option.map_some, Option.getD_some]

end Limits

def Limit.narrowed (number : Nat) : Limit → Int
  | .tcpPort | .ipcTimeout => (UInt16.ofNat number).toNat
  | .maxConnections | .maxIpConnections => (limitConnections number).toNat
  | .maxActiveSessions | .shareMaxConnections _ => limitShareConnections number
  | .maxWorkerThreads => limitThreads number

theorem Limit.narrowed_iff (limit : Limit) (number : Nat) :
    limit.narrowed number = limit.intended number ↔ limit.Fits number := by
  cases limit with
  | tcpPort | ipcTimeout =>
    simp only [narrowed, intended, Fits, UInt16.toNat_ofNat']
    split_ifs <;> omega
  | maxConnections | maxIpConnections =>
    simp only [narrowed, intended, Fits, limitConnections_toNat]
    split_ifs <;> omega
  | maxActiveSessions | shareMaxConnections =>
    simp only [narrowed, intended, Fits, limitShareConnections, toInt32_nat]
    split_ifs <;> omega
  | maxWorkerThreads =>
    simp only [narrowed, intended, Fits, limitThreads, toInt32_nat]
    split_ifs <;> omega

def Limit.Stands (platform : Platform) (file : List UInt8) : Limit → Prop
  | .shareMaxConnections name =>
    name ∈ sectionNames platform (fileEntries file) ∧ name ≠ shmCasefoldShareName platform globalName
  | _ => True

theorem loaded_narrowed {file : List UInt8} {guest : Option CStr → Bool} {start conf : GlobalConf} {parser : SmbconfParser}
    {pair : KeyValue} {limit : Limit} {number : Nat}
    (apart : shmCasefoldShareName platform globalName ≠ shmCasefoldShareName platform ipcName) (port : start.tcpPort = 0)
    (loaded : cpParseSmbconf platform false guest start file = some (conf, parser)) (stands : limit.Stands platform file)
    (given : firstGiven (assignments platform none (fileEntries file)) (limit.sectionName platform) limit.key = some pair)
    (numeral : Numeral pair.value number) (fits : number < 2 ^ 64) : limit.used conf parser = limit.narrowed number := by
  have long := numeral.cpGetGroupKvLong_eq fits
  have size := numeral.cpMemparse_eq fits
  cases limit with
  | tcpPort => simp only [Limit.used, Limit.narrowed, loaded_tcpPort loaded port given, long]
  | ipcTimeout => simp only [Limit.used, Limit.narrowed, loaded_ipcTimeout loaded given, long]
  | maxConnections => simp only [Limit.used, Limit.narrowed, loaded_maxConnections loaded given, size]
  | maxIpConnections => simp only [Limit.used, Limit.narrowed, loaded_maxIpConnections loaded given, size]
  | maxActiveSessions => simp only [Limit.used, Limit.narrowed, loaded_sessionsCap loaded given, long]
  | maxWorkerThreads => simp only [Limit.used, Limit.narrowed, loaded_maxWorkerThreads loaded given, long]
  | shareMaxConnections name =>
    obtain ⟨listed, share⟩ := stands
    have member : name ∈ parser.groups := ((loaded_values apart loaded).1 name).mpr (.inr (.inr listed))
    rw [loaded_shareMaxConnections loaded apart member share given, size, Limit.narrowed]

/-- The range is checked on the narrowed number: a number that does not fit into its field may come out as one in range. -/
theorem numeric_limits_iff (platform : Platform)
    (apart : shmCasefoldShareName platform globalName ≠ shmCasefoldShareName platform ipcName)
    (guest : Option CStr → Bool) (start conf : GlobalConf) (file : List UInt8) (parser : SmbconfParser) (limit : Limit)
    (pair : KeyValue) (number : Nat) (port : start.tcpPort = 0)
    (loaded : cpParseSmbconf platform false guest start file = some (conf, parser)) (stands : limit.Stands platform file)
    (given : firstGiven (assignments platform none (fileEntries file)) (limit.sectionName platform) limit.key = some pair)
    (numeral : Numeral pair.value number) (fits : number < 2 ^ 64) :
    limit.used conf parser = limit.intended number ↔ limit.Fits number := by
  rw [loaded_narrowed apart port loaded stands given numeral fits]
  exact limit.narrowed_iff number

namespace Scenario

def limitsFile : List UInt8 := ascii "[global]\ntcp port = 4450\n[s]\npath = /s\nmax connections = 70000\n"

/-- Both numbers are out of range, and one more than a number of their field. -/
def wideFile : List UInt8 := ascii "[global]\ntcp port = 70000\nmax worker threads = 4294967297\n"

end Scenario

theorem numeric_limits_share :
    ∃ conf parser, cpParseSmbconf Management.Scenario.plainPlatform false (fun _ => true) {} Scenario.limitsFile =
        some (conf, parser) ∧ Limit.tcpPort.used conf parser = 4450 ∧
      (Limit.shareMaxConnections (ascii "s")).used conf parser = 65536 := by
  obtain ⟨⟨conf, parser⟩, loaded⟩ := Option.isSome_iff_exists.mp (show (cpParseSmbconf Management.Scenario.plainPlatform
    false (fun _ => true) {} Scenario.limitsFile).isSome = true by decide +kernel)
  have holds := numeric_limits_iff Management.Scenario.plainPlatform (by decide +kernel) (fun _ => true) {} conf
    Scenario.limitsFile parser
  refine ⟨conf, parser, loaded, ?_, ?_⟩
  · exact (holds .tcpPort ⟨ascii "tcp port", ascii "4450"⟩ 4450 rfl loaded trivial (by decide +kernel)
      ⟨by decide, by decide +kernel, by decide +kernel, by decide +kernel⟩ (by decide)).mpr (.inl (by decide))
  · exact (holds (.shareMaxConnections (ascii "s")) ⟨ascii "max connections", ascii "70000"⟩ 70000 rfl loaded
      ⟨by decide +kernel, by decide +kernel⟩ (by decide +kernel)
        ⟨by decide, by decide +kernel, by decide +kernel, by decide +kernel⟩
      (by decide)).mpr (.inr (.inr (by decide)))

/-- The port is 4464 and one thread is left. -/
theorem numeric_limits_wrapped :
    ∃ conf parser, cpParseSmbconf Management.Scenario.plainPlatform false (fun _ => true) {} Scenario.wideFile =
        some (conf, parser) ∧ Limit.tcpPort.used conf parser = 4464 ∧ Limit.tcpPort.intended 70000 = 445 ∧
      Limit.maxWorkerThreads.used conf parser = 1 ∧ Limit.maxWorkerThreads.intended 4294967297 = 64 := by
  obtain ⟨⟨conf, parser⟩, loaded⟩ := Option.isSome_iff_exists.mp (show (cpParseSmbconf Management.Scenario.plainPlatform
    false (fun _ => true) {} Scenario.wideFile).isSome = true by decide +kernel)
  have narrowed := fun limit pair number => @loaded_narrowed Management.Scenario.plainPlatform Scenario.wideFile
    (fun _ => true) {} conf parser pair limit number (by decide +kernel) rfl loaded
  refine ⟨conf, parser, loaded, ?_, by decide, ?_, by decide⟩
  · exact (narrowed .tcpPort ⟨ascii "tcp port", ascii "70000"⟩ 70000 trivial (by decide +kernel)
      ⟨by decide, by decide +kernel, by decide +kernel, by decide +kernel⟩ (by decide)).trans (by decide)
  · exact (narrowed .maxWorkerThreads ⟨ascii "max worker threads", ascii "4294967297"⟩ 4294967297 trivial
      (by decide +kernel) ⟨by decide, by decide +kernel, by decide +kernel, by decide +kernel⟩ (by decide)).trans (by decide)

end KsmbdTools.Config
