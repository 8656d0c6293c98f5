import KsmbdTools.Config.Finalize
import KsmbdTools.Config.Proofs.ShareCommands

/-! Which value a share has for a key: its own, the one of `[global]`, or the default. -/

namespace KsmbdTools.Config
open Management Texts

variable {platform : Platform}

def linePair (line : CStr) : Option KeyValue :=
  (({ current := some [] } : SmbconfParser).isAKeyValue (cpLtrim line)).map entryPair

/-- What the lines of a file give, each pair with the section it stands in. -/
def assignments (platform : Platform) : Option CStr → List CStr → List (CStr × KeyValue)
  | _, [] => []
  | opened, line :: lines =>
    match isAGroup platform (cpLtrim line) with
    | some name => assignments platform (some (shmCasefoldShareName platform name)) lines
    | none => (opened.bind fun name => (linePair line).map (name, ·)).toList ++ assignments platform opened lines

def sectionNames (platform : Platform) (lines : List CStr) : List CStr :=
  lines.filterMap fun line => (isAGroup platform (cpLtrim line)).map (shmCasefoldShareName platform)

theorem sectionNames_cons (line : CStr) (lines : List CStr) : sectionNames platform (line :: lines) =
    ((isAGroup platform (cpLtrim line)).map (shmCasefoldShareName platform)).toList ++ sectionNames platform lines := by
  rw [sectionNames, sectionNames, List.filterMap_cons]
  cases (isAGroup platform (cpLtrim line)).map (shmCasefoldShareName platform) <;> rfl

/-- The first pair with a value that is given for a key in the sections of a name. -/
def firstGiven (given : List (CStr × KeyValue)) (name key : CStr) : Option KeyValue :=
  (given.find? fun entry => entry.1 == name && asciiStrdown entry.2.key == key && !entry.2.value.isEmpty).map (·.2)

theorem firstGiven_append (front back : List (CStr × KeyValue)) (name key : CStr) :
    firstGiven (front ++ back) name key = (firstGiven front name key).or (firstGiven back name key) := by
  rw [firstGiven, firstGiven, firstGiven, List.find?_append, Option.map_or]

theorem isAGroup_eol {text : CStr} (eol : cpSmbconfEol text = true) : isAGroup platform text = none := by
  rw [Option.eq_none_iff_forall_ne_some]
  intro name group
  obtain ⟨behind, rfl, -⟩ := isAGroup_eq_some_iff.mp group
  simp [cpSmbconfEol, startsComment] at eol

theorem SmbconfParser.isAKeyValue_eol {parser : SmbconfParser} {text : CStr} (eol : cpSmbconfEol text = true) :
    parser.isAKeyValue text = none := by
  rw [Option.eq_none_iff_forall_ne_some]
  intro cut accepted
  obtain ⟨key, blanks, value, comment, line, rfl, -⟩ := isAKeyValue_eq_some_iff.mp accepted
  obtain ⟨first, rest, rfl⟩ := List.exists_cons_of_ne_nil line.keySome
  simp [cpSmbconfEol, (line.keyBytes first List.mem_cons_self).2] at eol

theorem lookup_addKeyValue (kv : HashTable CStr KeyValue) (entry key : CStr) :
    (addKeyValue kv entry).lookup key = (kv.lookup key).or
      (if asciiStrdown (entryPair entry).key = key ∧ cpSmbconfEol (entryPair entry).value = false
        then some (entryPair entry) else none) := by
  simp only [addKeyValue]
  generalize entryPair entry = pair
  by_cases same : asciiStrdown pair.key = key
  · subst same
    cases eol : cpSmbconfEol pair.value
    · by_cases old : asciiStrdown pair.key ∈ kv
      · obtain ⟨stored, found⟩ := Option.isSome_iff_exists.mp (AList.lookup_isSome.mpr old)
        simp [old, found]
      · simp [old, AList.lookup_eq_none.mpr old]
    · simp
  · have none : ¬ (asciiStrdown pair.key = key ∧ cpSmbconfEol pair.value = false) := fun both => same both.1
    rw [if_neg none, Option.or_none]
    split_ifs
    · rfl
    · exact AList.lookup_insert_ne (Ne.symm same)

namespace SmbconfParser
variable {parser : SmbconfParser}

theorem pair?_eq {name key : CStr} {group : SmbconfGroup} (found : parser.groups.lookup name = some group) :
    parser.pair? name key = group.kv.lookup key := by
  rw [pair?, found, Option.bind_some]

theorem pair?_addGroup (parser : SmbconfParser) (name other key : CStr) :
    (parser.addGroup platform name).pair? other key = parser.pair? other key := by
  obtain ⟨group, reading, had⟩ := @addGroup_named platform parser name
  by_cases same : other = shmCasefoldShareName platform name
  · subst same
    rw [pair?_eq reading.here, had key]
  · rw [pair?, pair?, reading.others other same]

theorem addGroup_current (parser : SmbconfParser) (name : CStr) :
    (parser.addGroup platform name).current = some (shmCasefoldShareName platform name) := by
  obtain ⟨group, reading, -⟩ := @addGroup_named platform parser name
  exact reading.current

theorem mem_addGroup {name other : CStr} : other ∈ (parser.addGroup platform name).groups ↔
    other = shmCasefoldShareName platform name ∨ other ∈ parser.groups := by
  obtain ⟨group, reading, -⟩ := @addGroup_named platform parser name
  by_cases same : other = shmCasefoldShareName platform name
  · subst same
    simpa using mem_groups_iff.mpr ⟨group, reading.here⟩
  · rw [← AList.lookup_isSome, ← AList.lookup_isSome, reading.others other same]
    simp [same]

theorem pair?_addGroupKeyValue {here : CStr} (current : parser.current = some here) (member : here ∈ parser.groups)
    (entry name key : CStr) :
    (parser.addGroupKeyValue entry).pair? name key = (parser.pair? name key).or
      (if name = here ∧ asciiStrdown (entryPair entry).key = key ∧ cpSmbconfEol (entryPair entry).value = false
        then some (entryPair entry) else none) := by
  obtain ⟨group, found⟩ := mem_groups_iff.mp member
  have reading : Reading parser parser here group := ⟨current, found, fun _ _ => rfl⟩
  have changed := reading.modifyCurrent fun group => { group with kv := addKeyValue group.kv entry }
  by_cases same : name = here
  · subst same
    rw [addGroupKeyValue, pair?_eq changed.here, pair?_eq found, lookup_addKeyValue]
    simp
  · rw [addGroupKeyValue, pair?, pair?, changed.others name same]
    simp [same]

theorem addGroupKeyValue_current (parser : SmbconfParser) (entry : CStr) :
    (parser.addGroupKeyValue entry).current = parser.current := by
  unfold addGroupKeyValue modifyCurrent
  split
  · rfl
  · split <;> rfl

theorem addGroupKeyValue_global (parser : SmbconfParser) (entry : CStr) :
    (parser.addGroupKeyValue entry).global = parser.global := by
  unfold addGroupKeyValue modifyCurrent
  split
  · rfl
  · split <;> rfl

theorem mem_addGroupKeyValue {entry name : CStr} : name ∈ (parser.addGroupKeyValue entry).groups ↔ name ∈ parser.groups := by
  unfold addGroupKeyValue modifyCurrent
  split
  · rfl
  · split
    · rfl
    · rename_i found
      rw [AList.mem_insert, or_iff_right_iff_imp]
      rintro rfl
      exact mem_groups_iff.mpr ⟨_, found⟩

theorem pair?_parseEntries (formed : parser.Formed platform) {lines : List CStr}
    (accepted : (parseEntries (processSmbconfEntry platform) parser lines).2 = true) (name key : CStr) :
    (parseEntries (processSmbconfEntry platform) parser lines).1.pair? name key =
      (parser.pair? name key).or (firstGiven (assignments platform parser.current lines) name key) := by
  induction lines generalizing parser with
  | nil => simp [parseEntries, assignments, firstGiven]
  | cons line rest ih =>
    have kept := formed.processSmbconfEntry line
    obtain ⟨eol, ran⟩ | ⟨-, header, group, ran⟩ | ⟨-, plain, cut, cutting, ran⟩ | ⟨-, -, -, ran⟩ :=
      processSmbconfEntry_cases platform parser line
    all_goals
      rw [ran] at kept
      simp only [parseEntries, ran] at accepted ⊢
    · have none : linePair line = none := by rw [linePair, isAKeyValue_eol eol]; rfl
      have nothing : (parser.current.bind fun name => (Option.none : Option KeyValue).map (name, ·)) = Option.none := by
        cases parser.current <;> rfl
      rw [ih kept accepted, assignments, isAGroup_eol eol, none]
      simp only [nothing, Option.toList_none, List.nil_append]
    · rw [ih kept accepted, pair?_addGroup, addGroup_current, assignments, group]
    · obtain ⟨words, blanks, value, said, starts, rfl⟩ := keyLine_of_accepted cutting
      obtain ⟨-, -, -, -, -, -, -, -, opened⟩ := isAKeyValue_eq_some_iff.mp cutting
      obtain ⟨here, current⟩ := Option.isSome_iff_exists.mp opened
      have pair : linePair line = some (entryPair (words ++ 61 :: (blanks ++ value))) := by
        have inSection : parser.current.isNone = (some ([] : CStr)).isNone := by rw [current]; rfl
        rw [linePair, ← @isAKeyValue_congr parser { current := some [] } inSection, cutting]
        rfl
      have first : firstGiven [(here, entryPair (words ++ 61 :: (blanks ++ value)))] name key =
          if name = here ∧ asciiStrdown (entryPair (words ++ 61 :: (blanks ++ value))).key = key ∧
              cpSmbconfEol (entryPair (words ++ 61 :: (blanks ++ value))).value = false
            then some (entryPair (words ++ 61 :: (blanks ++ value))) else none := by
        have eol : cpSmbconfEol value = value.isEmpty := by
          rw [Bool.eq_iff_iff, said.eol_iff, List.isEmpty_iff]
        simp only [firstGiven, List.find?_singleton, said.entryPair_eq, eol]
        by_cases same : name = here <;> by_cases keyed : asciiStrdown (cpRtrim words) = key <;>
          cases value.isEmpty <;> simp [same, keyed, Ne.symm]
      rw [ih kept accepted, pair?_addGroupKeyValue current (formed.current here current), addGroupKeyValue_current,
        assignments, plain, pair, current, ← first]
      simp only [Option.bind_some, Option.map_some, Option.toList_some]
      rw [firstGiven_append, Option.or_assoc]
    · simp at accepted

theorem mem_parseEntries {lines : List CStr}
    (accepted : (parseEntries (processSmbconfEntry platform) parser lines).2 = true) (name : CStr) :
    name ∈ (parseEntries (processSmbconfEntry platform) parser lines).1.groups ↔
      name ∈ parser.groups ∨ name ∈ sectionNames platform lines := by
  induction lines generalizing parser with
  | nil => simp [parseEntries, sectionNames]
  | cons line rest ih =>
    obtain ⟨eol, ran⟩ | ⟨-, header, group, ran⟩ | ⟨-, plain, cut, -, ran⟩ | ⟨-, -, -, ran⟩ :=
      processSmbconfEntry_cases platform parser line
    all_goals simp only [parseEntries, ran] at accepted ⊢
    · rw [ih accepted, sectionNames_cons, isAGroup_eol eol]
      rfl
    · rw [ih accepted, mem_addGroup, sectionNames_cons, group, List.mem_append]
      simp [or_assoc, or_left_comm]
    · rw [ih accepted, mem_addGroupKeyValue, sectionNames_cons, plain]
      rfl
    · simp at accepted

/-- Entries for the current group leave the other groups, and the keys they do not name. -/
theorem pair?_addEntries {here name key : CStr} {entries : List CStr} (current : parser.current = some here)
    (member : here ∈ parser.groups)
    (apart : name = here → ∀ entry ∈ entries, asciiStrdown (entryPair entry).key ≠ key) :
    (entries.foldl addGroupKeyValue parser).pair? name key = parser.pair? name key := by
  induction entries generalizing parser with
  | nil => rfl
  | cons entry rest ih =>
    rw [List.foldl_cons, ih (by rw [addGroupKeyValue_current, current]) (mem_addGroupKeyValue.mpr member)
      fun same other later => apart same other (List.mem_cons_of_mem _ later),
      pair?_addGroupKeyValue current member, if_neg, Option.or_none]
    rintro ⟨same, keyed, -⟩
    exact apart same entry List.mem_cons_self keyed

theorem addEntries_global (entries : List CStr) (parser : SmbconfParser) :
    (entries.foldl addGroupKeyValue parser).global = parser.global := by
  induction entries generalizing parser with
  | nil => rfl
  | cons entry rest ih => rw [List.foldl_cons, ih, addGroupKeyValue_global]

theorem mem_addEntries {entries : List CStr} {name : CStr} :
    name ∈ (entries.foldl addGroupKeyValue parser).groups ↔ name ∈ parser.groups := by
  induction entries generalizing parser with
  | nil => rfl
  | cons entry rest ih => rw [List.foldl_cons, ih, mem_addGroupKeyValue]

end SmbconfParser

theorem globalDefaults_apart {conf : ShareConf} (own : conf.isGlobal = false) :
    ∀ entry ∈ globalDefaults, asciiStrdown (entryPair entry).key ≠ conf.key := by
  have all : ∀ conf ∈ ShareConf.all, conf.isGlobal = false →
      ∀ entry ∈ globalDefaults, asciiStrdown (entryPair entry).key ≠ conf.key := by decide +kernel
  exact all conf conf.mem_all own

theorem globalParams_apart {conf : ShareConf} (own : conf.isGlobal = false) :
    ∀ param ∈ leadingParams ++ trailingParams, conf.key ≠ param.key := by
  have all : ∀ conf ∈ ShareConf.all, conf.isGlobal = false →
      conf.key ∉ (leadingParams ++ trailingParams).map (·.key) := by decide +kernel
  intro param member same
  exact all conf conf.mem_all own (List.mem_map.mpr ⟨param, member, same.symm⟩)

theorem lookup_stealParams {key : CStr} (reloading : Bool) {params : List GlobalParam}
    (apart : ∀ param ∈ params, key ≠ param.key) (state : HashTable CStr KeyValue × GlobalConf) :
    (params.foldl (stealParam reloading) state).1.lookup key = state.1.lookup key := by
  induction params generalizing state with
  | nil => rfl
  | cons param rest ih =>
    rw [List.foldl_cons, ih fun other later => apart other (List.mem_cons_of_mem _ later)]
    simp only [stealParam]
    split
    · rfl
    · exact AList.lookup_erase_ne (apart param List.mem_cons_self)

theorem lookup_processGlobalConfKv {reloading : Bool} {guest : Option CStr → Bool} {kv left : HashTable CStr KeyValue}
    {conf after : GlobalConf} {key : CStr} (apart : ∀ param ∈ leadingParams ++ trailingParams, key ≠ param.key)
    (processed : processGlobalConfKv reloading guest kv conf = some (left, after)) : left.lookup key = kv.lookup key := by
  simp only [processGlobalConfKv, Option.ite_none_right_eq_some, Option.some.injEq] at processed
  have behind : ∀ param ∈ trailingParams, key ≠ param.key := fun param member => apart param (List.mem_append_right _ member)
  have before : ∀ param ∈ leadingParams, key ≠ param.key := fun param member => apart param (List.mem_append_left _ member)
  have trailing := lookup_stealParams reloading behind (leadingParams.foldl (stealParam reloading) (kv, conf))
  have leading := lookup_stealParams reloading before (kv, conf)
  rw [processed.2] at trailing
  exact trailing.trans leading

theorem KeyValue.Formed.entryPair_text {pair : KeyValue} (formed : pair.Formed) : entryPair pair.text = pair := by
  rw [KeyValue.Formed.text_eq, formed.keyLine.entryPair_eq, formed.cpRtrim_key]

theorem KeyValue.Formed.value_eol {pair : KeyValue} (formed : pair.Formed) : cpSmbconfEol pair.value = false := by
  obtain ⟨first, rest, split⟩ := List.exists_cons_of_ne_nil formed.valueSome
  rw [split, cpSmbconfEol, (formed.valueBytes first (by simp [split])).2]

theorem ShareConf.entryPair_default (conf : ShareConf) :
    entryPair (conf.key ++ ascii " = " ++ conf.defconf) = ⟨conf.key, conf.defconf⟩ := by
  have all : ∀ conf ∈ ShareConf.all, entryPair (conf.key ++ ascii " = " ++ conf.defconf) = ⟨conf.key, conf.defconf⟩ := by
    decide +kernel
  exact all conf conf.mem_all

def ShareConf.offeredPair (conf : ShareConf) (stolen : Option KeyValue) : KeyValue := stolen.getD ⟨conf.key, conf.defconf⟩

theorem ShareConf.entryPair_offered {conf : ShareConf} {stolen : Option KeyValue} (formed : ∀ pair ∈ stolen, pair.Formed) :
    entryPair ((stolen.map (·.key)).getD conf.key ++ ascii " = " ++ (stolen.map (·.value)).getD conf.defconf) =
      conf.offeredPair stolen := by
  cases stolen with
  | none => exact conf.entryPair_default
  | some stored => exact (formed stored rfl).entryPair_text

namespace SmbconfParser
variable {parser : SmbconfParser}

/-- What the other groups are offered for a key: the value of `[global]`, or the default. -/
def offered (parser : SmbconfParser) (global : CStr) (conf : ShareConf) : Option CStr :=
  (if conf.isGlobal then none else parser.value? global conf.key).or
    (if cpSmbconfEol conf.defconf then none else some conf.defconf)

theorem globalKv_lookup {global : CStr} (set : parser.global = some global) (key : CStr) :
    parser.globalKv.lookup key = parser.pair? global key := by
  rw [globalKv, set, Option.bind_some, pair?]
  cases parser.groups.lookup global <;> rfl

theorem setGlobalKv_global (parser : SmbconfParser) (kv : HashTable CStr KeyValue) :
    (parser.setGlobalKv kv).global = parser.global := by
  unfold setGlobalKv
  split
  · rfl
  · split <;> rfl

theorem mem_setGlobalKv {kv : HashTable CStr KeyValue} {name : CStr} :
    name ∈ (parser.setGlobalKv kv).groups ↔ name ∈ parser.groups := by
  unfold setGlobalKv
  split
  · rfl
  · split
    · rfl
    · rename_i found
      rw [AList.mem_insert, or_iff_right_iff_imp]
      rintro rfl
      exact mem_groups_iff.mpr ⟨_, found⟩

theorem lookup_setGlobalKv {global name : CStr} (set : parser.global = some global) (apart : name ≠ global)
    (kv : HashTable CStr KeyValue) : (parser.setGlobalKv kv).groups.lookup name = parser.groups.lookup name := by
  simp only [setGlobalKv, set]
  split
  · rfl
  · exact AList.lookup_insert_ne apart

theorem pair?_setGlobalKv {global : CStr} (set : parser.global = some global) (member : global ∈ parser.groups)
    (kv : HashTable CStr KeyValue) (key : CStr) : (parser.setGlobalKv kv).pair? global key = kv.lookup key := by
  obtain ⟨group, found⟩ := mem_groups_iff.mp member
  simp only [setGlobalKv, set, found, pair?, AList.lookup_insert, Option.bind_some]

/-- One key goes from `[global]` to the other groups. -/
structure Stolen (parser after : SmbconfParser) (global : CStr) (conf : ShareConf) : Prop where
  kept : after.global = parser.global
  groups : ∀ name, name ∈ after.groups ↔ name ∈ parser.groups
  values : ∀ name ∈ parser.groups, name ≠ global → ∀ key, after.value? name key = (parser.value? name key).or
    (if key = conf.key ∧ conf.isBroken = false then parser.offered global conf else none)
  left : ∀ key, key ≠ conf.key → after.pair? global key = parser.pair? global key

theorem mem_offerEntry {entry name : CStr} : name ∈ (parser.offerEntry entry).groups ↔ name ∈ parser.groups :=
  Table.mem_mapValues

theorem pair?_offerEntry_global {global : CStr} (set : parser.global = some global) (entry key : CStr) :
    (parser.offerEntry entry).pair? global key = parser.pair? global key := by
  rw [pair?, pair?, offerEntry, Table.lookup_mapValues]
  cases parser.groups.lookup global with
  | none => rfl
  | some group => simp [set]

theorem pair?_offerEntry {global name : CStr} (set : parser.global = some global) (apart : name ≠ global)
    (member : name ∈ parser.groups) (entry key : CStr) :
    (parser.offerEntry entry).pair? name key = (parser.pair? name key).or
      (if asciiStrdown (entryPair entry).key = key ∧ cpSmbconfEol (entryPair entry).value = false
        then some (entryPair entry) else none) := by
  obtain ⟨group, found⟩ := mem_groups_iff.mp member
  have other : (parser.global == some name) = false := by simp [set, Ne.symm apart]
  rw [pair?_eq found, pair?, offerEntry, Table.lookup_mapValues, found, ← lookup_addKeyValue]
  simp [other]

theorem offered_eq {global : CStr} {conf : ShareConf} {stolen : Option KeyValue}
    (taken : stolen = if conf.isGlobal then none else parser.pair? global conf.key)
    (formed : ∀ pair ∈ stolen, pair.Formed) :
    parser.offered global conf =
      if cpSmbconfEol (conf.offeredPair stolen).value = false then some (conf.offeredPair stolen).value else none := by
  have value : (if conf.isGlobal then none else parser.value? global conf.key) = stolen.map (·.value) := by
    rw [taken, value?]
    cases conf.isGlobal <;> rfl
  rw [offered, value]
  cases stolen with
  | none => cases eol : cpSmbconfEol conf.defconf <;> simp [ShareConf.offeredPair, eol]
  | some stored => simp [ShareConf.offeredPair, (formed stored rfl).value_eol]

theorem stealShareConf_stolen {global : CStr} (set : parser.global = some global) (member : global ∈ parser.groups)
    {conf : ShareConf} (formed : conf.isGlobal = false →
      ∀ pair ∈ parser.pair? global conf.key, asciiStrdown pair.key = conf.key ∧ pair.Formed) :
    Stolen parser (parser.stealShareConf conf) global conf := by
  cases broken : conf.isBroken
  · obtain ⟨stolen, taken⟩ : ∃ stolen, stolen = if conf.isGlobal then none else parser.pair? global conf.key := ⟨_, rfl⟩
    obtain ⟨middle, left⟩ : ∃ middle, middle = if conf.isGlobal then parser
      else parser.setGlobalKv (parser.globalKv.erase conf.key) := ⟨_, rfl⟩
    have ran : parser.stealShareConf conf = middle.offerEntry
        ((stolen.map (·.key)).getD conf.key ++ ascii " = " ++ (stolen.map (·.value)).getD conf.defconf) := by
      rw [taken, left, stealShareConf, if_neg (by simp [broken]), globalKv_lookup set]
    have stored : ∀ pair ∈ stolen, asciiStrdown pair.key = conf.key ∧ pair.Formed := by
      intro pair here
      rw [taken] at here
      split_ifs at here with own
      · simp at here
      · exact formed (by simpa using own) pair here
    have keyed : asciiStrdown (conf.offeredPair stolen).key = conf.key := by
      cases stolen with
      | none => exact conf.asciiStrdown_key
      | some pair => exact (stored pair rfl).1
    have kept : middle.global = some global := by
      rw [left]
      split_ifs
      · exact set
      · rw [setGlobalKv_global, set]
    have groups : ∀ name, name ∈ middle.groups ↔ name ∈ parser.groups := by
      intro name
      rw [left]
      split_ifs
      · rfl
      · exact mem_setGlobalKv
    have others : ∀ name key, name ≠ global → middle.pair? name key = parser.pair? name key := by
      intro name key apart
      rw [left]
      split_ifs
      · rfl
      · rw [pair?, pair?, lookup_setGlobalKv set apart]
    have untouched : ∀ key, key ≠ conf.key → middle.pair? global key = parser.pair? global key := by
      intro key differs
      rw [left]
      split_ifs
      · rfl
      · rw [pair?_setGlobalKv set member, AList.lookup_erase_ne differs, globalKv_lookup set]
    rw [ran]
    refine ⟨kept.trans set.symm, fun name => mem_offerEntry.trans (groups name), ?_, ?_⟩
    · intro name here apart key
      rw [value?, value?, pair?_offerEntry kept apart ((groups name).mpr here), others name key apart, Option.map_or,
        ShareConf.entryPair_offered fun pair here => (stored pair here).2, keyed,
        offered_eq taken fun pair here => (stored pair here).2]
      by_cases same : key = conf.key
      · cases cpSmbconfEol (conf.offeredPair stolen).value <;> simp [same, broken]
      · simp [same, Ne.symm same]
    · intro key differs
      rw [pair?_offerEntry_global kept, untouched key differs]
  · rw [stealShareConf, if_pos broken]
    exact ⟨rfl, fun _ => Iff.rfl, fun _ _ _ _ => by simp [broken], fun _ _ => rfl⟩

theorem stealShareConfs_values {global : CStr} {confs : List ShareConf} (set : parser.global = some global)
    (member : global ∈ parser.groups) (distinct : confs.Nodup)
    (formed : ∀ conf ∈ confs, conf.isGlobal = false →
      ∀ pair ∈ parser.pair? global conf.key, asciiStrdown pair.key = conf.key ∧ pair.Formed) :
    (confs.foldl stealShareConf parser).global = some global ∧
      (∀ name, name ∈ (confs.foldl stealShareConf parser).groups ↔ name ∈ parser.groups) ∧
      ∀ name ∈ parser.groups, name ≠ global → ∀ conf : ShareConf,
        (confs.foldl stealShareConf parser).value? name conf.key = (parser.value? name conf.key).or
          (if conf ∈ confs ∧ conf.isBroken = false then parser.offered global conf else none) := by
  induction confs generalizing parser with
  | nil => exact ⟨set, fun _ => Iff.rfl, fun _ _ _ _ => by simp⟩
  | cons first rest ih =>
    obtain ⟨apart, distinct⟩ := List.nodup_cons.mp distinct
    have stolen := stealShareConf_stolen set member (formed first List.mem_cons_self)
    have untouched : ∀ conf ∈ rest, (parser.stealShareConf first).pair? global conf.key = parser.pair? global conf.key :=
      fun conf later => stolen.left conf.key fun same => apart (ShareConf.key_injective same ▸ later)
    obtain ⟨kept, groups, values⟩ := ih (stolen.kept.trans set) ((stolen.groups global).mpr member) distinct
      fun conf later own pair here => formed conf (List.mem_cons_of_mem _ later) own pair (untouched conf later ▸ here)
    refine ⟨kept, fun name => (groups name).trans (stolen.groups name), fun name here other conf => ?_⟩
    rw [List.foldl_cons, values name ((stolen.groups name).mpr here) other, stolen.values name here other, Option.or_assoc]
    congr 1
    by_cases same : conf = first
    · subst same
      simp [apart]
    · have differs : conf.key ≠ first.key := fun equal => same (ShareConf.key_injective equal)
      rw [if_neg (fun both => differs both.1), Option.none_or]
      by_cases later : conf ∈ rest
      · simp only [later, List.mem_cons_of_mem first later, offered, value?, untouched conf later]
      · simp [later, same]

theorem addGroup_global (formed : parser.Formed platform) :
    (parser.addGroup platform globalName).global = some (shmCasefoldShareName platform globalName) := by
  have global := formed.global
  simp only [addGroup]
  split_ifs with old
  · simpa [old] using global
  all_goals simp_all

/-- The groups that go to `shm_add_new_share`, and what they have for each key. -/
structure Finalized (platform : Platform) (parser after : SmbconfParser) : Prop where
  global : after.global = some (shmCasefoldShareName platform globalName)
  groups : ∀ name, name ∈ after.groups ↔ name = shmCasefoldShareName platform ipcName ∨
    name = shmCasefoldShareName platform globalName ∨ name ∈ parser.groups
  values : ∀ name ∈ after.groups, name ≠ shmCasefoldShareName platform globalName → ∀ conf : ShareConf,
    conf.isBroken = false → (name = shmCasefoldShareName platform ipcName → conf ≠ .comment ∧ conf ≠ .guestOk) →
    after.value? name conf.key =
      (parser.value? name conf.key).or (parser.offered (shmCasefoldShareName platform globalName) conf)

theorem addGlobal_pairs (formed : parser.Formed platform) (reloading : Bool) :
    (parser.addGlobal platform reloading).global = some (shmCasefoldShareName platform globalName) ∧
      (∀ name, name ∈ (parser.addGlobal platform reloading).groups ↔
        name = shmCasefoldShareName platform globalName ∨ name ∈ parser.groups) ∧
      ∀ name key, (name = shmCasefoldShareName platform globalName →
          ∀ entry ∈ globalDefaults, asciiStrdown (entryPair entry).key ≠ key) →
        (parser.addGlobal platform reloading).pair? name key = parser.pair? name key := by
  cases reloading
  · refine ⟨?_, fun name => ?_, fun name key apart => ?_⟩ <;> simp only [addGlobal, Bool.false_eq_true, if_false]
    · rw [addEntries_global, addGroup_global formed]
    · rw [mem_addEntries, mem_addGroup]
    · rw [pair?_addEntries (addGroup_current _ _) (mem_addGroup.mpr (.inl rfl)) apart, pair?_addGroup]
  · exact ⟨addGroup_global formed, fun _ => mem_addGroup, fun _ _ _ => pair?_addGroup _ _ _ _⟩

theorem addIpc_pairs (parser : SmbconfParser) :
    (parser.global = some (shmCasefoldShareName platform globalName) →
      (parser.addIpc platform).global = some (shmCasefoldShareName platform globalName)) ∧
      (∀ name, name ∈ (parser.addIpc platform).groups ↔
        name = shmCasefoldShareName platform ipcName ∨ name ∈ parser.groups) ∧
      ∀ name key, (name = shmCasefoldShareName platform ipcName →
          ∀ entry ∈ ipcShareConf, asciiStrdown (entryPair entry).key ≠ key) →
        (parser.addIpc platform).pair? name key = parser.pair? name key := by
  refine ⟨fun set => ?_, fun name => ?_, fun name key away => ?_⟩ <;> unfold addIpc
  · rw [addEntries_global, SmbconfParser.addGroup]
    simp only [set, Option.isNone_some, Bool.false_and, Bool.false_eq_true, if_false]
    split_ifs <;> rfl
  · rw [mem_addEntries, mem_addGroup]
  · rw [pair?_addEntries (addGroup_current _ _) (mem_addGroup.mpr (.inl rfl)) away, pair?_addGroup]

theorem ipcShareConf_apart {conf : ShareConf} (other : conf ≠ .comment ∧ conf ≠ .guestOk) :
    ∀ entry ∈ ipcShareConf, asciiStrdown (entryPair entry).key ≠ conf.key := by
  have all : ∀ conf ∈ ShareConf.all, conf ≠ .comment ∧ conf ≠ .guestOk →
      ∀ entry ∈ ipcShareConf, asciiStrdown (entryPair entry).key ≠ conf.key := by decide +kernel
  exact all conf conf.mem_all other

theorem finalized_eq_some {reloading : Bool} {guest : Option CStr → Bool} {start conf : GlobalConf} {after : SmbconfParser}
    (finished : parser.finalized platform reloading guest start = some (conf, after)) :
    ∃ kv, processGlobalConfKv reloading guest (parser.addGlobal platform reloading).globalKv start = some (kv, conf) ∧
      after = ShareConf.all.foldl stealShareConf (((parser.addGlobal platform reloading).setGlobalKv kv).addIpc
        platform) := by
  simp only [finalized, Option.bind_eq_bind] at finished
  generalize processGlobalConfKv reloading guest (parser.addGlobal platform reloading).globalKv start =
    processed at finished ⊢
  cases processed with
  | none => cases finished
  | some pair =>
    rw [Option.bind_some] at finished
    obtain ⟨same, last⟩ := Prod.mk.inj (Option.some.inj finished)
    exact ⟨pair.1, by rw [← same], last.symm⟩

theorem finalized_values (apart : shmCasefoldShareName platform globalName ≠ shmCasefoldShareName platform ipcName)
    (formed : parser.Formed platform) {reloading : Bool} {guest : Option CStr → Bool} {start conf : GlobalConf}
    {after : SmbconfParser} (finished : parser.finalized platform reloading guest start = some (conf, after)) :
    Finalized platform parser after := by
  obtain ⟨set, groups, pairs⟩ := addGlobal_pairs formed reloading
  obtain ⟨kv, processed, rfl⟩ := finalized_eq_some finished
  generalize parser.addGlobal platform reloading = first at set groups pairs processed ⊢
  have member : shmCasefoldShareName platform globalName ∈ first.groups := (groups _).mpr (.inl rfl)
  obtain ⟨keeps, joined, others⟩ := @addIpc_pairs platform (first.setGlobalKv kv)
  have second := keeps (by rw [setGlobalKv_global, set])
  -- what the groups have before the keys of shares are stolen from `[global]`
  have global : ∀ conf : ShareConf, conf.isGlobal = false →
      ((first.setGlobalKv kv).addIpc platform).pair? (shmCasefoldShareName platform globalName) conf.key =
        parser.pair? (shmCasefoldShareName platform globalName) conf.key := by
    intro conf own
    rw [others _ _ (fun same => absurd same apart), pair?_setGlobalKv set member,
      lookup_processGlobalConfKv (globalParams_apart own) processed, globalKv_lookup set,
      pairs _ _ fun _ => globalDefaults_apart own]
  have distinct : ShareConf.all.Nodup := List.Nodup.of_map _ ShareConf.nodup_keys
  obtain ⟨kept, same, values⟩ := stealShareConfs_values second ((joined _).mpr (.inr (mem_setGlobalKv.mpr member)))
    distinct fun conf _ own pair here =>
      have stored := formed.pair_formed (global conf own ▸ Option.mem_def.mp here)
      ⟨stored.1.symm, stored.2⟩
  refine ⟨kept, fun name => ?_, fun name here away conf whole ipc => ?_⟩
  · rw [same, joined, mem_setGlobalKv, groups]
  · rw [values name ((same name).mp here) away, if_pos ⟨conf.mem_all, whole⟩, value?, value?,
      others name conf.key (fun named => ipcShareConf_apart (ipc named)), pair?, lookup_setGlobalKv set away, ← pair?,
      pairs name conf.key (fun named => absurd named away)]
    congr 1
    cases own : conf.isGlobal
    · simp only [offered, value?, global conf own]
    · simp only [offered, own, if_true]

end SmbconfParser

def givenValue (platform : Platform) (file : List UInt8) (name : CStr) (conf : ShareConf) : Option CStr :=
  (firstGiven (assignments platform none (fileEntries file)) name conf.key).map (·.value)

/-- The own value, else the one of `[global]`, else the default. -/
def inheritedValue (platform : Platform) (file : List UInt8) (name : CStr) (conf : ShareConf) : Option CStr :=
  (givenValue platform file name conf).or
    ((if conf.isGlobal then none else givenValue platform file (shmCasefoldShareName platform globalName) conf).or
      (if cpSmbconfEol conf.defconf then none else some conf.defconf))

/-- Two files say the same in the same order within the sections of each name, wherever these stand. -/
def SameSections (platform : Platform) (file other : List UInt8) : Prop :=
  ∀ name, (assignments platform none (fileEntries file)).filter (·.1 == name) =
    (assignments platform none (fileEntries other)).filter (·.1 == name)

theorem SameSections.givenValue {file other : List UInt8} (same : SameSections platform file other) (name : CStr)
    (conf : ShareConf) : givenValue platform file name conf = givenValue platform other name conf := by
  have inside : ∀ given : List (CStr × KeyValue), firstGiven given name conf.key =
      ((given.filter (·.1 == name)).find? fun entry =>
        asciiStrdown entry.2.key == conf.key && !entry.2.value.isEmpty).map (·.2) := by
    intro given
    rw [firstGiven, List.find?_filter]
    simp only [Bool.and_assoc, Bool.decide_and, Bool.decide_eq_true]
  rw [Config.givenValue, Config.givenValue, inside, inside, same name]

open SmbconfParser in
theorem loaded_values {file : List UInt8} {reloading : Bool} {guest : Option CStr → Bool} {start conf : GlobalConf}
    {parser : SmbconfParser} (apart : shmCasefoldShareName platform globalName ≠ shmCasefoldShareName platform ipcName)
    (loaded : cpParseSmbconf platform reloading guest start file = some (conf, parser)) :
    (∀ name, name ∈ parser.groups ↔ name = shmCasefoldShareName platform ipcName ∨
      name = shmCasefoldShareName platform globalName ∨ name ∈ sectionNames platform (fileEntries file)) ∧
    ∀ name ∈ parser.groups, name ≠ shmCasefoldShareName platform globalName → ∀ key : ShareConf, key.isBroken = false →
      (name = shmCasefoldShareName platform ipcName → key ≠ .comment ∧ key ≠ .guestOk) →
      parser.value? name key.key = inheritedValue platform file name key := by
  unfold cpParseSmbconf at loaded
  split at loaded
  · cases loaded
  · rename_i parsed ran
    have accepted : (parseEntries (processSmbconfEntry platform) {} (fileEntries file)).2 = true := congrArg Prod.snd ran
    have first : (parseEntries (processSmbconfEntry platform) {} (fileEntries file)).1 = parsed := congrArg Prod.fst ran
    have formed : parsed.Formed platform := first ▸ Formed.empty.parseEntries _
    have final := finalized_values apart formed loaded
    have given : ∀ name (key : ShareConf), parsed.value? name key.key = givenValue platform file name key := by
      intro name key
      rw [← first, value?, pair?_parseEntries Formed.empty accepted]
      rfl
    refine ⟨fun name => ?_, fun name member away key whole ipc => ?_⟩
    · rw [final.groups, ← first, mem_parseEntries accepted]
      simp
    · rw [final.values name member away key whole ipc, given, offered, given]
      rfl

theorem SmbconfParser.shareValue_eq {parser : SmbconfParser} {name : CStr} {group : SmbconfGroup}
    (found : parser.groups.lookup name = some group) (key : ShareConf) :
    SmbconfParser.shareValue group key = parser.value? name key.key := by
  rw [SmbconfParser.value?, SmbconfParser.pair?_eq found]
  rfl

/-- The groups of a file are its sections, those of equal names merged, and each key of a
share has the value of its section, of `[global]` or the default. The order of the sections
of different names does not matter. `apart` is what `g_utf8_casefold` does on two names. -/
theorem share_values_inherited (platform : Platform)
    (apart : shmCasefoldShareName platform globalName ≠ shmCasefoldShareName platform ipcName)
    (guest : Option CStr → Bool) (start conf : GlobalConf) (file : List UInt8) (parser : SmbconfParser)
    (loaded : cpParseSmbconf platform false guest start file = some (conf, parser)) :
    (∀ name, name ∈ parser.groups ↔ name = shmCasefoldShareName platform ipcName ∨
      name = shmCasefoldShareName platform globalName ∨ name ∈ sectionNames platform (fileEntries file)) ∧
    (∀ name group, parser.groups.lookup name = some group → name ≠ shmCasefoldShareName platform globalName →
      name ≠ shmCasefoldShareName platform ipcName → ∀ key : ShareConf, key.isBroken = false →
      SmbconfParser.shareValue group key = inheritedValue platform file name key) ∧
    ∀ guest' start' conf' other parser', cpParseSmbconf platform false guest' start' other = some (conf', parser') →
      SameSections platform file other → ∀ name group group', parser.groups.lookup name = some group →
      parser'.groups.lookup name = some group' → name ≠ shmCasefoldShareName platform globalName →
      name ≠ shmCasefoldShareName platform ipcName → ∀ key : ShareConf, key.isBroken = false →
      SmbconfParser.shareValue group' key = SmbconfParser.shareValue group key := by
  obtain ⟨groups, values⟩ := loaded_values apart loaded
  have inherits : ∀ name group, parser.groups.lookup name = some group → name ≠ shmCasefoldShareName platform globalName →
      name ≠ shmCasefoldShareName platform ipcName → ∀ key : ShareConf, key.isBroken = false →
      SmbconfParser.shareValue group key = inheritedValue platform file name key := by
    intro name group found away ipc key whole
    rw [SmbconfParser.shareValue_eq found]
    exact values name (SmbconfParser.mem_groups_iff.mpr ⟨group, found⟩) away key whole fun named => absurd named ipc
  refine ⟨groups, inherits, ?_⟩
  intro guest' start' conf' other parser' loaded' same name group group' found found' away ipc key whole
  obtain ⟨-, values'⟩ := loaded_values apart loaded'
  rw [inherits name group found away ipc key whole, SmbconfParser.shareValue_eq found',
    values' name (SmbconfParser.mem_groups_iff.mpr ⟨group', found'⟩) away key whole fun named => absurd named ipc,
    inheritedValue, inheritedValue, same.givenValue, same.givenValue]

namespace Scenario
open Management.Scenario

/-- Two sections of one share around `[global]`, each with a path. -/
def mergedFile : List UInt8 :=
  ascii "[s]" ++ [10] ++ ascii "path = /s" ++ [10] ++ ascii "[global]" ++ [10] ++ ascii "Path = /g" ++ [10] ++
    ascii "oplocks = no" ++ [10] ++ ascii "[S]" ++ [10] ++ ascii "PATH = /t" ++ [10] ++ ascii "guest ok = yes" ++ [10]

end Scenario

/-- The share has its first path, its `guest ok`, the `oplocks` of `[global]` and a default. -/
theorem share_values_inherited_merged :
    ∃ conf parser group, cpParseSmbconf Management.Scenario.plainPlatform false (fun _ => true) {} Scenario.mergedFile =
        some (conf, parser) ∧ parser.groups.lookup (ascii "s") = some group ∧
      SmbconfParser.shareValue group .path = some (ascii "/s") ∧
      SmbconfParser.shareValue group .guestOk = some (ascii "yes") ∧
      SmbconfParser.shareValue group .oplocks = some (ascii "no") ∧
      SmbconfParser.shareValue group .browseable = some (ascii "yes") ∧
      SmbconfParser.shareValue group .readOnly = none := by
  have accepted : (cpParseSmbconf Management.Scenario.plainPlatform false (fun _ => true) {} Scenario.mergedFile).isSome =
      true := by decide +kernel
  obtain ⟨⟨conf, parser⟩, loaded⟩ := Option.isSome_iff_exists.mp accepted
  obtain ⟨groups, values, -⟩ := share_values_inherited _ (by decide +kernel) _ _ conf _ parser loaded
  obtain ⟨group, found⟩ := SmbconfParser.mem_groups_iff.mp ((groups (ascii "s")).mpr (by decide +kernel))
  have read := values _ group found (by decide +kernel) (by decide +kernel)
  exact ⟨conf, parser, group, loaded, found, (read .path rfl).trans (by decide +kernel),
    (read .guestOk rfl).trans (by decide +kernel), (read .oplocks rfl).trans (by decide +kernel),
    (read .browseable rfl).trans (by decide +kernel), (read .readOnly rfl).trans (by decide +kernel)⟩

end KsmbdTools.Config
