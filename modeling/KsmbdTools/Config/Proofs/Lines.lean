import KsmbdTools.Config.Smbconf
import KsmbdTools.Texts

/-! What the parser keeps of its lines: every stored name, key and value is one that a
line of the file could have given. -/

namespace KsmbdTools.Config
open Management Texts

/-- Key and value as `is_a_key_value` leaves them, trimmed. -/
structure KeyValue.Formed (pair : KeyValue) : Prop where
  keySome : pair.key ≠ []
  keyStarts : Starts isAsciiSpaceTab pair.key
  keyEnds : Ends isAsciiSpaceTab pair.key
  keyBytes : ∀ byte ∈ pair.key, cpPrintable byte = true ∧ startsComment byte = false ∧ byte ≠ 61
  valueSome : pair.value ≠ []
  valueStarts : Starts isAsciiSpaceTab pair.value
  valueBytes : ∀ byte ∈ pair.value, cpPrintable byte = true ∧ startsComment byte = false

theorem ends_cpRtrim {text : CStr} (starts : Starts isAsciiSpaceTab text) : Ends isAsciiSpaceTab (cpRtrim text) := by
  rcases text with _ | ⟨first, rest⟩
  · exact fun _ last => by simp [cpRtrim] at last
  · intro byte last
    have kept : Ends isAsciiSpaceTab (rest.rdropWhile isAsciiSpaceTab) := ends_rdropWhile rest
    rw [cpRtrim, List.getLast?_cons] at last
    rcases tail : (rest.rdropWhile isAsciiSpaceTab).getLast? with _ | other
    · simp only [tail, Option.getD_none, Option.mem_def, Option.some.injEq] at last
      exact last ▸ starts first rfl
    · simp only [tail, Option.getD_some, Option.mem_def, Option.some.injEq] at last
      exact last ▸ kept other tail

theorem mem_of_mem_cpRtrim {text : CStr} {byte : UInt8} (member : byte ∈ cpRtrim text) : byte ∈ text := by
  rcases text with _ | ⟨first, rest⟩
  · exact member
  · rcases List.mem_cons.mp member with rfl | later
    · exact List.mem_cons_self
    · exact List.mem_cons_of_mem _ ((List.rdropWhile_prefix isAsciiSpaceTab rest).subset later)

theorem cpRtrim_append {key blanks : CStr} (some : key ≠ []) (ends : Ends isAsciiSpaceTab key)
    (all : ∀ byte ∈ blanks, isAsciiSpaceTab byte = true) : cpRtrim (key ++ blanks) = key := by
  rcases key with _ | ⟨first, rest⟩
  · exact absurd rfl some
  · have ends : Ends isAsciiSpaceTab rest := by
      intro byte last
      refine ends byte ?_
      rw [List.getLast?_cons, Option.mem_def.mp last]
      rfl
    rw [List.cons_append, cpRtrim, rdropWhile_blanks ends all]

/-- What an accepted line says: key and value with nothing of the grammar in them. -/
structure KeyLine (key blanks value : CStr) : Prop where
  keySome : key ≠ []
  keyBytes : ∀ byte ∈ key, cpPrintable byte = true ∧ startsComment byte = false
  keyPlain : 61 ∉ key
  blank : ∀ byte ∈ blanks, isAsciiSpaceTab byte = true
  valueStarts : Starts isAsciiSpaceTab value
  valueBytes : ∀ byte ∈ value, cpPrintable byte = true ∧ startsComment byte = false

namespace KeyLine
variable {key blanks value : CStr}

theorem entryPair_eq (line : KeyLine key blanks value) :
    entryPair (key ++ 61 :: (blanks ++ value)) = ⟨cpRtrim key, value⟩ := by
  rw [entryPair, takeWhile_ne line.keyPlain, dropWhile_ne line.keyPlain, List.drop_one, List.tail_cons, cpLtrim,
    dropWhile_blanks line.blank line.valueStarts]

theorem formed (line : KeyLine key blanks value) (starts : Starts isAsciiSpaceTab key) (some : value ≠ []) :
    KeyValue.Formed ⟨cpRtrim key, value⟩ where
  keySome := by
    obtain ⟨first, rest, rfl⟩ := List.exists_cons_of_ne_nil line.keySome
    simp [cpRtrim]
  keyStarts := by
    obtain ⟨first, rest, rfl⟩ := List.exists_cons_of_ne_nil line.keySome
    exact starts
  keyEnds := ends_cpRtrim starts
  keyBytes byte member := by
    have inside := mem_of_mem_cpRtrim member
    refine ⟨(line.keyBytes byte inside).1, (line.keyBytes byte inside).2, ?_⟩
    rintro rfl
    exact line.keyPlain inside
  valueSome := some
  valueStarts := line.valueStarts
  valueBytes := line.valueBytes

theorem eol_iff (line : KeyLine key blanks value) : cpSmbconfEol value = true ↔ value = [] := by
  rcases value with _ | ⟨first, rest⟩
  · simp [cpSmbconfEol]
  · simp [cpSmbconfEol, (line.valueBytes first List.mem_cons_self).2]

end KeyLine

variable {platform : Platform}

theorem starts_of_eol {text : CStr} (eol : cpSmbconfEol text = true) : Starts isAsciiSpaceTab text := by
  rcases text with _ | ⟨first, rest⟩
  · exact fun _ last => by simp at last
  · intro byte head
    cases Option.some.inj head
    simp only [cpSmbconfEol, startsComment, Bool.or_eq_true, beq_iff_eq] at eol
    rcases eol with rfl | rfl <;> decide

theorem takeWhile_value {value comment : CStr} (bytes : ∀ byte ∈ value, startsComment byte = false)
    (eol : cpSmbconfEol comment = true) : (value ++ comment).takeWhile (!startsComment ·) = value := by
  rw [List.takeWhile_append_of_pos (fun byte member => by simp [bytes byte member])]
  rcases comment with _ | ⟨first, rest⟩
  · simp
  · rw [List.takeWhile_cons_of_neg (by simpa [cpSmbconfEol] using eol), List.append_nil]

theorem SmbconfParser.isAKeyValue_eq_some_iff {parser : SmbconfParser} {entry cut : CStr} :
    parser.isAKeyValue entry = some cut ↔ ∃ key blanks value comment, KeyLine key blanks value ∧
      entry = key ++ 61 :: (blanks ++ (value ++ comment)) ∧ cut = key ++ 61 :: (blanks ++ value) ∧
      cpSmbconfEol comment = true ∧ parser.current.isSome = true := by
  constructor
  · intro accepted
    rcases found : entry.dropWhile (· != 61) with _ | ⟨first, behind⟩
    · simp [isAKeyValue, found] at accepted
    have split := split_of_dropWhile_ne found
    simp only [isAKeyValue, found] at accepted
    split_ifs at accepted with refused printable
    simp only [Bool.or_eq_true, List.isEmpty_iff, Bool.not_eq_true', not_or, Bool.not_eq_false, List.all_eq_true,
      Bool.and_eq_true, Option.isNone_iff_eq_none, ← Option.isSome_iff_ne_none] at refused printable
    obtain ⟨⟨keySome, keyBytes⟩, current⟩ := refused
    have bytes : ∀ byte ∈ (cpLtrim behind).takeWhile (!startsComment ·), cpPrintable byte = true ∧
        startsComment byte = false :=
      fun byte member => ⟨printable byte member, by simpa using List.mem_takeWhile_imp member⟩
    refine ⟨_, _, _, (cpLtrim behind).dropWhile (!startsComment ·), ⟨keySome, keyBytes, not_mem_takeWhile_ne _,
      fun byte member => List.mem_takeWhile_imp member, ?_, bytes⟩, ?_, (Option.some.inj accepted).symm, ?_,
      current⟩
    · intro byte head
      refine (starts_dropWhile behind : Starts isAsciiSpaceTab (behind.dropWhile isAsciiSpaceTab)) byte ?_
      rw [← List.takeWhile_append_dropWhile (p := (!startsComment ·)) (l := behind.dropWhile isAsciiSpaceTab)]
      exact List.mem_head?_append_of_mem_head? head
    · rw [List.takeWhile_append_dropWhile, cpLtrim, List.takeWhile_append_dropWhile]
      exact split
    · rcases rest : (cpLtrim behind).dropWhile (!startsComment ·) with _ | ⟨stop, comment⟩
      · rfl
      · have stops := List.head_dropWhile_not (!startsComment ·) (l := cpLtrim behind) (by rw [rest]; simp)
        simpa [rest, cpSmbconfEol] using stops
  · rintro ⟨key, blanks, value, comment, line, rfl, rfl, eol, current⟩
    have starts : Starts isAsciiSpaceTab (value ++ comment) := by
      by_cases empty : value = []
      · simpa [empty] using starts_of_eol eol
      · exact starts_append empty line.valueStarts comment
    have keyFine : (key.all fun byte => cpPrintable byte && !startsComment byte) = true := by
      simpa using line.keyBytes
    have valueFine : value.all cpPrintable = true := by simpa using fun byte member => (line.valueBytes byte member).1
    have kept : cpLtrim (blanks ++ (value ++ comment)) = value ++ comment := dropWhile_blanks line.blank starts
    have here : parser.current.isNone = false := by
      simpa [Option.isNone_iff_eq_none, ← Option.isSome_iff_ne_none] using current
    simp only [isAKeyValue, takeWhile_ne line.keyPlain, dropWhile_ne line.keyPlain, kept,
      takeWhile_value (fun byte member => (line.valueBytes byte member).2) eol, takeWhile_blanks line.blank starts, keyFine,
      valueFine, here, List.isEmpty_eq_false_iff.mpr line.keySome]
    rfl

structure SmbconfGroup.Formed (platform : Platform) (group : SmbconfGroup) : Prop where
  name : shmShareName platform group.name = true
  pairs : ∀ key pair, group.kv.lookup key = some pair → key = asciiStrdown pair.key ∧ pair.Formed

structure SmbconfParser.Formed (platform : Platform) (parser : SmbconfParser) : Prop where
  groups : ∀ key group, parser.groups.lookup key = some group →
    key = shmCasefoldShareName platform group.name ∧ group.Formed platform
  current : ∀ key ∈ parser.current, key ∈ parser.groups
  global : parser.global =
    if shmCasefoldShareName platform globalName ∈ parser.groups then some (shmCasefoldShareName platform globalName)
    else none
  ipc : parser.ipc =
    if shmCasefoldShareName platform ipcName ∈ parser.groups ∧
      shmCasefoldShareName platform ipcName ≠ shmCasefoldShareName platform globalName
    then some (shmCasefoldShareName platform ipcName) else none

theorem shmShareName_bytes {name : CStr} (named : shmShareName platform name = true) :
    ∀ byte ∈ name, cpPrintable byte = true ∧ byte ≠ 91 ∧ byte ≠ 93 := by
  simp only [shmShareName, Bool.and_eq_true, List.all_eq_true, bne_iff_ne, ne_eq] at named
  exact fun byte member => ⟨(named.2 byte member).1.1, (named.2 byte member).1.2, (named.2 byte member).2⟩

theorem isAGroup_eq_some_iff {entry name : CStr} : isAGroup platform entry = some name ↔
    ∃ behind, entry = 91 :: (name ++ 93 :: behind) ∧ shmShareName platform name = true ∧
      cpSmbconfEol (cpLtrim behind) = true := by
  constructor
  · intro group
    unfold isAGroup at group
    split at group
    · rename_i rest
      rcases found : rest.dropWhile (· != 93) with _ | ⟨first, behind⟩
      · simp [found] at group
      · simp only [found, Option.ite_none_right_eq_some, Bool.and_eq_true, Option.some.injEq] at group
        obtain ⟨⟨named, eol⟩, rfl⟩ := group
        exact ⟨behind, congrArg _ (split_of_dropWhile_ne found), named, eol⟩
    · simp at group
  · rintro ⟨behind, rfl, named, eol⟩
    have plain : (93 : UInt8) ∉ name := fun member => (shmShareName_bytes named 93 member).2.2 rfl
    simp [isAGroup, takeWhile_ne plain, dropWhile_ne plain, named, eol]

namespace SmbconfParser
variable {parser : SmbconfParser}

theorem mem_groups_iff {key : CStr} : key ∈ parser.groups ↔ ∃ group, parser.groups.lookup key = some group := by
  rw [← AList.lookup_isSome, Option.isSome_iff_exists]

namespace Formed

theorem addGroup (formed : parser.Formed platform) {name : CStr} (named : shmShareName platform name = true) :
    (parser.addGroup platform name).Formed platform := by
  unfold SmbconfParser.addGroup
  generalize folded : shmCasefoldShareName platform name = key
  simp only
  split_ifs with old isGlobal isIpc
  · exact ⟨formed.groups, fun other current => by cases current; exact old, formed.global, formed.ipc⟩
  all_goals
    have stored : ∀ other group, (parser.groups.insert key { name }).lookup other = some group →
        other = shmCasefoldShareName platform group.name ∧ group.Formed platform := by
      intro other group found
      by_cases this : other = key
      · subst this
        rw [AList.lookup_insert] at found
        cases found
        exact ⟨folded.symm, named, fun _ _ none => by simp at none⟩
      · rw [AList.lookup_insert_ne this] at found
        exact formed.groups _ _ found
    have global := formed.global
    have ipc := formed.ipc
    refine ⟨stored, fun other current => by cases current; simp, ?_, ?_⟩
    all_goals
      simp only [AList.mem_insert, Bool.and_eq_true, Option.isNone_iff_eq_none, beq_iff_eq, not_and] at *
      grind

theorem modifyCurrent (formed : parser.Formed platform) {change : SmbconfGroup → SmbconfGroup}
    (named : ∀ group, (change group).name = group.name)
    (kept : ∀ group : SmbconfGroup, group.Formed platform → (change group).Formed platform) :
    (parser.modifyCurrent change).Formed platform := by
  unfold SmbconfParser.modifyCurrent
  split
  · exact formed
  · rename_i key here
    split
    · exact formed
    · rename_i group found
      have same : ∀ other, other ∈ parser.groups.insert key (change group) ↔ other ∈ parser.groups := by
        intro other
        rw [AList.mem_insert, or_iff_right_iff_imp]
        rintro rfl
        exact mem_groups_iff.mpr ⟨group, found⟩
      refine ⟨?_, ?_, ?_, ?_⟩
      · intro other changed stored
        by_cases this : other = key
        · subst this
          rw [AList.lookup_insert] at stored
          cases stored
          obtain ⟨stays, pairs⟩ := formed.groups _ _ found
          exact ⟨stays.trans (by rw [named]), kept group pairs⟩
        · rw [AList.lookup_insert_ne this] at stored
          exact formed.groups _ _ stored
      · intro other current
        exact (same other).mpr (formed.current other current)
      · simpa only [same] using formed.global
      · simpa only [same] using formed.ipc

end Formed
end SmbconfParser

theorem addKeyValue_line {kv : HashTable CStr KeyValue} {key blanks value : CStr} (line : KeyLine key blanks value) :
    addKeyValue kv (key ++ 61 :: (blanks ++ value)) =
      if value = [] ∨ asciiStrdown (cpRtrim key) ∈ kv then kv
      else kv.insert (asciiStrdown (cpRtrim key)) ⟨cpRtrim key, value⟩ := by
  simp only [addKeyValue, line.entryPair_eq, Bool.or_eq_true, line.eol_iff, decide_eq_true_eq]

theorem SmbconfGroup.Formed.addKeyValue {group : SmbconfGroup} {key blanks value : CStr}
    (formed : group.Formed platform) (line : KeyLine key blanks value) (starts : Starts isAsciiSpaceTab key) :
    SmbconfGroup.Formed platform { group with kv := addKeyValue group.kv (key ++ 61 :: (blanks ++ value)) } := by
  rw [addKeyValue_line line]
  split_ifs with kept
  · exact formed
  · refine ⟨formed.name, fun other pair stored => ?_⟩
    by_cases this : other = asciiStrdown (cpRtrim key)
    · subst this
      rw [AList.lookup_insert] at stored
      cases stored
      exact ⟨rfl, line.formed starts fun empty => kept (.inl empty)⟩
    · rw [AList.lookup_insert_ne this] at stored
      exact formed.pairs _ _ stored

theorem SmbconfGroup.Formed.erase {group : SmbconfGroup} (formed : group.Formed platform) (key : CStr) :
    SmbconfGroup.Formed platform { group with kv := group.kv.erase key } := by
  refine ⟨formed.name, fun other pair stored => formed.pairs other pair ?_⟩
  by_cases this : other = key
  · subst this
    simp at stored
  · rwa [AList.lookup_erase_ne this] at stored

theorem KeyLine.starts {key blanks value rest : CStr} (line : KeyLine key blanks value)
    (trimmed : Starts isAsciiSpaceTab (key ++ rest)) : Starts isAsciiSpaceTab key := by
  obtain ⟨first, more, rfl⟩ := List.exists_cons_of_ne_nil line.keySome
  exact trimmed

namespace SmbconfParser
variable {parser : SmbconfParser}

theorem processSmbconfEntry_cases (platform : Platform) (parser : SmbconfParser) (entry : CStr) :
    (cpSmbconfEol (cpLtrim entry) = true ∧ parser.processSmbconfEntry platform entry = (parser, true)) ∨
    (cpSmbconfEol (cpLtrim entry) = false ∧ ∃ name, isAGroup platform (cpLtrim entry) = some name ∧
      parser.processSmbconfEntry platform entry = (parser.addGroup platform name, true)) ∨
    (cpSmbconfEol (cpLtrim entry) = false ∧ isAGroup platform (cpLtrim entry) = none ∧
      ∃ cut, parser.isAKeyValue (cpLtrim entry) = some cut ∧
        parser.processSmbconfEntry platform entry = (parser.addGroupKeyValue cut, true)) ∨
    (cpSmbconfEol (cpLtrim entry) = false ∧ isAGroup platform (cpLtrim entry) = none ∧
      parser.isAKeyValue (cpLtrim entry) = none ∧ parser.processSmbconfEntry platform entry = (parser, false)) := by
  unfold SmbconfParser.processSmbconfEntry
  cases eol : cpSmbconfEol (cpLtrim entry)
  · cases group : isAGroup platform (cpLtrim entry) with
    | some name => exact .inr (.inl ⟨rfl, name, rfl, by simp [eol, group]⟩)
    | none =>
      cases accepted : parser.isAKeyValue (cpLtrim entry) with
      | some cut => exact .inr (.inr (.inl ⟨rfl, rfl, cut, rfl, by simp [eol, group, accepted]⟩))
      | none => exact .inr (.inr (.inr ⟨rfl, rfl, rfl, by simp [eol, group, accepted]⟩))
  · exact .inl ⟨rfl, by simp [eol]⟩

theorem keyLine_of_accepted {entry cut : CStr} (accepted : parser.isAKeyValue (cpLtrim entry) = some cut) :
    ∃ key blanks value, KeyLine key blanks value ∧ Starts isAsciiSpaceTab key ∧ cut = key ++ 61 :: (blanks ++ value) := by
  obtain ⟨key, blanks, value, comment, line, split, rfl, -⟩ := isAKeyValue_eq_some_iff.mp accepted
  have trimmed : Starts isAsciiSpaceTab (cpLtrim entry) := starts_dropWhile entry
  rw [split] at trimmed
  exact ⟨key, blanks, value, line, line.starts trimmed, rfl⟩

namespace Formed

theorem empty : ({} : SmbconfParser).Formed platform := by
  refine ⟨fun _ _ none => by simp at none, fun _ none => by simp at none, by simp, by simp⟩

theorem addGroupKeyValue (formed : parser.Formed platform) {key blanks value : CStr} (line : KeyLine key blanks value)
    (starts : Starts isAsciiSpaceTab key) : (parser.addGroupKeyValue (key ++ 61 :: (blanks ++ value))).Formed platform :=
  formed.modifyCurrent (fun _ => rfl) fun _ kept => kept.addKeyValue line starts

theorem processSmbconfEntry (formed : parser.Formed platform) (entry : CStr) :
    (parser.processSmbconfEntry platform entry).1.Formed platform := by
  obtain ⟨-, ran⟩ | ⟨-, name, group, ran⟩ | ⟨-, -, cut, accepted, ran⟩ | ⟨-, -, -, ran⟩ :=
    processSmbconfEntry_cases platform parser entry
  all_goals rw [ran]
  · exact formed
  · obtain ⟨_, _, named, _⟩ := isAGroup_eq_some_iff.mp group
    exact formed.addGroup named
  · obtain ⟨key, blanks, value, line, starts, rfl⟩ := keyLine_of_accepted accepted
    exact formed.addGroupKeyValue line starts
  · exact formed

theorem applyOption (formed : parser.Formed platform) (isGlobal : Bool) (option : CStr) :
    (parser.applyOption isGlobal option).Formed platform := by
  simp only [SmbconfParser.applyOption]
  split_ifs
  · exact formed
  rcases accepted : parser.isAKeyValue (cpLtrim option) with _ | cut
  · exact formed
  obtain ⟨key, blanks, value, line, starts, rfl⟩ := keyLine_of_accepted accepted
  simp only
  split
  · exact formed
  · rename_i conf _
    have erased : (parser.modifyCurrent fun group => { group with kv := group.kv.erase (asciiStrdown conf.key) }).Formed
        platform := formed.modifyCurrent (fun _ => rfl) fun _ kept => kept.erase _
    exact erased.addGroupKeyValue line starts

theorem cpParseExternalSmbconfGroup (formed : parser.Formed platform) {name : CStr}
    (named : shmShareName platform name = true) (options : List CStr) :
    (parser.cpParseExternalSmbconfGroup platform name options).Formed platform := by
  simp only [SmbconfParser.cpParseExternalSmbconfGroup]
  generalize ((parser.addGroup platform name).current == (parser.addGroup platform name).global) = isGlobal
  have added := formed.addGroup named
  revert added
  generalize parser.addGroup platform name = start
  intro added
  induction options generalizing start with
  | nil => exact added
  | cons option rest ih => exact ih _ (added.applyOption isGlobal option)

theorem parseEntries (formed : parser.Formed platform) (entries : List CStr) :
    (Management.parseEntries (SmbconfParser.processSmbconfEntry platform) parser entries).1.Formed platform := by
  induction entries generalizing parser with
  | nil => exact formed
  | cons entry rest ih =>
    have next := formed.processSmbconfEntry entry
    simp only [Management.parseEntries]
    rcases ran : parser.processSmbconfEntry platform entry with ⟨after, _ | _⟩
    · rw [ran] at next
      exact next
    · rw [ran] at next
      exact ih next

end Formed

/-- The states that reading lines and applying options for valid names lead to. -/
inductive Reachable (platform : Platform) : SmbconfParser → Prop where
  | empty : Reachable platform {}
  | entry {parser : SmbconfParser} (reached : Reachable platform parser) (entry : CStr) :
    Reachable platform (parser.processSmbconfEntry platform entry).1
  | external {parser : SmbconfParser} (reached : Reachable platform parser) {name : CStr}
    (named : shmShareName platform name = true) (options : List CStr) :
    Reachable platform (parser.cpParseExternalSmbconfGroup platform name options)

theorem Reachable.formed (reached : Reachable platform parser) : parser.Formed platform := by
  induction reached with
  | empty => exact .empty
  | entry _ entry ih => exact ih.processSmbconfEntry entry
  | external _ named options ih => exact ih.cpParseExternalSmbconfGroup named options

end SmbconfParser
end KsmbdTools.Config
