import KsmbdTools.Config.Proofs.Lines

/-! What the parser makes of the lines that a group is printed as. -/

namespace KsmbdTools.Config
open Management Texts

def KeyValue.text (pair : KeyValue) : CStr := pair.key ++ ascii " = " ++ pair.value

/-- The printed pair is read as the pair, not as the header of a group. -/
def KeyValue.Safe (platform : Platform) (pair : KeyValue) : Prop := isAGroup platform pair.text = none

instance (platform : Platform) (pair : KeyValue) : Decidable (pair.Safe platform) :=
  inferInstanceAs (Decidable (isAGroup platform pair.text = none))

def storePair (kv : HashTable CStr KeyValue) (pair : KeyValue) : HashTable CStr KeyValue :=
  if asciiStrdown pair.key ∈ kv then kv else kv.insert (asciiStrdown pair.key) pair

namespace KeyValue.Formed
variable {pair : KeyValue}

theorem keyLine (formed : pair.Formed) : KeyLine (pair.key ++ [32]) [32] pair.value where
  keySome := by simp
  keyBytes byte member := by
    rcases List.mem_append.mp member with inside | space
    · exact ⟨(formed.keyBytes byte inside).1, (formed.keyBytes byte inside).2.1⟩
    · cases List.mem_singleton.mp space
      decide
  keyPlain := by
    intro member
    rcases List.mem_append.mp member with inside | space
    · exact (formed.keyBytes _ inside).2.2 rfl
    · exact absurd (List.mem_singleton.mp space) (by decide)
  blank byte member := by
    cases List.mem_singleton.mp member
    decide
  valueStarts := formed.valueStarts
  valueBytes := formed.valueBytes

theorem cpRtrim_key (formed : pair.Formed) : cpRtrim (pair.key ++ [32]) = pair.key :=
  cpRtrim_append formed.keySome formed.keyEnds (by simp [isAsciiSpaceTab])

theorem text_eq (pair : KeyValue) : pair.text = (pair.key ++ [32]) ++ 61 :: ([32] ++ pair.value) := by
  have separator : ascii " = " = [32, 61, 32] := by decide
  simp [KeyValue.text, separator]

theorem trimmed (formed : pair.Formed) : cpLtrim (pairLine pair) = pair.text := by
  have starts : Starts isAsciiSpaceTab pair.text := by
    rw [KeyValue.text, List.append_assoc]
    exact starts_append formed.keySome formed.keyStarts _
  have tab : ∀ byte ∈ [9], isAsciiSpaceTab byte = true := by decide +kernel
  exact dropWhile_blanks tab starts

theorem not_eol (formed : pair.Formed) : cpSmbconfEol pair.text = false := by
  obtain ⟨first, rest, split⟩ := List.exists_cons_of_ne_nil formed.keySome
  simp [KeyValue.text, split, cpSmbconfEol, (formed.keyBytes first (by simp [split])).2.1]

end KeyValue.Formed

variable {platform : Platform}

namespace SmbconfParser
variable {parser base : SmbconfParser}

/-- The lines of a group are being read: the group is the current one, and the others are as before. -/
structure Reading (base parser : SmbconfParser) (key : CStr) (group : SmbconfGroup) : Prop where
  current : parser.current = some key
  here : parser.groups.lookup key = some group
  others : ∀ other, other ≠ key → parser.groups.lookup other = base.groups.lookup other

theorem addGroup_reading {name : CStr} (fresh : shmCasefoldShareName platform name ∉ parser.groups) :
    Reading parser (parser.addGroup platform name) (shmCasefoldShareName platform name) { name } := by
  simp only [addGroup, fresh, if_false]
  split_ifs <;>
    exact ⟨rfl, AList.lookup_insert _, fun other differs => AList.lookup_insert_ne differs⟩

theorem Reading.modifyCurrent {key : CStr} {group : SmbconfGroup} (reading : Reading base parser key group)
    (change : SmbconfGroup → SmbconfGroup) : Reading base (parser.modifyCurrent change) key (change group) := by
  have changed : parser.modifyCurrent change = { parser with groups := parser.groups.insert key (change group) } := by
    simp [SmbconfParser.modifyCurrent, reading.current, reading.here]
  rw [changed]
  exact ⟨reading.current, AList.lookup_insert _,
    fun other differs => (AList.lookup_insert_ne differs).trans (reading.others other differs)⟩

theorem Reading.pair {key : CStr} {group : SmbconfGroup} {pair : KeyValue} (reading : Reading base parser key group)
    (formed : pair.Formed) (safe : pair.Safe platform) :
    ∃ after, parser.processSmbconfEntry platform (pairLine pair) = (after, true) ∧
      Reading base after key { group with kv := storePair group.kv pair } := by
  have accepted : parser.isAKeyValue pair.text = some pair.text := by
    refine isAKeyValue_eq_some_iff.mpr ⟨_, _, _, [], formed.keyLine, ?_, KeyValue.Formed.text_eq pair, rfl, ?_⟩
    · rw [List.append_nil]
      exact KeyValue.Formed.text_eq pair
    · simp [reading.current]
  have stored : addKeyValue group.kv pair.text = storePair group.kv pair := by
    rw [KeyValue.Formed.text_eq, addKeyValue_line formed.keyLine, formed.cpRtrim_key]
    simp [storePair, formed.valueSome]
  refine ⟨parser.addGroupKeyValue pair.text, ?_, ?_⟩
  · rw [KeyValue.Safe] at safe
    simp [processSmbconfEntry, formed.trimmed, formed.not_eol, safe, accepted]
  · rw [← stored]
    exact reading.modifyCurrent _

theorem Reading.pairs {key : CStr} {group : SmbconfGroup} {pairs : List KeyValue} (reading : Reading base parser key group)
    (formed : ∀ pair ∈ pairs, pair.Formed ∧ pair.Safe platform) (lines : List CStr) :
    ∃ after, parseEntries (processSmbconfEntry platform) parser (pairs.map pairLine ++ lines) =
        parseEntries (processSmbconfEntry platform) after lines ∧
      Reading base after key { group with kv := pairs.foldl storePair group.kv } := by
  induction pairs generalizing parser group with
  | nil => exact ⟨parser, rfl, reading⟩
  | cons pair rest ih =>
    obtain ⟨good, safe⟩ := formed pair List.mem_cons_self
    obtain ⟨next, ran, read⟩ := reading.pair good safe
    obtain ⟨after, runs, kept⟩ := ih read fun other member => formed other (List.mem_cons_of_mem _ member)
    refine ⟨after, ?_, kept⟩
    rw [← runs, List.map_cons, List.cons_append, parseEntries, ran]

end SmbconfParser

namespace SmbconfParser
variable {base : SmbconfParser}

end SmbconfParser
end KsmbdTools.Config
