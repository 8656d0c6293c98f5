import KsmbdTools.Config.Proofs.Inheritance

/-! Blanks and comments on a line: what of them becomes part of the value. -/

namespace KsmbdTools.Config
open Management Texts

variable {platform : Platform}

/-- A line with a key and a value, and what is written around them. -/
def spacedLine (lead key left right value behind : CStr) : CStr :=
  lead ++ ((key ++ left) ++ 61 :: (right ++ (value ++ behind)))

def Blank (text : CStr) : Prop := ∀ byte ∈ text, isAsciiSpaceTab byte = true

instance (text : CStr) : Decidable (Blank text) := inferInstanceAs (Decidable (∀ byte ∈ text, isAsciiSpaceTab byte = true))

theorem isAsciiSpaceTab_plain {byte : UInt8} (blank : isAsciiSpaceTab byte = true) :
    cpPrintable byte = true ∧ startsComment byte = false ∧ byte ≠ 61 := by
  simp only [isAsciiSpaceTab, Bool.or_eq_true, beq_iff_eq] at blank
  rcases blank with rfl | rfl <;> decide

/-- Key and value of a line as they are written, without the blanks around them. -/
structure Written (key value : CStr) : Prop extends KeyValue.Formed ⟨key, value⟩ where
  valueEnds : Ends isAsciiSpaceTab value

namespace Written
variable {key value lead left right trail comment : CStr}

theorem keyLine (written : Written key value) (leftBlank : Blank left)
    (rightBlank : Blank right) (trailBlank : Blank trail) :
    KeyLine (key ++ left) right (value ++ trail) where
  keySome := by simp [written.keySome]
  keyBytes byte member := by
    rcases List.mem_append.mp member with inside | blank
    · exact ⟨(written.keyBytes byte inside).1, (written.keyBytes byte inside).2.1⟩
    · exact ⟨(isAsciiSpaceTab_plain (leftBlank byte blank)).1, (isAsciiSpaceTab_plain (leftBlank byte blank)).2.1⟩
  keyPlain := by
    intro member
    rcases List.mem_append.mp member with inside | blank
    · exact (written.keyBytes _ inside).2.2 rfl
    · exact (isAsciiSpaceTab_plain (leftBlank _ blank)).2.2 rfl
  blank := rightBlank
  valueStarts := starts_append written.valueSome written.valueStarts trail
  valueBytes byte member := by
    rcases List.mem_append.mp member with inside | blank
    · exact written.valueBytes byte inside
    · exact ⟨(isAsciiSpaceTab_plain (trailBlank byte blank)).1, (isAsciiSpaceTab_plain (trailBlank byte blank)).2.1⟩

theorem of_accepted {parser : SmbconfParser} (keySome : key ≠ []) (keyStarts : Starts isAsciiSpaceTab key)
    (keyEnds : Ends isAsciiSpaceTab key) (keyPlain : 61 ∉ key) (valueSome : value ≠ [])
    (valueStarts : Starts isAsciiSpaceTab value) (valueEnds : Ends isAsciiSpaceTab value)
    (valuePlain : ∀ byte ∈ value, startsComment byte = false) (leftBlank : Blank left)
    (rightBlank : Blank right)
    (accepted : (parser.isAKeyValue ((key ++ left) ++ 61 :: (right ++ value))).isSome = true) : Written key value := by
  have none : 61 ∉ key ++ left := by
    intro member
    rcases List.mem_append.mp member with inside | blank
    · exact keyPlain inside
    · exact (isAsciiSpaceTab_plain (leftBlank _ blank)).2.2 rfl
  have cut : value.takeWhile (!startsComment ·) = value :=
    List.takeWhile_eq_self_iff.mpr fun byte member => by simp [valuePlain byte member]
  simp only [SmbconfParser.isAKeyValue, takeWhile_ne none, dropWhile_ne none, cpLtrim,
    dropWhile_blanks rightBlank valueStarts, cut] at accepted
  split_ifs at accepted with refused printable
  · simp at accepted
  · simp only [Bool.or_eq_true, Bool.not_eq_true', not_or, Bool.not_eq_false, List.all_eq_true, Bool.and_eq_true] at refused
    have keyBytes := refused.1.2
    simp only [List.all_eq_true] at printable
    exact ⟨⟨keySome, keyStarts, keyEnds, fun byte member => ⟨(keyBytes byte (List.mem_append_left _ member)).1,
        by simpa using (keyBytes byte (List.mem_append_left _ member)).2, fun same => keyPlain (same ▸ member)⟩, valueSome,
      valueStarts, fun byte member => ⟨printable byte member, valuePlain byte member⟩⟩, valueEnds⟩
  · simp at accepted

theorem trimmed (written : Written key value) (leadBlank : Blank lead) (behind : CStr) :
    cpLtrim (spacedLine lead key left right value behind) = (key ++ left) ++ 61 :: (right ++ (value ++ behind)) := by
  have starts : Starts isAsciiSpaceTab ((key ++ left) ++ 61 :: (right ++ (value ++ behind))) := by
    rw [List.append_assoc]
    exact starts_append written.keySome written.keyStarts _
  exact dropWhile_blanks leadBlank starts

theorem not_eol (written : Written key value) (rest : CStr) : cpSmbconfEol (key ++ left ++ rest) = false := by
  obtain ⟨first, more, rfl⟩ := List.exists_cons_of_ne_nil written.keySome
  simp [cpSmbconfEol, (written.keyBytes first List.mem_cons_self).2.1]

end Written

namespace SmbconfParser
variable {parser : SmbconfParser} {here key value lead left right trail comment : CStr}

theorem processSmbconfEntry_spaced (written : Written key value) (current : parser.current = some here)
    (leadBlank : Blank lead) (leftBlank : Blank left)
    (rightBlank : Blank right) (trailBlank : Blank trail)
    (eol : cpSmbconfEol comment = true)
    (plain : isAGroup platform (cpLtrim (spacedLine lead key left right value (trail ++ comment))) = none) :
    ∃ cut, parser.processSmbconfEntry platform (spacedLine lead key left right value (trail ++ comment)) =
        (parser.addGroupKeyValue cut, true) ∧ entryPair cut = ⟨key, value ++ trail⟩ := by
  have line := written.keyLine leftBlank rightBlank trailBlank
  have accepted : parser.isAKeyValue ((key ++ left) ++ 61 :: (right ++ (value ++ (trail ++ comment)))) =
      some ((key ++ left) ++ 61 :: (right ++ (value ++ trail))) :=
    isAKeyValue_eq_some_iff.mpr ⟨_, _, _, comment, line, by simp only [List.append_assoc], rfl, eol, by rw [current]; rfl⟩
  refine ⟨(key ++ left) ++ 61 :: (right ++ (value ++ trail)), ?_, ?_⟩
  · rw [written.trimmed leadBlank] at plain
    simp only [processSmbconfEntry, written.trimmed leadBlank, written.not_eol, plain, accepted]
    rfl
  · rw [line.entryPair_eq, cpRtrim_append written.keySome written.keyEnds leftBlank]

end SmbconfParser

/-- Two ways to go on differ only in what they give to one key: it had a value, or they give the same. -/
theorem SmbconfParser.same_pairs_iff {parser : SmbconfParser} {here folded : CStr} {first second : Option KeyValue} :
    (∀ name key, (parser.pair? name key).or (if name = here ∧ folded = key then first else none) =
      (parser.pair? name key).or (if name = here ∧ folded = key then second else none)) ↔
      (parser.pair? here folded).isSome = true ∨ first = second := by
  constructor
  · intro same
    have there := same here folded
    cases old : parser.pair? here folded with
    | none => exact .inr (by simpa [old] using there)
    | some stored => exact .inl rfl
  · rintro (old | rfl) name key
    · obtain ⟨stored, found⟩ := Option.isSome_iff_exists.mp old
      by_cases both : name = here ∧ folded = key
      · obtain ⟨rfl, rfl⟩ := both
        simp [found]
      · simp [both]
    · rfl

/-- Blanks and a comment change what a line stores, unless the key had a value before, exactly
if there are blanks behind the value or the whole reads as a header. -/
theorem line_spacing_iff (platform : Platform) (parser : SmbconfParser) (reached : parser.Reachable platform) (here : CStr)
    (current : parser.current = some here) (key value lead left right : CStr) (keySome : key ≠ [])
    (keyStarts : Starts isAsciiSpaceTab key) (keyEnds : Ends isAsciiSpaceTab key) (keyPlain : 61 ∉ key)
    (valueSome : value ≠ []) (valueStarts : Starts isAsciiSpaceTab value) (valueEnds : Ends isAsciiSpaceTab value)
    (valuePlain : ∀ byte ∈ value, startsComment byte = false) (leadBlank : Blank lead) (leftBlank : Blank left)
    (rightBlank : Blank right) (plain : isAGroup platform (cpLtrim (spacedLine lead key left right value [])) = none)
    (accepted : (parser.isAKeyValue (cpLtrim (spacedLine lead key left right value []))).isSome = true)
    (lead' left' right' trail comment : CStr) (leadBlank' : Blank lead') (leftBlank' : Blank left')
    (rightBlank' : Blank right') (trailBlank : Blank trail) (eol : cpSmbconfEol comment = true) :
    ((parser.processSmbconfEntry platform (spacedLine lead' key left' right' value (trail ++ comment))).2 = true ∧
      ∀ name other, (parser.processSmbconfEntry platform
          (spacedLine lead' key left' right' value (trail ++ comment))).1.pair? name other =
        (parser.processSmbconfEntry platform (spacedLine lead key left right value [])).1.pair? name other) ↔
      (parser.pair? here (asciiStrdown key)).isSome = true ∨
        (trail = [] ∧ isAGroup platform (cpLtrim (spacedLine lead' key left' right' value (trail ++ comment))) = none) := by
  have starts : Starts isAsciiSpaceTab ((key ++ left) ++ 61 :: (right ++ value)) := by
    rw [List.append_assoc]
    exact starts_append keySome keyStarts _
  have written : Written key value := by
    rw [spacedLine, List.append_nil, cpLtrim, dropWhile_blanks leadBlank starts] at accepted
    exact Written.of_accepted keySome keyStarts keyEnds keyPlain valueSome valueStarts valueEnds valuePlain leftBlank
      rightBlank accepted
  have member := reached.formed.current here current
  have noTrail : Blank [] := by simp [Blank]
  have noComment : cpSmbconfEol [] = true := rfl
  obtain ⟨cut, ran, pair⟩ := SmbconfParser.processSmbconfEntry_spaced written current leadBlank leftBlank rightBlank noTrail
    noComment plain
  rw [List.append_nil] at pair ran
  rw [ran]
  have stored : ∀ name other, (parser.addGroupKeyValue cut).pair? name other = (parser.pair? name other).or
      (if name = here ∧ asciiStrdown key = other then some ⟨key, value⟩ else none) := by
    intro name other
    rw [SmbconfParser.pair?_addGroupKeyValue current member, pair]
    simp [written.toFormed.value_eol]
  cases header : isAGroup platform (cpLtrim (spacedLine lead' key left' right' value (trail ++ comment))) with
  | none =>
    obtain ⟨cut', ran', pair'⟩ := SmbconfParser.processSmbconfEntry_spaced written current leadBlank' leftBlank'
      rightBlank' trailBlank eol header
    have decorated : ∀ name other, (parser.addGroupKeyValue cut').pair? name other = (parser.pair? name other).or
        (if name = here ∧ asciiStrdown key = other then some ⟨key, value ++ trail⟩ else none) := by
      intro name other
      have more : cpSmbconfEol (value ++ trail) = false := by
        obtain ⟨first, rest, rfl⟩ := List.exists_cons_of_ne_nil valueSome
        simp [cpSmbconfEol, valuePlain first List.mem_cons_self]
      rw [SmbconfParser.pair?_addGroupKeyValue current member, pair']
      simp [more]
    rw [ran']
    simp only [true_and, stored, decorated, SmbconfParser.same_pairs_iff, Option.some.injEq, KeyValue.mk.injEq,
      List.append_right_eq_self, true_and, and_true]
  | some name =>
    have opened : parser.processSmbconfEntry platform (spacedLine lead' key left' right' value (trail ++ comment)) =
        (parser.addGroup platform name, true) := by
      have more : cpSmbconfEol (cpLtrim (spacedLine lead' key left' right' value (trail ++ comment))) = false := by
        rw [written.trimmed leadBlank', written.not_eol]
      simp [SmbconfParser.processSmbconfEntry, more, header]
    have kept : ∀ section_ other, (parser.addGroup platform name).pair? section_ other =
        (parser.pair? section_ other).or (if section_ = here ∧ asciiStrdown key = other then none else none) := by
      intro section_ other
      rw [SmbconfParser.pair?_addGroup, ite_self, Option.or_none]
    rw [opened]
    simp only [true_and, stored, kept, SmbconfParser.same_pairs_iff, reduceCtorEq, and_false]

namespace Scenario
open Management.Scenario

def opened : SmbconfParser := (({} : SmbconfParser).processSmbconfEntry plainPlatform (ascii "[s]")).1

end Scenario

/-- Blanks in front and around the equals sign, and a comment right behind the value. -/
theorem line_spacing_commented :
    (Scenario.opened.processSmbconfEntry Management.Scenario.plainPlatform
        (spacedLine [32, 9] (ascii "guest ok") [9] [9] (ascii "yes") (ascii "# for all"))).1.pair? (ascii "s")
        (ascii "guest ok") =
      (Scenario.opened.processSmbconfEntry Management.Scenario.plainPlatform
        (spacedLine [] (ascii "guest ok") [32] [32] (ascii "yes") [])).1.pair? (ascii "s") (ascii "guest ok") :=
  ((line_spacing_iff Management.Scenario.plainPlatform Scenario.opened (.entry .empty _) (ascii "s") (by decide +kernel)
    (ascii "guest ok") (ascii "yes") [] [32] [32] (by decide) (by decide) (by decide) (by decide) (by decide) (by decide)
    (by decide) (by decide +kernel) (by decide +kernel) (by decide +kernel) (by decide +kernel) (by decide +kernel)
    (by decide +kernel) [32, 9] [9] [9] [] (ascii "# for all") (by decide +kernel) (by decide +kernel) (by decide +kernel)
    (by decide +kernel) (by decide)).mpr
      (.inr ⟨rfl, by decide +kernel⟩)).2 _ _

/-- A space behind `yes` makes it no, and a comment can make a pair a header. -/
theorem line_spacing_changes :
    Scenario.opened.Reachable Management.Scenario.plainPlatform ∧
      (((Scenario.opened.processSmbconfEntry Management.Scenario.plainPlatform (ascii "guest ok = yes")).1.value?
        (ascii "s") (ascii "guest ok")).map cpGetGroupKvBool = some true) ∧
      (((Scenario.opened.processSmbconfEntry Management.Scenario.plainPlatform (ascii "guest ok = yes ")).1.value?
        (ascii "s") (ascii "guest ok")).map cpGetGroupKvBool = some false) ∧
      (((Scenario.opened.processSmbconfEntry Management.Scenario.plainPlatform (ascii "guest ok = yes # for all")).1.value?
        (ascii "s") (ascii "guest ok")).map cpGetGroupKvBool = some false) ∧
      (Scenario.opened.processSmbconfEntry Management.Scenario.plainPlatform (ascii "[x = y")).1.value?
        (ascii "s") (ascii "[x") = some (ascii "y") ∧
      (Scenario.opened.processSmbconfEntry Management.Scenario.plainPlatform (ascii "[x = y;]")).1.value?
        (ascii "s") (ascii "[x") = none := by
  exact ⟨.entry .empty _, by decide +kernel, by decide +kernel, by decide +kernel, by decide +kernel, by decide +kernel⟩

end KsmbdTools.Config
