import KsmbdTools.Management.Proofs.Histories
import Mathlib.Data.List.GetD
import Mathlib.Data.List.TakeWhile
import Mathlib.Tactic.IntervalCases

/-! What a host pattern with a prefix length matches, and the prefix lengths that are
taken for another number. -/

namespace KsmbdTools

namespace Strtol

/-- Blanks, a sign or none, and the digits of the number. -/
structure Denotes (text : CStr) (number : Int) (blanks sign digits : CStr) : Prop where
  text_eq : text = blanks ++ (sign ++ digits)
  blank : ∀ byte ∈ blanks, isSpace byte = true
  signed : sign = [] ∨ sign = [43] ∨ sign = [45]
  some : digits ≠ []
  decimal : ∀ byte ∈ digits, isDigit byte = true
  number_eq : number = if sign = [45] then -(value digits : Int) else value digits

/-- A text that `strtol` consumes to its end denotes one number, however large. -/
def Reads (text : CStr) (number : Int) : Prop := ∃ blanks sign digits, Denotes text number blanks sign digits

def clamp (number : Int) : Int :=
  if number < -2 ^ 63 then -2 ^ 63 else if 2 ^ 63 ≤ number then 2 ^ 63 - 1 else number

theorem isSpace_of_digit {byte : UInt8} (digit : isDigit byte = true) : isSpace byte = false := by
  simp only [isDigit, isSpace, Bool.and_eq_true, decide_eq_true_eq, UInt8.le_iff_toNat_le, Bool.or_eq_false_iff,
    beq_eq_false_iff_ne, ne_eq, ← UInt8.toNat_inj, Bool.and_eq_false_iff, decide_eq_false_iff_not] at *
  simp only [UInt8.reduceToNat] at *
  omega

theorem digit_ne_sign {byte : UInt8} (digit : isDigit byte = true) : byte ≠ 45 ∧ byte ≠ 43 := by
  simp only [isDigit, Bool.and_eq_true, decide_eq_true_eq, UInt8.le_iff_toNat_le, ne_eq, ← UInt8.toNat_inj] at *
  simp only [UInt8.reduceToNat] at *
  omega

namespace Denotes

variable {text blanks sign digits : CStr} {number : Int}

theorem dropWhile_blanks (denotes : Denotes text number blanks sign digits) :
    text.dropWhile isSpace = sign ++ digits := by
  rw [denotes.text_eq, List.dropWhile_append_of_pos denotes.blank]
  obtain ⟨digit, more, rfl⟩ := List.exists_cons_of_ne_nil denotes.some
  have notSpace := isSpace_of_digit (denotes.decimal digit List.mem_cons_self)
  rcases denotes.signed with rfl | rfl | rfl
  · simp [notSpace]
  · exact List.dropWhile_cons_of_neg (by decide)
  · exact List.dropWhile_cons_of_neg (by decide)

theorem strtol_eq (denotes : Denotes text number blanks sign digits) :
    strtol text = ⟨clamp number, [], true, decide (number < -2 ^ 63 ∨ 2 ^ 63 ≤ number)⟩ := by
  obtain ⟨digit, more, rfl⟩ := List.exists_cons_of_ne_nil denotes.some
  obtain ⟨notMinus, notPlus⟩ := digit_ne_sign (denotes.decimal digit List.mem_cons_self)
  have taken : (digit :: more).takeWhile isDigit = digit :: more := List.takeWhile_eq_self_iff.mpr denotes.decimal
  have left : (digit :: more).dropWhile isDigit = [] := List.dropWhile_eq_nil_iff.mpr denotes.decimal
  have body := denotes.dropWhile_blanks
  have meant := denotes.number_eq
  rcases denotes.signed with rfl | rfl | rfl
  all_goals
    simp only [strtol, body, List.nil_append, List.cons_append, List.head?_cons, List.tail_cons, beq_iff_eq,
      Option.some_beq_some] at meant ⊢
    simp [notMinus, notPlus, taken, left] at meant ⊢
    subst meant
    unfold clamp
    split <;> rename_i low <;> simp [low]
    split <;> rename_i high <;> simp [high]

theorem unique {other : Int} {blanks' sign' digits' : CStr} (denotes : Denotes text number blanks sign digits)
    (again : Denotes text other blanks' sign' digits') : number = other := by
  have same := denotes.dropWhile_blanks.symm.trans again.dropWhile_blanks
  obtain ⟨digit, more, rfl⟩ := List.exists_cons_of_ne_nil denotes.some
  obtain ⟨digit', more', rfl⟩ := List.exists_cons_of_ne_nil again.some
  obtain ⟨notMinus, notPlus⟩ := digit_ne_sign (denotes.decimal digit List.mem_cons_self)
  obtain ⟨notMinus', notPlus'⟩ := digit_ne_sign (again.decimal digit' List.mem_cons_self)
  rw [denotes.number_eq, again.number_eq]
  rcases denotes.signed with rfl | rfl | rfl <;> rcases again.signed with rfl | rfl | rfl <;>
    simp_all

end Denotes

def unsigned (text : CStr) : CStr :=
  let body := text.dropWhile isSpace
  if body.head? == some 45 || body.head? == some 43 then body.tail else body

theorem strtol_whole {text : CStr} (consumed : (strtol text).consumed = true) (whole : (strtol text).rest = []) :
    unsigned text ≠ [] ∧ ∀ byte ∈ unsigned text, isDigit byte = true := by
  have known : (strtol text).consumed = true → (strtol text).rest = (unsigned text).dropWhile isDigit ∧
      (unsigned text).takeWhile isDigit ≠ [] := by
    unfold strtol
    simp only [unsigned]
    split_ifs <;> simp_all
  obtain ⟨rest, digits⟩ := known consumed
  rw [whole] at rest
  exact ⟨by rintro empty; simp [empty] at digits, List.dropWhile_eq_nil_iff.mp rest.symm⟩

theorem reads_of_whole {text : CStr} (consumed : (strtol text).consumed = true) (whole : (strtol text).rest = []) :
    ∃ number, Reads text number := by
  obtain ⟨some, decimal⟩ := strtol_whole consumed whole
  have split : text = text.takeWhile isSpace ++ text.dropWhile isSpace := List.takeWhile_append_dropWhile.symm
  have blank : ∀ byte ∈ text.takeWhile isSpace, isSpace byte = true := fun byte => List.mem_takeWhile_imp
  unfold unsigned at some decimal
  rcases body : text.dropWhile isSpace with _ | ⟨first, rest⟩
  · simp [body] at some
  by_cases minus : first = 45
  · subst minus
    rw [body] at split some decimal
    exact ⟨_, _, [45], rest, split, blank, by simp, by simpa using some, by simpa using decimal, rfl⟩
  by_cases plus : first = 43
  · subst plus
    rw [body] at split some decimal
    exact ⟨_, _, [43], rest, split, blank, by simp, by simpa using some, by simpa using decimal, rfl⟩
  · rw [body] at split some decimal
    exact ⟨_, _, [], first :: rest, split, blank, by simp, by simp, by simpa [minus, plus] using decimal, rfl⟩

end Strtol

namespace Management

/-- Bit `index` of an address, the leading bit of its first byte first. -/
def addressBit (address : List UInt8) (index : Nat) : Bool :=
  (address.getD (index / 8) 0).toNat.testBit (7 - index % 8)

/-- The leading `count` bits of the two addresses agree. -/
def LeadingBitsAgree (net host : List UInt8) (count : Nat) : Prop :=
  ∀ index < count, addressBit net index = addressBit host index

theorem masked_eq_iff_bits (left right : UInt8) {count : Nat} (part : count ≤ 8) :
    left &&& UInt8.ofNat (255 * 2 ^ (8 - count)) = right &&& UInt8.ofNat (255 * 2 ^ (8 - count)) ↔
      ∀ bit < count, left.toNat.testBit (7 - bit) = right.toNat.testBit (7 - bit) := by
  have high : ∀ (byte : UInt8) {place : Nat}, 8 ≤ place → byte.toNat.testBit place = false := by
    intro byte place far
    exact Nat.testBit_lt_two_pow (Nat.lt_of_lt_of_le byte.toNat_lt (Nat.pow_le_pow_right (by decide) far))
  have mask : ∀ place < 8, (UInt8.ofNat (255 * 2 ^ (8 - count))).toNat.testBit place = decide (8 - count ≤ place) := by
    interval_cases count <;> decide
  rw [← UInt8.toNat_inj, UInt8.toNat_and, UInt8.toNat_and]
  constructor
  · intro same bit within
    have := congrArg (Nat.testBit · (7 - bit)) same
    simp only [Nat.testBit_and] at this
    rw [mask (7 - bit) (by omega)] at this
    simpa [show 8 - count ≤ 7 - bit by omega] using this
  · intro agree
    refine Nat.eq_of_testBit_eq fun place => ?_
    rw [Nat.testBit_and, Nat.testBit_and]
    by_cases near : place < 8
    · rw [mask place near]
      by_cases kept : 8 - count ≤ place
      · have := agree (7 - place) (by omega)
        rw [show 7 - (7 - place) = place by omega] at this
        rw [this]
      · simp [kept]
    · simp [high _ (Nat.le_of_not_lt near)]

theorem byte_eq_iff_bits (left right : UInt8) :
    left = right ↔ ∀ bit < 8, left.toNat.testBit (7 - bit) = right.toNat.testBit (7 - bit) := by
  have all : ∀ byte : UInt8, byte &&& UInt8.ofNat (255 * 2 ^ (8 - 8)) = byte := fun byte => by
    rw [← UInt8.toNat_inj, UInt8.toNat_and]
    exact (Nat.and_two_pow_sub_one_eq_mod _ 8).trans (Nat.mod_eq_of_lt byte.toNat_lt)
  rw [← masked_eq_iff_bits left right (Nat.le_refl 8), all, all]

theorem take_eq_iff_bits {net host : List UInt8} {count : Nat} (netLong : count ≤ net.length)
    (hostLong : count ≤ host.length) :
    net.take count = host.take count ↔ LeadingBitsAgree net host (8 * count) := by
  constructor
  · intro same index within
    have place : index / 8 < count := by omega
    have byte := congrArg (·.getD (index / 8) 0) same
    simp only [List.getD_eq_getElem?_getD, List.getElem?_take_of_lt place] at byte
    simp only [addressBit, List.getD_eq_getElem?_getD, byte]
  · intro agree
    refine List.ext_getElem (by simp; omega) fun place left right => ?_
    simp only [List.length_take, lt_min_iff] at left right
    rw [List.getElem_take, List.getElem_take, byte_eq_iff_bits]
    intro bit within
    have := agree (8 * place + bit) (by omega)
    simpa only [addressBit, show (8 * place + bit) / 8 = place by omega, show (8 * place + bit) % 8 = bit by omega,
      List.getD_eq_getElem _ _ left.2, List.getD_eq_getElem _ _ right.2] using this

theorem samePrefix_iff {net host : List UInt8} {count : Nat} (netLong : count ≤ 8 * net.length)
    (hostLong : count ≤ 8 * host.length) :
    samePrefix net host count = true ↔ LeadingBitsAgree net host count := by
  have whole : net.take (count / 8) = host.take (count / 8) ↔ LeadingBitsAgree net host (8 * (count / 8)) :=
    take_eq_iff_bits (by omega) (by omega)
  have part := masked_eq_iff_bits (net.getD (count / 8) 0) (host.getD (count / 8) 0) (show count % 8 ≤ 8 by omega)
  have split : LeadingBitsAgree net host count ↔ LeadingBitsAgree net host (8 * (count / 8)) ∧
      ∀ bit < count % 8, addressBit net (8 * (count / 8) + bit) = addressBit host (8 * (count / 8) + bit) := by
    constructor
    · exact fun agree => ⟨fun index within => agree index (by omega), fun bit within => agree _ (by omega)⟩
    · rintro ⟨front, back⟩ index within
      by_cases near : index < 8 * (count / 8)
      · exact front index near
      · simpa only [show 8 * (count / 8) + (index - 8 * (count / 8)) = index by omega]
          using back (index - 8 * (count / 8)) (by omega)
  have last : (∀ bit < count % 8, addressBit net (8 * (count / 8) + bit) = addressBit host (8 * (count / 8) + bit)) ↔
      ∀ bit < count % 8, (net.getD (count / 8) 0).toNat.testBit (7 - bit) =
        (host.getD (count / 8) 0).toNat.testBit (7 - bit) := by
    refine forall₂_congr fun bit within => ?_
    simp only [addressBit, show (8 * (count / 8) + bit) / 8 = count / 8 by omega,
      show (8 * (count / 8) + bit) % 8 = bit by omega]
  rw [split, last, ← part, ← whole]
  simp only [samePrefix, bne_iff_ne, ne_eq, ite_not]
  split_ifs with front none
  · simp [front, none]
  · simp [front]
  · simp [front]

def addressBits : AddressFamily → Nat
  | .inet => 32
  | .inet6 => 128

variable (platform : Platform)

/-- What is asked of `inet_pton`: only texts of addresses are decoded, to the bytes of
an address. The longest text of one has 45 characters. -/
structure DecodesAddresses : Prop where
  bits {family : AddressFamily} {text : CStr} {address : List UInt8} :
    platform.inetPton family text = some address → 8 * address.length = addressBits family
  colon {family : AddressFamily} {text : CStr} {address : List UInt8} :
    platform.inetPton family text = some address → (58 ∈ text ↔ family = .inet6)
  slash {family : AddressFamily} {text : CStr} {address : List UInt8} :
    platform.inetPton family text = some address → 47 ∉ text
  size {family : AddressFamily} {text : CStr} {address : List UInt8} :
    platform.inetPton family text = some address → 0 < text.length ∧ text.length ≤ 45

/-- The pattern is an address, a slash and a text that denotes `number`, and the host is
an address of the same family. -/
structure Cidr (pattern addr : CStr) (family : AddressFamily) (number : Int) (net host : List UInt8) : Prop where
  pattern_eq : ∃ network text, pattern = network ++ 47 :: text ∧ platform.inetPton family network = some net ∧
    Strtol.Reads text number
  host_eq : platform.inetPton family addr = some host

/-- Prefix matching for a pattern with a prefix length of its family, equality for the others. -/
def MatchesPrefix (pattern addr : CStr) : Prop :=
  (∃ family number net host, Cidr platform pattern addr family number net host ∧ 0 ≤ number ∧
      number ≤ addressBits family ∧ LeadingBitsAgree net host number.toNat) ∨
    (¬∃ family number net host, Cidr platform pattern addr family number net host ∧ 0 ≤ number ∧
      number ≤ addressBits family) ∧ pattern = addr

/-- The number is no prefix length, but the `int` it is kept in holds one, and the
addresses agree on that many bits. -/
def WrapsToPrefix (pattern addr : CStr) : Prop :=
  ∃ family number net host, Cidr platform pattern addr family number net host ∧
    ¬(0 ≤ number ∧ number ≤ addressBits family) ∧ -2 ^ 63 ≤ number ∧ number < 2 ^ 63 ∧
    0 ≤ toInt32 number ∧ toInt32 number ≤ addressBits family ∧ LeadingBitsAgree net host (toInt32 number).toNat

variable {platform} {pattern addr : CStr} {family : AddressFamily} {number : Int} {net host : List UInt8}

theorem takeWhile_network {network text : CStr} (none : 47 ∉ network) :
    (network ++ 47 :: text).takeWhile (· != 47) = network := by
  have inside : ∀ byte ∈ network, (byte != 47) = true := by
    intro byte member
    rw [bne_iff_ne]
    rintro rfl
    exact none member
  rw [List.takeWhile_append_of_pos inside]
  simp

namespace Cidr

theorem unique {family' : AddressFamily} {number' : Int} {net' host' : List UInt8} (decodes : DecodesAddresses platform)
    (cidr : Cidr platform pattern addr family number net host)
    (again : Cidr platform pattern addr family' number' net' host') :
    family' = family ∧ number' = number ∧ net' = net ∧ host' = host := by
  obtain ⟨network, text, rfl, decoded, _, _, _, denotes⟩ := cidr.pattern_eq
  obtain ⟨network', text', same, decoded', _, _, _, denotes'⟩ := again.pattern_eq
  have front : network = network' := by
    rw [← takeWhile_network (decodes.slash decoded), same, takeWhile_network (decodes.slash decoded')]
  subst front
  have back : text = text' := by simpa using same
  subst back
  have families : family' = family := by
    have left := decodes.colon decoded
    have right := decodes.colon decoded'
    cases family <;> cases family' <;> simp_all
  subst families
  exact ⟨rfl, denotes'.unique denotes, Option.some.inj (decoded'.symm.trans decoded),
    Option.some.inj (again.host_eq.symm.trans cidr.host_eq)⟩

theorem ne (decodes : DecodesAddresses platform) (cidr : Cidr platform pattern addr family number net host) :
    pattern ≠ addr := by
  rintro rfl
  obtain ⟨network, text, rfl, -⟩ := cidr.pattern_eq
  exact decodes.slash cidr.host_eq (by simp)

theorem matchHostCidr_iff (decodes : DecodesAddresses platform)
    (cidr : Cidr platform pattern addr family number net host) :
    matchHostCidr platform pattern addr = true ↔ -2 ^ 63 ≤ number ∧ number < 2 ^ 63 ∧ 0 ≤ toInt32 number ∧
      toInt32 number ≤ addressBits family ∧ LeadingBitsAgree net host (toInt32 number).toNat := by
  have differ : (pattern == addr) = false := by simpa using cidr.ne decodes
  obtain ⟨network, text, rfl, decoded, _, _, _, denotes⟩ := cidr.pattern_eq
  obtain ⟨some, short⟩ := decodes.size decoded
  have chosen : (if 58 ∈ network then AddressFamily.inet6 else .inet) = family := by
    have colon := decodes.colon decoded
    cases family <;> simp_all
  have limit : ((if family = .inet6 then 16 else 4) * 8 : Int) = addressBits family := by
    cases family <;> rfl
  have netBits := decodes.bits decoded
  have hostBits := decodes.bits cidr.host_eq
  simp only [matchHostCidr, takeWhile_network (decodes.slash decoded)]
  rw [if_neg (by simp), if_neg (by omega), chosen, decoded, cidr.host_eq]
  have behind : (network ++ 47 :: text).drop (network.length + 1) = text := by simp
  simp only [behind, denotes.strtol_eq, limit]
  by_cases outside : number < -2 ^ 63 ∨ 2 ^ 63 ≤ number
  · rw [if_pos (.inl (decide_eq_true outside)), differ]
    simp only [Bool.false_eq_true, false_iff]
    omega
  have kept : Strtol.clamp number = number := by
    simp only [Strtol.clamp]
    omega
  rw [kept]
  by_cases negative : toInt32 number < 0
  · rw [if_pos (.inr (.inr (.inr negative))), differ]
    simp only [Bool.false_eq_true, false_iff]
    omega
  rw [if_neg (by simp only [outside, negative, decide_false, Bool.not_true, List.isEmpty_nil]; decide)]
  by_cases wide : addressBits family < toInt32 number
  · rw [if_pos wide, differ]
    simp only [Bool.false_eq_true, false_iff]
    omega
  rw [if_neg wide, samePrefix_iff (by omega) (by omega)]
  exact ⟨fun agree => ⟨by omega, by omega, by omega, by omega, agree⟩, fun all => all.2.2.2.2⟩

end Cidr

theorem pattern_split (slash : (pattern.takeWhile (· != 47)).length ≠ pattern.length) :
    pattern = pattern.takeWhile (· != 47) ++ 47 :: pattern.drop ((pattern.takeWhile (· != 47)).length + 1) := by
  have split : pattern = pattern.takeWhile (· != 47) ++ pattern.dropWhile (· != 47) :=
    List.takeWhile_append_dropWhile.symm
  rcases back : pattern.dropWhile (· != 47) with _ | ⟨first, text⟩
  · rw [back, List.append_nil] at split
    exact absurd (congrArg List.length split).symm slash
  have first_eq : first = 47 := by
    have stops := List.head_dropWhile_not (fun byte : UInt8 => byte != 47) (by rw [back]; exact List.cons_ne_nil _ _)
    simpa [back] using stops
  rw [back, first_eq] at split
  generalize pattern.takeWhile (· != 47) = network at split
  subst split
  simp

theorem matchHostCidr_of_not_cidr
    (other : ∀ family number net host, ¬Cidr platform pattern addr family number net host) :
    matchHostCidr platform pattern addr = (pattern == addr) := by
  simp only [matchHostCidr]
  by_cases slash : (pattern.takeWhile (· != 47)).length = pattern.length
  · rw [if_pos slash]
  have split := pattern_split slash
  rw [if_neg slash]
  generalize pattern.takeWhile (· != 47) = network at split ⊢
  generalize pattern.drop (network.length + 1) = text at split ⊢
  generalize (if 58 ∈ network then AddressFamily.inet6 else .inet) = family
  by_cases size : network.length = 0 ∨ 47 ≤ network.length
  · rw [if_pos size]
  rw [if_neg size]
  split
  · rfl
  rename_i refused
  simp only [not_or, Bool.not_eq_true', Bool.not_eq_false, List.isEmpty_iff] at refused
  obtain ⟨number, reads⟩ := Strtol.reads_of_whole refused.2.1 refused.2.2.1
  rcases decoded : platform.inetPton family network with _ | net
  · rfl
  rcases found : platform.inetPton family addr with _ | host
  · rfl
  exact absurd ⟨⟨network, text, split, decoded, reads⟩, found⟩ (other family number net host)

/-- A host pattern matches by prefix, exactly but for the numbers that only fit a prefix
length once they are cut to an `int`. -/
theorem cidr_match_iff (platform : Platform) (decodes : DecodesAddresses platform) (pattern addr : CStr) :
    (matchHostCidr platform pattern addr = true ↔ MatchesPrefix platform pattern addr) ↔
      ¬WrapsToPrefix platform pattern addr := by
  by_cases form : ∃ family number net host, Cidr platform pattern addr family number net host
  · obtain ⟨family, number, net, host, cidr⟩ := form
    have code := cidr.matchHostCidr_iff decodes
    by_cases inside : 0 ≤ number ∧ number ≤ addressBits family
    · have kept : toInt32 number = number := by
        have : addressBits family ≤ 128 := by cases family <;> decide
        simp only [toInt32]
        omega
      have long : -2 ^ 63 ≤ number ∧ number < 2 ^ 63 := by
        have : addressBits family ≤ 128 := by cases family <;> decide
        omega
      have spec : MatchesPrefix platform pattern addr ↔ LeadingBitsAgree net host number.toNat := by
        constructor
        · rintro (⟨_, _, _, _, again, -, -, agree⟩ | ⟨none, -⟩)
          · obtain ⟨rfl, rfl, rfl, rfl⟩ := cidr.unique decodes again
            exact agree
          · exact absurd ⟨family, number, net, host, cidr, inside⟩ none
        · exact fun agree => .inl ⟨family, number, net, host, cidr, inside.1, inside.2, agree⟩
      have unwrapped : ¬WrapsToPrefix platform pattern addr := by
        rintro ⟨_, _, _, _, again, outside, -⟩
        obtain ⟨rfl, rfl, rfl, rfl⟩ := cidr.unique decodes again
        exact outside inside
      rw [kept] at code
      simp only [unwrapped, not_false_eq_true, iff_true]
      rw [code, spec]
      exact ⟨fun all => all.2.2.2.2, fun agree => ⟨long.1, long.2, inside.1, inside.2, agree⟩⟩
    · have spec : ¬MatchesPrefix platform pattern addr := by
        rintro (⟨_, _, _, _, again, low, high, -⟩ | ⟨-, same⟩)
        · obtain ⟨rfl, rfl, rfl, rfl⟩ := cidr.unique decodes again
          exact inside ⟨low, high⟩
        · exact cidr.ne decodes same
      have wraps : WrapsToPrefix platform pattern addr ↔ matchHostCidr platform pattern addr = true := by
        rw [code]
        constructor
        · rintro ⟨_, _, _, _, again, -, rest⟩
          obtain ⟨rfl, rfl, rfl, rfl⟩ := cidr.unique decodes again
          exact rest
        · exact fun rest => ⟨family, number, net, host, cidr, inside, rest⟩
      simp only [spec, iff_false, wraps]
  · have other : ∀ family number net host, ¬Cidr platform pattern addr family number net host :=
      fun family number net host cidr => form ⟨family, number, net, host, cidr⟩
    have unwrapped : ¬WrapsToPrefix platform pattern addr := fun ⟨_, _, _, _, cidr, _⟩ => other _ _ _ _ cidr
    have spec : MatchesPrefix platform pattern addr ↔ pattern = addr := by
      constructor
      · rintro (⟨_, _, _, _, cidr, -⟩ | ⟨-, same⟩)
        · exact absurd cidr (other _ _ _ _)
        · exact same
      · exact fun same => .inr ⟨fun ⟨_, _, _, _, cidr, _⟩ => other _ _ _ _ cidr, same⟩
    simp only [unwrapped, not_false_eq_true, iff_true]
    rw [matchHostCidr_of_not_cidr other, spec, beq_iff_eq]

namespace Scenario

def dottedByte (text : CStr) : Option UInt8 :=
  let number := Strtol.value text
  if text.all Strtol.isDigit && text.length ≤ 3 && number ≤ 255 && (text.head? != some 48 || text.length == 1) then
    some (UInt8.ofNat number) else none

def hexDigit (byte : UInt8) : Option Nat :=
  if Strtol.isDigit byte then some (byte.toNat - 48)
  else if 97 ≤ asciiLower byte && asciiLower byte ≤ 102 then some ((asciiLower byte).toNat - 87) else none

def hexGroup (text : CStr) : Option (List UInt8) := do
  let digits ← text.mapM hexDigit
  if digits.isEmpty || 4 < digits.length then none
  let number := digits.foldl (16 * · + ·) 0
  some [UInt8.ofNat (number / 256), UInt8.ofNat number]

def hexGroups (text : CStr) : Option (List UInt8) :=
  if text.isEmpty then some [] else ((text.splitOn 58).mapM hexGroup).map List.flatten

def atGap : CStr → Option (CStr × CStr)
  | 58 :: 58 :: rest => some ([], rest)
  | byte :: rest => (atGap rest).map fun (front, back) => (byte :: front, back)
  | [] => none

/-- The texts of addresses, without the form that ends in a dotted quad. -/
def decodeAddress : AddressFamily → CStr → Option (List UInt8)
  | .inet, text => (text.splitOn 46).mapM dottedByte
  | .inet6, text =>
    match atGap text with
    | none => hexGroups text
    | some (front, back) => do
      let front ← hexGroups front
      let back ← hexGroups back
      if 14 < front.length + back.length then none
      some (front ++ List.replicate (16 - (front.length + back.length)) 0 ++ back)

def addressText (family : AddressFamily) (text : CStr) : Bool :=
  (58 ∈ text ↔ family = .inet6) && 47 ∉ text && 0 < text.length && text.length ≤ 45

def addressPlatform : Platform :=
  { plainPlatform with
    inetPton := fun family text =>
      if addressText family text then (decodeAddress family text).filter (8 * ·.length = addressBits family) else none }

theorem addressPlatform_decodes : DecodesAddresses addressPlatform := by
  have accepted : ∀ {family text address}, addressPlatform.inetPton family text = some address →
      addressText family text = true ∧ 8 * address.length = addressBits family := by
    intro family text address decoded
    simp only [addressPlatform] at decoded
    split_ifs at decoded with texts
    exact ⟨texts, by simpa using (Option.filter_eq_some_iff.mp decoded).2⟩
  constructor
  · exact fun decoded => (accepted decoded).2
  all_goals
    intro family text address decoded
    have texts := (accepted decoded).1
    simp only [addressText, Bool.and_eq_true, decide_eq_true_eq] at texts
  · exact texts.1.1.1
  · exact texts.1.1.2
  · exact ⟨texts.1.2, texts.2⟩

def slashEight : CStr := [49, 48, 46, 48, 46, 48, 46, 48, 47, 56]

def slashFar : CStr := [49, 48, 46, 48, 46, 48, 46, 48, 47, 52, 50, 57, 52, 57, 54, 55, 51, 48, 52]

def tenHost : CStr := [49, 48, 46, 49, 46, 50, 46, 51]

example : addressPlatform.inetPton .inet tenHost = some [10, 1, 2, 3] := by decide +kernel

example : addressPlatform.inetPton .inet6 [102, 101, 56, 48, 58, 58, 49] =
    some [254, 128, 0, 0, 0, 0, 0, 0, 0, 0, 0, 0, 0, 0, 0, 1] := by decide +kernel

end Scenario

theorem cidr_match_ten :
    DecodesAddresses Scenario.addressPlatform ∧
      ((matchHostCidr Scenario.addressPlatform Scenario.slashEight Scenario.tenHost = true ↔
          MatchesPrefix Scenario.addressPlatform Scenario.slashEight Scenario.tenHost) ↔
        ¬WrapsToPrefix Scenario.addressPlatform Scenario.slashEight Scenario.tenHost) :=
  ⟨Scenario.addressPlatform_decodes, cidr_match_iff _ Scenario.addressPlatform_decodes _ _⟩

/-- The prefix length 2 ^ 32 + 8 is taken for 8. -/
theorem far_prefix_matches :
    matchHostCidr Scenario.addressPlatform Scenario.slashFar Scenario.tenHost = true ∧
      ¬MatchesPrefix Scenario.addressPlatform Scenario.slashFar Scenario.tenHost := by
  have decodes := Scenario.addressPlatform_decodes
  have cidr : Cidr Scenario.addressPlatform Scenario.slashFar Scenario.tenHost .inet 4294967304
      [10, 0, 0, 0] [10, 1, 2, 3] :=
    ⟨⟨[49, 48, 46, 48, 46, 48, 46, 48], [52, 50, 57, 52, 57, 54, 55, 51, 48, 52], rfl, by decide +kernel,
        [], [], _, rfl, by simp, by simp, by simp, by decide +kernel, by decide⟩, by decide +kernel⟩
  refine ⟨by decide +kernel, ?_⟩
  rintro (⟨_, _, _, _, again, -, high, -⟩ | ⟨-, same⟩)
  · obtain ⟨rfl, rfl, -⟩ := cidr.unique decodes again
    exact absurd high (by decide)
  · exact cidr.ne decodes same

end Management
end KsmbdTools
