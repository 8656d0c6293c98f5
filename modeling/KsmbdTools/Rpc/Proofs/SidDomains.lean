import KsmbdTools.Rpc.Proofs.RoundTrip

/-! Which domain an identifier is taken for. Identifiers are compared up to the end of the shorter one, so that
one counts as in a domain whenever it begins like it, or has nothing to be compared. -/

namespace KsmbdTools.Rpc
open Management

namespace SmbSid
variable {sid : SmbSid} {authority : UInt8}

/-- The identifier is `S-1-authority` and these sub-authorities. -/
structure Is (sid : SmbSid) (authority : UInt8) (subs : List UInt32) : Prop where
  revision : sid.revision = 1
  authority : sid.authority = lowAuthority authority
  subs : sid.subAuth.toList.take sid.numSubauth = subs

/-- The identifier is `S-1-authority`, or `S-1-authority-first` and anything behind it. -/
structure Under (sid : SmbSid) (authority : UInt8) (first : UInt32) : Prop where
  revision : sid.revision = 1
  authority : sid.authority = lowAuthority authority
  first : sid.numSubauth = 0 ∨ sid.subAuth[0] = first

theorem take_one (sid : SmbSid) : sid.subAuth.toList.take 1 = [sid.subAuth[0]] := by
  obtain ⟨array, size⟩ := sid.subAuth
  obtain ⟨list⟩ := array
  match list, size with
  | first :: _, _ => rfl

theorem take_four (sid : SmbSid) :
    sid.subAuth.toList.take 4 = [sid.subAuth[0], sid.genSubauth.1, sid.genSubauth.2.1, sid.genSubauth.2.2] := by
  obtain ⟨_, _, _, ⟨⟨list⟩, size⟩⟩ := sid
  match list, size with
  | _ :: _ :: _ :: _ :: _, _ => rfl

theorem count_of_take {subs : List UInt32} (taken : sid.subAuth.toList.take sid.numSubauth = subs) :
    sid.numSubauth.val = subs.length := by
  have length := congrArg List.length taken
  have bound := sid.numSubauth.isLt
  rw [List.length_take, Vector.length_toList] at length
  omega

theorem is_one {first : UInt32} : sid.Is authority [first] ↔ sid.numSubauth.val = 1 ∧ sid.Under authority first := by
  constructor
  · rintro ⟨revision, authority, subs⟩
    have count := count_of_take subs
    rw [count, List.length_singleton, take_one] at subs
    exact ⟨count, revision, authority, .inr (List.cons.inj subs).1⟩
  · rintro ⟨count, revision, authority, none | first⟩
    · rw [none] at count
      cases count
    · exact ⟨revision, authority, by rw [count, take_one, first]⟩

theorem is_four {first g0 g1 g2 : UInt32} : sid.Is authority [first, g0, g1, g2] ↔
    sid.numSubauth.val = 4 ∧ sid.Under authority first ∧ sid.genSubauth = (g0, g1, g2) := by
  constructor
  · rintro ⟨revision, authority, subs⟩
    have count := count_of_take subs
    rw [count] at subs
    simp only [List.length_cons, List.length_nil, Nat.zero_add, Nat.reduceAdd] at subs
    rw [take_four] at subs
    simp only [List.cons.injEq, and_true] at subs
    obtain ⟨same, one, two, three⟩ := subs
    exact ⟨count, ⟨revision, authority, .inr same⟩, Prod.ext one (Prod.ext two three)⟩
  · rintro ⟨count, ⟨revision, authority, none | same⟩, rest⟩
    · rw [none] at count
      cases count
    · exact ⟨revision, authority, by rw [count, take_four, same, rest]⟩

end SmbSid

/-- The comparison with an identifier of one sub-authority looks no further than that. -/
theorem smbSameSids_iff {sid : SmbSid} {authority : UInt8} {first : UInt32} :
    smbSameSids sid (smbSid authority [first]) = true ↔ sid.Under authority first := by
  have other : (smbSid authority [first]).subAuth.toList.take 1 = [first] := by
    rw [SmbSid.take_one]
    rfl
  have count : (smbSid authority [first]).numSubauth.val = 1 := rfl
  simp only [smbSameSids, Bool.and_eq_true, beq_iff_eq, count]
  rcases Nat.eq_zero_or_pos sid.numSubauth.val with none | some
  · have zero : sid.numSubauth = 0 := Fin.ext none
    rw [none]
    simp only [Nat.zero_min, List.take_zero, and_true]
    exact ⟨fun ⟨revision, authority⟩ => ⟨revision, authority, .inl zero⟩, fun under => ⟨under.revision, under.authority⟩⟩
  · rw [Nat.min_eq_right some, SmbSid.take_one, other]
    constructor
    · rintro ⟨⟨revision, authority⟩, same⟩
      exact ⟨revision, authority, .inr (List.cons.inj same).1⟩
    · rintro ⟨revision, authority, none | same⟩
      · rw [none] at some
        cases some
      · exact ⟨⟨revision, authority⟩, by rw [same]⟩

namespace DomainReport

def ofHost (hostname : CStr) : DomainReport where
  domain := asciiStrup hostname
  type := SidType.user
  result := hostname.length

def unixUser : DomainReport where
  domain := some [85, 110, 105, 120, 32, 85, 115, 101, 114]
  type := SidType.user
  result := 9

def unixGroup : DomainReport where
  domain := some [85, 110, 105, 120, 32, 71, 114, 111, 117, 112]
  type := SidType.group
  result := 10

def Unknown (report : DomainReport) : Prop := report.type = some SidType.unknown ∧ report.result < 0

theorem ofHost_ne_unixUser (hostname : CStr) : ofHost hostname ≠ unixUser := by
  intro same
  -- Nothing in capitals has the second letter of `Unix User`.
  have never (byte : UInt8) : asciiUpper byte ≠ 110 := by
    rw [Ne, ← UInt8.toNat_inj, asciiUpper]
    split
    · next lower =>
      simp only [UInt8.le_iff_toNat_le, UInt8.reduceToNat] at lower
      simp only [UInt8.toNat_sub, UInt8.reduceToNat]
      omega
    · next other =>
      simp only [UInt8.le_iff_toNat_le, UInt8.reduceToNat] at other
      simp only [UInt8.reduceToNat]
      omega
  have second := congrArg (fun report => report.domain.bind (·[1]?)) same
  simp only [ofHost, unixUser, asciiStrup, Option.bind_some, List.getElem?_map] at second
  obtain ⟨byte, -, upper⟩ := Option.map_eq_some_iff.mp second
  exact never byte upper

theorem ofHost_ne_unixGroup (hostname : CStr) : ofHost hostname ≠ unixGroup := by
  intro same
  have type : some SidType.user = some SidType.group := congrArg DomainReport.type same
  exact absurd type (by decide)

end DomainReport

section Classes
variable {machine : Machine} {conf : SmbconfGlobal} {hostname : CStr} {sid : SmbSid}

/-- The identifier is taken for one of the server's own domain: its first four words are looked at however many
it counts. -/
def SmbSid.Local (conf : SmbconfGlobal) (sid : SmbSid) : Prop :=
  sid.Under 5 21 ∧ sid.genSubauth = conf.genSubauth

theorem SmbSid.Local.not_unix {first : UInt32} (here : sid.Local conf) : ¬sid.Under 22 first := by
  intro unix
  have same := congrArg (fun authority : Vector UInt8 6 => authority[5]) (here.1.authority.symm.trans unix.authority)
  exact absurd same (by decide)

open Classical in
theorem setDomainName_eq (named : machine.gethostname = some hostname) (short : hostname.length < 257) :
    setDomainName machine conf sid =
      if sid.Local conf then .ofHost hostname else if sid.Under 22 1 then .unixUser
      else if sid.Under 22 2 then .unixGroup
      else { domain := smbSidToString sid, type := SidType.unknown, result := -2 } := by
  have whole : (asciiStrup hostname).take 256 = asciiStrup hostname := by
    refine List.take_of_length_le ?_
    rw [asciiStrup, List.length_map]
    omega
  have here : (smbSameSids sid sidDomain && sid.genSubauth == conf.genSubauth) = true ↔
      sid.Local conf := by
    rw [Bool.and_eq_true, beq_iff_eq, sidDomain, smbSameSids_iff, SmbSid.Local]
  simp only [setDomainName, here, sidUnixUsers, sidUnixGroups, smbSameSids_iff, named, whole, Nat.not_le.mpr short, if_false]
  rfl

theorem report_local_iff (named : machine.gethostname = some hostname) (short : hostname.length < 257) :
    setDomainName machine conf sid = .ofHost hostname ↔ sid.Local conf := by
  rw [setDomainName_eq named short]
  split_ifs with here user group
  · simp [here]
  · simp [here, (DomainReport.ofHost_ne_unixUser hostname).symm]
  · simp [here, (DomainReport.ofHost_ne_unixGroup hostname).symm]
  · simp only [here, iff_false]
    intro same
    have type : some SidType.unknown = some SidType.user := congrArg DomainReport.type same
    exact absurd type (by decide)

theorem report_user_iff (named : machine.gethostname = some hostname) (short : hostname.length < 257) :
    setDomainName machine conf sid = .unixUser ↔ sid.Under 22 1 := by
  rw [setDomainName_eq named short]
  split_ifs with here user group
  · simp [DomainReport.ofHost_ne_unixUser, here.not_unix]
  · simp [user]
  · simp only [user, iff_false]
    decide
  · simp only [user, iff_false]
    intro same
    have type : some SidType.unknown = some SidType.user := congrArg DomainReport.type same
    exact absurd type (by decide)

theorem report_group_iff (named : machine.gethostname = some hostname) (short : hostname.length < 257) :
    setDomainName machine conf sid = .unixGroup ↔ sid.Under 22 2 ∧ ¬sid.Under 22 1 := by
  rw [setDomainName_eq named short]
  split_ifs with here user group
  · simp [DomainReport.ofHost_ne_unixGroup, here.not_unix]
  · simp only [user, not_true_eq_false, and_false, iff_false]
    decide
  · simp [user, group]
  · simp only [group, false_and, iff_false]
    intro same
    have type : some SidType.unknown = some SidType.group := congrArg DomainReport.type same
    exact absurd type (by decide)

theorem report_unknown_iff (named : machine.gethostname = some hostname) (short : hostname.length < 257) :
    (setDomainName machine conf sid).Unknown ↔ ¬sid.Local conf ∧ ¬sid.Under 22 1 ∧ ¬sid.Under 22 2 := by
  have known : some SidType.user ≠ some SidType.unknown ∧ some SidType.group ≠ some SidType.unknown := by decide
  rw [setDomainName_eq named short]
  split_ifs with here user group
  · simp [DomainReport.Unknown, DomainReport.ofHost, here, known.1]
  · simp [DomainReport.Unknown, DomainReport.unixUser, user, known.1]
  · simp [DomainReport.Unknown, DomainReport.unixGroup, group, known.2]
  · simp [DomainReport.Unknown, here, user, group]

/-- Each of the three domains is reported for its own identifier only, and no domain for every other one. -/
structure ExactDomains (machine : Machine) (conf : SmbconfGlobal) (hostname : CStr) (sid : SmbSid) : Prop where
  here : setDomainName machine conf sid = .ofHost hostname ↔
    sid.Is 5 [21, conf.genSubauth.1, conf.genSubauth.2.1, conf.genSubauth.2.2]
  user : setDomainName machine conf sid = .unixUser ↔ sid.Is 22 [1]
  group : setDomainName machine conf sid = .unixGroup ↔ sid.Is 22 [2]
  other : (setDomainName machine conf sid).Unknown ↔
    ¬sid.Is 5 [21, conf.genSubauth.1, conf.genSubauth.2.1, conf.genSubauth.2.2] ∧ ¬sid.Is 22 [1] ∧ ¬sid.Is 22 [2]

end Classes

/-- An identifier is classified exactly if one that begins like a domain, or has no sub-authority to begin with,
counts as many as the domain does. -/
theorem domain_classification_iff (machine : Machine) (conf : SmbconfGlobal) (hostname : CStr) (sid : SmbSid)
    (named : machine.gethostname = some hostname) (short : hostname.length < 257) :
    ExactDomains machine conf hostname sid ↔
      (sid.Local conf → sid.numSubauth.val = 4) ∧ (sid.Under 22 1 ∨ sid.Under 22 2 → sid.numSubauth.val = 1) := by
  have own : sid.Is 5 [21, conf.genSubauth.1, conf.genSubauth.2.1, conf.genSubauth.2.2] ↔
      sid.numSubauth.val = 4 ∧ sid.Local conf := SmbSid.is_four
  have both : sid.numSubauth.val = 1 → sid.Under 22 1 → ¬sid.Under 22 2 := by
    rintro one ⟨-, -, none | first⟩ ⟨-, -, none' | second⟩
    · rw [none] at one
      cases one
    · rw [none] at one
      cases one
    · rw [none'] at one
      cases one
    · rw [first] at second
      exact absurd second (by decide)
  constructor
  · rintro ⟨here, user, group, -⟩
    rw [report_local_iff named short, own] at here
    rw [report_user_iff named short, SmbSid.is_one] at user
    rw [report_group_iff named short, SmbSid.is_one] at group
    refine ⟨fun inside => (here.mp inside).1, ?_⟩
    rintro (one | two)
    · exact (user.mp one).1
    · by_cases one : sid.Under 22 1
      · exact (user.mp one).1
      · exact (group.mp ⟨two, one⟩).1
  · rintro ⟨here, unix⟩
    refine ⟨?_, ?_, ?_, ?_⟩
    · rw [report_local_iff named short, own]
      exact ⟨fun inside => ⟨here inside, inside⟩, And.right⟩
    · rw [report_user_iff named short, SmbSid.is_one]
      exact ⟨fun one => ⟨unix (.inl one), one⟩, And.right⟩
    · rw [report_group_iff named short, SmbSid.is_one]
      exact ⟨fun group => ⟨unix (.inr group.1), group.1⟩,
        fun exactly => ⟨exactly.2, fun one => both exactly.1 one exactly.2⟩⟩
    · rw [report_unknown_iff named short, own, SmbSid.is_one, SmbSid.is_one]
      exact ⟨fun none => ⟨fun same => none.1 same.2, fun same => none.2.1 same.2, fun same => none.2.2 same.2⟩,
        fun none => ⟨fun inside => none.1 ⟨here inside, inside⟩, fun one => none.2.1 ⟨unix (.inl one), one⟩,
          fun two => none.2.2 ⟨unix (.inr two), two⟩⟩⟩

open Scenario in
/-- `S-1-5-32` is no domain that is known. -/
theorem domain_classification_builtin : (setDomainName machine {} (smbSid 5 [32])).Unknown := by
  have exactly := (domain_classification_iff machine {} [104] (smbSid 5 [32]) rfl (by decide)).mpr
    ⟨fun inside => absurd inside.1.first (by decide), fun unix => by
      rcases unix with unix | unix <;> exact absurd unix.authority (by decide)⟩
  refine exactly.other.mpr ⟨fun same => absurd same.subs (by decide), fun same => absurd same.subs (by decide),
    fun same => absurd same.subs (by decide)⟩

open Scenario in
/-- `S-1-22-1-5` is reported as the domain `Unix User`, which is `S-1-22-1`. -/
theorem domain_classification_longer : setDomainName machine {} (smbSid 22 [1, 5]) = .unixUser ∧
    ¬(smbSid 22 [1, 5]).Is 22 [1] := by
  refine ⟨by decide, fun same => absurd same.subs (by decide)⟩

end KsmbdTools.Rpc
