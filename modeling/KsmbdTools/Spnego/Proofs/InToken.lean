import KsmbdTools.Spnego.Token
import KsmbdTools.Spnego.Proofs.Octets

/-! Which tokens the decoder reads without leaving them. -/

namespace KsmbdTools.Spnego

/-- Nothing outside is read, and the cursor and every end that is passed on stay inside. -/
def StaysInside (token : List UInt8) : Prop :=
  (decodeNegTokenInit (asn1Open token)).1 ≠ .fault ∧
    ∀ use ∈ (decodeNegTokenInit (asn1Open token)).2.used, Inside token use

def Element (token : List UInt8) (start : Nat) (id : Asn1Id) (eoc : Option Nat) (last : Nat) : Prop :=
  Runs token asn1HeaderDecode start (.ok (eoc, id)) last

def OidAt (token : List UInt8) (start : Nat) (oid : List Nat) (last : Nat) : Prop :=
  ∃ eoc middle, Element token start .objectId eoc middle ∧ Runs token (asn1OidDecode eoc) middle (.ok oid) last

/-- An object identifier that says these arcs. -/
def OidOctets (token : List UInt8) (start : Nat) (oid : List Nat) (last : Nat) : Prop :=
  ∃ length middle, HeaderAt token start .objectId (some length) middle ∧ OidContents token middle length oid last

/-- The list of mechanisms has an indefinite length, and its first one is supported. -/
def IndefiniteMechTypes (token : List UInt8) : Prop :=
  ∃ first second third fourth fifth sixth last,
    (∃ len, HeaderAt token 0 .application len first) ∧ OidOctets token first spnegoOid second ∧
    (∃ len, HeaderAt token second (.context 0) len third) ∧ (∃ len, HeaderAt token third .sequence len fourth) ∧
    (∃ len, HeaderAt token fourth (.context 0) len fifth) ∧ HeaderAt token fifth .sequence none sixth ∧
    ∃ oid, OidOctets token sixth oid last ∧ isSupportedMech oid ≠ none

section Walk
variable {token : List UInt8} {start : Nat}

theorem Element.runs {id : Asn1Id} {eoc : Option Nat} {last : Nat} (element : Element token start id eoc last) :
    Runs token (decodeAsn1Header id) start (.ok eoc) last := by
  refine Runs.bind element ?_
  simp only [ne_eq, not_true_eq_false, if_false]
  exact .pure eoc

theorem HeaderAt.place {id : Asn1Id} {len : Option Nat} {last : Nat} (header : HeaderAt token start id len last) :
    last ≤ token.length := Nat.le_of_add_right_le header.fits

theorem Bounded.element (id : Asn1Id) :
    Bounded token (decodeAsn1Header id) start fun eoc last =>
      ∃ len, HeaderAt token start id len last ∧ eoc = len.map (last + ·) := by
  refine header.bind fun found last bound ends _ => ?_
  obtain ⟨eoc, other⟩ := found
  dsimp only
  split
  · exact .stop
  · next same =>
    have same : other = id := by simpa using same
    subst same
    exact .pure bound ends

theorem OidAt.runs {oid : List Nat} {last : Nat} (at_ : OidAt token start oid last) :
    Runs token (expectOid oid) start (.ok ()) last := by
  obtain ⟨eoc, middle, element, ran⟩ := at_
  refine element.runs.bind (ran.bind ?_)
  simp only [ne_eq, not_true_eq_false, if_false]
  exact .pure ()

theorem OidOctets.read {oid : List Nat} {last : Nat} (octets : OidOctets token start oid last) :
    OidAt token start oid last := by
  obtain ⟨length, middle, header, contents⟩ := octets
  exact ⟨_, middle, Runs.header header, Runs.oid contents header.fits⟩

theorem OidOctets.place {oid : List Nat} {last : Nat} (octets : OidOctets token start oid last) : last ≤ token.length := by
  obtain ⟨length, middle, header, -, octets, -, -, spans, -⟩ := octets
  have := spans.held.inside header.place
  rwa [← spans.ends] at this

/-- A header and the contents behind it, as the two callers of `asn1_oid_decode` read them. -/
theorem Bounded.oidOctets {β : Type} {next : List Nat → Asn1 β} {ensures : β → Nat → Prop}
    (rest : ∀ oid last, OidOctets token start oid last → Bounded token (next oid) last ensures) :
    Bounded token (do let eoc ← decodeAsn1Header .objectId; let oid ← asn1OidDecode eoc; next oid) start ensures := by
  refine (element .objectId).bind fun eoc middle _ header _ => ?_
  obtain ⟨len, header, rfl⟩ := header
  cases len with
  | none => exact absurd rfl (header.constructed rfl)
  | some length =>
    exact (oid header.fits).bind fun oid last _ contents _ => rest oid last ⟨length, middle, header, contents⟩

theorem Bounded.expectOid (oid : List Nat) :
    Bounded token (expectOid oid) start fun _ last => OidOctets token start oid last := by
  refine oidOctets fun found last octets => ?_
  split
  · exact .stop
  · next same =>
    have same : found = oid := by simpa using same
    subst same
    exact .pure octets.place octets

/-- The end of the list of mechanisms is inside the token unless its length is indefinite. -/
theorem Bounded.mechTypes (token : List UInt8) :
    Bounded token decodeMechTypes 0 fun found _ =>
      Inside token found.2 ∨ found.2 = none ∧ IndefiniteMechTypes token := by
  refine (element .application).bind fun _ first _ application _ => ?_
  refine (expectOid spnegoOid).bind fun _ second _ spnego _ => ?_
  refine (element (.context 0)).bind fun _ third _ init _ => ?_
  refine (element .sequence).bind fun _ fourth _ sequence _ => ?_
  refine (element (.context 0)).bind fun _ fifth _ mechTypes _ => ?_
  refine (element .sequence).bind fun _ sixth _ list _ => ?_
  obtain ⟨_, application, -⟩ := application
  obtain ⟨_, init, -⟩ := init
  obtain ⟨_, sequence, -⟩ := sequence
  obtain ⟨_, mechTypes, -⟩ := mechTypes
  obtain ⟨len, list, rfl⟩ := list
  refine oidOctets fun oid last octets => ?_
  cases supported : isSupportedMech oid with
  | none => exact .stop
  | some mech =>
    refine .pure octets.place ?_
    cases len with
    | some count => exact .inl ⟨sixth + count, list.fits, rfl⟩
    | none =>
      exact .inr ⟨rfl, first, second, third, fourth, fifth, sixth, last, ⟨_, application⟩, spnego, ⟨_, init⟩, ⟨_, sequence⟩,
        ⟨_, mechTypes⟩, list, oid, octets, by rw [supported]; exact Option.some_ne_none mech⟩

theorem Bounded.mechToken (mech : Mech) :
    Bounded token (decodeMechToken mech) start fun _ _ => True := by
  refine (element (.context 2)).bind fun _ _ _ _ _ => ?_
  refine (element .octetString).bind fun _ _ _ _ _ => ?_
  refine (element .application).bind fun _ _ _ _ _ => ?_
  refine (expectOid krb5Oid).bind fun _ _ _ _ _ => ?_
  refine read.bind fun id _ bound _ _ => ?_
  split
  · exact .stop
  · exact .get_bind (fun _ => rfl) (.pure bound trivial)

theorem Bounded.stays {α : Type} {program : Asn1 α} {ensures : α → Nat → Prop} {used : List (Option Nat)}
    (bounded : Bounded token program start ensures) (before : ∀ use ∈ used, Inside token use) :
    (program ⟨token, some start, used⟩).1 ≠ .fault ∧
      ∀ use ∈ (program ⟨token, some start, used⟩).2.used, Inside token use := by
  have all : ∀ uses, (∀ use ∈ uses, Inside token use) → ∀ use ∈ uses ++ used, Inside token use := by
    intro uses inside use member
    rcases List.mem_append.mp member with member | member
    · exact inside use member
    · exact before use member
  rcases bounded with ⟨last, uses, inside, ran⟩ | ⟨value, last, bound, ⟨uses, inside, ran⟩, -⟩
  · rw [ran]
    exact ⟨by simp, all uses inside⟩
  · rw [ran]
    exact ⟨by simp, all uses inside⟩

theorem Runs.jump {place : Nat} (inside : place ≤ token.length) :
    Runs token (Proc.modify (·.move (some place))) start (.ok ()) place := by
  refine ⟨[some place], ?_, fun used => rfl⟩
  intro use member
  rw [List.mem_singleton.mp member]
  exact ⟨place, inside, rfl⟩

theorem HeaderAt.runs {id : Asn1Id} {len : Option Nat} {last : Nat} (header : HeaderAt token start id len last) :
    Runs token (decodeAsn1Header id) start (.ok (len.map (last + ·))) last := Element.runs (Runs.header header)

theorem IndefiniteMechTypes.runs (indefinite : IndefiniteMechTypes token) :
    ∃ mech last, Runs token decodeMechTypes 0 (.ok (mech, none)) last := by
  obtain ⟨first, second, third, fourth, fifth, sixth, last, ⟨_, application⟩, spnego, ⟨_, init⟩, ⟨_, sequence⟩,
    ⟨_, mechTypes⟩, list, oid, octets, supported⟩ := indefinite
  obtain ⟨mech, supported⟩ := Option.ne_none_iff_exists'.mp supported
  obtain ⟨_, _, header, ran⟩ := octets.read
  refine ⟨mech, last, ?_⟩
  refine application.runs.bind (spnego.read.runs.bind (init.runs.bind (sequence.runs.bind (mechTypes.runs.bind
    (list.runs.bind (header.runs.bind (ran.bind ?_)))))))
  rw [supported]
  exact .pure (mech, none)

end Walk

theorem decodeMechToken_null (token : List UInt8) (mech : Mech) (used : List (Option Nat)) :
    (decodeMechToken mech ⟨token, none, used⟩).1 = .fault := by
  have octet : asn1OctetDecode ⟨token, none, used⟩ = (.fault, ⟨token, none, used⟩) := rfl
  have header : asn1HeaderDecode ⟨token, none, used⟩ = (.fault, ⟨token, none, used⟩) :=
    Proc.bind_fault (Proc.bind_fault octet)
  exact Proc.bind_faulted _ (Proc.bind_faulted _ (congrArg Prod.fst header))

/-- The decoder stays inside every token but those that have it jump to the missing end of
an indefinite list of mechanisms. -/
theorem stays_inside_iff (token : List UInt8) : StaysInside token ↔ ¬IndefiniteMechTypes token := by
  constructor
  · rintro ⟨safe, -⟩ indefinite
    obtain ⟨mech, last, uses, -, ran⟩ := indefinite.runs
    have jumped : (decodeNegTokenInit (asn1Open token)).1 = .fault := by
      unfold decodeNegTokenInit asn1Open
      rw [Proc.bind_ok (ran _)]
      exact decodeMechToken_null token mech _
    exact safe jumped
  · intro definite
    have bounded : Bounded token decodeNegTokenInit 0 fun _ _ => True := by
      refine (Bounded.mechTypes token).bind fun found last _ ends _ => ?_
      obtain ⟨mech, mechTypesEnd⟩ := found
      obtain ⟨place, inside, rfl⟩ := ends.resolve_right fun null => definite null.2
      rcases @Bounded.mechToken token place mech with ⟨after, failed⟩ | ⟨request, after, bound, ended, -⟩
      · exact .inl ⟨after, (Runs.jump inside).bind failed⟩
      · exact .inr ⟨request, after, bound, (Runs.jump inside).bind ended, trivial⟩
    refine bounded.stays ?_
    intro use member
    rw [List.mem_singleton.mp member]
    exact ⟨0, Nat.zero_le _, rfl⟩

/-- A token whose list of mechanisms starts with `30 80` and the Kerberos OID. -/
def indefiniteToken : List UInt8 :=
  [0x60, 27, 6, 6, 0x2b, 6, 1, 5, 5, 2, 0xa0, 17, 0x30, 15, 0xa0, 13, 0x30, 0x80,
    6, 9, 0x2a, 0x86, 0x48, 0x86, 0xf7, 0x12, 1, 2, 2]

theorem indefinite_list_reads_null :
    (decodeNegTokenInit (asn1Open indefiniteToken)).1 = .fault ∧
      none ∈ (decodeNegTokenInit (asn1Open indefiniteToken)).2.used := by
  decide +kernel

end KsmbdTools.Spnego
