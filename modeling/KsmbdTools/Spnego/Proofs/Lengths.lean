import KsmbdTools.Spnego.Proofs.Der

/-! Definite lengths of any number of octets. The value is kept in 32 bits while it is read, and compared with what
is left of the buffer only then. -/

namespace KsmbdTools.Spnego

inductive IdentifierOctets : List UInt8 → Prop where
  | low (octet : UInt8) (small : octet.toNat % 32 ≠ 31) : IdentifierOctets [octet]
  | high (octet : UInt8) (large : octet.toNat % 32 = 31) (front : List UInt8) (last : UInt8)
      (continued : ∀ septet ∈ front, septet.toNat / 128 = 1) (ended : last.toNat / 128 ≠ 1) :
      IdentifierOctets (octet :: (front ++ [last]))

/-- A length field that is definite, and the length it says. -/
inductive DefiniteLength : List UInt8 → Nat → Prop where
  | short (octet : UInt8) (small : octet < 128) : DefiniteLength [octet] octet.toNat
  | long (octets : List UInt8) (some : 1 ≤ octets.length) (bound : octets.length ≤ 126) :
      DefiniteLength (UInt8.ofNat (128 + octets.length) :: octets) (bigEndian octets)

theorem IdentifierOctets.identifier {octets : List UInt8} (complete : IdentifierOctets octets) :
    ∃ id, Identifier octets id := by
  cases complete with
  | low octet small => exact ⟨_, .low octet small⟩
  | high octet large front last continued ended => exact ⟨_, .high octet large ((Terminated.last ended).continued continued)⟩

theorem DefiniteLength.field {field : List UInt8} {len : Nat} (definite : DefiniteLength field len) :
    LengthField field (some (len % 2 ^ 32)) := by
  cases definite with
  | short octet small =>
    have := octet.toNat_lt
    rw [Nat.mod_eq_of_lt (by omega)]
    exact .short octet small
  | long octets some bound =>
    have value : (UInt8.ofNat (128 + octets.length)).toNat = 128 + octets.length := by
      rw [UInt8.toNat_ofNat']
      omega
    refine .long _ ?_ octets (by omega)
    rw [UInt8.lt_iff_toNat_lt, value]
    exact Nat.lt_add_of_pos_right some

theorem Runs.definiteHeader {buffer octets field : List UInt8} {start len : Nat} (complete : IdentifierOctets octets)
    (definite : DefiniteLength field len) (held : At buffer start (octets ++ field)) :
    (start + (octets ++ field).length + len % 2 ^ 32 ≤ buffer.length ∧
        ∃ id, Runs buffer asn1HeaderDecode start
          (.ok (some (start + (octets ++ field).length + len % 2 ^ 32), id)) (start + (octets ++ field).length)) ∨
      (buffer.length < start + (octets ++ field).length + len % 2 ^ 32 ∧
        ∃ last, Runs buffer asn1HeaderDecode start (.stop ()) last) := by
  obtain ⟨id, one⟩ := complete.identifier
  have spans : Spans buffer start (start + (octets ++ field).length) (octets ++ field) := ⟨held, rfl⟩
  rcases Nat.lt_or_ge buffer.length (start + (octets ++ field).length + len % 2 ^ 32) with long | fits
  · have stopped := Runs.length_stop definite.field spans.split.2 long
    exact .inr ⟨long, _, (Runs.identifier one spans.split.1).bind stopped.bind_stop⟩
  · exact .inl ⟨fits, id, Runs.header ⟨⟨octets, field, one, definite.field, spans⟩, fits, nofun⟩⟩

/-- The header is accepted just when its contents end within the buffer, and the end is theirs. -/
structure ExactLength (buffer : List UInt8) (start header len : Nat) (used : List (Option Nat)) : Prop where
  accepted : (∃ result, (asn1HeaderDecode ⟨buffer, some start, used⟩).1 = .ok result) ↔ start + header + len ≤ buffer.length
  ends : ∀ eoc id, (asn1HeaderDecode ⟨buffer, some start, used⟩).1 = .ok (eoc, id) → eoc = some (start + header + len)

/-- A definite length is read exactly unless it needs more than 32 bits and its last 32 bits are within the buffer. -/
theorem definite_length_iff (buffer octets field : List UInt8) (start len : Nat) (used : List (Option Nat))
    (inside : start ≤ buffer.length) (complete : IdentifierOctets octets) (definite : DefiniteLength field len)
    (held : At buffer start (octets ++ field)) :
    ExactLength buffer start (octets ++ field).length len used ↔
      len < 2 ^ 32 ∨ buffer.length - (start + (octets ++ field).length) < len % 2 ^ 32 := by
  have whole := held.inside inside
  rcases Runs.definiteHeader complete definite held with ⟨fits, id, uses, -, ran⟩ | ⟨long, last, uses, -, ran⟩
  · constructor
    · rintro ⟨-, ends⟩
      have same := ends _ id (congrArg Prod.fst (ran used))
      simp only [Option.some.injEq] at same
      left
      omega
    · intro small
      have exactly : len % 2 ^ 32 = len := by omega
      rw [exactly] at ran fits
      refine ⟨⟨fun _ => by omega, fun _ => ⟨_, congrArg Prod.fst (ran used)⟩⟩, fun eoc other decoded => ?_⟩
      rw [ran used] at decoded
      cases decoded
      rfl
  · constructor
    · rintro ⟨accepted, -⟩
      by_cases small : len < 2 ^ 32
      · exact .inl small
      · right
        omega
    · intro _
      refine ⟨⟨?_, fun within => ?_⟩, fun eoc id decoded => ?_⟩
      · rintro ⟨result, decoded⟩
        rw [ran used] at decoded
        cases decoded
      · omega
      · rw [ran used] at decoded
        cases decoded

/-- A sequence of three bytes. -/
theorem definite_length_three : ExactLength [48, 3, 1, 2, 3] 0 2 3 [] :=
  (definite_length_iff [48, 3, 1, 2, 3] [48] [3] 0 3 [] (by decide) (.low 48 (by decide)) (.short 3 (by decide))
    ⟨[1, 2, 3], rfl⟩).mpr (.inl (by decide))

/-- A length of `2 ^ 32`, in five octets, in front of nothing: the header is accepted with the end right behind it. -/
theorem definite_length_wrapped :
    DefiniteLength [133, 1, 0, 0, 0, 0] (2 ^ 32) ∧
      (asn1HeaderDecode (asn1Open [48, 133, 1, 0, 0, 0, 0])).1 = .ok (some 7, ⟨0, 1, 16⟩) :=
  ⟨.long [1, 0, 0, 0, 0] (by decide) (by decide), by decide⟩

end KsmbdTools.Spnego
