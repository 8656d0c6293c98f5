import KsmbdTools.Spnego.Asn1

/-! Runs of the decoder from a place inside the buffer: what a run gives, where its cursor
ends, and that it uses no other places. -/

namespace KsmbdTools.Spnego

/-- Not null, and between `begin` and `end` inclusive. -/
def Inside (buffer : List UInt8) (pointer : Option Nat) : Prop := ∃ offset ≤ buffer.length, pointer = some offset

/-- From this place the program ends so, whatever was used before. -/
def Runs {α : Type} (buffer : List UInt8) (program : Asn1 α) (start : Nat) (outcome : Outcome Unit α) (last : Nat) : Prop :=
  ∃ uses, (∀ use ∈ uses, Inside buffer use) ∧
    ∀ used, program ⟨buffer, some start, used⟩ = (outcome, ⟨buffer, some last, uses ++ used⟩)

namespace Runs
variable {α β : Type} {buffer : List UInt8} {start middle last : Nat}

theorem pure (value : α) : Runs buffer (Pure.pure value) start (.ok value) start :=
  ⟨[], by simp, fun _ => rfl⟩

theorem stop : Runs buffer (Proc.stop () : Asn1 α) start (.stop ()) start :=
  ⟨[], by simp, fun _ => rfl⟩

theorem bind {first : Asn1 α} {next : α → Asn1 β} {value : α} {outcome : Outcome Unit β}
    (one : Runs buffer first start (.ok value) middle) (two : Runs buffer (next value) middle outcome last) :
    Runs buffer (first >>= next) start outcome last := by
  obtain ⟨uses, inside, ran⟩ := one
  obtain ⟨uses', inside', ran'⟩ := two
  refine ⟨uses' ++ uses, ?_, fun used => ?_⟩
  · intro use member
    rcases List.mem_append.mp member with member | member
    · exact inside' use member
    · exact inside use member
  · rw [Proc.bind_ok (ran used), ran', List.append_assoc]

theorem bind_stop {first : Asn1 α} {next : α → Asn1 β} (one : Runs buffer first start (.stop ()) last) :
    Runs buffer (first >>= next) start (.stop ()) last := by
  obtain ⟨uses, inside, ran⟩ := one
  exact ⟨uses, inside, fun used => Proc.bind_stop (ran used)⟩

theorem get_bind {next : Asn1Ctx → Asn1 β} {outcome : Outcome Unit β}
    (same : ∀ used, next ⟨buffer, some start, used⟩ = next ⟨buffer, some start, []⟩)
    (rest : Runs buffer (next ⟨buffer, some start, []⟩) start outcome last) :
    Runs buffer (Proc.get >>= next) start outcome last := by
  obtain ⟨uses, inside, ran⟩ := rest
  refine ⟨uses, inside, fun used => ?_⟩
  rw [Proc.bind_ok (Proc.get_apply _), same]
  exact ran used

theorem octet {ch : UInt8} (read : buffer[start]? = some ch) :
    Runs buffer asn1OctetDecode start (.ok ch) (start + 1) := by
  obtain ⟨bound, -⟩ := List.getElem?_eq_some_iff.mp read
  refine ⟨[some (start + 1)], ?_, fun used => ?_⟩
  · intro use member
    rw [List.mem_singleton.mp member]
    exact ⟨start + 1, bound, rfl⟩
  · simp [asn1OctetDecode, read, Asn1Ctx.move]

theorem octet_end (ended : buffer.length ≤ start) : Runs buffer asn1OctetDecode start (.stop ()) start := by
  refine ⟨[], by simp, fun used => ?_⟩
  simp [asn1OctetDecode, List.getElem?_eq_none ended]

end Runs

/-- From this place the program fails or runs to its end, and stays inside. -/
def Bounded {α : Type} (buffer : List UInt8) (program : Asn1 α) (start : Nat) (ensures : α → Nat → Prop) : Prop :=
  (∃ last, Runs buffer program start (.stop ()) last) ∨
    ∃ value, ∃ last ≤ buffer.length, Runs buffer program start (.ok value) last ∧ ensures value last

namespace Bounded
variable {α β : Type} {buffer : List UInt8} {start : Nat}

theorem mono {program : Asn1 α} {strong weak : α → Nat → Prop} (bounded : Bounded buffer program start strong)
    (implies : ∀ value last, strong value last → weak value last) : Bounded buffer program start weak := by
  rcases bounded with failed | ⟨value, last, bound, ran, holds⟩
  · exact .inl failed
  · exact .inr ⟨value, last, bound, ran, implies value last holds⟩

theorem pure {ensures : α → Nat → Prop} {value : α} (inside : start ≤ buffer.length) (holds : ensures value start) :
    Bounded buffer (Pure.pure value) start ensures := .inr ⟨value, start, inside, .pure value, holds⟩

theorem stop {ensures : α → Nat → Prop} : Bounded buffer (Proc.stop () : Asn1 α) start ensures := .inl ⟨start, .stop⟩

theorem bind {first : Asn1 α} {next : α → Asn1 β} {ensures : α → Nat → Prop} {afterwards : β → Nat → Prop}
    (one : Bounded buffer first start ensures)
    (two : ∀ value middle, middle ≤ buffer.length → ensures value middle →
      Runs buffer first start (.ok value) middle → Bounded buffer (next value) middle afterwards) :
    Bounded buffer (first >>= next) start afterwards := by
  rcases one with ⟨last, failed⟩ | ⟨value, middle, bound, ran, holds⟩
  · exact .inl ⟨last, failed.bind_stop⟩
  · rcases two value middle bound holds ran with ⟨last, failed⟩ | ⟨result, last, bound, ended, holds⟩
    · exact .inl ⟨last, ran.bind failed⟩
    · exact .inr ⟨result, last, bound, ran.bind ended, holds⟩

theorem get_bind {next : Asn1Ctx → Asn1 β} {ensures : β → Nat → Prop}
    (same : ∀ used, next ⟨buffer, some start, used⟩ = next ⟨buffer, some start, []⟩)
    (rest : Bounded buffer (next ⟨buffer, some start, []⟩) start ensures) :
    Bounded buffer (Proc.get >>= next) start ensures := by
  rcases rest with ⟨last, failed⟩ | ⟨value, last, bound, ran, holds⟩
  · exact .inl ⟨last, failed.get_bind same⟩
  · exact .inr ⟨value, last, bound, ran.get_bind same, holds⟩

theorem octet : Bounded buffer asn1OctetDecode start fun ch last => buffer[start]? = some ch ∧ last = start + 1 := by
  cases read : buffer[start]? with
  | none => exact .inl ⟨start, .octet_end (List.getElem?_eq_none_iff.mp read)⟩
  | some ch =>
    obtain ⟨bound, -⟩ := List.getElem?_eq_some_iff.mp read
    exact .inr ⟨ch, start + 1, bound, .octet read, rfl, rfl⟩

theorem read {count : Nat} : Bounded buffer (asn1Read count) start fun _ _ => True := by
  by_cases long : buffer.length < start + count
  · exact .inl ⟨start, [], by simp, fun used => by simp [asn1Read, long]⟩
  · have ran : Runs buffer (asn1Read count) start (.ok ((buffer.drop start).take count)) (start + count) := by
      refine ⟨[some (start + count)], ?_, fun used => by simp [asn1Read, long, Asn1Ctx.move]⟩
      intro use member
      rw [List.mem_singleton.mp member]
      exact ⟨start + count, by omega, rfl⟩
    exact .inr ⟨_, start + count, by omega, ran, trivial⟩

end Bounded

end KsmbdTools.Spnego
