import KsmbdTools.Rpc.Growable
import KsmbdTools.Rpc.Proofs.Buffer

/-! A payload grows by one step for a write of any length. So a write is inside the payload exactly if it ends within one
step of where the payload ends, or fails. -/

namespace KsmbdTools.Rpc.Growable
open Bytes
open Buffer (Program alignOffset autoAlignOffset store advance sizeT_of_lt)
variable (allocator : Allocator)

theorem tryReallocPayload_fixed (dataSz : Nat) : tryReallocPayload allocator true dataSz =
    Buffer.tryReallocPayload dataSz := by
  funext buffer
  simp only [tryReallocPayload, Buffer.tryReallocPayload, Proc.bind_apply, Proc.get_apply]
  by_cases wraps : 2 ^ 64 - 1 - buffer.offset < dataSz
  · simp only [if_pos wraps, Proc.bind_apply, Proc.stop_apply]
  · by_cases fits : sizeT (buffer.offset + dataSz) ≤ buffer.payload.length
    · simp only [if_neg wraps, if_pos fits, if_neg (Nat.not_lt.mpr fits), Proc.pure_apply]
    · simp only [if_neg wraps, if_neg fits, if_pos (Nat.lt_of_not_le fits), if_true, Proc.bind_apply, Proc.stop_apply]

def step (buffer : Buffer) : Nat := sizeT (buffer.payload.length + 4096)

def enlarged (buffer : Buffer) : List UInt8 :=
  buffer.payload.take (step buffer) ++
    (List.range' buffer.payload.length (step buffer - buffer.payload.length)).map (allocator.fresh (step buffer))

def grown (buffer : Buffer) : List UInt8 :=
  (enlarged allocator buffer).take buffer.offset ++ List.replicate (step buffer - buffer.offset) 0

@[simp] theorem length_enlarged (buffer : Buffer) : (enlarged allocator buffer).length = step buffer := by
  simp only [enlarged, List.length_append, List.length_take, List.length_map, List.length_range']
  omega

theorem length_grown {buffer : Buffer} (inside : buffer.offset ≤ step buffer) :
    (grown allocator buffer).length = step buffer := by
  simp only [grown, List.length_append, List.length_take, length_enlarged, List.length_replicate]
  omega

theorem tryReallocPayload_eq {buffer : Buffer} (word : buffer.offset < 2 ^ 64) (dataSz : Nat) :
    tryReallocPayload allocator false dataSz buffer =
      if 2 ^ 64 - 1 - buffer.offset < dataSz then (.stop (), buffer)
      else if buffer.offset + dataSz ≤ buffer.payload.length then (.ok (), buffer)
      else if allocator.grants (step buffer) = false then (.stop (), buffer)
      else if buffer.offset ≤ step buffer then (.ok (), { buffer with payload := grown allocator buffer })
      else (.fault, { buffer with payload := enlarged allocator buffer }) := by
  simp only [tryReallocPayload, Proc.bind_apply, Proc.get_apply]
  by_cases wraps : 2 ^ 64 - 1 - buffer.offset < dataSz
  · simp only [if_pos wraps, Proc.bind_apply, Proc.stop_apply]
  have sum : sizeT (buffer.offset + dataSz) = buffer.offset + dataSz := sizeT_of_lt (by omega)
  by_cases fits : buffer.offset + dataSz ≤ buffer.payload.length
  · simp only [if_neg wraps, sum, if_pos fits, Proc.pure_apply]
  cases granted : allocator.grants (step buffer) with
  | false =>
    have refused : allocator.gTryRealloc buffer.payload (sizeT (buffer.payload.length + 4096)) = none := by
      rw [Allocator.gTryRealloc, ← step, granted, if_neg Bool.false_ne_true]
    simp only [if_neg wraps, sum, if_neg fits, refused, if_true, if_false, Bool.false_eq_true, Proc.stop_apply]
  | true =>
    have given : allocator.gTryRealloc buffer.payload (sizeT (buffer.payload.length + 4096)) =
        some (enlarged allocator buffer) := by
      rw [Allocator.gTryRealloc, ← step, granted, if_pos rfl]
      rfl
    simp only [if_neg wraps, sum, if_neg fits, given, if_false, Bool.false_eq_true, Bool.true_eq_false, Proc.bind_apply,
      Proc.modify_apply, clearTail, length_enlarged]
    split <;> rfl

/-- A memory that has the bytes of another in front of `low`. -/
def Agrees (low : Nat) (origin memory : List UInt8) : Prop :=
  ∀ index < low, index < origin.length → memory[index]? = origin[index]?

/-- A run that ended inside the payload and kept the bytes of `origin`. -/
def Within (low : Nat) (origin : List UInt8) (result : Outcome Unit Unit × Buffer) : Prop :=
  result.1 ≠ .fault ∧ Agrees low origin result.2.payload

theorem staysInside_iff {low : Nat} {buffer : Buffer} {program : Program Unit} :
    StaysInside low buffer program ↔ Within low buffer.payload (program buffer) :=
  ⟨fun stays => ⟨stays.inside, stays.kept⟩, fun within => ⟨within.1, within.2⟩⟩

theorem Agrees.overlay {low start : Nat} {origin memory : List UInt8} (agrees : Agrees low origin memory)
    (before : low ≤ start) (data : List UInt8) : Agrees low origin (overlay memory start data) := by
  intro index below inside
  have same := agrees index below inside
  have held : index < memory.length := by
    rw [List.getElem?_eq_getElem inside] at same
    exact (List.getElem?_eq_some_iff.mp same).choose
  have front : index < ((memory ++ List.replicate (start - memory.length) 0).take start).length := by
    rw [List.length_take, List.length_append]
    omega
  rw [Bytes.overlay, List.append_assoc, List.getElem?_append_left front, List.getElem?_take_of_lt (by omega),
    List.getElem?_append_left held, same]

theorem Agrees.grown {low : Nat} {origin : List UInt8} {buffer : Buffer} (agrees : Agrees low origin buffer.payload)
    (before : low ≤ buffer.offset) (longer : buffer.payload.length ≤ step buffer) :
    Agrees low origin (grown allocator buffer) := by
  intro index below inside
  have same := agrees index below inside
  have held : index < buffer.payload.length := by
    rw [List.getElem?_eq_getElem inside] at same
    exact (List.getElem?_eq_some_iff.mp same).choose
  have front : index < ((enlarged allocator buffer).take buffer.offset).length := by
    rw [List.length_take, length_enlarged]
    omega
  rw [Growable.grown, List.getElem?_append_left front, List.getElem?_take_of_lt (by omega), enlarged,
    List.take_of_length_le longer, List.getElem?_append_left held, same]

theorem store_advance {buffer : Buffer} {data : List UInt8} (inside : buffer.offset + data.length ≤ buffer.payload.length)
    (small : buffer.offset + data.length < 2 ^ 64) :
    (do store data; advance data.length : Program Unit) buffer =
      (.ok (), { buffer with
        payload := overlay buffer.payload buffer.offset data, offset := buffer.offset + data.length }) := by
  rw [Proc.bind_apply, Buffer.store_inside inside]
  simp only [advance, Proc.modify_apply, sizeT_of_lt small]

theorem store_outside {buffer : Buffer} {data : List UInt8} (inside : buffer.offset ≤ buffer.payload.length)
    (outside : buffer.payload.length < buffer.offset + data.length) : store data buffer = (.fault, buffer) := by
  have some : ¬ data.isEmpty := by
    intro none
    rw [List.isEmpty_iff.mp none, List.length_nil] at outside
    omega
  rw [store, if_neg some, if_neg (Nat.not_le.mpr outside)]

def stored (buffer : Buffer) (payload data : List UInt8) : Buffer :=
  { buffer with payload := overlay payload buffer.offset data, offset := buffer.offset + data.length }

theorem length_stored {buffer : Buffer} {payload data : List UInt8} (inside : buffer.offset + data.length ≤ payload.length) :
    (stored buffer payload data).payload.length = payload.length := by
  rw [stored, length_overlay, Nat.max_eq_left inside]

theorem write_eq {buffer : Buffer} (word : buffer.offset < 2 ^ 64) (data : List UInt8) :
    (do tryReallocPayload allocator false data.length; store data; advance data.length : Program Unit) buffer =
      if 2 ^ 64 - 1 - buffer.offset < data.length then (.stop (), buffer)
      else if buffer.offset + data.length ≤ buffer.payload.length then (.ok (), stored buffer buffer.payload data)
      else if allocator.grants (step buffer) = false then (.stop (), buffer)
      else if buffer.offset + data.length ≤ step buffer then (.ok (), stored buffer (grown allocator buffer) data)
      else (.fault, { buffer with
        payload := if buffer.offset ≤ step buffer then grown allocator buffer else enlarged allocator buffer }) := by
  rw [Proc.bind_apply, tryReallocPayload_eq allocator word]
  by_cases wraps : 2 ^ 64 - 1 - buffer.offset < data.length
  · simp only [if_pos wraps]
  have small : buffer.offset + data.length < 2 ^ 64 := by omega
  by_cases fits : buffer.offset + data.length ≤ buffer.payload.length
  · simp only [if_neg wraps, if_pos fits]
    exact store_advance fits small
  by_cases refused : allocator.grants (step buffer) = false
  · simp only [if_neg wraps, if_neg fits, if_pos refused]
  by_cases inside : buffer.offset ≤ step buffer
  · have length := length_grown allocator inside
    by_cases room : buffer.offset + data.length ≤ step buffer
    · simp only [if_neg wraps, if_neg fits, if_neg refused, if_pos inside, if_pos room]
      refine store_advance ?_ small
      exact room.trans_eq length.symm
    · have left : store data { buffer with payload := grown allocator buffer } =
          (.fault, { buffer with payload := grown allocator buffer }) := by
        apply store_outside
        · exact inside.trans_eq length.symm
        · exact length.trans_lt (Nat.lt_of_not_le room)
      simp only [if_neg wraps, if_neg fits, if_neg refused, if_pos inside, if_neg room, Proc.bind_apply, left]
  · have room : ¬ buffer.offset + data.length ≤ step buffer := by omega
    simp only [if_neg wraps, if_neg fits, if_neg refused, if_neg inside, if_neg room]

theorem within_write {low start width : Nat} {origin data : List UInt8} {lengths : List Nat} {buffer : Buffer}
    {next : Program Unit} (aligned : sizeT (alignUp buffer.offset width) = start) (before : low ≤ start)
    (agrees : Agrees low origin buffer.payload)
    (rest : ∀ after : Buffer, after.flags = buffer.flags → after.offset = start + data.length →
      start + data.length < 2 ^ 64 → Agrees low origin after.payload →
      (Within low origin (next after) ↔ Room allocator after.payload.length (start + data.length) lengths)) :
    Within low origin ((do writeAligned allocator width data; next) buffer) ↔
      Room allocator buffer.payload.length start (data.length :: lengths) := by
  subst start
  let moved : Buffer := { buffer with offset := sizeT (alignUp buffer.offset width) }
  replace agrees : Agrees low origin moved.payload := agrees
  have word : moved.offset < 2 ^ 64 := Nat.mod_lt _ (by decide)
  have written : writeAligned allocator width data buffer =
      (do tryReallocPayload allocator false data.length; store data; advance data.length : Program Unit) moved := rfl
  rw [Proc.bind_apply, written, write_eq allocator word, Room]
  by_cases wraps : 2 ^ 64 - 1 - moved.offset < data.length
  · rw [if_pos wraps]
    exact ⟨fun _ => .inl wraps, fun _ => ⟨nofun, agrees⟩⟩
  rw [if_neg wraps, or_iff_right wraps]
  have small : moved.offset + data.length < 2 ^ 64 := by omega
  by_cases fits : moved.offset + data.length ≤ moved.payload.length
  · rw [if_pos fits, if_pos fits]
    have follows := rest (stored moved moved.payload data) rfl rfl small (agrees.overlay before data)
    rwa [length_stored fits] at follows
  rw [if_neg fits, if_neg fits]
  by_cases refused : allocator.grants (step moved) = false
  · rw [if_pos refused]
    exact ⟨fun _ => .inl refused, fun _ => ⟨nofun, agrees⟩⟩
  rw [if_neg refused]
  refine Iff.trans ?_ (or_iff_right refused).symm
  by_cases room : moved.offset + data.length ≤ step moved
  · have length := length_grown allocator (show moved.offset ≤ step moved by omega)
    have follows := rest (stored moved (grown allocator moved) data) rfl rfl small
      ((agrees.grown allocator before (by omega)).overlay before data)
    rw [length_stored (room.trans_eq length.symm), length] at follows
    rw [if_pos room]
    exact follows.trans (and_iff_right room).symm
  · rw [if_neg room]
    exact ⟨fun within => absurd rfl within.1, fun held => absurd held.1 room⟩

theorem within_last {low start width : Nat} {origin data : List UInt8} {buffer : Buffer} {next : Program Unit}
    (aligned : sizeT (alignUp buffer.offset width) = start) (before : low ≤ start)
    (agrees : Agrees low origin buffer.payload)
    (idle : ∀ after, (next after).1 ≠ .fault ∧ (next after).2.payload = after.payload) :
    Within low origin ((do writeAligned allocator width data; next) buffer) ↔
      Room allocator buffer.payload.length start [data.length] := by
  apply within_write allocator aligned before agrees
  intro after _ _ _ kept
  refine iff_of_true ⟨(idle after).1, ?_⟩ trivial
  rw [(idle after).2]
  exact kept

theorem ndrWriteBytes_iff (buffer : Buffer) (value : List UInt8) :
    StaysInside (sizeT (alignUp buffer.offset 2)) buffer (ndrWriteBytes allocator value) ↔
      Room allocator buffer.payload.length (sizeT (alignUp buffer.offset 2)) [value.length] := by
  have written : ndrWriteBytes allocator value = (do writeAligned allocator 2 value; pure ()) := bind_pure_unit.symm
  rw [staysInside_iff, written]
  apply within_last allocator rfl le_rfl (fun _ _ _ => rfl)
  intro after
  exact ⟨nofun, rfl⟩

/-- The next word of a row of words lies at `start`. -/
structure Placed (low : Nat) (origin : List UInt8) (start : Nat) (buffer : Buffer) : Prop where
  aligned : sizeT (alignUp buffer.offset 4) = start
  whole : 4 ∣ start
  before : low ≤ start
  agrees : Agrees low origin buffer.payload

theorem Placed.first (buffer : Buffer) :
    Placed (sizeT (alignUp buffer.offset 4)) buffer.payload (sizeT (alignUp buffer.offset 4)) buffer where
  aligned := rfl
  whole := (Nat.dvd_mod_iff (by decide)).mpr (dvd_alignUp (by decide) buffer.offset)
  before := le_rfl
  agrees _ _ _ := rfl

theorem Placed.word {low start : Nat} {origin : List UInt8} {lengths : List Nat} {buffer : Buffer} {next : Program Unit}
    (placed : Placed low origin start buffer) (value : Nat)
    (rest : ∀ after : Buffer, Placed low origin (start + 4) after → after.offset = start + 4 → start + 4 < 2 ^ 64 →
      (Within low origin (next after) ↔ Room allocator after.payload.length (start + 4) lengths)) :
    Within low origin ((do ndrWriteInt32 allocator value; next) buffer) ↔
      Room allocator buffer.payload.length start (4 :: lengths) := by
  have written : (do ndrWriteInt32 allocator value; next : Program Unit) buffer =
      (do writeAligned allocator 4 (encode buffer.flags.littleEndian 4 value); next : Program Unit) buffer := rfl
  have word := @within_write allocator low start 4 origin (encode buffer.flags.littleEndian 4 value) lengths buffer next
    placed.aligned placed.before placed.agrees
  rw [length_encode] at word
  rw [written]
  apply word
  intro after _ place small kept
  have whole : 4 ∣ start + 4 := Nat.dvd_add_self_right.mpr placed.whole
  refine rest after ⟨?_, whole, placed.before.trans (Nat.le_add_right start 4), kept⟩ place small
  rw [place, alignUp_of_dvd whole, sizeT_of_lt small]

/-- The first word of a string is aligned, and the other two and the text follow it without a gap. -/
theorem ndrWriteVstring_iff (platform : Platform) (buffer : Buffer) (value : Option CStr) :
    StaysInside (sizeT (alignUp buffer.offset 4)) buffer (ndrWriteVstring allocator platform value) ↔
      ∀ out, platform.gconvert buffer.flags.charset .utf8 (value.getD [] ++ [0]) = some out →
        Room allocator buffer.payload.length (sizeT (alignUp buffer.offset 4)) [4, 4, 4, out.length] := by
  rw [staysInside_iff]
  simp only [ndrWriteVstring, Proc.bind_apply, Proc.get_apply]
  cases platform.gconvert buffer.flags.charset .utf8 (value.getD [] ++ [0]) with
  | none => exact iff_of_true ⟨nofun, fun _ _ _ => rfl⟩ nofun
  | some out =>
    simp only [Option.some.injEq, forall_eq']
    apply (Placed.first buffer).word allocator
    intro second placed _ _
    apply placed.word allocator
    intro third placed _ _
    apply placed.word allocator
    intro last placed place small
    apply within_last allocator _ placed.before placed.agrees
    · intro after
      exact ⟨nofun, rfl⟩
    · have even : 2 ∣ last.offset := by
        rw [place]
        exact (show 2 ∣ 4 by decide).trans placed.whole
      rw [alignUp_of_dvd even, place, sizeT_of_lt small]

theorem makesRoom_iff {buffer : Buffer} (word : buffer.offset < 2 ^ 64) (dataSz : Nat) :
    MakesRoom allocator dataSz buffer ↔ Room allocator buffer.payload.length buffer.offset [dataSz] := by
  have stays : MakesRoom allocator dataSz buffer ↔
      Within buffer.offset buffer.payload (tryReallocPayload allocator false dataSz buffer) ∧
        ((tryReallocPayload allocator false dataSz buffer).1 = .ok () →
          buffer.offset + dataSz ≤ (tryReallocPayload allocator false dataSz buffer).2.payload.length) :=
    ⟨fun made => ⟨staysInside_iff.mp made.toStaysInside, made.room⟩, fun held => ⟨staysInside_iff.mpr held.1, held.2⟩⟩
  rw [stays, tryReallocPayload_eq allocator word, Room, Room, Room]
  by_cases wraps : 2 ^ 64 - 1 - buffer.offset < dataSz
  · rw [if_pos wraps]
    exact iff_of_true ⟨⟨nofun, fun _ _ _ => rfl⟩, nofun⟩ (.inl wraps)
  rw [if_neg wraps, or_iff_right wraps]
  by_cases fits : buffer.offset + dataSz ≤ buffer.payload.length
  · rw [if_pos fits, if_pos fits]
    exact iff_of_true ⟨⟨nofun, fun _ _ _ => rfl⟩, fun _ => fits⟩ trivial
  rw [if_neg fits, if_neg fits, and_true, ← step]
  by_cases refused : allocator.grants (step buffer) = false
  · rw [if_pos refused]
    exact iff_of_true ⟨⟨nofun, fun _ _ _ => rfl⟩, nofun⟩ (.inl refused)
  rw [if_neg refused, or_iff_right refused]
  by_cases inside : buffer.offset ≤ step buffer
  · rw [if_pos inside, length_grown allocator inside]
    refine ⟨fun held => held.2 rfl, fun room => ⟨⟨nofun, ?_⟩, fun _ => room⟩⟩
    exact Agrees.grown allocator (fun _ _ _ => rfl) le_rfl (by omega)
  · rw [if_neg inside]
    exact iff_of_false (fun held => held.1.1 rfl) (by omega)

/-- Which data a payload has room for, and which strings and blocks of bytes are written inside it. -/
theorem growable_makes_room_iff (platform : Platform) {buffer : Buffer} (word : buffer.offset < 2 ^ 64) (dataSz : Nat)
    (bytes : List UInt8) (text : Option CStr) :
    (MakesRoom allocator dataSz buffer ↔ Room allocator buffer.payload.length buffer.offset [dataSz]) ∧
    (StaysInside (sizeT (alignUp buffer.offset 2)) buffer (ndrWriteBytes allocator bytes) ↔
      Room allocator buffer.payload.length (sizeT (alignUp buffer.offset 2)) [bytes.length]) ∧
    (StaysInside (sizeT (alignUp buffer.offset 4)) buffer (ndrWriteVstring allocator platform text) ↔
      ∀ out, platform.gconvert buffer.flags.charset .utf8 (text.getD [] ++ [0]) = some out →
        Room allocator buffer.payload.length (sizeT (alignUp buffer.offset 4)) [4, 4, 4, out.length]) :=
  ⟨makesRoom_iff allocator word dataSz, ndrWriteBytes_iff allocator buffer bytes,
    ndrWriteVstring_iff allocator platform buffer text⟩

namespace Scenario

/-- Memory is given for every size below half of the address space, with some old content. -/
def memory : Allocator where
  grants size := decide (size < 2 ^ 63)
  fresh _ _ := 165

def full : Buffer := { payload := [17, 17, 17, 17], offset := 4, flags := { littleEndian := true } }

end Scenario

/-- A second word is one step away, and there is room for it. -/
theorem growable_makes_room_second :
    MakesRoom Scenario.memory 4 Scenario.full ∧
      StaysInside 4 Scenario.full (ndrWriteBytes Scenario.memory [34, 34, 34, 34]) := by
  obtain ⟨made, bytes, -⟩ := growable_makes_room_iff Scenario.memory Management.Scenario.plainPlatform
    (show Scenario.full.offset < 2 ^ 64 by decide) 4 [34, 34, 34, 34] none
  exact ⟨made.mpr (.inr (.inr ⟨by decide, trivial⟩)), bytes.mpr (.inr (.inr ⟨by decide, trivial⟩))⟩

/-- Zero is returned for 5000 bytes, with a payload of 4100 bytes that they are then copied into. -/
theorem growable_short :
    (tryReallocPayload Scenario.memory false 5000 Scenario.full).1 = .ok () ∧
      (tryReallocPayload Scenario.memory false 5000 Scenario.full).2.payload.length = 4100 ∧
      (ndrWriteBytes Scenario.memory (List.replicate 5000 34) Scenario.full).1 = .fault := by
  decide +kernel

end KsmbdTools.Rpc.Growable
