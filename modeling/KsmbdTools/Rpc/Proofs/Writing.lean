import KsmbdTools.Rpc.Dcerpc

/-! What a sequence of write calls comes to. How far it reaches can be told from
the sizes alone: whether it runs to its end, and where the offset is then. -/

namespace KsmbdTools.Rpc
open Bytes

/-- How far writing gets: the offset it ends at, and whether everything was written. -/
structure Reach where
  offset : Nat
  whole : Bool := true
  deriving DecidableEq

namespace Reach
variable (limit : Nat)

/-- So many bytes at the next aligned place, if they end within the limit. -/
def put (offset width size : Nat) : Reach :=
  let start := alignUp offset width
  if start + size ≤ limit then ⟨start + size, true⟩ else ⟨start, false⟩

def piece (offset : Nat) : Piece → Reach
  | .put width data => put limit offset width data.length
  | .text data behind =>
    let next := put limit offset 2 data.length
    { next with offset := alignUp next.offset behind }
  | .ref => put limit offset 4 4
  | .align width => ⟨alignUp offset width, true⟩
  | .skip count => ⟨offset + count, true⟩
  | .unconverted => ⟨offset, false⟩

def pieces (offset : Nat) : List Piece → Reach
  | [] => ⟨offset, true⟩
  | head :: rest =>
    let next := piece limit offset head
    if next.whole then pieces next.offset rest else next

def items (platform : Platform) (flags : NdrFlags) (offset : Nat) (list : List Item) : Reach :=
  pieces limit offset (list.flatMap (Item.pieces platform flags))

variable {limit}

theorem pieces_append_whole {offset : Nat} {first : List Piece} (whole : (pieces limit offset first).whole = true)
    (second : List Piece) :
    pieces limit offset (first ++ second) = pieces limit (pieces limit offset first).offset second := by
  induction first generalizing offset with
  | nil => rfl
  | cons head rest ih =>
    simp only [List.cons_append, pieces] at whole ⊢
    cases reached : (piece limit offset head).whole with
    | false => simp [reached] at whole
    | true =>
      simp only [reached, ↓reduceIte] at whole ⊢
      exact ih whole

theorem pieces_append_short {offset : Nat} {first : List Piece} (short : (pieces limit offset first).whole = false)
    (second : List Piece) : pieces limit offset (first ++ second) = pieces limit offset first := by
  induction first generalizing offset with
  | nil => cases short
  | cons head rest ih =>
    simp only [List.cons_append, pieces] at short ⊢
    cases reached : (piece limit offset head).whole with
    | false => simp only [Bool.false_eq_true, ↓reduceIte]
    | true =>
      simp only [reached, ↓reduceIte] at short ⊢
      exact ih short

variable {platform : Platform} {flags : NdrFlags} {offset : Nat} {first : List Item}

theorem items_append_whole (whole : (items limit platform flags offset first).whole = true) (second : List Item) :
    items limit platform flags offset (first ++ second) =
      items limit platform flags (items limit platform flags offset first).offset second := by
  simp only [items, List.flatMap_append]
  exact pieces_append_whole whole _

theorem items_append_short (short : (items limit platform flags offset first).whole = false) (second : List Item) :
    items limit platform flags offset (first ++ second) = items limit platform flags offset first := by
  simp only [items, List.flatMap_append]
  exact pieces_append_short short _

end Reach

structure Stream.Moved (before after : Stream) : Prop where
  payloadSz : after.payloadSz = before.payloadSz
  flags : after.flags = before.flags

namespace Stream.Moved

theorem refl (stream : Stream) : stream.Moved stream := ⟨rfl, rfl⟩

theorem trans {first second third : Stream} (earlier : first.Moved second) (later : second.Moved third) :
    first.Moved third :=
  ⟨later.payloadSz.trans earlier.payloadSz, later.flags.trans earlier.flags⟩

end Stream.Moved

/-- A program that writes ends where its reach says, and runs to its end if all of it is
written. -/
inductive Writes (program : Ndr Unit) (stream : Stream) (reach : Reach) : Prop where
  | mk {after : Stream} (ran : program stream = (if reach.whole then .ok () else .stop (), after))
      (moved : stream.Moved after) (offset : after.offset = reach.offset)

theorem ndrPut_room {width : Nat} {data : List UInt8} {stream : Stream}
    (room : alignUp stream.offset width + data.length ≤ stream.payloadSz) :
    ndrPut width data stream = (.ok (), { stream with
      payload := overlay stream.payload (alignUp stream.offset width) data
      offset := alignUp stream.offset width + data.length }) := if_pos room

theorem ndrPut_full {width : Nat} {data : List UInt8} {stream : Stream}
    (short : stream.payloadSz < alignUp stream.offset width + data.length) :
    ndrPut width data stream = (.stop (), stream.alignOffset width) := if_neg (Nat.not_le.mpr short)

private theorem ndrPut_writes (width : Nat) (data : List UInt8) (stream : Stream) :
    Writes (ndrPut width data) stream (Reach.put stream.payloadSz stream.offset width data.length) := by
  rcases Nat.lt_or_ge stream.payloadSz (alignUp stream.offset width + data.length) with short | room
  · simp only [Reach.put, if_neg (Nat.not_le.mpr short)]
    exact ⟨ndrPut_full short, ⟨rfl, rfl⟩, rfl⟩
  · simp only [Reach.put, if_pos room]
    exact ⟨ndrPut_room room, ⟨rfl, rfl⟩, rfl⟩

theorem Piece.write_writes (piece : Piece) (stream : Stream) :
    Writes piece.write stream (Reach.piece stream.payloadSz stream.offset piece) := by
  cases piece with
  | put width data => exact ndrPut_writes width data stream
  | text data behind =>
    obtain @⟨after, ran, moved, offset⟩ := ndrPut_writes 2 data stream
    have aligned : Piece.write (.text data behind) stream =
        (if (Reach.piece stream.payloadSz stream.offset (.text data behind)).whole then .ok () else .stop (),
          after.alignOffset behind) := by
      simp only [Piece.write, ran]
      rfl
    exact ⟨aligned, moved.trans ⟨rfl, rfl⟩, congrArg (alignUp · behind) offset⟩
  | ref =>
    obtain ⟨ran, moved, offset⟩ := ndrPut_writes 4 (encode stream.littleEndian 4 (stream.numPointers + 1).toNat)
      { stream with numPointers := stream.numPointers + 1 }
    rw [length_encode] at ran offset
    exact ⟨ran, ⟨moved.payloadSz, moved.flags⟩, offset⟩
  | align width => exact ⟨rfl, ⟨rfl, rfl⟩, rfl⟩
  | skip count => exact ⟨rfl, ⟨rfl, rfl⟩, rfl⟩
  | unconverted => exact ⟨rfl, .refl stream, rfl⟩

theorem pieces_writes (list : List Piece) (stream : Stream) :
    Writes (Proc.each list Piece.write) stream (Reach.pieces stream.payloadSz stream.offset list) := by
  induction list generalizing stream with
  | nil => exact ⟨rfl, .refl stream, rfl⟩
  | cons piece rest ih =>
    obtain ⟨ran, moved, offset⟩ := piece.write_writes stream
    simp only [Reach.pieces]
    cases whole : (Reach.piece stream.payloadSz stream.offset piece).whole with
    | false =>
      rw [whole] at ran
      simp only [Bool.false_eq_true, ↓reduceIte]
      exact ⟨by rw [whole]; exact Proc.bind_stop ran, moved, offset⟩
    | true =>
      rw [whole] at ran
      obtain ⟨ranRest, movedRest, offsetRest⟩ := ih _
      rw [moved.payloadSz, offset] at ranRest offsetRest
      simp only [↓reduceIte]
      exact ⟨(Proc.bind_ok ran).trans ranRest, moved.trans movedRest, offsetRest⟩

theorem ndrWrite_writes (platform : Platform) (items : List Item) (stream : Stream) :
    Writes (ndrWrite platform items) stream
      (Reach.items stream.payloadSz platform stream.flags stream.offset items) := by
  obtain ⟨ran, moved, offset⟩ := pieces_writes (items.flatMap (Item.pieces platform stream.flags)) stream
  exact ⟨ran, moved, offset⟩

namespace Call
variable {machine : Machine} {items : List Item} {call after : Call}

private theorem write_of_ok {stream : Stream} (ran : ndrWrite machine.toPlatform items call.stream = (.ok (), stream)) :
    Call.write machine items call = (.ok (), { call with stream }) := by
  simp only [Call.write, Call.ndr, Proc.orStop, Proc.zoom, ran]

private theorem write_of_stop {stream : Stream}
    (ran : ndrWrite machine.toPlatform items call.stream = (.stop (), stream)) :
    Call.write machine items call = (.stop .badData, { call with stream }) := by
  simp only [Call.write, Call.ndr, Proc.orStop, Proc.zoom, ran]

def reach (machine : Machine) (call : Call) (items : List Item) : Reach :=
  Reach.items call.stream.payloadSz machine.toPlatform call.stream.flags call.stream.offset items

theorem write_apply (machine : Machine) (items : List Item) (call : Call) :
    ∃ stream, call.stream.Moved stream ∧ stream.offset = (call.reach machine items).offset ∧
      Call.write machine items call =
        (if (call.reach machine items).whole then .ok () else .stop .badData, { call with stream }) := by
  obtain ⟨ran, moved, offset⟩ := ndrWrite_writes machine.toPlatform items call.stream
  refine ⟨_, moved, offset, ?_⟩
  rw [reach]
  revert ran
  generalize Reach.items call.stream.payloadSz machine.toPlatform call.stream.flags call.stream.offset items = reached
  rcases reached with ⟨_, _ | _⟩ <;> intro ran
  · exact write_of_stop ran
  · exact write_of_ok ran

theorem write_cases (machine : Machine) (items : List Item) (call : Call) :
    ∃ stream, call.stream.Moved stream ∧
      (Call.write machine items call = (.ok (), { call with stream }) ∨
        Call.write machine items call = (.stop .badData, { call with stream })) := by
  obtain ⟨stream, moved, _, ran⟩ := write_apply machine items call
  refine ⟨stream, moved, ?_⟩
  rw [ran]
  split
  · exact .inl rfl
  · exact .inr rfl

theorem write_ran (ran : Call.write machine items call = (.ok (), after)) :
    ∃ stream, ndrWrite machine.toPlatform items call.stream = (.ok (), stream) ∧ after = { call with stream } := by
  rcases wrote : ndrWrite machine.toPlatform items call.stream with ⟨_ | _ | _, stream⟩ <;>
    simp only [Call.write, Call.ndr, Proc.orStop, Proc.zoom, wrote] at ran <;> cases ran
  exact ⟨stream, rfl, rfl⟩

theorem write_last {item : Item} {width : Nat} {data : List UInt8}
    (last : item.pieces machine.toPlatform call.stream.flags = [.put width data])
    (ran : Call.write machine (items ++ [item]) call = (.ok (), after)) : after.stream.offset ≤ call.stream.payloadSz := by
  obtain ⟨stream, wrote, rfl⟩ := write_ran ran
  simp only [ndrWrite, List.flatMap_append, List.flatMap_cons, List.flatMap_nil, last, List.append_nil,
    Proc.each_append] at wrote
  obtain ⟨_, middle, earlier, wrote⟩ := Proc.bind_eq_ok.mp wrote
  obtain @⟨reached, ran, moved, -⟩ := pieces_writes
    (items.flatMap (Item.pieces machine.toPlatform call.stream.flags)) call.stream
  obtain rfl : reached = middle := (Prod.ext_iff.mp (ran.symm.trans earlier)).2
  obtain ⟨_, _, wrote, ended⟩ := Proc.bind_eq_ok.mp wrote
  cases ended
  rcases Nat.lt_or_ge reached.payloadSz (alignUp reached.offset width + data.length) with short | room
  · rw [show Piece.write (.put width data) reached = _ from ndrPut_full short] at wrote
    cases wrote
  · rw [show Piece.write (.put width data) reached = _ from ndrPut_room room] at wrote
    cases wrote
    exact moved.payloadSz ▸ room

theorem write_blocked {item : Item} {rest : List Item} {width : Nat} {data : List UInt8}
    (first : item.pieces machine.toPlatform call.stream.flags = [.put width data])
    (short : call.stream.payloadSz < alignUp call.stream.offset width + data.length) :
    Call.write machine (item :: rest) call = (.stop .badData, { call with stream := call.stream.alignOffset width }) := by
  apply write_of_stop
  simp only [ndrWrite, List.flatMap_cons, first, List.cons_append]
  exact Proc.bind_stop (ndrPut_full short)

end Call

end KsmbdTools.Rpc
