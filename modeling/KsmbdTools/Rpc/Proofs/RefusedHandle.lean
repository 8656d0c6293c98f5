import KsmbdTools.Rpc.Proofs.PipeHandles

/-! A connect or a policy opened on a pipe that has its handle already. The new record replaces the one in the
table before it is refused, and is then taken out by the key that both have. -/

namespace KsmbdTools.Rpc
open Management Proc

section Table
variable {ν : Type} {table : HashTable Handle ν} {handle : Handle}

def SameEntries (before after : HashTable Handle ν) : Prop := ∀ handle, after.lookup handle = before.lookup handle

theorem sameEntries_unless {taken : Bool} (present : handle ∈ table) :
    SameEntries table (if taken = true then table.erase handle else table) ↔ taken = false := by
  cases taken with
  | false => exact iff_of_true (fun _ => rfl) rfl
  | true =>
    refine iff_of_false (fun same => ?_) nofun
    have gone : table.lookup handle = none := (same handle).symm.trans (AList.lookup_erase handle table)
    exact AList.lookup_eq_none.mp gone present

theorem mem_unless {taken : Bool} (present : handle ∈ table) :
    handle ∈ (if taken = true then table.erase handle else table) ↔ taken = false := by
  cases taken with
  | false => exact iff_of_true present rfl
  | true => exact iff_of_false (fun member => (AList.mem_erase.mp member).1 rfl) nofun

end Table

section Refused
variable {machine : Machine} {call : Call}

theorem samrChAlloc_present (machine : Machine) (present : newHandle call.pipe.id ∈ call.store.chTable) :
    (samrChAlloc machine call).1 = .stop .noMem ∧
      (samrChAlloc machine call).2.store.chTable = if machine.mallocConnectHandle call.store call.pipe.id = true then
        call.store.chTable.erase (newHandle call.pipe.id) else call.store.chTable := by
  rw [samrChAlloc_eq, if_pos present]
  split <;> exact ⟨rfl, rfl⟩

theorem lsarpcPhAlloc_present (machine : Machine) (present : newHandle call.pipe.id ∈ call.store.phTable) :
    ∃ after, lsarpcPhAlloc machine call = (.stop .noMem, after) ∧
      after.store.phTable = if machine.mallocPolicyHandle call.store call.pipe.id = true then
        call.store.phTable.erase (newHandle call.pipe.id) else call.store.phTable := by
  rw [lsarpcPhAlloc_eq, if_pos present]
  split <;> exact ⟨_, rfl, rfl⟩

theorem samrConnect5Return_noMem (failed : (samrConnect5Return machine call).1 = .stop .noMem) :
    ∃ stream, (samrConnect5Return machine call).2.store.chTable =
      (samrChAlloc machine { call with stream }).2.store.chTable := by
  obtain ⟨stream, -, -, ran⟩ := Call.write_apply machine [.int32 (call.req.smReq machine).level,
    .int32 (call.req.smReq machine).level, .int32 (call.req.smReq machine).clientVersion, .int32 0] call
  have table : ∀ handle, Preserves (fun after : Call => after.store.chTable =
      (samrChAlloc machine { call with stream }).2.store.chTable) (Call.write machine [.bytes handle]) := fun _ =>
    .orStop fun _ same => same
  refine ⟨stream, ?_⟩
  simp only [samrConnect5Return, bind_ok (get_apply call)] at failed ⊢
  split at ran
  · rw [bind_ok ran]
    rcases taken : samrChAlloc machine { call with stream } with ⟨handle | code | _, after⟩
    · rw [bind_ok taken]
      exact taken ▸ table handle after (congrArg (·.2.store.chTable) taken).symm
    · rw [bind_stop taken]
    · rw [bind_fault taken]
  · rw [bind_stop ran] at failed
    cases failed

end Refused

/-- Where the handle of a pipe is in the table, one more is refused. It leaves the table as it was exactly if there was no
memory for a record: with one, the handle that was there is taken out. The same is true of a connect and of an opened policy
that fail for it. -/
theorem refused_handle_kept_iff (machine : Machine) (call : Call) :
    (newHandle call.pipe.id ∈ call.store.chTable →
      (samrChAlloc machine call).1 = .stop .noMem ∧
      (SameEntries call.store.chTable (samrChAlloc machine call).2.store.chTable ↔
        machine.mallocConnectHandle call.store call.pipe.id = false) ∧
      ((samrConnect5Return machine call).1 = .stop .noMem →
        (newHandle call.pipe.id ∈ (samrConnect5Return machine call).2.store.chTable ↔
          machine.mallocConnectHandle call.store call.pipe.id = false))) ∧
    (newHandle call.pipe.id ∈ call.store.phTable →
      (lsarpcPhAlloc machine call).1 = .stop .noMem ∧
      (SameEntries call.store.phTable (lsarpcPhAlloc machine call).2.store.phTable ↔
        machine.mallocPolicyHandle call.store call.pipe.id = false) ∧
      (lsarpcOpenPolicy2Return machine call).1 = .stop .noMem ∧
      (newHandle call.pipe.id ∈ (lsarpcOpenPolicy2Return machine call).2.store.phTable ↔
        machine.mallocPolicyHandle call.store call.pipe.id = false)) := by
  refine ⟨fun present => ?_, fun present => ?_⟩
  · obtain ⟨refused, table⟩ := samrChAlloc_present machine present
    refine ⟨refused, ?_, fun failed => ?_⟩
    · rw [table]
      exact sameEntries_unless present
    · obtain ⟨stream, same⟩ := samrConnect5Return_noMem failed
      have still : newHandle ({ call with stream } : Call).pipe.id ∈ ({ call with stream } : Call).store.chTable := present
      rw [same, (samrChAlloc_present machine still).2]
      exact mem_unless present
  · obtain ⟨after, refused, table⟩ := lsarpcPhAlloc_present machine present
    rw [lsarpcOpenPolicy2Return, bind_stop refused, refused]
    refine ⟨rfl, ?_, rfl, ?_⟩
    · rw [table]
      exact sameEntries_unless present
    · rw [table]
      exact mem_unless present

namespace Scenario

def connectCall : Call where
  store := connectedPipe.store
  pipe := { id := pipe }
  stream := { payload := [], payloadSz := 64, flags := { littleEndian := true } }
  req := .zero

def exhausted : Machine := { machine with mallocConnectHandle := fun _ _ => false }

end Scenario

open Scenario in
/-- One more record for a pipe that is connected, with memory for it and without. -/
theorem refused_handle_connected :
    ¬SameEntries connectCall.store.chTable (samrChAlloc machine connectCall).2.store.chTable ∧
      SameEntries connectCall.store.chTable (samrChAlloc exhausted connectCall).2.store.chTable := by
  have present : newHandle connectCall.pipe.id ∈ connectCall.store.chTable := by decide +kernel
  have granted := ((refused_handle_kept_iff machine connectCall).1 present).2.1
  have denied := ((refused_handle_kept_iff exhausted connectCall).1 present).2.1
  exact ⟨fun same => absurd (granted.mp same) (by decide), denied.mpr rfl⟩

open Scenario in
/-- The second connect on the pipe is answered with `KSMBD_RPC_ENOMEM`, and the first handle is no longer known. -/
theorem second_connect_drops_handle :
    samrConnected ∈ connectedPipe.store.chTable ∧ (samr connectedPipe samrConnect).1 = .stop .noMem ∧
      samrConnected ∉ (samr connectedPipe samrConnect).2.server.store.chTable ∧
      (samr (samr connectedPipe samrConnect).2.server samrOpenDomain).1 = .stop .badFid := by
  refine ⟨by decide +kernel, by decide +kernel, by decide +kernel, by decide +kernel⟩

end KsmbdTools.Rpc
