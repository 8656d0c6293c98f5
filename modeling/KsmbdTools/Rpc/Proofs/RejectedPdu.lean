import KsmbdTools.Rpc.Proofs.Parsing
import KsmbdTools.Rpc.Proofs.PipeRequests

/-! What a rejected PDU leaves behind. The pipe is marked as having a reply due
before the PDU is looked at, and no error takes the mark back. -/

namespace KsmbdTools.Rpc
open Management Proc

/-- `number_of_messages` in the answer to a state query. -/
def Response.messages (resp : Response) : Nat := Bytes.decodeLittle ((resp.payload.drop 8).take 4)

theorem PipeInfo.messages_bytes (info : PipeInfo) (fits : info.numberOfMessages < 256 ^ 4) :
    Response.messages ⟨info.bytes, PipeInfo.size⟩ = info.numberOfMessages := Bytes.decodeLittle_encodeLittle fits

/-- The server after reads and state queries on the pipe. -/
inductive Server.Asked (machine : Machine) (handle : UInt32) (server : Server) : Server → Prop where
  | start : Asked machine handle server server
  | read {now : Server} (req : Command) (maxRespSz : Nat) (earlier : Asked machine handle server now)
      (same : req.handle = handle) : Asked machine handle server (rpcReadRequest machine req maxRespSz ⟨now, {}⟩).2.server
  | state {now : Server} (req : Command) (maxRespSz : Nat) (earlier : Asked machine handle server now)
      (same : req.handle = handle) : Asked machine handle server (rpcStateRequest machine req maxRespSz ⟨now, {}⟩).2.server

def Accepts (machine : Machine) (server : Server) (channel : Channel) (req : Command) : Prop :=
  (invokeHandler machine ⟨server.store, channel.startWrite req, 0⟩).1 = .ok ()

instance (machine : Machine) (server : Server) (channel : Channel) (req : Command) :
    Decidable (Accepts machine server channel req) := inferInstanceAs (Decidable (_ = _))

/-- A pipe on which nothing is pending: however often it is read or asked for its
state, no reply comes and no message is reported, and the next PDU is not dropped. -/
structure LeftIdle (machine : Machine) (handle : UInt32) (server : Server) : Prop where
  read : ∀ now, server.Asked machine handle now → ∀ req maxRespSz, req.handle = handle →
    (rpcReadRequest machine req maxRespSz ⟨now, {}⟩).1 = .ok () ∧
      (rpcReadRequest machine req maxRespSz ⟨now, {}⟩).2.resp = {}
  state : ∀ now, server.Asked machine handle now → ∀ req maxRespSz, req.handle = handle →
    (rpcStateRequest machine req maxRespSz ⟨now, {}⟩).2.resp.messages = 0
  next : ∀ now, server.Asked machine handle now → ∀ req channel, req.handle = handle →
    now.pipes.lookup handle = some channel → Accepts machine now channel req →
    (rpcWriteRequest machine req ⟨now, {}⟩).2.server =
      now.finish handle (invokeHandler machine ⟨now.store, channel.startWrite req, 0⟩).2

private theorem ready_frame : Dce.Frame (·.returnReady = true) :=
  ⟨fun _ _ _ _ ready => ready, fun _ _ ready => ready, fun _ _ ready => ready⟩

theorem invokeHandler_ready (machine : Machine) :
    Preserves (Work.OnDce (·.returnReady = true)) (invokeHandler machine) := by
  have apart : Work.Apart (Work.OnDce (·.returnReady = true)) := ⟨fun _ _ _ _ _ _ ready => ready, fun _ _ _ ready => ready⟩
  exact .bind (apart.dcerpcHdrRead _) fun _ => Work.invokePdu_keeps ready_frame

section
variable {machine : Machine} {server : Server} {handle : UInt32} {channel : Channel}

theorem rpcWriteRequest_ready {req : Command} (found : server.pipes.lookup req.handle = some channel)
    (idle : channel.dce.returnReady = false) :
    ∃ after, (rpcWriteRequest machine req ⟨server, {}⟩).2.server.pipes.lookup req.handle = some after ∧
      after.dce.returnReady = true := by
  rw [rpcWriteRequest_idle found idle]
  exact ⟨_, Server.lookup_finish found _, invokeHandler_ready machine (Exchange.writing ⟨server, {}⟩ channel req) rfl⟩

/-- While a reply is due, a state query reports it, even if its length cannot be found. -/
theorem rpcStateRequest_reports {req : Command} {maxRespSz : Nat} (room : commandSize + PipeInfo.size ≤ maxRespSz)
    (found : server.pipes.lookup req.handle = some channel) (ready : channel.dce.returnReady = true) :
    (rpcStateRequest machine req maxRespSz ⟨server, {}⟩).2.resp.messages = 1 := by
  rw [rpcStateRequest_pending room found ready]
  dsimp only
  split <;> exact PipeInfo.messages_bytes _ (show 1 < 256 ^ 4 by decide)

private theorem Server.Asked.idle {now : Server} (asked : server.Asked machine handle now)
    (found : server.pipes.lookup handle = some channel) (idle : channel.dce.returnReady = false) :
    ∃ current, now.pipes.lookup handle = some current ∧ current.dce.returnReady = false := by
  induction asked with
  | start => exact ⟨channel, found, idle⟩
  | read req maxRespSz earlier same ih =>
    subst same
    obtain ⟨current, open', still⟩ := ih
    cases fresh : current.pipe.ioctlReplyConsumed with
    | true =>
      rw [rpcReadRequest_consumed open' fresh]
      exact ⟨_, Server.lookup_setChannel open' _, rfl⟩
    | false =>
      rw [rpcReadRequest_idle open' fresh still]
      exact ⟨current, open', still⟩
  | state req maxRespSz earlier same ih =>
    subst same
    obtain ⟨current, open', still⟩ := ih
    rcases Nat.lt_or_ge maxRespSz (commandSize + PipeInfo.size) with short | room
    · rw [rpcStateRequest_short short]
      exact ⟨current, open', still⟩
    · rw [rpcStateRequest_idle room open' still]
      exact ⟨current, open', still⟩

/-- A pipe without a reply due is left idle, so the property can be had. -/
theorem LeftIdle.of_idle (found : server.pipes.lookup handle = some channel) (idle : channel.dce.returnReady = false) :
    LeftIdle machine handle server := by
  constructor
  · intro now asked req maxRespSz same
    subst same
    obtain ⟨current, open', still⟩ := asked.idle found idle
    cases fresh : current.pipe.ioctlReplyConsumed with
    | true => rw [rpcReadRequest_consumed open' fresh]; exact ⟨rfl, rfl⟩
    | false => rw [rpcReadRequest_idle open' fresh still]; exact ⟨rfl, rfl⟩
  · intro now asked req maxRespSz same
    subst same
    obtain ⟨current, open', still⟩ := asked.idle found idle
    rcases Nat.lt_or_ge maxRespSz (commandSize + PipeInfo.size) with short | room
    · rw [rpcStateRequest_short short]; rfl
    · rw [rpcStateRequest_idle room open' still]
      exact PipeInfo.messages_bytes _ (by decide)
  · intro now asked req current same open' _
    subst same
    obtain ⟨still, holds, ready⟩ := asked.idle found idle
    rw [open'] at holds
    cases holds
    rw [rpcWriteRequest_idle open' ready]
    rfl

/-- No pipe is idle after a PDU that was rejected on it: a state query reports a
message, and the next PDU is acknowledged and dropped, whatever it is. -/
theorem rejected_pdu_left_pending (machine : Machine) (server : Server) (req : Command) (channel : Channel) (code : Status)
    (found : server.pipes.lookup req.handle = some channel) (idle : channel.dce.returnReady = false)
    (_rejected : (rpcWriteRequest machine req ⟨server, {}⟩).1 = .stop code) :
    let after := (rpcWriteRequest machine req ⟨server, {}⟩).2.server
    ¬ LeftIdle machine req.handle after ∧
      ∀ next : Command, next.handle = req.handle → rpcWriteRequest machine next ⟨after, {}⟩ = (.ok (), ⟨after, {}⟩) := by
  intro after
  obtain ⟨current, open', ready⟩ : ∃ current, after.pipes.lookup req.handle = some current ∧
    current.dce.returnReady = true :=
    rpcWriteRequest_ready found idle
  constructor
  · intro left
    have silent := left.state after .start req (commandSize + PipeInfo.size) rfl
    rw [rpcStateRequest_reports (Nat.le_refl _) open' ready] at silent
    exact absurd silent (by decide)
  · intro next same
    exact rpcWriteRequest_pending (same ▸ open') ready

/-- One byte written to an idle pipe, then an enumeration. -/
theorem rejected_pdu_left_pending_short :
    let after := (rpcWriteRequest Scenario.machine (Scenario.write [5]) ⟨Scenario.server, {}⟩).2.server
    ¬ LeftIdle Scenario.machine Scenario.pipe after ∧
      ∀ next : Command, next.handle = Scenario.pipe →
        rpcWriteRequest Scenario.machine next ⟨after, {}⟩ = (.ok (), ⟨after, {}⟩) := by
  have opened : (Scenario.server.pipes.lookup Scenario.pipe).isSome := by decide +kernel
  obtain ⟨channel, found⟩ := Option.isSome_iff_exists.mp opened
  have idle : ∀ channel ∈ Scenario.server.pipes.lookup Scenario.pipe, channel.dce.returnReady = false := by decide +kernel
  exact rejected_pdu_left_pending Scenario.machine Scenario.server (Scenario.write [5]) channel .badData found
    (idle channel found) (by decide +kernel)

/-- The rejected byte is reported as a message, a read runs a return handler for it and
fails, and the enumeration that follows is dropped. -/
theorem rejected_pdu_blocks_pipe :
    let wrote := rpcWriteRequest Scenario.machine (Scenario.write [5]) ⟨Scenario.server, {}⟩
    let asked := rpcStateRequest Scenario.machine Scenario.query 4080 ⟨wrote.2.server, {}⟩
    let enumerated := rpcWriteRequest Scenario.machine (Scenario.write (Scenario.shareEnum 1 4000)) ⟨wrote.2.server, {}⟩
    wrote.1 = .stop .badData ∧ asked.2.resp.messages = 1 ∧
      (rpcReadRequest Scenario.machine Scenario.read 4080 ⟨wrote.2.server, {}⟩).1 = .stop .badFunc ∧
      enumerated = (.ok (), ⟨wrote.2.server, {}⟩) := by
  intro wrote asked enumerated
  refine ⟨by decide +kernel, by decide +kernel, by decide +kernel, ?_⟩
  have opened : (wrote.2.server.pipes.lookup Scenario.pipe).isSome := by decide +kernel
  obtain ⟨channel, found⟩ := Option.isSome_iff_exists.mp opened
  have ready : ∀ channel ∈ wrote.2.server.pipes.lookup Scenario.pipe, channel.dce.returnReady = true := by decide +kernel
  exact rpcWriteRequest_pending found (ready channel found)

end
end KsmbdTools.Rpc
