import KsmbdTools.Rpc.Proofs.ReplyHeaders
import KsmbdTools.Rpc.Proofs.RejectedPdu

/-! Replies and the requests they answer, over runs of calls on one pipe. A log
is kept beside the run, with the latest event first. -/

namespace KsmbdTools.Rpc
open Management Proc

inductive PipeCall where
  | write (req : Command)
  | read (req : Command) (maxRespSz : Nat)
  | ioctl (req : Command) (maxRespSz : Nat)
  | state (req : Command) (maxRespSz : Nat)
  deriving DecidableEq

namespace PipeCall

def req : PipeCall → Command
  | .write req | .read req _ | .ioctl req _ | .state req _ => req

def serve (machine : Machine) : PipeCall → Proc Exchange Status Unit
  | .write req => rpcWriteRequest machine req
  | .read req maxRespSz => rpcReadRequest machine req maxRespSz
  | .ioctl req maxRespSz => rpcIoctlRequest machine req maxRespSz
  | .state req maxRespSz => do
    let _ ← rpcStateRequest machine req maxRespSz

theorem serve_state (machine : Machine) (req : Command) (maxRespSz : Nat) (exchange : Exchange) :
    (serve machine (.state req maxRespSz) exchange).2 = (rpcStateRequest machine req maxRespSz exchange).2 := by
  simp only [serve, bind_apply]
  rcases rpcStateRequest machine req maxRespSz exchange with ⟨_ | _ | _, after⟩ <;> rfl

end PipeCall

inductive Event where
  /-- A PDU with this call id got through the parser, from a write or from an IOCTL. -/
  | parsed (byWrite : Bool) (callId : UInt32)
  | readReply (callId : UInt32)
  /-- The call id of the IOCTL's own PDU, and that of the reply. -/
  | ioctlReply (own callId : UInt32)
  deriving DecidableEq

def Server.parses (machine : Machine) (server : Server) (req : Command) : Bool :=
  match server.pipes.lookup req.handle with
  | none => false
  | some channel =>
    !channel.dce.returnReady && (invokeHandler machine ⟨server.store, channel.startWrite req, 0⟩).1 == .ok ()

/-- The call id of the reply PDU, if the call returned one with `KSMBD_RPC_OK`. -/
def replyCallId? (ended : Outcome Status Unit × Exchange) : Option UInt32 :=
  if ended.1 = .ok () ∧ ended.2.resp.payload ≠ [] then some (pduCallId ended.2.resp.payload) else none

def PipeCall.events (machine : Machine) (server : Server) (call : PipeCall) : List Event :=
  match call with
  | .write req => if server.parses machine req then [.parsed true (pduCallId req.payload)] else []
  | .read _ _ => (replyCallId? (call.serve machine ⟨server, {}⟩)).toList.map .readReply
  | .ioctl req _ =>
    (replyCallId? (call.serve machine ⟨server, {}⟩)).toList.map (.ioctlReply (pduCallId req.payload)) ++
      if headerSize ≤ req.payload.length ∧ server.parses machine req then [.parsed false (pduCallId req.payload)] else []
  | .state _ _ => []

/-- The runs of calls on the pipe that meet the condition. A call that faults has no
successor. -/
inductive Logged (machine : Machine) (handle : UInt32) (condition : Server → PipeCall → Prop) (server : Server) :
    Server → List Event → Prop where
  | start : Logged machine handle condition server server []
  | step {now : Server} {log : List Event} (call : PipeCall) (earlier : Logged machine handle condition server now log)
      (same : call.req.handle = handle) (meets : condition now call)
      (returned : (call.serve machine ⟨now, {}⟩).1 ≠ .fault) :
      Logged machine handle condition server (call.serve machine ⟨now, {}⟩).2.server (call.events machine now ++ log)

def lastWritten : List Event → Option UInt32
  | [] => none
  | .parsed true callId :: _ => some callId
  | _ :: earlier => lastWritten earlier

def Unanswered : List Event → Prop
  | .parsed _ _ :: _ => True
  | _ => False

/-- Every reply is the only one to the PDU parsed last. An IOCTL gets the reply to its
own PDU, a read that to the PDU last written. -/
def Matched : List Event → Prop
  | [] => True
  | .parsed _ _ :: earlier => Matched earlier
  | .readReply callId :: earlier => lastWritten earlier = some callId ∧ Unanswered earlier ∧ Matched earlier
  | .ioctlReply own callId :: earlier => callId = own ∧ Unanswered earlier ∧ Matched earlier

/-- An IOCTL that is long enough finds no reply pending, and no PDU that reaches the parser is rejected. -/
def MatchesWhen (machine : Machine) (server : Server) : PipeCall → Prop
  | .write req => ∀ channel, server.pipes.lookup req.handle = some channel → channel.dce.returnReady = false →
      Accepts machine server channel req
  | .ioctl req _ => ∀ channel, server.pipes.lookup req.handle = some channel → headerSize ≤ req.payload.length →
      channel.dce.returnReady = false ∧ Accepts machine server channel req
  | _ => True

section
variable {machine : Machine} {server : Server} {channel : Channel} {req : Command} {maxRespSz : Nat} {log : List Event}

/-- While a reply is due, the log ends with the written PDU it is due to. -/
def Due (channel : Channel) (log : List Event) : Prop :=
  channel.dce.returnReady = true → ∃ callId earlier, log = .parsed true callId :: earlier ∧ channel.dce.Holds callId

/-- What is kept along the runs that meet the condition. -/
structure Tracks (handle : UInt32) (server : Server) (log : List Event) : Prop where
  matched : Matched log
  due : ∃ channel, server.pipes.lookup handle = some channel ∧ Due channel log

private theorem parses_pending (found : server.pipes.lookup req.handle = some channel)
    (ready : channel.dce.returnReady = true) : server.parses machine req = false := by
  simp [Server.parses, found, ready]

private theorem parses_idle (found : server.pipes.lookup req.handle = some channel)
    (idle : channel.dce.returnReady = false) (accepted : Accepts machine server channel req) :
    server.parses machine req = true := by
  simp only [Server.parses, found, idle, Bool.not_false, Bool.true_and, beq_iff_eq]
  exact accepted

private theorem accepted_holds (accepted : Accepts machine server channel req) :
    (invokeHandler machine (Exchange.writing ⟨server, {}⟩ channel req)).2.channel.dce.Holds (pduCallId req.payload) := by
  have ran : invokeHandler machine (Exchange.writing ⟨server, {}⟩ channel req) =
      (.ok (), (invokeHandler machine (Exchange.writing ⟨server, {}⟩ channel req)).2) := Prod.ext accepted rfl
  obtain ⟨header, ordered⟩ := invokeHandler_ok ⟨rfl, rfl, rfl⟩ ran
  exact ⟨congrArg Header.callId header, ordered⟩

theorem Tracks.write {server : Server} {log : List Event} (tracks : Tracks req.handle server log)
    (meets : MatchesWhen machine server (.write req)) :
    Tracks req.handle (rpcWriteRequest machine req ⟨server, {}⟩).2.server
      (PipeCall.events machine server (.write req) ++ log) := by
  obtain ⟨channel, found, due⟩ := tracks.due
  cases ready : channel.dce.returnReady with
  | true =>
    rw [rpcWriteRequest_pending found ready, PipeCall.events, parses_pending found ready]
    exact ⟨tracks.matched, channel, found, due⟩
  | false =>
    have accepted := meets channel found ready
    rw [rpcWriteRequest_idle found ready, PipeCall.events, parses_idle found ready accepted]
    exact ⟨tracks.matched, _, Server.lookup_finish found _, fun _ => ⟨_, log, rfl, accepted_holds accepted⟩⟩

private theorem rpcReadRequest_reply (found : server.pipes.lookup req.handle = some channel)
    (ordered : channel.dce.returnReady = true → channel.dce.Ordered)
    {ended : Outcome Status Unit × Exchange} (ran : rpcReadRequest machine req maxRespSz ⟨server, {}⟩ = ended) :
    (∃ after, ended.2.server.pipes.lookup req.handle = some after ∧ after.dce.returnReady = false) ∧
      ∀ callId, replyCallId? ended = some callId → channel.dce.returnReady = true ∧ callId = channel.dce.hdr.callId := by
  subst ran
  cases fresh : channel.pipe.ioctlReplyConsumed with
  | true =>
    rw [rpcReadRequest_consumed found fresh]
    exact ⟨⟨_, Server.lookup_setChannel found _, rfl⟩, by simp [replyCallId?]⟩
  | false =>
    cases ready : channel.dce.returnReady with
    | false =>
      rw [rpcReadRequest_idle found fresh ready]
      exact ⟨⟨channel, found, ready⟩, by simp [replyCallId?]⟩
    | true =>
      rw [rpcReadRequest_pending found fresh ready]
      refine ⟨⟨_, Server.lookup_finish found _, ?_⟩, ?_⟩
      · exact congrArg (·.2.1) (returnHandler_marks maxRespSz (Exchange.reading ⟨server, {}⟩ channel req maxRespSz) rfl)
      intro callId replied
      rcases ran : returnHandler machine maxRespSz (Exchange.reading ⟨server, {}⟩ channel req maxRespSz)
        with ⟨_ | code | _, work⟩ <;> rw [ran] at replied
      · have carries : work.Carries channel.dce.hdr.callId := returnHandler_carries ⟨rfl, ordered ready⟩ ran
        simp only [replyCallId?, ne_eq, carries.payload_ne_nil, not_false_eq_true, and_self, ↓reduceIte,
          carries.pduCallId_eq, Option.some.injEq] at replied
        exact ⟨rfl, replied.symm⟩
      · simp [replyCallId?] at replied
      · simp [replyCallId?] at replied

private theorem Due.of_idle (idle : channel.dce.returnReady = false) (log : List Event) : Due channel log := by
  intro ready
  rw [idle] at ready
  cases ready

private theorem Due.ordered (due : Due channel log) : channel.dce.returnReady = true → channel.dce.Ordered := by
  intro ready
  obtain ⟨_, _, _, holds⟩ := due ready
  exact holds.2

theorem Tracks.read (tracks : Tracks req.handle server log) :
    Tracks req.handle (rpcReadRequest machine req maxRespSz ⟨server, {}⟩).2.server
      (PipeCall.events machine server (.read req maxRespSz) ++ log) := by
  obtain ⟨channel, found, due⟩ := tracks.due
  rcases ran : rpcReadRequest machine req maxRespSz ⟨server, {}⟩ with ended
  obtain ⟨⟨after, lookup, idle⟩, answers⟩ := rpcReadRequest_reply found due.ordered ran
  refine ⟨?_, after, lookup, .of_idle idle _⟩
  simp only [PipeCall.events, PipeCall.serve, ran]
  cases replied : replyCallId? ended with
  | none => exact tracks.matched
  | some callId =>
    obtain ⟨ready, rfl⟩ := answers callId replied
    obtain ⟨_, earlier, rfl, holds⟩ := due ready
    exact ⟨congrArg some holds.1.symm, trivial, tracks.matched⟩

theorem Tracks.state (tracks : Tracks req.handle server log) :
    Tracks req.handle (rpcStateRequest machine req maxRespSz ⟨server, {}⟩).2.server log := by
  obtain ⟨channel, found, due⟩ := tracks.due
  refine ⟨tracks.matched, ?_⟩
  rcases Nat.lt_or_ge maxRespSz (commandSize + PipeInfo.size) with short | room
  · rw [rpcStateRequest_short short]
    exact ⟨channel, found, due⟩
  cases ready : channel.dce.returnReady with
  | false =>
    rw [rpcStateRequest_idle room found ready]
    exact ⟨channel, found, due⟩
  | true =>
    rw [rpcStateRequest_pending room found ready]
    refine ⟨channel.restore (returnHandler machine pipePeekScratchSz (Exchange.peeking ⟨server, {}⟩ channel)).2.channel,
      ?_, due⟩
    dsimp only
    split <;> exact Server.lookup_peeked found _

theorem rpcIoctlRequest_short (short : req.payload.length < headerSize) :
    rpcIoctlRequest machine req maxRespSz ⟨server, {}⟩ = (.stop .badData, ⟨server, {}⟩) := by
  simp only [rpcIoctlRequest, if_pos short, bind_apply, stop_apply]

private theorem rpcIoctlRequest_accepted (long : headerSize ≤ req.payload.length)
    (found : server.pipes.lookup req.handle = some channel) (idle : channel.dce.returnReady = false)
    (accepted : Accepts machine server channel req) :
    rpcIoctlRequest machine req maxRespSz ⟨server, {}⟩ =
      (rpcReadRequest machine req maxRespSz >>= fun _ => consumeReply req.handle)
        ⟨server.finish req.handle (invokeHandler machine (Exchange.writing ⟨server, {}⟩ channel req)).2, {}⟩ := by
  have member : req.handle ∈ server.pipes := AList.lookup_isSome.mp (by rw [found]; rfl)
  have wrote : rpcWriteRequest machine req ⟨server, {}⟩ = (.ok (), _) :=
    (rpcWriteRequest_idle found idle).trans (Prod.ext accepted rfl)
  simp only [rpcIoctlRequest, if_neg (Nat.not_lt.mpr long), not_true_eq_false, member, ↓reduceIte, bind_apply,
    get_apply, wrote]

private theorem consumeReply_takes {exchange : Exchange} {handle : UInt32}
    (found : exchange.server.pipes.lookup handle = some channel) :
    ∃ after, consumeReply handle exchange = (.ok (), ⟨exchange.server.setChannel handle after, exchange.resp⟩) ∧
      after.dce.returnReady = false := by
  simp only [consumeReply, found]
  exact ⟨_, rfl, rfl⟩

theorem Tracks.ioctl (tracks : Tracks req.handle server log) (meets : MatchesWhen machine server (.ioctl req maxRespSz))
    (returned : (rpcIoctlRequest machine req maxRespSz ⟨server, {}⟩).1 ≠ .fault) :
    Tracks req.handle (rpcIoctlRequest machine req maxRespSz ⟨server, {}⟩).2.server
      (PipeCall.events machine server (.ioctl req maxRespSz) ++ log) := by
  obtain ⟨channel, found, due⟩ := tracks.due
  rcases Nat.lt_or_ge req.payload.length headerSize with short | long
  · have none : ¬ headerSize ≤ req.payload.length := Nat.not_le.mpr short
    simp only [PipeCall.events, PipeCall.serve, rpcIoctlRequest_short short, replyCallId?, none, false_and, reduceCtorEq,
      ↓reduceIte, Option.toList_none, List.map_nil, List.append_nil, List.nil_append]
    exact tracks
  obtain ⟨idle, accepted⟩ := meets channel found long
  have holds := accepted_holds accepted
  have lookup := Server.lookup_finish found (invokeHandler machine (Exchange.writing ⟨server, {}⟩ channel req)).2
  have parsed := parses_idle found idle accepted
  simp only [PipeCall.events, PipeCall.serve, parsed, long, and_self, ↓reduceIte]
  rw [rpcIoctlRequest_accepted long found idle accepted] at returned ⊢
  generalize server.finish req.handle (invokeHandler machine (Exchange.writing ⟨server, {}⟩ channel req)).2 = written at *
  generalize (invokeHandler machine (Exchange.writing ⟨server, {}⟩ channel req)).2.channel = pending at *
  rcases ran : rpcReadRequest machine req maxRespSz ⟨written, {}⟩ with ⟨outcome, exchange⟩
  obtain ⟨⟨after, there, marked⟩, answers⟩ := rpcReadRequest_reply lookup (fun _ => holds.2) ran
  cases outcome with
  | fault =>
    rw [bind_fault ran] at returned
    exact absurd rfl returned
  | stop code =>
    rw [bind_stop ran]
    exact ⟨by simpa [replyCallId?, Matched] using tracks.matched, after, there, .of_idle marked _⟩
  | ok _ =>
    obtain ⟨taken, consumed, unmarked⟩ := consumeReply_takes there
    rw [bind_ok ran, consumed]
    refine ⟨?_, taken, Server.lookup_setChannel there _, .of_idle unmarked _⟩
    have same : replyCallId? (.ok (), ⟨exchange.server.setChannel req.handle taken, exchange.resp⟩) =
        replyCallId? (.ok (), exchange) := rfl
    rw [same]
    cases replied : replyCallId? (.ok (), exchange) with
    | none => exact tracks.matched
    | some callId =>
      obtain ⟨_, rfl⟩ := answers callId replied
      exact ⟨holds.1, trivial, tracks.matched⟩

theorem Tracks.step {handle : UInt32} {call : PipeCall} (tracks : Tracks handle server log)
    (same : call.req.handle = handle) (meets : MatchesWhen machine server call)
    (returned : (call.serve machine ⟨server, {}⟩).1 ≠ .fault) :
    Tracks handle (call.serve machine ⟨server, {}⟩).2.server (call.events machine server ++ log) := by
  subst same
  cases call with
  | write req => exact tracks.write meets
  | read req maxRespSz => exact tracks.read
  | ioctl req maxRespSz => exact tracks.ioctl meets returned
  | state req maxRespSz =>
    rw [PipeCall.serve_state]
    exact tracks.state

/-- In every run on an open pipe that starts with no reply due, as long as an IOCTL finds
none pending and every PDU that reaches the parser is accepted, replies and requests
are matched. -/
theorem replies_matched (machine : Machine) (server now : Server) (handle : UInt32) (channel : Channel) (log : List Event)
    (found : server.pipes.lookup handle = some channel) (idle : channel.dce.returnReady = false)
    (run : Logged machine handle (MatchesWhen machine) server now log) : Matched log := by
  have tracks : Tracks handle now log := by
    induction run with
    | start => exact ⟨trivial, channel, found, .of_idle idle []⟩
    | step call earlier same meets returned ih => exact ih.step same meets returned
  exact tracks.matched

end

namespace Scenario

def written : PipeCall := .write (write (shareEnum 1 4000))

def taken : PipeCall := .read read 4080

def sent : PipeCall := .ioctl (ioctl (shareEnum 2 4000)) 4080

def answered : Server := (taken.serve machine ⟨(written.serve machine ⟨server, {}⟩).2.server, {}⟩).2.server

end Scenario

/-- A write, its read, and an IOCTL behind them. -/
theorem replies_matched_in_turn :
    ∃ now, Logged Scenario.machine Scenario.pipe (MatchesWhen Scenario.machine) Scenario.server now
        [.ioctlReply 2 2, .parsed false 2, .readReply 1, .parsed true 1] ∧
      Matched [.ioctlReply 2 2, .parsed false 2, .readReply 1, .parsed true 1] := by
  have idle : ∀ channel ∈ Scenario.server.pipes.lookup Scenario.pipe, channel.dce.returnReady = false := by decide +kernel
  obtain ⟨channel, found⟩ := Option.isSome_iff_exists.mp
    (show (Scenario.server.pipes.lookup Scenario.pipe).isSome by decide +kernel)
  have accepted : ∀ channel ∈ Scenario.server.pipes.lookup Scenario.pipe,
      Accepts Scenario.machine Scenario.server channel Scenario.written.req := by decide +kernel
  have free : ∀ channel ∈ Scenario.answered.pipes.lookup Scenario.pipe, channel.dce.returnReady = false ∧
      Accepts Scenario.machine Scenario.answered channel Scenario.sent.req := by decide +kernel
  have wrote : Scenario.written.events Scenario.machine Scenario.server = [.parsed true 1] := by decide +kernel
  have took : Scenario.taken.events Scenario.machine
      (Scenario.written.serve Scenario.machine ⟨Scenario.server, {}⟩).2.server = [.readReply 1] := by decide +kernel
  have sent : Scenario.sent.events Scenario.machine Scenario.answered = [.ioctlReply 2 2, .parsed false 2] := by
    decide +kernel
  have first : Logged Scenario.machine Scenario.pipe (MatchesWhen Scenario.machine) Scenario.server _ _ :=
    .step Scenario.written .start rfl (fun channel found _ => accepted channel found) (by decide +kernel)
  have second : Logged Scenario.machine Scenario.pipe (MatchesWhen Scenario.machine) Scenario.server Scenario.answered _ :=
    .step Scenario.taken first rfl trivial (by decide +kernel)
  have third : Logged Scenario.machine Scenario.pipe (MatchesWhen Scenario.machine) Scenario.server _ _ :=
    .step Scenario.sent second rfl (fun channel found _ => free channel found)
      (by decide +kernel)
  rw [sent, took, wrote] at third
  exact ⟨_, third, replies_matched _ _ _ _ channel _ found (idle channel found) third⟩

/-- An IOCTL while the reply to a write is pending gets that reply. -/
theorem replies_mismatched_by_ioctl :
    ∃ now log, Logged Scenario.machine Scenario.pipe (fun _ _ => True) Scenario.server now log ∧ ¬ Matched log := by
  have logged : Scenario.written.events Scenario.machine Scenario.server = [.parsed true 1] := by decide +kernel
  have mismatched : Scenario.sent.events Scenario.machine
      (Scenario.written.serve Scenario.machine ⟨Scenario.server, {}⟩).2.server = [.ioctlReply 2 1] := by decide +kernel
  have first : Logged Scenario.machine Scenario.pipe (fun _ _ => True) Scenario.server _ _ :=
    .step Scenario.written .start rfl trivial (by decide +kernel)
  have second : Logged Scenario.machine Scenario.pipe (fun _ _ => True) Scenario.server _ _ :=
    .step Scenario.sent first rfl trivial (by decide +kernel)
  rw [logged, mismatched] at second
  exact ⟨_, _, second, fun matched => absurd matched.1 (by decide)⟩

end KsmbdTools.Rpc
