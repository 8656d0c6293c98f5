import KsmbdTools.Rpc.Proofs.CallIds
import KsmbdTools.Rpc.Proofs.Negotiation

/-! Opnum 0 on an LSARPC pipe. It stands for one function of the LSARPC interface and
for another of dssetup, and the daemon tells them apart by the one context id it
remembers. A client may have bound dssetup to several ids, or an id to several
interfaces in turn. -/

namespace KsmbdTools.Rpc
open Management Proc

inductive OpnumZero where
  | primaryDomainInfo
  | close
  deriving DecidableEq

namespace OpnumZero
variable (machine : Machine)

def of (dssetup : Bool) : OpnumZero := if dssetup then .primaryDomainInfo else .close

def invoke : OpnumZero → Proc Call Status Unit
  | .primaryDomainInfo => lsarpcGetPrimaryDomainInfoInvoke machine
  | .close => lsarpcCloseInvoke machine

def methodReturn : OpnumZero → Proc Call Status Unit
  | .primaryDomainInfo => lsarpcGetPrimaryDomainInfoReturn machine
  | .close => lsarpcCloseReturn machine

def respond (which : OpnumZero) : Proc Work Status Unit := do
  let status ← Work.handle (do
    Call.seek (headerSize + responseHeaderSize)
    Proc.code .ok (which.methodReturn machine))
  sendResponse machine status
  answer status

theorem of_inj {first second : Bool} (same : of first = of second) : first = second := by
  revert same
  cases first <;> cases second <;> decide

end OpnumZero

/-- The request in hand is dispatched as this function, by the write that parses it and by
every read that answers it. -/
structure Dispatched (machine : Machine) (start : Work) (which : OpnumZero) : Prop where
  chosen : ∀ headed, requestHeaders start = (.ok (), headed) → OpnumZero.of headed.channel.dce.dssetup = which
  invoked : ∀ headed, requestHeaders start = (.ok (), headed) →
    invokeHandler machine start = Work.handle (which.invoke machine) headed
  answered : ∀ parsed read maxRespSz, invokeHandler machine start = (.ok (), parsed) → service? read.flags = some .lsarpc →
    returnHandler machine maxRespSz ⟨parsed.store, parsed.channel.startRead read {} maxRespSz, 0⟩ =
      which.respond machine ⟨parsed.store, parsed.channel.startRead read {} maxRespSz, 0⟩

def PipeCall.bound (machine : Machine) (server : Server) : PipeCall → List (List DcerpcContext)
  | .write req =>
    if server.parses machine req ∧ isBind (pduHeader req.payload).ptype then [bindPduContexts req.payload] else []
  | .ioctl req _ =>
    if headerSize ≤ req.payload.length ∧ server.parses machine req ∧ isBind (pduHeader req.payload).ptype then
      [bindPduContexts req.payload] else []
  | .read _ _ | .state _ _ => []

/-- The runs on one pipe, with the bind PDUs that were accepted on it, the latest first.
What happens on other pipes in between changes all but this one. -/
inductive Binds (machine : Machine) (handle : UInt32) (start : Server) : Server → List (List DcerpcContext) → Prop where
  | start : Binds machine handle start start []
  | step {now : Server} {log : List (List DcerpcContext)} (call : PipeCall) (earlier : Binds machine handle start now log)
      (same : call.req.handle = handle) (returned : (call.serve machine ⟨now, {}⟩).1 ≠ .fault) :
      Binds machine handle start (call.serve machine ⟨now, {}⟩).2.server (call.bound machine now ++ log)
  | elsewhere {now : Server} {log : List (List DcerpcContext)} (other : Server)
      (earlier : Binds machine handle start now log) (same : other.pipes.lookup handle = now.pipes.lookup handle) :
      Binds machine handle start other log

def DcerpcContext.accepted (context : DcerpcContext) : Bool :=
  context.chosen.bind dcerpcSyntaxSupported == some .accept

/-- The UUID of dssetup, `3919286a-b10c-11d0-9ba8-00c04fd92ef5`. The daemon compares its first three fields only. -/
def DcerpcSyntax.namesDssetup (syn : DcerpcSyntax) : Bool :=
  syn.timeLow == 0x3919286a && syn.timeMid == 0xb10c && syn.timeHiAndVersion == 0x11d0 && syn.clockSeq == [0x9b, 0xa8] &&
    syn.node == [0x00, 0xc0, 0x4f, 0xd9, 0x2e, 0xf5]

def latestElement (accepts : DcerpcContext → Bool) (log : List (List DcerpcContext)) (id : UInt16) : Option DcerpcContext :=
  (log.flatMap List.reverse).find? fun context => context.id == id && accepts context

/-- The id of the first dssetup element in the latest PDU that has one. -/
def dssetupNamed (log : List (List DcerpcContext)) : Option UInt16 :=
  log.findSome? fun contexts => (contexts.find? fun context => isDssetupInterface context.abstractSyntax).map (·.id)

private theorem dssetupNamed_cons (contexts : List DcerpcContext) (log : List (List DcerpcContext)) :
    dssetupNamed (contexts :: log) =
      ((contexts.find? fun context => isDssetupInterface context.abstractSyntax).map (·.id)).or (dssetupNamed log) := by
  rw [dssetupNamed, List.findSome?_cons]
  cases (contexts.find? fun context => isDssetupInterface context.abstractSyntax).map (·.id) <;> rfl

section
variable {machine : Machine} {work after : Work}

private theorem dcerpcBindInvoke_rejected {code : Status} (ran : dcerpcBindInvoke machine work = (.stop code, after)) :
    after.channel.dce.marks = work.channel.dce.marks := by
  rcases parse : dcerpcParseBindReq machine work with ⟨_ | _ | _, parsed⟩
  · rw [dcerpcBindInvoke, bind_ok parse, bind_ok (get_apply _)] at ran
    revert ran
    cases bindContexts parsed.store (parsed.channel.dce.req.biReq machine) with
    | none => rintro ⟨⟩
    | some contexts =>
      have read : (deref (some contexts) : Proc Work Status _) parsed = (.ok contexts, parsed) := rfl
      rw [bind_ok read]
      cases contexts.find? fun context => isDssetupInterface context.abstractSyntax with
      | none => rintro ⟨⟩
      | some context => rintro ⟨⟩
  · rw [dcerpcBindInvoke, bind_stop parse] at ran
    cases ran
    exact marks_apart.dcerpcParseBindReq.along parse rfl
  · rw [dcerpcBindInvoke, bind_fault parse] at ran
    cases ran

theorem invokeHandler_unbound {bytes : List UInt8} {outcome : Outcome Status Unit} (start : work.At bytes 0)
    (ran : invokeHandler machine work = (outcome, after)) (returned : outcome ≠ .fault)
    (unbound : ¬ (outcome = .ok () ∧ isBind (pduHeader bytes).ptype = true)) :
    after.channel.dce.marks = work.channel.dce.marks := by
  rcases read : dcerpcHdrRead .badData work with ⟨_ | _ | _, middle⟩
  · have headed : middle.channel.dce.marks = work.channel.dce.marks := (marks_apart.dcerpcHdrRead _).along read rfl
    obtain ⟨header, -, -⟩ := dcerpcHdrRead_ok start read
    rw [invokeHandler, bind_ok read, invokePdu, bind_ok (get_apply _), header] at ran
    split at ran
    next bind =>
      rcases outcome with _ | code | _
      · exact absurd ⟨rfl, bind⟩ unbound
      · exact (dcerpcBindInvoke_rejected ran).trans headed
      · exact absurd rfl returned
    next =>
      refine (show Preserves (Work.OnDce (·.marks = work.channel.dce.marks)) _ from
        .ite (.bind (dcerpcRequestHdrRead_marks _) fun _ => ?_) (.stop _)).along ran headed
      split
      next => exact .stop _
      next => exact fun work same => (serviceWriteRequest_marks _ work ⟨same, rfl⟩).1
  · rw [invokeHandler, bind_stop read] at ran
    cases ran
    exact (marks_apart.dcerpcHdrRead _).along read rfl
  · rw [invokeHandler, bind_fault read] at ran
    cases ran
    exact absurd rfl returned

end

/-! The id that a pipe remembers. -/

def Remembers (handle : UInt32) (server : Server) (log : List (List DcerpcContext)) : Prop :=
  ∃ channel, server.pipes.lookup handle = some channel ∧ channel.dce.dssetupContextId = dssetupNamed log

namespace Remembers
variable {machine : Machine} {server : Server} {req : Command} {maxRespSz : Nat} {log : List (List DcerpcContext)}

theorem opened {start : Server} (opened : rpcOpenRequest req ⟨server, {}⟩ = (.ok (), ⟨start, {}⟩)) :
    Remembers req.handle start [] := by
  obtain ⟨channel, fresh, same⟩ := rpcOpenRequest_ok opened
  cases same
  exact ⟨channel, AList.lookup_insert _, fresh.unnamed⟩

theorem write (remembers : Remembers req.handle server log)
    (returned : (rpcWriteRequest machine req ⟨server, {}⟩).1 ≠ .fault) :
    Remembers req.handle (rpcWriteRequest machine req ⟨server, {}⟩).2.server
      (PipeCall.bound machine server (.write req) ++ log) := by
  obtain ⟨channel, found, named⟩ := remembers
  cases ready : channel.dce.returnReady with
  | true =>
    rw [rpcWriteRequest_pending found ready]
    have unparsed : server.parses machine req = false := by simp [Server.parses, found, ready]
    rw [PipeCall.bound, unparsed]
    exact ⟨channel, found, named⟩
  | false =>
    rw [rpcWriteRequest_idle found ready] at returned ⊢
    refine ⟨_, Server.lookup_finish found _, ?_⟩
    have parses : server.parses machine req =
        ((invokeHandler machine (Exchange.writing ⟨server, {}⟩ channel req)).1 == .ok ()) := by
      simp only [Server.parses, found, ready, Bool.not_false, Bool.true_and]
      rfl
    rw [PipeCall.bound, parses]
    rcases ran : invokeHandler machine (Exchange.writing ⟨server, {}⟩ channel req) with ⟨outcome, parsed⟩
    rw [ran] at returned
    simp only [beq_iff_eq]
    split
    next bound =>
      obtain ⟨rfl, bind⟩ := bound
      refine (invokeHandler_bound ⟨rfl, rfl, rfl⟩ rfl bind ran).2.trans ?_
      rw [List.singleton_append, dssetupNamed_cons, ← named]
      rfl
    next unbound =>
      exact (congrArg (·.2.2) (invokeHandler_unbound ⟨rfl, rfl, rfl⟩ ran returned unbound)).trans named

theorem read {exchange : Exchange} (remembers : Remembers req.handle exchange.server log) :
    Remembers req.handle (rpcReadRequest machine req maxRespSz exchange).2.server log := by
  obtain ⟨channel, found, named⟩ := remembers
  cases fresh : channel.pipe.ioctlReplyConsumed with
  | true =>
    rw [rpcReadRequest_consumed found fresh]
    exact ⟨_, Server.lookup_setChannel found _, named⟩
  | false =>
    cases ready : channel.dce.returnReady with
    | false =>
      rw [rpcReadRequest_idle found fresh ready]
      exact ⟨channel, found, named⟩
    | true =>
      rw [rpcReadRequest_pending found fresh ready]
      refine ⟨_, Server.lookup_finish found _, ?_⟩
      exact (congrArg (·.2.2) (returnHandler_marks maxRespSz (exchange.reading channel req maxRespSz) rfl)).trans named

theorem state (remembers : Remembers req.handle server log) :
    Remembers req.handle (rpcStateRequest machine req maxRespSz ⟨server, {}⟩).2.server log := by
  obtain ⟨channel, found, named⟩ := remembers
  rcases Nat.lt_or_ge maxRespSz (commandSize + PipeInfo.size) with short | room
  · rw [rpcStateRequest_short short]
    exact ⟨channel, found, named⟩
  cases ready : channel.dce.returnReady with
  | false =>
    rw [rpcStateRequest_idle room found ready]
    exact ⟨channel, found, named⟩
  | true =>
    rw [rpcStateRequest_pending room found ready]
    refine ⟨channel.restore (returnHandler machine pipePeekScratchSz (Exchange.peeking ⟨server, {}⟩ channel)).2.channel, ?_,
      named⟩
    dsimp only
    split <;> exact Server.lookup_peeked found _

theorem consume {exchange : Exchange} {handle : UInt32} (remembers : Remembers handle exchange.server log) :
    Remembers handle (consumeReply handle exchange).2.server log := by
  obtain ⟨channel, found, named⟩ := remembers
  rw [consumeReply, found]
  exact ⟨_, Server.lookup_setChannel found _, named⟩

theorem ioctl (remembers : Remembers req.handle server log)
    (returned : (rpcIoctlRequest machine req maxRespSz ⟨server, {}⟩).1 ≠ .fault) :
    Remembers req.handle (rpcIoctlRequest machine req maxRespSz ⟨server, {}⟩).2.server
      (PipeCall.bound machine server (.ioctl req maxRespSz) ++ log) := by
  rcases Nat.lt_or_ge req.payload.length headerSize with short | long
  · have unbound : PipeCall.bound machine server (.ioctl req maxRespSz) = [] := by
      simp [PipeCall.bound, Nat.not_le.mpr short]
    rw [rpcIoctlRequest_short short, unbound]
    exact remembers
  have member : req.handle ∈ server.pipes := by
    obtain ⟨channel, found, -⟩ := remembers
    exact AList.lookup_isSome.mp (by rw [found]; rfl)
  have same : PipeCall.bound machine server (.ioctl req maxRespSz) = PipeCall.bound machine server (.write req) := by
    simp [PipeCall.bound, long]
  have steps : rpcIoctlRequest machine req maxRespSz ⟨server, {}⟩ =
      (rpcWriteRequest machine req >>= fun _ => rpcReadRequest machine req maxRespSz >>= fun _ => consumeReply req.handle)
        ⟨server, {}⟩ := by
    simp only [rpcIoctlRequest, if_neg (Nat.not_lt.mpr long), not_true_eq_false, member, ↓reduceIte, bind_apply, get_apply]
  rw [steps] at returned ⊢
  rw [same]
  have keeps : Preserves (fun exchange : Exchange => Remembers req.handle exchange.server
      (PipeCall.bound machine server (.write req) ++ log))
      (rpcReadRequest machine req maxRespSz >>= fun _ => consumeReply req.handle) :=
    .bind (fun _ holds => holds.read) fun _ _ holds => holds.consume
  have wrote : (rpcWriteRequest machine req ⟨server, {}⟩).1 ≠ .fault := fun faulted => returned (bind_faulted _ faulted)
  exact (bind_along (.inr (remembers.write wrote)) fun _ => keeps).resolve_left returned

theorem step {handle : UInt32} {call : PipeCall} (remembers : Remembers handle server log)
    (same : call.req.handle = handle) (returned : (call.serve machine ⟨server, {}⟩).1 ≠ .fault) :
    Remembers handle (call.serve machine ⟨server, {}⟩).2.server (call.bound machine server ++ log) := by
  subst same
  cases call with
  | write req => exact remembers.write returned
  | read req maxRespSz => exact Remembers.read remembers
  | ioctl req maxRespSz => exact remembers.ioctl returned
  | state req maxRespSz =>
    rw [PipeCall.serve_state]
    exact remembers.state

theorem run {handle : UInt32} {start now : Server} (remembers : Remembers handle start [])
    (run : Binds machine handle start now log) : Remembers handle now log := by
  induction run with
  | start => exact remembers
  | step call _ same returned ih => exact ih.step same returned
  | elsewhere other _ same ih =>
    obtain ⟨channel, found, named⟩ := ih
    exact ⟨channel, same.trans found, named⟩

end Remembers

section
variable {machine : Machine} {start headed : Work} {bytes : List UInt8}

private theorem dssetup_eq {dce early : Dce} (reqHdr : dce.reqHdr = pduReqHdr bytes) (marks : dce.marks = early.marks) :
    dce.dssetup = (early.dssetupContextId == some (pduContextId bytes)) := by
  have remembered : dce.dssetupContextId = early.dssetupContextId := congrArg (·.2.2) marks
  rw [Dce.dssetup, reqHdr, remembered]
  rfl

private theorem lsarpcInvoke_zero (dssetup : Bool) :
    lsarpcInvoke machine 0 dssetup = (OpnumZero.of dssetup).invoke machine := by
  cases dssetup <;> rfl

private theorem lsarpcReturn_zero (dssetup : Bool) : lsarpcReturn machine 0 dssetup = (do
    Call.seek (headerSize + responseHeaderSize)
    Proc.code .ok ((OpnumZero.of dssetup).methodReturn machine)) := by
  cases dssetup <;> rfl

theorem dispatched_remembered (unread : start.At bytes 0) (request : (pduHeader bytes).ptype = Ptype.request)
    (zero : (pduReqHdr bytes).opnum = 0) (lsarpc : service? start.channel.dce.rpcFlags = some .lsarpc) :
    Dispatched machine start (.of (start.channel.dce.dssetupContextId == some (pduContextId bytes))) := by
  constructor
  case chosen =>
    intro headed read
    obtain ⟨reqHdr, marks, -, -⟩ := requestHeaders_ok unread read
    rw [dssetup_eq reqHdr marks]
  case invoked =>
    intro headed read
    obtain ⟨reqHdr, marks, -, -⟩ := requestHeaders_ok unread read
    have served : serviceWriteRequest machine .lsarpc headed =
        Work.handle (lsarpcInvoke machine headed.channel.dce.reqHdr.opnum headed.channel.dce.dssetup) headed := rfl
    rw [invokeHandler_request unread request, bind_ok read, lsarpc]
    dsimp only
    rw [served, dssetup_eq reqHdr marks, reqHdr, zero, lsarpcInvoke_zero]
  case answered =>
    intro parsed read maxRespSz ran flags
    obtain ⟨reqHdr, marks⟩ := invokeHandler_reqHdr unread request ran
    have type : parsed.channel.dce.hdr.ptype = Ptype.request := by rw [(invokeHandler_ok unread ran).1, request]
    generalize pending : (⟨parsed.store, parsed.channel.startRead read {} maxRespSz, 0⟩ : Work) = work
    have dssetup : work.channel.dce.dssetup = (start.channel.dce.dssetupContextId == some (pduContextId bytes)) := by
      rw [← dssetup_eq reqHdr marks, ← pending]
      rfl
    have opnum : work.channel.dce.reqHdr.opnum = 0 := by
      rw [← pending, ← zero, ← reqHdr]
      rfl
    have served : returnHandler machine maxRespSz work = rpcLsarpcReadRequest machine work := by
      rw [returnHandler, bind_ok (get_apply _), ← pending]
      simp only [Channel.startRead, type, show isBind Ptype.request = false from rfl, Bool.false_eq_true, ↓reduceIte, flags]
      rfl
    rw [served, rpcLsarpcReadRequest, bind_ok (get_apply _), opnum, dssetup, lsarpcReturn_zero]
    rfl

end

/-- A request with opnum 0 and the headers it needs follows the interface negotiated for
its context if and only if that is dssetup exactly for the id named last. The elements of
an accepted PDU that count as accepted may be any, and so may the syntaxes that name dssetup. -/
theorem opnum_zero_follows_iff (machine : Machine) (accepts : DcerpcContext → Bool) (names : DcerpcSyntax → Bool)
    (server start now : Server) (opening req : Command) (log : List (List DcerpcContext)) (channel : Channel) (headed : Work)
    (opened : rpcOpenRequest opening ⟨server, {}⟩ = (.ok (), ⟨start, {}⟩))
    (run : Binds machine opening.handle start now log) (found : now.pipes.lookup opening.handle = some channel)
    (request : (pduHeader req.payload).ptype = Ptype.request) (zero : (pduReqHdr req.payload).opnum = 0)
    (lsarpc : service? req.flags = some .lsarpc)
    (read : requestHeaders (Exchange.writing ⟨now, {}⟩ channel req) = (.ok (), headed)) :
    (∀ element ∈ latestElement accepts log (pduContextId req.payload),
        Dispatched machine (Exchange.writing ⟨now, {}⟩ channel req) (.of (names element.abstractSyntax))) ↔
      ∀ element ∈ latestElement accepts log (pduContextId req.payload),
        names element.abstractSyntax = true ↔ dssetupNamed log = some (pduContextId req.payload) := by
  obtain ⟨_, there, named⟩ := (Remembers.opened opened).run run
  cases found.symm.trans there
  have dispatched : Dispatched machine (Exchange.writing ⟨now, {}⟩ channel req)
      (.of (dssetupNamed log == some (pduContextId req.payload))) := by
    rw [← named]
    exact dispatched_remembered ⟨rfl, rfl, rfl⟩ request zero lsarpc
  refine forall₂_congr fun element _ => ⟨fun follows => ?_, fun same => ?_⟩
  · have same := OpnumZero.of_inj ((follows.chosen headed read).symm.trans (dispatched.chosen headed read))
    rw [same, beq_iff_eq]
  · rwa [Bool.eq_iff_iff.mpr (same.trans beq_iff_eq.symm)]

namespace Scenario

def lsarpcInterface : DcerpcSyntax :=
  { timeLow := 0x12345778, timeMid := 0x1234, timeHiAndVersion := 0xabcd, clockSeq := [0xef, 0x00],
    node := [0x01, 0x23, 0x45, 0x67, 0x89, 0xab], verMajor := 0, verMinor := 0 }

def dssetupInterface : DcerpcSyntax :=
  { timeLow := 0x3919286a, timeMid := 0xb10c, timeHiAndVersion := 0x11d0, clockSeq := [0x9b, 0xa8],
    node := [0x00, 0xc0, 0x4f, 0xd9, 0x2e, 0xf5], verMajor := 0, verMinor := 0 }

/-- `3919286a-b10c-11d0-0000-000000000000`. -/
def alikeInterface : DcerpcSyntax := { dssetupInterface with clockSeq := [0, 0], node := List.replicate 6 0 }

def opening : Command := { handle := pipe, flags := Method.openPipe }

def unopened : Server :=
  { store := { management :=
      Management.Scenario.loaded { name := Management.Scenario.shareName, flags := ShareFlag.browseable } } }

def lsarpcIoctl (payload : List UInt8) : PipeCall :=
  .ioctl { handle := pipe, flags := Method.ioctl ||| Method.lsarpcInvoke, payload } 4080

def bindBoth : PipeCall := lsarpcIoctl (bind [context 0 lsarpcInterface ndrSyntax, context 1 dssetupInterface ndrSyntax])

def rebind : PipeCall := lsarpcIoctl (altCont [context 1 lsarpcInterface ndrSyntax])

def bindAlike : PipeCall := lsarpcIoctl (bind [context 1 alikeInterface ndrSyntax])

def opnumZero : Command :=
  { handle := pipe, flags := Method.write ||| Method.lsarpcInvoke
    payload := pdu Ptype.request 3 (int32 0 ++ [1, 0, 0, 0] ++ List.replicate 20 0) }

def boundBoth : Server := (bindBoth.serve machine ⟨server, {}⟩).2.server

def rebound : Server := (rebind.serve machine ⟨boundBoth, {}⟩).2.server

def boundAlike : Server := (bindAlike.serve machine ⟨server, {}⟩).2.server

theorem opens : rpcOpenRequest opening ⟨unopened, {}⟩ = (.ok (), ⟨server, {}⟩) := by
  obtain ⟨⟨start, resp⟩, opened⟩ := exists_of_ok
    (show (rpcOpenRequest opening ⟨unopened, {}⟩).1 = .ok () by decide +kernel)
  have unwritten : (rpcOpenRequest opening ⟨unopened, {}⟩).2.resp = {} := by decide +kernel
  have opens : (rpcOpenRequest opening ⟨unopened, {}⟩).2.server = server := rfl
  rw [opened] at unwritten opens
  obtain rfl : resp = {} := unwritten
  obtain rfl : start = server := opens
  exact opened

def both : List DcerpcContext := [⟨0, lsarpcInterface, ndrSyntax, []⟩, ⟨1, dssetupInterface, ndrSyntax, []⟩]

def instead : List DcerpcContext := [⟨1, lsarpcInterface, ndrSyntax, []⟩]

def alike : List DcerpcContext := [⟨1, alikeInterface, ndrSyntax, []⟩]

theorem binds_next {now : Server} {log : List (List DcerpcContext)} {contexts : List DcerpcContext} {call : PipeCall}
    (earlier : Binds machine pipe server now log) (same : call.req.handle = pipe)
    (returned : (call.serve machine ⟨now, {}⟩).1 ≠ .fault) (named : call.bound machine now = [contexts]) :
    Binds machine pipe server (call.serve machine ⟨now, {}⟩).2.server (contexts :: log) := by
  have bound := Binds.step call earlier same returned
  rwa [named] at bound

theorem binds : Binds machine pipe server boundBoth [both] :=
  binds_next .start rfl (by decide +kernel) (by decide +kernel)

theorem rebinds : Binds machine pipe server rebound [instead, both] :=
  binds_next binds rfl (by decide +kernel) (by decide +kernel)

theorem binds_alike : Binds machine pipe server boundAlike [alike] :=
  binds_next .start rfl (by decide +kernel) (by decide +kernel)

end Scenario

/-- Once both interfaces are bound, opnum 0 in the context of dssetup follows it. -/
theorem opnum_zero_follows_both : ∃ channel, Scenario.boundBoth.pipes.lookup Scenario.pipe = some channel ∧
    Dispatched Scenario.machine (Exchange.writing ⟨Scenario.boundBoth, {}⟩ channel Scenario.opnumZero)
      .primaryDomainInfo := by
  obtain ⟨channel, found⟩ := Option.isSome_iff_exists.mp
    (show (Scenario.boundBoth.pipes.lookup Scenario.pipe).isSome by decide +kernel)
  have headers : ∀ channel ∈ Scenario.boundBoth.pipes.lookup Scenario.pipe,
      (requestHeaders (Exchange.writing ⟨Scenario.boundBoth, {}⟩ channel Scenario.opnumZero)).1 = .ok () := by decide +kernel
  obtain ⟨headed, read⟩ := exists_of_ok (headers channel found)
  have latest : latestElement DcerpcContext.accepted [Scenario.both] (pduContextId Scenario.opnumZero.payload) =
      some ⟨1, Scenario.dssetupInterface, Scenario.ndrSyntax, []⟩ := by decide +kernel
  have follows := opnum_zero_follows_iff Scenario.machine DcerpcContext.accepted DcerpcSyntax.namesDssetup Scenario.unopened
    Scenario.server Scenario.boundBoth Scenario.opening Scenario.opnumZero [Scenario.both] channel headed Scenario.opens
    Scenario.binds found (by decide +kernel) (by decide +kernel) (by decide +kernel) read
  rw [latest] at follows
  refine ⟨channel, found, follows.mpr ?_ _ rfl⟩
  rintro _ ⟨⟩
  decide +kernel

namespace Scenario

/-- Opnum 0 in context 1 is no CLOSE, though the latest element accepted for the id names another interface than dssetup. -/
def KeepsOpen (now : Server) (log : List (List DcerpcContext)) : Prop :=
  Binds machine pipe server now log ∧ ∃ channel element, now.pipes.lookup pipe = some channel ∧
    latestElement DcerpcContext.accepted log (pduContextId opnumZero.payload) = some element ∧
    element.abstractSyntax.namesDssetup = false ∧ ¬Dispatched machine (Exchange.writing ⟨now, {}⟩ channel opnumZero) .close

theorem keepsOpen {now : Server} {log : List (List DcerpcContext)} {element : DcerpcContext}
    (run : Binds machine pipe server now log) (held : (now.pipes.lookup pipe).isSome)
    (headers : ∀ channel ∈ now.pipes.lookup pipe,
      (requestHeaders (Exchange.writing ⟨now, {}⟩ channel opnumZero)).1 = .ok () ∧
        (requestHeaders (Exchange.writing ⟨now, {}⟩ channel opnumZero)).2.channel.dce.dssetup = true)
    (latest : latestElement DcerpcContext.accepted log (pduContextId opnumZero.payload) = some element)
    (other : element.abstractSyntax.namesDssetup = false) : KeepsOpen now log := by
  obtain ⟨channel, found⟩ := Option.isSome_iff_exists.mp held
  obtain ⟨ended, dssetup⟩ := headers channel found
  obtain ⟨headed, read⟩ := exists_of_ok ended
  rw [read] at dssetup
  refine ⟨run, channel, element, found, latest, other, fun dispatched => ?_⟩
  have chosen := dispatched.chosen headed read
  rw [dssetup] at chosen
  cases chosen

end Scenario

open Scenario in
/-- The context is bound to dssetup and then to LSARPC instead; or it is bound to an interface whose UUID only begins as
that of dssetup. Opnum 0 in it is the function of dssetup and does not close the handle. -/
theorem opnum_zero_stays_dssetup : rpcOpenRequest opening ⟨unopened, {}⟩ = (.ok (), ⟨server, {}⟩) ∧
    KeepsOpen rebound [instead, both] ∧ KeepsOpen boundAlike [alike] := by
  refine ⟨opens, keepsOpen rebinds (by decide +kernel) (by decide +kernel) (by decide +kernel : _ = some
    ⟨1, lsarpcInterface, ndrSyntax, []⟩) (by decide), keepsOpen binds_alike (by decide +kernel) (by decide +kernel)
    (by decide +kernel : _ = some ⟨1, alikeInterface, ndrSyntax, []⟩) (by decide)⟩

end KsmbdTools.Rpc
