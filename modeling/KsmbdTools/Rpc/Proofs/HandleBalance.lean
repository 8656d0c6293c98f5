import KsmbdTools.Rpc.Proofs.SamrCalls

/-! SAMR handles over a run of calls: one entry of the table counts the references that
were handed out, and each close gives one of them back. -/

namespace KsmbdTools.Rpc
open Management Bytes Proc Samr

/-- How many references the table counts for a handle that is valid. -/
def held (table : HashTable Handle ConnectHandle) (handle : Handle) : Option Nat :=
  (table.lookup handle).map (·.refcount.toNat)

section
variable {table : HashTable Handle ConnectHandle} {handle : Handle} {ch : ConnectHandle}

theorem held_eq_none : held table handle = none ↔ handle ∉ table := by
  rw [held, Option.map_eq_none_iff, AList.lookup_eq_none]

theorem held_of_lookup (known : table.lookup handle = some ch) : held table handle = some ch.refcount.toNat := by
  rw [held, known, Option.map_some]

theorem held_replace (known : table.lookup handle = some ch) (fresh : ConnectHandle) :
    held (table.replace handle fresh) = Function.update (held table) handle (some fresh.refcount.toNat) := by
  funext other
  rcases eq_or_ne other handle with rfl | differs
  · rw [Function.update_self, held, Table.lookup_replace_of_lookup _ known, Option.map_some]
  · rw [Function.update_of_ne differs, held, Table.lookup_replace_ne _ differs, held]

theorem held_insert (fresh : ConnectHandle) :
    held (table.insert handle fresh) = Function.update (held table) handle (some fresh.refcount.toNat) := by
  funext other
  rcases eq_or_ne other handle with rfl | differs
  · rw [Function.update_self, held, AList.lookup_insert, Option.map_some]
  · rw [Function.update_of_ne differs, held, AList.lookup_insert_ne differs, held]

theorem held_erase : held (table.erase handle) = Function.update (held table) handle none := by
  funext other
  rcases eq_or_ne other handle with rfl | differs
  · rw [Function.update_self, held, AList.lookup_erase, Option.map_none]
  · rw [Function.update_of_ne differs, held, AList.lookup_erase_ne differs, held]

end

/-! What a log of calls tells about handles. -/

/-- A call that was answered without an error returned a handle or closed one. -/
inductive HandleEvent where
  | opened (handle : Handle)
  | closed (handle : Handle)
  deriving DecidableEq

inductive Moves (counts : Handle → Option Nat) : List HandleEvent → (Handle → Option Nat) → Prop
  | kept : Moves counts [] counts
  | opened (handle : Handle) :
      Moves counts [.opened handle] (Function.update counts handle (some ((counts handle).getD 0 + 1)))
  | closed (handle : Handle) (rest : Nat) (known : counts handle = some (rest + 1)) :
      Moves counts [.closed handle] (Function.update counts handle (if rest = 0 then none else some rest))

/-- Each handle is counted once for every time it was returned and not closed since. -/
def Balanced (log : List HandleEvent) (counts : Handle → Option Nat) : Prop :=
  ∀ handle, log.count (.closed handle) + (counts handle).getD 0 = log.count (.opened handle) ∧ counts handle ≠ some 0

namespace Balanced
variable {log events : List HandleEvent} {counts after : Handle → Option Nat}

theorem moves (balanced : Balanced log counts) (moved : Moves counts events after) : Balanced (log ++ events) after := by
  intro other
  obtain ⟨sum, positive⟩ := balanced other
  cases moved with
  | kept => simpa using ⟨sum, positive⟩
  | opened handle =>
    rcases eq_or_ne other handle with rfl | differs
    · simp only [Function.update_self, List.count_append, List.count_singleton_self, Option.getD_some, ne_eq,
        Option.some.injEq, Nat.add_eq_zero_iff, one_ne_zero, and_false, not_false_eq_true, and_true]
      have apart : List.count (HandleEvent.closed other) [.opened other] = 0 := by simp
      omega
    · have apart : List.count (HandleEvent.opened other) [.opened handle] = 0 := by simp [differs.symm]
      have kind : List.count (HandleEvent.closed other) [.opened handle] = 0 := by simp
      rw [Function.update_of_ne differs, List.count_append, List.count_append, apart, kind]
      exact ⟨sum, positive⟩
  | closed handle rest known =>
    rcases eq_or_ne other handle with rfl | differs
    · have apart : List.count (HandleEvent.opened other) [.closed other] = 0 := by simp
      rw [known, Option.getD_some] at sum
      simp only [Function.update_self, List.count_append, List.count_singleton_self]
      split
      next none => simp only [Option.getD_none]; exact ⟨by omega, nofun⟩
      next some => exact ⟨by rw [Option.getD_some]; omega, by simpa using some⟩
    · have apart : List.count (HandleEvent.closed other) [.closed handle] = 0 := by simp [differs.symm]
      have kind : List.count (HandleEvent.opened other) [.closed handle] = 0 := by simp
      rw [Function.update_of_ne differs, List.count_append, List.count_append, apart, kind]
      exact ⟨sum, positive⟩

theorem valid_iff {table : HashTable Handle ConnectHandle} (balanced : Balanced log (held table)) (handle : Handle) :
    handle ∈ table ↔ log.count (.closed handle) < log.count (.opened handle) := by
  obtain ⟨sum, positive⟩ := balanced handle
  rw [← not_iff_not, ← held_eq_none]
  cases count : held table handle with
  | none =>
    rw [count] at sum
    simp only [Option.getD_none] at sum
    simp only [true_iff]
    omega
  | some references =>
    rw [count] at sum positive
    simp only [Option.getD_some] at sum
    simp only [ne_eq, Option.some.injEq, reduceCtorEq, false_iff, not_not] at positive ⊢
    omega

end Balanced

/-! What the methods do to the counts. -/

section
variable {machine : Machine} {counts : Handle → Option Nat}

private theorem kept_held : Call.Kept machine (fun call => held call.store.chTable = counts) :=
  .ofTables ⟨fun _ _ same => same, fun _ _ _ _ same => same, fun _ _ same => same⟩ fun _ _ same => same

private theorem samrLookupNamesReturn_held :
    Preserves (fun call : Call => held call.store.chTable = counts) (samrLookupNamesReturn machine) := by
  intro call same
  cases known : call.store.chTable.lookup (call.req.smReq machine).handle with
  | none =>
    rw [samrLookupNamesReturn, bind_stop (samrChLookup_unknown rfl known)]
    exact same
  | some ch =>
    rw [samrLookupNamesReturn, bind_ok (samrChLookup_known rfl known)]
    have counted : counts (call.req.smReq machine).handle = some ch.refcount.toNat := same ▸ held_of_lookup known
    suffices Preserves (fun call : Call => held call.store.chTable = counts) _ from this call same
    refine .bind .get fun now => .bind (Call.strVal_keeps _) fun name => .bind (.modify fun _ same => same) fun _ =>
      .bind (.modify ?_) fun _ => ?_
    · intro later kept
      have still : held later.store.chTable (call.req.smReq machine).handle = some ch.refcount.toNat := kept ▸ counted
      obtain ⟨entry, found, -⟩ := Option.map_eq_some_iff.mp still
      have replaced := held_replace found { ch with user := (now.store.management.usmLookupUser name).2 }
      exact replaced.trans (by rw [kept, ← counted, Function.update_eq_self])
    · split
      next => exact .stop _
      next => exact .bind (.deref _) fun _ => kept_held.write _

theorem samrMethodReturn_held {opnum : UInt16} (notConnect : opnum ≠ connect5) (notDomain : opnum ≠ openDomain)
    (notUser : opnum ≠ openUser) (notClose : opnum ≠ close) :
    Preserves (fun call : Call => held call.store.chTable = counts) (samrMethodReturn machine opnum) :=
  samrMethodReturn_keeps kept_held.written (fun same => absurd same notConnect) (fun same => absurd same notDomain)
    (fun _ => samrLookupNamesReturn_held) (fun same => absurd same notUser) fun same => absurd same notClose

end

/-! One call. -/

/-- The handle a connect returns stands behind its levels, any other first in the reply. -/
def handleEvents (write : Command) (resp : Response) : List HandleEvent :=
  let opnum := (pduReqHdr write.payload).opnum
  if opnum = connect5 then [.opened ((resp.payload.drop 40).take handleSize)]
  else if opnum = openDomain ∨ opnum = openUser then [.opened (samrHandle resp.payload)]
  else if opnum = close then [.closed (samrHandle write.payload)]
  else []

/-- What a call has to find for the table to count what it returns: no reply is pending on its pipe, a request that
changes the table is accepted and not restricted, a connect finds the handle of its pipe unused, and what is opened has a
count that can be raised and is a user that the handle has. -/
structure CountsHandles (machine : Machine) (server : Server) (write read : Command) : Prop where
  idle : ∀ channel ∈ server.pipes.lookup write.handle, channel.dce.returnReady = false
  whole : headerSize + responseHeaderSize ≤ write.payload.length
  accepted : (pduReqHdr write.payload).opnum ∈ [connect5, openDomain, openUser, close] → write.handle ∈ server.pipes →
    (rpcWriteRequest machine write ⟨server, {}⟩).1 = .ok ()
  connect : (pduReqHdr write.payload).opnum = connect5 →
    rpcRestrictedContext server.store.management.globalConf read.flags = false ∧
      ∀ channel ∈ server.pipes.lookup write.handle, newHandle channel.pipe.id ∉ server.store.chTable
  known : (pduReqHdr write.payload).opnum ∈ [openDomain, openUser, close] →
    samrHandle write.payload ∈ server.store.chTable →
      rpcRestrictedContext server.store.management.globalConf read.flags = false
  bound : (pduReqHdr write.payload).opnum ∈ [openDomain, openUser] →
    ∀ ch ∈ server.store.chTable.lookup (samrHandle write.payload), ch.refcount.toNat + 1 < 2 ^ 32
  user : (pduReqHdr write.payload).opnum = openUser → ∀ ch ∈ server.store.chTable.lookup (samrHandle write.payload),
    ∃ user record, ch.user = some user ∧ server.store.management.users.get? user = some record ∧
      record.uid = samrRid write.payload

/-- The table after a call counts what the call tells. -/
structure Accounted (server : Server) (write : Command) (result : Outcome Status Unit × Exchange) : Prop where
  answered : result.1 = .ok () →
    Moves (held server.store.chTable) (handleEvents write result.2.resp) (held result.2.server.store.chTable)
  refused : ∀ code, result.1 = .stop code → held result.2.server.store.chTable = held server.store.chTable

section
variable {machine : Machine} {server : Server} {channel : Channel} {outcome : Outcome Status Unit} {parsed : Work}
  {write read : Command} {maxRespSz : Nat}

private theorem accounted_refused {code : Status} {done : Call}
    (written : SamrWritten machine server channel write read outcome parsed) (failed : code ≠ .ok)
    (ran : samrMethodReturn machine (pduReqHdr write.payload).opnum (parsed.samrRead read maxRespSz).samrStart =
      (.stop code, done))
    (same : done.store.chTable = (parsed.samrRead read maxRespSz).samrStart.store.chTable) :
    Accounted server write (samrCall machine write read maxRespSz ⟨server, {}⟩) := by
  obtain ⟨starts, -, -⟩ := samrRead_starts maxRespSz written
  have table := (samrCall_table written ran).2.trans (same.trans starts.chTable)
  exact ⟨fun ended => absurd ended (samrCall_refused written failed ran), fun _ _ => by rw [table]⟩

private theorem accounted_connect (accepted : SamrWritten machine server channel write read (.ok ()) parsed)
    (opnum : (pduReqHdr write.payload).opnum = connect5) (room : 64 ≤ maxRespSz)
    (unrestricted : rpcRestrictedContext server.store.management.globalConf read.flags = false)
    (fresh : newHandle channel.pipe.id ∉ server.store.chTable) :
    Accounted server write (samrCall machine write read maxRespSz ⟨server, {}⟩) := by
  obtain ⟨starts, -, -⟩ := samrRead_starts maxRespSz accepted
  by_cases granted : machine.mallocConnectHandle parsed.store channel.pipe.id = true
  · obtain ⟨ended, handle, table⟩ := samrCall_connects accepted opnum room unrestricted fresh granted
    have counts : held (samrCall machine write read maxRespSz ⟨server, {}⟩).2.server.store.chTable =
        Function.update (held server.store.chTable) (newHandle channel.pipe.id)
          (some ((held server.store.chTable (newHandle channel.pipe.id)).getD 0 + 1)) := by
      rw [table, held_eq_none.mpr fresh]
      exact held_insert _
    refine ⟨fun _ => ?_, fun code stopped => absurd (ended.symm.trans stopped) nofun⟩
    rw [counts, handleEvents, if_pos opnum, handle]
    exact .opened _
  · have denied : machine.mallocConnectHandle (parsed.samrRead read maxRespSz).samrStart.store
        (parsed.samrRead read maxRespSz).samrStart.pipe.id ≠ true := by
      rw [starts.id]
      exact granted
    obtain ⟨stream, ran⟩ := samrConnect5Return_denied denied starts.filled (by rw [starts.size]; omega)
    have method : samrMethodReturn machine (pduReqHdr write.payload).opnum = samrConnect5Return machine := by
      rw [opnum]
      rfl
    rw [← method] at ran
    exact accounted_refused accepted (by decide) ran rfl

private theorem accounted_open {ch : ConnectHandle} {stream : Stream}
    (accepted : SamrWritten machine server channel write read (.ok ()) parsed)
    (opnum : (pduReqHdr write.payload).opnum = openDomain ∨ (pduReqHdr write.payload).opnum = openUser)
    (room : 64 ≤ maxRespSz) (unrestricted : rpcRestrictedContext server.store.management.globalConf read.flags = false)
    (known : server.store.chTable.lookup (samrHandle write.payload) = some ch) (bound : ch.refcount.toNat + 1 < 2 ^ 32)
    (ran : samrMethodReturn machine (pduReqHdr write.payload).opnum (parsed.samrRead read maxRespSz).samrStart =
      (.ok (), { (parsed.samrRead read maxRespSz).samrStart.referred (samrHandle write.payload) ch with stream }))
    (filled : stream.Filled (headerSpace ++ samrHandle write.payload))
    (moved : (parsed.samrRead read maxRespSz).samrStart.stream.Moved stream) :
    Accounted server write (samrCall machine write read maxRespSz ⟨server, {}⟩) := by
  obtain ⟨starts, -, -⟩ := samrRead_starts maxRespSz accepted
  have other : (pduReqHdr write.payload).opnum ≠ connect5 := by
    rcases opnum with same | same <;> rw [same] <;> decide
  have length := samrHandle_length ((starts.parsed rfl).handle other).2
  obtain ⟨ended, payload⟩ := samrCall_done accepted unrestricted ran moved filled (by rw [length]; decide)
    (by rw [length]; exact Nat.le_trans (by decide) room)
  have table := (samrCall_table accepted ran).2
  refine ⟨fun _ => ?_, fun code stopped => absurd (ended.symm.trans stopped) nofun⟩
  generalize (samrCall machine write read maxRespSz ⟨server, {}⟩).2 = after at payload table ⊢
  have handle : samrHandle after.resp.payload = samrHandle write.payload := by
    rw [samrHandle, payload, List.take_left' length]
  have raised : (ch.refcount + 1).toNat = ch.refcount.toNat + 1 := by
    rw [UInt32.toNat_add, UInt32.toNat_one, Nat.mod_eq_of_lt bound]
  have counts : held after.server.store.chTable = Function.update (held server.store.chTable) (samrHandle write.payload)
      (some ((held server.store.chTable (samrHandle write.payload)).getD 0 + 1)) := by
    rw [table, held_of_lookup known, Option.getD_some, ← raised]
    exact starts.chTable ▸ held_replace (starts.chTable ▸ known) _
  rw [counts, handleEvents, if_neg other, if_pos opnum, handle]
  exact .opened _

private theorem accounted_close {ch : ConnectHandle}
    (accepted : SamrWritten machine server channel write read (.ok ()) parsed)
    (opnum : (pduReqHdr write.payload).opnum = close) (room : 64 ≤ maxRespSz)
    (unrestricted : rpcRestrictedContext server.store.management.globalConf read.flags = false)
    (known : server.store.chTable.lookup (samrHandle write.payload) = some ch) (positive : ch.refcount.toNat ≠ 0) :
    Accounted server write (samrCall machine write read maxRespSz ⟨server, {}⟩) := by
  obtain ⟨starts, -, -⟩ := samrRead_starts maxRespSz accepted
  have other : (pduReqHdr write.payload).opnum ≠ connect5 := by rw [opnum]; decide
  obtain ⟨stream, ran, filled, moved⟩ := samrCloseReturn_known ((starts.parsed rfl).handle other).1 (starts.chTable ▸ known)
    starts.filled (by rw [starts.size]; exact Nat.le_trans (by decide) room)
  have method : samrMethodReturn machine (pduReqHdr write.payload).opnum = samrCloseReturn machine := by
    rw [opnum]
    rfl
  rw [← method] at ran
  obtain ⟨ended, -⟩ := samrCall_done accepted unrestricted ran moved filled (by decide) (Nat.le_trans (by decide) room)
  have table := (samrCall_table accepted ran).2
  obtain ⟨rest, references⟩ := Nat.exists_eq_succ_of_ne_zero positive
  have counts : held (samrCall machine write read maxRespSz ⟨server, {}⟩).2.server.store.chTable =
      Function.update (held server.store.chTable) (samrHandle write.payload) (if rest = 0 then none else some rest) := by
    rw [table, ← starts.chTable]
    show held (if 1 < ch.refcount then _ else _) = _
    have more_iff : 1 < ch.refcount ↔ 1 < ch.refcount.toNat := UInt32.lt_iff_toNat_lt
    rcases Nat.eq_zero_or_pos rest with rfl | more
    · rw [if_neg (fun two => absurd (more_iff.mp two) (by omega)), if_pos rfl, held_erase]
    · have lowered : (ch.refcount - 1).toNat = rest := by
        rw [UInt32.toNat_sub_of_le _ _ (by rw [UInt32.le_iff_toNat_le, UInt32.toNat_one]; omega), UInt32.toNat_one]
        omega
      rw [if_pos (more_iff.mpr (by omega)), if_neg (by omega), held_replace (starts.chTable ▸ known), lowered]
  refine ⟨fun _ => ?_, fun code stopped => absurd (ended.symm.trans stopped) nofun⟩
  rw [counts, handleEvents, if_neg other, if_neg (by rw [opnum]; decide), if_pos opnum]
  exact .closed _ rest ((held_of_lookup known).trans (congrArg some references))

private theorem accounted_unknown (accepted : SamrWritten machine server channel write read (.ok ()) parsed)
    (opnum : (pduReqHdr write.payload).opnum ∈ [openDomain, openUser, close])
    (unknown : server.store.chTable.lookup (samrHandle write.payload) = none) :
    Accounted server write (samrCall machine write read maxRespSz ⟨server, {}⟩) := by
  obtain ⟨starts, -, -⟩ := samrRead_starts maxRespSz accepted
  have other : (pduReqHdr write.payload).opnum ≠ connect5 := by
    rintro same
    rw [same] at opnum
    exact absurd opnum (by decide)
  have missing := samrChLookup_unknown ((starts.parsed rfl).handle other).1 (starts.chTable ▸ unknown)
  refine accounted_refused accepted (show Status.badFid ≠ .ok by decide) ?_ rfl
  simp only [List.mem_cons, List.not_mem_nil, or_false] at opnum
  rcases opnum with same | same | same
  · rw [same]
    exact bind_stop missing
  · rw [same]
    exact bind_stop missing
  · rw [same]
    exact bind_stop missing

private theorem accounted_changing (accepted : SamrWritten machine server channel write read (.ok ()) parsed)
    (room : 64 ≤ maxRespSz) (counted : CountsHandles machine server write read)
    (positive : ∀ handle, held server.store.chTable handle ≠ some 0)
    (changes : (pduReqHdr write.payload).opnum ∈ [openDomain, openUser, close]) :
    Accounted server write (samrCall machine write read maxRespSz ⟨server, {}⟩) := by
  obtain ⟨starts, -, -⟩ := samrRead_starts maxRespSz accepted
  have other : (pduReqHdr write.payload).opnum ≠ connect5 := by
    intro same
    rw [same] at changes
    exact absurd changes (by decide)
  obtain ⟨named, long⟩ := (starts.parsed rfl).handle other
  cases known : server.store.chTable.lookup (samrHandle write.payload) with
  | none => exact accounted_unknown accepted changes known
  | some ch =>
    have unrestricted := counted.known changes (AList.lookup_isSome.mp (known ▸ rfl))
    have fits : headerSpace.length + (samrHandle write.payload).length ≤
        (parsed.samrRead read maxRespSz).samrStart.stream.payloadSz := by
      rw [starts.size, samrHandle_length long]
      exact Nat.le_trans (by decide) room
    have found := starts.chTable ▸ known
    simp only [List.mem_cons, List.not_mem_nil, or_false] at changes
    rcases changes with same | same | same
    · have bound := counted.bound (by rw [same]; decide) ch known
      obtain ⟨stream, ran, filled, moved⟩ := samrOpenDomainReturn_known named found starts.filled fits
      exact accounted_open accepted (.inl same) room unrestricted known bound (by rw [same]; exact ran) filled moved
    · have bound := counted.bound (by rw [same]; decide) ch known
      obtain ⟨user, record, has, live, uid⟩ := counted.user same ch known
      obtain ⟨stream, ran, filled, moved⟩ := samrOpenUserReturn_known named found has (starts.management ▸ live)
        (((starts.parsed rfl).rid same).trans uid.symm) starts.filled fits
      exact accounted_open accepted (.inr same) room unrestricted known bound (by rw [same]; exact ran) filled moved
    · refine accounted_close accepted same room unrestricted known fun zero => positive (samrHandle write.payload) ?_
      rw [held_of_lookup known, zero]

theorem samrCall_accounted (machine : Machine) (commands : SamrCommands write read) (room : 64 ≤ maxRespSz)
    (counted : CountsHandles machine server write read) (positive : ∀ handle, held server.store.chTable handle ≠ some 0) :
    Accounted server write (samrCall machine write read maxRespSz ⟨server, {}⟩) := by
  rcases samrCall_cases machine maxRespSz commands counted.whole counted.idle with
    ⟨-, refused, same⟩ | ⟨channel, outcome, parsed, written⟩
  · exact ⟨fun ended => absurd ended refused, fun _ _ => by rw [same]⟩
  by_cases changes : (pduReqHdr write.payload).opnum ∈ [connect5, openDomain, openUser, close]
  · have wrote := counted.accepted changes (AList.lookup_isSome.mp (written.found ▸ rfl))
    rw [rpcWriteRequest_idle written.found written.idle, written.ran] at wrote
    obtain rfl : outcome = .ok () := wrote
    rcases List.mem_cons.mp changes with connects | changes
    · obtain ⟨unrestricted, fresh⟩ := counted.connect connects
      exact accounted_connect written connects room unrestricted (fresh channel written.found)
    · exact accounted_changing written room counted positive changes
  · simp only [List.mem_cons, List.not_mem_nil, or_false, not_or] at changes
    obtain ⟨notConnect, notDomain, notUser, notClose⟩ := changes
    obtain ⟨starts, -, -⟩ := samrRead_starts maxRespSz written
    rcases ran : samrMethodReturn machine (pduReqHdr write.payload).opnum (parsed.samrRead read maxRespSz).samrStart with
      ⟨ended, done⟩
    have counts : held done.store.chTable = held server.store.chTable :=
      (samrMethodReturn_held notConnect notDomain notUser notClose).along ran (by rw [starts.chTable])
    have same := congrArg held (samrCall_table written ran).2 |>.trans counts
    refine ⟨fun _ => ?_, fun _ _ => same⟩
    rw [same, handleEvents, if_neg notConnect, if_neg (by simp [notDomain, notUser]), if_neg notClose]
    exact .kept

end

/-! Runs of calls. -/

/-- Calls on the pipes of a server whose table was empty, each with room for its reply,
and the log of what they returned. Whatever else the server does between them leaves the
table alone. -/
inductive SamrHistory (machine : Machine) (allowed : Server → Command → Command → Prop) : List HandleEvent → Server → Prop
  | start (server : Server) (empty : server.store.chTable = ∅) : SamrHistory machine allowed [] server
  | answered {log : List HandleEvent} {server : Server} {after : Exchange} (write read : Command) (maxRespSz : Nat)
      (earlier : SamrHistory machine allowed log server) (meets : allowed server write read)
      (commands : SamrCommands write read) (room : 64 ≤ maxRespSz)
      (ran : samrCall machine write read maxRespSz ⟨server, {}⟩ = (.ok (), after)) :
      SamrHistory machine allowed (log ++ handleEvents write after.resp) after.server
  | refused {log : List HandleEvent} {server : Server} {code : Status} {after : Exchange} (write read : Command)
      (maxRespSz : Nat) (earlier : SamrHistory machine allowed log server) (meets : allowed server write read)
      (commands : SamrCommands write read) (room : 64 ≤ maxRespSz)
      (ran : samrCall machine write read maxRespSz ⟨server, {}⟩ = (.stop code, after)) :
      SamrHistory machine allowed log after.server
  | elsewhere {log : List HandleEvent} {server after : Server} (earlier : SamrHistory machine allowed log server)
      (same : after.store.chTable = server.store.chTable) : SamrHistory machine allowed log after

theorem SamrHistory.balanced {machine : Machine} {log : List HandleEvent} {server : Server}
    (history : SamrHistory machine (CountsHandles machine) log server) : Balanced log (held server.store.chTable) := by
  induction history with
  | start server empty =>
    intro handle
    have none : held server.store.chTable handle = none := by rw [empty]; rfl
    rw [none]
    exact ⟨rfl, nofun⟩
  | answered write read maxRespSz _ meets commands room ran ih =>
    have accounted := samrCall_accounted machine commands room meets fun handle => (ih handle).2
    rw [ran] at accounted
    exact ih.moves (accounted.answered rfl)
  | refused write read maxRespSz _ meets commands room ran ih =>
    have accounted := samrCall_accounted machine commands room meets fun handle => (ih handle).2
    rw [ran] at accounted
    rw [accounted.refused _ rfl]
    exact ih
  | elsewhere _ same ih =>
    rw [same]
    exact ih

/-- In a run whose calls all find what they have to, a handle is valid as long as it was
returned more often than closed, and the entry counts by how much. A call that is refused
leaves every count as it was. -/
theorem handles_balanced (machine : Machine) (log : List HandleEvent) (server : Server)
    (history : SamrHistory machine (CountsHandles machine) log server) (handle : Handle) :
    (handle ∈ server.store.chTable ↔ log.count (.closed handle) < log.count (.opened handle)) ∧
      (held server.store.chTable handle).getD 0 = log.count (.opened handle) - log.count (.closed handle) ∧
      ∀ (write read : Command) (maxRespSz : Nat) (code : Status) (after : Exchange),
        CountsHandles machine server write read → SamrCommands write read → 64 ≤ maxRespSz →
        samrCall machine write read maxRespSz ⟨server, {}⟩ = (.stop code, after) →
        held after.server.store.chTable handle = held server.store.chTable handle := by
  have balanced := history.balanced
  refine ⟨balanced.valid_iff handle, ?_, fun write read maxRespSz code after meets commands room ran => ?_⟩
  · have sum := (balanced handle).1
    omega
  · have accounted := samrCall_accounted machine commands room meets fun handle => (balanced handle).2
    rw [ran] at accounted
    exact congrFun (accounted.refused code rfl) handle

namespace Scenario

def samrWrite (payload : List UInt8) : Command :=
  { handle := pipe, flags := Method.write ||| Method.samrInvoke, payload }

def samrRead : Command := { handle := pipe, flags := Method.read ||| Method.samrInvoke }

def samrConnect : List UInt8 := request 64 1 (int32 0 ++ int32 0 ++ int32 1 ++ int32 1 ++ int32 2)

def samrConnected : Handle := newHandle pipe

def samrOpenDomain : List UInt8 := request 7 2 samrConnected

def samrOpenUser : List UInt8 := request 34 3 (samrConnected ++ int32 0 ++ int32 1000)

def samrClose : List UInt8 := request 1 4 samrConnected

def samr (server : Server) (payload : List UInt8) : Outcome Status Unit × Exchange :=
  samrCall machine (samrWrite payload) samrRead 4080 ⟨server, {}⟩

def samrCalls (payloads : List (List UInt8)) : Server :=
  payloads.foldl (fun server payload => (samr server payload).2.server) server

theorem samr_commands {payload : List UInt8} (request : (pduHeader payload).ptype = Ptype.request) :
    SamrCommands (samrWrite payload) samrRead :=
  ⟨rfl, show service? (Method.write ||| Method.samrInvoke) = some .samr by decide, by decide, request⟩

theorem samr_answered {allowed : Server → Command → Command → Prop} {log events : List HandleEvent}
    (earlier : List (List UInt8)) (payload : List UInt8) (history : SamrHistory machine allowed log (samrCalls earlier))
    (meets : allowed (samrCalls earlier) (samrWrite payload) samrRead) (request : (pduHeader payload).ptype = Ptype.request)
    (ended : (samr (samrCalls earlier) payload).1 = .ok ())
    (told : handleEvents (samrWrite payload) (samr (samrCalls earlier) payload).2.resp = events) :
    SamrHistory machine allowed (log ++ events) (samrCalls (earlier ++ [payload])) := by
  have behind : samrCalls (earlier ++ [payload]) = (samr (samrCalls earlier) payload).2.server := by
    rw [samrCalls, List.foldl_append]
    rfl
  obtain ⟨after, ran⟩ := exists_of_ok ended
  rw [behind, ← told, samr, ran]
  exact .answered _ _ 4080 history meets (samr_commands request) (by decide) ran

theorem samr_refused {allowed : Server → Command → Command → Prop} {log : List HandleEvent} {code : Status}
    (earlier : List (List UInt8)) (payload : List UInt8) (history : SamrHistory machine allowed log (samrCalls earlier))
    (meets : allowed (samrCalls earlier) (samrWrite payload) samrRead) (request : (pduHeader payload).ptype = Ptype.request)
    (ended : (samr (samrCalls earlier) payload).1 = .stop code) :
    SamrHistory machine allowed log (samrCalls (earlier ++ [payload])) := by
  have behind : samrCalls (earlier ++ [payload]) = (samr (samrCalls earlier) payload).2.server := by
    rw [samrCalls, List.foldl_append]
    rfl
  have ran : samr (samrCalls earlier) payload = (.stop code, (samr (samrCalls earlier) payload).2) := by rw [← ended]
  rw [behind]
  exact .refused _ _ 4080 history meets (samr_commands request) (by decide) ran

theorem samrCalls_start {allowed : Server → Command → Command → Prop} : SamrHistory machine allowed [] (samrCalls []) :=
  .start server rfl

end Scenario

open Scenario in
/-- A connect, a domain opened with its handle, and one close. -/
theorem handles_balanced_domain :
    SamrHistory machine (CountsHandles machine) [.opened samrConnected, .opened samrConnected, .closed samrConnected]
      (samrCalls [samrConnect, samrOpenDomain, samrClose]) ∧
    samrConnected ∈ (samrCalls [samrConnect, samrOpenDomain, samrClose]).store.chTable := by
  have connected : SamrHistory machine (CountsHandles machine) [.opened samrConnected] (samrCalls [samrConnect]) :=
    samr_answered [] samrConnect samrCalls_start
      ⟨by decide +kernel, by decide +kernel, by decide +kernel, by decide +kernel, by decide +kernel, by decide +kernel,
        fun user => absurd user (by decide +kernel)⟩
      (by decide +kernel) (by decide +kernel) (by decide +kernel)
  have opened : SamrHistory machine (CountsHandles machine) [.opened samrConnected, .opened samrConnected]
      (samrCalls [samrConnect, samrOpenDomain]) :=
    samr_answered [samrConnect] samrOpenDomain connected
      ⟨by decide +kernel, by decide +kernel, by decide +kernel, by decide +kernel, by decide +kernel, by decide +kernel,
        fun user => absurd user (by decide +kernel)⟩
      (by decide +kernel) (by decide +kernel) (by decide +kernel)
  have closed : SamrHistory machine (CountsHandles machine) [.opened samrConnected, .opened samrConnected,
      .closed samrConnected] (samrCalls [samrConnect, samrOpenDomain, samrClose]) :=
    samr_answered [samrConnect, samrOpenDomain] samrClose opened
      ⟨by decide +kernel, by decide +kernel, by decide +kernel, by decide +kernel, by decide +kernel, by decide +kernel,
        fun user => absurd user (by decide +kernel)⟩
      (by decide +kernel) (by decide +kernel) (by decide +kernel)
  exact ⟨closed, (handles_balanced _ _ _ closed samrConnected).1.mpr (by decide)⟩

open Scenario in
/-- A user is opened with a handle that has none. The call is refused and counted, and the
one close of the one handle that was returned leaves it valid. -/
theorem handle_valid_behind_close :
    SamrHistory machine (fun _ _ _ => True) [.opened samrConnected, .closed samrConnected]
      (samrCalls [samrConnect, samrOpenUser, samrClose]) ∧
    samrConnected ∈ (samrCalls [samrConnect, samrOpenUser, samrClose]).store.chTable ∧
    (samr (samrCalls [samrConnect]) samrOpenUser).1 = .stop .badFid ∧
    held (samrCalls [samrConnect]).store.chTable samrConnected = some 1 ∧
    held (samrCalls [samrConnect, samrOpenUser]).store.chTable samrConnected = some 2 := by
  have refused : (samr (samrCalls [samrConnect]) samrOpenUser).1 = .stop .badFid := by decide +kernel
  have connected : SamrHistory machine (fun _ _ _ => True) [.opened samrConnected] (samrCalls [samrConnect]) :=
    samr_answered [] samrConnect samrCalls_start trivial (by decide +kernel) (by decide +kernel) (by decide +kernel)
  have opened : SamrHistory machine (fun _ _ _ => True) [.opened samrConnected] (samrCalls [samrConnect, samrOpenUser]) :=
    samr_refused [samrConnect] samrOpenUser connected trivial (by decide +kernel) refused
  have closed : SamrHistory machine (fun _ _ _ => True) [.opened samrConnected, .closed samrConnected]
      (samrCalls [samrConnect, samrOpenUser, samrClose]) :=
    samr_answered [samrConnect, samrOpenUser] samrClose opened trivial (by decide +kernel) (by decide +kernel)
      (by decide +kernel)
  exact ⟨closed, by decide +kernel, refused, by decide +kernel, by decide +kernel⟩

end KsmbdTools.Rpc
