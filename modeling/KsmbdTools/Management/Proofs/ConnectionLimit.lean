import KsmbdTools.Management.Proofs.Histories

/-! The connection count of a share. The exit of a refused connect closes a
connection whether or not one was counted, so a refusal for lack of room makes
room. -/

namespace KsmbdTools.Management
variable (platform : Platform)

/-- A connect finds room on the share it names, and the session it needs can be
allocated. -/
def FindsRoom (state : State) : Request → Prop
  | .treeConnect memory req =>
    (memory.conn = true → refuseRequest state.globalConf req = none → ∀ share record,
      state.sharesTable.lookup (shmCasefoldShareName platform req.share.str) = some share →
        state.shares.get? share = some record → ¬shareFull record) ∧
    ∀ share record user, Admitted platform state req share record user →
      state.sessionsTable.lookup req.sessionId = none → memory.sess = true
  | _ => True

theorem findsRoom_allocates (state : State) (request : Request) (room : FindsRoom platform state request) :
    Allocates platform state request := by
  cases request with
  | treeConnect memory req => exact room.2
  | login | logout | treeDisconnect | reload => trivial

namespace State
variable {platform}

/-- Every share counts its live connections, and no more than it allows. -/
def ConnectionsExact (state : State) : Prop :=
  ∀ share record, state.shares.get? share = some record → record.numConnections = state.connections share ∧
    (record.maxConnections ≠ 0 → state.connections share ≤ record.maxConnections)

theorem ConnectionsExact.attach {state after : State} {share : Ref Share} {record : Share}
    (holds : state.ConnectionsExact) (found : state.shares.get? share = some record) (room : ¬shareFull record)
    (shares : after.shares = state.shares.modify share bindShare)
    (connections : ∀ other, after.connections other = state.connections other + if other = share then 1 else 0) :
    after.ConnectionsExact := by
  intro other current seen
  rw [shares, Heap.get?_modify] at seen
  have grown := connections other
  split at seen
  next same =>
    subst other
    obtain ⟨counted, limit⟩ := holds share record found
    rw [found] at seen
    cases seen
    simp only [↓reduceIte] at grown
    refine ⟨by simp only [bindShare, openShare]; omega, fun limited => ?_⟩
    have below : record.numConnections < record.maxConnections := by
      by_contra full
      exact room ⟨limited, by omega⟩
    change (after.connections share : Int) ≤ record.maxConnections
    omega
  next different =>
    simp only [different, ↓reduceIte, Nat.add_zero] at grown
    rw [grown]
    exact holds other current seen

theorem ConnectionsExact.detach {state after : State} {share : Ref Share} {held : Share}
    (holds : state.ConnectionsExact) (located : state.shares.get? share = some held)
    (shares : after.shares = if held.refCount = 1 then state.shares.free share else state.shares.modify share dropShare)
    (connections : ∀ other, after.connections other + (if other = share then 1 else 0) = state.connections other) :
    after.ConnectionsExact := by
  intro other current seen
  have lost := connections other
  by_cases same : other = share
  · subst other
    obtain ⟨counted, limit⟩ := holds share held located
    simp only [↓reduceIte] at lost
    rw [shares] at seen
    split at seen
    · simp at seen
    · rw [Heap.get?_modify_self, located] at seen
      cases seen
      have positive : 0 < held.numConnections := by omega
      simp only [dropShare, closeConnection, positive, ↓reduceIte]
      exact ⟨by omega, fun limited => by have := limit limited; omega⟩
  · have kept : state.shares.get? other = some current := by
      rw [shares] at seen
      split at seen
      · rwa [Heap.get?_free_ne same] at seen
      · rwa [Heap.get?_modify_ne same] at seen
    simp only [same, ↓reduceIte, Nat.add_zero] at lost
    rw [lost]
    exact holds other current kept

theorem ConnectionsExact.connect {state after : State} {memory : Memory} {req : TreeConnectRequest}
    {resp : TreeConnectResponse} (consistent : Consistent platform state) (holds : state.ConnectionsExact)
    (room : FindsRoom platform state (.treeConnect memory req))
    (effect : ConnectEffect platform state memory req after resp) : after.ConnectionsExact := by
  cases effect with
  | refused status only users =>
    simp only [ConnectionsExact, connections, only.shares, only.sessions]
    exact holds
  | full allocated accepted known found full => exact absurd full (room.1 allocated accepted _ _ known found)
  | joined user flags status admitted session only users =>
    obtain ⟨old, seen, -⟩ := consistent.sessions.tabled _ _ session
    exact holds.attach admitted.found admitted.room only.shares (connections_joined seen only)
  | opened user flags status admitted fresh capacity only users =>
    exact holds.attach admitted.found admitted.room only.shares (connections_opened only)
  | unallocated failed status admitted fresh =>
    rw [room.2 _ _ _ admitted fresh] at failed
    cases failed

theorem ConnectionsExact.disconnect {state after : State} {sessId connId : UInt64} (holds : state.ConnectionsExact)
    (effect : DisconnectEffect state sessId connId after) : after.ConnectionsExact := by
  cases effect with
  | unchanged absent => exact holds
  | left session found split first matched remaining refers located dropped globalConf sessions sessionsTable =>
    exact holds.detach located dropped.shares (connections_left found split refers sessions)
  | closed session found only matched refers located dropped shares sharesTable user globalConf sessions sessionsTable =>
    exact holds.detach located (shares.trans dropped.shares) (connections_closed found only refers sessions)

theorem refused_shares {state after : State} {memory : Memory} {req : TreeConnectRequest} {resp : TreeConnectResponse}
    (room : FindsRoom platform state (.treeConnect memory req))
    (effect : ConnectEffect platform state memory req after resp) (refused : resp.status ≠ .ok) :
    after.shares = state.shares := by
  cases effect with
  | refused status only users => exact only.shares
  | full allocated accepted known found full => exact absurd full (room.1 allocated accepted _ _ known found)
  | joined user flags status admitted session only users => exact absurd status refused
  | opened user flags status admitted fresh capacity only users => exact absurd status refused
  | unallocated failed status admitted fresh =>
    rw [room.2 _ _ _ admitted fresh] at failed
    cases failed

/-- Every share counts its live connections and keeps to its limit in every state
that a history of tree requests reaches, if each connect finds room. From there a
refused connect that finds room too leaves every count as it was. -/
theorem connection_limit_exact (start : State) (retries : Nat) (requests : List Request)
    (consistent : Consistent platform start) (empty : start.sessionsTable = ∅)
    (unused : ∀ share record, start.shares.get? share = some record → record.numConnections = 0 ∧ 0 ≤ record.maxConnections)
    (trees : ∀ request ∈ requests, request.isTree = true)
    (room : start.Meets platform (FindsRoom platform) (retries + 1) requests) :
    ∃ final, start.run platform (retries + 1) requests = some final ∧
      (∀ share record, final.shares.get? share = some record → record.numConnections = final.connections share ∧
        (record.maxConnections ≠ 0 → final.connections share ≤ record.maxConnections)) ∧
      ∀ memory req, FindsRoom platform final (.treeConnect memory req) →
        ∃ after resp, final.tcmHandleTreeConnect platform memory (retries + 1) req = some (after, resp) ∧
          (resp.status ≠ .ok → ∀ share,
            (after.shares.get? share).map (·.numConnections) = (final.shares.get? share).map (·.numConnections)) := by
  have holds : start.ConnectionsExact := by
    intro share record found
    obtain ⟨none, nonnegative⟩ := unused share record found
    rw [connections_empty consistent.sessions empty share]
    exact ⟨none, fun _ => nonnegative⟩
  obtain ⟨final, ran, sound, kept⟩ := run_trees (FindsRoom platform) ConnectionsExact retries
    (findsRoom_allocates platform)
    (fun _ _ _ _ _ consistent holds room effect => ConnectionsExact.connect consistent holds room effect)
    (fun _ _ _ _ _ holds effect => ConnectionsExact.disconnect holds effect)
    requests start consistent holds trees room
  refine ⟨final, ran, kept, fun memory req room => ?_⟩
  obtain ⟨after, resp, answered, effect⟩ := tcmHandleTreeConnect_effect platform sound.shares sound.sessions
    memory req retries
  exact ⟨after, resp, answered, fun refused share => by rw [refused_shares room effect refused]⟩

/-- A share for one connection. The second connect is refused and uncounts the
first, so the third is let in. -/
theorem connection_limit_exceeded :
    ∃ share refused exceeded record,
      (Scenario.loaded { name := Scenario.shareName, maxConnections := 1 }).run Scenario.plainPlatform 1
        [.treeConnect {} (Scenario.connect 1 1), .treeConnect {} (Scenario.connect 2 1)] = some refused ∧
      (refused.shares.get? share).map (·.numConnections) = some 0 ∧ refused.connections share = 1 ∧
      refused.run Scenario.plainPlatform 1 [.treeConnect {} (Scenario.connect 3 1)] = some exceeded ∧
      exceeded.shares.get? share = some record ∧ record.maxConnections = 1 ∧ exceeded.connections share = 2 := by
  have reached : ((Scenario.loaded { name := Scenario.shareName, maxConnections := 1 }).run Scenario.plainPlatform 1
      [.treeConnect {} (Scenario.connect 1 1), .treeConnect {} (Scenario.connect 2 1)]).map (fun refused =>
        ((refused.shares.get? ⟨0⟩).map (·.numConnections), refused.connections ⟨0⟩,
          (refused.run Scenario.plainPlatform 1 [.treeConnect {} (Scenario.connect 3 1)]).map fun exceeded =>
            ((exceeded.shares.get? ⟨0⟩).map (·.maxConnections), exceeded.connections ⟨0⟩))) =
      some (some 0, 1, some (some 1, 2)) := by decide +kernel
  obtain ⟨refused, ran, same⟩ := Option.map_eq_some_iff.mp reached
  simp only [Prod.mk.injEq] at same
  obtain ⟨count, live, later⟩ := same
  obtain ⟨exceeded, again, same⟩ := Option.map_eq_some_iff.mp later
  simp only [Prod.mk.injEq] at same
  obtain ⟨record, found, limit⟩ := Option.map_eq_some_iff.mp same.1
  exact ⟨⟨0⟩, refused, exceeded, record, ran, count, live, again, found, limit, same.2⟩

private theorem scenario_finds_room : (Scenario.loaded { name := Scenario.shareName, maxConnections := 1 }).Meets
    Scenario.plainPlatform (FindsRoom Scenario.plainPlatform) 1
    [.treeConnect {} (Scenario.connect 1 1), .treeDisconnect 1 1] := by
  refine ⟨⟨?_, fun _ _ _ _ _ => rfl⟩, fun after answer served => ⟨trivial, fun _ _ _ => trivial⟩⟩
  intro allocated accepted share record known found
  have only : (Scenario.loaded { name := Scenario.shareName, maxConnections := 1 }).sharesTable.lookup
      (shmCasefoldShareName Scenario.plainPlatform (Scenario.connect 1 1).share.str) = some ⟨0⟩ := by decide +kernel
  have roomy : ((Scenario.loaded { name := Scenario.shareName, maxConnections := 1 }).shares.get? ⟨0⟩).map
      (fun record => decide (shareFull record)) = some false := by decide +kernel
  rw [Option.some.inj (known.symm.trans only)] at found
  rw [found] at roomy
  exact of_decide_eq_false (Option.some.inj roomy)

private theorem scenario_unused (share : Ref Share) (record : Share)
    (found : (Scenario.loaded { name := Scenario.shareName, maxConnections := 1 }).shares.get? share = some record) :
    record.numConnections = 0 ∧ 0 ≤ record.maxConnections := by
  have every : (Scenario.loaded { name := Scenario.shareName, maxConnections := 1 }).shares.cells.all (fun cell =>
      cell.all fun record => decide (record.numConnections = 0 ∧ 0 ≤ record.maxConnections)) = true := by decide +kernel
  have held := List.all_eq_true.mp every (some record) (List.mem_of_getElem? (Heap.get?_cell found))
  exact of_decide_eq_true held

theorem connection_limit_exact_loaded :
    ∃ final, (Scenario.loaded { name := Scenario.shareName, maxConnections := 1 }).run Scenario.plainPlatform 1
        [.treeConnect {} (Scenario.connect 1 1), .treeDisconnect 1 1] = some final ∧
      ∀ share record, final.shares.get? share = some record → record.numConnections = final.connections share ∧
        (record.maxConnections ≠ 0 → final.connections share ≤ record.maxConnections) := by
  obtain ⟨final, ran, counted, -⟩ :=
    connection_limit_exact (Scenario.loaded { name := Scenario.shareName, maxConnections := 1 }) 0 _
      (Scenario.loaded_consistent _) (AList.ext (by decide +kernel)) scenario_unused (by simp [Request.isTree])
      scenario_finds_room
  exact ⟨final, ran, counted⟩

end State
end KsmbdTools.Management
