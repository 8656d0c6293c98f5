import KsmbdTools.Management.Proofs.Histories

/-! Session capacity. A session takes one unit when the capacity check lets it
in and gives one back when its last connection goes. The paths that bind without
the check give back what they never took. -/

namespace KsmbdTools.Management
variable (platform : Platform)

namespace HashTable
variable {κ ν : Type} [DecidableEq κ]

theorem size_insert {table : HashTable κ ν} {key : κ} (fresh : table.lookup key = none) (value : ν) :
    size (table.insert key value) = size table + 1 := by
  rw [size, AList.entries_insert_of_notMem (AList.lookup_eq_none.mp fresh), List.length_cons, size]

theorem size_erase {table : HashTable κ ν} {key : κ} {value : ν} (known : table.lookup key = some value) :
    size (table.erase key) + 1 = size table := by
  have member : key ∈ table.entries.keys := AList.lookup_isSome.mp (by simp [known])
  obtain ⟨held, front, back, -, split, erased⟩ := List.exists_of_kerase member
  change (List.kerase key table.entries).length + 1 = table.entries.length
  rw [erased, split]
  simp only [List.length_append, List.length_cons]
  omega

end HashTable

/-- A connect that would open a session goes through the capacity check, and the
session can be allocated. -/
def PaysForSession (state : State) : Request → Prop
  | .treeConnect memory req => ∀ share record user, Admitted platform state req share record user →
      state.sessionsTable.lookup req.sessionId = none →
        memory.sess = true ∧ skipsCapacityCheck state req record = false
  | _ => True

theorem paysForSession_allocates (state : State) (request : Request) (pays : PaysForSession platform state request) :
    Allocates platform state request := by
  cases request with
  | treeConnect memory req => exact fun share record user admitted fresh => (pays share record user admitted fresh).1
  | login | logout | treeDisconnect | reload => trivial

namespace State

/-- Capacity left and sessions open add up to `capacity`. -/
structure CapacityConserved (state : State) (capacity : Int) : Prop where
  total : state.globalConf.sessionsCap + HashTable.size state.sessionsTable = capacity
  left : 0 ≤ state.globalConf.sessionsCap

variable {platform}

theorem CapacityConserved.connect {state after : State} {capacity : Int} {memory : Memory} {req : TreeConnectRequest}
    {resp : TreeConnectResponse} (conserved : state.CapacityConserved capacity)
    (pays : PaysForSession platform state (.treeConnect memory req))
    (effect : ConnectEffect platform state memory req after resp) : after.CapacityConserved capacity := by
  cases effect with
  | refused status only users =>
    exact ⟨by rw [only.globalConf, only.sessionsTable]; exact conserved.total, by rw [only.globalConf]; exact conserved.left⟩
  | full allocatedConn accepted known found full => exact ⟨conserved.total, conserved.left⟩
  | joined user flags status admitted session only users =>
    exact ⟨by rw [only.globalConf, only.sessionsTable]; exact conserved.total, by rw [only.globalConf]; exact conserved.left⟩
  | @opened share record after resp user flags status admitted fresh capacityLeft only users =>
    have checked := (pays share record user admitted fresh).2
    have enough := capacityLeft checked
    have spent : after.globalConf.sessionsCap = state.globalConf.sessionsCap - 1 := by
      rw [only.globalConf]
      simp [withNewSession, spendCapacity, checked, withShare]
    have grown : HashTable.size after.sessionsTable = HashTable.size state.sessionsTable + 1 := by
      rw [only.sessionsTable]
      exact HashTable.size_insert fresh _
    have total := conserved.total
    exact ⟨by rw [spent, grown]; push_cast; omega, by omega⟩
  | unallocated failed status admitted fresh =>
    rw [(pays _ _ _ admitted fresh).1] at failed
    cases failed

theorem CapacityConserved.disconnect {state after : State} {capacity : Int} {sessId connId : UInt64}
    (conserved : state.CapacityConserved capacity) (effect : DisconnectEffect state sessId connId after) :
    after.CapacityConserved capacity := by
  have total := conserved.total
  have left := conserved.left
  cases effect with
  | unchanged absent => exact conserved
  | left session found split first matched remaining refers located dropped globalConf sessions sessionsTable =>
    exact ⟨by rw [globalConf, sessionsTable]; exact total, by rw [globalConf]; exact left⟩
  | closed session found only matched refers located dropped shares sharesTable user globalConf sessions sessionsTable =>
    have shrunk := HashTable.size_erase session
    rw [← sessionsTable] at shrunk
    exact ⟨by rw [globalConf]; push_cast; omega, by rw [globalConf]; push_cast; omega⟩

/-- From an empty session table, the capacity left and the sessions open add up to
the configured capacity in every state that a history of paying tree requests
reaches. -/
theorem sessions_cap_conserved (start : State) (capacity : Int) (retries : Nat) (requests : List Request)
    (consistent : Consistent platform start) (empty : start.sessionsTable = ∅)
    (configured : start.globalConf.sessionsCap = capacity) (positive : 1 ≤ capacity)
    (trees : ∀ request ∈ requests, request.isTree = true)
    (pays : start.Meets platform (PaysForSession platform) (retries + 1) requests) :
    ∃ final, start.run platform (retries + 1) requests = some final ∧
      final.globalConf.sessionsCap + HashTable.size final.sessionsTable = capacity ∧
      (HashTable.size final.sessionsTable : Int) ≤ capacity ∧ final.globalConf.sessionsCap ≤ capacity := by
  have conserved : start.CapacityConserved capacity := by
    refine ⟨?_, by omega⟩
    rw [configured, empty]
    simp [HashTable.size]
  obtain ⟨final, ran, -, kept⟩ := run_trees (PaysForSession platform) (fun state => state.CapacityConserved capacity) retries
    (paysForSession_allocates platform)
    (fun _ _ _ _ _ _ conserved paid effect => CapacityConserved.connect conserved paid effect)
    (fun _ _ _ _ _ conserved effect => CapacityConserved.disconnect conserved effect)
    requests start consistent conserved trees pays
  have total := kept.total
  have left := kept.left
  exact ⟨final, ran, total, by omega, by omega⟩

/-- A share with a `valid users` list lets its user in without the check. The
capacity of two has become three once the only session is gone again. -/
theorem sessions_cap_grows :
    ∃ final, (Scenario.loaded { name := Scenario.shareName, validUsers := some [Scenario.account] }).run
        Scenario.plainPlatform 1 [.treeConnect {} (Scenario.connect 1 1), .treeDisconnect 1 1] = some final ∧
      (Scenario.loaded { name := Scenario.shareName, validUsers := some [Scenario.account] }).globalConf.sessionsCap = 2 ∧
      (Scenario.loaded { name := Scenario.shareName, validUsers := some [Scenario.account] }).sessionsTable = ∅ ∧
      final.globalConf.sessionsCap = 3 ∧ HashTable.size final.sessionsTable = 0 := by
  have reached : ((Scenario.loaded { name := Scenario.shareName, validUsers := some [Scenario.account] }).run
      Scenario.plainPlatform 1 [.treeConnect {} (Scenario.connect 1 1), .treeDisconnect 1 1]).map
        (fun final => (final.globalConf.sessionsCap, HashTable.size final.sessionsTable)) = some (3, 0) := by decide +kernel
  obtain ⟨final, ran, same⟩ := Option.map_eq_some_iff.mp reached
  exact ⟨final, ran, by decide +kernel, AList.ext (by decide +kernel), congrArg Prod.fst same, congrArg Prod.snd same⟩

private theorem scenario_pays : (Scenario.loaded { name := Scenario.shareName }).Meets Scenario.plainPlatform
    (PaysForSession Scenario.plainPlatform) 1 [.treeConnect {} (Scenario.connect 1 1), .treeDisconnect 1 1] := by
  refine ⟨?_, fun after answer served => ⟨trivial, fun _ _ _ => trivial⟩⟩
  intro share record user admitted fresh
  refine ⟨rfl, ?_⟩
  have only : (Scenario.loaded { name := Scenario.shareName }).sharesTable.lookup
      (shmCasefoldShareName Scenario.plainPlatform (Scenario.connect 1 1).share.str) = some ⟨0⟩ := by decide +kernel
  have same : share = ⟨0⟩ := Option.some.inj (admitted.known.symm.trans only)
  have checks : ((Scenario.loaded { name := Scenario.shareName }).shares.get? ⟨0⟩).map
      (skipsCapacityCheck (Scenario.loaded { name := Scenario.shareName }) (Scenario.connect 1 1)) = some false := by
    decide +kernel
  rw [same] at admitted
  rw [admitted.found] at checks
  exact Option.some.inj checks

theorem sessions_cap_conserved_loaded :
    ∃ final, (Scenario.loaded { name := Scenario.shareName }).run Scenario.plainPlatform 1
        [.treeConnect {} (Scenario.connect 1 1), .treeDisconnect 1 1] = some final ∧
      final.globalConf.sessionsCap + HashTable.size final.sessionsTable = 2 ∧
      (HashTable.size final.sessionsTable : Int) ≤ 2 ∧ final.globalConf.sessionsCap ≤ 2 :=
  sessions_cap_conserved (Scenario.loaded { name := Scenario.shareName }) 2 0 _ (Scenario.loaded_consistent _)
    (AList.ext (by decide +kernel)) (by decide +kernel) (by decide) (by simp [Request.isTree]) scenario_pays

end State
end KsmbdTools.Management
