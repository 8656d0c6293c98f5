import KsmbdTools.Management.Race
import KsmbdTools.Management.Proofs.Histories

/-! Two first connects to one session converge when one of them inserts its session
before the other looks. When both have looked, the second to insert puts the
session of the first into the table again and destroys it. -/

namespace KsmbdTools.Management
variable {platform : Platform}

namespace State

theorem sharesKeep_sessionsTable : SharesKeep fun before after => after.sessionsTable = before.sessionsTable :=
  ⟨fun _ => rfl, fun one two => two.trans one, fun state user => (state.putUser_only user).sessionsTable, fun _ _ _ => rfl⟩

theorem killKsmbdSession_gone (state : State) (sess : Ref Session) :
    (state.killKsmbdSession platform sess).sessionsTable = state.sessionsTable ∧
      (state.killKsmbdSession platform sess).sessions.get? sess = none := by
  unfold killKsmbdSession
  split
  next missing => exact ⟨rfl, missing⟩
  next record found =>
    have freed := sharesKeep_sessionsTable.foldl state (@SharesKeep.tcmTreeConnFree platform _ sharesKeep_sessionsTable)
      record.treeConns
    refine ⟨?_, Heap.get?_free_self _ _⟩
    exact (putKsmbdUser_only _ record.user).sessionsTable.trans freed

end State

namespace Call
variable {call : Call} {id : UInt64} {state : State} {sess : Ref Session} {record : Session}

theorem advance_lookup_known (known : state.sessionsTable.lookup id = some sess)
    (found : state.sessions.get? sess = some record) (counted : record.refCounter ≠ 0) :
    call.advance platform id state .lookup =
      (state.withSession sess fun record => { record with refCounter := record.refCounter + 1 }, .link sess) := by
  simp [advance, State.smLookupSession, known, State.getSession, found, counted, State.withSession]

theorem advance_lookup_unknown (unknown : state.sessionsTable.lookup id = none) :
    call.advance platform id state .lookup =
      if call.allocates then
        ((state.newKsmbdSession id call.user).1, .insert (state.newKsmbdSession id call.user).2)
      else (state, .returned false) := by
  cases allocated : call.allocates <;> simp [advance, State.smLookupSession_none unknown, allocated]

theorem advance_insert_new (unknown : state.sessionsTable.lookup id = none) :
    call.advance platform id state (.insert sess) =
      ({ state with sessionsTable := state.sessionsTable.insert id sess }, .link sess) := by
  have absent : id ∉ state.sessionsTable := AList.lookup_eq_none.mp unknown
  simp [advance, State.insertSession, State.smLookupSession_none unknown, HashTable.add, absent]

variable (platform) in
theorem advance_insert_again (call : Call) (fresh : Ref Session) (known : state.sessionsTable.lookup id = some sess)
    (found : state.sessions.get? sess = some record) (counted : record.refCounter ≠ 0) :
    (call.advance platform id state (.insert fresh)).1.sessionsTable.lookup id = some sess ∧
      (call.advance platform id state (.insert fresh)).1.sessions.get? sess = none := by
  let raised := state.withSession sess fun record => { record with refCounter := record.refCounter + 1 }
  have table : (raised.killKsmbdSession platform fresh).sessionsTable = state.sessionsTable :=
    (State.killKsmbdSession_gone raised fresh).1
  have present : id ∈ (raised.killKsmbdSession platform fresh).sessionsTable := by
    rw [table]
    exact AList.lookup_isSome.mp (by simp [known])
  have looked : state.smLookupSession id = some (raised, some sess) := by
    simp [State.smLookupSession, known, State.getSession, found, counted, raised, State.withSession]
  have advanced : call.advance platform id state (.insert fresh) =
      (({ raised.killKsmbdSession platform fresh with sessionsTable :=
        (raised.killKsmbdSession platform fresh).sessionsTable.insert id sess }).killKsmbdSession platform sess,
          .lookup) := by
    simp [advance, State.insertSession, looked, HashTable.add, present]
  rw [advanced]
  refine ⟨?_, (State.killKsmbdSession_gone _ sess).2⟩
  rw [(State.killKsmbdSession_gone _ sess).1]
  exact AList.lookup_insert _

theorem advance_link (found : state.sessions.get? sess = some record) :
    call.advance platform id state (.link sess) = (state.linkTreeConn sess call.conn, .returned true) := by
  simp [advance, found]

theorem advance_returned (ok : Bool) : call.advance platform id state (.returned ok) = (state, .returned ok) := rfl

/-- Alone, a call comes to what `sm_handle_tree_connect` as a whole computes. -/
theorem alone_smHandleTreeConnect (sound : SessionsSound state) (call : Call) (id : UInt64) (retries : Nat) :
    ∃ after ok, state.smHandleTreeConnect platform { sess := call.allocates } id call.user call.conn (retries + 1) =
        some (after, ok) ∧ call.alone platform id 3 state .lookup = (after, .returned ok) := by
  cases known : state.sessionsTable.lookup id with
  | some sess =>
    obtain ⟨record, found, -⟩ := sound.tabled id sess known
    have positive := sound.positive found
    have counted : record.refCounter ≠ 0 := by omega
    refine ⟨_, true, State.smHandleTreeConnect_known platform sound known _ _ _ retries, ?_⟩
    have raised : (state.withSession sess fun record =>
        { record with refCounter := record.refCounter + 1 }).sessions.get? sess =
          some { record with refCounter := record.refCounter + 1 } := by simp [State.withSession, found]
    simp only [alone, advance_lookup_known known found counted, advance_link raised, advance_returned]
    simp only [State.linkTreeConn, State.withSession, Heap.modify_modify]
    rfl
  | none =>
    cases allocated : call.allocates with
    | false =>
      refine ⟨_, false, State.smHandleTreeConnect_unallocated platform known rfl _ _ retries, ?_⟩
      simp [alone, advance_lookup_unknown known, allocated, advance_returned]
    | true =>
      refine ⟨_, true, State.smHandleTreeConnect_unknown platform known rfl _ _ retries, ?_⟩
      have made : (state.newKsmbdSession id call.user).1.sessionsTable.lookup id = none := known
      simp only [alone, advance_lookup_unknown known, allocated, ↓reduceIte, advance_insert_new made]
      rw [advance_link (Heap.get?_alloc_new state.sessions _)]
      simp only [State.linkTreeConn, State.newKsmbdSession, Heap.modify_alloc, State.withNewSession]
      rfl

/-- On a session that is new, and on one that is known. -/
theorem alone_both_connects :
    (∃ after ok, ({} : State).smHandleTreeConnect Scenario.plainPlatform { sess := true } 1 none {} 1 = some (after, ok) ∧
      Call.alone Scenario.plainPlatform ⟨none, {}, true⟩ 1 3 {} .lookup = (after, .returned ok)) ∧
    ∃ after ok, (({} : State).withNewSession 1 none {}).smHandleTreeConnect Scenario.plainPlatform { sess := true } 1
        none {} 1 = some (after, ok) ∧
      Call.alone Scenario.plainPlatform ⟨none, {}, true⟩ 1 3 (({} : State).withNewSession 1 none {}) .lookup =
        (after, .returned ok) := by
  have sound : SessionsSound ({} : State) := (Consistent.initial Scenario.plainPlatform {}).sessions
  exact ⟨alone_smHandleTreeConnect sound ⟨none, {}, true⟩ 1 0,
    alone_smHandleTreeConnect (sound.openNew rfl none {}) ⟨none, {}, true⟩ 1 0⟩

end Call

namespace Race
variable {id : UInt64} {calls : Caller → Call}

theorem run_cons (race : Race) (who : Caller) (schedule : List Caller) :
    race.run platform id calls (who :: schedule) = (race.step platform id calls who).run platform id calls schedule := rfl

theorem step_eq {race : Race} {who : Caller} {phase later : Phase} {after : State} (stands : race.phase who = phase)
    (advanced : (calls who).advance platform id race.state phase = (after, later)) :
    race.step platform id calls who = ⟨after, Function.update race.phase who later⟩ := by
  simp only [step, stands, advanced]

theorem step_other {race : Race} {who other : Caller} (different : other ≠ who) :
    (race.step platform id calls who).phase other = race.phase other := Function.update_of_ne different _ _

theorem run_returned {who : Caller} {ok : Bool} (schedule : List Caller) (race : Race)
    (returned : race.phase who = .returned ok) : (race.run platform id calls schedule).phase who = .returned ok := by
  induction schedule generalizing race with
  | nil => exact returned
  | cons turn schedule ih =>
    apply ih
    by_cases same : turn = who
    · rw [same, step_eq returned (Call.advance_returned ok)]
      exact Function.update_self _ _ _
    · exact (step_other (Ne.symm same)).trans returned

def linked (calls : Caller → Call) (race : Race) : List TreeConn :=
  (if race.phase .first = .returned true then [(calls .first).conn] else []) ++
    if race.phase .second = .returned true then [(calls .second).conn] else []

/-- One call has inserted its session before the other looked. -/
structure Won (id : UInt64) (calls : Caller → Call) (sess : Ref Session) (race : Race) : Prop where
  inserted : race.state.sessionsTable.lookup id = some sess
  tabled : ∀ other known, race.state.sessionsTable.lookup other = some known → race.state.sessions.Live known
  session : ∃ record, race.state.sessions.get? sess = some record ∧ 0 < record.refCounter ∧
    record.treeConns.Perm (race.linked calls)
  phases : ∀ who, race.phase who = .lookup ∨ race.phase who = .link sess ∨ race.phase who = .returned true
  only : ∀ other record, race.state.sessions.get? other = some record → record.id = id → other = sess

namespace Won
variable {sess : Ref Session} {race : Race}

theorem sound (won : Won id calls sess race) : race.Sound := by
  refine ⟨won.tabled, fun who held holds => ?_⟩
  obtain ⟨record, found, -⟩ := won.session
  rcases won.phases who with phase | phase | phase <;> rw [phase] at holds <;> cases holds
  exact ⟨record, found⟩

private theorem change {after : Race} {f : Session → Session} (won : Won id calls sess race)
    (table : after.state.sessionsTable = race.state.sessionsTable)
    (sessions : after.state.sessions = race.state.sessions.modify sess f)
    (counts : ∀ record, 0 < record.refCounter → 0 < (f record).refCounter)
    (conns : ∀ record, record.treeConns.Perm (race.linked calls) → (f record).treeConns.Perm (after.linked calls))
    (phases : ∀ who, after.phase who = .lookup ∨ after.phase who = .link sess ∨ after.phase who = .returned true) :
    Won id calls sess after := by
  obtain ⟨record, found, positive, perm⟩ := won.session
  refine ⟨table ▸ won.inserted, fun other known listed => ?_, ⟨f record, ?_, counts record positive, conns record perm⟩,
    phases, fun other current seen named => ?_⟩
  · obtain ⟨old, seen⟩ := won.tabled other known (table ▸ listed)
    rw [sessions]
    by_cases same : known = sess
    · exact ⟨f old, by rw [same] at seen ⊢; simp [seen]⟩
    · exact ⟨old, by rw [Heap.get?_modify_ne same]; exact seen⟩
  · rw [sessions]
    simp [found]
  · rw [sessions, Heap.get?_modify] at seen
    split at seen
    next same => exact same
    · exact won.only other current seen named

theorem step (won : Won id calls sess race) (who : Caller) : Won id calls sess (race.step platform id calls who) := by
  obtain ⟨record, found, positive, -⟩ := won.session
  have later (phase : Phase) (stands : phase = .link sess ∨ phase = .returned true) (other : Caller) :
      Function.update race.phase who phase other = .lookup ∨ Function.update race.phase who phase other = .link sess ∨
        Function.update race.phase who phase other = .returned true := by
    by_cases same : other = who
    · rw [same, Function.update_self]
      exact .inr stands
    · rw [Function.update_of_ne same]
      exact won.phases other
  rcases won.phases who with phase | phase | phase
  · rw [step_eq phase (Call.advance_lookup_known won.inserted found (by omega))]
    refine won.change rfl rfl (fun record positive => ?_) (fun record perm => ?_) (later _ (.inl rfl))
    · show 0 < record.refCounter + 1
      omega
    · refine perm.trans (.of_eq ?_)
      cases who <;> simp [linked, phase]
  · rw [step_eq phase (Call.advance_link found)]
    refine won.change rfl rfl (fun _ positive => positive) (fun record perm => ?_) (later _ (.inr rfl))
    refine (perm.append_right _).trans ?_
    cases who
    · by_cases second : race.phase .second = .returned true <;> simp [linked, phase, second, List.Perm.swap]
    · by_cases first : race.phase .first = .returned true <;> simp [linked, phase, first]
  · rw [step_eq phase (Call.advance_returned true), ← phase, Function.update_eq_self]
    exact won

theorem run (won : Won id calls sess race) (schedule : List Caller) :
    Won id calls sess (race.run platform id calls schedule) := by
  induction schedule generalizing race with
  | nil => exact won
  | cons who schedule ih => exact ih (won.step who)

end Won

/-- Both calls have looked in vain and one has inserted its session. -/
structure Lost (id : UInt64) (late : Caller) (sess : Ref Session) (race : Race) : Prop where
  inserted : race.state.sessionsTable.lookup id = some sess
  session : ∃ record, race.state.sessions.get? sess = some record ∧ record.refCounter ≠ 0
  waiting : ∃ fresh, race.phase late = .insert fresh
  early : race.phase late.other = .link sess ∨ race.phase late.other = .returned true

namespace Lost
variable {late : Caller} {sess : Ref Session} {race : Race}

theorem step_early (lost : Lost id late sess race) : Lost id late sess (race.step platform id calls late.other) := by
  obtain ⟨record, found, counted⟩ := lost.session
  obtain ⟨fresh, waiting⟩ := lost.waiting
  have different : late ≠ late.other := by cases late <;> simp [Caller.other]
  rcases lost.early with phase | phase
  · rw [step_eq phase (Call.advance_link found)]
    refine ⟨lost.inserted, ⟨{ record with treeConns := record.treeConns ++ [(calls late.other).conn] }, ?_, counted⟩,
      ⟨fresh, ?_⟩, .inr (Function.update_self _ _ _)⟩
    · simp [State.linkTreeConn, found]
    · exact (Function.update_of_ne different _ _).trans waiting
  · rw [step_eq phase (Call.advance_returned true), ← phase, Function.update_eq_self]
    exact lost

theorem step_late (lost : Lost id late sess race) : ¬(race.step platform id calls late).Sound := by
  obtain ⟨record, found, counted⟩ := lost.session
  obtain ⟨fresh, waiting⟩ := lost.waiting
  obtain ⟨listed, gone⟩ := Call.advance_insert_again platform (calls late) fresh lost.inserted found counted
  rw [step_eq waiting rfl]
  intro sound
  obtain ⟨current, seen⟩ := sound.tabled id sess listed
  cases gone.symm.trans seen

theorem unsound (lost : Lost id late sess race) (schedule : List Caller)
    (ended : (race.run platform id calls schedule).Over) :
    ∃ front, front <+: schedule ∧ ¬(race.run platform id calls front).Sound := by
  induction schedule generalizing race with
  | nil =>
    obtain ⟨fresh, waiting⟩ := lost.waiting
    have done := ended late
    rw [run, List.foldl_nil, waiting] at done
    cases done
  | cons who schedule ih =>
    by_cases same : who = late
    · exact ⟨[who], by simp, same ▸ lost.step_late⟩
    · have early : who = late.other := by cases who <;> cases late <;> simp_all [Caller.other]
      obtain ⟨front, begins, broken⟩ := ih (early ▸ lost.step_early) ended
      exact ⟨who :: front, List.cons_prefix_cons.mpr ⟨rfl, begins⟩, broken⟩

end Lost

variable (platform) in
/-- Both calls return 0, one session for the id holds both connections, and no session
of the table or in use was destroyed on the way. -/
structure Converges (id : UInt64) (calls : Caller → Call) (state : State) (schedule : List Caller) : Prop where
  sound : ∀ front, front <+: schedule → ((start state).run platform id calls front).Sound
  returned : ∀ who, ((start state).run platform id calls schedule).phase who = .returned true
  session : ∃ sess record, ((start state).run platform id calls schedule).state.sessionsTable.lookup id = some sess ∧
    ((start state).run platform id calls schedule).state.sessions.get? sess = some record ∧
    record.treeConns.Perm [(calls .first).conn, (calls .second).conn] ∧
    ∀ other current, ((start state).run platform id calls schedule).state.sessions.get? other = some current →
      current.id = id → other = sess

variable {state : State} {race : Race} {who : Caller}

theorem step_looks (stands : race.phase who = .lookup) (unknown : race.state.sessionsTable.lookup id = none)
    (allocated : (calls who).allocates = true) :
    race.step platform id calls who = ⟨(race.state.newKsmbdSession id (calls who).user).1,
      Function.update race.phase who (.insert (race.state.newKsmbdSession id (calls who).user).2)⟩ := by
  refine step_eq stands ?_
  rw [Call.advance_lookup_unknown unknown, if_pos allocated]

theorem step_unallocated (stands : race.phase who = .lookup) (unknown : race.state.sessionsTable.lookup id = none)
    (failed : (calls who).allocates = false) : (race.step platform id calls who).phase who = .returned false := by
  have advanced : (calls who).advance platform id race.state .lookup = (race.state, .returned false) := by
    rw [Call.advance_lookup_unknown unknown, if_neg (by simp [failed])]
  rw [step_eq stands advanced]
  exact Function.update_self _ _ _

theorem won_start (sound : SessionsSound state) (unknown : state.sessionsTable.lookup id = none)
    (allocated : (calls who).allocates = true) :
    Won id calls (state.newKsmbdSession id (calls who).user).2
      (((start state).step platform id calls who).step platform id calls who) := by
  have looked : (start state).step platform id calls who = _ := step_looks rfl unknown allocated
  rw [looked, step_eq (Function.update_self _ _ _) (Call.advance_insert_new unknown)]
  have old : ∀ other record, state.sessions.get? other = some record →
      (state.newKsmbdSession id (calls who).user).1.sessions.get? other = some record := fun other record seen =>
    (Heap.get?_alloc_old _ (Heap.get?_lt seen)).trans seen
  refine ⟨AList.lookup_insert _, fun other known listed => ?_, ⟨_, Heap.get?_alloc_new _ _, Int.one_pos, ?_⟩,
    fun other => ?_, fun other record seen named => ?_⟩
  · by_cases same : other = id
    · subst same
      rw [AList.lookup_insert] at listed
      cases listed
      exact ⟨_, Heap.get?_alloc_new _ _⟩
    · rw [AList.lookup_insert_ne same] at listed
      obtain ⟨record, seen, -⟩ := sound.tabled other known listed
      exact ⟨record, old known record seen⟩
  · cases who <;> simp [linked, start]
  · by_cases same : other = who
    · rw [same]
      exact .inr (.inl (Function.update_self _ _ _))
    · simp [Function.update_of_ne same, start]
  · by_contra different
    change (state.sessions.alloc _).1.get? other = some record at seen
    rw [Heap.get?_alloc_ne _ different] at seen
    have listed := sound.listed other record seen
    rw [named, unknown] at listed
    cases listed

/-- Both calls have looked in vain and made a session of their own. -/
structure Looked (id : UInt64) (race : Race) : Prop where
  unknown : race.state.sessionsTable.lookup id = none
  waiting : ∀ who, ∃ fresh record, race.phase who = .insert fresh ∧ race.state.sessions.get? fresh = some record ∧
    record.refCounter ≠ 0

theorem looked_start (unknown : state.sessionsTable.lookup id = none)
    (allocated : ∀ who, (calls who).allocates = true) (who : Caller) :
    Looked id (((start state).step platform id calls who).step platform id calls who.other) := by
  have different : who.other ≠ who := by cases who <;> simp [Caller.other]
  have one : (start state).step platform id calls who = _ := step_looks rfl unknown (allocated who)
  rw [one, step_looks (Function.update_of_ne different _ _) unknown (allocated who.other)]
  refine ⟨unknown, fun caller => ?_⟩
  by_cases same : caller = who.other
  · rw [same]
    refine ⟨_, _, Function.update_self _ _ _, Heap.get?_alloc_new _ _, ?_⟩
    exact Int.one_ne_zero
  · obtain rfl : caller = who := by cases caller <;> cases who <;> simp_all [Caller.other]
    have made := Heap.get?_alloc_new state.sessions { id, user := (calls caller).user, refCounter := 1 }
    refine ⟨_, _, (Function.update_of_ne same _ _).trans (Function.update_self _ _ _),
      (Heap.get?_alloc_old _ (Heap.get?_lt made)).trans made, ?_⟩
    exact Int.one_ne_zero

theorem Looked.step (looked : Looked id race) (early : Caller) :
    ∃ sess, Lost id early.other sess (race.step platform id calls early) := by
  have different : early.other ≠ early := by cases early <;> simp [Caller.other]
  have back : early.other.other = early := by cases early <;> rfl
  obtain ⟨sess, record, waiting, found, counted⟩ := looked.waiting early
  obtain ⟨fresh, -, late, -⟩ := looked.waiting early.other
  rw [step_eq waiting (Call.advance_insert_new looked.unknown)]
  refine ⟨sess, AList.lookup_insert _, ⟨record, found, counted⟩,
    ⟨fresh, (Function.update_of_ne different _ _).trans late⟩, .inl ?_⟩
  rw [back]
  exact Function.update_self _ _ _

theorem Sound.looks (sound : race.Sound) (stands : race.phase who = .lookup)
    (unknown : race.state.sessionsTable.lookup id = none) (allocated : (calls who).allocates = true) :
    (race.step platform id calls who).Sound := by
  rw [step_looks stands unknown allocated]
  have old : ∀ sess, race.state.sessions.Live sess →
      (race.state.newKsmbdSession id (calls who).user).1.sessions.Live sess := by
    rintro sess ⟨record, seen⟩
    exact ⟨record, (Heap.get?_alloc_old _ (Heap.get?_lt seen)).trans seen⟩
  refine ⟨fun other sess known => old sess (sound.tabled other sess known), fun caller sess holds => ?_⟩
  by_cases same : caller = who
  · rw [same] at holds
    simp only [Function.update_self, Phase.holds, Option.some.injEq] at holds
    exact ⟨_, holds ▸ Heap.get?_alloc_new _ _⟩
  · simp only [Function.update_of_ne same] at holds
    exact old sess (sound.held caller sess holds)

private theorem not_converges_returned (front rest : List Caller) (who : Caller)
    (failed : ((start state).run platform id calls front).phase who = .returned false)
    (converges : Converges platform id calls state (front ++ rest)) : False := by
  have returned := converges.returned who
  rw [run, List.foldl_append] at returned
  cases (run_returned rest _ failed).symm.trans returned

private theorem converges_of_won {sess : Ref Session} {rest : List Caller}
    (first : ((start state).step platform id calls who).Sound) (begun : (start state).Sound)
    (won : Won id calls sess (((start state).step platform id calls who).step platform id calls who))
    (ended : ((start state).run platform id calls (who :: who :: rest)).Over) :
    Converges platform id calls state (who :: who :: rest) := by
  have final : Won id calls sess ((((start state).step platform id calls who).step platform id calls who).run
      platform id calls rest) := won.run rest
  have returned : ∀ caller, ((start state).run platform id calls (who :: who :: rest)).phase caller = .returned true := by
    intro caller
    have done := ended caller
    rcases final.phases caller with phase | phase | phase
    · rw [run_cons, run_cons, phase] at done
      cases done
    · rw [run_cons, run_cons, phase] at done
      cases done
    · exact phase
  refine ⟨fun front begins => ?_, returned, ?_⟩
  · cases front with
    | nil => exact begun
    | cons one front =>
      obtain ⟨rfl, begins⟩ := List.cons_prefix_cons.mp begins
      cases front with
      | nil => exact first
      | cons two front =>
        obtain ⟨rfl, -⟩ := List.cons_prefix_cons.mp begins
        exact (won.run front).sound
  · obtain ⟨record, found, -, perm⟩ := final.session
    have both : linked calls ((((start state).step platform id calls who).step platform id calls who).run platform
        id calls rest) = [(calls .first).conn, (calls .second).conn] := by
      have one := returned .first
      have two := returned .second
      rw [run_cons, run_cons] at one two
      simp [linked, one, two]
    exact ⟨sess, record, final.inserted, found, both ▸ perm, final.only⟩

private theorem not_converges_looked {rest : List Caller}
    (looked : Looked id (((start state).step platform id calls who).step platform id calls who.other))
    (ended : ((start state).run platform id calls (who :: who.other :: rest)).Over)
    (converges : Converges platform id calls state (who :: who.other :: rest)) : False := by
  cases rest with
  | nil =>
    obtain ⟨fresh, -, waiting, -⟩ := looked.waiting who
    have done := ended who
    rw [run_cons, run_cons, run, List.foldl_nil, waiting] at done
    cases done
  | cons early rest =>
    have lost : ∃ sess, Lost id early.other sess ((((start state).step platform id calls who).step platform id calls
        who.other).step platform id calls early) := looked.step early
    obtain ⟨sess, lost⟩ := lost
    obtain ⟨front, begins, broken⟩ := lost.unsound rest ended
    refine broken (converges.sound (who :: who.other :: early :: front) ?_)
    simpa [List.cons_prefix_cons] using begins

/-- Two first connects converge exactly when the call that looks first also inserts
before the other looks, and gets its session. -/
theorem first_connects_converge_iff (state : State) (id : UInt64) (calls : Caller → Call) (schedule : List Caller)
    (sound : SessionsSound state) (unknown : state.sessionsTable.lookup id = none)
    (ended : ((start state).run platform id calls schedule).Over) :
    Converges platform id calls state schedule ↔
      ∃ who rest, schedule = who :: who :: rest ∧ (calls who).allocates = true := by
  have begun : (start state).Sound := by
    refine ⟨fun other sess known => ?_, fun who sess holds => by cases holds⟩
    obtain ⟨record, found, -⟩ := sound.tabled other sess known
    exact ⟨record, found⟩
  constructor
  · intro converges
    match schedule with
    | [] => cases ended .first
    | [who] =>
      have done := ended who.other
      have different : who.other ≠ who := by cases who <;> simp [Caller.other]
      rw [run_cons, run, List.foldl_nil, step_other different] at done
      cases done
    | who :: next :: rest =>
      cases allocated : (calls who).allocates with
      | false =>
        refine (not_converges_returned [who] (next :: rest) who ?_ converges).elim
        show ((start state).step platform id calls who).phase who = _
        exact step_unallocated rfl unknown allocated
      | true =>
        by_cases same : next = who
        · exact ⟨who, rest, by rw [same], allocated⟩
        · obtain rfl : next = who.other := by cases next <;> cases who <;> simp_all [Caller.other]
          have one : (start state).step platform id calls who = _ := step_looks rfl unknown allocated
          cases given : (calls who.other).allocates with
          | false =>
            refine (not_converges_returned [who, who.other] rest who.other ?_ converges).elim
            rw [run_cons, one]
            exact step_unallocated (Function.update_of_ne same _ _) unknown given
          | true =>
            have every : ∀ caller, (calls caller).allocates = true := by
              intro caller
              cases caller <;> cases who <;> simp_all [Caller.other]
            exact (not_converges_looked (looked_start unknown every who) ended converges).elim
  · rintro ⟨who, rest, rfl, allocated⟩
    exact converges_of_won (begun.looks rfl unknown allocated) begun (won_start sound unknown allocated) ended

/-- Both calls look, then both insert: the session in the table is destroyed, the
second call faults on it when it retries and the first when it links. -/
theorem first_connects_destroy :
    ∃ state final sess, state.sessionsTable.lookup 1 = none ∧ SessionsSound state ∧
      (start state).run Scenario.plainPlatform 1 (fun _ => ⟨none, {}, true⟩)
        [.first, .second, .first, .second, .second, .first] = final ∧
      final.phase .first = .faulted ∧ final.phase .second = .faulted ∧
      final.state.sessionsTable.lookup 1 = some sess ∧ final.state.sessions.get? sess = none := by
  refine ⟨{}, _, ⟨0⟩, rfl, (Consistent.initial Scenario.plainPlatform {}).sessions, rfl, ?_, ?_, ?_, ?_⟩ <;> decide +kernel

theorem first_connects_converge_apart :
    Converges Scenario.plainPlatform 1 (fun _ => ⟨none, {}, true⟩) {} [.first, .first, .second, .first, .second] := by
  refine (first_connects_converge_iff {} 1 (fun _ => ⟨none, {}, true⟩) _
    (Consistent.initial Scenario.plainPlatform {}).sessions rfl ?_).mpr ⟨.first, _, rfl, rfl⟩
  intro who
  cases who <;> decide +kernel

end Race
end KsmbdTools.Management
