import Mathlib.Logic.Basic

/-! Programs over a state they pass along. A program ends with a value, by an
early return with a code, or in undefined behaviour. The state reached is kept
in all three cases: what was done before an early return stays done. -/

namespace KsmbdTools

inductive Outcome (ε α : Type) where
  | ok (value : α)
  | stop (code : ε)
  /-- A freed or absent object was used. -/
  | fault
  deriving DecidableEq, Repr

def Proc (σ ε α : Type) : Type := σ → Outcome ε α × σ

namespace Proc
variable {σ τ ε δ α β : Type}

protected def pure (value : α) : Proc σ ε α := fun state => (.ok value, state)

protected def bind (first : Proc σ ε α) (next : α → Proc σ ε β) : Proc σ ε β := fun state =>
  match first state with
  | (.ok value, after) => next value after
  | (.stop code, after) => (.stop code, after)
  | (.fault, after) => (.fault, after)

instance : Monad (Proc σ ε) where
  pure := Proc.pure
  bind := Proc.bind

def get : Proc σ ε σ := fun state => (.ok state, state)

def modify (f : σ → σ) : Proc σ ε Unit := fun state => (.ok (), f state)

def stop (code : ε) : Proc σ ε α := fun state => (.stop code, state)

def fault : Proc σ ε α := fun state => (.fault, state)

/-- The value an `Option` carries; without one the program uses nothing. -/
def deref (value : Option α) : Proc σ ε α := value.elim fault pure

/-- An early return with any code becomes one with this code. -/
def orStop (code : ε) (program : Proc σ δ α) : Proc σ ε α := fun state =>
  match program state with
  | (.ok value, after) => (.ok value, after)
  | (.stop _, after) => (.stop code, after)
  | (.fault, after) => (.fault, after)

/-- The code a program returns, with `done` for running to its end. -/
def code (done : ε) (program : Proc σ ε Unit) : Proc σ δ ε := fun state =>
  match program state with
  | (.ok (), after) => (.ok done, after)
  | (.stop code, after) => (.ok code, after)
  | (.fault, after) => (.fault, after)

/-- A program over a part of the state. -/
def zoom (part : σ → τ) (restore : σ → τ → σ) (program : Proc τ ε α) : Proc σ ε α := fun state =>
  let (outcome, after) := program (part state)
  (outcome, restore state after)

/-- The results of running the program so many times. -/
def collect : Nat → Proc σ ε α → Proc σ ε (List α)
  | 0, _ => pure []
  | count + 1, program => do
    let head ← program
    let tail ← collect count program
    return head :: tail

def each : List α → (α → Proc σ ε Unit) → Proc σ ε Unit
  | [], _ => pure ()
  | head :: tail, body => do
    body head
    each tail body

@[simp] theorem pure_apply (value : α) (state : σ) : (pure value : Proc σ ε α) state = (.ok value, state) := rfl

@[simp] theorem get_apply (state : σ) : (get : Proc σ ε σ) state = (.ok state, state) := rfl

@[simp] theorem modify_apply (f : σ → σ) (state : σ) : (modify f : Proc σ ε Unit) state = (.ok (), f state) := rfl

@[simp] theorem stop_apply (code : ε) (state : σ) : (stop code : Proc σ ε α) state = (.stop code, state) := rfl

@[simp] theorem fault_apply (state : σ) : (fault : Proc σ ε α) state = (.fault, state) := rfl

theorem bind_apply (first : Proc σ ε α) (next : α → Proc σ ε β) (state : σ) :
    (first >>= next) state = match first state with
      | (.ok value, after) => next value after
      | (.stop code, after) => (.stop code, after)
      | (.fault, after) => (.fault, after) := rfl

theorem bind_ok {first : Proc σ ε α} {next : α → Proc σ ε β} {state after : σ} {value : α}
    (ended : first state = (.ok value, after)) : (first >>= next) state = next value after := by
  rw [bind_apply, ended]

theorem bind_stop {first : Proc σ ε α} {next : α → Proc σ ε β} {state after : σ} {code : ε}
    (ended : first state = (.stop code, after)) : (first >>= next) state = (.stop code, after) := by
  rw [bind_apply, ended]

theorem bind_fault {first : Proc σ ε α} {next : α → Proc σ ε β} {state after : σ}
    (ended : first state = (.fault, after)) : (first >>= next) state = (.fault, after) := by
  rw [bind_apply, ended]

theorem bind_faulted {first : Proc σ ε α} (next : α → Proc σ ε β) {state : σ} (faulted : (first state).1 = .fault) :
    ((first >>= next) state).1 = .fault := by
  rw [bind_apply]
  revert faulted
  rcases first state with ⟨_ | _ | _, after⟩ <;> intro faulted
  · cases faulted
  · cases faulted
  · rfl

instance : LawfulMonad (Proc σ ε) := LawfulMonad.mk' _
  (by
    intro α program
    funext state
    show (program >>= fun value => pure (id value)) state = program state
    rw [bind_apply]
    rcases program state with ⟨_ | _ | _, after⟩ <;> rfl)
  (by intros; rfl)
  (by
    intro α β γ program next last
    funext state
    simp only [bind_apply]
    rcases program state with ⟨_ | _ | _, after⟩ <;> rfl)

/-- A sequence that runs to its end ran its first part to its end. -/
theorem bind_eq_ok {first : Proc σ ε α} {next : α → Proc σ ε β} {state last : σ} {value : β} :
    (first >>= next) state = (.ok value, last) ↔
      ∃ middle after, first state = (.ok middle, after) ∧ next middle after = (.ok value, last) := by
  rw [bind_apply]
  rcases first state with ⟨_ | _ | _, after⟩ <;> simp [and_assoc]

theorem each_append (first second : List α) (body : α → Proc σ ε Unit) :
    each (first ++ second) body = (do each first body; each second body) := by
  induction first with
  | nil => exact (pure_bind () fun _ => each second body).symm
  | cons head tail ih =>
    have step : each (head :: (tail ++ second)) body = (do body head; each (tail ++ second) body) := rfl
    rw [List.cons_append, step, ih, ← bind_assoc]
    rfl

theorem exists_of_ok {program : Proc σ ε α} {state : σ} {value : α} (ended : (program state).1 = .ok value) :
    ∃ after, program state = (.ok value, after) := ⟨(program state).2, by rw [← ended]⟩

/-- A sequence whose first part only looks at the state. -/
theorem bind_still {assertion : σ → Prop} {first : Proc σ ε α} {next : α → Proc σ ε β} {state : σ}
    (still : (first state).2 = state) (holds : assertion state)
    (rest : ∀ value, first state = (.ok value, state) → assertion (next value state).2) :
    assertion ((first >>= next) state).2 := by
  rw [bind_apply]
  revert still rest
  rcases first state with ⟨value | code | _, after⟩ <;> rintro rfl rest
  · exact rest value rfl
  · exact holds
  · exact holds

/-- The assertion, once true, is true wherever the program ends. -/
def Preserves (assertion : σ → Prop) (program : Proc σ ε α) : Prop :=
  ∀ state, assertion state → assertion (program state).2

namespace Preserves
variable {assertion : σ → Prop}

theorem along {program : Proc σ ε α} {outcome : Outcome ε α} {state after : σ} (valid : Preserves assertion program)
    (ran : program state = (outcome, after)) (holds : assertion state) : assertion after := by
  have ends := valid state holds
  rwa [ran] at ends

theorem pure (value : α) : Preserves assertion (Pure.pure value : Proc σ ε α) := fun _ holds => holds

theorem get : Preserves assertion (Proc.get : Proc σ ε σ) := fun _ holds => holds

theorem stop (code : ε) : Preserves assertion (Proc.stop code : Proc σ ε α) := fun _ holds => holds

theorem fault : Preserves assertion (Proc.fault : Proc σ ε α) := fun _ holds => holds

theorem deref (value : Option α) : Preserves assertion (Proc.deref value : Proc σ ε α) := by
  cases value
  · exact fault
  · exact pure _

theorem modify {f : σ → σ} (keeps : ∀ state, assertion state → assertion (f state)) :
    Preserves assertion (Proc.modify f : Proc σ ε Unit) := keeps

theorem bind {first : Proc σ ε α} {next : α → Proc σ ε β} (start : Preserves assertion first)
    (rest : ∀ value, Preserves assertion (next value)) : Preserves assertion (first >>= next) := by
  intro state holds
  have middle := start state holds
  rw [bind_apply]
  revert middle
  rcases first state with ⟨value | code | _, after⟩ <;> intro middle
  · exact rest value after middle
  · exact middle
  · exact middle

/-- What follows a part that never runs to its end does not matter. -/
theorem bind_never {first : Proc σ ε α} {next : α → Proc σ ε β} (start : Preserves assertion first)
    (never : ∀ state, assertion state → ∀ value, (first state).1 ≠ .ok value) : Preserves assertion (first >>= next) := by
  intro state holds
  have middle := start state holds
  have ends := never state holds
  rw [bind_apply]
  revert middle ends
  rcases first state with ⟨value | code | _, after⟩ <;> intro middle ends
  · exact absurd rfl (ends value)
  · exact middle
  · exact middle

theorem code {done : ε} {program : Proc σ ε Unit} (valid : Preserves assertion program) :
    Preserves assertion (Proc.code done program : Proc σ δ ε) := by
  intro state holds
  have ends := valid state holds
  simp only [Proc.code]
  revert ends
  rcases program state with ⟨value | code | _, after⟩ <;> exact id

theorem orStop {code : ε} {program : Proc σ δ α} (valid : Preserves assertion program) :
    Preserves assertion (Proc.orStop code program) := by
  intro state holds
  have ends := valid state holds
  simp only [Proc.orStop]
  revert ends
  rcases program state with ⟨value | code | _, after⟩ <;> exact id

theorem zoom {part : σ → τ} {restore : σ → τ → σ} {assertion : τ → Prop} {program : Proc τ ε α}
    (valid : Preserves assertion program) (restored : ∀ state inner, part (restore state inner) = inner) :
    Preserves (fun state => assertion (part state)) (Proc.zoom part restore program) := by
  intro state holds
  rw [show part (Proc.zoom part restore program state).2 = (program (part state)).2 from restored _ _]
  exact valid _ holds

theorem each {list : List α} {body : α → Proc σ ε Unit} (valid : ∀ value, Preserves assertion (body value)) :
    Preserves assertion (Proc.each list body) := by
  induction list with
  | nil => exact pure ()
  | cons head tail ih => exact bind (valid head) fun _ => ih

theorem collect {program : Proc σ ε α} {count : Nat} (valid : Preserves assertion program) :
    Preserves assertion (Proc.collect count program) := by
  induction count with
  | zero => exact pure []
  | succ count ih => exact bind valid fun _ => bind ih fun _ => pure _

theorem ite {condition : Prop} [Decidable condition] {yes no : Proc σ ε α} (first : Preserves assertion yes)
    (second : Preserves assertion no) : Preserves assertion (if condition then yes else no) := by
  split
  · exact first
  · exact second

/-- One case of a dispatch, with what tells it from the others. -/
theorem branch {condition : Prop} [Decidable condition] {yes no : Proc σ ε α} (first : condition → Preserves assertion yes)
    (second : Preserves assertion no) : Preserves assertion (if condition then yes else no) := by
  split
  next holds => exact first holds
  next => exact second

theorem guard {condition : Prop} [Decidable condition] {code : ε} {next : Unit → Proc σ ε α}
    (rest : Preserves assertion (next ())) :
    Preserves assertion (if condition then Proc.stop code >>= next else next ()) :=
  ite (bind_never (stop code) fun _ _ _ ended => nomatch ended) rest

end Preserves

theorem bind_along {assertion : σ → Prop} {first : Proc σ ε α} {next : α → Proc σ ε β} {state : σ}
    (start : (first state).1 = .fault ∨ assertion (first state).2) (rest : ∀ value, Preserves assertion (next value)) :
    ((first >>= next) state).1 = .fault ∨ assertion ((first >>= next) state).2 := by
  rcases start with faulted | holds
  · exact .inl (bind_faulted next faulted)
  · right
    rw [bind_apply]
    revert holds
    rcases first state with ⟨value | code | _, after⟩ <;> intro holds
    · exact rest value after holds
    · exact holds
    · exact holds

theorem code_of_ok {δ : Type} {done : ε} {program : Proc σ ε Unit} {state after : σ}
    (ran : program state = (.ok (), after)) : (Proc.code done program : Proc σ δ ε) state = (.ok done, after) := by
  simp only [Proc.code, ran]

theorem code_of_stop {δ : Type} {done status : ε} {program : Proc σ ε Unit} {state after : σ}
    (ran : program state = (.stop status, after)) : (Proc.code done program : Proc σ δ ε) state = (.ok status, after) := by
  simp only [Proc.code, ran]

theorem code_of_fault {δ : Type} {done : ε} {program : Proc σ ε Unit} {state after : σ}
    (ran : program state = (.fault, after)) : (Proc.code done program : Proc σ δ ε) state = (.fault, after) := by
  simp only [Proc.code, ran]

/-- What is true where the program ends is true behind what its code decides. -/
theorem code_bind_along {assertion : σ → Prop} {done : ε} {program : Proc σ ε Unit} {next : ε → Proc σ δ β} {state : σ}
    (rest : ∀ code, Preserves assertion (next code)) (holds : assertion (program state).2) :
    assertion ((Proc.code done program >>= next) state).2 := by
  simp only [bind_apply, code]
  revert holds
  rcases program state with ⟨_ | code | _, after⟩ <;> intro holds
  · exact rest done after holds
  · exact rest code after holds
  · exact holds

theorem code_bind_faulted {done : ε} {program : Proc σ ε Unit} (next : ε → Proc σ δ β) {state : σ}
    (faulted : (program state).1 = .fault) : ((Proc.code done program >>= next) state).1 = .fault := by
  simp only [bind_apply, code]
  revert faulted
  rcases program state with ⟨_ | code | _, after⟩ <;> intro faulted
  · cases faulted
  · cases faulted
  · rfl

/-- From where the first assertion is true, a run to the program's end ends where the
second one is. -/
def Ensures (before after : σ → Prop) (program : Proc σ ε α) : Prop :=
  ∀ state value last, before state → program state = (.ok value, last) → after last

namespace Ensures
variable {before after : σ → Prop}

theorem modify {f : σ → σ} (establishes : ∀ state, before state → after (f state)) :
    Ensures before after (Proc.modify f : Proc σ ε Unit) := by
  intro state value last holds ran
  cases ran
  exact establishes state holds

theorem stop (code : ε) : Ensures before after (Proc.stop code : Proc σ ε α) := by
  intro state value last holds ran
  cases ran

theorem bind {first : Proc σ ε α} {next : α → Proc σ ε β} (start : Preserves before first)
    (rest : ∀ value, Ensures before after (next value)) : Ensures before after (first >>= next) := by
  intro state value last holds ran
  obtain ⟨inner, middle, ranFirst, ranRest⟩ := bind_eq_ok.mp ran
  exact rest inner middle value last (start.along ranFirst holds) ranRest

theorem ite {condition : Prop} [Decidable condition] {yes no : Proc σ ε α} (first : Ensures before after yes)
    (second : Ensures before after no) : Ensures before after (if condition then yes else no) := by
  split
  · exact first
  · exact second

theorem guard {condition : Prop} [Decidable condition] {code : ε} {next : Unit → Proc σ ε α}
    (rest : Ensures before after (next ())) :
    Ensures before after (if condition then Proc.stop code >>= next else next ()) := by
  refine ite ?_ rest
  intro state value last holds ran
  cases ran

end Ensures

/-- From where the first assertion is true, the program runs to its end, and ends where the
second one is. -/
def Completes (before after : σ → Prop) (program : Proc σ ε α) : Prop :=
  ∀ state, before state → ∃ value last, program state = (.ok value, last) ∧ after last

namespace Completes
variable {before between after : σ → Prop}

theorem modify {f : σ → σ} (establishes : ∀ state, before state → after (f state)) :
    Completes before after (Proc.modify f : Proc σ ε Unit) := fun state holds => ⟨(), f state, rfl, establishes state holds⟩

theorem bind {first : Proc σ ε α} {next : α → Proc σ ε β} (start : Completes before between first)
    (rest : ∀ value, Completes between after (next value)) : Completes before after (first >>= next) := by
  intro state holds
  obtain ⟨inner, middle, ran, reached⟩ := start state holds
  rw [bind_ok ran]
  exact rest inner middle reached

end Completes

/-- No run of the program ends by an early return with this code. -/
def Avoids (code : ε) (program : Proc σ ε α) : Prop := ∀ state, (program state).1 ≠ .stop code

namespace Avoids
variable {code : ε}

theorem pure (value : α) : Avoids code (Pure.pure value : Proc σ ε α) := fun _ ended => nomatch ended

theorem get : Avoids code (Proc.get : Proc σ ε σ) := fun _ ended => nomatch ended

theorem modify (f : σ → σ) : Avoids code (Proc.modify f : Proc σ ε Unit) := fun _ ended => nomatch ended

theorem fault : Avoids code (Proc.fault : Proc σ ε α) := fun _ ended => nomatch ended

theorem deref (value : Option α) : Avoids code (Proc.deref value : Proc σ ε α) := by
  cases value
  · exact fault
  · exact pure _

theorem stop {other : ε} (differs : other ≠ code) : Avoids code (Proc.stop other : Proc σ ε α) := by
  intro state ended
  cases ended
  exact differs rfl

theorem ite {condition : Prop} [Decidable condition] {yes no : Proc σ ε α} (first : Avoids code yes)
    (second : Avoids code no) : Avoids code (if condition then yes else no) := by
  split
  · exact first
  · exact second

theorem bind {first : Proc σ ε α} {next : α → Proc σ ε β} (start : Avoids code first)
    (rest : ∀ value, Avoids code (next value)) : Avoids code (first >>= next) := by
  intro state
  have ends := start state
  rw [bind_apply]
  revert ends
  rcases first state with ⟨value | other | _, after⟩ <;> intro ends
  · exact rest value after
  · intro ended
    cases ended
    exact ends rfl
  · exact fun ended => nomatch ended

theorem each {list : List α} {body : α → Proc σ ε Unit} (valid : ∀ value, Avoids code (body value)) :
    Avoids code (Proc.each list body) := by
  induction list with
  | nil => exact pure ()
  | cons head tail ih => exact bind (valid head) fun _ => ih

/-- A program that returns the code for its end only there. -/
theorem code_eq_ok {done : ε} {program : Proc σ ε Unit} {state after : σ} (avoids : Avoids done program)
    (ran : (Proc.code done program : Proc σ δ ε) state = (.ok done, after)) : program state = (.ok (), after) := by
  have ends := avoids state
  simp only [Proc.code] at ran
  revert ran ends
  rcases program state with ⟨_ | other | _, last⟩ <;> intro ran ends <;> cases ran
  · rfl
  · exact absurd rfl ends

end Avoids

/-- No run of the program uses what is not there. -/
def Defined (program : Proc σ ε α) : Prop := ∀ state, (program state).1 ≠ .fault

namespace Defined

theorem pure (value : α) : Defined (Pure.pure value : Proc σ ε α) := fun _ ended => nomatch ended

theorem get : Defined (Proc.get : Proc σ ε σ) := fun _ ended => nomatch ended

theorem modify (f : σ → σ) : Defined (Proc.modify f : Proc σ ε Unit) := fun _ ended => nomatch ended

theorem stop (code : ε) : Defined (Proc.stop code : Proc σ ε α) := fun _ ended => nomatch ended

theorem bind {first : Proc σ ε α} {next : α → Proc σ ε β} (start : Defined first) (rest : ∀ value, Defined (next value)) :
    Defined (first >>= next) := by
  intro state
  have ends := start state
  rw [bind_apply]
  revert ends
  rcases first state with ⟨value | code | _, after⟩ <;> intro ends
  · exact rest value after
  · exact nofun
  · exact absurd rfl ends

theorem ite {condition : Prop} [Decidable condition] {yes no : Proc σ ε α} (first : Defined yes) (second : Defined no) :
    Defined (if condition then yes else no) := by
  split
  · exact first
  · exact second

theorem guard {condition : Prop} [Decidable condition] {code : ε} {next : Unit → Proc σ ε α} (rest : Defined (next ())) :
    Defined (if condition then Proc.stop code >>= next else next ()) := ite (fun _ ended => nomatch ended) rest

theorem each {list : List α} {body : α → Proc σ ε Unit} (valid : ∀ value, Defined (body value)) :
    Defined (Proc.each list body) := by
  induction list with
  | nil => exact pure ()
  | cons head tail ih => exact bind (valid head) fun _ => ih

end Defined

/-- From where the assertion is true nothing that is not there is used, and it is true wherever the program ends. -/
def Safe (assertion : σ → Prop) (program : Proc σ ε α) : Prop :=
  ∀ state, assertion state → (program state).1 ≠ .fault ∧ assertion (program state).2

namespace Safe
variable {assertion : σ → Prop}

theorem pure (value : α) : Safe assertion (Pure.pure value : Proc σ ε α) := fun _ holds => ⟨nofun, holds⟩

theorem get : Safe assertion (Proc.get : Proc σ ε σ) := fun _ holds => ⟨nofun, holds⟩

theorem stop (code : ε) : Safe assertion (Proc.stop code : Proc σ ε α) := fun _ holds => ⟨nofun, holds⟩

theorem modify {f : σ → σ} (keeps : ∀ state, assertion state → assertion (f state)) :
    Safe assertion (Proc.modify f : Proc σ ε Unit) := fun state holds => ⟨nofun, keeps state holds⟩

theorem bind {first : Proc σ ε α} {next : α → Proc σ ε β} (start : Safe assertion first)
    (rest : ∀ value, Safe assertion (next value)) : Safe assertion (first >>= next) := by
  intro state holds
  obtain ⟨defined, middle⟩ := start state holds
  rw [bind_apply]
  revert defined middle
  rcases first state with ⟨value | code | _, after⟩ <;> intro defined middle
  · exact rest value after middle
  · exact ⟨nofun, middle⟩
  · exact absurd rfl defined

theorem ite {condition : Prop} [Decidable condition] {yes no : Proc σ ε α} (first : Safe assertion yes)
    (second : Safe assertion no) : Safe assertion (if condition then yes else no) := by
  split
  · exact first
  · exact second

theorem guard {condition : Prop} [Decidable condition] {code : ε} {next : Unit → Proc σ ε α}
    (rest : Safe assertion (next ())) : Safe assertion (if condition then Proc.stop code >>= next else next ()) :=
  ite (fun _ holds => ⟨nofun, holds⟩) rest

theorem each {list : List α} {body : α → Proc σ ε Unit} (valid : ∀ value, Safe assertion (body value)) :
    Safe assertion (Proc.each list body) := by
  induction list with
  | nil => exact pure ()
  | cons head tail ih => exact bind (valid head) fun _ => ih

theorem collect {program : Proc σ ε α} {count : Nat} (valid : Safe assertion program) :
    Safe assertion (Proc.collect count program) := by
  induction count with
  | zero => exact pure []
  | succ count ih => exact bind valid fun _ => bind ih fun _ => pure _

end Safe

/-- Every value the program ends with is one of these. -/
def Yields (allowed : α → Prop) (program : Proc σ ε α) : Prop :=
  ∀ state value last, program state = (.ok value, last) → allowed value

namespace Yields
variable {allowed : α → Prop}

theorem pure {value : α} (holds : allowed value) : Yields allowed (Pure.pure value : Proc σ ε α) := by
  intro state result last ran
  cases ran
  exact holds

theorem bind {early : β → Prop} {first : Proc σ ε β} {next : β → Proc σ ε α} (start : Yields early first)
    (rest : ∀ value, early value → Yields allowed (next value)) : Yields allowed (first >>= next) := by
  intro state value last ran
  obtain ⟨inner, middle, ranFirst, ranRest⟩ := bind_eq_ok.mp ran
  exact rest inner (start state inner middle ranFirst) middle value last ranRest

/-- A sequence whose value does not depend on that of its first part. -/
theorem after {first : Proc σ ε β} {next : β → Proc σ ε α} (rest : ∀ value, Yields allowed (next value)) :
    Yields allowed (first >>= next) := by
  intro state value last ran
  obtain ⟨inner, middle, -, ranRest⟩ := bind_eq_ok.mp ran
  exact rest inner middle value last ranRest

theorem ite {condition : Prop} [Decidable condition] {yes no : Proc σ ε α} (first : Yields allowed yes)
    (second : Yields allowed no) : Yields allowed (if condition then yes else no) := by
  split
  · exact first
  · exact second

theorem code {done other : ε} {program : Proc σ ε Unit} (avoids : Avoids other program) (differs : done ≠ other) :
    Yields (· ≠ other) (Proc.code done program : Proc σ δ ε) := by
  intro state value last ran
  have ends := avoids state
  simp only [Proc.code] at ran
  revert ran ends
  rcases program state with ⟨_ | stopped | _, after⟩ <;> intro ran ends <;> cases ran
  · exact differs
  · intro same
    exact ends (congrArg Outcome.stop same)

end Yields
end Proc
end KsmbdTools
