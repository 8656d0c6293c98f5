import KsmbdTools.Rpc.Lsarpc
import KsmbdTools.Rpc.Proofs.Writing

/-! Programs that do nothing but write, and the script of what they write. The
script says where such a program ends. It breaks off where the program would
use something that is not there. -/

namespace KsmbdTools.Rpc
open Management Proc

/-- Items to be written, up to the end or up to the first use of something absent. -/
structure Script where
  items : List Item
  complete : Bool := true
  deriving DecidableEq

namespace Script

def nothing : Script := ⟨[], true⟩

def just (items : List Item) : Script := ⟨items, true⟩

def broken : Script := ⟨[], false⟩

def chain (first second : Script) : Script :=
  if first.complete then ⟨first.items ++ second.items, second.complete⟩ else first

def deref {α : Type} (value : Option α) (script : α → Script) : Script := value.elim broken script

@[simp] theorem chain_nothing (first : Script) : chain first nothing = first := by
  rcases first with ⟨items, _ | _⟩ <;> simp [chain, nothing]

theorem chain_assoc (first second third : Script) :
    chain (chain first second) third = chain first (chain second third) := by
  rcases first with ⟨first, _ | _⟩ <;> rcases second with ⟨second, _ | _⟩ <;> simp [chain]

def eachEntry (script : Entry → Script) : List Entry → Nat → Script
  | _, 0 => nothing
  | [], _ + 1 => broken
  | entry :: entries, count + 1 => chain (script entry) (eachEntry script entries count)

@[simp] theorem eachEntry_zero (script : Entry → Script) (entries : List Entry) : eachEntry script entries 0 = nothing := by
  cases entries <;> rfl

def each {α : Type} (script : α → Script) : List α → Script
  | [] => nothing
  | head :: tail => chain (script head) (each script tail)

end Script

namespace Call

/-- What a program that writes may do to the rest of the call. -/
structure Frame (keeps : Call → Call → Prop) : Prop where
  stream : ∀ call stream, keeps call { call with stream }
  trans : ∀ {first second third}, keeps first second → keeps second third → keeps first third

def Beside (before after : Call) : Prop := after = { before with stream := after.stream }

theorem Frame.of_beside {keeps : Call → Call → Prop} (frame : Frame keeps) {call after : Call} (beside : Beside call after) :
    keeps call after := by
  rw [beside]
  exact frame.stream _ _

theorem Frame.beside : Frame Beside where
  stream _ _ := rfl
  trans := by
    rintro first second third earlier later
    rw [Beside, later, earlier]

variable (machine : Machine) (keeps : Call → Call → Prop)

/-- A program that writes to a script: it ends as expected behind the last item, or stops
where there is no room for the next. -/
inductive Emits {α : Type} (program : Proc Call Status α) (expected : Outcome Status α) (call : Call)
    (script : Script) : Prop where
  | fault {after : Call} (ran : program call = (.fault, after))
  | done {after : Call} (complete : script.complete = true) (whole : (call.reach machine script.items).whole = true)
      (ran : program call = (expected, after)) (kept : keeps call after) (moved : call.stream.Moved after.stream)
      (offset : after.stream.offset = (call.reach machine script.items).offset)
  | full {after : Call} (short : (call.reach machine script.items).whole = false)
      (ran : program call = (.stop .badData, after)) (kept : keeps call after) (moved : call.stream.Moved after.stream)
      (offset : after.stream.offset = (call.reach machine script.items).offset)

variable {machine keeps} {call : Call}

theorem reach_append_whole {after : Call} {first : List Item} (whole : (call.reach machine first).whole = true)
    (moved : call.stream.Moved after.stream) (offset : after.stream.offset = (call.reach machine first).offset)
    (second : List Item) : call.reach machine (first ++ second) = after.reach machine second := by
  rw [reach, Reach.items_append_whole whole, reach, moved.payloadSz, moved.flags, offset]
  rfl

theorem reach_append_short {first : List Item} (short : (call.reach machine first).whole = false) (second : List Item) :
    call.reach machine (first ++ second) = call.reach machine first := Reach.items_append_short short second

theorem reach_chain_short {first : Script} (second : Script) (short : (call.reach machine first.items).whole = false) :
    call.reach machine (first.chain second).items = call.reach machine first.items := by
  rcases first with ⟨items, _ | _⟩
  · rfl
  · exact reach_append_short short _

theorem reach_chain_whole {after : Call} {first : Script} (second : Script) (complete : first.complete = true)
    (whole : (call.reach machine first.items).whole = true) (moved : call.stream.Moved after.stream)
    (offset : after.stream.offset = (call.reach machine first.items).offset) :
    call.reach machine (first.chain second).items = after.reach machine second.items := by
  rw [Script.chain, if_pos complete]
  exact reach_append_whole whole moved offset _

theorem chain_complete {first second : Script} (complete : first.complete = true) (later : second.complete = true) :
    (first.chain second).complete = true := by
  rw [Script.chain, if_pos complete]
  exact later

namespace Emits
variable {α β : Type} {expected : Outcome Status β} (frame : Frame keeps)
include frame

theorem write (items : List Item) : Emits machine keeps (Call.write machine items) (.ok ()) call (.just items) := by
  obtain ⟨stream, moved, offset, ran⟩ := write_apply machine items call
  cases whole : (call.reach machine items).whole with
  | true =>
    rw [whole] at ran
    exact .done rfl whole ran (frame.stream _ _) moved offset
  | false =>
    rw [whole] at ran
    exact .full whole ran (frame.stream _ _) moved offset

omit frame in
theorem still {program : Proc Call Status β} {after : Call} (ran : program call = (expected, after))
    (kept : keeps call after) (same : after.stream = call.stream) :
    Emits machine keeps program expected call .nothing :=
  .done rfl rfl ran kept (same ▸ .refl _) (same ▸ rfl)

theorem pure (value : β) : Emits machine keeps (Pure.pure value) (.ok value) call .nothing :=
  still rfl (frame.stream call call.stream) rfl

theorem bindVia {via : Call → Call → Prop} (weaker : ∀ {after}, via call after → keeps call after)
    {first : Proc Call Status α} {value : α} {next : α → Proc Call Status β} {script later : Script}
    (start : Emits machine via first (.ok value) call script)
    (rest : ∀ after, via call after → Emits machine keeps (next value) expected after later) :
    Emits machine keeps (first >>= next) expected call (script.chain later) := by
  cases start with
  | fault ran => exact .fault (bind_fault ran)
  | full short ran kept moved offset =>
    have same := reach_chain_short later short
    exact .full (same ▸ short) (bind_stop ran) (weaker kept) moved (same ▸ offset)
  | @done middle complete whole ran kept moved offset =>
    have same := reach_chain_whole later complete whole moved offset
    cases rest middle kept with
    | fault ranRest => exact .fault ((bind_ok ran).trans ranRest)
    | done completeRest wholeRest ranRest keptRest movedRest offsetRest =>
      exact .done (chain_complete complete completeRest) (same ▸ wholeRest) ((bind_ok ran).trans ranRest)
        (frame.trans (weaker kept) keptRest) (moved.trans movedRest) (same ▸ offsetRest)
    | full short ranRest keptRest movedRest offsetRest =>
      exact .full (same ▸ short) ((bind_ok ran).trans ranRest) (frame.trans (weaker kept) keptRest)
        (moved.trans movedRest) (same ▸ offsetRest)

theorem bind {first : Proc Call Status α} {value : α} {next : α → Proc Call Status β} {script later : Script}
    (start : Emits machine keeps first (.ok value) call script)
    (rest : ∀ after, keeps call after → Emits machine keeps (next value) expected after later) :
    Emits machine keeps (first >>= next) expected call (script.chain later) := bindVia frame id start rest

theorem bindStill {first : Proc Call Status α} {value : α} {next : α → Proc Call Status β} {script : Script}
    (start : Emits machine keeps first (.ok value) call .nothing)
    (rest : ∀ after, keeps call after → Emits machine keeps (next value) expected after script) :
    Emits machine keeps (first >>= next) expected call script := bind frame start rest

omit frame in
theorem of_apply {program other : Proc Call Status β} {script : Script} (same : program call = other call)
    (emits : Emits machine keeps other expected call script) : Emits machine keeps program expected call script := by
  cases emits with
  | fault ran => exact .fault (same.trans ran)
  | done complete whole ran kept moved offset => exact .done complete whole (same.trans ran) kept moved offset
  | full short ran kept moved offset => exact .full short (same.trans ran) kept moved offset

omit frame in
theorem get {next : Call → Proc Call Status β} {script : Script}
    (rest : Emits machine keeps (next call) expected call script) :
    Emits machine keeps (Proc.get >>= next) expected call script :=
  of_apply (show (Proc.get >>= next) call = next call call from rfl) rest

omit frame in
theorem deref {value : Option α} {next : α → Proc Call Status β} {script : α → Script}
    (rest : ∀ inner, value = some inner → Emits machine keeps (next inner) expected call (script inner)) :
    Emits machine keeps (Proc.deref value >>= next) expected call (.deref value script) := by
  cases value with
  | none => exact .fault (bind_fault rfl)
  | some inner => exact rest inner rfl

theorem eachEntry {script : Entry → Script} {body : Entry → Proc Call Status Unit} (entries : List Entry) (count : Nat)
    (valid : ∀ entry after, keeps call after → Emits machine keeps (body entry) (.ok ()) after (script entry)) :
    Emits machine keeps (Call.eachEntry entries count body) (.ok ()) call (.eachEntry script entries count) := by
  induction entries generalizing call count with
  | nil =>
    cases count with
    | zero => exact pure frame ()
    | succ count => exact .fault rfl
  | cons entry entries ih =>
    cases count with
    | zero => exact pure frame ()
    | succ count =>
      refine bind frame (valid entry call (frame.stream call call.stream)) fun after kept => ?_
      exact ih count fun entry last keptLast => valid entry last (frame.trans kept keptLast)

theorem each {script : α → Script} {body : α → Proc Call Status Unit} (list : List α)
    (valid : ∀ value after, keeps call after → Emits machine keeps (body value) (.ok ()) after (script value)) :
    Emits machine keeps (Proc.each list body) (.ok ()) call (.each script list) := by
  induction list generalizing call with
  | nil => exact pure frame ()
  | cons head tail ih =>
    refine bind frame (valid head call (frame.stream call call.stream)) fun after kept => ?_
    exact ih fun value last keptLast => valid value last (frame.trans kept keptLast)

end Emits

/-- A program that writes to a script and then has its goal, or stops for want of room
before it does anything else. -/
inductive Finishes {α : Type} (machine : Machine) (keeps : Call → Call → Prop) (program : Proc Call Status α) (call : Call)
    (script : Script) (goal : Outcome Status α × Call → Prop) : Prop where
  | fault (ran : (program call).1 = .fault)
  | done (complete : script.complete = true) (whole : (call.reach machine script.items).whole = true)
      (ends : goal (program call))
  | full {after : Call} (short : (call.reach machine script.items).whole = false)
      (ran : program call = (.stop .badData, after)) (kept : keeps call after)

namespace Finishes
variable {α β : Type} {goal : Outcome Status β × Call → Prop}

theorem last {program : Proc Call Status β} (ends : (program call).1 = .fault ∨ goal (program call)) :
    Finishes machine keeps program call .nothing goal := by
  rcases ends with faulted | reached
  · exact .fault faulted
  · exact .done rfl rfl reached

theorem of_apply {program other : Proc Call Status β} {script : Script} (same : program call = other call)
    (finishes : Finishes machine keeps other call script goal) : Finishes machine keeps program call script goal := by
  cases finishes with
  | fault ran => exact .fault (same ▸ ran)
  | done complete whole ends => exact .done complete whole (same ▸ ends)
  | full short ran kept => exact .full short (same.trans ran) kept

theorem get {next : Call → Proc Call Status β} {script : Script}
    (rest : Finishes machine keeps (next call) call script goal) :
    Finishes machine keeps (Proc.get >>= next) call script goal :=
  of_apply (show (Proc.get >>= next) call = next call call from rfl) rest

theorem bindVia (frame : Frame keeps) {via : Call → Call → Prop} (weaker : ∀ {after}, via call after → keeps call after)
    {first : Proc Call Status α} {value : α} {next : α → Proc Call Status β} {script later : Script}
    (start : Emits machine via first (.ok value) call script)
    (rest : ∀ after, via call after → Finishes machine keeps (next value) after later goal) :
    Finishes machine keeps (first >>= next) call (script.chain later) goal := by
  cases start with
  | fault ran => exact .fault (by rw [bind_fault ran])
  | full short ran kept moved offset => exact .full (reach_chain_short later short ▸ short) (bind_stop ran) (weaker kept)
  | @done middle complete whole ran kept moved offset =>
    have same := reach_chain_whole later complete whole moved offset
    have onward : (first >>= next) call = next value middle := bind_ok ran
    cases rest middle kept with
    | fault ranRest => exact .fault (onward ▸ ranRest)
    | done completeRest wholeRest ends =>
      exact .done (chain_complete complete completeRest) (same ▸ wholeRest) (onward ▸ ends)
    | full short ranRest keptRest =>
      exact .full (same ▸ short) (onward.trans ranRest) (frame.trans (weaker kept) keptRest)

theorem bind (frame : Frame keeps) {first : Proc Call Status α} {value : α} {next : α → Proc Call Status β}
    {script later : Script} (start : Emits machine keeps first (.ok value) call script)
    (rest : ∀ after, keeps call after → Finishes machine keeps (next value) after later goal) :
    Finishes machine keeps (first >>= next) call (script.chain later) goal := bindVia frame id start rest

theorem bindStill (frame : Frame keeps) {via : Call → Call → Prop} (weaker : ∀ {after}, via call after → keeps call after)
    {first : Proc Call Status α} {value : α} {next : α → Proc Call Status β} {script : Script}
    (start : Emits machine via first (.ok value) call .nothing)
    (rest : ∀ after, via call after → Finishes machine keeps (next value) after script goal) :
    Finishes machine keeps (first >>= next) call script goal := bindVia frame weaker start rest

theorem bindLast (frame : Frame keeps) {first : Proc Call Status α} {value : α} {next : α → Proc Call Status β}
    {script : Script} (start : Emits machine keeps first (.ok value) call script)
    (rest : ∀ after, keeps call after → (next value after).1 = .fault ∨ goal (next value after)) :
    Finishes machine keeps (first >>= next) call script goal := by
  rw [← Script.chain_nothing script]
  exact bind frame start fun after kept => last (rest after kept)

end Finishes
end Call
end KsmbdTools.Rpc
