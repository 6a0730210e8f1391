import Chuzz.Gpu.Replies

/-! Whoever waits for a slot hears of it. A slot is finished once, and once more when it is that of a
capture that is cut off: the guard on the worker's stack finishes it first, then the worker. -/
namespace Chuzz.Gpu
open Std Library.Threads List

/-- Whether a request has the slot of a place. -/
def Request.hasSlot (place : Nat) (self : Request) : Bool := self.direct && self.place = place

namespace Thread

/-- Whether a thread is still to finish the slot of a place. -/
def unfinished (place : Nat) : Thread → Nat
  | .picked request | .executing request | .finishing request (.error _) =>
    if request.hasSlot place then 1 else 0
  | _ => 0

/-- Whether a thread can still cut the request of a place off. -/
def uncut (place : Nat) : Thread → Nat
  | .picked request | .executing request => if request.hasSlot place then 1 else 0
  | _ => 0

end Thread

namespace State
variable (self : State) (place : Nat)

def queued : Nat :=
  self.incoming.countP (·.hasSlot place) + self.requests.countP (·.hasSlot place)

def finishes : Nat := (self.slots place).finishes

def cuts : Nat := self.cutOff.count place

def slotsAsked : Nat := self.issued.countP (·.hasSlot place)

@[simp] theorem finishes_finishSlot (other : Nat) (result : Except GpuError Unit) :
    (self.finishSlot other result).finishes place =
      self.finishes place + if other = place then 1 else 0 := by
  by_cases same : other = place
  · subst same
    simp [finishes, finishSlot, Slot.finish]
  · simp [finishes, finishSlot, same, Function.update_of_ne (Ne.symm same)]

@[simp] theorem finishes_reject (request : Request) (error : GpuError) :
    (self.reject request error).finishes place =
      self.finishes place + if request.hasSlot place then 1 else 0 := by
  unfold reject Request.hasSlot
  cases request.direct <;> simp

@[simp] theorem queued_reject (request : Request) (error : GpuError) :
    (self.reject request error).queued place = self.queued place := by
  unfold reject
  split <;> rfl

@[simp] theorem cuts_reject (request : Request) (error : GpuError) :
    (self.reject request error).cuts place = self.cuts place := by
  unfold reject
  split <;> rfl

theorem queued_more (request : Request) :
    State.queued { self with requests := self.requests ++ [request] } place =
      self.queued place + if request.hasSlot place then 1 else 0 := by
  simp [queued, countP_append, countP_cons, Nat.add_assoc]

end State

@[simp] theorem Next.unfinished_thread (next : Next) (place : Nat) :
    next.thread.unfinished place = 0 ∧ next.thread.uncut place = 0 := by
  cases next <;> exact ⟨rfl, rfl⟩

section
variable {request : Request} {target place : Nat} {command : DeviceCommand} {fire : Bool}
  (asks : request.body = .command target command fire)
include asks

theorem Request.hasSlot_command : request.hasSlot place = false := by
  simp [hasSlot, direct, asks]

theorem Thread.unfinished_command (result : Except GpuError Payload) : (Thread.finishing request result).unfinished place = 0 := by
  cases result <;> simp [unfinished, Request.hasSlot_command asks]

end

theorem Request.hasSlot_direct {request : Request} {place : Nat} (direct : request.direct) :
    (if request.hasSlot place then 1 else 0) = if request.place = place then 1 else 0 := by
  simp [hasSlot, direct]

/-- What changes of the slots of a place. -/
structure Accounts (place : Nat) (state after : State) (before moved : Nat × Nat) : Prop where
  finishes : after.queued place + after.finishes place + moved.1 + state.cuts place =
    state.queued place + state.finishes place + before.1 + after.cuts place
  cuts : after.queued place + after.cuts place + moved.2 ≤
    state.queued place + state.cuts place + before.2

theorem Completes.slots {state after : State} {next : Next} {completion : Completion}
    {thread : Thread} (completes : Completes state next completion after thread) (place : Nat) :
    Accounts place state after (0, 0) (thread.unfinished place, thread.uncut place) := by
  cases completes with
  | gone | capture | success | post | report =>
    rw [(next.unfinished_thread place).1, (next.unfinished_thread place).2]
    exact ⟨rfl, le_rfl⟩
  | _ => exact ⟨rfl, le_rfl⟩

theorem Moves.slots {state after : State} {thread moved : Thread}
    (moves : Moves state thread after moved) (place : Nat) :
    Accounts place state after (thread.unfinished place, thread.uncut place)
      (moved.unfinished place, moved.uncut place) := by
  cases moves with
  | complete completes => exact completes.slots place
  | pick next =>
    constructor <;> simp only [State.queued, State.finishes, State.cuts, next, countP_cons,
      Thread.unfinished, Thread.uncut] <;> omega
  | skip =>
    constructor <;> simp only [State.finishes_reject, State.queued_reject, State.cuts_reject,
      Thread.unfinished, Thread.uncut] <;> omega
  | missing asks | image asks =>
    rw [Thread.unfinished_command asks]
    constructor <;> simp [Thread.unfinished, Thread.uncut, Request.hasSlot_command asks]
  | find asks =>
    constructor <;> simp [Thread.unfinished, Thread.uncut, Request.hasSlot_command asks]
  | run asks | cutCommand asks =>
    rw [Thread.unfinished_command asks]
    exact ⟨rfl, le_rfl⟩
  | read direct =>
    constructor
    · rw [State.finishes_finishSlot]
      simp only [Thread.unfinished, Request.hasSlot_direct direct]
      change state.queued place + _ + 0 + _ = _ + state.cuts place
      omega
    · change state.queued place + state.cuts place + 0 ≤ _
      omega
  | cutReadback asks =>
    constructor <;> simp only [Thread.unfinished, Thread.uncut] <;> omega
  | @cutCapture request result asks =>
    have direct : request.direct := by rw [Request.direct, asks]
    have finished := state.finishes_finishSlot place request.place result
    have cut : (state.cutOff ++ [request.place]).count place =
        state.cuts place + if request.place = place then 1 else 0 := by
      simp [State.cuts, count_append, count_cons]
    constructor
    · simp only [Thread.unfinished, Request.hasSlot_direct direct]
      change state.queued place + (state.finishSlot request.place result).finishes place + _ + _ =
        _ + (state.cutOff ++ [request.place]).count place
      omega
    · simp only [Thread.uncut, Request.hasSlot_direct direct]
      change state.queued place + (state.cutOff ++ [request.place]).count place + 0 ≤ _
      omega
  | refuse =>
    constructor <;> simp only [State.finishes_reject, State.queued_reject, State.cuts_reject,
      Thread.unfinished, Thread.uncut] <;> omega
  | _ => exact ⟨rfl, le_rfl⟩

theorem Request.hasSlot_startup {request : Request} (startup : request.startup) (place : Nat) :
    request.hasSlot place = false := by
  unfold Request.startup at startup
  split at startup <;> simp_all [hasSlot, direct]

namespace Bridge

/-- How often the slot of a place is still to be finished. -/
def unfinished (self : Bridge) (place : Nat) : Nat :=
  self.state.queued place + total (Thread.unfinished place) self.threads

def uncut (self : Bridge) (place : Nat) : Nat :=
  self.state.queued place + total (Thread.uncut place) self.threads

/-- Every slot is finished as often as it is asked for and cut off. -/
structure Finishes (bridge : Bridge) (place : Nat) : Prop where
  finishes : bridge.unfinished place + bridge.state.finishes place =
    bridge.state.slotsAsked place + bridge.state.cuts place
  cuts : bridge.uncut place + bridge.state.cuts place ≤ bridge.state.slotsAsked place

end Bridge

theorem Enters.slots {before after : Bridge} {request : Request}
    (enters : Enters before request after) (place : Nat) :
    after.unfinished place + after.state.finishes place =
        before.unfinished place + before.state.finishes place +
          (if request.hasSlot place then 1 else 0) ∧
      after.uncut place ≤ before.uncut place + (if request.hasSlot place then 1 else 0) ∧
      after.state.cuts place = before.state.cuts place := by
  unfold Bridge.unfinished Bridge.uncut
  cases enters with
  | busy startup =>
    rw [Request.hasSlot_startup startup]
    exact ⟨rfl, le_rfl, rfl⟩
  | refused | uncaptured =>
    have finishes := before.state.finishes_reject place request Bridge.limitReached
    have queued := before.state.queued_reject place request Bridge.limitReached
    have cuts := before.state.cuts_reject place request Bridge.limitReached
    refine ⟨?_, ?_, cuts⟩
    · change (before.state.reject request Bridge.limitReached).queued place +
        total (Thread.unfinished place) before.threads +
        (before.state.reject request Bridge.limitReached).finishes place = _
      omega
    · change (before.state.reject request Bridge.limitReached).queued place +
        total (Thread.uncut place) before.threads ≤ _
      omega
  | spawn startup =>
    rw [Request.hasSlot_startup startup, total_append, total_append]
    exact ⟨rfl, le_rfl, rfl⟩
  | queue =>
    have queued := before.state.queued_more place request
    refine ⟨?_, ?_, rfl⟩
    · change State.queued { before.state with requests := _ } place +
        total (Thread.unfinished place) before.threads + before.state.finishes place = _
      dsimp only at *
      omega
    · change State.queued { before.state with requests := _ } place +
        total (Thread.uncut place) before.threads ≤ _
      dsimp only at *
      omega
  | awaken =>
    have queued := before.state.queued_more place request
    refine ⟨?_, ?_, rfl⟩
    · rw [total_append]
      change State.queued { before.state with requests := _ } place +
        (total (Thread.unfinished place) before.threads + 0) + before.state.finishes place = _
      dsimp only at *
      omega
    · rw [total_append]
      change State.queued { before.state with requests := _ } place +
        (total (Thread.uncut place) before.threads + 0) ≤ _
      dsimp only at *
      omega

theorem State.slotsAsked_issue (state : State) (request : Request) (place : Nat) :
    (state.issue request).slotsAsked place =
      state.slotsAsked place + if request.hasSlot place then 1 else 0 := by
  simp [slotsAsked, issue, countP_append, countP_cons]

theorem Request.hasSlot_page {request : Request} (page : ¬ request.direct) (place : Nat) :
    request.hasSlot place = false := by
  simp [hasSlot, page]

theorem Turns.slots {before after : Bridge} (turns : Turns before after) {place : Nat}
    (kept : before.Finishes place) : after.Finishes place := by
  obtain ⟨finishes, cuts⟩ := kept
  unfold Bridge.unfinished at finishes
  unfold Bridge.uncut at cuts
  cases turns with
  | idle | elapse | drain | lose => exact ⟨finishes, cuts⟩
  | @take other =>
    have same : State.finishes { before.state with
        slots := Function.update before.state.slots other (before.state.slots other).take } place =
        before.state.finishes place := by
      by_cases same : other = place
      · subst same
        simp [State.finishes, Slot.take]
      · simp [State.finishes, Function.update_of_ne (Ne.symm same)]
    exact ⟨same ▸ finishes, cuts⟩
  | @refuse request error page =>
    have asked := before.state.slotsAsked_issue request place
    rw [Request.hasSlot_page page] at asked
    constructor
    · change _ = (before.state.issue request).slotsAsked place + before.state.cuts place
      rw [asked]
      exact finishes
    · change _ ≤ (before.state.issue request).slotsAsked place
      rw [asked]
      exact cuts
  | @arrive request page =>
    have asked := before.state.slotsAsked_issue request place
    rw [Request.hasSlot_page page] at asked
    have queued : (before.state.incoming ++ [request]).countP (·.hasSlot place) =
        before.state.incoming.countP (·.hasSlot place) := by
      simp [countP_append, Request.hasSlot_page page]
    constructor
    · change (_ + _) + _ + _ = (before.state.issue request).slotsAsked place + before.state.cuts place
      rw [asked, queued]
      exact finishes
    · change (_ + _) + _ + _ ≤ (before.state.issue request).slotsAsked place
      rw [asked, queued]
      exact cuts
  | @prepare request rest _ waiting enters =>
    obtain ⟨entered, uncut, same⟩ := enters.slots place
    have fewer : before.state.queued place =
        State.queued { before.state with incoming := rest } place +
          if request.hasSlot place then 1 else 0 := by
      simp only [State.queued, waiting, countP_cons]
      omega
    have issued : after.state.slotsAsked place = before.state.slotsAsked place :=
      congrArg (countP _) (enters.tokens 0).2
    have cut : after.state.cuts place = before.state.cuts place := same
    constructor
    · rw [issued, cut, entered]
      change State.queued _ place + total _ before.threads + before.state.finishes place + _ = _
      dsimp only at *
      omega
    · rw [issued, cut]
      change _ ≤ State.queued _ place + total _ before.threads + _ at uncut
      dsimp only at *
      omega
  | @submit request _ direct placed enters =>
    obtain ⟨entered, uncut, same⟩ := enters.slots place
    have asked := before.state.slotsAsked_issue request place
    have issued : after.state.slotsAsked place = (before.state.issue request).slotsAsked place :=
      congrArg (countP _) (enters.tokens 0).2
    have cut : after.state.cuts place = before.state.cuts place := same
    constructor
    · rw [issued, asked, cut, entered]
      change before.state.queued place + total _ before.threads + before.state.finishes place + _ = _
      omega
    · rw [issued, asked, cut]
      change _ ≤ before.state.queued place + total _ before.threads + _ at uncut
      omega
  | expire =>
    constructor
    · rw [Bridge.unfinished, total_append]
      exact finishes
    · rw [Bridge.uncut, total_append]
      exact cuts
  | @move k thread state thread' at_k moves =>
    obtain ⟨moved, uncut⟩ := moves.slots place
    have counted := total_set (Thread.unfinished place) thread' at_k
    have counted' := total_set (Thread.uncut place) thread' at_k
    have issued : state.slotsAsked place = before.state.slotsAsked place :=
      congrArg (countP _) (moves.tokens 0).2
    constructor
    · unfold Bridge.unfinished
      dsimp only at *
      omega
    · unfold Bridge.uncut
      dsimp only at *
      omega

end Chuzz.Gpu
