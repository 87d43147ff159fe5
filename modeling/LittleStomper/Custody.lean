/-
# Custody of the command receiver

The receiver of a timer's commands moves: from the timer to its first task, through nested
calls, and from each task that ticks to the task it spawns.  As long as the timer and its
resetter are there, exactly one place has it, so no command fails; and what was sent is what
was received, in order, and what still waits.
-/
import LittleStomper.TimerChain
import LittleStomper.ClientStep

/-! ## Places and accounts -/

/-- A place that can own the receiver. -/
inductive ReceiverOwner where
  | timer
  | task (i : TaskId)
  deriving DecidableEq, Repr

namespace TimerState

/-- The places that own the receiver. -/
def owners (s : TimerState) : List ReceiverOwner :=
  (if s.timer.any (·.receiver) then [.timer] else []) ++
    ((List.range s.tasks.length).filter fun i => s.tasks[i]?.any (·.ownsReceiver)).map .task

/-- **Single custody.**  The timer has not been polled, has the receiver and there is no task;
or the last task is the only one that is not finished and has the receiver, and every earlier
task has finished with the handle of the next. -/
inductive SingleCustody (s : TimerState) : Prop
  | timer (hpolled : s.timer.all (·.task.isNone)) (howners : s.owners = [.timer])
      (htasks : s.tasks = [])
  | task (last : TaskId) (hpolled : s.timer.all (·.task.isSome)) (howners : s.owners = [.task last])
      (hunfinished : s.unfinished = [last])
      (hlast : s.tasks.length = last + 1)
      (hearlier : ∀ i, i < last → s.tasks[i]? = some (.fired (i + 1)))

end TimerState

namespace TimerObs

/-- The command that was sent. -/
def sent? : TimerObs → Option ResettableTimerCommand
  | sent _ c true => some c
  | _ => none

/-- The command that was received. -/
def consumed? : TimerObs → Option ResettableTimerCommand
  | consumed _ c => some c
  | _ => none

/-- A command was refused. -/
def isRefusal : TimerObs → Bool
  | sent _ _ false => true
  | _ => false

end TimerObs

/-- The commands sent in a run. -/
def sentCommands (tr : List TimerObs) : List ResettableTimerCommand :=
  tr.filterMap TimerObs.sent?

/-- The commands received in a run. -/
def consumedCommands (tr : List TimerObs) : List ResettableTimerCommand :=
  tr.filterMap TimerObs.consumed?

/-! ## Chains have one owner -/

namespace HeldTimer

variable {now : Instant} {h h' : HeldTimer} {a : TimerAction} {os : List TimerObs}

/-- While there is a resetter, there is a receiver. -/
def Listening (h : HeldTimer) : Prop := h.resetter = true → h.accepts = true

/-- A call of `create_task_with_receiver` owns the receiver. -/
@[simp] theorem ownsReceiver_createTaskWithReceiver (now : Instant) (period : Duration) :
    (createTaskWithReceiver now period).ownsReceiver = true := by
  rw [createTaskWithReceiver]
  split <;> rfl

/-- **Every step keeps a receiver for the resetter.** -/
theorem Step.listening (hstep : Step now h a h' os) (hl : h.Listening) : h'.Listening := by
  cases hstep with
  | @sent h c hresetter haccepts =>
      intro _
      cases h <;> exact haccepts
  | unsent hresetter haccepts => exact hl
  | @dropResetter h hresetter =>
      intro hr
      cases h <;> cases hr
  | initialised => exact fun _ => rfl
  | waits hpolled => exact hl
  | emits hpolled => exact hl
  | starts hfuture => exact fun _ => ownsReceiver_createTaskWithReceiver _ _
  | consumes hfuture hcommands => exact fun _ => ownsReceiver_createTaskWithReceiver _ _
  | stops hfuture hcommands hresetter => exact fun _ => rfl
  | @closes k period deadline hfuture hcommands hresetter =>
      intro (hr : k.resetter = true)
      rw [hresetter] at hr
      cases hr
  | ticks hfuture hdue => exact fun _ => rfl
  | @ticksAlone k period deadline hfuture hdue =>
      intro (hr : k.resetter = true)
      have haccepts : k.future.ownsReceiver = true := hl hr
      rw [hfuture] at haccepts
      cases haccepts

/-- While there is a resetter, one place has the receiver. -/
theorem Listening.singleCustody (hl : h.Listening) (hresetter : h.resetter = true) :
    h.toState.SingleCustody := by
  cases h with
  | fresh period commands resetter => exact TimerState.SingleCustody.timer rfl rfl rfl
  | started k =>
      have haccepts : k.future.ownsReceiver = true := hl hresetter
      refine TimerState.SingleCustody.task k.ticks rfl ?_ ?_ ?_ ?_
      · show [] ++ (List.filter _ _).map ReceiverOwner.task = _
        rw [toState, TimerChain.toState, filter_links (fun _ => rfl) k.ticks haccepts]
        rfl
      · exact filter_links (fun _ => rfl) k.ticks rfl
      · show (links k.ticks ++ [_]).length = _
        simp
      · exact fun i hi => links_getElem? hi _

/-- The books: a resetter has a receiver, what was sent was received or still waits, and
nothing sent while the resetter was there was refused. -/
structure Accounts (h : HeldTimer) (tr : List TimerObs) : Prop where
  listening : h.Listening
  queue : sentCommands tr = consumedCommands tr ++ h.commands
  unrefused : ∀ o ∈ tr, o.isRefusal = false

/-- **Every step keeps the books.** -/
theorem Step.accounts {tr : List TimerObs} (hstep : Step now h a h' os) (hacc : h.Accounts tr) :
    h'.Accounts (tr ++ os) := by
  have hqueue := hacc.queue
  have hlistening := hstep.listening hacc.listening
  have hunrefused : (∀ o ∈ os, o.isRefusal = false) → ∀ o ∈ tr ++ os, o.isRefusal = false :=
    fun hrefused o ho => (List.mem_append.mp ho).elim (hacc.unrefused o) (hrefused o)
  -- only a sent command and a received one change the books
  have hsilent : h'.commands = h.commands → sentCommands os = [] → consumedCommands os = [] →
      (∀ o ∈ os, o.isRefusal = false) → h'.Accounts (tr ++ os) := by
    intro hcommands hsent hconsumed hrefused
    refine ⟨hlistening, ?_, hunrefused hrefused⟩
    rw [sentCommands, consumedCommands] at *
    rw [List.filterMap_append, List.filterMap_append, hsent, hconsumed, hcommands, hqueue]
    simp
  cases hstep with
  | @sent h c hresetter haccepts =>
      refine ⟨hlistening, ?_, hunrefused (by simp [TimerObs.isRefusal])⟩
      have hq : (h.queue c).commands = h.commands ++ [c] := by cases h <;> rfl
      rw [sentCommands, consumedCommands] at *
      rw [List.filterMap_append, List.filterMap_append, hqueue, hq]
      simp [TimerObs.sent?, TimerObs.consumed?]
  | unsent hresetter haccepts =>
      rw [hacc.listening hresetter] at haccepts
      cases haccepts
  | @consumes k period c commands hfuture hcommands =>
      refine ⟨hlistening, ?_, hunrefused (by simp [TimerObs.isRefusal])⟩
      have hk : (started k).commands = c :: commands := hcommands
      rw [sentCommands, consumedCommands] at *
      rw [List.filterMap_append, List.filterMap_append, hqueue, hk]
      simp [TimerObs.sent?, TimerObs.consumed?, HeldTimer.commands]
  | @dropResetter h hresetter => exact hsilent (by cases h <;> rfl) rfl rfl (by simp)
  | _ => exact hsilent rfl rfl rfl (by simp [TimerObs.isRefusal])

end HeldTimer

/-! ## Runs -/

namespace ClockedTimer

variable {now : Instant} {period : Duration} {ls : List TimerLabel} {tr : List TimerObs}
  {x : ClockedTimer}

/-- The books are kept in every run, until the timer is dropped. -/
theorem accounts {C : ClockedTimer → TimerLabel → Prop}
    (hrun : lts.Run C (start now period) ls tr x) :
    HoldsUntilDrop (fun _ h tr => h.Accounts tr) x tr := by
  have hfresh : (HeldTimer.fresh period [] true).Accounts [] := ⟨fun _ => rfl, rfl, by simp⟩
  refine invariant hrun hfresh ?_ ?_
  · exact fun hacc _ => hacc
  · exact fun hacc _ hstep => hstep.accounts hacc

/-- **Single custody of the command receiver.**  In every state that some run reaches and in
which timer and resetter are there, exactly one place has the receiver, nothing that was sent
is lost or received twice, no command was refused or will be, and no message finds its
session unable to reset the timer. -/
theorem single_custody (hrun : lts.Run LTS.Free (start now period) ls tr x)
    (hheld : x.state.timer.isSome = true) (hresetter : x.state.resetter = true) :
    x.state.SingleCustody ∧ sentCommands tr = consumedCommands tr ++ x.state.commands ∧
      (∀ o ∈ tr, o.isRefusal = false) ∧
      (∀ c, x.state.step x.now (.command c) =
        some ({ x.state with commands := x.state.commands ++ [c] }, [.sent x.now c true])) ∧
      ∀ (p : Params) (r : ClientSession) (i : SubscriptionId) (m : OutboundMessage),
        (r.handleEvent p (!x.state.accepts) (.serverMessage i m)).isSome = true := by
  rcases accounts hrun with ⟨h, hstate, hacc⟩ | ⟨hdropped, -⟩
  rotate_left
  · rw [hdropped] at hheld
    cases hheld
  rw [hstate] at hresetter ⊢
  have haccepts : h.toState.accepts = true := by
    rw [HeldTimer.toState_accepts]
    exact hacc.listening (by simpa using hresetter)
  refine ⟨hacc.listening.singleCustody (by simpa using hresetter), ?_, hacc.unrefused, ?_, ?_⟩
  · simpa using hacc.queue
  · intro c
    simp only [TimerState.step, TimerState.send, hresetter, haccepts, if_true]
  · intro p r i m
    simp [ClientSession.handleEvent, haccepts]

/-- The theorem applied to a timer that has received a command, ticked, and been sent another
command while its tick waits to be picked up. -/
theorem single_custody_ticked :
    let ls : List TimerLabel := [.act .poll, .act (.task 0 .start), .act (.command .reset),
      .act (.task 0 .receive), .advance (Duration.fromMillis 5000), .act (.task 0 .elapse),
      .act (.command (.changePeriod (Duration.fromMillis 7000)))]
    ∃ tr x, lts.Run LTS.Free (start 0 (Duration.fromMillis 5000)) ls tr x ∧
      x.state.owners = [.task 1] ∧ x.state.SingleCustody ∧
      sentCommands tr = consumedCommands tr ++ x.state.commands := by
  intro ls
  have hrun := LTS.Run.exec_get lts LTS.Free (start 0 (Duration.fromMillis 5000)) ls (by decide)
  have hcustody := single_custody hrun (by decide) (by decide)
  exact ⟨_, _, hrun, by decide, hcustody.1, hcustody.2.1⟩

end ClockedTimer
