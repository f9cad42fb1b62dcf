import WebSocket.Handler

/-!
# A session in progress

`Conversation` is a session together with the tasks that wait to run and the journal of what its
handler has seen. Tasks run in the order in which they were started, each to its end, and only
when the session itself waits: `settle` runs all that are there and all that these start.

While the handler is being asked the session holds the output. A list of calls then gets no
further than the first call that needs it, and never ends.
-/

namespace WebSocket

/-- What waits to run beside the session. -/
inductive Task where
  /-- Calls, with the message that was being handled when the task was started. -/
  | script (delivery : Option Delivery) (calls : List Call)
  | worker (messages : List Delivery)
  deriving Repr

/-- What a journal tells of a callback or a task that has ended: the state in which a callback
began and the answers to its calls. -/
inductive Entry where
  | connect (state : SessionState) (answers : List Answer)
  | message (kind : MessageKind) (payload : Bytes) (state : SessionState)
      (answers : List Answer)
  | disconnect (state : SessionState) (answers : List Answer)
  | spawned (answers : List Answer)
  deriving DecidableEq, Repr

structure Conversation where
  server : Server
  /-- Whether the session holds the output, so that no call gets it. -/
  holdsOutput : Bool := false
  pending : List Task := []
  journal : Array Entry := #[]
  /-- How many messages the handler has received. -/
  delivered : Nat := 0
  /-- How many workers have not finished. -/
  activeWorkers : Nat := 0
  /-- Whether workers are to send no more. -/
  stopping : Bool := false
  deriving Repr

/-- The tasks that a list of calls starts. -/
def Call.spawned (delivery : Option Delivery) (calls : List Call) : List Task :=
  calls.filterMap fun call =>
    match call with
    | .spawn calls => some (.script delivery calls)
    | _ => none

/-- Bounds the tasks that come of a task: what a task starts weighs less than the task. -/
noncomputable def Task.weight : Task → Nat
  | script _ calls => sizeOf calls + 1
  | worker _ => 1

noncomputable def Task.totalWeight : List Task → Nat
  | [] => 0
  | task :: tasks => task.weight + totalWeight tasks

theorem Task.totalWeight_append (tasks others : List Task) :
    totalWeight (tasks ++ others) = totalWeight tasks + totalWeight others := by
  induction tasks with
  | nil => simp [totalWeight]
  | cons task tasks ih => simp [totalWeight, ih, Nat.add_assoc]

theorem Call.totalWeight_spawned_lt (delivery : Option Delivery) (calls : List Call) :
    Task.totalWeight (spawned delivery calls) < sizeOf calls := by
  induction calls with
  | nil => exact Nat.zero_lt_one
  | cons call calls ih =>
    simp only [spawned] at ih ⊢
    cases call
    case spawn inner =>
      simp only [List.filterMap_cons, Task.totalWeight, Task.weight, List.cons.sizeOf_spec,
        Call.spawn.sizeOf_spec]
      omega
    all_goals
      simp only [List.filterMap_cons, List.cons.sizeOf_spec]
      omega

namespace Conversation

/-- How far a list of calls gets. -/
def reach (conversation : Conversation) (delivery : Option Delivery) (calls : List Call) :
    List Call :=
  if conversation.holdsOutput then calls.takeWhile (!·.needsOutput delivery) else calls

/-- Makes calls, as far as they get, and queues the tasks that they start. There are answers
only if the calls come to their end. -/
def perform (conversation : Conversation) (delivery : Option Delivery) (calls : List Call) :
    Option (List Answer) × Conversation :=
  let reached := conversation.reach delivery calls
  let (answers, server) := conversation.server.performAll delivery reached
  let pending := conversation.pending ++ Call.spawned delivery reached
  (if reached.length = calls.length then some answers.toList else none,
    { conversation with server, pending })

/-- Makes an entry in the journal if the handler keeps one. -/
def note (handler : Handler) (entry : Entry) (conversation : Conversation) : Conversation :=
  if handler.keepsJournal then
    { conversation with journal := conversation.journal.push entry }
  else conversation

/-- Makes the calls of a callback and enters it in the journal if it comes to its end. -/
def callback (handler : Handler) (conversation : Conversation) (delivery : Option Delivery)
    (calls : List Call) (entry : List Answer → Entry) : Bool × Conversation :=
  match conversation.perform delivery calls with
  | (some answers, conversation) => (true, conversation.note handler (entry answers))
  | (none, conversation) => (false, conversation)

/-- Sends a worker's messages unless workers are stopped. The last worker to finish closes the
session. -/
def runWorker (handler : Handler) (conversation : Conversation) (messages : List Delivery) :
    Conversation :=
  let server :=
    if conversation.stopping then conversation.server
    else
      messages.foldl (fun server (kind, payload) => (server.send kind payload).2)
        conversation.server
  let server :=
    if conversation.activeWorkers = 1 then (server.closeWith handler.farewell).2 else server
  { conversation with server, activeWorkers := conversation.activeWorkers - 1 }

def runTask (handler : Handler) (conversation : Conversation) : Task → Conversation
  | .script delivery calls => (conversation.callback handler delivery calls .spawned).2
  | .worker messages => conversation.runWorker handler messages

theorem pending_note (handler : Handler) (entry : Entry) (conversation : Conversation) :
    (conversation.note handler entry).pending = conversation.pending := by
  unfold note
  split <;> rfl

theorem pending_callback (handler : Handler) (conversation : Conversation)
    (delivery : Option Delivery) (calls : List Call) (entry : List Answer → Entry) :
    (conversation.callback handler delivery calls entry).2.pending =
      conversation.pending ++ Call.spawned delivery (conversation.reach delivery calls) := by
  have performed : (conversation.perform delivery calls).2.pending =
      conversation.pending ++ Call.spawned delivery (conversation.reach delivery calls) := rfl
  unfold callback
  split
  · next answers after h => rw [pending_note, ← performed, h]
  · next after h => rw [← performed, h]

theorem totalWeight_reach_lt (conversation : Conversation) (delivery : Option Delivery)
    (calls : List Call) :
    Task.totalWeight (Call.spawned delivery (conversation.reach delivery calls)) <
      sizeOf calls := by
  refine Nat.lt_of_lt_of_le (Call.totalWeight_spawned_lt ..) ?_
  unfold reach
  split
  · induction calls with
    | nil => simp
    | cons call calls ih =>
      simp only [List.takeWhile_cons]
      split <;> simp only [List.cons.sizeOf_spec, List.nil.sizeOf_spec] <;> omega
  · exact Nat.le_refl _

theorem totalWeight_runTask_lt (handler : Handler) (conversation : Conversation) (task : Task)
    (rest : List Task) (h : conversation.pending = task :: rest) :
    Task.totalWeight (runTask handler { conversation with pending := rest } task).pending <
      Task.totalWeight conversation.pending := by
  rw [h]
  cases task with
  | script delivery calls =>
    have := totalWeight_reach_lt { conversation with pending := rest } delivery calls
    simp only [runTask, pending_callback, Task.totalWeight_append, Task.totalWeight, Task.weight]
    omega
  | worker messages =>
    simp [runTask, runWorker, Task.totalWeight, Task.weight]

/-- Runs the tasks that wait, and those that they start, until none is left. -/
def settle (handler : Handler) (conversation : Conversation) : Conversation :=
  match _h : conversation.pending with
  | [] => conversation
  | task :: rest => settle handler (runTask handler { conversation with pending := rest } task)
termination_by Task.totalWeight conversation.pending
decreasing_by exact totalWeight_runTask_lt handler conversation task rest _h

end Conversation

end WebSocket
