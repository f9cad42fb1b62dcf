import Mathlib.Algebra.GroupWithZero.Nat
import Mathlib.Logic.Relation
import WebSocket.Proofs.ClosePayload
import WebSocket.Proofs.Interleaving
import WebSocket.Proofs.Session.OpenSession

/-!
# Workers in any order

Workers run beside a session, and each may be stopped after any of its messages for the others to
go on. `Conversation.Works` is one turn of any of them. Nothing is assumed about whose turn it is:
whatever the order, no worker waits for another one and none goes on forever
(`Conversation.exists_works`, `Conversation.Works.turns_lt`), and letting each run to its end, one
after another, is one of the orders (`Conversation.works_settle`).

While the session is open, all that the workers send is admitted, each worker's messages in their
order, and the close frame comes from the one that finishes last, behind all of them
(`Conversation.Crew.getsThrough`). When the workers are told to stop, they finish without sending
anything (`Conversation.Stopped.getsThrough`).
-/

namespace WebSocket

/-- How many turns a worker has left, at the most. -/
def Task.turns : Task → Nat
  | .script .. => 0
  | .worker messages => messages.length + 1

namespace Conversation

variable {handler : Handler} {conversation next last : Conversation}

/-- A turn of one of the workers that wait, whichever it is. It sends its next message; or, when it
has no more or is told to stop, it finishes, and the last one to do so closes the session. -/
inductive Works (handler : Handler) (conversation : Conversation) : Conversation → Prop where
  | sends (before after : List Task) (message : Delivery) (rest : List Delivery)
      (waits : conversation.pending = before ++ .worker (message :: rest) :: after)
      (goes : conversation.stopping = false) :
    Works handler conversation
      { conversation with
        server := (conversation.server.send message.1 message.2).2
        pending := before ++ .worker rest :: after }
  | finishes (before after : List Task) (messages : List Delivery)
      (waits : conversation.pending = before ++ .worker messages :: after)
      (done : messages = [] ∨ conversation.stopping = true) :
    Works handler conversation
      (runWorker handler { conversation with pending := before ++ after } [])

/-- What waits are workers with these messages left. -/
def Awaits (lists : List (List Delivery)) (conversation : Conversation) : Prop :=
  conversation.pending = lists.map Task.worker

/-! ## Every order comes to an end -/

/-- As long as a worker is left, some worker can go on. -/
theorem exists_works {lists : List (List Delivery)} (waits : conversation.Awaits lists)
    (some : conversation.pending ≠ []) : ∃ next, Works handler conversation next := by
  cases lists with
  | nil => exact absurd waits some
  | cons messages lists =>
    cases stops : conversation.stopping with
    | true => exact ⟨_, .finishes [] _ messages waits (.inr stops)⟩
    | false =>
      cases messages with
      | nil => exact ⟨_, .finishes [] _ [] waits (.inl rfl)⟩
      | cons message rest => exact ⟨_, .sends [] _ message rest waits stops⟩

/-- Each turn brings the workers nearer to their end. -/
theorem Works.turns_lt (works : Works handler conversation next) :
    (next.pending.map Task.turns).sum < (conversation.pending.map Task.turns).sum := by
  cases works with
  | sends before after message rest waits goes =>
    simp only [waits, List.map_append, List.map_cons, List.sum_append, List.sum_cons, Task.turns,
      List.length_cons]
    omega
  | finishes before after messages waits done =>
    simp only [runWorker, waits, List.map_append, List.map_cons, List.sum_append, List.sum_cons,
      Task.turns]
    omega

/-- No order goes on forever. -/
theorem not_works_forever (states : Nat → Conversation) :
    ¬ ∀ n, Works handler (states n) (states (n + 1)) := by
  intro works
  have spent (n : Nat) : ((states n).pending.map Task.turns).sum + n ≤
      ((states 0).pending.map Task.turns).sum := by
    induction n with
    | zero => exact Nat.le_refl _
    | succ n ih =>
      have less := (works n).turns_lt
      omega
  have spare := spent (((states 0).pending.map Task.turns).sum + 1)
  omega

/-- In whatever order the workers take their turns, they get through, and then this holds. -/
structure GetsThrough (handler : Handler) (conversation : Conversation)
    (P : Conversation → Prop) : Prop where
  goesOn : ∀ next, Relation.ReflTransGen (Works handler) conversation next →
    next.pending ≠ [] → ∃ further, Works handler next further
  stops : ∀ states : Nat → Conversation, states 0 = conversation →
    ¬ ∀ n, Works handler (states n) (states (n + 1))
  ends : ∀ next, Relation.ReflTransGen (Works handler) conversation next →
    next.pending = [] → P next

/-! ## One worker after another -/

theorem pending_settle (handler : Handler) (conversation : Conversation) :
    (conversation.settle handler).pending = [] := by
  fun_induction settle handler conversation with
  | case1 conversation idle => exact idle
  | case2 conversation task rest waits ih => exact ih

/-- A worker that runs to its end takes its turns without a pause. -/
theorem works_runWorker {messages : List Delivery} {rest : List Task}
    (waits : conversation.pending = .worker messages :: rest) :
    Relation.ReflTransGen (Works handler) conversation
      (runWorker handler { conversation with pending := rest } messages) := by
  have finish {conversation : Conversation} {messages : List Delivery}
      (waits : conversation.pending = .worker messages :: rest)
      (done : messages = [] ∨ conversation.stopping = true) :
      Works handler conversation (runWorker handler { conversation with pending := rest } []) :=
    .finishes [] rest messages waits done
  by_cases stops : conversation.stopping = true
  · have same : runWorker handler { conversation with pending := rest } messages =
        runWorker handler { conversation with pending := rest } [] := by
      simp only [runWorker, stops, if_true]
    rw [same]
    exact .single (finish waits (.inr stops))
  · induction messages generalizing conversation with
    | nil => exact .single (finish waits (.inl rfl))
    | cons message messages ih =>
      let sent : Conversation :=
        { conversation with
          server := (conversation.server.send message.1 message.2).2
          pending := .worker messages :: rest }
      have turn : Works handler conversation sent :=
        .sends [] rest message messages waits (Bool.eq_false_iff.mpr stops)
      have same : runWorker handler { conversation with pending := rest } (message :: messages) =
          runWorker handler { sent with pending := rest } messages := by
        simp only [runWorker, sent, if_neg stops, List.foldl_cons]
      rw [same]
      exact .head turn (ih rfl stops)

/-- Settling lets one worker after another run to its end. -/
theorem works_settle {lists : List (List Delivery)} (waits : conversation.Awaits lists) :
    Relation.ReflTransGen (Works handler) conversation (conversation.settle handler) := by
  fun_induction settle handler conversation generalizing lists with
  | case1 => exact .refl
  | case2 conversation task rest queue ih =>
    rw [Awaits, queue] at waits
    cases lists with
    | nil => cases waits
    | cons messages lists =>
      obtain ⟨rfl, others⟩ := List.cons.inj waits
      exact (works_runWorker queue).trans (ih others)

theorem GetsThrough.imp {P Q : Conversation → Prop} (through : conversation.GetsThrough handler P)
    (h : ∀ next, P next → Q next) : conversation.GetsThrough handler Q :=
  { through with ends := fun next run idle => h next (through.ends next run idle) }

theorem GetsThrough.settle {P : Conversation → Prop} {lists : List (List Delivery)}
    (through : conversation.GetsThrough handler P) (waits : conversation.Awaits lists) :
    P (conversation.settle handler) :=
  through.ends _ (works_settle waits) (pending_settle handler conversation)

/-! ## An open session -/

/-- An open session whose workers have these messages of data left. -/
structure Crew (lists : List (List Delivery)) (conversation : Conversation) : Prop where
  serving : conversation.server.Serving
  further : conversation.server.closing = false
  goes : conversation.stopping = false
  waits : conversation.Awaits lists
  active : conversation.activeWorkers = lists.length
  data : ∀ list ∈ lists, ∀ message ∈ list, message.1.isControl = false

/-- A session that the last of its workers has closed, behind what it had admitted before. -/
structure Dismissed (admitted : List (MessageKind × Bytes)) (payload : Bytes)
    (conversation : Conversation) : Prop where
  serving : conversation.server.Serving
  closing : conversation.server.closing = true
  waits : conversation.pending = []
  active : conversation.activeWorkers = 0
  admitted : conversation.server.outbound.admitted.toList = admitted ++ [(.close, payload)]

/-- What a turn makes of an open session. -/
inductive Crew.Turn (lists : List (List Delivery)) (payload : Bytes)
    (conversation next : Conversation) : Prop where
  | sent (before after : List (List Delivery)) (message : Delivery) (rest : List Delivery)
      (split : lists = before ++ (message :: rest) :: after)
      (crew : next.Crew (before ++ rest :: after))
      (admitted : next.server.outbound.admitted.toList =
        conversation.server.outbound.admitted.toList ++ [message])
  | finished (before after : List (List Delivery)) (split : lists = before ++ [] :: after)
      (some : before ++ after ≠ []) (crew : next.Crew (before ++ after))
      (same : next.server = conversation.server)
  | closed (split : lists = [[]])
      (dismissed :
        next.Dismissed conversation.server.outbound.admitted.toList payload)

section

variable {lists : List (List Delivery)} {payload : Bytes} {before after : List Task}
  {messages : List Delivery}

theorem Awaits.split (waits : conversation.Awaits lists)
    (queue : conversation.pending = before ++ .worker messages :: after) :
    ∃ front back, lists = front ++ messages :: back ∧ before = front.map Task.worker ∧
      after = back.map Task.worker := by
  obtain ⟨front, others, rfl, first, last⟩ := List.map_eq_append_iff.mp (waits.symm.trans queue)
  cases others with
  | nil => cases last
  | cons list back =>
    obtain ⟨same, behind⟩ := List.cons.inj last
    cases same
    exact ⟨front, back, rfl, first.symm, behind.symm⟩

/-- An open session refuses no message that is short enough. -/
theorem Crew.admits (crew : conversation.Crew lists) {kind : MessageKind}
    (small : kind.isControl = true → payload.length ≤ Error.maxControlPayload) :
    conversation.server.outbound.refusal? kind payload = none :=
  Outbound.refusal?_eq_none_iff.mpr
    ⟨crew.serving.attached, crew.serving.flag ▸ crew.further, small⟩

/-- A worker has its next message admitted. -/
theorem Crew.send {front back : List (List Delivery)} {message : Delivery} {rest : List Delivery}
    (crew : conversation.Crew (front ++ (message :: rest) :: back)) :
    let next : Conversation :=
      { conversation with
        server := (conversation.server.send message.1 message.2).2
        pending := front.map Task.worker ++ .worker rest :: back.map Task.worker }
    next.Crew (front ++ rest :: back) ∧
      next.server.outbound.admitted.toList =
        conversation.server.outbound.admitted.toList ++ [message] := by
  intro next
  have plain : message.1.isControl = false :=
    crew.data (message :: rest) (by simp) message List.mem_cons_self
  have other : (message.1 == .close) = false := by
    cases kind : message.1 with
    | close => rw [kind] at plain; cases plain
    | _ => rfl
  have sent : next.server = _ :=
    (Server.send_snd ..).trans (crew.serving.trySend_of_admitted (crew.admits (by simp [plain])))
  have left (list : List Delivery) (member : list ∈ front ++ rest :: back) :
      ∀ message ∈ list, message.1.isControl = false := by
    rcases List.mem_append.mp member with before | here
    · exact crew.data list (by simp [before])
    · rcases List.mem_cons.mp here with rfl | behind
      · exact fun next among => crew.data (message :: list) (by simp) next (.tail _ among)
      · exact crew.data list (by simp [behind])
  constructor
  · exact {
      serving := crew.serving.perform none (.send message.1 message.2)
      further := by rw [sent]; exact other
      goes := crew.goes
      waits := by simp [next, Awaits]
      active := by simpa [next] using crew.active
      data := left }
  · rw [sent]
    exact Array.toList_push

/-- A worker that finishes changes nothing of the session, unless it is the last. -/
theorem Crew.finish {front back : List (List Delivery)}
    (crew : conversation.Crew (front ++ [] :: back)) (others : front ++ back ≠ [])
    (handler : Handler) :
    let next := runWorker handler { conversation with
      pending := front.map Task.worker ++ back.map Task.worker } []
    next.Crew (front ++ back) ∧ next.server = conversation.server := by
  have active : conversation.activeWorkers = (front ++ back).length + 1 := by
    rw [crew.active, List.length_append, List.length_append, List.length_cons, Nat.add_assoc]
  have several : conversation.activeWorkers ≠ 1 := by
    have length := List.length_pos_iff.mpr others
    omega
  simp only [runWorker, if_neg several, List.foldl_nil, ite_self, and_true]
  exact {
    serving := crew.serving
    further := crew.further
    goes := crew.goes
    waits := (List.map_append ..).symm
    active := by rw [active]; rfl
    data := fun list member => crew.data list (by
      rcases List.mem_append.mp member with before | behind
      · simp [before]
      · simp [behind]) }

/-- The last worker to finish closes the session. -/
theorem Crew.dismiss (crew : conversation.Crew [[]])
    (encoded : handler.farewell.encode = .ok payload) :
    (runWorker handler { conversation with pending := [] } []).Dismissed
      conversation.server.outbound.admitted.toList payload := by
  have one : conversation.activeWorkers = 1 := crew.active
  have same : (conversation.server.closeWith handler.farewell).2 =
      (conversation.server.trySend .close payload).2 := by rw [Server.closeWith, encoded]
  have closes := same.trans (crew.serving.trySend_of_admitted (crew.admits fun _ =>
    CloseFrame.length_of_encode encoded))
  simp only [runWorker, one, if_true, List.foldl_nil, ite_self]
  exact {
    serving := crew.serving.perform none (.closeWith handler.farewell)
    closing := by rw [closes]; rfl
    waits := rfl
    active := rfl
    admitted := by rw [closes]; exact Array.toList_push }

/-- In an open session a worker has its message admitted; or it finishes, which changes nothing
of the session unless it is the last. -/
theorem Crew.turn (crew : conversation.Crew lists) (works : Works handler conversation next)
    (encoded : handler.farewell.encode = .ok payload) :
    Crew.Turn lists payload conversation next := by
  cases works with
  | sends before after message rest waits goes =>
    obtain ⟨front, back, rfl, rfl, rfl⟩ := crew.waits.split waits
    exact .sent front back message rest rfl crew.send.1 crew.send.2
  | finishes before after messages waits done =>
    obtain ⟨front, back, rfl, rfl, rfl⟩ := crew.waits.split waits
    obtain rfl : messages = [] := by simpa [crew.goes] using done
    by_cases last : front ++ back = []
    · obtain ⟨rfl, rfl⟩ := List.append_eq_nil_iff.mp last
      exact .closed rfl (crew.dismiss encoded)
    · obtain ⟨left, same⟩ := crew.finish last handler
      exact .finished front back rfl last left same

/-- What the workers of an open session come to, in any order of their turns: some of their
messages have been admitted, and the rest is left; or all have been, and then the close frame. -/
inductive Crew.Reached (lists : List (List Delivery)) (payload : Bytes)
    (conversation next : Conversation) : Prop where
  | working (sent : List Delivery) (left : List (List Delivery)) (crew : next.Crew left)
      (some : left ≠ [])
      (merges : ∀ rest, Interleaves left rest → Interleaves lists (sent ++ rest))
      (admitted : next.server.outbound.admitted.toList =
        conversation.server.outbound.admitted.toList ++ sent)
  | dismissed (sent : List Delivery) (merged : Interleaves lists sent)
      (dismissed : next.Dismissed
        (conversation.server.outbound.admitted.toList ++ sent) payload)

theorem Crew.reached (crew : conversation.Crew lists) (some : lists ≠ [])
    (encoded : handler.farewell.encode = .ok payload)
    (run : Relation.ReflTransGen (Works handler) conversation next) :
    Crew.Reached lists payload conversation next := by
  induction run with
  | refl => exact .working [] lists crew some (fun rest merged => merged) (List.append_nil _).symm
  | tail run works ih =>
    cases ih with
    | dismissed sent merged dismissed =>
      -- No worker is left to take a turn.
      have idle := dismissed.waits
      cases works with
      | sends before after message rest waits goes => simp [idle] at waits
      | finishes before after messages waits done => simp [idle] at waits
    | working sent left crew some merges admitted =>
      cases crew.turn works encoded with
      | sent before after message rest split still pushed =>
        subst split
        refine .working (sent ++ [message]) _ still (by simp) (fun rest merged => ?_) ?_
        · rw [List.append_assoc]
          exact merges _ merged.next
        · rw [pushed, admitted, List.append_assoc]
      | finished before after split others still same =>
        subst split
        refine .working sent _ still others (fun rest merged => merges _ merged.insert_nil) ?_
        rw [same, admitted]
      | closed split dismissed =>
        subst split
        have merged := merges [] (.cons .nil .nil)
        rw [List.append_nil] at merged
        exact .dismissed sent merged (admitted ▸ dismissed)

/-- The flag is up when the workers are through, and not before. -/
theorem Crew.Reached.closing_iff (reached : Crew.Reached lists payload conversation next) :
    next.server.closing = true ↔ next.pending = [] := by
  cases reached with
  | working sent left crew some merges admitted =>
    rw [crew.further, crew.waits]
    simp [some]
  | dismissed sent merged dismissed => exact iff_of_true dismissed.closing dismissed.waits

/-- **The workers of an open session get through**, and then all that they had to send is admitted,
each worker's messages in their order, and behind it the close frame. -/
theorem Crew.getsThrough (crew : conversation.Crew lists) (some : lists ≠ [])
    (encoded : handler.farewell.encode = .ok payload) :
    conversation.GetsThrough handler fun next => ∃ sent, Interleaves lists sent ∧
      next.Dismissed (conversation.server.outbound.admitted.toList ++ sent) payload where
  goesOn next run left := by
    cases crew.reached some encoded run with
    | working sent lists crew some merges admitted => exact exists_works crew.waits left
    | dismissed sent merged dismissed => exact absurd dismissed.waits left
  stops states _ := not_works_forever states
  ends next run through := by
    cases crew.reached some encoded run with
    | working sent lists crew some merges admitted =>
      rw [crew.waits] at through
      exact absurd (List.map_eq_nil_iff.mp through) some
    | dismissed sent merged dismissed => exact ⟨sent, merged, dismissed⟩

/-! ## A session that is over -/

/-- A session with its output closed and its workers told to stop. -/
structure Stopped (out : Outbound) (lists : List (List Delivery)) (conversation : Conversation) :
    Prop where
  outbound : conversation.server.outbound = out
  stops : conversation.stopping = true
  waits : conversation.Awaits lists
  active : conversation.activeWorkers = lists.length

/-- Workers that are told to stop finish one by one, and do nothing else. -/
theorem Stopped.reached {out : Outbound} (closed : out.closing = true)
    (stopped : conversation.Stopped out lists)
    (run : Relation.ReflTransGen (Works handler) conversation next) :
    ∃ left, next.Stopped out left := by
  induction run with
  | refl => exact ⟨lists, stopped⟩
  | tail run works ih =>
    obtain ⟨left, stopped⟩ := ih
    cases works with
    | sends before after message rest waits goes => simp [stopped.stops] at goes
    | finishes before after messages waits done =>
      obtain ⟨front, back, rfl, rfl, rfl⟩ := stopped.waits.split waits
      refine ⟨front ++ back, ?_, stopped.stops, (List.map_append ..).symm, ?_⟩
      · have same := Server.outbound_perform_of_closing (stopped.outbound ▸ closed) none
          (.closeWith handler.farewell)
        simp only [runWorker, List.foldl_nil, ite_self]
        split
        · exact same.trans stopped.outbound
        · exact stopped.outbound
      · simp only [runWorker, stopped.active, List.length_append, List.length_cons]
        omega

/-- **Workers that are told to stop get through** without sending anything. -/
theorem Stopped.getsThrough {out : Outbound} (closed : out.closing = true)
    (stopped : conversation.Stopped out lists) :
    conversation.GetsThrough handler fun next =>
      next.server.outbound = out ∧ next.activeWorkers = 0 where
  goesOn next run left := by
    obtain ⟨lists, stopped⟩ := stopped.reached closed run
    exact exists_works stopped.waits left
  stops states _ := not_works_forever states
  ends next run through := by
    obtain ⟨lists, stopped⟩ := stopped.reached closed run
    rw [stopped.waits] at through
    obtain rfl := List.map_eq_nil_iff.mp through
    exact ⟨stopped.outbound, stopped.active⟩

end

end Conversation

end WebSocket
