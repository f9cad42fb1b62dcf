import WebSocket.Proofs.Handshake.ResponseWriter
import WebSocket.Proofs.Session.OpenSession

/-!
# Calls that set a field or choose a subprotocol

Such a call is checked first, and what would break a line is reported and has no effect. A field
that is set while the handler is being asked drops the one of its name and comes last, so that
after any calls there is one field for each name that was set, where and as it was set last
(`Server.extra_performAll`).
-/

namespace WebSocket

namespace Call

/-- The field that a call sets. One that would break its line is not set. -/
def field? : Call → Option (String × String)
  | .setHeader name value => if Unbroken (name, value) then some (name, value) else none
  | _ => none

variable {call : Call} {calls : List Call} {field : String × String}

theorem unbroken_of_field? (set : call.field? = some field) : Unbroken field := by
  cases call with
  | setHeader name value =>
    rw [field?] at set
    split at set
    · next unbroken => exact Option.some.inj set ▸ unbroken
    · cases set
  | _ => cases set

theorem unbroken_of_mem_fields (member : field ∈ calls.filterMap field?) : Unbroken field := by
  obtain ⟨call, -, set⟩ := List.mem_filterMap.mp member
  exact unbroken_of_field? set

end Call

namespace Server

variable {server : Server} {delivery : Option Delivery} {call : Call} {calls : List Call}
  {name value : String} {set : List (String × String)}

/-! ## Single calls -/

theorem announced_trySend (server : Server) (kind : MessageKind) (payload : Bytes) :
    (server.trySend kind payload).2.chosen = server.chosen ∧
      (server.trySend kind payload).2.extra = server.extra := by
  simp only [trySend, markClosing]
  split
  · split <;> exact ⟨rfl, rfl⟩
  · exact ⟨rfl, rfl⟩

/-- A field that would break its line is reported, and nothing happens. -/
theorem perform_setHeader_of_broken (server : Server) (delivery : Option Delivery)
    (broken : ¬ Unbroken (name, value)) :
    server.perform delivery (.setHeader name value) =
      (.failed (.invalidHeaderValue name "contains CR or LF characters"), server) := by
  simp only [perform, setHeader, checkField_of_not_unbroken broken]
  rfl

/-- Whenever a field is set, the answer depends on the field alone. -/
theorem perform_setHeader_fst (server : Server) (delivery : Option Delivery)
    (name value : String) :
    (server.perform delivery (.setHeader name value)).1 = .ofUnit (checkField name value) := by
  simp only [perform, setHeader]
  cases checkField name value with
  | error error => rfl
  | ok =>
    dsimp only
    split <;> rfl

/-- While the handler is being asked, a field is put behind those of other names. -/
theorem perform_setHeader_of_connecting (server : Server) (delivery : Option Delivery)
    (connecting : server.state = .connecting) (unbroken : Unbroken (name, value)) :
    (server.perform delivery (.setHeader name value)).2 =
      { server with
        extra :=
          server.extra.filter (fun field => !sameName field (name, value)) ++
            [(name, value)] } := by
  have early : ¬ SessionState.connecting.rank > SessionState.connecting.rank := Nat.lt_irrefl _
  simp only [perform, setHeader, checkField_eq_ok_iff.mpr unbroken, connecting, if_neg early]
  rfl

theorem perform_setProtocol_of_broken (server : Server) (delivery : Option Delivery)
    (broken : breaksLine name = true) :
    server.perform delivery (.setProtocol name) =
      (.failed (.invalidHeaderValue "Sec-WebSocket-Protocol" "contains CR or LF characters"),
        server) := by
  have unfit : ¬ Unbroken ("Sec-WebSocket-Protocol", name) := fun unbroken =>
    Bool.eq_false_iff.mp unbroken.2 broken
  simp only [perform, setProtocol, checkField_of_not_unbroken unfit]
  rfl

theorem perform_setProtocol_of_fit (server : Server) (delivery : Option Delivery)
    (fit : breaksLine name = false) :
    (server.perform delivery (.setProtocol name)).2 = { server with chosen := some name } := by
  have free : checkField "Sec-WebSocket-Protocol" name = .ok () :=
    checkField_eq_ok_iff.mpr ⟨by decide, fit⟩
  simp only [perform, setProtocol, free]

/-! ## While the handler is being asked -/

theorem connecting_perform (connecting : server.state = .connecting)
    (silent : call.message? delivery = none) :
    (server.perform delivery call).2.state = .connecting := by
  obtain ⟨chosen, extra, same⟩ := perform_of_no_message server silent
  rw [same]
  exact connecting

theorem extra_perform (connecting : server.state = .connecting)
    (silent : call.message? delivery = none) (stands : server.extra = lastOfEach set) :
    (server.perform delivery call).2.extra = lastOfEach (set ++ call.field?.toList) := by
  have kept : server.extra = lastOfEach (set ++ []) := by rw [List.append_nil, stands]
  cases call with
  | setHeader name value =>
    by_cases unbroken : Unbroken (name, value)
    · rw [server.perform_setHeader_of_connecting delivery connecting unbroken, Call.field?,
        if_pos unbroken, Option.toList_some, lastOfEach_concat, stands]
    · rw [server.perform_setHeader_of_broken delivery unbroken, Call.field?, if_neg unbroken]
      exact kept
  | setProtocol name =>
    simp only [perform, setProtocol]
    split <;> exact kept
  | send | trySend | close => cases silent
  | echo =>
    cases silent
    exact kept
  | closeWith frame =>
    simp only [perform, closeWith]
    split
    · exact kept
    · exact (announced_trySend ..).2.trans kept
  | _ => exact kept

/-- What is left of the fields that calls set is the last field of each name. -/
theorem extra_performAll (connecting : server.state = .connecting)
    (silent : ∀ call ∈ calls, call.message? delivery = none)
    (stands : server.extra = lastOfEach set) :
    (server.performAll delivery calls).2.extra =
      lastOfEach (set ++ calls.filterMap Call.field?) := by
  induction calls generalizing server set with
  | nil => rw [List.filterMap_nil, List.append_nil]; exact stands
  | cons call calls ih =>
    obtain ⟨first, others⟩ := List.forall_mem_cons.mp silent
    have next := ih (connecting_perform connecting first) others
      (extra_perform connecting first stands)
    rw [performAll_cons]
    refine next.trans (congrArg lastOfEach ?_)
    rw [List.append_assoc, List.filterMap_cons]
    cases call.field? <;> rfl

end Server

end WebSocket
