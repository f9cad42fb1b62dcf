import WebSocket.Proofs.Reassembly.Blocks

/-!
# Wider limits

A machine looks at the limits in one place only, where a length is complete. Wider limits accept
every length there that narrower ones accept, and keep every fault that is not one of size, since a
limit that is tried later cannot come to be tried earlier (`checkLength_of_le`). So a feed goes the
same way under both up to the first fault of size (`feed_of_le`).
-/

namespace WebSocket

/-- A fault of size: one that other limits might not find. -/
def Error.isOversize : Error → Bool
  | frameTooLarge .. | messageTooLarge .. => true
  | _ => false

/-- The frame is rejected for its size. -/
def Progress.IsOversize : Progress → Prop
  | .reject _ error => error.isOversize = true
  | .pause _ | .advance .. => False

namespace Reassembler

variable {limits wider : Limits} {bytes : Bytes}

/-! ## Where the limits are looked at -/

/-- A size that is within a bound is within a wider one. -/
theorem check_of_le {bound wide : Nat} (fault : Nat → Error)
    (oversize : ∀ bound, (fault bound).isOversize = true) (room : bound ≤ wide) (size : Nat) :
    let check (bound : Nat) : Except Error Unit :=
      if size > bound then .error (fault bound) else .ok ()
    check wide = check bound ∨
      ∃ error, check bound = .error error ∧ error.isOversize = true := by
  intro check
  by_cases exceeds : size > bound
  · exact .inr ⟨_, if_pos exceeds, oversize bound⟩
  · have within : ¬ size > wide := by omega
    exact .inl ((if_neg within).trans (if_neg exceeds).symm)

theorem checkPayload_of_le (payload : limits.maxPayload ≤ wider.maxPayload) (size : Nat) :
    wider.checkPayload size = limits.checkPayload size ∨
      ∃ error, limits.checkPayload size = .error error ∧ error.isOversize = true :=
  check_of_le (.frameTooLarge size) (fun _ => rfl) payload size

theorem checkMessage_of_le (message : limits.maxMessage ≤ wider.maxMessage) (size : Nat) :
    wider.checkMessage size = limits.checkMessage size ∨
      ∃ error, limits.checkMessage size = .error error ∧ error.isOversize = true :=
  check_of_le (.messageTooLarge size) (fun _ => rfl) message size

section Wider

variable (payload : limits.maxPayload ≤ wider.maxPayload)
  (message : limits.maxMessage ≤ wider.maxMessage)

include payload message

/-- A length is judged as under the wider limits unless it is refused for its size. The control
limit lies between the two others, but it is tried only where the first of them accepts. -/
theorem checkLength_of_le (machine : Reassembler) :
    machine.checkLength wider = machine.checkLength limits ∨
      ∃ error, machine.checkLength limits = .error error ∧ error.isOversize = true := by
  simp only [checkLength]
  split
  · exact .inl rfl
  · rcases checkPayload_of_le payload machine.payloadLength.toNat with same | ⟨error, refused, size⟩
    · rw [same]
      cases limits.checkPayload machine.payloadLength.toNat with
      | error error => exact .inl rfl
      | ok =>
        simp only
        split
        · exact checkMessage_of_le message _
        · split
          · exact .inl rfl
          · exact checkMessage_of_le message _
    · rw [refused]
      exact .inr ⟨error, rfl, size⟩

theorem endLength_of_le (machine : Reassembler) (bytes : Bytes) :
    machine.endLength wider bytes = machine.endLength limits bytes ∨
      (machine.endLength limits bytes).IsOversize := by
  unfold endLength
  rcases checkLength_of_le payload message machine with same | ⟨error, refused, size⟩
  · exact .inl (by rw [same])
  · rw [refused]
    exact .inr size

omit payload message in
theorem readWhile_of_goOn {wants : Reassembler → Bool} {take : Reassembler → UInt8 → Reassembler}
    {goOn goOnWider : Reassembler → Bytes → Progress}
    (ends : ∀ machine bytes, goOnWider machine bytes = goOn machine bytes ∨
      (goOn machine bytes).IsOversize) (machine : Reassembler) :
    machine.readWhile wants take goOnWider bytes = machine.readWhile wants take goOn bytes ∨
      (machine.readWhile wants take goOn bytes).IsOversize := by
  fun_induction readWhile wants take goOn machine bytes with
  | case1 machine wanted => exact .inl (if_pos wanted)
  | case2 machine done =>
    rw [readWhile_of_not_wants (Bool.eq_false_iff.mpr done)]
    exact ends machine []
  | case3 machine byte rest wanted ih =>
    rw [readWhile, if_pos wanted]
    exact ih
  | case4 machine byte rest done =>
    rw [readWhile_of_not_wants (Bool.eq_false_iff.mpr done)]
    exact ends machine (byte :: rest)

/-- A stage does as under the wider limits unless it rejects a frame for its size. -/
theorem proceed_of_le (machine : Reassembler) (bytes : Bytes) :
    machine.proceed wider bytes = machine.proceed limits bytes ∨
      (machine.proceed limits bytes).IsOversize := by
  unfold proceed
  split
  case h_3 => exact readWhile_of_goOn (endLength_of_le payload message) machine
  all_goals exact .inl rfl

/-! ## Feeds -/

/-- The two feeds are in step up to the first fault of size, and the wider one goes on from the
events that are there. -/
theorem feedFrom_of_le (machine : Reassembler) (bytes : Bytes) (events : Array Event) :
    let fed := machine.feedFrom limits bytes events
    let widely := machine.feedFrom wider bytes events
    widely = fed ∨
      ∃ error, fed.violation = some error ∧ error.isOversize = true ∧
        fed.events.toList <+: widely.events.toList := by
  fun_induction feedFrom limits machine bytes events with
  | case1 machine bytes events next h =>
    rcases proceed_of_le payload message machine bytes with same | size
    · exact .inl (feedFrom_of_pause (same.trans h))
    · rw [h] at size
      exact size.elim
  | case2 machine bytes events next rest event h ih =>
    rcases proceed_of_le payload message machine bytes with same | size
    · rw [feedFrom_of_advance (same.trans h)]
      exact ih
    · rw [h] at size
      exact size.elim
  | case3 machine bytes events next error h =>
    rcases proceed_of_le payload message machine bytes with same | size
    · exact .inl (feedFrom_of_reject (same.trans h))
    · -- The wider feed may go on from here; what it reports comes behind what is there.
      refine .inr ⟨error, rfl, by rwa [h] at size, ?_⟩
      rw [feedFrom_eq, Array.toList_append]
      exact List.prefix_append ..

/-- **Wider limits lose nothing.** What is reported under limits is the beginning of what is
reported under wider ones. A feed that succeeds, or fails for another cause than a size, has the
same events, the same fault and the same machine under the wider limits. -/
theorem feed_of_le (machine : Reassembler) (bytes : Bytes) :
    let fed := machine.feed limits bytes
    let widely := machine.feed wider bytes
    fed.events.toList <+: widely.events.toList ∧
      (fed.violation = none → widely = fed) ∧
      ∀ error, fed.violation = some error → error.isOversize = false → widely = fed := by
  intro fed widely
  rcases feedFrom_of_le payload message machine bytes #[] with same | ⟨error, broken, size, front⟩
  · have same : widely = fed := same
    rw [same]
    exact ⟨List.prefix_rfl, fun _ => rfl, fun _ _ _ => rfl⟩
  · have broken : fed.violation = some error := broken
    refine ⟨front, fun accepted => ?_, fun other found small => ?_⟩
    · simp [broken] at accepted
    · obtain rfl : error = other := Option.some.inj (broken.symm.trans found)
      simp [size] at small

end Wider

/-- Behind the first message comes a fragment that only the wider limits allow, or a frame that no
limits allow. -/
theorem feed_of_le_defaults :
    let limits : Limits := { maxPayload := 4, maxMessage := 5 }
    let fresh : Reassembler := {}
    let first : Bytes := [0x81, 0x82, 0, 0, 0, 0, 72, 105]
    let large : Bytes := first ++ [0x82, 0x85, 1, 2, 3, 4, 0, 0, 0, 0, 0]
    let reserved : Bytes := first ++ [0xC2]
    (fresh.feed limits large).events.toList <+: (fresh.feed {} large).events.toList ∧
      (fresh.feed {} large).events.size = 2 ∧
      fresh.feed {} first = fresh.feed limits first ∧
      fresh.feed {} reserved = fresh.feed limits reserved := by
  intro limits fresh first large reserved
  have payload : limits.maxPayload ≤ ({} : Limits).maxPayload := by decide
  have message : limits.maxMessage ≤ ({} : Limits).maxMessage := by decide
  refine ⟨(feed_of_le payload message fresh large).1, by decide +kernel, ?_, ?_⟩
  · exact (feed_of_le payload message fresh first).2.1 (by decide +kernel)
  · exact (feed_of_le payload message fresh reserved).2.2 .reservedBitsSet (by decide +kernel) rfl

end Reassembler

end WebSocket
