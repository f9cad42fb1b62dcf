import WebSocket.Proofs.Reassembly.Conformance

/-!
# The stages of a feed

A feed goes from stage to stage, and some stages take no byte: a length of seven bits has no bytes
behind it, there is no extension data, and a payload may be empty. `Visits` lists the stages that a
feed comes to, each with the bytes that it takes. The list makes no use of the measure by which the
feed is defined, so that it is there for every machine and all bytes (`exists_visits`) says that the
feed ends.

How many bytes a stage takes is settled when the machine comes to it (`wanted`). It waits for all of
them and leaves those behind them alone (`takes_proceed`), so that the visits of a feed take the
bytes in their order and each of them once (`Visits.taken`). Of the stages that take nothing at most
two follow one another (`Visits.idle_le`), so the bytes bound the visits (`Visits.length_le`).
-/

namespace WebSocket

/-- A stage that wants this many bytes waits for all of them and leaves the others. -/
inductive Progress.Takes (count : Nat) (bytes : Bytes) : Progress → Prop where
  | pause {machine : Reassembler} (short : bytes.length < count) :
    Takes count bytes (.pause machine)
  | advance {machine : Reassembler} {event : Option Event} (enough : count ≤ bytes.length) :
    Takes count bytes (.advance machine (bytes.drop count) event)
  | reject {machine : Reassembler} {error : Error} (enough : count ≤ bytes.length) :
    Takes count bytes (.reject machine error)

/-- The machine that a stage leaves. -/
def Progress.left : Progress → Reassembler
  | .pause machine => machine
  | .advance machine _ _ => machine
  | .reject machine _ => machine

/-- Bounds the stages that can be over one after another without taking a byte, if a key is not left
before it is complete. -/
def Stage.idleAhead : Stage → Nat
  | extension => 2
  | extendedLength | payload => 1
  | start | length | key | closing => 0

theorem Stage.idleAhead_le (stage : Stage) : stage.idleAhead ≤ 2 := by
  cases stage <;> decide

namespace Reassembler

variable {limits : Limits} {machine next last : Reassembler} {bytes rest : Bytes}
  {event : Option Event} {error : Error} {count : Nat}

/-! ## What a stage takes -/

/-- How many bytes the stage takes before it is over. -/
def wanted (machine : Reassembler) : Nat :=
  match machine.stage with
  | .start | .length => 1
  | .extendedLength => machine.lengthMissing
  | .key => 4 - machine.keyRead
  | .payload => machine.remaining
  | .extension | .closing => 0

theorem takes_endLength (enough : count ≤ bytes.length) :
    (next.endLength limits (bytes.drop count)).Takes count bytes := by
  unfold endLength
  split
  · exact .reject enough
  · exact .advance enough

theorem takes_proceed (awake : machine.stage ≠ .closing) :
    (machine.proceed limits bytes).Takes machine.wanted bytes := by
  cases now : machine.stage with
  | start =>
    simp only [proceed, wanted, now]
    cases bytes with
    | nil => exact .pause Nat.one_pos
    | cons byte rest =>
      have enough : 1 ≤ (byte :: rest).length := by simp
      simp only [readStart]
      split
      · exact .reject enough
      · exact .advance enough
  | length =>
    simp only [proceed, wanted, now]
    cases bytes with
    | nil => exact .pause Nat.one_pos
    | cons byte rest =>
      have enough : 1 ≤ (byte :: rest).length := by simp
      simp only [readLength]
      split
      · exact .reject enough
      · exact .advance enough
  | extendedLength =>
    simp only [proceed, wanted, now, readExtendedLength, readWhile_length]
    split
    · next short => exact .pause short
    · next enough => exact takes_endLength (Nat.le_of_not_lt enough)
  | key =>
    simp only [proceed, wanted, now, readKey, readWhile_key]
    split
    · next short => exact .pause short
    · next enough => exact .advance (Nat.le_of_not_lt enough)
  | extension =>
    simp only [proceed, wanted, now]
    exact .advance (Nat.zero_le _)
  | payload =>
    simp only [proceed, wanted, now, readPayload, collect, List.length_take]
    split
    · next missing => exact .pause (by omega)
    · next complete => exact .advance (by omega)
  | closing => exact absurd now awake

theorem wanted_of_closing (closed : machine.stage = .closing) : machine.wanted = 0 := by
  simp only [wanted, closed]

theorem wanted_of_pause (paused : machine.proceed limits bytes = .pause next) :
    machine.stage = .closing ∧ next = machine ∨ bytes.length < machine.wanted := by
  by_cases closed : machine.stage = .closing
  · simp only [proceed, closed] at paused
    exact .inl ⟨closed, (Progress.pause.inj paused).symm⟩
  · have takes : (machine.proceed limits bytes).Takes machine.wanted bytes := takes_proceed closed
    rw [paused] at takes
    cases takes with
    | pause short => exact .inr short

theorem awake_of_advance (passed : machine.proceed limits bytes = .advance next rest event) :
    machine.stage ≠ .closing := by
  intro closed
  simp [proceed, closed] at passed

theorem awake_of_reject (rejected : machine.proceed limits bytes = .reject next error) :
    machine.stage ≠ .closing := by
  intro closed
  simp [proceed, closed] at rejected

theorem wanted_of_advance (passed : machine.proceed limits bytes = .advance next rest event) :
    machine.wanted ≤ bytes.length ∧ rest = bytes.drop machine.wanted := by
  have takes : (machine.proceed limits bytes).Takes machine.wanted bytes :=
    takes_proceed (awake_of_advance passed)
  rw [passed] at takes
  cases takes with
  | advance enough => exact ⟨enough, rfl⟩

theorem wanted_of_reject (rejected : machine.proceed limits bytes = .reject next error) :
    machine.wanted ≤ bytes.length := by
  have takes : (machine.proceed limits bytes).Takes machine.wanted bytes :=
    takes_proceed (awake_of_reject rejected)
  rw [rejected] at takes
  cases takes with
  | reject enough => exact enough

/-- The bytes that a stage takes tell what it comes to. -/
theorem resume_taken (machine : Reassembler) (bytes : Bytes) :
    (machine.proceed limits (bytes.take machine.wanted)).resume limits
      (bytes.drop machine.wanted) = machine.proceed limits bytes := by
  rw [← proceed_append, List.take_append_drop]

theorem proceed_taken_ne_pause (awake : machine.stage ≠ .closing)
    (enough : machine.wanted ≤ bytes.length) :
    machine.proceed limits (bytes.take machine.wanted) ≠ .pause next := by
  intro paused
  rcases wanted_of_pause paused with ⟨closed, -⟩ | short
  · exact awake closed
  · rw [List.length_take] at short
    omega

theorem proceed_taken_of_advance
    (passed : machine.proceed limits bytes = .advance next rest event) :
    machine.proceed limits (bytes.take machine.wanted) = .advance next [] event := by
  obtain ⟨enough, rfl⟩ := wanted_of_advance passed
  have resumed := (resume_taken machine bytes).trans passed
  cases alone : machine.proceed limits (bytes.take machine.wanted) with
  | pause => exact absurd alone (proceed_taken_ne_pause (awake_of_advance passed) enough)
  | advance =>
    rw [alone, Progress.resume] at resumed
    obtain ⟨rfl, left, rfl⟩ := Progress.advance.inj resumed
    rw [List.append_left_eq_self.mp left]
  | reject =>
    rw [alone] at resumed
    cases resumed

theorem proceed_taken_of_reject (rejected : machine.proceed limits bytes = .reject next error) :
    machine.proceed limits (bytes.take machine.wanted) = .reject next error := by
  have resumed := (resume_taken machine bytes).trans rejected
  cases alone : machine.proceed limits (bytes.take machine.wanted) with
  | pause =>
    exact absurd alone
      (proceed_taken_ne_pause (awake_of_reject rejected) (wanted_of_reject rejected))
  | advance =>
    rw [alone] at resumed
    cases resumed
  | reject =>
    rw [alone] at resumed
    exact resumed

/-! ## The visits of a feed -/

/-- A stage that a feed comes to. -/
structure Visit where
  /-- The machine as it comes to the stage. -/
  machine : Reassembler
  /-- The bytes that the stage takes. -/
  taken : Bytes
  /-- The machine as the stage leaves it. -/
  next : Reassembler
  deriving DecidableEq, Repr

/-- What the stage of the machine takes of these bytes, and the machine that it leaves. -/
def visit (machine : Reassembler) (bytes : Bytes) (next : Reassembler) : Visit :=
  { machine, taken := bytes.take machine.wanted, next }

/-- The stages that the machine comes to, one after another, and the machine behind them. -/
inductive Visits (limits : Limits) : Reassembler → Bytes → List Visit → Reassembler → Prop where
  | pause {machine next : Reassembler} {bytes : Bytes}
    (paused : machine.proceed limits bytes = .pause next) :
    Visits limits machine bytes [machine.visit bytes next] next
  | reject {machine next : Reassembler} {bytes : Bytes} {error : Error}
    (rejected : machine.proceed limits bytes = .reject next error) :
    Visits limits machine bytes [machine.visit bytes next] next.abort
  | advance {machine next last : Reassembler} {bytes rest : Bytes} {event : Option Event}
    {visits : List Visit} (passed : machine.proceed limits bytes = .advance next rest event)
    (more : Visits limits next rest visits last) :
    Visits limits machine bytes (machine.visit bytes next :: visits) last

variable {visits front idle back : List Visit} {visit : Visit}

/-- **A feed ends.** It comes to finitely many stages, and the last of them leaves the machine that
the feed leaves. -/
theorem exists_visits (limits : Limits) (machine : Reassembler) (bytes : Bytes)
    (events : Array Event) :
    ∃ visits,
      Visits limits machine bytes visits (machine.feedFrom limits bytes events).machine := by
  fun_induction feedFrom limits machine bytes events with
  | case1 machine bytes events next paused => exact ⟨_, .pause paused⟩
  | case2 machine bytes events next rest event passed ih =>
    obtain ⟨visits, more⟩ := ih
    exact ⟨_, .advance passed more⟩
  | case3 machine bytes events next error rejected => exact ⟨_, .reject rejected⟩

/-- The bytes are taken in their order and each of them once, all of them unless the machine
closes. -/
theorem Visits.taken (visited : Visits limits machine bytes visits last) :
    visits.flatMap (·.taken) <+: bytes ∧
      (last.stage ≠ .closing → visits.flatMap (·.taken) = bytes) := by
  induction visited with
  | @pause machine next bytes paused =>
    rw [List.flatMap_singleton]
    refine ⟨List.take_prefix .., fun awake => ?_⟩
    rcases wanted_of_pause paused with ⟨closed, rfl⟩ | short
    · exact absurd closed awake
    · exact List.take_of_length_le (Nat.le_of_lt short)
  | reject =>
    rw [List.flatMap_singleton]
    exact ⟨List.take_prefix .., fun awake => absurd rfl awake⟩
  | @advance machine next last bytes rest event visits passed more ih =>
    obtain ⟨-, rfl⟩ := wanted_of_advance passed
    obtain ⟨inOrder, all⟩ := ih
    rw [List.flatMap_cons]
    constructor
    · conv => rhs; rw [← List.take_append_drop machine.wanted bytes]
      exact List.prefix_append_right_inj _ |>.mpr inOrder
    · intro awake
      rw [all awake]
      exact List.take_append_drop ..

/-- A visit that is not the last one is over. -/
theorem Visits.of_cons (visited : Visits limits machine bytes (visit :: visits) last)
    (further : visits ≠ []) :
    ∃ next event, machine.proceed limits bytes = .advance next (bytes.drop machine.wanted) event ∧
      visit = machine.visit bytes next ∧
      Visits limits next (bytes.drop machine.wanted) visits last := by
  cases visited with
  | pause | reject => exact absurd rfl further
  | advance passed more =>
    obtain ⟨-, rfl⟩ := wanted_of_advance passed
    exact ⟨_, _, passed, rfl, more⟩

theorem Visits.machine_eq (visited : Visits limits machine bytes (visit :: visits) last) :
    visit.machine = machine := by
  cases visited <;> rfl

/-- Where a visit stands, the machine comes to its stage with the bytes that are left. -/
theorem Visits.behind (visited : Visits limits machine bytes (front ++ visit :: back) last) :
    ∃ rest, bytes = front.flatMap (·.taken) ++ rest ∧
      Visits limits visit.machine rest (visit :: back) last := by
  induction front generalizing machine bytes with
  | nil => exact ⟨bytes, rfl, visited.machine_eq ▸ visited⟩
  | cons first front ih =>
    obtain ⟨next, event, -, rfl, more⟩ := visited.of_cons (by simp)
    obtain ⟨rest, left, later⟩ := ih more
    refine ⟨rest, ?_, later⟩
    rw [List.flatMap_cons, List.append_assoc, ← left]
    exact (List.take_append_drop ..).symm

/-! ## Stages that take nothing -/

/-- Where a key is read, it is not complete. -/
def Keyed (visits : List Visit) : Prop :=
  ∀ visit ∈ visits, visit.machine.stage = .key → visit.machine.keyRead < 4

theorem idleAhead_lt (keyed : machine.stage = .key → machine.keyRead < 4)
    (passed : machine.proceed limits bytes = .advance next rest event)
    (nothing : bytes.take machine.wanted = []) :
    next.stage.idleAhead < machine.stage.idleAhead := by
  have none_wanted : machine.wanted = 0 := by
    have enough := (wanted_of_advance passed).1
    have length := congrArg List.length nothing
    rw [List.length_take, List.length_nil] at length
    omega
  cases now : machine.stage with
  | start | length => simp [wanted, now] at none_wanted
  | key =>
    have incomplete := keyed now
    simp only [wanted, now] at none_wanted
    omega
  | extendedLength =>
    simp only [proceed, now] at passed
    rw [(advance_of_readExtendedLength passed).1]
    decide
  | extension =>
    simp only [proceed, now] at passed
    cases passed
    exact Nat.one_lt_two
  | payload =>
    simp only [proceed, now] at passed
    obtain ⟨after | after, -⟩ := advance_of_readPayload passed
    all_goals
      rw [after]
      decide
  | closing => simp [proceed, now] at passed

/-- From a stage on, no more visits in a row take nothing than it has ahead. -/
theorem Visits.length_le_idleAhead
    (visited : Visits limits machine bytes (idle ++ visit :: back) last)
    (keyed : Keyed (idle ++ visit :: back)) (nothing : ∀ visit ∈ idle, visit.taken = []) :
    idle.length ≤ machine.stage.idleAhead := by
  induction idle generalizing machine bytes with
  | nil => exact Nat.zero_le _
  | cons first idle ih =>
    obtain ⟨next, event, passed, rfl, more⟩ := visited.of_cons (by simp)
    obtain ⟨here, later⟩ := List.forall_mem_cons.mp keyed
    obtain ⟨none_here, none_later⟩ := List.forall_mem_cons.mp nothing
    exact Nat.lt_of_le_of_lt (ih more later none_later) (idleAhead_lt here passed none_here)

/-- **Between two bytes at most two stages take nothing.** -/
theorem Visits.idle_le (visited : Visits limits machine bytes visits last) (keyed : Keyed visits)
    (split : visits = front ++ idle ++ visit :: back) (nothing : ∀ visit ∈ idle, visit.taken = []) :
    idle.length ≤ 2 := by
  subst split
  cases idle with
  | nil => exact Nat.zero_le _
  | cons first idle =>
    rw [List.append_assoc, List.cons_append] at visited keyed
    obtain ⟨rest, -, later⟩ := visited.behind
    have within : Keyed (first :: idle ++ visit :: back) := (List.forall_mem_append.mp keyed).2
    exact Nat.le_trans (later.length_le_idleAhead within nothing) (Stage.idleAhead_le _)

/-- There are at most three visits for each byte. -/
theorem Visits.length_le (visited : Visits limits machine bytes visits last)
    (keyed : Keyed visits) :
    visits.length ≤ 3 * bytes.length + machine.stage.idleAhead + 1 := by
  induction visited with
  | pause | reject =>
    rw [List.length_singleton]
    omega
  | @advance machine next last bytes rest event visits passed more ih =>
    obtain ⟨here, later⟩ := List.forall_mem_cons.mp keyed
    obtain ⟨enough, rfl⟩ := wanted_of_advance passed
    have shorter := ih later
    rw [List.length_drop] at shorter
    rw [List.length_cons]
    by_cases nothing : bytes.take machine.wanted = []
    · have falls : next.stage.idleAhead < machine.stage.idleAhead :=
        idleAhead_lt here passed nothing
      omega
    · -- The byte that is taken pays for two idle stages and for this one.
      have some_wanted : machine.wanted ≠ 0 := by
        intro none_wanted
        exact nothing (by rw [none_wanted, List.take_zero])
      have bound := next.stage.idleAhead_le
      omega

end Reassembler

end WebSocket
