import WebSocket.Proofs.Routing

/-!
# When a handler is torn down

A router destroys a handler each time a path loses it, whatever other paths it has. So from any
moment on a handler is destroyed once for each registration that ends
(`Router.count_takeAll_add_card`). A handler that has no path at the moment of its last
registration is therefore not destroyed as long as a request can be routed to it, and one that is
never registered while it has a path, nor again when it has lost its last one, is destroyed once in
the life of the router (`Router.teardown_takeAll`). A handler with two paths is destroyed with the
first of them and goes on serving the other one (`Router.served_when_destroyed`).
-/

namespace WebSocket.Router

variable {α : Type} {front back steps : List (Step α)} {handler : α} {path target : String}
  {n : Nat}

/-! ## Steps one after another -/

theorem takeAll_append (router : Router α) (front back : List (Step α)) :
    router.takeAll (front ++ back) =
      let (destroyed, next) := router.takeAll front
      let (later, last) := next.takeAll back
      (destroyed ++ later, last) := by
  induction front generalizing router with
  | nil => rfl
  | cons step front ih => simp only [List.cons_append, takeAll, ih, List.append_assoc]

theorem registered_append (front back : List (Step α)) :
    registered (front ++ back) = registered front ++ registered back :=
  List.filterMap_append

theorem mem_registered_of_holder (held : holder path steps = some handler) :
    handler ∈ registered steps := by
  obtain ⟨step, last, registers⟩ := Option.bind_eq_some_iff.mp held
  have member := (List.mem_filter.mp (List.mem_of_getLast? last)).1
  exact List.mem_filterMap.mpr ⟨step, member, registers⟩

theorem get?_eq_holder (target : String) (steps : List (Step α)) :
    (takeAll {} steps).2.get? target = holder (pathOf target) steps :=
  get?_takeAll_fresh (pathOf target) steps

/-! ## The last registration -/

/-- The step behind `n` others registers the handler. -/
def Registers (handler : α) (steps : List (Step α)) (n : Nat) : Prop :=
  steps[n]?.bind Step.handler? = some handler

/-- No step behind that one registers it again. -/
def RegistersLast (handler : α) (steps : List (Step α)) (n : Nat) : Prop :=
  Registers handler steps n ∧ handler ∉ registered (steps.drop (n + 1))

instance [DecidableEq α] : Decidable (Registers handler steps n) :=
  inferInstanceAs (Decidable (_ = _))

instance [DecidableEq α] : Decidable (RegistersLast handler steps n) :=
  inferInstanceAs (Decidable (_ ∧ _))

theorem registered_drop_of_registers (registers : Registers handler steps n) :
    registered (steps.drop n) = handler :: registered (steps.drop (n + 1)) := by
  obtain ⟨step, there, named⟩ := Option.bind_eq_some_iff.mp registers
  obtain ⟨bound, rfl⟩ := List.getElem?_eq_some_iff.mp there
  rw [registered, List.drop_eq_getElem_cons bound, List.filterMap_cons_some named]
  rfl

theorem exists_registersLast (member : handler ∈ registered steps) :
    ∃ n, RegistersLast handler steps n := by
  induction steps with
  | nil => cases member
  | cons step steps ih =>
    by_cases later : handler ∈ registered steps
    · obtain ⟨n, last⟩ := ih later
      exact ⟨n + 1, last⟩
    · have first : step.handler? = some handler := by
        obtain ⟨other, among, named⟩ := List.mem_filterMap.mp member
        rcases List.mem_cons.mp among with rfl | behind
        · exact named
        · exact absurd (List.mem_filterMap.mpr ⟨other, behind, named⟩) later
      exact ⟨0, first, later⟩

section Count

variable [DecidableEq α]

theorem mem_pathsOf_iff : path ∈ pathsOf handler steps ↔ holder path steps = some handler := by
  refine Iff.trans Finset.mem_filter (and_iff_right_of_imp fun held => ?_)
  have some_holder : (holder path steps).any (fun _ => true) = true := held ▸ rfl
  exact mem_paths_of_holder some_holder

/-- From any moment on, a handler is destroyed once for each registration that ends. -/
theorem count_takeAll_add_card (front back : List (Step α)) (handler : α) :
    ((takeAll {} front).2.takeAll back).1.count handler + (pathsOf handler (front ++ back)).card =
      (pathsOf handler front).card + (registered back).count handler := by
  have conserved := (perm_takeAll (distinct_takeAll distinct_fresh front) back).count_eq handler
  have whole : (takeAll {} (front ++ back)).2 = ((takeAll {} front).2.takeAll back).2 := by
    rw [takeAll_append]
  rw [← count_drop_takeAll, ← count_drop_takeAll, whole, ← List.count_append, ← List.count_append]
  exact conserved

/-- A handler is registered at most once if no registration of it comes after another. -/
theorem count_registered_le_one
    (fresh : ∀ n, Registers handler steps n → handler ∉ registered (steps.take n)) :
    (registered steps).count handler ≤ 1 := by
  by_cases member : handler ∈ registered steps
  · obtain ⟨n, registers, last⟩ := exists_registersLast member
    have before : (registered (steps.take n)).count handler = 0 :=
      List.count_eq_zero.mpr (fresh n registers)
    have behind : (registered (steps.drop (n + 1))).count handler = 0 :=
      List.count_eq_zero.mpr last
    have split := congrArg (List.count handler) (registered_append (steps.take n) (steps.drop n))
    rw [List.take_append_drop, List.count_append, before, registered_drop_of_registers registers,
      List.count_cons_self, behind] at split
    exact split.le
  · exact (List.count_eq_zero.mpr member).trans_le (Nat.zero_le 1)

/-- A handler is registered only while no path has it. -/
def Exclusive (handler : α) (steps : List (Step α)) : Prop :=
  ∀ n < steps.length, Registers handler steps n → pathsOf handler (steps.take n) = ∅

/-- A handler is not registered again once it has lost its last path. -/
def Unrevived (handler : α) (steps : List (Step α)) : Prop :=
  ∀ n < steps.length, Registers handler steps n → handler ∈ registered (steps.take n) →
    pathsOf handler (steps.take n) ≠ ∅

instance : Decidable (Exclusive handler steps) := Nat.decidableBallLT steps.length _

instance : Decidable (Unrevived handler steps) := Nat.decidableBallLT steps.length _

/-- **When a handler is torn down.** From its last registration on, a handler is destroyed once for
each path that it loses, which may be the one of this registration if it was there before. If it
had no path then, it is not destroyed as long as a request can be routed to it. In the life of the
router it is destroyed as often as it was registered: at most once if it is registered only while no
path has it, and not again after its last path. -/
theorem teardown_takeAll (steps : List (Step α)) (handler : α) :
    let destroyed := (takeAll {} steps).1
    let router := (takeAll {} steps).2
    ((∃ target, router.get? target = some handler) → ∃ n, RegistersLast handler steps n) ∧
    (∀ n, RegistersLast handler steps n →
      let since := ((takeAll {} (steps.take n)).2.takeAll (steps.drop n)).1
      since.count handler + (pathsOf handler steps).card =
          (pathsOf handler (steps.take n)).card + 1 ∧
        (pathsOf handler (steps.take n) = ∅ →
          ∀ target, router.get? target = some handler → handler ∉ since)) ∧
    (destroyed ++ router.drop).count handler = (registered steps).count handler ∧
    (Exclusive handler steps → Unrevived handler steps →
      (destroyed ++ router.drop).count handler ≤ 1) := by
  intro destroyed router
  have conserved : (destroyed ++ router.drop).count handler = (registered steps).count handler :=
    (perm_takeAll distinct_fresh steps).count_eq handler
  refine ⟨?_, fun n registers => ?_, conserved, fun exclusive unrevived => ?_⟩
  · rintro ⟨target, routed⟩
    exact exists_registersLast (mem_registered_of_holder (get?_eq_holder target steps ▸ routed))
  · intro since
    obtain ⟨registers, last⟩ := registers
    have balance : since.count handler + (pathsOf handler steps).card =
        (pathsOf handler (steps.take n)).card + 1 := by
      have counted := count_takeAll_add_card (steps.take n) (steps.drop n) handler
      rwa [List.take_append_drop, registered_drop_of_registers registers, List.count_cons_self,
        List.count_eq_zero.mpr last] at counted
    refine ⟨balance, fun unused target routed => ?_⟩
    -- The path that has the handler now stands for its last registration, so none is left to end.
    have has : pathOf target ∈ pathsOf handler steps :=
      mem_pathsOf_iff.mpr (get?_eq_holder target steps ▸ routed)
    have some_path : 0 < (pathsOf handler steps).card := Finset.card_pos.mpr ⟨_, has⟩
    rw [unused, Finset.card_empty] at balance
    exact List.count_eq_zero.mp (by omega)
  · rw [conserved]
    refine count_registered_le_one fun n registers before => ?_
    obtain ⟨step, there, -⟩ := Option.bind_eq_some_iff.mp registers
    have bound : n < steps.length := (List.getElem?_eq_some_iff.mp there).1
    exact unrevived n bound registers before (exclusive n bound registers)

/-- A handler beside two others, of which one is removed and one replaced, is still alive. -/
theorem teardown_takeAll_beside :
    let steps : List (Step Nat) :=
      [.register "/a" 1, .register "/b" 2, .unregister "/a", .register "/c" 3, .register "/c" 4]
    let router := (takeAll {} steps).2
    let since := ((takeAll {} (steps.take 1)).2.takeAll (steps.drop 1)).1
    RegistersLast 2 steps 1 ∧ router.get? "/b?room=7" = some 2 ∧ 2 ∉ since ∧
      Exclusive 2 steps ∧ Unrevived 2 steps ∧
      ((takeAll {} steps).1 ++ router.drop).count 2 ≤ 1 := by
  intro steps router since
  have last : RegistersLast 2 steps 1 := by decide
  have routed : router.get? "/b?room=7" = some 2 := by decide
  have exclusive : Exclusive 2 steps := by decide
  have unrevived : Unrevived 2 steps := by decide
  obtain ⟨-, alive, -, once⟩ := teardown_takeAll steps 2
  exact ⟨last, routed, (alive 1 last).2 (by decide) _ routed, exclusive, unrevived,
    once exclusive unrevived⟩

/-- A handler with two paths is destroyed with the first of them: requests for the other one are
routed to it all the same, and it is destroyed a second time in the end. -/
theorem served_when_destroyed :
    let steps : List (Step Nat) := [.register "/a" 1, .register "/b" 1, .unregister "/a"]
    let since := ((takeAll {} (steps.take 1)).2.takeAll (steps.drop 1)).1
    RegistersLast 1 steps 1 ∧ 1 ∈ since ∧ (takeAll {} steps).2.get? "/b" = some 1 ∧
      Unrevived 1 steps ∧ ((takeAll {} steps).1 ++ (takeAll {} steps).2.drop).count 1 = 2 := by
  decide

end Count

end WebSocket.Router
