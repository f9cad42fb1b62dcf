import Mathlib.Data.Finset.Card
import Mathlib.Data.List.Nodup
import WebSocket.Router

/-!
# The ledger of registrations

A router is used in steps, each of which registers a handler or ends a registration
(`Router.takeAll`). What a step destroys and what it leaves are together what was there and what
it registers, so that nothing is lost and nothing is destroyed twice (`Router.perm_takeAll`). What
is there under a path is what the last step that names the path has left there
(`Router.get?_takeAll`). The number of times that a handler was destroyed follows from the two
(`Router.count_takeAll`).
-/

namespace WebSocket

/-! ## Tables with distinct keys -/

namespace Table

variable {α : Type} {table : Table α} {key : String} {value : α}

def values (table : Table α) : List α := table.entries.map (·.2)

/-- No key has two entries. -/
def Distinct (table : Table α) : Prop := table.keys.Nodup

theorem keys_putEntry (key : String) (value : α) (entries : List (String × α)) :
    (putEntry (· == key) key value entries).map (·.1) =
      if key ∈ entries.map (·.1) then entries.map (·.1) else entries.map (·.1) ++ [key] := by
  induction entries with
  | nil => rfl
  | cons entry entries ih =>
    by_cases same : entry.1 = key
    · simp [putEntry, same]
    · have other : ¬ (entry.1 == key) = true := by simpa using same
      have others : key ∈ entry.1 :: entries.map (·.1) ↔ key ∈ entries.map (·.1) := by
        simp [Ne.symm same]
      simp only [putEntry, if_neg other, List.map_cons, ih, others]
      split <;> rfl

theorem Distinct.insert (distinct : table.Distinct) (key : String) (value : α) :
    (table.insert key value).Distinct := by
  have keys := keys_putEntry key value table.entries
  unfold Distinct Table.keys at distinct ⊢
  rw [Table.insert, keys]
  split
  · exact distinct
  · next absent => exact List.concat_eq_append ▸ distinct.concat absent

theorem Distinct.erase (distinct : table.Distinct) (key : String) : (table.erase key).Distinct :=
  (List.filter_sublist.map _).nodup distinct

theorem mem_entries_iff (distinct : table.Distinct) :
    (key, value) ∈ table.entries ↔ table.get? key = some value := by
  obtain ⟨entries⟩ := table
  simp only [get?, Distinct, Table.keys] at distinct ⊢
  induction entries with
  | nil => simp
  | cons entry entries ih =>
    obtain ⟨absent, distinct⟩ := List.nodup_cons.mp distinct
    by_cases same : entry.1 = key
    · subst same
      have elsewhere : (entry.1, value) ∉ entries :=
        fun member => absent (List.mem_map.mpr ⟨_, member, rfl⟩)
      simp [elsewhere, Prod.ext_iff, eq_comm]
    · have here : (key, value) ≠ entry := fun equal => same (by rw [← equal])
      simp [same, here, ih distinct]

/-- An inserted value takes the place of the one that it displaces. -/
theorem perm_values_insert (table : Table α) (key : String) (value : α) :
    ((table.get? key).toList ++ (table.insert key value).values).Perm
      (table.values ++ [value]) := by
  obtain ⟨entries⟩ := table
  simp only [get?, Table.insert, values]
  induction entries with
  | nil => simp [putEntry]
  | cons entry entries ih =>
    by_cases same : entry.1 = key
    · simpa [putEntry, same] using List.perm_append_singleton value (entries.map (·.2)) |>.symm
    · simp only [putEntry, List.find?_cons, beq_eq_false_iff_ne.mpr same, List.map_cons,
        Bool.false_eq_true, if_false, List.cons_append]
      exact List.perm_middle.trans (ih.cons entry.2)

/-- An erased value is the one that was there. -/
theorem perm_values_erase (distinct : table.Distinct) (key : String) :
    ((table.get? key).toList ++ (table.erase key).values).Perm table.values := by
  obtain ⟨entries⟩ := table
  simp only [get?, Table.erase, values, Distinct, Table.keys] at distinct ⊢
  induction entries with
  | nil => simp
  | cons entry entries ih =>
    obtain ⟨absent, distinct⟩ := List.nodup_cons.mp distinct
    by_cases same : entry.1 = key
    · subst same
      have others : entries.filter (·.1 != entry.1) = entries :=
        List.filter_eq_self.mpr fun other member =>
          bne_iff_ne.mpr fun equal => absent (List.mem_map.mpr ⟨other, member, equal⟩)
      simp [others]
    · simp only [List.find?_cons, beq_eq_false_iff_ne.mpr same, List.filter_cons,
        bne_iff_ne.mpr same, if_true, List.map_cons]
      exact List.perm_middle.trans ((ih distinct).cons entry.2)

/-- With distinct keys, the values of a kind are counted by the keys that have one. -/
theorem countP_values (distinct : table.Distinct) (kind : α → Bool) (keys : Finset String)
    (all : ∀ key, (table.get? key).any kind = true → key ∈ keys) :
    table.values.countP kind = {key ∈ keys | (table.get? key).any kind = true}.card := by
  let having := (table.entries.filter (kind ·.2)).map (·.1)
  have nodup : having.Nodup := (List.filter_sublist.map _).nodup distinct
  have members : having.toFinset = {key ∈ keys | (table.get? key).any kind = true} := by
    ext key
    simp only [having, List.mem_toFinset, List.mem_map, List.mem_filter, Finset.mem_filter]
    constructor
    · rintro ⟨⟨key, value⟩, ⟨member, good⟩, rfl⟩
      have found : (table.get? key).any kind = true := by
        rw [(mem_entries_iff distinct).mp member]
        exact good
      exact ⟨all key found, found⟩
    · rintro ⟨-, found⟩
      obtain ⟨value, there, good⟩ := (Option.any_eq_true _ _).mp found
      exact ⟨(key, value), ⟨(mem_entries_iff distinct).mpr there, good⟩, rfl⟩
  rw [← members, List.toFinset_card_of_nodup nodup, List.length_map,
    ← List.countP_eq_length_filter, values, List.countP_map]
  rfl

end Table

/-! ## Using a router -/

namespace Router

/-- One use of a router. -/
inductive Step (α : Type) where
  /-- Also in the form that builds a router by registering one handler after another. -/
  | register (path : String) (handler : α)
  | unregister (path : String)
  deriving DecidableEq, Repr

variable {α : Type} {router : Router α}

def Step.path : Step α → String
  | register path _ | unregister path => path

def Step.handler? : Step α → Option α
  | register _ handler => some handler
  | unregister _ => none

/-- Takes a step, and gives the handlers that it destroys. -/
def take (router : Router α) : Step α → List α × Router α
  | .register path handler => router.register path handler
  | .unregister path => router.unregister path

/-- Takes steps in order, and gives all that they destroy. -/
def takeAll (router : Router α) : List (Step α) → List α × Router α
  | [] => ([], router)
  | step :: steps =>
    let (destroyed, next) := router.take step
    let (later, last) := next.takeAll steps
    (destroyed ++ later, last)

/-- The handlers that are registered, each as often as it is. -/
def registered (steps : List (Step α)) : List α := steps.filterMap Step.handler?

/-- The handler that the last step on a path leaves there. -/
def holder (path : String) (steps : List (Step α)) : Option α :=
  (steps.filter (·.path == path)).getLast?.bind Step.handler?

theorem distinct_take (distinct : router.routes.Distinct) (step : Step α) :
    (router.take step).2.routes.Distinct := by
  cases step with
  | register path handler => exact distinct.insert path handler
  | unregister path => exact distinct.erase path

/-- What a step destroys and what it leaves are what was there and what it registers. -/
theorem perm_take (distinct : router.routes.Distinct) (step : Step α) :
    ((router.take step).1 ++ (router.take step).2.drop).Perm
      (router.drop ++ step.handler?.toList) := by
  cases step with
  | register path handler => exact router.routes.perm_values_insert path handler
  | unregister path =>
    have erased := Table.perm_values_erase distinct path
    exact (List.append_nil router.drop).symm ▸ erased

theorem get?_take (router : Router α) (step : Step α) (path : String) :
    (router.take step).2.routes.get? path =
      if step.path = path then step.handler? else router.routes.get? path := by
  simp only [eq_comm (a := step.path)]
  cases step with
  | register name handler => exact router.routes.get?_insert name path handler
  | unregister name => exact router.routes.get?_erase name path

theorem distinct_takeAll (distinct : router.routes.Distinct) (steps : List (Step α)) :
    (router.takeAll steps).2.routes.Distinct := by
  induction steps generalizing router with
  | nil => exact distinct
  | cons step steps ih => exact ih (distinct_take distinct step)

/-- **No registration is lost, and none ends twice.** -/
theorem perm_takeAll (distinct : router.routes.Distinct) (steps : List (Step α)) :
    ((router.takeAll steps).1 ++ (router.takeAll steps).2.drop).Perm
      (router.drop ++ registered steps) := by
  induction steps generalizing router with
  | nil => simp [takeAll, registered]
  | cons step steps ih =>
    -- What the first step leaves is what the others start from.
    have first := perm_take distinct step
    have rest := ih (distinct_take distinct step)
    simp only [takeAll]
    generalize (router.take step).1 = destroyed, (router.take step).2 = next at first rest ⊢
    have all : registered (step :: steps) = step.handler?.toList ++ registered steps := by
      simp only [registered, List.filterMap_cons]
      cases step.handler? <;> rfl
    rw [all, List.append_assoc]
    exact (rest.append_left destroyed).trans (by
      rw [← List.append_assoc, ← List.append_assoc]
      exact first.append_right _)

/-- What is under a path is what the last step on it has left there. -/
theorem get?_takeAll (router : Router α) (path : String) (steps : List (Step α)) :
    (router.takeAll steps).2.routes.get? path =
      (steps.filter (·.path == path)).getLast?.elim (router.routes.get? path) Step.handler? := by
  induction steps generalizing router with
  | nil => rfl
  | cons step steps ih =>
    have after : (router.takeAll (step :: steps)).2 = ((router.take step).2.takeAll steps).2 := rfl
    rw [after, ih, get?_take]
    by_cases same : step.path = path
    · have about : (step.path == path) = true := beq_iff_eq.mpr same
      rw [if_pos same, List.filter_cons, if_pos about, List.getLast?_cons]
      cases (steps.filter (·.path == path)).getLast? <;> rfl
    · have other : ¬ (step.path == path) = true := by simpa using same
      rw [if_neg same, List.filter_cons, if_neg other]

theorem distinct_fresh : ({} : Router α).routes.Distinct := List.nodup_nil

theorem get?_takeAll_fresh (path : String) (steps : List (Step α)) :
    (takeAll {} steps).2.routes.get? path = holder path steps := by
  rw [get?_takeAll, holder]
  cases (steps.filter (·.path == path)).getLast? <;> rfl

/-- A path that has a handler is one that a step names. -/
theorem mem_paths_of_holder {kind : α → Bool} {path : String} {steps : List (Step α)}
    (held : (holder path steps).any kind = true) : path ∈ (steps.map Step.path).toFinset := by
  obtain ⟨handler, there, -⟩ := (Option.any_eq_true _ _).mp held
  obtain ⟨step, last, -⟩ := Option.bind_eq_some_iff.mp there
  obtain ⟨member, same⟩ := List.mem_filter.mp (List.mem_of_getLast? last)
  rw [List.mem_toFinset]
  exact List.mem_map.mpr ⟨step, member, beq_iff_eq.mp same⟩

/-- The registered handlers of a kind are counted by the paths that have one. -/
theorem countP_drop_takeAll (kind : α → Bool) (steps : List (Step α)) :
    (takeAll {} steps).2.drop.countP kind =
      {path ∈ (steps.map Step.path).toFinset | (holder path steps).any kind = true}.card := by
  have counted := Table.countP_values (distinct_takeAll distinct_fresh steps) kind
    (steps.map Step.path).toFinset
    fun path held => mem_paths_of_holder (get?_takeAll_fresh path steps ▸ held)
  simp only [get?_takeAll_fresh] at counted
  exact counted

/-- The paths under which a handler is at the end of steps. -/
def pathsOf [DecidableEq α] (handler : α) (steps : List (Step α)) : Finset String :=
  {path ∈ (steps.map Step.path).toFinset | holder path steps = some handler}

/-- The paths under which any handler is at the end of steps. -/
def routed (steps : List (Step α)) : Finset String :=
  {path ∈ (steps.map Step.path).toFinset | (holder path steps).isSome = true}

theorem count_drop_takeAll [DecidableEq α] (handler : α) (steps : List (Step α)) :
    (takeAll {} steps).2.drop.count handler = (pathsOf handler steps).card := by
  rw [List.count, countP_drop_takeAll, pathsOf]
  refine congrArg Finset.card (Finset.filter_congr fun path _ => ?_)
  cases holder path steps <;> simp

theorem size_takeAll (steps : List (Step α)) :
    (takeAll {} steps).2.size = (routed steps).card := by
  have all : (takeAll {} steps).2.size = (takeAll {} steps).2.drop.length := by
    rw [drop, List.length_map]
    rfl
  rw [all, ← List.countP_true, countP_drop_takeAll, routed]
  refine congrArg Finset.card (Finset.filter_congr fun path _ => ?_)
  cases holder path steps <;> simp

theorem removes_eq (router : Router α) (path : String) :
    router.removes path = (router.routes.get? path).isSome := by
  simp only [removes, unregister]
  cases router.routes.get? path <;> rfl

/-- **Every registration is torn down exactly once.** However a router is used, a handler has been
destroyed as often as it was registered, less one time for each path under which it still is; and
dropping the router makes up for these. The router counts the paths that have a handler, and
unregistering a path reports whether it is one of them. -/
theorem count_takeAll [DecidableEq α] (steps : List (Step α)) (handler : α) :
    let destroyed := (takeAll {} steps).1
    let router := (takeAll {} steps).2
    destroyed.count handler + (pathsOf handler steps).card = (registered steps).count handler ∧
      (destroyed ++ router.drop).count handler = (registered steps).count handler ∧
      router.size = (routed steps).card ∧
      ∀ path, router.removes path = true ↔ (holder path steps).isSome = true := by
  have nothing : ({} : Router α).drop = [] := rfl
  have conserved := (perm_takeAll distinct_fresh steps).count_eq handler
  rw [nothing, List.nil_append] at conserved
  refine ⟨?_, conserved, size_takeAll steps, fun path => ?_⟩
  · rw [← count_drop_takeAll, ← List.count_append]
    exact conserved
  · rw [removes_eq, get?_takeAll_fresh]

/-- One handler under two paths, one of which is registered again: two of its three registrations
have ended. -/
example :
    let steps : List (Step Nat) :=
      [.register "/a" 1, .register "/b" 1, .register "/a" 1, .unregister "/c", .unregister "/b"]
    (takeAll {} steps).1 = [1, 1] ∧ (takeAll {} steps).2.drop = [1] := by decide

end Router

end WebSocket
