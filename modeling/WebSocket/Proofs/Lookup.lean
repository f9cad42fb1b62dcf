import WebSocket.Proofs.Splitting
import WebSocket.Proofs.Teardown

/-!
# Finding a handler

The target of a request is a path and, behind a question mark, a query. A router is asked with
targets and told paths: what is registered under a path without a question mark is found with the
path and with any query behind it, from its registration on and until it ends
(`Router.routed_takeAll`). A question mark in what is registered cuts it off from every target, so
that nothing is found that is there under such a path.
-/

namespace WebSocket.Router

variable {α : Type} {steps : List (Step α)} {handler : α} {path : String}

/-! ## Paths and targets -/

theorem pathOf_of_plain (plain : '?' ∉ path.toList) : pathOf path = path := by
  have all : path.toList.takeWhile (· != '?') = path.toList :=
    List.takeWhile_eq_self_iff.mpr fun c member =>
      bne_iff_ne.mpr (ne_of_mem_of_not_mem member plain)
  rw [pathOf, all, String.ofList_toList]

/-- A query does not matter. -/
theorem pathOf_query (plain : '?' ∉ path.toList) (query : String) :
    pathOf (path ++ "?" ++ query) = path := by
  have target : (path ++ "?" ++ query).toList = path.toList ++ '?' :: query.toList := by
    simp only [String.toList_append, List.append_assoc]
    rfl
  rw [pathOf, target, Text.takeWhile_append_mark plain, String.ofList_toList]

theorem plain_pathOf (target : String) : '?' ∉ (pathOf target).toList := by
  rw [pathOf, String.toList_ofList]
  intro member
  have other := List.mem_takeWhile_imp member
  simp at other

/-- What stands in front of the first question mark of a target. -/
def IsPath (target path : String) : Prop :=
  '?' ∉ path.toList ∧ (target = path ∨ ∃ query, target = path ++ "?" ++ query)

theorem IsPath.pathOf_eq {target : String} (h : IsPath target path) : pathOf target = path := by
  obtain ⟨plain, rfl | ⟨query, rfl⟩⟩ := h
  · exact pathOf_of_plain plain
  · exact pathOf_query plain query

theorem exists_isPath (target : String) : ∃ path, IsPath target path := by
  by_cases marked : '?' ∈ target.toList
  · obtain ⟨path, query, split, plain⟩ := List.eq_append_cons_of_mem marked
    refine ⟨String.ofList path, by rwa [String.toList_ofList], .inr ⟨String.ofList query, ?_⟩⟩
    rw [← String.toList_inj, split]
    simp only [String.toList_append, String.toList_ofList, List.append_assoc]
    rfl
  · exact ⟨target, marked, .inl rfl⟩

/-- What a router holds under the path of this target. -/
def Finds (router : Router α) (target : String) (found : Option α) : Prop :=
  ∃ path, IsPath target path ∧ router.routes.get? path = found

theorem finds_iff {router : Router α} {target : String} {found : Option α} :
    router.Finds target found ↔ router.get? target = found := by
  constructor
  · rintro ⟨path, isPath, held⟩
    rw [get?, isPath.pathOf_eq, held]
  · rintro rfl
    obtain ⟨path, isPath⟩ := exists_isPath target
    exact ⟨path, isPath, by rw [get?, isPath.pathOf_eq]⟩

/-! ## The last step on a path -/

/-- The last step that names the path registers the handler there. -/
def LastRegisters (path : String) (handler : α) (steps : List (Step α)) : Prop :=
  ∃ front back, steps = front ++ .register path handler :: back ∧ ∀ step ∈ back, step.path ≠ path

/-- No step names the path, or the last one that does ends its registration. -/
inductive Vacant (path : String) (steps : List (Step α)) : Prop where
  | never (others : ∀ step ∈ steps, step.path ≠ path)
  | ended (front back : List (Step α)) (split : steps = front ++ .unregister path :: back)
      (others : ∀ step ∈ back, step.path ≠ path)

/-- The last step on a path decides who holds it. -/
theorem holder_of_last (step : Step α) {front back : List (Step α)}
    (others : ∀ other ∈ back, other.path ≠ step.path) :
    holder step.path (front ++ step :: back) = step.handler? := by
  have behind : back.filter (·.path == step.path) = [] :=
    List.filter_eq_nil_iff.mpr fun other member => by simpa using others other member
  have about : (step :: back).filter (·.path == step.path) = [step] := by
    rw [List.filter_cons, if_pos (beq_self_eq_true step.path), behind]
  rw [holder, List.filter_append, about, List.getLast?_concat]
  rfl

/-- A path that steps name has a last step. -/
theorem exists_last (path : String) (steps : List (Step α)) :
    (∀ step ∈ steps, step.path ≠ path) ∨
      ∃ step front back, step.path = path ∧ steps = front ++ step :: back ∧
        ∀ other ∈ back, other.path ≠ path := by
  induction steps with
  | nil => exact .inl nofun
  | cons first steps ih =>
    rcases ih with others | ⟨step, front, back, named, split, others⟩
    · by_cases named : first.path = path
      · exact .inr ⟨first, [], steps, named, rfl, others⟩
      · exact .inl (List.forall_mem_cons.mpr ⟨named, others⟩)
    · exact .inr ⟨step, first :: front, back, named, congrArg (first :: ·) split, others⟩

theorem holder_eq_some_iff :
    holder path steps = some handler ↔ LastRegisters path handler steps := by
  constructor
  · intro held
    rcases exists_last path steps with others | ⟨step, front, back, rfl, rfl, others⟩
    · have nothing : steps.filter (·.path == path) = [] :=
        List.filter_eq_nil_iff.mpr fun step member => by simpa using others step member
      rw [holder, nothing] at held
      cases held
    · rw [holder_of_last _ others] at held
      cases step with
      | register path other =>
        cases held
        exact ⟨front, back, rfl, others⟩
      | unregister path => cases held
  · rintro ⟨front, back, rfl, others⟩
    exact holder_of_last (.register path handler) others

theorem holder_eq_none_iff : holder path steps = none ↔ Vacant path steps := by
  constructor
  · intro free
    rcases exists_last path steps with others | ⟨step, front, back, rfl, rfl, others⟩
    · exact .never others
    · rw [holder_of_last _ others] at free
      cases step with
      | register path other => cases free
      | unregister path => exact .ended front back rfl others
  · rintro (others | ⟨front, back, rfl, others⟩)
    · have nothing : steps.filter (·.path == path) = [] :=
        List.filter_eq_nil_iff.mpr fun step member => by simpa using others step member
      rw [holder, nothing]
      rfl
    · exact holder_of_last (.unregister path) others

/-- Steps on other paths make no difference. -/
theorem holder_filter (keeps : String → Bool) (kept : keeps path = true) :
    holder path (steps.filter (keeps ·.path)) = holder path steps := by
  have about : (steps.filter (keeps ·.path)).filter (·.path == path) =
      steps.filter (·.path == path) := by
    rw [List.filter_filter]
    refine List.filter_congr fun step _ => ?_
    by_cases named : step.path = path
    · simp [named, kept]
    · simp [named]
  rw [holder, holder, about]

/-! ## Finding what is registered -/

/-- **A handler is found under its path, with any query.** However a router has been used: for a
path without a question mark, the path and the path with a query find the same. It is the handler
that the last step on the path has registered; and nothing exactly if no step has named the path or
the last one has ended its registration. For a path with a question mark there is no such target:
whatever is asked for, steps on such a path make no difference. -/
theorem routed_takeAll (steps : List (Step α)) (path query : String) :
    let router := (takeAll {} steps).2
    ('?' ∉ path.toList → ∀ target ∈ [path, path ++ "?" ++ query],
      (∀ handler, router.get? target = some handler ↔ LastRegisters path handler steps) ∧
        (router.get? target = none ↔ Vacant path steps)) ∧
    ('?' ∈ path.toList → ∀ target,
      router.get? target = (takeAll {} (steps.filter (·.path != path))).2.get? target) := by
  refine ⟨fun plain target member => ?_, fun cut target => ?_⟩
  · have named : pathOf target = path := IsPath.pathOf_eq
      ⟨plain, (List.mem_pair.mp member).imp_right fun same => ⟨query, same⟩⟩
    simp only [get?_eq_holder, named]
    exact ⟨fun handler => holder_eq_some_iff, holder_eq_none_iff⟩
  · have other : (pathOf target != path) = true :=
      bne_iff_ne.mpr fun same => plain_pathOf target (same ▸ cut)
    rw [get?_eq_holder, get?_eq_holder, holder_filter (· != path) other]

/-- A path that is registered again, beside one that is given up and one with a question mark. -/
theorem routed_takeAll_again :
    let steps : List (Step Nat) :=
      [.register "/a" 1, .register "/b" 2, .unregister "/a", .register "/a" 3,
        .register "/a?x" 4, .unregister "/b"]
    let router := (takeAll {} steps).2
    '?' ∉ "/a".toList ∧ LastRegisters "/a" 3 steps ∧ router.get? "/a?x=1?y" = some 3 ∧
      '?' ∉ "/b".toList ∧ Vacant "/b" steps ∧ router.get? "/b" = none ∧
      '?' ∈ "/a?x".toList ∧ router.get? "/a?x" = some 3 := by
  intro steps router
  have plain : '?' ∉ "/a".toList := by decide
  have free : '?' ∉ "/b".toList := by decide
  have cut : '?' ∈ "/a?x".toList := by decide
  have last : LastRegisters "/a" 3 steps :=
    ⟨[.register "/a" 1, .register "/b" 2, .unregister "/a"],
      [.register "/a?x" 4, .unregister "/b"], rfl, by decide⟩
  have vacant : Vacant "/b" steps :=
    .ended [.register "/a" 1, .register "/b" 2, .unregister "/a", .register "/a" 3,
      .register "/a?x" 4] [] rfl (by decide)
  have found := ((routed_takeAll steps "/a" "x=1?y").1 plain _ (.tail _ (.head _))).1 3
  have nothing := ((routed_takeAll steps "/b" "").1 free _ (.head _)).2
  have unmoved := (routed_takeAll steps "/a?x" "").2 cut "/a?x"
  exact ⟨plain, last, found.mpr last, free, vacant, nothing.mpr vacant, cut,
    unmoved.trans (by decide)⟩

/-- What is registered under a path with a question mark is not found with it. -/
theorem unrouted_of_query :
    let steps : List (Step Nat) := [.register "/a?b" 1]
    LastRegisters "/a?b" 1 steps ∧ (takeAll {} steps).2.get? "/a?b" = none :=
  ⟨⟨[], [], rfl, nofun⟩, by decide⟩

end WebSocket.Router
