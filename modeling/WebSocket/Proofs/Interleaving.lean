import Mathlib.Data.List.Basic

/-!
# Interleavings

Several parties do what they do each in its own order, and nothing is known about the order among
them (`Interleaves`). One party is found again in what comes of that, if it can be told from the
others (`Interleaves.filter_eq`).
-/

namespace WebSocket

variable {α β : Type} {xs ys zs : List α} {lists : List (List α)} {p : α → Bool}

/-- The third list is made up of the first two, each in its order. -/
inductive Shuffles : List α → List α → List α → Prop where
  | nil : Shuffles [] [] []
  | left {x : α} {xs ys zs : List α} (h : Shuffles xs ys zs) : Shuffles (x :: xs) ys (x :: zs)
  | right {y : α} {xs ys zs : List α} (h : Shuffles xs ys zs) : Shuffles xs (y :: ys) (y :: zs)

/-- The list is made up of these lists, each in its order. -/
inductive Interleaves : List (List α) → List α → Prop where
  | nil : Interleaves [] []
  | cons {list merged all : List α} {lists : List (List α)} (h : Interleaves lists merged)
      (shuffles : Shuffles list merged all) : Interleaves (list :: lists) all

namespace Shuffles

theorem nil_left (ys : List α) : Shuffles [] ys ys := by
  induction ys with
  | nil => exact .nil
  | cons y ys ih => exact ih.right

theorem eq_of_nil_left (h : Shuffles [] ys zs) : zs = ys := by
  induction ys generalizing zs with
  | nil => cases h; rfl
  | cons y ys ih =>
    cases h with
    | right h => rw [ih h]

theorem eq_of_nil_right (h : Shuffles xs [] zs) : zs = xs := by
  induction xs generalizing zs with
  | nil => cases h; rfl
  | cons x xs ih =>
    cases h with
    | left h => rw [ih h]

theorem mem_iff {a : α} (h : Shuffles xs ys zs) : a ∈ zs ↔ a ∈ xs ∨ a ∈ ys := by
  induction h with
  | nil => simp
  | left h ih => simp only [List.mem_cons, ih, or_assoc]
  | right h ih => simp only [List.mem_cons, ih, or_left_comm]

theorem filter (h : Shuffles xs ys zs) (p : α → Bool) :
    Shuffles (xs.filter p) (ys.filter p) (zs.filter p) := by
  induction h with
  | nil => exact .nil
  | @left x xs ys zs h ih =>
    cases keeps : p x with
    | true => simpa only [List.filter_cons, keeps, if_true] using ih.left
    | false => simpa [List.filter_cons, keeps] using ih
  | @right y xs ys zs h ih =>
    cases keeps : p y with
    | true => simpa only [List.filter_cons, keeps, if_true] using ih.right
    | false => simpa [List.filter_cons, keeps] using ih

theorem map (h : Shuffles xs ys zs) (f : α → β) : Shuffles (xs.map f) (ys.map f) (zs.map f) := by
  induction h with
  | nil => exact .nil
  | left h ih => exact ih.left
  | right h ih => exact ih.right

end Shuffles

namespace Interleaves

/-- What is next of any of the lists may come first. -/
theorem next {before after : List (List α)} {x : α} (h : Interleaves (before ++ xs :: after) zs) :
    Interleaves (before ++ (x :: xs) :: after) (x :: zs) := by
  induction before generalizing zs with
  | nil =>
    cases h with
    | cons h shuffles => exact .cons h shuffles.left
  | cons list before ih =>
    cases h with
    | cons h shuffles => exact .cons (ih h) shuffles.right

/-- A list that is used up makes no difference. -/
theorem insert_nil {before after : List (List α)} (h : Interleaves (before ++ after) zs) :
    Interleaves (before ++ [] :: after) zs := by
  induction before generalizing zs with
  | nil => exact .cons h (.nil_left zs)
  | cons list before ih =>
    cases h with
    | cons h shuffles => exact .cons (ih h) shuffles

theorem mem_iff {a : α} (h : Interleaves lists zs) : a ∈ zs ↔ ∃ list ∈ lists, a ∈ list := by
  induction h with
  | nil => simp
  | cons h shuffles ih => simp [shuffles.mem_iff, ih]

theorem filter (h : Interleaves lists zs) (p : α → Bool) :
    Interleaves (lists.map (·.filter p)) (zs.filter p) := by
  induction h with
  | nil => exact .nil
  | cons h shuffles ih => exact .cons ih (shuffles.filter p)

theorem map (h : Interleaves lists zs) (f : α → β) :
    Interleaves (lists.map (·.map f)) (zs.map f) := by
  induction h with
  | nil => exact .nil
  | cons h shuffles ih => exact .cons ih (shuffles.map f)

theorem eq_nil_of_nil (h : Interleaves lists zs) (empty : ∀ list ∈ lists, list = []) : zs = [] := by
  refine List.eq_nil_iff_forall_not_mem.mpr fun a member => ?_
  obtain ⟨list, among, inside⟩ := h.mem_iff.mp member
  rw [empty list among] at inside
  cases inside

/-- Of lists of which one at most has elements nothing else can come. -/
theorem eq_of_others_nil {before after : List (List α)}
    (h : Interleaves (before ++ xs :: after) zs) (first : ∀ list ∈ before, list = [])
    (last : ∀ list ∈ after, list = []) : zs = xs := by
  induction before generalizing zs with
  | nil =>
    cases h with
    | cons h shuffles =>
      obtain rfl := h.eq_nil_of_nil last
      exact shuffles.eq_of_nil_right
  | cons list before ih =>
    obtain ⟨rfl, others⟩ := List.forall_mem_cons.mp first
    cases h with
    | cons h shuffles => exact shuffles.eq_of_nil_left.trans (ih h others)

/-- **What can be told from the rest comes in its own order.** -/
theorem filter_eq {before after : List (List α)} (h : Interleaves (before ++ xs :: after) zs)
    (mine : ∀ a ∈ xs, p a = true) (others : ∀ list ∈ before ++ after, ∀ a ∈ list, p a = false) :
    zs.filter p = xs := by
  have kept := h.filter p
  rw [List.map_append, List.map_cons, List.filter_eq_self.mpr mine] at kept
  have nothing (lists : List (List α)) (among : lists ⊆ before ++ after) :
      ∀ list ∈ lists.map (·.filter p), list = [] := by
    intro list member
    obtain ⟨whole, inside, rfl⟩ := List.mem_map.mp member
    exact List.filter_eq_nil_iff.mpr fun a member => by simp [others whole (among inside) a member]
  exact kept.eq_of_others_nil (nothing before (List.subset_append_left ..))
    (nothing after (List.subset_append_right ..))

end Interleaves

end WebSocket
