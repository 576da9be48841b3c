import Mathlib.Data.List.Induction
import Mathlib.Data.List.Perm.Basic

/-!
# Distributing a stream over queues

A demultiplexer appends every item of a stream to one of several queues.  `distribute`
gives the queues for a stream of items with their routes: each queue is the part of the
stream that is routed to it, in order, and all queues together are the stream.
-/

namespace LowerTier.ProofSupport.Demux

open List

variable {α : Type*} {queues : List (List α)} {routes : List (Nat × α)} {index count : Nat}

def push (queues : List (List α)) (route : Nat × α) : List (List α) :=
  queues.modify route.1 (· ++ [route.2])

def distribute (count : Nat) (routes : List (Nat × α)) : List (List α) :=
  routes.foldl push (replicate count [])

@[simp] theorem distribute_nil : distribute count ([] : List (Nat × α)) = replicate count [] :=
  rfl

theorem distribute_concat (routes : List (Nat × α)) (route : Nat × α) :
    distribute count (routes ++ [route]) = push (distribute count routes) route := by
  simp [distribute]

@[simp] theorem length_distribute (count : Nat) (routes : List (Nat × α)) :
    (distribute count routes).length = count := by
  induction routes using reverseRecOn with
  | nil => simp
  | append_singleton routes route ih =>
    rw [distribute_concat, push, length_modify, ih]

theorem flatten_push_perm {route : Nat × α} (hroute : route.1 < queues.length) :
    (push queues route).flatten.Perm (queues.flatten ++ [route.2]) := by
  obtain ⟨index, item⟩ := route
  induction queues generalizing index with
  | nil => exact absurd hroute (Nat.not_lt_zero _)
  | cons queue queues ih =>
    cases index with
    | zero =>
      have hswap : ([item] ++ queues.flatten).Perm (queues.flatten ++ [item]) := perm_append_comm
      simpa [push] using hswap.append_left queue
    | succ index =>
      have hrest := ih index (Nat.lt_of_succ_lt_succ hroute)
      simpa [push] using hrest.append_left queue

theorem flatten_distribute_perm (hroutes : ∀ route ∈ routes, route.1 < count) :
    (distribute count routes).flatten.Perm (routes.map Prod.snd) := by
  induction routes using reverseRecOn with
  | nil => simp
  | append_singleton routes route ih =>
    have hlast : route.1 < (distribute count routes).length := by
      rw [length_distribute]
      exact hroutes route (by simp)
    have hinit := ih fun other hother => hroutes other (by simp [hother])
    rw [distribute_concat, map_append]
    exact (flatten_push_perm hlast).trans (hinit.append_right _)

theorem getElem?_distribute (routes : List (Nat × α)) (hindex : index < count) :
    (distribute count routes)[index]? =
      some ((routes.filter fun route => route.1 = index).map Prod.snd) := by
  induction routes using reverseRecOn with
  | nil => simp [hindex]
  | append_singleton routes route ih =>
    rw [distribute_concat, push, getElem?_modify, ih]
    by_cases hroute : route.1 = index
    · simp [hroute]
    · simp [hroute]

variable {queue : List α}

section

variable (hqueue : (distribute count routes)[index]? = some queue)
include hqueue

theorem queue_eq_filter : queue = (routes.filter fun route => route.1 = index).map Prod.snd := by
  have hindex : index < count := by
    rw [← length_distribute count routes]
    exact (List.getElem?_eq_some_iff.mp hqueue).1
  rw [getElem?_distribute routes hindex, Option.some.injEq] at hqueue
  exact hqueue.symm

theorem mem_of_mem_distribute {item : α} (hitem : item ∈ queue) : (index, item) ∈ routes := by
  rw [queue_eq_filter hqueue] at hitem
  obtain ⟨route, hroute, rfl⟩ := mem_map.mp hitem
  obtain ⟨hmem, hfst⟩ := mem_filter.mp hroute
  have hfst : route.1 = index := by simpa using hfst
  exact hfst ▸ hmem

/-- A class of items that is routed to one queue is found there whole and in order. -/
theorem filter_queue_eq {select : α → Bool}
    (hselect : ∀ route ∈ routes, select route.2 = true → route.1 = index) :
    queue.filter select = (routes.map Prod.snd).filter select := by
  rw [queue_eq_filter hqueue, filter_map, filter_map, filter_filter]
  congr 1
  apply filter_congr
  intro route hroute
  by_cases hsel : select route.2 = true
  · simp [hsel, hselect route hroute hsel]
  · simp [hsel]

end

end LowerTier.ProofSupport.Demux
