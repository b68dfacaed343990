import Mathlib.Data.List.Basic

/-!
# Subscriptions

A broker sends what is published on a channel to those who are subscribed to it at that moment, and
keeps nothing. What a subscriber is owed is thus a part of the history of all channels, from where
it has subscribed: `Subscriber.due`.

## Main definitions

* `Subscriber`: what has been taken, and what is waiting
* `Subscriber.Follows`: nothing is lost, doubled or out of order

## Main results

* `follows_subscribe`, `Follows.publish`, `Follows.take`: the three operations
* `due_prefix`: what is due only grows
-/

namespace PubSub

variable {κ α : Type*}

structure Subscriber (κ α : Type*) where
  channel : κ
  /-- The length of the history when it subscribed. -/
  since : ℕ
  taken : List α
  queue : List α

variable [DecidableEq κ] (chan : α → κ)

namespace Subscriber

/-- What has been published on the channel since. -/
def due (s : Subscriber κ α) (history : List α) : List α :=
  (history.drop s.since).filter fun m => chan m = s.channel

/-- The history is `history` when it subscribes. -/
def subscribe (channel : κ) (history : List α) : Subscriber κ α where
  channel := channel
  since := history.length
  taken := []
  queue := []

/-- A message is published. -/
def hear (s : Subscriber κ α) (m : α) : Subscriber κ α :=
  if chan m = s.channel then { s with queue := s.queue ++ [m] } else s

/-- The next message is taken. -/
def take (s : Subscriber κ α) : Option (α × Subscriber κ α) :=
  match s.queue with
  | [] => none
  | m :: queue => some (m, { s with taken := s.taken ++ [m], queue })

/-- Nothing is lost, doubled or out of order. -/
structure Follows (s : Subscriber κ α) (history : List α) : Prop where
  since : s.since ≤ history.length
  due : s.due chan history = s.taken ++ s.queue

variable {chan} {s : Subscriber κ α} {history : List α}

theorem due_append (h : s.since ≤ history.length) (more : List α) :
    s.due chan (history ++ more) =
      s.due chan history ++ more.filter fun m => chan m = s.channel := by
  rw [due, due, List.drop_append_of_le_length h, List.filter_append]

theorem due_prefix (h : s.since ≤ history.length) (more : List α) :
    s.due chan history <+: s.due chan (history ++ more) := by
  rw [due_append h]
  exact List.prefix_append _ _

theorem follows_subscribe (channel : κ) (history : List α) :
    (subscribe channel history).Follows chan history where
  since := Nat.le_refl _
  due := by simp [due, subscribe]

@[simp] theorem hear_channel (s : Subscriber κ α) (m : α) :
    (s.hear chan m).channel = s.channel := by
  rw [hear]
  split <;> rfl

@[simp] theorem hear_since (s : Subscriber κ α) (m : α) : (s.hear chan m).since = s.since := by
  rw [hear]
  split <;> rfl

@[simp] theorem hear_taken (s : Subscriber κ α) (m : α) : (s.hear chan m).taken = s.taken := by
  rw [hear]
  split <;> rfl

theorem due_hear (s : Subscriber κ α) (m : α) (history : List α) :
    (s.hear chan m).due chan history = s.due chan history := by
  rw [due, due, hear_since, hear_channel]

/-- **One message** is added to what is due and to the queue, or to neither. -/
theorem Follows.publish (h : s.Follows chan history) (m : α) :
    (s.hear chan m).Follows chan (history ++ [m]) where
  since := by
    rw [hear_since, List.length_append]
    exact Nat.le_add_right_of_le h.since
  due := by
    rw [due_hear, due_append h.since, h.due, hear]
    by_cases hm : chan m = s.channel <;> simp [hm]

/-- **A message is taken** from the queue. -/
theorem Follows.take {m : α} {s' : Subscriber κ α} (h : s.Follows chan history)
    (ht : s.take = some (m, s')) : s'.Follows chan history ∧ s'.taken = s.taken ++ [m] := by
  rw [Subscriber.take] at ht
  split at ht
  · cases ht
  · next m' queue hqueue =>
    obtain ⟨rfl, rfl⟩ := Prod.mk.inj (Option.some.inj ht)
    have hdue := h.due
    rw [hqueue] at hdue
    exact ⟨⟨h.since, by simpa [Subscriber.due] using hdue⟩, rfl⟩

end Subscriber

end PubSub
