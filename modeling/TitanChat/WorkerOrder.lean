import TitanChat.ConsumerDeadlock

/-!
# One worker and one order

The worker of a conversation may end and be created again, and old queues may still be around then:
the loop may be suspended in a `put` on a queue that has been dropped. None of this can reorder a
conversation. The queue that `_conv_queues` has for it is the queue of its live worker, and the loop
puts one record at a time.

## The trail of a conversation

`trail c` is what has been handed to `_dispatch` for conversation `c`, then what is queued for its
worker, then what is still to come. A step moves an item from one part to the next, or loses it,
but never adds one and never swaps two. So what has been handed over is a sublist of what the
records have for `c`, as they came.

## Main definitions

* `State.trail`: the items of a conversation, in the order in which they will be handed over
* `Ordered`: the property

## Main results

* `trail_step`: a step only shortens a trail
* `one_worker_one_order`: the property holds in every state of every run
-/

namespace TitanChat

namespace Consumer

/-- The worker hands the item to `_dispatch` when it takes it. -/
def Item.dispatches (item : Item) : Bool := item.value.dict?.isSome

namespace State

/-- The items handed to `_dispatch` for conversation `c`, in order. -/
def dispatchedTo (s : State) (c : String) : List Item :=
  (s.dispatched.filter fun e => e.1 = c).map Prod.snd

/-- What is queued for the worker of conversation `c`. -/
def queuedFor (s : State) (c : String) : List Item :=
  (s.convQueues c).elim [] fun q => (s.workers q).queue.filter Item.dispatches

/-- The items of conversation `c`: handed over, queued and still to come. -/
def trail (cfg : Config) (s : State) (c : String) : List Item :=
  s.dispatchedTo c ++ s.queuedFor c ++ s.pending cfg c

end State

/-- **One worker, one order.** -/
structure Ordered (cfg : Config) (records : List Record) (s : State) : Prop where
  /-- At most one handler is in progress for each conversation. -/
  one : ∀ v w x y, (s.workers v).pc = .handling x → (s.workers w).pc = .handling y →
    (s.workers v).conversation_id = (s.workers w).conversation_id → v = w
  /-- What has been handed over is, in order, a part of what the loop has received. -/
  order : ∀ c, (s.dispatchedTo c).Sublist (cfg.items c (records.take s.offset))
  nodup : ∀ c, (s.dispatchedTo c).Nodup

variable {cfg : Config} {records : List Record} {s s' : State}

/-! ### One step -/

theorem dispatchedTo_append {d : String} {item : Item}
    (h : s'.dispatched = s.dispatched ++ [(d, item)]) (c : String) :
    s'.dispatchedTo c = s.dispatchedTo c ++ if d = c then [item] else [] := by
  rw [State.dispatchedTo, h, List.filter_append, List.map_append]
  by_cases hd : d = c <;> simp [hd, State.dispatchedTo]

theorem queuedFor_of_known {c : String} {q : ℕ} (h : s.convQueues c = some q) :
    s.queuedFor c = (s.workers q).queue.filter Item.dispatches := by
  rw [State.queuedFor, h, Option.elim_some]

theorem queuedFor_of_new {c : String} (h : s.convQueues c = none) : s.queuedFor c = [] := by
  rw [State.queuedFor, h, Option.elim_none]

/-- The entry of the conversation is the same, and so is its queue. -/
theorem queuedFor_congr {c : String} (hqueues : s'.convQueues c = s.convQueues c)
    (hworkers : ∀ q, s.convQueues c = some q → (s'.workers q).queue = (s.workers q).queue) :
    s'.queuedFor c = s.queuedFor c := by
  cases hc : s.convQueues c with
  | none => rw [queuedFor_of_new hc, queuedFor_of_new (hqueues.trans hc)]
  | some q => rw [queuedFor_of_known hc, queuedFor_of_known (hqueues.trans hc), hworkers q hc]

/-- One worker changes, and not its queue. -/
theorem queue_of_modify {w : ℕ} {f : Worker → Worker}
    (hf : (f (s.workers w)).queue = (s.workers w).queue) (v : ℕ) :
    ((s.modify w f).workers v).queue = (s.workers v).queue := by
  rw [State.modify_workers]
  split
  · next hv => rw [hf, hv]
  · rfl

theorem pending_modify {w : ℕ} {f : Worker → Worker}
    (hf : (f (s.workers w)).conversation_id = (s.workers w).conversation_id) (c : String) :
    (s.modify w f).pending cfg c = s.pending cfg c := by
  rw [State.pending, State.inFlight_modify s hf]
  rfl

/-- A worker moves on and takes nothing. -/
theorem trail_modify {w : ℕ} {f : Worker → Worker}
    (hconv : (f (s.workers w)).conversation_id = (s.workers w).conversation_id)
    (hqueue : (f (s.workers w)).queue = (s.workers w).queue) (c : String) :
    (s.modify w f).trail cfg c = s.trail cfg c := by
  have hqueued : (s.modify w f).queuedFor c = s.queuedFor c :=
    queuedFor_congr (by rfl) fun q _ => queue_of_modify hqueue q
  rw [State.trail, State.trail, pending_modify hconv, hqueued]
  rfl

/-- The loop puts its item on the current queue of the conversation, or on one that has been
dropped. -/
theorem trail_put (ht : TableInv s) {q : ℕ} {item : Item} (hloop : s.loop = .putting q item)
    (hdispatched : s'.dispatched = s.dispatched) (hqueues : s'.convQueues = s.convQueues)
    (hworkers : s'.workers = (s.enqueue q item).workers) (hinput : s'.input = s.input)
    (hoffset : s'.offset = s.offset) (hloop' : s'.loop = .fetching) (c : String) :
    (s'.trail cfg c).Sublist (s.trail cfg c) := by
  have hdisp : s'.dispatchedTo c = s.dispatchedTo c := by
    rw [State.dispatchedTo, State.dispatchedTo, hdispatched]
  rw [State.trail, State.trail, pending_of_put hloop hinput hoffset hloop' c, hdisp,
    List.append_assoc, List.append_assoc, ← List.append_assoc (s.queuedFor c)]
  refine (List.Sublist.refl _).append (List.Sublist.append ?_ (List.Sublist.refl _))
  by_cases hc : s.convQueues c = some q
  · rw [if_pos (ht.queues c q hc).1, queuedFor_of_known hc,
      queuedFor_of_known (show s'.convQueues c = some q by rw [hqueues, hc]), hworkers,
      State.enqueue, State.modify_workers, if_pos rfl, List.filter_append]
    exact (List.Sublist.refl _).append List.filter_sublist
  · have hsame : s'.queuedFor c = s.queuedFor c := by
      refine queuedFor_congr (by rw [hqueues]) fun v hv => ?_
      have hvq : v ≠ q := fun heq => hc (heq ▸ hv)
      rw [hworkers, State.enqueue, State.modify_workers, if_neg hvq]
    rw [hsame]
    exact List.sublist_append_left _ _

/-- A sentinel is not part of a trail. -/
theorem trail_sentinel (q : ℕ) (c : String) :
    (s.enqueue q .sentinel).trail cfg c = s.trail cfg c := by
  have hqueued : (s.enqueue q .sentinel).queuedFor c = s.queuedFor c := by
    cases hc : s.convQueues c with
    | none =>
      have hc' : (s.enqueue q .sentinel).convQueues c = none := hc
      rw [queuedFor_of_new hc, queuedFor_of_new hc']
    | some v =>
      have hc' : (s.enqueue q .sentinel).convQueues c = some v := hc
      rw [queuedFor_of_known hc, queuedFor_of_known hc', State.enqueue, State.modify_workers]
      split
      · next hv =>
        rw [hv, List.filter_append]
        exact List.append_nil _
      · rfl
  rw [State.trail, State.trail, hqueued, State.enqueue, pending_modify rfl]
  rfl

/-- The queue of another conversation, when a worker changes. -/
theorem queuedFor_modify_of_ne (ht : TableInv s) {w : ℕ} {f : Worker → Worker} {c : String}
    (hc : (s.workers w).conversation_id ≠ c) : (s.modify w f).queuedFor c = s.queuedFor c := by
  refine queuedFor_congr rfl fun q hq => ?_
  have hqw : q ≠ w := by
    rintro rfl
    exact hc (ht.queues c q hq).1
  rw [State.modify_workers, if_neg hqw]

/-- A worker takes the head of its queue and hands it over. -/
theorem trail_hand (ht : TableInv s) {w : ℕ} {item : Item} {rest : List Item} {f : Worker → Worker}
    (hlive : (s.workers w).pc.live) (hqueue : (s.workers w).queue = item :: rest)
    (hdict : item.dispatches) (hrest : (f (s.workers w)).queue = rest)
    (hconv : (f (s.workers w)).conversation_id = (s.workers w).conversation_id) (c : String) :
    State.trail cfg { s.modify w f with
      dispatched := s.dispatched ++ [((s.workers w).conversation_id, item)] } c =
        s.trail cfg c := by
  have hdisp : State.dispatchedTo { s.modify w f with
      dispatched := s.dispatched ++ [((s.workers w).conversation_id, item)] } c =
        s.dispatchedTo c ++ if (s.workers w).conversation_id = c then [item] else [] :=
    dispatchedTo_append rfl c
  have hpending : (s.modify w f).pending cfg c = s.pending cfg c := pending_modify hconv c
  have hqueued : s.queuedFor c = (if (s.workers w).conversation_id = c then [item] else []) ++
      (s.modify w f).queuedFor c := by
    by_cases hc : (s.workers w).conversation_id = c
    · have hown : s.convQueues c = some w := hc ▸ ht.own w hlive
      rw [if_pos hc, queuedFor_of_known hown,
        queuedFor_of_known (show (s.modify w f).convQueues c = some w from hown),
        State.modify_workers, if_pos rfl, hrest, hqueue, List.filter_cons_of_pos hdict]
      rfl
    · rw [if_neg hc, queuedFor_modify_of_ne ht hc, List.nil_append]
  rw [State.trail, State.trail, hdisp, hqueued, ← hpending, List.append_assoc, List.append_assoc,
    List.append_assoc, List.append_assoc]
  rfl

/-- A worker that leaves its loop drops the head of its queue, and perhaps its entry. -/
theorem trail_leave {w : ℕ} {item : Item} {rest : List Item} (pc : WorkerPc)
    (hqueue : (s.workers w).queue = item :: rest) (hdispatched : s'.dispatched = s.dispatched)
    (hqueues : ∀ c, s'.convQueues c = none ∨ s'.convQueues c = s.convQueues c)
    (hworkers : s'.workers = (s.modify w ({ · with queue := rest, pc := pc })).workers)
    (hloop : s'.loop = s.loop) (hinput : s'.input = s.input) (hoffset : s'.offset = s.offset)
    (c : String) : (s'.trail cfg c).Sublist (s.trail cfg c) := by
  have hdisp : s'.dispatchedTo c = s.dispatchedTo c := by
    rw [State.dispatchedTo, State.dispatchedTo, hdispatched]
  have hpending : s'.pending cfg c = s.pending cfg c := by
    rw [← pending_modify (s := s) (w := w) (f := ({ · with queue := rest, pc := pc })) rfl,
      State.pending, State.pending, State.inFlight, State.inFlight, hworkers, hloop, hinput,
      hoffset]
    rfl
  rw [State.trail, State.trail, hdisp, hpending]
  refine ((List.Sublist.refl _).append ?_).append (List.Sublist.refl _)
  obtain hc | hc := hqueues c
  · rw [queuedFor_of_new hc]
    exact List.nil_sublist _
  · cases hq : s.convQueues c with
    | none =>
      rw [queuedFor_of_new (hc.trans hq)]
      exact List.nil_sublist _
    | some q =>
      rw [queuedFor_of_known hq, queuedFor_of_known (hc.trans hq), hworkers, State.modify_workers]
      split
      · next hqw =>
        rw [hqw, hqueue]
        exact (List.sublist_cons_self item rest).filter _
      · exact List.Sublist.refl _

/-- The loop reads an item for a queue that is there. -/
theorem trail_deliver (ht : TableInv s) {msg : Record} {rest : List Record} {d : String}
    {payload : Json} {q : ℕ} (hloop : s.loop = .fetching) (hinput : s.input = msg :: rest)
    (hdelivery : cfg.delivery msg = some (d, payload)) (hknown : s.convQueues d = some q)
    (hdispatched : s'.dispatched = s.dispatched) (hqueues : s'.convQueues = s.convQueues)
    (hworkers : s'.workers = s.workers) (hinput' : s'.input = rest)
    (hoffset' : s'.offset = s.offset + 1)
    (hloop' : s'.loop = .putting q { offset := s.offset, value := payload }) (c : String) :
    s'.trail cfg c = s.trail cfg c := by
  have hpending : s'.pending cfg c = s.pending cfg c := by
    refine pending_of_read hloop hinput hdelivery hinput' hoffset' hloop' ?_ c
    rw [hworkers]
    exact (ht.queues d q hknown).1
  have hqueued : s'.queuedFor c = s.queuedFor c :=
    queuedFor_congr (by rw [hqueues]) fun v _ => by rw [hworkers]
  rw [State.trail, State.trail, hpending, hqueued, State.dispatchedTo, State.dispatchedTo,
    hdispatched]

/-- A queue and a worker are created for a conversation that has none. -/
theorem trail_create (ht : TableInv s) {msg : Record} {rest : List Record} {d : String}
    {payload : Json} (hloop : s.loop = .fetching) (hinput : s.input = msg :: rest)
    (hdelivery : cfg.delivery msg = some (d, payload)) (hnew : s.convQueues d = none)
    {ctx : Trace} (hdispatched : s'.dispatched = s.dispatched)
    (hqueues : s'.convQueues = Function.update s.convQueues d s.created)
    (hworkers : s'.workers = Function.update s.workers s.created
      { conversation_id := d, queue := [], pc := .created, ctx := ctx })
    (hinput' : s'.input = rest) (hoffset' : s'.offset = s.offset + 1)
    (hloop' : s'.loop = .putting s.created { offset := s.offset, value := payload }) (c : String) :
    s'.trail cfg c = s.trail cfg c := by
  have hpending : s'.pending cfg c = s.pending cfg c := by
    refine pending_of_read hloop hinput hdelivery hinput' hoffset' hloop' ?_ c
    rw [hworkers, Function.update_self]
  have hqueued : s'.queuedFor c = s.queuedFor c := by
    by_cases hcd : c = d
    · subst hcd
      have hown : s'.convQueues c = some s.created := by rw [hqueues, Function.update_self]
      rw [queuedFor_of_known hown, queuedFor_of_new hnew, hworkers, Function.update_self]
      rfl
    · refine queuedFor_congr (by rw [hqueues, Function.update_of_ne hcd]) fun q hq => ?_
      rw [hworkers, Function.update_of_ne (Nat.ne_of_lt (ht.queue_lt_created hq))]
  rw [State.trail, State.trail, hpending, hqueued, State.dispatchedTo, State.dispatchedTo,
    hdispatched]

/-- **A step only shortens a trail.** -/
theorem trail_step (ht : TableInv s) {a : Action} (hs : step cfg s a = some s') (c : String) :
    (s'.trail cfg c).Sublist (s.trail cfg c) := by
  have hsame (t : State) (h : t.trail cfg c = s.trail cfg c) :
      (t.trail cfg c).Sublist (s.trail cfg c) := by
    rw [h]
  have hmove (w : ℕ) (pc : WorkerPc) : (s.setPc w pc).trail cfg c = s.trail cfg c :=
    trail_modify (by rfl) (by rfl) c
  cases stepped_of_step hs with
  | resumed | awaitsRecord | putWaits | getWaits | suspended | sentinelWaits => exact hsame _ rfl
  | @skipped msg rest cpu hloop hinput hskip =>
    have hpending : s.pending cfg c = s.inFlight c ++ cfg.itemsFrom c (s.offset + 1) rest := by
      rw [State.pending, hinput, itemsFrom_skip hskip]
    rw [State.trail, State.trail, hpending]
    exact List.Sublist.refl _
  | @delivered msg rest d payload q cpu hloop hinput hdelivery hknown =>
    exact hsame _ (trail_deliver ht hloop hinput hdelivery hknown (by rfl) (by rfl) (by rfl)
      (by rfl) (by rfl) (by rfl) c)
  | created cpu hloop hinput hdelivery hnew =>
    exact hsame _ (trail_create ht hloop hinput hdelivery hnew (by rfl) (by rfl) (by rfl) (by rfl)
      (by rfl) (by rfl) c)
  | put cpu hloop room =>
    exact trail_put ht hloop (by rfl) (by rfl) (by rfl) (by rfl) (by rfl) (by rfl) c
  | acquired | acquireWaits | ended | chatEnded => exact hsame _ (hmove _ _)
  | @exited w item rest cpu hpc hqueue hnull =>
    refine trail_leave .exited hqueue (by rfl) (fun d => ?_) ?_ (by rfl) (by rfl) (by rfl) c
    · simp only [State.exit, Function.update_apply]
      split
      · exact Or.inl rfl
      · exact Or.inr rfl
    · exact s.workers_exit w rest
  | @died w item rest cpu hpc hqueue =>
    refine trail_leave .died hqueue (by rfl) (fun d => ?_) ?_ (by rfl) (by rfl) (by rfl) c
    · exact Or.inr rfl
    · exact s.workers_die w rest
  | @handed w item rest payload e cpu hpc hqueue hdict =>
    have hdispatches : item.dispatches := by rw [Item.dispatches, hdict]; rfl
    exact hsame _ (trail_hand ht (ht.cpu _ cpu) hqueue hdispatches (by rfl) (by rfl) c)
  | @dropped w item rest payload cpu hpc hqueue hdict =>
    have hdispatches : item.dispatches := by rw [Item.dispatches, hdict]; rfl
    exact hsame _ (trail_hand ht (ht.cpu _ cpu) hqueue hdispatches (by rfl) (by rfl) c)
  | @sentinelPut w q cpu hpc room =>
    refine hsame _ ?_
    rw [State.setPc, trail_modify rfl rfl]
    exact trail_sentinel q c

/-! ### A whole run -/

/-- What every run keeps. -/
structure TrailInv (cfg : Config) (records : List Record) (s : State) : Prop where
  table : TableInv s
  input : s.input = records.drop s.offset
  trail : ∀ c, (s.trail cfg c).Sublist (cfg.items c records)

theorem TrailInv.start (cfg : Config) (records : List Record) :
    TrailInv cfg records (.start cfg records) where
  table := .start cfg records
  input := rfl
  trail _ := List.Sublist.refl _

/-- The loop reads the records in order. -/
theorem input_step {a : Action} (h : s.input = records.drop s.offset)
    (hs : step cfg s a = some s') : s'.input = records.drop s'.offset := by
  have hread {msg : Record} {rest : List Record} (hinput : s.input = msg :: rest) :
      rest = records.drop (s.offset + 1) := by
    rw [← List.tail_drop, ← h, hinput, List.tail_cons]
  cases stepped_of_step hs with
  | skipped cpu hloop hinput => exact hread hinput
  | delivered cpu hloop hinput => exact hread hinput
  | created cpu hloop hinput => exact hread hinput
  | resumed | awaitsRecord | putWaits | put | acquired | acquireWaits | getWaits | exited | died
  | handed | dropped | suspended | ended | chatEnded | sentinelWaits | sentinelPut => exact h

theorem TrailInv.step (h : TrailInv cfg records s) {a : Action} (hs : step cfg s a = some s') :
    TrailInv cfg records s' where
  table := h.table.step hs
  input := input_step h.input hs
  trail c := (trail_step h.table hs c).trans (h.trail c)

theorem itemsFrom_append (c : String) (k : ℕ) (xs ys : List Record) :
    cfg.itemsFrom c k (xs ++ ys) = cfg.itemsFrom c k xs ++ cfg.itemsFrom c (k + xs.length) ys := by
  induction xs generalizing k with
  | nil => rfl
  | cons msg rest ih =>
    have hlength : k + (msg :: rest).length = k + 1 + rest.length := by
      rw [List.length_cons]
      omega
    cases hd : cfg.delivery msg with
    | none => rw [List.cons_append, itemsFrom_skip hd, itemsFrom_skip hd, ih, hlength]
    | some d =>
      rw [List.cons_append, itemsFrom_deliver hd, itemsFrom_deliver hd, ih, hlength,
        List.append_assoc]

/-- What has been handed over comes from the records that have been read. -/
theorem TrailInv.order (h : TrailInv cfg records s) (c : String) :
    (s.dispatchedTo c).Sublist (cfg.items c (records.take s.offset)) := by
  have hrest : cfg.itemsFrom c (records.take s.offset).length (records.drop s.offset) =
      cfg.itemsFrom c s.offset s.input := by
    rw [← h.input, List.length_take]
    by_cases hle : s.offset ≤ records.length
    · rw [Nat.min_eq_left hle]
    · have hnil : s.input = [] := by rw [h.input, List.drop_eq_nil_of_le (by omega)]
      rw [hnil]
      rfl
  have hitems : cfg.items c records =
      cfg.items c (records.take s.offset) ++ cfg.itemsFrom c s.offset s.input := by
    have happend : cfg.itemsFrom c 0 (records.take s.offset ++ records.drop s.offset) = _ :=
      itemsFrom_append c 0 _ _
    rwa [List.take_append_drop, Nat.zero_add, hrest] at happend
  have htrail := h.trail c
  rw [hitems, State.trail, State.pending, ← List.append_assoc] at htrail
  have hfront := (List.append_sublist_append_right _).mp htrail
  rw [List.append_assoc] at hfront
  exact (List.sublist_append_left _ _).trans hfront

theorem TrailInv.ordered (h : TrailInv cfg records s) : Ordered cfg records s where
  one v w x y hv hw hc :=
    h.table.live_inj (by rw [hv]; rfl) (by rw [hw]; rfl) hc
  order := h.order
  nodup c := (nodup_itemsFrom c 0 _).sublist (h.order c)

/-- **One worker and one order per conversation**, in every state of every run. -/
theorem one_worker_one_order (cfg : Config) (records : List Record) (schedule : List Action) :
    Transition.Always (step cfg) (Ordered cfg records) (.start cfg records) schedule :=
  (Transition.always_of_invariant (fun _ _ _ h hs => h.step hs) (TrailInv.start cfg records)
    schedule).imp fun _ h => h.ordered

end Consumer

end TitanChat
