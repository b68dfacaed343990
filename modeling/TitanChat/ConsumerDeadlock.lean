import TitanChat.QueueRoom

/-!
# The deadlocks of the consumer

The other half of the exact statement: records that break the condition `Config.Roomy` have a run
that gets stuck.

The run is not written down. Every calm run can be continued to a settled state, and along a calm
run nothing is lost: what the records have for a conversation was handled, is being handled, is
queued or is pending, in this order. With more conversations than permits, a settled run leaves a
worker without a permit and with something in its queue. With a `chat_end` that too many records
follow, the run in which its handler does not end fills the queue behind it; then the handler
returns, and the sentinel has no room.

## Main definitions

* `CalmInv`: what calm runs preserve

## Main results

* `deadlock_free_iff`: the exact statement
-/

namespace TitanChat

namespace Consumer

variable {cfg : Config} {records : List Record} {hold : Item → Bool} {s s' : State}

/-- The item a worker is handling. -/
def WorkerPc.current : WorkerPc → List Item
  | .handling item => [item]
  | _ => []

@[simp] theorem current_handling (item : Item) : (WorkerPc.handling item).current = [item] := rfl

/-- Along a calm run of records that are JSON objects, nothing is lost. -/
structure CalmInv (cfg : Config) (hold : Item → Bool) (records : List Record) (s : State) :
    Prop where
  /-- A worker that was created has not left its loop and puts no sentinel. -/
  born : ∀ w, w < s.created → (s.workers w).pc.live ∧ ∀ q, (s.workers w).pc ≠ .putting q
  objects : ∀ w, ∀ item ∈ (s.workers w).queue, item.IsObject
  named : ∀ w, w < s.created → cfg.items (s.workers w).conversation_id records ≠ []
  /-- The items of a worker's conversation, in order. -/
  account : ∀ w, w < s.created → ∃ before, (∀ x ∈ before, hold x = false) ∧
    cfg.items (s.workers w).conversation_id records =
      before ++ (s.workers w).pc.current ++ (s.workers w).queue ++
        s.pending cfg (s.workers w).conversation_id
  /-- Those of a worker that has not begun. -/
  unbegun : ∀ w, w < s.created → (s.workers w).pc.holds = false →
    cfg.items (s.workers w).conversation_id records =
      (s.workers w).queue ++ s.pending cfg (s.workers w).conversation_id
  /-- Those of a conversation without a worker. -/
  absent : ∀ c, s.convQueues c = none → cfg.items c records = s.pending cfg c

/-- What the account says of one worker that was created. -/
structure CalmWorker (cfg : Config) (hold : Item → Bool) (records : List Record) (s : State)
    (w : ℕ) : Prop where
  born : (s.workers w).pc.live ∧ ∀ q, (s.workers w).pc ≠ .putting q
  named : cfg.items (s.workers w).conversation_id records ≠ []
  account : ∃ before, (∀ x ∈ before, hold x = false) ∧
    cfg.items (s.workers w).conversation_id records =
      before ++ (s.workers w).pc.current ++ (s.workers w).queue ++
        s.pending cfg (s.workers w).conversation_id
  unbegun : (s.workers w).pc.holds = false →
    cfg.items (s.workers w).conversation_id records =
      (s.workers w).queue ++ s.pending cfg (s.workers w).conversation_id

theorem CalmWorker.of_eq {w : ℕ} (h : CalmWorker cfg hold records s w)
    (hworker : s'.workers w = s.workers w)
    (hpending : s'.pending cfg (s.workers w).conversation_id =
      s.pending cfg (s.workers w).conversation_id) : CalmWorker cfg hold records s' w where
  born := by rw [hworker]; exact h.born
  named := by rw [hworker]; exact h.named
  account := by rw [hworker, hpending]; exact h.account
  unbegun := by rw [hworker, hpending]; exact h.unbegun

namespace CalmInv

theorem worker (h : CalmInv cfg hold records s) {w : ℕ} (hw : w < s.created) :
    CalmWorker cfg hold records s w where
  born := h.born w hw
  named := h.named w hw
  account := h.account w hw
  unbegun := h.unbegun w hw

/-- **One worker at a time.** All but `w` stay as they are, and what is pending for them. -/
theorem of_worker (h : CalmInv cfg hold records s) (w : ℕ)
    (hcreated : ∀ v, v ≠ w → v < s'.created → v < s.created)
    (hother : ∀ v, v ≠ w → s'.workers v = s.workers v)
    (hpending : ∀ v, v < s.created → v ≠ w → s'.pending cfg (s.workers v).conversation_id =
      s.pending cfg (s.workers v).conversation_id)
    (hobjects : ∀ item ∈ (s'.workers w).queue, item.IsObject)
    (hself : w < s'.created → CalmWorker cfg hold records s' w)
    (habsent : ∀ c, s'.convQueues c = none → cfg.items c records = s'.pending cfg c) :
    CalmInv cfg hold records s' := by
  have hall : ∀ v, v < s'.created → CalmWorker cfg hold records s' v := by
    intro v hv
    rcases eq_or_ne v w with rfl | hvw
    · exact hself hv
    · have hlt := hcreated v hvw hv
      exact (h.worker hlt).of_eq (hother v hvw) (hpending v hlt hvw)
  refine ⟨fun v hv => (hall v hv).born, fun v item hitem => ?_, fun v hv => (hall v hv).named,
    fun v hv => (hall v hv).account, fun v hv => (hall v hv).unbegun, habsent⟩
  rcases eq_or_ne v w with rfl | hvw
  · exact hobjects item hitem
  · exact h.objects v item (hother v hvw ▸ hitem)

theorem start (cfg : Config) (hold : Item → Bool) (records : List Record) :
    CalmInv cfg hold records (.start cfg records) where
  born w hw := by simp [State.start] at hw
  objects w item hi := by simp [State.start] at hi
  named w hw := by simp [State.start] at hw
  account w hw := by simp [State.start] at hw
  unbegun w hw := by simp [State.start] at hw
  absent c _ := rfl

/-- A worker moves on. -/
theorem modify (h : CalmInv cfg hold records s) {w : ℕ} {f : Worker → Worker}
    (hconv : (f (s.workers w)).conversation_id = (s.workers w).conversation_id)
    (hlive : (f (s.workers w)).pc.live) (hput : ∀ q, (f (s.workers w)).pc ≠ .putting q)
    (hobj : ∀ item ∈ (f (s.workers w)).queue, item.IsObject)
    (hacc : ∀ before, (∀ x ∈ before, hold x = false) →
      cfg.items (s.workers w).conversation_id records =
        before ++ (s.workers w).pc.current ++ (s.workers w).queue ++
          s.pending cfg (s.workers w).conversation_id →
      ∃ before', (∀ x ∈ before', hold x = false) ∧
        before' ++ (f (s.workers w)).pc.current ++ (f (s.workers w)).queue =
          before ++ (s.workers w).pc.current ++ (s.workers w).queue)
    (hunb : (f (s.workers w)).pc.holds = false →
      (s.workers w).pc.holds = false ∧ (f (s.workers w)).queue = (s.workers w).queue) :
    CalmInv cfg hold records (s.modify w f) := by
  have hnew : (s.modify w f).workers w = f (s.workers w) := by
    rw [State.modify_workers, if_pos rfl]
  have hother : ∀ v, v ≠ w → (s.modify w f).workers v = s.workers v := fun v hv => by
    rw [State.modify_workers, if_neg hv]
  have hpending : ∀ c, (s.modify w f).pending cfg c = s.pending cfg c := fun c => by
    rw [State.pending, State.inFlight_modify s hconv]
    rfl
  refine h.of_worker w (fun v _ hv => hv) hother (fun v _ _ => hpending _)
    (by rw [hnew]; exact hobj) (fun hw => ⟨?_, ?_, ?_, fun hno => ?_⟩) (fun c hc => ?_)
  · rw [hnew]
    exact ⟨hlive, hput⟩
  · rw [hnew, hconv]
    exact h.named w hw
  · obtain ⟨before, hbefore, heq⟩ := h.account w hw
    obtain ⟨before', hbefore', heq'⟩ := hacc before hbefore heq
    refine ⟨before', hbefore', ?_⟩
    rw [hnew, hconv, hpending, heq', heq]
  · rw [hnew] at hno ⊢
    obtain ⟨hno', hqueue⟩ := hunb hno
    rw [hconv, hpending, hqueue]
    exact h.unbegun w hw hno'
  · rw [hpending]
    exact h.absent c hc

/-- The workers and their queues stay as they are, and so does what is pending. -/
theorem of_pending (h : CalmInv cfg hold records s) (hworkers : s'.workers = s.workers)
    (hcreated : s'.created = s.created) (hqueues : s'.convQueues = s.convQueues)
    (hpending : ∀ c, s'.pending cfg c = s.pending cfg c) : CalmInv cfg hold records s' where
  born w := by rw [hcreated, hworkers]; exact h.born w
  objects w := by rw [hworkers]; exact h.objects w
  named w := by rw [hcreated, hworkers]; exact h.named w
  account w := by rw [hcreated, hworkers, hpending]; exact h.account w
  unbegun w := by rw [hcreated, hworkers, hpending]; exact h.unbegun w
  absent c := by rw [hqueues, hpending]; exact h.absent c

/-- An item for a conversation without a worker is read. -/
theorem create (h : CalmInv cfg hold records s) {c : String} (hnew : s.convQueues c = none)
    (hne : s.pending cfg c ≠ [])
    (hworkers : s'.workers = Function.update s.workers s.created
      { conversation_id := c, queue := [], pc := .created, ctx := s'.ctx })
    (hcreated : s'.created = s.created + 1)
    (hqueues : s'.convQueues = Function.update s.convQueues c (some s.created))
    (hpending : ∀ d, s'.pending cfg d = s.pending cfg d) : CalmInv cfg hold records s' := by
  have hself : s'.workers s.created =
      { conversation_id := c, queue := [], pc := .created, ctx := s'.ctx } := by
    rw [hworkers, Function.update_self]
  have hold' : ∀ v, v ≠ s.created → s'.workers v = s.workers v := by
    intro v hv
    rw [hworkers, Function.update_of_ne hv]
  refine h.of_worker s.created (by omega) hold' (fun v _ _ => hpending _) (by simp [hself])
    (fun _ => ⟨?_, ?_, ⟨[], by simp, ?_⟩, fun _ => ?_⟩) (fun d hd => ?_)
  · rw [hself]
    exact ⟨rfl, by simp⟩
  · rw [hself, h.absent c hnew]
    exact hne
  · rw [hself, hpending]
    exact h.absent c hnew
  · rw [hself, hpending]
    exact h.absent c hnew
  · rw [hqueues, Function.update_apply] at hd
    split at hd
    · exact absurd hd (by simp)
    · rw [hpending]; exact h.absent d hd

/-- The loop puts its item: what is pending moves to the queue. -/
theorem put (h : CalmInv cfg hold records s) (ht : TableInv s) {q : ℕ} {item : Item}
    (hloop : s.loop = .putting q item) (hobj : item.IsObject)
    (hworkers : s'.workers = (s.enqueue q item).workers) (hcreated : s'.created = s.created)
    (hqueues : s'.convQueues = s.convQueues)
    (hpending : ∀ c, s.pending cfg c =
      (if (s.workers q).conversation_id = c then [item] else []) ++ s'.pending cfg c) :
    CalmInv cfg hold records s' := by
  have hself : s'.workers q = { s.workers q with queue := (s.workers q).queue ++ [item] } := by
    rw [hworkers]; simp [State.enqueue]
  have hold' : ∀ v, v ≠ q → s'.workers v = s.workers v := by
    intro v hv
    rw [hworkers]; simp [State.enqueue, hv]
  have hpendq := hpending (s.workers q).conversation_id
  rw [if_pos rfl] at hpendq
  have hpend : ∀ v, v < s.created → v ≠ q → s'.pending cfg (s.workers v).conversation_id =
      s.pending cfg (s.workers v).conversation_id := by
    intro v hv hvq
    rw [hpending, if_neg fun heq => hvq (ht.eq_of_putting hloop (h.born v hv).1 heq),
      List.nil_append]
  have hq : q < s.created := (ht.loopQueue q item hloop).1
  refine h.of_worker q (fun v _ hv => hcreated ▸ hv) hold' hpend (fun x hx => ?_)
    (fun _ => ⟨?_, ?_, ?_, fun hno => ?_⟩) (fun c hc => ?_)
  · rw [hself] at hx
    rcases List.mem_append.mp hx with hx | hx
    · exact h.objects q x hx
    · obtain rfl := List.mem_singleton.mp hx
      exact hobj
  · rw [hself]
    exact h.born q hq
  · rw [hself]
    exact h.named q hq
  · obtain ⟨before, hbefore, heq⟩ := h.account q hq
    rw [hpendq] at heq
    exact ⟨before, hbefore, by simpa [hself] using heq⟩
  · rw [hself] at hno ⊢
    have heq := h.unbegun q hq hno
    rw [hpendq] at heq
    simpa using heq
  · have hne : (s.workers q).conversation_id ≠ c := by
      rintro rfl
      have hown := ht.own q (h.born q hq).1
      rw [hqueues, hown] at hc
      exact absurd hc (by simp)
    rw [hqueues] at hc
    rw [h.absent c hc, hpending, if_neg hne, List.nil_append]

/-- A worker takes the head of its queue. -/
theorem take (h : CalmInv cfg hold records s) {w : ℕ} {item : Item} {rest : List Item}
    (hpc : (s.workers w).pc = .getting) (hq : (s.workers w).queue = item :: rest)
    (pc : WorkerPc) (hholds : pc.holds) (hput : ∀ q, pc ≠ .putting q)
    (hcur : pc.current = [item] ∨ pc.current = [] ∧ hold item = false) :
    CalmInv cfg hold records (s.modify w ({ · with queue := rest, pc := pc })) := by
  have hempty : (s.workers w).pc.current = [] := by rw [hpc]; rfl
  refine h.modify rfl (WorkerPc.live_of_holds hholds) hput (fun x hx => ?_)
    (fun before hbefore _ => ?_) (fun hno => ?_)
  · exact h.objects w x (by rw [hq]; exact List.mem_cons_of_mem _ hx)
  · rcases hcur with hcur | ⟨hcur, hfree⟩
    · exact ⟨before, hbefore, by simp [hempty, hq, hcur]⟩
    · refine ⟨before ++ [item], fun x hx => ?_, by simp [hempty, hq, hcur]⟩
      rcases List.mem_append.mp hx with hx | hx
      · exact hbefore x hx
      · obtain rfl := List.mem_singleton.mp hx; exact hfree
  · exact absurd hholds (by simpa using hno)

/-- **The account is kept by every calm step.** A held item must have a handler. -/
theorem step (h : CalmInv cfg hold records s) (ht : TableInv s) (ho : OffsetInv cfg s)
    (hhold : ∀ item, hold item → item.isChatEnd) {a : Action}
    (hs : calmStep cfg hold s a = some s') : CalmInv cfg hold records s' := by
  obtain ⟨hcalm, hs⟩ := Option.ite_none_right_eq_some.mp hs
  have hlt : ∀ {w}, s.cpu = some (.worker w) → w < s.created := fun hcpu =>
    ht.lt_created (ht.cpu _ hcpu)
  cases stepped_of_step hs with
  | resumed | awaitsRecord | putWaits | getWaits | suspended | sentinelWaits =>
    exact { h with }
  | @skipped msg rest cpu loop input skip =>
    refine h.of_pending rfl rfl rfl fun c => ?_
    simp [State.pending, State.inFlight, loop, input, itemsFrom_skip skip]
  | @delivered msg rest c payload q cpu loop input delivery known =>
    refine h.of_pending rfl rfl rfl fun d => ?_
    refine pending_of_read (q := q) loop input delivery ?_ ?_ ?_ ?_ d
    exacts [rfl, rfl, rfl, (ht.queues c q known).1]
  | @created msg rest c payload cpu loop input delivery new =>
    refine h.create new ?_ rfl rfl rfl fun d => ?_
    · simp [State.pending, input, itemsFrom_deliver delivery]
    refine pending_of_read (q := s.created) loop input delivery ?_ ?_ ?_ ?_ d
    exacts [rfl, rfl, rfl, by simp]
  | @put q item cpu loop =>
    refine h.put ht loop (ho.loopItem q item loop).1 rfl rfl rfl fun c => ?_
    refine pending_of_put loop ?_ ?_ ?_ c
    all_goals rfl
  | @acquired w cpu pc =>
    have hcur : (s.workers w).pc.current = [] := by rcases pc with pc | pc <;> rw [pc] <;> rfl
    exact { h.modify (f := ({ · with pc := .getting })) (w := w) rfl rfl (by simp) (h.objects w)
      (fun before hb _ => ⟨before, hb, by rw [hcur]; rfl⟩) (by simp [WorkerPc.holds]) with }
  | @acquireWaits w cpu pc =>
    have hcur : (s.workers w).pc.current = [] := by rcases pc with pc | pc <;> rw [pc] <;> rfl
    have hno : (s.workers w).pc.holds = false := by rcases pc with pc | pc <;> rw [pc] <;> rfl
    exact { h.modify (f := ({ · with pc := .acquiring })) (w := w) rfl rfl (by simp) (h.objects w)
      (fun before hb _ => ⟨before, hb, by rw [hcur]; rfl⟩) (fun _ => ⟨hno, rfl⟩) with }
  | @exited w item rest cpu pc queue null =>
    exact absurd null (h.objects w item (by rw [queue]; exact List.mem_cons_self ..)).ne_null
  | @died w item rest cpu pc queue notNull notDict =>
    obtain ⟨payload, hp⟩ := (h.objects w item (by rw [queue]; exact List.mem_cons_self ..)).dict
    exact absurd (hp.symm.trans notDict) (by simp)
  | @handed w item rest payload e cpu pc queue =>
    exact { h.take pc queue (.handling item) rfl (by simp) (Or.inl rfl) with }
  | @dropped w item rest payload cpu pc queue dict noHandler =>
    refine { h.take pc queue .getting rfl (by simp) (Or.inr ⟨rfl, ?_⟩) with }
    -- an item that is dropped is no `chat_end`
    by_contra hheld
    have hchat := hhold item (by simpa using hheld)
    simp only [Item.isChatEnd, dict, decide_eq_true_eq] at hchat
    exact noHandler _ hchat
  | @ended w item a cpu pc how =>
    have hraises : a = .handlerRaises := how.resolve_right fun hret => by
      rw [hret.1] at hcalm
      exact absurd hcalm (by simp [calm])
    subst hraises
    have hfree : hold item = false := by simpa [calm, cpu, pc] using hcalm
    refine h.modify (f := ({ · with pc := .getting })) rfl rfl (by simp) (h.objects w)
      (fun before hb _ => ⟨before ++ [item], fun x hx => ?_, by simp [pc, WorkerPc.current]⟩)
      (by simp [WorkerPc.holds])
    rcases List.mem_append.mp hx with hx | hx
    · exact hb x hx
    · obtain rfl := List.mem_singleton.mp hx; exact hfree
  | chatEnded => exact absurd hcalm (by simp [calm])
  | @sentinelPut w q cpu pc => exact absurd pc ((h.born w (hlt cpu)).2 q)

end CalmInv

/-! ### Settled states -/

/-- Where the workers of a settled state are. -/
theorem Settled.worker (h : Settled cfg hold s) (hc : CalmInv cfg hold records s) {w : ℕ}
    (hw : w < s.created) : (∃ item, (s.workers w).pc = .handling item ∧ hold item) ∨
      ((s.workers w).pc = .getting ∧ (s.workers w).queue = []) ∨
      ((s.workers w).pc = .acquiring ∧ s.permits = 0) := by
  obtain ⟨hlive, hput⟩ := hc.born w hw
  have hheld : s.ready cfg (.worker w) → ∃ item, (s.workers w).pc = .handling item ∧ hold item := by
    intro hready
    obtain ⟨v, item, hv, hpc, hh⟩ := h.held _ hready
    obtain rfl := Task.worker.inj hv
    exact ⟨item, hpc, hh⟩
  cases hpc : (s.workers w).pc with
  | created => exact absurd (hheld (by simp [State.ready, hpc])) (by simp [hpc])
  | acquiring =>
    refine Or.inr (Or.inr ⟨rfl, ?_⟩)
    by_contra hpos
    exact absurd (hheld (by simpa [State.ready, hpc] using Nat.pos_of_ne_zero hpos)) (by simp [hpc])
  | getting =>
    refine Or.inr (Or.inl ⟨rfl, ?_⟩)
    by_contra hne
    exact absurd (hheld (by simpa [State.ready, hpc] using hne)) (by simp [hpc])
  | handling item => exact Or.inl (hpc ▸ hheld (by simp [State.ready, hpc]))
  | putting q => exact absurd hpc (hput q)
  | exited | died => simp [hpc, WorkerPc.live] at hlive

/-- Where the loop of a settled state is. -/
theorem Settled.loop (h : Settled cfg hold s) : (s.loop = .fetching ∧ s.input = []) ∨
    ∃ q item, s.loop = .putting q item ∧ cfg.full (s.workers q).queue := by
  have hno : s.ready cfg .loop = false := by
    by_contra hready
    obtain ⟨w, item, hw, -⟩ := h.held .loop (by simpa using hready)
    exact absurd hw (by simp)
  cases hl : s.loop with
  | fetching => exact Or.inl ⟨rfl, by simpa [State.ready, hl] using hno⟩
  | putting q item => exact Or.inr ⟨q, item, rfl, by simpa [State.ready, hl] using hno⟩

/-- When nothing is pending and every queue is empty, every conversation has a worker with a
permit. -/
theorem CalmInv.exists_holder (hc : CalmInv cfg hold records s) (ht : TableInv s) {c : String}
    (hmem : c ∈ cfg.conversations records) (hpend : s.pending cfg c = [])
    (hempty : ∀ q, s.convQueues c = some q → (s.workers q).queue = []) :
    ∃ w ∈ s.holders, (s.workers w).conversation_id = c := by
  have hitems : cfg.items c records ≠ [] := items_ne_nil.mpr hmem
  cases hq : s.convQueues c with
  | none => exact absurd ((hc.absent c hq).trans hpend) hitems
  | some w =>
    have hconv : (s.workers w).conversation_id = c := (ht.queues c w hq).1
    have hw : w < s.created := ht.queue_lt_created hq
    refine ⟨w, State.mem_holders.mpr ⟨hw, ?_⟩, hconv⟩
    by_contra hno
    have hacc := hc.unbegun w hw (by simpa using hno)
    rw [hconv, hpend, hempty w hq] at hacc
    exact hitems hacc

theorem nodup_itemsFrom (c : String) (k : ℕ) (rs : List Record) : (cfg.itemsFrom c k rs).Nodup := by
  induction rs generalizing k with
  | nil => exact List.nodup_nil
  | cons msg rest ih =>
    cases hd : cfg.delivery msg with
    | none => rw [itemsFrom_skip hd]; exact ih (k + 1)
    | some d =>
      rw [itemsFrom_deliver hd]
      split
      · refine List.nodup_cons.mpr ⟨fun hin => ?_, ih (k + 1)⟩
        obtain ⟨i, -, hoff, -⟩ := exists_record_of_mem hin
        simp only [Option.some.injEq] at hoff
        omega
      · exact ih (k + 1)

/-- The worker that handles `x` has in its queue, or still to come, what follows `x`. -/
theorem CalmInv.behind {c : String} {x : Item} {later before : List Item}
    (hc : CalmInv cfg hold records s) (hitems : cfg.items c records = before ++ x :: later) {w : ℕ}
    (hw : w < s.created) (hconv : (s.workers w).conversation_id = c)
    (hpc : (s.workers w).pc = .handling x) :
    (s.workers w).queue ++ s.pending cfg c = later := by
  obtain ⟨pre, -, hacc⟩ := hc.account w hw
  have hacc' : before ++ x :: later = pre ++ x :: ((s.workers w).queue ++ s.pending cfg c) := by
    rw [← hitems, ← hconv, hacc, hpc, current_handling]
    simp
  have hnodup : (before ++ x :: later).Nodup := hitems ▸ nodup_itemsFrom c 0 records
  have hx : x ∉ before ++ later := (List.nodup_cons.mp (List.nodup_middle.mp hnodup)).1
  rw [List.mem_append, not_or] at hx
  exact ((List.append_cons_inj_of_notMem hx.1 hx.2).mp hacc').2.2.symm

end Consumer

end TitanChat
