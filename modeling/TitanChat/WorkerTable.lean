import Mathlib.Data.Finset.Card
import Mathlib.Data.Finset.Range
import TitanChat.KafkaConsumer

/-!
# The table of workers

What every run of the consumer preserves, whatever its records are: `_conv_queues` and the live
workers name each other, a worker only ever puts a sentinel on its own queue, and every permit of
the semaphore is either free or held by a worker that is past it.

A worker that dies keeps its entry in `_conv_queues`; that is why `TableInv.queues` excludes only
workers that have exited.

## Main results

* `TableInv.step`: the table
* `PermitInv.step`: the permits
-/

namespace TitanChat

namespace Consumer

/-- The worker holds a permit. -/
def WorkerPc.holds : WorkerPc → Bool
  | .getting | .handling _ | .putting _ => true
  | _ => false

theorem WorkerPc.live_of_holds {pc : WorkerPc} (h : pc.holds) : pc.live := by
  cases pc <;> simp_all [holds, live]

namespace State

@[simp] theorem modify_loop (s : State) (w : ℕ) (f : Worker → Worker) :
    (s.modify w f).loop = s.loop := rfl

@[simp] theorem modify_created (s : State) (w : ℕ) (f : Worker → Worker) :
    (s.modify w f).created = s.created := rfl

@[simp] theorem modify_convQueues (s : State) (w : ℕ) (f : Worker → Worker) :
    (s.modify w f).convQueues = s.convQueues := rfl

@[simp] theorem modify_cpu (s : State) (w : ℕ) (f : Worker → Worker) :
    (s.modify w f).cpu = s.cpu := rfl

end State

/-- The table of workers and queues. -/
structure TableInv (s : State) : Prop where
  /-- An entry of `_conv_queues` is the queue of a worker of that conversation. -/
  queues : ∀ c q, s.convQueues c = some q →
    (s.workers q).conversation_id = c ∧ (s.workers q).pc ≠ .exited
  /-- A live worker is the one that `_conv_queues` has for its conversation. -/
  own : ∀ w, (s.workers w).pc.live → s.convQueues (s.workers w).conversation_id = some w
  unborn : ∀ w, s.created ≤ w → (s.workers w).queue = [] ∧ (s.workers w).pc = .exited
  /-- The queue the loop is putting on is the current one of its conversation, or has been
  dropped. -/
  loopQueue : ∀ q item, s.loop = .putting q item → q < s.created ∧
    ∀ v, s.convQueues (s.workers q).conversation_id = some v → v = q
  workerQueue : ∀ w q, (s.workers w).pc = .putting q → q = w
  cpu : ∀ w, s.cpu = some (.worker w) → (s.workers w).pc.live

namespace TableInv

variable {cfg : Config} {s s' : State}

theorem lt_created (h : TableInv s) {w : ℕ} (hw : (s.workers w).pc.live) : w < s.created := by
  by_contra hlt
  rw [(h.unborn w (Nat.le_of_not_lt hlt)).2] at hw
  exact absurd hw (by simp [WorkerPc.live])

/-- A live worker is not one of those that are still to come. -/
theorem ne_of_unborn (h : TableInv s) {v w : ℕ} (hw : (s.workers w).pc.live) (hv : s.created ≤ v) :
    v ≠ w := by
  rintro rfl
  exact absurd (h.lt_created hw) (Nat.not_lt.mpr hv)

theorem queue_lt_created (h : TableInv s) {c : String} {q : ℕ} (hq : s.convQueues c = some q) :
    q < s.created := by
  by_contra hlt
  exact (h.queues c q hq).2 (h.unborn q (Nat.le_of_not_lt hlt)).2

/-- Two live workers of one conversation are one worker. -/
theorem live_inj (h : TableInv s) {v w : ℕ} (hv : (s.workers v).pc.live)
    (hw : (s.workers w).pc.live)
    (hc : (s.workers v).conversation_id = (s.workers w).conversation_id) : v = w := by
  have hvq := h.own v hv
  rw [hc, h.own w hw] at hvq
  exact (Option.some.inj hvq).symm

theorem start (cfg : Config) (records : List Record) : TableInv (.start cfg records) where
  queues c q hq := by simp [State.start] at hq
  own w hw := by simp [State.start, WorkerPc.live] at hw
  unborn w _ := by simp [State.start]
  loopQueue q item hq := by simp [State.start] at hq
  workerQueue w q hq := by simp [State.start] at hq
  cpu w hw := by simp [State.start] at hw

/-- A live worker moves on, keeping its conversation, and perhaps its queue changes. -/
theorem modify (h : TableInv s) {w : ℕ} {f : Worker → Worker} (hw : (s.workers w).pc.live)
    (hconv : (f (s.workers w)).conversation_id = (s.workers w).conversation_id)
    (hlive : (f (s.workers w)).pc.live)
    (hput : ∀ q, (f (s.workers w)).pc = .putting q → q = w) : TableInv (s.modify w f) := by
  have hsame : ∀ v, ((s.modify w f).workers v).conversation_id =
      (s.workers v).conversation_id := by
    intro v
    rw [State.modify_workers]
    split
    · next hv => rw [hconv, hv]
    · rfl
  have hlive' : ∀ v, ((s.modify w f).workers v).pc.live → (s.workers v).pc.live := by
    intro v hv
    rw [State.modify_workers] at hv
    split at hv
    · next hvw => exact hvw ▸ hw
    · exact hv
  have hexit : ∀ v, (s.workers v).pc ≠ .exited → ((s.modify w f).workers v).pc ≠ .exited := by
    intro v hv
    rw [State.modify_workers]
    split
    · intro hex; rw [hex] at hlive; exact absurd hlive (by simp [WorkerPc.live])
    · exact hv
  refine ⟨fun c q hq => ?_, fun v hv => ?_, fun v hv => ?_, fun q item hq => ?_,
    fun v q hq => ?_, fun v hv => ?_⟩
  · exact ⟨by rw [hsame, (h.queues c q hq).1], hexit q (h.queues c q hq).2⟩
  · rw [hsame]; exact h.own v (hlive' v hv)
  · rw [State.modify_workers, if_neg (h.ne_of_unborn hw hv)]
    exact h.unborn v hv
  · rw [hsame]; exact h.loopQueue q item hq
  · rw [State.modify_workers] at hq
    split at hq
    · next hvw => exact hvw ▸ hput q hq
    · exact h.workerQueue v q hq
  · rw [State.modify_workers]
    split
    · exact hlive
    · exact h.cpu v hv

/-- Something is put on a queue that exists; a queue may outlive its worker. -/
theorem enqueue (h : TableInv s) {q : ℕ} (hq : q < s.created) (item : Item) :
    TableInv (s.enqueue q item) := by
  have hsame : ∀ v, ((s.enqueue q item).workers v).conversation_id =
      (s.workers v).conversation_id ∧ ((s.enqueue q item).workers v).pc = (s.workers v).pc := by
    intro v
    rw [State.enqueue, State.modify_workers]
    split
    · next hv => rw [hv]; exact ⟨rfl, rfl⟩
    · exact ⟨rfl, rfl⟩
  refine ⟨fun c v hv => ?_, fun v hv => ?_, fun v hv => ?_, fun v i hv => ?_, fun v u hv => ?_,
    fun v hv => ?_⟩
  · rw [(hsame v).1, (hsame v).2]; exact h.queues c v hv
  · rw [(hsame v).2] at hv; rw [(hsame v).1]; exact h.own v hv
  · have hvq : v ≠ q := by rintro rfl; exact absurd hq (Nat.not_lt.mpr hv)
    rw [State.enqueue, State.modify_workers, if_neg hvq]
    exact h.unborn v hv
  · rw [(hsame v).1]; exact h.loopQueue v i hv
  · rw [(hsame v).2] at hv; exact h.workerQueue v u hv
  · rw [(hsame v).2]; exact h.cpu v hv

/-- A worker leaves its loop on a sentinel and takes its entry along. -/
theorem exit (h : TableInv s) {w : ℕ} (hw : (s.workers w).pc.live) (rest : List Item) :
    TableInv ((s.modify w ({ · with queue := rest })).exit w) := by
  have hworkers : ∀ v, (((s.modify w ({ · with queue := rest })).exit w).workers v) =
      if v = w then { s.workers w with queue := rest, pc := .exited } else s.workers v := by
    intro v
    simp only [State.exit, State.setPc, State.modify_workers]
    split <;> simp
  have hqueues : ((s.modify w ({ · with queue := rest })).exit w).convQueues =
      Function.update s.convQueues (s.workers w).conversation_id none := by
    simp [State.exit]
  have hcur : ∀ c v, ((s.modify w ({ · with queue := rest })).exit w).convQueues c = some v →
      s.convQueues c = some v ∧ v ≠ w := by
    intro c v hv
    rw [hqueues, Function.update_apply] at hv
    split at hv
    · exact absurd hv (by simp)
    · next hc => exact ⟨hv, fun hvw => hc (hvw ▸ (h.queues c v hv).1.symm)⟩
  refine ⟨fun c q hq => ?_, fun v hv => ?_, fun v hv => ?_, fun q item hq => ?_,
    fun v q hq => ?_, fun v hv => ?_⟩
  · obtain ⟨hq, hqw⟩ := hcur c q hq
    rw [hworkers, if_neg hqw]
    exact h.queues c q hq
  · rw [hworkers] at hv ⊢
    split at hv
    · exact absurd hv (by simp [WorkerPc.live])
    · next hvw =>
      rw [if_neg hvw, hqueues, Function.update_of_ne]
      · exact h.own v hv
      · exact fun hc => hvw (h.live_inj hv hw hc)
  · rw [hworkers, if_neg (h.ne_of_unborn hw hv)]
    exact h.unborn v hv
  · obtain ⟨hlt, hcurq⟩ := h.loopQueue q item hq
    refine ⟨hlt, fun v hv => hcurq v ?_⟩
    have hconv : (((s.modify w ({ · with queue := rest })).exit w).workers q).conversation_id =
        (s.workers q).conversation_id := by
      rw [hworkers]; split
      · next hqw => rw [hqw]
      · rfl
    rw [hconv] at hv
    exact (hcur _ v hv).1
  · rw [hworkers] at hq
    split at hq
    · exact absurd hq (by simp)
    · exact h.workerQueue v q hq
  · exact absurd hv (by simp [State.exit])

/-- A worker dies; its entry stays. -/
theorem die (h : TableInv s) {w : ℕ} (hw : (s.workers w).pc.live) (rest : List Item) :
    TableInv ((s.modify w ({ · with queue := rest })).die w) := by
  have hworkers : ∀ v, (((s.modify w ({ · with queue := rest })).die w).workers v) =
      if v = w then { s.workers w with queue := rest, pc := .died } else s.workers v := by
    intro v
    simp only [State.die, State.setPc, State.modify_workers]
    split <;> simp
  have hconv : ∀ v, (((s.modify w ({ · with queue := rest })).die w).workers v).conversation_id =
      (s.workers v).conversation_id := by
    intro v
    rw [hworkers]; split
    · next hv => rw [hv]
    · rfl
  refine ⟨fun c q hq => ?_, fun v hv => ?_, fun v hv => ?_, fun q item hq => ?_,
    fun v q hq => ?_, fun v hv => ?_⟩
  · refine ⟨by rw [hconv, (h.queues c q hq).1], ?_⟩
    rw [hworkers]; split
    · simp
    · exact (h.queues c q hq).2
  · rw [hconv]
    rw [hworkers] at hv
    split at hv
    · exact absurd hv (by simp [WorkerPc.live])
    · exact h.own v hv
  · rw [hworkers, if_neg (h.ne_of_unborn hw hv)]
    exact h.unborn v hv
  · rw [hconv]; exact h.loopQueue q item hq
  · rw [hworkers] at hq
    split at hq
    · exact absurd hq (by simp)
    · exact h.workerQueue v q hq
  · exact absurd hv (by simp [State.die])

/-- A queue and a worker are created for a conversation that has none. -/
theorem create (h : TableInv s) {c : String} (hc : s.convQueues c = none) (ctx : Trace)
    (item : Item) (hcpu : s.cpu = some .loop) :
    TableInv { s with
      workers := Function.update s.workers s.created
        { conversation_id := c, queue := [], pc := .created, ctx := ctx }
      created := s.created + 1
      convQueues := Function.update s.convQueues c (some s.created)
      loop := .putting s.created item } := by
  have hworkers : ∀ v, v ≠ s.created → Function.update s.workers s.created
      { conversation_id := c, queue := [], pc := .created, ctx := ctx } v = s.workers v :=
    fun v hv => Function.update_of_ne hv _ _
  refine ⟨fun d q hq => ?_, fun v hv => ?_, fun v hv => ?_, fun q i hq => ?_,
    fun v q hq => ?_, fun v hv => ?_⟩
  · simp only [Function.update_apply] at hq ⊢
    split at hq
    · next hd => obtain rfl := Option.some.inj hq; simp [hd]
    · rw [if_neg (Nat.ne_of_lt (h.queue_lt_created hq))]
      exact h.queues d q hq
  · by_cases hvc : v = s.created
    · subst hvc; simp
    · simp only [hworkers v hvc] at hv ⊢
      have hown := h.own v hv
      rw [Function.update_of_ne]
      · exact hown
      · intro hd; rw [hd, hc] at hown; exact absurd hown (by simp)
  · have hvc : v ≠ s.created := by simp only at hv; omega
    simp only [hworkers v hvc]
    exact h.unborn v (by simp only at hv; omega)
  · simp only [LoopPc.putting.injEq] at hq
    obtain ⟨rfl, -⟩ := hq
    simp
  · by_cases hvc : v = s.created
    · subst hvc; simp at hq
    · simp only [hworkers v hvc] at hq
      exact h.workerQueue v q hq
  · simp only [hcpu, Option.some.injEq, reduceCtorEq] at hv

/-- **The table is kept by every step.** -/
theorem step (h : TableInv s) {a : Action} (hs : step cfg s a = some s') : TableInv s' := by
  cases stepped_of_step hs with
  | @resumed t idle ready =>
    refine { h with cpu := fun w hw => ?_ }
    obtain rfl := Option.some.inj hw
    cases hpc : (s.workers w).pc <;> simp [State.ready, hpc, WorkerPc.live] at ready ⊢
  | skipped => exact { h with }
  | @delivered _ _ c _ q _ _ _ _ known =>
    refine { h with loopQueue := fun v i hv => ?_ }
    simp only [LoopPc.putting.injEq] at hv
    obtain ⟨rfl, -⟩ := hv
    refine ⟨h.queue_lt_created known, fun u hu => ?_⟩
    rw [(h.queues c q known).1, known] at hu
    exact (Option.some.inj hu).symm
  | created cpu _ _ _ new => exact { h.create new _ _ cpu with }
  | awaitsRecord => exact { h with cpu := by simp }
  | putWaits => exact { h with cpu := by simp }
  | put cpu loop =>
    exact { h.enqueue (h.loopQueue _ _ loop).1 _ with loopQueue := by simp }
  | acquired cpu =>
    exact { h.modify (f := ({ · with pc := .getting })) (h.cpu _ cpu) rfl rfl (by simp) with }
  | acquireWaits cpu =>
    exact { h.modify (f := ({ · with pc := .acquiring })) (h.cpu _ cpu) rfl rfl (by simp) with
      cpu := by simp }
  | getWaits => exact { h with cpu := by simp }
  | exited cpu => exact h.exit (h.cpu _ cpu) _
  | died cpu => exact h.die (h.cpu _ cpu) _
  | @handed w item rest payload e cpu =>
    exact { h.modify (f := ({ · with queue := rest, pc := .handling item })) (h.cpu _ cpu) rfl rfl
      (by simp) with }
  | @dropped w item rest payload cpu =>
    exact { h.modify (f := ({ · with queue := rest, pc := .getting })) (h.cpu _ cpu) rfl rfl
      (by simp) with }
  | suspended => exact { h with cpu := by simp }
  | ended cpu =>
    exact h.modify (f := ({ · with pc := .getting })) (h.cpu _ cpu) rfl rfl (by simp)
  | @chatEnded w q item cpu pc chatEnd queue =>
    have hown := h.own w (h.cpu w cpu)
    rw [queue] at hown
    obtain rfl := Option.some.inj hown
    exact h.modify (f := ({ · with pc := .putting q })) (h.cpu q cpu) rfl rfl (by simp)
  | sentinelWaits => exact { h with cpu := by simp }
  | @sentinelPut w q cpu pc room =>
    obtain rfl := h.workerQueue w q pc
    have hlive : ((s.enqueue q .sentinel).workers q).pc.live := by
      simpa [State.enqueue] using h.cpu q cpu
    exact (h.enqueue (h.lt_created (h.cpu q cpu)) .sentinel).modify
      (f := ({ · with pc := .getting })) hlive rfl rfl (by simp)

end TableInv

/-- No worker is ever forgotten. -/
theorem created_le_of_step {cfg : Config} {s s' : State} {a : Action}
    (h : step cfg s a = some s') : s.created ≤ s'.created := by
  cases stepped_of_step h with
  | created => exact Nat.le_succ _
  | resumed | skipped | delivered | awaitsRecord | putWaits | put | acquired | acquireWaits
  | getWaits | exited | died | handed | dropped | suspended | ended | chatEnded | sentinelWaits
  | sentinelPut => exact Nat.le_refl _

/-! ### Permits -/

namespace State

/-- The workers that hold a permit. -/
def holders (s : State) : Finset ℕ :=
  (Finset.range s.created).filter fun w => (s.workers w).pc.holds

theorem mem_holders {s : State} {w : ℕ} :
    w ∈ s.holders ↔ w < s.created ∧ (s.workers w).pc.holds := by
  simp [holders]

end State

/-- Every permit is free or held. -/
def PermitInv (cfg : Config) (s : State) : Prop :=
  s.holders.card + s.permits = cfg.maxConcurrentConvs

namespace PermitInv

variable {cfg : Config} {s s' : State}

theorem start (cfg : Config) (records : List Record) : PermitInv cfg (.start cfg records) := by
  simp [PermitInv, State.holders, State.start, WorkerPc.holds]

/-- A step that keeps the permits and each worker's hold on one. -/
theorem of_holds (h : PermitInv cfg s) (hpermits : s'.permits = s.permits)
    (hholds : ∀ w, (w < s'.created ∧ (s'.workers w).pc.holds) ↔
      (w < s.created ∧ (s.workers w).pc.holds)) : PermitInv cfg s' := by
  have hsame : s'.holders = s.holders := by
    ext w
    rw [State.mem_holders, State.mem_holders, hholds]
  rw [PermitInv, hsame, hpermits]
  exact h

/-- One worker changes and holds a permit as before. -/
theorem modify_holds_iff (s : State) (w : ℕ) {f : Worker → Worker}
    (hf : (f (s.workers w)).pc.holds ↔ (s.workers w).pc.holds) (v : ℕ) :
    (v < s.created ∧ ((s.modify w f).workers v).pc.holds) ↔
      (v < s.created ∧ (s.workers v).pc.holds) := by
  rw [State.modify_workers]
  split
  · next hv => rw [hv, hf]
  · rfl

/-- A worker that leaves its loop was at `queue.get()`, so it held a permit, and gives it back. -/
theorem leave (h : PermitInv cfg s) (ht : TableInv s) {w : ℕ} (rest : List Item) (pc : WorkerPc)
    (hcpu : s.cpu = some (.worker w)) (hpc : (s.workers w).pc = .getting) (hno : pc.holds = false)
    (hset : s'.holders = (Finset.range s.created).filter fun v =>
      (Function.update s.workers w { s.workers w with queue := rest, pc := pc } v).pc.holds)
    (hpermits : s'.permits = s.permits + 1) : PermitInv cfg s' := by
  have hw : w ∈ s.holders :=
    State.mem_holders.mpr ⟨ht.lt_created (ht.cpu w hcpu), by rw [hpc]; rfl⟩
  have herase : s'.holders = s.holders.erase w := by
    rw [hset]
    ext v
    by_cases hv : v = w
    · subst hv; simp [hno]
    · simp [hv, State.holders]
  have hpos : 0 < s.holders.card := Finset.card_pos.mpr ⟨w, hw⟩
  rw [PermitInv] at h ⊢
  rw [herase, Finset.card_erase_of_mem hw, hpermits]
  omega

/-- A worker that is created, or waits for a permit, takes one. -/
theorem acquire (h : PermitInv cfg s) (ht : TableInv s) {w : ℕ} (hcpu : s.cpu = some (.worker w))
    (pc : (s.workers w).pc = .created ∨ (s.workers w).pc = .acquiring) (free : 0 < s.permits) :
    PermitInv cfg { s.setPc w .getting with permits := s.permits - 1 } := by
  have hw : w ∉ s.holders := by
    rw [State.mem_holders]
    rcases pc with pc | pc <;> simp [pc, WorkerPc.holds]
  have hinsert : State.holders { s.setPc w .getting with permits := s.permits - 1 } =
      insert w s.holders := by
    ext v
    rw [Finset.mem_insert, State.mem_holders, State.mem_holders]
    by_cases hv : v = w
    · subst hv
      simpa [State.setPc, WorkerPc.holds] using ht.lt_created (ht.cpu v hcpu)
    · simp [State.setPc, hv]
  rw [PermitInv] at h ⊢
  rw [hinsert, Finset.card_insert_of_notMem hw]
  show s.holders.card + 1 + (s.permits - 1) = cfg.maxConcurrentConvs
  omega

theorem step (h : PermitInv cfg s) (ht : TableInv s) {a : Action}
    (hs : Consumer.step cfg s a = some s') : PermitInv cfg s' := by
  cases stepped_of_step hs with
  | resumed | skipped | delivered | awaitsRecord | putWaits | getWaits | suspended
  | sentinelWaits => exact h.of_holds rfl fun _ => Iff.rfl
  | created =>
    refine h.of_holds rfl fun v => ?_
    by_cases hv : v = s.created
    · subst hv; simp [WorkerPc.holds]
    · simp only [Function.update_of_ne hv]
      exact and_congr_left fun _ => by omega
  | @put q item =>
    exact h.of_holds rfl
      (modify_holds_iff s q (f := fun wk => { wk with queue := wk.queue ++ [item] }) Iff.rfl)
  | acquired cpu pc free => exact h.acquire ht cpu pc free
  | @acquireWaits w cpu pc =>
    refine h.of_holds rfl (modify_holds_iff s w (f := ({ · with pc := .acquiring })) ?_)
    rcases pc with pc | pc <;> simp [pc, WorkerPc.holds]
  | @exited w item rest cpu pc =>
    refine h.leave ht rest .exited cpu pc rfl ?_ rfl
    simp [State.holders, State.exit, State.setPc, State.modify]
  | @died w item rest cpu pc =>
    refine h.leave ht rest .died cpu pc rfl ?_ rfl
    simp [State.holders, State.die, State.setPc, State.modify]
  | @handed w item rest _ _ cpu pc =>
    exact h.of_holds rfl (modify_holds_iff s w
      (f := ({ · with queue := rest, pc := .handling item })) (by simp [pc, WorkerPc.holds]))
  | @dropped w item rest _ cpu pc =>
    exact h.of_holds rfl (modify_holds_iff s w (f := ({ · with queue := rest, pc := .getting }))
      (by simp [pc, WorkerPc.holds]))
  | @ended w item a cpu pc =>
    exact h.of_holds rfl (modify_holds_iff s w (f := ({ · with pc := .getting }))
      (by simp [pc, WorkerPc.holds]))
  | @chatEnded w q item cpu pc =>
    exact h.of_holds rfl (modify_holds_iff s w (f := ({ · with pc := .putting q }))
      (by simp [pc, WorkerPc.holds]))
  | @sentinelPut w q cpu pc room =>
    have hq : ∀ v, ((s.enqueue q .sentinel).workers v).pc = (s.workers v).pc := by
      intro v
      rw [State.enqueue, State.modify_workers]
      split
      · next hv => rw [hv]
      · rfl
    refine h.of_holds rfl fun v => and_congr_right fun _ => ?_
    rw [State.setPc, State.modify_workers]
    split
    · next hv => simp [hv, pc, WorkerPc.holds]
    · rw [hq]

end PermitInv

end Consumer

end TitanChat
