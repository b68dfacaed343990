import TitanChat.Events
import TitanChat.WorkerTable

/-!
# Payloads behind a sentinel

A worker leaves its loop at the first sentinel of its queue, and the queue goes with it. After a
`chat_end` the sentinel is appended behind whatever is queued at that moment, but the loop keeps
putting records of the same conversation on the queue until the worker reads it. What is put in that
window is lost.

The window is also the whole defect. For records whose values are JSON objects, a payload is lost at
some point of a run exactly when some step of the run put a payload on a queue that already held a
sentinel, or whose worker had already exited.

## Main definitions

* `State.NoneStranded`: each payload put on a queue was dispatched or waits in front of every
  sentinel of a live worker's queue
* `PutOpen`: the guard of a `put`

## Main results

* `none_stranded_iff`: the exact statement
-/

namespace TitanChat

namespace Consumer

/-- The value of the item is a JSON object. -/
def Item.IsObject (item : Item) : Prop := ∃ kvs, item.value = .obj kvs

theorem Item.IsObject.dict {item : Item} (h : item.IsObject) :
    ∃ payload, item.value.dict? = some payload := by
  obtain ⟨kvs, hv⟩ := h
  exact ⟨_, by rw [hv]; rfl⟩

theorem Item.IsObject.ne_null {item : Item} (h : item.IsObject) : item.value ≠ .null := by
  obtain ⟨kvs, hv⟩ := h
  simp [hv]

namespace State

/-- The payload of record `n` was handed to `_dispatch`. -/
def Handed (s : State) (n : ℕ) : Prop := ∃ e ∈ s.dispatched, e.2.offset = some n

/-- The payload of record `n` sits in the queue of a live worker with no sentinel in front of it. -/
def Waiting (s : State) (n : ℕ) : Prop :=
  ∃ w, (s.workers w).pc.live ∧ ∃ front item back, (s.workers w).queue = front ++ item :: back ∧
    item.offset = some n ∧ ∀ x ∈ front, x.value ≠ .null

/-- No payload that was put on a queue is lost. -/
def NoneStranded (s : State) : Prop := ∀ n ∈ s.enqueued, s.Handed n ∨ s.Waiting n

/-- Record `n` has left a trace behind the loop. -/
def Mentioned (s : State) (n : ℕ) : Prop :=
  n ∈ s.enqueued ∨ s.Handed n ∨ ∃ w, ∃ item ∈ (s.workers w).queue, item.offset = some n

end State

/-- The guard of the loop's `put`: no sentinel has been put on the queue yet, so it holds none and
its worker has not exited. -/
def PutOpen (cfg : Config) (s : State) (a : Action) : Prop :=
  a = .loop .put → ∀ q item, s.loop = .putting q item → ¬cfg.full (s.workers q).queue →
    (s.workers q).pc.live ∧ ∀ x ∈ (s.workers q).queue, x.value ≠ .null

/-- Where the offsets are, in a run whose records are JSON objects. -/
structure OffsetInv (cfg : Config) (s : State) : Prop where
  input : ∀ msg ∈ s.input, ∀ c payload, cfg.delivery msg = some (c, payload) →
    ∃ kvs, payload = .obj kvs
  /-- A queue holds sentinels and payloads. -/
  items : ∀ w, ∀ item ∈ (s.workers w).queue, item = .sentinel ∨ item.IsObject
  below : ∀ n, s.Mentioned n → n < s.offset
  /-- The payload that the loop is putting is nowhere else. -/
  loopItem : ∀ q item, s.loop = .putting q item →
    item.IsObject ∧ ∃ n, item.offset = some n ∧ n < s.offset ∧ ¬s.Mentioned n

variable {cfg : Config} {s s' : State}

theorem OffsetInv.start {records : List Record}
    (hobj : ∀ msg ∈ records, ∀ c payload, cfg.delivery msg = some (c, payload) →
      ∃ kvs, payload = .obj kvs) : OffsetInv cfg (.start cfg records) where
  input := hobj
  items w item hi := by simp [State.start] at hi
  below n hn := by simp [State.Mentioned, State.Handed, State.start] at hn
  loopItem q item hl := by simp [State.start] at hl

/-- A step that reads no record and puts nothing, and moves or drops what is queued. -/
theorem OffsetInv.of_le (h : OffsetInv cfg s) (hin : s'.input = s.input)
    (hoff : s'.offset = s.offset) (hloop : s'.loop = s.loop)
    (hitems : ∀ w, ∀ item ∈ (s'.workers w).queue,
      item = .sentinel ∨ item ∈ (s.workers w).queue)
    (henq : s'.enqueued = s.enqueued)
    (hdisp : ∀ n, s'.Handed n → s.Mentioned n) : OffsetInv cfg s' := by
  have hment : ∀ n, s'.Mentioned n → s.Mentioned n := by
    rintro n (hn | hn | ⟨w, item, hi, hn⟩)
    · exact Or.inl (henq ▸ hn)
    · exact hdisp n hn
    · rcases hitems w item hi with rfl | hi
      · exact absurd hn (by simp [Item.sentinel])
      · exact Or.inr (Or.inr ⟨w, item, hi, hn⟩)
  refine ⟨by rw [hin]; exact h.input, fun w item hi => ?_, fun n hn => ?_, fun q item hl => ?_⟩
  · exact (hitems w item hi).elim Or.inl (h.items w item)
  · rw [hoff]; exact h.below n (hment n hn)
  · obtain ⟨hobj, n, hn, hlt, hno⟩ := h.loopItem q item (hloop ▸ hl)
    exact ⟨hobj, n, hn, hoff ▸ hlt, fun hm => hno (hment n hm)⟩

/-- The item at the head of a queue is handed over: its offset was mentioned before. -/
theorem State.Mentioned.of_handed {w : ℕ} {item : Item} {rest : List Item} {c : String}
    (hq : (s.workers w).queue = item :: rest) {n : ℕ}
    (h : ∃ e ∈ s.dispatched ++ [(c, item)], e.2.offset = some n) : s.Mentioned n := by
  obtain ⟨e, he, hn⟩ := h
  rcases List.mem_append.mp he with he | he
  · exact Or.inr (Or.inl ⟨e, he, hn⟩)
  · obtain rfl := List.mem_singleton.mp he
    exact Or.inr (Or.inr ⟨w, item, by rw [hq]; exact List.mem_cons_self .., hn⟩)

/-- One worker changes, and its queue gains nothing but sentinels. -/
theorem queue_modify {w : ℕ} {f : Worker → Worker}
    (hf : ∀ x ∈ (f (s.workers w)).queue, x = .sentinel ∨ x ∈ (s.workers w).queue) (v : ℕ) :
    ∀ x ∈ ((s.modify w f).workers v).queue, x = .sentinel ∨ x ∈ (s.workers v).queue := by
  intro x hx
  rw [State.modify_workers] at hx
  split at hx
  · next hv => rw [hv]; exact hf x hx
  · exact Or.inr hx

/-- The rest of a queue. -/
theorem queue_modify_tail {w : ℕ} {item : Item} {rest : List Item} {f : Worker → Worker}
    (hq : (s.workers w).queue = item :: rest) (hf : (f (s.workers w)).queue = rest) (v : ℕ) :
    ∀ x ∈ ((s.modify w f).workers v).queue, x = .sentinel ∨ x ∈ (s.workers v).queue := by
  refine queue_modify (fun x hx => ?_) v
  rw [hf] at hx
  rw [hq]
  exact Or.inr (List.mem_cons_of_mem _ hx)

theorem queue_setPc {w : ℕ} {pc : WorkerPc} (v : ℕ) :
    ∀ x ∈ ((s.setPc w pc).workers v).queue, x = .sentinel ∨ x ∈ (s.workers v).queue :=
  queue_modify (fun _ => Or.inr) v

/-- The loop has read a record and goes on to put its payload. -/
theorem OffsetInv.deliver (h : OffsetInv cfg s) {msg : Record} {rest : List Record} {c : String}
    {payload : Json} {q : ℕ} (input : s.input = msg :: rest)
    (delivery : cfg.delivery msg = some (c, payload))
    (hqueue : ∀ v, (s'.workers v).queue = (s.workers v).queue) (hin : s'.input = rest)
    (hoff : s'.offset = s.offset + 1) (henq : s'.enqueued = s.enqueued)
    (hdisp : s'.dispatched = s.dispatched)
    (hloop : s'.loop = .putting q { offset := s.offset, value := payload }) : OffsetInv cfg s' := by
  have hment : ∀ n, s'.Mentioned n → s.Mentioned n := by
    intro n hn
    simpa only [State.Mentioned, State.Handed, henq, hdisp, hqueue] using hn
  refine ⟨fun m hm => ?_, fun w item hi => ?_, fun n hn => ?_, fun q' item hl => ?_⟩
  · exact h.input m (by rw [input]; exact List.mem_cons_of_mem _ (hin ▸ hm))
  · exact h.items w item (hqueue w ▸ hi)
  · rw [hoff]
    exact Nat.lt_succ_of_lt (h.below n (hment n hn))
  · rw [hloop, LoopPc.putting.injEq] at hl
    obtain ⟨-, rfl⟩ := hl
    refine ⟨h.input msg (by rw [input]; exact List.mem_cons_self ..) c payload delivery, s.offset,
      rfl, by rw [hoff]; exact Nat.lt_succ_self _, fun hm => ?_⟩
    exact absurd (h.below _ (hment _ hm)) (Nat.lt_irrefl _)

/-- The loop puts its payload on a queue. -/
theorem OffsetInv.put (h : OffsetInv cfg s) {q : ℕ} {item : Item}
    (loop : s.loop = .putting q item) :
    OffsetInv cfg { s.enqueue q item with
      loop := .fetching, enqueued := s.enqueued ++ item.offset.toList } := by
  obtain ⟨hobj, n, hn, hlt, hno⟩ := h.loopItem q item loop
  -- the queues hold what they held, and the item
  have hqueue : ∀ w, ∀ x ∈ ((s.enqueue q item).workers w).queue,
      x = item ∨ x ∈ (s.workers w).queue := by
    intro w x hx
    simp only [State.enqueue, State.modify_workers] at hx
    split at hx
    · next hw =>
      rw [hw]
      exact (List.mem_append.mp hx).symm.imp List.mem_singleton.mp id
    · exact Or.inr hx
  refine ⟨h.input, fun w x hx => ?_, fun m hm => ?_, by simp⟩
  · rcases hqueue w x hx with rfl | hx
    · exact Or.inr hobj
    · exact h.items w x hx
  · have hm' : m = n ∨ s.Mentioned m := by
      rcases hm with hm | hm | ⟨w, x, hx, hm⟩
      · rcases List.mem_append.mp hm with hm | hm
        · exact Or.inr (Or.inl hm)
        · exact Or.inl (by simpa [hn] using hm)
      · exact Or.inr (Or.inr (Or.inl hm))
      · rcases hqueue w x hx with rfl | hx
        · exact Or.inl (Option.some.inj (hm.symm.trans hn))
        · exact Or.inr (Or.inr (Or.inr ⟨w, x, hx, hm⟩))
    rcases hm' with rfl | hm'
    · exact hlt
    · exact h.below m hm'

theorem OffsetInv.step (h : OffsetInv cfg s) (ht : TableInv s) {a : Action}
    (hs : step cfg s a = some s') : OffsetInv cfg s' := by
  cases stepped_of_step hs with
  | resumed | awaitsRecord | putWaits | getWaits | suspended | sentinelWaits =>
    exact { h with }
  | @skipped msg rest cpu loop input =>
    refine ⟨fun m hm => h.input m (by rw [input]; exact List.mem_cons_of_mem _ hm), h.items,
      fun n hn => Nat.lt_succ_of_lt (h.below n hn), fun q item hl => ?_⟩
    rw [loop] at hl
    exact absurd hl (by simp)
  | delivered cpu loop input delivery =>
    exact h.deliver input delivery (fun _ => rfl) rfl rfl rfl rfl rfl
  | created cpu loop input delivery new =>
    refine h.deliver input delivery (fun v => ?_) rfl rfl rfl rfl rfl
    by_cases hv : v = s.created
    · subst hv; simp [(ht.unborn s.created (Nat.le_refl _)).1]
    · simp [hv]
  | put cpu loop room => exact h.put loop
  | acquired | acquireWaits | ended | chatEnded =>
    exact h.of_le rfl rfl rfl queue_setPc rfl fun n hn => Or.inr (Or.inl hn)
  | @exited w item rest cpu pc queue =>
    refine h.of_le rfl rfl rfl ?_ rfl fun n hn => Or.inr (Or.inl hn)
    have := queue_modify_tail (f := ({ · with queue := rest, pc := .exited })) queue rfl
    rw [State.workers_exit]
    exact this
  | @died w item rest cpu pc queue =>
    refine h.of_le rfl rfl rfl ?_ rfl fun n hn => Or.inr (Or.inl hn)
    have := queue_modify_tail (f := ({ · with queue := rest, pc := .died })) queue rfl
    rw [State.workers_die]
    exact this
  | @handed w item rest payload e cpu pc queue =>
    exact h.of_le rfl rfl rfl
      (queue_modify_tail (f := ({ · with queue := rest, pc := .handling item })) queue rfl) rfl
      fun n hn => .of_handed queue hn
  | @dropped w item rest payload cpu pc queue =>
    exact h.of_le rfl rfl rfl
      (queue_modify_tail (f := ({ · with queue := rest, pc := .getting })) queue rfl) rfl
      fun n hn => .of_handed queue hn
  | @sentinelPut w q cpu pc room =>
    refine h.of_le rfl rfl rfl (fun v x hx => ?_) rfl fun n hn => Or.inr (Or.inl hn)
    rcases queue_setPc (s := s.enqueue q .sentinel) v x hx with hx | hx
    · exact Or.inl hx
    · refine queue_modify (fun y hy => ?_) v x hx
      exact (List.mem_append.mp hy).symm.imp List.mem_singleton.mp id

/-! ### One step -/

/-- The worker moves on, with its queue as it was. -/
theorem State.Waiting.setPc {n : ℕ} (h : s.Waiting n) {w : ℕ} {pc : WorkerPc} (hpc : pc.live) :
    (s.setPc w pc).Waiting n := by
  obtain ⟨v, hv, hrest⟩ := h
  refine ⟨v, ?_, ?_⟩
  · rw [State.setPc, State.modify_workers]
    split
    · exact hpc
    · exact hv
  · rw [State.setPc, State.modify_workers]
    split
    · next hvw => rw [← hvw]; exact hrest
    · exact hrest

/-- Something is appended to a queue. -/
theorem State.Waiting.enqueue {n : ℕ} (h : s.Waiting n) (q : ℕ) (x : Item) :
    (s.enqueue q x).Waiting n := by
  obtain ⟨v, hv, front, item, back, hq, hn, hfront⟩ := h
  by_cases hvq : v = q
  · refine ⟨v, by simpa [State.enqueue, hvq] using hvq ▸ hv, front, item, back ++ [x], ?_, hn,
      hfront⟩
    rw [State.enqueue, State.modify_workers, if_pos hvq]
    simp [← hvq, hq]
  · refine ⟨v, ?_, front, item, back, ?_, hn, hfront⟩
    · rw [State.enqueue, State.modify_workers, if_neg hvq]; exact hv
    · rw [State.enqueue, State.modify_workers, if_neg hvq]; exact hq

/-- The head of a queue is taken: what waits is the head, or still waits. -/
theorem State.Waiting.take {n : ℕ} (h : s.Waiting n) {w : ℕ} {item : Item} {rest : List Item}
    (hq : (s.workers w).queue = item :: rest) (pc : WorkerPc) (hpc : pc.live) :
    item.offset = some n ∨ (s.modify w ({ · with queue := rest, pc := pc })).Waiting n := by
  obtain ⟨v, hv, front, x, back, hvq, hn, hfront⟩ := h
  by_cases hvw : v = w
  · subst hvw
    cases front with
    | nil =>
      obtain ⟨rfl, -⟩ := List.cons.inj (hq.symm.trans hvq)
      exact Or.inl hn
    | cons y front =>
      obtain ⟨rfl, rfl⟩ := List.cons.inj (hq.symm.trans hvq)
      refine Or.inr ⟨v, by simpa using hpc, front, x, back, by simp, hn, fun z hz => ?_⟩
      exact hfront z (List.mem_cons_of_mem _ hz)
  · refine Or.inr ⟨v, ?_, front, x, back, ?_, hn, hfront⟩
    · rw [State.modify_workers, if_neg hvw]; exact hv
    · rw [State.modify_workers, if_neg hvw]; exact hvq

/-- A worker whose queue begins with a sentinel has nothing waiting in it. -/
theorem State.Waiting.exit {n : ℕ} (h : s.Waiting n) {w : ℕ} {item : Item} {rest : List Item}
    (hq : (s.workers w).queue = item :: rest) (hnull : item.value = .null)
    (hobj : item.offset ≠ some n) :
    ((s.modify w ({ · with queue := rest })).exit w).Waiting n := by
  obtain ⟨v, hv, front, x, back, hvq, hn, hfront⟩ := h
  have hvw : v ≠ w := by
    rintro rfl
    cases front with
    | nil =>
      obtain ⟨rfl, -⟩ := List.cons.inj (hq.symm.trans hvq)
      exact hobj hn
    | cons y front =>
      obtain ⟨rfl, -⟩ := List.cons.inj (hq.symm.trans hvq)
      exact hfront item (List.mem_cons_self ..) hnull
  refine ⟨v, ?_, front, x, back, ?_, hn, hfront⟩
  · simpa [State.exit, State.setPc, hvw] using hv
  · simpa [State.exit, State.setPc, hvw] using hvq

/-- The payload that the loop puts waits exactly when the queue was open. -/
theorem waiting_put_iff {q : ℕ} {item : Item} {n : ℕ} (hn : item.offset = some n)
    (hno : ¬s.Mentioned n) :
    (s.enqueue q item).Waiting n ↔
      (s.workers q).pc.live ∧ ∀ x ∈ (s.workers q).queue, x.value ≠ .null := by
  have hnot : ∀ w, ∀ x ∈ (s.workers w).queue, x.offset ≠ some n :=
    fun w x hx hxn => hno (Or.inr (Or.inr ⟨w, x, hx, hxn⟩))
  constructor
  · rintro ⟨v, hv, front, x, back, hvq, hxn, hfront⟩
    have hx : x ∈ ((s.enqueue q item).workers v).queue := by rw [hvq]; simp
    have hvq' : v = q := by
      by_contra hne
      rw [State.enqueue, State.modify_workers, if_neg hne] at hx
      exact hnot v x hx hxn
    subst hvq'
    simp only [State.enqueue, State.modify_workers, if_true] at hv hvq
    refine ⟨hv, fun y hy => ?_⟩
    -- `x` is the last element of the queue, so everything else is in front of it
    rcases List.eq_nil_or_concat' back with rfl | ⟨back, z, rfl⟩
    · obtain ⟨hfr, -⟩ := List.append_inj' hvq rfl
      exact hfront y (hfr ▸ hy)
    · rw [← List.cons_append, ← List.append_assoc] at hvq
      obtain ⟨hold, -⟩ := List.append_inj' hvq rfl
      exact absurd hxn (hnot v x (by rw [hold]; simp))
  · rintro ⟨hlive, hopen⟩
    refine ⟨q, by simpa [State.enqueue] using hlive, (s.workers q).queue, item, [], ?_, hn, hopen⟩
    simp [State.enqueue]

/-- A worker hands the head of its queue to `_dispatch`. -/
theorem State.NoneStranded.hand (hi : s.NoneStranded) {w : ℕ} {item : Item} {rest : List Item}
    (hq : (s.workers w).queue = item :: rest) {pc : WorkerPc} (hpc : pc.live) (c : String) :
    State.NoneStranded { s.modify w ({ · with queue := rest, pc := pc }) with
      dispatched := s.dispatched ++ [(c, item)] } := by
  intro n hn
  rcases hi n hn with ⟨e, he, hne⟩ | hw
  · exact Or.inl ⟨e, List.mem_append_left _ he, hne⟩
  · rcases hw.take hq pc hpc with hin | hw
    · exact Or.inl ⟨_, List.mem_append_right _ (List.mem_singleton_self _), hin⟩
    · exact Or.inr hw

/-- The loop puts an item: nothing is lost exactly when the item waits. -/
theorem State.NoneStranded.put_iff (hi : s.NoneStranded) {q : ℕ} {item : Item} {n : ℕ}
    (hn : item.offset = some n) (hno : ¬s.Mentioned n) :
    State.NoneStranded { s.enqueue q item with
      enqueued := s.enqueued ++ item.offset.toList, loop := .fetching } ↔
      (s.enqueue q item).Waiting n := by
  constructor
  · intro hall
    have hnew : ¬s.Handed n := fun hh => hno (Or.inr (Or.inl hh))
    exact (hall n (by simp [hn])).resolve_left hnew
  · intro hw m hm
    rcases List.mem_append.mp hm with hm | hm
    · exact (hi m hm).imp id fun hwait => hwait.enqueue q item
    · obtain rfl : m = n := by simpa [hn] using hm
      exact Or.inr hw

/-- The guard of a `put` that finds room. -/
theorem putOpen_put_iff {q : ℕ} {item : Item} (hl : s.loop = .putting q item)
    (hroom : ¬cfg.full (s.workers q).queue) :
    PutOpen cfg s (.loop .put) ↔
      (s.workers q).pc.live ∧ ∀ x ∈ (s.workers q).queue, x.value ≠ .null := by
  constructor
  · exact fun hopen => hopen rfl q item hl hroom
  · intro hopen _ q' item' hl' _
    obtain ⟨rfl, -⟩ := LoopPc.putting.inj (hl.symm.trans hl')
    exact hopen

/-- **One step.** Nothing is lost by a step exactly when it met the guard. -/
theorem noneStranded_step_iff (ht : TableInv s) (h : OffsetInv cfg s) {a : Action}
    (hs : step cfg s a = some s') (hi : s.NoneStranded) : s'.NoneStranded ↔ PutOpen cfg s a := by
  have hsafe : a ≠ .loop .put → s'.NoneStranded → (s'.NoneStranded ↔ PutOpen cfg s a) :=
    fun hne h => iff_of_true h fun ha => absurd ha hne
  cases stepped_of_step hs with
  | resumed | skipped | delivered | awaitsRecord | getWaits | suspended | sentinelWaits =>
    exact hsafe (by simp) hi
  | putWaits cpu loop full =>
    refine iff_of_true hi fun _ q item hl => ?_
    rw [loop, LoopPc.putting.injEq] at hl
    obtain ⟨rfl, rfl⟩ := hl
    exact fun hfull => absurd full hfull
  | created =>
    -- the new worker takes a number that no live worker had
    refine hsafe (by simp) fun n hn => (hi n hn).imp id fun ⟨v, hv, hrest⟩ => ?_
    have hne : v ≠ s.created := Nat.ne_of_lt (ht.lt_created hv)
    exact ⟨v, by simpa [hne] using hv, by simpa [hne] using hrest⟩
  | @put q item cpu loop room =>
    obtain ⟨-, n, hn, -, hno⟩ := h.loopItem q item loop
    rw [hi.put_iff hn hno, waiting_put_iff hn hno, putOpen_put_iff loop room]
  | acquired => exact hsafe (by simp) fun n hn => (hi n hn).imp id (·.setPc rfl)
  | acquireWaits => exact hsafe (by simp) fun n hn => (hi n hn).imp id (·.setPc rfl)
  | @exited w item rest cpu pc queue null =>
    refine hsafe (by simp) fun n hn => (hi n hn).imp id fun hw => hw.exit queue null fun hin => ?_
    rcases h.items w item (by rw [queue]; exact List.mem_cons_self ..) with rfl | hobj
    · exact absurd hin (by simp [Item.sentinel])
    · exact hobj.ne_null null
  | @died w item rest cpu pc queue notNull notDict =>
    rcases h.items w item (by rw [queue]; exact List.mem_cons_self ..) with rfl | hobj
    · exact absurd rfl notNull
    · obtain ⟨payload, hp⟩ := hobj.dict
      exact absurd (hp.symm.trans notDict) (by simp)
  | handed cpu pc queue => exact hsafe (by simp) (hi.hand queue rfl _)
  | dropped cpu pc queue => exact hsafe (by simp) (hi.hand queue rfl _)
  | ended cpu pc how =>
    exact hsafe (by simp) fun n hn => (hi n hn).imp id (·.setPc rfl)
  | chatEnded => exact hsafe (by simp) fun n hn => (hi n hn).imp id (·.setPc rfl)
  | sentinelPut =>
    exact hsafe (by simp) fun n hn => (hi n hn).imp id fun hw => (hw.enqueue _ _).setPc rfl

/-- **Nothing is stranded, exactly.** For records whose values are JSON objects, no payload is lost
throughout a run if and only if every `put` of the run found its queue open. -/
theorem none_stranded_iff {records : List Record}
    (hobj : ∀ msg ∈ records, ∀ c payload, cfg.delivery msg = some (c, payload) →
      ∃ kvs, payload = .obj kvs) (acts : List Action) :
    Transition.Always (step cfg) State.NoneStranded (.start cfg records) acts ↔
      Transition.Guarded (step cfg) (PutOpen cfg) (.start cfg records) acts := by
  refine Transition.always_iff_guarded (K := fun s => TableInv s ∧ OffsetInv cfg s) ?_ ?_
    ⟨.start cfg records, .start hobj⟩ (by simp [State.NoneStranded, State.start])
  · exact fun s a s' h hs => ⟨h.1.step hs, h.2.step h.1 hs⟩
  · exact fun s a s' h hi hs => noneStranded_step_iff h.1 h.2 hs hi

/-! ### A lost payload -/

/-- A `chat_end` of `conv-1`: its text, and what it says. -/
def endText : String × Json :=
  ("\x7b\"event_type\":\"chat_end\",\"conversation_id\":\"conv-1\"," ++
      "\"timestamp\":1748275200\x7d",
    .obj [("event_type", .str "chat_end"), ("conversation_id", .str "conv-1"),
      ("timestamp", .int 1748275200)])

/-- An ack of a message of `conv-1`. -/
def ackText (message_id : String) : String × Json :=
  ("\x7b\"event_type\":\"ack\",\"conversation_id\":\"conv-1\",\"message_id\":\"" ++ message_id ++
      "\",\"ack_type\":\"read\",\"timestamp\":1748275200\x7d",
    .obj [("event_type", .str "ack"), ("conversation_id", .str "conv-1"),
      ("message_id", .str message_id), ("ack_type", .str "read"),
      ("timestamp", .int 1748275200)])

/-- Both are events that their handlers accept. -/
example (p : Parsing) (message_id : String) :
    (endText.2.dict?.bind (ChatEndEvent.parse p)).isSome ∧
      ((ackText message_id).2.dict?.bind (AckEvent.parse p)).isSome :=
  ⟨rfl, rfl⟩

/-- A `chat_end` that names nothing. -/
def bareText : String × Json :=
  ("\x7b\"event_type\":\"chat_end\"\x7d", .obj [("event_type", .str "chat_end")])

/-- A text that is no object. -/
def listText : String × Json := ("[]", .arr [])

/-- The constants of `kafka_consumer.py`, and the texts of the examples. -/
def sampleConfig : Config where
  maxQueueSize := 100
  maxConcurrentConvs := 10000
  loads := loadsOf [endText, ackText "m1", ackText "m2", bareText, listText]

/-- A record of `conv-1`. -/
def sampleRecord (text : String × Json) : Record where
  key := some "conv-1".toUTF8
  value := some text.1.toUTF8
  headers := []

/-- A `chat_end` and two acks. -/
def lateAcks : List Record :=
  [sampleRecord endText, sampleRecord (ackText "m1"), sampleRecord (ackText "m2")]

/-- The first ack arrives while the `chat_end` is handled, so the sentinel goes behind it; the
second arrives while the first is handled, and goes behind the sentinel. -/
def lateAckRun : List Action :=
  [.resume .loop, .loop .read, .loop .put, .loop .awaitRecord,
    .resume (.worker 0), .worker .acquire, .worker .get, .worker .handlerSuspends,
    .resume .loop, .loop .read, .loop .put, .loop .awaitRecord,
    .resume (.worker 0), .worker .handlerReturns, .worker .putSentinel, .worker .get,
    .worker .handlerSuspends,
    .resume .loop, .loop .read, .loop .put, .loop .awaitRecord,
    .resume (.worker 0), .worker .handlerReturns, .worker .get]

theorem lateAcks_isObject : ∀ msg ∈ lateAcks, ∀ c payload,
    sampleConfig.delivery msg = some (c, payload) → ∃ kvs, payload = .obj kvs := by
  intro msg hmsg c payload hd
  simp only [lateAcks, List.mem_cons, List.not_mem_nil, or_false] at hmsg
  rcases hmsg with rfl | rfl | rfl
  all_goals
    obtain ⟨-, rfl⟩ := Prod.mk.inj (Option.some.inj hd)
    exact ⟨_, rfl⟩

/-- The exact statement for the run that loses the second ack. -/
theorem none_stranded_iff_lateAcks :
    Transition.Always (step sampleConfig) State.NoneStranded (.start sampleConfig lateAcks)
        lateAckRun ↔
      Transition.Guarded (step sampleConfig) (PutOpen sampleConfig) (.start sampleConfig lateAcks)
        lateAckRun :=
  none_stranded_iff lateAcks_isObject lateAckRun

/-- **A payload is lost.** The second ack is neither dispatched nor waiting for anybody. -/
theorem not_none_stranded :
    ¬ ∀ (cfg : Config) (records : List Record),
      (∀ msg ∈ records, ∀ c payload, cfg.delivery msg = some (c, payload) →
        ∃ kvs, payload = .obj kvs) → ∀ acts,
      Transition.Always (step cfg) State.NoneStranded (.start cfg records) acts := by
  intro h
  have hlast := (h sampleConfig lateAcks lateAcks_isObject lateAckRun).run rfl
  rcases hlast 2 (by decide) with ⟨e, he, hn⟩ | ⟨w, hw, -⟩
  · revert e
    decide
  · cases w with
    | zero => exact Bool.false_ne_true hw
    | succ w => exact Bool.false_ne_true hw

end Consumer

end TitanChat
