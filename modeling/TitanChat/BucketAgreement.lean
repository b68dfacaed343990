import TitanChat.HistoryPages

/-!
# Writer and reader of the day buckets

The writer puts a message into the bucket of the day of its own timestamp; the reader takes the day
of its own clock and the six days before. Where no more messages than the limit are of these days,
the reader finds each of them once.

## Main definitions

* `sentLimits`: the limits that the reader sends
* `AreMessages`: the messages of a conversation that have been written
* `messagesInWindow`: those of the seven days

## Main results

* `mem_sentLimits`: the limit is never used up before a query
* `perm_bucketRows`, `perm_windowRows`: what is found in a bucket, and in all of them
* `buckets_agree`: writer and reader agree
-/

namespace TitanChat

open WideColumn Persistence

/-! ### The limits -/

/-- The `LIMIT` of each `SELECT` in the loop over the buckets. -/
def sentLimits (scan : (List Cell → Option Row) → List Row) (db : Database Table)
    (conversation_id : String) (limit : ℕ) : List String → List MessageResponse → List ℤ
  | [], _ => []
  | b :: buckets, messages =>
    let msg_rows := (scan (messagePartition db conversation_id b)).take (limit - messages.length)
    let messages' := messages ++ msg_rows.map .ofRow
    ((limit : ℤ) - messages.length) ::
      if limit ≤ messages'.length then []
      else sentLimits scan db conversation_id limit buckets messages'

section Limits

variable {scan : (List Cell → Option Row) → List Row} {db : Database Table} {c : String}

/-- **The limit is never used up before a query.** -/
theorem mem_sentLimits {limit : ℕ} {buckets : List String} {messages : List MessageResponse}
    (h : messages.length < limit) {n : ℤ} (hn : n ∈ sentLimits scan db c limit buckets messages) :
    1 ≤ n ∧ n ≤ limit := by
  induction buckets generalizing messages with
  | nil => exact absurd hn List.not_mem_nil
  | cons b buckets ih =>
    simp only [sentLimits] at hn
    obtain rfl | hn := List.mem_cons.mp hn
    · omega
    · split at hn
      · exact absurd hn List.not_mem_nil
      · next hroom => exact ih (Nat.lt_of_not_le hroom) hn

theorem length_getMessages_le {now : DateTime} {bots : List Bot} {admin_id : String}
    {bucket : Option String} {limit : ℕ} {data : List MessageResponse}
    (h : getMessages scan now bots admin_id db c bucket limit = .ok data) :
    data.length ≤ limit := by
  rw [eq_of_getMessages h]
  exact List.length_take_le _ _

end Limits

/-! ### What is found -/

/-- The messages of the conversation that these calls have written, each once. -/
structure AreMessages (calls : List MessageCall) (c : String) (msgs : List (Dict Json)) : Prop where
  mem : ∀ p, p ∈ msgs ↔ (∃ call ∈ calls, call.Inserts ∧ call.payload = p) ∧
    requiredCell p "conversation_id" = some (.text c)
  ids : (msgs.map fun p => requiredCell p "message_id").Nodup

/-- The bucket of the message of a record. -/
def messageBucket (p : Dict Json) : Option String := (timestampOf p).map DateTime.strftime

/-- And its key in the bucket. -/
def messageKey (p : Dict Json) : List Cell :=
  ((timestampOf p).map DateTime.cell).toList ++ (requiredCell p "message_id").toList

/-- The messages of the days from today - 6 to today. -/
def messagesInWindow (now : DateTime) (msgs : List (Dict Json)) : List (Dict Json) :=
  msgs.filter fun p => (timestampOf p).any fun t => InWindow now t

section Found

variable {calls : List MessageCall} {c : String} {msgs : List (Dict Json)}
  {scan : (List Cell → Option Row) → List Row} {db : Database Table}

/-- Where the message of a record is, by functions of the record. -/
theorem messageAt_iff {p : Dict Json} {bucket : String} {rest : List Cell}
    (h : (messageScript p).writes ≠ []) :
    MessageAt p c bucket rest ↔ requiredCell p "conversation_id" = some (.text c) ∧
      messageBucket p = some bucket ∧ messageKey p = rest := by
  obtain ⟨d, b, r, stmt, script, hinsert⟩ := exists_insert h
  obtain ⟨now, id, hnow, hd, hid, rfl, rfl⟩ := hinsert.place
  rw [messageBucket, messageKey, hnow, hid, hd]
  constructor
  · intro hat
    obtain ⟨rfl, rfl, rfl⟩ := hinsert.place.unique hat
    exact ⟨rfl, rfl, rfl⟩
  · rintro ⟨hc, hbucket, rfl⟩
    obtain rfl := Cell.text.inj (Option.some.inj hc)
    obtain rfl := Option.some.inj hbucket
    exact hinsert.place

/-- A record in the list has been written, and has a time and an id. -/
theorem AreMessages.writes_ne_nil (h : AreMessages calls c msgs) {p : Dict Json} (hp : p ∈ msgs) :
    (messageScript p).writes ≠ [] := by
  obtain ⟨⟨call, -, hinserts, rfl⟩, -⟩ := (h.mem p).mp hp
  exact hinserts.2

theorem AreMessages.exists_call_iff (h : AreMessages calls c msgs) {bucket : String}
    {rest : List Cell} :
    (∃ call ∈ calls, call.Inserts ∧ MessageAt call.payload c bucket rest) ↔
      ∃ p ∈ msgs, messageBucket p = some bucket ∧ messageKey p = rest := by
  constructor
  · rintro ⟨call, hcall, hinserts, hat⟩
    obtain ⟨hc, hplace⟩ := (messageAt_iff hinserts.2).mp hat
    exact ⟨call.payload, (h.mem _).mpr ⟨⟨call, hcall, hinserts, rfl⟩, hc⟩, hplace⟩
  · rintro ⟨p, hp, hplace⟩
    obtain ⟨⟨call, hcall, hinserts, rfl⟩, hc⟩ := (h.mem p).mp hp
    exact ⟨call, hcall, hinserts, (messageAt_iff hinserts.2).mpr ⟨hc, hplace⟩⟩

/-- The key of a message has its id. -/
theorem AreMessages.eq_of_messageKey (h : AreMessages calls c msgs) {p q : Dict Json}
    (hp : p ∈ msgs) (hq : q ∈ msgs) (heq : messageKey p = messageKey q) : p = q := by
  refine List.inj_on_of_nodup_map h.ids hp hq ?_
  obtain ⟨_, _, _, _, _, hp'⟩ := exists_insert (h.writes_ne_nil hp)
  obtain ⟨_, _, _, _, _, hq'⟩ := exists_insert (h.writes_ne_nil hq)
  obtain ⟨now, id, hnow, -, hid, -, -⟩ := hp'.place
  obtain ⟨now', id', hnow', -, hid', -, -⟩ := hq'.place
  rw [messageKey, messageKey, hnow, hnow', hid, hid'] at heq
  rw [hid, hid', (List.cons.inj (List.cons.inj heq).2).1]

/-- The row of a message is shown as its record says. -/
theorem AreMessages.exists_row (h : AreMessages calls c msgs) (hw : WrittenBy db c calls)
    {p : Dict Json} (hp : p ∈ msgs) {bucket : String} (hb : messageBucket p = some bucket) :
    ∃ row, messagePartition db c bucket (messageKey p) = some row ∧
      MessageResponse.ofRow row = .ofPayload p := by
  have hsome := (hw.rows bucket (messageKey p)).mpr (h.exists_call_iff.mpr ⟨p, hp, hb, rfl⟩)
  obtain ⟨row, hrow⟩ := Option.isSome_iff_exists.mp hsome
  obtain ⟨call, hcall, hinserts, hat, hshown⟩ := hw.row _ _ _ hrow
  obtain ⟨hc, -, hkey⟩ := (messageAt_iff hinserts.2).mp hat
  have hmem : call.payload ∈ msgs := (h.mem _).mpr ⟨⟨call, hcall, hinserts, rfl⟩, hc⟩
  rw [h.eq_of_messageKey hmem hp hkey] at hshown
  exact ⟨row, hrow, hshown⟩

/-- **What is found in a bucket**: the messages of its day. -/
theorem perm_bucketRows (hw : WrittenBy db c calls) (hmsgs : AreMessages calls c msgs)
    {bucket : String} (hscan : Lists keyBefore (messagePartition db c bucket)
      (scan (messagePartition db c bucket))) :
    ((scan (messagePartition db c bucket)).map MessageResponse.ofRow).Perm
      ((msgs.filter fun p => messageBucket p = some bucket).map .ofPayload) := by
  obtain ⟨keys, hsorted, hmem, hrows⟩ := hscan
  have hin : ∀ p ∈ msgs.filter fun p => messageBucket p = some bucket,
      p ∈ msgs ∧ messageBucket p = some bucket := fun p hp => by simpa using hp
  have hnodup : ((msgs.filter fun p => messageBucket p = some bucket).map messageKey).Nodup :=
    (hmsgs.ids.of_map _).filter _ |>.map_on fun p hp q hq =>
      hmsgs.eq_of_messageKey (hin p hp).1 (hin q hq).1
  have hkeys : keys.Perm ((msgs.filter fun p => messageBucket p = some bucket).map messageKey) := by
    refine (List.perm_ext_iff_of_nodup (nodup_of_pairwise hsorted) hnodup).mpr fun key => ?_
    rw [hmem, hw.rows, hmsgs.exists_call_iff]
    simp [and_assoc]
  rw [hrows]
  refine ((hkeys.filterMap _).map _).trans (List.Perm.of_eq ?_)
  rw [List.filterMap_map, List.map_filterMap, ← List.filterMap_eq_map]
  refine List.filterMap_congr fun p hp => ?_
  obtain ⟨row, hrow, hshown⟩ := hmsgs.exists_row hw (hin p hp).1 (hin p hp).2
  simp only [Function.comp_apply, hrow, Option.map_some, hshown]

/-- **What is found in the seven days.** -/
theorem perm_windowRows (hw : WrittenBy db c calls) (hmsgs : AreMessages calls c msgs)
    (hscan : ∀ bucket, Lists keyBefore (messagePartition db c bucket)
      (scan (messagePartition db c bucket))) (now : DateTime) :
    (((daysBack now).flatMap (dayRows scan db c)).map MessageResponse.ofRow).Perm
      ((messagesInWindow now msgs).map .ofPayload) := by
  have hbuckets : ((daysBack now).flatMap (dayRows scan db c)).map MessageResponse.ofRow =
      (bucketsToQuery none now).flatMap fun b =>
        (scan (messagePartition db c b)).map MessageResponse.ofRow := by
    rw [bucketsToQuery_none, List.flatMap_map, List.map_flatMap]
    rfl
  have hkeys : ((bucketsToQuery none now).map some).Nodup :=
    (nodup_bucketsToQuery now).map (Option.some_injective _)
  rw [hbuckets]
  refine (List.Perm.flatMap_left _ fun b _ => perm_bucketRows hw hmsgs (hscan b)).trans ?_
  have hblocks := (Blocks.perm_flatMap_filter messageBucket msgs hkeys).map
    MessageResponse.ofPayload
  rw [List.flatMap_map, List.map_flatMap] at hblocks
  refine hblocks.trans (List.Perm.of_eq ?_)
  rw [messagesInWindow]
  congr 1
  refine List.filter_congr fun p hp => ?_
  obtain ⟨_, _, _, _, _, hinsert⟩ := exists_insert (hmsgs.writes_ne_nil hp)
  obtain ⟨t, -, ht, -⟩ := hinsert.place
  rw [messageBucket, ht, Option.map_some, Option.any_some]
  refine decide_eq_decide.mpr ?_
  rw [List.mem_map_of_injective (Option.some_injective _), mem_bucketsToQuery]

/-- Other statements leave the messages as they are. -/
theorem Persistence.WrittenBy.congr {view : Database Table} (hw : WrittenBy db c calls)
    (h : ∀ key, view .messages key = db .messages key) : WrittenBy view c calls where
  rows bucket rest := by
    rw [messagePartition, h]
    exact hw.rows bucket rest
  row bucket rest row hrow := by
    rw [messagePartition, h] at hrow
    exact hw.row bucket rest row hrow

/-- **Writer and reader agree.** The messages of the conversation are those that these calls of
`_persist_message` have written, and the other tables are as they may be. If no more messages than
the limit are of the seven days up to today, the reader finds each of them once, among them all of
the last six times 86400 seconds. And in every store each limit that is sent is between 1 and
`limit`, as is the length of the result. -/
theorem buckets_agree {view : Database Table} {now : DateTime} {bots : List Bot}
    {admin_id : String} {limit : ℕ} {data : List MessageResponse} (hlimit : 1 ≤ limit)
    (hempty : ∀ bucket rest, messagePartition db c bucket rest = none)
    (hview : ∀ key, view .messages key = persistCalls db calls .messages key)
    (hmsgs : AreMessages calls c msgs)
    (hscan : ∀ bucket, Lists keyBefore (messagePartition view c bucket)
      (scan (messagePartition view c bucket)))
    (hcount : (messagesInWindow now msgs).length ≤ limit)
    (hdata : getMessages scan now bots admin_id view c none limit = .ok data) :
    data.Perm ((messagesInWindow now msgs).map .ofPayload) ∧
    (∀ p ∈ msgs, ∀ t, timestampOf p = some t → now.micros - 6 * 86400 * 1000000 ≤ t.micros →
      t.micros ≤ now.micros → .ofPayload p ∈ data) ∧
    ∀ scan (store : Database Table) (c : String) (now : DateTime) (bucket : Option String),
      (∀ n ∈ sentLimits scan store c limit (bucketsToQuery bucket now) [], 1 ≤ n ∧ n ≤ limit) ∧
      ∀ bots admin_id data, getMessages scan now bots admin_id store c bucket limit = .ok data →
        data.length ≤ limit := by
  have hw : WrittenBy view c calls := by
    have hcalls := (WrittenBy.empty hempty).persistCalls calls
    rw [List.nil_append] at hcalls
    exact hcalls.congr hview
  have hperm := perm_windowRows hw hmsgs hscan now
  have hlength := hperm.length_eq
  rw [List.length_map, List.length_map] at hlength
  rw [← List.take_of_length_le (hlength.le.trans hcount), ← getMessages_none_eq hdata] at hperm
  refine ⟨hperm, fun p hp t ht hlow hhigh => ?_, fun scan store c now bucket =>
    ⟨fun n hn => mem_sentLimits hlimit hn, fun _ _ _ => length_getMessages_le⟩⟩
  have hwindow : InWindow now t := by
    rw [InWindow, DateTime.day, DateTime.day]
    omega
  refine hperm.mem_iff.mpr (List.mem_map_of_mem (List.mem_filter.mpr ⟨hp, ?_⟩))
  rw [ht, Option.any_some]
  exact decide_eq_true hwindow

end Found

/-! ### Two days -/

theorem areMessages_twoDays : AreMessages [⟨messageRecord "a" 0, []⟩, ⟨messageRecord "b" 86400, []⟩]
    "c" [messageRecord "a" 0, messageRecord "b" 86400] where
  mem p := by
    have ha : MessageCall.Inserts ⟨messageRecord "a" 0, []⟩ := ⟨by decide, by decide⟩
    have hb : MessageCall.Inserts ⟨messageRecord "b" 86400, []⟩ := ⟨by decide, by decide⟩
    rw [List.mem_pair]
    constructor
    · rintro (rfl | rfl)
      · exact ⟨⟨_, List.mem_cons_self, ha, rfl⟩, rfl⟩
      · exact ⟨⟨_, List.mem_cons_of_mem _ List.mem_cons_self, hb, rfl⟩, rfl⟩
    · rintro ⟨⟨call, hcall, -, rfl⟩, -⟩
      exact (List.mem_pair.mp hcall).imp (congrArg _) (congrArg _)
  ids := by decide

theorem buckets_agree_twoDays : ∃ m m',
    getMessages (scanKeys twoKeys) nextNoon [] "" twoDays "c" none 50 = .ok [m, m'] ∧
    [m, m'].Perm ((messagesInWindow nextNoon [messageRecord "a" 0, messageRecord "b" 86400]).map
      .ofPayload) := by
  obtain ⟨m, m', hdata, -⟩ := exists_page_twoDays
  refine ⟨m, m', hdata, (buckets_agree ?_ (fun _ _ => rfl) (fun _ => rfl) areMessages_twoDays
    (lists_twoDays "c") ?_ hdata).1⟩
  · decide
  · decide

end TitanChat
