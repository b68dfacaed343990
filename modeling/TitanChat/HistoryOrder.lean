import TitanChat.Internal.Clustering
import TitanChat.Ownership
import TitanChat.RecordFit

/-!
# The order of the history

Each stage between a socket and the history keeps the order of a conversation: the gateway stamps a
frame when it arrives, Kafka and the queue of the conversation are first in, first out, and the
worker persists one record at a time. But the history is sorted by `created_at` and `message_id`.
The stamp is in whole seconds, and the `message_id` is the client's. So messages of the same second
are shown in the order of their ids.

## Main definitions

* `Sent`, `AcceptedMessage`: a chat message of a socket
* `persistMessages`: its record, persisted
* `bucketOf`, `clusteringKey`: where a message is stored
* `InOrder`: the property
* `Stored`: the rows of a conversation some of whose messages have been persisted
* `SecondsInOrder`: the condition

## Main results

* `Stored.persistMessages`: every message has its row, and there are no others
* `Stored.exists_keys`: what is shown of them
* `in_order_iff`: the exact statement
-/

namespace TitanChat

open WideColumn Handlers Replay

namespace Persistence

/-! ### From the socket to the table -/

/-- What a client sends: the `uuid` and the clock are those of the gateway. -/
structure Sent where
  uuid : String
  timestamp : ℤ
  data : Dict Json

/-- A chat message that is accepted on the socket: the handler gets the event, which has the
conversation of the socket and the stamp of the gateway. -/
structure AcceptedMessage (p : Parsing) (session : Session) (sent : Sent)
    (e : IncomingMessageEvent) : Prop where
  event : (session.frame sent.uuid sent.timestamp sent.data).event p = some (.incomingMessage e)
  conversation_id : e.conversation_id = session.conversation_id
  timestamp : e.timestamp = sent.timestamp

/-- The records of some messages, persisted one after another without failure. -/
def persistMessages (db : Database Table) : List IncomingMessageEvent → Option (Database Table)
  | [] => some db
  | event :: events =>
    match (persistMessage (dictOf (incomingMessageRecord event))).run (healthy db) with
    | (.ok _, s) => persistMessages s.db events
    | (.error _, _) => none

/-- The day bucket of a message. -/
def bucketOf (event : IncomingMessageEvent) : Option String :=
  (DateTime.ofMicros (event.timestamp * 1000000)).map DateTime.strftime

/-- `created_at` and `message_id`. -/
def clusteringKey (event : IncomingMessageEvent) : List Cell :=
  [.timestamp (event.timestamp * 1000), .text event.message_id]

/-- The `message_id` of the row, as the API shows it. -/
def shownId (event : IncomingMessageEvent) : Option Cell := some (.text event.message_id)

/-- **History order is sending order**: whoever may read the conversation finds these messages, in
each bucket, in the order in which they were accepted. -/
def InOrder (scan : (List Cell → Option Row) → List Row) (db : Database Table) (c : String)
    (events : List IncomingMessageEvent) : Prop :=
  ∀ now bots admin_id bucket limit data, bucket ≠ "" →
    (scan (messagePartition db c bucket)).length ≤ limit →
    getMessages scan now bots admin_id db c (some bucket) limit = .ok data →
      (data.map MessageResponse.message_id).filter (· ∈ events.map shownId) =
        (events.filter fun e => bucketOf e = some bucket).map shownId

/-- The rows of the conversation have the ids of their keys, and none has the id of these
messages. -/
structure Fresh (db : Database Table) (c : String) (events : List IncomingMessageEvent) : Prop where
  id : ∀ bucket rest row, messagePartition db c bucket rest = some row →
    row.lookup "message_id" = rest[1]?
  other : ∀ bucket rest, (messagePartition db c bucket rest).isSome →
    ∀ e ∈ events, rest[1]? ≠ shownId e

/-! ### One message -/

theorem run_dbExecute_healthy {stmt : Statement Table} (h : stmt.accepted schema)
    (db : Database Table) :
    (dbExecute stmt).run (healthy db) = (.ok (), healthy (db.apply schema stmt)) :=
  run_dbExecute_of_accepted h nofun

theorem run_writes {stmt : Statement Table} {stmts : List (Statement Table)} {db : Database Table}
    (h : ∀ st ∈ stmt :: stmts, st.accepted schema) :
    ((writes stmt stmts).run (healthy db)).2 =
      healthy (perform (Database.apply schema) db (stmt :: stmts)) := by
  induction stmts generalizing stmt db with
  | nil => rw [writes, run_dbExecute_healthy (h stmt List.mem_cons_self), perform_cons, perform_nil]
  | cons next stmts ih =>
    rw [writes, Effect.run_bind_of_ok (run_dbExecute_healthy (h stmt List.mem_cons_self) db),
      ih fun st hst => h st (List.mem_cons_of_mem _ hst), perform_cons, perform_cons, perform_cons]

/-- The first statement of a message. -/
def messageInsert (now : DateTime) (e : IncomingMessageEvent) : Statement Table :=
  insertMessage now (.text e.conversation_id) (.text e.message_id) (.text e.user_id) (.text "user")
    (.text "text") (.text e.message) (.int e.seq)

/-- The second. -/
def messagePreview (now : DateTime) (e : IncomingMessageEvent) : Statement Table :=
  updatePreview now (.text (String.ofList (e.message.toList.take 100))) (.text e.conversation_id)

/-- The third. -/
def messageUnread (e : IncomingMessageEvent) : Statement Table :=
  updateUnread 1 (.text "agent") (.text e.conversation_id)

/-- The three statements of a message. -/
def messageWrites (now : DateTime) (e : IncomingMessageEvent) : List (Statement Table) :=
  [messageInsert now e, messagePreview now e, messageUnread e]

/-- A record that is persisted has a time, and its three statements are executed. -/
theorem persistMessages_cons {db db' : Database Table} {e : IncomingMessageEvent}
    {events : List IncomingMessageEvent} (h : persistMessages db (e :: events) = some db') :
    ∃ now, DateTime.ofMicros (e.timestamp * 1000000) = some now ∧
      (∀ st ∈ messageWrites now e, st.accepted schema) ∧
      persistMessages (perform (Database.apply schema) db (messageWrites now e)) events =
        some db' := by
  rw [persistMessages, persistMessage_incomingMessageRecord, stamp] at h
  cases hnow : DateTime.ofMicros (e.timestamp * 1000000) with
  | none =>
    rw [hnow, Effect.run_bind_of_error (Effect.run_fail ..)] at h
    simp at h
  | some now =>
    rw [hnow, Effect.pure_bind] at h
    split at h
    · next s hrun =>
      have hok := congrArg Prod.fst hrun
      have haccepted := (ok_writes (s := healthy db) rfl).mp hok
      have hs := congrArg Prod.snd hrun
      rw [run_writes haccepted] at hs
      obtain rfl := hs
      exact ⟨now, rfl, haccepted, h⟩
    · cases h

theorem cell_of_ofMicros {t : ℤ} {now : DateTime}
    (h : DateTime.ofMicros (t * 1000000) = some now) : now.cell = .timestamp (t * 1000) := by
  rw [DateTime.ofMicros] at h
  split at h
  · obtain rfl := Option.some.inj h
    rw [DateTime.cell]
    congr 1
    dsimp only
    omega
  · cases h

/-! ### The rows of a conversation -/

/-- The messages of conversation `c` are those of `old` and these, each under its time and its
id. -/
structure Stored (old db : Database Table) (c : String) (events : List IncomingMessageEvent) :
    Prop where
  rows : ∀ bucket rest, (messagePartition db c bucket rest).isSome ↔
    (messagePartition old c bucket rest).isSome ∨
      ∃ e ∈ events, bucketOf e = some bucket ∧ clusteringKey e = rest
  id : ∀ bucket rest row, messagePartition db c bucket rest = some row →
    row.lookup "message_id" = rest[1]?
  conversation : events ≠ [] → (conversationRow db c).isSome

section Message

variable {old db : Database Table} {e : IncomingMessageEvent} {now : DateTime}

theorem keyOf_messageInsert (hnow : DateTime.ofMicros (e.timestamp * 1000000) = some now) :
    (schema .messages).keyOf (messageInsert now e).bound =
      some (.text e.conversation_id :: .text now.strftime :: clusteringKey e) := by
  rw [clusteringKey, ← cell_of_ofMicros hnow]
  simp [messageInsert, insertMessage, Statement.bound, TableSchema.keyOf, TableSchema.key, schema,
    List.lookup_cons, Option.filter_some]

theorem apply_messagePreview (key : List Cell) :
    db.apply schema (messagePreview now e) .messages key = db .messages key := by
  have h : Table.messages ≠ (messagePreview now e).table := nofun
  exact Database.apply_of_table_ne db _ h key

theorem apply_messageUnread {table : Table} (h : table ≠ .unreadCounters) (key : List Cell) :
    db.apply schema (messageUnread e) table key = db table key :=
  Database.apply_of_table_ne db (messageUnread e) h key

theorem bucketOf_eq (hnow : DateTime.ofMicros (e.timestamp * 1000000) = some now) :
    bucketOf e = some now.strftime := by
  rw [bucketOf, hnow, Option.map_some]

/-- Of the three statements only the first is about `messages`. -/
theorem messages_messageWrites (key : List Cell) :
    perform (Database.apply schema) db (messageWrites now e) .messages key =
      db.apply schema (messageInsert now e) .messages key := by
  rw [messageWrites, perform_cons, perform_cons, perform_cons, perform_nil]
  have h : Table.messages ≠ .unreadCounters := nofun
  exact (apply_messageUnread h key).trans (apply_messagePreview key)

/-- A message that is persisted has its row, with its id. -/
theorem messagePartition_self (db : Database Table)
    (hnow : DateTime.ofMicros (e.timestamp * 1000000) = some now)
    (h : ∀ st ∈ messageWrites now e, st.accepted schema) :
    ∃ row, messagePartition (perform (Database.apply schema) db (messageWrites now e))
      e.conversation_id now.strftime (clusteringKey e) = some row ∧
        row.lookup "message_id" = some (.text e.message_id) := by
  refine ⟨_, (messages_messageWrites _).trans
    (Database.apply_self _ (h _ List.mem_cons_self) (keyOf_messageInsert hnow)), ?_⟩
  simp [messageInsert, insertMessage, Statement.write]

/-- The other rows are as before. -/
theorem messagePartition_of_ne (hnow : DateTime.ofMicros (e.timestamp * 1000000) = some now)
    (h : ∀ st ∈ messageWrites now e, st.accepted schema) {bucket : String} {rest : List Cell}
    (hne : ¬(bucketOf e = some bucket ∧ clusteringKey e = rest)) :
    messagePartition (perform (Database.apply schema) db (messageWrites now e)) e.conversation_id
      bucket rest = messagePartition db e.conversation_id bucket rest := by
  refine (messages_messageWrites _).trans
    (Database.apply_of_key_ne (h _ List.mem_cons_self) (keyOf_messageInsert hnow) fun heq => hne ?_)
  simp only [List.cons.injEq, Cell.text.injEq, true_and] at heq
  exact ⟨(bucketOf_eq hnow).trans (heq.1 ▸ rfl), heq.2.symm⟩

/-- The preview makes a row of the conversation, if there is none. -/
theorem conversationRow_messageWrites (h : ∀ st ∈ messageWrites now e, st.accepted schema) :
    (conversationRow (perform (Database.apply schema) db (messageWrites now e))
      e.conversation_id).isSome := by
  have hpreview := h _ (List.mem_cons_of_mem _ List.mem_cons_self)
  have hkey : (schema .conversations).keyOf (messagePreview now e).bound =
      some [.text e.conversation_id] := by
    simp [messagePreview, updatePreview, Statement.bound, TableSchema.keyOf, TableSchema.key,
      schema, List.lookup_cons, Option.filter_some]
  rw [messageWrites, perform_cons, perform_cons, perform_cons, perform_nil]
  have hne : Table.conversations ≠ .unreadCounters := by decide
  exact Option.isSome_of_eq_some
    ((apply_messageUnread hne _).trans (Database.apply_self _ hpreview hkey))

/-- **One message more.** -/
theorem Stored.message {events : List IncomingMessageEvent}
    (hs : Stored old db e.conversation_id events)
    (hnow : DateTime.ofMicros (e.timestamp * 1000000) = some now)
    (h : ∀ st ∈ messageWrites now e, st.accepted schema) :
    Stored old (perform (Database.apply schema) db (messageWrites now e)) e.conversation_id
      (events ++ [e]) where
  rows bucket rest := by
    by_cases hmine : bucketOf e = some bucket ∧ clusteringKey e = rest
    · obtain ⟨hb, rfl⟩ := hmine
      obtain rfl := Option.some.inj ((bucketOf_eq hnow).symm.trans hb)
      obtain ⟨row, hrow, -⟩ := messagePartition_self db hnow h
      exact iff_of_true (Option.isSome_of_eq_some hrow) (Or.inr ⟨e, by simp, hb, rfl⟩)
    · rw [messagePartition_of_ne hnow h hmine, hs.rows bucket rest]
      refine or_congr_right ?_
      constructor
      · rintro ⟨f, hf, heq⟩
        exact ⟨f, List.mem_append_left _ hf, heq⟩
      · rintro ⟨f, hf, heq⟩
        rcases List.mem_append.mp hf with hf | hf
        · exact ⟨f, hf, heq⟩
        · obtain rfl := List.mem_singleton.mp hf
          exact absurd heq hmine
  id bucket rest row hrow := by
    by_cases hmine : bucketOf e = some bucket ∧ clusteringKey e = rest
    · obtain ⟨hb, rfl⟩ := hmine
      obtain rfl := Option.some.inj ((bucketOf_eq hnow).symm.trans hb)
      obtain ⟨row', hrow', hid⟩ := messagePartition_self db hnow h
      obtain rfl := Option.some.inj (hrow.symm.trans hrow')
      exact hid
    · rw [messagePartition_of_ne hnow h hmine] at hrow
      exact hs.id bucket rest row hrow
  conversation _ := conversationRow_messageWrites h

end Message

/-- **Some messages.** -/
theorem Stored.persistMessages {old db db' : Database Table} {c : String}
    {done events : List IncomingMessageEvent} (hs : Stored old db c done)
    (hc : ∀ e ∈ events, e.conversation_id = c)
    (h : Persistence.persistMessages db events = some db') :
    Stored old db' c (done ++ events) := by
  induction events generalizing db done with
  | nil =>
    obtain rfl := Option.some.inj h
    rwa [List.append_nil]
  | cons e events ih =>
    obtain ⟨now, hnow, haccepted, h⟩ := persistMessages_cons h
    obtain ⟨rfl, hc⟩ := List.forall_mem_cons.mp hc
    have hnext := ih (hs.message hnow haccepted) hc h
    rwa [List.append_assoc] at hnext

theorem Fresh.stored {db : Database Table} {c : String} {events : List IncomingMessageEvent}
    (h : Fresh db c events) : Stored db db c [] where
  rows bucket rest := by simp
  id := h.id
  conversation hne := absurd rfl hne

/-! ### What is shown -/

theorem padded_two_ne_empty (n : ℤ) : DateTime.padded 2 n ≠ "" := by
  intro h
  have hlength := congrArg String.length h
  rw [DateTime.padded, String.length_append, String.length_pushn, String.length_empty] at hlength
  omega

/-- A bucket is not the empty text, which the API would take for none. -/
theorem strftime_ne_empty (t : DateTime) : t.strftime ≠ "" := by
  intro h
  rw [DateTime.strftime, String.append_eq_empty_iff] at h
  exact padded_two_ne_empty _ h.2

/-- With a limit not below their number, the rows of the bucket are shown as they are scanned. -/
theorem getMessages_eq {scan : (List Cell → Option Row) → List Row} {now : DateTime}
    {bots : List Bot} {admin_id c bucket : String} {db : Database Table} {limit : ℕ}
    {data : List MessageResponse} (hb : bucket ≠ "")
    (hlimit : (scan (messagePartition db c bucket)).length ≤ limit)
    (h : getMessages scan now bots admin_id db c (some bucket) limit = .ok data) :
    data = (scan (messagePartition db c bucket)).map .ofRow := by
  have htruthy : truthy (some bucket) = some bucket := by simp [truthy, Option.filter_some, hb]
  rw [eq_of_getMessages h]
  simp only [bucketsToQuery, htruthy, collectMessages, List.nil_append, List.length_nil,
    Nat.sub_zero, List.take_of_length_le hlimit, ite_self]
  exact List.take_of_length_le (by rwa [List.length_map])

/-- Somebody may read a conversation that is there. -/
theorem exists_getMessages_eq_ok (scan : (List Cell → Option Row) → List Row) {c : String}
    {db : Database Table} (h : (conversationRow db c).isSome) (now : DateTime) (bucket : String)
    (limit : ℕ) : ∃ bots admin_id data,
      getMessages scan now bots admin_id db c (some bucket) limit = .ok data := by
  obtain ⟨row, hrow⟩ := Option.isSome_iff_exists.mp h
  by_cases htagged : TaggedRow row
  · obtain ⟨b, -, hbot⟩ := htagged
    -- the admin of the bot
    have hrefuses : refuses (getAdminBotIds [⟨b, "", "", true⟩] "") row = false := by
      simp [refuses, hbot, getAdminBotIds]
    have hok : ∀ data : Row → List MessageResponse,
        withAccess [⟨b, "", "", true⟩] "" db c data = .ok (data row) := by
      intro data
      rw [withAccess, hrow]
      exact if_neg (by rw [hrefuses]; exact Bool.false_ne_true)
    exact ⟨_, _, _, hok _⟩
  · exact ⟨[], "", _, ok_of_not_tagged hrow htagged⟩

/-- Each row is shown under the id of its key. -/
theorem map_id_filterMap {partition : List Cell → Option Row} {keys : List (List Cell)}
    (hsome : ∀ key ∈ keys, (partition key).isSome)
    (hid : ∀ key row, partition key = some row → row.lookup "message_id" = key[1]?) :
    (keys.filterMap partition).map (fun row => row.lookup "message_id") =
      keys.map fun key => key[1]? := by
  induction keys with
  | nil => rfl
  | cons key keys ih =>
    obtain ⟨hkey, hkeys⟩ := List.forall_mem_cons.mp hsome
    obtain ⟨row, hrow⟩ := Option.isSome_iff_exists.mp hkey
    rw [List.filterMap_cons_some hrow, List.map_cons, List.map_cons, hid key row hrow, ih hkeys]

/-- **What is shown of the messages**: their ids, in the order of their keys. -/
theorem Stored.exists_keys {old db : Database Table} {c bucket : String}
    {events : List IncomingMessageEvent} (hs : Stored old db c events) (hfresh : Fresh old c events)
    {rows : List Row} (hrows : Lists keyBefore (messagePartition db c bucket) rows) :
    ∃ keys : List (List Cell), keys.Pairwise keyBefore ∧
      (∀ key, key ∈ keys ↔ ∃ e ∈ events, bucketOf e = some bucket ∧ clusteringKey e = key) ∧
      (rows.map fun row => row.lookup "message_id").filter (· ∈ events.map shownId) =
        keys.map fun key => key[1]? := by
  obtain ⟨keys, hsorted, hmem, rfl⟩ := hrows
  refine ⟨keys.filter fun key => key[1]? ∈ events.map shownId, hsorted.filter _, ?_, ?_⟩
  · intro key
    rw [List.mem_filter, hmem, hs.rows, decide_eq_true_eq, List.mem_map]
    constructor
    · rintro ⟨hold | hnew, e, he, hid⟩
      · exact absurd hid.symm (hfresh.other bucket key hold e he)
      · exact hnew
    · rintro ⟨e, he, hb, rfl⟩
      exact ⟨Or.inr ⟨e, he, hb, rfl⟩, e, he, rfl⟩
  · rw [map_id_filterMap (fun key hkey => (hmem key).mp hkey) (hs.id bucket), List.filter_map]
    rfl

/-! ### The exact statement -/

/-- In the same second the order is that of the ids. -/
def SecondsInOrder (events : List IncomingMessageEvent) : Prop :=
  events.Pairwise fun e f => e.timestamp = f.timestamp → e.message_id < f.message_id

theorem keyBefore_clusteringKey {e f : IncomingMessageEvent} :
    keyBefore (clusteringKey e) (clusteringKey f) ↔ e.timestamp < f.timestamp ∨
      e.timestamp = f.timestamp ∧ e.message_id < f.message_id := by
  simp [clusteringKey, keyBefore, Cell.before]

section Order

variable {old db : Database Table} {c : String} {events : List IncomingMessageEvent}
  {scan : (List Cell → Option Row) → List Row}

/-- Messages in order of their ids are shown in order. -/
theorem SecondsInOrder.inOrder (h : SecondsInOrder events)
    (htime : events.Pairwise fun e f => e.timestamp ≤ f.timestamp)
    (hs : Stored old db c events) (hfresh : Fresh old c events)
    (hscan : ∀ bucket, Lists keyBefore (messagePartition db c bucket)
      (scan (messagePartition db c bucket))) : InOrder scan db c events := by
  intro now bots admin_id bucket limit data hb hlimit hdata
  obtain ⟨keys, hsorted, hmem, hshown⟩ := hs.exists_keys hfresh (hscan bucket)
  have heq : keys = (events.filter fun e => bucketOf e = some bucket).map clusteringKey := by
    refine eq_of_pairwise hsorted ?_ fun key => ?_
    · refine List.pairwise_map.mpr (((htime.and h).filter _).imp fun {e f} hef => ?_)
      exact keyBefore_clusteringKey.mpr (hef.1.lt_or_eq.imp_right fun heq => ⟨heq, hef.2 heq⟩)
    · simp [hmem, and_assoc]
  rw [getMessages_eq hb hlimit hdata, List.map_map]
  rw [heq, List.map_map] at hshown
  exact hshown

/-- Two messages of one second are shown in the order of their ids. -/
theorem InOrder.secondsInOrder (h : InOrder scan db c events) (hs : Stored old db c events)
    (hfresh : Fresh old c events) (hnodup : (events.map IncomingMessageEvent.message_id).Nodup)
    (hbucket : ∀ e ∈ events, (bucketOf e).isSome)
    (hscan : ∀ bucket, Lists keyBefore (messagePartition db c bucket)
      (scan (messagePartition db c bucket))) : SecondsInOrder events := by
  refine List.pairwise_iff_forall_sublist.mpr fun {e f} hsub heq => ?_
  have he : e ∈ events := hsub.mem List.mem_cons_self
  have hf : f ∈ events := hsub.mem (List.mem_cons_of_mem _ List.mem_cons_self)
  obtain ⟨bucket, hb⟩ := Option.isSome_iff_exists.mp (hbucket e he)
  have hb' : bucketOf f = some bucket := by rw [← hb, bucketOf, bucketOf, heq]
  obtain ⟨t, -, ht⟩ := Option.map_eq_some_iff.mp hb
  have hne : bucket ≠ "" := ht ▸ strftime_ne_empty t
  have hrow : (conversationRow db c).isSome := hs.conversation (List.ne_nil_of_mem he)
  obtain ⟨bots, admin_id, data, hdata⟩ := exists_getMessages_eq_ok scan hrow .noon bucket
    (scan (messagePartition db c bucket)).length
  have hshown := h _ bots admin_id bucket _ data hne le_rfl hdata
  obtain ⟨keys, hsorted, hmem, hkeys⟩ := hs.exists_keys hfresh (hscan bucket)
  rw [getMessages_eq hne le_rfl hdata, List.map_map] at hshown
  have hids : (keys.map fun key => key[1]?) =
      (events.filter fun e => bucketOf e = some bucket).map shownId := hkeys.symm.trans hshown
  have htwo : List.Sublist [shownId e, shownId f] (keys.map fun key => key[1]?) := by
    have hfilter := hsub.filter fun e => decide (bucketOf e = some bucket)
    rw [List.filter_cons_of_pos (by simp [hb]), List.filter_cons_of_pos (by simp [hb'])] at hfilter
    exact hids ▸ hfilter.map shownId
  obtain ⟨pair, hpair, heq'⟩ := List.sublist_map_iff.mp htwo
  -- and so are their keys among the keys
  have hkey : ∀ {g : IncomingMessageEvent} {key : List Cell}, g ∈ events → key ∈ keys →
      shownId g = key[1]? → key = clusteringKey g := by
    intro g key hg hmemkey hid
    obtain ⟨g', hg', -, rfl⟩ := (hmem key).mp hmemkey
    have hidEq : g.message_id = g'.message_id := by simpa [shownId, clusteringKey] using hid
    rw [List.inj_on_of_nodup_map hnodup hg hg' hidEq]
  obtain ⟨k, k', rfl⟩ := List.length_eq_two.mp (by simpa using (congrArg List.length heq').symm)
  obtain ⟨hid, hid'⟩ : shownId e = k[1]? ∧ shownId f = k'[1]? := by simpa using heq'
  have hbefore : keyBefore k k' := List.pairwise_pair.mp (hsorted.sublist hpair)
  rw [hkey he (hpair.mem List.mem_cons_self) hid,
    hkey hf (hpair.mem (List.mem_cons_of_mem _ List.mem_cons_self)) hid',
    keyBefore_clusteringKey] at hbefore
  exact (hbefore.resolve_left (heq ▸ lt_irrefl _)).2

end Order

variable {p : Parsing} {session : Session} {sent : List Sent} {events : List IncomingMessageEvent}
  {db db' : Database Table} {scan : (List Cell → Option Row) → List Row}

/-- A message that is persisted has a bucket. -/
theorem bucketOf_isSome (h : persistMessages db events = some db') :
    ∀ e ∈ events, (bucketOf e).isSome := by
  induction events generalizing db with
  | nil => exact fun e he => absurd he List.not_mem_nil
  | cons e events ih =>
    obtain ⟨now, hnow, -, h⟩ := persistMessages_cons h
    exact List.forall_mem_cons.mpr ⟨Option.isSome_of_eq_some (bucketOf_eq hnow), ih h⟩

theorem AcceptedMessage.conversation
    (h : List.Forall₂ (AcceptedMessage p session) sent events) :
    ∀ e ∈ events, e.conversation_id = session.conversation_id := by
  induction h with
  | nil => exact fun e he => absurd he List.not_mem_nil
  | cons haccepted _ ih => exact List.forall_mem_cons.mpr ⟨haccepted.conversation_id, ih⟩

theorem AcceptedMessage.timestamps
    (h : List.Forall₂ (AcceptedMessage p session) sent events) :
    events.map IncomingMessageEvent.timestamp = sent.map Sent.timestamp := by
  induction h with
  | nil => rfl
  | cons haccepted _ ih => rw [List.map_cons, List.map_cons, haccepted.timestamp, ih]

/-- **History order is sending order exactly if in no second the ids disagree.** The messages have
been accepted from one socket and persisted without failure, the stamps do not decrease, and the
ids are distinct. -/
theorem in_order_iff (haccepted : List.Forall₂ (AcceptedMessage p session) sent events)
    (htime : sent.Pairwise fun s s' => s.timestamp ≤ s'.timestamp)
    (hnodup : (events.map IncomingMessageEvent.message_id).Nodup)
    (hfresh : Fresh db session.conversation_id events)
    (hpersist : persistMessages db events = some db')
    (hscan : ∀ bucket, Lists keyBefore (messagePartition db' session.conversation_id bucket)
      (scan (messagePartition db' session.conversation_id bucket))) :
    InOrder scan db' session.conversation_id events ↔ SecondsInOrder events := by
  have hs := hfresh.stored.persistMessages (AcceptedMessage.conversation haccepted) hpersist
  rw [List.nil_append] at hs
  constructor
  · exact fun h => h.secondsInOrder hs hfresh hnodup (bucketOf_isSome hpersist) hscan
  · intro h
    have htimes := List.pairwise_map.mpr htime
    rw [← AcceptedMessage.timestamps haccepted, List.pairwise_map] at htimes
    exact h.inOrder htimes hs hfresh hscan

/-! ### Two messages of one second -/

def sentMessage (id : String) : Sent where
  uuid := "u"
  timestamp := 0
  data := ([⟨"message_id", .str id⟩, ⟨"message", .str "hi"⟩] : List (Σ _ : String, Json)).toAList

def messageEvent (id : String) : IncomingMessageEvent where
  conversation_id := "c"
  message_id := id
  user_id := "u1"
  bot_id := ""
  message := "hi"
  timestamp := 0
  seq := 0

theorem acceptedMessage_messageEvent (p : Parsing) (id : String) :
    AcceptedMessage p ⟨"c", "u1", ""⟩ (sentMessage id) (messageEvent id) where
  event := rfl
  conversation_id := rfl
  timestamp := rfl

theorem fresh_empty (c : String) (events : List IncomingMessageEvent) :
    Fresh Database.empty c events where
  id _ _ _ h := absurd h nofun
  other _ _ h := absurd h nofun

/-- A scan of the partitions that have rows of two messages only. -/
def scanTwo (id id' : String) (partition : List Cell → Option Row) : List Row :=
  [clusteringKey (messageEvent id), clusteringKey (messageEvent id')].filterMap partition

theorem lists_scanTwo (id id' : String) {db : Database Table}
    {events : List IncomingMessageEvent} (hlt : id < id') (hs : Stored Database.empty db "c" events)
    (hmem : ∀ e ∈ events, e = messageEvent id ∨ e = messageEvent id') (bucket : String) :
    Lists keyBefore (messagePartition db "c" bucket)
      (scanTwo id id' (messagePartition db "c" bucket)) := by
  refine lists_filterMap (List.pairwise_pair.mpr ?_) fun key hkey => ?_
  · exact keyBefore_clusteringKey.mpr (Or.inr ⟨rfl, hlt⟩)
  · obtain hold | ⟨e, he, -, rfl⟩ := (hs.rows bucket key).mp hkey
    · exact absurd hold nofun
    · obtain rfl | rfl := hmem e he
      · exact List.mem_cons_self
      · exact List.mem_cons_of_mem _ List.mem_cons_self

/-- Two messages that are sent in the order of their ids. -/
theorem in_order_iff_two : ∃ db' : Database Table,
    persistMessages Database.empty [messageEvent "a", messageEvent "b"] = some db' ∧
    (InOrder (scanTwo "a" "b") db' "c" [messageEvent "a", messageEvent "b"] ↔
      SecondsInOrder [messageEvent "a", messageEvent "b"]) := by
  have hsome : (persistMessages Database.empty [messageEvent "a", messageEvent "b"]).isSome := rfl
  obtain ⟨db', hdb'⟩ := Option.isSome_iff_exists.mp hsome
  have haccepted : List.Forall₂ (AcceptedMessage ⟨fun _ => none⟩ ⟨"c", "u1", ""⟩)
      [sentMessage "a", sentMessage "b"] [messageEvent "a", messageEvent "b"] :=
    .cons (acceptedMessage_messageEvent _ _) (.cons (acceptedMessage_messageEvent _ _) .nil)
  have hfresh := fresh_empty "c" [messageEvent "a", messageEvent "b"]
  have hs := hfresh.stored.persistMessages (AcceptedMessage.conversation haccepted) hdb'
  refine ⟨db', hdb', in_order_iff haccepted ?_ ?_ hfresh hdb' (lists_scanTwo _ _ ?_ hs ?_)⟩
  · exact List.pairwise_pair.mpr le_rfl
  · decide
  · decide
  · simp

/-- **The history is not in the order of sending**: two messages of one second, the first with the
greater id. -/
theorem not_in_order : ∃ (p : Parsing) (session : Session) (sent : List Sent)
    (events : List IncomingMessageEvent) (db' : Database Table)
    (scan : (List Cell → Option Row) → List Row),
    List.Forall₂ (AcceptedMessage p session) sent events ∧
    (sent.Pairwise fun s s' => s.timestamp ≤ s'.timestamp) ∧
    (events.map IncomingMessageEvent.message_id).Nodup ∧
    Fresh Database.empty session.conversation_id events ∧
    persistMessages Database.empty events = some db' ∧
    (∀ bucket, Lists keyBefore (messagePartition db' session.conversation_id bucket)
      (scan (messagePartition db' session.conversation_id bucket))) ∧
    ¬InOrder scan db' session.conversation_id events := by
  have hsome : (persistMessages Database.empty [messageEvent "b", messageEvent "a"]).isSome := rfl
  obtain ⟨db', hdb'⟩ := Option.isSome_iff_exists.mp hsome
  have haccepted : List.Forall₂ (AcceptedMessage ⟨fun _ => none⟩ ⟨"c", "u1", ""⟩)
      [sentMessage "b", sentMessage "a"] [messageEvent "b", messageEvent "a"] :=
    .cons (acceptedMessage_messageEvent _ _) (.cons (acceptedMessage_messageEvent _ _) .nil)
  have hfresh := fresh_empty "c" [messageEvent "b", messageEvent "a"]
  have hs := hfresh.stored.persistMessages (AcceptedMessage.conversation haccepted) hdb'
  have hscan := lists_scanTwo "a" "b" (by decide) hs (by simp)
  have hnodup : ([messageEvent "b", messageEvent "a"].map
    IncomingMessageEvent.message_id).Nodup := by decide
  refine ⟨_, _, _, _, db', scanTwo "a" "b", haccepted, List.pairwise_pair.mpr le_rfl, hnodup,
    hfresh, hdb', hscan, fun h => ?_⟩
  have hseconds := h.secondsInOrder hs hfresh hnodup (bucketOf_isSome hdb') hscan
  exact absurd (List.pairwise_pair.mp hseconds rfl) (by decide)

end Persistence

end TitanChat
