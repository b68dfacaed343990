import TitanChat.DayBuckets
import TitanChat.Internal.Blocks
import TitanChat.WrittenMessages

/-!
# A page of the history

Without a bucket, `get_messages` reads seven days, and each of them with what is left of the limit.
So a page is the beginning of the seven days put together. Each day is read from its first message
on, but the days from the newest to the oldest. A page with messages of two days is therefore not in
the order of time, and one that ends within an older day has its first messages and not its last.

## Main definitions

* `dayRows`: the messages of a day
* `DayBucketed`: each message is in the bucket of its own day
* `Chronological`: the property
* `NewestFills`: the condition

## Main results

* `collectMessages_eq`, `getMessages_none_eq`: what a page is
* `chronological_iff`: the exact statement
-/

namespace TitanChat

open WideColumn Handlers Persistence

/-! ### What a page is -/

section Page

variable {scan : (List Cell → Option Row) → List Row} {db : Database Table} {c : String}

/-- The loop with its shrinking limit reads the beginning of the buckets put together. -/
theorem collectMessages_eq {limit : ℕ} {messages : List MessageResponse}
    (h : messages.length ≤ limit) (buckets : List String) :
    collectMessages scan db c limit buckets messages =
      (messages ++ (buckets.flatMap fun b => scan (messagePartition db c b)).map
        MessageResponse.ofRow).take limit := by
  induction buckets generalizing messages with
  | nil => rw [collectMessages, List.flatMap_nil, List.map_nil, List.append_nil,
      List.take_of_length_le h]
  | cons b buckets ih =>
    have hmore : messages ++ ((scan (messagePartition db c b)).take (limit - messages.length)).map
        MessageResponse.ofRow =
          (messages ++ (scan (messagePartition db c b)).map MessageResponse.ofRow).take limit := by
      rw [List.take_append, List.take_of_length_le h, List.map_take]
    rw [List.flatMap_cons, List.map_append, ← List.append_assoc]
    simp only [collectMessages, hmore]
    split
    · next hfull =>
      rw [List.length_take] at hfull
      exact (List.take_append_of_le_length (by omega)).symm
    · next hroom =>
      rw [List.length_take] at hroom
      have hshort : (messages ++ (scan (messagePartition db c b)).map
          MessageResponse.ofRow).length ≤ limit := by omega
      rw [List.take_of_length_le hshort, ih hshort]

/-- The messages of the day of `t`, all of them. -/
def dayRows (scan : (List Cell → Option Row) → List Row) (db : Database Table) (c : String)
    (t : DateTime) : List Row :=
  scan (messagePartition db c t.strftime)

/-- **A page** is the beginning of the seven days, the newest first. -/
theorem getMessages_none_eq {now : DateTime} {bots : List Bot} {admin_id : String} {limit : ℕ}
    {data : List MessageResponse}
    (h : getMessages scan now bots admin_id db c none limit = .ok data) :
    data = (((daysBack now).flatMap (dayRows scan db c)).take limit).map .ofRow := by
  rw [eq_of_getMessages h, collectMessages_eq (Nat.zero_le limit), List.nil_append,
    List.take_take, min_self, List.map_take, bucketsToQuery_none, List.flatMap_map]
  rfl

end Page

/-! ### The property -/

/-- The time of a message that is shown. -/
def MessageResponse.millis (m : MessageResponse) : Option ℤ :=
  match m.created_at with
  | some (.timestamp ms) => some ms
  | _ => none

/-- The times of the two messages are in order. -/
def NotAfter (m m' : MessageResponse) : Prop :=
  ∃ s t, m.millis = some s ∧ m'.millis = some t ∧ s ≤ t

/-- And they differ. -/
def Before (m m' : MessageResponse) : Prop :=
  ∃ s t, m.millis = some s ∧ m'.millis = some t ∧ s < t

/-- **A page is chronological and has no holes.** -/
structure Chronological (db : Database Table) (c : String) (data : List MessageResponse) :
    Prop where
  ascending : data.Pairwise NotAfter
  contiguous : ∀ bucket rest row, messagePartition db c bucket rest = some row →
    ∀ a ∈ data, ∀ b ∈ data, Before a (.ofRow row) → Before (.ofRow row) b → .ofRow row ∈ data

/-- Each message is in the bucket of the day of its own time, which is a part of its key. -/
def DayBucketed (db : Database Table) (c : String) : Prop :=
  ∀ bucket rest row, messagePartition db c bucket rest = some row →
    ∃ (t : DateTime) (id : String), bucket = t.strftime ∧ rest = [t.cell, .text id] ∧
      row.lookup "created_at" = some t.cell

/-- **The condition.** The newest of the seven days that has messages has at least as many as the
limit, or it is the only one that has. -/
def NewestFills (scan : (List Cell → Option Row) → List Row) (db : Database Table) (c : String)
    (limit : ℕ) (now : DateTime) : Prop :=
  Blocks.FirstFills (dayRows scan db c) limit (daysBack now)

/-! ### The order of the days -/

section Days

variable {scan : (List Cell → Option Row) → List Row} {db : Database Table} {c : String}
  {t : DateTime}

theorem millis_of_lookup {row : Row} (h : row.lookup "created_at" = some t.cell) :
    (MessageResponse.ofRow row).millis = some (t.micros / 1000) := by
  rw [MessageResponse.millis, MessageResponse.ofRow, h]
  rfl

theorem notAfter_iff {m m' : MessageResponse} {s s' : ℤ} (h : m.millis = some s)
    (h' : m'.millis = some s') : NotAfter m m' ↔ s ≤ s' := by
  simp [NotAfter, h, h']

theorem before_iff {m m' : MessageResponse} {s s' : ℤ} (h : m.millis = some s)
    (h' : m'.millis = some s') : Before m m' ↔ s < s' := by
  simp [Before, h, h']

theorem day_eq (t : DateTime) : t.day = t.micros / 1000 / 86400000 := by
  rw [DateTime.day]
  omega

/-- A message of a day has its time on this day. -/
theorem exists_time_of_mem_dayRows (hdays : DayBucketed db c)
    (hscan : ∀ bucket, Lists keyBefore (messagePartition db c bucket)
      (scan (messagePartition db c bucket))) {row : Row} (hrow : row ∈ dayRows scan db c t) :
    ∃ ms, (MessageResponse.ofRow row).millis = some ms ∧ ms / 86400000 = t.day := by
  obtain ⟨key, hkey⟩ := (hscan t.strftime).mem_iff.mp hrow
  obtain ⟨u, id, hbucket, -, htime⟩ := hdays _ _ _ hkey
  refine ⟨u.micros / 1000, millis_of_lookup htime, ?_⟩
  rw [← day_eq, DateTime.strftime_eq_iff.mp hbucket]

/-- The messages of a day are in order. -/
theorem dayRows_pairwise (hdays : DayBucketed db c)
    (hscan : ∀ bucket, Lists keyBefore (messagePartition db c bucket)
      (scan (messagePartition db c bucket))) (t : DateTime) :
    (dayRows scan db c t).Pairwise fun row row' => NotAfter (.ofRow row) (.ofRow row') := by
  obtain ⟨keys, hsorted, -, hrows⟩ := hscan t.strftime
  rw [dayRows, hrows, List.pairwise_filterMap]
  refine hsorted.imp fun {key key'} hbefore => ?_
  intro row hrow row' hrow'
  obtain ⟨u, id, -, rfl, htime⟩ := hdays _ _ _ hrow
  obtain ⟨u', id', -, rfl, htime'⟩ := hdays _ _ _ hrow'
  rw [notAfter_iff (millis_of_lookup htime) (millis_of_lookup htime')]
  simp only [keyBefore, DateTime.cell, Cell.before, Cell.timestamp.injEq] at hbefore
  omega

/-- A message between two of a day is a message of this day, before the second. -/
theorem between_of_mem_dayRows (hdays : DayBucketed db c)
    (hscan : ∀ bucket, Lists keyBefore (messagePartition db c bucket)
      (scan (messagePartition db c bucket))) {bucket : String} {rest : List Cell}
    {row rowa rowb : Row} (hrow : messagePartition db c bucket rest = some row)
    (ha : rowa ∈ dayRows scan db c t) (hb : rowb ∈ dayRows scan db c t)
    (hab : Before (.ofRow rowa) (.ofRow row)) (hbb : Before (.ofRow row) (.ofRow rowb)) :
    row ∈ dayRows scan db c t ∧ ¬NotAfter (.ofRow rowb) (.ofRow row) := by
  obtain ⟨ms, hms, hday⟩ := exists_time_of_mem_dayRows hdays hscan ha
  obtain ⟨ms', hms', hday'⟩ := exists_time_of_mem_dayRows hdays hscan hb
  obtain ⟨u, id, rfl, -, htime⟩ := hdays _ _ _ hrow
  have hmine := millis_of_lookup htime
  rw [before_iff hms hmine] at hab
  rw [before_iff hmine hms'] at hbb
  have hsame : u.day = t.day := by
    rw [day_eq]
    omega
  constructor
  · rw [dayRows, ← DateTime.strftime_eq_iff.mpr hsame]
    exact (hscan u.strftime).mem_iff.mpr ⟨rest, hrow⟩
  · rw [notAfter_iff hms' hmine]
    omega

/-- **A page is chronological and has no holes exactly if the newest day that has messages fills it,
or is the only one.** -/
theorem chronological_iff {now : DateTime} {bots : List Bot} {admin_id : String} {limit : ℕ}
    {data : List MessageResponse} (hdays : DayBucketed db c)
    (hscan : ∀ bucket, Lists keyBefore (messagePartition db c bucket)
      (scan (messagePartition db c bucket)))
    (hdata : getMessages scan now bots admin_id db c none limit = .ok data) :
    Chronological db c data ↔ NewestFills scan db c limit now := by
  obtain rfl := getMessages_none_eq hdata
  have hblock : ∀ t ∈ daysBack now, (dayRows scan db c t).Pairwise
      fun row row' => NotAfter (.ofRow row) (.ofRow row') :=
    fun t _ => dayRows_pairwise hdays hscan t
  have hdesc : (daysBack now).Pairwise fun t u => ∀ row ∈ dayRows scan db c t,
      ∀ row' ∈ dayRows scan db c u, ¬NotAfter (.ofRow row) (.ofRow row') := by
    refine (daysBack_pairwise now).imp fun {t u} hlt row hrow row' hrow' => ?_
    obtain ⟨ms, hms, hday⟩ := exists_time_of_mem_dayRows hdays hscan hrow
    obtain ⟨ms', hms', hday'⟩ := exists_time_of_mem_dayRows hdays hscan hrow'
    rw [notAfter_iff hms hms']
    omega
  have hascending := Blocks.pairwise_take_iff (n := limit) hblock hdesc
  constructor
  · intro h
    exact hascending.mp (List.pairwise_map.mp h.ascending)
  · intro h
    refine ⟨List.pairwise_map.mpr (hascending.mpr h), ?_⟩
    intro bucket rest row hrow a ha b hb hab hbb
    obtain heq | ⟨t, -, heq⟩ := h.take_eq
    · rw [heq] at ha
      exact absurd ha List.not_mem_nil
    · rw [heq] at ha hb ⊢
      obtain ⟨rowa, hrowa, rfl⟩ := List.mem_map.mp ha
      obtain ⟨rowb, hrowb, rfl⟩ := List.mem_map.mp hb
      obtain ⟨hmem, hbefore⟩ := between_of_mem_dayRows hdays hscan hrow
        (List.mem_of_mem_take hrowa) (List.mem_of_mem_take hrowb) hab hbb
      exact List.mem_map.mpr
        ⟨row, Blocks.mem_take_of_not (dayRows_pairwise hdays hscan t) hrowb hmem hbefore, rfl⟩

end Days

/-! ### Two days -/

/-- The writer puts each message into the bucket of its own day. -/
theorem Persistence.WrittenBy.dayBucketed {db : Database Table} {c : String}
    {calls : List MessageCall} (h : WrittenBy db c calls) : DayBucketed db c := by
  intro bucket rest row hrow
  obtain ⟨call, -, -, ⟨now, id, hnow, -, -, rfl, rfl⟩, hshown⟩ := h.row bucket rest row hrow
  refine ⟨now, id, rfl, rfl, ?_⟩
  have hcreated := congrArg MessageResponse.created_at hshown
  rwa [MessageResponse.ofPayload, hnow] at hcreated

/-- The record of a message with an id and a time. -/
def messageRecord (id : String) (timestamp : ℤ) : Dict Json :=
  dictOf (incomingMessageRecord { messageEvent id with timestamp := timestamp })

/-- A message of the first day of 1970 and one of the second. -/
def twoDays : Database Table :=
  persistCalls .empty [⟨messageRecord "a" 0, []⟩, ⟨messageRecord "b" 86400, []⟩]

/-- The second day, at noon. -/
def nextNoon : DateTime := { micros := 129600000000, range := by decide }

/-- A scan for the rows of these keys. -/
def scanKeys (keys : List (List Cell)) (partition : List Cell → Option Row) : List Row :=
  keys.filterMap partition

def twoKeys : List (List Cell) :=
  [[.timestamp 0, .text "a"], [.timestamp 86400000, .text "b"]]

/-- Where the message of a record is. -/
theorem rest_of_messageAt {id c bucket : String} {timestamp : ℤ} {rest : List Cell}
    (h : MessageAt (messageRecord id timestamp) c bucket rest) :
    rest = [.timestamp (timestamp * 1000), .text id] := by
  obtain ⟨now, id', hnow, -, hid, -, rfl⟩ := h
  obtain rfl : id = id' := Cell.text.inj (Option.some.inj hid)
  rw [cell_of_ofMicros (t := timestamp) hnow]

theorem writtenBy_twoDays (c : String) : WrittenBy twoDays c
    [⟨messageRecord "a" 0, []⟩, ⟨messageRecord "b" 86400, []⟩] :=
  (WrittenBy.empty fun _ _ => rfl).persistCalls _

theorem lists_twoDays (c bucket : String) : Lists keyBefore (messagePartition twoDays c bucket)
    (scanKeys twoKeys (messagePartition twoDays c bucket)) := by
  have hsorted : twoKeys.Pairwise keyBefore :=
    List.pairwise_pair.mpr (by simp [keyBefore, Cell.before])
  refine lists_filterMap hsorted fun key hkey => ?_
  obtain ⟨call, hcall, -, hat⟩ := ((writtenBy_twoDays c).rows bucket key).mp hkey
  simp only [List.mem_cons, List.not_mem_nil, or_false] at hcall
  obtain rfl | rfl := hcall
  · rw [rest_of_messageAt hat]
    exact List.mem_cons_self
  · rw [rest_of_messageAt hat]
    exact List.mem_cons_of_mem _ List.mem_cons_self

/-- The page of the second day: its own message, and then the one of the day before. -/
theorem exists_page_twoDays : ∃ m m',
    getMessages (scanKeys twoKeys) nextNoon [] "" twoDays "c" none 50 = .ok [m, m'] ∧
      m.millis = some 86400000 ∧ m'.millis = some 0 := ⟨_, _, rfl, rfl, rfl⟩

theorem chronological_iff_twoDays : ∃ data,
    getMessages (scanKeys twoKeys) nextNoon [] "" twoDays "c" none 50 = .ok data ∧
    (Chronological twoDays "c" data ↔
      NewestFills (scanKeys twoKeys) twoDays "c" 50 nextNoon) := by
  obtain ⟨m, m', hdata, -⟩ := exists_page_twoDays
  exact ⟨[m, m'], hdata,
    chronological_iff (writtenBy_twoDays "c").dayBucketed (lists_twoDays "c") hdata⟩

/-- **A page is not chronological**: yesterday's message comes after today's. -/
theorem not_chronological : ∃ (scan : (List Cell → Option Row) → List Row) (now : DateTime)
    (bots : List Bot) (admin_id c : String) (db : Database Table) (limit : ℕ)
    (data : List MessageResponse), 1 ≤ limit ∧ limit ≤ 200 ∧ DayBucketed db c ∧
    (∀ bucket, Lists keyBefore (messagePartition db c bucket)
      (scan (messagePartition db c bucket))) ∧
    getMessages scan now bots admin_id db c none limit = .ok data ∧ ¬Chronological db c data := by
  obtain ⟨m, m', hdata, hm, hm'⟩ := exists_page_twoDays
  refine ⟨scanKeys twoKeys, nextNoon, [], "", "c", twoDays, 50, [m, m'], by decide, by decide,
    (writtenBy_twoDays "c").dayBucketed, lists_twoDays "c", hdata, fun h => ?_⟩
  have hle := (notAfter_iff hm hm').mp (List.pairwise_pair.mp h.ascending)
  omega

end TitanChat
