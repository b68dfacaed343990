import TitanChat.ConnectionManager
import TitanChat.ConsumerEffects

/-!
# What a push answers

`push_to_client` looks up the gateway of a conversation and posts the payload to it; `internal_push`
calls `send_message`, which looks up the socket, waits for its lock and sends. The answer is the
status code. Between the request and the response the gateway goes on with everything else that it
does, and the request or the response may be lost.

An answer of `True` is good: the payload has been written, once, to the socket that `send_message`
found. But the `try` begins after the two lookups. When Redis does not answer, the exception leaves
`push_to_client`, and the handler that called it.

## Main definitions

* `Request`: `internal_push` at work in a gateway, with what it has written and answered
* `Http`, `Exchange`: how the `POST` can end, and with what effect
* `pushOverHttp`: `push_to_client` with these requests
* `Answers`: the property
* `LookupsEnd`: the condition

## Main results

* `Request.writes_of_response`: what a 200 says
* `answers_iff`: the exact statement
-/

namespace TitanChat

namespace Gateway

/-! ### The gateway -/

/-- `internal_push` at work. -/
structure Request where
  state : State
  /-- The task of `send_message`; there is none if it returns at once. -/
  task : Option ℕ
  /-- The sockets on which a `send_json` of the payload has completed. -/
  writes : List Socket
  /-- The status code. -/
  response : Option ℕ

/-- The socket on which a `send_json` of `send_message` completes. -/
def Pc.writes : Pc → Reply → List Socket
  | .sending _ w _, .done => [w]
  | _, _ => []

/-- `send_message` raises at this await: `disconnect` does, in its `except`. -/
def Pc.raises : Pc → Reply → Bool
  | .unregistering _, .done | .reading _, .found _ | .offlining .., .done | .closing _, _ => false
  | _, _ => true

/-- `finished` is where the task goes next, or not. -/
def Pc.isFinished : Pc → Bool
  | .finished => true
  | _ => false

/-- The status code that is sent when the task goes on to `next`: 200 when `send_message` returns
`True`, 404 for `False`, and 500 when it raises. -/
def Pc.status (next : Pc) : Pc → Reply → Option ℕ
  | .sending .., .done => some 200
  | pc, r => if next.isFinished then some (if pc.raises r then 500 else 404) else none

namespace Request

/-- The request arrives: `send_message` up to its first await. -/
def arrive (s : State) (conversation_id : String) : Request :=
  match s.connections.lookup conversation_id, s.sendLocks.lookup conversation_id with
  | some _, some _ => ⟨s.sendMessage conversation_id, some s.created, [], none⟩
  | _, _ => ⟨s, none, [], some 404⟩

/-- The `send_json` of the payload completes. -/
def written (q : Request) : Action → List Socket
  | .answer t r => if q.task = some t then (q.state.tasks t).pc.writes r else []
  | _ => []

/-- The response that is sent in a step to `s'`. -/
def responds (q : Request) (s' : State) : Action → Option ℕ
  | .resume t =>
    if q.task = some t then
      (q.state.wakes t).bind fun r => Pc.status (s'.tasks t).pc (q.state.tasks t).pc r
    else none
  | _ => none

/-- One step of the gateway, of this request or of any other task. -/
def step (q : Request) (a : Action) : Option Request :=
  (Gateway.step q.state a).map fun s' =>
    { state := s'
      task := q.task
      writes := q.writes ++ q.written a
      response := q.response.or (q.responds s' a) }

end Request

/-! ### How far it has come -/

/-- The task of a push to `w`, what it has written and what has been answered. -/
inductive Progress (c : String) (w : Socket) (lock : ℕ) : Task → List Socket → Option ℕ → Prop
  | waiting : Progress c w lock ⟨.locking c w lock, none⟩ [] none
  | sending : Progress c w lock ⟨.sending c w lock, none⟩ [] none
  | sent : Progress c w lock ⟨.sending c w lock, some .done⟩ [w] none
  | failed {r : Reply} (h : r ≠ .done) : Progress c w lock ⟨.sending c w lock, some r⟩ [] none
  | cleaning {pc : Pc} {d : Cleanup} (inbox : Option Reply) (h : pc.cleanup = some d)
      (hafter : d.after = .release lock) : Progress c w lock ⟨pc, inbox⟩ [] none
  | delivered : Progress c w lock ⟨.finished, none⟩ [w] (some 200)
  | refused {code : ℕ} (h : code ≠ 200) : Progress c w lock ⟨.finished, none⟩ [] (some code)

/-- What holds of a request throughout: it has no task and has been refused, or it has come so
far. -/
inductive Request.Sound (s₀ : State) (c : String) (q : Request) : Prop
  | refused (task : q.task = none) (response : q.response = some 404)
  | running {w : Socket} {l t : ℕ} (stored : s₀.connections.lookup c = some w)
      (task : q.task = some t) (created : t < q.state.created)
      (progress : Progress c w l (q.state.tasks t) q.writes q.response)

section Step

variable {c : String} {w : Socket} {lock : ℕ} {s₀ s s' : State}

theorem Request.sound_arrive (s : State) (c : String) : (Request.arrive s c).Sound s c := by
  rw [Request.arrive]
  split
  · next w lock hw hlock =>
    simp only [State.sendMessage, hw, hlock]
    split
    · refine .running (l := lock) hw rfl (Nat.lt_succ_self _) ?_
      simp only [State.spawn, State.goto, Function.update_self]
      exact .waiting
    · refine .running (l := lock) hw rfl (Nat.lt_succ_self _) ?_
      simp only [State.spawn, State.goto, State.setLock, Function.update_self]
      exact .sending
  · exact .refused rfl rfl

variable {writes : List Socket} {response : Option ℕ}

/-- A cleanup is no answer until it returns, and then it is not 200. -/
theorem status_of_cleanup {pc next : Pc} {d : Cleanup} (hpc : pc.cleanup = some d) (r : Reply) :
    Pc.status next pc r =
      if next.isFinished then some (if pc.raises r then 500 else 404) else none := by
  cases pc with
  | unregistering | reading | offlining | closing => rfl
  | _ => cases hpc

/-- **The task goes on.** -/
theorem Progress.proceed {task : Task} {r : Reply} (h : Progress c w lock task writes response)
    (hr : task.inbox = some r ∨ ∃ c w lock, task.pc = .locking c w lock) :
    Progress c w lock ((Gateway.proceed s task.pc r).2.task (Gateway.proceed s task.pc r).1) writes
      (response.or (Pc.status
        ((Gateway.proceed s task.pc r).2.task (Gateway.proceed s task.pc r).1).pc task.pc r)) := by
  cases h with
  | waiting => exact .sending
  | sending => simp at hr
  | sent =>
    obtain rfl : Reply.done = r := by simpa using hr
    exact .delivered
  | @failed r' hne =>
    obtain rfl : r' = r := by simpa using hr
    cases r' with
    | done => exact absurd rfl hne
    | _ => exact .cleaning none rfl rfl
  | @cleaning pc d inbox hpc hafter =>
    rw [status_of_cleanup hpc]
    obtain ⟨s', pc', heq, hpc'⟩ | ⟨raised, heq⟩ := proceed_cleanup hpc r
    · rw [heq]
      cases pc' with
      | unregistering | reading | offlining | closing => exact .cleaning none hpc' hafter
      | _ => cases hpc'
    · rw [heq, hafter]
      refine .refused ?_
      split <;> decide
  | delivered => simp at hr
  | refused hne => simp at hr

/-- **An await ends.** -/
theorem Progress.answer {pc : Pc} {r : Reply} (h : Progress c w lock ⟨pc, none⟩ writes response)
    (hr : pc.admits r = true) :
    Progress c w lock ⟨pc, some (s.reply pc r)⟩ (writes ++ pc.writes r) response := by
  cases h with
  | waiting => cases r <;> cases hr
  | sending =>
    cases r with
    | done => exact .sent
    | raised => exact .failed (by simp [State.reply])
    | _ => cases hr
  | @cleaning pc d inbox hpc hafter =>
    cases pc with
    | unregistering | reading | offlining | closing => exact .cleaning _ hpc hafter
    | _ => cases hpc
  | delivered => cases r <;> cases hr
  | refused hne => cases r <;> cases hr

/-- **One step** of the gateway. -/
theorem Request.Sound.step {q q' : Request} {a : Action} (h : q.Sound s₀ c)
    (hs : Request.step q a = some q') : q'.Sound s₀ c := by
  obtain ⟨s', hstep, rfl⟩ := Option.map_eq_some_iff.mp hs
  cases h with
  | refused task response => exact .refused task (by simp [response])
  | @running w lock t stored task created progress =>
    refine .running (l := lock) stored task (created.trans_le (created_le_of_step hstep)) ?_
    by_cases hresume : a = .resume t
    · subst hresume
      obtain ⟨r, hr, htask⟩ := task_resume hstep
      have hnext := progress.proceed (s := q.state) (inbox_of_wakes hr)
      simpa [written, responds, task, hr, htask] using hnext
    · by_cases hanswer : ∃ r, a = .answer t r
      · obtain ⟨r, rfl⟩ := hanswer
        obtain ⟨hinbox, hadmits, htask⟩ := task_answer hstep
        have hawaits : q.state.tasks t = ⟨(q.state.tasks t).pc, none⟩ := by rw [← hinbox]
        rw [hawaits] at progress
        have hnext := progress.answer (s := q.state) hadmits
        simpa [written, responds, task, htask] using hnext
      · have htask := task_step_eq (Or.inl created) hresume (fun r heq => hanswer ⟨r, heq⟩) hstep
        have hwritten : q.written a = [] := by
          cases a with
          | answer u r =>
            have hne : t ≠ u := fun heq => hanswer ⟨r, by rw [heq]⟩
            simp [written, task, hne]
          | _ => rfl
        have hresponds : q.responds s' a = none := by
          cases a with
          | resume u =>
            have hne : t ≠ u := fun heq => hresume (by rw [heq])
            simp [responds, task, hne]
          | _ => rfl
        simp only [htask, hwritten, hresponds, List.append_nil, Option.or_none]
        exact progress

/-- **What a 200 says**: the payload has been written once, on the socket that was stored. -/
theorem Request.writes_of_response {q : Request} {as : List Action}
    (h : Transition.run Request.step (.arrive s c) as = some q) (hq : q.response = some 200) :
    ∃ w, s.connections.lookup c = some w ∧ q.writes = [w] := by
  have hsound : q.Sound s c := (Transition.always_of_invariant
    (I := fun q => Request.Sound s c q) (fun _ _ _ hs hstep => hs.step hstep)
    (Request.sound_arrive s c) as).run h
  cases hsound with
  | refused task response =>
    rw [response] at hq
    exact absurd hq (by decide)
  | @running w lock t stored task created progress =>
    refine ⟨w, stored, ?_⟩
    rw [hq] at progress
    generalize q.state.tasks t = task' at progress
    generalize q.writes = writes at progress ⊢
    cases progress with
    | delivered => rfl
    | refused hne => exact absurd rfl hne

end Step

end Gateway

/-! ### The push -/

open Gateway

/-- How the `POST` ends: it is answered, nobody listens, or another exception is raised. -/
inductive Http where
  | status (code : ℕ)
  | connectError
  | failed
  deriving DecidableEq

/-- What `push_to_client` returns then. -/
def Http.delivered : Http → Bool
  | .status code => code = 200
  | .connectError => false
  | .failed => false

/-- `push_to_client`, where `post` says how the request to a URL ends. -/
def pushOverHttp (env : Env) (conversation_id : String) (post : String → Http) : Act Bool :=
  pushVia env conversation_id fun base_url => pure (post base_url).delivered

/-- How a `POST` to a gateway can end, and on which sockets it has written the payload. -/
inductive Exchange (s : State) (c : String) : Http → List Socket → Prop
  | connectError : Exchange s c .connectError []
  /-- The request does not arrive. -/
  | unsent : Exchange s c .failed []
  /-- It arrives, but no response does; `internal_push` has come as far as it may. -/
  | unanswered {as : List Action} {q : Request}
      (run : Transition.run Request.step (.arrive s c) as = some q) : Exchange s c .failed q.writes
  | answered {as : List Action} {q : Request} {code : ℕ}
      (run : Transition.run Request.step (.arrive s c) as = some q)
      (response : q.response = some code) : Exchange s c (.status code) q.writes
  /-- An error response that is not from `internal_push`. -/
  | rejected {code : ℕ} (h : code ≠ 200) : Exchange s c (.status code) []

/-- **`push_to_client` answers, and `True` means written once.** The gateway at each URL is in some
state when the request arrives. -/
structure Answers (env : Env) (w : World) (c : String) (post : String → Http)
    (gateways : String → State) (writes : String → List Socket) : Prop where
  returns : ∃ b, ((pushOverHttp env c post).run w).1 = .ok b
  written : ((pushOverHttp env c post).run w).1 = .ok true →
    ∃ url x, pushTarget env w c = some (some url) ∧
      (gateways url).connections.lookup c = some x ∧ writes url = [x]

/-- **The condition.** The lookup of the connection ends well, and, if it finds another server than
this one, so does the lookup of the gateway. -/
def LookupsEnd (env : Env) (w : World) (c : String) : Prop :=
  env.outcome .getServer = .done ∧ ∀ server_id, truthy (w.connections c) = some server_id →
    server_id ≠ env.serverId → env.outcome .getGateway = .done

section Push

variable {env : Env} {w : World} {c : String} {post : String → Http} {gateways : String → State}
  {writes : String → List Socket}

theorem not_pushRaises_iff : ¬PushRaises env w c ↔ LookupsEnd env w c := by
  rw [PushRaises, LookupsEnd, pushTarget]
  by_cases hs : env.outcome .getServer = .done
  · rw [if_neg (not_not.mpr hs)]
    cases hserver : truthy (w.connections c) with
    | none => simp [hs]
    | some server_id =>
      by_cases hown : server_id = env.serverId
      · simp [hs, hown]
      · by_cases hg : env.outcome .getGateway = .done <;> simp [hs, hown, hg]
  · simp [hs]

theorem run_pushOverHttp (env : Env) (w : World) (c : String) (post : String → Http) :
    (pushOverHttp env c post).run w =
      match pushTarget env w c with
      | none => (.error .unreachable, w)
      | some none => (.ok false, w)
      | some (some url) => (.ok (post url).delivered, w) := by
  rw [pushOverHttp, run_pushVia]
  rcases pushTarget env w c with _ | _ | url <;> rfl

/-- A 200 is an answer of `internal_push`. -/
theorem Exchange.writes_eq {s : State} {http : Http} {written : List Socket}
    (h : Exchange s c http written) (hd : http.delivered = true) :
    ∃ x, s.connections.lookup c = some x ∧ written = [x] := by
  cases h with
  | connectError | unsent | unanswered => cases hd
  | answered run response =>
    obtain rfl := of_decide_eq_true hd
    exact Request.writes_of_response run response
  | rejected hne => exact absurd (of_decide_eq_true hd) hne

/-- **`push_to_client` answers exactly if its lookups end well**, and then its `True` means that the
payload has been written once, on the socket that was stored for the conversation. -/
theorem answers_iff (h : ∀ url, Exchange (gateways url) c (post url) (writes url)) :
    Answers env w c post gateways writes ↔ LookupsEnd env w c := by
  rw [← not_pushRaises_iff]
  constructor
  · rintro ⟨⟨b, hb⟩, -⟩ hraises
    rw [run_pushOverHttp, hraises] at hb
    exact absurd hb (by simp)
  · intro hnot
    rw [PushRaises] at hnot
    have hrun := run_pushOverHttp env w c post
    rcases htarget : pushTarget env w c with _ | _ | url
    · exact absurd htarget hnot
    · rw [htarget] at hrun
      refine ⟨⟨false, by rw [hrun]⟩, fun htrue => ?_⟩
      rw [hrun] at htrue
      exact absurd htrue (by simp)
    · rw [htarget] at hrun
      refine ⟨⟨(post url).delivered, by rw [hrun]⟩, fun htrue => ?_⟩
      rw [hrun] at htrue
      obtain ⟨x, hx, hwrites⟩ := (h url).writes_eq (Except.ok.inj htrue)
      exact ⟨url, x, htarget, hx, hwrites⟩

end Push

/-! ### A push to a socket, and one without Redis -/

/-- A gateway with one socket, number 0, whose lock is free. -/
def oneSocket : State :=
  { State.start with
    connections := AList.singleton "c" 0
    lastSeen := AList.singleton "c" 0
    sendLocks := AList.singleton "c" 0
    locks := 1 }

/-- The conversation is connected to this server. -/
def connectedHere : World :=
  { World.empty with connections := fun c => if c = "c" then some "gateway-1" else none }

/-- The request to this server is answered with 200; nobody listens anywhere else. -/
def postHere (url : String) : Http :=
  if url = "http://localhost:8001" then .status 200 else .connectError

def writesHere (url : String) : List Socket :=
  if url = "http://localhost:8001" then [0] else []

/-- The request arrives, `send_json` completes and `send_message` returns. -/
theorem exchange_here (url : String) :
    Exchange oneSocket "c" (postHere url) (writesHere url) := by
  rw [postHere, writesHere]
  split
  · obtain ⟨q, hrun, hresponse, hwrites⟩ : ∃ q,
        Transition.run Request.step (.arrive oneSocket "c") [.answer 1 .done, .resume 1] = some q ∧
          q.response = some 200 ∧ q.writes = [0] := ⟨_, rfl, rfl, rfl⟩
    rw [← hwrites]
    exact .answered hrun hresponse
  · exact .connectError

theorem answers_iff_here :
    Answers (.healthy .noon) connectedHere "c" postHere (fun _ => oneSocket) writesHere ↔
      LookupsEnd (.healthy .noon) connectedHere "c" :=
  answers_iff exchange_here

/-- Redis does not answer. -/
def redisDown : Env := { Env.healthy .noon with outcome := fun _ => .refused }

/-- **`push_to_client` raises** when Redis does not answer. -/
theorem not_answers : ∃ (env : Env) (w : World) (c : String) (post : String → Http)
    (gateways : String → State) (writes : String → List Socket),
    (∀ url, Exchange (gateways url) c (post url) (writes url)) ∧
    ¬Answers env w c post gateways writes := by
  refine ⟨redisDown, connectedHere, "c", postHere, fun _ => oneSocket, writesHere, exchange_here,
    fun h => ?_⟩
  obtain ⟨b, hb⟩ := h.returns
  exact absurd hb (by simp [run_pushOverHttp, pushTarget, redisDown])

end TitanChat
