import StyleCompanion.Proofs.Client.Handling
import StyleCompanion.Proofs.Client.Stopping
import StyleCompanion.Proofs.Rpc.RoundTrip

/-
  Every request of the backend is answered once.

  Requests and notifications leave the client as it is, so a
  stream of them does to the client what its messages do one
  by one, wherever the stream is cut.  A request writes one
  reply, by what its handler came to, and a notification
  writes nothing.

  Main declarations:
    * `Client.outcome?`
    * `Client.replyDue`
    * `Client.Running`
    * `Client.run_calls`
    * `Client.written_effects`
    * `Client.one_reply_per_request`
-/

namespace StyleCompanion

namespace Client

----
-- Replies that are due
----

/- What the handler of a request comes to, if there is one. -/
def outcome?
    (handlers : Table String Handler)
    (fs : Table String Json) : Option (Outcome Json) :=
  (Table.get? handlers (Json.pick fs ["method"]).text).map
    fun h => (h.run (Json.pick fs ["params"])).1

/- The fields of a reply with an error. -/
def errorFields
    (id : Json)
    (code : Int)
    (text : String) : Table String Json :=
  [("jsonrpc", .str "2.0"), ("id", id),
    ("error",
      .obj [("code", .int code), ("message", .str text)])]

/- The reply that a request is due. -/
def replyDue
    (handlers : Table String Handler)
    (fs : Table String Json) : Table String Json :=
  let id := Json.pick fs ["id"]
  match outcome? handlers fs with
  | none =>
      errorFields id (-32601)
        ("Method not supported: " ++
          (Json.pick fs ["method"]).text)
  | some (.ok v) =>
      [("jsonrpc", .str "2.0"), ("id", id), ("result", v)]
  | some (.error (.refused cause)) =>
      errorFields id (-32602) cause.message
  | some (.error e) => errorFields id (-32603) e.message

/-
  A client whose process takes what is written, and which
  waits for the beginning of a message.
-/
structure Running
    (c : Client) : Prop where
  alive : c.process.isAlive = true
  writes : c.process.writeFails = false
  between : c.framer = .new

----
-- Messages that are no replies
----

/- What is no reply leaves the client as it is. -/
theorem turned_of_not_isResponse
    (c : Client)
    {fs : Table String Json}
    (h : Rpc.isResponse fs = false) :
    c.turned fs = c := by
  have hClass : classify fs ≠ .reply := by
    rw [ne_eq, classify_eq_reply_iff, h]
    exact Bool.false_ne_true
  unfold turned
  split
  · contradiction
  · rfl

/- All messages are handled, if none is a reply. -/
theorem handleAll_calls
    (c : Client)
    {ms : List (Table String Json)}
    (h : ∀ fs ∈ ms, Rpc.isResponse fs = false) :
    c.handleAll ms = (c.after (ms.flatMap c.effects), none) := by
  induction ms generalizing c with
  | nil => simp [handleAll]
  | cons fs ms ih =>
      have hHead := h fs List.mem_cons_self
      have hFirst : (c.handleMessage fs).1 =
          c.after (c.effects fs) := by
        rw [handleMessage_fst, turned_of_not_isResponse c hHead]
      have hFine : (c.handleMessage fs).2 = none := by
        have hChokes := c.handleMessage_snd fs
        rw [chokes, hHead] at hChokes
        simpa using hChokes
      have hRest := ih (c.after (c.effects fs))
        fun m hm => h m (List.mem_cons_of_mem _ hm)
      unfold handleAll
      rcases hHandled : c.handleMessage fs with ⟨d, failure⟩
      rw [hHandled] at hFirst hFine
      dsimp only at hFirst hFine ⊢
      rw [hFine, hFirst]
      dsimp only
      rw [hRest, after_after]
      rfl

/- A delivery handles what it completes. -/
theorem step_output_calls
    (env : Environment)
    (c : Client)
    {bs : List UInt8}
    (h : ∀ fs ∈ Rpc.messages (c.framer.feed bs).2,
      Rpc.isResponse fs = false) :
    ∃ es, (c.step env (.output bs)).1 =
        (c.withFramer (c.framer.feed bs).1).after es ∧
      es.filterMap written? =
        ((Rpc.messages (c.framer.feed bs).2).flatMap
          c.effects).filterMap written? := by
  simp only [step, risky_fst, readOutput, takeBytes_eq]
  rw [handleAll_calls _ h, after_after]
  refine ⟨_, rfl, ?_⟩
  rw [List.filterMap_append, List.filterMap_map]
  simp [Function.comp_def, written?]
  rfl

/-
  However a stream is cut, its messages do to the client what
  they do one by one.
-/
theorem run_calls
    (env : Environment)
    (c : Client)
    {chunks : List (List UInt8)}
    (h : ∀ fs ∈ (c.framer.feedEach chunks).2.flatten,
      Rpc.isResponse fs = false) :
    ∃ es, run env c (chunks.map .output) =
        (c.withFramer (c.framer.feedEach chunks).1).after es ∧
      es.filterMap written? =
        ((c.framer.feedEach chunks).2.flatten.flatMap
          c.effects).filterMap written? := by
  induction chunks generalizing c with
  | nil => exact ⟨[], (after_nil c).symm, rfl⟩
  | cons bs chunks ih =>
      have hMessages : (c.framer.feedEach (bs :: chunks)
          ).2.flatten =
          Rpc.messages (c.framer.feed bs).2 ++
            ((c.framer.feed bs).1.feedEach chunks).2.flatten :=
        List.flatten_cons
      rw [hMessages] at h ⊢
      rcases step_output_calls env c
          fun fs hfs => h fs (List.mem_append_left _ hfs) with
        ⟨es, hStep, hWritten⟩
      rcases ih ((c.step env (.output bs)).1) (by
          rw [hStep]
          exact fun fs hfs =>
            h fs (List.mem_append_right _ hfs)) with
        ⟨more, hRun, hMore⟩
      rw [hStep] at hMore
      refine ⟨es ++ more, ?_, ?_⟩
      · rw [List.map_cons]
        change run env (c.step env (.output bs)).1 _ = _
        rw [hRun, hStep, withFramer_after,
          withFramer_withFramer, after_after]
        rfl
      · rw [List.filterMap_append, List.flatMap_append,
          List.filterMap_append, hWritten, hMore]
        rfl

----
-- What is written
----

section Written

variable {c : Client}

theorem written_writing
    (h : c.Running)
    (m : Json) :
    (c.process.writing m).filterMap written? = [m] := by
  rw [Process.writing, if_neg (by simp [h.alive]),
    if_neg (by simp [h.writes])]
  rfl

theorem written_signals
    (ss : List Signal) :
    (ss.map ClientEffect.signal).filterMap written? = [] := by
  rw [List.filterMap_map]
  simp [Function.comp_def, written?]

/- A request writes the reply that it is due. -/
theorem written_callEffects
    (h : c.Running)
    (fs : Table String Json) :
    (c.callEffects (Json.pick fs ["id"])
        (Json.pick fs ["method"]).text
        (Json.pick fs ["params"])).filterMap written? =
      [.obj (replyDue c.handlers fs)] := by
  unfold callEffects replyDue outcome?
  cases Table.get? c.handlers (Json.pick fs ["method"]).text with
  | none => exact written_writing h _
  | some handler =>
      dsimp only
      rw [List.filterMap_append, written_signals,
        List.nil_append, Option.map_some]
      cases (handler.run (Json.pick fs ["params"])).1 with
      | ok v => exact written_writing h _
      | error e =>
          cases e with
          | refused cause => exact written_writing h _
          | _ => exact written_writing h _

/- A notification writes nothing. -/
theorem written_noticeEffects
    (method : String)
    (params : Json) :
    (noticeEffects method params).filterMap written? = [] := by
  unfold noticeEffects
  dsimp only
  split <;> rfl

theorem written_effects
    (h : c.Running)
    {fs : Table String Json}
    (hCall : Rpc.isResponse fs = false) :
    (c.effects fs).filterMap written? =
      ([fs].filter Rpc.isRequest).map fun p =>
        .obj (replyDue c.handlers p) := by
  unfold effects classify
  dsimp only
  rw [if_neg (by simp [hCall])]
  cases hRequest : Rpc.isRequest fs with
  | true =>
      rw [if_pos rfl]
      simpa [hRequest] using written_callEffects h fs
  | false =>
      rw [if_neg (by simp)]
      have hNone : ([fs].filter Rpc.isRequest) = [] := by
        simp [hRequest]
      rw [hNone]
      split
      next hReply => split at hReply <;> cases hReply
      next hOther => split at hOther <;> cases hOther
      next => exact written_noticeEffects _ _
      next => rfl

/- Requests write their replies in order. -/
theorem written_flatMap_effects
    (h : c.Running)
    {ps : List (Table String Json)}
    (hCalls : ∀ p ∈ ps, Rpc.isResponse p = false) :
    (ps.flatMap c.effects).filterMap written? =
      (ps.filter Rpc.isRequest).map fun p =>
        .obj (replyDue c.handlers p) := by
  induction ps with
  | nil => rfl
  | cons p ps ih =>
      have hHead := written_effects h
        (hCalls p List.mem_cons_self)
      have hTail := ih fun q hq =>
        hCalls q (List.mem_cons_of_mem _ hq)
      rw [List.flatMap_cons, List.filterMap_append, hHead,
        hTail, ← List.map_append, ← List.filter_append]
      rfl

end Written

----
-- Replies as text
----

/- What stands under a name of a plain object is plain. -/
theorem plain_pick
    {fs : Table String Json}
    (h : (Json.obj fs).Plain)
    (names : List String) :
    (Json.pick fs names).Plain := by
  cases h with
  | obj _ hNames hFields =>
      induction names with
      | nil => exact .null
      | cons name names ih =>
          unfold Json.pick
          split
          next v hFound =>
            exact hFields (name, v) (Table.mem_of_get? hFound)
          next => exact ih

theorem plain_errorFields
    {id : Json}
    (hId : id.Plain)
    {code : Int}
    (hCode :
      (Nat.toDigits 10 code.natAbs).length ≤ 4300)
    (text : String) :
    (Json.obj (errorFields id code text)).Plain := by
  have hNames : ["jsonrpc", "id", "error"].Nodup := by decide
  have hInner : ["code", "message"].Nodup := by decide
  refine .obj _ hNames ?_
  intro f hf
  simp only [errorFields, List.mem_cons, List.not_mem_nil,
    or_false] at hf
  rcases hf with rfl | rfl | rfl
  · exact .str _
  · exact hId
  · refine .obj _ hInner ?_
    intro f hf
    simp only [List.mem_cons, List.not_mem_nil,
      or_false] at hf
    rcases hf with rfl | rfl
    · exact .int _ hCode
    · exact .str _

/- The reply to a plain request is plain, if its result is. -/
theorem plain_replyDue
    {handlers : Table String Handler}
    {fs : Table String Json}
    (hFields : (Json.obj fs).Plain)
    (hResult : ∀ v, outcome? handlers fs = some (.ok v) →
      v.Plain) :
    (Json.obj (replyDue handlers fs)).Plain := by
  have hId := plain_pick hFields ["id"]
  unfold replyDue
  dsimp only
  split
  · exact plain_errorFields hId (by decide) _
  next v hOutcome =>
    have hNames : ["jsonrpc", "id", "result"].Nodup := by
      decide
    refine .obj _ hNames ?_
    intro f hf
    simp only [List.mem_cons, List.not_mem_nil,
      or_false] at hf
    rcases hf with rfl | rfl | rfl
    · exact .str _
    · exact hId
    · exact hResult v hOutcome
  · exact plain_errorFields hId (by decide) _
  · exact plain_errorFields hId (by decide) _

/-
  Requests and notifications that reach a running client, in
  pieces of any size, are answered by one reply for each
  request, in order, and leave the session as it was.  A new
  framer reads the replies back, if the results are plain.
-/
theorem one_reply_per_request
    (env : Environment)
    (c : Client)
    (hRunning : c.Running)
    (ps : List (Table String Json))
    (hPlain : ∀ p ∈ ps, (Json.obj p).Plain)
    (hCalls : ∀ p ∈ ps, Rpc.isResponse p = false)
    (chunks : List (List UInt8))
    (hChunks : chunks.flatten =
      ps.flatMap fun p => Rpc.encode (.obj p)) :
    let d := run env c (chunks.map .output)
    let requests := ps.filter Rpc.isRequest
    let replies := requests.map (replyDue c.handlers)
    d.written = c.written ++ replies.map .obj ∧
      ((∀ p ∈ requests, ∀ v,
          outcome? c.handlers p = some (.ok v) → v.Plain) →
        Rpc.messages
            (Rpc.Framer.new.feed
              ((replies.map .obj).flatMap Rpc.encode)).2 =
          replies) ∧
      d.state = c.state ∧ d.outbox = c.outbox ∧
      d.awaiting = c.awaiting ∧ d.versions = c.versions := by
  intro d requests replies
  have hArrives := Rpc.Framer.feedEach_eq Rpc.Framer.Reached.new
    chunks
  rw [hChunks, (Rpc.Framer.feed_new_encode hPlain).1,
    ← hRunning.between] at hArrives
  rcases run_calls env c (by rw [hArrives.1]; exact hCalls) with
    ⟨es, hRun, hWritten⟩
  rw [hArrives.1, written_flatMap_effects hRunning hCalls]
    at hWritten
  refine ⟨?_, ?_, ?_⟩
  · change (run env c (chunks.map .output)).written = _
    rw [hRun, List.map_map]
    exact List.filterMap_append.trans
      (congrArg (c.written ++ ·) hWritten)
  · intro hResults
    have hReplies : ∀ r ∈ replies, (Json.obj r).Plain := by
      intro r hr
      rcases List.mem_map.mp hr with ⟨p, hp, rfl⟩
      exact plain_replyDue (hPlain p (List.mem_of_mem_filter hp))
        (hResults p hp)
    rw [List.flatMap_map]
    exact (Rpc.Framer.feed_new_encode hReplies).1
  · change (run env c (chunks.map .output)).state = _ ∧
      (run env c (chunks.map .output)).outbox = _ ∧
      (run env c (chunks.map .output)).awaiting = _ ∧
      (run env c (chunks.map .output)).versions = _
    rw [hRun]
    exact ⟨rfl, rfl, rfl, rfl⟩

/-
  A request with a list for its id, a notification and a
  request without a method to speak of, byte by byte.
-/
theorem one_reply_per_request_bytewise :
    let env : Environment := ⟨none, 7, fun _ => false⟩
    let c := run env (.new "")
      [.register "echo" (.answer .ok), .start .default,
        .started]
    let ps : List (Table String Json) :=
      [[("id", .arr [.int 1]), ("method", .str "echo"),
          ("params", .str "é")],
        [("method", .str "note")],
        [("id", .null), ("method", .null)]]
    let replies : List (Table String Json) :=
      [[("jsonrpc", .str "2.0"), ("id", .arr [.int 1]),
          ("result", .str "é")],
        errorFields .null (-32601)
          "Method not supported: None"]
    let d := run env c
      (((ps.flatMap fun p => Rpc.encode (.obj p)).map
        fun b => [b]).map .output)
    c.Running ∧ d.written = c.written ++ replies.map .obj ∧
      Rpc.messages
          (Rpc.Framer.new.feed
            ((replies.map .obj).flatMap Rpc.encode)).2 =
        replies := by
  intro env c ps replies d
  have hRunning : c.Running :=
    ⟨by decide +kernel, by decide +kernel, by decide +kernel⟩
  have hHandlers : c.handlers = [("echo", .answer .ok)] := rfl
  have hReplies : (ps.filter Rpc.isRequest).map
      (replyDue [("echo", .answer .ok)]) = replies := rfl
  have hPlain : ∀ p ∈ ps, (Json.obj p).Plain := by
    refine List.forall_mem_cons.mpr ⟨?_, ?_⟩
    · refine .obj _ (by decide) ?_
      refine List.forall_mem_cons.mpr ⟨?_, ?_⟩
      · refine .arr _ (List.forall_mem_singleton.mpr ?_)
        exact .int _ (by decide)
      · refine List.forall_mem_cons.mpr ⟨.str _, ?_⟩
        exact List.forall_mem_singleton.mpr (.str _)
    · refine List.forall_mem_cons.mpr ⟨?_, ?_⟩
      · refine .obj _ (by decide) ?_
        exact List.forall_mem_singleton.mpr (.str _)
      · refine List.forall_mem_singleton.mpr ?_
        refine .obj _ (by decide) ?_
        refine List.forall_mem_cons.mpr ⟨.null, ?_⟩
        exact List.forall_mem_singleton.mpr .null
  have hRequests : ps.filter Rpc.isRequest =
      [[("id", .arr [.int 1]), ("method", .str "echo"),
          ("params", .str "é")],
        [("id", .null), ("method", .null)]] := rfl
  have hResults : ∀ p ∈ ps.filter Rpc.isRequest, ∀ v,
      outcome? c.handlers p = some (.ok v) → v.Plain := by
    rw [hHandlers, hRequests]
    refine List.forall_mem_cons.mpr ⟨?_, ?_⟩
    · rintro v ⟨⟩
      exact .str _
    · refine List.forall_mem_singleton.mpr ?_
      rintro v ⟨⟩
  rcases one_reply_per_request env c hRunning ps hPlain
      (by decide)
      ((ps.flatMap fun p => Rpc.encode (.obj p)).map
        fun b => [b])
      (by rw [← List.flatMap_def, List.flatMap_singleton']) with
    ⟨hSent, hRead, -⟩
  have hBack := hRead hResults
  rw [hHandlers, hReplies] at hSent hBack
  exact ⟨hRunning, hSent, hBack⟩

end Client

end StyleCompanion
