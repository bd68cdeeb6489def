import OneSdk.Runs
import OneSdk.SdkKept

namespace OneSdk.SdkSafety

open Runs Accesses ErrorCode SdkLifecycle SdkOwnership SdkInit SdkKept

/-- What `onesdk_chat` is asked and how it fares. `endpoint` tells that the endpoint is not
empty, and `response` that a request without streaming is answered. -/
structure ChatAttempt where
  stream : Bool
  tools : Bool
  httpCtx : Bool
  endpoint : Bool
  sent : Int
  response : Bool

inductive Call where
  | connect (ws mqtt : Int)
  | disconnect
  | chat (r : ChatAttempt)
  | chatWait (waited : Int)
  | chatReleaseContext

section Source

variable (f : Features)

def after (s : Sdk) (accesses : List Access) (rest : Sdk → Option (Int × Sdk)) : Option (Int × Sdk) :=
  (perform s.heap accesses).bind fun heap => rest { s with heap := heap }

def mqttReads (s : Sdk) (mqtt : IotMqttCtx) : List Nat := mqtt.self :: (stringReleases s ++ [mqtt.context])

def linked (s : Sdk) (ctx : IotMqttCtx) (mqtt : Int) : Sdk :=
  { s with ctx := { s.ctx with iotMqttCtx := some { ctx with wsi := ctx.wsi || mqtt == volcOk } } }

def connectMqtt (mqtt : Int) (s : Sdk) : Option (Int × Sdk) :=
  if f.iot = false then some (volcOk, s)
  else
    match s.ctx.iotMqttCtx with
    | none => some (volcOk, s)
    | some ctx => after s ((mqttReads s ctx).map .use) fun s => some (mqtt, linked s ctx mqtt)

/-- `aigw_ws_connect` hands the context of the socket library on to a function that reads it. -/
def onesdkConnect (ws mqtt : Int) (s : Sdk) : Option (Int × Sdk) :=
  if f.aiRealtime = false then connectMqtt f mqtt s
  else
    match s.ctx.aigwWsCtx with
    | none => none
    | some ctx =>
        if ctx.lwsCtx = false then none
        else after s [.use ctx.self] fun s => if ws ≠ volcOk then some (ws, s) else connectMqtt f mqtt s

/-- `iot_mqtt_disconnect` takes the context of the socket library from its argument, which
`onesdk_disconnect` has not looked at. -/
def disconnectMqtt (s : Sdk) : Option (Int × Sdk) :=
  if f.iot = false then some (volcOk, s)
  else
    match s.ctx.iotMqttCtx with
    | none => none
    | some ctx => after s [.use ctx.self, .use ctx.context] fun s => some (volcOk, s)

def disconnectWs (s : Sdk) : Option (Int × Sdk) :=
  if f.aiRealtime = false then disconnectMqtt f s
  else
    match s.ctx.aigwWsCtx with
    | none => none
    | some ctx => after s [.use ctx.self] (disconnectMqtt f)

def ownedByChat (chat : ChatContext) : List Nat := chat.requestContext.toList ++ [chat.self]

def releaseChat (s : Sdk) (rest : Sdk → Option (Int × Sdk)) : Option (Int × Sdk) :=
  match s.ctx.chatCtx with
  | none => rest s
  | some chat => after s (frees (ownedByChat chat)) fun s => rest { s with ctx := { s.ctx with chatCtx := none } }

def onesdkChatReleaseContext (s : Sdk) : Option (Int × Sdk) := releaseChat s fun s => some (volcOk, s)

def onesdkDisconnect (s : Sdk) : Option (Int × Sdk) :=
  if f.ai = false then disconnectWs f s else releaseChat s (disconnectWs f)

def withChat (s : Sdk) (chat : ChatContext) : Sdk := { s with ctx := { s.ctx with chatCtx := some chat } }

/-- The end of `onesdk_chat_send_inner`. The context of a request without streaming is
released at once. -/
def sendRequest (r : ChatAttempt) (chat : ChatContext) (s : Sdk) : Option (Int × Sdk) :=
  let request := s.heap.allocated
  let s := new s
  if r.stream then some (r.sent, withChat s { chat with requestContext := some request, isStreaming := true })
  else
    after s (frees [request]) fun s =>
      some (if r.response then volcOk else -1, withChat s { chat with requestContext := none, isStreaming := false })

def onesdkChatSendInner (r : ChatAttempt) (chat : ChatContext) (s : Sdk) : Option (Int × Sdk) :=
  after s [.use chat.self] fun s =>
    if r.httpCtx = false then some (volcErrHttpSendFailed, s)
    else
      after s (chat.llmConfig.toList.map .use) fun s =>
        if r.endpoint = false ∨ r.tools = true ∧ r.stream = true then some (volcErrHttpSendFailed, s)
        else after s ((ofBasic chat.iotBasicCtx).map .use) (sendRequest r chat)

/-- Without a chat context the test `chat_ctx == NULL && chat_ctx->request_context == NULL`
reads through the null pointer. -/
def onesdkChat (r : ChatAttempt) (s : Sdk) : Option (Int × Sdk) :=
  match s.ctx.chatCtx with
  | none => none
  | some chat => onesdkChatSendInner r chat s

def onesdkChatWait (waited : Int) (s : Sdk) : Option (Int × Sdk) :=
  match s.ctx.chatCtx with
  | none => some (-1, s)
  | some chat =>
      after s [.use chat.self] fun s =>
        if chat.isStreaming = false then some (volcOk, s)
        else
          match chat.requestContext with
          | none => some (-1, s)
          | some request =>
              after s [.use request, .free request] fun s =>
                some (waited, withChat s { chat with requestContext := none })

def step (s : Sdk) : Call → Option (Int × Sdk)
  | .connect ws mqtt => onesdkConnect f ws mqtt s
  | .disconnect => onesdkDisconnect f s
  | .chat r => onesdkChat r s
  | .chatWait waited => onesdkChatWait waited s
  | .chatReleaseContext => onesdkChatReleaseContext s

def Compiled : Call → Prop
  | .connect _ _ => True
  | .disconnect => True
  | .chat _ => f.ai = true
  | .chatWait _ => f.ai = true
  | .chatReleaseContext => f.ai = true

def sdk : Machine Sdk Call := ⟨fun _ call => Compiled f call, fun s call => ((step f s call).map Prod.snd).getD s⟩

end Source

section Order

variable (f : Features)

def Absent (s : Sdk) : Call → Prop
  | .connect _ _ => s.ctx.iotMqttCtx = none
  | .disconnect => s.ctx.chatCtx = none ∧ s.ctx.iotMqttCtx = none
  | .chat _ => s.ctx.chatCtx = none
  | .chatWait _ => s.ctx.chatCtx = none
  | .chatReleaseContext => s.ctx.chatCtx = none

/-- A call accesses nothing but live objects, and it fails or does nothing where its
subsystem is absent. -/
def Safe (s : Sdk) (call : Call) : Prop :=
  ∃ ret s', step f s call = some (ret, s') ∧ (Absent s call → ret ≠ volcOk ∨ s' = s)

def ReleasesChat : Call → Prop
  | .disconnect => True
  | .chatReleaseContext => True
  | _ => False

def Chats : Call → Prop
  | .chat _ => True
  | _ => False

def Connects : Call → Prop
  | .connect _ _ => True
  | _ => False

def Links : Call → Prop
  | .connect ws mqtt => (f.aiRealtime = true → ws = volcOk) ∧ mqtt = volcOk
  | _ => False

/-- No `onesdk_disconnect` without MQTT, no `onesdk_connect` where the WebSocket has no context
of the socket library, no `onesdk_chat` after a release of the chat context, and in the
end no connection that reconnects. -/
structure Ordered (g : Given) (a : Attempt) (up : Bool) (calls : List Call) : Prop where
  disconnect : f.iot = true → g.mqttConfig = none → .disconnect ∉ calls
  connect : f.aiRealtime = true → a.wsContext = false → ∀ call ∈ calls, ¬Connects call
  chat : calls.Pairwise fun call later => ReleasesChat call → ¬Chats later
  deinit : f.iot = true → g.mqttConfig = some true → up = true → ∀ call ∈ calls, ¬Links f call

end Order

structure Running (f : Features) (b : IotBasicCtx) (s : Sdk) : Prop where
  ready : Ready f b s
  ws : f.aiRealtime = true → s.ctx.aigwWsCtx ≠ none

section Steps

variable {f : Features} {b : IotBasicCtx} {s : Sdk} {chat : ChatContext} {rest : Sdk → Option (Int × Sdk)}

theorem after_uses {ns : List Nat} (h : ∀ n ∈ ns, s.heap.Live n) : after s (ns.map .use) rest = rest s := by
  have huses := perform_uses [] h
  rw [List.append_nil] at huses
  rw [after, huses]
  rfl

theorem live_mqtt (h : Ready f b s) {mqtt : IotMqttCtx} (hmqtt : s.ctx.iotMqttCtx = some mqtt) :
    ∀ n ∈ mqttReads s mqtt, s.heap.Live n := by
  have hiot : f.iot = true := (h.mqtt (by rw [hmqtt]; exact Option.some_ne_none mqtt)).1
  intro n hn
  apply h.owned.2
  apply List.mem_append_right
  rcases List.mem_cons.mp hn with rfl | hn
  · apply List.mem_append_right
    apply List.mem_append_right
    rw [mqttCtxs, hmqtt]
    exact List.mem_singleton_self _
  · apply List.mem_append_left
    rw [mqttReleases, if_pos hiot, hmqtt]
    exact hn

theorem Running.linked (h : Running f b s) {ctx : IotMqttCtx} (hmqtt : s.ctx.iotMqttCtx = some ctx) (mqtt : Int) :
    Running f b (linked s ctx mqtt) := by
  have hsome : s.ctx.iotMqttCtx ≠ none := by rw [hmqtt]; exact Option.some_ne_none ctx
  have hreleases : mqttReleases f (SdkSafety.linked s ctx mqtt) = mqttReleases f s := by
    rw [mqttReleases, mqttReleases, hmqtt]
    rfl
  have hctxs : mqttCtxs (SdkSafety.linked s ctx mqtt) = mqttCtxs s := by
    rw [mqttCtxs, mqttCtxs, hmqtt]
    rfl
  have hheld : held f (SdkSafety.linked s ctx mqtt) = held f s := by
    rw [held, hreleases, hctxs]
    rfl
  refine ⟨⟨?_, h.ready.config, h.ready.basic, h.ready.chat, h.ready.ws, fun _ => h.ready.mqtt hsome⟩, h.ws⟩
  rw [Owned, hheld]
  exact h.ready.owned

def Wired (s : Sdk) : Prop := ∃ mqtt, s.ctx.iotMqttCtx = some mqtt ∧ mqtt.wsi = true

theorem wired_linked {ctx : IotMqttCtx} (hmqtt : s.ctx.iotMqttCtx = some ctx) (mqtt : Int) :
    Wired (linked s ctx mqtt) ↔ Wired s ∨ mqtt = volcOk := by
  have hctx : Wired s ↔ ctx.wsi = true := by
    rw [Wired, hmqtt]
    simp only [Option.some.injEq, exists_eq_left']
  rw [hctx, Wired, linked]
  simp only [Option.some.injEq, exists_eq_left', Bool.or_eq_true, beq_iff_eq]

structure Connected (f : Features) (b : IotBasicCtx) (s : Sdk) (links : Prop) (s' : Sdk) : Prop where
  running : Running f b s'
  absent : s.ctx.iotMqttCtx = none → s' = s
  chat : s'.ctx.chatCtx = s.ctx.chatCtx
  mqtt : s'.ctx.iotMqttCtx = none ↔ s.ctx.iotMqttCtx = none
  ws : s'.ctx.aigwWsCtx = s.ctx.aigwWsCtx
  config : s'.config = s.config
  wired : Wired s' ↔ Wired s ∨ s.ctx.iotMqttCtx ≠ none ∧ links

theorem Connected.same {links : Prop} (h : Running f b s) (hnot : ¬(s.ctx.iotMqttCtx ≠ none ∧ links)) :
    Connected f b s links s := ⟨h, fun _ => rfl, rfl, Iff.rfl, rfl, rfl, (or_iff_left hnot).symm⟩

theorem connectMqtt_running (h : Running f b s) (mqtt : Int) :
    ∃ ret s', connectMqtt f mqtt s = some (ret, s') ∧ Connected f b s (mqtt = volcOk) s' := by
  rw [connectMqtt]
  split
  next hiot =>
    refine ⟨volcOk, s, rfl, .same h fun hlinks => ?_⟩
    exact Bool.eq_false_iff.mp hiot (h.ready.mqtt hlinks.1).1
  next =>
    cases hmqtt : s.ctx.iotMqttCtx with
    | none => exact ⟨volcOk, s, rfl, .same h fun hlinks => hlinks.1 hmqtt⟩
    | some ctx =>
        refine ⟨mqtt, linked s ctx mqtt, after_uses (live_mqtt h.ready hmqtt), h.linked hmqtt mqtt, ?_, rfl, ?_,
          rfl, rfl, ?_⟩
        · exact fun hnone => nomatch hmqtt.symm.trans hnone
        · exact iff_of_false (Option.some_ne_none _) (by rw [hmqtt]; exact Option.some_ne_none ctx)
        · rw [wired_linked hmqtt, hmqtt, and_iff_right (Option.some_ne_none ctx)]

theorem live_ws (h : Running f b s) (hrealtime : f.aiRealtime = true) :
    ∃ ctx, s.ctx.aigwWsCtx = some ctx ∧ ∀ n ∈ [ctx.self], s.heap.Live n := by
  obtain ⟨ctx, hctx⟩ := Option.ne_none_iff_exists'.mp (h.ws hrealtime)
  refine ⟨ctx, hctx, fun n hn => ?_⟩
  rw [List.mem_singleton.mp hn]
  exact h.ready.live_ws hctx

theorem onesdkConnect_running (h : Running f b s) (ws mqtt : Int)
    (hlws : f.aiRealtime = true → ∀ ctx, s.ctx.aigwWsCtx = some ctx → ctx.lwsCtx = true) :
    ∃ ret s', onesdkConnect f ws mqtt s = some (ret, s') ∧ Connected f b s (Links f (.connect ws mqtt)) s' := by
  rw [onesdkConnect, Links]
  by_cases hrealtime : f.aiRealtime = false
  · rw [if_pos hrealtime, hrealtime]
    simp only [Bool.false_eq_true, false_implies, true_and]
    exact connectMqtt_running h mqtt
  rw [if_neg hrealtime]
  have hrealtime : f.aiRealtime = true := eq_true_of_ne_false hrealtime
  obtain ⟨ctx, hctx, hlive⟩ := live_ws h hrealtime
  rw [hctx]
  dsimp only
  have hlwsCtx : ¬ctx.lwsCtx = false := by rw [hlws hrealtime ctx hctx]; exact Bool.true_eq_false.mp
  rw [if_neg hlwsCtx]
  have huse : after s [.use ctx.self] (fun s => if ws ≠ volcOk then some (ws, s) else connectMqtt f mqtt s) =
      if ws ≠ volcOk then some (ws, s) else connectMqtt f mqtt s := after_uses hlive
  rw [huse, forall_prop_of_true hrealtime]
  split
  next hws => exact ⟨ws, s, rfl, .same h fun hlinks => hws hlinks.2.1⟩
  next hws =>
    rw [and_iff_right (not_not.mp hws)]
    exact connectMqtt_running h mqtt

theorem disconnectMqtt_running (h : Running f b s) (hmqtt : f.iot = true → s.ctx.iotMqttCtx ≠ none) :
    disconnectMqtt f s = some (volcOk, s) := by
  rw [disconnectMqtt]
  by_cases hiot : f.iot = false
  · rw [if_pos hiot]
  rw [if_neg hiot]
  obtain ⟨ctx, hctx⟩ := Option.ne_none_iff_exists'.mp (hmqtt (eq_true_of_ne_false hiot))
  have hreads := live_mqtt h.ready hctx
  have hlive : ∀ n ∈ [ctx.self, ctx.context], s.heap.Live n := by
    intro n hn
    apply hreads
    rcases List.mem_cons.mp hn with rfl | hn
    · exact List.mem_cons_self
    · exact List.mem_cons_of_mem _ (List.mem_append_right _ hn)
  rw [hctx]
  exact after_uses hlive

theorem disconnectWs_running (h : Running f b s) (hmqtt : f.iot = true → s.ctx.iotMqttCtx ≠ none) :
    disconnectWs f s = some (volcOk, s) := by
  rw [disconnectWs]
  by_cases hrealtime : f.aiRealtime = false
  · rw [if_pos hrealtime]
    exact disconnectMqtt_running h hmqtt
  rw [if_neg hrealtime]
  obtain ⟨ctx, hctx, hlive⟩ := live_ws h (eq_true_of_ne_false hrealtime)
  rw [hctx]
  exact (after_uses hlive).trans (disconnectMqtt_running h hmqtt)

def others (f : Features) (s : Sdk) : List Nat :=
  wsReleases f s ++ llmReleases f s ++ (mqttReleases f s ++ (basicReleases s ++ mqttCtxs s))

theorem owned_noChat (h : s.ctx.chatCtx = none) : Owned f s ↔ Owns s.heap (others f s) := by
  have hnothing : chatReleases f s = [] := by
    rw [chatReleases, h]
    split <;> rfl
  rw [Owned, held, hnothing, List.append_nil]
  exact Iff.rfl

theorem owned_chat (hai : f.ai = true) (h : s.ctx.chatCtx = some chat) :
    Owned f s ↔ Owns s.heap (ownedByChat chat ++ others f s) := by
  have howned : chatReleases f s = ownedByChat chat := by rw [chatReleases, if_pos hai, h]; rfl
  rw [Owned, held, howned, others]
  apply owns_perm
  refine (List.perm_append_comm.append_right _).trans ?_
  rw [List.append_assoc (ownedByChat chat)]

theorem set_chat (h : Ready f b s) (chat' : ChatContext) (hai : f.ai = true) (hchat : s.ctx.chatCtx = some chat)
    (hllm : chat'.llmConfig = chat.llmConfig) (hbasic : chat'.iotBasicCtx = chat.iotBasicCtx) {l : Lifetimes}
    (howns : Owns l (ownedByChat chat' ++ others f s)) : Ready f b (withChat { s with heap := l } chat') := by
  obtain ⟨-, hllmConfig, hiotBasicCtx⟩ := h.chat chat hchat
  refine ⟨(owned_chat hai rfl).mpr howns, h.config, h.basic, ?_, h.ws, h.mqtt⟩
  rintro _ ⟨⟩
  exact ⟨hai, hllm.trans hllmConfig, hbasic.trans hiotBasicCtx⟩

theorem no_chat (h : Ready f b s) {l : Lifetimes} (howns : Owns l (others f s)) :
    Ready f b { s with heap := l, ctx := { s.ctx with chatCtx := none } } :=
  ⟨(owned_noChat rfl).mpr howns, h.config, h.basic, fun _ hchat => (nomatch hchat), h.ws, h.mqtt⟩

def beside (s : Sdk) : Option IotMqttCtx × Option AigwWsCtx × OnesdkConfig :=
  (s.ctx.iotMqttCtx, s.ctx.aigwWsCtx, s.config)

theorem releaseChat_running (h : Running f b s) :
    ∃ s', (∀ rest, releaseChat s rest = rest s') ∧ Running f b s' ∧ s'.ctx.chatCtx = none ∧
      beside s' = beside s ∧ (s.ctx.chatCtx = none → s' = s) := by
  cases hchat : s.ctx.chatCtx with
  | none => exact ⟨s, fun rest => by rw [releaseChat, hchat], h, hchat, rfl, fun _ => rfl⟩
  | some chat =>
      have hai := (h.ready.chat chat hchat).1
      obtain ⟨l, hperform, howns, -⟩ := perform_frees [] ((owned_chat hai hchat).mp h.ready.owned)
      rw [List.append_nil] at hperform
      refine ⟨_, fun rest => ?_, ⟨no_chat h.ready howns, h.ws⟩, rfl, rfl, fun hnone => nomatch hnone⟩
      rw [releaseChat, hchat]
      dsimp only
      rw [after, hperform]
      rfl

theorem onesdkDisconnect_running (h : Running f b s) (hmqtt : f.iot = true → s.ctx.iotMqttCtx ≠ none) :
    ∃ s', onesdkDisconnect f s = some (volcOk, s') ∧ Running f b s' ∧ s'.ctx.chatCtx = none ∧
      beside s' = beside s ∧ (s.ctx.chatCtx = none → s' = s) := by
  rw [onesdkDisconnect]
  by_cases hai : f.ai = false
  · have hchat : s.ctx.chatCtx = none := by
      by_contra hne
      obtain ⟨chat, hchat⟩ := Option.ne_none_iff_exists'.mp hne
      exact absurd (h.ready.chat chat hchat).1 (by rw [hai]; decide)
    rw [if_pos hai]
    exact ⟨s, disconnectWs_running h hmqtt, h, hchat, rfl, fun _ => rfl⟩
  · rw [if_neg hai]
    obtain ⟨s', hrest, hrunning, hnone, hsame, hnothing⟩ := releaseChat_running h
    refine ⟨s', ?_, hrunning, hnone, hsame, hnothing⟩
    rw [hrest]
    exact disconnectWs_running hrunning (by rwa [(Prod.mk.inj hsame).1])

theorem sendRequest_running (h : Running f b s) (hchat : s.ctx.chatCtx = some chat) (r : ChatAttempt) :
    ∃ ret s', sendRequest r chat s = some (ret, s') ∧ Running f b s' ∧ s'.ctx.chatCtx ≠ none ∧
      beside s' = beside s := by
  have hai := (h.ready.chat chat hchat).1
  have howns := (owned_chat hai hchat).mp h.ready.owned
  rw [ownedByChat, List.append_assoc] at howns
  have hkept : Owns s.heap (chat.self :: others f s) := owns_sublist (List.sublist_append_right _ _) howns
  have hnew : Owns s.heap.allocate ([s.heap.allocated] ++ (chat.self :: others f s)) := owns_allocate [] _ hkept
  rw [sendRequest]
  split
  · refine ⟨r.sent, _, rfl, ⟨?_, h.ws⟩, Option.some_ne_none _, rfl⟩
    exact set_chat h.ready ⟨chat.self, some s.heap.allocated, chat.llmConfig, chat.iotBasicCtx,
      true⟩ hai hchat rfl rfl hnew
  · obtain ⟨l, hperform, hrest, -⟩ := perform_frees [] hnew
    have hfree : perform (new s).heap (frees [s.heap.allocated]) = some l := hperform
    refine ⟨if r.response then volcOk else -1, _, ?_,
      ⟨set_chat h.ready ⟨chat.self, none, chat.llmConfig, chat.iotBasicCtx, false⟩ hai hchat rfl rfl hrest,
        h.ws⟩, Option.some_ne_none _, rfl⟩
    rw [after, hfree]
    rfl

theorem onesdkChat_running (h : Running f b s) (hchat : s.ctx.chatCtx = some chat) (r : ChatAttempt) :
    ∃ ret s', onesdkChat r s = some (ret, s') ∧ Running f b s' ∧ s'.ctx.chatCtx ≠ none ∧
      beside s' = beside s := by
  have hlive : ∀ n ∈ ofChat chat, s.heap.Live n := fun n hn => h.ready.live_chat hchat hn
  have hself : ∀ n ∈ [chat.self], s.heap.Live n := fun n hn => hlive n (by
    rw [List.mem_singleton.mp hn]
    exact List.mem_cons_self)
  have hllm : ∀ n ∈ chat.llmConfig.toList, s.heap.Live n := fun n hn =>
    hlive n (List.mem_cons_of_mem _ (List.mem_append_left _ (List.mem_append_right _ hn)))
  have hbasic : ∀ n ∈ ofBasic chat.iotBasicCtx, s.heap.Live n := fun n hn =>
    hlive n (List.mem_cons_of_mem _ (List.mem_append_right _ hn))
  have hsame : s.ctx.chatCtx ≠ none := by rw [hchat]; exact Option.some_ne_none chat
  have hinner : onesdkChat r s = onesdkChatSendInner r chat s := by rw [onesdkChat, hchat]
  rw [hinner, onesdkChatSendInner]
  refine (after_uses hself).symm ▸ ?_
  split
  · exact ⟨_, s, rfl, h, hsame, rfl⟩
  · refine (after_uses hllm).symm ▸ ?_
    split
    · exact ⟨_, s, rfl, h, hsame, rfl⟩
    · refine (after_uses hbasic).symm ▸ ?_
      exact sendRequest_running h hchat r

theorem onesdkChatWait_running (h : Running f b s) (waited : Int) :
    ∃ ret s', onesdkChatWait waited s = some (ret, s') ∧ Running f b s' ∧
      (s'.ctx.chatCtx = none ↔ s.ctx.chatCtx = none) ∧ beside s' = beside s ∧
      (s.ctx.chatCtx = none → ret ≠ volcOk) := by
  rw [onesdkChatWait]
  cases hchat : s.ctx.chatCtx with
  | none => exact ⟨-1, s, rfl, h, iff_of_true hchat rfl, rfl, fun _ => by decide⟩
  | some chat =>
      have hai := (h.ready.chat chat hchat).1
      have hself : ∀ n ∈ [chat.self], s.heap.Live n := by
        intro n hn
        rw [List.mem_singleton.mp hn]
        exact h.ready.live_chat hchat List.mem_cons_self
      have hsame : s.ctx.chatCtx = none ↔ some chat = none := by rw [hchat]
      dsimp only
      refine (after_uses hself).symm ▸ ?_
      split
      · exact ⟨volcOk, s, rfl, h, hsame, rfl, fun hnone => nomatch hnone⟩
      · cases hrequest : chat.requestContext with
        | none => exact ⟨-1, s, rfl, h, hsame, rfl, fun hnone => nomatch hnone⟩
        | some request =>
            have howns := (owned_chat hai hchat).mp h.ready.owned
            rw [ownedByChat, hrequest, List.append_assoc] at howns
            obtain ⟨l, hperform, hrest, -⟩ := perform_frees [] howns
            have hlive : s.heap.Live request := howns.2 request List.mem_cons_self
            have haccess : perform s.heap [.use request, .free request] = some l := (perform_use hlive).trans hperform
            refine ⟨waited, _, ?_, ⟨set_chat h.ready { chat with requestContext := none } hai hchat rfl rfl
              hrest, h.ws⟩, iff_of_false (Option.some_ne_none _) (Option.some_ne_none _), rfl, fun hnone =>
                nomatch hnone⟩
            dsimp only
            rw [after, haccess]
            rfl

end Steps

section Runs

variable {f : Features} {b : IotBasicCtx} {a : Attempt} {s s' : Sdk} {call : Call} {calls : List Call}

/-- What the calls need that do not look for it: the MQTT context, the context of the socket
library and the chat context. -/
def Possible (f : Features) (s : Sdk) : Call → Prop
  | .connect _ _ => f.aiRealtime = true → ∀ ctx, s.ctx.aigwWsCtx = some ctx → ctx.lwsCtx = true
  | .disconnect => f.iot = true → s.ctx.iotMqttCtx ≠ none
  | .chat _ => s.ctx.chatCtx ≠ none
  | _ => True

structure Moved (f : Features) (b : IotBasicCtx) (s : Sdk) (call : Call) (ret : Int) (s' : Sdk) : Prop where
  running : Running f b s'
  absent : Absent s call → ret ≠ volcOk ∨ s' = s
  chat : s'.ctx.chatCtx = none ↔ s.ctx.chatCtx = none ∨ ReleasesChat call
  mqtt : s'.ctx.iotMqttCtx = none ↔ s.ctx.iotMqttCtx = none
  ws : s'.ctx.aigwWsCtx = s.ctx.aigwWsCtx
  config : s'.config = s.config
  wired : Wired s' ↔ Wired s ∨ s.ctx.iotMqttCtx ≠ none ∧ Links f call

theorem Moved.of_beside {ret : Int} (hrunning : Running f b s') (habsent : Absent s call → ret ≠ volcOk ∨ s' = s)
    (hchat : s'.ctx.chatCtx = none ↔ s.ctx.chatCtx = none ∨ ReleasesChat call) (hbeside : beside s' = beside s)
    (hlinks : ¬Links f call) : Moved f b s call ret s' := by
  obtain ⟨hmqtt, hrest⟩ := Prod.mk.inj hbeside
  obtain ⟨hws, hconfig⟩ := Prod.mk.inj hrest
  refine ⟨hrunning, habsent, hchat, by rw [hmqtt], hws, hconfig, ?_⟩
  rw [Wired, hmqtt, ← Wired]
  exact (or_iff_left fun h => hlinks h.2).symm

theorem step_moved (h : Running f b s) (hpossible : Possible f s call) :
    ∃ ret s', step f s call = some (ret, s') ∧ Moved f b s call ret s' := by
  cases call with
  | connect ws mqtt =>
      obtain ⟨ret, s', hresult, hc⟩ := onesdkConnect_running h ws mqtt hpossible
      refine ⟨ret, s', hresult, hc.running, fun habsent => .inr (hc.absent habsent), ?_, hc.mqtt, hc.ws,
        hc.config, hc.wired⟩
      rw [hc.chat]
      exact (or_iff_left id).symm
  | disconnect =>
      obtain ⟨s', hresult, hrunning, hnone, hbeside, hnothing⟩ := onesdkDisconnect_running h hpossible
      exact ⟨volcOk, s', hresult, .of_beside hrunning (fun habsent => .inr (hnothing habsent.1))
        (iff_of_true hnone (.inr trivial)) hbeside id⟩
  | chat r =>
      obtain ⟨chat, hchat⟩ := Option.ne_none_iff_exists'.mp hpossible
      obtain ⟨ret, s', hresult, hrunning, hsome, hbeside⟩ := onesdkChat_running h hchat r
      exact ⟨ret, s', hresult, .of_beside hrunning (fun habsent => absurd habsent hpossible)
        (iff_of_false hsome (not_or.mpr ⟨hpossible, id⟩)) hbeside id⟩
  | chatWait waited =>
      obtain ⟨ret, s', hresult, hrunning, hchat, hbeside, hfails⟩ := onesdkChatWait_running h waited
      exact ⟨ret, s', hresult, .of_beside hrunning (fun habsent => .inl (hfails habsent))
        (hchat.trans (or_iff_left id).symm) hbeside id⟩
  | chatReleaseContext =>
      obtain ⟨s', hrest, hrunning, hnone, hbeside, hnothing⟩ := releaseChat_running h
      have hresult : step f s .chatReleaseContext = some (volcOk, s') := hrest fun s => some (volcOk, s)
      exact ⟨volcOk, s', hresult, .of_beside hrunning (fun habsent => .inr (hnothing habsent))
        (iff_of_true hnone (.inr trivial)) hbeside id⟩

theorem step_impossible (h : Running f b s) (hnot : ¬Possible f s call) : step f s call = none := by
  cases call with
  | connect ws mqtt =>
      simp only [Possible, Classical.not_imp, not_forall] at hnot
      obtain ⟨hrealtime, ctx, hctx, hlws⟩ := hnot
      rw [step, onesdkConnect, if_neg (by rw [hrealtime]; exact Bool.true_eq_false.mp), hctx]
      exact if_pos (Bool.eq_false_iff.mpr hlws)
  | disconnect =>
      obtain ⟨hiot, hnone⟩ := Classical.not_imp.mp hnot
      have hnone : s.ctx.iotMqttCtx = none := not_not.mp hnone
      have hmqtt {s : Sdk} (h : s.ctx.iotMqttCtx = none) : disconnectMqtt f s = none := by
        rw [disconnectMqtt, hiot, h]
        rfl
      have hws {s : Sdk} (hrunning : Running f b s) (h : s.ctx.iotMqttCtx = none) : disconnectWs f s = none := by
        rw [disconnectWs]
        by_cases hrealtime : f.aiRealtime = false
        · rw [if_pos hrealtime]
          exact hmqtt h
        · rw [if_neg hrealtime]
          obtain ⟨ctx, hctx, hlive⟩ := live_ws hrunning (eq_true_of_ne_false hrealtime)
          rw [hctx]
          exact (after_uses hlive).trans (hmqtt h)
      obtain ⟨s', hrest, hrunning, -, hsame, -⟩ := releaseChat_running h
      rw [step, onesdkDisconnect]
      split
      · exact hws h hnone
      · rw [hrest]
        exact hws hrunning ((Prod.mk.inj hsame).1.trans hnone)
  | chat r =>
      have hnone : s.ctx.chatCtx = none := not_not.mp hnot
      rw [step, onesdkChat, hnone]
  | chatWait waited => exact absurd trivial hnot
  | chatReleaseContext => exact absurd trivial hnot

theorem safe_iff (h : Running f b s) : Safe f s call ↔ Possible f s call := by
  constructor
  · rintro ⟨ret, s', hresult, -⟩
    by_contra hnot
    rw [step_impossible h hnot] at hresult
    exact nomatch hresult
  · intro hpossible
    obtain ⟨ret, s', hresult, hmoved⟩ := step_moved h hpossible
    exact ⟨ret, s', hresult, hmoved.absent⟩

theorem next_moved (h : Running f b s) (hpossible : Possible f s call) :
    ∃ ret, Moved f b s call ret ((sdk f).next s call) := by
  obtain ⟨ret, s', hresult, hmoved⟩ := step_moved h hpossible
  have hnext : (sdk f).next s call = s' := by
    change ((step f s call).map Prod.snd).getD s = s'
    rw [hresult]
    rfl
  exact ⟨ret, hnext ▸ hmoved⟩

def Contextless (s : Sdk) : Prop := ∃ ctx, s.ctx.aigwWsCtx = some ctx ∧ ctx.lwsCtx = false

theorem possible_call_iff :
    Possible f s call ↔
      (f.iot = true → s.ctx.iotMqttCtx = none → .disconnect ≠ call) ∧
        (f.aiRealtime = true → Contextless s → ¬Connects call) ∧ (s.ctx.chatCtx = none → ¬Chats call) := by
  cases call with
  | connect ws mqtt =>
      constructor
      · intro hpossible
        refine ⟨fun _ _ => by rintro ⟨⟩, fun hrealtime => ?_, fun _ => id⟩
        rintro ⟨ctx, hctx, hlws⟩ -
        exact Bool.eq_false_iff.mp hlws (hpossible hrealtime ctx hctx)
      · rintro ⟨-, hws, -⟩ hrealtime ctx hctx
        by_contra hlws
        exact hws hrealtime ⟨ctx, hctx, Bool.eq_false_iff.mpr hlws⟩ trivial
  | disconnect =>
      constructor
      · exact fun hpossible => ⟨fun hiot hnone _ => hpossible hiot hnone, fun _ _ => id, fun _ => id⟩
      · exact fun ⟨hmqtt, _⟩ hiot hnone => hmqtt hiot hnone rfl
  | chat r =>
      constructor
      · exact fun hpossible => ⟨fun _ _ => by rintro ⟨⟩, fun _ _ => id, fun hnone => absurd hnone hpossible⟩
      · exact fun ⟨_, _, hchat⟩ hnone => hchat hnone trivial
  | chatWait | chatReleaseContext => exact iff_of_true trivial ⟨fun _ _ => by rintro ⟨⟩, fun _ _ => id, fun _ => id⟩

theorem possible_iff (h : Running f b s) :
    EveryStep (sdk f) (Possible f) s calls ↔
      (f.iot = true → s.ctx.iotMqttCtx = none → .disconnect ∉ calls) ∧
        (f.aiRealtime = true → Contextless s → ∀ call ∈ calls, ¬Connects call) ∧
        (s.ctx.chatCtx = none → ∀ call ∈ calls, ¬Chats call) ∧
        calls.Pairwise fun call later => ReleasesChat call → ¬Chats later := by
  induction calls generalizing s with
  | nil =>
      exact iff_of_true trivial ⟨fun _ _ => List.not_mem_nil, fun _ _ _ hcall => absurd hcall List.not_mem_nil,
        fun _ _ hcall => absurd hcall List.not_mem_nil, .nil⟩
  | cons call calls ih =>
      rw [EveryStep, List.pairwise_cons]
      constructor
      · rintro ⟨hpossible, hrest⟩
        obtain ⟨hmqtt, hws, hchat⟩ := possible_call_iff.mp hpossible
        obtain ⟨ret, hmoved⟩ := next_moved h hpossible
        obtain ⟨hmqtt', hws', hchat', hpairs⟩ := (ih hmoved.running).mp hrest
        rw [hmoved.mqtt] at hmqtt'
        rw [Contextless, hmoved.ws, ← Contextless] at hws'
        rw [hmoved.chat] at hchat'
        refine ⟨fun hiot hnone => List.not_mem_cons_of_ne_of_not_mem (hmqtt hiot hnone) (hmqtt' hiot hnone),
          fun hrealtime hless => ?_, fun hnone => ?_, fun later hmem hreleases =>
            hchat' (.inr hreleases) later hmem, hpairs⟩
        · exact List.forall_mem_cons.mpr ⟨hws hrealtime hless, hws' hrealtime hless⟩
        · exact List.forall_mem_cons.mpr ⟨hchat hnone, hchat' (.inl hnone)⟩
      · rintro ⟨hmqtt, hws, hchat, hhead, hpairs⟩
        have hpossible : Possible f s call :=
          possible_call_iff.mpr ⟨fun hiot hnone => List.ne_of_not_mem_cons (hmqtt hiot hnone),
            fun hrealtime hless => hws hrealtime hless call List.mem_cons_self, fun hnone =>
              hchat hnone call List.mem_cons_self⟩
        obtain ⟨ret, hmoved⟩ := next_moved h hpossible
        refine ⟨hpossible, (ih hmoved.running).mpr ?_⟩
        rw [Contextless, hmoved.ws, ← Contextless, hmoved.mqtt, hmoved.chat]
        refine ⟨fun hiot hnone => List.not_mem_of_not_mem_cons (hmqtt hiot hnone),
          fun hrealtime hless => (List.forall_mem_cons.mp (hws hrealtime hless)).2, ?_, hpairs⟩
        rintro (hnone | hreleases)
        · exact (List.forall_mem_cons.mp (hchat hnone)).2
        · exact fun later hmem => hhead later hmem hreleases

/-- A run whose calls all go through leaves the configuration alone, and a connection of
the MQTT context is there just when it was or one of the calls got it. -/
theorem final_moved (h : Running f b s) (hpossible : EveryStep (sdk f) (Possible f) s calls) :
    Running f b (final (sdk f) s calls) ∧ (final (sdk f) s calls).config = s.config ∧
      (Wired (final (sdk f) s calls) ↔ Wired s ∨ s.ctx.iotMqttCtx ≠ none ∧ ∃ call ∈ calls, Links f call) := by
  induction calls generalizing s with
  | nil => exact ⟨h, rfl, (or_iff_left fun hlinks => by simp at hlinks).symm⟩
  | cons call calls ih =>
      obtain ⟨ret, hmoved⟩ := next_moved h hpossible.1
      obtain ⟨hrunning, hconfig, hwired⟩ := ih hmoved.running hpossible.2
      refine ⟨hrunning, hconfig.trans hmoved.config, hwired.trans ?_⟩
      rw [hmoved.wired, or_assoc, ne_eq, ne_eq, hmoved.mqtt, ← and_or_left]
      simp only [List.mem_cons, exists_eq_or_imp]

/-- A final `onesdk_deinit` that goes through meets no connection that it would open again. -/
theorem onesdkDeinit_iff {up : Bool} (h : Running f b s) :
    (∃ s', onesdkDeinit f s up = some s') ↔ (f.iot = true → reconnects s = true → up = true → ¬Wired s) := by
  have hquiet : Quiet up s ↔ (reconnects s = true → up = true → ¬Wired s) := by
    simp only [Quiet, Wired, not_exists, not_and, Bool.and_eq_false_iff]
    grind
  rw [← hquiet]
  constructor
  · rintro ⟨s', hs'⟩ hiot
    by_contra hnot
    have hmqtt : s.ctx.iotMqttCtx ≠ none := by
      intro hnone
      exact hnot fun mqtt hmqtt => absurd (hmqtt.symm.trans hnone) (Option.some_ne_none mqtt)
    rw [onesdkDeinit_reconnects hiot (h.ready.mqtt hmqtt).2 hnot] at hs'
    exact absurd hs'.symm (Option.some_ne_none s')
  · exact onesdkDeinit_quiet h.ready.owned

theorem compiled_of_legal (hlegal : Legal (sdk f) s calls) : ∀ call ∈ calls, Compiled f call := by
  induction calls generalizing s with
  | nil => exact fun _ hmem => absurd hmem List.not_mem_nil
  | cons call calls ih =>
      intro later hmem
      rcases List.mem_cons.mp hmem with rfl | hmem
      · exact hlegal.1
      · exact ih hlegal.2 later hmem

theorem running_of_equipped (h : Equipped f a s) (hready : Ready f b s) : Running f b s := by
  refine ⟨hready, fun hrealtime => ?_⟩
  obtain ⟨self, hws⟩ := h.ws hrealtime
  rw [hws]
  exact Option.some_ne_none _

theorem contextless_iff (h : Equipped f a s) (hrealtime : f.aiRealtime = true) :
    Contextless s ↔ a.wsContext = false := by
  obtain ⟨self, hws⟩ := h.ws hrealtime
  rw [Contextless, hws]
  simp only [Option.some.injEq, exists_eq_left']

theorem not_chats (h : Equipped f a s) (hlegal : Legal (sdk f) s calls) (hnone : s.ctx.chatCtx = none) :
    ∀ call ∈ calls, ¬Chats call := by
  intro call hmem hchats
  have hcompiled := compiled_of_legal hlegal call hmem
  cases call with
  | chat r => exact h.chat hcompiled hnone
  | _ => exact hchats

theorem not_wired (h : Equipped f a s) : ¬Wired s := by
  rintro ⟨mqtt, hmqtt, hwsi⟩
  exact Bool.eq_false_iff.mp (h.idle mqtt hmqtt) hwsi

theorem reconnects_eq_true : reconnects s = true ↔ s.config.mqttConfig.map IotMqttConfig.autoReconnect = some true := by
  rw [reconnects]
  cases s.config.mqttConfig <;> simp

/-- The final `onesdk_deinit` of a run whose calls all go through, told from the calls. -/
theorem deinit_final_iff {up : Bool} (h : Running f b s) (hequipped : Equipped f a s)
    (hpossible : EveryStep (sdk f) (Possible f) s calls) :
    (∃ s', onesdkDeinit f (final (sdk f) s calls) up = some s') ↔
      (f.iot = true → s.config.mqttConfig.map IotMqttConfig.autoReconnect = some true → up = true →
        ∀ call ∈ calls, ¬Links f call) := by
  obtain ⟨hfinal, hconfig, hwired⟩ := final_moved h hpossible
  rw [onesdkDeinit_iff hfinal, reconnects_eq_true, hconfig, hwired, or_iff_right (not_wired hequipped)]
  refine imp_congr_right fun hiot => imp_congr_right fun hauto => imp_congr_right fun _ => ?_
  have hsome : s.ctx.iotMqttCtx ≠ none := by
    rw [ne_eq, hequipped.mqtt hiot, ← Option.map_eq_none_iff, hauto]
    exact Option.some_ne_none true
  rw [and_iff_right hsome]
  simp only [not_exists, not_and]

/-- In any build and for any configuration that `onesdk_init` accepts, the calls and a final
`onesdk_deinit` are safe just when they are ordered. -/
theorem safe_always_iff (f : Features) (g : Given) (a : Attempt) (up : Bool)
    (hinit : onesdkInit f a (start g) = some (volcOk, s)) (hlegal : Legal (sdk f) s calls) :
    (EveryStep (sdk f) (Safe f) s calls ∧ ∃ s', onesdkDeinit f (final (sdk f) s calls) up = some s') ↔
      Ordered f g a up calls := by
  obtain ⟨b, hready, hequipped⟩ := onesdkInit_equipped (start_kept g).known hinit
  have hrunning := running_of_equipped hequipped hready
  have hgiven : s.config.mqttConfig.map IotMqttConfig.autoReconnect = g.mqttConfig :=
    (onesdkInit_kept (start_kept g) hinit).mqttConfig
  have hkeep : ∀ s call, Running f b s → (sdk f).enabled s call → Possible f s call →
      Running f b ((sdk f).next s call) := by
    intro s call h _ hpossible
    obtain ⟨ret, hmoved⟩ := next_moved h hpossible
    exact hmoved.running
  have hsafe : EveryStep (sdk f) (Safe f) s calls ↔ EveryStep (sdk f) (Possible f) s calls :=
    everyStep_iff hkeep (fun _ _ h _ => safe_iff h) hrunning hlegal
  have hnoMqtt : f.iot = true → (s.ctx.iotMqttCtx = none ↔ g.mqttConfig = none) := by
    intro hiot
    rw [hequipped.mqtt hiot, ← hgiven, Option.map_eq_none_iff]
  rw [hsafe, and_congr_right (deinit_final_iff hrunning hequipped), hgiven, possible_iff hrunning]
  constructor
  · rintro ⟨⟨hmqtt, hws, -, hpairs⟩, hlinks⟩
    exact ⟨fun hiot hnone => hmqtt hiot ((hnoMqtt hiot).mpr hnone),
      fun hrealtime hless => hws hrealtime ((contextless_iff hequipped hrealtime).mpr hless), hpairs, hlinks⟩
  · rintro ⟨hmqtt, hws, hpairs, hlinks⟩
    exact ⟨⟨fun hiot hnone => hmqtt hiot ((hnoMqtt hiot).mp hnone),
      fun hrealtime hless => hws hrealtime ((contextless_iff hequipped hrealtime).mp hless),
      not_chats hequipped hlegal, hpairs⟩, hlinks⟩

end Runs

section Examples

def complete : Features := ⟨true, true, true⟩

def succeeding : Attempt := ⟨true, true, true, true, true, true, true, true, true, true, true, true, true⟩

def withMqttConfig : Given := ⟨true, false, some false⟩

def withoutMqttConfig : Given := ⟨true, false, none⟩

def reconnecting : Given := ⟨true, false, some true⟩

def initialised (a : Attempt) (g : Given) : Sdk := ((onesdkInit complete a (start g)).map Prod.snd).getD (start g)

def streamed : ChatAttempt := ⟨true, false, true, true, 0, true⟩

theorem session_safe :
    EveryStep (sdk complete) (Safe complete) (initialised succeeding withMqttConfig)
        [.connect 0 0, .chat streamed, .chatWait 0, .disconnect] ∧
      ∃ s', onesdkDeinit complete
        (final (sdk complete) (initialised succeeding withMqttConfig)
          [.connect 0 0, .chat streamed, .chatWait 0, .disconnect]) true = some s' := by
  have hinit : onesdkInit complete succeeding (start withMqttConfig) =
      some (volcOk, initialised succeeding withMqttConfig) := rfl
  have hlegal : Legal (sdk complete) (initialised succeeding withMqttConfig)
      [.connect 0 0, .chat streamed, .chatWait 0, .disconnect] := ⟨trivial, rfl, rfl, trivial, trivial⟩
  apply (safe_always_iff complete withMqttConfig succeeding true hinit hlegal).mpr
  refine ⟨fun _ hnone => (nomatch hnone), fun _ hless => (nomatch hless), ?_, fun _ hauto => (nomatch hauto)⟩
  simp [ReleasesChat, Chats]

/-- A disconnect without MQTT, a chat after the release of its context, a connect without a
context of the socket library, and a deinit that closes a connection to be opened again. -/
theorem missing_guards :
    onesdkInit complete succeeding (start withoutMqttConfig) =
        some (volcOk, initialised succeeding withoutMqttConfig) ∧
      ¬EveryStep (sdk complete) (Safe complete) (initialised succeeding withoutMqttConfig) [.disconnect] ∧
      ¬EveryStep (sdk complete) (Safe complete) (initialised succeeding withMqttConfig)
        [.chatReleaseContext, .chat streamed] ∧
      ¬EveryStep (sdk complete) (Safe complete) (initialised { succeeding with wsContext := false } withMqttConfig)
        [.connect 0 0] ∧
      onesdkDeinit complete (final (sdk complete) (initialised succeeding reconnecting) [.connect 0 0]) true =
        none := by
  refine ⟨rfl, ?_, ?_, ?_, rfl⟩
  · rintro ⟨⟨ret, s', hresult, -⟩, -⟩
    have hnone : step complete (initialised succeeding withoutMqttConfig) .disconnect = none := rfl
    exact nomatch hnone.symm.trans hresult
  · rintro ⟨-, ⟨ret, s', hresult, -⟩, -⟩
    have hnone : step complete ((sdk complete).next (initialised succeeding withMqttConfig) .chatReleaseContext)
        (.chat streamed) = none := rfl
    exact nomatch hnone.symm.trans hresult
  · rintro ⟨⟨ret, s', hresult, -⟩, -⟩
    have hnone : step complete (initialised { succeeding with wsContext := false } withMqttConfig)
        (.connect 0 0) = none := rfl
    exact nomatch hnone.symm.trans hresult

end Examples

end OneSdk.SdkSafety
