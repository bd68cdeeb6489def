import OneSdk.Accesses
import OneSdk.ErrorCode

namespace OneSdk.SdkLifecycle

open Accesses ErrorCode

structure Features where
  ai : Bool
  aiRealtime : Bool
  iot : Bool

/-- `iot_basic_ctx_t`, whose `config` is a copy with strings of its own. -/
structure IotBasicCtx where
  self : Nat
  config : Option Nat

structure ChatContext where
  self : Nat
  requestContext : Option Nat
  llmConfig : Option Nat
  iotBasicCtx : IotBasicCtx
  isStreaming : Bool

/-- `aigw_ws_ctx_t`. `lwsCtx` tells whether it has a context of the socket library, which
`aigw_ws_init` does not look at. -/
structure AigwWsCtx where
  self : Nat
  lwsCtx : Bool

/-- `iot_mqtt_ctx_t`, whose `context` belongs to the socket library. `wsi` tells whether
`iot_mqtt_connect` has got a connection from it. -/
structure IotMqttCtx where
  self : Nat
  context : Nat
  wsi : Bool

structure Ctx where
  config : Bool
  iotBasicCtx : Option IotBasicCtx
  chatCtx : Option ChatContext
  aigwWsCtx : Option AigwWsCtx
  iotMqttCtx : Option IotMqttCtx

structure IotMqttConfig where
  autoReconnect : Bool
  basicConfig : Option Nat
  username : Option Nat
  password : Option Nat

/-- `onesdk_config_t`. A missing configuration is one without a `device_config`. -/
structure OnesdkConfig where
  deviceConfig : Bool
  aigwLlmConfig : Option Nat
  mqttConfig : Option IotMqttConfig

structure Sdk where
  heap : Lifetimes
  ctx : Ctx
  config : OnesdkConfig

def zeroCtx : Ctx := ⟨false, none, none, none, none⟩

def new (s : Sdk) : Sdk := { s with heap := s.heap.allocate }

structure Attempt where
  iotBasicCtx : Bool
  configDup : Bool
  registered : Bool
  llmConfig : Bool
  fetched : Bool
  chatCtx : Bool
  endpoint : Bool
  wsConfig : Bool
  wsCtx : Bool
  wsContext : Bool
  wsInit : Bool
  mqttCtx : Bool
  lwsContext : Bool

def ofBasic (b : IotBasicCtx) : List Nat := b.config.toList ++ [b.self]

def onesdkIotBasicDeinit (b : IotBasicCtx) : List Access := .use b.self :: frees (ofBasic b)

section Init

def abandon (s : Sdk) (accesses : List Access) (code : Int) : Option (Int × Sdk) :=
  (perform s.heap accesses).map fun heap => (code, { s with heap := heap })

variable (f : Features) (a : Attempt) (b : IotBasicCtx)

/-- The part of `onesdk_init` under `ONESDK_ENABLE_IOT`, with `iot_mqtt_init`. -/
def initMqtt (s : Sdk) : Option (Int × Sdk) :=
  if f.iot = false then some (volcOk, s)
  else
    match s.config.mqttConfig with
    | none => some (volcOk, s)
    | some mqtt =>
        let s := { s with config := { s.config with mqttConfig := some { mqtt with basicConfig := b.config } } }
        if a.mqttCtx = false then some (volcErrInit, s)
        else
          let iotMqttCtx := s.heap.allocated
          let s := new s
          let username := s.heap.allocated
          let s := new s
          let password := s.heap.allocated
          let s := new { s with
            config := { s.config with mqttConfig := some ⟨mqtt.autoReconnect, b.config, some username, some password⟩ } }
          if a.lwsContext = false then abandon s (onesdkIotBasicDeinit b ++ frees [iotMqttCtx]) volcErrInit
          else
            let context := s.heap.allocated
            some (volcOk, new { s with ctx := { s.ctx with iotMqttCtx := some ⟨iotMqttCtx, context, false⟩ } })

/-- The part under `ONESDK_ENABLE_AI_REALTIME`. The gateway's configuration is a copy that
lives until `aigw_ws_init` has copied it again. -/
def initWs (s : Sdk) : Option (Int × Sdk) :=
  if f.aiRealtime = false then initMqtt f a b s
  else if a.wsConfig = false then abandon s (onesdkIotBasicDeinit b) volcErrMalloc
  else
    let wsConfig := s.heap.allocated
    let s := new s
    match s.config.aigwLlmConfig with
    | none => abandon s (onesdkIotBasicDeinit b ++ frees [wsConfig]) volcErrInvalidParam
    | some _ =>
        if a.wsCtx = false then abandon s (onesdkIotBasicDeinit b ++ frees [wsConfig]) volcErrMalloc
        else
          let wsCtx := s.heap.allocated
          let s := new s
          if a.wsInit = false then
            abandon s (frees [wsConfig] ++ (onesdkIotBasicDeinit b ++ frees [wsCtx])) volcErrMalloc
          else
            (perform s.heap (frees [wsConfig])).bind fun heap =>
              initMqtt f a b { s with heap := heap, ctx := { s.ctx with aigwWsCtx := some ⟨wsCtx, a.wsContext⟩ } }

def initChat (s : Sdk) : Option (Int × Sdk) :=
  if f.ai = false then initWs f a b s
  else if a.chatCtx = false then abandon s (onesdkIotBasicDeinit b) volcErrMalloc
  else
    let chatCtx := s.heap.allocated
    let s := new s
    if a.endpoint = false then abandon s (onesdkIotBasicDeinit b) volcErrMalloc
    else
      initWs f a b
        { s with ctx := { s.ctx with chatCtx := some ⟨chatCtx, none, s.config.aigwLlmConfig, b, false⟩ } }

/-- The call of `onesdk_fetch_config`, which does not look at what `malloc` returns. -/
def initLlm (s : Sdk) : Option (Int × Sdk) :=
  if (f.ai || f.aiRealtime) = false then initChat f a b s
  else if a.llmConfig = false then none
  else
    let aigwCfg := s.heap.allocated
    let s := new s
    if a.fetched = false then abandon s (onesdkIotBasicDeinit b) volcErrInvalidParam
    else initChat f a b { s with config := { s.config with aigwLlmConfig := some aigwCfg } }

/-- The result and the state afterwards, where the call goes through. Without a copy of the
configuration `dynamic_register` reads through a null pointer. -/
def onesdkInit (s : Sdk) : Option (Int × Sdk) :=
  let s := { s with ctx := zeroCtx }
  if a.iotBasicCtx = false then some (volcErrMalloc, s)
  else
    let iotBasicCtx := s.heap.allocated
    let s := new s
    if s.config.deviceConfig = false then abandon s (onesdkIotBasicDeinit ⟨iotBasicCtx, none⟩) volcErrInvalidParam
    else
      let s := { s with ctx := { s.ctx with config := true } }
      if a.configDup = false then none
      else
        let b : IotBasicCtx := ⟨iotBasicCtx, some s.heap.allocated⟩
        let s := new s
        if a.registered = false then abandon s (onesdkIotBasicDeinit b) volcErrInvalidParam
        else initLlm f a b { s with ctx := { s.ctx with iotBasicCtx := some b } }

end Init

section Deinit

variable (f : Features) (s : Sdk)

def wsReleases : List Nat := if f.aiRealtime then s.ctx.aigwWsCtx.toList.map AigwWsCtx.self else []

def llmReleases : List Nat :=
  if (f.ai || f.aiRealtime) && s.ctx.config then s.config.aigwLlmConfig.toList else []

def chatReleases : List Nat :=
  if f.ai then
    match s.ctx.chatCtx with
    | none => []
    | some chat => chat.requestContext.toList ++ [chat.self]
  else []

def stringReleases : List Nat :=
  match s.config.mqttConfig with
  | none => []
  | some mqtt => mqtt.username.toList ++ mqtt.password.toList

def mqttReleases : List Nat :=
  if f.iot then
    match s.ctx.iotMqttCtx with
    | none => []
    | some mqtt => stringReleases s ++ [mqtt.context]
  else []

def reconnects : Bool := s.config.mqttConfig.any IotMqttConfig.autoReconnect

/-- What the callbacks of `lws_context_destroy` access. `up` tells that the connection is
established, so that `iot_mqtt_reconnect` is called where it is closed. -/
def closingAccesses (up : Bool) (mqtt : IotMqttCtx) : List Access :=
  if up && mqtt.wsi && reconnects s then .use mqtt.context :: (stringReleases s).map .use else []

def mqttAccesses (up : Bool) : List Access :=
  if f.iot then
    match s.ctx.iotMqttCtx with
    | none => []
    | some mqtt => frees (stringReleases s) ++ (closingAccesses s up mqtt ++ frees [mqtt.context])
  else []

def mqttCtxs : List Nat := s.ctx.iotMqttCtx.toList.map IotMqttCtx.self

def mqttUses : List Access := if f.iot then (mqttCtxs s).map .use else []

def basicReleases : List Nat := s.ctx.iotBasicCtx.toList.flatMap ofBasic

def basicAccesses : List Access := s.ctx.iotBasicCtx.toList.flatMap onesdkIotBasicDeinit

variable (up : Bool)

def deinitAccesses : List Access :=
  frees (wsReleases f s ++ llmReleases f s ++ chatReleases f s) ++
    (mqttUses f s ++ (mqttAccesses f s up ++ basicAccesses s))

def onesdkDeinit : Option Sdk :=
  (perform s.heap (deinitAccesses f s up)).map fun heap =>
    { s with heap := heap, ctx := { s.ctx with chatCtx := if f.ai then none else s.ctx.chatCtx } }

end Deinit

structure Given where
  deviceConfig : Bool
  aigwLlmConfig : Bool
  mqttConfig : Option Bool

def start (g : Given) : Sdk where
  heap := if g.aigwLlmConfig then Lifetimes.empty.allocate else Lifetimes.empty
  ctx := zeroCtx
  config :=
    { deviceConfig := g.deviceConfig
      aigwLlmConfig := if g.aigwLlmConfig then some 0 else none
      mqttConfig := g.mqttConfig.map fun autoReconnect => ⟨autoReconnect, none, none, none⟩ }

end OneSdk.SdkLifecycle
