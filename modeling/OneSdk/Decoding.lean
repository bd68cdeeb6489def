import OneSdk.Leftovers
import OneSdk.TmReplies

namespace OneSdk.Decoding

open CString MqttRouting TopicBuilders TmSend TmTopics Leftovers
open DynReg (awsJsonValueGetFromObject awsJsonValueNewFromString awsJsonGetStr)

abbrev Double := BitVec 64

/-- `d != 0`, where both zeros are equal to 0 and a NaN is not. -/
def nonzero (d : Double) : Bool := d <<< 1 != 0

/-- cJSON as the handlers read it, with the casts of its numbers. -/
structure CJson (J : Type) extends DynReg.CJson J Double where
  getBooleanValue : J → Option Bool
  printUnformatted : J → Option Bytes
  toInt64 : Double → Int
  toUInt64 : Double → Nat

inductive Local where
  | num (key : Bytes)
  | bool (key : Bytes)
  deriving DecidableEq

@[reducible] def Local.Value : Local → Type
  | .num _ => Double
  | .bool _ => Bool

instance : Nontrivial Double := ⟨0, 1, by decide⟩

abbrev Decode (α : Type) := Leftovers Local.Value α

inductive Level where
  | debug
  | info
  | warn
  | error
  | fatal
  deriving DecidableEq

inductive RecvData where
  | shadowGetReply (msgId : Bytes) (version : Int) (desiredJsonStr : Bytes)
  | shadowSet (shadowVersion : Int) (desiredJsonStr : Bytes)
  | eventPostReply (msgId moduleKey identifier : Bytes) (code : Int)
  | propertySetPostReply (msgId : Bytes) (code : Int)

structure JobInfo where
  otaJobId : Bytes
  destVersion : Bytes
  moduleName : Bytes
  url : Bytes
  timeoutInMinutes : Int
  size : Nat
  sign : Bytes

inductive Effect where
  | recvHandler (handler : Pointer) (productKey deviceName : Bytes) (data : RecvData)
  | sendShadowClear
  | popen (command : Bytes)
  | setLogReport (logReportSwitch : Bool) (lowestLevel : Level)
  | saveJobInfo (moduleName text : Bytes)
  | getJobInfo (job : JobInfo)
  | registered (codeN : Option Int) (len : Int) (payload : Bytes)

/-- What of the SDK is set: the receive handler of the application, the MQTT client, and
the callback for an OTA job. -/
structure Env where
  recvHandler : Option Pointer
  mqttHandle : Bool
  getJobInfoCallback : Bool

section Handlers

variable {J : Type} (json : CJson J) (env : Env)

def numMember (object : Option J) (key : Bytes) : Option Double :=
  (awsJsonValueGetFromObject json.toCJson object key).bind json.getNumberValue

def boolMember (object : Option J) (key : Bytes) : Option Bool :=
  (awsJsonValueGetFromObject json.toCJson object key).bind json.getBooleanValue

def awsJsonGetNumVal (object : Option J) (key : Bytes) : Decode (Local.num key).Value :=
  Leftovers.read (Local.num key) (numMember json object key)

def awsJsonGetBoolVal (object : Option J) (key : Bytes) : Decode (Local.bool key).Value :=
  Leftovers.read (Local.bool key) (boolMember json object key)

def parse (payload : Bytes) : Option J := awsJsonValueNewFromString json.toCJson payload

def member (object : Option J) (key : String) : Option J := awsJsonValueGetFromObject json.toCJson object (text key)

def getStr (object : Option J) (key : String) : Bytes := awsJsonGetStr json.toCJson object (text key)

def printMember (object : Option J) (key : String) : Bytes :=
  TmReplies.awsJsonGetJsonObj json.toCJson json.printUnformatted object (text key)

def tmRecvShadowGetReplyHandler (topic payload : Bytes) : Decode (List Effect) :=
  match env.recvHandler with
  | none => pure []
  | some handler =>
      let pieces := awsByteCursorSplitOnChar slash topic
      let payloadJson := parse json payload
      awsJsonGetNumVal json payloadJson (text "Code") >>= fun errorCode =>
        if nonzero errorCode then pure []
        else
          let dataJson := member json payloadJson "Data"
          awsJsonGetNumVal json dataJson (text "Version") >>= fun version =>
            let reply := RecvData.shadowGetReply (getStr json payloadJson "ID") (json.toInt64 version)
              (printMember json dataJson "Desired")
            pure (.recvHandler handler (getAt pieces 1) (getAt pieces 2) reply ::
              if env.mqttHandle then [.sendShadowClear] else [])

/-- `_tm_recv_shadow_set_handler`. The member `Params` is looked up but not used. -/
def tmRecvShadowSetHandler (topic payload : Bytes) : Decode (List Effect) :=
  match env.recvHandler with
  | none => pure []
  | some handler =>
      let pieces := awsByteCursorSplitOnChar slash topic
      let payloadJson := parse json payload
      awsJsonGetNumVal json payloadJson (text "Version") >>= fun version =>
        pure [.recvHandler handler (getAt pieces 1) (getAt pieces 2)
          (.shadowSet (json.toInt64 version) (printMember json payloadJson "Desired"))]

def tmRecvEventPostReply (topic payload : Bytes) : Decode (List Effect) :=
  match env.recvHandler with
  | none => pure []
  | some handler =>
      let pieces := awsByteCursorSplitOnChar slash topic
      let payloadJson := parse json payload
      awsJsonGetNumVal json payloadJson (text "Code") >>= fun code =>
        pure [.recvHandler handler (getAt pieces 1) (getAt pieces 2)
          (.eventPostReply (getStr json payloadJson "ID") (getAt pieces 5) (getAt pieces 6) (json.toInt32 code))]

def tmRecvPropertySetPostReply (topic payload : Bytes) : Decode (List Effect) :=
  match env.recvHandler with
  | none => pure []
  | some handler =>
      let pieces := awsByteCursorSplitOnChar slash topic
      let payloadJson := parse json payload
      awsJsonGetNumVal json payloadJson (text "Code") >>= fun code =>
        pure [.recvHandler handler (getAt pieces 1) (getAt pieces 2)
          (.propertySetPostReply (getStr json payloadJson "ID") (json.toInt32 code))]

/-- The case `3` of `_tm_recv_webshell_command_handler`, for what follows the type in the command. -/
def resizeTerminal (command : Bytes) : Decode (List Effect) :=
  let resizeTerminalJson := parse json command
  awsJsonGetNumVal json resizeTerminalJson (text "Rows") >>= fun rows =>
    awsJsonGetNumVal json resizeTerminalJson (text "Columns") >>= fun columns =>
      pure [.popen (text "resize -s " ++ Printing.signedDecimal (json.toInt32 rows) ++ [32] ++
        Printing.signedDecimal (json.toInt32 columns))]

def logStringToLevel (lowestLevel : Bytes) : Level :=
  if lowestLevel = text "debug" ∨ lowestLevel = text "DEBUG" then .debug
  else if lowestLevel = text "info" ∨ lowestLevel = text "INFO" then .info
  else if lowestLevel = text "warn" ∨ lowestLevel = text "WARN" then .warn
  else if lowestLevel = text "error" ∨ lowestLevel = text "ERROR" then .error
  else if lowestLevel = text "fatal" ∨ lowestLevel = text "FATAL" then .fatal
  else .debug

def sLogRevLogReportConfig (payload : Bytes) : Decode (List Effect) :=
  let dataJson := member json (parse json payload) "data"
  awsJsonGetBoolVal json dataJson (text "Switch") >>= fun logSwitch =>
    pure [.setLogReport logSwitch (logStringToLevel (getStr json dataJson "LowestLevel"))]

def otaDataJsonToOtaJobInfo (dataJson : Option J) : Decode JobInfo :=
  awsJsonGetNumVal json dataJson (text "timeout_in_minutes") >>= fun timeoutInMinutes =>
    awsJsonGetNumVal json dataJson (text "size") >>= fun size =>
      pure
        { otaJobId := getStr json dataJson "ota_job_id"
          destVersion := getStr json dataJson "dest_version"
          moduleName := getStr json dataJson "module"
          url := getStr json dataJson "url"
          timeoutInMinutes := json.toInt32 timeoutInMinutes
          size := json.toUInt64 size
          sign := getStr json dataJson "sign" }

/-- What `_ota_rev_ota_upgrade_post_reply` does with a job. A member that is no string gives
an empty one, so the url is never `NULL`. -/
def takeJob (dataJson : Option J) (job : JobInfo) : List Effect :=
  if 0 < job.size then
    .saveJobInfo job.moduleName ((dataJson.bind json.printUnformatted).getD []) ::
      if env.getJobInfoCallback then [.getJobInfo job] else []
  else []

def otaRevOtaUpgradePostReply (payload : Bytes) : Decode (List Effect) :=
  let dataJson := member json (parse json payload) "data"
  if dataJson.isSome then otaDataJsonToOtaJobInfo json dataJson >>= fun job => pure (takeJob json env dataJson job)
  else pure []

/-- `parse_dynamic_register` for the body of a response, as far as the two numbers and the payload go. -/
def parseDynamicRegister (responseBody : Bytes) : Decode (List Effect) :=
  let responseJson := parse json responseBody
  let resultJson := member json responseJson "Result"
  let errorJson := member json (member json responseJson "ResponseMetadata") "Error"
  let payload := getStr json resultJson "payload"
  if errorJson.isSome then
    awsJsonGetNumVal json errorJson (text "CodeN") >>= fun codeN =>
      awsJsonGetNumVal json resultJson (text "len") >>= fun len =>
        pure [.registered (some (json.toInt32 codeN)) (json.toInt32 len) payload]
  else
    awsJsonGetNumVal json resultJson (text "len") >>= fun len => pure [.registered none (json.toInt32 len) payload]

/-- What arrives: a message with its topic, the text of a resize command, or the body of a response. -/
inductive Inbound where
  | shadowGetReply (topic payload : Bytes)
  | shadowSet (topic payload : Bytes)
  | eventPostReply (topic payload : Bytes)
  | propertySetPostReply (topic payload : Bytes)
  | resizeTerminal (command : Bytes)
  | logReportConfig (payload : Bytes)
  | otaUpgradePostReply (payload : Bytes)
  | dynamicRegister (responseBody : Bytes)

def handle : Inbound → Decode (List Effect)
  | .shadowGetReply topic payload => tmRecvShadowGetReplyHandler json env topic payload
  | .shadowSet topic payload => tmRecvShadowSetHandler json env topic payload
  | .eventPostReply topic payload => tmRecvEventPostReply json env topic payload
  | .propertySetPostReply topic payload => tmRecvPropertySetPostReply json env topic payload
  | .resizeTerminal command => resizeTerminal json command
  | .logReportConfig payload => sLogRevLogReportConfig json payload
  | .otaUpgradePostReply payload => otaRevOtaUpgradePostReply json env payload
  | .dynamicRegister responseBody => parseDynamicRegister json responseBody

def HasNum (object : Option J) (key : String) : Prop := (numMember json object (text key)).isSome = true

def HasBool (object : Option J) (key : String) : Prop := (boolMember json object (text key)).isSome = true

def Typed : Inbound → Prop
  | .shadowGetReply _ payload => env.recvHandler.isSome = true →
      ∃ code, numMember json (parse json payload) (text "Code") = some code ∧
        (nonzero code = false → HasNum json (member json (parse json payload) "Data") "Version")
  | .shadowSet _ payload => env.recvHandler.isSome = true → HasNum json (parse json payload) "Version"
  | .eventPostReply _ payload | .propertySetPostReply _ payload =>
      env.recvHandler.isSome = true → HasNum json (parse json payload) "Code"
  | .resizeTerminal command => HasNum json (parse json command) "Rows" ∧ HasNum json (parse json command) "Columns"
  | .logReportConfig payload => HasBool json (member json (parse json payload) "data") "Switch"
  | .otaUpgradePostReply payload =>
      let dataJson := member json (parse json payload) "data"
      dataJson.isSome = true → HasNum json dataJson "timeout_in_minutes" ∧ HasNum json dataJson "size"
  | .dynamicRegister responseBody =>
      let responseJson := parse json responseBody
      let errorJson := member json (member json responseJson "ResponseMetadata") "Error"
      (errorJson.isSome = true → HasNum json errorJson "CodeN") ∧ HasNum json (member json responseJson "Result") "len"

end Handlers

section Getters

variable {J α : Type} {json : CJson J} {fixed : (k : Local) → k.Value} {object : Option J} {key : String}

theorem settled_numVal {f : Double → Decode α} :
    Settled fixed (awsJsonGetNumVal json object (text key) >>= f) ↔
      ∃ d, numMember json object (text key) = some d ∧ Settled fixed (f d) :=
  settled_read_bind

theorem settled_boolVal {f : Bool → Decode α} :
    Settled fixed (awsJsonGetBoolVal json object (text key) >>= f) ↔
      ∃ b, boolMember json object (text key) = some b ∧ Settled fixed (f b) :=
  settled_read_bind

theorem settled_lastNum {f : Double → α} :
    Settled fixed (awsJsonGetNumVal json object (text key) >>= fun d => pure (f d)) ↔ HasNum json object key := by
  rw [settled_numVal, HasNum, Option.isSome_iff_exists]
  exact exists_congr fun d => and_iff_left (settled_pure _)

theorem settled_nums {key' : String} {object' : Option J} {f : Double → Double → α} :
    Settled fixed (awsJsonGetNumVal json object (text key) >>= fun d =>
      awsJsonGetNumVal json object' (text key') >>= fun d' => pure (f d d')) ↔
        HasNum json object key ∧ HasNum json object' key' := by
  rw [settled_numVal, HasNum, Option.isSome_iff_exists]
  exact (exists_congr fun d => and_congr_right fun _ => settled_lastNum).trans exists_and_right

end Getters

/-- Whatever the stack holds, a handler reads and does the same exactly where each member
that it comes to read has its type. -/
theorem decodes_iff {J : Type} (json : CJson J) (env : Env) (fixed : (k : Local) → k.Value) (m : Inbound) :
    Settled fixed (handle json env m) ↔ Typed json env m := by
  cases m with
  | shadowGetReply topic payload =>
      rw [handle, tmRecvShadowGetReplyHandler, Typed]
      cases env.recvHandler with
      | none => exact iff_of_true (settled_pure _) nofun
      | some handler =>
          dsimp only
          rw [settled_numVal, Option.isSome_some, imp_iff_right rfl]
          refine exists_congr fun code => and_congr_right fun _ => ?_
          rw [settled_ite, settled_lastNum, Bool.not_eq_true, and_iff_right (fun _ => settled_pure _)]
  | shadowSet topic payload =>
      rw [handle, tmRecvShadowSetHandler, Typed]
      cases env.recvHandler with
      | none => exact iff_of_true (settled_pure _) nofun
      | some handler =>
          dsimp only
          rw [settled_lastNum, Option.isSome_some, imp_iff_right rfl]
  | eventPostReply topic payload =>
      rw [handle, tmRecvEventPostReply, Typed]
      cases env.recvHandler with
      | none => exact iff_of_true (settled_pure _) nofun
      | some handler =>
          dsimp only
          rw [settled_lastNum, Option.isSome_some, imp_iff_right rfl]
  | propertySetPostReply topic payload =>
      rw [handle, tmRecvPropertySetPostReply, Typed]
      cases env.recvHandler with
      | none => exact iff_of_true (settled_pure _) nofun
      | some handler =>
          dsimp only
          rw [settled_lastNum, Option.isSome_some, imp_iff_right rfl]
  | resizeTerminal command => exact settled_nums
  | logReportConfig payload =>
      rw [handle, sLogRevLogReportConfig, Typed, settled_boolVal, HasBool, Option.isSome_iff_exists]
      exact exists_congr fun b => and_iff_left (settled_pure _)
  | otaUpgradePostReply payload =>
      rw [handle, otaRevOtaUpgradePostReply, Typed, settled_ite, and_iff_left (fun _ => settled_pure _)]
      refine imp_congr_right fun _ => ?_
      rw [otaDataJsonToOtaJobInfo, bind_assoc]
      simp only [bind_assoc, pure_bind]
      exact settled_nums
  | dynamicRegister responseBody =>
      rw [handle, parseDynamicRegister, Typed, settled_ite, settled_nums, settled_lastNum]
      tauto

section NoSwitch

def emptyJson : CJson Unit where
  parse t := if t = text "\x7b\x7d" then some () else none
  isObject _ := true
  hasObjectItem _ _ := false
  getObjectItem _ _ := none
  getStringValue _ := none
  getNumberValue _ := none
  toInt32 d := d.toInt
  getBooleanValue _ := none
  printUnformatted _ := some (text "\x7b\x7d")
  toInt64 d := d.toInt
  toUInt64 d := d.toNat

def stack (byChance : Bool) : (k : Local) → k.Value
  | .num _ => 0
  | .bool _ => byChance

def noEnv : Env := ⟨none, true, false⟩

def noSwitch : Inbound := .logReportConfig (text "\x7b\x7d")

/-- Whether logs are uploaded is left to what the stack holds. -/
theorem noSwitch_byChance :
    (handle emptyJson noEnv noSwitch (stack true)).2 = [.setLogReport true .debug] ∧
      (handle emptyJson noEnv noSwitch (stack false)).2 = [.setLogReport false .debug] ∧
      ¬Settled (stack false) (handle emptyJson noEnv noSwitch) := by
  refine ⟨rfl, rfl, fun h => ?_⟩
  have hsame : [Effect.setLogReport true .debug] = [Effect.setLogReport false .debug] :=
    congrArg Prod.snd (h (stack true))
  exact Bool.noConfusion (Effect.setLogReport.inj (List.singleton_injective hsame)).1

end NoSwitch

end OneSdk.Decoding
