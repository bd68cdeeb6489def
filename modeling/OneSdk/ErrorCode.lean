import Mathlib.Data.Int.Notation

namespace OneSdk.ErrorCode

def volcOk : Int := 0

def volcErrInit : Int := -1

def volcErrConnect : Int := -2

def volcErrMalloc : Int := -4

def volcErrInvalidParam : Int := -5

def volcErrNullPointer : Int := -6

def volcErrTmUserInputOutRange : Int := -601

def volcErrDmPublishTypeUnknown : Int := -602

def volcErrMqttPub : Int := -10001

def volcErrOtaDownloadFileSignCheck : Int := -503

def volcErrOtaInstallFailed : Int := -505

def volcErrHttpMallocFailed : Int := 0x01010001

def volcErrInvalidHttpContext : Int := 0x01010003

def volcErrHttpConnFailed : Int := 0x01020002

def volcErrHttpSendFailed : Int := 0x01020004

def volcErrHttpRecvTooLarge : Int := 0x01020008

theorem malloc_ne_ok : volcErrMalloc ≠ volcOk := by decide

theorem init_ne_ok : volcErrInit ≠ volcOk := by decide

theorem invalidParam_ne_ok : volcErrInvalidParam ≠ volcOk := by decide

theorem mqttPub_ne_ok : volcErrMqttPub ≠ volcOk := by decide

end OneSdk.ErrorCode
