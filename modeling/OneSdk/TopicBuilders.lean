import OneSdk.Printing

namespace OneSdk.TopicBuilders

open CString

/-- `sprintf` for a format whose only conversions are `%s`. -/
def sprintf : List Char → List Bytes → Bytes
  | '%' :: 's' :: fmt, arg :: args => arg ++ sprintf fmt args
  | c :: fmt, args => ascii [c] ++ sprintf fmt args
  | [], _ => []

/-- No string, and one that does not end within 1024 bytes, counts as empty. -/
def secureStrlen : Option Bytes → Nat
  | none => 0
  | some s => if s.length < 1024 then s.length else 0

section Builders

/-- The bytes that are allocated for a sum of lengths. The sum goes through the `int32_t`
`out_size`, and no memory is given for a size that is no positive number then. -/
def room (sum : Nat) : Nat := if sum % 2 ^ 32 + 1 < 2 ^ 31 then sum % 2 ^ 32 + 1 else 0

/-- The `sprintf` at the end of each builder, or none where it goes beyond the memory. -/
def printTopic (sum : Nat) (fmt : String) (args : List Bytes) : Option Bytes :=
  Printing.sprintf (room sum) (sprintf fmt.toList args)

theorem sprintf_length_le (fmt : List Char) (args : List Bytes) :
    (sprintf fmt args).length ≤ fmt.length + (args.map List.length).sum := by
  fun_induction sprintf fmt args with
  | case1 fmt arg args ih =>
      rw [List.length_append, List.map_cons, List.sum_cons, List.length_cons, List.length_cons]
      omega
  | case2 c fmt args hplain ih =>
      rw [List.length_append, List.length_cons, ascii, List.length_map, List.length_singleton]
      omega
  | case3 args => exact Nat.zero_le _

theorem printTopic_fits {sum : Nat} {fmt : String} {args : List Bytes}
    (hmeasured : fmt.length + (args.map List.length).sum ≤ sum) (hint : sum + 1 < 2 ^ 31) :
    printTopic sum fmt args = some (sprintf fmt.toList args) := by
  have hprinted := sprintf_length_le fmt.toList args
  have hroom : room sum = sum + 1 := by
    rw [room, Nat.mod_eq_of_lt (by omega), if_pos hint]
  rw [String.length_toList] at hprinted
  rw [printTopic, Printing.sprintf, if_pos (by omega)]

variable (fmt : String) (productKey deviceName p1 p2 p3 : Bytes)

def iotGetCommonTopic : Option Bytes :=
  printTopic (fmt.length + productKey.length + deviceName.length) fmt [productKey, deviceName]

def iotGetTopicWith1CStrParam : Option Bytes :=
  printTopic (secureStrlen (text fmt) + productKey.length + deviceName.length + secureStrlen p1) fmt
    [productKey, deviceName, p1]

def iotGetTopicWith1Param : Option Bytes :=
  printTopic (secureStrlen (text fmt) + productKey.length + deviceName.length + p1.length) fmt
    [productKey, deviceName, p1]

def iotGetTopicWith2CStrParam : Option Bytes :=
  printTopic (secureStrlen (text fmt) + productKey.length + deviceName.length + secureStrlen p1 + secureStrlen p2) fmt
    [productKey, deviceName, p1, p2]

def iotGetTopicWith3CStrParam : Option Bytes :=
  printTopic (secureStrlen (text fmt) + secureStrlen productKey + secureStrlen deviceName + secureStrlen p1 +
    secureStrlen p2 + secureStrlen p3) fmt [productKey, deviceName, p1, p2, p3]

end Builders

end OneSdk.TopicBuilders
