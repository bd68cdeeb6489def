import OneSdk.BlockHash
import OneSdk.CString

namespace OneSdk.Md5

open BlockHash

structure State where
  a : UInt32
  b : UInt32
  c : UInt32
  d : UInt32
  deriving DecidableEq

structure Context where
  total0 : Nat
  total1 : Nat
  state : State
  buffer : Bytes

section Process

def getUint32Le (b : Bytes) (i : Nat) : UInt32 :=
  (b.getD i 0).toUInt32 ||| (b.getD (i + 1) 0).toUInt32 <<< 8 ||| (b.getD (i + 2) 0).toUInt32 <<< 16 |||
    (b.getD (i + 3) 0).toUInt32 <<< 24

def putUint32Le (n : Nat) : Bytes :=
  [UInt8.ofNat n, UInt8.ofNat (n >>> 8), UInt8.ofNat (n >>> 16), UInt8.ofNat (n >>> 24)]

def rotate (x n : UInt32) : UInt32 := (x <<< n) ||| ((x &&& 0xFFFFFFFF) >>> (32 - n))

def table1 : List (Nat × UInt32 × UInt32) :=
  [(0, 7, 0xD76AA478), (1, 12, 0xE8C7B756), (2, 17, 0x242070DB), (3, 22, 0xC1BDCEEE),
    (4, 7, 0xF57C0FAF), (5, 12, 0x4787C62A), (6, 17, 0xA8304613), (7, 22, 0xFD469501),
    (8, 7, 0x698098D8), (9, 12, 0x8B44F7AF), (10, 17, 0xFFFF5BB1), (11, 22, 0x895CD7BE),
    (12, 7, 0x6B901122), (13, 12, 0xFD987193), (14, 17, 0xA679438E), (15, 22, 0x49B40821)]

def table2 : List (Nat × UInt32 × UInt32) :=
  [(1, 5, 0xF61E2562), (6, 9, 0xC040B340), (11, 14, 0x265E5A51), (0, 20, 0xE9B6C7AA),
    (5, 5, 0xD62F105D), (10, 9, 0x02441453), (15, 14, 0xD8A1E681), (4, 20, 0xE7D3FBC8),
    (9, 5, 0x21E1CDE6), (14, 9, 0xC33707D6), (3, 14, 0xF4D50D87), (8, 20, 0x455A14ED),
    (13, 5, 0xA9E3E905), (2, 9, 0xFCEFA3F8), (7, 14, 0x676F02D9), (12, 20, 0x8D2A4C8A)]

def table3 : List (Nat × UInt32 × UInt32) :=
  [(5, 4, 0xFFFA3942), (8, 11, 0x8771F681), (11, 16, 0x6D9D6122), (14, 23, 0xFDE5380C),
    (1, 4, 0xA4BEEA44), (4, 11, 0x4BDECFA9), (7, 16, 0xF6BB4B60), (10, 23, 0xBEBFBC70),
    (13, 4, 0x289B7EC6), (0, 11, 0xEAA127FA), (3, 16, 0xD4EF3085), (6, 23, 0x04881D05),
    (9, 4, 0xD9D4D039), (12, 11, 0xE6DB99E5), (15, 16, 0x1FA27CF8), (2, 23, 0xC4AC5665)]

def table4 : List (Nat × UInt32 × UInt32) :=
  [(0, 6, 0xF4292244), (7, 10, 0x432AFF97), (14, 15, 0xAB9423A7), (5, 21, 0xFC93A039),
    (12, 6, 0x655B59C3), (3, 10, 0x8F0CCC92), (10, 15, 0xFFEFF47D), (1, 21, 0x85845DD1),
    (8, 6, 0x6FA87E4F), (15, 10, 0xFE2CE6E0), (6, 15, 0xA3014314), (13, 21, 0x4E0811A1),
    (4, 6, 0xF7537E82), (11, 10, 0xBD3AF235), (2, 15, 0x2AD7D2BB), (9, 21, 0xEB86D391)]

/-- The macro `P` with the index into `X`, the rotation and the constant; the names of the words then move on by one. -/
def stepP (f : UInt32 → UInt32 → UInt32 → UInt32) (data : Bytes) (s : State) (p : Nat × UInt32 × UInt32) : State :=
  let a := s.a + (f s.b s.c s.d + getUint32Le data (4 * p.1) + p.2.2)
  ⟨s.d, rotate a p.2.1 + s.b, s.b, s.c⟩

def utilsMd5Process (state : State) (data : Bytes) : State :=
  let s := table1.foldl (stepP (fun x y z => z ^^^ (x &&& (y ^^^ z))) data) state
  let s := table2.foldl (stepP (fun x y z => y ^^^ (z &&& (x ^^^ y))) data) s
  let s := table3.foldl (stepP (fun x y z => x ^^^ y ^^^ z) data) s
  let s := table4.foldl (stepP (fun x y z => y ^^^ (x ||| ~~~z)) data) s
  ⟨state.a + s.a, state.b + s.b, state.c + s.c, state.d + s.d⟩

end Process

section Stream

def initial : State := ⟨0x67452301, 0xEFCDAB89, 0x98BADCFE, 0x10325476⟩

/-- `utils_md5_init` and `utils_md5_starts` -/
def utilsMd5Starts : Context := ⟨0, 0, initial, List.replicate 64 0⟩

def processBlocks (state : State) (input : Bytes) : State × Bytes :=
  if input.length ≥ 64 then processBlocks (utilsMd5Process state (input.take 64)) (input.drop 64) else (state, input)
termination_by input.length

/-- The block that the input completes, if there is a beginning of one; then how much of one is left and the input. -/
def fillBuffer (state : State) (buffer : Bytes) (left : Nat) (input : Bytes) : State × Bytes × Nat × Bytes :=
  let fill := 64 - left
  if left ≠ 0 ∧ input.length ≥ fill then
    let buffer := overwrite buffer left (input.take fill)
    (utilsMd5Process state buffer, buffer, 0, input.drop fill)
  else (state, buffer, left, input)

def utilsMd5Update (ctx : Context) (input : Bytes) : Context :=
  if input.length = 0 then ctx
  else
    let ilen := input.length % 2 ^ 32
    let total0 := (ctx.total0 + ilen) % 2 ^ 32
    let total1 := if total0 < ilen then (ctx.total1 + 1) % 2 ^ 32 else ctx.total1
    let (state, buffer, left, input) := fillBuffer ctx.state ctx.buffer (ctx.total0 &&& 0x3F) input
    let (state, input) := processBlocks state input
    ⟨total0, total1, state, if input.length > 0 then overwrite buffer left input else buffer⟩

def iotMd5Padding : Bytes := 0x80 :: List.replicate 63 0

def utilsMd5Finish (ctx : Context) : Bytes :=
  let high := (ctx.total0 >>> 29) ||| (ctx.total1 <<< 3) % 2 ^ 32
  let low := (ctx.total0 <<< 3) % 2 ^ 32
  let msglen := putUint32Le low ++ putUint32Le high
  let last := ctx.total0 &&& 0x3F
  let padn := if last < 56 then 56 - last else 120 - last
  let ctx := utilsMd5Update ctx (iotMd5Padding.take padn)
  let ctx := utilsMd5Update ctx msglen
  putUint32Le ctx.state.a.toNat ++ putUint32Le ctx.state.b.toNat ++ putUint32Le ctx.state.c.toNat ++
    putUint32Le ctx.state.d.toNat

def utilsMd5 (input : Bytes) : Bytes := utilsMd5Finish (utilsMd5Update utilsMd5Starts input)

def hexByte (b : UInt8) : Bytes :=
  let digit (n : UInt8) : UInt8 := if n < 10 then 48 + n else 97 + (n - 10)
  [digit (b / 16), digit (b % 16)]

/-- `md5File`, with what each `fread` has brought. -/
def md5File (reads : List Bytes) : Bytes :=
  (utilsMd5Finish (reads.foldl utilsMd5Update utilsMd5Starts)).flatMap hexByte

end Stream

section Digest

def lengthBytes (len : Nat) : Bytes := (List.range 8).map (fun i => UInt8.ofNat ((8 * len) >>> (8 * i)))

def digestOf (s : State) : Bytes :=
  putUint32Le s.a.toNat ++ putUint32Le s.b.toNat ++ putUint32Le s.c.toNat ++ putUint32Le s.d.toNat

def md5 (message : Bytes) : Bytes :=
  digestOf (absorb utilsMd5Process 64 initial (padded 64 8 lengthBytes message)).1

structure Taken (ctx : Context) (message : Bytes) : Prop where
  holds : Holds utilsMd5Process 64 initial message ctx.state ctx.buffer (ctx.total0 % 64)
  total : ctx.total0 + ctx.total1 * 2 ^ 32 = message.length % 2 ^ 64
  low : ctx.total0 < 2 ^ 32

variable {state : State} {buffer message input : Bytes} {left : Nat}

theorem and_63 (x : Nat) : x &&& 0x3F = x % 64 := Nat.and_two_pow_sub_one_eq_mod x 6

theorem fillBuffer_spec (h : Holds utilsMd5Process 64 initial message state buffer left) (input : Bytes) :
    ∃ state' buffer' left' front rest, fillBuffer state buffer left input = (state', buffer', left', rest) ∧
      input = front ++ rest ∧ Holds utilsMd5Process 64 initial (message ++ front) state' buffer' left' ∧
      (left' = 0 ∨ left' + rest.length < 64) := by
  have hlt := h.lt
  rw [fillBuffer]
  by_cases hfill : left ≠ 0 ∧ input.length ≥ 64 - left
  · rw [if_pos hfill]
    have hfront : left + (input.take (64 - left)).length = 64 := by
      rw [List.length_take]
      omega
    exact ⟨_, _, _, _, _, rfl, (List.take_append_drop _ _).symm, h.fill hfront, Or.inl rfl⟩
  · rw [if_neg hfill]
    refine ⟨state, buffer, left, [], input, rfl, rfl, by rwa [List.append_nil], ?_⟩
    omega

theorem processBlocks_spec (h : Holds utilsMd5Process 64 initial message state buffer left)
    (hleft : left = 0 ∨ left + input.length < 64) :
    ∃ state' front rest, processBlocks state input = (state', rest) ∧ input = front ++ rest ∧
      Holds utilsMd5Process 64 initial (message ++ front) state' buffer left ∧ left + rest.length < 64 := by
  induction state, input using processBlocks.induct generalizing message with
  | case1 state input hlong ih =>
      obtain rfl : left = 0 := by omega
      have hblock := h.block (x := input.take 64) (by rw [List.length_take]; omega)
      obtain ⟨state', front, rest, hrest, hsplit, hholds, hlt⟩ := ih hblock (Or.inl rfl)
      refine ⟨state', input.take 64 ++ front, rest, ?_, ?_, ?_, hlt⟩
      · rw [processBlocks, if_pos hlong, hrest]
      · rw [List.append_assoc, ← hsplit, List.take_append_drop]
      · rwa [← List.append_assoc]
  | case2 state input hshort =>
      refine ⟨state, [], input, by rw [processBlocks, if_neg hshort], rfl, by rwa [List.append_nil], ?_⟩
      omega

theorem utilsMd5Starts_taken : Taken utilsMd5Starts [] := ⟨Holds.nil (by decide) rfl, rfl, by decide⟩

theorem utilsMd5Update_taken {ctx : Context} (h : Taken ctx message) (hlen : input.length < 2 ^ 32) :
    Taken (utilsMd5Update ctx input) (message ++ input) := by
  rw [utilsMd5Update]
  by_cases hnil : input.length = 0
  · rw [if_pos hnil, List.eq_nil_of_length_eq_zero hnil, List.append_nil]
    exact h
  · obtain ⟨state₁, buffer₁, left₁, front₁, rest₁, hfill, hsplit₁, hholds₁, hleft₁⟩ := fillBuffer_spec h.holds input
    obtain ⟨state₂, front₂, rest₂, hblocks, hsplit₂, hholds₂, hlt₂⟩ := processBlocks_spec hholds₁ hleft₁
    have hmessage : message ++ input = message ++ front₁ ++ front₂ ++ rest₂ := by
      rw [hsplit₁, hsplit₂]
      simp only [List.append_assoc]
    rw [if_neg hnil, and_63, hfill]
    dsimp only
    rw [hblocks, Nat.mod_eq_of_lt hlen]
    dsimp only
    have hkeep := hholds₂.keep hlt₂
    rw [← hmessage] at hkeep
    have hleft := hkeep.left_eq
    have htotal := h.total
    have hlow := h.low
    rw [List.length_append] at hleft
    have htotal' : (ctx.total0 + input.length) % 2 ^ 32 +
        (if (ctx.total0 + input.length) % 2 ^ 32 < input.length then (ctx.total1 + 1) % 2 ^ 32 else ctx.total1)
          * 2 ^ 32 =
          (message ++ input).length % 2 ^ 64 := by
      rw [List.length_append]
      split
      · omega
      · omega
    have hbuffer : (if rest₂.length > 0 then overwrite buffer₁ left₁ rest₂ else buffer₁) =
        overwrite buffer₁ left₁ rest₂ := by
      split
      · rfl
      · next hempty => rw [List.eq_nil_of_length_eq_zero (Nat.eq_zero_of_not_pos hempty), overwrite_nil]
    have hlast : (ctx.total0 + input.length) % 2 ^ 32 % 64 = left₁ + rest₂.length := by omega
    refine ⟨?_, htotal', Nat.mod_lt _ (by decide)⟩
    dsimp only
    rw [hbuffer, hlast]
    exact hkeep

theorem foldl_taken (reads : List Bytes) (hreads : ∀ read ∈ reads, read.length < 2 ^ 32) {ctx : Context}
    (h : Taken ctx message) : Taken (reads.foldl utilsMd5Update ctx) (message ++ reads.flatten) := by
  induction reads generalizing ctx message with
  | nil => rwa [List.flatten_nil, List.append_nil]
  | cons read reads ih =>
      rw [List.foldl_cons, List.flatten_cons, ← List.append_assoc]
      exact ih (fun r hr => hreads r (List.mem_cons_of_mem _ hr))
        (utilsMd5Update_taken h (hreads read List.mem_cons_self))

theorem msglen_eq {total0 total1 len : Nat} (hlow : total0 < 2 ^ 32)
    (htotal : total0 + total1 * 2 ^ 32 = len % 2 ^ 64) :
    putUint32Le ((total0 <<< 3) % 2 ^ 32) ++ putUint32Le ((total0 >>> 29) ||| (total1 <<< 3) % 2 ^ 32) =
      lengthBytes len := by
  have hor : (total0 >>> 29) ||| (total1 <<< 3) % 2 ^ 32 = total0 / 2 ^ 29 + total1 * 2 ^ 3 % 2 ^ 32 := by
    rw [Nat.shiftRight_eq_div_pow, Nat.shiftLeft_eq, Nat.or_comm,
      show total1 * 2 ^ 3 % 2 ^ 32 = (total1 % 2 ^ 29) <<< 3 by rw [Nat.shiftLeft_eq]; omega,
      ← Nat.shiftLeft_add_eq_or_of_lt (show total0 / 2 ^ 29 < 2 ^ 3 by omega), Nat.add_comm]
  rw [hor, lengthBytes, putUint32Le, putUint32Le]
  simp only [Nat.shiftRight_eq_div_pow, Nat.shiftLeft_eq]
  simp only [show List.range 8 = [0, 1, 2, 3, 4, 5, 6, 7] from rfl, List.map_cons, List.map_nil, List.cons_append,
    List.nil_append, List.cons.injEq, and_true, Nat.reduceMul, Nat.reducePow]
  refine ⟨?_, ?_, ?_, ?_, ?_, ?_, ?_, ?_⟩
  all_goals
    refine ofNat_congr ?_
    omega

theorem padding_eq {last : Nat} (hlast : last < 64) {len : Nat} (hlen : len % 64 = last) :
    iotMd5Padding.take (if last < 56 then 56 - last else 120 - last) = padding 64 8 len := by
  have hzeros : (if last < 56 then 56 - last else 120 - last) = (64 - (len + 1 + 8) % 64) % 64 + 1 := by
    split
    · omega
    · omega
  rw [hzeros, iotMd5Padding, padding, List.take_succ_cons, List.take_replicate, Nat.min_eq_left (by omega)]

theorem utilsMd5Finish_eq {ctx : Context} (h : Taken ctx message) : utilsMd5Finish ctx = md5 message := by
  have hlast : ctx.total0 % 64 < 64 := Nat.mod_lt _ (by decide)
  have hlen : message.length % 64 = ctx.total0 % 64 := by
    have := h.total
    omega
  rw [utilsMd5Finish, and_63, padding_eq hlast hlen, msglen_eq h.low h.total]
  have hpadding : (padding 64 8 message.length).length < 2 ^ 32 := by
    rw [padding, List.length_cons, List.length_replicate]
    omega
  have hlengthBytes : (lengthBytes message.length).length < 2 ^ 32 := show 8 < 2 ^ 32 by decide
  have hpadded := utilsMd5Update_taken (utilsMd5Update_taken h hpadding) hlengthBytes
  have hwhole := hpadded.holds.left_eq
  rw [← padded, padded_length (by decide) (by rfl)] at hwhole
  have habsorbed := hpadded.holds.absorbed
  rw [← padded] at habsorbed
  rw [md5, habsorbed]
  rfl

/-- However a file comes in pieces, the digest of it is that of its content. -/
theorem md5File_eq (reads : List Bytes) (hreads : ∀ read ∈ reads, read.length ≤ 1024) :
    md5File reads = (md5 reads.flatten).flatMap hexByte := by
  have hshort : ∀ read ∈ reads, read.length < 2 ^ 32 := fun read hread =>
    (hreads read hread).trans_lt (by decide)
  rw [md5File, utilsMd5Finish_eq (foldl_taken reads hshort utilsMd5Starts_taken), List.nil_append]

theorem md5File_split : md5File [[97], [98, 99]] = (md5 [97, 98, 99]).flatMap hexByte :=
  md5File_eq [[97], [98, 99]] (by decide)

end Digest

end OneSdk.Md5
