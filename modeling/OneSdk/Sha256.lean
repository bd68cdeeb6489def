import OneSdk.BlockHash
import OneSdk.CString

namespace OneSdk.Sha256

open BlockHash

structure State where
  s0 : UInt32
  s1 : UInt32
  s2 : UInt32
  s3 : UInt32
  s4 : UInt32
  s5 : UInt32
  s6 : UInt32
  s7 : UInt32
  deriving DecidableEq

structure Context where
  length : Nat
  state : State
  curlen : Nat
  buf : Bytes

/-- What the memory of a context and of a digest held before they were written. -/
structure Stack where
  buf : Bytes
  bytes : Bytes
  size : buf.length = 64

section Transform

def ror (value bits : UInt32) : UInt32 := (value >>> bits) ||| (value <<< (32 - bits))

def load32h (y : Bytes) (i : Nat) : UInt32 :=
  (y.getD i 0).toUInt32 <<< 24 ||| (y.getD (i + 1) 0).toUInt32 <<< 16 ||| (y.getD (i + 2) 0).toUInt32 <<< 8 |||
    (y.getD (i + 3) 0).toUInt32

def store32h (x : UInt32) : Bytes :=
  [(x >>> 24).toUInt8, (x >>> 16).toUInt8, (x >>> 8).toUInt8, x.toUInt8]

def store64h (x : Nat) : Bytes := [56, 48, 40, 32, 24, 16, 8, 0].map (fun shift => UInt8.ofNat (x >>> shift))

def constants : List UInt32 :=
  [0x428a2f98, 0x71374491, 0xb5c0fbcf, 0xe9b5dba5, 0x3956c25b,
    0x59f111f1, 0x923f82a4, 0xab1c5ed5, 0xd807aa98, 0x12835b01,
    0x243185be, 0x550c7dc3, 0x72be5d74, 0x80deb1fe, 0x9bdc06a7,
    0xc19bf174, 0xe49b69c1, 0xefbe4786, 0x0fc19dc6, 0x240ca1cc,
    0x2de92c6f, 0x4a7484aa, 0x5cb0a9dc, 0x76f988da, 0x983e5152,
    0xa831c66d, 0xb00327c8, 0xbf597fc7, 0xc6e00bf3, 0xd5a79147,
    0x06ca6351, 0x14292967, 0x27b70a85, 0x2e1b2138, 0x4d2c6dfc,
    0x53380d13, 0x650a7354, 0x766a0abb, 0x81c2c92e, 0x92722c85,
    0xa2bfe8a1, 0xa81a664b, 0xc24b8b70, 0xc76c51a3, 0xd192e819,
    0xd6990624, 0xf40e3585, 0x106aa070, 0x19a4c116, 0x1e376c08,
    0x2748774c, 0x34b0bcb5, 0x391c0cb3, 0x4ed8aa4a, 0x5b9cca4f,
    0x682e6ff3, 0x748f82ee, 0x78a5636f, 0x84c87814, 0x8cc70208,
    0x90befffa, 0xa4506ceb, 0xbef9a3f7, 0xc67178f2]

def ch (x y z : UInt32) : UInt32 := z ^^^ (x &&& (y ^^^ z))

def maj (x y z : UInt32) : UInt32 := ((x ||| y) &&& z) ||| (x &&& y)

def sigma0 (x : UInt32) : UInt32 := ror x 2 ^^^ ror x 13 ^^^ ror x 22

def sigma1 (x : UInt32) : UInt32 := ror x 6 ^^^ ror x 11 ^^^ ror x 25

def gamma0 (x : UInt32) : UInt32 := ror x 7 ^^^ ror x 18 ^^^ (x >>> 3)

def gamma1 (x : UInt32) : UInt32 := ror x 17 ^^^ ror x 19 ^^^ (x >>> 10)

/-- `W`, its members 16 to 63 each from those before it. -/
def schedule (buffer : Bytes) : List UInt32 :=
  (List.range' 16 48).foldl (fun w i =>
      w ++ [gamma1 (w.getD (i - 2) 0) + w.getD (i - 7) 0 + gamma0 (w.getD (i - 15) 0) + w.getD (i - 16) 0])
    ((List.range 16).map (fun i => load32h buffer (4 * i)))

/-- The macro `Sha256Round`, then the words one place on. -/
def sha256Round (s : State) (kw : UInt32 × UInt32) : State :=
  let t0 := s.s7 + sigma1 s.s4 + ch s.s4 s.s5 s.s6 + kw.1 + kw.2
  let t1 := sigma0 s.s0 + maj s.s0 s.s1 s.s2
  ⟨t0 + t1, s.s0, s.s1, s.s2, s.s3 + t0, s.s4, s.s5, s.s6⟩

def transformFunction (state : State) (buffer : Bytes) : State :=
  let s := (constants.zip (schedule buffer)).foldl sha256Round state
  ⟨state.s0 + s.s0, state.s1 + s.s1, state.s2 + s.s2, state.s3 + s.s3, state.s4 + s.s4, state.s5 + s.s5,
    state.s6 + s.s6, state.s7 + s.s7⟩

end Transform

section Stream

def initial : State :=
  ⟨0x6A09E667, 0xBB67AE85, 0x3C6EF372, 0xA54FF53A, 0x510E527F, 0x9B05688C, 0x1F83D9AB, 0x5BE0CD19⟩

def sha256Initialise (stack : Stack) : Context := ⟨0, initial, 0, stack.buf⟩

def updateLoop : Nat → Context → Bytes → Context
  | 0, ctx, _ => ctx
  | fuel + 1, ctx, buffer =>
      if buffer.length > 0 then
        if ctx.curlen = 0 ∧ buffer.length ≥ 64 then
          updateLoop fuel
            { ctx with
              state := transformFunction ctx.state (buffer.take 64)
              length := (ctx.length + 64 * 8) % 2 ^ 64 }
            (buffer.drop 64)
        else
          let n := min buffer.length (64 - ctx.curlen)
          let buf := overwrite ctx.buf ctx.curlen (buffer.take n)
          let curlen := ctx.curlen + n
          updateLoop fuel
            (if curlen = 64 then ⟨(ctx.length + 8 * 64) % 2 ^ 64, transformFunction ctx.state buf, 0, buf⟩
              else { ctx with buf, curlen })
            (buffer.drop n)
      else ctx

def sha256Update (ctx : Context) (buffer : Bytes) (bufferSize : UInt32) : Context :=
  if ctx.curlen > 64 then ctx else updateLoop (bufferSize.toNat + 1) ctx (buffer.take bufferSize.toNat)

/-- The bytes of the digest, which are left alone where the buffer is full. -/
def sha256Finalise (ctx : Context) (digest : Bytes) : Bytes :=
  if ctx.curlen ≥ 64 then digest
  else
    let length := (ctx.length + ctx.curlen * 8) % 2 ^ 64
    let buf := overwrite ctx.buf ctx.curlen [0x80]
    let curlen := ctx.curlen + 1
    let (state, buf, curlen) :=
      if curlen > 56 then
        let buf := overwrite buf curlen (List.replicate (64 - curlen) 0)
        (transformFunction ctx.state buf, buf, 0)
      else (ctx.state, buf, curlen)
    let buf := overwrite buf curlen (List.replicate (56 - curlen) 0)
    let buf := overwrite buf 56 (store64h length)
    let s := transformFunction state buf
    [s.s0, s.s1, s.s2, s.s3, s.s4, s.s5, s.s6, s.s7].flatMap store32h

def sha256Calculate (stack : Stack) (buffer : Bytes) (bufferSize : UInt32) : Bytes :=
  sha256Finalise (sha256Update (sha256Initialise stack) buffer bufferSize) stack.bytes

end Stream

section Digest

def lengthBytes (len : Nat) : Bytes := store64h (8 * len)

def digestOf (s : State) : Bytes := [s.s0, s.s1, s.s2, s.s3, s.s4, s.s5, s.s6, s.s7].flatMap store32h

def sha256 (message : Bytes) : Bytes :=
  digestOf (absorb transformFunction 64 initial (padded 64 8 lengthBytes message)).1

/-- The context has taken up a message; its length counts the whole blocks. -/
structure Taken (ctx : Context) (message : Bytes) : Prop where
  holds : Holds transformFunction 64 initial message ctx.state ctx.buf ctx.curlen
  length : (ctx.length + 8 * ctx.curlen) % 2 ^ 64 = 8 * message.length % 2 ^ 64

variable {ctx : Context} {message data : Bytes} {stack : Stack}

theorem sha256Initialise_taken (stack : Stack) : Taken (sha256Initialise stack) [] :=
  ⟨Holds.nil (by decide) stack.size, rfl⟩

theorem Taken.block (h : Taken ctx message) (hzero : ctx.curlen = 0) (hdata : data.length = 64) :
    Taken { ctx with state := transformFunction ctx.state data, length := (ctx.length + 64 * 8) % 2 ^ 64 }
      (message ++ data) := by
  have hholds := h.holds
  have hlength := h.length
  rw [hzero] at hholds
  refine ⟨?_, ?_⟩
  · dsimp only
    rw [hzero]
    exact hholds.block hdata
  · dsimp only
    rw [List.length_append, hdata]
    omega

theorem Taken.part (h : Taken ctx message) (hdata : ctx.curlen + data.length ≤ 64) :
    Taken (if ctx.curlen + data.length = 64 then
        ⟨(ctx.length + 8 * 64) % 2 ^ 64, transformFunction ctx.state (overwrite ctx.buf ctx.curlen data), 0,
          overwrite ctx.buf ctx.curlen data⟩
      else { ctx with buf := overwrite ctx.buf ctx.curlen data, curlen := ctx.curlen + data.length })
      (message ++ data) := by
  have hlength := h.length
  by_cases hfull : ctx.curlen + data.length = 64
  · rw [if_pos hfull]
    refine ⟨h.holds.fill hfull, ?_⟩
    dsimp only
    rw [List.length_append]
    omega
  · rw [if_neg hfull]
    refine ⟨h.holds.keep (by omega), ?_⟩
    dsimp only
    rw [List.length_append]
    omega

theorem updateLoop_taken {fuel : Nat} (hfuel : data.length < fuel) (h : Taken ctx message) :
    Taken (updateLoop fuel ctx data) (message ++ data) := by
  induction fuel generalizing ctx message data with
  | zero => exact absurd hfuel (Nat.not_lt_zero _)
  | succ fuel ih =>
      have hlt := h.holds.lt
      rw [updateLoop]
      by_cases hempty : data.length > 0
      · rw [if_pos hempty]
        by_cases hblock : ctx.curlen = 0 ∧ data.length ≥ 64
        · have htake : (data.take 64).length = 64 := List.length_take_of_le hblock.2
          have hrest : (data.drop 64).length < fuel := by
            rw [List.length_drop]
            omega
          have hstep := ih hrest (h.block hblock.1 htake)
          rw [List.append_assoc, List.take_append_drop] at hstep
          rwa [if_pos hblock]
        · have htake : (data.take (min data.length (64 - ctx.curlen))).length = min data.length (64 - ctx.curlen) :=
            List.length_take_of_le (Nat.min_le_left _ _)
          have hrest : (data.drop (min data.length (64 - ctx.curlen))).length < fuel := by
            rw [List.length_drop]
            omega
          have hpart := h.part (show ctx.curlen + (data.take (min data.length (64 - ctx.curlen))).length ≤ 64 by omega)
          have hstep := ih hrest hpart
          rw [List.append_assoc, List.take_append_drop, htake] at hstep
          rwa [if_neg hblock]
      · rw [if_neg hempty, List.eq_nil_of_length_eq_zero (Nat.eq_zero_of_not_pos hempty), List.append_nil]
        exact h

theorem sha256Update_taken (h : Taken ctx message) (data : Bytes) (size : UInt32) :
    Taken (sha256Update ctx data size) (message ++ data.take size.toNat) := by
  have hlt := h.holds.lt
  rw [sha256Update, if_neg (by omega)]
  exact updateLoop_taken (Nat.lt_succ_of_le (List.length_take_le _ _)) h

def feed (ctx : Context) (piece : Bytes) : Context := sha256Update ctx piece (UInt32.ofNat piece.length)

theorem feed_taken (h : Taken ctx message) (hdata : data.length < 2 ^ 32) : Taken (feed ctx data)
    (message ++ data) := by
  have hpiece := sha256Update_taken h data (UInt32.ofNat data.length)
  rwa [UInt32.toNat_ofNat', Nat.mod_eq_of_lt hdata, List.take_length] at hpiece

theorem foldl_taken (pieces : List Bytes) (hpieces : ∀ piece ∈ pieces, piece.length < 2 ^ 32) (h : Taken ctx message) :
    Taken (pieces.foldl feed ctx) (message ++ pieces.flatten) := by
  induction pieces generalizing ctx message with
  | nil => rwa [List.flatten_nil, List.append_nil]
  | cons piece pieces ih =>
      rw [List.foldl_cons, List.flatten_cons, ← List.append_assoc]
      exact ih (fun p hp => hpieces p (List.mem_cons_of_mem _ hp)) (feed_taken h (hpieces piece List.mem_cons_self))

theorem store64h_mod (x : Nat) : store64h (x % 2 ^ 64) = store64h x := by
  rw [store64h, store64h]
  simp only [Nat.shiftRight_eq_div_pow, List.map_cons, List.map_nil, List.cons.injEq, and_true, Nat.reducePow]
  refine ⟨?_, ?_, ?_, ?_, ?_, ?_, ?_, ?_⟩
  all_goals
    refine ofNat_congr ?_
    omega

theorem padding_far {len left : Nat} (hlen : len % 64 = left) (hfar : 56 ≤ left) :
    padding 64 8 len = [0x80] ++ List.replicate (64 - (left + 1)) 0 ++ List.replicate 56 0 := by
  rw [padding, List.append_assoc, List.replicate_append_replicate, List.singleton_append]
  congr 2
  omega

theorem padding_near {len left : Nat} (hlen : len % 64 = left) (hnear : left < 56) :
    padding 64 8 len = [0x80] ++ List.replicate (56 - (left + 1)) 0 := by
  rw [padding, List.singleton_append]
  congr 2
  omega

theorem sha256_whole {state : State} {buf : Bytes} {left : Nat}
    (h : Holds transformFunction 64 initial (padded 64 8 lengthBytes message) state buf left) :
    digestOf state = sha256 message := by
  rw [sha256, h.absorbed]

theorem padded_far {left : Nat} (hlen : message.length % 64 = left) (hfar : 56 ≤ left) :
    padded 64 8 lengthBytes message =
      message ++ ([0x80] ++ List.replicate (64 - (left + 1)) 0) ++
        (List.replicate 56 0 ++ lengthBytes message.length) := by
  rw [padded, padding_far hlen hfar]
  simp only [List.append_assoc]

theorem padded_near {left : Nat} (hlen : message.length % 64 = left) (hnear : left < 56) :
    padded 64 8 lengthBytes message =
      message ++ ([0x80] ++ (List.replicate (56 - (left + 1)) 0 ++ lengthBytes message.length)) := by
  rw [padded, padding_near hlen hnear]
  simp only [List.append_assoc]

theorem sha256Finalise_eq (h : Taken ctx message) (digest : Bytes) : sha256Finalise ctx digest = sha256 message := by
  have hlt := h.holds.lt
  have hsize := h.holds.size
  have hlen : message.length % 64 = ctx.curlen := h.holds.left_eq.symm
  have hlength : store64h ((ctx.length + ctx.curlen * 8) % 2 ^ 64) = lengthBytes message.length := by
    have hmod := h.length
    rw [lengthBytes, ← store64h_mod (8 * message.length), ← hmod, Nat.mul_comm 8]
  have hmarker := overwrite_overwrite (show ctx.curlen + [(0x80 : UInt8)].length ≤ ctx.buf.length by
    rw [hsize]
    exact hlt)
  rw [List.length_singleton] at hmarker
  rw [sha256Finalise, if_neg (by omega)]
  dsimp only
  rw [hlength]
  by_cases hfar : ctx.curlen + 1 > 56
  · have hfirst := h.holds.fill (x := [0x80] ++ List.replicate (64 - (ctx.curlen + 1)) 0) (by
      rw [List.length_append, List.length_singleton, List.length_replicate]
      omega)
    have hsecond := hfirst.fill (x := List.replicate 56 0 ++ lengthBytes message.length) (by
      rw [List.length_append, List.length_replicate]
      rfl)
    rw [← padded_far hlen (by omega)] at hsecond
    have hzeros := overwrite_overwrite (show 0 + (List.replicate 56 (0 : UInt8)).length ≤
      (overwrite ctx.buf ctx.curlen ([0x80] ++ List.replicate (64 - (ctx.curlen + 1)) 0)).length by
        rw [hfirst.size]
        decide) (lengthBytes message.length)
    rw [List.length_replicate, Nat.zero_add] at hzeros
    rw [if_pos hfar, hmarker]
    dsimp only
    rw [Nat.sub_zero, hzeros]
    exact sha256_whole hsecond
  · have hwhole := h.holds.fill
      (x := [0x80] ++ (List.replicate (56 - (ctx.curlen + 1)) 0 ++ lengthBytes message.length)) (by
        rw [List.length_append, List.length_append, List.length_singleton, List.length_replicate,
          show (lengthBytes message.length).length = 8 from rfl]
        omega)
    rw [← padded_near hlen (by omega)] at hwhole
    have hzeros := overwrite_overwrite (show ctx.curlen +
      ([0x80] ++ List.replicate (56 - (ctx.curlen + 1)) (0 : UInt8)).length ≤
      ctx.buf.length by
        rw [hsize, List.length_append, List.length_singleton, List.length_replicate]
        omega) (lengthBytes message.length)
    rw [List.length_append, List.length_singleton, List.length_replicate,
      show ctx.curlen + (1 + (56 - (ctx.curlen + 1))) = 56 by omega, List.append_assoc] at hzeros
    rw [if_neg hfar]
    dsimp only
    rw [hmarker, hzeros]
    exact sha256_whole hwhole

theorem sha256Calculate_eq (stack : Stack) (buffer : Bytes) (bufferSize : UInt32) :
    sha256Calculate stack buffer bufferSize = sha256 (buffer.take bufferSize.toNat) := by
  rw [sha256Calculate, sha256Finalise_eq (sha256Update_taken (sha256Initialise_taken stack) buffer bufferSize),
    List.nil_append]

theorem sha256_length (message : Bytes) : (sha256 message).length = 32 := rfl

/-- However a message comes in pieces, and whatever the memory held before, the digest is that of the message. -/
theorem sha256_pieces (stack : Stack) (pieces : List Bytes) (hpieces : ∀ piece ∈ pieces, piece.length < 2 ^ 32) :
    sha256Finalise (pieces.foldl feed (sha256Initialise stack)) stack.bytes = sha256 pieces.flatten := by
  rw [sha256Finalise_eq (foldl_taken pieces hpieces (sha256Initialise_taken stack)), List.nil_append]

theorem sha256_pieces_split :
    sha256Finalise ([[97], [98, 99]].foldl feed (sha256Initialise ⟨List.replicate 64 0, [], rfl⟩)) [] =
      sha256 [97, 98, 99] :=
  sha256_pieces ⟨List.replicate 64 0, [], rfl⟩ [[97], [98, 99]] (by decide)

end Digest

end OneSdk.Sha256
