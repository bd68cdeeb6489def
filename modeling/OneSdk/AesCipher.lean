import OneSdk.AesDecode
import OneSdk.AesTables
import OneSdk.RoundCipher

namespace OneSdk.Aes

open WordBytes RoundCipher

/-- The words `X0` to `X3`, or as many words of a key. -/
structure Columns where
  x0 : UInt32
  x1 : UInt32
  x2 : UInt32
  x3 : UInt32
  deriving DecidableEq

structure Context where
  nr : Nat
  rk : List UInt32

section Schedule

def getUint32Le (b : Bytes) (i : Nat) : UInt32 :=
  word (b.getD i 0) (b.getD (i + 1) 0) (b.getD (i + 2) 0) (b.getD (i + 3) 0)

/-- What a byte of a word picks from a table. -/
def index (w shift : UInt32) : Nat := ((w >>> shift) &&& 0xFF).toNat

def boxWord (box : List UInt8) (i0 i1 i2 i3 : Nat) : UInt32 :=
  (box.getD i0 0).toUInt32 ^^^ (box.getD i1 0).toUInt32 <<< 8 ^^^ (box.getD i2 0).toUInt32 <<< 16 ^^^
    (box.getD i3 0).toUInt32 <<< 24

/-- The word that begins a turn, of the first word and the last one of the turn before. -/
def turnWord (i : Nat) (first last : UInt32) : UInt32 :=
  first ^^^ rcon.getD i 0 ^^^ boxWord fsb (index last 8) (index last 16) (index last 24) (index last 0)

/-- Words from the `j`th of a turn on, each of the one a key length before it and the last one before it. -/
def chain (r : Nat → UInt32) : Nat → Nat → UInt32 → List UInt32
  | _, 0, _ => []
  | j, n + 1, last => (r j ^^^ last) :: chain r (j + 1) n (r j ^^^ last)

def turn10 (rk : List UInt32) (i : Nat) : List UInt32 :=
  let r (j : Nat) := rk.getD (4 * i + j) 0
  let r4 := turnWord i (r 0) (r 3)
  rk ++ r4 :: chain r 1 3 r4

def turn12 (rk : List UInt32) (i : Nat) : List UInt32 :=
  let r (j : Nat) := rk.getD (6 * i + j) 0
  let r6 := turnWord i (r 0) (r 5)
  rk ++ r6 :: chain r 1 5 r6

def turn14 (rk : List UInt32) (i : Nat) : List UInt32 :=
  let r (j : Nat) := rk.getD (8 * i + j) 0
  let r8 := turnWord i (r 0) (r 7)
  let r9To11 := chain r 1 3 r8
  let r11 := r9To11.getD 2 0
  let r12 := r 4 ^^^ boxWord fsb (index r11 0) (index r11 8) (index r11 16) (index r11 24)
  rk ++ r8 :: (r9To11 ++ r12 :: chain r 5 3 r12)

def utilsErrAesInvalidKeyLength : Int := -0x0020

def utilsAesSetkeyEnc (key : Bytes) (keybits : Nat) : Except Int Context :=
  let first := (List.range (keybits >>> 5)).map (fun i => getUint32Le key (i <<< 2))
  if keybits = 128 then .ok ⟨10, (List.range 10).foldl turn10 first⟩
  else if keybits = 192 then .ok ⟨12, (List.range 8).foldl turn12 first⟩
  else if keybits = 256 then .ok ⟨14, (List.range 7).foldl turn14 first⟩
  else .error utilsErrAesInvalidKeyLength

def tableLine (t0 t1 t2 t3 : List UInt32) (k a b c d : UInt32) : UInt32 :=
  k ^^^ t0.getD (index a 0) 0 ^^^ t1.getD (index b 8) 0 ^^^ t2.getD (index c 16) 0 ^^^ t3.getD (index d 24) 0

/-- A word of the key for enciphering made one for deciphering. -/
def decWord (sk : UInt32) : UInt32 :=
  let s (shift : UInt32) : Nat := (fsb.getD (index sk shift) 0).toNat
  rt0.getD (s 0) 0 ^^^ rt1.getD (s 8) 0 ^^^ rt2.getD (s 16) 0 ^^^ rt3.getD (s 24) 0

def utilsAesSetkeyDec (key : Bytes) (keybits : Nat) : Except Int Context :=
  match utilsAesSetkeyEnc key keybits with
  | .error e => .error e
  | .ok cty =>
      let four (i : Nat) := (List.range 4).map (fun j => cty.rk.getD (4 * i + j) 0)
      .ok ⟨cty.nr, four cty.nr ++ (List.range' 1 (cty.nr - 1)).reverse.flatMap
        (fun i => (four i).map decWord) ++ four 0⟩

end Schedule

section Block

def firstKey (rk : List UInt32) : Columns := ⟨rk.getD 0 0, rk.getD 1 0, rk.getD 2 0, rk.getD 3 0⟩

def xorColumns (x k : Columns) : Columns := ⟨x.x0 ^^^ k.x0, x.x1 ^^^ k.x1, x.x2 ^^^ k.x2, x.x3 ^^^ k.x3⟩

def forward (line : UInt32 → UInt32 → UInt32 → UInt32 → UInt32 → UInt32) (rk : List UInt32) (y : Columns) : Columns :=
  ⟨line (rk.getD 0 0) y.x0 y.x1 y.x2 y.x3, line (rk.getD 1 0) y.x1 y.x2 y.x3 y.x0,
    line (rk.getD 2 0) y.x2 y.x3 y.x0 y.x1, line (rk.getD 3 0) y.x3 y.x0 y.x1 y.x2⟩

def backward (line : UInt32 → UInt32 → UInt32 → UInt32 → UInt32 → UInt32) (rk : List UInt32) (y : Columns) : Columns :=
  ⟨line (rk.getD 0 0) y.x0 y.x3 y.x2 y.x1, line (rk.getD 1 0) y.x1 y.x0 y.x3 y.x2,
    line (rk.getD 2 0) y.x2 y.x1 y.x0 y.x3, line (rk.getD 3 0) y.x3 y.x2 y.x1 y.x0⟩

def boxLine (box : List UInt8) (k a b c d : UInt32) : UInt32 :=
  k ^^^ boxWord box (index a 0) (index b 8) (index c 16) (index d 24)

def aesFround : List UInt32 → Columns → Columns := forward (tableLine ft0 ft1 ft2 ft3)

def aesRround : List UInt32 → Columns → Columns := backward (tableLine rt0 rt1 rt2 rt3)

def cryptTurns (round : List UInt32 → Columns → Columns) : Nat → List UInt32 → Columns → List UInt32 × Columns
  | 0, rk, x => (rk, x)
  | turns + 1, rk, x =>
      let y := round rk x
      let x := round (rk.drop 4) y
      cryptTurns round turns (rk.drop 8) x

def getColumns (b : Bytes) : Columns := ⟨getUint32Le b 0, getUint32Le b 4, getUint32Le b 8, getUint32Le b 12⟩

def putUint32Le (n : UInt32) : Bytes :=
  [(n &&& 0xFF).toUInt8, (n >>> 8 &&& 0xFF).toUInt8, (n >>> 16 &&& 0xFF).toUInt8, (n >>> 24 &&& 0xFF).toUInt8]

def putColumns (x : Columns) : Bytes := putUint32Le x.x0 ++ putUint32Le x.x1 ++ putUint32Le x.x2 ++ putUint32Le x.x3

def cryptBlock (round last : List UInt32 → Columns → Columns) (ctx : Context) (input : Bytes) : Bytes :=
  let x := xorColumns (getColumns input) (firstKey ctx.rk)
  let (rk, x) := cryptTurns round ((ctx.nr >>> 1) - 1) (ctx.rk.drop 4) x
  let y := round rk x
  putColumns (last (rk.drop 4) y)

def utilsInternalAesEncrypt : Context → Bytes → Bytes := cryptBlock aesFround (forward (boxLine fsb))

def utilsInternalAesDecrypt : Context → Bytes → Bytes := cryptBlock aesRround (backward (boxLine rsb))

end Block

section Plain

def circulant (k0 k1 k2 k3 : Nat) (w : UInt32) : UInt32 :=
  spread k0 k1 k2 k3 (byteAt w 0) ^^^ spread k3 k0 k1 k2 (byteAt w 1) ^^^ spread k2 k3 k0 k1 (byteAt w 2) ^^^
    spread k1 k2 k3 k0 (byteAt w 3)

def mixColumn : UInt32 → UInt32 := circulant 2 1 1 3

def invMixColumn : UInt32 → UInt32 := circulant 0x0E 0x09 0x0D 0x0B

def subWord (s : UInt8 → UInt8) (w : UInt32) : UInt32 :=
  word (s (byteAt w 0)) (s (byteAt w 1)) (s (byteAt w 2)) (s (byteAt w 3))

def row (a b c d : UInt32) : UInt32 := word (byteAt a 0) (byteAt b 1) (byteAt c 2) (byteAt d 3)

def shiftRows (y : Columns) : Columns :=
  ⟨row y.x0 y.x1 y.x2 y.x3, row y.x1 y.x2 y.x3 y.x0, row y.x2 y.x3 y.x0 y.x1, row y.x3 y.x0 y.x1 y.x2⟩

def invShiftRows (y : Columns) : Columns :=
  ⟨row y.x0 y.x3 y.x2 y.x1, row y.x1 y.x0 y.x3 y.x2, row y.x2 y.x1 y.x0 y.x3, row y.x3 y.x2 y.x1 y.x0⟩

def Columns.map (f : UInt32 → UInt32) (y : Columns) : Columns := ⟨f y.x0, f y.x1, f y.x2, f y.x3⟩

def substitute (y : Columns) : Columns := (shiftRows y).map (subWord subByte)

def invSubstitute (y : Columns) : Columns := (invShiftRows y).map (subWord invSubByte)

theorem index_eq (w : UInt32) {shift : UInt32} {j : Nat} (hshift : shift.toNat = 8 * j) (hj : j < 4) :
    index w shift = (byteAt w j).toNat := by
  rw [index, UInt32.toNat_and, UInt32.toNat_shiftRight, hshift, Nat.mod_eq_of_lt (show 8 * j < 32 by omega),
    byteAt_toNat, show ((0xFF : UInt32).toNat = 2 ^ 8 - 1) from rfl, Nat.and_two_pow_sub_one_eq_mod]

theorem index_bytes (w : UInt32) : index w 0 = (byteAt w 0).toNat ∧ index w 8 = (byteAt w 1).toNat ∧
    index w 16 = (byteAt w 2).toNat ∧ index w 24 = (byteAt w 3).toNat :=
  ⟨index_eq w rfl (by decide), index_eq w rfl (by decide), index_eq w rfl (by decide), index_eq w rfl (by decide)⟩

theorem subWord_row (s : UInt8 → UInt8) (a b c d : UInt32) :
    subWord s (row a b c d) = word (s (byteAt a 0)) (s (byteAt b 1)) (s (byteAt c 2)) (s (byteAt d 3)) := by
  rw [subWord, row, byteAt_word _ _ _ _ (by decide), byteAt_word _ _ _ _ (by decide), byteAt_word _ _ _ _ (by decide),
    byteAt_word _ _ _ _ (by decide)]
  rfl

theorem circulant_word (k0 k1 k2 k3 : Nat) (b0 b1 b2 b3 : UInt8) :
    circulant k0 k1 k2 k3 (word b0 b1 b2 b3) =
      spread k0 k1 k2 k3 b0 ^^^ spread k3 k0 k1 k2 b1 ^^^ spread k2 k3 k0 k1 b2 ^^^ spread k1 k2 k3 k0 b3 := by
  rw [circulant, byteAt_word _ _ _ _ (by decide), byteAt_word _ _ _ _ (by decide), byteAt_word _ _ _ _ (by decide),
    byteAt_word _ _ _ _ (by decide)]
  rfl

theorem boxLine_eq {box : List UInt8} {s : UInt8 → UInt8} (hbox : ∀ b, box.getD b.toNat 0 = s b) (k a b c d : UInt32) :
    boxLine box k a b c d = subWord s (row a b c d) ^^^ k := by
  rw [boxLine, boxWord, (index_bytes a).1, (index_bytes b).2.1, (index_bytes c).2.2.1, (index_bytes d).2.2.2,
    hbox, hbox, hbox, hbox, ← word_eq_xor, subWord_row, UInt32.xor_comm]

theorem ftLine_eq (k a b c d : UInt32) :
    tableLine ft0 ft1 ft2 ft3 k a b c d = mixColumn (subWord subByte (row a b c d)) ^^^ k := by
  rw [tableLine, (index_bytes a).1, (index_bytes b).2.1, (index_bytes c).2.2.1, (index_bytes d).2.2.2,
    (ft_at _).1, (ft_at _).2.1, (ft_at _).2.2.1, (ft_at _).2.2.2, subWord_row, mixColumn, circulant_word]
  ac_rfl

theorem rtLine_eq (k a b c d : UInt32) :
    tableLine rt0 rt1 rt2 rt3 k a b c d = invMixColumn (subWord invSubByte (row a b c d)) ^^^ k := by
  rw [tableLine, (index_bytes a).1, (index_bytes b).2.1, (index_bytes c).2.2.1, (index_bytes d).2.2.2,
    (rt_at _).1, (rt_at _).2.1, (rt_at _).2.2.1, (rt_at _).2.2.2, subWord_row, invMixColumn, circulant_word]
  ac_rfl

theorem aesFround_eq (rk : List UInt32) (y : Columns) :
    aesFround rk y = xorColumns ((substitute y).map mixColumn) (firstKey rk) := by
  rw [aesFround, forward, ftLine_eq, ftLine_eq, ftLine_eq, ftLine_eq]
  rfl

theorem aesRround_eq (rk : List UInt32) (y : Columns) :
    aesRround rk y = xorColumns ((invSubstitute y).map invMixColumn) (firstKey rk) := by
  rw [aesRround, backward, rtLine_eq, rtLine_eq, rtLine_eq, rtLine_eq]
  rfl

theorem forward_boxLine (rk : List UInt32) (y : Columns) :
    forward (boxLine fsb) rk y = xorColumns (substitute y) (firstKey rk) := by
  rw [forward, boxLine_eq (fun _ => rfl), boxLine_eq (fun _ => rfl), boxLine_eq (fun _ => rfl),
    boxLine_eq (fun _ => rfl)]
  rfl

theorem backward_boxLine (rk : List UInt32) (y : Columns) :
    backward (boxLine rsb) rk y = xorColumns (invSubstitute y) (firstKey rk) := by
  rw [backward, boxLine_eq (fun _ => rfl), boxLine_eq (fun _ => rfl), boxLine_eq (fun _ => rfl),
    boxLine_eq (fun _ => rfl)]
  rfl

end Plain

section Inverse

theorem spread_xor (k0 k1 k2 k3 : Nat) (a b : UInt8) :
    spread k0 k1 k2 k3 (a ^^^ b) = spread k0 k1 k2 k3 a ^^^ spread k0 k1 k2 k3 b := by
  rw [spread, times_xor, times_xor, times_xor, times_xor, word_xor, spread, spread]

theorem circulant_xor (k0 k1 k2 k3 : Nat) (v w : UInt32) :
    circulant k0 k1 k2 k3 (v ^^^ w) = circulant k0 k1 k2 k3 v ^^^ circulant k0 k1 k2 k3 w := by
  rw [circulant, byteAt_xor, byteAt_xor, byteAt_xor, byteAt_xor, spread_xor, spread_xor, spread_xor, spread_xor,
    circulant, circulant]
  ac_rfl

theorem rotl8_bytes (w : UInt32) : rotl8 w = word (byteAt w 3) (byteAt w 0) (byteAt w 1) (byteAt w 2) := by
  rw [← rotl8_word, word_byteAt]

theorem rotl8_xor (v w : UInt32) : rotl8 (v ^^^ w) = rotl8 v ^^^ rotl8 w := by
  rw [rotl8_bytes, byteAt_xor, byteAt_xor, byteAt_xor, byteAt_xor, word_xor, ← rotl8_bytes, ← rotl8_bytes]

theorem rotl8_spread (k0 k1 k2 k3 : Nat) (b : UInt8) : rotl8 (spread k0 k1 k2 k3 b) = spread k3 k0 k1 k2 b := by
  rw [spread, rotl8_word, spread]

theorem circulant_rotl8 (k0 k1 k2 k3 : Nat) (w : UInt32) :
    circulant k0 k1 k2 k3 (rotl8 w) = rotl8 (circulant k0 k1 k2 k3 w) := by
  rw [rotl8_bytes w, circulant_word, circulant, rotl8_xor, rotl8_xor, rotl8_xor, rotl8_spread, rotl8_spread,
    rotl8_spread, rotl8_spread]
  ac_rfl

theorem times_inverse (b : UInt8) :
    times 0x0E (times 2 b) ^^^ times 0x0B (times 1 b) ^^^ times 0x0D (times 1 b) ^^^ times 0x09 (times 3 b) = b ∧
      times 0x09 (times 2 b) ^^^ times 0x0E (times 1 b) ^^^ times 0x0B (times 1 b) ^^^ times 0x0D (times 3 b) = 0 ∧
      times 0x0D (times 2 b) ^^^ times 0x09 (times 1 b) ^^^ times 0x0E (times 1 b) ^^^ times 0x0B (times 3 b) = 0 ∧
      times 0x0B (times 2 b) ^^^ times 0x0D (times 1 b) ^^^ times 0x09 (times 1 b) ^^^ times 0x0E (times 3 b) = 0 := by
  revert b
  exact forall_byte (by decide +kernel)

theorem invMixColumn_spread (b : UInt8) : invMixColumn (spread 2 1 1 3 b) = word b 0 0 0 := by
  obtain ⟨h0, h1, h2, h3⟩ := times_inverse b
  rw [invMixColumn, spread, circulant_word, spread, spread, spread, spread, ← word_xor, ← word_xor, ← word_xor,
    h0, h1, h2, h3]

theorem invMixColumn_xor (v w : UInt32) : invMixColumn (v ^^^ w) = invMixColumn v ^^^ invMixColumn w :=
  circulant_xor _ _ _ _ v w

theorem invMixColumn_rotl8 (w : UInt32) : invMixColumn (rotl8 w) = rotl8 (invMixColumn w) := circulant_rotl8 _ _ _ _ w

theorem invMixColumn_mixColumn (w : UInt32) : invMixColumn (mixColumn w) = w := by
  have h0 (b : UInt8) : invMixColumn (spread 2 1 1 3 b) = word b 0 0 0 := invMixColumn_spread b
  have h1 (b : UInt8) : invMixColumn (spread 3 2 1 1 b) = word 0 b 0 0 := by
    rw [← rotl8_spread, invMixColumn_rotl8, h0, rotl8_word]
  have h2 (b : UInt8) : invMixColumn (spread 1 3 2 1 b) = word 0 0 b 0 := by
    rw [← rotl8_spread, invMixColumn_rotl8, h1, rotl8_word]
  have h3 (b : UInt8) : invMixColumn (spread 1 1 3 2 b) = word 0 0 0 b := by
    rw [← rotl8_spread, invMixColumn_rotl8, h2, rotl8_word]
  rw [mixColumn, circulant, invMixColumn_xor, invMixColumn_xor, invMixColumn_xor, h0, h1, h2, h3, ← word_xor,
    ← word_xor, ← word_xor]
  simp only [UInt8.xor_zero, UInt8.zero_xor]
  exact word_byteAt w

theorem decWord_eq (sk : UInt32) : decWord sk = invMixColumn sk := by
  have hbox (b : UInt8) : (fsb.getD b.toNat 0).toNat = (subByte b).toNat := rfl
  rw [decWord]
  dsimp only
  rw [(index_bytes sk).1, (index_bytes sk).2.1, (index_bytes sk).2.2.1, (index_bytes sk).2.2.2, hbox, hbox, hbox, hbox,
    (rt_at _).1, (rt_at _).2.1, (rt_at _).2.2.1, (rt_at _).2.2.2, invSubByte_subByte, invSubByte_subByte,
    invSubByte_subByte, invSubByte_subByte, invMixColumn, circulant]

theorem byteAt_subWord_row (s : UInt8 → UInt8) (a b c d : UInt32) :
    byteAt (subWord s (row a b c d)) 0 = s (byteAt a 0) ∧ byteAt (subWord s (row a b c d)) 1 = s (byteAt b 1) ∧
      byteAt (subWord s (row a b c d)) 2 = s (byteAt c 2) ∧ byteAt (subWord s (row a b c d)) 3 = s (byteAt d 3) := by
  rw [subWord_row, byteAt_word _ _ _ _ (by decide), byteAt_word _ _ _ _ (by decide), byteAt_word _ _ _ _ (by decide),
    byteAt_word _ _ _ _ (by decide)]
  exact ⟨rfl, rfl, rfl, rfl⟩

theorem column_undone {a p q r s : UInt32} (h0 : byteAt p 0 = subByte (byteAt a 0))
    (h1 : byteAt q 1 = subByte (byteAt a 1))
    (h2 : byteAt r 2 = subByte (byteAt a 2)) (h3 : byteAt s 3 = subByte (byteAt a 3)) :
    subWord invSubByte (row p q r s) = a := by
  rw [subWord_row, h0, h1, h2, h3, invSubByte_subByte, invSubByte_subByte, invSubByte_subByte,
    invSubByte_subByte, word_byteAt]

theorem invSubstitute_substitute (y : Columns) : invSubstitute (substitute y) = y := by
  have hbyte := byteAt_subWord_row subByte
  obtain ⟨a, b, c, d⟩ := y
  change Columns.mk _ _ _ _ = Columns.mk a b c d
  rw [Columns.mk.injEq]
  exact ⟨column_undone (hbyte _ _ _ _).1 (hbyte _ _ _ _).2.1 (hbyte _ _ _ _).2.2.1 (hbyte _ _ _ _).2.2.2,
    column_undone (hbyte _ _ _ _).1 (hbyte _ _ _ _).2.1 (hbyte _ _ _ _).2.2.1 (hbyte _ _ _ _).2.2.2,
    column_undone (hbyte _ _ _ _).1 (hbyte _ _ _ _).2.1 (hbyte _ _ _ _).2.2.1 (hbyte _ _ _ _).2.2.2,
    column_undone (hbyte _ _ _ _).1 (hbyte _ _ _ _).2.1 (hbyte _ _ _ _).2.2.1 (hbyte _ _ _ _).2.2.2⟩

theorem xorColumns_xorColumns (x k : Columns) : xorColumns (xorColumns x k) k = x := by
  have hword (v w : UInt32) : v ^^^ w ^^^ w = v := by
    rw [UInt32.xor_assoc, UInt32.xor_self, UInt32.xor_zero]
  rw [xorColumns, xorColumns]
  simp only [hword]

end Inverse

section Rounds

def keyAt (rk : List UInt32) (i : Nat) : Columns := firstKey (rk.drop (4 * i))

def keysFrom (rk : List UInt32) (i n : Nat) : List Columns := (List.range' i n).map (keyAt rk)

variable {round last : List UInt32 → Columns → Columns} {sub lin : Columns → Columns}

theorem cryptTurns_eq (hround : ∀ rk y, round rk y = xorColumns (lin (sub y)) (firstKey rk)) (rk : List UInt32)
    (n i : Nat)
    (x : Columns) :
    cryptTurns round n (rk.drop (4 * i)) x =
      (rk.drop (4 * (i + 2 * n)), rounds xorColumns sub lin (keysFrom rk i (2 * n)) x) := by
  induction n generalizing i x with
  | zero => rfl
  | succ n ih =>
      have hnext : (rk.drop (4 * i)).drop 4 = rk.drop (4 * (i + 1)) := by
        rw [List.drop_drop, Nat.mul_succ]
      have hthen : (rk.drop (4 * i)).drop 8 = rk.drop (4 * (i + 2)) := by
        rw [List.drop_drop]
        congr 1
      have hkeys : keysFrom rk i (2 * (n + 1)) = keyAt rk i :: keyAt rk (i + 1) :: keysFrom rk (i + 2) (2 * n) := by
        rw [keysFrom, Nat.mul_succ, List.range'_succ, List.range'_succ]
        rfl
      rw [cryptTurns, hnext, hthen, ih, hround, hround, hkeys, rounds_cons, rounds_cons,
        show i + 2 + 2 * n = i + 2 * (n + 1) by omega]
      rfl

theorem cryptBlock_eq (hround : ∀ rk y, round rk y = xorColumns (lin (sub y)) (firstKey rk))
    (hlast : ∀ rk y, last rk y = xorColumns (sub y) (firstKey rk)) {ctx : Context} {t : Nat}
    (hnr : ctx.nr = 2 * (t + 1))
    (input : Bytes) :
    cryptBlock round last ctx input =
      putColumns (encipher xorColumns sub lin (keyAt ctx.rk 0) (keysFrom ctx.rk 1 (ctx.nr - 1)) (keyAt ctx.rk ctx.nr)
        (getColumns input)) := by
  have hhalf : (ctx.nr >>> 1) - 1 = t := by
    rw [hnr, Nat.shiftRight_eq_div_pow]
    omega
  have hturns := cryptTurns_eq hround ctx.rk t 1 (xorColumns (getColumns input) (firstKey ctx.rk))
  rw [Nat.mul_one] at hturns
  have hkeys : keysFrom ctx.rk 1 (ctx.nr - 1) = keysFrom ctx.rk 1 (2 * t) ++ [keyAt ctx.rk (1 + 2 * t)] := by
    rw [keysFrom, hnr, show 2 * (t + 1) - 1 = 2 * t + 1 by omega, List.range'_1_concat, List.map_append]
    rfl
  have hdrop : (ctx.rk.drop (4 * (1 + 2 * t))).drop 4 = ctx.rk.drop (4 * ctx.nr) := by
    rw [List.drop_drop, hnr]
    congr 1
    omega
  rw [cryptBlock, hhalf]
  dsimp only
  rw [hturns]
  dsimp only
  rw [hlast, hround, hdrop, encipher, hkeys, rounds_append]
  rfl

end Rounds

section Bytes

theorem putUint32Le_eq (w : UInt32) : putUint32Le w = [byteAt w 0, byteAt w 1, byteAt w 2, byteAt w 3] := by
  have hbyte (shift : UInt32) (j : Nat) (hshift : shift.toNat = 8 * j) (hj : j < 4) :
      (w >>> shift &&& 0xFF).toUInt8 = byteAt w j := by
    have h := index_eq w hshift hj
    rw [index] at h
    rw [← UInt8.toNat_inj, UInt32.toNat_toUInt8, h, Nat.mod_eq_of_lt (byteAt w j).toNat_lt]
  have h0 := hbyte 0 0 rfl (by decide)
  rw [UInt32.shiftRight_zero] at h0
  rw [putUint32Le, h0, hbyte 8 1 rfl (by decide), hbyte 16 2 rfl (by decide), hbyte 24 3 rfl (by decide)]

theorem getColumns_putColumns (x : Columns) : getColumns (putColumns x) = x := by
  obtain ⟨a, b, c, d⟩ := x
  rw [putColumns, putUint32Le_eq, putUint32Le_eq, putUint32Le_eq, putUint32Le_eq]
  change Columns.mk (word (byteAt a 0) (byteAt a 1) (byteAt a 2) (byteAt a 3))
    (word (byteAt b 0) (byteAt b 1) (byteAt b 2) (byteAt b 3))
    (word (byteAt c 0) (byteAt c 1) (byteAt c 2) (byteAt c 3))
    (word (byteAt d 0) (byteAt d 1) (byteAt d 2) (byteAt d 3)) = _
  rw [word_byteAt, word_byteAt, word_byteAt, word_byteAt]

theorem putUint32Le_word (b0 b1 b2 b3 : UInt8) : putUint32Le (word b0 b1 b2 b3) = [b0, b1, b2, b3] := by
  rw [putUint32Le_eq, byteAt_word _ _ _ _ (by decide), byteAt_word _ _ _ _ (by decide), byteAt_word _ _ _ _ (by decide),
    byteAt_word _ _ _ _ (by decide)]
  rfl

theorem putColumns_getColumns {b : Bytes} (h : b.length = 16) : putColumns (getColumns b) = b := by
  have hall : (List.range 16).map (fun i => b.getD i 0) = b := by
    refine List.ext_getElem (by rw [List.length_map, List.length_range, h]) (fun i hi hi' => ?_)
    rw [List.getElem_map, List.getElem_range, List.getD_eq_getElem _ _ hi']
  rw [putColumns, getColumns, getUint32Le, getUint32Le, getUint32Le, getUint32Le, putUint32Le_word, putUint32Le_word,
    putUint32Le_word, putUint32Le_word]
  exact hall

end Bytes

section Keys

variable {rk : List UInt32}

def IsKeyBits (keybits : Nat) : Prop := keybits = 128 ∨ keybits = 192 ∨ keybits = 256

theorem utilsAesSetkeyEnc_ok (key : Bytes) {keybits : Nat} (h : IsKeyBits keybits) :
    ∃ ctx t, utilsAesSetkeyEnc key keybits = .ok ctx ∧ ctx.nr = 2 * (t + 1) := by
  rcases h with rfl | rfl | rfl
  · exact ⟨_, 4, rfl, rfl⟩
  · exact ⟨_, 5, rfl, rfl⟩
  · exact ⟨_, 6, rfl, rfl⟩

def words (k : Columns) : List UInt32 := [k.x0, k.x1, k.x2, k.x3]

theorem drop_words (keys : List Columns) (i : Nat) :
    (keys.flatMap words).drop (4 * i) = (keys.drop i).flatMap words := by
  induction keys generalizing i with
  | nil => rw [List.flatMap_nil, List.drop_nil, List.drop_nil, List.flatMap_nil]
  | cons k keys ih =>
      cases i with
      | zero => rfl
      | succ i =>
          rw [List.flatMap_cons, Nat.mul_succ, Nat.add_comm, ← List.drop_drop,
            List.drop_left' (show (words k).length = 4 from rfl), ih, List.drop_succ_cons]

theorem keyAt_words {keys : List Columns} {i : Nat} (hi : i < keys.length) :
    keyAt (keys.flatMap words) i = keys[i] := by
  rw [keyAt, drop_words, List.drop_eq_getElem_cons hi]
  rfl

theorem keysFrom_words (first : Columns) (inner : List Columns) (last : Columns) :
    keysFrom ((first :: (inner ++ [last])).flatMap words) 1 inner.length = inner := by
  refine List.ext_getElem ?_ (fun i hi hi' => ?_)
  · rw [keysFrom, List.length_map, List.length_range']
  · have hplace : 1 + 1 * i < (first :: (inner ++ [last])).length := by
      rw [List.length_cons, List.length_append, List.length_singleton]
      omega
    simp only [keysFrom, List.getElem_map, List.getElem_range', keyAt_words hplace]
    simp only [Nat.one_mul, Nat.add_comm 1 i, List.getElem_cons_succ]
    exact List.getElem_append_left hi'

theorem keyAt_words_first (first : Columns) (rest : List Columns) :
    keyAt ((first :: rest).flatMap words) 0 = first := rfl

theorem keyAt_words_last (first : Columns) (inner : List Columns) (last : Columns) :
    keyAt ((first :: (inner ++ [last])).flatMap words) (inner.length + 1) = last := by
  have hplace : inner.length + 1 < (first :: (inner ++ [last])).length := by
    rw [List.length_cons, List.length_append, List.length_singleton]
    omega
  rw [keyAt_words hplace, List.getElem_cons_succ, List.getElem_concat_length rfl]

theorem keyAt_eq (rk : List UInt32) (i : Nat) :
    keyAt rk i = ⟨rk.getD (4 * i) 0, rk.getD (4 * i + 1) 0, rk.getD (4 * i + 2) 0, rk.getD (4 * i + 3) 0⟩ := by
  have hplace (j : Nat) : (rk.drop (4 * i)).getD j 0 = rk.getD (4 * i + j) 0 := by
    rw [List.getD_eq_getElem?_getD, List.getD_eq_getElem?_getD, List.getElem?_drop]
  rw [keyAt, firstKey, hplace, hplace, hplace, hplace, Nat.add_zero]

theorem words_keyAt (rk : List UInt32) (i : Nat) :
    words (keyAt rk i) = (List.range 4).map (fun j => rk.getD (4 * i + j) 0) := by
  rw [keyAt_eq]
  rfl

theorem utilsAesSetkeyDec_eq {key : Bytes} {keybits : Nat} {enc : Context}
    (h : utilsAesSetkeyEnc key keybits = .ok enc) :
    utilsAesSetkeyDec key keybits =
      .ok ⟨enc.nr, (keyAt enc.rk enc.nr ::
        (dualKeys (Columns.map invMixColumn) (keysFrom enc.rk 1 (enc.nr - 1)) ++ [keyAt enc.rk 0])).flatMap words⟩ := by
  have hdec (k : Columns) : (words k).map decWord = words (k.map invMixColumn) := by
    rw [words, List.map_cons, List.map_cons, List.map_cons, List.map_cons, decWord_eq, decWord_eq, decWord_eq,
      decWord_eq]
    rfl
  rw [utilsAesSetkeyDec, h]
  dsimp only
  simp only [← words_keyAt, hdec]
  rw [List.flatMap_cons, List.flatMap_append, List.flatMap_singleton, dualKeys, keysFrom, ← List.map_reverse,
    ← List.map_reverse, List.flatMap_map, List.flatMap_map, List.append_assoc]

end Keys

section Decrypt

theorem utilsInternalAesEncrypt_eq {nr t : Nat} (hnr : nr = 2 * (t + 1)) (rk : List UInt32) (input : Bytes) :
    utilsInternalAesEncrypt ⟨nr, rk⟩ input =
      putColumns (encipher xorColumns substitute (Columns.map mixColumn) (keyAt rk 0) (keysFrom rk 1 (nr - 1))
        (keyAt rk nr) (getColumns input)) :=
  cryptBlock_eq aesFround_eq forward_boxLine hnr input

theorem utilsInternalAesDecrypt_eq {nr t : Nat} (hnr : nr = 2 * (t + 1)) (rk : List UInt32) (input : Bytes) :
    utilsInternalAesDecrypt ⟨nr, rk⟩ input =
      putColumns (encipher xorColumns invSubstitute (Columns.map invMixColumn) (keyAt rk 0) (keysFrom rk 1 (nr - 1))
        (keyAt rk nr) (getColumns input)) :=
  cryptBlock_eq aesRround_eq backward_boxLine hnr input

theorem map_mixColumn_undone (x : Columns) : (x.map mixColumn).map invMixColumn = x := by
  rw [Columns.map, Columns.map, invMixColumn_mixColumn, invMixColumn_mixColumn, invMixColumn_mixColumn,
    invMixColumn_mixColumn]

theorem map_xorColumns (x k : Columns) :
    (xorColumns x k).map invMixColumn = xorColumns (x.map invMixColumn) (k.map invMixColumn) := by
  rw [xorColumns, Columns.map, invMixColumn_xor, invMixColumn_xor, invMixColumn_xor, invMixColumn_xor]
  rfl

/-- Under the key that is set for deciphering, each block is what was enciphered under the key as it was set
for that. -/
theorem utilsInternalAesDecrypt_encrypt {keybits : Nat} (h : IsKeyBits keybits) (key : Bytes) :
    ∃ enc dec, utilsAesSetkeyEnc key keybits = .ok enc ∧ utilsAesSetkeyDec key keybits = .ok dec ∧
      ∀ block : Bytes, block.length = 16 →
        utilsInternalAesDecrypt dec (utilsInternalAesEncrypt enc block) = block := by
  obtain ⟨⟨nr, rk⟩, t, henc, hnr⟩ := utilsAesSetkeyEnc_ok key h
  dsimp only at hnr
  refine ⟨⟨nr, rk⟩, _, henc, utilsAesSetkeyDec_eq henc, fun block hblock => ?_⟩
  have hlen : (dualKeys (Columns.map invMixColumn) (keysFrom rk 1 (nr - 1))).length = nr - 1 := by
    rw [dualKeys, List.length_reverse, List.length_map, keysFrom, List.length_map, List.length_range']
  have hlast := keyAt_words_last (keyAt rk nr)
    (dualKeys (Columns.map invMixColumn) (keysFrom rk 1 (nr - 1))) (keyAt rk 0)
  have hinner := keysFrom_words (keyAt rk nr)
    (dualKeys (Columns.map invMixColumn) (keysFrom rk 1 (nr - 1))) (keyAt rk 0)
  rw [hlen, show nr - 1 + 1 = nr by omega] at hlast
  rw [hlen] at hinner
  rw [utilsInternalAesDecrypt_eq hnr, utilsInternalAesEncrypt_eq hnr, getColumns_putColumns, hlast, hinner,
    keyAt_words_first, encipher_dual xorColumns_xorColumns invSubstitute_substitute map_mixColumn_undone map_xorColumns,
    putColumns_getColumns hblock]

end Decrypt

end OneSdk.Aes
