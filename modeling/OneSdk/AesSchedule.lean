import OneSdk.AesCipher

namespace OneSdk.Aes

open WordBytes RoundCipher BlockChaining AesDecode

section Plain

def rotWord (w : UInt32) : UInt32 := word (byteAt w 1) (byteAt w 2) (byteAt w 3) (byteAt w 0)

def roundConstant (n : Nat) : UInt32 := word (double^[n - 1] 1) 0 0 0

def schedule (nk : Nat) (key : Bytes) (i : Nat) : UInt32 :=
  if i < nk ∨ nk = 0 then getUint32Le key (4 * i)
  else
    schedule nk key (i - nk) ^^^
      (if i % nk = 0 then subWord subByte (rotWord (schedule nk key (i - 1))) ^^^ roundConstant (i / nk)
        else if 6 < nk ∧ i % nk = 4 then subWord subByte (schedule nk key (i - 1))
        else schedule nk key (i - 1))
termination_by i

def roundKey (nk : Nat) (key : Bytes) (i : Nat) : Columns :=
  ⟨schedule nk key (4 * i), schedule nk key (4 * i + 1), schedule nk key (4 * i + 2), schedule nk key (4 * i + 3)⟩

/-- The cipher without tables, in `nk + 6` rounds. -/
def aes (nk : Nat) (key block : Bytes) : Bytes :=
  putColumns (encipher xorColumns substitute (Columns.map mixColumn) (roundKey nk key 0)
    ((List.range' 1 (nk + 5)).map (roundKey nk key)) (roundKey nk key (nk + 6)) (getColumns block))

end Plain

section Expansion

variable {nk i j : Nat} {key : Bytes}

theorem boxWord_eq (i0 i1 i2 i3 : UInt8) :
    boxWord fsb i0.toNat i1.toNat i2.toNat i3.toNat = word (subByte i0) (subByte i1) (subByte i2) (subByte i3) := by
  rw [boxWord, word_eq_xor]
  rfl

theorem subWord_rotWord (w : UInt32) :
    subWord subByte (rotWord w) = word (subByte (byteAt w 1)) (subByte (byteAt w 2)) (subByte (byteAt w 3))
      (subByte (byteAt w 0)) := by
  rw [subWord, rotWord, byteAt_word _ _ _ _ (by decide), byteAt_word _ _ _ _ (by decide),
    byteAt_word _ _ _ _ (by decide), byteAt_word _ _ _ _ (by decide)]
  rfl

theorem rcon_eq (hi : i < 10) : rcon.getD i 0 = roundConstant (i + 1) := by
  revert i
  decide +kernel

theorem turnWord_eq (hi : i < 10) (first last : UInt32) :
    turnWord i first last = first ^^^ (subWord subByte (rotWord last) ^^^ roundConstant (i + 1)) := by
  rw [turnWord, (index_bytes last).1, (index_bytes last).2.1, (index_bytes last).2.2.1,
    (index_bytes last).2.2.2, boxWord_eq, rcon_eq hi, subWord_rotWord, UInt32.xor_assoc,
    UInt32.xor_comm (roundConstant _)]

theorem schedule_key (hj : j < nk) : schedule nk key j = getUint32Le key (4 * j) := by
  rw [schedule, if_pos (Or.inl hj)]

theorem schedule_first (hnk : 0 < nk) (hi : i < 10) :
    schedule nk key (nk * (i + 1)) = turnWord i (schedule nk key (nk * i + 0))
      (schedule nk key (nk * i + (nk - 1))) := by
  have hlong : ¬(nk * (i + 1) < nk ∨ nk = 0) := by
    rw [Nat.mul_succ]
    omega
  have hprev : nk * (i + 1) - nk = nk * i := by rw [Nat.mul_succ, Nat.add_sub_cancel]
  have hlast : nk * (i + 1) - 1 = nk * i + (nk - 1) := by
    rw [Nat.mul_succ]
    omega
  rw [schedule, if_neg hlong, if_pos (Nat.mul_mod_right nk (i + 1)), hprev, hlast, Nat.mul_div_cancel_left _ hnk,
    turnWord_eq hi]
  rfl

theorem schedule_within (hj : 0 < j) (hjn : j < nk) :
    schedule nk key (nk * (i + 1) + j) =
      schedule nk key (nk * i + j) ^^^
        (if 6 < nk ∧ j = 4 then subWord subByte (schedule nk key (nk * (i + 1) + (j - 1)))
          else schedule nk key (nk * (i + 1) + (j - 1))) := by
  have hlong : ¬(nk * (i + 1) + j < nk ∨ nk = 0) := by
    rw [Nat.mul_succ]
    omega
  have hmod : (nk * (i + 1) + j) % nk = j := by rw [Nat.mul_add_mod, Nat.mod_eq_of_lt hjn]
  have hprev : nk * (i + 1) + j - nk = nk * i + j := by
    rw [Nat.mul_succ]
    omega
  rw [schedule, if_neg hlong, hmod, if_neg (by omega), hprev, Nat.add_sub_assoc hj]

theorem chain_schedule {r : Nat → UInt32} (hr : ∀ j < nk, r j = schedule nk key (nk * i + j)) {n : Nat}
    (hjn : j + 1 + n ≤ nk)
    (hmiddle : 6 < nk → 4 ≤ j ∨ j + n < 4) :
    chain r (j + 1) n (schedule nk key (nk * (i + 1) + j)) =
      (List.range n).map (fun m => schedule nk key (nk * (i + 1) + (j + 1 + m))) := by
  induction n generalizing j with
  | zero => rfl
  | succ n ih =>
      have hnext : r (j + 1) ^^^ schedule nk key (nk * (i + 1) + j) = schedule nk key (nk * (i + 1) + (j + 1)) := by
        rw [@schedule_within nk i (j + 1) key (Nat.succ_pos j) (by omega), if_neg (by omega), hr _ (by omega),
          Nat.add_sub_cancel]
      rw [chain, hnext, ih (by omega) (by omega), List.range_succ_eq_map, List.map_cons, List.map_map]
      refine congrArg₂ List.cons rfl (List.map_congr_left (fun m _ => ?_))
      rw [Function.comp_apply, Nat.succ_eq_add_one]
      congr 2
      omega

def expanded (nk : Nat) (key : Bytes) (n : Nat) : List UInt32 := (List.range n).map (schedule nk key)

theorem expanded_getD {n : Nat} (hj : j < n) : (expanded nk key n).getD j 0 = schedule nk key j := by
  rw [expanded, List.getD_eq_getElem _ _ (by rwa [List.length_map, List.length_range]), List.getElem_map,
    List.getElem_range]

theorem expanded_add (m n : Nat) :
    expanded nk key (m + n) = expanded nk key m ++ (List.range n).map (fun j => schedule nk key (m + j)) := by
  rw [expanded, List.range_add, List.map_append, List.map_map]
  rfl

theorem turn10_expanded (hi : i < 10) : turn10 (expanded 4 key (4 * (i + 1))) i = expanded 4 key (4 * (i + 1) + 4) := by
  have hr (j : Nat) (hj : j < 4) : (expanded 4 key (4 * (i + 1))).getD (4 * i + j) 0 = schedule 4 key (4 * i + j) :=
    expanded_getD (by omega)
  rw [turn10, expanded_add]
  dsimp only
  rw [hr 0 (by decide), hr 3 (by decide), ← schedule_first (by decide) hi]
  exact congrArg _ (congrArg _ (chain_schedule (j := 0) hr (by decide) (by omega)))

theorem turn12_expanded (hi : i < 8) : turn12 (expanded 6 key (6 * (i + 1))) i = expanded 6 key (6 * (i + 1) + 6) := by
  have hr (j : Nat) (hj : j < 6) : (expanded 6 key (6 * (i + 1))).getD (6 * i + j) 0 = schedule 6 key (6 * i + j) :=
    expanded_getD (by omega)
  rw [turn12, expanded_add]
  dsimp only
  rw [hr 0 (by decide), hr 5 (by decide), ← schedule_first (by decide) (by omega)]
  exact congrArg _ (congrArg _ (chain_schedule (j := 0) hr (by decide) (by omega)))

theorem turn14_expanded (hi : i < 7) : turn14 (expanded 8 key (8 * (i + 1))) i = expanded 8 key (8 * (i + 1) + 8) := by
  have hr (j : Nat) (hj : j < 8) : (expanded 8 key (8 * (i + 1))).getD (8 * i + j) 0 = schedule 8 key (8 * i + j) :=
    expanded_getD (by omega)
  have hfront : chain (fun j => (expanded 8 key (8 * (i + 1))).getD (8 * i + j) 0) 1 3 (schedule 8 key (8 * (i + 1))) =
      [schedule 8 key (8 * (i + 1) + 1), schedule 8 key (8 * (i + 1) + 2), schedule 8 key (8 * (i + 1) + 3)] :=
    chain_schedule (j := 0) hr (by decide) (by omega)
  have hmiddle : schedule 8 key (8 * i + 4) ^^^ subWord subByte (schedule 8 key (8 * (i + 1) + 3)) =
      schedule 8 key (8 * (i + 1) + 4) := by
    rw [@schedule_within 8 i 4 key (by decide) (by decide), if_pos (by decide)]
  rw [turn14, expanded_add]
  dsimp only
  rw [hr 0 (by decide), hr 4 (by decide), hr 7 (by decide), ← schedule_first (by decide) (by omega), hfront,
    List.getD_cons_succ, List.getD_cons_succ, List.getD_cons_zero, (index_bytes _).1, (index_bytes _).2.1,
    (index_bytes _).2.2.1, (index_bytes _).2.2.2, boxWord_eq, ← subWord, hmiddle]
  exact congrArg _ (congrArg _ (congrArg _ (congrArg _ (chain_schedule (j := 4) hr (by decide) (by omega)))))

theorem foldl_expanded {turn : List UInt32 → Nat → List UInt32} {turns : Nat}
    (hturn : ∀ i < turns, turn (expanded nk key (nk * (i + 1))) i = expanded nk key (nk * (i + 1) + nk)) :
    (List.range turns).foldl turn (expanded nk key (nk * (0 + 1))) = expanded nk key (nk * (turns + 1)) := by
  induction turns with
  | zero => rfl
  | succ turns ih =>
      rw [List.range_succ, List.foldl_append, ih (fun i hi => hturn i (Nat.lt_succ_of_lt hi)), List.foldl_cons,
        List.foldl_nil, hturn turns (Nat.lt_succ_self turns), ← Nat.mul_succ]

theorem expanded_key (nk : Nat) (key : Bytes) :
    expanded nk key nk = (List.range nk).map (fun i => getUint32Le key (i <<< 2)) := by
  refine List.map_congr_left (fun i hi => ?_)
  rw [schedule_key (List.mem_range.mp hi), Nat.shiftLeft_eq, Nat.mul_comm]

theorem utilsAesSetkeyEnc_eq (key : Bytes) :
    utilsAesSetkeyEnc key 128 = .ok ⟨10, expanded 4 key 44⟩ ∧ utilsAesSetkeyEnc key 192 = .ok ⟨12, expanded 6 key 54⟩ ∧
      utilsAesSetkeyEnc key 256 = .ok ⟨14, expanded 8 key 64⟩ := by
  have h10 := foldl_expanded (fun i hi => @turn10_expanded i key hi)
  have h12 := foldl_expanded (fun i hi => @turn12_expanded i key hi)
  have h14 := foldl_expanded (fun i hi => @turn14_expanded i key hi)
  refine ⟨?_, ?_, ?_⟩
  · rw [utilsAesSetkeyEnc, if_pos rfl, show 128 >>> 5 = 4 from rfl, ← expanded_key]
    exact congrArg _ (congrArg _ h10)
  · rw [utilsAesSetkeyEnc, if_neg (by decide), if_pos rfl, show 192 >>> 5 = 6 from rfl, ← expanded_key]
    exact congrArg _ (congrArg _ h12)
  · rw [utilsAesSetkeyEnc, if_neg (by decide), if_neg (by decide), if_pos rfl, show 256 >>> 5 = 8 from rfl,
      ← expanded_key]
    exact congrArg _ (congrArg _ h14)

theorem keyAt_expanded {n : Nat} (h : 4 * i + 3 < n) : keyAt (expanded nk key n) i = roundKey nk key i := by
  rw [keyAt_eq, expanded_getD (by omega), expanded_getD (by omega), expanded_getD (by omega), expanded_getD h, roundKey]

end Expansion

section Fips

variable {nk n t keybits : Nat} {key : Bytes}

theorem encrypt_expanded (hrounds : nk + 6 = 2 * (t + 1)) (hn : 4 * (nk + 6) + 3 < n) (block : Bytes) :
    utilsInternalAesEncrypt ⟨nk + 6, expanded nk key n⟩ block = aes nk key block := by
  have hinner : keysFrom (expanded nk key n) 1 (nk + 5) = (List.range' 1 (nk + 5)).map (roundKey nk key) := by
    refine List.map_congr_left (fun i hi => keyAt_expanded ?_)
    have hlt := List.mem_range'_1.mp hi
    omega
  rw [utilsInternalAesEncrypt_eq hrounds, aes, show nk + 6 - 1 = nk + 5 from rfl, hinner, keyAt_expanded (by omega),
    keyAt_expanded hn]

/-- With the tables and the unrolled expansion the code computes the plain cipher, at each length of the key. -/
theorem utilsInternalAesEncrypt_plain (h : IsKeyBits keybits) (key : Bytes) :
    ∃ enc, utilsAesSetkeyEnc key keybits = .ok enc ∧
      ∀ block, utilsInternalAesEncrypt enc block = aes (keybits / 32) key block := by
  obtain ⟨h128, h192, h256⟩ := utilsAesSetkeyEnc_eq key
  rcases h with rfl | rfl | rfl
  · exact ⟨_, h128, encrypt_expanded (t := 4) rfl (by decide)⟩
  · exact ⟨_, h192, encrypt_expanded (t := 5) rfl (by decide)⟩
  · exact ⟨_, h256, encrypt_expanded (t := 6) rfl (by decide)⟩

end Fips

section Chaining

def withKey (set : Bytes → Nat → Except Int Context) (crypt : Context → Bytes → Bytes) (key : Bytes) (keyBits : Nat)
    (block : Block) : Block :=
  match set key keyBits with
  | .ok ctx => front 16 (crypt ctx block.toList)
  | .error _ => block

theorem front_block (block : Block) : front 16 block.toList = block := by
  have h := front_append block []
  rwa [List.append_nil] at h

theorem decrypted {keyBits : Nat} (h : IsKeyBits keyBits) (key : Bytes) (block : Block) :
    withKey utilsAesSetkeyDec utilsInternalAesDecrypt key keyBits
      (withKey utilsAesSetkeyEnc utilsInternalAesEncrypt key keyBits block) =
      block := by
  obtain ⟨enc, dec, henc, hdec, hundone⟩ := utilsInternalAesDecrypt_encrypt h key
  have hlen : (utilsInternalAesEncrypt enc block.toList).length = 16 := rfl
  rw [withKey, withKey, henc, hdec]
  dsimp only
  rw [front_toList (Nat.le_of_eq hlen.symm), List.take_of_length_le (Nat.le_of_eq hlen),
    hundone _ block.length_toList, front_block]

def aesCipher : BlockCipher where
  encrypt := withKey utilsAesSetkeyEnc utilsInternalAesEncrypt
  decrypt := withKey utilsAesSetkeyDec utilsInternalAesDecrypt
  decrypt_encrypt := fun key _ block hbits _ => decrypted (hbits.imp_right Or.inl) key block

def aesBlock (nk : Nat) (key : Bytes) (block : Block) : Block := front 16 (aes nk key block.toList)

theorem aesCipher_encrypt {keyBits : Nat} (h : IsKeyBits keyBits) (key : Bytes) :
    aesCipher.encrypt key keyBits = aesBlock (keyBits / 32) key := by
  obtain ⟨enc, henc, hplain⟩ := utilsInternalAesEncrypt_plain h key
  funext block
  change withKey _ _ key keyBits block = _
  rw [withKey, henc]
  dsimp only
  rw [hplain, aesBlock]

/-- Whole blocks are enciphered as the plain cipher does it, each chained to the one before, and deciphered again. -/
theorem utilsAesCryptCbc_plain {keyBits : Nat} (hbits : IsKeyBits keyBits) (key : Bytes) (iv : Block) {data : Bytes}
    (hdata : data.length % 16 = 0) :
    utilsAesCryptCbc aesCipher .encrypt key keyBits data.length iv data =
        some (encryptLoop (aesBlock (keyBits / 32) key) (data.length / 16) iv data) ∧
      utilsAesCryptCbc aesCipher .decrypt key keyBits data.length iv
        (encryptLoop (aesBlock (keyBits / 32) key) (data.length / 16) iv data) = some data := by
  have hturns : data.length = 16 * (data.length / 16) := by omega
  have hundone (block : Block) : aesCipher.decrypt key keyBits (aesCipher.encrypt key keyBits block) = block :=
    decrypted hbits key block
  refine ⟨?_, ?_⟩
  · rw [utilsAesCryptCbc, if_neg (not_not.mpr hdata), aesCipher_encrypt hbits]
  · rw [utilsAesCryptCbc, if_neg (not_not.mpr hdata), ← aesCipher_encrypt hbits, decryptLoop_encryptLoop hundone hturns]

theorem utilsAesCryptCbc_plain_two :
    utilsAesCryptCbc aesCipher .encrypt (List.replicate 24 7) 192 (List.replicate 32 9).length (Vector.replicate 16 1)
          (List.replicate 32 9) =
        some (encryptLoop (aesBlock (192 / 32) (List.replicate 24 7)) ((List.replicate 32 9).length / 16)
          (Vector.replicate 16 1)
          (List.replicate 32 9)) ∧
      utilsAesCryptCbc aesCipher .decrypt (List.replicate 24 7) 192 (List.replicate 32 9).length (Vector.replicate 16 1)
        (encryptLoop (aesBlock (192 / 32) (List.replicate 24 7)) ((List.replicate 32 9).length / 16)
          (Vector.replicate 16 1)
          (List.replicate 32 9)) = some (List.replicate 32 9) :=
  @utilsAesCryptCbc_plain 192 (Or.inr (Or.inl rfl)) (List.replicate 24 7) (Vector.replicate 16 1)
    (List.replicate 32 9) rfl

end Chaining

end OneSdk.Aes
