import Mathlib.Data.List.Basic

namespace OneSdk.BlockHash

variable {S α : Type}

section Absorb

variable (compress : S → List α → S) (n : Nat)

/-- Takes up whole blocks from the front; what is left is shorter than a block. -/
def absorb (s : S) (data : List α) : S × List α :=
  if 0 < n ∧ n ≤ data.length then absorb (compress s (data.take n)) (data.drop n) else (s, data)
termination_by data.length
decreasing_by
  rw [List.length_drop]
  omega

variable {compress n} {s : S} {data block rest : List α}

theorem absorb_short (h : data.length < n) : absorb compress n s data = (s, data) := by
  rw [absorb, if_neg (fun hn => by omega)]

theorem absorb_block (hn : 0 < n) (hb : block.length = n) :
    absorb compress n s (block ++ rest) = absorb compress n (compress s block) rest := by
  rw [absorb, if_pos ⟨hn, by rw [List.length_append]; omega⟩, List.take_left' hb, List.drop_left' hb]

theorem absorb_one (hn : 0 < n) (hb : block.length = n) : absorb compress n s block = (compress s block, []) := by
  rw [← List.append_nil block, absorb_block hn hb, absorb_short hn, List.append_nil]

theorem absorb_rest (hn : 0 < n) (s : S) (data : List α) :
    (absorb compress n s data).2.length = data.length % n := by
  induction s, data using absorb.induct compress n with
  | case1 s data h ih =>
      rw [absorb, if_pos h, ih, List.length_drop, Nat.mod_eq_sub_mod h.2]
  | case2 s data h =>
      rw [absorb, if_neg h, Nat.mod_eq_of_lt (by omega)]

/-- Pieces may be taken up one after another, with what is left of each put before the next. -/
theorem absorb_append (s : S) (x y : List α) :
    absorb compress n s (x ++ y) =
      absorb compress n (absorb compress n s x).1 ((absorb compress n s x).2 ++ y) := by
  induction s, x using absorb.induct compress n with
  | case1 s x h ih =>
      rw [absorb, if_pos ⟨h.1, by rw [List.length_append]; omega⟩, List.take_append_of_le_length h.2,
        List.drop_append_of_le_length h.2, ih]
      conv_rhs => rw [absorb.eq_def compress n s x, if_pos h]
  | case2 s x h =>
      conv_rhs => rw [absorb.eq_def compress n s x, if_neg h]

end Absorb

section Buffer

def overwrite (buffer : List α) (i : Nat) (x : List α) : List α := buffer.take i ++ x ++ buffer.drop (i + x.length)

theorem overwrite_length {buffer : List α} {i : Nat} {x : List α} (h : i + x.length ≤ buffer.length) :
    (overwrite buffer i x).length = buffer.length := by
  rw [overwrite, List.length_append, List.length_append, List.length_take, List.length_drop]
  omega

theorem overwrite_take {buffer : List α} {i : Nat} {x : List α} (h : i + x.length ≤ buffer.length) :
    (overwrite buffer i x).take (i + x.length) = buffer.take i ++ x := by
  rw [overwrite]
  refine List.take_left' ?_
  rw [List.length_append, List.length_take]
  omega

theorem overwrite_front {n : Nat} {a : α} {x : List α} :
    overwrite (List.replicate n a) 0 x = x ++ List.replicate (n - x.length) a := by
  rw [overwrite, List.take_zero, List.nil_append, Nat.zero_add, List.drop_replicate]

theorem overwrite_nil (buffer : List α) (i : Nat) : overwrite buffer i [] = buffer := by
  rw [overwrite, List.append_nil, List.length_nil, Nat.add_zero, List.take_append_drop]

theorem overwrite_overwrite {buffer : List α} {i : Nat} {x : List α} (h : i + x.length ≤ buffer.length) (y : List α) :
    overwrite (overwrite buffer i x) (i + x.length) y = overwrite buffer i (x ++ y) := by
  rw [overwrite.eq_def (overwrite buffer i x), overwrite_take h, overwrite.eq_def buffer i (x ++ y),
    overwrite.eq_def buffer i x, List.drop_append, List.length_append, List.length_append, List.length_take,
    Nat.min_eq_left (by omega), List.drop_eq_nil_of_le (by rw [List.length_append, List.length_take]; omega),
    List.drop_drop]
  simp only [List.nil_append, List.append_assoc]
  congr 4
  omega

/-- The blocks of a message have been taken up, and what is left of it stands at the front of a buffer of one block. -/
structure Holds (compress : S → List α → S) (n : Nat) (start : S) (message : List α) (state : S) (buffer : List α)
    (left : Nat) : Prop where
  absorbed : absorb compress n start message = (state, buffer.take left)
  size : buffer.length = n
  lt : left < n

variable {compress : S → List α → S} {n : Nat} {start state : S} {message buffer x : List α} {left : Nat}

theorem Holds.nil (hn : 0 < n) (hsize : buffer.length = n) : Holds compress n start [] start buffer 0 :=
  ⟨absorb_short hn, hsize, hn⟩

theorem Holds.left_eq (h : Holds compress n start message state buffer left) : left = message.length % n := by
  have hrest := @absorb_rest S α compress n (show 0 < n by have := h.lt; omega) start message
  have hlt := h.lt
  rw [h.absorbed, List.length_take, h.size] at hrest
  omega

theorem Holds.keep (h : Holds compress n start message state buffer left) (hx : left + x.length < n) :
    Holds compress n start (message ++ x) state (overwrite buffer left x) (left + x.length) := by
  have hfits : left + x.length ≤ buffer.length := by
    rw [h.size]
    omega
  refine ⟨?_, (overwrite_length hfits).trans h.size, hx⟩
  rw [absorb_append, h.absorbed, overwrite_take hfits, absorb_short]
  rw [List.length_append, List.length_take]
  omega

theorem Holds.fill (h : Holds compress n start message state buffer left) (hx : left + x.length = n) :
    Holds compress n start (message ++ x) (compress state (overwrite buffer left x)) (overwrite buffer left x) 0 := by
  have hfits : left + x.length ≤ buffer.length := by
    rw [h.size]
    omega
  have hall : overwrite buffer left x = buffer.take left ++ x := by
    rw [← overwrite_take hfits, hx, ← h.size, ← overwrite_length hfits, List.take_length]
  have hlen : (buffer.take left ++ x).length = n := by
    rw [List.length_append, List.length_take, h.size]
    omega
  have hn : 0 < n := by
    have := h.lt
    omega
  refine ⟨?_, (overwrite_length hfits).trans h.size, hn⟩
  rw [absorb_append, h.absorbed, hall]
  dsimp only
  rw [absorb_one hn hlen, List.take_zero]

theorem Holds.block (h : Holds compress n start message state buffer 0) (hx : x.length = n) :
    Holds compress n start (message ++ x) (compress state x) buffer 0 := by
  have hn := h.lt
  refine ⟨?_, h.size, hn⟩
  rw [absorb_append, h.absorbed, List.take_zero, List.nil_append, absorb_one hn hx]

end Buffer

section Padding

theorem ofNat_congr {x y : Nat} (h : x % 256 = y % 256) : UInt8.ofNat x = UInt8.ofNat y := by
  rw [UInt8.ofNat_eq_iff_mod_eq_toNat, UInt8.toNat_ofNat']
  exact h

/-- A marker and as many zeros as make room for a length of `tail` bytes at the end of a block. -/
def padding (n tail : Nat) (len : Nat) : List UInt8 :=
  0x80 :: List.replicate ((n - (len + 1 + tail) % n) % n) 0

def padded (n tail : Nat) (lengthBytes : Nat → List UInt8) (message : List UInt8) : List UInt8 :=
  message ++ padding n tail message.length ++ lengthBytes message.length

theorem padded_length {n tail : Nat} (hn : 0 < n) {lengthBytes : Nat → List UInt8} {message : List UInt8}
    (h : (lengthBytes message.length).length = tail) : (padded n tail lengthBytes message).length % n = 0 := by
  have hlen : (padded n tail lengthBytes message).length =
      message.length + 1 + tail + (n - (message.length + 1 + tail) % n) % n := by
    rw [padded, padding, List.length_append, List.length_append, List.length_cons, List.length_replicate, h]
    omega
  have hlt := Nat.mod_lt (message.length + 1 + tail) hn
  rw [hlen, Nat.add_mod, Nat.mod_mod]
  rcases Nat.eq_zero_or_pos ((message.length + 1 + tail) % n) with hzero | hpos
  · rw [hzero, Nat.sub_zero, Nat.mod_self, Nat.add_zero, Nat.zero_mod]
  · rw [Nat.mod_eq_of_lt (show n - (message.length + 1 + tail) % n < n by omega),
      Nat.add_sub_cancel' (Nat.le_of_lt hlt), Nat.mod_self]

end Padding

section Mac

variable (hash : List UInt8 → List UInt8) (n : Nat)

/-- A key as one block: hashed where it is longer, then filled up with zeros. -/
def keyBlock (key : List UInt8) : List UInt8 :=
  let short := if key.length > n then hash key else key
  short ++ List.replicate (n - short.length) 0

theorem keyBlock_length {hash : List UInt8 → List UInt8} {n : Nat} (hhash : ∀ x, (hash x).length ≤ n)
    (key : List UInt8) :
    (keyBlock hash n key).length = n := by
  have hshort : (if key.length > n then hash key else key).length ≤ n := by
    split
    · exact hhash key
    · next hkey => exact Nat.le_of_not_lt hkey
  rw [keyBlock, List.length_append, List.length_replicate]
  omega

def mac (key message : List UInt8) : List UInt8 :=
  hash ((keyBlock hash n key).map (· ^^^ 0x5C) ++ hash ((keyBlock hash n key).map (· ^^^ 0x36) ++ message))

end Mac

end OneSdk.BlockHash
