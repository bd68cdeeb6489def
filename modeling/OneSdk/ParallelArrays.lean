import Mathlib.Data.List.Basic

namespace OneSdk.ParallelArrays

variable {α β : Type}

/-- `realloc` of an array to `n` elements. What lies beyond the old block is whatever
the allocator left there. -/
def resize (junk : α) (n : Nat) (xs : List α) : List α :=
  xs.take n ++ List.replicate (n - xs.length) junk

def move (dst src n : Nat) (xs : List α) : List α :=
  xs.take dst ++ (xs.drop src).take n ++ xs.drop (dst + n)

/-- One pass over two arrays that keeps the pairs not dropped, moving each kept
pair down to the next free index of the same arrays. -/
def compact (drop : α → β → Bool) : Nat → Nat → Nat → List α → List β → Nat × List α × List β
  | 0, _, new, xs, ys => (new, xs, ys)
  | n + 1, i, new, xs, ys =>
      match xs[i]?, ys[i]? with
      | some x, some y =>
          if drop x y then compact drop n (i + 1) new xs ys
          else if new ≠ i then compact drop n (i + 1) (new + 1) (xs.set new x) (ys.set new y)
          else compact drop n (i + 1) (new + 1) xs ys
      | _, _ => (new, xs, ys)

theorem length_resize (junk : α) (n : Nat) (xs : List α) : (resize junk n xs).length = n := by
  simp only [resize, List.length_append, List.length_take, List.length_replicate]
  omega

theorem take_resize (junk : α) (n k : Nat) (xs : List α) (hk : k ≤ n) (hx : k ≤ xs.length) :
    (resize junk n xs).take k = xs.take k := by
  have hl : k ≤ (xs.take n).length := by simp only [List.length_take]; omega
  rw [resize, List.take_append_of_le_length hl, List.take_take, Nat.min_eq_left hk]

theorem length_move (dst src n : Nat) (xs : List α) (hs : src + n ≤ xs.length) (hd : dst ≤ src) :
    (move dst src n xs).length = xs.length := by
  simp only [move, List.length_append, List.length_take, List.length_drop]
  omega

theorem take_set_self (xs : List α) (k : Nat) (x : α) (hk : k < xs.length) :
    (xs.set k x).take (k + 1) = xs.take k ++ [x] := by
  rw [List.take_add_one, List.take_set_of_le (Nat.le_refl k), List.getElem?_set_self hk]
  rfl

theorem zip_set (xs : List α) (ys : List β) (k : Nat) (x : α) (y : β) :
    (xs.set k x).zip (ys.set k y) = (xs.zip ys).set k (x, y) := by
  induction xs generalizing ys k with
  | nil => simp
  | cons a xs ih =>
      cases ys with
      | nil => simp
      | cons b ys =>
          cases k with
          | zero => simp
          | succ k => simp [ih]

theorem zip_take (xs : List α) (ys : List β) (k : Nat) :
    (xs.take k).zip ys = (xs.zip ys).take k := by
  induction xs generalizing ys k with
  | nil => simp
  | cons a xs ih =>
      cases ys with
      | nil => simp
      | cons b ys =>
          cases k with
          | zero => simp
          | succ k => simp [ih]

theorem zip_eraseIdx (xs : List α) (ys : List β) (k : Nat) :
    (xs.eraseIdx k).zip (ys.eraseIdx k) = (xs.zip ys).eraseIdx k := by
  induction xs generalizing ys k with
  | nil => simp
  | cons a xs ih =>
      cases ys with
      | nil => simp
      | cons b ys =>
          cases k with
          | zero => simp
          | succ k => simp [ih]

theorem take_move_erase (count k : Nat) (xs : List α) (hk : k < count) (hc : count ≤ xs.length) :
    (move k (k + 1) (count - k - 1) xs).take (count - 1) = (xs.take count).eraseIdx k := by
  have hlen : (xs.take k ++ (xs.drop (k + 1)).take (count - k - 1)).length = count - 1 := by
    simp only [List.length_append, List.length_take, List.length_drop]
    omega
  rw [move, List.take_append_of_le_length (Nat.le_of_eq hlen.symm), List.take_of_length_le (Nat.le_of_eq hlen),
    List.eraseIdx_eq_take_drop_succ, List.take_take, Nat.min_eq_left (Nat.le_of_lt hk), List.drop_take]
  congr 2

theorem take_pred_erase (count k : Nat) (xs : List α) (hk : k + 1 = count) (hc : count ≤ xs.length) :
    xs.take (count - 1) = (xs.take count).eraseIdx k := by
  have hl : (xs.take count).length = count := by rw [List.length_take, Nat.min_eq_left hc]
  rw [List.eraseIdx_eq_dropLast (hk.trans hl.symm), List.dropLast_eq_take, hl, List.take_take,
    Nat.min_eq_left (Nat.sub_le count 1)]

theorem compact_lengths (drop : α → β → Bool) (n i new : Nat) (xs : List α) (ys : List β) :
    (compact drop n i new xs ys).1 ≤ new + n ∧
      (compact drop n i new xs ys).2.1.length = xs.length ∧
      (compact drop n i new xs ys).2.2.length = ys.length := by
  induction n generalizing i new xs ys with
  | zero => simp [compact]
  | succ n ih =>
      rw [compact]
      split
      next x y _ _ =>
        split
        · obtain ⟨hc, hx, hy⟩ := ih (i + 1) new xs ys
          exact ⟨by omega, hx, hy⟩
        · split
          · obtain ⟨hc, hx, hy⟩ := ih (i + 1) (new + 1) (xs.set new x) (ys.set new y)
            exact ⟨by omega, by simpa using hx, by simpa using hy⟩
          · obtain ⟨hc, hx, hy⟩ := ih (i + 1) (new + 1) xs ys
            exact ⟨by omega, hx, hy⟩
      next => exact ⟨by omega, rfl, rfl⟩

/-- The pass is a filter of the paired elements: the arrays are overwritten only
below the read index, so each pair is read as it was before the pass. -/
theorem compact_filter (drop : α → β → Bool) (n i new : Nat) (xs : List α) (ys : List β)
    (hx : i + n ≤ xs.length) (hy : i + n ≤ ys.length) (hn : new ≤ i) :
    (((compact drop n i new xs ys).2.1.zip (compact drop n i new xs ys).2.2).take
        (compact drop n i new xs ys).1) =
      (xs.zip ys).take new ++ (((xs.zip ys).drop i).take n).filter (fun p => !drop p.1 p.2) := by
  induction n generalizing i new xs ys with
  | zero => simp [compact]
  | succ n ih =>
      have hi : i < xs.length := by omega
      have hj : i < ys.length := by omega
      have hz : i < (xs.zip ys).length := by simp only [List.length_zip]; omega
      have hread : ((xs.zip ys).drop i).take (n + 1) =
          (xs[i], ys[i]) :: ((xs.zip ys).drop (i + 1)).take n := by
        rw [List.drop_eq_getElem_cons hz, List.take_succ_cons, List.getElem_zip]
      rw [compact, List.getElem?_eq_getElem hi, List.getElem?_eq_getElem hj, hread]
      dsimp only
      split
      next hd =>
        rw [ih (i + 1) new xs ys (by omega) (by omega) (by omega)]
        simp [hd]
      next hd =>
        split
        next hne =>
          have hlt : new < (xs.zip ys).length := by omega
          rw [ih (i + 1) (new + 1) (xs.set new xs[i]) (ys.set new ys[i]) (by simp; omega)
              (by simp; omega) (by omega),
            zip_set, take_set_self _ _ _ hlt, List.drop_set_of_lt (by omega)]
          simp [hd]
        next he =>
          have he : new = i := by simpa using he
          subst he
          rw [ih (new + 1) (new + 1) xs ys (by omega) (by omega) (by omega),
            List.take_add_one, List.getElem?_eq_getElem hz, List.getElem_zip]
          simp [hd]

end OneSdk.ParallelArrays
