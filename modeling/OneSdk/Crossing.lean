import OneSdk.Chunking

namespace OneSdk.Crossing

open Framing Chunking

variable {α : Type}

/-- From the offset `n` of the first, every block that fits into `N` ends within `N`. -/
def InTime (N : Nat) : Nat → List (List α) → Prop
  | _, [] => True
  | n, e :: es => (e.length ≤ N → n + e.length ≤ N) ∧ InTime N (n + e.length) es

instance decidableInTime (N : Nat) : (n : Nat) → (es : List (List α)) → Decidable (InTime N n es)
  | _, [] => .isTrue trivial
  | n, e :: es => @instDecidableAnd _ _ _ (decidableInTime N (n + e.length) es)

def fitting (N : Nat) (es : List (List α)) : List (List α) := es.filter (fun e => e.length ≤ N)

variable {N n : Nat} {es fs : List (List α)}

theorem inTime_append : InTime N n (es ++ fs) ↔ InTime N n es ∧ InTime N (n + es.flatten.length) fs := by
  induction es generalizing n with
  | nil => simp [InTime]
  | cons e es ih =>
      rw [List.cons_append, InTime, InTime, ih, List.flatten_cons, List.length_append, Nat.add_assoc, and_assoc]

theorem inTime_of_length (h : n + es.flatten.length ≤ N) : InTime N n es := by
  induction es generalizing n with
  | nil => trivial
  | cons e es ih =>
      rw [List.flatten_cons, List.length_append] at h
      exact ⟨fun _ => by omega, ih (by omega)⟩

theorem inTime_of_oversized (h : fitting N es = []) : InTime N n es := by
  induction es generalizing n with
  | nil => trivial
  | cons e es ih =>
      rw [fitting, List.filter_eq_nil_iff] at h
      have he : ¬e.length ≤ N := by simpa using h e List.mem_cons_self
      refine ⟨fun hle => absurd hle he, ih ?_⟩
      rw [fitting, List.filter_eq_nil_iff]
      exact fun x hx => h x (List.mem_cons_of_mem e hx)

theorem fitting_of_length (h : es.flatten.length ≤ N) : fitting N es = es := by
  rw [fitting, List.filter_eq_self]
  intro e he
  have := (List.sublist_flatten_of_mem he).length_le
  exact decide_eq_true (by omega)

theorem fitting_late (hn : N ≤ n) (h : InTime N n es) (hpos : ∀ e ∈ es, 0 < e.length) : fitting N es = [] := by
  induction es generalizing n with
  | nil => rfl
  | cons e es ih =>
      obtain ⟨he, hrest⟩ := h
      have hp := hpos e List.mem_cons_self
      have hlong : ¬e.length ≤ N := by
        intro hle
        have := he hle
        omega
      rw [fitting, List.filter_cons_of_neg (by simpa using hlong)]
      exact ih (by omega) hrest (fun x hx => hpos x (List.mem_cons_of_mem e hx))

theorem takeWhile_sublist_filter {p : List α → Bool} (es : List (List α)) : (es.takeWhile p).Sublist (es.filter p) := by
  induction es with
  | nil => exact .slnil
  | cons e es ih =>
      cases he : p e with
      | true =>
          rw [List.takeWhile_cons_of_pos he, List.filter_cons_of_pos he]
          exact ih.cons_cons e
      | false =>
          rw [List.takeWhile_cons_of_neg (by simp [he])]
          exact List.nil_sublist _

theorem fitting_eq_takeWhile :
    fitting N es = es.takeWhile (·.length ≤ N) ↔ es.Pairwise fun e later => N < e.length → N < later.length := by
  induction es with
  | nil => exact iff_of_true rfl .nil
  | cons e es ih =>
      rw [List.pairwise_cons, ← ih, fitting, fitting]
      rcases Nat.lt_or_ge N e.length with hover | hfits
      · rw [List.filter_cons_of_neg (by simpa using hover), List.takeWhile_cons_of_neg (by simpa using hover)]
        simp only [List.filter_eq_nil_iff, decide_eq_true_eq, Nat.not_le]
        refine ⟨fun hnone => ⟨fun f hf _ => hnone f hf, ?_⟩, fun h f hf => h.1 f hf hover⟩
        have hnil : es.filter (fun e => e.length ≤ N) = [] := by
          rw [List.filter_eq_nil_iff]
          exact fun f hf => by simpa using hnone f hf
        rw [hnil]
        exact (List.sublist_nil.mp (hnil ▸ takeWhile_sublist_filter es)).symm
      · rw [List.filter_cons_of_pos (by simpa using hfits), List.takeWhile_cons_of_pos (by simpa using hfits)]
        simp only [List.cons.injEq, true_and]
        exact (and_iff_right fun _ _ hover => absurd hover (Nat.not_lt.mpr hfits)).symm

theorem exists_crossing (h : N < n + es.flatten.length) (hn : n ≤ N) :
    ∃ pre c post, es = pre ++ c :: post ∧ n + pre.flatten.length ≤ N ∧ N < n + pre.flatten.length + c.length := by
  induction es generalizing n with
  | nil => exact absurd h (by simpa using hn)
  | cons e es ih =>
      rw [List.flatten_cons, List.length_append] at h
      rcases Nat.lt_or_ge N (n + e.length) with hlt | hle
      · exact ⟨[], e, es, rfl, by simpa using hn, by simpa using hlt⟩
      · obtain ⟨pre, c, post, rfl, hpre, hc⟩ := ih (by omega) hle
        refine ⟨e :: pre, c, post, rfl, ?_, ?_⟩
        · rw [List.flatten_cons, List.length_append]
          omega
        · rw [List.flatten_cons, List.length_append]
          omega

variable [DecidableEq α] {D : Delims α} {t : List α} {cs : List (List α)}

theorem fits_of_length (ho : Open D t) (h : t.length + cs.flatten.length ≤ N) : Fits D N t cs := by
  induction cs generalizing t with
  | nil => trivial
  | cons c cs ih =>
      rw [List.flatten_cons, List.length_append] at h
      obtain ⟨hflat, -, hopen⟩ := segments_spec (D := D) (t ++ c)
      have hlen := congrArg List.length hflat
      rw [List.length_append, List.length_append] at hlen
      rw [fits_cons]
      exact ⟨by omega, ih hopen (by omega)⟩

theorem fitting_after (ho : Open D t) {l : List α} (hn : N ≤ n + t.length)
    (h : InTime N n (segments D (t ++ l)).1) : fitting N (segments D (t ++ l)).1 = [] := by
  obtain ⟨hflat, hblocks, -⟩ := segments_spec (D := D) (t ++ l)
  cases hs : (segments D (t ++ l)).1 with
  | nil => rfl
  | cons e es =>
      rw [hs] at hflat hblocks h
      have he := hblocks e List.mem_cons_self
      have hlong : t.length < e.length := by
        by_contra hle
        have htake : e = t.take e.length := by
          have htl : (t ++ l).take e.length = e := by
            rw [← hflat, List.flatten_cons, List.append_assoc, List.take_left]
          rwa [List.take_append_of_le_length (by omega), eq_comm] at htl
        have hopen := ho e.length (by omega)
        rw [← htake, he.closed] at hopen
        exact absurd hopen (by simp)
      have hover : ¬e.length ≤ N := by
        intro hle
        have := h.1 hle
        omega
      rw [fitting, List.filter_cons_of_neg (by simpa using hover)]
      exact fitting_late (by omega) h.2 (fun x hx => (hblocks x (List.mem_cons_of_mem e hx)).pos)

theorem flatten_segments_le (l : List α) : (segments D l).1.flatten.length ≤ l.length := by
  have hlen := congrArg List.length (segments_spec (D := D) l).1
  rw [List.length_append] at hlen
  omega

theorem fitting_of_prefix {p l : List α} (hfit : ∀ e ∈ (segments D p).1, e.length ≤ N) (hp : N ≤ p.length)
    (h : InTime N 0 (segments D (p ++ l)).1) : fitting N (segments D (p ++ l)).1 = (segments D p).1 := by
  obtain ⟨hflat, -, hopen⟩ := segments_spec (D := D) p
  have hlen := congrArg List.length hflat
  rw [List.length_append] at hlen
  rw [segments_append] at h ⊢
  have hlate := fitting_after hopen (by omega) (inTime_append.mp h).2
  have hearly : fitting N (segments D p).1 = (segments D p).1 := by
    rw [fitting, List.filter_eq_self]
    exact fun e he => decide_eq_true (hfit e he)
  rw [fitting] at hearly hlate ⊢
  rw [List.filter_append, hearly, hlate, List.append_nil]

variable (D) in
/-- No block that the short terminator ends stands before one that the long one ends. -/
def LongFirst (es : List (List α)) : Prop := es.Pairwise (fun e f => isLong D e = false → isLong D f = false)

instance (es : List (List α)) : Decidable (LongFirst D es) := inferInstanceAs (Decidable (List.Pairwise _ es))

theorem LongFirst.separated (h : LongFirst D es) : Separated D N es := by
  refine (List.Pairwise.imp ?_ h).isChain
  rintro e f hef ⟨he, hf, -⟩
  rw [hef he] at hf
  exact Bool.false_ne_true hf

theorem merge_length_le (es : List (List α)) : (merge D es).length ≤ es.length := by
  induction es with
  | nil => exact Nat.le_refl 0
  | cons e es ih =>
      rw [merge]
      split
      · exact Nat.succ_le_succ ih
      · split
        next m ms hm =>
          rw [hm] at ih
          exact Nat.le_succ_of_le ih
        next => exact Nat.succ_le_succ (Nat.zero_le _)

theorem longFirst_of_merge (h : (merge D es).length = es.length) : LongFirst D es := by
  induction es with
  | nil => exact List.Pairwise.nil
  | cons e es ih =>
      have hle := merge_length_le (D := D) es
      rw [merge] at h
      split at h
      next hkeep =>
        refine List.pairwise_cons.mpr ⟨?_, ih (by simpa using h)⟩
        intro f hf he
        rcases (Bool.or_eq_true _ _).mp hkeep with hl | hany
        · exact absurd (he.symm.trans hl) Bool.false_ne_true
        · have hnone : es.any (isLong D) = false := by simpa using hany
          rw [List.any_eq_false] at hnone
          simpa using hnone f hf
      next hmerge =>
        exfalso
        split at h
        next m ms hm =>
          rw [hm] at hle
          simp only [List.length_cons] at h hle
          omega
        next hm =>
          obtain rfl : es = [] := by simpa using h
          simp at hmerge

theorem exists_overflow (ho : Open D t) (h : ¬Fits D N t cs) :
    ∃ pre c post, cs = pre ++ c :: post ∧ Fits D N t pre ∧
      N < (segments D (t ++ pre.flatten)).2.length + c.length := by
  induction cs generalizing t with
  | nil => exact absurd trivial h
  | cons c cs ih =>
      rw [fits_cons] at h
      rcases Nat.lt_or_ge N (t.length + c.length) with hover | hroom
      · refine ⟨[], c, cs, rfl, trivial, ?_⟩
        rw [List.flatten_nil, List.append_nil, segments_open ho]
        exact hover
      · obtain ⟨pre, d, post, rfl, hpre, hd⟩ := ih (segments_spec _).2.2 fun hrest => h ⟨hroom, hrest⟩
        refine ⟨c :: pre, d, post, rfl, (fits_cons t c pre).mpr ⟨hroom, hpre⟩, ?_⟩
        rw [List.flatten_cons, ← List.append_assoc, segments_append]
        exact hd

theorem open_take {l : List α} (ho : Open D t)
    (hlong : ∀ e ∈ (segments D (t ++ l)).1, t.length < e.length → N < e.length) :
    Open D ((t ++ l).take N) ∧ (segments D (t ++ l)).1.takeWhile (·.length ≤ N) = [] := by
  obtain ⟨hflat, hblocks, hopen⟩ := segments_spec (D := D) (t ++ l)
  cases hes : (segments D (t ++ l)).1 with
  | nil =>
      rw [hes, List.flatten_nil, List.nil_append] at hflat
      refine ⟨fun k hk => ?_, rfl⟩
      rw [List.take_take, ← hflat]
      rw [List.length_take] at hk
      exact hopen _ (by rw [hflat]; omega)
  | cons e es =>
      rw [hes] at hflat hblocks hlong
      rw [List.flatten_cons, List.append_assoc] at hflat
      have he := hblocks e List.mem_cons_self
      have hbeyond : t.length < e.length := by
        by_contra hle
        have hfront : t.take e.length = e := by
          have htake := congrArg (List.take e.length) hflat
          rw [List.take_left, List.take_append_of_le_length (Nat.not_lt.mp hle)] at htake
          exact htake.symm
        have hno := ho e.length (Nat.not_lt.mp hle)
        rw [hfront, he.closed] at hno
        cases hno
      have hover := hlong e List.mem_cons_self hbeyond
      refine ⟨fun k hk => ?_, List.takeWhile_cons_of_neg (by simpa using hover)⟩
      rw [List.length_take] at hk
      rw [List.take_take, ← hflat, List.take_append_of_le_length (by omega)]
      exact he.first _ (by omega)

end OneSdk.Crossing
