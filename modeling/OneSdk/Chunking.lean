import OneSdk.Framing
import Mathlib.Data.List.Chain

namespace OneSdk.Chunking

open Framing

variable {α : Type} [DecidableEq α] (D : Delims α)

/-- The frames that a receiver takes out of its chunks, carrying what is unfinished. -/
def received : List α → List (List α) → List (List α)
  | _, [] => []
  | t, c :: cs => (frames D (t ++ c).length (t ++ c)).1 ++ received (frames D (t ++ c).length (t ++ c)).2 cs

def Fits (N : Nat) : List α → List (List α) → Prop
  | _, [] => True
  | t, c :: cs => t.length + c.length ≤ N ∧ Fits N (frames D (t ++ c).length (t ++ c)).2 cs

def singles (l : List α) : List (List α) := l.map (fun b => [b])

def Merges (N : Nat) (e f : List α) : Prop := isLong D e = false ∧ isLong D f = true ∧ e.length + f.length ≤ N

def Separated (N : Nat) (es : List (List α)) : Prop := es.IsChain (fun e f => ¬Merges D N e f)

instance (N : Nat) (e f : List α) : Decidable (Merges D N e f) := inferInstanceAs (Decidable (_ ∧ _ ∧ _))

instance (N : Nat) (es : List (List α)) : Decidable (Separated D N es) :=
  inferInstanceAs (Decidable (List.IsChain _ es))

variable {D} {e t l p : List α} {b : α} {N : Nat}

theorem feed_out (out : List (List α)) (t l : List α) :
    l.foldl (feed D) (out, t) = (out ++ (l.foldl (feed D) ([], t)).1, (l.foldl (feed D) ([], t)).2) := by
  induction l generalizing out t with
  | nil => simp
  | cons b l ih =>
      rw [List.foldl_cons, List.foldl_cons, feed, feed]
      split
      · rw [ih (out ++ [t ++ [b]]), ih ([] ++ [t ++ [b]])]
        simp
      · exact ih out (t ++ [b])

theorem feed_open (h : Open D (t ++ l)) : l.foldl (feed D) ([], t) = ([], t ++ l) := by
  induction l generalizing t with
  | nil => simp
  | cons b l ih =>
      have hb : ends D (t ++ [b]) = false := by
        have := h (t.length + 1) (by simp)
        rwa [List.take_length_add_append] at this
      rw [List.foldl_cons, feed, hb, if_neg (by simp), ih (by rwa [List.append_assoc]), List.append_assoc]
      rfl

theorem segments_open (h : Open D t) : segments D t = ([], t) := feed_open (t := []) h

theorem segments_carry (h : Open D t) : segments D (t ++ l) = l.foldl (feed D) ([], t) := by
  rw [segments, List.foldl_append, ← segments, segments_open h]

theorem open_nil : Open D [] := fun k _ => by rw [List.take_nil]; exact ends_nil

theorem open_snoc (h : Open D t) (hb : ends D (t ++ [b]) = false) : Open D (t ++ [b]) := by
  intro k hk
  rcases Nat.lt_or_ge t.length k with hlt | hle
  · rw [List.take_of_length_le (by simp at hk ⊢; omega)]
    exact hb
  · rw [List.take_append_of_le_length hle]
    exact h k hle

theorem block_snoc (h : Open D t) (hb : ends D (t ++ [b]) = true) : Block D (t ++ [b]) := by
  refine ⟨hb, fun k hk => ?_⟩
  have hle : k ≤ t.length := by simp at hk; omega
  rw [List.take_append_of_le_length hle]
  exact h k hle

theorem segments_spec (l : List α) :
    (segments D l).1.flatten ++ (segments D l).2 = l ∧ (∀ e ∈ (segments D l).1, Block D e) ∧
      Open D (segments D l).2 := by
  induction l using List.reverseRecOn with
  | nil => exact ⟨rfl, by simp [segments], open_nil⟩
  | append_singleton l b ih =>
      obtain ⟨hflat, hblocks, hopen⟩ := ih
      have hstep : segments D (l ++ [b]) = feed D (segments D l) b := by
        rw [segments, List.foldl_append]; rfl
      rw [hstep, feed]
      by_cases hb : ends D ((segments D l).2 ++ [b]) = true
      · rw [if_pos hb]
        refine ⟨by simp [← List.append_assoc, hflat], ?_, open_nil⟩
        intro e he
        rcases List.mem_append.mp he with he | he
        · exact hblocks e he
        · rw [List.mem_singleton.mp he]
          exact block_snoc hopen hb
      · rw [if_neg hb]
        exact ⟨by simp [← List.append_assoc, hflat], hblocks, open_snoc hopen (by simpa using hb)⟩

theorem segments_append (p l : List α) :
    segments D (p ++ l) =
      ((segments D p).1 ++ (segments D ((segments D p).2 ++ l)).1, (segments D ((segments D p).2 ++ l)).2) := by
  rw [segments_carry (segments_spec p).2.2]
  conv_lhs => rw [segments, List.foldl_append, ← segments]
  exact feed_out _ _ _

theorem segments_block (h : Block D e) : segments D e = ([e], []) := by
  have hne : e ≠ [] := List.length_pos_iff.mp h.pos
  obtain ⟨t, b, rfl⟩ : ∃ t b, e = t ++ [b] := ⟨e.dropLast, e.getLast hne, (List.dropLast_concat_getLast hne).symm⟩
  have hopen : Open D t := by
    intro k hk
    have := h.first k (by simp; omega)
    rwa [List.take_append_of_le_length hk] at this
  rw [segments_carry hopen, List.foldl_cons, feed, if_pos h.closed]
  rfl

theorem segments_blocks {es : List (List α)} (hb : ∀ e ∈ es, Block D e) (l : List α) :
    segments D (es.flatten ++ l) = (es ++ (segments D l).1, (segments D l).2) := by
  induction es with
  | nil => rfl
  | cons e es ih =>
      have he := segments_block (hb e List.mem_cons_self)
      have hi := ih (fun x hx => hb x (List.mem_cons_of_mem e hx))
      rw [List.flatten_cons, List.append_assoc, segments_append, he]
      simp [hi]

theorem length_le_flatten {es : List (List α)} (hb : ∀ e ∈ es, Block D e) : es.length ≤ es.flatten.length := by
  induction es with
  | nil => simp
  | cons e es ih =>
      have hi := ih (fun x hx => hb x (List.mem_cons_of_mem e hx))
      have hp := (hb e List.mem_cons_self).pos
      simp only [List.length_cons, List.flatten_cons, List.length_append]
      omega

theorem frames_segments (l : List α) : frames D l.length l = (merge D (segments D l).1, (segments D l).2) := by
  obtain ⟨hflat, hblocks, hopen⟩ := segments_spec (D := D) l
  have hlen : (segments D l).1.length ≤ l.length := by
    have := length_le_flatten hblocks
    have := congrArg List.length hflat
    rw [List.length_append] at this
    omega
  have h := frames_eq_merge (segments D l).1 hblocks hopen l.length hlen
  rwa [hflat] at h

theorem received_cons (t c : List α) (cs : List (List α)) :
    received D t (c :: cs) = merge D (segments D (t ++ c)).1 ++ received D (segments D (t ++ c)).2 cs := by
  rw [received, frames_segments]

theorem fits_cons (t c : List α) (cs : List (List α)) :
    Fits D N t (c :: cs) ↔ t.length + c.length ≤ N ∧ Fits D N (segments D (t ++ c)).2 cs := by
  rw [Fits, frames_segments]

theorem received_append (ho : Open D t) (cs ds : List (List α)) :
    received D t (cs ++ ds) = received D t cs ++ received D (segments D (t ++ cs.flatten)).2 ds := by
  induction cs generalizing t with
  | nil => simp [received, segments_open ho]
  | cons c cs ih =>
      rw [List.cons_append, received_cons, received_cons, ih (segments_spec _).2.2, List.append_assoc,
        List.flatten_cons, ← List.append_assoc t, segments_append (t ++ c)]

theorem fits_append (ho : Open D t) (cs ds : List (List α)) :
    Fits D N t (cs ++ ds) ↔ Fits D N t cs ∧ Fits D N (segments D (t ++ cs.flatten)).2 ds := by
  induction cs generalizing t with
  | nil => simp [Fits, segments_open ho]
  | cons c cs ih =>
      rw [List.cons_append, fits_cons, fits_cons, ih (segments_spec _).2.2, List.flatten_cons, ← List.append_assoc t,
        segments_append (t ++ c), and_assoc]

theorem no_long_after {es : List (List α)} (hs : Separated D N (e :: es)) (he : isLong D e = false)
    (hlen : (e :: es).flatten.length ≤ N) : es.any (isLong D) = false := by
  induction es generalizing e with
  | nil => rfl
  | cons f es ih =>
      obtain ⟨hef, hrest⟩ := List.isChain_cons_cons.mp hs
      simp only [List.flatten_cons, List.length_append] at hlen
      have hf : isLong D f = false := by
        by_contra hne
        exact hef ⟨he, by simpa using hne, by omega⟩
      rw [List.any_cons, hf, Bool.false_or]
      exact ih hrest hf (by simp only [List.flatten_cons, List.length_append]; omega)

theorem merge_separated {es : List (List α)} (hs : Separated D N es) (hlen : es.flatten.length ≤ N) :
    merge D es = es := by
  induction es with
  | nil => rfl
  | cons e es ih =>
      have hlen' : es.flatten.length ≤ N := by
        simp only [List.flatten_cons, List.length_append] at hlen
        omega
      rw [merge]
      cases he : isLong D e with
      | true => simp [ih hs.tail hlen']
      | false =>
          rw [no_long_after hs he hlen, ih hs.tail hlen']
          rfl

/-- A receiver whose chunks fit takes out the blocks of the stream, when no chunk can
bring together two of them that it would merge. -/
theorem received_separated (ho : Open D t) {cs : List (List α)} (hf : Fits D N t cs)
    (hs : Separated D N (segments D (t ++ cs.flatten)).1) :
    received D t cs = (segments D (t ++ cs.flatten)).1 := by
  induction cs generalizing t with
  | nil => simp [received, segments_open ho]
  | cons c cs ih =>
      obtain ⟨hlen, hf⟩ := (fits_cons t c cs).mp hf
      obtain ⟨hflat, -, hopen⟩ := segments_spec (D := D) (t ++ c)
      rw [List.flatten_cons, ← List.append_assoc t, segments_append (t ++ c)] at hs ⊢
      have hhead : (segments D (t ++ c)).1.flatten.length ≤ N := by
        have := congrArg List.length hflat
        rw [List.length_append, List.length_append] at this
        omega
      rw [received_cons, merge_separated hs.left_of_append hhead, ih hopen hf hs.right_of_append]

theorem segments_snoc (ho : Open D t) (b : α) :
    segments D (t ++ [b]) = if ends D (t ++ [b]) then ([t ++ [b]], []) else ([], t ++ [b]) := by
  rw [segments_carry ho, List.foldl_cons, feed]
  rfl

theorem received_singles (ho : Open D t) (l : List α) :
    received D t (singles l) = (segments D (t ++ l)).1 := by
  induction l generalizing t with
  | nil => simp [singles, received, segments_open ho]
  | cons b l ih =>
      have hl : t ++ b :: l = t ++ [b] ++ l := by simp
      rw [singles, List.map_cons, received_cons, hl, segments_append (t ++ [b]), ← singles, ih (segments_spec _).2.2,
        segments_snoc ho]
      by_cases hb : ends D (t ++ [b]) = true
      · rw [if_pos hb]
        simp [merge]
      · rw [if_neg hb]
        rfl

def Bounded (N : Nat) (s : List (List α) × List α) : Prop := (∀ e ∈ s.1, e.length ≤ N) ∧ s.2.length ≤ N

theorem fits_singles (ho : Open D t) (l : List α) (hb : Bounded N (segments D (t ++ l))) :
    t.length ≤ N ∧ Fits D N t (singles l) := by
  induction l generalizing t with
  | nil =>
      rw [List.append_nil, segments_open ho] at hb
      exact ⟨hb.2, trivial⟩
  | cons b l ih =>
      have hl : t ++ b :: l = t ++ [b] ++ l := by simp
      rw [hl, segments_append (t ++ [b])] at hb
      obtain ⟨hblocks, htail⟩ := hb
      have hi := ih (segments_spec (D := D) (t ++ [b])).2.2
        ⟨fun e he => hblocks e (List.mem_append.mpr (.inr he)), htail⟩
      have hlen : (t ++ [b]).length ≤ N := by
        rw [segments_snoc ho] at hblocks hi
        by_cases hends : ends D (t ++ [b]) = true
        · rw [if_pos hends] at hblocks
          exact hblocks _ (by simp)
        · rw [if_neg hends] at hi
          exact hi.1
      simp only [List.length_append, List.length_singleton] at hlen
      exact ⟨by omega, (fits_cons t [b] (singles l)).mpr ⟨hlen, hi.2⟩⟩

theorem bounded_of_fits (ho : Open D t) (ht : t.length ≤ N) {cs : List (List α)} (hf : Fits D N t cs) :
    Bounded N (segments D (t ++ cs.flatten)) := by
  induction cs generalizing t with
  | nil =>
      rw [List.flatten_nil, List.append_nil, segments_open ho]
      exact ⟨by simp, ht⟩
  | cons c cs ih =>
      obtain ⟨hlen, hf⟩ := (fits_cons t c cs).mp hf
      obtain ⟨hflat, -, hopen⟩ := segments_spec (D := D) (t ++ c)
      have hsum := congrArg List.length hflat
      rw [List.length_append, List.length_append] at hsum
      obtain ⟨hblocks, htail⟩ := ih hopen (by omega) hf
      rw [List.flatten_cons, ← List.append_assoc t, segments_append (t ++ c)]
      refine ⟨fun e he => ?_, htail⟩
      rcases List.mem_append.mp he with he | he
      · have := (List.sublist_flatten_of_mem he).length_le
        omega
      · exact hblocks e he

omit [DecidableEq α] in
theorem flatten_singles (l : List α) : (singles l).flatten = l := by
  induction l with
  | nil => rfl
  | cons b l ih => rw [singles, List.map_cons, List.flatten_cons, ← singles, ih]; rfl

theorem segments_closed {es : List (List α)} (hb : ∀ e ∈ es, Block D e) (ho : Open D t) :
    segments D (es.flatten ++ t) = (es, t) := by
  rw [segments_blocks hb, segments_open ho, List.append_nil]

theorem segments_flatten {es : List (List α)} (hb : ∀ e ∈ es, Block D e) : segments D es.flatten = (es, []) := by
  simpa using segments_closed hb open_nil

theorem segments_pair {f : List α} (he : Block D e) (hf : Block D f) : segments D (e ++ f) = ([e, f], []) := by
  have hb : ∀ x ∈ [e, f], Block D x := by
    intro x hx
    rcases List.mem_pair.mp hx with rfl | rfl
    · exact he
    · exact hf
  simpa using segments_flatten hb

theorem received_brought_together {pre post : List (List α)} {f : List α}
    (hb : ∀ x ∈ pre ++ e :: f :: post, Block D x) (ho : Open D t) (he : isLong D e = false) (hf : isLong D f = true) :
    received D [] (singles pre.flatten ++ (e ++ f) :: singles (post.flatten ++ t)) = pre ++ (e ++ f) :: post := by
  have hpre := segments_flatten (fun x hx => hb x (List.mem_append_left _ hx))
  have hpair := segments_pair (hb e (by simp)) (hb f (by simp))
  have hpost : segments D (post.flatten ++ t) = (post, t) := segments_closed (fun x hx => hb x (by simp [hx])) ho
  have hmerge : merge D [e, f] = [e ++ f] := by simp [merge, he, hf]
  rw [received_append open_nil, flatten_singles, received_singles open_nil, List.nil_append, hpre, received_cons,
    List.nil_append, hpair, received_singles open_nil, List.nil_append, hpost, hmerge]
  rfl

theorem fits_brought_together {pre post : List (List α)} {f : List α}
    (hb : ∀ x ∈ pre ++ e :: f :: post, Block D x) (ho : Open D t)
    (hN : Bounded N (pre ++ e :: f :: post, t)) (hlen : e.length + f.length ≤ N) :
    Fits D N [] (singles pre.flatten ++ (e ++ f) :: singles (post.flatten ++ t)) := by
  have hpre := segments_flatten (fun x hx => hb x (List.mem_append_left _ hx))
  have hpair := segments_pair (hb e (by simp)) (hb f (by simp))
  have hpost : segments D (post.flatten ++ t) = (post, t) := segments_closed (fun x hx => hb x (by simp [hx])) ho
  rw [fits_append open_nil, flatten_singles, List.nil_append, hpre, fits_cons, List.nil_append, hpair]
  refine ⟨(fits_singles open_nil _ ?_).2, by simpa using hlen, (fits_singles open_nil _ ?_).2⟩
  · rw [List.nil_append, hpre]
    exact ⟨fun x hx => hN.1 x (List.mem_append_left _ hx), Nat.zero_le N⟩
  · rw [List.nil_append, hpost]
    exact ⟨fun x hx => hN.1 x (by simp [hx]), hN.2⟩

/-- A stream in which a chunk can bring together two blocks can be cut so that the
receiver takes those two as one. -/
theorem exists_merging_split (hN : Bounded N (segments D l)) (hs : ¬Separated D N (segments D l).1) :
    ∃ cs, cs.flatten = l ∧ Fits D N [] cs ∧ (received D [] cs).length < (segments D l).1.length := by
  have hchain := fun h => hs (List.isChain_iff_forall_rel_of_append_cons_cons.mpr h)
  obtain ⟨e, f, pre, post, hes, he, hf, hlen⟩ :
      ∃ e f pre post, (segments D l).1 = pre ++ e :: f :: post ∧ Merges D N e f := by
    by_contra hno
    exact hchain (fun e f pre post hes hm => hno ⟨e, f, pre, post, hes, hm⟩)
  obtain ⟨hflat, hblocks, hopen⟩ := segments_spec (D := D) l
  have hN' : Bounded N (pre ++ e :: f :: post, (segments D l).2) := hes ▸ hN
  rw [hes] at hflat hblocks
  refine ⟨_, ?_, fits_brought_together hblocks hopen hN' hlen, ?_⟩
  · simpa [flatten_singles] using hflat
  · rw [received_brought_together hblocks hopen he hf, hes]
    simp

theorem exists_fits_iff (s : List α) : (∃ cs, cs.flatten = s ∧ Fits D N [] cs) ↔ Bounded N (segments D s) := by
  constructor
  · rintro ⟨cs, rfl, hf⟩
    simpa using bounded_of_fits open_nil (Nat.zero_le N) hf
  · intro hN
    exact ⟨singles s, flatten_singles s, (fits_singles open_nil s (by rwa [List.nil_append])).2⟩

/-- Two receivers of one stream agree, wherever it is cut, just when no chunk can bring
together two blocks that the receiver would merge, and no block is bad. -/
theorem received_agree_iff {β : Type} (g : List α → β) (bad : List α → Bool) (s : List α)
    (hN : Bounded N (segments D s)) :
    (∀ cs ds, cs.flatten = s → ds.flatten = s → Fits D N [] cs → Fits D N [] ds →
        (received D [] cs).map g = (received D [] ds).map g ∧ (received D [] cs).any bad = false) ↔
      Separated D N (segments D s).1 ∧ (segments D s).1.any bad = false := by
  have hone : Fits D N [] (singles s) := (fits_singles open_nil s (by rwa [List.nil_append])).2
  have hrone : received D [] (singles s) = (segments D s).1 := received_singles open_nil s
  constructor
  · intro h
    refine ⟨?_, ?_⟩
    · by_contra hs
      obtain ⟨cs, hcs, hfit, hlt⟩ := exists_merging_split hN hs
      have := congrArg List.length (h cs (singles s) hcs (flatten_singles s) hfit hone).1
      rw [List.length_map, List.length_map, hrone] at this
      omega
    · rw [← hrone]
      exact (h _ _ (flatten_singles s) (flatten_singles s) hone hone).2
  · rintro ⟨hs, hbad⟩ cs ds hcs hds hfc hfd
    have hc : received D [] cs = (segments D s).1 := by
      have := received_separated open_nil hfc (by rwa [List.nil_append, hcs])
      rwa [List.nil_append, hcs] at this
    have hd : received D [] ds = (segments D s).1 := by
      have := received_separated open_nil hfd (by rwa [List.nil_append, hds])
      rwa [List.nil_append, hds] at this
    rw [hc, hd]
    exact ⟨rfl, hbad⟩

end OneSdk.Chunking
