import OneSdk.OtaReports

namespace OneSdk.OtaProgress

open CString OtaTypes OtaDownload OtaReports Emits

def sizeValues : Nat := 2 ^ 64

/-- `on_data_received` in the arithmetic of the source, with the percentage that it passes on.
It is none where the source divides by zero. -/
def receiveData (t : Task) (len : Nat) : Option (Task × Int) :=
  let downloadedSize := (t.downloadedSize + len) % sizeValues
  if t.downloadFileSize = 0 then none
  else
    some ({ t with downloadedSize := downloadedSize },
      toInt (100 * downloadedSize % sizeValues / t.downloadFileSize))

def percents : Task → List Nat → Option (List Int)
  | _, [] => some []
  | t, len :: lens =>
      (receiveData t len).bind (fun p => (percents p.1 lens).map (p.2 :: ·))

/-- No chunk is divided by zero, and as long as no more has come than was announced the
percentages go up from 0 to 100. -/
structure Progresses (t : Task) (lens : List Nat) : Prop where
  divides : (percents t lens).isSome = true
  ordered : ∀ front ps, front <+: lens → front.sum ≤ t.serverJobInfo.size → percents t front = some ps →
    ps.Pairwise (· ≤ ·) ∧ ∀ percent ∈ ps, 0 ≤ percent ∧ percent ≤ 100

variable {t : Task} {lens : List Nat} {d : Nat}

theorem receiveData_zero (h : t.downloadFileSize = 0) (len : Nat) : receiveData t len = none := if_pos h

theorem onDataReceived_next (p : Platform) (s : Ota) (t : Task) (len : Nat) (htrap : p.divZeroTraps = true) :
    (onDataReceived p s t len).next.isSome = (receiveData t len).isSome := by
  rw [onDataReceived, receiveData, divide, if_pos htrap]
  by_cases hzero : t.downloadFileSize = 0
  · rw [if_pos hzero, if_pos hzero]
    rfl
  · rw [if_neg hzero, if_neg hzero]
    cases hcb : s.revDataProgressCallback <;> rfl

theorem onDataReceived_keeps (p : Platform) (s : Ota) {t t' : Task} {len : Nat}
    (h : (onDataReceived p s t len).next = some t') : t'.downloadFileSize = t.downloadFileSize := by
  rw [onDataReceived, bind_next] at h
  obtain ⟨percent, -, h⟩ := Option.bind_eq_some_iff.mp h
  rw [bind_next] at h
  obtain ⟨-, -, h⟩ := Option.bind_eq_some_iff.mp h
  rw [← Option.some.inj h]

theorem percents_isSome (h : t.downloadFileSize ≠ 0) (lens : List Nat) : (percents t lens).isSome = true := by
  induction lens generalizing t with
  | nil => rfl
  | cons len lens ih =>
      rw [percents, receiveData, if_neg h, Option.bind_some, Option.isSome_map]
      exact ih h

/-- Where a division by zero traps, the callbacks of a download go through just when there
is a percentage for each chunk. -/
theorem onDataReceived_run (p : Platform) (s : Ota) (htrap : p.divZeroTraps = true) (t : Task) (lens : List Nat) :
    (lens.foldlM (onDataReceived p s) t).next.isSome = (percents t lens).isSome := by
  induction lens generalizing t with
  | nil => rfl
  | cons len lens ih =>
      have hnext := onDataReceived_next p s t len htrap
      rw [List.foldlM_cons, bind_next]
      by_cases hzero : t.downloadFileSize = 0
      · rw [receiveData_zero hzero] at hnext
        rw [Option.isNone_iff_eq_none.mp (Option.isSome_eq_false_iff.mp hnext), percents, receiveData_zero hzero]
        rfl
      · rw [receiveData, if_neg hzero] at hnext
        obtain ⟨t', hstep⟩ := Option.isSome_iff_exists.mp hnext
        rw [hstep, Option.bind_some, ih t', percents_isSome hzero]
        exact percents_isSome (onDataReceived_keeps p s hstep ▸ hzero) lens

/-- `iot_ota_start_download` leaves the size of the file at zero, and no other function sets
it: the first chunk of any download is divided by it. -/
theorem progresses_iff (s : Ota) (job : JobInfo) (decodeUrl path : Bytes) (lens : List Nat) :
    Progresses (newTask s job decodeUrl path) lens ↔ lens = [] := by
  constructor
  · intro h
    cases lens with
    | nil => rfl
    | cons len lens =>
        have hnone : percents (newTask s job decodeUrl path) (len :: lens) = none := by
          rw [percents, receiveData_zero rfl]
          rfl
        have hsome := h.divides
        rw [hnone] at hsome
        exact absurd hsome (by simp)
  · rintro rfl
    refine ⟨rfl, ?_⟩
    intro front ps hfront _ hps
    rw [List.prefix_nil.mp hfront] at hps
    obtain rfl : [] = ps := Option.some.inj hps
    exact ⟨List.Pairwise.nil, by simp⟩

theorem percent_eq {n : Nat} (hn : n ≤ d) (hsmall : 100 * d < sizeValues) :
    toInt (100 * n % sizeValues / d) = ((100 * n / d : Nat) : Int) ∧ 100 * n / d ≤ 100 := by
  have hle : 100 * n / d ≤ 100 := by
    apply Nat.div_le_of_le_mul
    rw [Nat.mul_comm d]
    exact Nat.mul_le_mul_left 100 hn
  rw [Nat.mod_eq_of_lt (by omega)]
  exact ⟨toInt_short (by omega), hle⟩

theorem percents_ordered (hsize : t.downloadFileSize = d) (hpos : 0 < d) (hsmall : 100 * d < sizeValues)
    (hroom : t.downloadedSize + lens.sum ≤ d) {ps : List Int} (h : percents t lens = some ps) :
    ps.Pairwise (· ≤ ·) ∧ ∀ percent ∈ ps, ((100 * t.downloadedSize / d : Nat) : Int) ≤ percent ∧ percent ≤ 100 := by
  induction lens generalizing t ps with
  | nil =>
      obtain rfl : [] = ps := Option.some.inj h
      exact ⟨List.Pairwise.nil, by simp⟩
  | cons len lens ih =>
      rw [List.sum_cons] at hroom
      have hcount : (t.downloadedSize + len) % sizeValues = t.downloadedSize + len := Nat.mod_eq_of_lt (by omega)
      obtain ⟨hpercent, hle⟩ := percent_eq (n := t.downloadedSize + len) (by omega) hsmall
      rw [percents, receiveData, if_neg (by omega), Option.bind_some, hcount] at h
      obtain ⟨rest, hrest, rfl⟩ := Option.map_eq_some_iff.mp h
      obtain ⟨hordered, hbounds⟩ := ih (t := { t with downloadedSize := t.downloadedSize + len }) hsize
        (by dsimp only; omega) hrest
      have hgrows : 100 * t.downloadedSize / d ≤ 100 * (t.downloadedSize + len) / d :=
        Nat.div_le_div_right (by omega)
      dsimp only at hbounds ⊢
      rw [hsize, hpercent]
      refine ⟨List.Pairwise.cons (fun percent hp => (hbounds percent hp).1) hordered, ?_⟩
      intro percent hp
      rcases List.mem_cons.mp hp with rfl | hp
      · omega
      · have := hbounds percent hp
        omega

theorem progresses_of_announced (hsize : t.downloadFileSize = t.serverJobInfo.size) (hpos : 0 < t.serverJobInfo.size)
    (hsmall : 100 * t.serverJobInfo.size < sizeValues) (hfresh : t.downloadedSize = 0) (lens : List Nat) :
    Progresses t lens := by
  refine ⟨percents_isSome (by omega) lens, ?_⟩
  intro front ps _ hroom hps
  obtain ⟨hordered, hbounds⟩ := percents_ordered hsize hpos hsmall (by omega) hps
  refine ⟨hordered, fun percent hp => ?_⟩
  obtain ⟨hlower, hupper⟩ := hbounds percent hp
  exact ⟨Int.le_trans (Int.natCast_nonneg _) hlower, hupper⟩

def byteJob : JobInfo := ⟨[49], 1, [50], some sampleUrl, [109], none⟩

theorem first_chunk_divided_by_zero : ¬Progresses (newTask freshOta byteJob sampleDecodeUrl [102]) [1] := by
  intro h
  have hnone : percents (newTask freshOta byteJob sampleDecodeUrl [102]) [1] = none := rfl
  have hsome := h.divides
  rw [hnone] at hsome
  exact absurd hsome (by simp)

end OneSdk.OtaProgress
