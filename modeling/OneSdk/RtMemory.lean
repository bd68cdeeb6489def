import OneSdk.RtFragments
import OneSdk.Runs

namespace OneSdk.RtMemory

open CString Emits StreamParse RtReceive RtFragments Runs

structure Fragment where
  message : Bytes
  allocated : Bool

structure Consistent (c : RtContext) : Prop where
  within : c.rtJsonBuf.length ≤ c.block.getD 0
  capacity : c.rtJsonBufCapacity = c.block.getD 0
  bounded : c.rtJsonBufCapacity < sizeValues

section Step

variable {J : Type} (json : CJson J)

def recv (c : RtContext) (f : Fragment) : Option RtContext := (rtRecvCb json (fun _ => f.allocated) c f.message).next

/-- Nothing is left once something has been written outside the block. -/
def machine : Machine (Option RtContext) Fragment where
  enabled := fun _ f => f.message.length < sizeValues
  next := fun s f => s.bind (fun c => recv json c f)

/-- The fragment is taken without a write outside the block, or it is given up and nothing changes. -/
def StoresSafely (s : Option RtContext) (f : Fragment) : Prop :=
  ∃ c c', s = some c ∧ recv json c f = some c' ∧ Consistent c' ∧
    ((reserve (fun _ => f.allocated) c f.message.length).2 = false → c' = c)

def total (c : RtContext) (f : Fragment) : Nat := c.rtJsonBuf.length + f.message.length

def Refused (c : RtContext) (f : Fragment) : Prop :=
  (sizeValues - 1) / 2 < f.message.length ∨ sizeValues - 1 - f.message.length < c.rtJsonBuf.length

def Grows (c : RtContext) (f : Fragment) : Prop := f.allocated = true ∧ total c f * 2 < sizeValues

/-- The fragment fits, is refused, or gets the memory that it needs. A failing `realloc` does no
harm where the new capacity is by chance the old one, and a failing `malloc` where nothing comes. -/
def Affordable (c : RtContext) (f : Fragment) : Prop :=
  match c.block with
  | none => f.message = [] ∨ Grows c f
  | some _ =>
      if c.rtJsonBufCapacity < total c f % sizeValues then
        Refused c f ∨ Grows c f ∨ f.allocated = false ∧ total c f * 2 % sizeValues = c.rtJsonBufCapacity
      else total c f < sizeValues

instance (c : RtContext) (f : Fragment) : Decidable (Refused c f) := inferInstanceAs (Decidable (_ ∨ _))

variable {json} {c : RtContext} {f : Fragment}

theorem passes_total (hadvances : ∀ b root n, json.parseWithLengthOpts b = some (root, n) → 0 < n ∧ n ≤ b.length)
    (c : RtContext) : ∃ rest, (passes json (c.rtJsonBuf.length + 1) c).next = some { c with rtJsonBuf := rest } ∧
      rest.length ≤ c.rtJsonBuf.length := by
  obtain ⟨rest, hrest⟩ := drain_total hadvances (Nat.lt_succ_self c.rtJsonBuf.length)
  refine ⟨rest, ?_, drain_length hrest⟩
  rw [passes_drain, hrest]
  rfl

theorem recv_stored (hadvances : ∀ b root n, json.parseWithLengthOpts b = some (root, n) → 0 < n ∧ n ≤ b.length)
    {c₁ : RtContext} (hreserve : reserve (fun _ => f.allocated) c f.message.length = (c₁, true))
    (hroom : total c₁ f ≤ c₁.block.getD 0) (hcapacity : c₁.rtJsonBufCapacity = c₁.block.getD 0)
    (hbounded : c₁.rtJsonBufCapacity < sizeValues) :
    ∃ c', recv json c f = some c' ∧ Consistent c' := by
  obtain ⟨rest, hnext, hle⟩ := passes_total hadvances { c₁ with rtJsonBuf := c₁.rtJsonBuf ++ f.message }
  refine ⟨{ c₁ with rtJsonBuf := rest }, ?_, ?_, hcapacity, hbounded⟩
  · rw [recv, rtRecvCb, hreserve]
    dsimp only
    rw [if_pos rfl, if_pos (show c₁.rtJsonBuf.length + f.message.length ≤ c₁.block.getD 0 from hroom)]
    exact hnext
  · exact hle.trans (List.length_append.le.trans hroom)

theorem recv_overrun {c₁ : RtContext} (hreserve : reserve (fun _ => f.allocated) c f.message.length = (c₁, true))
    (hover : c₁.block.getD 0 < total c₁ f) : recv json c f = none := by
  rw [recv, rtRecvCb, hreserve]
  dsimp only
  rw [if_pos rfl, if_neg (show ¬c₁.rtJsonBuf.length + f.message.length ≤ c₁.block.getD 0 from Nat.not_le.mpr hover)]
  rfl

theorem recv_refused {c₁ : RtContext} (hreserve : reserve (fun _ => f.allocated) c f.message.length = (c₁, false)) :
    recv json c f = some c₁ := by
  rw [recv, rtRecvCb, hreserve]
  rfl

theorem storesSafely_of_recv {c' : RtContext} (hrecv : recv json c f = some c') (hc : Consistent c')
    (hsame : (reserve (fun _ => f.allocated) c f.message.length).2 = false → c' = c) : StoresSafely json (some c) f :=
  ⟨c, c', rfl, hrecv, hc, hsame⟩

theorem not_storesSafely (hrecv : recv json c f = none) : ¬StoresSafely json (some c) f := by
  rintro ⟨c₀, c', hc₀, hc', -⟩
  rw [← Option.some.inj hc₀, hrecv] at hc'
  exact Option.some_ne_none c' hc'.symm

theorem stored_iff (hadvances : ∀ b root n, json.parseWithLengthOpts b = some (root, n) → 0 < n ∧ n ≤ b.length)
    {c₁ : RtContext} (hreserve : reserve (fun _ => f.allocated) c f.message.length = (c₁, true))
    (hcapacity : total c₁ f ≤ c₁.block.getD 0 → c₁.rtJsonBufCapacity = c₁.block.getD 0)
    (hbounded : c₁.rtJsonBufCapacity < sizeValues) :
    StoresSafely json (some c) f ↔ total c₁ f ≤ c₁.block.getD 0 := by
  constructor
  · intro h
    by_contra hover
    exact not_storesSafely (recv_overrun hreserve (Nat.not_le.mp hover)) h
  · intro hroom
    obtain ⟨c', hrecv, hc'⟩ := recv_stored hadvances hreserve hroom (hcapacity hroom) hbounded
    refine storesSafely_of_recv hrecv hc' ?_
    rw [hreserve]
    exact fun h => absurd h.symm Bool.false_ne_true

theorem doubled_iff {n : Nat} (h : n < sizeValues) : n ≤ n * 2 % sizeValues ↔ n * 2 < sizeValues := by
  constructor
  · intro hroom
    by_contra hwrap
    rw [sizeValues] at *
    omega
  · intro hfits
    rw [Nat.mod_eq_of_lt hfits]
    omega

theorem first_iff (hadvances : ∀ b root n, json.parseWithLengthOpts b = some (root, n) → 0 < n ∧ n ≤ b.length)
    (hc : Consistent c) (hblock : c.block = none) (hlen : f.message.length < sizeValues) :
    StoresSafely json (some c) f ↔ f.message = [] ∨ Grows c f := by
  have hempty : c.rtJsonBuf.length = 0 := by
    have h := hc.within
    rw [hblock] at h
    exact Nat.le_zero.mp h
  have htotal : total c f = f.message.length := by rw [total, hempty, Nat.zero_add]
  have hreserve : reserve (fun _ => f.allocated) c f.message.length =
      ({ c with
          block := if f.allocated then some (f.message.length * 2 % sizeValues) else none
          rtJsonBufCapacity := f.message.length * 2 % sizeValues
          rtJsonBuf := [] }, true) := by
    rw [reserve, hblock]
  have htotal₁ (b : Option Nat) (n : Nat) :
      total { c with block := b, rtJsonBufCapacity := n, rtJsonBuf := [] } f = f.message.length := Nat.zero_add _
  have hnil : f.message.length ≤ 0 ↔ f.message = [] := Nat.le_zero.trans List.length_eq_zero_iff
  have hbounded : f.message.length * 2 % sizeValues < sizeValues := Nat.mod_lt _ (by decide)
  rw [Grows, htotal]
  cases hallocated : f.allocated with
  | false =>
      rw [if_neg (ne_of_eq_of_ne hallocated Bool.false_ne_true)] at hreserve
      have hcapacity : f.message.length ≤ 0 → f.message.length * 2 % sizeValues = 0 := by
        intro h
        rw [Nat.le_zero.mp h]
        rfl
      rw [stored_iff hadvances hreserve (by rw [htotal₁]; exact hcapacity) hbounded, htotal₁, Option.getD_none, hnil]
      exact (or_iff_left (fun h => Bool.false_ne_true h.1)).symm
  | true =>
      rw [if_pos hallocated] at hreserve
      rw [stored_iff hadvances hreserve (fun _ => rfl) hbounded, htotal₁, Option.getD_some, doubled_iff hlen,
        and_iff_right rfl, or_iff_right_of_imp]
      intro h
      rw [h]
      decide

theorem reserve_later {size : Nat} (hblock : c.block = some size) :
    reserve (fun _ => f.allocated) c f.message.length =
      if c.rtJsonBufCapacity < total c f % sizeValues then
        if Refused c f then (c, false)
        else if f.allocated then
          ({ c with block := some (total c f * 2 % sizeValues), rtJsonBufCapacity := total c f * 2 % sizeValues }, true)
        else ({ c with rtJsonBufCapacity := total c f * 2 % sizeValues }, false)
      else (c, true) := by
  obtain ⟨cb, block, capacity, buf⟩ := c
  obtain rfl : block = some size := hblock
  rfl

theorem failed_iff {n : Nat} (hc : Consistent c)
    (hreserve : reserve (fun _ => f.allocated) c f.message.length = ({ c with rtJsonBufCapacity := n }, false)) :
    StoresSafely json (some c) f ↔ n = c.rtJsonBufCapacity := by
  constructor
  · rintro ⟨c₀, c', hc₀, hrecv, -, hsame⟩
    obtain rfl := Option.some.inj hc₀
    rw [recv_refused hreserve] at hrecv
    rw [hreserve] at hsame
    exact congrArg RtContext.rtJsonBufCapacity ((Option.some.inj hrecv).trans (hsame rfl))
  · rintro rfl
    exact storesSafely_of_recv (recv_refused hreserve) hc (fun _ => rfl)

theorem later_iff (hadvances : ∀ b root n, json.parseWithLengthOpts b = some (root, n) → 0 < n ∧ n ≤ b.length)
    (hc : Consistent c) {size : Nat} (hblock : c.block = some size) :
    StoresSafely json (some c) f ↔
      if c.rtJsonBufCapacity < total c f % sizeValues then
        Refused c f ∨ Grows c f ∨ f.allocated = false ∧ total c f * 2 % sizeValues = c.rtJsonBufCapacity
      else total c f < sizeValues := by
  have hreserve := reserve_later (f := f) hblock
  have hbounded : total c f * 2 % sizeValues < sizeValues := Nat.mod_lt _ (by decide)
  by_cases hgrow : c.rtJsonBufCapacity < total c f % sizeValues
  · rw [if_pos hgrow] at hreserve ⊢
    by_cases hrefused : Refused c f
    · rw [if_pos hrefused] at hreserve
      exact ⟨fun _ => .inl hrefused, fun _ => storesSafely_of_recv (recv_refused hreserve) hc (fun _ => rfl)⟩
    · rw [if_neg hrefused] at hreserve
      rw [or_iff_right hrefused, Grows]
      cases hallocated : f.allocated with
      | false =>
          rw [if_neg (ne_of_eq_of_ne hallocated Bool.false_ne_true)] at hreserve
          rw [failed_iff hc hreserve, and_iff_right rfl]
          exact (or_iff_right (fun h => Bool.false_ne_true h.1)).symm
      | true =>
          rw [if_pos hallocated] at hreserve
          have hfree : total c f < sizeValues := by
            rw [Refused, not_or] at hrefused
            rw [total, sizeValues] at *
            omega
          rw [stored_iff hadvances hreserve (fun _ => rfl) hbounded, and_iff_right rfl,
            or_iff_left (fun h => Bool.false_ne_true h.1.symm)]
          exact doubled_iff hfree
  · rw [if_neg hgrow] at hreserve ⊢
    rw [stored_iff hadvances hreserve (fun _ => hc.capacity) hc.bounded, ← hc.capacity]
    constructor
    · exact fun hroom => hroom.trans_lt hc.bounded
    · intro h
      rw [Nat.mod_eq_of_lt h] at hgrow
      exact Nat.le_of_not_lt hgrow

theorem storesSafely_iff (hadvances : ∀ b root n, json.parseWithLengthOpts b = some (root, n) → 0 < n ∧ n ≤ b.length)
    (hc : Consistent c) (hlen : f.message.length < sizeValues) : StoresSafely json (some c) f ↔ Affordable c f := by
  rw [Affordable]
  split
  next hblock => exact first_iff hadvances hc hblock hlen
  next size hblock => exact later_iff hadvances hc hblock

end Step

section Run

variable {J : Type} {json : CJson J}

def Afforded (s : Option RtContext) (f : Fragment) : Prop := ∃ c, s = some c ∧ Affordable c f

theorem newContext_consistent (cb : Option EventCb) : Consistent (newContext cb) :=
  ⟨Nat.le_refl 0, rfl, show 0 < sizeValues by decide⟩

/-- The three fields stay in step exactly while each fragment can be afforded. -/
theorem fragments_stored_iff (hadvances : ∀ b root n, json.parseWithLengthOpts b = some (root, n) → 0 < n ∧
    n ≤ b.length)
    (cb : Option EventCb) {fs : List Fragment} (hl : Legal (machine json) (some (newContext cb)) fs) :
    EveryStep (machine json) (StoresSafely json) (some (newContext cb)) fs ↔
      EveryStep (machine json) Afforded (some (newContext cb)) fs := by
  have hiff : ∀ s f, (∃ c, s = some c ∧ Consistent c) → (machine json).enabled s f →
      (StoresSafely json s f ↔ Afforded s f) := by
    rintro s f ⟨c, rfl, hc⟩ hlen
    rw [storesSafely_iff hadvances hc hlen]
    exact ⟨fun h => ⟨c, rfl, h⟩, fun ⟨c', heq, h⟩ => Option.some.inj heq ▸ h⟩
  refine everyStep_iff (I := fun s => ∃ c, s = some c ∧ Consistent c) ?_ hiff ⟨_, rfl, newContext_consistent cb⟩ hl
  intro s f hs hlen hafforded
  obtain ⟨c, c', rfl, hrecv, hc', -⟩ := (hiff s f hs hlen).mpr hafforded
  exact ⟨c', hrecv, hc'⟩

end Run

section Samples

def pendingJson : CJson Unit := ⟨fun _ => none, fun _ _ => none, fun _ => none⟩

theorem fragments_stored_pending :
    EveryStep (machine pendingJson) (StoresSafely pendingJson) (some (newContext none))
      [⟨[123], true⟩, ⟨[34, 97], true⟩] := by
  apply (fragments_stored_iff (fun _ _ _ h => absurd h.symm (Option.some_ne_none _)) none ?_).mpr
  · exact ⟨⟨_, rfl, .inr ⟨rfl, by decide⟩⟩, ⟨_, rfl, .inr (.inl ⟨rfl, by decide⟩)⟩, trivial⟩
  · exact ⟨show 1 < sizeValues by decide, show 2 < sizeValues by decide, trivial⟩

def failedRealloc : List Fragment := [⟨[123], true⟩, ⟨[34, 97], false⟩]

/-- The capacity is raised all the same, so the next two bytes go beyond the block. -/
theorem failedRealloc_overruns :
    ¬EveryStep (machine pendingJson) (StoresSafely pendingJson) (some (newContext none)) failedRealloc ∧
      final (machine pendingJson) (some (newContext none)) (failedRealloc ++ [⟨[34, 97], true⟩]) = none := by
  refine ⟨?_, by decide⟩
  rintro ⟨-, ⟨c, c', hc, hrecv, -, hsame⟩, -⟩
  have hfirst : (machine pendingJson).next (some (newContext none)) ⟨[123], true⟩ =
    some ⟨none, some 2, 2, [123]⟩ := by decide
  rw [hfirst] at hc
  obtain rfl := Option.some.inj hc
  have hsecond : recv pendingJson ⟨none, some 2, 2, [123]⟩ ⟨[34, 97], false⟩ =
    some ⟨none, some 2, 6, [123]⟩ := by decide
  rw [hsecond, hsame (by decide)] at hrecv
  exact absurd hrecv (by decide)

end Samples

end OneSdk.RtMemory
