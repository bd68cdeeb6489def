import Mathlib.Data.List.GetD
import Mathlib.Data.List.ReduceOption
import Mathlib.Data.Nat.ModEq

namespace OneSdk.ProbeRing

variable {E : Type}

/-- What stands at a place of the ring, which is counted on past its end. -/
def place (slots : List (Option E)) (i : Nat) : Option E := slots.getD (i % slots.length) none

/-- How many steps a place is behind the one where the probing for `h` begins. -/
def distance (n h i : Nat) : Nat := (i % n + (n - h % n)) % n

section Distance

variable {n h i j d : Nat}

theorem distance_lt (hn : 0 < n) : distance n h i < n := Nat.mod_lt _ hn

theorem distance_mod (n h i : Nat) : distance n h (i % n) = distance n h i := by
  rw [distance, distance, Nat.mod_mod]

theorem distance_add (hd : d < n) : distance n h (h + d) = d := by
  have hh : h % n < n := Nat.mod_lt _ (by omega)
  rw [distance, Nat.mod_add_mod, show h + d + (n - h % n) = d + (h + (n - h % n)) by omega]
  have hmod : (h + (n - h % n)) % n = 0 := by
    rw [← Nat.mod_add_mod, Nat.add_sub_cancel' (Nat.le_of_lt hh), Nat.mod_self]
  rw [Nat.add_mod, hmod, Nat.add_zero, Nat.mod_mod, Nat.mod_eq_of_lt hd]

theorem add_distance (hn : 0 < n) : (h + distance n h i) % n = i % n := by
  have hh : h % n < n := Nat.mod_lt _ hn
  rw [distance, Nat.add_mod_mod, ← Nat.mod_add_mod, show h % n + (i % n + (n - h % n)) = i % n + n by omega,
    Nat.add_mod_right, Nat.mod_mod]

theorem distance_congr (hij : i % n = j % n) : distance n h i = distance n h j := by
  rw [← distance_mod, hij, distance_mod]

theorem distance_pred (hn : 0 < n) (hd : 0 < distance n h (i + 1)) : distance n h i + 1 = distance n h (i + 1) := by
  have hlt := distance_lt (h := h) (i := i + 1) hn
  have hi : (h + (distance n h (i + 1) - 1)) % n = i % n := by
    have hnext := add_distance (h := h) (i := i + 1) hn
    have hstep : (h + (distance n h (i + 1) - 1) + 1) % n = (i + 1) % n := by
      rw [← hnext]
      congr 1
      omega
    exact Nat.ModEq.add_right_cancel' 1 hstep
  have hprev := distance_add (n := n) (h := h) (d := distance n h (i + 1) - 1) (by omega)
  rw [distance_congr hi] at hprev
  omega

end Distance

section Place

variable {slots slots' : List (Option E)} {i j : Nat} {x : Option E} {e : E}

theorem place_congr (hij : i % slots.length = j % slots.length) : place slots i = place slots j := by
  rw [place, place, hij]

theorem place_mod (slots : List (Option E)) (i : Nat) : place slots (i % slots.length) = place slots i :=
  place_congr (Nat.mod_mod _ _)

theorem place_of_lt (hi : i < slots.length) : place slots i = slots[i] := by
  rw [place, Nat.mod_eq_of_lt hi, List.getD_eq_getElem _ _ hi]

theorem place_set (hn : 0 < slots.length) :
    place (slots.set (j % slots.length) x) i = if i % slots.length = j % slots.length then x else place slots i := by
  have hi := Nat.mod_lt i hn
  rw [place, place, List.length_set, List.getD_eq_getElem?_getD, List.getElem?_set, List.getD_eq_getElem?_getD]
  by_cases hij : i % slots.length = j % slots.length
  · rw [if_pos hij, if_pos hij.symm, if_pos (hij ▸ hi), Option.getD_some]
  · rw [if_neg hij, if_neg (Ne.symm hij)]

theorem place_eq_some (h : place slots i = some e) : 0 < slots.length := by
  by_contra hn
  rw [place, List.eq_nil_of_length_eq_zero (Nat.eq_zero_of_not_pos hn)] at h
  cases h

theorem mem_entries : e ∈ slots.reduceOption ↔ ∃ i, place slots i = some e := by
  rw [List.reduceOption_mem_iff, List.mem_iff_getElem]
  constructor
  · rintro ⟨i, hi, he⟩
    exact ⟨i, (place_of_lt hi).trans he⟩
  · rintro ⟨i, hi⟩
    have hlt := Nat.mod_lt i (place_eq_some hi)
    exact ⟨i % slots.length, hlt, (place_of_lt hlt).symm.trans ((place_mod slots i).trans hi)⟩

theorem exists_gap (h : slots.reduceOption.length < slots.length) : ∃ i, place slots i = none := by
  have hnone : none ∈ slots := List.reduceOption_length_lt_iff.mp h
  obtain ⟨i, hi, he⟩ := List.mem_iff_getElem.mp hnone
  exact ⟨i, (place_of_lt hi).trans he⟩

theorem gap_ahead (h : slots.reduceOption.length < slots.length) (i : Nat) :
    ∃ k < slots.length, place slots (i + k) = none := by
  have hn : 0 < slots.length := by omega
  obtain ⟨g, hg⟩ := exists_gap h
  refine ⟨distance slots.length i g, distance_lt hn, ?_⟩
  rw [← hg]
  exact place_congr (add_distance hn)

end Place

section Entries

variable {slots : List (Option E)} {i : Nat} {x : Option E} {e v : E}

theorem split_at (hn : 0 < slots.length) :
    slots = slots.take (i % slots.length) ++ place slots i :: slots.drop (i % slots.length + 1) := by
  have hi := Nat.mod_lt i hn
  rw [← place_mod, place_of_lt hi, List.getElem_cons_drop, List.take_append_drop]

theorem entries_set (hn : 0 < slots.length) (x : Option E) :
    ((place slots i).toList ++ (slots.set (i % slots.length) x).reduceOption).Perm
      (x.toList ++ slots.reduceOption) := by
  rw [List.set_eq_take_append_cons_drop, if_pos (Nat.mod_lt i hn)]
  conv_rhs => rw [split_at (i := i) hn]
  generalize slots.take (i % slots.length) = front
  generalize slots.drop (i % slots.length + 1) = rest
  have hcons : ∀ y : Option E, (y :: rest).reduceOption = y.toList ++ rest.reduceOption := fun y => by
    cases y with
    | none => rfl
    | some e => rfl
  rw [List.reduceOption_append, List.reduceOption_append, hcons, hcons]
  refine (List.perm_append_comm_assoc _ _ _).trans ?_
  refine List.Perm.trans ?_ (List.perm_append_comm_assoc _ _ _).symm
  exact (List.perm_append_comm_assoc _ _ _).append_left _

theorem entries_set_gap (h : place slots i = none) (hn : 0 < slots.length) (e : E) :
    (slots.set (i % slots.length) (some e)).reduceOption.Perm (e :: slots.reduceOption) := by
  have hset := entries_set (i := i) hn (some e)
  rwa [h] at hset

theorem entries_set_some (h : place slots i = some v) (e : E) :
    (v :: (slots.set (i % slots.length) (some e)).reduceOption).Perm (e :: slots.reduceOption) := by
  have hset := entries_set (i := i) (place_eq_some h) (some e)
  rwa [h] at hset

end Entries

section Rank

variable (home : E → Nat)

/-- Nothing has the rank zero, an entry at its home the rank one, and each step behind it one more. -/
def rank (slots : List (Option E)) (i : Nat) : Nat :=
  (place slots i).elim 0 (fun e => distance slots.length (home e) i + 1)

/-- From one place to the next the rank goes up by one at most. -/
def Settled (slots : List (Option E)) : Prop := ∀ i, rank home slots (i + 1) ≤ rank home slots i + 1

variable {home} {slots : List (Option E)} {i j k : Nat} {e : E}

theorem rank_congr (hij : i % slots.length = j % slots.length) : rank home slots i = rank home slots j := by
  rw [rank, rank, place_congr hij]
  cases place slots j with
  | none => rfl
  | some e => exact congrArg (· + 1) (distance_congr hij)

theorem rank_gap (h : place slots i = none) : rank home slots i = 0 := by rw [rank, h, Option.elim_none]

theorem rank_some (h : place slots i = some e) : rank home slots i = distance slots.length (home e) i + 1 := by
  rw [rank, h, Option.elim_some]

theorem rank_set (hn : 0 < slots.length) (x : Option E) :
    rank home (slots.set (j % slots.length) x) i =
      if i % slots.length = j % slots.length then x.elim 0 (fun e => distance slots.length (home e) i + 1)
      else rank home slots i := by
  rw [rank, place_set hn, List.length_set]
  split
  · rfl
  · rfl

theorem rank_set_self (hn : 0 < slots.length) (x : Option E) :
    rank home (slots.set (j % slots.length) x) j = x.elim 0 (fun e => distance slots.length (home e) j + 1) := by
  rw [rank_set hn, if_pos rfl]

theorem Settled.climb (hs : Settled home slots) (i m : Nat) : rank home slots (i + m) ≤ rank home slots i + m := by
  induction m with
  | zero => exact Nat.le_refl _
  | succ m ih => exact (hs (i + m)).trans (Nat.succ_le_succ ih)

theorem Settled.rank_lt (hs : Settled home slots) (hroom : slots.reduceOption.length < slots.length) (i : Nat) :
    rank home slots i < slots.length := by
  have hn : 0 < slots.length := by omega
  obtain ⟨g, hg⟩ := exists_gap hroom
  have hclimb := hs.climb g (distance slots.length g i)
  rw [rank_gap hg, rank_congr (add_distance hn)] at hclimb
  have := distance_lt (h := g) (i := i) hn
  omega

end Rank

section Probe

variable (hit : E → Bool) (home : E → Nat)

/-- Whether an entry has been hit, and at which probe the search for `h` has ended. -/
def probe (h : Nat) (slots : List (Option E)) : Nat → Nat → Option (Bool × Nat)
  | 0, _ => none
  | k + 1, p =>
      match place slots (h + p) with
      | none => some (false, p)
      | some e =>
          if hit e then some (true, p)
          else if distance slots.length (home e) (h + p) < p then some (false, p)
          else probe h slots k (p + 1)

/-- All probes before `p` have met entries that are as far from home as the search was from its beginning. -/
def Due (slots : List (Option E)) (h p : Nat) : Prop := ∀ q, p = q + 1 → p ≤ rank home slots (h + q)

variable {hit home} {slots : List (Option E)} {h p k : Nat}

theorem due_zero (slots : List (Option E)) (h : Nat) : Due home slots h 0 := fun _ hq => by cases hq

theorem due_succ (hle : p < rank home slots (h + p)) : Due home slots h (p + 1) := by
  rintro q hq
  obtain rfl := Nat.succ.inj hq
  exact hle

theorem Due.lt (hdue : Due home slots h p) (hs : Settled home slots)
    (hroom : slots.reduceOption.length < slots.length) :
    p < slots.length := by
  cases p with
  | zero => omega
  | succ q => exact (hdue q rfl).trans_lt (hs.rank_lt hroom _)

/-- What the search looks for is nowhere, and an entry for it is due at the probe where the search ended. -/
structure Missing (hit : E → Bool) (home : E → Nat) (slots : List (Option E)) (h p : Nat) : Prop where
  absent : ∀ e ∈ slots.reduceOption, hit e = false
  due : Due home slots h p
  low : rank home slots (h + p) ≤ p

theorem probe_spec (hs : Settled home slots) (hroom : slots.reduceOption.length < slots.length)
    (hhit : ∀ e, hit e = true → home e = h) (hfuel : slots.length < k + p) (hdue : Due home slots h p)
    (hbefore : ∀ q < p, ∀ e, place slots (h + q) = some e → hit e = false) :
    (∃ q e, probe hit home h slots k p = some (true, q) ∧ place slots (h + q) = some e ∧ hit e = true) ∨
      ∃ q, probe hit home h slots k p = some (false, q) ∧ Missing hit home slots h q := by
  induction k generalizing p with
  | zero =>
      have := hdue.lt hs hroom
      omega
  | succ k ih =>
      -- a stop here leaves no room for an entry farther on
      have hstop : rank home slots (h + p) ≤ p → ∀ e ∈ slots.reduceOption, hit e = false := by
        intro hrank e he
        by_contra hmiss
        obtain ⟨i, hi⟩ := mem_entries.mp he
        have hn := place_eq_some hi
        rw [Bool.not_eq_false] at hmiss
        have hplace : place slots (h + distance slots.length h i) = some e := by
          rw [place_congr (add_distance hn), hi]
        have hr : rank home slots (h + distance slots.length h i) = distance slots.length h i + 1 := by
          rw [rank_congr (add_distance hn), rank_some hi, hhit e hmiss]
        rcases Nat.lt_or_ge (distance slots.length h i) p with hlt | hge
        · rw [hbefore _ hlt e hplace] at hmiss
          cases hmiss
        · have hclimb := hs.climb (h + p) (distance slots.length h i - p)
          rw [show h + p + (distance slots.length h i - p) = h + distance slots.length h i by omega, hr] at hclimb
          omega
      rw [probe]
      cases hplace : place slots (h + p) with
      | none =>
          have hzero : rank home slots (h + p) ≤ p := by
            rw [rank_gap hplace]
            exact Nat.zero_le p
          exact Or.inr ⟨p, rfl, hstop hzero, hdue, hzero⟩
      | some e =>
          dsimp only
          by_cases he : hit e = true
          · rw [if_pos he]
            exact Or.inl ⟨p, e, rfl, hplace, he⟩
          · rw [if_neg he]
            by_cases hd : distance slots.length (home e) (h + p) < p
            · have hrank : rank home slots (h + p) ≤ p := by
                rw [rank_some hplace]
                exact hd
              rw [if_pos hd]
              exact Or.inr ⟨p, rfl, hstop hrank, hdue, hrank⟩
            · rw [if_neg hd]
              refine ih (by omega) (due_succ ?_) ?_
              · rw [rank_some hplace]
                omega
              · intro q hq e' he'
                rcases Nat.lt_succ_iff_lt_or_eq.mp hq with hlt | rfl
                · exact hbefore q hlt e' he'
                · rw [hplace] at he'
                  obtain rfl := Option.some.inj he'
                  exact Bool.eq_false_iff.mpr he

theorem probe_cases (hs : Settled home slots) (hroom : slots.reduceOption.length < slots.length)
    (hhit : ∀ e, hit e = true → home e = h) :
    (∃ q e, probe hit home h slots (slots.length + 1) 0 = some (true, q) ∧ place slots (h + q) = some e ∧
      hit e = true) ∨
      ∃ q, probe hit home h slots (slots.length + 1) 0 = some (false, q) ∧ Missing hit home slots h q :=
  probe_spec hs hroom hhit (by omega) (due_zero slots h) (fun _ hq => absurd hq (Nat.not_lt_zero _))

end Probe

section Emplace

variable (home : E → Nat)

/-- An entry takes the place of the first one that is nearer to its home, which then looks for another place.
`landing` is where the first of them stands once it has got its place. -/
def emplace : Nat → List (Option E) → Option Nat → E → Nat → Option (List (Option E) × Nat)
  | 0, _, _, _, _ => none
  | k + 1, slots, landing, e, p =>
      let i := (home e + p) % slots.length
      match place slots i with
      | none => some (slots.set i (some e), landing.getD i)
      | some victim =>
          if distance slots.length (home victim) i < p then
            emplace k (slots.set i (some e)) (some (landing.getD i)) victim (distance slots.length (home victim) i + 1)
          else emplace k slots landing e (p + 1)

variable {home} {slots : List (Option E)} {e : E} {p k : Nat}

theorem Settled.replace {i : Nat} {v : E} (hs : Settled home slots) (h : place slots i = some v)
    (hhome : home e = home v) :
    Settled home (slots.set (i % slots.length) (some e)) := by
  have hn := place_eq_some h
  have hsame : ∀ j, rank home (slots.set (i % slots.length) (some e)) j = rank home slots j := by
    intro j
    rw [rank_set hn]
    split
    · next hj => rw [Option.elim_some, hhome, rank_congr hj, rank_some h, distance_congr hj]
    · rfl
  intro j
  rw [hsame, hsame]
  exact hs j

theorem settled_set (hs : Settled home slots) (hn : 0 < slots.length) (hp : p < slots.length)
    (hdue : Due home slots (home e) p) (hlow : rank home slots (home e + p) ≤ p) :
    Settled home (slots.set ((home e + p) % slots.length) (some e)) ∧
      rank home (slots.set ((home e + p) % slots.length) (some e)) (home e + p) = p + 1 := by
  have hself : rank home (slots.set ((home e + p) % slots.length) (some e)) (home e + p) = p + 1 := by
    rw [rank_set_self hn, Option.elim_some, distance_add hp]
  have hmore : ∀ i, rank home slots i ≤ rank home (slots.set ((home e + p) % slots.length) (some e)) i := by
    intro i
    rw [rank_set hn]
    split
    · next hi =>
        rw [Option.elim_some, distance_congr hi, distance_add hp, rank_congr hi]
        omega
    · exact Nat.le_refl _
  refine ⟨fun i => ?_, hself⟩
  by_cases hi : (i + 1) % slots.length = (home e + p) % slots.length
  · rw [rank_set hn (some e) (i := i + 1), if_pos hi, Option.elim_some, distance_congr hi, distance_add hp]
    cases p with
    | zero => omega
    | succ q =>
        have hprev : i % slots.length = (home e + q) % slots.length := Nat.ModEq.add_right_cancel' 1 hi
        have hge := hdue q rfl
        rw [← rank_congr hprev] at hge
        have := hmore i
        omega
  · rw [rank_set hn (some e) (i := i + 1), if_neg hi]
    exact (hs i).trans (Nat.succ_le_succ (hmore i))

structure Emplaced (home : E → Nat) (slots : List (Option E)) (landing : Option Nat) (e : E)
    (slots' : List (Option E)) (r : Nat) : Prop where
  length : slots'.length = slots.length
  settled : Settled home slots'
  entries : slots'.reduceOption.Perm (e :: slots.reduceOption)
  landed : r = landing.getD r ∧ r < slots.length
  stands : slots'.getD r none = landing.elim (some e) (fun l => slots.getD l none)

theorem ne_behind {n l t i : Nat} (hl : l < n) (ht : 0 < t) (htn : t < n) (hi : (l + t) % n = i % n) : l ≠ i % n := by
  rintro rfl
  rcases Nat.lt_or_ge (i % n + t) n with hlt | hge
  · rw [Nat.mod_eq_of_lt hlt] at hi
    omega
  · rw [Nat.mod_eq_sub_mod hge, Nat.mod_eq_of_lt (by omega)] at hi
    omega

/-- One entry takes over from another, which is due one step farther on. -/
structure TakesOver (home : E → Nat) (slots slots' : List (Option E)) (e v : E) (i q : Nat) : Prop where
  length : slots'.length = slots.length
  settled : Settled home slots'
  entries : (v :: slots'.reduceOption).Perm (e :: slots.reduceOption)
  due : Due home slots' (home v) (q + 1)
  ahead : (home v + q) % slots.length = i % slots.length
  gaps (j : Nat) : place slots j = none → place slots' j = none

theorem takes_over {v : E} (hs : Settled home slots) (hroom : slots.reduceOption.length < slots.length)
    (hdue : Due home slots (home e) p) (hplace : place slots (home e + p) = some v)
    (hnear : distance slots.length (home v) (home e + p) < p) :
    TakesOver home slots (slots.set ((home e + p) % slots.length) (some e)) e v (home e + p)
      (distance slots.length (home v) (home e + p)) := by
  have hn : 0 < slots.length := by omega
  have hahead : (home v + distance slots.length (home v) (home e + p)) % slots.length = (home e + p) % slots.length :=
    add_distance hn
  obtain ⟨hsettled, hrank⟩ := settled_set hs hn (hdue.lt hs hroom) hdue (by rw [rank_some hplace]; exact hnear)
  refine ⟨List.length_set, hsettled, entries_set_some hplace e, due_succ ?_, hahead, fun j hj => ?_⟩
  · rw [rank_congr (j := home e + p) (by rw [List.length_set]; exact hahead), hrank]
    omega
  · rw [place_set hn, if_neg]
    · exact hj
    · intro heq
      rw [place_congr heq, hplace] at hj
      cases hj

/-- The entries that are pushed on move towards the next gap, `d` steps ahead, and never reach a landing behind them. -/
theorem emplace_spec {landing : Option Nat} {d : Nat} (hs : Settled home slots)
    (hroom : slots.reduceOption.length < slots.length) (hdue : Due home slots (home e) p)
    (hgap : place slots (home e + p + d) = none) (hd : d < slots.length) (hfuel : d < k)
    (hlanding : ∀ l, landing = some l → l < slots.length ∧
      ∃ t, 0 < t ∧ t + d < slots.length ∧ (l + t) % slots.length = (home e + p) % slots.length) :
    ∃ slots' r, emplace home k slots landing e p = some (slots', r) ∧ Emplaced home slots landing e slots' r := by
  induction k generalizing slots landing e p d with
  | zero => omega
  | succ k ih =>
      have hn : 0 < slots.length := by omega
      have hi := Nat.mod_lt (home e + p) hn
      have hstand : ∀ l, landing = some l → (slots.set ((home e + p) % slots.length) (some e)).getD l none =
          slots.getD l none := by
        intro l hl
        obtain ⟨hlt, t, ht, htd, hmod⟩ := hlanding l hl
        have hne := ne_behind hlt ht (by omega) hmod
        rw [List.getD_eq_getElem?_getD, List.getElem?_set_ne hne.symm, List.getD_eq_getElem?_getD]
      have hself : (slots.set ((home e + p) % slots.length) (some e)).getD ((home e + p) % slots.length) none =
          some e := by
        rw [List.getD_eq_getElem?_getD, List.getElem?_set_self hi, Option.getD_some]
      rw [emplace, place_mod]
      cases hplace : place slots (home e + p) with
      | none =>
          have hlow : rank home slots (home e + p) ≤ p := by
            rw [rank_gap hplace]
            exact Nat.zero_le p
          refine ⟨_, _, rfl, List.length_set, (settled_set hs hn (hdue.lt hs hroom) hdue hlow).1,
            entries_set_gap hplace hn e, ?_, ?_⟩
          · cases landing with
            | none => exact ⟨rfl, hi⟩
            | some l => exact ⟨rfl, (hlanding l rfl).1⟩
          · cases landing with
            | none => exact hself
            | some l => exact hstand l rfl
      | some v =>
          have hpos : 0 < d := by
            rcases Nat.eq_zero_or_pos d with rfl | hpos
            · rw [Nat.add_zero, hplace] at hgap
              cases hgap
            · exact hpos
          dsimp only
          rw [distance_mod]
          by_cases hnear : distance slots.length (home v) (home e + p) < p
          · rw [if_pos hnear]
            obtain ⟨hlen, hs', hperm, hdue', hahead, hgaps⟩ := takes_over hs hroom hdue hplace hnear
            generalize distance slots.length (home v) (home e + p) = q at *
            generalize hslots : slots.set ((home e + p) % slots.length) (some e) = slots₁ at *
            have hcount := hperm.length_eq
            simp only [List.length_cons] at hcount
            have hgap' : place slots₁ (home v + (q + 1) + (d - 1)) = none := by
              rw [show home v + (q + 1) + (d - 1) = home v + q + d by omega,
                place_congr (j := home e + p + d) (by rw [hlen]; exact Nat.ModEq.add_right d hahead)]
              exact hgaps _ hgap
            have hbehind : ∀ l, some (landing.getD ((home e + p) % slots.length)) = some l → l < slots₁.length ∧
                ∃ t, 0 < t ∧ t + (d - 1) < slots₁.length ∧
                  (l + t) % slots₁.length = (home v + (q + 1)) % slots₁.length := by
              rintro _ ⟨⟩
              rw [hlen]
              cases landing with
              | none =>
                  refine ⟨hi, 1, Nat.one_pos, by omega, ?_⟩
                  rw [Option.getD_none, Nat.mod_add_mod, ← Nat.add_assoc]
                  exact Nat.ModEq.add_right 1 hahead.symm
              | some l =>
                  obtain ⟨hlt, t, ht, htd, hmod⟩ := hlanding l rfl
                  refine ⟨hlt, t + 1, by omega, by omega, ?_⟩
                  rw [Option.getD_some, ← Nat.add_assoc, ← Nat.add_assoc]
                  exact Nat.ModEq.add_right 1 (hmod.trans hahead.symm)
            obtain ⟨slots', r, hemplace, hdone⟩ := ih hs' (by omega) hdue' hgap' (by omega) (by omega) hbehind
            have hlanded := hdone.landed
            have hstands := hdone.stands
            rw [hlen] at hlanded
            refine ⟨slots', r, hemplace, hdone.length.trans hlen, hdone.settled, hdone.entries.trans hperm, ?_, ?_⟩
            · cases landing with
              | none => exact ⟨rfl, hlanded.2⟩
              | some l => exact hlanded
            · cases landing with
              | none => exact hstands.trans hself
              | some l => exact hstands.trans (hstand l rfl)
          · rw [if_neg hnear]
            have hnext : home e + (p + 1) + (d - 1) = home e + p + d := by omega
            have hbehind : ∀ l, landing = some l → l < slots.length ∧
                ∃ t, 0 < t ∧ t + (d - 1) < slots.length ∧
                  (l + t) % slots.length = (home e + (p + 1)) % slots.length := by
              intro l hl
              obtain ⟨hlt, t, ht, htd, hmod⟩ := hlanding l hl
              refine ⟨hlt, t + 1, by omega, by omega, ?_⟩
              rw [← Nat.add_assoc, ← Nat.add_assoc]
              exact Nat.ModEq.add_right 1 hmod
            exact ih hs hroom (due_succ (by rw [rank_some hplace]; omega)) (by rw [hnext, hgap]) (by omega)
              (by omega) hbehind

/-- An entry gets a place wherever it is due, as long as there is a gap. -/
theorem emplace_due (hs : Settled home slots) (hroom : slots.reduceOption.length < slots.length)
    (hdue : Due home slots (home e) p) :
    ∃ slots' r, emplace home slots.length slots none e p = some (slots', r) ∧ Emplaced home slots none e slots' r := by
  obtain ⟨d, hd, hgap⟩ := gap_ahead hroom (home e + p)
  exact emplace_spec hs hroom hdue hgap hd hd (fun _ hl => by cases hl)

end Emplace

section Withdraw

variable (home : E → Nat)

/-- The entries behind the place move up by one, up to the next gap or the next entry that is at home. -/
def withdraw : Nat → List (Option E) → Nat → Option (List (Option E) × Nat)
  | 0, _, _ => none
  | k + 1, slots, i =>
      match place slots (i + 1) with
      | none => some (slots.set (i % slots.length) none, i)
      | some e =>
          if home e % slots.length = (i + 1) % slots.length then some (slots.set (i % slots.length) none, i)
          else withdraw k (slots.set (i % slots.length) (some e)) (i + 1)

structure MovedUp (slots : List (Option E)) (i k : Nat) (slots' : List (Option E)) : Prop where
  length : slots'.length = slots.length
  within : k + 1 < slots.length
  moved (j : Nat) : j < k → place slots' (i + j) = place slots (i + j + 1)
  cleared : place slots' (i + k) = none
  kept (j : Nat) : k < j → j < slots.length → place slots' (i + j) = place slots (i + j)
  displaced (j : Nat) : j < k → 2 ≤ rank home slots (i + j + 1)
  settled : rank home slots (i + k + 1) ≤ 1

variable {home} {slots slots' : List (Option E)} {i k fuel g : Nat} {e : E}

theorem at_home_iff (h : place slots i = some e) :
    home e % slots.length = i % slots.length ↔ rank home slots i ≤ 1 := by
  have hn := place_eq_some h
  rw [rank_some h]
  constructor
  · intro hhome
    have hzero := distance_add (h := home e) hn
    rw [Nat.add_zero, distance_congr hhome] at hzero
    omega
  · intro hrank
    have hback := add_distance (h := home e) (i := i) hn
    rwa [show distance slots.length (home e) i = 0 by omega, Nat.add_zero] at hback

theorem mod_ne_of_lt {n i j d : Nat} (hd : 0 < d) (hdn : d < n) (hj : j = i + d) : j % n ≠ i % n := by
  subst hj
  intro heq
  have hzero : d % n = 0 := by
    have := Nat.ModEq.add_left_cancel' i (show (i + d) % n = (i + 0) % n from heq)
    rw [this, Nat.zero_mod]
  rw [Nat.mod_eq_of_lt hdn] at hzero
  omega

theorem MovedUp.extend (h : MovedUp home (slots.set (i % slots.length) (some e)) (i + 1) k slots')
    (hplace : place slots (i + 1) = some e) (hfar : 2 ≤ rank home slots (i + 1)) (hk : k + 2 < slots.length) :
    MovedUp home slots i (k + 1) slots' := by
  have hn : 0 < slots.length := by omega
  have hplaces : ∀ j, 0 < j → j < slots.length →
      place (slots.set (i % slots.length) (some e)) (i + j) = place slots (i + j) := fun j hj hjn => by
    rw [place_set hn, if_neg (mod_ne_of_lt hj hjn rfl)]
  have hranks : ∀ j, 0 < j → j < slots.length →
      rank home (slots.set (i % slots.length) (some e)) (i + j) = rank home slots (i + j) := fun j hj hjn => by
    rw [rank_set hn, if_neg (mod_ne_of_lt hj hjn rfl)]
  have hlen := h.length
  rw [List.length_set] at hlen
  constructor
  case length => exact hlen
  case within => exact hk
  case moved =>
      intro j hj
      cases j with
      | zero =>
          have hkept := h.kept (slots.length - 1) (by omega) (by rw [List.length_set]; omega)
          have hround : i + 1 + (slots.length - 1) = i + slots.length := by omega
          rw [hround, place_set hn, if_pos (Nat.add_mod_right _ _)] at hkept
          rw [Nat.add_zero, hplace, ← hkept]
          refine place_congr ?_
          rw [hlen]
          exact (Nat.add_mod_right _ _).symm
      | succ j =>
          have hmoved := h.moved j (by omega)
          rw [show i + 1 + j + 1 = i + (j + 2) by omega, hplaces (j + 2) (by omega) (by omega)] at hmoved
          rw [show i + (j + 1) = i + 1 + j by omega, hmoved]
          congr 1
          omega
  case cleared => rw [Nat.add_comm k 1, ← Nat.add_assoc, h.cleared]
  case kept =>
      intro j hj hjn
      have hkept := h.kept (j - 1) (by omega) (by rw [List.length_set]; omega)
      rwa [show i + 1 + (j - 1) = i + j by omega, hplaces j (by omega) hjn] at hkept
  case displaced =>
      intro j hj
      cases j with
      | zero => exact hfar
      | succ j =>
          have hdisplaced := h.displaced j (by omega)
          rw [show i + 1 + j + 1 = i + (j + 2) by omega, hranks (j + 2) (by omega) (by omega)] at hdisplaced
          exact hdisplaced
  case settled =>
      have hsettled := h.settled
      rwa [show i + 1 + k + 1 = i + (k + 2) by omega, hranks (k + 2) (by omega) hk] at hsettled

theorem withdraw_spec (hgap : place slots (i + g) = none) (hg : 0 < g) (hgn : g < slots.length) (hfuel : g ≤ fuel) :
    ∃ slots' k, withdraw home fuel slots i = some (slots', i + k) ∧ k < g ∧ MovedUp home slots i k slots' := by
  induction fuel generalizing slots i g with
  | zero => omega
  | succ fuel ih =>
      have hn : 0 < slots.length := by omega
      -- nothing is to be moved
      have hstop : rank home slots (i + 1) ≤ 1 → MovedUp home slots i 0 (slots.set (i % slots.length) none) := by
        intro hrank
        refine ⟨List.length_set, by omega, fun j hj => absurd hj (Nat.not_lt_zero _), ?_, fun j hj hjn => ?_,
          fun j hj => absurd hj (Nat.not_lt_zero _), hrank⟩
        · exact (place_set hn).trans (if_pos rfl)
        · rw [place_set hn, if_neg (mod_ne_of_lt hj hjn rfl)]
      rw [withdraw]
      cases hplace : place slots (i + 1) with
      | none => exact ⟨_, 0, rfl, hg, hstop (by rw [rank_gap hplace]; exact Nat.zero_le 1)⟩
      | some e =>
          dsimp only
          by_cases hhome : home e % slots.length = (i + 1) % slots.length
          · rw [if_pos hhome]
            exact ⟨_, 0, rfl, hg, hstop ((at_home_iff hplace).mp hhome)⟩
          · rw [if_neg hhome]
            have hfar : 2 ≤ rank home slots (i + 1) := by
              have := mt (at_home_iff hplace).mpr hhome
              omega
            have hg1 : 1 < g := by
              rcases Nat.lt_or_ge 1 g with h | h
              · exact h
              · rw [show g = 1 by omega, hplace] at hgap
                cases hgap
            have hgap' : place (slots.set (i % slots.length) (some e)) (i + 1 + (g - 1)) = none := by
              rw [Nat.add_assoc, Nat.add_sub_cancel' hg, place_set hn, if_neg (mod_ne_of_lt hg hgn rfl), hgap]
            obtain ⟨slots', k, hwithdraw, hk, hmoved⟩ := ih hgap' (by omega) (by rw [List.length_set]; omega) (by omega)
            refine ⟨slots', k + 1, by rw [hwithdraw, Nat.add_assoc, Nat.add_comm 1 k], by omega, ?_⟩
            exact hmoved.extend hplace hfar (by omega)

theorem MovedUp.rank_moved (h : MovedUp home slots i k slots') {j : Nat} (hj : j < k) :
    rank home slots' (i + j) + 1 = rank home slots (i + j + 1) := by
  have hfar := h.displaced j hj
  have hplace := h.moved j hj
  rw [rank, rank, hplace, h.length]
  cases hnext : place slots (i + j + 1) with
  | none =>
      rw [rank_gap hnext] at hfar
      omega
  | some e =>
      rw [rank_some hnext] at hfar
      exact congrArg (· + 1) (distance_pred (place_eq_some hnext) (by omega))

theorem MovedUp.rank_kept (h : MovedUp home slots i k slots') {j : Nat} (hj : k < j) (hjn : j < slots.length) :
    rank home slots' (i + j) = rank home slots (i + j) := by
  rw [rank, rank, h.kept j hj hjn, h.length]

theorem exists_offset {n : Nat} (hn : 0 < n) (i m : Nat) : ∃ j < n, (i + j) % n = m % n :=
  ⟨distance n i m, distance_lt hn, add_distance hn⟩

theorem MovedUp.settled_after (h : MovedUp home slots i k slots') (hs : Settled home slots) : Settled home slots' := by
  have hwithin := h.within
  intro m
  obtain ⟨j, hj, hm⟩ := exists_offset (show 0 < slots'.length by rw [h.length]; omega) i m
  rw [h.length] at hj
  rw [← rank_congr hm, ← rank_congr (Nat.ModEq.add_right 1 hm)]
  rcases Nat.lt_trichotomy j k with hlt | rfl | hgt
  · rcases Nat.lt_or_ge (j + 1) k with hnext | hlast
    · have := h.rank_moved hlt
      have := h.rank_moved hnext
      have := hs (i + j + 1)
      rw [← Nat.add_assoc] at *
      omega
    · rw [show i + j + 1 = i + k by omega, rank_gap h.cleared]
      exact Nat.zero_le _
  · have hnext : rank home slots' (i + j + 1) = rank home slots (i + j + 1) :=
      h.rank_kept (Nat.lt_succ_self j) hwithin
    rw [hnext]
    exact h.settled.trans (Nat.le_add_left 1 _)
  · rcases Nat.lt_or_ge (j + 1) slots.length with hnext | hlast
    · rw [Nat.add_assoc, h.rank_kept (Nat.lt_succ_of_lt hgt) hnext, h.rank_kept hgt hj]
      exact hs (i + j)
    · -- the ring is closed
      have hround : (i + j + 1) % slots'.length = i % slots'.length := by
        rw [show i + j + 1 = i + slots'.length by rw [h.length]; omega, Nat.add_mod_right]
      have hround' : (i + j + 1) % slots.length = i % slots.length := by rwa [h.length] at hround
      have hclimb := hs (i + j)
      rw [rank_congr hround'] at hclimb
      rw [rank_congr hround, h.rank_kept hgt hj]
      rcases Nat.eq_zero_or_pos k with rfl | hpos
      · have hgap : rank home _ _ = 0 := rank_gap h.cleared
        rw [Nat.add_zero] at hgap
        omega
      · have hfirst : rank home slots' i + 1 = rank home slots (i + 1) := h.rank_moved hpos
        have := hs i
        omega

theorem withdraw_entries (hplace : place slots i = some e) (h : withdraw home fuel slots i = some (slots', g)) :
    (e :: slots'.reduceOption).Perm slots.reduceOption := by
  induction fuel generalizing slots i e with
  | zero => cases h
  | succ fuel ih =>
      have hn := place_eq_some hplace
      have hclear : (e :: (slots.set (i % slots.length) none).reduceOption).Perm slots.reduceOption := by
        have hset := entries_set (i := i) hn none
        rwa [hplace] at hset
      rw [withdraw] at h
      cases hnext : place slots (i + 1) with
      | none =>
          rw [hnext] at h
          obtain ⟨rfl, rfl⟩ := Prod.mk.inj (Option.some.inj h)
          exact hclear
      | some v =>
          rw [hnext] at h
          dsimp only at h
          by_cases hhome : home v % slots.length = (i + 1) % slots.length
          · rw [if_pos hhome] at h
            obtain ⟨rfl, rfl⟩ := Prod.mk.inj (Option.some.inj h)
            exact hclear
          · rw [if_neg hhome] at h
            have hset : place (slots.set (i % slots.length) (some v)) (i + 1) = some v := by
              rw [place_set hn]
              split
              · rfl
              · exact hnext
            have hrest := (ih hset h).cons e
            have hstep := entries_set_some hplace v
            exact ((List.Perm.swap _ _ _).trans (hrest.trans hstep)).cons_inv

end Withdraw

section Window

def window (slots : List (Option E)) (i len : Nat) : List (Option E) := (List.range' i len).map (place slots)

variable {home : E → Nat} {slots slots' : List (Option E)} {i k len : Nat}

theorem window_all (slots : List (Option E)) : window slots 0 slots.length = slots := by
  refine List.ext_getElem (by rw [window, List.length_map, List.length_range']) fun i _ hi => ?_
  simp only [window, List.getElem_map, List.getElem_range', Nat.zero_add, Nat.one_mul]
  exact place_of_lt hi

theorem window_succ (slots : List (Option E)) (i len : Nat) :
    window slots i (len + 1) = place slots i :: window slots (i + 1) len := by
  rw [window, List.range'_succ, List.map_cons]
  rfl

theorem window_add (slots : List (Option E)) (i a b : Nat) :
    window slots i (a + b) = window slots i a ++ window slots (i + a) b := by
  rw [window, ← List.range'_append_1, List.map_append]
  rfl

theorem window_congr {i' : Nat} (h : ∀ j < len, place slots' (i + j) = place slots (i' + j)) :
    window slots' i len = window slots i' len := by
  induction len generalizing i i' with
  | zero => rfl
  | succ len ih =>
      rw [window_succ, window_succ]
      refine List.cons_eq_cons.mpr ⟨h 0 (Nat.succ_pos len), ih fun j hj => ?_⟩
      have hnext := h (j + 1) (Nat.succ_lt_succ hj)
      rwa [show i + (j + 1) = i + 1 + j by omega, show i' + (j + 1) = i' + 1 + j by omega] at hnext

theorem MovedUp.window_entries (h : MovedUp home slots i k slots') (hlen : len < slots.length) :
    (window slots' i (if len < k then len else len + 1)).reduceOption = (window slots (i + 1) len).reduceOption := by
  by_cases hk : len < k
  · rw [if_pos hk]
    congr 1
    refine window_congr fun j hj => ?_
    rw [h.moved j (by omega), Nat.add_right_comm]
  · obtain ⟨m, rfl⟩ := Nat.exists_eq_add_of_le (Nat.not_lt.mp hk)
    rw [if_neg hk, show k + m + 1 = k + (1 + m) by omega, window_add, window_add, window_add slots]
    have hfront : window slots' i k = window slots (i + 1) k := window_congr fun j hj => by
      rw [h.moved j hj, Nat.add_right_comm]
    have hback : window slots' (i + k + 1) m = window slots (i + 1 + k) m := window_congr fun j hj => by
      rw [show i + k + 1 + j = i + (k + 1 + j) by omega, show i + 1 + k + j = i + (k + 1 + j) by omega]
      exact h.kept _ (by omega) (by omega)
    have hgap : window slots' (i + k) 1 = [none] := congrArg (fun x => [x]) h.cleared
    rw [hfront, hback, hgap, List.reduceOption_append, List.reduceOption_append, List.reduceOption_append]
    rfl

end Window

end OneSdk.ProbeRing
