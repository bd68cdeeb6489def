import OneSdk.KeyedList
import Mathlib.Data.List.DropRight

namespace OneSdk.KeptFirst

open KeyedList

variable {N M C : Type} [DecidableEq N] [DecidableEq C] (f : N → C)

def place (m : N × M) : C := f m.1

/-- A value is taken only where its place is free, and nothing frees the place. -/
def change (l : List (N × M)) (call : N × Option M) : List (N × M) :=
  match call.2 with
  | none => erase (place f) (f call.1) l
  | some m => if (lookup (place f) (f call.1) l).isSome then l else l ++ [(call.1, m)]

def changes (calls : List (N × Option M)) : List (N × M) := calls.foldl (change f) []

def since (c : C) (calls : List (N × Option M)) : List (N × Option M) :=
  (calls.filter (fun call => f call.1 = c)).rtakeWhile (fun call => call.2.isSome)

variable {f} {l : List (N × M)} {calls : List (N × Option M)} {call : N × Option M}

omit [DecidableEq N] in
theorem keyed_change (hl : Keyed (place f) l) (call : N × Option M) : Keyed (place f) (change f l call) := by
  rw [change]
  split
  · exact keyed_erase hl
  · split
    · exact hl
    next m _ hfree =>
      rw [Bool.not_eq_true, Option.isSome_eq_false_iff, Option.isNone_iff_eq_none, lookup_eq_none] at hfree
      rw [Keyed, List.map_append, List.map_singleton]
      refine List.nodup_append.mpr ⟨hl, List.nodup_singleton _, ?_⟩
      intro b hb c hc
      obtain ⟨x, hx, rfl⟩ := List.mem_map.mp hb
      rw [List.mem_singleton.mp hc]
      exact hfree x hx

omit [DecidableEq N] in
theorem lookup_change (hl : Keyed (place f) l) (c : C) (call : N × Option M) :
    lookup (place f) c (change f l call) =
      if f call.1 = c then call.2.bind (fun m => (lookup (place f) c l).or (some (call.1, m)))
      else lookup (place f) c l := by
  obtain ⟨n, _ | m⟩ := call
  · simp only [change, lookup_erase hl, eq_comm, Option.bind_none]
  · simp only [change, Option.bind_some]
    split
    next hheld =>
      split
      next hc =>
        obtain ⟨x, hx⟩ := Option.isSome_iff_exists.mp hheld
        rw [← hc, hx, Option.some_or]
      next => rfl
    next hfree =>
      rw [lookup, List.find?_append, ← lookup]
      split
      next hc =>
        subst hc
        rw [List.find?_cons_of_pos (by simp [place])]
      next hc => rw [List.find?_cons_of_neg (by simpa [place] using hc), List.find?_nil, Option.or_none]

omit [DecidableEq N] in
theorem keyed_changes (calls : List (N × Option M)) : Keyed (place f) (changes f calls) := by
  induction calls using List.reverseRecOn with
  | nil => exact keyed_nil
  | append_singleton calls call ih =>
      rw [changes, List.foldl_append]
      exact keyed_change ih call

omit [DecidableEq N] in
theorem since_append (c : C) (call : N × Option M) :
    since f c (calls ++ [call]) =
      if f call.1 = c then (if call.2.isSome then since f c calls ++ [call] else []) else since f c calls := by
  rw [since, List.filter_append]
  split
  next hc => rw [List.filter_cons_of_pos (by simpa using hc), List.filter_nil, List.rtakeWhile_concat, since]
  next hc => rw [List.filter_cons_of_neg (by simpa using hc), List.filter_nil, List.append_nil, since]

omit [DecidableEq N] in
theorem since_brings {c : C} (hcall : call ∈ since f c calls) : call.2.isSome = true :=
  List.mem_rtakeWhile_imp (p := fun x : N × Option M => x.2.isSome) hcall

omit [DecidableEq N] in
/-- Of the calls since a place was last freed, it holds what the first brought. -/
theorem lookup_changes (calls : List (N × Option M)) (c : C) :
    lookup (place f) c (changes f calls) =
      (since f c calls).head?.bind (fun call => call.2.map (Prod.mk call.1)) := by
  induction calls using List.reverseRecOn with
  | nil => rfl
  | append_singleton calls call ih =>
      rw [changes, List.foldl_append, List.foldl_cons, List.foldl_nil, ← changes,
        lookup_change (keyed_changes calls), ih, since_append]
      split
      next hc =>
        obtain ⟨n, _ | m⟩ := call
        · rfl
        · simp only [Option.bind_some, Option.isSome_some, if_true, List.head?_append]
          cases h : (since f c calls).head? with
          | none => rfl
          | some first =>
              obtain ⟨m', hm'⟩ := Option.isSome_iff_exists.mp (since_brings (List.mem_of_mem_head? h))
              simp [hm']
      next => rfl

theorem filter_name (hl : Keyed (place f) l) (n : N) :
    l.filter (fun m => m.1 = n) = ((lookup (place f) (f n) l).filter (fun m => m.1 = n)).toList := by
  induction l with
  | nil => rfl
  | cons x l ih =>
      obtain ⟨hx, hl⟩ := List.nodup_cons.mp (hl : ((x :: l).map (place f)).Nodup)
      by_cases hc : f x.1 = f n
      · have hnone : l.filter (fun m => m.1 = n) = [] := by
          rw [List.filter_eq_nil_iff]
          intro y hy hn
          refine hx (List.mem_map.mpr ⟨y, hy, ?_⟩)
          rw [place, place, hc, of_decide_eq_true hn]
        rw [lookup, List.find?_cons_of_pos (by simpa [place] using hc)]
        by_cases hn : x.1 = n
        · rw [List.filter_cons_of_pos (by simpa using hn), hnone, Option.filter_some_pos (by simpa using hn)]
          rfl
        · rw [List.filter_cons_of_neg (by simpa using hn), hnone, Option.filter_some_neg (by simpa using hn)]
          rfl
      · have hn : x.1 ≠ n := fun hn => hc (congrArg f hn)
        rw [List.filter_cons_of_neg (by simpa using hn), ih hl, lookup, lookup,
          List.find?_cons_of_neg (by simpa [place] using hc)]

section Requests

-- A request `p` asks for the value `want p` under its name and `frees` its place or not. The
-- change is `op p`, and what is held shows its value.
variable {P V : Type} (op : P → Option M) (frees : P → Bool) (want : P → Option V) (shown : M → Option V)

def request (call : N × P) : N × Option M := (call.1, op call.2)

def lastFor (n : N) (calls : List (N × P)) : Option P :=
  ((calls.filter (fun call => call.1 = n)).getLast?).map Prod.snd

/-- Of the requests for a place since the last that frees it, the first. -/
def decisive (f : N → C) (c : C) (calls : List (N × P)) : Option (N × P) :=
  ((calls.filter (fun call => f call.1 = c)).rtakeWhile (fun call => !frees call.2)).head?

/-- Each name stands once with the value that was last wanted for it, or not at all where none was. -/
def Latest (calls : List (N × P)) (l : List (N × M)) : Prop :=
  ∀ n, (l.filter (fun m => m.1 = n)).map (fun m => shown m.2) = (((lastFor n calls).bind want).map some).toList

/-- Where the last request for a name wants a value, the request that decides is for this name and wants
the same. Where it wants none, the one that decides is for another name. -/
structure DecidedAlike (f : N → C) (calls : List (N × P)) : Prop where
  kept (n : N) (p : P) (v : V) : lastFor n calls = some p → want p = some v →
    ∃ q, decisive frees f (f n) calls = some (n, q) ∧ want q = some v
  gone (n : N) (p : P) : lastFor n calls = some p → want p = none →
    ∀ call, decisive frees f (f n) calls = some call → call.1 ≠ n

variable {op frees want shown} {calls : List (N × P)}

theorem lastFor_eq_none {n : N} : lastFor n calls = none ↔ ∀ call ∈ calls, call.1 ≠ n := by
  rw [lastFor, Option.map_eq_none_iff, List.getLast?_eq_none_iff, List.filter_eq_nil_iff]
  simp only [decide_eq_true_eq, ne_eq]

omit [DecidableEq N] in
theorem head?_since (hfrees : ∀ p, (op p).isSome = !frees p) (c : C) (calls : List (N × P)) :
    (since f c (calls.map (request op))).head? = (decisive frees f c calls).map (request op) := by
  rw [decisive, ← List.head?_map, since, List.filter_map, List.rtakeWhile, ← List.map_reverse, List.takeWhile_map,
    ← List.map_reverse, ← funext (fun call : N × P => hfrees call.2)]
  rfl

omit [DecidableEq N] in
theorem decisive_mem {c : C} {call : N × P} (h : decisive frees f c calls = some call) :
    call ∈ calls ∧ frees call.2 = false := by
  have hmem := List.mem_of_mem_head? h
  have hkeeps : (!frees call.2) = true := List.mem_rtakeWhile_imp (p := fun x : N × P => !frees x.2) hmem
  exact ⟨List.mem_of_mem_filter ((List.rtakeWhile_suffix _ _).mem hmem), by simpa using hkeeps⟩

theorem shown_under (hfrees : ∀ p, (op p).isSome = !frees p) (hop : ∀ p m, op p = some m → shown m = want p) (n : N) :
    ((changes f (calls.map (request op))).filter (fun m => m.1 = n)).map (fun m => shown m.2) =
      (((decisive frees f (f n) calls).filter (fun call => call.1 = n)).map (fun call => want call.2)).toList := by
  rw [filter_name (keyed_changes _), lookup_changes, head?_since hfrees]
  cases h : decisive frees f (f n) calls with
  | none => rfl
  | some call =>
      have hsome : (op call.2).isSome = true := by rw [hfrees, (decisive_mem h).2, Bool.not_false]
      obtain ⟨m, hm⟩ := Option.isSome_iff_exists.mp hsome
      have hreq : (request op call).2 = some m := hm
      rw [Option.map_some, Option.bind_some, hreq, Option.map_some]
      by_cases hn : call.1 = n
      · simp [request, Option.filter, hn, hop call.2 m hm]
      · simp [request, Option.filter, hn]

/-- The changes hold the last value of each name exactly if the deciding requests ask for it. -/
theorem latest_iff (hfrees : ∀ p, (op p).isSome = !frees p) (hop : ∀ p m, op p = some m → shown m = want p) :
    Latest want shown calls (changes f (calls.map (request op))) ↔ DecidedAlike frees want f calls := by
  rw [Latest]
  simp only [shown_under hfrees hop]
  constructor
  · intro h
    constructor
    · intro n p v hlast hwant
      have hn := h n
      rw [hlast, Option.bind_some, hwant] at hn
      cases hd : decisive frees f (f n) calls with
      | none => simp [hd] at hn
      | some call =>
          obtain ⟨n', q⟩ := call
          by_cases hname : n' = n
          · subst hname
            refine ⟨q, rfl, ?_⟩
            simpa [hd] using hn
          · simp [hd, hname] at hn
    · intro n p hlast hwant call hd hname
      have hn := h n
      rw [hlast, Option.bind_some, hwant, hd, Option.filter_some_pos (by simpa using hname)] at hn
      exact absurd hn (List.cons_ne_nil _ _)
  · intro h n
    cases hlast : lastFor n calls with
    | none =>
        have hnone : (decisive frees f (f n) calls).filter (fun call => call.1 = n) = none := by
          rw [Option.filter_eq_none_iff]
          intro call hd
          simpa using lastFor_eq_none.mp hlast call (decisive_mem hd).1
        rw [hnone]
        rfl
    | some p =>
        cases hwant : want p with
        | none =>
            have hnone : (decisive frees f (f n) calls).filter (fun call => call.1 = n) = none := by
              rw [Option.filter_eq_none_iff]
              intro call hd
              simpa using h.gone n p hlast hwant call hd
            rw [hnone, Option.bind_some, hwant]
            rfl
        | some v =>
            obtain ⟨q, hd, hq⟩ := h.kept n p v hlast hwant
            rw [hd, Option.filter_some_pos (by simp), Option.map_some, hq, Option.bind_some, hwant]
            rfl

end Requests

end OneSdk.KeptFirst
