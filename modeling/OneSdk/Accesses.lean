import Mathlib.Data.List.Nodup
import OneSdk.Lifetimes

namespace OneSdk.Accesses

inductive Access where
  | use (n : Nat)
  | free (n : Nat)

def access (l : Lifetimes) : Access → Option Lifetimes
  | .use n => if l.Live n then some l else none
  | .free n => if h : l.Live n then some (l.release n h.1) else none

/-- A program goes wrong at the first access to an object that is not live, so one that
goes through releases no object twice. -/
def perform : Lifetimes → List Access → Option Lifetimes
  | l, [] => some l
  | l, a :: as => (access l a).bind fun l => perform l as

def frees (ns : List Nat) : List Access := ns.map .free

def Owns (l : Lifetimes) (ns : List Nat) : Prop := ns.Nodup ∧ ∀ n ∈ ns, l.Live n

variable {l l' : Lifetimes} {n m : Nat} {ns ms : List Nat} {as : List Access}

theorem perform_append (l : Lifetimes) (as bs : List Access) :
    perform l (as ++ bs) = (perform l as).bind fun l' => perform l' bs := by
  induction as generalizing l with
  | nil => rfl
  | cons a as ih => simp only [List.cons_append, perform, Option.bind_assoc, ih]

theorem perform_use (h : l.Live n) : perform l (.use n :: as) = perform l as := by
  rw [perform, access, if_pos h]
  rfl

theorem owns_nil : Owns l [] := ⟨List.nodup_nil, fun _ h => absurd h List.not_mem_nil⟩

theorem owns_append : Owns l (ns ++ ms) ↔ Owns l ns ∧ Owns l ms ∧ ns.Disjoint ms := by
  rw [Owns, Owns, Owns, List.nodup_append']
  constructor
  · rintro ⟨⟨hns, hms, hdisjoint⟩, hlive⟩
    exact ⟨⟨hns, fun n hn => hlive n (List.mem_append_left _ hn)⟩,
      ⟨hms, fun n hn => hlive n (List.mem_append_right _ hn)⟩, hdisjoint⟩
  · rintro ⟨⟨hns, hnsLive⟩, ⟨hms, hmsLive⟩, hdisjoint⟩
    refine ⟨⟨hns, hms, hdisjoint⟩, fun n hn => ?_⟩
    rcases List.mem_append.mp hn with hn | hn
    · exact hnsLive n hn
    · exact hmsLive n hn

theorem owns_perm (hperm : ns.Perm ms) : Owns l ns ↔ Owns l ms := by
  rw [Owns, Owns, hperm.nodup_iff]
  exact and_congr_right fun _ => forall_congr' fun n => by rw [hperm.mem_iff]

theorem owns_sublist (hsub : ms.Sublist ns) (h : Owns l ns) : Owns l ms :=
  ⟨hsub.nodup h.1, fun n hn => h.2 n (hsub.mem hn)⟩

theorem owns_allocate (ns ms : List Nat) (h : Owns l (ns ++ ms)) : Owns l.allocate (ns ++ l.allocated :: ms) := by
  refine ⟨List.nodup_middle.mpr (List.nodup_cons.mpr ⟨fun hmem => ?_, h.1⟩), fun n hn => ?_⟩
  · exact Nat.lt_irrefl _ (h.2 _ hmem).1
  · rw [Lifetimes.allocate_live]
    rcases List.mem_cons.mp (List.perm_middle.mem_iff.mp hn) with rfl | hn
    · exact .inr rfl
    · exact .inl (h.2 n hn)

theorem perform_frees (as : List Access) (h : Owns l (ns ++ ms)) :
    ∃ l', perform l (frees ns ++ as) = perform l' as ∧ Owns l' ms ∧ ∀ m, l'.Live m ↔ l.Live m ∧ m ∉ ns := by
  induction ns generalizing l with
  | nil => exact ⟨l, rfl, h, fun m => by simp⟩
  | cons n ns ih =>
      obtain ⟨hnodup, hlive⟩ := h
      obtain ⟨hnot, hrest⟩ := List.nodup_cons.mp hnodup
      have hn : l.Live n := hlive n List.mem_cons_self
      have howns : Owns (l.release n hn.1) (ns ++ ms) := by
        refine ⟨hrest, fun m hm => Lifetimes.release_live.mpr ⟨hlive m (List.mem_cons_of_mem _ hm), ?_⟩⟩
        rintro rfl
        exact hnot hm
      obtain ⟨l', hperform, hms, hlive'⟩ := ih howns
      refine ⟨l', ?_, hms, fun m => ?_⟩
      · rw [← hperform, frees, List.map_cons, List.cons_append, perform, access, dif_pos hn]
        rfl
      · rw [hlive', Lifetimes.release_live, List.mem_cons, not_or, and_assoc]

theorem perform_frees_all (h : Owns l ns) :
    ∃ l', perform l (frees ns) = some l' ∧ ∀ m, l'.Live m ↔ l.Live m ∧ m ∉ ns := by
  have hall : Owns l (ns ++ []) := by rwa [List.append_nil]
  obtain ⟨l', hperform, -, hlive⟩ := perform_frees [] hall
  rw [List.append_nil] at hperform
  exact ⟨l', hperform, hlive⟩

theorem perform_uses (as : List Access) (h : ∀ n ∈ ns, l.Live n) : perform l (ns.map .use ++ as) = perform l as := by
  induction ns with
  | nil => rfl
  | cons n ns ih =>
      rw [List.map_cons, List.cons_append, perform_use (h n List.mem_cons_self),
        ih fun m hm => h m (List.mem_cons_of_mem _ hm)]

theorem access_allocated {a : Access} (h : access l a = some l') : l'.allocated = l.allocated := by
  cases a with
  | use n =>
      rw [access] at h
      split at h
      · exact Option.some.inj h ▸ rfl
      · exact nomatch h
  | free n =>
      rw [access] at h
      split at h
      · exact Option.some.inj h ▸ rfl
      · exact nomatch h

theorem perform_allocated (hperform : perform l as = some l') : l'.allocated = l.allocated := by
  induction as generalizing l with
  | nil => exact Option.some.inj hperform ▸ rfl
  | cons a as ih =>
      rw [perform, Option.bind_eq_some_iff] at hperform
      obtain ⟨l₁, haccess, hperform⟩ := hperform
      exact (ih hperform).trans (access_allocated haccess)

theorem access_nodup {a : Access} (h : access l a = some l') (hnodup : l.released.Nodup) : l'.released.Nodup := by
  cases a with
  | use n =>
      rw [access] at h
      split at h
      · exact Option.some.inj h ▸ hnodup
      · exact nomatch h
  | free n =>
      rw [access] at h
      split at h
      next hlive =>
        cases h
        exact List.nodup_cons.mpr ⟨hlive.2, hnodup⟩
      next => exact nomatch h

theorem perform_nodup (hperform : perform l as = some l') (hnodup : l.released.Nodup) : l'.released.Nodup := by
  induction as generalizing l with
  | nil => exact Option.some.inj hperform ▸ hnodup
  | cons a as ih =>
      rw [perform, Option.bind_eq_some_iff] at hperform
      obtain ⟨l₁, haccess, hperform⟩ := hperform
      exact ih hperform (access_nodup haccess hnodup)

theorem perform_dead (hperform : perform l as = some l') (h : ¬l.Live n) : ¬l'.Live n := by
  induction as generalizing l with
  | nil => exact Option.some.inj hperform ▸ h
  | cons a as ih =>
      rw [perform, Option.bind_eq_some_iff] at hperform
      obtain ⟨l₁, haccess, hperform⟩ := hperform
      refine ih hperform ?_
      cases a with
      | use m =>
          rw [access] at haccess
          split at haccess
          · exact Option.some.inj haccess ▸ h
          · exact nomatch haccess
      | free m =>
          rw [access] at haccess
          split at haccess
          · cases haccess
            exact fun hlive => h (Lifetimes.release_live.mp hlive).1
          · exact nomatch haccess

theorem perform_freed (hperform : perform l as = some l') (h : .free n ∈ as) : ¬l'.Live n := by
  induction as generalizing l with
  | nil => exact absurd h List.not_mem_nil
  | cons a as ih =>
      rw [perform, Option.bind_eq_some_iff] at hperform
      obtain ⟨l₁, haccess, hperform⟩ := hperform
      rcases List.mem_cons.mp h with rfl | h
      · refine perform_dead hperform ?_
        rw [access] at haccess
        split at haccess
        · cases haccess
          exact fun hlive => (Lifetimes.release_live.mp hlive).2 rfl
        · exact nomatch haccess
      · exact ih hperform h

theorem perform_stale {bs : List Access} (h : .free n ∈ as) : perform l (as ++ .use n :: bs) = none := by
  rw [perform_append]
  cases hperform : perform l as with
  | none => rfl
  | some l' =>
      rw [Option.bind_some, perform, access, if_neg (perform_freed hperform h)]
      rfl

end OneSdk.Accesses
