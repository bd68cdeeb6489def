import Mathlib.Data.List.Basic

namespace OneSdk.RoundCipher

variable {β : Type}

section Cipher

variable (mix : β → β → β) (sub lin : β → β)

def rounds (keys : List β) (x : β) : β := keys.foldl (fun x k => mix (lin (sub x)) k) x

/-- The last round does not spread. -/
def encipher (first : β) (inner : List β) (last : β) (block : β) : β :=
  mix (sub (rounds mix sub lin inner (mix block first))) last

/-- The keys of the inverse cipher, which has the same shape. -/
def dualKeys (keys : List β) : List β := (keys.map lin).reverse

end Cipher

variable {mix : β → β → β} {sub lin sub' lin' : β → β}

theorem rounds_cons (k : β) (keys : List β) (x : β) :
    rounds mix sub lin (k :: keys) x = rounds mix sub lin keys (mix (lin (sub x)) k) := rfl

theorem rounds_append (keys keys' : List β) (x : β) :
    rounds mix sub lin (keys ++ keys') x = rounds mix sub lin keys' (rounds mix sub lin keys x) := by
  rw [rounds, List.foldl_append]
  rfl

section Inverse

variable (hmix : ∀ x k, mix (mix x k) k = x) (hsub : ∀ x, sub' (sub x) = x) (hlin : ∀ x, lin' (lin x) = x)
  (hadd : ∀ x k, lin' (mix x k) = mix (lin' x) (lin' k))

include hmix hsub hlin hadd

theorem rounds_undone (keys : List β) (x : β) :
    rounds mix sub' lin' (dualKeys lin' keys) (sub (rounds mix sub lin keys x)) = sub x := by
  induction keys generalizing x with
  | nil => rfl
  | cons k keys ih =>
      have hlast : rounds mix sub' lin' [lin' k] (sub (mix (lin (sub x)) k)) = sub x := by
        rw [rounds_cons, hsub, hadd, hlin, hmix]
        rfl
      rw [rounds_cons, dualKeys, List.map_cons, List.reverse_cons, rounds_append, ← dualKeys, ih, hlast]

theorem encipher_dual (first : β) (inner : List β) (last block : β) :
    encipher mix sub' lin' last (dualKeys lin' inner) first (encipher mix sub lin first inner last block) = block := by
  rw [encipher, encipher, hmix, rounds_undone hmix hsub hlin hadd, hsub, hmix]

end Inverse

end OneSdk.RoundCipher
